/-
The counting semaphore (kernel/base/ipc/los_sem.c).

# What the model keeps

Tasks and semaphores are drawn from any two types with decidable
equality, `τ` and `σ`; a semaphore is named by its slot in `g_allSem`.
A semaphore keeps `semCount`, `maxSemCount` and its pend list `semList`
in list order. A task keeps its `OS_TASK_FLAG_SYSTEM_TASK` flag and
where it is in the semaphore code: free to make a call, pended in
`LOS_SemPend`, or woken (by a post, or by its timeout) and not yet back
from `OsSchedTaskWait`. A woken task finishes `LOS_SemPend` in a step
of its own (`OsSemPendResume`), when the scheduler runs it again.

# What it leaves out

The handle table: `g_unusedSemList`, `semStat`, the generation count
in `semID` and `LOS_SemDelete`, with the `LOS_ERRNO_SEM_INVALID` and
`LOS_ERRNO_SEM_ALL_BUSY` returns that read them; runs start with every
semaphore created and delete none. `NULL` handles, `OS_INT_ACTIVE` and
`OsPreemptableInSched` (pends are made from preemptable task context),
the debug hooks, and the reschedule after a post.

# Runs

`Step` is one event, labelled with what it shows: a ready task calls
`LOS_SemPend` with any timeout, `LOS_SemPost` is called (from a task or
an interrupt: it does not look at its caller), a timed wait expires, or
a woken task finishes its pend.
-/
import LiteOsA.Base
import LiteOsA.Lib.Reach
import Mathlib.Logic.Function.Basic

namespace LiteOsA.Sem

-- ============================================================ constants

/-- `LOS_MOD_SEM` (los_err.h). -/
def LOS_MOD_SEM : Nat := 0x7

/-- `LOS_ERRNO_SEM_UNAVAILABLE` (los_sem.h). -/
def LOS_ERRNO_SEM_UNAVAILABLE : Nat := LOS_ERRNO_OS_ERROR LOS_MOD_SEM 0x04

/-- `LOS_ERRNO_SEM_TIMEOUT` (los_sem.h). -/
def LOS_ERRNO_SEM_TIMEOUT : Nat := LOS_ERRNO_OS_ERROR LOS_MOD_SEM 0x07

/-- `LOS_ERRNO_SEM_OVERFLOW` (los_sem.h). -/
def LOS_ERRNO_SEM_OVERFLOW : Nat := LOS_ERRNO_OS_ERROR LOS_MOD_SEM 0x08

/-- `LOS_ERRNO_SEM_PEND_IN_SYSTEM_TASK` (los_sem.h). -/
def LOS_ERRNO_SEM_PEND_IN_SYSTEM_TASK : Nat := LOS_ERRNO_OS_ERROR LOS_MOD_SEM 0x0A

/-- `OS_SEM_COUNT_MAX` (los_config.h). -/
def OS_SEM_COUNT_MAX : Nat := 0xFFFE

/-- `OS_SEM_BINARY_COUNT_MAX` (los_sem.h). -/
def OS_SEM_BINARY_COUNT_MAX : Nat := 1

-- ============================================================= the state


variable {τ σ : Type} [DecidableEq τ] [DecidableEq σ]

/-- How far a task is in the semaphore API. -/
inductive TaskState (σ : Type) where
  /-- Not inside `LOS_SemPend`. -/
  | ready
  /-- Pended on `sem` (`OS_TASK_STATUS_PENDING`), with a timeout or not. -/
  | pended (sem : σ) (timed : Bool)
  /-- Woken, by a post or by its timeout, and not yet back from
  `OsSchedTaskWait`. -/
  | woken (sem : σ) (timedOut : Bool)
  deriving DecidableEq, Repr

/-- The fields of `LosTaskCB` the semaphore code reads. -/
structure TaskCB (σ : Type) where
  /-- `taskStatus & OS_TASK_FLAG_SYSTEM_TASK`. -/
  system : Bool
  state : TaskState σ
  deriving DecidableEq, Repr

/-- `LosSemCB`; `semCount` and `maxSemCount` are `UINT16`s. -/
structure LosSemCB (τ : Type) where
  semCount : Nat
  maxSemCount : Nat
  /-- `semList`, the pended tasks from first to last. -/
  semList : List τ
  deriving DecidableEq, Repr

/-- The tasks and the semaphores. -/
structure SemSys (τ σ : Type) where
  tasks : τ → TaskCB σ
  sems : σ → LosSemCB τ

namespace SemSys

/-- Write one task. -/
def modifyTask (s : SemSys τ σ) (t : τ) (f : TaskCB σ → TaskCB σ) : SemSys τ σ :=
  { s with tasks := Function.update s.tasks t (f (s.tasks t)) }

/-- Write one semaphore. -/
def modifySem (s : SemSys τ σ) (i : σ) (f : LosSemCB τ → LosSemCB τ) : SemSys τ σ :=
  { s with sems := Function.update s.sems i (f (s.sems i)) }

variable {s : SemSys τ σ}

omit [DecidableEq σ] in
@[simp]
theorem modifyTask_tasks (t t' : τ) (f : TaskCB σ → TaskCB σ) :
    (s.modifyTask t f).tasks t' = if t' = t then f (s.tasks t) else s.tasks t' :=
  Function.update_apply _ _ _ _

omit [DecidableEq σ] in
@[simp]
theorem modifyTask_sems (t : τ) (f : TaskCB σ → TaskCB σ) : (s.modifyTask t f).sems = s.sems :=
  rfl

omit [DecidableEq τ] in
@[simp]
theorem modifySem_tasks (i : σ) (f : LosSemCB τ → LosSemCB τ) : (s.modifySem i f).tasks = s.tasks :=
  rfl

omit [DecidableEq τ] in
@[simp]
theorem modifySem_sems (i i' : σ) (f : LosSemCB τ → LosSemCB τ) :
    (s.modifySem i f).sems i' = if i' = i then f (s.sems i) else s.sems i' :=
  Function.update_apply _ _ _ _

end SemSys

open SemSys

-- ============================================================== creation

/-- `OsSemCreate`, for a free control block: the block it fills in. -/
def OsSemCreate (count maxCount : Nat) : Except Nat (LosSemCB τ) :=
  if count > maxCount then .error LOS_ERRNO_SEM_OVERFLOW
  else .ok ⟨count, maxCount, []⟩

/-- `LOS_SemCreate`. -/
def LOS_SemCreate (count : Nat) : Except Nat (LosSemCB τ) :=
  OsSemCreate count OS_SEM_COUNT_MAX

/-- `LOS_BinarySemCreate`. -/
def LOS_BinarySemCreate (count : Nat) : Except Nat (LosSemCB τ) :=
  OsSemCreate count OS_SEM_BINARY_COUNT_MAX

-- ================================================================= pend

/-- `OsSchedTaskWait(&semPended->semList, timeout, TRUE)` up to the
reschedule: the caller pends at the tail of the list. -/
def OsSchedTaskWait (s : SemSys τ σ) (runTask : τ) (i : σ) (timeout : Nat) : SemSys τ σ :=
  let s := s.modifySem i fun sem => { sem with semList := sem.semList ++ [runTask] }
  s.modifyTask runTask fun task =>
    { task with state := .pended i (decide (timeout ≠ LOS_WAIT_FOREVER)) }

/-- `LOS_SemPend` up to its wait: `none` when the caller blocks, to
finish in `OsSemPendResume`. -/
def LOS_SemPend (s : SemSys τ σ) (runTask : τ) (i : σ) (timeout : Nat) :
    Option Nat × SemSys τ σ :=
  if (s.tasks runTask).system then (some LOS_ERRNO_SEM_PEND_IN_SYSTEM_TASK, s)
  else if (s.sems i).semCount > 0 then
    (some LOS_OK, s.modifySem i fun sem => { sem with semCount := sem.semCount - 1 })
  else if timeout = 0 then (some LOS_ERRNO_SEM_UNAVAILABLE, s)
  else (none, OsSchedTaskWait s runTask i timeout)

/-- The rest of `LOS_SemPend` once `OsSchedTaskWait` returns:
`LOS_ERRNO_TSK_TIMEOUT` becomes `LOS_ERRNO_SEM_TIMEOUT`. -/
def OsSemPendResume (s : SemSys τ σ) (t : τ) (timedOut : Bool) : Nat × SemSys τ σ :=
  (if timedOut then LOS_ERRNO_SEM_TIMEOUT else LOS_OK,
    s.modifyTask t fun task => { task with state := .ready })

/-- `OsSchedWakePendTimeTask` on a task pended on a semaphore: it leaves
the pend list, timed out. -/
def OsSemPendTimeout (s : SemSys τ σ) (t : τ) (i : σ) : SemSys τ σ :=
  let s := s.modifySem i fun sem => { sem with semList := sem.semList.erase t }
  s.modifyTask t fun task => { task with state := .woken i true }

-- ================================================================= post

/-- `OsSchedTaskWake` on the first waiter of a semaphore. -/
def OsSchedTaskWake (s : SemSys τ σ) (i : σ) (resumed : τ) : SemSys τ σ :=
  let s := s.modifySem i fun sem => { sem with semList := sem.semList.erase resumed }
  s.modifyTask resumed fun task => { task with state := .woken i false }

/-- `OsSemPostUnsafe`, and so `LOS_SemPost`. The overflow check is
against `OS_SEM_COUNT_MAX`, whatever the semaphore's `maxSemCount`;
`semCount++` is on a `UINT16`. -/
def OsSemPostUnsafe (s : SemSys τ σ) (i : σ) : Nat × SemSys τ σ :=
  let sem := s.sems i
  if sem.semCount = OS_SEM_COUNT_MAX then (LOS_ERRNO_SEM_OVERFLOW, s)
  else
    match sem.semList with
    | resumed :: _ => (LOS_OK, OsSchedTaskWake s i resumed)
    | [] => (LOS_OK, s.modifySem i fun sem => { sem with semCount := (sem.semCount + 1) % 2 ^ 16 })

-- ================================================================= runs

/-- What a step shows: who acted on which semaphore, and what the call
returned (`none`: the caller blocked). -/
inductive Event (τ σ : Type) where
  | pend (t : τ) (i : σ) (timeout : Nat) (ret : Option Nat)
  | post (i : σ) (ret : Nat)
  | timeout (t : τ) (i : σ)
  | resume (t : τ) (i : σ) (ret : Nat)
  deriving DecidableEq, Repr

/-- One event of the system. -/
inductive Step : SemSys τ σ → Event τ σ → SemSys τ σ → Prop where
  | pend {s : SemSys τ σ} {t : τ} (i : σ) (timeout : Nat) :
      (s.tasks t).state = .ready →
        Step s (.pend t i timeout (LOS_SemPend s t i timeout).1) (LOS_SemPend s t i timeout).2
  | post {s : SemSys τ σ} (i : σ) :
      Step s (.post i (OsSemPostUnsafe s i).1) (OsSemPostUnsafe s i).2
  | timeout {s : SemSys τ σ} {t : τ} {i : σ} :
      (s.tasks t).state = .pended i true → Step s (.timeout t i) (OsSemPendTimeout s t i)
  | resume {s : SemSys τ σ} {t : τ} {i : σ} {timedOut : Bool} :
      (s.tasks t).state = .woken i timedOut →
        Step s (.resume t i (OsSemPendResume s t timedOut).1) (OsSemPendResume s t timedOut).2

/-- A control block as `LOS_SemCreate` or `LOS_BinarySemCreate` fills it
in, from a `UINT16` count. -/
def Created (sem : LosSemCB τ) : Prop :=
  ∃ count < 2 ^ 16, LOS_SemCreate count = .ok sem ∨ LOS_BinarySemCreate count = .ok sem

/-- Every semaphore created, no task inside the semaphore code. -/
def Init (s : SemSys τ σ) : Prop :=
  (∀ t, (s.tasks t).state = .ready) ∧ ∀ i, Created (s.sems i)

/-- The states some run reaches. -/
def Reachable : SemSys τ σ → Prop :=
  Reach Init fun s s' => ∃ e, Step s e s'

end LiteOsA.Sem
