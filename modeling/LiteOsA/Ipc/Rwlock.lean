/-
The read-write lock (kernel/base/ipc/los_rwlock.c).

# What the model keeps

Tasks and locks are drawn from any two types with decidable equality,
`τ` and `μ`. A lock keeps its `magic` word, `rwCount` (positive: that
many read acquisitions; negative: the write owner's recursion depth),
`writeOwner`, and its two pend lists `readList` and `writeList` in list
order. A task keeps its `priority`, which nothing here changes, its
`OS_TASK_FLAG_SYSTEM_TASK` flag and where it is in the lock code: free
to make a call, pended on a lock's read or write list, or woken (by an
unlock, or by its timeout) and not yet back from `OsSchedTaskWait`. A
woken task finishes its lock call in a step of its own
(`OsRwlockPendResume`).

Waits go through `OsSchedLockPendFindPos`, the priority-ordered
insertion the mutex uses, taken from the mutex model. The reader loop
of `OsRwlockPostOp` walks the read list it found: each
`OsSchedTaskWake` takes the first reader off that list, so the list
the loop reads next is the tail of the one it read.

# What it leaves out

`NULL` arguments, `OS_INT_ACTIVE` and `OsPreemptableInSched` (calls
are made from preemptable task context), the reschedule after an
unlock, and `rwCount`'s 8-bit field, which the `INT8_MAX` and
`INT8_MIN` checks keep in range (`LockOk.bounded`).

# Runs

`Step` is one event, labelled with what it shows: a ready task calls
one of the seven entry points on any lock and the call returns (or
blocks), a timed wait expires, or a woken task finishes its lock call.
-/
import LiteOsA.Ipc.Mux
import LiteOsA.Lib.Run

namespace LiteOsA.Rwlock

open Mux (OsSchedLockPendFindPos)

-- ============================================================ constants

/-- `OS_RWLOCK_MAGIC` (los_rwlock_pri.h). -/
def OS_RWLOCK_MAGIC : Nat := 0xBEFDCA

/-- `RWLOCK_COUNT_MASK`. -/
def RWLOCK_COUNT_MASK : Nat := 0x00FFFFFF

/-- `INT8_MAX`, the most read acquisitions `rwCount` holds. -/
def INT8_MAX : Int := 127

/-- `INT8_MIN`, the deepest write recursion `rwCount` holds. -/
def INT8_MIN : Int := -128

/-- `EINVAL` (errno.h), which `OsRwlockPostOp` returns as it is. -/
def EINVAL : Nat := LOS_EINVAL

-- ============================================================= the state


variable {τ μ : Type} [DecidableEq τ] [DecidableEq μ]

/-- Which of a lock's lists a task waits on. -/
inductive Mode where
  | read
  | write
  deriving DecidableEq, Repr

/-- How far a task is in the lock API. -/
inductive TaskState (μ : Type) where
  /-- Not inside a lock call. -/
  | ready
  /-- Pended on a list of `lock` (`OS_TASK_STATUS_PENDING`), with a
  timeout or not. -/
  | pended (lock : μ) (mode : Mode) (timed : Bool)
  /-- Woken, by an unlock or by its timeout, and not yet back from
  `OsSchedTaskWait`. -/
  | woken (lock : μ) (mode : Mode) (timedOut : Bool)
  deriving DecidableEq, Repr

/-- The fields of `LosTaskCB` the lock code reads. -/
structure TaskCB (μ : Type) where
  priority : Nat
  /-- `taskStatus & OS_TASK_FLAG_SYSTEM_TASK`. -/
  system : Bool
  state : TaskState μ
  deriving DecidableEq, Repr

/-- `LosRwlock`; `magic` and `rwCount` are 24- and 8-bit fields. -/
structure LosRwlock (τ : Type) where
  magic : Nat
  rwCount : Int
  writeOwner : Option τ
  /-- `readList`, the pended readers from first to last. -/
  readList : List τ
  /-- `writeList`, the pended writers from first to last. -/
  writeList : List τ
  deriving DecidableEq, Repr

/-- A lock as `memset_s` leaves it. -/
def LosRwlock.zero : LosRwlock τ :=
  ⟨0, 0, none, [], []⟩

/-- The pend list of a mode. -/
def LosRwlock.list (rwlock : LosRwlock τ) : Mode → List τ
  | .read => rwlock.readList
  | .write => rwlock.writeList

/-- Write the pend list of a mode. -/
def LosRwlock.setList (rwlock : LosRwlock τ) : Mode → List τ → LosRwlock τ
  | .read, l => { rwlock with readList := l }
  | .write, l => { rwlock with writeList := l }

/-- The tasks and the locks. -/
structure RwSys (τ μ : Type) where
  tasks : τ → TaskCB μ
  locks : μ → LosRwlock τ

namespace RwSys

/-- Write one task's state. -/
def setTask (s : RwSys τ μ) (t : τ) (st : TaskState μ) : RwSys τ μ :=
  { s with tasks := Function.update s.tasks t { s.tasks t with state := st } }

/-- Write one lock. -/
def modifyLock (s : RwSys τ μ) (m : μ) (f : LosRwlock τ → LosRwlock τ) : RwSys τ μ :=
  { s with locks := Function.update s.locks m (f (s.locks m)) }

variable {s : RwSys τ μ}

omit [DecidableEq μ] in
@[simp]
theorem setTask_state (t t' : τ) (st : TaskState μ) :
    ((s.setTask t st).tasks t').state = if t' = t then st else (s.tasks t').state := by
  by_cases h : t' = t
  · subst h
    simp [setTask]
  · simp [setTask, h]

omit [DecidableEq μ] in
@[simp]
theorem setTask_priority (t t' : τ) (st : TaskState μ) :
    ((s.setTask t st).tasks t').priority = (s.tasks t').priority := by
  by_cases h : t' = t
  · subst h
    simp [setTask]
  · simp [setTask, Function.update_of_ne h]

omit [DecidableEq μ] in
@[simp]
theorem setTask_locks (t : τ) (st : TaskState μ) : (s.setTask t st).locks = s.locks :=
  rfl

omit [DecidableEq τ] in
@[simp]
theorem modifyLock_tasks (m : μ) (f : LosRwlock τ → LosRwlock τ) :
    (s.modifyLock m f).tasks = s.tasks :=
  rfl

omit [DecidableEq τ] in
@[simp]
theorem modifyLock_locks (m m' : μ) (f : LosRwlock τ → LosRwlock τ) :
    (s.modifyLock m f).locks m' = if m' = m then f (s.locks m) else s.locks m' :=
  Function.update_apply _ _ _ _

end RwSys

open RwSys

-- ========================================================= init, destroy

/-- `LOS_RwlockIsValid` on a lock that is there. -/
def LOS_RwlockIsValid (rwlock : LosRwlock τ) : Bool :=
  rwlock.magic &&& RWLOCK_COUNT_MASK = OS_RWLOCK_MAGIC

/-- `LOS_RwlockInit`. -/
def LOS_RwlockInit (s : RwSys τ μ) (m : μ) : Nat × RwSys τ μ :=
  if LOS_RwlockIsValid (s.locks m) then (LOS_EPERM, s)
  else (LOS_OK, s.modifyLock m fun _ => ⟨OS_RWLOCK_MAGIC, 0, none, [], []⟩)

/-- `LOS_RwlockDestroy`. -/
def LOS_RwlockDestroy (s : RwSys τ μ) (m : μ) : Nat × RwSys τ μ :=
  if !LOS_RwlockIsValid (s.locks m) then (LOS_EBADF, s)
  else if (s.locks m).rwCount ≠ 0 then (LOS_EBUSY, s)
  else (LOS_OK, s.modifyLock m fun _ => LosRwlock.zero)

/-- `OsRwlockCheck`, from task context. -/
def OsRwlockCheck (s : RwSys τ μ) (runTask : τ) : Nat :=
  if (s.tasks runTask).system then LOS_EPERM else LOS_OK

-- ================================================================= pend

/-- `OsRwlockPriCompare`: the caller goes before the first task of
`rwList`, or the list is empty. -/
def OsRwlockPriCompare (s : RwSys τ μ) (runTask : τ) : List τ → Bool
  | [] => true
  | highestTask :: _ => decide ((s.tasks runTask).priority < (s.tasks highestTask).priority)

/-- `OsSchedTaskWait(node, timeout, TRUE)` up to the reschedule, with
`node` the `i`-th place of a pend list. -/
def OsSchedTaskWait (s : RwSys τ μ) (runTask : τ) (m : μ) (mode : Mode) (i : Nat)
    (timeout : Nat) : RwSys τ μ :=
  let s := s.modifyLock m fun rwlock => rwlock.setList mode ((rwlock.list mode).insertIdx i runTask)
  s.setTask runTask (.pended m mode (decide (timeout ≠ LOS_WAIT_FOREVER)))

/-- The wait both pend operations end in: `OsSchedLockPendFindPos`,
then `OsSchedTaskWait`. `none`: the caller is blocked. -/
def OsRwlockPend (s : RwSys τ μ) (runTask : τ) (m : μ) (mode : Mode) (timeout : Nat) :
    Option Nat × RwSys τ μ :=
  match OsSchedLockPendFindPos (fun t => (s.tasks t).priority) (s.tasks runTask).priority
      ((s.locks m).list mode) with
  -- the `NULL` node the search returns on a list out of order; the C
  -- would insert at it
  | none => (some LOS_NOK, s)
  | some i => (none, OsSchedTaskWait s runTask m mode i timeout)

/-- `OsRwlockRdPendOp`. -/
def OsRwlockRdPendOp (s : RwSys τ μ) (runTask : τ) (m : μ) (timeout : Nat) :
    Option Nat × RwSys τ μ :=
  let rwlock := s.locks m
  if rwlock.rwCount ≥ 0 ∧ OsRwlockPriCompare s runTask rwlock.writeList then
    if rwlock.rwCount = INT8_MAX then (some LOS_EINVAL, s)
    else (some LOS_OK, s.modifyLock m fun rwlock => { rwlock with rwCount := rwlock.rwCount + 1 })
  else if timeout = 0 then (some LOS_EINVAL, s)
  else if rwlock.writeOwner = some runTask then (some LOS_EINVAL, s)
  else OsRwlockPend s runTask m .read timeout

/-- `OsRwlockWrPendOp`. -/
def OsRwlockWrPendOp (s : RwSys τ μ) (runTask : τ) (m : μ) (timeout : Nat) :
    Option Nat × RwSys τ μ :=
  let rwlock := s.locks m
  if rwlock.rwCount = 0 then
    (some LOS_OK, s.modifyLock m fun rwlock =>
      { rwlock with rwCount := -1, writeOwner := some runTask })
  else if rwlock.rwCount < 0 ∧ rwlock.writeOwner = some runTask then
    if rwlock.rwCount = INT8_MIN then (some LOS_EINVAL, s)
    else (some LOS_OK, s.modifyLock m fun rwlock => { rwlock with rwCount := rwlock.rwCount - 1 })
  else if timeout = 0 then (some LOS_EINVAL, s)
  else OsRwlockPend s runTask m .write timeout

/-- `OsRwlockRdUnsafe`. -/
def OsRwlockRdUnsafe (s : RwSys τ μ) (runTask : τ) (m : μ) (timeout : Nat) :
    Option Nat × RwSys τ μ :=
  if !LOS_RwlockIsValid (s.locks m) then (some LOS_EBADF, s)
  else OsRwlockRdPendOp s runTask m timeout

/-- `OsRwlockTryRdUnsafe`. -/
def OsRwlockTryRdUnsafe (s : RwSys τ μ) (runTask : τ) (m : μ) (timeout : Nat) :
    Option Nat × RwSys τ μ :=
  let rwlock := s.locks m
  if !LOS_RwlockIsValid rwlock then (some LOS_EBADF, s)
  else if rwlock.writeOwner = some runTask then (some LOS_EINVAL, s)
  else if rwlock.rwCount ≥ 0 ∧ !OsRwlockPriCompare s runTask rwlock.writeList then
    (some LOS_EBUSY, s)
  else if rwlock.rwCount < 0 then (some LOS_EBUSY, s)
  else OsRwlockRdPendOp s runTask m timeout

/-- `OsRwlockWrUnsafe`. -/
def OsRwlockWrUnsafe (s : RwSys τ μ) (runTask : τ) (m : μ) (timeout : Nat) :
    Option Nat × RwSys τ μ :=
  if !LOS_RwlockIsValid (s.locks m) then (some LOS_EBADF, s)
  else OsRwlockWrPendOp s runTask m timeout

/-- `OsRwlockTryWrUnsafe`. -/
def OsRwlockTryWrUnsafe (s : RwSys τ μ) (runTask : τ) (m : μ) (timeout : Nat) :
    Option Nat × RwSys τ μ :=
  let rwlock := s.locks m
  if !LOS_RwlockIsValid rwlock then (some LOS_EBADF, s)
  else if rwlock.rwCount > 0 then (some LOS_EBUSY, s)
  else if rwlock.rwCount < 0 ∧ rwlock.writeOwner ≠ some runTask then (some LOS_EBUSY, s)
  else OsRwlockWrPendOp s runTask m timeout

/-- `LOS_RwlockRdLock`. -/
def LOS_RwlockRdLock (s : RwSys τ μ) (runTask : τ) (m : μ) (timeout : Nat) :
    Option Nat × RwSys τ μ :=
  let ret := OsRwlockCheck s runTask
  if ret ≠ LOS_OK then (some ret, s) else OsRwlockRdUnsafe s runTask m timeout

/-- `LOS_RwlockTryRdLock`. -/
def LOS_RwlockTryRdLock (s : RwSys τ μ) (runTask : τ) (m : μ) : Option Nat × RwSys τ μ :=
  let ret := OsRwlockCheck s runTask
  if ret ≠ LOS_OK then (some ret, s) else OsRwlockTryRdUnsafe s runTask m 0

/-- `LOS_RwlockWrLock`. -/
def LOS_RwlockWrLock (s : RwSys τ μ) (runTask : τ) (m : μ) (timeout : Nat) :
    Option Nat × RwSys τ μ :=
  let ret := OsRwlockCheck s runTask
  if ret ≠ LOS_OK then (some ret, s) else OsRwlockWrUnsafe s runTask m timeout

/-- `LOS_RwlockTryWrLock`. -/
def LOS_RwlockTryWrLock (s : RwSys τ μ) (runTask : τ) (m : μ) : Option Nat × RwSys τ μ :=
  let ret := OsRwlockCheck s runTask
  if ret ≠ LOS_OK then (some ret, s) else OsRwlockTryWrUnsafe s runTask m 0

/-- The rest of a lock call once `OsSchedTaskWait` returns:
`LOS_ERRNO_TSK_TIMEOUT` becomes `LOS_ETIMEDOUT`. -/
def OsRwlockPendResume (s : RwSys τ μ) (t : τ) (timedOut : Bool) : Nat × RwSys τ μ :=
  (if timedOut then LOS_ETIMEDOUT else LOS_OK, s.setTask t .ready)

/-- `OsSchedWakePendTimeTask` on a task pended on a lock: it leaves the
pend list, timed out. -/
def OsRwlockPendTimeout (s : RwSys τ μ) (t : τ) (m : μ) (mode : Mode) : RwSys τ μ :=
  let s := s.modifyLock m fun rwlock => rwlock.setList mode ((rwlock.list mode).erase t)
  s.setTask t (.woken m mode true)

-- =============================================================== unlock

/-- `enum RwlockMode`. -/
inductive RwlockMode where
  | RWLOCK_NONE_MODE
  | RWLOCK_READ_MODE
  | RWLOCK_WRITE_MODE
  | RWLOCK_READFIRST_MODE
  | RWLOCK_WRITEFIRST_MODE
  deriving DecidableEq, Repr

open RwlockMode

/-- `OsRwlockGetMode`: which waiters an unlock serves; a writer first
on equal priorities. -/
def OsRwlockGetMode (s : RwSys τ μ) : List τ → List τ → RwlockMode
  | [], [] => RWLOCK_NONE_MODE
  | _ :: _, [] => RWLOCK_READ_MODE
  | [], _ :: _ => RWLOCK_WRITE_MODE
  | pendedReadTask :: _, pendedWriteTask :: _ =>
      if (s.tasks pendedWriteTask).priority ≤ (s.tasks pendedReadTask).priority then
        RWLOCK_WRITEFIRST_MODE
      else RWLOCK_READFIRST_MODE

/-- `OsSchedTaskWake` on a task pended on a list of `m`. -/
def OsSchedTaskWake (s : RwSys τ μ) (m : μ) (mode : Mode) (resumedTask : τ) : RwSys τ μ :=
  let s := s.modifyLock m fun rwlock => rwlock.setList mode ((rwlock.list mode).erase resumedTask)
  s.setTask resumedTask (.woken m mode false)

/-- The loop of `OsRwlockPostOp` over the readers after the first, in
list order: in `RWLOCK_READFIRST_MODE` it stops at the first reader
that does not go before the first writer, and it gives up with `EINVAL`
once `rwCount` reaches `INT8_MAX`. -/
def OsRwlockPostOpLoop (m : μ) (readFirst : Bool) (pendedWriteTaskPri : Nat) :
    RwSys τ μ → List τ → Nat × RwSys τ μ
  | s, [] => (LOS_OK, s)
  | s, resumedTask :: rest =>
      if readFirst ∧ (s.tasks resumedTask).priority ≥ pendedWriteTaskPri then (LOS_OK, s)
      else if (s.locks m).rwCount = INT8_MAX then (EINVAL, s)
      else
        let s := s.modifyLock m fun rwlock => { rwlock with rwCount := rwlock.rwCount + 1 }
        OsRwlockPostOpLoop m readFirst pendedWriteTaskPri (OsSchedTaskWake s m .read resumedTask) rest

/-- `OsRwlockPostOp`: the lock is free, then given to the first writer,
or to the first reader and the readers after it that the loop admits. -/
def OsRwlockPostOp (s : RwSys τ μ) (m : μ) : Nat × RwSys τ μ :=
  let s := s.modifyLock m fun rwlock => { rwlock with rwCount := 0, writeOwner := none }
  let rwlock := s.locks m
  let rwlockMode := OsRwlockGetMode s rwlock.readList rwlock.writeList
  if rwlockMode = RWLOCK_NONE_MODE then (LOS_OK, s)
  else if rwlockMode = RWLOCK_WRITE_MODE ∨ rwlockMode = RWLOCK_WRITEFIRST_MODE then
    match rwlock.writeList with
    | resumedTask :: _ =>
        let s := s.modifyLock m fun rwlock =>
          { rwlock with rwCount := -1, writeOwner := some resumedTask }
        (LOS_OK, OsSchedTaskWake s m .write resumedTask)
    -- not reached: the mode says the list is not empty
    | [] => (LOS_OK, s)
  else
    -- read only in `RWLOCK_READFIRST_MODE`, where the write list is not empty
    let pendedWriteTaskPri := match rwlock.writeList with
      | pendedWriteTask :: _ => (s.tasks pendedWriteTask).priority
      | [] => 0
    match rwlock.readList with
    | resumedTask :: rest =>
        let s := s.modifyLock m fun rwlock => { rwlock with rwCount := 1 }
        OsRwlockPostOpLoop m (decide (rwlockMode = RWLOCK_READFIRST_MODE)) pendedWriteTaskPri
          (OsSchedTaskWake s m .read resumedTask) rest
    -- not reached, as above
    | [] => (LOS_OK, s)

/-- `OsRwlockUnlockUnsafe`. A read unlock does not look at who calls
it: `rwCount` counts read acquisitions, not their tasks. -/
def OsRwlockUnlockUnsafe (s : RwSys τ μ) (runTask : τ) (m : μ) : Nat × RwSys τ μ :=
  let rwlock := s.locks m
  if !LOS_RwlockIsValid rwlock then (LOS_EBADF, s)
  else if rwlock.rwCount = 0 then (LOS_EPERM, s)
  else if rwlock.rwCount < 0 ∧ rwlock.writeOwner ≠ some runTask then (LOS_EPERM, s)
  else if rwlock.rwCount > 1 then
    (LOS_OK, s.modifyLock m fun rwlock => { rwlock with rwCount := rwlock.rwCount - 1 })
  else if rwlock.rwCount < -1 then
    (LOS_OK, s.modifyLock m fun rwlock => { rwlock with rwCount := rwlock.rwCount + 1 })
  else OsRwlockPostOp s m

/-- `LOS_RwlockUnLock`. -/
def LOS_RwlockUnLock (s : RwSys τ μ) (runTask : τ) (m : μ) : Nat × RwSys τ μ :=
  let ret := OsRwlockCheck s runTask
  if ret ≠ LOS_OK then (ret, s) else OsRwlockUnlockUnsafe s runTask m

-- ================================================================= runs

/-- A call a ready task makes. -/
inductive Call (μ : Type) where
  | LOS_RwlockInit (m : μ)
  | LOS_RwlockDestroy (m : μ)
  | LOS_RwlockRdLock (m : μ) (timeout : Nat)
  | LOS_RwlockTryRdLock (m : μ)
  | LOS_RwlockWrLock (m : μ) (timeout : Nat)
  | LOS_RwlockTryWrLock (m : μ)
  | LOS_RwlockUnLock (m : μ)
  deriving DecidableEq, Repr

/-- What task `t`'s call returns (`none`: it blocked) and the state
after it. -/
def callStep (s : RwSys τ μ) (t : τ) : Call μ → Option Nat × RwSys τ μ
  | .LOS_RwlockInit m => let r := LOS_RwlockInit s m; (some r.1, r.2)
  | .LOS_RwlockDestroy m => let r := LOS_RwlockDestroy s m; (some r.1, r.2)
  | .LOS_RwlockRdLock m timeout => LOS_RwlockRdLock s t m timeout
  | .LOS_RwlockTryRdLock m => LOS_RwlockTryRdLock s t m
  | .LOS_RwlockWrLock m timeout => LOS_RwlockWrLock s t m timeout
  | .LOS_RwlockTryWrLock m => LOS_RwlockTryWrLock s t m
  | .LOS_RwlockUnLock m => let r := LOS_RwlockUnLock s t m; (some r.1, r.2)

/-- What a step shows: a call and what it returned, a wait that
expired, or a blocked call that returned. -/
inductive Event (τ μ : Type) where
  | call (t : τ) (c : Call μ) (ret : Option Nat)
  | timeout (t : τ) (m : μ)
  | resume (t : τ) (m : μ) (mode : Mode) (ret : Nat)
  deriving DecidableEq, Repr

/-- One event of the system. -/
inductive Step : RwSys τ μ → Event τ μ → RwSys τ μ → Prop where
  | call {s : RwSys τ μ} {t : τ} (c : Call μ) :
      (s.tasks t).state = .ready → Step s (.call t c (callStep s t c).1) (callStep s t c).2
  | timeout {s : RwSys τ μ} {t : τ} {m : μ} {mode : Mode} :
      (s.tasks t).state = .pended m mode true →
        Step s (.timeout t m) (OsRwlockPendTimeout s t m mode)
  | resume {s : RwSys τ μ} {t : τ} {m : μ} {mode : Mode} {timedOut : Bool} :
      (s.tasks t).state = .woken m mode timedOut →
        Step s (.resume t m mode (OsRwlockPendResume s t timedOut).1)
          (OsRwlockPendResume s t timedOut).2

/-- A call step at the value the call returns, stated apart so that a
run on a fixed input names its returns. -/
theorem Step.call_ret {s : RwSys τ μ} {t : τ} {c : Call μ} {ret : Option Nat}
    (hready : (s.tasks t).state = .ready) (hret : (callStep s t c).1 = ret) :
    Step s (.call t c ret) (callStep s t c).2 :=
  hret ▸ Step.call c hready

/-- A blocked call's return at the value it returns. -/
theorem Step.resume_ret {s : RwSys τ μ} {t : τ} {m : μ} {mode : Mode} {timedOut : Bool}
    {ret : Nat} (hwoken : (s.tasks t).state = .woken m mode timedOut)
    (hret : (OsRwlockPendResume s t timedOut).1 = ret) :
    Step s (.resume t m mode ret) (OsRwlockPendResume s t timedOut).2 :=
  hret ▸ Step.resume hwoken

/-- No task inside the lock code, and every lock fresh from
`LOS_RwlockInit` or not yet initialised (zeroed). -/
def Init (s : RwSys τ μ) : Prop :=
  (∀ t, (s.tasks t).state = .ready) ∧
    ∀ m, s.locks m = ⟨OS_RWLOCK_MAGIC, 0, none, [], []⟩ ∨ s.locks m = LosRwlock.zero

/-- The states some run reaches. -/
def Reachable : RwSys τ μ → Prop :=
  Reach Init fun s s' => ∃ e, Step s e s'

end LiteOsA.Rwlock
