/-
The mutex and its priority protocols (kernel/base/ipc/los_mux.c).

# What the model keeps

Tasks and mutexes are drawn from any two types with decidable
equality, `τ` and `μ`. A task has its `priority` and its `priBitMap`, the
priorities it had before the inheritance and ceiling boosts it is
under, one bit each. A task blocked in `OsMuxPendOp` remembers where
the call stopped (`Wait`): the mutex, whether it waits with a timeout,
and `owner`, the local of `OsMuxPendOp` that names the owner it boosted
when it pended; the code restores that task after a timed wait. A task
that has been woken is still inside `OsMuxPendOp` until the scheduler
runs it again, and finishes the call in a step of its own
(`OsMuxPendResume`).

A mutex keeps its attribute, `muxCount` (a `UINT16`, which a recursive
relock wraps round at 65536 holds), `owner`, the pend list
`muxList` in list order and its `magic` word. Its `holdList` node is
seen from the other end: a task's `lockList` is the list of the mutexes
whose `holdList` is linked in it, in list order.
`OsSchedModifyTaskSchedParam` is seen only through the priority it
writes; the ready queues are the scheduler's.

# What it leaves out

The static-initialiser branch of `OsMuxPendOp` (a mutex here is
initialised by `LOS_MuxInit`, and one zeroed by `LOS_MuxDestroy` is
refused on its magic word before that branch), `NULL` arguments,
`OS_INT_ACTIVE` and `OsPreemptableInSched` (calls are made from
preemptable task context), and scheduling policies.

# Runs

`Step ok` is one event: a ready task makes a call `ok` admits
(`LOS_MuxInit`, `LOS_MuxDestroy`, `LOS_MuxLock`, `LOS_MuxTrylock` or
`LOS_MuxUnlock` on any mutex), a timed wait expires, or a woken task
finishes its lock call. Any interleaving of these is a run; `Reachable`
admits every call.
-/
import LiteOsA.Core.Bitmap
import LiteOsA.Lib.Reach
import Mathlib.Logic.Function.Basic

namespace LiteOsA.Mux

-- ============================================================ attributes

/-- The `protocol` of a mutex attribute. -/
inductive Protocol where
  | LOS_MUX_PRIO_NONE
  | LOS_MUX_PRIO_INHERIT
  | LOS_MUX_PRIO_PROTECT
  deriving DecidableEq, Repr

/-- The `type` of a mutex attribute. -/
inductive MuxType where
  | LOS_MUX_NORMAL
  | LOS_MUX_RECURSIVE
  | LOS_MUX_ERRORCHECK
  deriving DecidableEq, Repr

open Protocol MuxType

/-- `LosMuxAttr`. -/
structure LosMuxAttr where
  protocol : Protocol
  prioceiling : Nat
  type : MuxType
  deriving DecidableEq, Repr

/-- `OS_TASK_PRIORITY_LOWEST` (los_task_pri.h). -/
def OS_TASK_PRIORITY_LOWEST : Nat := 31

/-- `LOS_MuxAttrInit`: the attribute of a mutex initialised without one
(`LOS_MUX_DEFAULT` is `LOS_MUX_RECURSIVE`). -/
def LOS_MuxAttrInit : LosMuxAttr :=
  ⟨LOS_MUX_PRIO_INHERIT, OS_TASK_PRIORITY_LOWEST, LOS_MUX_RECURSIVE⟩

/-- `OsCheckMutexAttr`: the enumerations are in range by construction,
which leaves the ceiling. -/
def OsCheckMutexAttr (attr : LosMuxAttr) : Nat :=
  if attr.prioceiling > OS_TASK_PRIORITY_LOWEST then LOS_NOK else LOS_OK

-- ============================================================= the state


variable {τ μ : Type} [DecidableEq τ] [DecidableEq μ]

/-- Where a blocked `OsMuxPendOp` stopped. -/
structure Wait (τ μ : Type) where
  /-- `runTask->taskMux`. -/
  mux : μ
  /-- `timeout != LOS_WAIT_FOREVER`. -/
  timed : Bool
  /-- The `owner` local: the owner when the task pended. -/
  owner : τ
  deriving DecidableEq, Repr

/-- How far a task is in the mutex API. -/
inductive TaskState (τ μ : Type) where
  /-- Not inside a mutex call: free to make one. -/
  | ready
  /-- Pended on `w.mux` (`OS_TASK_STATUS_PENDING`). -/
  | pended (w : Wait τ μ)
  /-- Woken, by an unlock or by its timeout, and not yet back from
  `OsSchedTaskWait`. -/
  | woken (w : Wait τ μ) (timedOut : Bool)
  deriving DecidableEq, Repr

/-- The fields of `LosTaskCB` the mutex code reads. -/
structure TaskCB (τ μ : Type) where
  priority : Nat
  priBitMap : Nat
  state : TaskState τ μ
  /-- `lockList`: the mutexes whose `holdList` is linked in it. -/
  lockList : List μ
  deriving DecidableEq, Repr

/-- `UINT16` wrap-around. -/
def u16 (x : Nat) : Nat := x % 2 ^ 16

theorem u16_of_lt {x : Nat} (h : x < 2 ^ 16) : u16 x = x := Nat.mod_eq_of_lt h

/-- `LosMux`. -/
structure LosMux (τ : Type) where
  attr : LosMuxAttr
  /-- `muxCount`, a `UINT16`. -/
  muxCount : Nat
  /-- `owner`, `NULL` as `none`. -/
  owner : Option τ
  /-- `muxList`, the pended tasks from first to last. -/
  muxList : List τ
  magic : Nat
  deriving DecidableEq, Repr

/-- `OS_MUX_MAGIC` (los_mux_pri.h). -/
def OS_MUX_MAGIC : Nat := 0xEBCFDEA0

/-- A `LosMux` after `memset_s(mutex, sizeof(LosMux), 0, ...)`. -/
def LosMux.zero : LosMux τ :=
  ⟨⟨LOS_MUX_PRIO_NONE, 0, LOS_MUX_NORMAL⟩, 0, none, [], 0⟩

/-- The tasks and the mutexes. -/
structure MuxSys (τ μ : Type) where
  tasks : τ → TaskCB τ μ
  muxes : μ → LosMux τ

namespace MuxSys

/-- Write one task. -/
def modifyTask (s : MuxSys τ μ) (t : τ) (f : TaskCB τ μ → TaskCB τ μ) : MuxSys τ μ :=
  { s with tasks := Function.update s.tasks t (f (s.tasks t)) }

/-- Write one mutex. -/
def modifyMux (s : MuxSys τ μ) (m : μ) (f : LosMux τ → LosMux τ) : MuxSys τ μ :=
  { s with muxes := Function.update s.muxes m (f (s.muxes m)) }

variable {s : MuxSys τ μ}

omit [DecidableEq μ] in
@[simp]
theorem modifyTask_tasks (t t' : τ) (f : TaskCB τ μ → TaskCB τ μ) :
    (s.modifyTask t f).tasks t' = if t' = t then f (s.tasks t) else s.tasks t' :=
  Function.update_apply _ _ _ _

omit [DecidableEq μ] in
@[simp]
theorem modifyTask_muxes (t : τ) (f : TaskCB τ μ → TaskCB τ μ) : (s.modifyTask t f).muxes = s.muxes :=
  rfl

omit [DecidableEq τ] in
@[simp]
theorem modifyMux_tasks (m : μ) (f : LosMux τ → LosMux τ) : (s.modifyMux m f).tasks = s.tasks :=
  rfl

omit [DecidableEq τ] in
@[simp]
theorem modifyMux_muxes (m m' : μ) (f : LosMux τ → LosMux τ) :
    (s.modifyMux m f).muxes m' = if m' = m then f (s.muxes m) else s.muxes m' :=
  Function.update_apply _ _ _ _

end MuxSys

open MuxSys

-- ============================================== scheduler entry points

/-- `OsSchedModifyTaskSchedParam(taskCB, policy, priority)` as the mutex
code sees it: the task takes the priority. -/
def OsSchedModifyTaskSchedParam (s : MuxSys τ μ) (t : τ) (priority : Nat) : MuxSys τ μ :=
  s.modifyTask t fun task => { task with priority := priority }

/-- Save a priority in a task's `priBitMap`. -/
def bitmapSet (s : MuxSys τ μ) (t : τ) (pos : Nat) : MuxSys τ μ :=
  s.modifyTask t fun task => { task with priBitMap := LOS_BitmapSet task.priBitMap pos }

/-- Drop a priority from a task's `priBitMap`. -/
def bitmapClr (s : MuxSys τ μ) (t : τ) (pos : Nat) : MuxSys τ μ :=
  s.modifyTask t fun task => { task with priBitMap := LOS_BitmapClr task.priBitMap pos }

/-- `LOS_ListTailInsert(&taskCB->lockList, &mutex->holdList)`. -/
def lockListInsert (s : MuxSys τ μ) (t : τ) (m : μ) : MuxSys τ μ :=
  s.modifyTask t fun task => { task with lockList := task.lockList ++ [m] }

/-- `LOS_ListDelete(&mutex->holdList)`: the node leaves the `lockList`
it is linked in, whichever task's that is. -/
def holdListDelete (s : MuxSys τ μ) (m : μ) : MuxSys τ μ :=
  { s with tasks := fun t => { s.tasks t with lockList := (s.tasks t).lockList.erase m } }

section lists

variable {s : MuxSys τ μ}

omit [DecidableEq μ] in
@[simp]
theorem lockListInsert_muxes (t : τ) (m : μ) : (lockListInsert s t m).muxes = s.muxes :=
  rfl

omit [DecidableEq μ] in
theorem lockListInsert_tasks (t t' : τ) (m : μ) :
    (lockListInsert s t m).tasks t' =
      if t' = t then { s.tasks t with lockList := (s.tasks t).lockList ++ [m] } else s.tasks t' :=
  modifyTask_tasks _ _ _

omit [DecidableEq μ] in
@[simp]
theorem lockListInsert_state (t t' : τ) (m : μ) :
    ((lockListInsert s t m).tasks t').state = (s.tasks t').state := by
  rw [lockListInsert_tasks]
  split_ifs with ht
  · rw [ht]
  · rfl

omit [DecidableEq μ] in
@[simp]
theorem lockListInsert_lockList (t t' : τ) (m : μ) :
    ((lockListInsert s t m).tasks t').lockList =
      if t' = t then (s.tasks t').lockList ++ [m] else (s.tasks t').lockList := by
  rw [lockListInsert_tasks]
  split_ifs with ht
  · rw [ht]
  · rfl

omit [DecidableEq τ] in
@[simp]
theorem holdListDelete_muxes (m : μ) : (holdListDelete s m).muxes = s.muxes :=
  rfl

omit [DecidableEq τ] in
@[simp]
theorem holdListDelete_tasks (m : μ) (t : τ) :
    (holdListDelete s m).tasks t = { s.tasks t with lockList := (s.tasks t).lockList.erase m } :=
  rfl

end lists

/-- `OsSchedLockPendFindPosSub`: the index before which a task of
priority `p` goes, walking past the tasks of higher priority; an equal
one is passed too. `none` is the `NULL` the loop leaves when it runs
off the end. -/
def OsSchedLockPendFindPosSub (pri : τ → Nat) (p : Nat) : List τ → Option Nat
  | [] => none
  | t :: l =>
      if pri t < p then (OsSchedLockPendFindPosSub pri p l).map (· + 1)
      else if pri t > p then some 0
      else some 1

/-- `OsSchedLockPendFindPos`: the index in the pend list before which
`OsSchedTaskWait` inserts a task of priority `p`. -/
def OsSchedLockPendFindPos (pri : τ → Nat) (p : Nat) : List τ → Option Nat
  | [] => some 0
  | first :: rest =>
      if pri first > p then some 0
      else if pri ((first :: rest).getLast (List.cons_ne_nil _ _)) ≤ p then some (rest.length + 1)
      else OsSchedLockPendFindPosSub pri p (first :: rest)

-- ======================================================== the mutex code

/-- `OsMuxBitmapSet`: an inheriting owner of lower priority takes the
priority of the task about to pend, saving its own. -/
def OsMuxBitmapSet (s : MuxSys τ μ) (m : μ) (runTask owner : τ) : MuxSys τ μ :=
  if (s.tasks owner).priority > (s.tasks runTask).priority ∧
      (s.muxes m).attr.protocol = LOS_MUX_PRIO_INHERIT then
    let s' := bitmapSet s owner (s.tasks owner).priority
    OsSchedModifyTaskSchedParam s' owner (s'.tasks runTask).priority
  else s

/-- `OsMuxBitmapRestore`, run by a task back from a timed wait on `m`
against the owner it boosted. -/
def OsMuxBitmapRestore (s : MuxSys τ μ) (m : μ) (taskCB owner : τ) : MuxSys τ μ :=
  if (s.muxes m).attr.protocol ≠ LOS_MUX_PRIO_INHERIT then s
  else if (s.tasks owner).priority ≥ (s.tasks taskCB).priority then
    let bitMapPri := LOS_LowBitGet (s.tasks owner).priBitMap
    if bitMapPri ≠ LOS_INVALID_BIT_INDEX then
      OsSchedModifyTaskSchedParam (bitmapClr s owner bitMapPri) owner bitMapPri
    else s
  else if LOS_HighBitGet (s.tasks owner).priBitMap ≠ (s.tasks taskCB).priority then
    bitmapClr s owner (s.tasks taskCB).priority
  else s

/-- `OsMuxPendOp`. `none` is a caller now blocked in `OsSchedTaskWait`;
its call returns from `OsMuxPendResume`. -/
def OsMuxPendOp (s : MuxSys τ μ) (runTask : τ) (m : μ) (timeout : Nat) :
    Option Nat × MuxSys τ μ :=
  let mutex := s.muxes m
  if mutex.muxCount = 0 then
    let s := s.modifyMux m fun mutex => { mutex with muxCount := u16 (mutex.muxCount + 1),
                                                     owner := some runTask }
    let s := lockListInsert s runTask m
    -- the ceiling protocol boosts the new owner at once
    if mutex.attr.protocol = LOS_MUX_PRIO_PROTECT ∧
        (s.tasks runTask).priority > mutex.attr.prioceiling then
      let s := bitmapSet s runTask (s.tasks runTask).priority
      (some LOS_OK, OsSchedModifyTaskSchedParam s runTask mutex.attr.prioceiling)
    else (some LOS_OK, s)
  else if mutex.owner = some runTask ∧ mutex.attr.type = LOS_MUX_RECURSIVE then
    -- the 65536th hold wraps `muxCount` round to 0, and the owner stays
    (some LOS_OK, s.modifyMux m fun mutex => { mutex with muxCount := u16 (mutex.muxCount + 1) })
  else if timeout = 0 then (some LOS_EINVAL, s)
  else
    match mutex.owner with
    -- a counted mutex has an owner (`Inv.owner_iff`); the C would read
    -- through `NULL` here
    | none => (some LOS_NOK, s)
    | some owner =>
        let s := OsMuxBitmapSet s m runTask owner
        match OsSchedLockPendFindPos (fun t => (s.tasks t).priority) (s.tasks runTask).priority
            (s.muxes m).muxList with
        | none => (some LOS_NOK, s)
        | some i =>
            let s := s.modifyMux m fun mutex => { mutex with muxList := mutex.muxList.insertIdx i runTask }
            (none, s.modifyTask runTask fun task =>
              { task with state := .pended ⟨m, decide (timeout ≠ LOS_WAIT_FOREVER), owner⟩ })

/-- The rest of `OsMuxPendOp` once the task runs again: a timed wait
restores the owner it boosted. -/
def OsMuxPendResume (s : MuxSys τ μ) (t : τ) (w : Wait τ μ) (timedOut : Bool) :
    Nat × MuxSys τ μ :=
  let ret := if timedOut then LOS_ETIMEDOUT else LOS_OK
  let s := s.modifyTask t fun task => { task with state := .ready }
  if w.timed then (ret, OsMuxBitmapRestore s w.mux t w.owner) else (ret, s)

/-- `OsSchedWakePendTimeTask` on a task pended on a mutex: it leaves the
pend list, timed out. -/
def OsMuxPendTimeout (s : MuxSys τ μ) (t : τ) (w : Wait τ μ) : MuxSys τ μ :=
  let s := s.modifyMux w.mux fun mutex => { mutex with muxList := mutex.muxList.erase t }
  s.modifyTask t fun task => { task with state := .woken w true }

/-- `OsMuxLockUnsafe`. -/
def OsMuxLockUnsafe (s : MuxSys τ μ) (runTask : τ) (m : μ) (timeout : Nat) :
    Option Nat × MuxSys τ μ :=
  let mutex := s.muxes m
  if mutex.magic ≠ OS_MUX_MAGIC then (some LOS_EBADF, s)
  else if OsCheckMutexAttr mutex.attr ≠ LOS_OK then (some LOS_EINVAL, s)
  else if mutex.attr.type = LOS_MUX_ERRORCHECK ∧ mutex.owner = some runTask then
    (some LOS_EDEADLK, s)
  else OsMuxPendOp s runTask m timeout

/-- `OsMuxTrylockUnsafe(mutex, 0)`. -/
def OsMuxTrylockUnsafe (s : MuxSys τ μ) (runTask : τ) (m : μ) : Option Nat × MuxSys τ μ :=
  let mutex := s.muxes m
  if mutex.magic ≠ OS_MUX_MAGIC then (some LOS_EBADF, s)
  else if OsCheckMutexAttr mutex.attr ≠ LOS_OK then (some LOS_EINVAL, s)
  else if mutex.owner ≠ none ∧
      (mutex.owner ≠ some runTask ∨ mutex.attr.type ≠ LOS_MUX_RECURSIVE) then
    (some LOS_EBUSY, s)
  else OsMuxPendOp s runTask m 0

/-- The loop of `OsMuxPostOpSub` on the owner's bitmap: every pended
task's priority is cleared, except the one equal to `bitMapPri`. -/
def clearPendedPri (pri : τ → Nat) (bitMapPri : Nat) : Nat → List τ → Nat
  | bitmap, [] => bitmap
  | bitmap, p :: l =>
      clearPendedPri pri bitMapPri (if bitMapPri ≠ pri p then LOS_BitmapClr bitmap (pri p) else bitmap) l

/-- `OsMuxPostOpSub`: the owner `taskCB` forgets the boosts of the
waiters of `m`, except one equal to its highest saved priority, and
drops to its lowest saved priority. -/
def OsMuxPostOpSub (s : MuxSys τ μ) (taskCB : τ) (m : μ) : MuxSys τ μ :=
  let mutex := s.muxes m
  let s := if mutex.muxList ≠ [] then
      let bitMapPri := LOS_HighBitGet (s.tasks taskCB).priBitMap
      s.modifyTask taskCB fun task =>
        { task with priBitMap :=
            clearPendedPri (fun t => (s.tasks t).priority) bitMapPri task.priBitMap mutex.muxList }
    else s
  let bitMapPri := LOS_LowBitGet (s.tasks taskCB).priBitMap
  -- `mutex->owner` is `taskCB`: `OsMuxUnlockUnsafe` checked it
  OsSchedModifyTaskSchedParam (bitmapClr s taskCB bitMapPri) taskCB bitMapPri

/-- `OsSchedTaskWake` on the first waiter of a mutex. -/
def OsSchedTaskWake (s : MuxSys τ μ) (m : μ) (resumed : τ) : MuxSys τ μ :=
  let s := s.modifyMux m fun mutex => { mutex with muxList := mutex.muxList.erase resumed }
  s.modifyTask resumed fun task =>
    match task.state with
    | .pended w => { task with state := .woken w false }
    | _ => task

section wake

variable {s : MuxSys τ μ} {m : μ} {resumed : τ}

@[simp]
theorem OsSchedTaskWake_muxes (m' : μ) :
    (OsSchedTaskWake s m resumed).muxes m' =
      if m' = m then { s.muxes m with muxList := (s.muxes m).muxList.erase resumed }
      else s.muxes m' := by
  simp [OsSchedTaskWake]

@[simp]
theorem OsSchedTaskWake_lockList (t : τ) :
    ((OsSchedTaskWake s m resumed).tasks t).lockList = (s.tasks t).lockList := by
  simp only [OsSchedTaskWake, modifyTask_tasks, modifyMux_tasks]
  split_ifs with ht
  · subst ht
    split <;> rfl
  · rfl

theorem OsSchedTaskWake_state_of_ne {t : τ} (ht : t ≠ resumed) :
    ((OsSchedTaskWake s m resumed).tasks t).state = (s.tasks t).state := by
  simp [OsSchedTaskWake, ht]

theorem OsSchedTaskWake_state_of_pended {w : Wait τ μ} (hw : (s.tasks resumed).state = .pended w) :
    ((OsSchedTaskWake s m resumed).tasks resumed).state = .woken w false := by
  simp [OsSchedTaskWake, hw]

end wake

/-- `OsMuxPostOp`: an unlocked mutex with waiters goes to the first of
them; an inheriting owner first gives back what they lent it. -/
def OsMuxPostOp (s : MuxSys τ μ) (taskCB : τ) (m : μ) : MuxSys τ μ :=
  let mutex := s.muxes m
  match mutex.muxList with
  | [] => (holdListDelete s m).modifyMux m fun mutex => { mutex with owner := none }
  | resumed :: _ =>
      let task := s.tasks taskCB
      let s :=
        if mutex.attr.protocol = LOS_MUX_PRIO_INHERIT then
          if (s.tasks resumed).priority > task.priority then
            if LOS_HighBitGet task.priBitMap ≠ (s.tasks resumed).priority then
              bitmapClr s taskCB (s.tasks resumed).priority
            else s
          else if task.priBitMap ≠ 0 then OsMuxPostOpSub s taskCB m
          else s
        else s
      let s := s.modifyMux m fun mutex => { mutex with muxCount := 1, owner := some resumed }
      let s := lockListInsert (holdListDelete s m) resumed m
      OsSchedTaskWake s m resumed

/-- `OsMuxUnlockUnsafe`. -/
def OsMuxUnlockUnsafe (s : MuxSys τ μ) (taskCB : τ) (m : μ) : Nat × MuxSys τ μ :=
  let mutex := s.muxes m
  if mutex.magic ≠ OS_MUX_MAGIC then (LOS_EBADF, s)
  else if OsCheckMutexAttr mutex.attr ≠ LOS_OK then (LOS_EINVAL, s)
  else if mutex.owner ≠ some taskCB then (LOS_EPERM, s)
  else if mutex.muxCount = 0 then (LOS_EPERM, s)
  else
    let s := s.modifyMux m fun mutex => { mutex with muxCount := mutex.muxCount - 1 }
    if mutex.muxCount - 1 ≠ 0 ∧ mutex.attr.type = LOS_MUX_RECURSIVE then (LOS_OK, s)
    else
      -- the ceiling protocol gives back the highest saved priority
      let s :=
        if mutex.attr.protocol = LOS_MUX_PRIO_PROTECT then
          let bitMapPri := LOS_HighBitGet (s.tasks taskCB).priBitMap
          if bitMapPri ≠ LOS_INVALID_BIT_INDEX then
            OsSchedModifyTaskSchedParam (bitmapClr s taskCB bitMapPri) taskCB bitMapPri
          else s
        else s
      (LOS_OK, OsMuxPostOp s taskCB m)

-- ======================================================= init and destroy

/-- `LOS_MuxInit`; `none` is a `NULL` attribute, which reads as
`LOS_MuxAttrInit`. The attribute is copied in before it is checked, and
nothing else of the mutex is looked at. -/
def LOS_MuxInit (s : MuxSys τ μ) (m : μ) (attr : Option LosMuxAttr) : Nat × MuxSys τ μ :=
  let s := s.modifyMux m fun mutex => { mutex with attr := attr.getD LOS_MuxAttrInit }
  if OsCheckMutexAttr (s.muxes m).attr ≠ LOS_OK then (LOS_EINVAL, s)
  else
    (LOS_OK, s.modifyMux m fun mutex =>
      { mutex with muxCount := 0, owner := none, muxList := [], magic := OS_MUX_MAGIC })

/-- `LOS_MuxDestroy`. -/
def LOS_MuxDestroy (s : MuxSys τ μ) (m : μ) : Nat × MuxSys τ μ :=
  let mutex := s.muxes m
  if mutex.magic ≠ OS_MUX_MAGIC then (LOS_EBADF, s)
  else if mutex.muxCount ≠ 0 then (LOS_EBUSY, s)
  else (LOS_OK, s.modifyMux m fun _ => LosMux.zero)

-- ================================================================= runs

/-- A call a ready task makes. -/
inductive Call (μ : Type) where
  | LOS_MuxInit (m : μ) (attr : Option LosMuxAttr)
  | LOS_MuxDestroy (m : μ)
  | LOS_MuxLock (m : μ) (timeout : Nat)
  | LOS_MuxTrylock (m : μ)
  | LOS_MuxUnlock (m : μ)
  deriving DecidableEq, Repr

/-- The state after task `t` makes the call. -/
def callStep (s : MuxSys τ μ) (t : τ) : Call μ → MuxSys τ μ
  | .LOS_MuxInit m attr => (LOS_MuxInit s m attr).2
  | .LOS_MuxDestroy m => (LOS_MuxDestroy s m).2
  | .LOS_MuxLock m timeout => (OsMuxLockUnsafe s t m timeout).2
  | .LOS_MuxTrylock m => (OsMuxTrylockUnsafe s t m).2
  | .LOS_MuxUnlock m => (OsMuxUnlockUnsafe s t m).2

/-- One event of the system; `ok` says which calls the run lets a ready
task make. -/
inductive Step (ok : MuxSys τ μ → τ → Call μ → Prop) : MuxSys τ μ → MuxSys τ μ → Prop where
  | call {s : MuxSys τ μ} {t : τ} (c : Call μ) :
      (s.tasks t).state = .ready → ok s t c → Step ok s (callStep s t c)
  | timeout {s : MuxSys τ μ} {t : τ} {w : Wait τ μ} :
      (s.tasks t).state = .pended w → w.timed = true → Step ok s (OsMuxPendTimeout s t w)
  | resume {s : MuxSys τ μ} {t : τ} {w : Wait τ μ} {timedOut : Bool} :
      (s.tasks t).state = .woken w timedOut → Step ok s (OsMuxPendResume s t w timedOut).2

/-- Tasks at their base priorities, `base`, with nothing saved or held,
and mutexes fresh from `LOS_MuxInit` with the attributes `attr`. -/
def Init (base : τ → Nat) (attr : μ → LosMuxAttr) (s : MuxSys τ μ) : Prop :=
  (∀ t, s.tasks t = ⟨base t, 0, .ready, []⟩) ∧
    ∀ m, s.muxes m = ⟨attr m, 0, none, [], OS_MUX_MAGIC⟩ ∧ OsCheckMutexAttr (attr m) = LOS_OK

/-- The states some run reaches, whatever its calls. -/
def Reachable (base : τ → Nat) (attr : μ → LosMuxAttr) : MuxSys τ μ → Prop :=
  Reach (Init base attr) (Step fun _ _ _ => True)

/-- The calls of task `t` that keep to the contract of `LOS_MuxInit`
and to the range of `muxCount`: a mutex is initialised again only while
nobody holds it, and its owner locks it again only while `muxCount` has
room for one more hold. -/
def Call.Admissible (s : MuxSys τ μ) (t : τ) : Call μ → Prop
  | .LOS_MuxInit m _ => (s.muxes m).muxCount = 0
  | .LOS_MuxLock m _ => (s.muxes m).owner = some t → (s.muxes m).muxCount + 1 < 2 ^ 16
  | .LOS_MuxTrylock m => (s.muxes m).owner = some t → (s.muxes m).muxCount + 1 < 2 ^ 16
  | _ => True

instance (s : MuxSys τ μ) (t : τ) : DecidablePred (Call.Admissible s t) := fun c => by
  cases c <;> unfold Call.Admissible <;> infer_instance

end LiteOsA.Mux
