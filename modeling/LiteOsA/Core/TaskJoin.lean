/-
Joining and detaching threads, and what deleting and recycling a task
does to a join (kernel/base/core/los_task.c, with `OsSchedTaskWait`,
`OsSchedTaskWake` and `OsSchedTaskExit` of sched_sq/los_sched.c).

# What the model keeps

A task keeps the bits of `taskStatus` these functions read and write,
`waitFlag` and `waitID` (what a pended task waits for), its process,
and its `joinList` as the tasks linked on it, first first. A process
keeps whether it is running, whether it is a user-mode process, its
main thread and its number of threads. `g_taskRecyleList` and
`g_losFreeTask` are the tasks on them, head first.

A task's `pendList` is on one list at a time. A task pends here only
on a `joinList`, the one of the task `waitID` names, so unlinking its
`pendList` takes it off that join list. `OsInsertTCBToFreeList` clears
the control block and keeps only the task's number, so the join list
of a recycled task is empty; a joiner it held keeps its own links and
wait fields.

Every function runs under the scheduler lock. The switch away from a
task that blocks or is deleted (`OsSchedResched`) clears its running
bit. Which task runs is the scheduler's choice: a ready task may start
running at any time (`Call.run`).

# What it leaves out

The mutexes a deleted task holds (`OsTaskReleaseHoldLock` releases
them), futexes, signals and the cross-core paths: what
`OsRunTaskToDeleteCheckOnRun` decides for a running task is an input
(`onRun`: nothing, or the value the call returns without deleting).
The exit of a process's main thread (`OsTaskExitGroup`) and of its
last thread (`OsProcessExit`) are other parts of the kernel; a call
that reaches them is not a step of this model.
-/
import LiteOsA.Base
import LiteOsA.Lib.Reach
import Mathlib.Logic.Function.Basic

namespace LiteOsA.TaskJoin

-- ============================================================ constants

/-- `OS_TASK_WAIT_JOIN`. -/
def OS_TASK_WAIT_JOIN : Nat := 7

/-- `OS_INVALID_VALUE`. -/
def OS_INVALID_VALUE : Nat := 0xFFFFFFFF

/-- `LOS_ESRCH`. -/
def LOS_ESRCH : Nat := 3

/-- `LOS_MOD_TSK`. -/
def LOS_MOD_TSK : Nat := 0x2

/-- `LOS_ERRNO_TSK_ID_INVALID`. -/
def LOS_ERRNO_TSK_ID_INVALID : Nat := LOS_ERRNO_OS_ERROR LOS_MOD_TSK 0x07

/-- `LOS_ERRNO_TSK_NOT_CREATED`. -/
def LOS_ERRNO_TSK_NOT_CREATED : Nat := LOS_ERRNO_OS_ERROR LOS_MOD_TSK 0x0a

/-- `LOS_ERRNO_TSK_OPERATE_SYSTEM_TASK`. -/
def LOS_ERRNO_TSK_OPERATE_SYSTEM_TASK : Nat := LOS_ERRNO_OS_ERROR LOS_MOD_TSK 0x14

-- ============================================================= the state

/-- `LosTaskCB`, with the status bits as flags. -/
structure LosTaskCB where
  /-- `OS_TASK_STATUS_UNUSED` -/
  unused : Bool
  /-- `OS_TASK_STATUS_INIT` -/
  init : Bool
  /-- `OS_TASK_STATUS_READY` -/
  ready : Bool
  /-- `OS_TASK_STATUS_RUNNING` -/
  running : Bool
  /-- `OS_TASK_STATUS_PENDING` -/
  pending : Bool
  /-- `OS_TASK_STATUS_EXIT` -/
  exit : Bool
  /-- `OS_TASK_FLAG_PTHREAD_JOIN` -/
  pthreadJoin : Bool
  /-- `OS_TASK_FLAG_DETACHED` -/
  detached : Bool
  /-- `OS_TASK_FLAG_SYSTEM_TASK` -/
  systemTask : Bool
  /-- `OS_TASK_FLAG_NO_DELETE` -/
  noDelete : Bool
  waitFlag : Nat
  waitID : Nat
  processID : Nat
  joinList : List Nat
  deriving DecidableEq, Repr

/-- `LosProcessCB`, what the task code reads of it. -/
structure LosProcessCB where
  /-- `OS_PROCESS_STATUS_RUNNING` -/
  running : Bool
  /-- `processMode == OS_USER_MODE` -/
  userMode : Bool
  threadGroupID : Nat
  threadNumber : Nat
  deriving DecidableEq, Repr

/-- The task and process tables and the two lists of unused tasks. -/
structure TaskSys where
  tasks : Nat → LosTaskCB
  processes : Nat → LosProcessCB
  g_taskRecyleList : List Nat
  g_losFreeTask : List Nat

namespace TaskSys

/-- Write one task. -/
def modifyTask (s : TaskSys) (t : Nat) (f : LosTaskCB → LosTaskCB) : TaskSys :=
  { s with tasks := Function.update s.tasks t (f (s.tasks t)) }

/-- Write one process. -/
def modifyProcess (s : TaskSys) (p : Nat) (f : LosProcessCB → LosProcessCB) : TaskSys :=
  { s with processes := Function.update s.processes p (f (s.processes p)) }

variable (s : TaskSys)

@[simp]
theorem modifyTask_tasks (t t' : Nat) (f : LosTaskCB → LosTaskCB) :
    (s.modifyTask t f).tasks t' = if t' = t then f (s.tasks t) else s.tasks t' :=
  Function.update_apply _ _ _ _

@[simp]
theorem modifyTask_processes (t : Nat) (f : LosTaskCB → LosTaskCB) :
    (s.modifyTask t f).processes = s.processes := rfl

@[simp]
theorem modifyTask_g_taskRecyleList (t : Nat) (f : LosTaskCB → LosTaskCB) :
    (s.modifyTask t f).g_taskRecyleList = s.g_taskRecyleList := rfl

@[simp]
theorem modifyTask_g_losFreeTask (t : Nat) (f : LosTaskCB → LosTaskCB) :
    (s.modifyTask t f).g_losFreeTask = s.g_losFreeTask := rfl

@[simp]
theorem modifyProcess_tasks (p : Nat) (f : LosProcessCB → LosProcessCB) :
    (s.modifyProcess p f).tasks = s.tasks := rfl

@[simp]
theorem modifyProcess_g_taskRecyleList (p : Nat) (f : LosProcessCB → LosProcessCB) :
    (s.modifyProcess p f).g_taskRecyleList = s.g_taskRecyleList := rfl

@[simp]
theorem modifyProcess_g_losFreeTask (p : Nat) (f : LosProcessCB → LosProcessCB) :
    (s.modifyProcess p f).g_losFreeTask = s.g_losFreeTask := rfl

end TaskSys

open TaskSys

-- ============================================================== joining

/-- `OsTaskJoinPostUnsafe`: the first joiner, if any, is woken
(`OsTaskWakeClearPendMask`, `OsSchedTaskWake`), the task is no longer
joinable, and it is marked exited. -/
def OsTaskJoinPostUnsafe (s : TaskSys) (t : Nat) : TaskSys :=
  let s :=
    if (s.tasks t).pthreadJoin then
      let s := match (s.tasks t).joinList with
        | [] => s
        | resumedTask :: rest =>
          let s := s.modifyTask t fun task => { task with joinList := rest }
          s.modifyTask resumedTask fun task =>
            { task with waitID := 0, waitFlag := 0, pending := false, ready := true }
      s.modifyTask t fun task => { task with pthreadJoin := false }
    else s
  s.modifyTask t fun task => { task with exit := true }

/-- `OsTaskJoinPendUnsafe(taskCB)`, called by `runTask`: `none` when
`runTask` blocks on the join list (`OsSchedTaskWait`, for ever). -/
def OsTaskJoinPendUnsafe (s : TaskSys) (runTask t : Nat) : Option Nat × TaskSys :=
  if !(s.processes (s.tasks t).processID).running then (some LOS_EPERM, s)
  else if (s.tasks t).init then (some LOS_EINVAL, s)
  else if (s.tasks t).pthreadJoin ∧ (s.tasks t).joinList = [] then
    -- `OsTaskWaitSetPendMask`, then `OsSchedTaskWait` and the switch away
    let s := s.modifyTask runTask fun task =>
      { task with waitID := t, waitFlag := OS_TASK_WAIT_JOIN, pending := true }
    let s := s.modifyTask runTask fun task => { task with ready := false, running := false }
    (none, s.modifyTask t fun task => { task with joinList := task.joinList ++ [runTask] })
  else if (s.tasks t).exit then (some LOS_OK, s)
  else (some LOS_EINVAL, s)

/-- `OsTaskSetDeatchUnsafe`: a joinable task without a joiner becomes
detached. -/
def OsTaskSetDeatchUnsafe (s : TaskSys) (t : Nat) : Nat × TaskSys :=
  if !(s.processes (s.tasks t).processID).running then (LOS_EPERM, s)
  else if (s.tasks t).pthreadJoin then
    if (s.tasks t).joinList = [] then
      (LOS_OK, s.modifyTask t fun task => { task with pthreadJoin := false, detached := true })
    else (LOS_ESRCH, s)
  else (LOS_EINVAL, s)

-- ============================================================= deleting

/-- `OsSchedTaskExit`: off the ready queue, or off the join list it
pends on. -/
def OsSchedTaskExit (s : TaskSys) (t : Nat) : TaskSys :=
  if (s.tasks t).ready then s.modifyTask t fun task => { task with ready := false }
  else if (s.tasks t).pending then
    let s := s.modifyTask (s.tasks t).waitID fun task => { task with joinList := task.joinList.erase t }
    s.modifyTask t fun task => { task with pending := false }
  else s

/-- `OsTaskStatusUnusedSet`. -/
def OsTaskStatusUnusedSet (s : TaskSys) (t : Nat) : TaskSys :=
  s.modifyTask t fun task => { task with unused := true }

/-- `OsTaskReleaseHoldLock`: the joiner is woken only for a task of a
user-mode process. -/
def OsTaskReleaseHoldLock (s : TaskSys) (t : Nat) : TaskSys :=
  if (s.processes (s.tasks t).processID).userMode then OsTaskJoinPostUnsafe s t else s

/-- The end both deletions share: one thread less, and the task on the
recycle list. -/
def toRecyleList (s : TaskSys) (t : Nat) : TaskSys :=
  let s := s.modifyProcess (s.tasks t).processID fun p => { p with threadNumber := p.threadNumber - 1 }
  { s with g_taskRecyleList := s.g_taskRecyleList ++ [t] }

/-- `OsTaskDeleteInactive`. -/
def OsTaskDeleteInactive (s : TaskSys) (t : Nat) : TaskSys :=
  let s := OsTaskReleaseHoldLock s t
  let s := OsSchedTaskExit s t
  let s := OsTaskStatusUnusedSet s t
  toRecyleList s t

/-- `OsRunTaskToDelete`: the task is switched out for good. -/
def OsRunTaskToDelete (s : TaskSys) (t : Nat) : TaskSys :=
  let s := OsTaskReleaseHoldLock s t
  let s := OsTaskStatusUnusedSet s t
  let s := toRecyleList s t
  s.modifyTask t fun task => { task with running := false }

/-- `OsTaskDeleteUnsafe`: `onRun` is what `OsRunTaskToDeleteCheckOnRun`
returns when it does not let a running task be deleted. -/
def OsTaskDeleteUnsafe (s : TaskSys) (t : Nat) (onRun : Option Nat) : Nat × TaskSys :=
  if (s.tasks t).systemTask then (LOS_ERRNO_TSK_OPERATE_SYSTEM_TASK, s)
  else if (s.tasks t).running then
    match onRun with
    | some errRet => (errRet, s)
    | none => (LOS_OK, OsRunTaskToDelete s t)
  else (LOS_OK, OsTaskDeleteInactive s t)

/-- `LOS_TaskDelete(taskID)` from a task of process `curProcess`:
`none` when the last thread of the caller's own process is deleted,
which is that process's exit. -/
def LOS_TaskDelete (s : TaskSys) (curProcess t : Nat) (onRun : Option Nat) : Option (Nat × TaskSys) :=
  if (s.tasks t).unused then some (LOS_ERRNO_TSK_NOT_CREATED, s)
  else if (s.tasks t).systemTask ∨ (s.tasks t).noDelete then some (LOS_ERRNO_TSK_OPERATE_SYSTEM_TASK, s)
  else if (s.processes (s.tasks t).processID).threadNumber = 1 then
    if (s.tasks t).processID = curProcess then none else some (LOS_ERRNO_TSK_ID_INVALID, s)
  else some (OsTaskDeleteUnsafe s t onRun)

/-- `OsTaskToExit`, for a thread that is neither its process's main
thread nor its last one (`none` otherwise): a detached thread deletes
itself, a joinable one wakes its joiner and is switched out. -/
def OsTaskToExit (s : TaskSys) (t : Nat) : Option TaskSys :=
  let runProcess := s.processes (s.tasks t).processID
  if runProcess.threadGroupID = t then none
  else if runProcess.threadNumber = 1 then none
  else if (s.tasks t).detached then some (OsTaskDeleteUnsafe s t none).2
  else
    let s := OsTaskJoinPostUnsafe s t
    some (s.modifyTask t fun task => { task with running := false })

-- ============================================================ recycling

/-- The control block `OsInsertTCBToFreeList` leaves: cleared, unused
and of no process. -/
def LosTaskCB.cleared : LosTaskCB :=
  ⟨true, false, false, false, false, false, false, false, false, false, 0, 0, OS_INVALID_VALUE, []⟩

/-- `OsInsertTCBToFreeList`: cleared, and at the head of the free list. -/
def OsInsertTCBToFreeList (s : TaskSys) (t : Nat) : TaskSys :=
  let s := s.modifyTask t fun _ => LosTaskCB.cleared
  { s with g_losFreeTask := t :: s.g_losFreeTask }

/-- `OsTaskResourcesToFree`: an unused task goes to the free list. -/
def OsTaskResourcesToFree (s : TaskSys) (t : Nat) : TaskSys :=
  if (s.tasks t).unused then OsInsertTCBToFreeList s t else s

/-- `OsTaskCBRecyleToFree`: every task of the recycle list, first
first, is taken off it and freed. -/
def OsTaskCBRecyleToFree (s : TaskSys) : TaskSys :=
  s.g_taskRecyleList.foldl OsTaskResourcesToFree { s with g_taskRecyleList := [] }

-- ================================================================= runs

/-- A call, with what it returned. -/
inductive Call where
  | joinPend (runTask t : Nat) (ret : Option Nat)
  | detach (t : Nat) (ret : Nat)
  | exit (t : Nat)
  | delete (curProcess t : Nat) (onRun : Option Nat) (ret : Nat)
  | recycle
  | run (t : Nat)

/-- One step under the scheduler lock. A join is called by a running
task, an exit by the running task itself; a ready task may be
scheduled. -/
inductive Step : TaskSys → Call → TaskSys → Prop where
  | joinPend {s : TaskSys} {runTask : Nat} (t : Nat) :
      (s.tasks runTask).running →
        Step s (.joinPend runTask t (OsTaskJoinPendUnsafe s runTask t).1) (OsTaskJoinPendUnsafe s runTask t).2
  | detach {s : TaskSys} (t : Nat) :
      Step s (.detach t (OsTaskSetDeatchUnsafe s t).1) (OsTaskSetDeatchUnsafe s t).2
  | exit {s s' : TaskSys} {t : Nat} :
      (s.tasks t).running → OsTaskToExit s t = some s' → Step s (.exit t) s'
  | delete {s s' : TaskSys} {curProcess t ret : Nat} {onRun : Option Nat} :
      LOS_TaskDelete s curProcess t onRun = some (ret, s') → Step s (.delete curProcess t onRun ret) s'
  | recycle {s : TaskSys} : Step s .recycle (OsTaskCBRecyleToFree s)
  | run {s : TaskSys} {t : Nat} :
      (s.tasks t).ready → Step s (.run t) (s.modifyTask t fun task => { task with ready := false, running := true })

/-- A start with no joiner anywhere and nothing to recycle. -/
def Init (s : TaskSys) : Prop :=
  s.g_taskRecyleList = [] ∧ ∀ t, (s.tasks t).joinList = [] ∧ (s.tasks t).pending = false

/-- The states some run reaches. -/
def Reachable : TaskSys → Prop :=
  Reach Init fun s s' => ∃ e, Step s e s'

end LiteOsA.TaskJoin
