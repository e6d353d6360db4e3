/-
The ready queues of the single-queue scheduler
(kernel/base/sched/sched_sq/los_sched.c), and `OsGetTopTask`, which
takes the next task to run out of them.

# The queues

`g_sched` holds `OS_PRIORITY_QUEUE_NUM` (32) `SchedQueue`s, one for
each process priority, and each of them one list for each task
priority. Priority `p` is the bit `PRIQUEUE_PRIOR0_BIT >> p` of a
bitmap, so that `CLZ` of a bitmap is the highest priority (the smallest
number) in it: a list's bit is set in its `SchedQueue`'s `queueBitmap`
while it holds a task, and a `SchedQueue`'s bit in `g_sched`'s own
`queueBitmap` while its bitmap is not zero. `readyTasks` counts each
list.

`OsGetTopTask` walks both bitmaps from the highest priority down and
takes the first task of a list that may run on the current CPU; it
clears the bit of a list (or of a `SchedQueue`) in a local copy of the
bitmap when none of its tasks may, and settles on the CPU's idle task
when no queued task may run there. The two loops are one definition,
`scanQueues`, applied to what each visits.

# What the model keeps

Tasks and processes are drawn from two types `τ` and `π` with
decidable equality. A list `priQueueList[p]` is the list of the tasks
linked on it through their `pendList`, from the head. A task keeps
`taskStatus`, `policy`, `priority`, `processID` and `cpuAffiMask`, a
process `processStatus`, `priority` and `readyTaskNum`: what the queue
code reads and writes. The machine is the SMP one
(`LOSCFG_KERNEL_SMP == YES`), whose `OsGetTopTask` skips the tasks that
may not run on the current CPU; each CPU has its idle task,
`idleTaskID` of its `Percpu`.

# What it leaves out

Time slices, sort links, statistics and `LOS_ASSERT`s; the callbacks
`taskScan` and `swtmrScan` of `Sched`.
-/
import LiteOsA.Core.Bitmap
import Mathlib.Logic.Function.Basic

namespace LiteOsA.Sched

-- ============================================================ constants

/-- `OS_PRIORITY_QUEUE_NUM`. -/
def OS_PRIORITY_QUEUE_NUM : Nat := 32

/-- `PRIQUEUE_PRIOR0_BIT`: the bit of priority 0. -/
def PRIQUEUE_PRIOR0_BIT : Nat := 0x80000000

/-- `OS_TASK_STATUS_READY` (los_task_pri.h). -/
def OS_TASK_STATUS_READY : Nat := 0x0002

/-- `OS_PROCESS_STATUS_READY` (los_process_pri.h). -/
def OS_PROCESS_STATUS_READY : Nat := 0x0020

/-- `LOS_SCHED_IDLE` (los_process_pri.h). -/
def LOS_SCHED_IDLE : Nat := 3

-- ============================================================= the state


variable {τ π : Type} [DecidableEq τ] [DecidableEq π]

/-- The fields of `LosTaskCB` the queue code reads; `taskStatus`,
`policy`, `priority` and `cpuAffiMask` are `UINT16`s. -/
structure LosTaskCB (π : Type) where
  taskStatus : Nat
  policy : Nat
  priority : Nat
  processID : π
  cpuAffiMask : Nat
  deriving DecidableEq, Repr

/-- The fields of `LosProcessCB` the queue code reads; `priority` and
`readyTaskNum` are `UINT16`s. -/
structure LosProcessCB where
  processStatus : Nat
  priority : Nat
  readyTaskNum : Nat
  deriving DecidableEq, Repr

/-- `SchedQueue`: the lists of one process priority, from the head, with
their counts and bitmap. -/
structure SchedQueue (τ : Type) where
  priQueueList : Nat → List τ
  readyTasks : Nat → Nat
  queueBitmap : Nat

/-- `g_sched` with the task and process control blocks and the idle
task of each CPU. -/
structure SchedSys (τ π : Type) where
  queueList : Nat → SchedQueue τ
  queueBitmap : Nat
  tasks : τ → LosTaskCB π
  processes : π → LosProcessCB
  idleTaskID : Nat → τ

/-- `taskStatus & OS_TASK_STATUS_READY`. -/
def LosTaskCB.isReady (taskCB : LosTaskCB π) : Bool :=
  taskCB.taskStatus &&& OS_TASK_STATUS_READY != 0

/-- `newTask->cpuAffiMask & (1U << cpuid)`: the task may run on `cpuid`. -/
def cpuAffine (s : SchedSys τ π) (cpuid : Nat) (newTask : τ) : Bool :=
  (s.tasks newTask).cpuAffiMask &&& 1 <<< cpuid != 0

-- ================================================== the priority queues

/-- The two enqueues, `OsSchedPriQueueEnHead` and `OsSchedPriQueueEnTail`,
which differ only in the end of the list `insert` links the task at. -/
def OsSchedPriQueueEn (insert : τ → List τ → List τ) (s : SchedSys τ π)
    (proPriority : Nat) (priqueueItem : τ) (priority : Nat) : SchedSys τ π :=
  let queueList := s.queueList proPriority
  let top :=
    if queueList.queueBitmap = 0 then s.queueBitmap ||| (PRIQUEUE_PRIOR0_BIT >>> proPriority)
    else s.queueBitmap
  let bitMap :=
    if queueList.priQueueList priority = [] then queueList.queueBitmap ||| (PRIQUEUE_PRIOR0_BIT >>> priority)
    else queueList.queueBitmap
  let priQueueList := Function.update queueList.priQueueList priority
    (insert priqueueItem (queueList.priQueueList priority))
  let readyTasks := Function.update queueList.readyTasks priority (u32 (queueList.readyTasks priority + 1))
  { s with
    queueList := Function.update s.queueList proPriority ⟨priQueueList, readyTasks, bitMap⟩
    queueBitmap := top }

/-- `OsSchedPriQueueEnHead`: `LOS_ListHeadInsert`. -/
def OsSchedPriQueueEnHead (s : SchedSys τ π) (proPriority : Nat) (priqueueItem : τ)
    (priority : Nat) : SchedSys τ π :=
  OsSchedPriQueueEn (fun x l => x :: l) s proPriority priqueueItem priority

/-- `OsSchedPriQueueEnTail`: `LOS_ListTailInsert`. -/
def OsSchedPriQueueEnTail (s : SchedSys τ π) (proPriority : Nat) (priqueueItem : τ)
    (priority : Nat) : SchedSys τ π :=
  OsSchedPriQueueEn (fun x l => l ++ [x]) s proPriority priqueueItem priority

/-- `OsSchedPriQueueDelete`: `LOS_ListDelete` unlinks the task, and the
bits of an emptied list and of an emptied `SchedQueue` are cleared. -/
def OsSchedPriQueueDelete (s : SchedSys τ π) (proPriority : Nat) (priqueueItem : τ)
    (priority : Nat) : SchedSys τ π :=
  let queueList := s.queueList proPriority
  let priQueueList := Function.update queueList.priQueueList priority
    ((queueList.priQueueList priority).erase priqueueItem)
  let readyTasks := Function.update queueList.readyTasks priority (u32Sub (queueList.readyTasks priority) 1)
  let bitMap :=
    if priQueueList priority = [] then queueList.queueBitmap &&& ((2 ^ 32 - 1) ^^^ (PRIQUEUE_PRIOR0_BIT >>> priority))
    else queueList.queueBitmap
  let top :=
    if bitMap = 0 then s.queueBitmap &&& ((2 ^ 32 - 1) ^^^ (PRIQUEUE_PRIOR0_BIT >>> proPriority))
    else s.queueBitmap
  { s with
    queueList := Function.update s.queueList proPriority ⟨priQueueList, readyTasks, bitMap⟩
    queueBitmap := top }

/-- `OsSchedDeTaskQueue(taskCB, processCB)`: an idle task is in no list;
`readyTaskNum` is a `UINT16`. -/
def OsSchedDeTaskQueue (s : SchedSys τ π) (taskCB : τ) (processCB : π) : SchedSys τ π :=
  let task := s.tasks taskCB
  let process := s.processes processCB
  let s := if task.policy ≠ LOS_SCHED_IDLE then OsSchedPriQueueDelete s process.priority taskCB task.priority else s
  let readyTaskNum := (2 ^ 16 - 1 + process.readyTaskNum) % 2 ^ 16
  let processStatus :=
    if readyTaskNum = 0 then process.processStatus &&& ((2 ^ 32 - 1) ^^^ OS_PROCESS_STATUS_READY)
    else process.processStatus
  { s with
    tasks := Function.update s.tasks taskCB
      { task with taskStatus := task.taskStatus &&& ((2 ^ 32 - 1) ^^^ OS_TASK_STATUS_READY) }
    processes := Function.update s.processes processCB { process with readyTaskNum, processStatus } }

-- ======================================================== OsGetTopTask

/-- `bitmap & ~(1U << k)` is `LOS_BitmapClr` of `bitmap` at a bit
position `k`. -/
theorem and_not_shiftLeft (bitmap : Nat) {k : Nat} (hk : k < 32) :
    bitmap &&& ((2 ^ 32 - 1) ^^^ 1 <<< k) = LOS_BitmapClr bitmap k := by
  rw [LOS_BitmapClr, mask_eq_mod, Nat.mod_eq_of_lt hk, Nat.xor_comm]

/-- Clearing the bit `CLZ` names takes a nonzero bitmap down: the bit
is set in a 32-bit word, and the mask drops every bit above 31 of a
wider one. -/
theorem clearTop_lt {bitmap : Nat} (h0 : bitmap ≠ 0) :
    bitmap &&& ((2 ^ 32 - 1) ^^^ 1 <<< (OS_PRIORITY_QUEUE_NUM - CLZ bitmap - 1)) < bitmap := by
  have hk : OS_PRIORITY_QUEUE_NUM - CLZ bitmap - 1 < 32 := by unfold OS_PRIORITY_QUEUE_NUM; omega
  rw [and_not_shiftLeft bitmap hk]
  by_cases hb : bitmap < 2 ^ 32
  · obtain ⟨hlt, hbit, -⟩ := CLZ_spec h0 hb
    have hk' : OS_PRIORITY_QUEUE_NUM - CLZ bitmap - 1 = 31 - CLZ bitmap := by
      unfold OS_PRIORITY_QUEUE_NUM; omega
    refine lt_of_le_of_ne (LOS_BitmapClr_le _ _) fun heq => ?_
    -- the cleared bit is set in `bitmap`
    have := congrArg (fun x => Nat.testBit x (31 - CLZ bitmap)) heq
    simp only [testBit_LOS_BitmapClr, hk', hbit] at this
    simp at this
  · have hclr : LOS_BitmapClr bitmap (OS_PRIORITY_QUEUE_NUM - CLZ bitmap - 1) < 2 ^ 32 :=
      Nat.lt_pow_two_of_testBit _ fun i hi => by simp [testBit_LOS_BitmapClr]; omega
    omega

set_option linter.unusedVariables false in
/-- The two loops of `OsGetTopTask`: while `bitmap` is not zero, visit
the priority `CLZ(bitmap)`, and clear its bit when the visit finds no
task. -/
def scanQueues {β : Type} (visit : Nat → Option β) (bitmap : Nat) : Option β :=
  if h0 : bitmap = 0 then none
  else
    let priority := CLZ bitmap
    match visit priority with
    | some newTask => some newTask
    | none => scanQueues visit (bitmap &&& ((2 ^ 32 - 1) ^^^ 1 <<< (OS_PRIORITY_QUEUE_NUM - priority - 1)))
termination_by bitmap
decreasing_by exact clearTop_lt h0

/-- The loops of `OsGetTopTask` on the CPU `cpuid`: the task they jump
to `FIND_TASK` with, if any. -/
def OsGetTopTask.search (s : SchedSys τ π) (cpuid : Nat) : Option τ :=
  scanQueues (fun processPriority =>
      let queueList := s.queueList processPriority
      scanQueues (fun priority => (queueList.priQueueList priority).find? (cpuAffine s cpuid))
        queueList.queueBitmap)
    s.queueBitmap

/-- `OsGetTopTask` on the CPU `cpuid`: the task found, or the CPU's idle
task, taken out of the queues by `OsSchedDeTaskQueue`. -/
def OsGetTopTask (s : SchedSys τ π) (cpuid : Nat) : τ × SchedSys τ π :=
  let newTask := (OsGetTopTask.search s cpuid).getD (s.idleTaskID cpuid)
  (newTask, OsSchedDeTaskQueue s newTask (s.tasks newTask).processID)

end LiteOsA.Sched
