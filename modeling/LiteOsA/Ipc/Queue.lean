/-
The message queue (kernel/base/ipc/los_queue.c).

# What the model keeps

Tasks and queues are drawn from any two types with decidable equality,
`τ` and `κ`; a queue is named by its slot in `g_allQueue`. A queue keeps
its length and node size, its ring of nodes (`queueHandle`), `queueHead`
and `queueTail`, the two counts `readWriteableCnt` and the two pend
lists `readWriteList` in list order. A node is seen through what the
two `memcpy_s` of a write leave in it: the message bytes, whose number
is the size word at the node's end; a read copies that many bytes out.

A task keeps where it is in `OsQueueOperate`: free to make a call,
pended on one of a queue's lists with the operation it is making, or
woken (by the other side's hand-off, or by its timeout) and not yet
back from `OsSchedTaskWait`. A task woken by a hand-off finishes the
operation itself when it resumes: it moves the bytes and hands off in
its turn (`OsQueueOperateFinish`), without taking a count.

# What it leaves out

The handle table (`g_freeQueueList`, `queueState`, the generation in
`queueID`, `LOS_QueueDelete`) and the returns that read it; the mail
pools and `memList`; `NULL` buffers; `OS_INT_ACTIVE` and
`OsPreemptableInSched` (calls are made from preemptable task context);
the debug hooks and the reschedule. Runs start with every queue
created and delete none.

# Runs

`Step` is one event, labelled with what it shows: a ready task calls
`LOS_QueueReadCopy`, `LOS_QueueWriteHeadCopy` or `LOS_QueueWriteCopy`
on any queue with any timeout, a timed wait expires, or a woken task
finishes its call.
-/
import LiteOsA.Base
import LiteOsA.Lib.Reach
import Mathlib.Logic.Function.Basic

namespace LiteOsA.Queue

-- ============================================================ constants

/-- `LOS_MOD_QUE` (los_err.h). -/
def LOS_MOD_QUE : Nat := 0x6

/-- `LOS_ERRNO_QUEUE_SIZE_TOO_BIG` (los_queue.h). -/
def LOS_ERRNO_QUEUE_SIZE_TOO_BIG : Nat := LOS_ERRNO_OS_ERROR LOS_MOD_QUE 0x03

/-- `LOS_ERRNO_QUEUE_TIMEOUT` (los_queue.h). -/
def LOS_ERRNO_QUEUE_TIMEOUT : Nat := LOS_ERRNO_OS_ERROR LOS_MOD_QUE 0x07

/-- `LOS_ERRNO_QUEUE_PARA_ISZERO` (los_queue.h). -/
def LOS_ERRNO_QUEUE_PARA_ISZERO : Nat := LOS_ERRNO_OS_ERROR LOS_MOD_QUE 0x0d

/-- `LOS_ERRNO_QUEUE_READSIZE_IS_INVALID` (los_queue.h). -/
def LOS_ERRNO_QUEUE_READSIZE_IS_INVALID : Nat := LOS_ERRNO_OS_ERROR LOS_MOD_QUE 0x10

/-- `LOS_ERRNO_QUEUE_WRITESIZE_ISZERO` (los_queue.h). -/
def LOS_ERRNO_QUEUE_WRITESIZE_ISZERO : Nat := LOS_ERRNO_OS_ERROR LOS_MOD_QUE 0x13

/-- `LOS_ERRNO_QUEUE_WRITE_SIZE_TOO_BIG` (los_queue.h). -/
def LOS_ERRNO_QUEUE_WRITE_SIZE_TOO_BIG : Nat := LOS_ERRNO_OS_ERROR LOS_MOD_QUE 0x15

/-- `LOS_ERRNO_QUEUE_ISFULL` (los_queue.h). -/
def LOS_ERRNO_QUEUE_ISFULL : Nat := LOS_ERRNO_OS_ERROR LOS_MOD_QUE 0x16

/-- `LOS_ERRNO_QUEUE_ISEMPTY` (los_queue.h). -/
def LOS_ERRNO_QUEUE_ISEMPTY : Nat := LOS_ERRNO_OS_ERROR LOS_MOD_QUE 0x1d

/-- `LOS_ERRNO_QUEUE_READ_SIZE_TOO_SMALL` (los_queue.h). -/
def LOS_ERRNO_QUEUE_READ_SIZE_TOO_SMALL : Nat := LOS_ERRNO_OS_ERROR LOS_MOD_QUE 0x1f

-- ======================================================== operations

/-- `OS_QUEUE_READ` and `OS_QUEUE_WRITE`, the index of `readWriteableCnt`
and `readWriteList`. -/
inductive RW where
  | OS_QUEUE_READ
  | OS_QUEUE_WRITE
  deriving DecidableEq, Repr

open RW

/-- `!readWrite`: the other side. -/
def RW.not : RW → RW
  | OS_QUEUE_READ => OS_QUEUE_WRITE
  | OS_QUEUE_WRITE => OS_QUEUE_READ

/-- A message: the bytes a write copies into a node. -/
abbrev Msg := List UInt8

/-- The operation of a call (`OS_QUEUE_OPERATE_TYPE`), with its buffer:
the reader's `*bufferSize`, or the writer's bytes. -/
inductive Op where
  /-- `OS_QUEUE_READ_HEAD`, from `LOS_QueueReadCopy`. -/
  | readHead (bufferSize : Nat)
  /-- `OS_QUEUE_WRITE_HEAD`, from `LOS_QueueWriteHeadCopy`. -/
  | writeHead (msg : Msg)
  /-- `OS_QUEUE_WRITE_TAIL`, from `LOS_QueueWriteCopy`. -/
  | writeTail (msg : Msg)
  deriving DecidableEq, Repr

/-- `OS_QUEUE_READ_WRITE_GET`. -/
def Op.readWrite : Op → RW
  | .readHead _ => OS_QUEUE_READ
  | .writeHead _ => OS_QUEUE_WRITE
  | .writeTail _ => OS_QUEUE_WRITE

-- ============================================================= the state


variable {τ κ : Type} [DecidableEq τ] [DecidableEq κ]

/-- How far a task is in `OsQueueOperate`. -/
inductive TaskState (κ : Type) where
  /-- Not inside a queue call. -/
  | ready
  /-- Pended on `q` (`OS_TASK_STATUS_PENDING`) making `op`, with a
  timeout or not. -/
  | pended (q : κ) (op : Op) (timed : Bool)
  /-- Woken, by a hand-off or by its timeout, and not yet back from
  `OsSchedTaskWait`. -/
  | woken (q : κ) (op : Op) (timedOut : Bool)
  deriving DecidableEq, Repr

/-- `LosQueueCB`. -/
structure LosQueueCB (τ : Type) where
  queueLen : Nat
  /-- The node size: the largest message and its size word. -/
  queueSize : Nat
  /-- The nodes, by position: the message each holds. -/
  queueHandle : Nat → Msg
  queueHead : Nat
  queueTail : Nat
  readWriteableCnt : RW → Nat
  /-- `readWriteList`, the pended readers and writers from first to last. -/
  readWriteList : RW → List τ

/-- The tasks and the queues. -/
structure QueueSys (τ κ : Type) where
  tasks : τ → TaskState κ
  queues : κ → LosQueueCB τ

namespace QueueSys

/-- Write one task's state. -/
def setTask (s : QueueSys τ κ) (t : τ) (st : TaskState κ) : QueueSys τ κ :=
  { s with tasks := Function.update s.tasks t st }

/-- Write one queue. -/
def modifyQueue (s : QueueSys τ κ) (q : κ) (f : LosQueueCB τ → LosQueueCB τ) : QueueSys τ κ :=
  { s with queues := Function.update s.queues q (f (s.queues q)) }

variable {s : QueueSys τ κ}

omit [DecidableEq κ] in
@[simp]
theorem setTask_tasks (t t' : τ) (st : TaskState κ) :
    (s.setTask t st).tasks t' = if t' = t then st else s.tasks t' :=
  Function.update_apply _ _ _ _

omit [DecidableEq κ] in
@[simp]
theorem setTask_queues (t : τ) (st : TaskState κ) : (s.setTask t st).queues = s.queues :=
  rfl

omit [DecidableEq τ] in
@[simp]
theorem modifyQueue_tasks (q : κ) (f : LosQueueCB τ → LosQueueCB τ) :
    (s.modifyQueue q f).tasks = s.tasks :=
  rfl

omit [DecidableEq τ] in
@[simp]
theorem modifyQueue_queues (q q' : κ) (f : LosQueueCB τ → LosQueueCB τ) :
    (s.modifyQueue q f).queues q' = if q' = q then f (s.queues q) else s.queues q' :=
  Function.update_apply _ _ _ _

end QueueSys

open QueueSys

/-- Add one to a count, a `UINT16`. -/
def LosQueueCB.cntInc (cb : LosQueueCB τ) (readWrite : RW) : LosQueueCB τ :=
  let cnt := (cb.readWriteableCnt readWrite + 1) % 2 ^ 16
  { cb with readWriteableCnt := Function.update cb.readWriteableCnt readWrite cnt }

/-- Take one from a count the code has seen to be positive. -/
def LosQueueCB.cntDec (cb : LosQueueCB τ) (readWrite : RW) : LosQueueCB τ :=
  let cnt := cb.readWriteableCnt readWrite - 1
  { cb with readWriteableCnt := Function.update cb.readWriteableCnt readWrite cnt }

-- ============================================================== creation

/-- `LOS_QueueCreate`, for a free control block and the `len * msgSize`
bytes `LOS_MemAlloc` returned (`queue`, whatever they hold). -/
def LOS_QueueCreate (len maxMsgSize : Nat) (queue : Nat → Msg) : Except Nat (LosQueueCB τ) :=
  if maxMsgSize > OS_NULL_SHORT - 4 then .error LOS_ERRNO_QUEUE_SIZE_TOO_BIG
  else if len = 0 ∨ maxMsgSize = 0 then .error LOS_ERRNO_QUEUE_PARA_ISZERO
  else
    .ok ⟨len, maxMsgSize + 4, queue, 0, 0,
      fun readWrite => match readWrite with
        | OS_QUEUE_READ => 0
        | OS_QUEUE_WRITE => len,
      fun _ => []⟩

-- ========================================================= the operation

/-- `OsQueueBufferOperate`: move the head or the tail, then copy. The
copy out fails (and leaves the caller's buffer alone) on a message
longer than the buffer, the copy in on one longer than the node. -/
def OsQueueBufferOperate (cb : LosQueueCB τ) : Op → LosQueueCB τ × Option Msg
  | .readHead bufferSize =>
    let queuePosion := cb.queueHead
    let cb := { cb with
      queueHead := if cb.queueHead + 1 = cb.queueLen then 0 else cb.queueHead + 1 }
    let msg := cb.queueHandle queuePosion
    if msg.length > bufferSize then (cb, none) else (cb, some msg)
  | .writeHead msg =>
    let cb := { cb with
      queueHead := if cb.queueHead = 0 then cb.queueLen - 1 else cb.queueHead - 1 }
    if msg.length > cb.queueSize then (cb, none)
    else ({ cb with queueHandle := Function.update cb.queueHandle cb.queueHead msg }, none)
  | .writeTail msg =>
    let queuePosion := cb.queueTail
    let cb := { cb with
      queueTail := if cb.queueTail + 1 = cb.queueLen then 0 else cb.queueTail + 1 }
    if msg.length > cb.queueSize then (cb, none)
    else ({ cb with queueHandle := Function.update cb.queueHandle queuePosion msg }, none)

/-- `OsQueueOperateParamCheck`, for a created queue: a reader's buffer
must take the largest message, a writer's message must fit a node. -/
def OsQueueOperateParamCheck (cb : LosQueueCB τ) : Op → Nat
  | .readHead bufferSize =>
    if bufferSize < cb.queueSize - 4 then LOS_ERRNO_QUEUE_READ_SIZE_TOO_SMALL else LOS_OK
  | .writeHead msg | .writeTail msg =>
    if msg.length > cb.queueSize - 4 then LOS_ERRNO_QUEUE_WRITE_SIZE_TOO_BIG else LOS_OK

/-- `OsSchedTaskWait(&queueCB->readWriteList[readWrite], timeout, TRUE)`
up to the reschedule: the caller pends at the tail. -/
def OsSchedTaskWait (s : QueueSys τ κ) (runTask : τ) (q : κ) (op : Op) (timeout : Nat) :
    QueueSys τ κ :=
  let s := s.modifyQueue q fun cb =>
    let list := cb.readWriteList op.readWrite ++ [runTask]
    { cb with readWriteList := Function.update cb.readWriteList op.readWrite list }
  s.setTask runTask (.pended q op (decide (timeout ≠ LOS_WAIT_FOREVER)))

/-- `OsSchedTaskWake` on the first task of a pend list. -/
def OsSchedTaskWake (s : QueueSys τ κ) (q : κ) (readWrite : RW) (resumed : τ) : QueueSys τ κ :=
  let s := s.modifyQueue q fun cb =>
    let list := (cb.readWriteList readWrite).erase resumed
    { cb with readWriteList := Function.update cb.readWriteList readWrite list }
  match s.tasks resumed with
  | .pended q' op _ => s.setTask resumed (.woken q' op false)
  | _ => s

/-- The hand-off at the end of `OsQueueOperate`: the first task pended on
side `readWrite` is woken with the count it waits for; with none
pended, that count goes up. -/
def OsQueueWakeOrCount (s : QueueSys τ κ) (q : κ) (readWrite : RW) : QueueSys τ κ :=
  match (s.queues q).readWriteList readWrite with
  | resumed :: _ => OsSchedTaskWake s q readWrite resumed
  | [] => s.modifyQueue q fun cb => cb.cntInc readWrite

/-- The end of `OsQueueOperate`, from `OsQueueBufferOperate` on; a task
woken by a hand-off runs it when it resumes. It hands off to the other
side. -/
def OsQueueOperateFinish (s : QueueSys τ κ) (q : κ) (op : Op) : Option Msg × QueueSys τ κ :=
  let r := OsQueueBufferOperate (s.queues q) op
  (r.2, OsQueueWakeOrCount (s.modifyQueue q fun _ => r.1) q op.readWrite.not)

/-- `OsQueueOperate` up to its wait: `none` when the caller blocks. What
it returns is the return code and the message copied out. -/
def OsQueueOperate (s : QueueSys τ κ) (runTask : τ) (q : κ) (op : Op) (timeout : Nat) :
    Option (Nat × Option Msg) × QueueSys τ κ :=
  let cb := s.queues q
  let readWrite := op.readWrite
  let ret := OsQueueOperateParamCheck cb op
  if ret ≠ LOS_OK then (some (ret, none), s)
  else if cb.readWriteableCnt readWrite = 0 then
    if timeout = LOS_NO_WAIT then
      (some (if readWrite = OS_QUEUE_READ then LOS_ERRNO_QUEUE_ISEMPTY
        else LOS_ERRNO_QUEUE_ISFULL, none), s)
    else (none, OsSchedTaskWait s runTask q op timeout)
  else
    let s := s.modifyQueue q fun cb => cb.cntDec readWrite
    let r := OsQueueOperateFinish s q op
    (some (LOS_OK, r.1), r.2)

/-- The rest of `OsQueueOperate` once `OsSchedTaskWait` returns: a task
that timed out returns `LOS_ERRNO_QUEUE_TIMEOUT`; one handed a count
finishes its operation. -/
def OsQueuePendResume (s : QueueSys τ κ) (t : τ) (q : κ) (op : Op) (timedOut : Bool) :
    (Nat × Option Msg) × QueueSys τ κ :=
  let s := s.setTask t .ready
  if timedOut then ((LOS_ERRNO_QUEUE_TIMEOUT, none), s)
  else
    let r := OsQueueOperateFinish s q op
    ((LOS_OK, r.1), r.2)

/-- `OsSchedWakePendTimeTask` on a task pended on a queue: it leaves its
pend list, timed out. -/
def OsQueuePendTimeout (s : QueueSys τ κ) (t : τ) (q : κ) (op : Op) : QueueSys τ κ :=
  let s := s.modifyQueue q fun cb =>
    let list := (cb.readWriteList op.readWrite).erase t
    { cb with readWriteList := Function.update cb.readWriteList op.readWrite list }
  s.setTask t (.woken q op true)

-- ============================================================ the calls

/-- `LOS_QueueReadCopy`, after `OsQueueReadParameterCheck`. -/
def LOS_QueueReadCopy (s : QueueSys τ κ) (t : τ) (q : κ) (bufferSize timeout : Nat) :
    Option (Nat × Option Msg) × QueueSys τ κ :=
  if bufferSize = 0 ∨ bufferSize > OS_NULL_SHORT - 4 then
    (some (LOS_ERRNO_QUEUE_READSIZE_IS_INVALID, none), s)
  else OsQueueOperate s t q (.readHead bufferSize) timeout

/-- `LOS_QueueWriteHeadCopy`, after `OsQueueWriteParameterCheck`. -/
def LOS_QueueWriteHeadCopy (s : QueueSys τ κ) (t : τ) (q : κ) (msg : Msg) (timeout : Nat) :
    Option (Nat × Option Msg) × QueueSys τ κ :=
  if msg.length = 0 then (some (LOS_ERRNO_QUEUE_WRITESIZE_ISZERO, none), s)
  else OsQueueOperate s t q (.writeHead msg) timeout

/-- `LOS_QueueWriteCopy`, after `OsQueueWriteParameterCheck`. -/
def LOS_QueueWriteCopy (s : QueueSys τ κ) (t : τ) (q : κ) (msg : Msg) (timeout : Nat) :
    Option (Nat × Option Msg) × QueueSys τ κ :=
  if msg.length = 0 then (some (LOS_ERRNO_QUEUE_WRITESIZE_ISZERO, none), s)
  else OsQueueOperate s t q (.writeTail msg) timeout

/-- A call a ready task makes. -/
inductive Call (κ : Type) where
  | LOS_QueueReadCopy (q : κ) (bufferSize timeout : Nat)
  | LOS_QueueWriteHeadCopy (q : κ) (msg : Msg) (timeout : Nat)
  | LOS_QueueWriteCopy (q : κ) (msg : Msg) (timeout : Nat)
  deriving DecidableEq, Repr

/-- What task `t`'s call returns (`none`: it blocked), and the state after. -/
def callStep (s : QueueSys τ κ) (t : τ) : Call κ → Option (Nat × Option Msg) × QueueSys τ κ
  | .LOS_QueueReadCopy q bufferSize timeout => LOS_QueueReadCopy s t q bufferSize timeout
  | .LOS_QueueWriteHeadCopy q msg timeout => LOS_QueueWriteHeadCopy s t q msg timeout
  | .LOS_QueueWriteCopy q msg timeout => LOS_QueueWriteCopy s t q msg timeout

-- ================================================================= runs

/-- What a step shows: who acted, on which queue, and what the call
returned. -/
inductive Event (τ κ : Type) where
  | call (t : τ) (c : Call κ) (ret : Option (Nat × Option Msg))
  | timeout (t : τ) (q : κ)
  | resume (t : τ) (q : κ) (op : Op) (ret : Nat × Option Msg)
  deriving DecidableEq, Repr

/-- One event of the system. -/
inductive Step : QueueSys τ κ → Event τ κ → QueueSys τ κ → Prop where
  | call {s : QueueSys τ κ} {t : τ} (c : Call κ) :
      s.tasks t = .ready → Step s (.call t c (callStep s t c).1) (callStep s t c).2
  | timeout {s : QueueSys τ κ} {t : τ} {q : κ} {op : Op} :
      s.tasks t = .pended q op true → Step s (.timeout t q) (OsQueuePendTimeout s t q op)
  | resume {s : QueueSys τ κ} {t : τ} {q : κ} {op : Op} {timedOut : Bool} :
      s.tasks t = .woken q op timedOut →
        Step s (.resume t q op (OsQueuePendResume s t q op timedOut).1)
          (OsQueuePendResume s t q op timedOut).2

/-- A control block as `LOS_QueueCreate` fills it in, from `UINT16`
arguments. -/
def Created (cb : LosQueueCB τ) : Prop :=
  ∃ len < 2 ^ 16, ∃ maxMsgSize < 2 ^ 16, ∃ queue, LOS_QueueCreate len maxMsgSize queue = .ok cb

/-- Every queue created, no task inside the queue code. -/
def Init (s : QueueSys τ κ) : Prop :=
  (∀ t, s.tasks t = .ready) ∧ ∀ q, Created (s.queues q)

/-- The states some run reaches. -/
def Reachable : QueueSys τ κ → Prop :=
  Reach Init fun s s' => ∃ e, Step s e s'

end LiteOsA.Queue
