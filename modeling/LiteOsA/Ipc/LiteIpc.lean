/-
LiteIPC messages and the buffers they carry
(kernel/extended/liteipc/hm_liteipc.c).

# What the model keeps

Each process has an IPC pool: its kernel and user addresses and size
(`IpcPool`), and the TLSF heap at the kernel address
(`LiteOsA.Mem.Tlsf`), from which `LiteIpcNodeAlloc` takes the message
nodes and the buffers of `OBJ_PTR` objects. `g_ipcUsedNodelist[pid]`
is the list of the buffers the process may free with `buffToFree`,
newest first, each task's `msgListHead` the list of the nodes queued
to it, and each task's `accessMap` the processes it serves. What the
code writes into a node lies past its head, so the heap's words do not
hold it: the message a node holds is kept beside the heap (`nodeMsg`).

A message's data is read only as the special objects at its offsets,
so it is kept as the object at each offset; the checks on the offsets
keep two objects from overlapping.

The build is the one the source configures: `USE_TASKID_AS_HANDLE` (a
service handle is a task, `0` the CMS task) and `USE_TIMESTAMP` (a
reply is matched to its request by the timestamp).

Two fields are the model's own, to state what the code is for: the
blocks each pool has handed out and not taken back (`live`), and each
call of `LiteIpcNodeFree`, with whether its block was one of them
(`freeLog`).

# What it leaves out

The rest of the kernel is the context of a call (`Ctx`): the running
task, the task table that `IsTaskAlive` and the routing read, each
process's IPC task and the CMS task (which `IPC_SET_IPC_THREAD` and
`IPC_SET_CMS` set), the clock, and `copy_from_user`, whose answers
depend on the MMU. Also left out: `ipcInfo.access`, which only
`LiteIpcPoolDelete` reads; the kernel `malloc` of a used-list entry,
taken to succeed; the trace; and the scheduler side of queueing and
pending.
-/
import LiteOsA.Mem.Tlsf
import LiteOsA.Vm.Region
import LiteOsA.Core.ProcessGroup

namespace LiteOsA.LiteIpc

open Tlsf

-- ============================================================ constants

def EINVAL : Int := 22

def EFAULT : Int := 14

def ENOMEM : Int := 12

def ENOENT : Int := 2

def EACCES : Int := 13

def ETIME : Int := 62

/-- `sizeof(SpecialObj)`: the type and the largest member of the union,
`SvcIdentity`. -/
def sizeofSpecialObj : Nat := 16

/-- `sizeof(LOS_DL_LIST)`, two pointers: `IpcListNode` is an `IpcMsg`
and the list node after it. -/
def sizeofLosDlList : Nat := 8

/-- `SEND`, `RECV` and `BUFF_FREE` (hm_liteipc.h). -/
def SEND : Nat := 1 <<< 0

def RECV : Nat := 1 <<< 1

def BUFF_FREE : Nat := 1 <<< 2

/-- `LITEIPC_FLAG_ONEWAY` (hm_liteipc.h). -/
def LITEIPC_FLAG_ONEWAY : Nat := 1

def IPC_MSG_DATA_SZ_MAX : Nat := 1024

def IPC_MSG_OBJECT_NUM_MAX : Nat := IPC_MSG_DATA_SZ_MAX / sizeofSpecialObj

def LITEIPC_TIMEOUT_NS : Nat := 5000000000

/-- `INVAILD_ID`, `-1` as a `UINT32`. -/
def INVAILD_ID : Nat := 0xFFFFFFFF

/-- `LOSCFG_BASE_CORE_TSK_LIMIT` (los_config.h). -/
def LOSCFG_BASE_CORE_TSK_LIMIT : Nat := 128

/-- `MAX_SERVICE_NUM` (hm_liteipc.h). -/
def MAX_SERVICE_NUM : Nat := LOSCFG_BASE_CORE_TSK_LIMIT

/-- `OS_TASK_STATUS_INIT`, `OS_TASK_STATUS_EXIT` and
`OS_TASK_STATUS_UNUSED` (los_task_pri.h). -/
def OS_TASK_STATUS_INIT : Nat := 0x0001

def OS_TASK_STATUS_EXIT : Nat := 0x0100

def OS_TASK_STATUS_UNUSED : Nat := 0x0200

-- ============================================================ messages

/-- `MsgType`. -/
inductive MsgType where
  | MT_REQUEST
  | MT_REPLY
  | MT_FAILED_REPLY
  | MT_DEATH_NOTIFY
  deriving DecidableEq, Repr

/-- `SpecialObj`, its type and the member of the union the type names;
`other` is a type word that names no member. -/
inductive SpecialObj where
  | OBJ_FD (fd : Nat)
  | OBJ_PTR (buffSz buff : Nat)
  | OBJ_SVC (handle : Nat)
  | other (type : Nat)
  deriving DecidableEq, Repr

/-- The fields of `IpcMsg` the kernel reads: `target.handle`, the user
pointers `data` and `offsets` (`dataAddr`, `offsetsAddr`), the data as
the object at each offset, the offsets themselves (`spObjNum` of them),
and the sender's `taskID`, which the kernel fills in. -/
structure IpcMsg where
  type : MsgType
  target : Nat
  flag : Nat
  timestamp : Nat
  dataSz : Nat
  dataAddr : Nat
  offsetsAddr : Nat
  data : Nat → SpecialObj
  offsets : List Nat
  taskID : Nat

/-- `IpcContent`. -/
structure IpcContent where
  flag : Nat
  outMsg : Option IpcMsg
  buffToFree : Nat

/-- `IpcPool`. -/
structure IpcPool where
  uvaddr : Nat
  kvaddr : Nat
  poolSize : Nat
  deriving DecidableEq, Repr

/-- The IPC state of all processes and tasks. -/
structure IpcSys where
  pool : Nat → IpcPool
  heap : Nat → Pool
  usedNodes : Nat → List Nat
  msgList : Nat → List Nat
  nodeMsg : Nat → IpcMsg
  /-- `taskCB->accessMap[processID]`. -/
  accessMap : Nat → Nat → Bool
  live : Nat → List Nat
  freeLog : List (Nat × Nat × Bool)

/-- What the rest of the kernel answers during a call: the running task
(`LOS_CurTaskIDGet`); each task's process and `taskStatus`, each
process's `processMode` and `ipcInfo.ipcTaskID`, and `g_taskMaxNum`;
`g_cmsTask`'s task and `maxMsgSize`; `LOS_CurrNanosec`; the bytes
`copy_from_user` leaves uncopied; and `sizeof(IpcListNode)`, which
depends on the configuration. -/
structure Ctx where
  curTid : Nat
  processID : Nat → Nat
  taskStatus : Nat → Nat
  processMode : Nat → Nat
  ipcTaskID : Nat → Nat
  g_taskMaxNum : Nat
  cmsTaskID : Nat
  cmsMaxMsgSize : Nat
  now : Nat
  copyFromUser : Nat → Nat → Nat
  sizeofIpcListNode : Nat

namespace IpcSys

def setHeap (s : IpcSys) (pid : Nat) (p : Pool) : IpcSys :=
  { s with heap := Function.update s.heap pid p }

def setUsed (s : IpcSys) (pid : Nat) (l : List Nat) : IpcSys :=
  { s with usedNodes := Function.update s.usedNodes pid l }

def setLive (s : IpcSys) (pid : Nat) (l : List Nat) : IpcSys :=
  { s with live := Function.update s.live pid l }

def setMsgList (s : IpcSys) (tid : Nat) (l : List Nat) : IpcSys :=
  { s with msgList := Function.update s.msgList tid l }

def setNodeMsg (s : IpcSys) (node : Nat) (m : IpcMsg) : IpcSys :=
  { s with nodeMsg := Function.update s.nodeMsg node m }

/-- `OS_TCB_FROM_TID(taskID)->accessMap[processID] = b`. -/
def setAccess (s : IpcSys) (taskID processID : Nat) (b : Bool) : IpcSys :=
  { s with accessMap := Function.update s.accessMap taskID (Function.update (s.accessMap taskID) processID b) }

end IpcSys

-- ============================================================ the pool

/-- `LiteIpcNodeAlloc(processID, size)`. -/
def LiteIpcNodeAlloc (s : IpcSys) (processID size : Nat) : Option (Nat × IpcSys) := do
  let (ptr, p) ← LOS_MemAlloc (s.heap processID) size
  let s := s.setHeap processID p
  return (ptr, if ptr = NULL then s else s.setLive processID (ptr :: s.live processID))

/-- `LiteIpcNodeFree(processID, buf)`. -/
def LiteIpcNodeFree (s : IpcSys) (processID buf : Nat) : Option (Nat × IpcSys) := do
  let (ret, p) ← LOS_MemFree (s.pool processID).kvaddr (s.heap processID) buf
  let s := { s.setHeap processID p with
    freeLog := s.freeLog ++ [(processID, buf, decide (buf ∈ s.live processID))] }
  return (ret, if ret = LOS_OK then s.setLive processID ((s.live processID).erase buf) else s)

/-- `EnableIpcNodeFreeByUser(processID, buf)`: the buffer goes at the
head of the process's used list. -/
def EnableIpcNodeFreeByUser (s : IpcSys) (processID buf : Nat) : IpcSys :=
  s.setUsed processID (buf :: s.usedNodes processID)

/-- `IsIpcNode(processID, buf)`: whether `buf` is on the used list, and
the list without its first entry for `buf`. -/
def IsIpcNode (s : IpcSys) (processID buf : Nat) : Bool × IpcSys :=
  if buf ∈ s.usedNodes processID then (true, s.setUsed processID ((s.usedNodes processID).erase buf))
  else (false, s)

/-- `GetIpcUserAddr(processID, kernelAddr)`, in `INTPTR`. -/
def GetIpcUserAddr (s : IpcSys) (processID kernelAddr : Nat) : Nat :=
  u32 (kernelAddr + u32Sub (s.pool processID).uvaddr (s.pool processID).kvaddr)

/-- `GetIpcKernelAddr(processID, userAddr)`, in `INTPTR`. -/
def GetIpcKernelAddr (s : IpcSys) (processID userAddr : Nat) : Nat :=
  u32Sub userAddr (u32Sub (s.pool processID).uvaddr (s.pool processID).kvaddr)

/-- `CheckUsedBuffer(node, outPtr)` called by a task of process
`processID`: the node's kernel address when it lies in the pool and is
on the used list, which it then leaves. -/
def CheckUsedBuffer (s : IpcSys) (processID node : Nat) : Except Int Nat × IpcSys :=
  let pool := s.pool processID
  if node = NULL ∨ node < pool.uvaddr ∨ node > pool.uvaddr + pool.poolSize then (.error (-EINVAL), s)
  else
    let ptr := GetIpcKernelAddr s processID node
    let r := IsIpcNode s processID ptr
    if r.1 ≠ true then (.error (-EFAULT), r.2) else (.ok ptr, r.2)

-- ============================================================ tasks and services

/-- `IsTaskAlive(taskID)`: a task of the table, of a user process, and
neither unused, starting nor exiting. -/
def IsTaskAlive (ctx : Ctx) (taskID : Nat) : Bool :=
  if taskID ≥ ctx.g_taskMaxNum then false
  else if ctx.processMode (ctx.processID taskID) ≠ Process.OS_USER_MODE then false
  else if ctx.taskStatus taskID &&& (OS_TASK_STATUS_UNUSED ||| OS_TASK_STATUS_INIT ||| OS_TASK_STATUS_EXIT) ≠ 0 then
    false
  else true

/-- `GetTid(serviceHandle, &taskID)`: the handle is the task, and `0`
the CMS task. -/
def GetTid (ctx : Ctx) (serviceHandle : Nat) : Except Int Nat :=
  if serviceHandle ≥ MAX_SERVICE_NUM then .error (-EINVAL)
  else .ok (if serviceHandle ≠ 0 then serviceHandle else ctx.cmsTaskID)

/-- `HasServiceAccess(serviceHandle)` for the running task's process. -/
def HasServiceAccess (ctx : Ctx) (s : IpcSys) (serviceHandle : Nat) : Bool :=
  let curProcessID := ctx.processID ctx.curTid
  if serviceHandle ≥ MAX_SERVICE_NUM then false
  else if serviceHandle = 0 then true
  else
    match GetTid ctx serviceHandle with
    | .error _ => false
    | .ok serviceTid =>
      if ctx.processID serviceTid = curProcessID then true else s.accessMap serviceTid curProcessID

/-- `AddServiceAccess(taskID, serviceHandle)`: the service's task now
serves the task's process. -/
def AddServiceAccess (ctx : Ctx) (s : IpcSys) (taskID serviceHandle : Nat) : Int × IpcSys :=
  match GetTid ctx serviceHandle with
  | .error ret => (ret, s)
  | .ok serviceTid => (LOS_OK, s.setAccess serviceTid (ctx.processID taskID) true)

-- ============================================================ special objects

/-- `HandlePtr(processID, obj, isRollback)` on an `OBJ_PTR` object: the
return value, the object as the code leaves it, and the state. -/
def HandlePtr (ctx : Ctx) (s : IpcSys) (processID buffSz buff : Nat) (isRollback : Bool) :
    Option (Int × SpecialObj × IpcSys) := do
  if buff = NULL ∨ buffSz = 0 then return (-EINVAL, .OBJ_PTR buffSz buff, s)
  if isRollback = false then
    if Vm.LOS_IsUserAddress buff = false then return (-EINVAL, .OBJ_PTR buffSz buff, s)
    let (buf, s) ← LiteIpcNodeAlloc s processID buffSz
    if buf = NULL then return (-EINVAL, .OBJ_PTR buffSz buff, s)
    let ret := ctx.copyFromUser buff buffSz
    if ret ≠ LOS_OK then
      let (_, s) ← LiteIpcNodeFree s processID buf
      return (ret, .OBJ_PTR buffSz buff, s)
    -- the object now names the copy, by its user address
    let obj := SpecialObj.OBJ_PTR buffSz (GetIpcUserAddr s processID buf)
    return (LOS_OK, obj, EnableIpcNodeFreeByUser s processID buf)
  else
    let (_, s) ← LiteIpcNodeFree s processID (GetIpcKernelAddr s processID buff)
    return (LOS_OK, .OBJ_PTR buffSz buff, s)

/-- `HandleSvc(dstTid, obj, isRollback)` on an `OBJ_SVC` object naming
`handle`: a live service the sender may reach, whose task, when it is
its process's IPC task, now serves the receiver's process too. -/
def HandleSvc (ctx : Ctx) (s : IpcSys) (dstTid handle : Nat) (isRollback : Bool) : Int × IpcSys :=
  if isRollback = false then
    if IsTaskAlive ctx handle = false then (-EINVAL, s)
    else if HasServiceAccess ctx s handle = false then (-EACCES, s)
    else
      match GetTid ctx handle with
      | .ok taskID =>
        if taskID = ctx.ipcTaskID (ctx.processID taskID) then (LOS_OK, (AddServiceAccess ctx s dstTid handle).2)
        else (LOS_OK, s)
      | .error _ => (LOS_OK, s)
  else (LOS_OK, s)

/-- `HandleObj(dstTid, obj, isRollback)`. -/
def HandleObj (ctx : Ctx) (s : IpcSys) (dstTid : Nat) (obj : SpecialObj) (isRollback : Bool) :
    Option (Int × SpecialObj × IpcSys) :=
  let processID := ctx.processID dstTid
  match obj with
  | .OBJ_FD _ => some (LOS_OK, obj, s)
  | .OBJ_PTR buffSz buff => HandlePtr ctx s processID buffSz buff isRollback
  | .OBJ_SVC handle =>
    let (ret, s) := HandleSvc ctx s dstTid handle isRollback
    some (ret, obj, s)
  | .other _ => some (-EINVAL, obj, s)

/-- The rollback loop of `HandleSpecialObjects`: `HandleObj(..., TRUE)`
on the objects at the offsets given, last first. -/
def HandleSpecialObjects.rollback (ctx : Ctx) (dstTid : Nat) :
    List Nat → (Nat → SpecialObj) → IpcSys → Option ((Nat → SpecialObj) × IpcSys)
  | [], data, s => some (data, s)
  | off :: rest, data, s => do
    let (_, obj, s) ← HandleObj ctx s dstTid (data off) true
    rollback ctx dstTid rest (Function.update data off obj) s

/-- The forward loop of `HandleSpecialObjects` over the offsets left,
with the offsets done so far, last first: on a failure it rolls those
back and returns the error. -/
def HandleSpecialObjects.loop (ctx : Ctx) (dstTid dataSz : Nat) :
    List Nat → List Nat → (Nat → SpecialObj) → IpcSys → Option (Int × (Nat → SpecialObj) × IpcSys)
  | [], _, data, s => some (LOS_OK, data, s)
  | off :: rest, done, data, s => do
    let fail := fun (ret : Int) (data : Nat → SpecialObj) (s : IpcSys) => do
      let (data, s) ← HandleSpecialObjects.rollback ctx dstTid done data s
      return (ret, data, s)
    if off > u32Sub dataSz sizeofSpecialObj then fail (-EINVAL) data s
    else if ∃ prev ∈ done.head?, off < u32 (prev + sizeofSpecialObj) then fail (-EINVAL) data s
    else
      let (ret, obj, s) ← HandleObj ctx s dstTid (data off) false
      let data := Function.update data off obj
      if ret ≠ LOS_OK then fail ret data s
      else loop ctx dstTid dataSz rest (off :: done) data s

/-- `HandleSpecialObjects(dstTid, node, isRollback)`: the message at
`node` with its objects as the calls leave them. -/
def HandleSpecialObjects (ctx : Ctx) (s : IpcSys) (dstTid node : Nat) (isRollback : Bool) :
    Option (Int × IpcSys) := do
  let msg := s.nodeMsg node
  if isRollback then
    let (data, s) ← HandleSpecialObjects.rollback ctx dstTid msg.offsets.reverse msg.data s
    return (LOS_OK, s.setNodeMsg node { msg with data })
  else
    let (ret, data, s) ← HandleSpecialObjects.loop ctx dstTid msg.dataSz msg.offsets [] msg.data s
    return (ret, s.setNodeMsg node { msg with data })

-- ============================================================ checking a message

/-- The loop of `CheckMsgSize` over the offsets, with the offset before:
the bytes of the `OBJ_PTR` buffers, or `-EINVAL` for an offset out of
bounds or out of order. The object at an offset of the node's data is
never `NULL`, and that check is not kept. -/
def CheckMsgSize.loop (msg : IpcMsg) : Option Nat → List Nat → Except Int Nat
  | _, [] => .ok 0
  | prev, off :: rest =>
    if off > u32Sub msg.dataSz sizeofSpecialObj then .error (-EINVAL)
    else if ∃ p ∈ prev, off < u32 (p + sizeofSpecialObj) then .error (-EINVAL)
    else do
      let bytes ← loop msg (some off) rest
      match msg.data off with
      | .OBJ_PTR buffSz _ => pure (buffSz + bytes)
      | _ => pure bytes

/-- `CheckMsgSize(msg)`: a message to the CMS task (handle `0`) fits in
its `maxMsgSize`, counted in `UINT64` with the buffers of its `OBJ_PTR`
objects. -/
def CheckMsgSize (ctx : Ctx) (msg : IpcMsg) : Int :=
  if msg.target ≠ 0 then LOS_OK
  else
    match CheckMsgSize.loop msg none msg.offsets with
    | .error ret => ret
    | .ok bytes =>
      let totalSize := (ctx.sizeofIpcListNode - sizeofLosDlList) + msg.dataSz + u32 (msg.offsets.length * 4) + bytes
      if totalSize > ctx.cmsMaxMsgSize then -EINVAL else LOS_OK

/-- `CopyDataFromUser(node, bufSz, msg)`: the message the node holds,
its data and offsets copied in and the sender filled in. Its
`memcpy_s` of the message cannot fail, the node being larger. -/
def CopyDataFromUser (ctx : Ctx) (msg : IpcMsg) : Except Int IpcMsg :=
  let dataRet := if msg.dataSz ≠ 0 then ctx.copyFromUser msg.dataAddr msg.dataSz else LOS_OK
  let offsetsRet :=
    if msg.offsets.length ≠ 0 then ctx.copyFromUser msg.offsetsAddr (u32 (msg.offsets.length * 4)) else LOS_OK
  if dataRet ≠ LOS_OK then .error (dataRet : Int)
  else if offsetsRet ≠ LOS_OK then .error (offsetsRet : Int)
  else if CheckMsgSize ctx msg ≠ LOS_OK then .error (CheckMsgSize ctx msg)
  else .ok { msg with taskID := ctx.curTid }

/-- `IsValidReply(content)`: the node the reply frees holds a two-way
request with the reply's timestamp, from the task the reply goes to,
and to a task of the replying process. -/
def IsValidReply (ctx : Ctx) (s : IpcSys) (content : IpcContent) (replyMsg : IpcMsg) : Bool :=
  let curProcessID := ctx.processID ctx.curTid
  let requestMsg := s.nodeMsg (GetIpcKernelAddr s curProcessID content.buffToFree)
  if requestMsg.type ≠ .MT_REQUEST ∨ requestMsg.flag = LITEIPC_FLAG_ONEWAY ∨
      replyMsg.timestamp ≠ requestMsg.timestamp ∨ replyMsg.target ≠ requestMsg.taskID then false
  else
    match GetTid ctx requestMsg.target with
    | .error _ => false
    | .ok reqDstTid => ctx.processID reqDstTid = curProcessID

/-- The `switch` of `CheckPara` on the message type: the task a request
goes to by its service handle, stamped with the time; a reply that
frees its request, in time, to the task it names; a death notice,
stamped, to the task it names. -/
def CheckPara.route (ctx : Ctx) (s : IpcSys) (content : IpcContent) (msg : IpcMsg) : Except Int (Nat × IpcMsg) :=
  match msg.type with
  | .MT_REQUEST =>
    if HasServiceAccess ctx s msg.target then
      match GetTid ctx msg.target with
      | .error _ => .error (-EINVAL)
      | .ok dstTid => .ok (dstTid, { msg with timestamp := ctx.now })
    else .error (-EACCES)
  | .MT_REPLY | .MT_FAILED_REPLY =>
    if content.flag &&& BUFF_FREE ≠ BUFF_FREE then .error (-EINVAL)
    else if IsValidReply ctx s content msg = false then .error (-EINVAL)
    -- the deadline is a `UINT64` sum
    else if ctx.now > (msg.timestamp + LITEIPC_TIMEOUT_NS) % 2 ^ 64 then .error (-ETIME)
    else .ok (msg.target, msg)
  | .MT_DEATH_NOTIFY => .ok (msg.target, { msg with timestamp := ctx.now })

/-- `CheckPara(content, &dstTid)`: the task the message goes to, and the
message with the timestamp `CheckPara` writes into it. -/
def CheckPara (ctx : Ctx) (s : IpcSys) (content : IpcContent) (msg : IpcMsg) : Except Int (Nat × IpcMsg) :=
  if (msg.dataSz > 0 ∧ msg.dataAddr = NULL) ∨ (msg.offsets.length > 0 ∧ msg.offsetsAddr = NULL) ∨
      msg.dataSz > IPC_MSG_DATA_SZ_MAX ∨ msg.offsets.length > IPC_MSG_OBJECT_NUM_MAX ∨
      msg.dataSz < u32 (msg.offsets.length * sizeofSpecialObj) then
    .error (-EINVAL)
  else
    match CheckPara.route ctx s content msg with
    | .error ret => .error ret
    | .ok (dstTid, msg) => if IsTaskAlive ctx dstTid = false then .error (-EINVAL) else .ok (dstTid, msg)

-- ============================================================ write, read, free

/-- `LiteIpcWrite(content)` by the running task, with the message `msg`
it sends: the node goes on the destination task's queue, or is freed on
an error. -/
def LiteIpcWrite (ctx : Ctx) (s : IpcSys) (content : IpcContent) (msg : IpcMsg) : Option (Int × IpcSys) := do
  match CheckPara ctx s content msg with
  | .error ret => return (ret, s)
  | .ok (dstTid, msg) =>
    let dstPid := ctx.processID dstTid
    let bufSz := u32 (ctx.sizeofIpcListNode + msg.dataSz + msg.offsets.length * 4)
    let (buf, s) ← LiteIpcNodeAlloc s dstPid bufSz
    if buf = NULL then return (-ENOMEM, s)
    match CopyDataFromUser ctx msg with
    | .error ret =>
      let (_, s) ← LiteIpcNodeFree s dstPid buf
      return (ret, s)
    | .ok nodeMsg =>
      let s := s.setNodeMsg buf nodeMsg
      let (ret, s) ← HandleSpecialObjects ctx s dstTid buf false
      if ret ≠ LOS_OK then
        let (_, s) ← LiteIpcNodeFree s dstPid buf
        return (ret, s)
      return (LOS_OK, s.setMsgList dstTid (s.msgList dstTid ++ [buf]))

/-- `CheckRecievedMsg(node, content, tcb)` by the running task: a
message it does not take is rolled back and its node freed. -/
def CheckRecievedMsg (ctx : Ctx) (s : IpcSys) (node : Nat) (content : IpcContent) : Option (Int × IpcSys) := do
  let m := s.nodeMsg node
  let send := content.flag &&& SEND = SEND
  let unmatched := fun (out : Option IpcMsg) => match out with
    | some out => decide (m.timestamp ≠ out.timestamp)
    | none => true
  let ret : Int := match m.type with
    | .MT_REQUEST => if send then -EINVAL else LOS_OK
    | .MT_FAILED_REPLY =>
      if ¬send then -EINVAL else if unmatched content.outMsg then -EINVAL else -ENOENT
    | .MT_REPLY => if ¬send then -EINVAL else if unmatched content.outMsg then -EINVAL else LOS_OK
    | .MT_DEATH_NOTIFY => LOS_OK
  if ret ≠ LOS_OK then
    let (_, s) ← HandleSpecialObjects ctx s ctx.curTid node true
    let (_, s) ← LiteIpcNodeFree s (ctx.processID ctx.curTid) node
    return (ret, s)
  return (ret, s)

/-- One round of `LiteIpcRead` by the running task: `none` in the
result when the queue is empty and the task pends; otherwise the first
node is taken off, checked, and handed to the user when taken. -/
def LiteIpcRead.round (ctx : Ctx) (s : IpcSys) (content : IpcContent) : Option (Option Int × IpcSys) := do
  match s.msgList ctx.curTid with
  | [] => return (none, s)
  | node :: rest =>
    let s := s.setMsgList ctx.curTid rest
    let (ret, s) ← CheckRecievedMsg ctx s node content
    if ret = LOS_OK then return (some LOS_OK, EnableIpcNodeFreeByUser s (ctx.processID ctx.curTid) node)
    return (some ret, s)

/-- The message `SendDeathMsg` sends: zeroed, then a `MT_DEATH_NOTIFY`
to `target`. -/
def deathMsg (target : Nat) : IpcMsg :=
  ⟨.MT_DEATH_NOTIFY, target, 0, 0, 0, NULL, NULL, fun _ => .OBJ_FD 0, [], 0⟩

/-- `GetIpcTaskID(processID, &ipcTaskID)`. -/
def GetIpcTaskID (ctx : Ctx) (processID : Nat) : Except Nat Nat :=
  if ctx.ipcTaskID processID = INVAILD_ID then .error LOS_NOK else .ok (ctx.ipcTaskID processID)

/-- `SendDeathMsg(processID, serviceHandle)`: a death notice to the IPC
task of the process, if it has one. -/
def SendDeathMsg (ctx : Ctx) (s : IpcSys) (processID : Nat) : Option (Int × IpcSys) :=
  match GetIpcTaskID ctx processID with
  | .error _ => some (-EINVAL, s)
  | .ok ipcTaskID => LiteIpcWrite ctx s ⟨SEND, some (deathMsg ipcTaskID), NULL⟩ (deathMsg ipcTaskID)

/-- The queue part of `LiteIpcRemoveServiceHandle(taskCB)`: every node
queued to the task is rolled back and freed. -/
def LiteIpcRemoveServiceHandle.drain (ctx : Ctx) (taskID processID : Nat) :
    List Nat → IpcSys → Option IpcSys
  | [], s => some s
  | node :: rest, s => do
    let (_, s) ← HandleSpecialObjects ctx s taskID node true
    let (_, s) ← LiteIpcNodeFree s processID node
    drain ctx taskID processID rest s

/-- The loop of `LiteIpcRemoveServiceHandle(taskCB)` over the processes
`j < MAX_SERVICE_NUM`: each the task served loses it and is sent a
death notice. -/
def LiteIpcRemoveServiceHandle.notify (ctx : Ctx) (taskID : Nat) : List Nat → IpcSys → Option IpcSys
  | [], s => some s
  | j :: rest, s =>
    if s.accessMap taskID j = true then do
      let (_, s) ← SendDeathMsg ctx (s.setAccess taskID j false) j
      notify ctx taskID rest s
    else notify ctx taskID rest s

/-- `LiteIpcRemoveServiceHandle(taskCB)`. -/
def LiteIpcRemoveServiceHandle (ctx : Ctx) (s : IpcSys) (taskID : Nat) : Option IpcSys := do
  let processID := ctx.processID taskID
  let s ← LiteIpcRemoveServiceHandle.drain ctx taskID processID (s.msgList taskID) (s.setMsgList taskID [])
  LiteIpcRemoveServiceHandle.notify ctx taskID (List.range MAX_SERVICE_NUM) (s.setAccess taskID processID false)

/-- The `BUFF_FREE` and `SEND` parts of `LiteIpcMsgHandle(con)` by the
running task; an `outMsg` of `none` stands for a `NULL` one or one that
`copy_from_user` cannot read. -/
def LiteIpcMsgHandle (ctx : Ctx) (s : IpcSys) (content : IpcContent) : Option (Int × IpcSys) := do
  let processID := ctx.processID ctx.curTid
  let (ret, nodeNeedFree, s) ←
    if content.flag &&& BUFF_FREE = BUFF_FREE then
      match CheckUsedBuffer s processID content.buffToFree with
      | (.error ret, s) => return (ret, s)
      | (.ok node, s) => pure (LOS_OK, some node, s)
    else pure (LOS_OK, none, s)
  let (ret, s) ←
    if content.flag &&& SEND = SEND then
      match content.outMsg with
      | none => pure (-EINVAL, s)
      | some msg =>
        if msg.type = .MT_DEATH_NOTIFY then pure (-EINVAL, s)
        else LiteIpcWrite ctx s content msg
    else pure (ret, s)
  match nodeNeedFree with
  | some node => do
    let (freeRet, s) ← LiteIpcNodeFree s processID node
    return (if freeRet = LOS_OK then ret else freeRet, s)
  | none => return (ret, s)

end LiteOsA.LiteIpc
