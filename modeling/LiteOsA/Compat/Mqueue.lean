/-
POSIX message-queue descriptors (compat/posix/src/mqueue.c).

# What the model keeps

`g_queueTable`, one `mqarray` per queue slot, with the fields the
descriptor code reads and writes: the name, `unlinkflag`,
`unlink_ref`, the mode bits and owner it checks visitors against, the
descriptor bit map `mq_fdset`, whether `mqcb` points at a created
queue, and the list `mq_personal` of personal records, head first (the
chain of `mq_next` pointers from the head). The records themselves live
on a heap: an address holds a record while it is allocated, and a new
record takes a fresh address (`nextAddr`, which starts above `NULL`).
`g_mqPrivBuf` maps descriptor slots to record addresses.

The three fields of the `mode_s` union (`usr`, `grp`, `oth`) all alias
the low bits of `data`, and the permission bits the code sets and tests
lie inside each field's width, so the union is one bit word here.

# What it leaves out

The messages (`mq_send`, `mq_receive`, the attributes calls) and the
queue module underneath: `LOS_QueueCreate` hands back any slot or
fails, `GetMqueueCBByID` finds the queue just created, and
`LOS_QueueDelete` succeeds. Where the code allocates with
`LOS_MemAlloc`, whether the allocation succeeds is an input of the call
(`MqEnv`), and so is the `mq_mode` a new record of `DoMqueueOpen` holds,
which the code never writes. `NULL` names and a failing copy of the
attributes from user space are left out.
-/
import LiteOsA.Fs.FullPath
import LiteOsA.Syscall.Cred

namespace LiteOsA.Mqueue

open LiteOsA.Cred (User)

-- ============================================================ constants

/-- `LOSCFG_BASE_IPC_QUEUE_LIMIT` (los_config.h). -/
def LOSCFG_BASE_IPC_QUEUE_LIMIT : Nat := 1024

/-- `MAX_MQ_FD`: `CONFIG_NQUEUE_DESCRIPTORS` (vfs_config.h). -/
def MAX_MQ_FD : Nat := 256

/-- `MQUEUE_FD_OFFSET`: `FD_SETSIZE + CONFIG_NTIME_DESCRIPTORS`, with 512
file descriptors, no sockets and no timer descriptors (vfs_config.h). -/
def MQUEUE_FD_OFFSET : Nat := 512 + 0 + 0

/-- `MQ_USE_MAGIC` (mqueue.h). -/
def MQ_USE_MAGIC : Nat := 0x89abcdef

/-- `MQ_MAX_MSG_NUM` (mqueue.h). -/
def MQ_MAX_MSG_NUM : Int := 16

/-- `MQ_MAX_MSG_LEN` (mqueue.h). -/
def MQ_MAX_MSG_LEN : Int := 64

/-- `USHRT_MAX`. -/
def USHRT_MAX : Int := 0xFFFF

/-- `O_RDWR` (fcntl.h). -/
def O_RDWR : Nat := 0o2

/-- `O_CREAT` (fcntl.h). -/
def O_CREAT : Nat := 0o100

/-- `O_EXCL` (fcntl.h). -/
def O_EXCL : Nat := 0o200

/-- `FNONBLOCK`: `O_NONBLOCK` (fcntl.h). -/
def FNONBLOCK : Nat := 0o4000

/-- `S_IRUSR` (stat.h). -/
def S_IRUSR : Nat := 0o400

/-- `S_IWUSR` (stat.h). -/
def S_IWUSR : Nat := 0o200

/-- `S_IRGRP` (stat.h). -/
def S_IRGRP : Nat := 0o40

/-- `S_IWGRP` (stat.h). -/
def S_IWGRP : Nat := 0o20

/-- `S_IROTH` (stat.h). -/
def S_IROTH : Nat := 0o4

/-- `S_IWOTH` (stat.h). -/
def S_IWOTH : Nat := 0o2

def ENOENT : Nat := 2
def EBADF : Nat := 9
def ENOMEM : Nat := 12
def EACCES : Nat := 13
def EEXIST : Nat := 17
def EINVAL : Nat := 22
def ENFILE : Nat := 23
def ENOSPC : Nat := 28
def ENAMETOOLONG : Nat := 36

-- ============================================================= the state

/-- `struct mq_attr` as the caller passes it. -/
structure MqAttr where
  mq_flags : Int
  mq_maxmsg : Int
  mq_msgsize : Int
  deriving DecidableEq, Repr

/-- `struct mqarray`, one slot of `g_queueTable`. -/
structure MqArray where
  mq_id : Nat
  unlinkflag : Bool
  /-- `mq_name`; `none` is `NULL`. -/
  mq_name : Option String
  unlink_ref : Nat
  /-- `mode_data.data`. -/
  mode_data : Nat
  euid : Int
  egid : Int
  /-- `mq_fdset`, by descriptor. -/
  mq_fdset : Nat → Bool
  /-- `mqcb != NULL`. -/
  mqcb : Bool
  /-- The records on `mq_personal`, from the head along `mq_next`. -/
  mq_personal : List Nat

/-- `struct mqpersonal` without its `mq_next`. -/
structure MqPersonal where
  /-- `mq_posixdes`: the slot of its queue. -/
  mq_posixdes : Nat
  mq_flags : Nat
  mq_mode : Nat
  mq_status : Nat
  mq_refcount : Nat
  deriving DecidableEq, Repr

/-- The queue table, the record heap, `g_mqPrivBuf` and `errno`. -/
structure MqSys where
  queueTable : Nat → MqArray
  heap : Nat → Option MqPersonal
  nextAddr : Nat
  g_mqPrivBuf : Nat → Option Nat
  errno : Nat

/-- What a call's allocations and its queue creation come to. -/
structure MqEnv where
  /-- What `LOS_QueueCreate` comes to: the slot of the queue, or the
  `errno` that `map_errno` sets for its error. -/
  queueCreate : Except Nat Nat
  /-- Whether `LOS_MemAlloc` of the name succeeds. -/
  nameAlloc : Bool
  /-- Whether `LOS_MemAlloc` of the personal record succeeds. -/
  persAlloc : Bool
  /-- The `mq_mode` a block from `LOS_MemAlloc` holds before
  `DoMqueueOpen` fills the record in. -/
  staleMode : Nat
  deriving DecidableEq, Repr

namespace MqSys

/-- Write one queue slot. -/
def modifyQueue (s : MqSys) (q : Nat) (f : MqArray → MqArray) : MqSys :=
  { s with queueTable := Function.update s.queueTable q (f (s.queueTable q)) }

/-- Write one record. -/
def setRecord (s : MqSys) (p : Nat) (r : Option MqPersonal) : MqSys :=
  { s with heap := Function.update s.heap p r }

/-- Write one slot of `g_mqPrivBuf`. -/
def setPrivBuf (s : MqSys) (i : Nat) (p : Option Nat) : MqSys :=
  { s with g_mqPrivBuf := Function.update s.g_mqPrivBuf i p }

variable {s : MqSys}

@[simp]
theorem modifyQueue_queueTable (q q' : Nat) (f : MqArray → MqArray) :
    (s.modifyQueue q f).queueTable q' = if q' = q then f (s.queueTable q) else s.queueTable q' :=
  Function.update_apply _ _ _ _

@[simp]
theorem modifyQueue_heap (q : Nat) (f : MqArray → MqArray) : (s.modifyQueue q f).heap = s.heap :=
  rfl

@[simp]
theorem modifyQueue_nextAddr (q : Nat) (f : MqArray → MqArray) : (s.modifyQueue q f).nextAddr = s.nextAddr :=
  rfl

@[simp]
theorem modifyQueue_g_mqPrivBuf (q : Nat) (f : MqArray → MqArray) :
    (s.modifyQueue q f).g_mqPrivBuf = s.g_mqPrivBuf :=
  rfl

@[simp]
theorem setRecord_queueTable (p : Nat) (r : Option MqPersonal) : (s.setRecord p r).queueTable = s.queueTable :=
  rfl

@[simp]
theorem setRecord_heap (p p' : Nat) (r : Option MqPersonal) :
    (s.setRecord p r).heap p' = if p' = p then r else s.heap p' :=
  Function.update_apply _ _ _ _

@[simp]
theorem setRecord_nextAddr (p : Nat) (r : Option MqPersonal) : (s.setRecord p r).nextAddr = s.nextAddr :=
  rfl

@[simp]
theorem setRecord_g_mqPrivBuf (p : Nat) (r : Option MqPersonal) :
    (s.setRecord p r).g_mqPrivBuf = s.g_mqPrivBuf :=
  rfl

@[simp]
theorem setPrivBuf_queueTable (i : Nat) (p : Option Nat) : (s.setPrivBuf i p).queueTable = s.queueTable :=
  rfl

@[simp]
theorem setPrivBuf_heap (i : Nat) (p : Option Nat) : (s.setPrivBuf i p).heap = s.heap :=
  rfl

@[simp]
theorem setPrivBuf_nextAddr (i : Nat) (p : Option Nat) : (s.setPrivBuf i p).nextAddr = s.nextAddr :=
  rfl

@[simp]
theorem setPrivBuf_g_mqPrivBuf (i i' : Nat) (p : Option Nat) :
    (s.setPrivBuf i p).g_mqPrivBuf i' = if i' = i then p else s.g_mqPrivBuf i' :=
  Function.update_apply _ _ _ _

end MqSys

open MqSys

/-- `LOS_MemAlloc` of a personal record: a fresh address, or `NULL`. -/
def allocRecord (s : MqSys) (ok : Bool) (r : MqPersonal) : Option Nat × MqSys :=
  if ok then (some s.nextAddr, { s.setRecord s.nextAddr (some r) with nextAddr := s.nextAddr + 1 })
  else (none, s)

/-- `FD_SET` or `FD_CLR` of one bit of a queue's `mq_fdset`. -/
def setFd (s : MqSys) (q fd : Nat) (b : Bool) : MqSys :=
  s.modifyQueue q fun cb => { cb with mq_fdset := Function.update cb.mq_fdset fd b }

@[simp]
theorem setFd_heap (s : MqSys) (q fd : Nat) (b : Bool) : (setFd s q fd b).heap = s.heap :=
  rfl

@[simp]
theorem setFd_nextAddr (s : MqSys) (q fd : Nat) (b : Bool) : (setFd s q fd b).nextAddr = s.nextAddr :=
  rfl

@[simp]
theorem setFd_g_mqPrivBuf (s : MqSys) (q fd : Nat) (b : Bool) : (setFd s q fd b).g_mqPrivBuf = s.g_mqPrivBuf :=
  rfl

-- ============================================================= lookups

/-- `MqNameCheck`: `0`, or `-1` with `errno`. -/
def MqNameCheck (mqName : String) : Except Nat Unit :=
  if mqName.utf8ByteSize = 0 then .error EINVAL
  else if mqName.utf8ByteSize > Fs.PATH_MAX - 1 then .error ENAMETOOLONG
  else .ok ()

/-- `GetMqueueCBByName`: the first slot with the name. -/
def GetMqueueCBByName (s : MqSys) (name : String) : Option Nat :=
  (List.range LOSCFG_BASE_IPC_QUEUE_LIMIT).find? fun index =>
    (s.queueTable index).mq_name = some name

/-- `MqGetPrivDataBuff(personal)`: the record of a descriptor, or
`NULL` with `EBADF` for one outside the table. -/
def MqGetPrivDataBuff (s : MqSys) (personal : Int) : Option Nat × MqSys :=
  let id := personal - MQUEUE_FD_OFFSET
  if id < 0 ∨ id ≥ MAX_MQ_FD then (none, { s with errno := EBADF })
  else (s.g_mqPrivBuf id.toNat, s)

-- ============================================================ creation

/-- `DoMqueueDelete(mqueueCB)`; `LOS_QueueDelete` succeeds, so it
returns `0`. The name, the queue, the mode bits and the owner are
reset; `unlinkflag`, `mq_fdset` and the list are not. -/
def DoMqueueDelete (s : MqSys) (q : Nat) : Int × MqSys :=
  (0, s.modifyQueue q fun cb =>
    { cb with mq_name := none, mqcb := false, mode_data := 0, euid := -1, egid := -1 })

/-- `DoMqueueCreate(attr, mqName, openFlag, mode)`: the new record, or
`-1` (`none`). -/
def DoMqueueCreate (s : MqSys) (env : MqEnv) (attr : MqAttr) (mqName : String) (openFlag mode : Nat) :
    Option Nat × MqSys :=
  match env.queueCreate with
  | .error e => (none, { s with errno := e })
  | .ok q =>
    if (s.queueTable q).mqcb then (none, { s with errno := EINVAL })
    else
      let s := s.modifyQueue q fun cb => { cb with mq_id := q }
      -- `SaveMqueueName`
      if !env.nameAlloc then (none, { s with errno := ENOMEM })
      else
        let s := s.modifyQueue q fun cb => { cb with mq_name := some mqName, mqcb := true }
        let record : MqPersonal :=
          ⟨q, openFlag ||| (attr.mq_flags.toNat &&& FNONBLOCK), mode, MQ_USE_MAGIC, 0⟩
        match allocRecord s env.persAlloc record with
        | (none, s) =>
          -- the queue is deleted again and the name freed
          (none, { s.modifyQueue q fun cb => { cb with mqcb := false, mq_name := none } with errno := ENOSPC })
        | (some p, s) =>
          (some p, s.modifyQueue q fun cb =>
            { cb with unlinkflag := false, unlink_ref := 0, mq_personal := [p] })

/-- `DoMqueueOpen(mqueueCB, openFlag)`: a new record at the head of the
list, or `-1` (`none`). -/
def DoMqueueOpen (s : MqSys) (env : MqEnv) (q openFlag : Nat) : Option Nat × MqSys :=
  if (s.queueTable q).unlinkflag then (none, { s with errno := EINVAL })
  else
    match allocRecord s env.persAlloc ⟨q, openFlag, env.staleMode, MQ_USE_MAGIC, 0⟩ with
    | (none, s) => (none, { s with errno := ENOSPC })
    | (some p, s) => (some p, s.modifyQueue q fun cb => { cb with mq_personal := p :: cb.mq_personal })

/-- `if (mode & bit) data |= bit`. -/
def setModeBit (data mode bit : Nat) : Nat :=
  if mode &&& bit ≠ 0 then data ||| bit else data

/-- `MqueueModeAnalysisSet(privateMqPersonal)` for a record: the owner
becomes the caller, and the mode bits of the record at the head of the
list are added. -/
def MqueueModeAnalysisSet (s : MqSys) (user : User) (p : Nat) : MqSys :=
  match s.heap p with
  | none => s
  | some record =>
    let q := record.mq_posixdes
    let mode := match (s.queueTable q).mq_personal.head?.bind s.heap with
      | some head => head.mq_mode
      | none => 0
    s.modifyQueue q fun cb =>
      { cb with
        euid := user.effUserID, egid := user.effGid,
        mode_data :=
          setModeBit (setModeBit (setModeBit (setModeBit (setModeBit (setModeBit cb.mode_data mode S_IRUSR)
            mode S_IWUSR) mode S_IRGRP) mode S_IWGRP) mode S_IROTH) mode S_IWOTH }

/-- `GetPermissionOfVisitor(mqueueCB)`: `0`, or `-EPERM` with `errno`. -/
def GetPermissionOfVisitor (s : MqSys) (user : User) : Option Nat → Except Nat Unit
  | none => .error ENOENT
  | some q =>
    let cb := s.queueTable q
    if user.effUserID = 0 then .ok ()
    else if (user.effUserID : Int) = cb.euid then
      if cb.mode_data &&& S_IRUSR ≠ 0 ∨ cb.mode_data &&& S_IWUSR ≠ 0 then .ok () else .error EACCES
    else if (user.effGid : Int) = cb.egid then
      if cb.mode_data &&& S_IRGRP ≠ 0 ∨ cb.mode_data &&& S_IWGRP ≠ 0 then .ok () else .error EACCES
    else if cb.mode_data &&& S_IROTH ≠ 0 ∨ cb.mode_data &&& S_IWOTH ≠ 0 then .ok () else .error EACCES

/-- `GetMqueueAttr(&defaultAttr, attr)` once the attributes are copied. -/
def GetMqueueAttr (attr : Option MqAttr) : Except Nat MqAttr :=
  match attr with
  | none => .ok ⟨0, MQ_MAX_MSG_NUM, MQ_MAX_MSG_LEN⟩
  | some a =>
    if a.mq_maxmsg < 0 ∨ a.mq_maxmsg > USHRT_MAX ∨ a.mq_msgsize < 0 ∨ a.mq_msgsize > USHRT_MAX - 4 then
      .error EINVAL
    else .ok a

-- ========================================================= descriptors

/-- The loop of `MqAllocSysFd` over the slots `is`, for the queue `q`
whose list has `head` first. A slot whose bit the queue's `mq_fdset`
lacks gets the bit, whether or not `g_mqPrivBuf` has it free. -/
def MqAllocSysFd.loop (q : Nat) (head : Option Nat) : List Nat → MqSys → Option Nat × MqSys
  | [], s => (none, s)
  | i :: is, s =>
    if !(s.queueTable q).mq_fdset (i + MQUEUE_FD_OFFSET) then
      let s := setFd s q (i + MQUEUE_FD_OFFSET) true
      if s.g_mqPrivBuf i = none then (some (i + MQUEUE_FD_OFFSET), s.setPrivBuf i head)
      else loop q head is s
    else loop q head is s

/-- `MqAllocSysFd(maxfdp, privateMqPersonal)`: the new descriptor, or
`-1` after freeing the record and emptying the queue's list. -/
def MqAllocSysFd (s : MqSys) (maxfdp p : Nat) : Int × MqSys :=
  match s.heap p with
  | none => (-1, s)
  | some record =>
    let q := record.mq_posixdes
    match MqAllocSysFd.loop q (s.queueTable q).mq_personal.head? (List.range maxfdp) s with
    | (some fd, s) => (fd, s)
    | (none, s) =>
      let s := s.setRecord p none
      (-1, s.modifyQueue q fun cb => { cb with mq_personal := [] })

/-- `MqFreeSysFd(mqueueCB, personal)`. -/
def MqFreeSysFd (s : MqSys) (q : Nat) (personal : Nat) : MqSys :=
  if (s.queueTable q).mq_fdset personal then
    (setFd s q personal false).setPrivBuf (personal - MQUEUE_FD_OFFSET) none
  else s

-- =============================================================== calls

/-- `mq_open` up to its label `OUT`: the record it made (`none` for
`(struct mqpersonal *)-1`). -/
def mq_open.personal (s : MqSys) (env : MqEnv) (user : User) (mqName : String) (openFlag mode : Nat)
    (attr : Option MqAttr) : Option Nat × MqSys :=
  let mqueueCB := GetMqueueCBByName s mqName
  if openFlag &&& O_CREAT ≠ 0 then
    match mqueueCB with
    | some q =>
      if openFlag &&& O_EXCL ≠ 0 then (none, { s with errno := EEXIST })
      else
        let (r, s) := DoMqueueOpen s env q openFlag
        (r, match r with | some p => MqueueModeAnalysisSet s user p | none => s)
    | none =>
      match GetMqueueAttr attr with
      | .error e => (none, { s with errno := e })
      | .ok defaultAttr =>
        let (r, s) := DoMqueueCreate s env defaultAttr mqName openFlag mode
        (r, match r with | some p => MqueueModeAnalysisSet s user p | none => s)
  else
    match GetPermissionOfVisitor s user mqueueCB, mqueueCB with
    | .ok (), some q => DoMqueueOpen s env q openFlag
    | .ok (), none => (none, s)
    | .error e, _ => (none, { s with errno := e })

/-- `mq_open` from its label `OUT`: a descriptor for the record, if
there is one. -/
def mq_open.out (s : MqSys) : Option Nat → Int × MqSys
  | none => (-1, s)
  | some p =>
    let (sysFd, s) := MqAllocSysFd s MAX_MQ_FD p
    if sysFd = -1 then (-1, { s with errno := ENFILE }) else (sysFd, s)

/-- `mq_open(mqName, openFlag, mode, attr)` by `user`. -/
def mq_open (s : MqSys) (env : MqEnv) (user : User) (mqName : String) (openFlag mode : Nat)
    (attr : Option MqAttr) : Int × MqSys :=
  match MqNameCheck mqName with
  | .error e => (-1, { s with errno := e })
  | .ok () =>
    let r := mq_open.personal s env user mqName openFlag mode attr
    mq_open.out r.2 r.1

/-- `MqTryClose`: whether the record may go, after taking one reference
off it if it may not. -/
def MqTryClose (s : MqSys) (p : Nat) (record : MqPersonal) : Bool × MqSys :=
  if record.mq_refcount = 0 then (true, s)
  else (false, s.setRecord p (some { record with mq_refcount := record.mq_refcount - 1 }))

/-- `mq_close(personal)`. -/
def mq_close (s : MqSys) (personal : Int) : Int × MqSys :=
  match MqGetPrivDataBuff s personal with
  | (none, s) => (-1, s)
  | (some p, s) =>
    match s.heap p with
    | none => (-1, { s with errno := EBADF })
    | some record =>
      if record.mq_status ≠ MQ_USE_MAGIC then (-1, { s with errno := EBADF })
      else
        match MqTryClose s p record with
        | (false, s) => (0, s)
        | (true, s) =>
          let q := record.mq_posixdes
          let list := (s.queueTable q).mq_personal
          if list = [] then (-1, { s with errno := EBADF })
          -- the head, or the record after the one whose `mq_next` it is
          else if p ∉ list then (-1, { s with errno := EBADF })
          else
            let s := s.modifyQueue q fun cb => { cb with mq_personal := list.erase p }
            let s := s.setRecord p (some { record with mq_status := 0 })
            let s := MqFreeSysFd s q personal.toNat
            let s := s.setRecord p none
            if (s.queueTable q).unlinkflag ∧ (s.queueTable q).mq_personal = [] then DoMqueueDelete s q
            else (0, s)

/-- `mq_unlink(mqName)`. -/
def mq_unlink (s : MqSys) (mqName : String) : Int × MqSys :=
  match MqNameCheck mqName with
  | .error e => (-1, { s with errno := e })
  | .ok () =>
    match GetMqueueCBByName s mqName with
    | none => (-1, { s with errno := ENOENT })
    | some q =>
      -- `MqTryUnlink`
      if (s.queueTable q).unlink_ref ≠ 0 then
        (0, s.modifyQueue q fun cb => { cb with unlink_ref := cb.unlink_ref - 1 })
      else if (s.queueTable q).mq_personal ≠ [] then
        (0, s.modifyQueue q fun cb => { cb with unlinkflag := true })
      else DoMqueueDelete s q

/-- `mqueue_refer(sysFd)`. -/
def mqueue_refer (s : MqSys) (sysFd : Int) : MqSys :=
  match MqGetPrivDataBuff s sysFd with
  | (none, s) => s
  | (some p, s) =>
    match s.heap p with
    | none => s
    | some record =>
      let s := s.setRecord p (some { record with mq_refcount := record.mq_refcount + 1 })
      s.modifyQueue record.mq_posixdes fun cb => { cb with unlink_ref := cb.unlink_ref + 1 }

-- ================================================================ runs

/-- A call and what it returned. -/
inductive Call where
  | mq_open (env : MqEnv) (user : User) (mqName : String) (openFlag mode : Nat) (attr : Option MqAttr)
      (ret : Int)
  | mq_close (personal : Int) (ret : Int)
  | mq_unlink (mqName : String) (ret : Int)
  | mqueue_refer (sysFd : Int)

/-- One call, under `g_mqueueMutex`. -/
inductive Step : MqSys → Call → MqSys → Prop where
  | mq_open {s : MqSys} (env : MqEnv) (user : User) (mqName : String) (openFlag mode : Nat)
      (attr : Option MqAttr) :
      Step s (.mq_open env user mqName openFlag mode attr (mq_open s env user mqName openFlag mode attr).1)
        (mq_open s env user mqName openFlag mode attr).2
  | mq_close {s : MqSys} (personal : Int) :
      Step s (.mq_close personal (mq_close s personal).1) (mq_close s personal).2
  | mq_unlink {s : MqSys} (mqName : String) :
      Step s (.mq_unlink mqName (mq_unlink s mqName).1) (mq_unlink s mqName).2
  | mqueue_refer {s : MqSys} (sysFd : Int) : Step s (.mqueue_refer sysFd) (mqueue_refer s sysFd)

/-- The zeroed tables at boot: no queue, no record, no descriptor. -/
def mqInit : MqSys where
  queueTable := fun _ => ⟨0, false, none, 0, 0, 0, 0, fun _ => false, false, []⟩
  heap := fun _ => none
  nextAddr := 1
  g_mqPrivBuf := fun _ => none
  errno := 0

end LiteOsA.Mqueue
