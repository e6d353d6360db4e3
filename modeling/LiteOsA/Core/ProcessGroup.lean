/-
Process groups (kernel/base/core/los_process.c): how a process leaves
its group, how a dead child is recycled, and who frees a group that
became empty.

# What the model keeps

The process control blocks `g_processCBArray`, by pid, with the fields
the group code reads and writes: the status flags, the mode, the parent,
the group, and the lists of live and of exited children (a child's
`siblingList` is on one of its parent's two lists). A `ProcessGroup`
is the object at its address: its leader's pid and the members on its
two lists (`subordinateGroupList`). The global list is `g_processGroup`
and the other groups on its `groupList`, in list order. The `pendList`
of a control block is on `g_freeProcess`, on `g_processRecyleList`, or
on neither. Each list is the list of pids or addresses on it, in order,
and `LOS_ListDelete` of a node takes it off whichever list holds it.

`LOS_MemFree(m_aucSysMem1, group)` of a group is recorded, not done:
`freed` is every pointer the group code has passed to it, `NULL`
included, in order. The `LOS_MemAlloc` of a new group is an input: its
address, or `NULL`.

# What it leaves out

The rest of a control block (threads, signals, files, the user, the
address space, the exit code), the scheduler lock (each function here
runs with it held, or takes it around the part modelled),
`OsProcessResourcesToFree`, the wake-up of a waiting parent, the
`SIGCHLD` to it, and the deletion of the exiting thread.
-/
import LiteOsA.Base

namespace LiteOsA.Process

-- ============================================================ constants

/-- `OS_PROCESS_STATUS_INIT` (los_process_pri.h). -/
def OS_PROCESS_STATUS_INIT : Nat := 0x0010

/-- `OS_PROCESS_STATUS_RUNNING`. -/
def OS_PROCESS_STATUS_RUNNING : Nat := 0x0040

/-- `OS_PROCESS_STATUS_ZOMBIES`. -/
def OS_PROCESS_STATUS_ZOMBIES : Nat := 0x100

/-- `OS_PROCESS_FLAG_UNUSED`. -/
def OS_PROCESS_FLAG_UNUSED : Nat := 0x0200

/-- `OS_PROCESS_FLAG_EXIT`. -/
def OS_PROCESS_FLAG_EXIT : Nat := 0x0400

/-- `OS_PROCESS_FLAG_GROUP_LEADER`. -/
def OS_PROCESS_FLAG_GROUP_LEADER : Nat := 0x0800

/-- `OS_PROCESS_FLAG_ALREADY_EXEC`. -/
def OS_PROCESS_FLAG_ALREADY_EXEC : Nat := 0x1000

/-- `OS_PROCESS_STATUS_INACTIVE`. -/
def OS_PROCESS_STATUS_INACTIVE : Nat := OS_PROCESS_FLAG_EXIT ||| OS_PROCESS_STATUS_ZOMBIES

/-- `OS_KERNEL_MODE`. -/
def OS_KERNEL_MODE : Nat := 0

/-- `OS_USER_MODE`. -/
def OS_USER_MODE : Nat := 1

/-- `OS_USER_PRIVILEGE_PROCESS_GROUP`. -/
def OS_USER_PRIVILEGE_PROCESS_GROUP : Nat := 1

/-- `OS_INVALID_VALUE` (los_typedef.h). -/
def OS_INVALID_VALUE : Nat := 0xFFFFFFFF

/-- `LOS_ESRCH` (los_typedef.h). -/
def LOS_ESRCH : Nat := 3

/-- `LOS_ENOMEM`. -/
def LOS_ENOMEM : Nat := 12

/-- `LOS_EACCES`. -/
def LOS_EACCES : Nat := 13

/-- `g_processMaxNum`, `LOSCFG_BASE_CORE_PROCESS_LIMIT` by default. -/
def g_processMaxNum : Nat := 64

/-- `g_userInitProcess`, fixed by `OsProcessInit`. -/
def g_userInitProcess : Nat := 1

/-- `g_kernelInitProcess`, fixed by `OsProcessInit`. -/
def g_kernelInitProcess : Nat := 2

/-- `status &= ~flag` on the `UINT16` status. -/
def clearFlag (status flag : Nat) : Nat := status &&& (0xFFFF ^^^ flag)

-- ============================================================ the state

/-- `LosProcessCB`, the fields the group code touches. -/
structure LosProcessCB where
  processStatus : Nat
  processMode : Nat
  parentProcessID : Nat
  group : Nat
  childrenList : List Nat
  exitChildList : List Nat
deriving DecidableEq, Repr

/-- `ProcessGroup`: the leader's pid and the members, live and exited. -/
structure ProcessGroup where
  groupID : Nat
  processList : List Nat
  exitProcessList : List Nat
deriving DecidableEq, Repr

/-- The processes, the groups, the global lists, and the group pointers
passed to `LOS_MemFree` so far. -/
structure ProcSys where
  pcb : Nat → LosProcessCB
  groupAt : Nat → ProcessGroup
  g_processGroup : Nat
  groupList : List Nat
  g_freeProcess : List Nat
  g_processRecyleList : List Nat
  freed : List Nat

namespace ProcSys

/-- Change the control block of `pid`. -/
def setPCB (s : ProcSys) (pid : Nat) (f : LosProcessCB → LosProcessCB) : ProcSys :=
  { s with pcb := Function.update s.pcb pid (f (s.pcb pid)) }

/-- Change the group at `g`. -/
def setGroup (s : ProcSys) (g : Nat) (f : ProcessGroup → ProcessGroup) : ProcSys :=
  { s with groupAt := Function.update s.groupAt g (f (s.groupAt g)) }

/-- `LOS_ListDelete(&processCB->siblingList)`. -/
def deleteSibling (s : ProcSys) (pid : Nat) : ProcSys :=
  { s with pcb := fun q => { s.pcb q with
      childrenList := (s.pcb q).childrenList.erase pid
      exitChildList := (s.pcb q).exitChildList.erase pid } }

/-- `LOS_ListDelete(&processCB->subordinateGroupList)`. -/
def deleteSubordinate (s : ProcSys) (pid : Nat) : ProcSys :=
  { s with groupAt := fun g => { s.groupAt g with
      processList := (s.groupAt g).processList.erase pid
      exitProcessList := (s.groupAt g).exitProcessList.erase pid } }

/-- `LOS_ListDelete(&processCB->pendList)`. -/
def deletePend (s : ProcSys) (pid : Nat) : ProcSys :=
  { s with
    g_freeProcess := s.g_freeProcess.erase pid
    g_processRecyleList := s.g_processRecyleList.erase pid }

/-- `LOS_MemFree(m_aucSysMem1, group)`, recorded. -/
def memFree (s : ProcSys) (group : Nat) : ProcSys := { s with freed := s.freed ++ [group] }

end ProcSys

/-- `OsProcessIsUnused`. -/
def OsProcessIsUnused (processCB : LosProcessCB) : Bool :=
  processCB.processStatus &&& OS_PROCESS_FLAG_UNUSED ≠ 0

/-- `OsProcessIsInactive`. -/
def OsProcessIsInactive (processCB : LosProcessCB) : Bool :=
  processCB.processStatus &&& (OS_PROCESS_FLAG_UNUSED ||| OS_PROCESS_STATUS_INACTIVE) ≠ 0

/-- `OsProcessIsUserMode`. -/
def OsProcessIsUserMode (processCB : LosProcessCB) : Bool := processCB.processMode = OS_USER_MODE

-- ============================================================ groups

/-- `OsInsertPCBToFreeList`: the block is cleared, marked unused, and
put at the tail of `g_freeProcess`. -/
def OsInsertPCBToFreeList (s : ProcSys) (pid : Nat) : ProcSys :=
  let s := s.setPCB pid fun _ => ⟨OS_PROCESS_FLAG_UNUSED, 0, 0, NULL, [], []⟩
  { s with g_freeProcess := s.g_freeProcess ++ [pid] }

/-- `OsCreateProcessGroup(pid)` with the address `LOS_MemAlloc` gave. -/
def OsCreateProcessGroup (s : ProcSys) (pid addr : Nat) : ProcSys × Nat :=
  if addr = NULL then (s, NULL)
  else
    let s := s.setGroup addr fun _ => ⟨pid, [pid], []⟩
    let s := s.setPCB pid fun cb => { cb with
      group := addr
      processStatus := cb.processStatus ||| OS_PROCESS_FLAG_GROUP_LEADER }
    let s := if s.g_processGroup ≠ NULL then { s with groupList := s.groupList ++ [addr] } else s
    (s, addr)

/-- What `OsExitProcessGroup` does to a group left with no member: it
comes off the global list, its leader loses the leader flag, and a
leader already recycled goes back to the free list. -/
def OsExitProcessGroup.unlink (s : ProcSys) (g : Nat) : ProcSys :=
  let groupPid := (s.groupAt g).groupID
  let s := { s with groupList := s.groupList.erase g }
  let s := s.setPCB groupPid fun cb => { cb with
    processStatus := clearFlag cb.processStatus OS_PROCESS_FLAG_GROUP_LEADER }
  if OsProcessIsUnused (s.pcb groupPid) ∧ (s.pcb groupPid).processStatus &&& OS_PROCESS_FLAG_EXIT = 0
  then OsInsertPCBToFreeList (s.deletePend groupPid) groupPid
  else s

/-- `OsExitProcessGroup(processCB, group)`: the process leaves its group;
when the group is left with no member it is unlinked and the
out-parameter is set to it. Otherwise the out-parameter keeps the value
it had. -/
def OsExitProcessGroup (s : ProcSys) (pid group : Nat) : ProcSys × Nat :=
  let g := (s.pcb pid).group
  let s := s.deleteSubordinate pid
  -- `processCB->group = NULL` comes last
  let leave := fun s : ProcSys => s.setPCB pid fun cb => { cb with group := NULL }
  if (s.groupAt g).processList = [] ∧ (s.groupAt g).exitProcessList = [] then
    (leave (OsExitProcessGroup.unlink s g), g)
  else (leave s, group)

/-- `OsFindProcessGroup(gid)`. -/
def OsFindProcessGroup (s : ProcSys) (gid : Nat) : Nat :=
  if (s.groupAt s.g_processGroup).groupID = gid then s.g_processGroup
  else (s.groupList.find? fun g => (s.groupAt g).groupID = gid).getD NULL

-- ============================================================ recycling

/-- `OsRecycleZombiesProcess(childCB, group)`. -/
def OsRecycleZombiesProcess (s : ProcSys) (childPid group : Nat) : ProcSys × Nat :=
  let r := OsExitProcessGroup s childPid group
  let s := r.1.deleteSibling childPid
  let s :=
    if (s.pcb childPid).processStatus &&& OS_PROCESS_STATUS_ZOMBIES ≠ 0 then
      s.setPCB childPid fun cb => { cb with
        processStatus := clearFlag cb.processStatus OS_PROCESS_STATUS_ZOMBIES ||| OS_PROCESS_FLAG_UNUSED }
    else s
  let s := s.deletePend childPid
  let status := (s.pcb childPid).processStatus
  let s :=
    if status &&& OS_PROCESS_FLAG_EXIT ≠ 0 then
      { s with g_processRecyleList := childPid :: s.g_processRecyleList }
    else if status &&& OS_PROCESS_FLAG_GROUP_LEADER ≠ 0 then
      { s with g_processRecyleList := s.g_processRecyleList ++ [childPid] }
    else OsInsertPCBToFreeList s childPid
  (s, r.2)

/-- The loop of `OsChildProcessResourcesFree`: recycle the first exited
child and free `group`, one variable for every round. Each round takes
its child off the list, so the rounds the list's length allows are the
rounds the `while` loop runs. -/
def OsChildProcessResourcesFree.loop (pid : Nat) : Nat → ProcSys → Nat → ProcSys
  | 0, s, _ => s
  | fuel + 1, s, group =>
    match (s.pcb pid).exitChildList with
    | [] => s
    | childPid :: _ =>
      let r := OsRecycleZombiesProcess s childPid group
      loop pid fuel (r.1.memFree r.2) r.2

/-- `OsChildProcessResourcesFree(processCB)`. -/
def OsChildProcessResourcesFree (s : ProcSys) (pid : Nat) : ProcSys :=
  OsChildProcessResourcesFree.loop pid (s.pcb pid).exitChildList.length s NULL

/-- `OsWaitRecycleChildPorcess(childCB, ...)`, its group part. -/
def OsWaitRecycleChildPorcess (s : ProcSys) (childPid : Nat) : ProcSys :=
  let r := OsRecycleZombiesProcess s childPid NULL
  r.1.memFree r.2

/-- `OsDeInitPCB(processCB)`, its group part. -/
def OsDeInitPCB (s : ProcSys) (pid : Nat) : ProcSys :=
  let s :=
    if (s.pcb pid).parentProcessID ≠ OS_INVALID_VALUE then
      (s.deleteSibling pid).setPCB pid fun cb => { cb with parentProcessID := OS_INVALID_VALUE }
    else s
  let r := if (s.pcb pid).group ≠ NULL then OsExitProcessGroup s pid NULL else (s, NULL)
  let s := r.1.setPCB pid fun cb => { cb with
    processStatus := clearFlag cb.processStatus OS_PROCESS_STATUS_INIT ||| OS_PROCESS_FLAG_EXIT }
  let s := { s with g_processRecyleList := pid :: s.g_processRecyleList }
  s.memFree r.2

-- ============================================================ exit

/-- `OsDealAliveChildProcess`: the live children go to the init process
of the exiting process's mode. -/
def OsDealAliveChildProcess (s : ProcSys) (pid : Nat) : ProcSys :=
  let children := (s.pcb pid).childrenList
  if children = [] then s
  else
    let parentID := if OsProcessIsUserMode (s.pcb pid) then g_userInitProcess else g_kernelInitProcess
    let s := { s with pcb := fun q =>
      if q ∈ children then { s.pcb q with parentProcessID := parentID } else s.pcb q }
    let s := s.setPCB pid fun cb => { cb with childrenList := [] }
    s.setPCB parentID fun cb => { cb with childrenList := cb.childrenList ++ children }

/-- `OsProcessNaturalExit(runTask, status)`, its process part; `none` is
the panic of the root process. -/
def OsProcessNaturalExit (s : ProcSys) (pid : Nat) : Option ProcSys := do
  let s := OsChildProcessResourcesFree s pid
  let parentPid := (s.pcb pid).parentProcessID
  if parentPid = OS_INVALID_VALUE then none
  let s := s.deleteSibling pid
  let s := s.setPCB parentPid fun cb => { cb with exitChildList := cb.exitChildList ++ [pid] }
  let s := s.deleteSubordinate pid
  let s := s.setGroup (s.pcb pid).group fun g => { g with exitProcessList := g.exitProcessList ++ [pid] }
  let s := OsDealAliveChildProcess s pid
  let s := s.setPCB pid fun cb => { cb with processStatus := cb.processStatus ||| OS_PROCESS_STATUS_ZOMBIES }
  return { s with g_processRecyleList := pid :: s.g_processRecyleList }

-- ============================================================ setpgid

/-- `OsSetProcessGroupCheck(processCB, gid)`, with `runPid` the current
process. -/
def OsSetProcessGroupCheck (s : ProcSys) (runPid pid gid : Nat) : Nat :=
  let processCB := s.pcb pid
  let groupProcessCB := s.pcb gid
  if OsProcessIsInactive processCB then LOS_ESRCH
  else if !OsProcessIsUserMode processCB || !OsProcessIsUserMode groupProcessCB then LOS_EPERM
  else if runPid = processCB.parentProcessID ∧ processCB.processStatus &&& OS_PROCESS_FLAG_ALREADY_EXEC ≠ 0
  then LOS_EACCES
  else if runPid ≠ processCB.parentProcessID ∧ pid ≠ runPid then LOS_ESRCH
  -- to join another group, its leader must be a sibling or the parent
  else if pid ≠ gid ∧ groupProcessCB.processStatus &&& OS_PROCESS_FLAG_GROUP_LEADER = 0 then LOS_EPERM
  else if pid ≠ gid ∧ groupProcessCB.parentProcessID ≠ processCB.parentProcessID ∧
      gid ≠ processCB.parentProcessID then LOS_EPERM
  else LOS_OK

/-- `OsSetProcessGroupIDUnsafe(pid, gid, group)`, with the address the
`LOS_MemAlloc` of a new group would give. -/
def OsSetProcessGroupIDUnsafe (s : ProcSys) (runPid pid gid addr group : Nat) : Nat × ProcSys × Nat :=
  let ret := OsSetProcessGroupCheck s runPid pid gid
  if ret ≠ LOS_OK then (ret, s, group)
  else if (s.groupAt (s.pcb pid).group).groupID = gid then (LOS_OK, s, group)
  else
    let oldGroup := (s.pcb pid).group
    let r := OsExitProcessGroup s pid group
    let s := r.1
    let newGroup := OsFindProcessGroup s gid
    if newGroup ≠ NULL then
      let s := s.setGroup newGroup fun g => { g with processList := g.processList ++ [pid] }
      (LOS_OK, s.setPCB pid fun cb => { cb with group := newGroup }, r.2)
    else
      let c := OsCreateProcessGroup s gid addr
      if c.2 = NULL then
        -- back to the old group, linked again if it was unlinked
        let s := s.setGroup oldGroup fun g => { g with processList := g.processList ++ [pid] }
        let s := s.setPCB pid fun cb => { cb with group := oldGroup }
        if r.2 ≠ NULL then
          let s := { s with groupList := s.groupList ++ [oldGroup] }
          let s := s.setPCB (s.groupAt oldGroup).groupID fun cb => { cb with
            processStatus := cb.processStatus ||| OS_PROCESS_FLAG_GROUP_LEADER }
          (LOS_EPERM, s, NULL)
        else (LOS_EPERM, s, r.2)
      else (LOS_OK, c.1, r.2)

/-- `OsSetProcessGroupID(pid, gid)` called by `runPid`. -/
def OsSetProcessGroupID (s : ProcSys) (runPid pid gid addr : Nat) : Int × ProcSys :=
  if pid ≥ g_processMaxNum ∨ gid ≥ g_processMaxNum then (-(LOS_EINVAL : Int), s)
  else
    let r := OsSetProcessGroupIDUnsafe s runPid pid gid addr NULL
    (-(r.1 : Int), r.2.1.memFree r.2.2)

/-- `OsChildSetProcessGroupAndSched(child, run)`, its group part: a child
of a process in the user privilege group gets a group of its own. -/
def OsChildSetProcessGroupAndSched (s : ProcSys) (childPid runPid addr : Nat) : Nat × ProcSys :=
  if (s.groupAt (s.pcb runPid).group).groupID = OS_USER_PRIVILEGE_PROCESS_GROUP then
    let r := OsSetProcessGroupIDUnsafe s runPid childPid childPid addr NULL
    if r.1 ≠ LOS_OK then (LOS_ENOMEM, r.2.1)
    else (LOS_OK, r.2.1.memFree r.2.2)
  else (LOS_OK, s.memFree NULL)

end LiteOsA.Process
