/-
The System V shared-memory calls (`shm.c`): `ShmGet`, `ShmAt`, `ShmCtl`
and `ShmDt`, as their system-call wrappers (`vm_syscall.c`) report
them: the result, or `-errno`.

The caller is process `cur` with the credentials `user` (the `User` of
the credential model): `LOS_GetUserID` is its `userID`,
`LOS_GetGroupID` its `gid`, and `LOS_CheckInGroups` looks through its
first `groupNumber` groups. The user buffer of `ShmCtl` is described by
what the copies find there: whether it is `NULL` (`bufNull`), the
`ipc_perm` that `IPC_SET` reads from it (`none` when the copy faults)
and whether a copy out succeeds (`copyOk`); the bytes copied out are not
kept.

`ShmGet` of a key whose segment is marked `SHM_SEG_REMOVE` hands
`ShmPermCheck` the `NULL` that `ShmFindSeg` returns, which it
dereferences: the model answers `none` there.
-/
import LiteOsA.Vm.Map

namespace LiteOsA.Vm

open LiteOsA.Cred (User toInt32)

-- ============================================================ constants

/-- `IPC_PRIVATE` (sys/ipc.h). -/
def IPC_PRIVATE : Int := 0

/-- `IPC_CREAT` (sys/ipc.h). -/
def IPC_CREAT : Nat := 0o1000

/-- `IPC_EXCL` (sys/ipc.h). -/
def IPC_EXCL : Nat := 0o2000

/-- `IPC_RMID` (sys/ipc.h). -/
def IPC_RMID : Nat := 0

/-- `IPC_SET` (sys/ipc.h). -/
def IPC_SET : Nat := 1

/-- `IPC_STAT` (sys/ipc.h). -/
def IPC_STAT : Nat := 2

/-- `IPC_INFO` (sys/ipc.h). -/
def IPC_INFO : Nat := 3

/-- `IPC_64` (sys/ipc.h). -/
def IPC_64 : Nat := 0x100

/-- `SHM_STAT` (sys/shm.h). -/
def SHM_STAT : Nat := 13

/-- `SHM_INFO` (sys/shm.h). -/
def SHM_INFO : Nat := 14

/-- `SHM_RDONLY` (sys/shm.h). -/
def SHM_RDONLY : Nat := 0o10000

/-- `SHM_RND` (sys/shm.h). -/
def SHM_RND : Nat := 0o20000

/-- `SHM_REMAP` (sys/shm.h). -/
def SHM_REMAP : Nat := 0o40000

/-- `SHM_EXEC` (sys/shm.h). -/
def SHM_EXEC : Nat := 0o100000

/-- `SHMLBA` (sys/shm.h). -/
def SHMLBA : Nat := 4096

/-- `SHM_R` (sys/shm.h). -/
def SHM_R : Nat := 0o400

/-- `SHM_W` (sys/shm.h). -/
def SHM_W : Nat := 0o200

/-- `SHM_X` (shm.c). -/
def SHM_X : Nat := 0o100

/-- `SHM_M` (shm.c). -/
def SHM_M : Nat := 0o10000

/-- `ACCESSPERMS` (shm.c). -/
def ACCESSPERMS : Nat := 0o777

/-- `SHM_S_IRUGO` (shm.c). -/
def SHM_S_IRUGO : Nat := 0o444

/-- `SHM_S_IWUGO` (shm.c). -/
def SHM_S_IWUGO : Nat := 0o222

/-- `SHM_S_IXUGO` (shm.c). -/
def SHM_S_IXUGO : Nat := 0o111

/-- `SHM_GROUPE_TO_USER` (shm.c). -/
def SHM_GROUPE_TO_USER : Nat := 3

/-- `SHM_OTHER_TO_USER` (shm.c). -/
def SHM_OTHER_TO_USER : Nat := 6

/-- `ENOENT` (errno.h). -/
def ENOENT : Nat := 2

/-- `EPERM` (errno.h). -/
def EPERM : Nat := 1

/-- `EACCES` (errno.h). -/
def EACCES : Nat := 13

/-- `EFAULT` (errno.h). -/
def EFAULT : Nat := 14

/-- `EEXIST` (errno.h). -/
def EEXIST : Nat := 17

/-- `ENOSPC` (errno.h). -/
def ENOSPC : Nat := 28

-- ============================================================ segments

/-- `LOS_CheckInGroups`. -/
def LOS_CheckInGroups (user : User) (gid : Nat) : Bool :=
  (user.groups.take user.groupNumber).contains gid

/-- `ShmPermCheck`: `0`, or `EACCES`. -/
def ShmPermCheck (user : User) (seg : ShmIdSource) (mode : Nat) : Nat :=
  let perm := seg.ds.perm
  let (tmpMode, privMode, accMode) :=
    if user.userID = perm.uid ∨ user.userID = perm.cuid then (SHM_M, perm.mode, mode &&& 0o700)
    else if LOS_CheckInGroups user perm.gid || LOS_CheckInGroups user perm.cgid then
      (0, perm.mode <<< SHM_GROUPE_TO_USER, (mode &&& 0o70) <<< SHM_GROUPE_TO_USER)
    else (0, perm.mode <<< SHM_OTHER_TO_USER, (mode &&& 0o7) <<< SHM_OTHER_TO_USER)
  let tmpMode := tmpMode |||
    (if privMode &&& SHM_R ≠ 0 then SHM_R else 0) |||
    (if privMode &&& SHM_W ≠ 0 then SHM_W else 0) |||
    (if privMode &&& SHM_X ≠ 0 then SHM_X else 0)
  if mode = SHM_M ∧ tmpMode &&& SHM_M ≠ 0 then 0
  else if mode = SHM_M then EACCES
  else if tmpMode &&& accMode = accMode then 0
  else EACCES

/-- The search of `ShmAllocSeg`: the first free segment. -/
def ShmAllocSeg.findFree (s : VmSys) : Option Nat :=
  (List.range SHM_MNI).find? fun i => (s.segs i).status &&& SHM_SEG_FREE ≠ 0

/-- `ShmAllocSeg`: a new segment of `size` bytes (rounded up to pages)
for `key`, or `-errno`. -/
def ShmAllocSeg (s : VmSys) (cur : Nat) (user : User) (key : Int) (size shmflg : Nat) : Int × VmSys :=
  if size = 0 ∨ size < SHM_MIN ∨ size > SHM_MAX then (-(EINVAL : Int), s)
  else
    let size := LOS_Align size PAGE_SIZE
    if s.shmUsedPageCount + (size >>> PAGE_SHIFT) > SHM_ALL then (-(ENOMEM : Int), s)
    else
      match ShmAllocSeg.findFree s with
      | none => (-(ENOSPC : Int), s)
      | some i =>
        let seg := s.segs i
        let seg₁ := { seg with status := seg.status &&& ((2 ^ 32 - 1) ^^^ SHM_SEG_FREE) }
        let (count, node, s₁) := LOS_PhysPagesAlloc s (size >>> PAGE_SHIFT) seg.node
        if count ≠ size >>> PAGE_SHIFT then
          -- the pages come back and the segment is free again
          let (_, s₂) := LOS_PhysPagesFree s₁ node
          (-(ENOMEM : Int), s₂.setSeg i { seg₁ with status := SHM_SEG_FREE, node := [] })
        else
          let seg₂ := { seg₁ with node := node }
          let s₂ := ShmSetSharedFlag s₁ seg₂ true
          let ds : ShmidDs :=
            { perm := { seg.ds.perm with mode := shmflg &&& ACCESSPERMS, key := key,
                                         cuid := user.userID, uid := user.userID,
                                         cgid := user.gid, gid := user.gid },
              segsz := size, lpid := 0, nattch := 0, cpid := cur }
          (i, { s₂.setSeg i { seg₂ with status := seg₂.status ||| SHM_SEG_USED, ds := ds } with
                shmUsedPageCount := s₂.shmUsedPageCount + (size >>> PAGE_SHIFT) })

/-- `ShmFindSegByKey`: the first segment in use with this key. A segment
marked `SHM_SEG_REMOVE` is still in use. -/
def ShmFindSegByKey (s : VmSys) (key : Int) : Option Nat :=
  (List.range SHM_MNI).find? fun i => (s.segs i).status &&& SHM_SEG_USED ≠ 0 ∧ (s.segs i).ds.perm.key = key

/-- `ShmSegValidCheck`. -/
def ShmSegValidCheck (s : VmSys) (segNum size shmFlg : Nat) : Int :=
  if size > (s.segs segNum).ds.segsz then -(EINVAL : Int)
  else if shmFlg &&& (IPC_CREAT ||| IPC_EXCL) = IPC_CREAT ||| IPC_EXCL then -(EEXIST : Int)
  else segNum

/-- `ShmGet`: the segment of `key`, created when asked; `none` where the
code dereferences `NULL`. -/
def ShmGet (s : VmSys) (cur : Nat) (user : User) (key : Int) (size shmflg : Nat) :
    Option (Int × VmSys) :=
  if shmflg &&& IPC_CREAT = 0 ∧ shmflg &&& IPC_EXCL ≠ 0 then some (-(EINVAL : Int), s)
  else if key = IPC_PRIVATE then some (ShmAllocSeg s cur user key size shmflg)
  else
    match ShmFindSegByKey s key with
    | none =>
      if shmflg &&& IPC_CREAT = 0 then some (-(ENOENT : Int), s)
      else some (ShmAllocSeg s cur user key size shmflg)
    | some shmid =>
      match ShmFindSeg s shmid with
      | .error _ => none
      | .ok i =>
        let ret := ShmPermCheck user (s.segs i) (shmflg &&& ACCESSPERMS)
        if ret ≠ 0 then some (-(ret : Int), s)
        else some (ShmSegValidCheck s shmid size shmflg, s)

-- ============================================================ attach

/-- `ShmatParamCheck`: `0`, or `EINVAL`. -/
def ShmatParamCheck (shmaddr shmflg : Nat) : Nat :=
  if shmflg &&& SHM_REMAP ≠ 0 ∧ shmaddr = 0 then EINVAL
  else if shmaddr ≠ 0 ∧ shmaddr &&& (PAGE_SIZE - 1) ≠ 0 ∧ shmflg &&& SHM_RND = 0 then EINVAL
  else 0

/-- `(VADDR_T)` of what `LOS_MMap` returns. -/
def vaddrOf (ret : Int) : Nat := if ret < 0 then (2 ^ 32 + ret).toNat else ret.toNat

/-- `ShmatVmmAlloc`: a region of the caller's space for segment `i`,
its pages mapped, or the errno. -/
def ShmatVmmAlloc (s : VmSys) (cur i shmaddr shmflg prot : Nat) : Except Nat LosVmMapRegion × VmSys :=
  let flags := MAP_ANONYMOUS ||| MAP_SHARED
  let mapFlags := flags ||| MAP_FIXED
  let segsz := (s.segs i).ds.segsz
  if shmaddr = 0 then
    match LOS_RegionAlloc s cur cur 0 segsz (OsCvtProtFlagsToRegionFlags prot flags) with
    | (none, s₁) => (.error ENOMEM, s₁)
    | (some r, s₁) => (.ok r, ShmVmmMapping s₁ cur (s₁.segs i).node r.base)
  else
    let vaddr := if shmflg &&& SHM_RND ≠ 0 then shmaddr &&& ((2 ^ 32 - 1) ^^^ (SHMLBA - 1)) else shmaddr
    let space := s.spaces cur
    if shmflg &&& SHM_REMAP = 0 ∧
        ((LOS_RegionFind space vaddr).isSome ∨ (LOS_RegionFind space (u32Sub (u32 (vaddr + segsz)) 1)).isSome ∨
          (LOS_RegionRangeFind space vaddr (u32Sub segsz 1)).isSome) then (.error EINVAL, s)
    else
      let (ret, s₁) := LOS_MMap s cur vaddr segsz prot mapFlags 0
      match LOS_RegionFind (s₁.spaces cur) (vaddrOf ret) with
      | none => (.error ENOMEM, s₁)
      | some r => (.ok r, ShmVmmMapping s₁ cur (s₁.segs i).node r.base)

/-- The protection and access mode `ShmAt` asks for. -/
def ShmAt.mode (shmflg : Nat) : Nat × Nat :=
  if shmflg &&& SHM_EXEC ≠ 0 then (PROT_READ ||| PROT_EXEC, SHM_S_IRUGO ||| SHM_S_IXUGO)
  else if shmflg &&& SHM_RDONLY = 0 then (PROT_READ ||| PROT_WRITE, SHM_S_IRUGO ||| SHM_S_IWUGO)
  else (PROT_READ, SHM_S_IRUGO)

/-- Add `d` to the attachment count of segment `i`, in `shmatt_t`. -/
def addNattch (s : VmSys) (i : Nat) (d : Nat → Nat) : VmSys :=
  s.setSeg i { s.segs i with ds := { (s.segs i).ds with nattch := d (s.segs i).ds.nattch } }

/-- `ShmAt`: attach segment `shmid` to the caller's space; the address,
or `-errno`. -/
def ShmAt (s : VmSys) (cur : Nat) (user : User) (shmid : Int) (shmaddr shmflg : Nat) : Int × VmSys :=
  let ret := ShmatParamCheck shmaddr shmflg
  if ret ≠ 0 then (-(ret : Int), s)
  else
    let (prot, accMode) := ShmAt.mode shmflg
    match ShmFindSeg s shmid with
    | .error e => (-(e : Int), s)
    | .ok i =>
      let ret := ShmPermCheck user (s.segs i) accMode
      if ret ≠ 0 then (-(ret : Int), s)
      else
        let s₁ := addNattch s i fun n => u32 (n + 1)
        match ShmatVmmAlloc s₁ cur i shmaddr shmflg prot with
        | (.error e, s₂) => (-(e : Int), addNattch s₂ i fun n => u32Sub n 1)
        | (.ok r, s₂) =>
          let r' := { r with shmid := shmid.toNat, regionFlags := r.regionFlags ||| VM_MAP_REGION_FLAG_SHM }
          let s₃ := s₂.setSpace cur (setRegion (s₂.spaces cur) r')
          (r.base, s₃.setSeg i { s₃.segs i with ds := { (s₃.segs i).ds with lpid := cur } })

-- ============================================================ control

/-- What `ShmCtl` finds in the caller's buffer. -/
structure ShmBuf where
  bufNull : Bool
  perm : Option IpcPerm
  copyOk : Bool

/-- `ShmCtl`: the command's result, or `-errno`. -/
def ShmCtl (s : VmSys) (user : User) (shmid : Int) (cmd : Nat) (buf : ShmBuf) : Int × VmSys :=
  let cmd := cmd &&& ((2 ^ 32 - 1) ^^^ IPC_64)
  let found : Except Nat Nat :=
    if cmd ≠ IPC_INFO ∧ cmd ≠ SHM_INFO then ShmFindSeg s shmid else .ok 0
  match found with
  | .error e => (-(e : Int), s)
  | .ok i =>
    let seg := s.segs i
    if buf.bufNull ∧ cmd ≠ IPC_RMID then (-(EINVAL : Int), s)
    else if cmd = IPC_STAT ∨ cmd = SHM_STAT then
      let ret := ShmPermCheck user seg SHM_S_IRUGO
      if ret ≠ 0 then (-(ret : Int), s)
      else if !buf.copyOk then (-(EFAULT : Int), s)
      else if cmd = SHM_STAT then (((seg.ds.perm.seq <<< 16) ||| (shmid.toNat &&& 0xffff) : Nat), s)
      else (0, s)
    else if cmd = IPC_SET then
      if ShmPermCheck user seg SHM_M ≠ 0 then (-(EPERM : Int), s)
      else
        match buf.perm with
        | none => (-(EFAULT : Int), s)
        | some p =>
          (0, s.setSeg i { seg with ds := { seg.ds with perm := { seg.ds.perm with
            uid := p.uid, gid := p.gid,
            mode := (seg.ds.perm.mode &&& ((2 ^ 32 - 1) ^^^ ACCESSPERMS)) ||| (p.mode &&& ACCESSPERMS) } } })
    else if cmd = IPC_RMID then
      if ShmPermCheck user seg SHM_M ≠ 0 then (-(EPERM : Int), s)
      else
        let s₁ := s.setSeg i { seg with status := seg.status ||| SHM_SEG_REMOVE }
        (0, if seg.ds.nattch = 0 then ShmFreeSeg s₁ i else s₁)
    else if cmd = IPC_INFO ∨ cmd = SHM_INFO then
      if !buf.copyOk then (-(EFAULT : Int), s) else (SHM_MNI, s)
    else (-(EINVAL : Int), s)

-- ============================================================ detach

/-- `ShmDt`: detach the region at `shmaddr` of the caller's space. The
region leaves the tree and the page table before its segment is looked
up. -/
def ShmDt (s : VmSys) (cur shmaddr : Nat) : Int × VmSys :=
  if shmaddr &&& (PAGE_SIZE - 1) ≠ 0 then (-(EINVAL : Int), s)
  else
    match LOS_RegionFind (s.spaces cur) shmaddr with
    | none => (-(EINVAL : Int), s)
    | some region =>
      if region.base ≠ shmaddr then (-(EINVAL : Int), s)
      else
        let s₁ := s.setSpace cur
          (LOS_ArchMmuUnmap (LOS_RbDelNode (s.spaces cur) region.id) region.base (region.size >>> PAGE_SHIFT))
        match ShmFindSeg s₁ (toInt32 region.shmid) with
        | .error _ => (-(EINVAL : Int), s₁)
        | .ok i => (0, ShmDetach s₁ cur i)

end LiteOsA.Vm
