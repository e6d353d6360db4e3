/-
Credentials of a process: the user and group IDs and the capability
mask (syscall/process_syscall.c, security/cap/capability.c), with
`LOSCFG_SECURITY_CAPABILITY`.

# What the model keeps

A process holds a pointer to a `User` object and a capability mask.
`User` objects live on the heap, named by their addresses: a `User` is
allocated with room for a number of group entries
(`sizeof(User) + (n - 1) * sizeof(UINT32)` bytes), and the model keeps
the entries as a list whose length is that room, so that how many
entries a copy reads can be set against how many the object holds.
`LOS_MemAlloc` either fails or hands out an address no live object has;
the step is told which.

# Critical sections

Each critical section under the scheduler lock is one step, and so is
each stretch of code between two of them that reads shared state:

* the calls that do all their work in one section: `SysSetUserID`,
  `SysSetGroupID`, their real/effective/saved forms, `SysCapSet`, and
  the copy of the caller's `User` and capability at a fork;
* `GetGroups` in two steps: the count it reads under the lock, then the
  copy of that many entries from the caller's current `User`;
* `SysSetGroups` in two steps: the checks, run without the lock (the
  capability, and the caller's `gid` the list is scanned against), then
  `SetGroups`' section, which installs the new `User` and frees the old.

A thread between two steps of one call keeps what it has read
(`Pending`). User memory is the list a call passes, and a flag for
whether a copy to or from it succeeds.

# What it leaves out

The process's other fields, process exit, and the calls that only read
(`SysGetUserID`, `LOS_CheckInGroups`).
-/
import LiteOsA.Base
import Mathlib.Logic.Function.Basic

namespace LiteOsA.Cred

-- ============================================================ constants

/-- `EPERM` (errno.h). -/
def EPERM : Int := 1

/-- `ENOMEM` (errno.h). -/
def ENOMEM : Int := 12

/-- `EFAULT` (errno.h). -/
def EFAULT : Int := 14

/-- `EINVAL` (errno.h). -/
def EINVAL : Int := 22

/-- `CAP_SETGID` (capability_type.h). -/
def CAP_SETGID : Nat := 6

/-- `CAP_SETUID` (capability_type.h). -/
def CAP_SETUID : Nat := 7

/-- `CAP_CAPSET` (capability_type.h). -/
def CAP_CAPSET : Nat := 17

/-- `CAPABILITY_INIT_STAT`: every capability. -/
def CAPABILITY_INIT_STAT : Nat := 0xffffffff

def CAPABILITY_MAX : Nat := 31

/-- `CAPABILITY_GET_CAP_MASK(x)`. -/
def CAPABILITY_GET_CAP_MASK (x : Nat) : Nat := 1 <<< (x &&& 31)

/-- `VALID_CAPS(a, b)`: `a` has a bit `b` lacks, in 32 bits. -/
def VALID_CAPS (a b : Nat) : Bool := a &&& ((2 ^ 32 - 1) ^^^ b) != 0

/-- `OS_GROUPS_NUMBER_MAX` (los_process_pri.h). -/
def OS_GROUPS_NUMBER_MAX : Int := 256

/-- A `UINT32` read as an `int`. -/
def toInt32 (x : Nat) : Int := if x < 2 ^ 31 then x else (x : Int) - 2 ^ 32

-- ============================================================ the state

/-- A `User` object: the IDs, `groupNumber`, and the group entries its
allocation has room for. -/
structure User where
  userID : Nat
  effUserID : Nat
  gid : Nat
  effGid : Nat
  groupNumber : Nat
  groups : List Nat
  deriving DecidableEq, Repr

/-- What a process control block holds of its credentials. -/
structure Proc where
  /-- `processCB->user`, the address of its `User`. -/
  user : Nat
  capability : Nat
  deriving DecidableEq, Repr

/-- Where a thread is between two steps of a call. -/
inductive Pending where
  | idle
  /-- `GetGroups` of process `pid` read `groupCount` and has its buffer. -/
  | getGroups (pid groupCount : Nat)
  /-- `SysSetGroups` of process `pid` passed its checks; `SetGroups`
  is to run with these arguments. -/
  | setGroups (pid listSize : Nat) (safeList : Option (List Nat)) (size : Nat)
  deriving DecidableEq, Repr

structure CredSys where
  procs : Nat → Option Proc
  /-- The live `User` objects, by address. -/
  users : Nat → Option User
  pending : Nat → Pending

namespace CredSys

def setProc (s : CredSys) (pid : Nat) (p : Proc) : CredSys :=
  { s with procs := Function.update s.procs pid (some p) }

def setUser (s : CredSys) (a : Nat) (u : Option User) : CredSys :=
  { s with users := Function.update s.users a u }

def setPending (s : CredSys) (t : Nat) (q : Pending) : CredSys :=
  { s with pending := Function.update s.pending t q }

@[simp] theorem setProc_procs (s : CredSys) (pid : Nat) (p : Proc) :
    (s.setProc pid p).procs = Function.update s.procs pid (some p) := rfl

@[simp] theorem setProc_users (s : CredSys) (pid : Nat) (p : Proc) :
    (s.setProc pid p).users = s.users := rfl

@[simp] theorem setProc_pending (s : CredSys) (pid : Nat) (p : Proc) :
    (s.setProc pid p).pending = s.pending := rfl

@[simp] theorem setUser_procs (s : CredSys) (a : Nat) (u : Option User) :
    (s.setUser a u).procs = s.procs := rfl

@[simp] theorem setUser_users (s : CredSys) (a : Nat) (u : Option User) :
    (s.setUser a u).users = Function.update s.users a u := rfl

@[simp] theorem setUser_pending (s : CredSys) (a : Nat) (u : Option User) :
    (s.setUser a u).pending = s.pending := rfl

@[simp] theorem setPending_procs (s : CredSys) (t : Nat) (q : Pending) :
    (s.setPending t q).procs = s.procs := rfl

@[simp] theorem setPending_users (s : CredSys) (t : Nat) (q : Pending) :
    (s.setPending t q).users = s.users := rfl

@[simp] theorem setPending_pending (s : CredSys) (t : Nat) (q : Pending) :
    (s.setPending t q).pending = Function.update s.pending t q := rfl

end CredSys

-- ============================================================ capabilities

/-- `IsCapPermit` for a process with mask `capability`. -/
def IsCapPermit (capability capIndex : Nat) : Bool :=
  if capIndex > CAPABILITY_MAX then false
  else capability &&& CAPABILITY_GET_CAP_MASK capIndex != 0

/-- `SysCapSet`: only a process with `CAP_CAPSET` sets its mask, and
only to one without a bit it lacks. -/
def SysCapSet (capability caps : Nat) : Int × Nat :=
  if !IsCapPermit capability CAP_CAPSET then (-EPERM, capability)
  else if VALID_CAPS caps capability then (-EPERM, capability)
  else (LOS_OK, caps)

-- ============================================================ IDs

/-- `OsCreateUser(userID, gid, size)`: room for `size` entries, of which
the first is `gid`. -/
def OsCreateUser (userID gid size : Nat) : User :=
  ⟨userID, userID, gid, gid, size, (List.replicate size 0).set 0 gid⟩

/-- `SysSetUserID`, under the lock: with `CAP_SETUID` both IDs become
`uid`; without it only the real ID itself is accepted. -/
def SysSetUserID (capability : Nat) (user : User) (uid : Int) : Int × User :=
  if uid < 0 then (-EINVAL, user)
  else if IsCapPermit capability CAP_SETUID then
    (LOS_OK, { user with userID := uid.toNat, effUserID := uid.toNat })
  else if user.userID ≠ uid.toNat then (-EPERM, user)
  else (LOS_OK, user)

/-- `SysSetRealEffSaveUserID`: the IDs other than `-1` must agree, and
name the one `SysSetUserID` sets. -/
def SysSetRealEffSaveUserID (capability : Nat) (user : User) (ruid euid suid : Int) :
    Int × User :=
  if ruid = -1 ∧ euid = -1 ∧ suid = -1 then (0, user)
  else if (ruid < 0 ∧ ruid ≠ -1) ∨ (euid < 0 ∧ euid ≠ -1) ∨ (suid < 0 ∧ suid ≠ -1) then
    (-EINVAL, user)
  else if ruid ≥ 0 then
    if (euid ≠ -1 ∧ euid ≠ ruid) ∨ (suid ≠ -1 ∧ suid ≠ ruid) then (-EPERM, user)
    else SysSetUserID capability user ruid
  else if euid ≥ 0 then
    if suid ≠ -1 ∧ suid ≠ euid then (-EPERM, user)
    else SysSetUserID capability user euid
  else SysSetUserID capability user suid

def SysSetRealEffUserID (capability : Nat) (user : User) (ruid euid : Int) : Int × User :=
  SysSetRealEffSaveUserID capability user ruid euid (-1)

/-- The loop of `SysSetGroupID`: the first of the first `n` entries that
is `oldGid` becomes `gid`; `none` when there is none. -/
def SysSetGroupID.loop (oldGid gid : Nat) : Nat → List Nat → Option (List Nat)
  | 0, _ => none
  | _ + 1, [] => none
  | n + 1, x :: l =>
      if x = oldGid then some (gid :: l) else (loop oldGid gid n l).map (x :: ·)

/-- `SysSetGroupID`, under the lock: with `CAP_SETGID` both group IDs
become `gid`, and so does the first entry that held the old one;
without it only the real group ID itself is accepted. -/
def SysSetGroupID (capability : Nat) (user : User) (gid : Int) : Int × User :=
  if gid < 0 then (-EINVAL, user)
  else if IsCapPermit capability CAP_SETGID then
    let oldGid := user.gid
    let user' := { user with gid := gid.toNat, effGid := gid.toNat }
    match SysSetGroupID.loop oldGid gid.toNat user.groupNumber user.groups with
    | some groups => (LOS_OK, { user' with groups := groups })
    | none => (LOS_OK, user')
  else if user.gid ≠ gid.toNat then (-EPERM, user)
  else (LOS_OK, user)

def SysSetRealEffSaveGroupID (capability : Nat) (user : User) (rgid egid sgid : Int) :
    Int × User :=
  if rgid = -1 ∧ egid = -1 ∧ sgid = -1 then (0, user)
  else if (rgid < 0 ∧ rgid ≠ -1) ∨ (egid < 0 ∧ egid ≠ -1) ∨ (sgid < 0 ∧ sgid ≠ -1) then
    (-EINVAL, user)
  else if rgid ≥ 0 then
    if (egid ≠ -1 ∧ egid ≠ rgid) ∨ (sgid ≠ -1 ∧ sgid ≠ rgid) then (-EPERM, user)
    else SysSetGroupID capability user rgid
  else if egid ≥ 0 then
    if sgid ≠ -1 ∧ sgid ≠ egid then (-EPERM, user)
    else SysSetGroupID capability user egid
  else SysSetGroupID capability user sgid

def SysSetRealEffGroupID (capability : Nat) (user : User) (rgid egid : Int) : Int × User :=
  SysSetRealEffSaveGroupID capability user rgid egid (-1)

-- ============================================================ groups

/-- `GetGroups` up to its second critical section: the count it reads
under the lock, then its checks and the allocation of `safeList`. It
returns (`Sum.inl`), or goes on to copy `groupCount` entries
(`Sum.inr groupCount`). -/
def GetGroups.sample (user : User) (size : Int) (listNull allocOk : Bool) : Int ⊕ Nat :=
  let groupCount := user.groupNumber
  if size = 0 then .inl groupCount
  else if listNull then .inl (-EFAULT)
  else if size < groupCount then .inl (-EINVAL)
  else if !allocOk then .inl (-ENOMEM)
  else .inr groupCount

/-- The scan of `SysSetGroups` over the list: `none` for a negative
entry other than `gid`, else whether `gid` is in it. -/
def SysSetGroups.scan (gid : Int) : List Int → Option Bool
  | [] => some false
  | x :: l =>
      if x = gid then (scan gid l).map fun _ => true
      else if x < 0 then none
      else scan gid l

/-- `SysSetGroups` up to `SetGroups`' critical section, with no lock
held: the checks, the copy of the list from user space and its scan
against the caller's `gid`. It returns (`Sum.inl`), or goes on to
`SetGroups(listSize, safeList, size)` (`Sum.inr`). -/
def SysSetGroups.check (capability : Nat) (user : User) (size : Int) (list : List Int)
    (listNull allocOk copyOk : Bool) : Int ⊕ (Nat × Option (List Nat) × Nat) :=
  if size ≠ 0 ∧ listNull then .inl (-EFAULT)
  else if size < 0 ∨ size > OS_GROUPS_NUMBER_MAX then .inl (-EINVAL)
  else if !IsCapPermit capability CAP_SETGID then .inl (-EPERM)
  else if size ≠ 0 then
    if !allocOk then .inl (-ENOMEM)
    else if !copyOk then .inl (-EFAULT)
    else
      let safeList := list.take size.toNat
      match SysSetGroups.scan (toInt32 user.gid) safeList with
      | none => .inl (-EINVAL)
      | some found =>
          .inr (if found then size.toNat - 1 else size.toNat, some (safeList.map Int.toNat),
            size.toNat)
  else .inr (size.toNat, none, size.toNat)

/-- `memcpy_s` of the first `n` entries of `src` over those of `dst`. -/
def memcpyList (dst src : List Nat) (n : Nat) : List Nat :=
  dst.mapIdx fun i x => if i < n then src.getD i 0 else x

/-- The new object of `SetGroups(listSize, safeList, size)`: room for
`listSize + 1` entries. The copy of the `User` takes the old object's
first entry along; the list goes over it, and the old `gid` after it
when the list did not hold the caller's `gid`. -/
def SetGroups (oldUser : User) (listSize : Nat) (safeList : Option (List Nat)) (size : Nat) :
    User :=
  let groups := (List.replicate (listSize + 1) 0).set 0 (oldUser.groups.headD 0)
  let groups :=
    match safeList with
    | some l => memcpyList groups l size
    | none => groups
  let groups := if listSize = size then groups.set listSize oldUser.gid else groups
  { oldUser with groupNumber := listSize + 1, groups := groups }

/-- `OsCopyUser`: a child's copy of its parent's `User`, with room for
`groupNumber` entries. -/
def OsCopyUser (parent : User) : User :=
  { parent with groups := parent.groups.take parent.groupNumber }

-- ============================================================ steps

/-- A call that does its work in one critical section. -/
inductive Call where
  | SysSetUserID (uid : Int)
  | SysSetRealEffUserID (ruid euid : Int)
  | SysSetRealEffSaveUserID (ruid euid suid : Int)
  | SysSetGroupID (gid : Int)
  | SysSetRealEffGroupID (rgid egid : Int)
  | SysSetRealEffSaveGroupID (rgid egid sgid : Int)
  | SysCapSet (caps : Nat)
  deriving DecidableEq, Repr

/-- A call on the caller's mask and `User`: what it returns, and the
mask and `User` after it. -/
def callStep (capability : Nat) (user : User) : Call → Int × Nat × User
  | .SysSetUserID uid =>
      let r := SysSetUserID capability user uid; (r.1, capability, r.2)
  | .SysSetRealEffUserID ruid euid =>
      let r := SysSetRealEffUserID capability user ruid euid; (r.1, capability, r.2)
  | .SysSetRealEffSaveUserID ruid euid suid =>
      let r := SysSetRealEffSaveUserID capability user ruid euid suid; (r.1, capability, r.2)
  | .SysSetGroupID gid =>
      let r := SysSetGroupID capability user gid; (r.1, capability, r.2)
  | .SysSetRealEffGroupID rgid egid =>
      let r := SysSetRealEffGroupID capability user rgid egid; (r.1, capability, r.2)
  | .SysSetRealEffSaveGroupID rgid egid sgid =>
      let r := SysSetRealEffSaveGroupID capability user rgid egid sgid; (r.1, capability, r.2)
  | .SysCapSet caps =>
      let r := SysCapSet capability caps; (r.1, r.2, user)

/-- What a thread of a process does in one step. -/
inductive Event where
  /-- A one-section call by process `pid`, and what it returned. -/
  | call (pid : Nat) (c : Call) (ret : Int)
  /-- `GetGroups(size, list)` by thread `t` of process `pid`, up to its
  copy. -/
  | getGroups (t pid : Nat) (size : Int) (listNull allocOk : Bool)
  /-- The copy of `GetGroups`: `count` entries read from the `User` at
  `user`. -/
  | getGroupsCopy (t user count : Nat) (copyOk : Bool)
  /-- `SysSetGroups(size, list)` by thread `t` of process `pid`, up to
  `SetGroups`' critical section. -/
  | setGroups (t pid : Nat) (size : Int) (list : List Int) (listNull allocOk copyOk : Bool)
  /-- `SetGroups`' allocation, at `addr` (`NULL` when it fails), and its
  critical section. -/
  | setGroupsCommit (t addr : Nat)
  /-- A fork of process `pid` into the new process `child`, its `User`
  copied to `addr`. -/
  | fork (pid child addr : Nat)
  deriving DecidableEq, Repr

/-- The steps, each a critical section or the code between two. -/
inductive Step : CredSys → Event → CredSys → Prop where
  | call {s : CredSys} {pid : Nat} {p : Proc} {u : User} (c : Call)
      (hp : s.procs pid = some p) (hu : s.users p.user = some u) :
      Step s (.call pid c (callStep p.capability u c).1)
        ((s.setProc pid { p with capability := (callStep p.capability u c).2.1 }).setUser p.user
          (some (callStep p.capability u c).2.2))
  | getGroupsRet {s : CredSys} {t pid : Nat} {p : Proc} {u : User} {size : Int}
      {listNull allocOk : Bool} {ret : Int} (ht : s.pending t = .idle)
      (hp : s.procs pid = some p) (hu : s.users p.user = some u)
      (hret : GetGroups.sample u size listNull allocOk = .inl ret) :
      Step s (.getGroups t pid size listNull allocOk) s
  | getGroupsOn {s : CredSys} {t pid : Nat} {p : Proc} {u : User} {size : Int}
      {listNull allocOk : Bool} {groupCount : Nat} (ht : s.pending t = .idle)
      (hp : s.procs pid = some p) (hu : s.users p.user = some u)
      (hon : GetGroups.sample u size listNull allocOk = .inr groupCount) :
      Step s (.getGroups t pid size listNull allocOk) (s.setPending t (.getGroups pid groupCount))
  | getGroupsCopy {s : CredSys} {t pid groupCount : Nat} {p : Proc} (copyOk : Bool)
      (ht : s.pending t = .getGroups pid groupCount) (hp : s.procs pid = some p) :
      Step s (.getGroupsCopy t p.user groupCount copyOk) (s.setPending t .idle)
  | setGroupsRet {s : CredSys} {t pid : Nat} {p : Proc} {u : User} {size : Int} {list : List Int}
      {listNull allocOk copyOk : Bool} {ret : Int} (ht : s.pending t = .idle)
      (hp : s.procs pid = some p) (hu : s.users p.user = some u)
      (hret : SysSetGroups.check p.capability u size list listNull allocOk copyOk = .inl ret) :
      Step s (.setGroups t pid size list listNull allocOk copyOk) s
  | setGroupsOn {s : CredSys} {t pid : Nat} {p : Proc} {u : User} {size : Int} {list : List Int}
      {listNull allocOk copyOk : Bool} {listSize n : Nat} {safeList : Option (List Nat)}
      (ht : s.pending t = .idle) (hp : s.procs pid = some p) (hu : s.users p.user = some u)
      (hon : SysSetGroups.check p.capability u size list listNull allocOk copyOk =
        .inr (listSize, safeList, n)) :
      Step s (.setGroups t pid size list listNull allocOk copyOk)
        (s.setPending t (.setGroups pid listSize safeList n))
  | setGroupsNoMem {s : CredSys} {t pid listSize n : Nat} {safeList : Option (List Nat)}
      (ht : s.pending t = .setGroups pid listSize safeList n) :
      Step s (.setGroupsCommit t NULL) (s.setPending t .idle)
  | setGroupsCommit {s : CredSys} {t pid listSize n addr : Nat} {safeList : Option (List Nat)}
      {p : Proc} {u : User} (ht : s.pending t = .setGroups pid listSize safeList n)
      (haddr : addr ≠ NULL) (hfresh : s.users addr = none)
      (hp : s.procs pid = some p) (hu : s.users p.user = some u) :
      Step s (.setGroupsCommit t addr)
        ((((s.setUser addr (some (SetGroups u listSize safeList n))).setProc pid
          { p with user := addr }).setUser p.user none).setPending t .idle)
  | forkNoMem {s : CredSys} {pid child : Nat} (hp : (s.procs pid).isSome) :
      Step s (.fork pid child NULL) s
  | fork {s : CredSys} {pid child addr : Nat} {p : Proc} {u : User}
      (hp : s.procs pid = some p) (hu : s.users p.user = some u)
      (hchild : s.procs child = none) (haddr : addr ≠ NULL) (hfresh : s.users addr = none) :
      Step s (.fork pid child addr)
        ((s.setUser addr (some (OsCopyUser u))).setProc child ⟨addr, p.capability⟩)

/-- A one-section call at the value it returns, stated apart so that a
run on a fixed input names its returns. -/
theorem Step.call_ret {s : CredSys} {pid : Nat} {p : Proc} {u : User} {ret : Int} (c : Call)
    (hp : s.procs pid = some p) (hu : s.users p.user = some u)
    (hret : (callStep p.capability u c).1 = ret) :
    Step s (.call pid c ret)
      ((s.setProc pid { p with capability := (callStep p.capability u c).2.1 }).setUser p.user
        (some (callStep p.capability u c).2.2)) :=
  hret ▸ Step.call c hp hu

/-- The first process after boot: `OsCreateUser(0, 0, 1)` at `user`,
every capability (`OsInitCapability`), and no call under way. -/
def OsInitProcess (pid user : Nat) : CredSys where
  procs q := if q = pid then some ⟨user, CAPABILITY_INIT_STAT⟩ else none
  users a := if a = user then some (OsCreateUser 0 0 1) else none
  pending _ := .idle

end LiteOsA.Cred
