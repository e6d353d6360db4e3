/-
The state of the VM model, and the parts of `shm.c` that the region
layer calls: the segment table, the page lists of the segments, and the
hooks run when a shared-memory region is cloned at fork
(`OsShmFork`) or freed (`OsShmRegionFree`).

# State

`VmSys` holds every process's address space (by process ID), the
physical pages (free pool, reference counts, shared flags), the
segment table `g_shmSegs` and `g_shmUsedPageCount`. The physical page
allocator is a pool of free page numbers: `LOS_PhysPagesAlloc` takes
pages from its front and a freed page goes back to its front; which
page the buddy allocator would hand out is not modelled. A new region
record is the address `nextRegion`, never used before.

# Counters

`shm_nattch` is an `unsigned long` and `g_shmUsedPageCount` a `UINT32`:
the model writes their wrap-around out, so that `shm_nattch <= 0` reads
as the code does, as `shm_nattch == 0`. A page's `refCounts` is an
atomic `INT32`, an `Int` here.

# What is left out

The times of a segment (`shm_atime`, `shm_dtime`, `shm_ctime`) are
written from `time(NULL)` and read by no modelled function but the
copy of `IPC_STAT`, whose bytes the model does not keep: they are left
out, as is the shell's `ownerName`.
-/
import LiteOsA.Vm.Region
import LiteOsA.Syscall.Cred

namespace LiteOsA.Vm

open LiteOsA.Cred (toInt32)

-- ============================================================ constants

/-- `SHM_MAX_PAGES` (shm.c). -/
def SHM_MAX_PAGES : Nat := 4096

/-- `SHM_MAX` (shm.c): `g_shmInfo.shmmax`. -/
def SHM_MAX : Nat := SHM_MAX_PAGES * PAGE_SIZE

/-- `SHM_MIN` (shm.c): `g_shmInfo.shmmin`. -/
def SHM_MIN : Nat := 1

/-- `SHM_MNI` (shm.c): `g_shmInfo.shmmni`, the number of segments. -/
def SHM_MNI : Nat := 192

/-- `SHM_ALL` (shm.c): `g_shmInfo.shmall`, in pages. -/
def SHM_ALL : Nat := SHM_MAX_PAGES

/-- `SHM_SEG_FREE` (shm.c). -/
def SHM_SEG_FREE : Nat := 0x2000

/-- `SHM_SEG_USED` (shm.c). -/
def SHM_SEG_USED : Nat := 0x4000

/-- `SHM_SEG_REMOVE` (shm.c). -/
def SHM_SEG_REMOVE : Nat := 0x8000

/-- `EINVAL` (errno.h). -/
def EINVAL : Nat := 22

/-- `EIDRM` (errno.h). -/
def EIDRM : Nat := 43

-- ============================================================ records

/-- `struct ipc_perm` of a segment. -/
structure IpcPerm where
  key : Int
  uid : Nat
  gid : Nat
  cuid : Nat
  cgid : Nat
  mode : Nat
  seq : Nat
  deriving DecidableEq, Repr

/-- `struct shmid_ds` of a segment, without its times. -/
structure ShmidDs where
  perm : IpcPerm
  segsz : Nat
  lpid : Nat
  cpid : Nat
  nattch : Nat
  deriving DecidableEq, Repr

/-- `struct shmIDSource`: a segment, its status bits and its pages. -/
structure ShmIdSource where
  ds : ShmidDs
  status : Nat
  node : List Nat
  deriving DecidableEq, Repr

/-- The state of the VM model. -/
structure VmSys where
  spaces : Nat → LosVmSpace
  nextRegion : Nat
  freePages : List Nat
  refCounts : Nat → Int
  shared : Nat → Bool
  segs : Nat → ShmIdSource
  shmUsedPageCount : Nat

namespace VmSys

/-- Write the address space of process `pid`. -/
def setSpace (s : VmSys) (pid : Nat) (space : LosVmSpace) : VmSys :=
  { s with spaces := Function.update s.spaces pid space }

/-- Write segment `i`. -/
def setSeg (s : VmSys) (i : Nat) (seg : ShmIdSource) : VmSys :=
  { s with segs := Function.update s.segs i seg }

@[simp] theorem setSpace_spaces (s : VmSys) (pid : Nat) (space : LosVmSpace) :
    (s.setSpace pid space).spaces = Function.update s.spaces pid space := rfl

@[simp] theorem setSpace_segs (s : VmSys) (pid : Nat) (space : LosVmSpace) :
    (s.setSpace pid space).segs = s.segs := rfl

@[simp] theorem setSpace_refCounts (s : VmSys) (pid : Nat) (space : LosVmSpace) :
    (s.setSpace pid space).refCounts = s.refCounts := rfl

@[simp] theorem setSpace_shmUsedPageCount (s : VmSys) (pid : Nat) (space : LosVmSpace) :
    (s.setSpace pid space).shmUsedPageCount = s.shmUsedPageCount := rfl

@[simp] theorem setSeg_segs (s : VmSys) (i : Nat) (seg : ShmIdSource) :
    (s.setSeg i seg).segs = Function.update s.segs i seg := rfl

@[simp] theorem setSeg_spaces (s : VmSys) (i : Nat) (seg : ShmIdSource) :
    (s.setSeg i seg).spaces = s.spaces := rfl

@[simp] theorem setSeg_refCounts (s : VmSys) (i : Nat) (seg : ShmIdSource) :
    (s.setSeg i seg).refCounts = s.refCounts := rfl

@[simp] theorem setSeg_shmUsedPageCount (s : VmSys) (i : Nat) (seg : ShmIdSource) :
    (s.setSeg i seg).shmUsedPageCount = s.shmUsedPageCount := rfl

end VmSys

-- ============================================================ physical pages

/-- `LOS_PhysPagesAlloc(nPages, list)`: up to `nPages` pages from the
pool, each with `refCounts` set to `0`, appended to `list`. -/
def LOS_PhysPagesAlloc (s : VmSys) (nPages : Nat) (list : List Nat) : Nat × List Nat × VmSys :=
  let pages := s.freePages.take nPages
  (pages.length, list ++ pages,
    { s with freePages := s.freePages.drop nPages,
             refCounts := fun p => if p ∈ pages then 0 else s.refCounts p })

/-- One page of `LOS_PhysPagesFree`: drop a reference and give the page
back to the pool when none is left. -/
def LOS_PhysPagesFree.one (s : VmSys) (p : Nat) : VmSys :=
  if s.refCounts p - 1 ≤ 0 then
    { s with freePages := p :: s.freePages, refCounts := Function.update s.refCounts p 0 }
  else { s with refCounts := Function.update s.refCounts p (s.refCounts p - 1) }

/-- `LOS_PhysPagesFree(list)`: every page of the list drops a
reference; the count returned is the length of the list. -/
def LOS_PhysPagesFree (s : VmSys) (list : List Nat) : Nat × VmSys :=
  (list.length, list.foldl LOS_PhysPagesFree.one s)

-- ============================================================ segments

/-- `ShmFindSeg`: the index of segment `shmid`, or the errno it sets. A
free segment and one marked `SHM_SEG_REMOVE` are both refused. -/
def ShmFindSeg (s : VmSys) (shmid : Int) : Except Nat Nat :=
  if shmid < 0 ∨ shmid ≥ SHM_MNI then .error EINVAL
  else
    let seg := s.segs shmid.toNat
    if seg.status &&& SHM_SEG_FREE ≠ 0 ∨ seg.status &&& SHM_SEG_REMOVE ≠ 0 then .error EIDRM
    else .ok shmid.toNat

/-- `ShmSetSharedFlag` and `ShmClearSharedFlag`: mark the pages of a
segment shared, or not. -/
def ShmSetSharedFlag (s : VmSys) (seg : ShmIdSource) (b : Bool) : VmSys :=
  { s with shared := fun p => if p ∈ seg.node then b else s.shared p }

/-- `ShmPagesRefDec`: every page of the segment drops a reference. -/
def ShmPagesRefDec (s : VmSys) (seg : ShmIdSource) : VmSys :=
  { s with refCounts := fun p => s.refCounts p - seg.node.count p }

/-- `ShmFreeSeg`: give the pages back and mark segment `i` free. When
`LOS_PhysPagesFree` counts other than the segment's size, the segment
keeps its status (the `VM_ERR` path); its page list is emptied either
way. -/
def ShmFreeSeg (s : VmSys) (i : Nat) : VmSys :=
  let seg := s.segs i
  let s₁ := ShmSetSharedFlag s seg false
  let (count, s₂) := LOS_PhysPagesFree s₁ seg.node
  if count ≠ seg.ds.segsz >>> PAGE_SHIFT then s₂.setSeg i { seg with node := [] }
  else
    { s₂.setSeg i { seg with status := SHM_SEG_FREE, node := [] } with
      shmUsedPageCount := u32Sub s₂.shmUsedPageCount (seg.ds.segsz >>> PAGE_SHIFT) }

/-- The page table writes of `ShmVmmMapping`: page `k` of the list at
`vaddr + k * PAGE_SIZE`. -/
def mapPages (space : LosVmSpace) : List Nat → Nat → LosVmSpace
  | [], _ => space
  | p :: ps, va => mapPages (LOS_ArchMmuMap space va p) ps (va + PAGE_SIZE)

/-- `ShmVmmMapping`: map the segment's pages from `vaddr` in the space
of `pid`, each page taking a reference. -/
def ShmVmmMapping (s : VmSys) (pid : Nat) (pages : List Nat) (vaddr : Nat) : VmSys :=
  { s.setSpace pid (mapPages (s.spaces pid) pages vaddr) with
    refCounts := fun p => s.refCounts p + pages.count p }

/-- `OsShmFork`: the child's copy `newRegion` of a shared-memory region
maps the segment and counts as an attachment. When `ShmFindSeg` refuses
the segment, nothing is done (the `VM_ERR` path): the copy stays in the
child's tree without a mapping or a count. -/
def OsShmFork (s : VmSys) (child : Nat) (oldRegion newRegion : LosVmMapRegion) : VmSys :=
  match ShmFindSeg s (toInt32 oldRegion.shmid) with
  | .error _ => s
  | .ok i =>
    let s₁ := s.setSpace child (setRegion (s.spaces child) { newRegion with shmid := oldRegion.shmid })
    let s₂ := ShmVmmMapping s₁ child (s.segs i).node newRegion.base
    let seg := s₂.segs i
    s₂.setSeg i { seg with ds := { seg.ds with nattch := u32 (seg.ds.nattch + 1) } }

/-- The detach that `ShmDt` and `OsShmRegionFree` share, by process
`cur` from segment `i`: drop the page references and the attachment,
and free the segment when that was the last attachment of a segment
marked `SHM_SEG_REMOVE`. -/
def ShmDetach (s : VmSys) (cur i : Nat) : VmSys :=
  let s₁ := ShmPagesRefDec s (s.segs i)
  let seg := s₁.segs i
  let nattch := u32Sub seg.ds.nattch 1
  let s₂ := s₁.setSeg i { seg with ds := { seg.ds with nattch := nattch } }
  if nattch = 0 ∧ seg.status &&& SHM_SEG_REMOVE ≠ 0 then ShmFreeSeg s₂ i
  else s₂.setSeg i { seg with ds := { seg.ds with nattch := nattch, lpid := cur } }

/-- `OsShmRegionFree`: the region of the space of `pid` goes away,
called by process `cur`: unmap it and detach from its segment. The
region record itself is removed by the caller. When `ShmFindSeg`
refuses the segment, nothing is done. -/
def OsShmRegionFree (s : VmSys) (cur pid : Nat) (region : LosVmMapRegion) : VmSys :=
  match ShmFindSeg s (toInt32 region.shmid) with
  | .error _ => s
  | .ok i =>
    ShmDetach (s.setSpace pid (LOS_ArchMmuUnmap (s.spaces pid) region.base (region.size >>> PAGE_SHIFT)))
      cur i

end LiteOsA.Vm
