/-
Regions coming and going (`los_vm_map.c`, `los_vm_syscall.c`): region
allocation and freeing, splitting, unmapping, `mmap` of anonymous
memory, `brk`, and the copy and release of a whole space at fork and
exit.

# The nested unmap

`LOS_RegionAlloc` at a fixed address calls `LOS_UnMMap` on the range
when it is taken (`OsAllocSpecificRange`); unmapping splits the
regions at the ends of the range (`OsVmRegionSplit`), and each split
allocates a region at a fixed address again. The source recurses that
way without a bound. The model takes the unmap routine as an argument
(`...With unmap`) and ties the knot by `LOS_UnMMapN d`, which nests `d`
deep and answers `-EINVAL` below that. The functions under their
source names nest `unmapDepth` deep. A split allocates a range that the
shortened region has just left, so while the regions are disjoint the
nested unmap is never called, and every depth from `1` up gives the
result of the unbounded recursion (`LOS_UnMMap_depth`,
`LOS_RegionAlloc_depth`, `OsVmRegionDup_depth`).

# Processes

The current process is `cur`, whose space `LOS_UnMMap` and
`LOS_MMap` work on; `pid` names the space a function is given. `LOS_MMap`
is modelled for anonymous mappings: the model has no open files, so a
named mapping fails at `fs_getfilep` with `-EBADF`. The page table's
permission bits are not kept, so the write protection `LOS_VmSpaceClone`
puts on the parent's pages changes nothing here.
-/
import LiteOsA.Vm.ShmSeg

namespace LiteOsA.Vm

-- ============================================================ constants

/-- `LOS_ERRNO_VM_NO_MEMORY` (los_vm_common.h). -/
def LOS_ERRNO_VM_NO_MEMORY : Int := -5

/-- `LOS_ERRNO_VM_INVALID_ARGS` (los_vm_common.h). -/
def LOS_ERRNO_VM_INVALID_ARGS : Int := -8

/-- `ENOMEM` (errno.h). -/
def ENOMEM : Nat := 12

/-- `EBADF` (errno.h). -/
def EBADF : Nat := 9

/-- `MAP_SHARED_PRIVATE`, the two sharing bits of `mmap`'s flags. -/
def MAP_SHARED_PRIVATE : Nat := MAP_SHARED ||| MAP_PRIVATE

/-- `MAP_SUPPORT_MASK`, the flags `LOS_MMap` accepts. The source takes it
from the C library's headers; the model names the flags it handles. -/
def MAP_SUPPORT_MASK : Nat :=
  MAP_SHARED ||| MAP_PRIVATE ||| MAP_FIXED ||| MAP_ANONYMOUS ||| MAP_FIXED_NOREPLACE

/-- `ROUNDUP` (los_vm_common.h), in `UINT32`. -/
def ROUNDUP (a b : Nat) : Nat := u32 (a + (b - 1)) &&& ((2 ^ 32 - 1) ^^^ (b - 1))

/-- `ROUNDDOWN` (los_vm_common.h), in `UINT32`. -/
def ROUNDDOWN (a b : Nat) : Nat := a &&& ((2 ^ 32 - 1) ^^^ (b - 1))

/-- `IS_ALIGNED`. -/
def IS_ALIGNED (a b : Nat) : Bool := a &&& (b - 1) = 0

/-- How deep `LOS_UnMMap` nests inside region allocation. -/
def unmapDepth : Nat := 2

-- ============================================================ freeing pages

/-- The page loop of `OsAnonPagesRemove` and `OsUserHeapFree`: unmap
each mapped page of `count` pages from `va` in the space of `pid` and
drop its reference. `OsAnonPagesRemove` leaves a shared page's count
alone (`keepShared`); `OsUserHeapFree` does not look. -/
def pagesRemove (keepShared : Bool) (s : VmSys) (pid : Nat) : Nat → Nat → VmSys
  | 0, _ => s
  | k + 1, va =>
    match (s.spaces pid).mmu va with
    | none => pagesRemove keepShared s pid k (va + PAGE_SIZE)
    | some pa =>
      let s₁ := s.setSpace pid (LOS_ArchMmuUnmap (s.spaces pid) va 1)
      let s₂ := if keepShared && s₁.shared pa then s₁ else LOS_PhysPagesFree.one s₁ pa
      pagesRemove keepShared s₂ pid k (va + PAGE_SIZE)

/-- `OsAnonPagesRemove`. -/
def OsAnonPagesRemove (s : VmSys) (pid vaddr count : Nat) : VmSys :=
  if vaddr = 0 ∨ count = 0 then s else pagesRemove true s pid count vaddr

/-- `LOS_RegionFree`, called by process `cur` on a region of the space
of `pid`: release its pages (through `OsShmRegionFree` for a
shared-memory region) and take it out of the tree. -/
def LOS_RegionFree (s : VmSys) (cur pid : Nat) (region : LosVmMapRegion) : VmSys :=
  let s₁ :=
    if region.regionFlags &&& VM_MAP_REGION_FLAG_SHM ≠ 0 then OsShmRegionFree s cur pid region
    else OsAnonPagesRemove s pid region.base (region.size >>> PAGE_SHIFT)
  s₁.setSpace pid (LOS_RbDelNode (s₁.spaces pid) region.id)

-- ============================================================ allocation

section Unmapper

-- `unmap s cur addr size` is the routine `LOS_UnMMap(addr, size)` of process `cur`.
variable (unmap : VmSys → Nat → Nat → Nat → Int × VmSys)

/-- `OsAllocSpecificRange` (the `.theirs` text): `vaddr` when the range
is free; when it is taken, fail for `FIXED_NOREPLACE`, unmap it for
`FIXED`, or search elsewhere. -/
def OsAllocSpecificRangeWith (s : VmSys) (cur pid vaddr len regionFlags : Nat) : Nat × VmSys :=
  let space := s.spaces pid
  if !LOS_IsRangeInSpace space vaddr len then (0, s)
  else if (LOS_RegionFind space vaddr).isSome ||
      (LOS_RegionFind space (u32Sub (u32 (vaddr + len)) 1)).isSome ||
      (LOS_RegionRangeFind space vaddr (u32Sub len 1)).isSome then
    if regionFlags &&& VM_MAP_REGION_FLAG_FIXED_NOREPLACE ≠ 0 then (0, s)
    else if regionFlags &&& VM_MAP_REGION_FLAG_FIXED ≠ 0 then
      let (status, s₁) := unmap s cur vaddr len
      if status ≠ 0 then (0, s₁) else (vaddr, s₁)
    else (OsAllocRange space len, s)
  else (vaddr, s)

/-- `OsCreateRegion`: a new region record, not yet in a tree. -/
def OsCreateRegion (s : VmSys) (vaddr len regionFlags : Nat) : LosVmMapRegion × VmSys :=
  (⟨s.nextRegion, vaddr, len, regionFlags, 0xFFFFFFFF⟩, { s with nextRegion := s.nextRegion + 1 })

/-- `LOS_RegionAlloc`: a new region of `len` bytes in the space of `pid`,
at `vaddr` or, for `vaddr = 0`, where `OsAllocRange` finds room. -/
def LOS_RegionAllocWith (s : VmSys) (cur pid vaddr len regionFlags : Nat) :
    Option LosVmMapRegion × VmSys :=
  let (rstVaddr, s₁) :=
    if vaddr = 0 then (OsAllocRange (s.spaces pid) len, s)
    else OsAllocSpecificRangeWith unmap s cur pid vaddr len regionFlags
  if rstVaddr = 0 then (none, s₁)
  else
    let (r, s₂) := OsCreateRegion s₁ rstVaddr len regionFlags
    match OsInsertRegion (s₂.spaces pid) r with
    | none => (none, s₂)
    | some space => (some r, s₂.setSpace pid space)

/-- `OsVmRegionDup`: a region like `oldRegion`, of `size` bytes at
`vaddr` (fixed) or anywhere (`vaddr = 0`), keeping its `shmid`. -/
def OsVmRegionDupWith (s : VmSys) (cur pid : Nat) (oldRegion : LosVmMapRegion) (vaddr size : Nat) :
    Option LosVmMapRegion × VmSys :=
  let regionFlags :=
    if vaddr = 0 then
      oldRegion.regionFlags &&&
        ((2 ^ 32 - 1) ^^^ (VM_MAP_REGION_FLAG_FIXED ||| VM_MAP_REGION_FLAG_FIXED_NOREPLACE))
    else oldRegion.regionFlags ||| VM_MAP_REGION_FLAG_FIXED
  match LOS_RegionAllocWith unmap s cur pid vaddr size regionFlags with
  | (none, s₁) => (none, s₁)
  | (some r, s₁) =>
    if oldRegion.regionFlags &&& VM_MAP_REGION_FLAG_SHM ≠ 0 then
      let r' := { r with shmid := oldRegion.shmid }
      (some r', s₁.setSpace pid (setRegion (s₁.spaces pid) r'))
    else (some r, s₁)

/-- `OsVmRegionSplit`: cut `oldRegion` at `newRegionStart`; the part
from there on becomes a new region. -/
def OsVmRegionSplitWith (s : VmSys) (cur pid : Nat) (oldRegion : LosVmMapRegion)
    (newRegionStart : Nat) : Option LosVmMapRegion × VmSys :=
  let size := LOS_RegionSize newRegionStart (LOS_RegionEndAddr oldRegion)
  let old' := { oldRegion with size := LOS_RegionSize oldRegion.base (u32Sub newRegionStart 1) }
  let space₁ := setRegion (s.spaces pid) old'
  let space₂ := if old'.size = 0 then LOS_RbDelNode space₁ old'.id else space₁
  OsVmRegionDupWith unmap (s.setSpace pid space₂) cur pid old' newRegionStart size

/-- The second half of `OsVmRegionAdjust`: split the region holding the
byte before `nextRegionBase` when it runs past it. -/
def OsVmRegionAdjust.splitEnd (s : VmSys) (cur pid nextRegionBase : Nat) : Int × VmSys :=
  match LOS_RegionFind (s.spaces pid) (u32Sub nextRegionBase 1) with
  | some region =>
    if nextRegionBase < LOS_RegionEndAddr region then
      match OsVmRegionSplitWith unmap s cur pid region nextRegionBase with
      | (none, s₁) => (LOS_ERRNO_VM_NO_MEMORY, s₁)
      | (some _, s₁) => (0, s₁)
    else (0, s)
  | none => (0, s)

/-- `OsVmRegionAdjust`: split regions so that `[newRegionStart,
newRegionStart + size)` starts and ends at region boundaries. -/
def OsVmRegionAdjustWith (s : VmSys) (cur pid newRegionStart size : Nat) : Int × VmSys :=
  let nextRegionBase := u32 (newRegionStart + size)
  match LOS_RegionFind (s.spaces pid) newRegionStart with
  | some region =>
    if newRegionStart > region.base then
      match OsVmRegionSplitWith unmap s cur pid region newRegionStart with
      | (none, s₁) => (LOS_ERRNO_VM_NO_MEMORY, s₁)
      | (some _, s₁) => OsVmRegionAdjust.splitEnd unmap s₁ cur pid nextRegionBase
    else OsVmRegionAdjust.splitEnd unmap s cur pid nextRegionBase
  | none => OsVmRegionAdjust.splitEnd unmap s cur pid nextRegionBase

end Unmapper

/-- The scan of `OsRegionsRemove`: free every region inside
`[regionBase, regionEnd]`, in key order, until one starts past the
end. -/
def OsRegionsRemove.scan (cur pid regionBase regionEnd : Nat) :
    VmSys → List LosVmMapRegion → VmSys
  | s, [] => s
  | s, r :: rs =>
    if r.base > regionEnd then s
    else if regionBase ≤ r.base ∧ regionEnd ≥ LOS_RegionEndAddr r then
      scan cur pid regionBase regionEnd (LOS_RegionFree s cur pid r) rs
    else scan cur pid regionBase regionEnd s rs

/-- `OsRegionsRemove`: split at the ends of the range, then free the
regions inside it. -/
def OsRegionsRemoveWith (unmap : VmSys → Nat → Nat → Nat → Int × VmSys) (s : VmSys)
    (cur pid regionBase size : Nat) : Int × VmSys :=
  let regionEnd := u32Sub (u32 (regionBase + size)) 1
  let (status, s₁) := OsVmRegionAdjustWith unmap s cur pid regionBase size
  if status ≠ 0 then (status, s₁)
  else (0, OsRegionsRemove.scan cur pid regionBase regionEnd s₁ (s₁.spaces pid).regions)

/-- `OsUnMMap`. -/
def OsUnMMapWith (unmap : VmSys → Nat → Nat → Nat → Int × VmSys) (s : VmSys)
    (cur pid addr size : Nat) : Int × VmSys :=
  let size := LOS_Align size PAGE_SIZE
  let addr := LOS_Align addr PAGE_SIZE
  let (status, s₁) := OsRegionsRemoveWith unmap s cur pid addr size
  if status ≠ 0 then (-(EINVAL : Int), s₁) else (0, s₁)

/-- `LOS_UnMMap` of process `cur`, with the unmaps nested in it cut
`d` deep. -/
def LOS_UnMMapN : Nat → VmSys → Nat → Nat → Nat → Int × VmSys
  | 0, s, _, _, _ => (-(EINVAL : Int), s)
  | d + 1, s, cur, addr, size =>
    if addr = 0 ∨ size = 0 then (-(EINVAL : Int), s)
    else OsUnMMapWith (LOS_UnMMapN d) s cur cur addr size

/-- `LOS_UnMMap`. -/
def LOS_UnMMap (s : VmSys) (cur addr size : Nat) : Int × VmSys :=
  LOS_UnMMapN unmapDepth s cur addr size

/-- `LOS_RegionAlloc`. -/
def LOS_RegionAlloc (s : VmSys) (cur pid vaddr len regionFlags : Nat) :
    Option LosVmMapRegion × VmSys :=
  LOS_RegionAllocWith (LOS_UnMMapN unmapDepth) s cur pid vaddr len regionFlags

/-- `OsVmRegionDup`. -/
def OsVmRegionDup (s : VmSys) (cur pid : Nat) (oldRegion : LosVmMapRegion) (vaddr size : Nat) :
    Option LosVmMapRegion × VmSys :=
  OsVmRegionDupWith (LOS_UnMMapN unmapDepth) s cur pid oldRegion vaddr size

-- ============================================================ mmap

/-- `OsCheckMMapParams`: the errors of `mmap`'s arguments, or the
address to map at (rounded, or `0` for "anywhere"). -/
def OsCheckMMapParams (space : LosVmSpace) (vaddr flags len pgoff : Nat) : Except Int Nat :=
  if len = 0 ∨ len > USER_ASPACE_SIZE then .error (-(EINVAL : Int))
  else if len > space.mapSize then .error (-(ENOMEM : Int))
  else
    let addr : Except Int Nat :=
      if flags &&& MAP_FIXED = 0 ∧ flags &&& MAP_FIXED_NOREPLACE = 0 then
        let v := ROUNDUP vaddr PAGE_SIZE
        .ok (if v ≠ 0 ∧ !LOS_IsUserAddressRange v len then 0 else v)
      else if !LOS_IsUserAddressRange vaddr len || !IS_ALIGNED vaddr PAGE_SIZE then
        .error (-(EINVAL : Int))
      else .ok vaddr
    match addr with
    | .error e => .error e
    | .ok v =>
      if flags &&& MAP_SUPPORT_MASK = 0 then .error (-(EINVAL : Int))
      else if flags &&& MAP_SHARED_PRIVATE = 0 ∨ flags &&& MAP_SHARED_PRIVATE = MAP_SHARED_PRIVATE then
        .error (-(EINVAL : Int))
      else if u32 ((len >>> PAGE_SHIFT) + pgoff) < pgoff then .error (-(EINVAL : Int))
      else .ok v

/-- `OsUserHeapFree`: when `addr` lies in the heap region, unmap and
release the pages of `[addr, addr + len)` and succeed (`len` is a
multiple of `PAGE_SIZE` at every call). -/
def OsUserHeapFree (s : VmSys) (pid addr len : Nat) : Option VmSys :=
  match (s.spaces pid).heap with
  | none => none
  | some h =>
    match LOS_RegionFind (s.spaces pid) addr with
    | none => none
    | some r => if r.id = h then some (pagesRemove false s pid (len / PAGE_SIZE) addr) else none

/-- `LOS_MMap` of an anonymous mapping by process `cur`: the address
mapped, or `-errno`. -/
def LOS_MMap (s : VmSys) (cur vaddr len prot flags pgoff : Nat) : Int × VmSys :=
  let len := ROUNDUP len PAGE_SIZE
  match OsCheckMMapParams (s.spaces cur) vaddr flags len pgoff with
  | .error e => (e, s)
  | .ok vaddr =>
    if flags &&& MAP_ANONYMOUS = 0 then (-(EBADF : Int), s)
    else
      match OsUserHeapFree s cur vaddr len with
      | some s₁ => (vaddr, s₁)
      | none =>
        match LOS_RegionAlloc s cur cur vaddr len (OsCvtProtFlagsToRegionFlags prot flags) with
        | (none, s₁) => (-(ENOMEM : Int), s₁)
        | (some r, s₁) =>
          (r.base, s₁.setSpace cur
            (setRegion (s₁.spaces cur) { r with regionFlags := r.regionFlags ||| VM_MAP_REGION_FLAG_MMAP }))

-- ============================================================ brk

/-- `space->heap->range.size = size`: the write goes to the region
record `heap` names; when that record has been freed, no region of the
tree changes. -/
def writeHeapSize (space : LosVmSpace) (size : Nat) : LosVmSpace :=
  match space.heap with
  | none => space
  | some h => { space with regions := space.regions.map fun r => if r.id = h then { r with size := size } else r }

/-- `OsShrinkHeap`: unmap the heap's pages above `addr`. -/
def OsShrinkHeap (s : VmSys) (cur addr : Nat) : Int × VmSys :=
  let newBrk := LOS_Align addr PAGE_SIZE
  let oldBrk := LOS_Align (s.spaces cur).heapNow PAGE_SIZE
  let (status, s₁) := LOS_UnMMap s cur newBrk (u32Sub oldBrk newBrk)
  if status < 0 then ((s₁.spaces cur).heapNow, s₁)
  else (addr, s₁.setSpace cur { s₁.spaces cur with heapNow := addr })

/-- The region flags of a new heap (`LOS_DoBrk`). -/
def heapRegionFlags : Nat :=
  VM_MAP_REGION_FLAG_PERM_READ ||| VM_MAP_REGION_FLAG_PERM_WRITE ||| VM_MAP_REGION_FLAG_FIXED |||
    VM_MAP_REGION_FLAG_PERM_USER

/-- The first growth of the heap in `LOS_DoBrk`: a region of `size`
bytes at `heapBase`, flagged as the heap and recorded in `space->heap`;
`false` when `LOS_RegionAlloc` fails. -/
def LOS_DoBrk.newHeap (s : VmSys) (cur size : Nat) : Bool × VmSys :=
  match LOS_RegionAlloc s cur cur (s.spaces cur).heapBase size heapRegionFlags with
  | (none, s₁) => (false, s₁)
  | (some r, s₁) =>
    (true, s₁.setSpace cur
      { setRegion (s₁.spaces cur) { r with regionFlags := r.regionFlags ||| VM_MAP_REGION_FLAG_HEAP } with
        heap := some r.id })

/-- `LOS_DoBrk` of process `cur`: the new break, or `-ENOMEM`. The first
growth allocates the heap region at `heapBase`; later growth only
writes its size. -/
def LOS_DoBrk (s : VmSys) (cur addr : Nat) : Int × VmSys :=
  let space := s.spaces cur
  if addr = 0 then (space.heapNow, s)
  else if addr < space.heapBase then (-(ENOMEM : Int), s)
  else
    let size := ROUNDUP (addr - space.heapBase) PAGE_SIZE
    let alignAddr := u32 (space.heapBase + size)
    if addr < space.heapNow then OsShrinkHeap s cur addr
    else if alignAddr ≥ space.mapBase then (-(ENOMEM : Int), s)
    else
      let (ok, s₁) := if space.heapBase = space.heapNow then LOS_DoBrk.newHeap s cur size else (true, s)
      if !ok then (-(ENOMEM : Int), s₁)
      else (alignAddr, s₁.setSpace cur (writeHeapSize { s₁.spaces cur with heapNow := alignAddr } size))

-- ============================================================ fork and exit

/-- The page loop of `LOS_VmSpaceClone` for a region that is not shared
memory: every page mapped in the parent gets a reference and is mapped
at the same address in the child. -/
def clonePages (s : VmSys) (old new : Nat) : Nat → Nat → VmSys
  | 0, _ => s
  | k + 1, va =>
    match (s.spaces old).mmu va with
    | none => clonePages s old new k (va + PAGE_SIZE)
    | some pa =>
      let s₁ := { s with refCounts := Function.update s.refCounts pa (s.refCounts pa + 1) }
      clonePages (s₁.setSpace new (LOS_ArchMmuMap (s₁.spaces new) va pa)) old new k (va + PAGE_SIZE)

/-- One region of `LOS_VmSpaceClone`: copy it into the space of `new`;
`false` when `OsVmRegionDup` fails. -/
def LOS_VmSpaceClone.region (s : VmSys) (cur old new : Nat) (oldRegion : LosVmMapRegion) :
    Bool × VmSys :=
  match OsVmRegionDup s cur new oldRegion oldRegion.base oldRegion.size with
  | (none, s₁) => (false, s₁)
  | (some newRegion, s₁) =>
    if oldRegion.regionFlags &&& VM_MAP_REGION_FLAG_SHM ≠ 0 then
      (true, OsShmFork s₁ new oldRegion newRegion)
    else
      let s₂ :=
        if (s₁.spaces old).heap = some oldRegion.id then
          s₁.setSpace new { s₁.spaces new with heap := some newRegion.id }
        else s₁
      (true, clonePages s₂ old new newRegion.base (newRegion.size >>> PAGE_SHIFT))

/-- The region loop of `LOS_VmSpaceClone`, stopping at the first
failure. -/
def LOS_VmSpaceClone.loop (cur old new : Nat) : VmSys → List LosVmMapRegion → Int × VmSys
  | s, [] => (0, s)
  | s, r :: rs =>
    match LOS_VmSpaceClone.region s cur old new r with
    | (false, s₁) => (LOS_ERRNO_VM_NO_MEMORY, s₁)
    | (true, s₁) => loop cur old new s₁ rs

/-- `LOS_VmSpaceClone`, run by process `cur` to copy the space of `old`
into the new space of `new`. -/
def LOS_VmSpaceClone (s : VmSys) (cur old new : Nat) : Int × VmSys :=
  let oldSpace := s.spaces old
  if OsIsVmRegionEmpty oldSpace then (LOS_ERRNO_VM_INVALID_ARGS, s)
  else
    let s₁ := s.setSpace new
      { s.spaces new with mapBase := oldSpace.mapBase, heapBase := oldSpace.heapBase,
                          heapNow := oldSpace.heapNow }
    LOS_VmSpaceClone.loop cur old new s₁ oldSpace.regions

/-- `LOS_VmSpaceFree`, run by process `cur` on the space of `pid`:
free every region, then the page table. -/
def LOS_VmSpaceFree (s : VmSys) (cur pid : Nat) : VmSys :=
  let s₁ := (s.spaces pid).regions.foldl (fun s r => LOS_RegionFree s cur pid r) s
  s₁.setSpace pid { s₁.spaces pid with mmu := fun _ => none }

end LiteOsA.Vm
