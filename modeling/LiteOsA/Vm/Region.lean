/-
The regions of a user address space (`los_vm_map.c`, `los_vm_map.h`,
`los_vm_common.h`): what a region and a space record, the queries on
the region tree, and the search for a free range.

# The region tree

`regionRbTree` is a red-black tree keyed by address ranges, compared by
`OsRegionRbCmpKeyFn`: two ranges are `RB_EQUAL` when one lies inside
the other, and otherwise ordered by their ends. The model keeps the
tree as the list of its regions in key order (`regions`). A lookup
(`LOS_RbGetNode`) answers with a region whose range compares
`RB_EQUAL` to the key; `OsFindRegion` takes the first such region of
the list. While the regions are disjoint this is the tree's own
answer: the key's comparison with the nodes it passes steers the walk
to every node it equals. An insertion (`LOS_RbAddNode`) is refused when
a lookup of the new range succeeds, and otherwise puts the region in
key order.

# Unmerged text

Some functions of `los_vm_map.c` and `los_vm_map.h` hold two versions
between `<<<<<<< .mine` and `>>>>>>> .theirs` markers. The model takes
the `.theirs` version throughout: `OsCvtProtFlagsToRegionFlags` gives
a writable or executable mapping the read permission as well, and
`OsAllocRange` compares a gap as `nextStart - curEnd >= len`.

# What is left out

Regions are anonymous or shared-memory regions: the model has no files
and no devices, so a region's type, file operations and `pgOff` are not
kept. The MMU is a map from the page-aligned virtual addresses of a
space to physical pages; the mapping flags it stores are not kept.
-/
import LiteOsA.Base
import Mathlib.Logic.Function.Basic

namespace LiteOsA.Vm

-- ============================================================ constants

/-- `PAGE_SIZE` (los_vm_common.h). -/
def PAGE_SIZE : Nat := 0x1000

/-- `PAGE_SHIFT` (los_vm_common.h). -/
def PAGE_SHIFT : Nat := 12

/-- `KERNEL_ASPACE_BASE` (los_vm_zone.h), for a build without the TEE. -/
def KERNEL_ASPACE_BASE : Nat := 0x40000000

/-- `USER_ASPACE_BASE` (los_vm_common.h). -/
def USER_ASPACE_BASE : Nat := 0x01000000

/-- `USER_ASPACE_SIZE` (los_vm_common.h). -/
def USER_ASPACE_SIZE : Nat := KERNEL_ASPACE_BASE - USER_ASPACE_BASE - 0x01000000

/-- `USER_ASPACE_TOP_MAX` (los_vm_common.h). -/
def USER_ASPACE_TOP_MAX : Nat := USER_ASPACE_BASE + USER_ASPACE_SIZE

/-- `USER_HEAP_BASE` (los_vm_common.h). -/
def USER_HEAP_BASE : Nat := USER_ASPACE_TOP_MAX >>> 2

/-- `USER_MAP_BASE` (los_vm_common.h). -/
def USER_MAP_BASE : Nat := USER_ASPACE_TOP_MAX >>> 1

/-- `USER_MAP_SIZE` (los_vm_common.h). -/
def USER_MAP_SIZE : Nat := USER_ASPACE_SIZE >>> 3

/-- `VM_MAP_REGION_FLAG_PERM_USER` (los_vm_map.h). -/
def VM_MAP_REGION_FLAG_PERM_USER : Nat := 1 <<< 2

/-- `VM_MAP_REGION_FLAG_PERM_READ` (los_vm_map.h). -/
def VM_MAP_REGION_FLAG_PERM_READ : Nat := 1 <<< 3

/-- `VM_MAP_REGION_FLAG_PERM_WRITE` (los_vm_map.h). -/
def VM_MAP_REGION_FLAG_PERM_WRITE : Nat := 1 <<< 4

/-- `VM_MAP_REGION_FLAG_PERM_EXECUTE` (los_vm_map.h). -/
def VM_MAP_REGION_FLAG_PERM_EXECUTE : Nat := 1 <<< 5

/-- `VM_MAP_REGION_FLAG_SHARED` (los_vm_map.h). -/
def VM_MAP_REGION_FLAG_SHARED : Nat := 1 <<< 7

/-- `VM_MAP_REGION_FLAG_PRIVATE` (los_vm_map.h). -/
def VM_MAP_REGION_FLAG_PRIVATE : Nat := 1 <<< 8

/-- `VM_MAP_REGION_FLAG_HEAP` (los_vm_map.h). -/
def VM_MAP_REGION_FLAG_HEAP : Nat := 1 <<< 10

/-- `VM_MAP_REGION_FLAG_MMAP` (los_vm_map.h). -/
def VM_MAP_REGION_FLAG_MMAP : Nat := 1 <<< 15

/-- `VM_MAP_REGION_FLAG_SHM` (los_vm_map.h). -/
def VM_MAP_REGION_FLAG_SHM : Nat := 1 <<< 16

/-- `VM_MAP_REGION_FLAG_FIXED` (los_vm_map.h). -/
def VM_MAP_REGION_FLAG_FIXED : Nat := 1 <<< 17

/-- `VM_MAP_REGION_FLAG_FIXED_NOREPLACE` (los_vm_map.h). -/
def VM_MAP_REGION_FLAG_FIXED_NOREPLACE : Nat := 1 <<< 18

/-- `PROT_READ` (sys/mman.h). -/
def PROT_READ : Nat := 1

/-- `PROT_WRITE` (sys/mman.h). -/
def PROT_WRITE : Nat := 2

/-- `PROT_EXEC` (sys/mman.h). -/
def PROT_EXEC : Nat := 4

/-- `MAP_SHARED` (sys/mman.h). -/
def MAP_SHARED : Nat := 0x01

/-- `MAP_PRIVATE` (sys/mman.h). -/
def MAP_PRIVATE : Nat := 0x02

/-- `MAP_FIXED` (sys/mman.h). -/
def MAP_FIXED : Nat := 0x10

/-- `MAP_ANONYMOUS` (sys/mman.h). -/
def MAP_ANONYMOUS : Nat := 0x20

/-- `MAP_FIXED_NOREPLACE` (sys/mman.h). -/
def MAP_FIXED_NOREPLACE : Nat := 0x100000

/-- `OsCvtProtFlagsToRegionFlags` (los_vm_map.h, the `.theirs` text). -/
def OsCvtProtFlagsToRegionFlags (prot flags : Nat) : Nat :=
  VM_MAP_REGION_FLAG_PERM_USER |||
    (if prot &&& PROT_READ ≠ 0 then VM_MAP_REGION_FLAG_PERM_READ else 0) |||
    (if prot &&& PROT_WRITE ≠ 0 then VM_MAP_REGION_FLAG_PERM_READ ||| VM_MAP_REGION_FLAG_PERM_WRITE
      else 0) |||
    (if prot &&& PROT_EXEC ≠ 0 then VM_MAP_REGION_FLAG_PERM_READ ||| VM_MAP_REGION_FLAG_PERM_EXECUTE
      else 0) |||
    (if flags &&& MAP_SHARED ≠ 0 then VM_MAP_REGION_FLAG_SHARED else 0) |||
    (if flags &&& MAP_PRIVATE ≠ 0 then VM_MAP_REGION_FLAG_PRIVATE else 0) |||
    (if flags &&& MAP_FIXED ≠ 0 then VM_MAP_REGION_FLAG_FIXED else 0) |||
    (if flags &&& MAP_FIXED_NOREPLACE ≠ 0 then VM_MAP_REGION_FLAG_FIXED_NOREPLACE else 0)

-- ============================================================ records

/-- `LosVmMapRegion`. `id` is the address of the region's record, which
`space->heap` and the callers hold; the range is `base` and `size`. -/
structure LosVmMapRegion where
  id : Nat
  base : Nat
  size : Nat
  regionFlags : Nat
  shmid : Nat
  deriving DecidableEq, Repr

/-- `LosVmSpace` of a user process. `heap` is the `id` of the region
`space->heap` points to, `none` for `NULL`; `mmu` is `archMmu`. -/
structure LosVmSpace where
  regions : List LosVmMapRegion
  base : Nat
  size : Nat
  heapBase : Nat
  heapNow : Nat
  heap : Option Nat
  mapBase : Nat
  mapSize : Nat
  mmu : Nat → Option Nat

/-- `OsUserVmSpaceInit`: a new user space, with no region and no
mapping. -/
def OsUserVmSpaceInit : LosVmSpace where
  regions := []
  base := USER_ASPACE_BASE
  size := USER_ASPACE_SIZE
  heapBase := USER_HEAP_BASE
  heapNow := USER_HEAP_BASE
  heap := none
  mapBase := USER_MAP_BASE
  mapSize := USER_MAP_SIZE
  mmu := fun _ => none

/-- `LOS_RegionEndAddr`: the last byte of the region, in `UINT32`. -/
def LOS_RegionEndAddr (r : LosVmMapRegion) : Nat := u32Sub (u32 (r.base + r.size)) 1

/-- `LOS_RegionSize`. -/
def LOS_RegionSize (start e : Nat) : Nat := u32 (u32Sub e start + 1)

-- ============================================================ the region tree

/-- The comparison results of the red-black tree (los_rbtree.h). -/
inductive RbCmp
  | RB_SMALLER
  | RB_EQUAL
  | RB_BIGGER
  deriving DecidableEq, Repr

/-- `OsRegionRbCmpKeyFn`: compare the range `(baseA, sizeA)` with
`(baseB, sizeB)`. -/
def OsRegionRbCmpKeyFn (baseA sizeA baseB sizeB : Nat) : RbCmp :=
  let endA := u32Sub (u32 (baseA + sizeA)) 1
  let endB := u32Sub (u32 (baseB + sizeB)) 1
  if baseA > endB then .RB_BIGGER
  else if baseA ≥ baseB then (if endA ≤ endB then .RB_EQUAL else .RB_BIGGER)
  else if baseA ≤ baseB then (if endA ≥ endB then .RB_EQUAL else .RB_SMALLER)
  else if endA < baseB then .RB_SMALLER
  else .RB_EQUAL

/-- `OsFindRegion`: a region whose range compares equal to
`[vaddr, vaddr + len)`. -/
def OsFindRegion (regions : List LosVmMapRegion) (vaddr len : Nat) : Option LosVmMapRegion :=
  regions.find? fun r => OsRegionRbCmpKeyFn vaddr len r.base r.size = .RB_EQUAL

/-- `LOS_RegionFind`: the region holding `addr`. -/
def LOS_RegionFind (space : LosVmSpace) (addr : Nat) : Option LosVmMapRegion :=
  OsFindRegion space.regions addr 1

/-- `LOS_RegionRangeFind`. -/
def LOS_RegionRangeFind (space : LosVmSpace) (addr len : Nat) : Option LosVmMapRegion :=
  OsFindRegion space.regions addr len

/-- `LOS_RbAddNode` of a region, in key order by base. -/
def insertRegion (r : LosVmMapRegion) : List LosVmMapRegion → List LosVmMapRegion
  | [] => [r]
  | x :: xs => if r.base < x.base then r :: x :: xs else x :: insertRegion r xs

/-- `OsInsertRegion`: refused when a region already compares equal to
the new one's range. -/
def OsInsertRegion (space : LosVmSpace) (r : LosVmMapRegion) : Option LosVmSpace :=
  match OsFindRegion space.regions r.base r.size with
  | some _ => none
  | none => some { space with regions := insertRegion r space.regions }

/-- `LOS_RbDelNode` of the region record `id`. -/
def LOS_RbDelNode (space : LosVmSpace) (id : Nat) : LosVmSpace :=
  { space with regions := space.regions.filter fun r => r.id ≠ id }

/-- The region record `id` of the space, after its fields were written. -/
def setRegion (space : LosVmSpace) (r : LosVmMapRegion) : LosVmSpace :=
  { space with regions := space.regions.map fun x => if x.id = r.id then r else x }

/-- `OsIsVmRegionEmpty`. -/
def OsIsVmRegionEmpty (space : LosVmSpace) : Bool := space.regions.isEmpty

-- ============================================================ address checks

/-- `LOS_IsUserAddress`. -/
def LOS_IsUserAddress (vaddr : Nat) : Bool :=
  USER_ASPACE_BASE ≤ vaddr && vaddr ≤ USER_ASPACE_BASE + (USER_ASPACE_SIZE - 1)

/-- `LOS_IsUserAddressRange`. -/
def LOS_IsUserAddressRange (vaddr len : Nat) : Bool :=
  u32 (vaddr + len) > vaddr && LOS_IsUserAddress vaddr && LOS_IsUserAddress (u32Sub (u32 (vaddr + len)) 1)

/-- `LOS_IsRangeInSpace`. -/
def LOS_IsRangeInSpace (space : LosVmSpace) (vaddr size : Nat) : Bool :=
  let top := u32Sub (u32 (space.base + space.size)) 1
  if vaddr < space.base || vaddr > top then false
  else if size = 0 then true
  else if u32Sub (u32 (vaddr + size)) 1 < vaddr then false
  else if u32Sub (u32 (vaddr + size)) 1 > top then false
  else true

-- ============================================================ free ranges

/-- The scan of `OsAllocRange`: `.inl` a gap of `len` bytes at
`curEnd`, or `.inr` the end of the last region the scan passed. -/
def OsAllocRange.scan (len : Nat) : Nat → List LosVmMapRegion → Nat ⊕ Nat
  | curEnd, [] => .inr curEnd
  | curEnd, r :: rs =>
    if r.base < curEnd then scan len curEnd rs
    else if r.base - curEnd ≥ len then .inl curEnd
    else scan len (u32 (r.base + r.size)) rs

/-- `OsAllocRange` (the `.theirs` text): the first gap of `len` bytes
from `mapBase` up, or `0`. The scan starts at the region holding
`mapBase`, or at the start of the tree. -/
def OsAllocRange (space : LosVmSpace) (len : Nat) : Nat :=
  let start : List LosVmMapRegion × Nat :=
    match LOS_RegionFind space space.mapBase with
    | some r => (space.regions.dropWhile (· ≠ r), u32 (r.base + r.size))
    | none => (space.regions, space.mapBase)
  match OsAllocRange.scan len start.2 start.1 with
  | .inl v => v
  | .inr curEnd =>
    let nextStart := u32 (space.mapBase + space.mapSize)
    if nextStart ≥ curEnd ∧ nextStart - curEnd ≥ len then curEnd else 0

-- ============================================================ the MMU

/-- `LOS_ArchMmuMap` of one page. -/
def LOS_ArchMmuMap (space : LosVmSpace) (va pa : Nat) : LosVmSpace :=
  { space with mmu := Function.update space.mmu va (some pa) }

/-- `LOS_ArchMmuUnmap` of `count` pages from `va`. -/
def LOS_ArchMmuUnmap (space : LosVmSpace) (va count : Nat) : LosVmSpace :=
  { space with mmu := fun x => if va ≤ x ∧ x < va + count * PAGE_SIZE then none else space.mmu x }

-- ============================================================ simp lemmas

@[simp] theorem LOS_RbDelNode_regions (space : LosVmSpace) (id : Nat) :
    (LOS_RbDelNode space id).regions = space.regions.filter fun r => r.id ≠ id := rfl

@[simp] theorem LOS_RbDelNode_heap (space : LosVmSpace) (id : Nat) :
    (LOS_RbDelNode space id).heap = space.heap := rfl

@[simp] theorem LOS_ArchMmuMap_regions (space : LosVmSpace) (va pa : Nat) :
    (LOS_ArchMmuMap space va pa).regions = space.regions := rfl

@[simp] theorem LOS_ArchMmuUnmap_regions (space : LosVmSpace) (va count : Nat) :
    (LOS_ArchMmuUnmap space va count).regions = space.regions := rfl

@[simp] theorem LOS_ArchMmuMap_heap (space : LosVmSpace) (va pa : Nat) :
    (LOS_ArchMmuMap space va pa).heap = space.heap := rfl

@[simp] theorem LOS_ArchMmuUnmap_heap (space : LosVmSpace) (va count : Nat) :
    (LOS_ArchMmuUnmap space va count).heap = space.heap := rfl

theorem mem_insertRegion {r x : LosVmMapRegion} :
    ∀ {l : List LosVmMapRegion}, x ∈ insertRegion r l ↔ x = r ∨ x ∈ l := by
  intro l
  induction l with
  | nil => simp [insertRegion]
  | cons y ys ih =>
    unfold insertRegion
    split
    · simp
    · simp only [List.mem_cons, ih]
      tauto

end LiteOsA.Vm
