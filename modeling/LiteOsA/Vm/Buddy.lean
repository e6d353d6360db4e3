/-
The buddy lists of physical memory (kernel/base/vm/los_vm_phys.c).

A segment of physical memory keeps its free pages in blocks of `2 ^ k`
pages, `k < VM_LIST_ORDER_MAX`, one list per order. The first page of
a free block records the block's order in `page->order`; every other
page holds `VM_LIST_ORDER_MAX`. `OsVmPhysPagesFree` merges a block
with its buddy while the buddy is free with the same order;
`OsVmPhysPagesAlloc` takes the first block of the least order that
fits (or, above the largest order, a run of largest-order blocks) and
splits what it does not need back onto the lists.

# What the model keeps

A page is its frame number, as in `LiteOsA.Vm.Phys`: the page whose
`physAddr` is `pa` is frame `pa >>> PAGE_SHIFT`, and `page + n` is the
frame `n` pages on. The page array is a function of the frame, with the
three fields these functions use. There is one segment (the platform
has one physical area), so `segID` is always `0` and the panics on a
`segID` out of range are not reached. A free list is the list of its
pages, first first: `LOS_ListTailInsert` appends, `LOS_DL_LIST_FIRST`
is the head, `LOS_ListDelete` erases. `LOS_Panic` and a `NULL` page
dereferenced are `none`: the proofs show neither is reached. The
pointers the interface takes and returns are the pages' frames: the
kernel-virtual translation of `OsVmPageToVaddr` and `LOS_PaddrQuery`
is left out.

# 32-bit arithmetic

Addresses are `PADDR_T` and counts `size_t`, both 32-bit. An area ends
below `2 ^ 32`, so `seg->start + seg->size` is its end and the model
writes it as a sum. What the request brings in can wrap round, and the
model computes it in `UINT32` (`u32`): the bytes `nPages << PAGE_SHIFT`
of `OsVmPhysLargeAlloc`, the end `paStart + size` of the run it looks
at, and the steps of its scan. `VM_ORDER_TO_PAGES(order)` in
`OsVmPagesToOrder` is an `int` shift, undefined from order 32 on.
-/
import LiteOsA.Vm.Phys
import LiteOsA.Vm.Map

namespace LiteOsA.Vm

/-- `VM_ORDER_TO_PHYS`: the bytes of a block of an order. -/
def VM_ORDER_TO_PHYS (order : Nat) : Nat := 1 <<< (PAGE_SHIFT + order)

/-- `ONE_PAGE`. -/
def ONE_PAGE : Nat := 1

/-- `struct VmPage`, the fields the buddy lists use. -/
structure LosVmPage where
  /-- The order of the free block the page starts, or `VM_LIST_ORDER_MAX`. -/
  order : Nat
  /-- The pages of the run an allocation handed out from this page. -/
  nPages : Nat
  refCounts : Int

/-- `struct VmPhysArea`: a run of whole pages of the 32-bit physical
address space, ending below its top. -/
structure VmPhysArea where
  start : Nat
  size : Nat
  start_page : start % PAGE_SIZE = 0
  size_page : size % PAGE_SIZE = 0
  fits : start + size < 2 ^ 32

/-- `seg->pageBase[(pa - seg->start) >> PAGE_SHIFT]`, as a frame. -/
def VmPhysArea.pageAt (a : VmPhysArea) (pa : Nat) : Nat :=
  (a.start >>> PAGE_SHIFT) + ((pa - a.start) >>> PAGE_SHIFT)

/-- `struct VmPhysSeg`: the segment `OsVmPhysSegCreate` makes of an
area, its page descriptors and its buddy lists. -/
structure VmPhysSeg extends VmPhysArea where
  /-- `pageBase[i]`, by frame. -/
  pages : Nat → LosVmPage
  /-- `freeList[order].node`, first first. -/
  freeList : Nat → List Nat
  /-- `freeList[order].listCnt`. -/
  listCnt : Nat → Nat

/-- A write of one page descriptor. -/
def VmPhysSeg.setPage (s : VmPhysSeg) (page : Nat) (f : LosVmPage → LosVmPage) : VmPhysSeg :=
  { s with pages := Function.update s.pages page (f (s.pages page)) }

-- ============================================================ pages and lists

/-- `OsVmPhysToPage(pa, segID)`: the page at a physical address of the
segment, `NULL` outside it. -/
def OsVmPhysToPage (s : VmPhysSeg) (pa : Nat) : Option Nat :=
  if pa < s.start ∨ pa ≥ s.start + s.size then none else some (s.pageAt pa)

/-- `OsVmVaddrToPage(ptr)`, for the physical address `LOS_PaddrQuery`
gives: the page of the segment that holds it. -/
def OsVmVaddrToPage (s : VmPhysSeg) (pa : Nat) : Option Nat :=
  if pa ≥ s.start ∧ pa < s.start + s.size then some (s.pageAt pa) else none

/-- `OsVmPhysFreeListAdd(page, order)`: the page starts a free block of
`order`, at the tail of its list. -/
def OsVmPhysFreeListAdd (s : VmPhysSeg) (page order : Nat) : VmPhysSeg :=
  { s with
    pages := Function.update s.pages page { s.pages page with order := order }
    freeList := Function.update s.freeList order (s.freeList order ++ [page])
    listCnt := Function.update s.listCnt order (u32 (s.listCnt order + 1)) }

/-- `OsVmPhysFreeListAddUnsafe`, the same as `OsVmPhysFreeListAdd`. -/
def OsVmPhysFreeListAddUnsafe (s : VmPhysSeg) (page order : Nat) : VmPhysSeg :=
  OsVmPhysFreeListAdd s page order

/-- `OsVmPhysFreeListDel(page)`: the block the page starts leaves the
list of its order, and the page no longer starts a free block; a page
that starts none is a panic. -/
def OsVmPhysFreeListDel (s : VmPhysSeg) (page : Nat) : Option VmPhysSeg :=
  let order := (s.pages page).order
  if order ≥ VM_LIST_ORDER_MAX then none
  else some { s with
    listCnt := Function.update s.listCnt order (u32Sub (s.listCnt order) 1)
    freeList := Function.update s.freeList order ((s.freeList order).erase page)
    pages := Function.update s.pages page { s.pages page with order := VM_LIST_ORDER_MAX } }

/-- `OsVmPhysFreeListDelUnsafe`, the same as `OsVmPhysFreeListDel`. -/
def OsVmPhysFreeListDelUnsafe (s : VmPhysSeg) (page : Nat) : Option VmPhysSeg :=
  OsVmPhysFreeListDel s page

/-- `OsVmPhysPagesSpiltUnsafe(page, oldOrder, newOrder)`: of the block
of `newOrder` at `page`, the upper half goes back on the lists, order
after order, down to `oldOrder`. -/
def OsVmPhysPagesSpiltUnsafe (s : VmPhysSeg) (page oldOrder : Nat) : Nat → VmPhysSeg
  | 0 => s
  | order + 1 =>
    if order + 1 > oldOrder then
      OsVmPhysPagesSpiltUnsafe (OsVmPhysFreeListAddUnsafe s (page + VM_ORDER_TO_PAGES order) order)
        page oldOrder order
    else s

-- ============================================================ freeing

/-- The `do ... while` loop of `OsVmPhysPagesFree`, from the block of
`order` at `page`, whose address is `pa`: while the buddy is a page of
the segment that starts a free block of the same order, it leaves its
list and the two make the block of the next order. The state, page and
order the loop ends with. -/
def OsVmPhysPagesFree.merge (s : VmPhysSeg) (page order pa : Nat) : Option (VmPhysSeg × Nat × Nat) :=
  let pa := pa ^^^ VM_ORDER_TO_PHYS order
  match OsVmPhysToPage s pa with
  | none => some (s, page, order)
  | some buddyPage =>
    if (s.pages buddyPage).order ≠ order then some (s, page, order)
    else
      match OsVmPhysFreeListDel s buddyPage with
      | none => none
      | some s' =>
        let pa' := pa &&& ((2 ^ 32 - 1) ^^^ (VM_ORDER_TO_PHYS (order + 1) - 1))
        match OsVmPhysToPage s' pa' with
        | none => none
        | some page' =>
          if order + 1 < VM_LIST_ORDER_MAX - 1 then merge s' page' (order + 1) pa'
          else some (s', page', order + 1)
termination_by VM_LIST_ORDER_MAX - 1 - order

/-- `OsVmPhysPagesFree(page, order)`: a block below the largest order
merges with its free buddies; the block it ends as goes on its list. An
order past the lists frees nothing. -/
def OsVmPhysPagesFree (s : VmPhysSeg) (page order : Nat) : Option VmPhysSeg :=
  if order ≥ VM_LIST_ORDER_MAX then some s
  else if order < VM_LIST_ORDER_MAX - 1 then
    match OsVmPhysPagesFree.merge s page order (VM_PAGE_TO_PHYS page) with
    | none => none
    | some (s', page', order') => some (OsVmPhysFreeListAdd s' page' order')
  else some (OsVmPhysFreeListAdd s page order)

/-- `OsVmPhysPagesFreeContiguous(page, nPages)` on the lists: each block
it cuts the run into, freed in turn. -/
def OsVmPhysPagesFreeContiguous.run (s : VmPhysSeg) (page nPages : Nat) : Option VmPhysSeg :=
  (OsVmPhysPagesFreeContiguous page nPages).foldlM (fun s b => OsVmPhysPagesFree s b.1 b.2) s

/-- `OsVmRecycleExtraPages(page, startPage, endPage)`. -/
def OsVmRecycleExtraPages (s : VmPhysSeg) (page startPage endPage : Nat) : Option VmPhysSeg :=
  if startPage ≥ endPage then some s
  else OsVmPhysPagesFreeContiguous.run s page (endPage - startPage)

-- ============================================================ allocating

/-- The loop of `OsVmPagesToOrder`: the first order from `order` whose
block holds `nPages` pages. `VM_ORDER_TO_PAGES(order)` is an `int`
shift: up to order 31 it compares with the `size_t` count as
`2 ^ order`, and at order 32 it is undefined in C. The model ends the
loop there, so a count above `2 ^ 31` gets order 32. -/
def OsVmPagesToOrder.loop (nPages order : Nat) : Nat :=
  if order < 32 ∧ VM_ORDER_TO_PAGES order < nPages then loop nPages (order + 1) else order
termination_by 32 - order

/-- `OsVmPagesToOrder(nPages)`: the least order whose block holds
`nPages` pages. -/
def OsVmPagesToOrder (nPages : Nat) : Nat := OsVmPagesToOrder.loop nPages 0

/-- The inner loop of `OsVmPhysLargeAlloc`: step from `paStart` over the
blocks of the largest order that follow, while they are in the segment,
below `paEnd` and free with that order; where it stopped. A step is a
`PADDR_T` sum, which can wrap round past the top, and the loop has no
bound of its own: the model runs it for at most `fuel` blocks.
`OsVmPhysLargeAlloc` gives it `2 ^ 12`, the blocks of the largest order
in the 32-bit space, and on well-formed lists more never changes where
it stops (`OsVmPhysLargeAlloc.scan_enough`). -/
def OsVmPhysLargeAlloc.scan (s : VmPhysSeg) (paEnd : Nat) : Nat → Nat → Nat
  | 0, paStart => paStart
  | fuel + 1, paStart =>
    let paStart := u32 (paStart + (PAGE_SIZE <<< (VM_LIST_ORDER_MAX - 1)))
    if paStart ≥ paEnd ∨ paStart < s.start ∨ paStart ≥ s.start + s.size then paStart
    else if (s.pages (s.pageAt paStart)).order ≠ VM_LIST_ORDER_MAX - 1 then paStart
    else scan s paEnd fuel paStart

/-- `OsVmPhysLargeAlloc(seg, nPages)`: the first block of the largest
order, in list order, that the blocks of that order after it, free,
extend to `nPages` pages inside the segment. The bytes of the request
are a `size_t` and the end of the run a `PADDR_T`, both of which wrap
round. -/
def OsVmPhysLargeAlloc (s : VmPhysSeg) (nPages : Nat) : Option Nat :=
  let size := u32 (nPages <<< PAGE_SHIFT)
  (s.freeList (VM_LIST_ORDER_MAX - 1)).find? fun page =>
    let paStart := VM_PAGE_TO_PHYS page
    let paEnd := u32 (paStart + size)
    decide (paEnd ≤ s.start + s.size) && decide (paEnd ≤ OsVmPhysLargeAlloc.scan s paEnd (2 ^ 12) paStart)

/-- The search of `OsVmPhysPagesAlloc` below the largest order: the
first page of the first list from `order` up that is not empty, with
that list's order. -/
def OsVmPhysPagesAlloc.search (s : VmPhysSeg) (order : Nat) : Option (Nat × Nat) :=
  (List.range' order (VM_LIST_ORDER_MAX - order)).findSome? fun newOrder =>
    (s.freeList newOrder).head?.map fun page => (page, newOrder)

/-- The loop at `DONE` in `OsVmPhysPagesAlloc`: the blocks of `newOrder`
from `tmp` up to `pageEnd` leave their lists. -/
def OsVmPhysPagesAlloc.take (s : VmPhysSeg) (newOrder pageEnd tmp : Nat) : Option VmPhysSeg :=
  if tmp < pageEnd then
    match OsVmPhysFreeListDelUnsafe s tmp with
    | none => none
    | some s => take s newOrder pageEnd (tmp + VM_ORDER_TO_PAGES newOrder)
  else some s
termination_by pageEnd - tmp
decreasing_by
  have := VM_ORDER_TO_PAGES_pos newOrder
  omega

/-- `OsVmPhysPagesAlloc(seg, nPages)` up to `DONE`: the page the run
starts at and the order of the blocks it is taken from, `none` for
`NULL`. Above the largest order the blocks are of the largest order. -/
def OsVmPhysPagesAlloc.find (s : VmPhysSeg) (nPages : Nat) : Option (Nat × Nat) :=
  let order := OsVmPagesToOrder nPages
  if order < VM_LIST_ORDER_MAX then OsVmPhysPagesAlloc.search s order
  else (OsVmPhysLargeAlloc s nPages).map fun page => (page, VM_LIST_ORDER_MAX - 1)

/-- `OsVmPhysPagesAlloc(seg, nPages)`: a block of the least order that
holds `nPages` pages, split down to that order, or above the largest
order a run of largest-order blocks; the pages past `nPages` go back.
The page the run starts at, `none` for `NULL`. -/
def OsVmPhysPagesAlloc (s : VmPhysSeg) (nPages : Nat) : Option (Option Nat × VmPhysSeg) :=
  let order := OsVmPagesToOrder nPages
  match OsVmPhysPagesAlloc.find s nPages with
  | none => some (none, s)
  | some (page, newOrder) =>
    match OsVmPhysPagesAlloc.take s newOrder (page + nPages) page with
    | none => none
    | some s₁ =>
      let s₂ := OsVmPhysPagesSpiltUnsafe s₁ page order newOrder
      match OsVmRecycleExtraPages s₂ (page + nPages) nPages
          (ROUNDUP nPages (1 <<< min order newOrder)) with
      | none => none
      | some s₃ => some (some page, s₃)

/-- `OsVmPhysPagesGet(nPages)`: an allocation from the segment; its first
page records the run and no reference. -/
def OsVmPhysPagesGet (s : VmPhysSeg) (nPages : Nat) : Option (Option Nat × VmPhysSeg) :=
  match OsVmPhysPagesAlloc s nPages with
  | none => none
  | some (none, s') => some (none, s')
  | some (some page, s') =>
    some (some page, s'.setPage page fun p => { p with refCounts := 0, nPages := nPages })

-- ============================================================ startup

/-- `OsVmPageInit(page, pa, segID)`: a page on no list, in no run, with
no reference. -/
def OsVmPageInit : LosVmPage := { order := VM_LIST_ORDER_MAX, nPages := 0, refCounts := 0 }

/-- The segment of an area before `OsVmPageOrderListInit`: `OsVmPhysInit`
has emptied the lists and every page is initialised. -/
def OsVmPageStartup.seg (a : VmPhysArea) : VmPhysSeg where
  toVmPhysArea := a
  pages := fun _ => OsVmPageInit
  freeList := fun _ => []
  listCnt := fun _ => 0

/-- `OsVmPageStartup()` on the segment of an area: `OsVmPageOrderListInit`
frees the area's pages as one run. -/
def OsVmPageStartup (a : VmPhysArea) : Option VmPhysSeg :=
  OsVmPhysPagesFreeContiguous.run (OsVmPageStartup.seg a) (a.start >>> PAGE_SHIFT) (a.size >>> PAGE_SHIFT)

-- ============================================================ the interface

/-- `LOS_PhysPagesAllocContiguous(nPages)`: `NULL` for no pages. -/
def LOS_PhysPagesAllocContiguous (s : VmPhysSeg) (nPages : Nat) : Option (Option Nat × VmPhysSeg) :=
  if nPages = 0 then some (none, s) else OsVmPhysPagesGet s nPages

/-- `LOS_PhysPagesFreeContiguous(ptr, nPages)`, for the physical address
of `ptr`: nothing for an address outside the segment. -/
def LOS_PhysPagesFreeContiguous (s : VmPhysSeg) (pa nPages : Nat) : Option VmPhysSeg :=
  match OsVmVaddrToPage s pa with
  | none => some s
  | some page =>
    OsVmPhysPagesFreeContiguous.run (s.setPage page fun p => { p with nPages := 0 }) page nPages

/-- `LOS_PhysPageAlloc()`. -/
def LOS_PhysPageAlloc (s : VmPhysSeg) : Option (Option Nat × VmPhysSeg) :=
  OsVmPhysPagesGet s ONE_PAGE

/-- `LOS_PhysPageFree(page)`: the page drops a reference, and is freed
once none is left. -/
def LOS_PhysPageFree (s : VmPhysSeg) (page : Nat) : Option VmPhysSeg :=
  let s := s.setPage page fun p => { p with refCounts := p.refCounts - 1 }
  if (s.pages page).refCounts ≤ 0 then
    match OsVmPhysPagesFreeContiguous.run s page ONE_PAGE with
    | none => none
    | some s' => some (s'.setPage page fun p => { p with refCounts := 0 })
  else some s

-- The list versions, on the segment. The VM model's calls draw their
-- pages from a pool (`LiteOsA.Vm.LOS_PhysPagesAlloc` on a `VmSys`); these
-- are the same functions on the buddy lists.

/-- The loop of `LOS_PhysPagesAlloc`: while `nPages--` is not zero, a
single page from `OsVmPhysPagesGet`, appended to `list`; the first
`NULL` ends it. The count, the segment and `list` after. -/
def VmPhysSeg.LOS_PhysPagesAlloc.loop :
    Nat → VmPhysSeg → List Nat → Nat → Option (Nat × VmPhysSeg × List Nat)
  | 0, s, list, count => some (count, s, list)
  | nPages + 1, s, list, count =>
    match OsVmPhysPagesGet s ONE_PAGE with
    | none => none
    | some (none, s) => some (count, s, list)
    | some (some page, s) => loop nPages s (list ++ [page]) (count + 1)

/-- `LOS_PhysPagesAlloc(nPages, list)`: nothing for no pages. -/
def VmPhysSeg.LOS_PhysPagesAlloc (s : VmPhysSeg) (nPages : Nat) (list : List Nat) :
    Option (Nat × VmPhysSeg × List Nat) :=
  if nPages = 0 then some (0, s, list) else LOS_PhysPagesAlloc.loop nPages s list 0

/-- `LOS_PhysPagesFree(list)`: each page is taken off `list`, which ends
empty, and drops a reference; a page left with none goes back to the
lists. The loop's body is the body of `LOS_PhysPageFree`, for a page
that is not `NULL`. The count of the pages taken off. -/
def VmPhysSeg.LOS_PhysPagesFree (s : VmPhysSeg) (list : List Nat) : Option (Nat × VmPhysSeg) :=
  list.foldlM (fun acc page => (LOS_PhysPageFree acc.2 page).map fun s => (acc.1 + 1, s)) (0, s)

end LiteOsA.Vm
