/-
Freeing a run of physical pages (kernel/base/vm/los_vm_phys.c):
`OsVmPhysPagesFreeContiguous` cuts the run into blocks of the buddy
allocator and hands each one to `OsVmPhysPagesFree`.

# What the model keeps

A page is its frame number: `page->physAddr` is the frame number
shifted by `PAGE_SHIFT`, and `page + n` is the frame `n` pages on. The
function is the list of the blocks it hands to `OsVmPhysPagesFree`,
each a frame and an order, first first; what `OsVmPhysPagesFree` does
with a block (the buddy merge) is not part of it. The arguments of
`LOS_LowBitGet` and `LOS_HighBitGet` are `UINT32`s.

The first loop takes, at each page, the largest block the page's
alignment allows, while it fits; the second takes the highest power of
two of the pages left. Both loops end because each pass frees at least
one page, and that is their termination measure.
-/
import LiteOsA.Core.Bitmap
import LiteOsA.Vm.Region

namespace LiteOsA.Vm

/-- `VM_LIST_ORDER_MAX`: the buddy lists hold blocks of orders below it. -/
def VM_LIST_ORDER_MAX : Nat := 9

/-- `VM_PAGE_TO_PHYS(page)`, for the page of frame `pfn`. -/
def VM_PAGE_TO_PHYS (pfn : Nat) : Nat := pfn <<< PAGE_SHIFT

/-- `VM_ORDER_TO_PAGES`. -/
def VM_ORDER_TO_PAGES (order : Nat) : Nat := 1 <<< order

/-- `VM_PHYS_TO_ORDER`: the alignment of the frame, at most the largest
order. -/
def VM_PHYS_TO_ORDER (phys : Nat) : Nat :=
  min (LOS_LowBitGet (u32 (phys >>> PAGE_SHIFT))) (VM_LIST_ORDER_MAX - 1)

theorem VM_ORDER_TO_PAGES_pos (order : Nat) : 0 < VM_ORDER_TO_PAGES order := by
  rw [VM_ORDER_TO_PAGES, Nat.one_shiftLeft]
  exact Nat.two_pow_pos order

/-- The first loop of `OsVmPhysPagesFreeContiguous`: the blocks it
frees, and the page and count it leaves to the second. -/
def OsVmPhysPagesFreeContiguous.aligned (pfn nPages : Nat) : List (Nat × Nat) × Nat × Nat :=
  let order := VM_PHYS_TO_ORDER (VM_PAGE_TO_PHYS pfn)
  let n := VM_ORDER_TO_PAGES order
  if _h : n > nPages then ([], pfn, nPages)
  else
    let rest := aligned (pfn + n) (nPages - n)
    ((pfn, order) :: rest.1, rest.2)
termination_by nPages
decreasing_by
  all_goals
    have hpos : 0 < n := VM_ORDER_TO_PAGES_pos order
    change nPages - n < nPages
    clear_value n order
    omega

/-- The second loop of `OsVmPhysPagesFreeContiguous`: blocks of the
highest power of two of the count left. -/
def OsVmPhysPagesFreeContiguous.tail (pfn nPages : Nat) : List (Nat × Nat) :=
  if _h : nPages > 0 then
    let order := LOS_HighBitGet (u32 nPages)
    let n := VM_ORDER_TO_PAGES order
    (pfn, order) :: tail (pfn + n) (nPages - n)
  else []
termination_by nPages
decreasing_by
  all_goals
    have hpos : 0 < n := VM_ORDER_TO_PAGES_pos order
    change nPages - n < nPages
    clear_value n order
    omega

/-- `OsVmPhysPagesFreeContiguous(page, nPages)`: the blocks, frame and
order, it frees with `OsVmPhysPagesFree`, in order. -/
def OsVmPhysPagesFreeContiguous (pfn nPages : Nat) : List (Nat × Nat) :=
  let r := OsVmPhysPagesFreeContiguous.aligned pfn nPages
  r.1 ++ OsVmPhysPagesFreeContiguous.tail r.2.1 r.2.2

end LiteOsA.Vm
