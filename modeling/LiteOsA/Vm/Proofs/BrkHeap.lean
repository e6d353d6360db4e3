/-
The user heap and the regions around it (`LOS_DoBrk`, `LOS_MMap`,
`LOS_UnMMap`), and where they stop agreeing.

What the calls are to keep: the regions of a space pairwise disjoint
(`RegionsDisjoint`), and `space->heap` either `NULL` or the region of
the tree at `heapBase` that covers the break (`HeapConsistent`).

A mapping enters the tree after `OsAllocSpecificRange` has looked for
a region at either end of its range and inside it. The heap grows
another way: once the heap region exists, `LOS_DoBrk` writes its size
in place and checks the new end against `mapBase` only
(`LOS_DoBrk_grow`), so the heap comes to overlap any region a fixed
mapping put above the break (`LOS_DoBrk_grow_overlaps`). And
`LOS_UnMMap` frees the heap region like any other, leaving
`space->heap` naming a record that is gone.

`brk_heap_overlaps_fixed_mapping` runs both from a new space.
-/
import LiteOsA.Vm.Call
import LiteOsA.Lib.Run

namespace LiteOsA.Vm

-- ============================================================ what is kept

/-- Two regions share no address. -/
def LosVmMapRegion.Disjoint (a b : LosVmMapRegion) : Prop :=
  a.base + a.size ≤ b.base ∨ b.base + b.size ≤ a.base

instance : DecidableRel LosVmMapRegion.Disjoint := fun _ _ => inferInstanceAs (Decidable (_ ∨ _))

instance : Std.Symm LosVmMapRegion.Disjoint := ⟨fun _ _ h => Or.symm h⟩

/-- The regions of a space are pairwise disjoint. -/
def RegionsDisjoint (space : LosVmSpace) : Prop :=
  space.regions.Pairwise LosVmMapRegion.Disjoint

instance (space : LosVmSpace) : Decidable (RegionsDisjoint space) :=
  inferInstanceAs (Decidable (List.Pairwise _ _))

/-- `space->heap` is `NULL` or the region of the tree at `heapBase`
whose size is the break rounded up to pages, and the break lies
between `heapBase` and `mapBase`. -/
def HeapConsistent (space : LosVmSpace) : Prop :=
  (∀ h ∈ space.heap, ∃ r ∈ space.regions, r.id = h ∧ r.base = space.heapBase ∧
      r.size = ROUNDUP (space.heapNow - space.heapBase) PAGE_SIZE) ∧
    space.heapBase ≤ space.heapNow ∧ space.heapNow ≤ space.mapBase

instance (space : LosVmSpace) : Decidable (HeapConsistent space) :=
  inferInstanceAs (Decidable (_ ∧ _))

-- ============================================================ growing the heap

/-- Every region of the space, after `writeHeapSize`: the one `heap`
names with the new size, the others as they were. -/
theorem mem_writeHeapSize {space : LosVmSpace} {size hid : Nat} {x : LosVmMapRegion}
    (hheap : space.heap = some hid) (hx : x ∈ space.regions) :
    (if x.id = hid then { x with size := size } else x) ∈ (writeHeapSize space size).regions := by
  unfold writeHeapSize
  rw [hheap]
  exact List.mem_map.mpr ⟨x, hx, rfl⟩

/-- The growth path of `LOS_DoBrk` once the heap region exists: its
size is written in place, the new end checked against `mapBase` only. -/
theorem LOS_DoBrk_grow {s : VmSys} {cur addr : Nat}
    (hnow : (s.spaces cur).heapBase < (s.spaces cur).heapNow) (haddr : (s.spaces cur).heapNow ≤ addr)
    (hmap : u32 ((s.spaces cur).heapBase + ROUNDUP (addr - (s.spaces cur).heapBase) PAGE_SIZE) <
      (s.spaces cur).mapBase) :
    (LOS_DoBrk s cur addr).2 = s.setSpace cur
      (writeHeapSize { s.spaces cur with
          heapNow := u32 ((s.spaces cur).heapBase + ROUNDUP (addr - (s.spaces cur).heapBase) PAGE_SIZE) }
        (ROUNDUP (addr - (s.spaces cur).heapBase) PAGE_SIZE)) := by
  have h₀ : addr ≠ 0 := by omega
  have h₁ : ¬ addr < (s.spaces cur).heapBase := by omega
  have h₂ : ¬ addr < (s.spaces cur).heapNow := by omega
  have h₃ : ¬ (s.spaces cur).heapBase = (s.spaces cur).heapNow := by omega
  unfold LOS_DoBrk
  simp only [h₀, h₁, h₂, h₃, ge_iff_le, if_false]
  simp [Nat.not_le.mpr hmap]

/-- A growth of the heap over a region that starts between `heapBase`
and the new end makes the two overlap: nothing on the path looks at
the regions above the break. -/
theorem LOS_DoBrk_grow_overlaps {s : VmSys} {cur addr : Nat}
    (hnow : (s.spaces cur).heapBase < (s.spaces cur).heapNow) (haddr : (s.spaces cur).heapNow ≤ addr)
    (hmap : u32 ((s.spaces cur).heapBase + ROUNDUP (addr - (s.spaces cur).heapBase) PAGE_SIZE) <
      (s.spaces cur).mapBase)
    (hheap : ∃ h ∈ (s.spaces cur).regions,
      (s.spaces cur).heap = some h.id ∧ h.base = (s.spaces cur).heapBase)
    (hover : ∃ r ∈ (s.spaces cur).regions, (s.spaces cur).heap ≠ some r.id ∧ 0 < r.size ∧
      (s.spaces cur).heapBase ≤ r.base ∧
      r.base < (s.spaces cur).heapBase + ROUNDUP (addr - (s.spaces cur).heapBase) PAGE_SIZE) :
    ¬ RegionsDisjoint ((LOS_DoBrk s cur addr).2.spaces cur) := by
  obtain ⟨h, hh, hid, hbase⟩ := hheap
  obtain ⟨r, hr, hrid, hsize, hlow, hhigh⟩ := hover
  have hne : r.id ≠ h.id := fun heq => hrid (heq ▸ hid)
  rw [LOS_DoBrk_grow hnow haddr hmap]
  simp only [VmSys.setSpace_spaces, Function.update_self]
  intro hdis
  -- the heap region with its new size, and the region above the break, both still in the tree
  have hd := hdis.forall (mem_writeHeapSize hid hh) (mem_writeHeapSize hid hr) (by
    rw [if_pos rfl, if_neg hne]
    exact fun heq => hne (congrArg LosVmMapRegion.id heq).symm)
  rw [if_pos rfl, if_neg hne] at hd
  unfold LosVmMapRegion.Disjoint at hd
  dsimp only at hd
  omega

/-- From a new space, process `1` sets its break one byte above
`heapBase`, maps a page at a fixed address two pages above it, and sets
the break four pages above it: the heap region grows over the mapping.
Unmapping the four pages then frees the heap region, and
`space->heap` still names it. -/
theorem brk_heap_overlaps_fixed_mapping :
    ∃ s₃ s₄, Run Step (vmInit [])
        [.brk 1 (USER_HEAP_BASE + 1) (USER_HEAP_BASE + PAGE_SIZE : Nat),
         .mmap 1 (USER_HEAP_BASE + 2 * PAGE_SIZE) PAGE_SIZE (PROT_READ ||| PROT_WRITE)
           (MAP_ANONYMOUS ||| MAP_PRIVATE ||| MAP_FIXED) 0 (USER_HEAP_BASE + 2 * PAGE_SIZE : Nat),
         .brk 1 (USER_HEAP_BASE + 4 * PAGE_SIZE) (USER_HEAP_BASE + 4 * PAGE_SIZE : Nat)] s₃ ∧
      RegionsDisjoint ((vmInit []).spaces 1) ∧ HeapConsistent ((vmInit []).spaces 1) ∧
      ¬ RegionsDisjoint (s₃.spaces 1) ∧
      Step s₃ (.munmap 1 USER_HEAP_BASE (4 * PAGE_SIZE) 0) s₄ ∧ ¬ HeapConsistent (s₄.spaces 1) := by
  have r₁ := (@Run.nil _ _ Step (vmInit [])).snoc
    (@Step.brk_ret _ 1 (USER_HEAP_BASE + 1) (USER_HEAP_BASE + PAGE_SIZE : Nat) (by decide))
  have r₂ := r₁.snoc (@Step.mmap_ret _ 1 (USER_HEAP_BASE + 2 * PAGE_SIZE) PAGE_SIZE (PROT_READ ||| PROT_WRITE)
    (MAP_ANONYMOUS ||| MAP_PRIVATE ||| MAP_FIXED) 0 (USER_HEAP_BASE + 2 * PAGE_SIZE : Nat) (by decide))
  have r₃ := r₂.snoc
    (@Step.brk_ret _ 1 (USER_HEAP_BASE + 4 * PAGE_SIZE) (USER_HEAP_BASE + 4 * PAGE_SIZE : Nat) (by decide))
  refine ⟨_, _, r₃, by decide, by decide, ?_,
    @Step.munmap_ret _ 1 USER_HEAP_BASE (4 * PAGE_SIZE) 0 (by decide), by decide⟩
  -- the second brk grows the heap region over the mapped page
  exact LOS_DoBrk_grow_overlaps (by decide) (by decide) (by decide) (by decide) (by decide)

end LiteOsA.Vm
