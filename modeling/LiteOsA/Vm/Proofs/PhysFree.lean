/-
`OsVmPhysPagesFreeContiguous` frees a run exactly, in buddy blocks.

Each block it hands to `OsVmPhysPagesFree` has an order the buddy
lists hold and a frame aligned to that order, and the blocks, one after
the other, are the run's pages. The first loop's blocks are aligned by
construction: their order is the frame's lowest set bit. The second
loop's are aligned because of how the first one stops: the count it
leaves is below `2 ^ order` of the frame it stops at, so the highest
bit of the count is below that frame's alignment, and every later
frame keeps it (`tail_blocks` carries that bound as `k`).
-/
import LiteOsA.Vm.Phys
import Mathlib.Data.List.Nodup

namespace LiteOsA.Vm

open OsVmPhysPagesFreeContiguous

-- ============================================================ orders

theorem VM_ORDER_TO_PAGES_eq (order : Nat) : VM_ORDER_TO_PAGES order = 2 ^ order := by
  rw [VM_ORDER_TO_PAGES, Nat.one_shiftLeft]

/-- A word whose bits below `k` are all clear is a multiple of `2 ^ k`. -/
theorem two_pow_dvd_of_testBit {x k : Nat} (h : ∀ i < k, x.testBit i = false) :
    2 ^ k ∣ x := by
  apply Nat.dvd_of_mod_eq_zero
  apply Nat.eq_of_testBit_eq
  intro i
  rw [Nat.testBit_mod_two_pow, Nat.zero_testBit]
  by_cases hi : i < k
  · rw [h i hi, Bool.and_false]
  · simp [hi]

/-- A frame is aligned to the lowest set bit of its `UINT32`: when the
word is zero the bit index is 32, and the frame is a multiple of
`2 ^ 32`. -/
theorem two_pow_LOS_LowBitGet_dvd (pfn : Nat) : 2 ^ LOS_LowBitGet (u32 pfn) ∣ pfn := by
  by_cases h0 : u32 pfn = 0
  · rw [LOS_LowBitGet, if_pos h0, LOS_INVALID_BIT_INDEX]
    exact Nat.dvd_of_mod_eq_zero h0
  · obtain ⟨hlt, -, hbelow⟩ := LOS_LowBitGet_spec h0 (u32_lt pfn)
    have hword : 2 ^ LOS_LowBitGet (u32 pfn) ∣ u32 pfn := two_pow_dvd_of_testBit hbelow
    exact (Nat.dvd_mod_iff (Nat.pow_dvd_pow 2 hlt.le)).mp hword

/-- The order the first loop frees at a frame: one the buddy lists
hold, and one the frame is aligned to. -/
theorem VM_PHYS_TO_ORDER_spec (pfn : Nat) :
    VM_PHYS_TO_ORDER (VM_PAGE_TO_PHYS pfn) ≤ VM_LIST_ORDER_MAX - 1 ∧
      2 ^ VM_PHYS_TO_ORDER (VM_PAGE_TO_PHYS pfn) ∣ pfn := by
  have hframe : VM_PAGE_TO_PHYS pfn >>> PAGE_SHIFT = pfn := Nat.shiftLeft_shiftRight pfn PAGE_SHIFT
  rw [VM_PHYS_TO_ORDER, hframe]
  exact ⟨Nat.min_le_right _ _,
    Nat.dvd_trans (Nat.pow_dvd_pow 2 (Nat.min_le_left _ _)) (two_pow_LOS_LowBitGet_dvd pfn)⟩

/-- The order the second loop frees: the power of two of the count's
highest bit, which is at most the count and more than half of it. -/
theorem LOS_HighBitGet_bounds {x : Nat} (h0 : 0 < x) (hx : x < 2 ^ 32) :
    2 ^ LOS_HighBitGet x ≤ x ∧ x < 2 ^ (LOS_HighBitGet x + 1) := by
  obtain ⟨-, hbit, habove⟩ := LOS_HighBitGet_spec (Nat.pos_iff_ne_zero.mp h0) hx
  exact ⟨Nat.ge_two_pow_of_testBit hbit,
    Nat.lt_pow_two_of_testBit x (fun i hi => habove i (by omega))⟩

-- ============================================================ blocks

/-- A block the buddy allocator takes: an order it has a list for, and
a frame aligned to it. -/
def BuddyBlock (b : Nat × Nat) : Prop :=
  b.2 ≤ VM_LIST_ORDER_MAX - 1 ∧ 2 ^ b.2 ∣ b.1

/-- The frames of a list of blocks, block after block. -/
def blockPages (blocks : List (Nat × Nat)) : List Nat :=
  (blocks.map fun b => List.range' b.1 (2 ^ b.2)).flatten

@[simp] theorem blockPages_nil : blockPages [] = [] := rfl

@[simp] theorem blockPages_cons (b : Nat × Nat) (blocks : List (Nat × Nat)) :
    blockPages (b :: blocks) = List.range' b.1 (2 ^ b.2) ++ blockPages blocks := rfl

@[simp] theorem blockPages_append (l₁ l₂ : List (Nat × Nat)) :
    blockPages (l₁ ++ l₂) = blockPages l₁ ++ blockPages l₂ := by
  simp [blockPages]

/-- A frame is in the blocks' pages when one block's range holds it. -/
theorem mem_blockPages {q : Nat} {blocks : List (Nat × Nat)} :
    q ∈ blockPages blocks ↔ ∃ b ∈ blocks, b.1 ≤ q ∧ q < b.1 + 2 ^ b.2 := by
  simp [blockPages]

/-- A block of order `order` at `pfn`, then a run from its end, is the
run from `pfn`. -/
theorem range'_block_append {pfn order nPages : Nat} (h : 2 ^ order ≤ nPages) :
    List.range' pfn (2 ^ order) ++ List.range' (pfn + 2 ^ order) (nPages - 2 ^ order) =
      List.range' pfn nPages := by
  rw [List.range'_append_1, Nat.add_sub_cancel' h]

-- ============================================================ the first loop

/-- The first loop frees buddy blocks that, with the run it leaves, make
up the run it is given, and it stops at a frame whose alignment is more
than the count left. -/
theorem aligned_blocks (pfn nPages : Nat) :
    (∀ b ∈ (aligned pfn nPages).1, BuddyBlock b) ∧
      blockPages (aligned pfn nPages).1 ++
          List.range' (aligned pfn nPages).2.1 (aligned pfn nPages).2.2 =
        List.range' pfn nPages ∧
      (aligned pfn nPages).2.2 < 2 ^ VM_PHYS_TO_ORDER (VM_PAGE_TO_PHYS (aligned pfn nPages).2.1) := by
  induction pfn, nPages using aligned.induct with
  | case1 pfn nPages order n hbreak =>
    -- the block at `pfn` does not fit: nothing freed, the whole run left
    rw [aligned, dif_pos hbreak]
    have hleft : nPages < 2 ^ order := VM_ORDER_TO_PAGES_eq order ▸ hbreak
    exact ⟨by simp, by simp, hleft⟩
  | case2 pfn nPages order n hfit ih =>
    -- the block fits: it is freed, and the loop goes on past it
    rw [aligned, dif_neg hfit]
    have hn : n = 2 ^ order := VM_ORDER_TO_PAGES_eq order
    have hfits : 2 ^ order ≤ nPages := VM_ORDER_TO_PAGES_eq order ▸ Nat.le_of_not_gt hfit
    obtain ⟨ihblocks, ihpages, ihleft⟩ := ih
    refine ⟨?_, ?_, ihleft⟩
    · intro b hb
      rcases List.mem_cons.mp hb with rfl | hb
      · exact VM_PHYS_TO_ORDER_spec pfn
      · exact ihblocks b hb
    · rw [blockPages_cons, List.append_assoc, ihpages]
      show List.range' pfn (2 ^ order) ++ List.range' (pfn + n) (nPages - n) = _
      rw [hn]
      exact range'_block_append hfits

-- ============================================================ the second loop

/-- The second loop, from a frame aligned to `2 ^ k` with fewer than
`2 ^ k` pages left, frees blocks of orders below `k`, each aligned, that
make up the run. The bound `k` falls to each block's order as the loop
goes: the count left is then below that block's size, and the next
frame is aligned to it. -/
theorem tail_blocks (pfn nPages : Nat) :
    ∀ k ≤ 32, 2 ^ k ∣ pfn → nPages < 2 ^ k →
      (∀ b ∈ tail pfn nPages, b.2 < k ∧ 2 ^ b.2 ∣ b.1) ∧
        blockPages (tail pfn nPages) = List.range' pfn nPages := by
  induction pfn, nPages using tail.induct with
  | case1 pfn nPages hmore order n ih =>
    intro k hk32 halign hleft
    rw [tail, dif_pos hmore]
    have hword : u32 nPages = nPages :=
      u32_of_lt (lt_of_lt_of_le hleft (Nat.pow_le_pow_right (by decide) hk32))
    have hn : n = 2 ^ order := VM_ORDER_TO_PAGES_eq order
    have hpos : 0 < u32 nPages := by
      rw [hword]
      exact hmore
    obtain ⟨hlow, hhigh⟩ := LOS_HighBitGet_bounds hpos (u32_lt nPages)
    change 2 ^ order ≤ u32 nPages at hlow
    change u32 nPages < 2 ^ (order + 1) at hhigh
    rw [hword] at hlow hhigh
    -- the block's order is below `k`, since its size is at most the count
    have hord : order < k := (Nat.pow_lt_pow_iff_right (by decide)).mp (lt_of_le_of_lt hlow hleft)
    have hblock : 2 ^ order ∣ pfn := Nat.dvd_trans (Nat.pow_dvd_pow 2 hord.le) halign
    -- past the block, the bound is the block's order
    have hnext : 2 ^ order ∣ pfn + n := by
      rw [hn]
      exact Nat.dvd_add hblock (Nat.dvd_refl _)
    have hrest : nPages - n < 2 ^ order := by
      rw [hn]
      rw [Nat.pow_succ] at hhigh
      omega
    obtain ⟨ihblocks, ihpages⟩ := ih order (by omega) hnext hrest
    refine ⟨?_, ?_⟩
    · intro b hb
      rcases List.mem_cons.mp hb with rfl | hb
      · exact ⟨hord, hblock⟩
      · obtain ⟨hbk, hbalign⟩ := ihblocks b hb
        exact ⟨by omega, hbalign⟩
    · rw [blockPages_cons, ihpages, hn]
      exact range'_block_append hlow
  | case2 pfn nPages hdone =>
    intro k _ _ _
    rw [tail, dif_neg hdone]
    have hzero : nPages = 0 := by omega
    subst hzero
    exact ⟨by simp, by simp⟩

-- ============================================================ the whole run

/-- `OsVmPhysPagesFreeContiguous` frees blocks the buddy lists take, and
the blocks are the run's pages, each once. -/
theorem OsVmPhysPagesFreeContiguous_blocks (pfn nPages : Nat) :
    (∀ b ∈ OsVmPhysPagesFreeContiguous pfn nPages, BuddyBlock b) ∧
      blockPages (OsVmPhysPagesFreeContiguous pfn nPages) = List.range' pfn nPages := by
  obtain ⟨hblocks, hpages, hleft⟩ := aligned_blocks pfn nPages
  obtain ⟨horder, halign⟩ := VM_PHYS_TO_ORDER_spec (aligned pfn nPages).2.1
  have hk32 : VM_PHYS_TO_ORDER (VM_PAGE_TO_PHYS (aligned pfn nPages).2.1) ≤ 32 := by
    rw [VM_LIST_ORDER_MAX] at horder
    omega
  obtain ⟨htblocks, htpages⟩ := tail_blocks _ _ _ hk32 halign hleft
  refine ⟨?_, ?_⟩
  · intro b hb
    rcases List.mem_append.mp hb with hb | hb
    · exact hblocks b hb
    · obtain ⟨hbk, hbalign⟩ := htblocks b hb
      exact ⟨by omega, hbalign⟩
  · rw [OsVmPhysPagesFreeContiguous, blockPages_append, htpages, hpages]

/-- Every block freed is one the buddy lists take, no two blocks share a
frame, and together they cover exactly the frames from `pfn` to
`pfn + nPages`. -/
theorem free_contiguous_exact_blocks (pfn nPages : Nat) :
    (∀ b ∈ OsVmPhysPagesFreeContiguous pfn nPages,
        b.2 ≤ VM_LIST_ORDER_MAX - 1 ∧ 2 ^ b.2 ∣ b.1) ∧
      ((OsVmPhysPagesFreeContiguous pfn nPages).map fun b => List.range' b.1 (2 ^ b.2)).Pairwise
        List.Disjoint ∧
      ∀ q, (∃ b ∈ OsVmPhysPagesFreeContiguous pfn nPages, b.1 ≤ q ∧ q < b.1 + 2 ^ b.2) ↔
        pfn ≤ q ∧ q < pfn + nPages := by
  obtain ⟨hblocks, hpages⟩ := OsVmPhysPagesFreeContiguous_blocks pfn nPages
  refine ⟨hblocks, ?_, ?_⟩
  · -- the pages, block after block, are a run, so no frame is in two blocks
    have hnodup : (blockPages (OsVmPhysPagesFreeContiguous pfn nPages)).Nodup := by
      rw [hpages]
      exact List.nodup_range'
    exact (List.nodup_flatten.mp hnodup).2
  · intro q
    rw [← mem_blockPages, hpages, List.mem_range'_1]

end LiteOsA.Vm
