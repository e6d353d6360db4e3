/-
Allocating from the buddy lists (kernel/base/vm/los_vm_phys.c): what
`OsVmPhysPagesAlloc` does to the lists.

# The search

`OsVmPagesToOrder` is the least order whose block holds the request
(`OsVmPagesToOrder_spec`). Below the largest order the search takes
the head of the first list at or above it that is not empty, a free
block by `BuddyOk`; above it, `OsVmPhysLargeAlloc` takes the first block
of the largest order that the following blocks of that order, all
free, extend to the request inside the segment (`scan_spec`,
`OsVmPhysLargeAlloc_spec`). Either way the run starts at `m` free blocks
of one order side by side, `m` the least count that holds the request.

That holds of a request whose bytes past the end of the segment stay
below `2 ^ 32` (`LargeAllocFits`). A larger one wraps `nPages <<
PAGE_SHIFT` or `paStart + size` round in `OsVmPhysLargeAlloc`, which can
then accept a run that leaves the segment. The scan of
`OsVmPhysLargeAlloc` has no bound in C; on lists that keep the
invariant it stops within the fuel the model gives it
(`OsVmPhysLargeAlloc.scan_enough`).

# DONE

The blocks leave their lists one by one (`take_spec`); the split puts
the upper halves of a block larger than needed back, each an unlisted
block whose buddy is in use (`spilt_spec`); and the pages past the
request up to the rounded size are freed (`recycle_spec`). The lists
end with exactly the pages they had less the run.
-/
import LiteOsA.Vm.Proofs.BuddyFree

namespace LiteOsA.Vm

variable {s : VmPhysSeg} {n : Nat}

-- ============================================================ the order of a request

/-- The loop of `OsVmPagesToOrder` from `o`: the least order from `o` on
whose block holds `n` pages, for a count of at most `2 ^ 32` pages. -/
theorem OsVmPagesToOrder.loop_spec (n o : Nat) :
    o ≤ loop n o ∧ (n ≤ 2 ^ 32 → n ≤ 2 ^ loop n o) ∧ ∀ j, o ≤ j → n ≤ 2 ^ j → loop n o ≤ j := by
  fun_induction loop n o with
  | case1 o hlt ih =>
    obtain ⟨hle, hfit, hleast⟩ := ih
    rw [VM_ORDER_TO_PAGES_eq] at hlt
    refine ⟨by omega, hfit, fun j hj hn => hleast j ?_ hn⟩
    -- the block of order `o` is too small, so `j` is past it
    rcases Nat.eq_or_lt_of_le hj with rfl | hlt'
    · omega
    · exact hlt'
  | case2 o hge =>
    rw [VM_ORDER_TO_PAGES_eq] at hge
    refine ⟨le_rfl, fun hn => ?_, fun j hj _ => hj⟩
    -- the loop stopped at a block that holds the request, or at order 32
    by_cases ho : o < 32
    · omega
    · calc n ≤ 2 ^ 32 := hn
        _ ≤ 2 ^ o := Nat.pow_le_pow_right (by decide) (by omega)

/-- `OsVmPagesToOrder(n)` holds `n` pages, and the order below it does not. -/
theorem OsVmPagesToOrder_spec (n : Nat) (hn : n ≤ 2 ^ 32) :
    n ≤ 2 ^ OsVmPagesToOrder n ∧ ∀ j, n ≤ 2 ^ j → OsVmPagesToOrder n ≤ j := by
  obtain ⟨-, hfit, hleast⟩ := OsVmPagesToOrder.loop_spec n 0
  exact ⟨hfit hn, fun j hn => hleast j (Nat.zero_le j) hn⟩

/-- `ROUNDUP` to a power of two, below the top of `UINT32`. -/
theorem ROUNDUP_two_pow {a j : Nat} (ha : a + (2 ^ j - 1) < 2 ^ 32) (hj : j ≤ 32) :
    ROUNDUP a (2 ^ j) = (a + (2 ^ j - 1)) / 2 ^ j * 2 ^ j := by
  unfold ROUNDUP
  rw [u32_of_lt ha]
  exact and_not_low_bits ha hj

-- ============================================================ the search

/-- The search below the largest order finds the head of a list at or
above the order, and finds nothing only if all those lists are empty. -/
theorem OsVmPhysPagesAlloc.search_spec (s : VmPhysSeg) (order : Nat) :
    (∀ page k, search s order = some (page, k) →
      order ≤ k ∧ k < VM_LIST_ORDER_MAX ∧ page ∈ s.freeList k) ∧
    (search s order = none → ∀ k, order ≤ k → k < VM_LIST_ORDER_MAX → s.freeList k = []) := by
  refine ⟨fun page k hsome => ?_, fun hnone k hlo hhi => ?_⟩
  · obtain ⟨j, hj, hhead⟩ := List.exists_of_findSome?_eq_some hsome
    rw [List.mem_range'_1] at hj
    obtain ⟨page', hpage', heq⟩ := Option.map_eq_some_iff.mp hhead
    obtain ⟨rfl, rfl⟩ := Prod.mk.inj heq
    exact ⟨hj.1, by omega, List.mem_of_head? hpage'⟩
  · have := List.findSome?_eq_none_iff.mp hnone k (List.mem_range'_1.mpr ⟨hlo, by omega⟩)
    simpa using this

/-- A request `OsVmPhysLargeAlloc` computes without a wrap: above the
largest order, its bytes past the end of the segment stay below
`2 ^ 32`, so that neither `nPages << PAGE_SHIFT` nor the end of a run
from a page of the segment wraps round. -/
def LargeAllocFits (a : VmPhysArea) (n : Nat) : Prop :=
  VM_ORDER_TO_PAGES (VM_LIST_ORDER_MAX - 1) < n → a.start + a.size + n * PAGE_SIZE < 2 ^ 32

instance (a : VmPhysArea) (n : Nat) : Decidable (LargeAllocFits a n) :=
  inferInstanceAs (Decidable (_ → _))

theorem LargeAllocFits.le_two_pow {a : VmPhysArea} (hfit : LargeAllocFits a n) : n ≤ 2 ^ 32 := by
  have h256 : VM_ORDER_TO_PAGES (VM_LIST_ORDER_MAX - 1) = 256 := rfl
  by_cases hlarge : VM_ORDER_TO_PAGES (VM_LIST_ORDER_MAX - 1) < n
  · have := hfit hlarge
    unfold PAGE_SIZE at this
    omega
  · omega

/-- A request of at most the largest block never reaches `OsVmPhysLargeAlloc`. -/
theorem LargeAllocFits.of_le {a : VmPhysArea} (hn : n ≤ VM_ORDER_TO_PAGES (VM_LIST_ORDER_MAX - 1)) :
    LargeAllocFits a n :=
  fun hlarge => absurd hlarge (Nat.not_lt.mpr hn)

/-- A step of the scan short of a block below `paEnd` does not wrap
round, and does not pass that block. -/
theorem OsVmPhysLargeAlloc.scan_step {paEnd pa j : Nat} (hEnd : paEnd ≤ 2 ^ 32) (hj : 0 < j)
    (hlt : pa + j * (PAGE_SIZE <<< (VM_LIST_ORDER_MAX - 1)) < paEnd) :
    u32 (pa + (PAGE_SIZE <<< (VM_LIST_ORDER_MAX - 1))) = pa + (PAGE_SIZE <<< (VM_LIST_ORDER_MAX - 1)) ∧
      pa + (PAGE_SIZE <<< (VM_LIST_ORDER_MAX - 1)) ≤ pa + j * (PAGE_SIZE <<< (VM_LIST_ORDER_MAX - 1)) := by
  have := Nat.le_mul_of_pos_left (PAGE_SIZE <<< (VM_LIST_ORDER_MAX - 1)) hj
  exact ⟨u32_of_lt (by omega), by omega⟩

/-- The scan of `OsVmPhysLargeAlloc` reaches an end below `2 ^ 32` only
over blocks of the segment that record the largest order. -/
theorem OsVmPhysLargeAlloc.scan_spec (s : VmPhysSeg) {paEnd : Nat} (hEnd : paEnd ≤ 2 ^ 32) (fuel pa : Nat)
    (h : paEnd ≤ scan s paEnd fuel pa) :
    ∀ j, 0 < j → pa + j * (PAGE_SIZE <<< (VM_LIST_ORDER_MAX - 1)) < paEnd →
      s.start ≤ pa + j * (PAGE_SIZE <<< (VM_LIST_ORDER_MAX - 1)) ∧
      pa + j * (PAGE_SIZE <<< (VM_LIST_ORDER_MAX - 1)) < s.start + s.size ∧
      (s.pages (s.pageAt (pa + j * (PAGE_SIZE <<< (VM_LIST_ORDER_MAX - 1))))).order =
        VM_LIST_ORDER_MAX - 1 := by
  fun_induction scan s paEnd fuel pa with
  | case1 pa =>
    -- out of fuel, where it started
    intro j _ hlt
    omega
  | case2 fuel pa paStart hstop =>
    -- the scan stopped past the run, or the run has no later block
    intro j hj hlt
    have hstep := scan_step hEnd hj hlt
    subst paStart
    omega
  | case3 fuel pa paStart hin hord =>
    -- a block that records another order stops the scan short
    intro j hj hlt
    have hstep := scan_step hEnd hj hlt
    subst paStart
    omega
  | case4 fuel pa paStart hin hord ih =>
    intro j hj hlt
    have hstep := (scan_step hEnd hj hlt).1
    subst paStart
    rw [hstep] at h hin hord ih
    rcases Nat.eq_or_lt_of_le hj with rfl | hj'
    · -- the block the scan just passed
      rw [Nat.one_mul]
      exact ⟨by omega, by omega, not_not.mp hord⟩
    · -- a later block, one step further from the next start
      have hnext : pa + j * (PAGE_SIZE <<< (VM_LIST_ORDER_MAX - 1)) =
          pa + (PAGE_SIZE <<< (VM_LIST_ORDER_MAX - 1)) + (j - 1) * (PAGE_SIZE <<< (VM_LIST_ORDER_MAX - 1)) := by
        rw [Nat.sub_one_mul, Nat.add_assoc, Nat.add_sub_cancel' (Nat.le_mul_of_pos_left _ hj)]
      rw [hnext] at hlt ⊢
      exact ih h (j - 1) (by omega) hlt

/-- From the head of a free block of the largest order, with fuel enough
to pass the top of memory, the scan stops on its own: more fuel ends it
at the same place. Each block it passes records the largest order, so it
is a free block, in the segment and below `2 ^ 32`. -/
theorem OsVmPhysLargeAlloc.scan_add (h : BuddyOk s) (paEnd k : Nat) (fuel : Nat) :
    ∀ page, (page, VM_LIST_ORDER_MAX - 1) ∈ freeBlocks s → 2 ^ 20 ≤ page + fuel * 2 ^ 8 →
      scan s paEnd (fuel + k) (VM_PAGE_TO_PHYS page) = scan s paEnd fuel (VM_PAGE_TO_PHYS page) := by
  have hfits := s.fits
  have h256 : 2 ^ (VM_LIST_ORDER_MAX - 1) = 2 ^ 8 := rfl
  -- induction on the fuel, the block the scan is at moving with it
  induction fuel with
  | zero =>
    intro page hpage hbound
    have hinside := (h.inside _ hpage).2
    simp only [VmPhysArea.endPage, h256, PAGE_SIZE] at hinside
    omega
  | succ fuel ih =>
    intro page hpage hbound
    have hinside := (h.inside _ hpage).2
    simp only [VmPhysArea.endPage, h256] at hinside
    -- the next block's address is exact: the block found ends below the top
    have hnext : u32 (VM_PAGE_TO_PHYS page + (PAGE_SIZE <<< (VM_LIST_ORDER_MAX - 1))) =
        VM_PAGE_TO_PHYS (page + 2 ^ 8) := by
      rw [VM_PAGE_TO_PHYS_eq, VM_PAGE_TO_PHYS_eq, Nat.add_mul]
      unfold PAGE_SIZE at hinside ⊢
      exact u32_of_lt (by simp only [Nat.shiftLeft_eq, VM_LIST_ORDER_MAX]; omega)
    rw [Nat.add_right_comm, scan, scan]
    simp only [hnext]
    split_ifs with hstop hord
    · rfl
    · rfl
    · -- the next block records the largest order: a free block, scanned on from
      have hlo : s.start ≤ VM_PAGE_TO_PHYS (page + 2 ^ 8) := by omega
      have hat : s.pageAt (VM_PAGE_TO_PHYS (page + 2 ^ 8)) = page + 2 ^ 8 := by
        rw [s.pageAt_eq hlo, VM_PAGE_TO_PHYS_eq, Nat.mul_div_cancel _ (by decide)]
      rw [hat] at hord
      have hmem := h.order_mem _ (by rw [not_not.mp hord]; decide)
      rw [not_not.mp hord] at hmem
      exact ih (page + 2 ^ 8) hmem (by omega)

/-- The fuel `OsVmPhysLargeAlloc` gives its scan, `2 ^ 12` blocks, is
the loop's own end on lists that keep the invariant. -/
theorem OsVmPhysLargeAlloc.scan_enough (h : BuddyOk s) {paEnd page : Nat}
    (hpage : (page, VM_LIST_ORDER_MAX - 1) ∈ freeBlocks s) (k : Nat) :
    scan s paEnd (2 ^ 12 + k) (VM_PAGE_TO_PHYS page) = scan s paEnd (2 ^ 12) (VM_PAGE_TO_PHYS page) :=
  scan_add h paEnd k (2 ^ 12) page hpage (by omega)

/-- What `OsVmPhysLargeAlloc` returns on a request that does not wrap
round: the first of free blocks of the largest order, side by side, that
hold the request inside the segment. -/
theorem OsVmPhysLargeAlloc_spec (h : BuddyOk s) (hfit : s.start + s.size + n * PAGE_SIZE < 2 ^ 32) {page : Nat}
    (hpage : OsVmPhysLargeAlloc s n = some page) :
    page + n ≤ s.endPage ∧
      ∀ j, j * VM_ORDER_TO_PAGES (VM_LIST_ORDER_MAX - 1) < n →
        (page + j * VM_ORDER_TO_PAGES (VM_LIST_ORDER_MAX - 1), VM_LIST_ORDER_MAX - 1) ∈ freeBlocks s := by
  have hmem := List.mem_of_find?_eq_some hpage
  have hpred := List.find?_some hpage
  simp only [Bool.and_eq_true, decide_eq_true_eq] at hpred
  obtain ⟨hend, hscan⟩ := hpred
  have hs := s.start_page
  have hz := s.size_page
  have hblock : (page, VM_LIST_ORDER_MAX - 1) ∈ freeBlocks s := Buddy.mem_tagged.mpr ⟨by decide, hmem⟩
  -- the block found is in the segment, so the end of the run is exact
  have hin : page * PAGE_SIZE < s.start + s.size := by
    have hinside := (h.inside _ hblock).2
    simp only [VmPhysArea.endPage] at hinside
    change page + 256 ≤ (s.start + s.size) / 4096 at hinside
    unfold PAGE_SIZE
    omega
  have hrun : u32 (VM_PAGE_TO_PHYS page + u32 (n <<< PAGE_SHIFT)) = page * PAGE_SIZE + n * PAGE_SIZE := by
    have hsize : u32 (n <<< PAGE_SHIFT) = n * PAGE_SIZE := by
      have hbytes : n <<< PAGE_SHIFT = n * PAGE_SIZE := Nat.shiftLeft_eq n PAGE_SHIFT
      rw [hbytes]
      exact u32_of_lt (by omega)
    rw [hsize, VM_PAGE_TO_PHYS_eq]
    exact u32_of_lt (by omega)
  rw [hrun] at hend hscan
  rw [VM_PAGE_TO_PHYS_eq] at hscan
  have hbytes : VM_ORDER_TO_PAGES (VM_LIST_ORDER_MAX - 1) * PAGE_SIZE =
      PAGE_SIZE <<< (VM_LIST_ORDER_MAX - 1) := by
    rw [VM_ORDER_TO_PAGES, Nat.one_shiftLeft, Nat.shiftLeft_eq, Nat.mul_comm]
  refine ⟨?_, fun j hj => ?_⟩
  · -- the run's last byte is in the segment
    simp only [VmPhysArea.endPage]
    unfold PAGE_SIZE at hs hz hend ⊢
    omega
  rcases Nat.eq_zero_or_pos j with rfl | hj0
  · -- the first block is the one found on the list
    rw [Nat.zero_mul, Nat.add_zero]
    exact hblock
  · -- a later one: the scan passed it, so it records the largest order
    have hlt : page * PAGE_SIZE + j * (PAGE_SIZE <<< (VM_LIST_ORDER_MAX - 1)) <
        page * PAGE_SIZE + n * PAGE_SIZE := by
      rw [← hbytes, ← Nat.mul_assoc]
      have := Nat.mul_lt_mul_of_pos_right hj (by decide : 0 < PAGE_SIZE)
      omega
    obtain ⟨hlo, hhi, hord⟩ := OsVmPhysLargeAlloc.scan_spec s (by omega) _ _ hscan j hj0 hlt
    have hframe : s.pageAt (page * PAGE_SIZE + j * (PAGE_SIZE <<< (VM_LIST_ORDER_MAX - 1))) =
        page + j * VM_ORDER_TO_PAGES (VM_LIST_ORDER_MAX - 1) := by
      rw [s.pageAt_eq hlo, ← hbytes, ← Nat.mul_assoc, ← Nat.add_mul, Nat.mul_div_cancel _ (by decide)]
    rw [hframe] at hord
    have := h.order_mem _ (by rw [hord]; decide)
    rwa [hord] at this

-- ============================================================ DONE

/-- The loop at `DONE` takes `m` free blocks of order `K` side by side off
their lists, `m` the least count that reaches `pageEnd`. -/
theorem take_spec (K pageEnd : Nat) :
    ∀ (m : Nat) (s : VmPhysSeg) (tmp : Nat), BuddyOk s →
      (∀ j < m, (tmp + j * 2 ^ K, K) ∈ freeBlocks s) →
      pageEnd ≤ tmp + m * 2 ^ K → tmp + m * 2 ^ K < pageEnd + 2 ^ K →
      ∃ s', OsVmPhysPagesAlloc.take s K pageEnd tmp = some s' ∧ ListsOnly s s' ∧
        BuddyOk s' ∧ List.Perm (freePages s) (freePages s' ++ List.range' tmp (m * 2 ^ K)) := by
  intro m
  induction m with
  | zero =>
    intro s tmp h _ hend _
    refine ⟨s, ?_, ListsOnly.refl s, h, by simp⟩
    rw [OsVmPhysPagesAlloc.take, if_neg (by omega)]
  | succ m ih =>
    intro s tmp h hblocks hend hlast
    have hpos := Nat.two_pow_pos K
    have hfirst : (tmp, K) ∈ freeBlocks s := by simpa using hblocks 0 (Nat.succ_pos m)
    obtain ⟨s₁, hdel, harea₁, h₁, hperm₁⟩ := h.del hfirst
    -- the later blocks are still on their lists
    have hrest : ∀ j < m, (tmp + 2 ^ K + j * 2 ^ K, K) ∈ freeBlocks s₁ := by
      intro j hj
      have hin := hperm₁.mem_iff.mp (by
        have := hblocks (j + 1) (by omega)
        rwa [Nat.add_one_mul, ← Nat.add_assoc, Nat.add_right_comm] at this)
      rcases List.mem_append.mp hin with hin | hin
      · exact hin
      · have := (Prod.mk.inj (List.mem_singleton.mp hin)).1
        omega
    obtain ⟨s', htake, harea', h', hperm'⟩ :=
      ih s₁ (tmp + 2 ^ K) h₁ hrest (by rw [Nat.add_one_mul] at hend; omega)
        (by rw [Nat.add_one_mul] at hlast; omega)
    refine ⟨s', ?_, harea₁.trans harea', h', ?_⟩
    · rw [OsVmPhysPagesAlloc.take, if_pos (by rw [Nat.add_one_mul] at hlast; omega)]
      simp only [OsVmPhysFreeListDelUnsafe, hdel, VM_ORDER_TO_PAGES_eq]
      exact htake
    · -- the first block's pages, then the rest's, make the run
      calc List.Perm (freePages s) (freePages s₁ ++ List.range' tmp (2 ^ K)) := freePages_perm_of hperm₁
        List.Perm _ (freePages s' ++ List.range' (tmp + 2 ^ K) (m * 2 ^ K) ++ List.range' tmp (2 ^ K)) :=
          List.Perm.append_right _ hperm'
        List.Perm _ (freePages s' ++ List.range' tmp (2 ^ K) ++ List.range' (tmp + 2 ^ K) (m * 2 ^ K)) :=
          Buddy.perm_append_swap _ _ _
        _ = freePages s' ++ List.range' tmp ((m + 1) * 2 ^ K) := by
          rw [List.append_assoc, List.range'_append_1, Nat.add_one_mul, Nat.add_comm (m * 2 ^ K)]

/-- `OsVmPhysPagesSpiltUnsafe` of an unlisted block of `newOrder` down to
`oldOrder`: the upper halves go on their lists, and what stays unlisted
is the block of `oldOrder` at the same page. -/
theorem spilt_spec (page oldOrder : Nat) :
    ∀ (newOrder : Nat) (s : VmPhysSeg), oldOrder ≤ newOrder → BuddyOk s → Unlisted s page newOrder →
      ListsOnly s (OsVmPhysPagesSpiltUnsafe s page oldOrder newOrder) ∧
      BuddyOk (OsVmPhysPagesSpiltUnsafe s page oldOrder newOrder) ∧
      Unlisted (OsVmPhysPagesSpiltUnsafe s page oldOrder newOrder) page oldOrder ∧
      List.Perm (freePages (OsVmPhysPagesSpiltUnsafe s page oldOrder newOrder) ++
          List.range' page (2 ^ oldOrder))
        (freePages s ++ List.range' page (2 ^ newOrder)) := by
  intro newOrder
  induction newOrder with
  | zero =>
    intro s hle h hu
    obtain rfl : oldOrder = 0 := by omega
    exact ⟨ListsOnly.refl s, h, hu, List.Perm.refl _⟩
  | succ j ih =>
    intro s hle h hu
    rcases Nat.eq_or_lt_of_le hle with rfl | hlt
    · -- nothing left to split
      rw [OsVmPhysPagesSpiltUnsafe, if_neg (Nat.lt_irrefl _)]
      exact ⟨ListsOnly.refl s, h, hu, List.Perm.refl _⟩
    rw [OsVmPhysPagesSpiltUnsafe, if_pos hlt, OsVmPhysFreeListAddUnsafe, VM_ORDER_TO_PAGES_eq]
    have hpow : 2 ^ (j + 1) = 2 ^ j + 2 ^ j := by rw [Nat.pow_succ]; omega
    have hhalves : List.range' page (2 ^ (j + 1)) = List.range' page (2 ^ j) ++ List.range' (page + 2 ^ j) (2 ^ j) := by
      rw [hpow, List.range'_append_1]
    have hlow : 2 ^ j ∣ page := Nat.dvd_trans (Nat.pow_dvd_pow 2 (Nat.le_succ j)) hu.aligned
    -- the upper half is unlisted, and its buddy, the lower half, is not free
    have hup : Unlisted s (page + 2 ^ j) j :=
      ⟨by have := hu.order; omega, Nat.dvd_add hlow (Nat.dvd_refl _),
        ⟨by have := hu.inside.1; omega, by have := hu.inside.2; omega⟩,
        hu.apart.sublist (by rw [hhalves]; exact (List.sublist_append_right _ _).append_left _)⟩
    have hbuddy : (page + 2 ^ j) ^^^ 2 ^ j = page := by
      rcases Buddy.buddy_cases (Nat.dvd_add hlow (Nat.dvd_refl (2 ^ j))) with ⟨-, hm⟩ | ⟨hb, -⟩
      · -- the upper half is not aligned to the next order
        have hal : 2 ^ (j + 1) ∣ page + 2 ^ j := hm ▸ Buddy.dvd_merge _ j
        have : 2 ^ (j + 1) ∣ 2 ^ j := (Nat.dvd_add_right hu.aligned).mp hal
        exact absurd (Nat.le_of_dvd (Nat.two_pow_pos j) this) (by have := Nat.two_pow_pos j; omega)
      · omega
    have hnot : (page, j) ∉ freeBlocks s := fun hb =>
      hu.not_start hb ⟨le_rfl, by simp⟩
    have h₁ := h.add hup fun _ => by rw [hbuddy]; exact hnot
    have hacc₁ := freePages_add (s := s) (p := page + 2 ^ j) hup.order
    have hu₁ : Unlisted (OsVmPhysFreeListAdd s (page + 2 ^ j) j) page j := by
      refine ⟨by have := hu.order; omega, hlow, ?_, ?_⟩
      · rw [OsVmPhysFreeListAdd_area]
        exact ⟨hu.inside.1, by have := hu.inside.2; omega⟩
      refine (List.Perm.nodup_iff ?_).mpr hu.apart
      rw [hhalves, ← List.append_assoc]
      exact (List.Perm.append_right _ hacc₁).trans (Buddy.perm_append_swap _ _ _)
    obtain ⟨harea, h₂, hu₂, hacc₂⟩ := ih _ (by omega) h₁ hu₁
    refine ⟨ListsOnly.add.trans harea, h₂, hu₂, hacc₂.trans ?_⟩
    rw [hhalves, ← List.append_assoc]
    exact (List.Perm.append_right _ hacc₁).trans (Buddy.perm_append_swap _ _ _)

/-- `OsVmRecycleExtraPages` frees the pages of an unlisted run past the
request. -/
theorem recycle_spec (h : BuddyOk s) {page R : Nat} (hnR : n ≤ R)
    (hin : s.firstPage ≤ page ∧ page + R ≤ s.endPage) (hap : (freePages s ++ List.range' page R).Nodup) :
    ∃ s', OsVmRecycleExtraPages s (page + n) n R = some s' ∧ ListsOnly s s' ∧
      BuddyOk s' ∧ List.Perm (freePages s' ++ List.range' page n) (freePages s ++ List.range' page R) := by
  have hsplit : List.range' page R = List.range' page n ++ List.range' (page + n) (R - n) := by
    rw [List.range'_append_1, Nat.add_sub_cancel' hnR]
  rw [OsVmRecycleExtraPages]
  split
  · -- nothing past the request
    rename_i hge
    obtain rfl : R = n := by omega
    exact ⟨s, rfl, ListsOnly.refl s, h, List.Perm.refl _⟩
  · have hap' : (freePages s ++ List.range' (page + n) (R - n)).Nodup :=
      hap.sublist (by rw [hsplit]; exact (List.sublist_append_right _ _).append_left _)
    obtain ⟨s', hrun, harea, h', hacc⟩ :=
      free_contiguous_run_spec h (n := R - n) ⟨by omega, by omega⟩ hap'
    refine ⟨s', hrun, harea, h', ?_⟩
    rw [hsplit, ← List.append_assoc]
    exact (List.Perm.append_right _ hacc).trans (Buddy.perm_append_swap _ _ _)

/-- A split from an order at or below the one asked for splits nothing. -/
theorem spilt_of_le (s : VmPhysSeg) (page : Nat) {oldOrder newOrder : Nat} (h : newOrder ≤ oldOrder) :
    OsVmPhysPagesSpiltUnsafe s page oldOrder newOrder = s := by
  cases newOrder with
  | zero => rfl
  | succ j => rw [OsVmPhysPagesSpiltUnsafe, if_neg (by omega)]

-- ============================================================ the allocation

/-- What the search before `DONE` finds: `m` free blocks of one order
side by side from `page`, the least count that holds the request; one
block at or above the request's order, or above the largest order a run
of largest-order blocks. -/
theorem OsVmPhysPagesAlloc.find_spec (h : BuddyOk s) (hn : 0 < n) (hfit : LargeAllocFits s.toVmPhysArea n)
    {page K : Nat} (hfind : find s n = some (page, K)) :
    ∃ m, K < VM_LIST_ORDER_MAX ∧ n ≤ m * 2 ^ K ∧ m * 2 ^ K < n + 2 ^ K ∧
      (∀ j < m, (page + j * 2 ^ K, K) ∈ freeBlocks s) ∧
      (OsVmPagesToOrder n ≤ K → m = 1) ∧ (K < OsVmPagesToOrder n → K = VM_LIST_ORDER_MAX - 1) := by
  obtain ⟨hround, hleast⟩ := OsVmPagesToOrder_spec n hfit.le_two_pow
  unfold find at hfind
  dsimp only at hfind
  split at hfind
  · -- the lists from the request's order up
    rename_i hsmall
    obtain ⟨hle, hK, hmem⟩ := (search_spec s _).1 page K hfind
    have hpow : 2 ^ OsVmPagesToOrder n ≤ 2 ^ K := Nat.pow_le_pow_right (by decide) hle
    refine ⟨1, hK, by omega, by omega, fun j hj => ?_, fun _ => rfl, fun hlt => absurd hle (by omega)⟩
    obtain rfl : j = 0 := by omega
    rw [Nat.zero_mul, Nat.add_zero]
    exact Buddy.mem_tagged.mpr ⟨hK, hmem⟩
  · -- above the largest order: the blocks `OsVmPhysLargeAlloc` checked
    rename_i hlarge
    obtain ⟨page', hpage, heq⟩ := Option.map_eq_some_iff.mp hfind
    obtain ⟨rfl, rfl⟩ := Prod.mk.inj heq
    have h256 : 2 ^ (VM_LIST_ORDER_MAX - 1) = 256 := rfl
    have h256' : VM_ORDER_TO_PAGES (VM_LIST_ORDER_MAX - 1) = 256 := rfl
    -- the request is above the largest block, so it does not wrap round
    have hlarge' : VM_ORDER_TO_PAGES (VM_LIST_ORDER_MAX - 1) < n := by
      by_contra hle
      have := hleast (VM_LIST_ORDER_MAX - 1) (by rw [h256]; omega)
      have hmax : VM_LIST_ORDER_MAX = 9 := rfl
      omega
    obtain ⟨-, hblocks⟩ := OsVmPhysLargeAlloc_spec h (hfit hlarge') hpage
    rw [h256'] at hblocks
    refine ⟨(n + 255) / 256, by decide, by rw [h256]; omega, by rw [h256]; omega, fun j hj => ?_,
      fun hle => absurd hle (by have hmax : VM_LIST_ORDER_MAX = 9 := rfl; omega), fun _ => rfl⟩
    rw [h256]
    exact hblocks j (by omega)

/-- The split and the rounding at `DONE`: what stays out of the lists
is the run rounded up, `ROUNDUP(nPages, 1 << min(order, newOrder))`
pages from `page`. Below the largest order that is the request's block,
the split putting the rest of the block found back; above it, the blocks
taken, which the split leaves. -/
theorem spilt_round {s₁ : VmPhysSeg} (h₁ : BuddyOk s₁) (hn : 0 < n) {page K m : Nat}
    (hK : K < VM_LIST_ORDER_MAX) (hal : 2 ^ K ∣ page)
    (hin : s₁.firstPage ≤ page ∧ page + m * 2 ^ K ≤ s₁.endPage)
    (hap : (freePages s₁ ++ List.range' page (m * 2 ^ K)).Nodup)
    (hfit : n ≤ m * 2 ^ K) (hm : m * 2 ^ K < n + 2 ^ K)
    (hsmall : OsVmPagesToOrder n ≤ K → m = 1) (hlarge : K < OsVmPagesToOrder n → K = VM_LIST_ORDER_MAX - 1) :
    n ≤ ROUNDUP n (1 <<< min (OsVmPagesToOrder n) K) ∧
      ListsOnly s₁ (OsVmPhysPagesSpiltUnsafe s₁ page (OsVmPagesToOrder n) K) ∧
      BuddyOk (OsVmPhysPagesSpiltUnsafe s₁ page (OsVmPagesToOrder n) K) ∧
      page + ROUNDUP n (1 <<< min (OsVmPagesToOrder n) K) ≤ s₁.endPage ∧
      (freePages (OsVmPhysPagesSpiltUnsafe s₁ page (OsVmPagesToOrder n) K) ++
        List.range' page (ROUNDUP n (1 <<< min (OsVmPagesToOrder n) K))).Nodup ∧
      List.Perm (freePages (OsVmPhysPagesSpiltUnsafe s₁ page (OsVmPagesToOrder n) K) ++
          List.range' page (ROUNDUP n (1 <<< min (OsVmPagesToOrder n) K)))
        (freePages s₁ ++ List.range' page (m * 2 ^ K)) := by
  have hend := s₁.fits
  have hmax : VM_LIST_ORDER_MAX = 9 := rfl
  by_cases hle : OsVmPagesToOrder n ≤ K
  · -- one block, split down to the request's order
    obtain rfl := hsmall hle
    rw [Nat.one_mul] at hin hap hfit
    have hu : Unlisted s₁ page K := ⟨hK, hal, hin, hap⟩
    obtain ⟨harea, h₂, hu₂, hacc⟩ := spilt_spec page _ K s₁ hle h₁ hu
    -- the rounded size is the request's block
    have hK8 : 2 ^ K ≤ 2 ^ 8 := Nat.pow_le_pow_right (by decide) (by omega)
    obtain ⟨hfit', -⟩ := OsVmPagesToOrder_spec n (by omega)
    have hpow : 2 ^ OsVmPagesToOrder n ≤ 2 ^ 8 := Nat.pow_le_pow_right (by decide) (by omega)
    have hround : ROUNDUP n (1 <<< min (OsVmPagesToOrder n) K) = 2 ^ OsVmPagesToOrder n := by
      rw [min_eq_left hle, Nat.one_shiftLeft, ROUNDUP_two_pow (by omega) (by omega)]
      have hq : (n + (2 ^ OsVmPagesToOrder n - 1)) / 2 ^ OsVmPagesToOrder n = 1 :=
        Nat.div_eq_of_lt_le (by omega) (by omega)
      rw [hq, Nat.one_mul]
    rw [hround, Nat.one_mul]
    refine ⟨hfit', harea, h₂, ?_, hu₂.apart, hacc⟩
    have := hu₂.inside.2
    rwa [harea.area] at this
  · -- a run of largest-order blocks: nothing to split, rounded to the blocks
    have hK8 : K = 8 := by
      have := hlarge (by omega)
      rw [hmax] at this
      exact this
    subst hK8
    rw [spilt_of_le s₁ page (by omega), min_eq_right (by omega)]
    have hpages : s₁.endPage ≤ 2 ^ 20 := by
      simp only [VmPhysArea.endPage, PAGE_SIZE]
      omega
    have hround : ROUNDUP n (1 <<< 8) = m * 2 ^ 8 := by
      rw [Nat.one_shiftLeft, ROUNDUP_two_pow (by omega) (by decide)]
      have hq : (n + (2 ^ 8 - 1)) / 2 ^ 8 = m := Nat.div_eq_of_lt_le (by omega) (by omega)
      rw [hq]
    rw [hround]
    exact ⟨hfit, ListsOnly.refl s₁, h₁, hin.2, hap, List.Perm.refl _⟩

/-- `OsVmPhysPagesAlloc` of some pages never panics and keeps the
invariant. A page it returns starts a run of the pages asked for inside
the segment, aligned to the request's order (at most the largest), all
of them free before, and the run is exactly what the lists lose; `NULL`
leaves the lists as they were. -/
theorem OsVmPhysPagesAlloc_spec (h : BuddyOk s) (hn : 0 < n) (hfit : LargeAllocFits s.toVmPhysArea n) :
    ∃ r s', OsVmPhysPagesAlloc s n = some (r, s') ∧ ListsOnly s s' ∧ BuddyOk s' ∧
      (r = none → s' = s) ∧
      ∀ page, r = some page → s.firstPage ≤ page ∧ page + n ≤ s.endPage ∧
        2 ^ min (OsVmPagesToOrder n) (VM_LIST_ORDER_MAX - 1) ∣ page ∧
        List.Perm (freePages s) (freePages s' ++ List.range' page n) := by
  rcases hfind : OsVmPhysPagesAlloc.find s n with _ | ⟨page, K⟩
  · -- `NULL`
    refine ⟨none, s, ?_, ListsOnly.refl s, h, fun _ => rfl, fun _ hp => nomatch hp⟩
    simp only [OsVmPhysPagesAlloc, hfind]
  obtain ⟨m, hK, hfit, hm, hblocks, hsmall, hlarge⟩ := OsVmPhysPagesAlloc.find_spec h hn hfit hfind
  have hpos := Nat.two_pow_pos K
  have hm0 : 0 < m := by
    rcases Nat.eq_zero_or_pos m with rfl | hm0
    · omega
    · exact hm0
  -- the run of blocks lies in the segment, from the first block to the last
  have hfirst := hblocks 0 hm0
  have hlast := hblocks (m - 1) (by omega)
  rw [Nat.zero_mul, Nat.add_zero] at hfirst
  have hin : s.firstPage ≤ page ∧ page + m * 2 ^ K ≤ s.endPage := by
    have h1 := (h.inside _ hfirst).1
    have h2 := (h.inside _ hlast).2
    have : (m - 1) * 2 ^ K + 2 ^ K = m * 2 ^ K := by
      rw [← Nat.succ_mul, Nat.succ_eq_add_one, Nat.sub_add_cancel hm0]
    exact ⟨h1, by simp only at h2; omega⟩
  -- take the blocks, split and round, give the rest back
  obtain ⟨s₁, htake, harea₁, h₁, hacc₁⟩ := take_spec K (page + n) m s page h hblocks (by omega) (by omega)
  have hap₁ : (freePages s₁ ++ List.range' page (m * 2 ^ K)).Nodup := hacc₁.nodup_iff.mp h.disjoint
  obtain ⟨hnR, harea₂, h₂, hR, hap₂, hacc₂⟩ := spilt_round h₁ hn hK (h.merged.aligned _ hfirst)
    (by rw [harea₁.area]; exact hin) hap₁ hfit hm hsmall hlarge
  obtain ⟨s₃, hrec, harea₃, h₃, hacc₃⟩ := recycle_spec h₂ hnR
    ⟨by rw [harea₂.area, harea₁.area]; exact hin.1, by rw [harea₂.area]; exact hR⟩ hap₂
  refine ⟨some page, s₃, ?_, harea₁.trans (harea₂.trans harea₃), h₃, (fun hp => nomatch hp), ?_⟩
  · simp only [OsVmPhysPagesAlloc, hfind, htake, hrec]
  · rintro _ ⟨⟩
    -- the run starts at the first block taken, aligned to its order
    have hmin : min (OsVmPagesToOrder n) (VM_LIST_ORDER_MAX - 1) ≤ K := by
      by_cases hle : OsVmPagesToOrder n ≤ K
      · exact le_trans (min_le_left _ _) hle
      · rw [hlarge (by omega)]
        exact min_le_right _ _
    refine ⟨hin.1, by omega, Nat.dvd_trans (Nat.pow_dvd_pow 2 hmin) (h.merged.aligned _ hfirst), ?_⟩
    exact hacc₁.trans (hacc₂.symm.trans hacc₃.symm)

/-- `OsVmPhysPagesAlloc` returns `NULL` only when its search does. -/
theorem OsVmPhysPagesAlloc.find_eq_none {s' : VmPhysSeg} (h : OsVmPhysPagesAlloc s n = some (none, s')) :
    find s n = none := by
  unfold OsVmPhysPagesAlloc at h
  dsimp only at h
  split at h
  · assumption
  · -- every way through `DONE` returns the page or panics
    split at h
    · cases h
    · split at h <;> cases h

/-- Below the largest order, `OsVmPhysPagesAlloc` returns `NULL` only if
no run of pages aligned to the request's order and as long as its block
is wholly free: the lists, merged, hold any such run in one block, and
the search would have found it. -/
theorem alloc_null_no_free_run (h : BuddyOk s) {s' : VmPhysSeg}
    (horder : OsVmPagesToOrder n < VM_LIST_ORDER_MAX) (hnull : OsVmPhysPagesAlloc s n = some (none, s')) :
    ∀ a, 2 ^ OsVmPagesToOrder n ∣ a →
      ∃ x, a ≤ x ∧ x < a + 2 ^ OsVmPagesToOrder n ∧ x ∉ freePages s := by
  intro a hal
  by_contra hnone
  have hall : ∀ x, a ≤ x → x < a + 2 ^ OsVmPagesToOrder n → x ∈ freePages s :=
    fun x hx hx' => by_contra fun hx'' => hnone ⟨x, hx, hx', hx''⟩
  have hsearch : OsVmPhysPagesAlloc.search s (OsVmPagesToOrder n) = none := by
    have := OsVmPhysPagesAlloc.find_eq_none hnull
    unfold OsVmPhysPagesAlloc.find at this
    rwa [if_pos horder] at this
  -- the merged lists hold the run in one block, of an order the search looks at
  obtain ⟨b, hb, hlo, hhi⟩ := Buddy.covered_inside h.merged (OsVmPagesToOrder n) a (by omega) hal
    fun x hx hx' => mem_blockPages.mp (hall x hx hx')
  have hbig : OsVmPagesToOrder n ≤ b.2 := by
    by_contra hlt
    have : 2 ^ b.2 < 2 ^ OsVmPagesToOrder n := Nat.pow_lt_pow_right (by decide) (by omega)
    omega
  obtain ⟨hbk, hbmem⟩ := Buddy.mem_tagged.mp hb
  have hempty := (OsVmPhysPagesAlloc.search_spec s _).2 hsearch b.2 hbig hbk
  rw [hempty] at hbmem
  exact List.not_mem_nil hbmem

/-- Below the largest order, lists empty from the request's order up
give `NULL`. -/
theorem OsVmPhysPagesAlloc_of_empty (horder : OsVmPagesToOrder n < VM_LIST_ORDER_MAX)
    (h : ∀ k, OsVmPagesToOrder n ≤ k → k < VM_LIST_ORDER_MAX → s.freeList k = []) :
    OsVmPhysPagesAlloc s n = some (none, s) := by
  have hfind : OsVmPhysPagesAlloc.find s n = none := by
    unfold OsVmPhysPagesAlloc.find
    dsimp only
    rw [if_pos horder]
    refine List.findSome?_eq_none_iff.mpr fun k hk => ?_
    rw [List.mem_range'_1] at hk
    simp [h k hk.1 (by omega)]
  simp only [OsVmPhysPagesAlloc, hfind]

/-- An area of 256 pages at 1 GiB. -/
def sampleArea : VmPhysArea := ⟨0x40000000, 0x100000, rfl, rfl, by decide⟩

/-- An area of 128 pages at 1 GiB: no block of the largest order fits. -/
def smallArea : VmPhysArea := ⟨0x40000000, 0x80000, rfl, rfl, by decide⟩

/-- After `OsVmPageStartup` of 128 pages every page is free, and 256 of
them are `NULL`: no run of 256 pages is free. -/
theorem alloc_null_no_free_run_small :
    ∃ s, OsVmPageStartup smallArea = some s ∧ BuddyOk s ∧ OsVmPagesToOrder 256 < VM_LIST_ORDER_MAX ∧
      OsVmPhysPagesAlloc s 256 = some (none, s) ∧
      ∀ a, 2 ^ OsVmPagesToOrder 256 ∣ a →
        ∃ x, a ≤ x ∧ x < a + 2 ^ OsVmPagesToOrder 256 ∧ x ∉ freePages s := by
  obtain ⟨s, hs, harea, h, -⟩ := OsVmPageStartup_spec smallArea
  obtain ⟨hfit, hleast⟩ := OsVmPagesToOrder_spec 256 (by decide)
  have hfit' : 2 ^ 8 ≤ 2 ^ OsVmPagesToOrder 256 := hfit
  have horder : OsVmPagesToOrder 256 = 8 :=
    le_antisymm (hleast 8 (by decide)) ((Nat.pow_le_pow_iff_right (by decide)).mp hfit')
  -- a block of 256 pages does not fit in the area
  have hempty : ∀ k, OsVmPagesToOrder 256 ≤ k → k < VM_LIST_ORDER_MAX → s.freeList k = [] := by
    intro k hk hk'
    obtain rfl : k = 8 := by
      unfold VM_LIST_ORDER_MAX at hk'
      omega
    refine List.eq_nil_iff_forall_not_mem.mpr fun p hp => ?_
    have hinside := h.inside _ (Buddy.mem_tagged.mpr ⟨by decide, hp⟩)
    rw [harea] at hinside
    change 0x40000 ≤ p ∧ p + 2 ^ 8 ≤ 0x40080 at hinside
    omega
  have hlt : OsVmPagesToOrder 256 < VM_LIST_ORDER_MAX := by
    rw [horder]
    decide
  have hnull := OsVmPhysPagesAlloc_of_empty hlt hempty
  exact ⟨s, hs, h, hlt, hnull, alloc_null_no_free_run h hlt hnull⟩

end LiteOsA.Vm
