/-
Freeing pages to the buddy lists (kernel/base/vm/los_vm_phys.c): what
`OsVmPhysPagesFree`, `OsVmPhysPagesFreeContiguous` and
`OsVmPageStartup` do to the lists.

# The merge loop

The loop of `OsVmPhysPagesFree` carries a block that is free but on no
list (`Unlisted`). Each pass looks at its buddy: a page of the segment
that records the block's order is, by `BuddyOk`, the start of a free
block of that order, so it leaves its list and the two halves make the
unlisted block of the next order (`Unlisted.merge`); anything else
ends the loop, and then the buddy is not free. So the block the loop
ends with may go on its list without breaking "no two free buddies"
(`merge_spec`), and the pages the lists gain are the block's
(`OsVmPhysPagesFree_spec`).

# Runs

`OsVmPhysPagesFreeContiguous` cuts a run into aligned blocks of the
lists' orders (`OsVmPhysPagesFreeContiguous_blocks`), so freeing a run
of pages inside the segment that are not free keeps the invariant and
adds exactly the run's pages, whatever the merges did
(`free_contiguous_run_spec`). `OsVmPageStartup` is that, on empty lists
and the whole area.
-/
import LiteOsA.Vm.Proofs.BuddyLists

namespace LiteOsA.Vm

variable {s : VmPhysSeg} {p k : Nat}

-- ============================================================ one merge

/-- An unlisted block and its free buddy, taken off its list, make the
unlisted block of the next order, with the same pages. -/
theorem Unlisted.merge {s' : VmPhysSeg} (h : BuddyOk s) (hu : Unlisted s p k)
    (hb : (p ^^^ 2 ^ k, k) ∈ freeBlocks s) (hk : k < VM_LIST_ORDER_MAX - 1)
    (harea : s'.toVmPhysArea = s.toVmPhysArea)
    (hperm : List.Perm (freeBlocks s) (freeBlocks s' ++ [(p ^^^ 2 ^ k, k)])) :
    Unlisted s' (p / 2 ^ (k + 1) * 2 ^ (k + 1)) (k + 1) ∧
      List.Perm (freePages s' ++ List.range' (p / 2 ^ (k + 1) * 2 ^ (k + 1)) (2 ^ (k + 1)))
        (freePages s ++ List.range' p (2 ^ k)) := by
  have hpages : List.Perm (freePages s' ++ List.range' p (2 ^ k) ++ List.range' (p ^^^ 2 ^ k) (2 ^ k))
      (freePages s ++ List.range' p (2 ^ k)) :=
    (Buddy.perm_append_swap _ _ _).trans (List.Perm.append_right _ (freePages_perm_of hperm).symm)
  have hacc : List.Perm (freePages s' ++ List.range' (p / 2 ^ (k + 1) * 2 ^ (k + 1)) (2 ^ (k + 1)))
      (freePages s ++ List.range' p (2 ^ k)) := by
    refine List.Perm.trans ?_ hpages
    rw [List.append_assoc]
    exact List.Perm.append_left _ (Buddy.range'_merge_perm hu.aligned)
  have hqin := h.inside _ hb
  have hpow : 2 ^ (k + 1) = 2 ^ k + 2 ^ k := by rw [Nat.pow_succ]; omega
  have hinside : s.firstPage ≤ p / 2 ^ (k + 1) * 2 ^ (k + 1) ∧
      p / 2 ^ (k + 1) * 2 ^ (k + 1) + 2 ^ (k + 1) ≤ s.endPage := by
    -- the merged block is the lower of the two halves, and ends where the upper one does
    rcases Buddy.buddy_cases hu.aligned with ⟨hq, hm⟩ | ⟨hq, hm⟩
    · rw [hm, hpow]
      exact ⟨hu.inside.1, by simp only at hqin; omega⟩
    · rw [hm, hpow]
      exact ⟨hqin.1, by have := hu.inside.2; omega⟩
  refine ⟨⟨by omega, Buddy.dvd_merge p k, by rw [harea]; exact hinside, ?_⟩, hacc⟩
  exact hacc.nodup_iff.mpr hu.apart

-- ============================================================ the merge loop

/-- The merge loop of `OsVmPhysPagesFree`, from an unlisted block below
the largest order: it takes free buddies off their lists and ends with
an unlisted block whose buddy is not free (or of the largest order), and
the same pages are free or unlisted before and after. -/
theorem merge_spec (s : VmPhysSeg) (p k : Nat) (h : BuddyOk s) (hu : Unlisted s p k)
    (hk : k < VM_LIST_ORDER_MAX - 1) :
    ∃ s' p' k', OsVmPhysPagesFree.merge s p k (VM_PAGE_TO_PHYS p) = some (s', p', k') ∧
      ListsOnly s s' ∧ BuddyOk s' ∧ Unlisted s' p' k' ∧
      (k' < VM_LIST_ORDER_MAX - 1 → (p' ^^^ 2 ^ k', k') ∉ freeBlocks s') ∧
      List.Perm (freePages s' ++ List.range' p' (2 ^ k')) (freePages s ++ List.range' p (2 ^ k)) := by
  rw [OsVmPhysPagesFree.merge]
  simp only [VM_PAGE_TO_PHYS_xor, OsVmPhysToPage_frame]
  -- the loop stops with the block as it is
  have hstop : (p ^^^ 2 ^ k, k) ∉ freeBlocks s →
      ∃ s' p' k', some (s, p, k) = some (s', p', k') ∧
        ListsOnly s s' ∧ BuddyOk s' ∧ Unlisted s' p' k' ∧
        (k' < VM_LIST_ORDER_MAX - 1 → (p' ^^^ 2 ^ k', k') ∉ freeBlocks s') ∧
        List.Perm (freePages s' ++ List.range' p' (2 ^ k')) (freePages s ++ List.range' p (2 ^ k)) :=
    fun hnot => ⟨s, p, k, rfl, ListsOnly.refl s, h, hu, fun _ => hnot, List.Perm.refl _⟩
  by_cases hin : s.firstPage ≤ p ^^^ 2 ^ k ∧ p ^^^ 2 ^ k < s.endPage
  swap
  · -- the buddy's address is outside the segment, so is its block
    rw [if_neg hin]
    have hpos := Nat.two_pow_pos k
    exact hstop fun hb => hin ⟨(h.inside _ hb).1, by have := (h.inside _ hb).2; simp at this ⊢; omega⟩
  rw [if_pos hin]
  by_cases hord : (s.pages (p ^^^ 2 ^ k)).order = k
  swap
  · -- the buddy records another order: it starts no free block of this one
    simp only [if_pos hord]
    exact hstop fun hb => hord (h.mem_order _ hb)
  -- the buddy is free: it leaves its list and the halves merge
  have hb : (p ^^^ 2 ^ k, k) ∈ freeBlocks s := by
    have := h.order_mem (p ^^^ 2 ^ k) (by rw [hord]; exact hu.order)
    rwa [hord] at this
  obtain ⟨s', hdel, harea, h', hperm⟩ := h.del hb
  obtain ⟨hu', hacc⟩ := hu.merge h hb hk harea.area hperm
  have hm : (p ^^^ 2 ^ k) / 2 ^ (k + 1) * 2 ^ (k + 1) = p / 2 ^ (k + 1) * 2 ^ (k + 1) := by
    rcases Buddy.buddy_cases hu.aligned with ⟨hq, hm⟩ | ⟨hq, hm⟩
    · -- `p` is the lower half, and the upper half's quotient is the same
      have hqal := Buddy.buddy_cases (Buddy.dvd_xor_two_pow hu.aligned)
      rw [Nat.xor_assoc, Nat.xor_self, Nat.xor_zero] at hqal
      rcases hqal with ⟨hq', -⟩ | ⟨-, hm'⟩
      · have := Nat.two_pow_pos k
        omega
      · rw [hm', hm]
    · -- the buddy is the lower half, aligned to the next order
      rw [hm]
      exact Nat.div_mul_cancel (hm ▸ Buddy.dvd_merge p k)
  have hqaddr : VM_PAGE_TO_PHYS (p ^^^ 2 ^ k) < 2 ^ 32 := by
    have hfits := s.fits
    have hs := s.start_page
    rw [VM_PAGE_TO_PHYS_eq]
    have := hin.2
    simp only [VmPhysArea.endPage] at this
    unfold PAGE_SIZE at hs this ⊢
    omega
  simp only [if_neg (not_not.mpr hord), hdel, VM_PAGE_TO_PHYS_mask (k := k) hqaddr (by omega), hm,
    OsVmPhysToPage_frame, if_pos (show s'.firstPage ≤ p / 2 ^ (k + 1) * 2 ^ (k + 1) ∧
      p / 2 ^ (k + 1) * 2 ^ (k + 1) < s'.endPage from
      ⟨hu'.inside.1, by have := hu'.inside.2; have := Nat.two_pow_pos (k + 1); omega⟩)]
  split
  · -- the loop goes on at the next order
    rename_i hnext
    obtain ⟨s'', p'', k'', hrun, harea', h'', hu'', hnot, hacc'⟩ :=
      merge_spec s' (p / 2 ^ (k + 1) * 2 ^ (k + 1)) (k + 1) h' hu' hnext
    exact ⟨s'', p'', k'', hrun, harea.trans harea', h'', hu'', hnot, hacc'.trans hacc⟩
  · -- the merged block has the largest order
    rename_i hlast
    exact ⟨s', _, k + 1, rfl, harea, h', hu', fun hlt => absurd hlt hlast, hacc⟩
termination_by VM_LIST_ORDER_MAX - 1 - k

-- ============================================================ one block

/-- `OsVmPhysPagesFree` of an unlisted block: no panic, the invariant
holds, and the lists gain the block's pages. -/
theorem OsVmPhysPagesFree_spec (h : BuddyOk s) (hu : Unlisted s p k) :
    ∃ s', OsVmPhysPagesFree s p k = some s' ∧ ListsOnly s s' ∧ BuddyOk s' ∧
      List.Perm (freePages s') (freePages s ++ List.range' p (2 ^ k)) := by
  rw [OsVmPhysPagesFree, if_neg (by have := hu.order; omega)]
  split
  · -- below the largest order the block merges first
    rename_i hk
    obtain ⟨s', p', k', hrun, harea, h', hu', hnot, hacc⟩ := merge_spec s p k h hu hk
    rw [hrun]
    exact ⟨_, rfl, harea.trans ListsOnly.add, h'.add hu' hnot, (freePages_add hu'.order).trans hacc⟩
  · -- a block of the largest order has no buddy to merge with
    rename_i hk
    exact ⟨_, rfl, ListsOnly.add, h.add hu fun hlt => absurd hlt hk, freePages_add hu.order⟩

-- ============================================================ runs

/-- Freeing blocks one after the other, as `OsVmPhysPagesFreeContiguous`
does: the lists gain their pages, if the blocks are of the lists'
orders, aligned, inside the segment and apart from the free pages. -/
theorem free_blocks_spec : ∀ (bs : List (Nat × Nat)) (s : VmPhysSeg), BuddyOk s →
    (∀ b ∈ bs, BuddyBlock b) → (∀ x ∈ blockPages bs, s.firstPage ≤ x ∧ x < s.endPage) →
    (freePages s ++ blockPages bs).Nodup →
    ∃ s', bs.foldlM (fun s b => OsVmPhysPagesFree s b.1 b.2) s = some s' ∧
      ListsOnly s s' ∧ BuddyOk s' ∧
      List.Perm (freePages s') (freePages s ++ blockPages bs)
  | [], s, h, _, _, _ => ⟨s, rfl, ListsOnly.refl s, h, by simp⟩
  | b :: bs, s, h, hbs, hin, hap => by
    rw [blockPages_cons] at hin hap
    obtain ⟨hbk, hbal⟩ := hbs b (List.mem_cons_self ..)
    have hpos := Nat.two_pow_pos b.2
    -- the block is unlisted: its first and last pages are in the segment
    have hfirst := hin b.1 (List.mem_append_left _ (by simp [hpos]))
    have hlast := hin (b.1 + 2 ^ b.2 - 1) (List.mem_append_left _ (by simp; omega))
    have hu : Unlisted s b.1 b.2 :=
      ⟨by have := VM_LIST_ORDER_MAX; unfold VM_LIST_ORDER_MAX at hbk ⊢; omega, hbal,
        ⟨hfirst.1, by omega⟩,
        hap.sublist (by rw [← List.append_assoc]; exact List.sublist_append_left _ _)⟩
    obtain ⟨s₁, hfree, harea₁, h₁, hacc₁⟩ := OsVmPhysPagesFree_spec h hu
    have hap₁ : (freePages s₁ ++ blockPages bs).Nodup := by
      refine (List.Perm.nodup_iff ?_).mpr hap
      rw [← List.append_assoc]
      exact List.Perm.append_right _ hacc₁
    obtain ⟨s', hrun, harea', h', hacc'⟩ := free_blocks_spec bs s₁ h₁
      (fun b' hb' => hbs b' (List.mem_cons_of_mem _ hb'))
      (fun x hx => by rw [harea₁.area]; exact hin x (List.mem_append_right _ hx)) hap₁
    refine ⟨s', ?_, harea₁.trans harea', h', ?_⟩
    · rw [List.foldlM_cons, hfree]
      exact hrun
    · rw [blockPages_cons, ← List.append_assoc]
      exact hacc'.trans (List.Perm.append_right _ hacc₁)

/-- `OsVmPhysPagesFreeContiguous` of a run of pages inside the segment
none of which is free: it never panics, keeps the invariant, and the
pages the lists gain are exactly the run's. -/
theorem free_contiguous_run_spec (h : BuddyOk s) {n : Nat}
    (hin : s.firstPage ≤ p ∧ p + n ≤ s.endPage) (hap : (freePages s ++ List.range' p n).Nodup) :
    ∃ s', OsVmPhysPagesFreeContiguous.run s p n = some s' ∧ ListsOnly s s' ∧
      BuddyOk s' ∧ List.Perm (freePages s') (freePages s ++ List.range' p n) := by
  obtain ⟨hblocks, hpages⟩ := OsVmPhysPagesFreeContiguous_blocks p n
  rw [← hpages] at hap ⊢
  refine free_blocks_spec _ s h hblocks (fun x hx => ?_) hap
  rw [hpages, List.mem_range'_1] at hx
  omega

-- ============================================================ startup

theorem freeBlocks_startup_seg (a : VmPhysArea) : freeBlocks (OsVmPageStartup.seg a) = [] := by
  refine List.eq_nil_iff_forall_not_mem.mpr fun ⟨x, j⟩ hb => ?_
  simp [freeBlocks, OsVmPageStartup.seg] at hb

/-- The lists before `OsVmPageOrderListInit`: empty, with every page
initialised. -/
theorem BuddyOk_startup_seg (a : VmPhysArea) : BuddyOk (OsVmPageStartup.seg a) := by
  have hnil := freeBlocks_startup_seg a
  refine ⟨by simp [hnil], fun f hf => ?_, fun _ => rfl, by simp [hnil], by simp [freePages, hnil],
    ⟨by simp [hnil], by simp [hnil]⟩⟩
  -- every page records the largest order
  simp [OsVmPageStartup.seg, OsVmPageInit] at hf

/-- After `OsVmPageStartup` the lists hold every page of the area, each
once, the invariant holds, and no page has a reference. -/
theorem OsVmPageStartup_spec (a : VmPhysArea) :
    ∃ s, OsVmPageStartup a = some s ∧ s.toVmPhysArea = a ∧ BuddyOk s ∧
      List.Perm (freePages s) (List.range' a.firstPage (a.endPage - a.firstPage)) ∧
      ∀ p, (s.pages p).refCounts = 0 := by
  have hs := a.start_page
  have hz := a.size_page
  have hfirst : a.start >>> PAGE_SHIFT = a.firstPage := by
    rw [Nat.shiftRight_eq_div_pow]
    rfl
  have hcount : a.size >>> PAGE_SHIFT = a.endPage - a.firstPage := by
    rw [Nat.shiftRight_eq_div_pow]
    change a.size / PAGE_SIZE = (a.start + a.size) / PAGE_SIZE - a.start / PAGE_SIZE
    unfold PAGE_SIZE at hs hz ⊢
    omega
  have hempty : freePages (OsVmPageStartup.seg a) = [] := by
    rw [freePages, freeBlocks_startup_seg, blockPages_nil]
  have hle : a.firstPage ≤ a.endPage := Nat.div_le_div_right (by omega)
  obtain ⟨s, hrun, harea, h, hacc⟩ := free_contiguous_run_spec (BuddyOk_startup_seg a)
    (p := a.firstPage) (n := a.endPage - a.firstPage)
    ⟨le_rfl, by change a.firstPage + (a.endPage - a.firstPage) ≤ a.endPage; omega⟩
    (by rw [hempty]; exact List.nodup_range')
  rw [hempty, List.nil_append] at hacc
  exact ⟨s, by rw [OsVmPageStartup, hfirst, hcount]; exact hrun, harea.area, h, hacc, fun p => harea.refCounts p⟩

end LiteOsA.Vm
