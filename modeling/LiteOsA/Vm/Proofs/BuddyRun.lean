/-
The physical page allocator over whole runs (kernel/base/vm/los_vm_phys.c).

A client of the allocator calls `LOS_PhysPagesAllocContiguous`,
`LOS_PhysPagesFreeContiguous`, `LOS_PhysPageAlloc` and
`LOS_PhysPageFree`, in any order, after `OsVmPageStartup`. It frees
only what it holds: a run it got, with the count it asked for, or a
single page it got with the one reference `OsVmPhysPagesGet` gives it.
`PhysSys` is the segment beside the runs the client holds (a ghost of
the client's pointers); a call the client cannot make (a run it does
not hold) is no call.

`PhysSys.Ok` is the invariant of the whole system: the lists keep
`BuddyOk`, the free pages and the held runs share out the area's pages,
each page once, and the first page of a held run records the run's
length and no reference. Each call whose request does not wrap round
(`PhysCall.Fits`) keeps it and never panics (`PhysSys.Ok.step`), so from
startup no sequence of such calls ever panics, double hands out a page
or loses one (`phys_pages_run_ok`).
-/
import LiteOsA.Vm.Proofs.BuddyAlloc
import Mathlib.Data.List.Perm.Basic

namespace LiteOsA.Vm

/-- A call of the client; a run it frees is named by its place among the
runs it holds. -/
inductive PhysCall
  | allocContiguous (nPages : Nat)
  | freeContiguous (i : Nat)
  | pageAlloc
  | pageFree (i : Nat)

/-- A call the allocator computes without a wrap: a run above the
largest block keeps its bytes past the area below `2 ^ 32`. -/
def PhysCall.Fits (a : VmPhysArea) : PhysCall → Prop
  | .allocContiguous n => LargeAllocFits a n
  | .freeContiguous _ | .pageAlloc | .pageFree _ => True

instance (a : VmPhysArea) : (c : PhysCall) → Decidable (c.Fits a)
  | .allocContiguous n => inferInstanceAs (Decidable (LargeAllocFits a n))
  | .freeContiguous _ | .pageAlloc | .pageFree _ => instDecidableTrue

/-- The segment, and the runs the client holds: first page and count. -/
structure PhysSys where
  seg : VmPhysSeg
  held : List (Nat × Nat)

/-- The pages of the held runs. -/
def heldPages (held : List (Nat × Nat)) : List Nat :=
  held.flatMap fun r => List.range' r.1 r.2

namespace PhysSys

/-- An allocation's result, with the run it hands out held. -/
def got (t : PhysSys) (n : Nat) : Option (Option Nat × VmPhysSeg) → Option PhysSys
  | none => none
  | some (none, seg) => some { seg, held := t.held }
  | some (some page, seg) => some { seg, held := (page, n) :: t.held }

/-- One call; `none` is a panic. -/
def step (t : PhysSys) : PhysCall → Option PhysSys
  | .allocContiguous n => t.got n (LOS_PhysPagesAllocContiguous t.seg n)
  | .freeContiguous i =>
    match t.held[i]? with
    | none => some t
    | some (page, n) =>
      (LOS_PhysPagesFreeContiguous t.seg (VM_PAGE_TO_PHYS page) n).map fun seg =>
        { seg, held := t.held.eraseIdx i }
  | .pageAlloc => t.got ONE_PAGE (LOS_PhysPageAlloc t.seg)
  | .pageFree i =>
    match t.held[i]? with
    | some (page, 1) =>
      (LOS_PhysPageFree t.seg page).map fun seg => { seg, held := t.held.eraseIdx i }
    | _ => some t

/-- Startup, then the calls in turn. -/
def run (a : VmPhysArea) (calls : List PhysCall) : Option PhysSys :=
  (OsVmPageStartup a).bind fun seg => calls.foldlM step { seg, held := [] }

/-- The invariant of the allocator and its client. -/
structure Ok (t : PhysSys) : Prop where
  lists : BuddyOk t.seg
  /-- Free and held, every page of the area once. -/
  partition : List.Perm (freePages t.seg ++ heldPages t.held)
    (List.range' t.seg.firstPage (t.seg.endPage - t.seg.firstPage))
  nonempty : ∀ r ∈ t.held, 0 < r.2
  /-- The first page of a held run records it, with no reference. -/
  head : ∀ r ∈ t.held, (t.seg.pages r.1).nPages = r.2 ∧ (t.seg.pages r.1).refCounts = 0

end PhysSys

open PhysSys

section Calls

variable {t : PhysSys}

theorem heldPages_cons (r : Nat × Nat) (held : List (Nat × Nat)) :
    heldPages (r :: held) = List.range' r.1 r.2 ++ heldPages held := rfl

/-- A held run, and the runs held besides it. -/
theorem heldPages_eraseIdx {held : List (Nat × Nat)} {i : Nat} {r : Nat × Nat} (hi : held[i]? = some r) :
    List.Perm (heldPages held) (List.range' r.1 r.2 ++ heldPages (held.eraseIdx i)) := by
  obtain ⟨hlt, hr⟩ := List.getElem?_eq_some_iff.mp hi
  have hperm := List.getElem_cons_eraseIdx_perm hlt
  rw [hr] at hperm
  exact (List.Perm.flatMap_right _ hperm).symm

theorem PhysSys.Ok.nodup (ht : Ok t) : (freePages t.seg ++ heldPages t.held).Nodup :=
  ht.partition.nodup_iff.mpr List.nodup_range'

/-- A page of the area is free or held, not both. -/
theorem PhysSys.Ok.not_free_of_held (ht : Ok t) {x : Nat} (hx : x ∈ heldPages t.held) : x ∉ freePages t.seg :=
  fun hfree => (List.nodup_append.mp ht.nodup).2.2 x hfree x hx rfl

/-- The first page of a held run. -/
theorem head_mem_heldPages {held : List (Nat × Nat)} {r : Nat × Nat} (hr : r ∈ held) (hpos : 0 < r.2) :
    r.1 ∈ heldPages held :=
  List.mem_flatMap.mpr ⟨r, hr, List.mem_range'_1.mpr ⟨le_rfl, by omega⟩⟩

/-- `OsVmVaddrToPage` and `OsVmPhysToPage` agree on the one segment. -/
theorem OsVmVaddrToPage_eq (s : VmPhysSeg) (pa : Nat) : OsVmVaddrToPage s pa = OsVmPhysToPage s pa := by
  unfold OsVmVaddrToPage OsVmPhysToPage
  by_cases hin : pa ≥ s.start ∧ pa < s.start + s.size
  · rw [if_pos hin, if_neg (by omega)]
  · rw [if_neg hin, if_pos (by omega)]

/-- `OsVmPhysPagesGet` of `n > 0` pages: `OsVmPhysPagesAlloc`, and the
first page of the run it hands out records the run with no reference;
no other page's run length or references change. -/
theorem OsVmPhysPagesGet_spec {s : VmPhysSeg} (h : BuddyOk s) {n : Nat} (hn : 0 < n)
    (hfit : LargeAllocFits s.toVmPhysArea n) :
    ∃ r s', OsVmPhysPagesGet s n = some (r, s') ∧ s'.toVmPhysArea = s.toVmPhysArea ∧ BuddyOk s' ∧
      (r = none → s' = s) ∧
      ∀ page, r = some page → s.firstPage ≤ page ∧ page + n ≤ s.endPage ∧
        2 ^ min (OsVmPagesToOrder n) (VM_LIST_ORDER_MAX - 1) ∣ page ∧
        List.Perm (freePages s) (freePages s' ++ List.range' page n) ∧
        (s'.pages page).nPages = n ∧ (s'.pages page).refCounts = 0 ∧
        ∀ x, x ≠ page → (s'.pages x).nPages = (s.pages x).nPages ∧
          (s'.pages x).refCounts = (s.pages x).refCounts := by
  obtain ⟨r, s', halloc, hlo, h', hnone, hsome⟩ := OsVmPhysPagesAlloc_spec h hn hfit
  cases r with
  | none =>
    have hs : s' = s := hnone rfl
    subst hs
    exact ⟨none, _, by simp only [OsVmPhysPagesGet, halloc], rfl, h', fun _ => rfl, fun _ hp => nomatch hp⟩
  | some page =>
    obtain ⟨hlo₁, hhi, hal, hacc⟩ := hsome page rfl
    refine ⟨some page, s'.setPage page (fun p => { p with refCounts := 0, nPages := n }),
      by simp only [OsVmPhysPagesGet, halloc], hlo.area,
      h'.setPage (f := fun p => { p with refCounts := 0, nPages := n }) fun _ => rfl, (fun hp => nomatch hp), ?_⟩
    rintro _ ⟨⟩
    refine ⟨hlo₁, hhi, hal, hacc, by simp [setPage_pages], by simp [setPage_pages], fun x hx => ?_⟩
    simp only [setPage_pages, if_neg hx]
    exact ⟨hlo.nPages x, hlo.refCounts x⟩

/-- An allocation of `n > 0` pages from a system that keeps the
invariant: no panic, and the run it hands out joins the held runs. -/
theorem PhysSys.Ok.get (ht : Ok t) {n : Nat} (hn : 0 < n) (hfit : LargeAllocFits t.seg.toVmPhysArea n) :
    ∃ t', t.got n (OsVmPhysPagesGet t.seg n) = some t' ∧ t'.seg.toVmPhysArea = t.seg.toVmPhysArea ∧
      Ok t' := by
  obtain ⟨r, s', hget, harea, h', hnone, hsome⟩ := OsVmPhysPagesGet_spec ht.lists hn hfit
  cases r with
  | none =>
    -- `NULL`: nothing changes
    obtain rfl := hnone rfl
    exact ⟨t, by rw [hget]; rfl, rfl, ht⟩
  | some page =>
    obtain ⟨-, -, -, hacc, hnP, hrc, hother⟩ := hsome page rfl
    have hpage : page ∈ freePages t.seg :=
      hacc.mem_iff.mpr (List.mem_append_right _ (List.mem_range'_1.mpr ⟨le_rfl, by omega⟩))
    refine ⟨{ seg := s', held := (page, n) :: t.held }, by rw [hget]; rfl, harea, h', ?_, ?_, ?_⟩
    · -- the run moves from the free pages to the held ones
      change List.Perm (freePages s' ++ (List.range' page n ++ heldPages t.held))
        (List.range' s'.firstPage (s'.endPage - s'.firstPage))
      rw [harea, ← List.append_assoc]
      exact (List.Perm.append_right _ hacc.symm).trans ht.partition
    · intro r hr
      rcases List.mem_cons.mp hr with rfl | hr
      · exact hn
      · exact ht.nonempty r hr
    · -- the new run's first page records it; the other runs start elsewhere
      intro r hr
      rcases List.mem_cons.mp hr with rfl | hr
      · exact ⟨hnP, hrc⟩
      · have hne : r.1 ≠ page := fun heq =>
          ht.not_free_of_held (head_mem_heldPages hr (ht.nonempty r hr)) (heq ▸ hpage)
        rw [(hother _ hne).1, (hother _ hne).2]
        exact ht.head r hr

/-- `LOS_PhysPagesFreeContiguous` at the address of a page of the
segment: the page records no run, and the run from it is freed. -/
theorem LOS_PhysPagesFreeContiguous_frame (s : VmPhysSeg) {page : Nat} (n : Nat)
    (hin : s.firstPage ≤ page ∧ page < s.endPage) :
    LOS_PhysPagesFreeContiguous s (VM_PAGE_TO_PHYS page) n =
      OsVmPhysPagesFreeContiguous.run (s.setPage page fun p => { p with nPages := 0 }) page n := by
  rw [LOS_PhysPagesFreeContiguous, OsVmVaddrToPage_eq, OsVmPhysToPage_frame, if_pos hin]

/-- A held run lies in the area, apart from the free pages and from the
other held runs. -/
theorem PhysSys.Ok.held_apart (ht : Ok t) {i page n : Nat} (hi : t.held[i]? = some (page, n)) :
    t.seg.firstPage ≤ page ∧ page + n ≤ t.seg.endPage ∧
      (freePages t.seg ++ List.range' page n ++ heldPages (t.held.eraseIdx i)).Nodup ∧
      List.Perm (freePages t.seg ++ List.range' page n ++ heldPages (t.held.eraseIdx i))
        (List.range' t.seg.firstPage (t.seg.endPage - t.seg.firstPage)) := by
  have hpos : 0 < n := ht.nonempty _ (List.mem_of_getElem? hi)
  have hwhole : List.Perm (freePages t.seg ++ List.range' page n ++ heldPages (t.held.eraseIdx i))
      (List.range' t.seg.firstPage (t.seg.endPage - t.seg.firstPage)) := by
    rw [List.append_assoc]
    exact (List.Perm.append_left _ (heldPages_eraseIdx hi).symm).trans ht.partition
  -- the run's first and last pages are pages of the area
  have hrun : ∀ x ∈ List.range' page n, x ∈ List.range' t.seg.firstPage (t.seg.endPage - t.seg.firstPage) :=
    fun x hx => hwhole.mem_iff.mp (List.mem_append_left _ (List.mem_append_right _ hx))
  have hlo := List.mem_range'_1.mp (hrun page (List.mem_range'_1.mpr ⟨le_rfl, by omega⟩))
  have hhi := List.mem_range'_1.mp (hrun (page + n - 1) (List.mem_range'_1.mpr ⟨by omega, by omega⟩))
  exact ⟨hlo.1, by omega, hwhole.nodup_iff.mpr List.nodup_range', hwhole⟩

/-- The other held runs start elsewhere than a held run's pages. -/
theorem PhysSys.Ok.head_ne (ht : Ok t) {i page n : Nat} (hi : t.held[i]? = some (page, n)) :
    ∀ r ∈ t.held.eraseIdx i, r.1 ≠ page := by
  intro r hr heq
  obtain ⟨-, -, hnd, -⟩ := ht.held_apart hi
  have hpos : 0 < n := ht.nonempty _ (List.mem_of_getElem? hi)
  have hrpos := ht.nonempty r (List.mem_of_mem_eraseIdx hr)
  exact (List.nodup_append.mp hnd).2.2 page
    (List.mem_append_right _ (List.mem_range'_1.mpr ⟨le_rfl, by omega⟩)) r.1
    (head_mem_heldPages hr hrpos) heq.symm

/-- Rewriting a page that starts no held run, without its order, keeps
the invariant. -/
theorem PhysSys.Ok.setPage (ht : Ok t) {page : Nat} {f : LosVmPage → LosVmPage} (hf : ∀ q, (f q).order = q.order)
    (hp : ∀ r ∈ t.held, r.1 ≠ page) : Ok { seg := t.seg.setPage page f, held := t.held } := by
  refine ⟨ht.lists.setPage hf, ht.partition, ht.nonempty, fun r hr => ?_⟩
  simp only [setPage_pages, if_neg (hp r hr)]
  exact ht.head r hr

/-- Freeing the held run `i`, its first page rewritten first without its
order: no panic, and the run's pages go back to the lists. -/
theorem PhysSys.Ok.free_held (ht : Ok t) {i page n : Nat} (hi : t.held[i]? = some (page, n))
    {f : LosVmPage → LosVmPage} (hf : ∀ q, (f q).order = q.order) :
    ∃ s', OsVmPhysPagesFreeContiguous.run (t.seg.setPage page f) page n = some s' ∧
      ListsOnly (t.seg.setPage page f) s' ∧ Ok { seg := s', held := t.held.eraseIdx i } := by
  obtain ⟨hlo, hhi, hnd, hwhole⟩ := ht.held_apart hi
  obtain ⟨s', hrun, hlists, h', hacc⟩ := free_contiguous_run_spec (ht.lists.setPage (p := page) hf)
    (p := page) (n := n) ⟨hlo, hhi⟩ (hnd.sublist (List.sublist_append_left _ _))
  refine ⟨s', hrun, hlists, h', ?_, fun r hr => ht.nonempty r (List.mem_of_mem_eraseIdx hr), ?_⟩
  · -- the run's pages move from the held ones to the free ones
    rw [hlists.area, setPage_area]
    exact (List.Perm.append_right _ hacc).trans hwhole
  · -- the other runs start elsewhere, so the rewrite and the frees leave their first pages
    intro r hr
    rw [hlists.nPages, hlists.refCounts, setPage_pages, if_neg (ht.head_ne hi r hr)]
    exact ht.head r (List.mem_of_mem_eraseIdx hr)

/-- One call of a client from a system that keeps the invariant, with
a request that does not wrap round: no panic, the same area, and the
invariant again. -/
theorem PhysSys.Ok.step (ht : Ok t) {c : PhysCall} (hc : c.Fits t.seg.toVmPhysArea) :
    ∃ t', t.step c = some t' ∧ t'.seg.toVmPhysArea = t.seg.toVmPhysArea ∧ Ok t' := by
  cases c with
  | allocContiguous n =>
    rcases Nat.eq_zero_or_pos n with rfl | hn
    · -- no pages: `NULL`
      exact ⟨t, by simp [PhysSys.step, LOS_PhysPagesAllocContiguous, got], rfl, ht⟩
    · simp only [PhysSys.step, LOS_PhysPagesAllocContiguous, if_neg (Nat.pos_iff_ne_zero.mp hn)]
      exact ht.get hn hc
  | pageAlloc => exact ht.get (n := ONE_PAGE) (by decide) (LargeAllocFits.of_le (by decide))
  | freeContiguous i =>
    simp only [PhysSys.step]
    split
    · exact ⟨t, rfl, rfl, ht⟩
    · rename_i page n hi
      obtain ⟨hlo, hhi, -, -⟩ := ht.held_apart hi
      have hpos : 0 < n := ht.nonempty _ (List.mem_of_getElem? hi)
      obtain ⟨s', hrun, hlists, ht'⟩ := ht.free_held hi (f := fun p => { p with nPages := 0 }) fun _ => rfl
      refine ⟨_, ?_, by rw [hlists.area, setPage_area], ht'⟩
      rw [LOS_PhysPagesFreeContiguous_frame _ _ ⟨hlo, by omega⟩, hrun, Option.map_some]
  | pageFree i =>
    simp only [PhysSys.step]
    split
    · -- a single page the client got, with its one reference
      rename_i page hi
      have hmem := List.mem_of_getElem? hi
      obtain ⟨s', hrun, hlists, ht'⟩ :=
        ht.free_held hi (f := fun p => { p with refCounts := p.refCounts - 1 }) fun _ => rfl
      have hdrop : ((t.seg.setPage page fun p => { p with refCounts := p.refCounts - 1 }).pages page).refCounts ≤ 0 := by
        simp [setPage_pages, (ht.head _ hmem).2]
      refine ⟨{ seg := s'.setPage page (fun p => { p with refCounts := 0 }), held := t.held.eraseIdx i }, ?_,
        by rw [setPage_area, hlists.area, setPage_area], ht'.setPage (fun _ => rfl) (ht.head_ne hi)⟩
      simp only [LOS_PhysPageFree, if_pos hdrop, ONE_PAGE, hrun, Option.map_some]
    · exact ⟨t, rfl, rfl, ht⟩

end Calls

/-- `LOS_PhysPagesAllocContiguous(nPages)` on lists that keep the
invariant: no panic and the invariant again; `NULL` leaves the segment
as it was; a page it returns starts a run of `nPages > 0` pages of the
segment, aligned to the request's order (at most the largest), free
before and not after, and its first page records the run with no
reference. -/
theorem LOS_PhysPagesAllocContiguous_spec {s : VmPhysSeg} (h : BuddyOk s) {n : Nat}
    (hfit : LargeAllocFits s.toVmPhysArea n) :
    ∃ r s', LOS_PhysPagesAllocContiguous s n = some (r, s') ∧ s'.toVmPhysArea = s.toVmPhysArea ∧
      BuddyOk s' ∧ (r = none → s' = s) ∧
      ∀ page, r = some page → 0 < n ∧ s.firstPage ≤ page ∧ page + n ≤ s.endPage ∧
        2 ^ min (OsVmPagesToOrder n) (VM_LIST_ORDER_MAX - 1) ∣ page ∧
        List.Perm (freePages s) (freePages s' ++ List.range' page n) ∧
        (s'.pages page).nPages = n ∧ (s'.pages page).refCounts = 0 := by
  rcases Nat.eq_zero_or_pos n with rfl | hn
  · -- no pages: `NULL`
    exact ⟨none, s, by simp [LOS_PhysPagesAllocContiguous], rfl, h, fun _ => rfl, fun _ hp => nomatch hp⟩
  obtain ⟨r, s', hget, harea, h', hnone, hsome⟩ := OsVmPhysPagesGet_spec h hn hfit
  refine ⟨r, s', by rw [LOS_PhysPagesAllocContiguous, if_neg (by omega), hget], harea, h', hnone, ?_⟩
  intro page hp
  obtain ⟨hlo, hhi, hal, hacc, hnP, hrc, -⟩ := hsome page hp
  exact ⟨hn, hlo, hhi, hal, hacc, hnP, hrc⟩

theorem LOS_PhysPagesAllocContiguous_spec_startup :
    ∃ s, OsVmPageStartup sampleArea = some s ∧
      ∃ r s', LOS_PhysPagesAllocContiguous s 3 = some (r, s') ∧ s'.toVmPhysArea = s.toVmPhysArea ∧
        BuddyOk s' ∧ (r = none → s' = s) ∧
        ∀ page, r = some page → 0 < 3 ∧ s.firstPage ≤ page ∧ page + 3 ≤ s.endPage ∧
          2 ^ min (OsVmPagesToOrder 3) (VM_LIST_ORDER_MAX - 1) ∣ page ∧
          List.Perm (freePages s) (freePages s' ++ List.range' page 3) ∧
          (s'.pages page).nPages = 3 ∧ (s'.pages page).refCounts = 0 := by
  obtain ⟨s, hs, harea, h, -⟩ := OsVmPageStartup_spec sampleArea
  exact ⟨s, hs, LOS_PhysPagesAllocContiguous_spec h (by rw [harea]; decide)⟩

/-- `LOS_PhysPagesFreeContiguous` at the address of a run of pages of
the segment none of which is free: no panic and the invariant again, the
run's first page records no run, and the lists gain exactly the run's
pages. -/
theorem LOS_PhysPagesFreeContiguous_spec {s : VmPhysSeg} (h : BuddyOk s) {page n : Nat} (hn : 0 < n)
    (hin : s.firstPage ≤ page ∧ page + n ≤ s.endPage) (hap : (freePages s ++ List.range' page n).Nodup) :
    ∃ s', LOS_PhysPagesFreeContiguous s (VM_PAGE_TO_PHYS page) n = some s' ∧
      s'.toVmPhysArea = s.toVmPhysArea ∧ BuddyOk s' ∧ (s'.pages page).nPages = 0 ∧
      List.Perm (freePages s') (freePages s ++ List.range' page n) := by
  obtain ⟨s', hrun, hlists, h', hacc⟩ :=
    free_contiguous_run_spec (h.setPage (p := page) (f := fun p => { p with nPages := 0 }) fun _ => rfl)
      (p := page) (n := n) hin hap
  refine ⟨s', by rw [LOS_PhysPagesFreeContiguous_frame _ _ ⟨hin.1, by omega⟩, hrun], hlists.area, h', ?_, hacc⟩
  rw [hlists.nPages, setPage_pages, if_pos rfl]

theorem LOS_PhysPagesFreeContiguous_spec_init :
    0 < 0x20 ∧ (OsVmPageStartup.seg sampleArea).firstPage ≤ 0x40010 ∧
      0x40010 + 0x20 ≤ (OsVmPageStartup.seg sampleArea).endPage ∧
      (freePages (OsVmPageStartup.seg sampleArea) ++ List.range' 0x40010 0x20).Nodup ∧
    ∃ s', LOS_PhysPagesFreeContiguous (OsVmPageStartup.seg sampleArea) (VM_PAGE_TO_PHYS 0x40010) 0x20 = some s' ∧
      s'.toVmPhysArea = sampleArea ∧ BuddyOk s' ∧ (s'.pages 0x40010).nPages = 0 ∧
      List.Perm (freePages s') (freePages (OsVmPageStartup.seg sampleArea) ++ List.range' 0x40010 0x20) := by
  have hempty : freePages (OsVmPageStartup.seg sampleArea) = [] := by
    rw [freePages, freeBlocks_startup_seg, blockPages_nil]
  have hap : (freePages (OsVmPageStartup.seg sampleArea) ++ List.range' 0x40010 0x20).Nodup := by
    rw [hempty, List.nil_append]
    exact List.nodup_range'
  exact ⟨by decide, by decide, by decide, hap,
    LOS_PhysPagesFreeContiguous_spec (BuddyOk_startup_seg _) (by decide) ⟨by decide, by decide⟩ hap⟩

/-- Whatever the client calls, in whatever order, from startup, with
requests that do not wrap round: no call panics, and the lists keep the
buddy invariant, the free and held pages share out the area's pages,
each page once, and each held run's first page records the run with no
reference. -/
theorem phys_pages_run_ok (a : VmPhysArea) {calls : List PhysCall} (hcalls : ∀ c ∈ calls, c.Fits a) :
    ∃ t, PhysSys.run a calls = some t ∧ t.seg.toVmPhysArea = a ∧ Ok t := by
  obtain ⟨s, hstart, harea, h, hacc, -⟩ := OsVmPageStartup_spec a
  have hinit : Ok { seg := s, held := [] } := by
    refine ⟨h, ?_, (fun _ hr => nomatch hr), (fun _ hr => nomatch hr)⟩
    change List.Perm (freePages s ++ []) (List.range' s.firstPage (s.endPage - s.firstPage))
    rw [List.append_nil, harea]
    exact hacc
  -- the invariant and the area carry through the calls
  suffices hrest : ∀ (calls : List PhysCall), (∀ c ∈ calls, c.Fits a) → ∀ t : PhysSys,
      t.seg.toVmPhysArea = a → Ok t →
      ∃ t', calls.foldlM PhysSys.step t = some t' ∧ t'.seg.toVmPhysArea = a ∧ Ok t' by
    obtain ⟨t', hrun, harea', ht'⟩ := hrest calls hcalls _ harea hinit
    exact ⟨t', by rw [PhysSys.run, hstart, Option.bind_some]; exact hrun, harea', ht'⟩
  intro calls
  induction calls with
  | nil => exact fun _ t harea ht => ⟨t, rfl, harea, ht⟩
  | cons c calls ih =>
    intro hcalls t harea ht
    have hc : c.Fits t.seg.toVmPhysArea := by
      rw [harea]
      exact hcalls c List.mem_cons_self
    obtain ⟨t₁, hstep, harea₁, ht₁⟩ := ht.step hc
    obtain ⟨t', hrun, harea', ht'⟩ :=
      ih (fun c' hc' => hcalls c' (List.mem_cons_of_mem _ hc')) t₁ (harea₁.trans harea) ht₁
    exact ⟨t', by rw [List.foldlM_cons, hstep]; exact hrun, harea', ht'⟩

/-- Startup of 256 pages, then a run of three, a single page, the free
of the run, and a run of 300 pages, which is `NULL`. -/
theorem phys_pages_run_ok_sample :
    (∀ c ∈ [.allocContiguous 3, .pageAlloc, .freeContiguous 1, .allocContiguous 300], PhysCall.Fits sampleArea c) ∧
      ∃ t, PhysSys.run sampleArea [.allocContiguous 3, .pageAlloc, .freeContiguous 1, .allocContiguous 300] =
        some t ∧ t.seg.toVmPhysArea = sampleArea ∧ Ok t := by
  have hcalls : ∀ c ∈ [.allocContiguous 3, .pageAlloc, .freeContiguous 1, .allocContiguous 300],
      PhysCall.Fits sampleArea c := by decide
  exact ⟨hcalls, phys_pages_run_ok sampleArea hcalls⟩

end LiteOsA.Vm
