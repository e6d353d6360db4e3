/-
The list versions of the physical page calls (kernel/base/vm/los_vm_phys.c),
and the pool of the VM model they stand under.

`LOS_PhysPagesAlloc` takes single pages one at a time onto a list, and
stops at the first `NULL`; `LOS_PhysPagesFree` takes each page off a list
and drops one of its references, freeing the pages left with none. The
loop of each is carried by the spec of its one call
(`OsVmPhysPagesGet_spec` of one page; `LOS_PhysPageFree_spec`), and a
single page is `NULL` only when no page of the segment is free
(`OsVmPhysPagesGet_one_null`).

The VM model of `LiteOsA.Vm.Map` and `LiteOsA.Vm.Shm` does not run on the
buddy lists: it draws its pages from a pool, `VmSys.freePages` with the
references `VmSys.refCounts`, taking the first free pages and putting a
freed page back in front. `PoolAbs` says a pool abstracts a segment: the
same free pages, in some order, and the same references. The segment's
calls refine the pool's. An allocation hands out what the pool hands
out from some order of its free pages (`LOS_PhysPagesAlloc_refines`):
so it comes short only on a segment with no page left, and the pages are
free before and held after. A free does what the pool's free does
(`LOS_PhysPagesFree_refines`). What the VM model proves over its pool
holds of the buddy lists underneath.
-/
import LiteOsA.Vm.Proofs.BuddyRun
import LiteOsA.Vm.Call

namespace LiteOsA.Vm

variable {s : VmPhysSeg}

@[simp] theorem freePages_setPage (p : Nat) (f : LosVmPage → LosVmPage) :
    freePages (s.setPage p f) = freePages s := rfl

-- ============================================================ one call of each loop

/-- A single page is `NULL` only when no page of the segment is free: it
has order 0, and the search looks at every list. -/
theorem OsVmPhysPagesGet_one_null {s' : VmPhysSeg} (h : OsVmPhysPagesGet s ONE_PAGE = some (none, s')) :
    freePages s = [] := by
  obtain ⟨s₀, halloc⟩ : ∃ s₀, OsVmPhysPagesAlloc s ONE_PAGE = some (none, s₀) := by
    unfold OsVmPhysPagesGet at h
    split at h
    · cases h
    · exact ⟨_, ‹_›⟩
    · cases h
  have horder : OsVmPagesToOrder ONE_PAGE = 0 :=
    Nat.le_zero.mp ((OsVmPagesToOrder_spec ONE_PAGE (by decide)).2 0 (by decide))
  have hsearch : OsVmPhysPagesAlloc.search s 0 = none := by
    have hfind := OsVmPhysPagesAlloc.find_eq_none halloc
    simp only [OsVmPhysPagesAlloc.find, horder] at hfind
    rwa [if_pos (by decide)] at hfind
  have hempty := (OsVmPhysPagesAlloc.search_spec s 0).2 hsearch
  have hblocks : freeBlocks s = [] := by
    refine List.eq_nil_iff_forall_not_mem.mpr fun ⟨x, k⟩ hb => ?_
    obtain ⟨hk, hx⟩ := Buddy.mem_tagged.mp hb
    rw [hempty k (Nat.zero_le k) hk] at hx
    exact List.not_mem_nil hx
  rw [freePages, hblocks, blockPages_nil]

/-- `LOS_PhysPageFree` of a page of the segment that is not free: no
panic and the invariant again; the page drops a reference, and with its
last one (a count of at most 1) it goes back to the lists, recording
none; no other page changes. -/
theorem LOS_PhysPageFree_spec (h : BuddyOk s) {page : Nat} (hin : s.firstPage ≤ page ∧ page < s.endPage)
    (hfree : page ∉ freePages s) :
    ∃ s', LOS_PhysPageFree s page = some s' ∧ s'.toVmPhysArea = s.toVmPhysArea ∧ BuddyOk s' ∧
      List.Perm (freePages s') (freePages s ++ if (s.pages page).refCounts ≤ 1 then [page] else []) ∧
      (s'.pages page).refCounts =
        (if (s.pages page).refCounts ≤ 1 then 0 else (s.pages page).refCounts - 1) ∧
      ∀ x, x ≠ page → (s'.pages x).nPages = (s.pages x).nPages ∧
        (s'.pages x).refCounts = (s.pages x).refCounts := by
  have hdec : ((s.setPage page fun p => { p with refCounts := p.refCounts - 1 }).pages page).refCounts =
      (s.pages page).refCounts - 1 := by
    simp [setPage_pages]
  have hdrop : ((s.setPage page fun p => { p with refCounts := p.refCounts - 1 }).pages page).refCounts ≤ 0 ↔
      (s.pages page).refCounts ≤ 1 := by
    rw [hdec]
    omega
  by_cases hlast : (s.pages page).refCounts ≤ 1
  · -- the last reference: the page goes back to the lists, and records none
    have hap : (freePages s ++ List.range' page ONE_PAGE).Nodup :=
      List.nodup_append.mpr ⟨h.disjoint, List.nodup_range', fun a ha b hb hab => by
        rw [List.mem_range'_1] at hb
        exact hfree (by rw [hab, show b = page by unfold ONE_PAGE at hb; omega] at ha; exact ha)⟩
    obtain ⟨s₁, hrun, hlists, h₁, hacc⟩ :=
      free_contiguous_run_spec (h.setPage (p := page) (f := fun p => { p with refCounts := p.refCounts - 1 })
        fun _ => rfl) (p := page) (n := ONE_PAGE) ⟨hin.1, hin.2⟩ hap
    refine ⟨s₁.setPage page fun p => { p with refCounts := 0 }, ?_, by rw [setPage_area, hlists.area, setPage_area],
      h₁.setPage fun _ => rfl, ?_, ?_, fun x hx => ?_⟩
    · simp only [LOS_PhysPageFree, if_pos (hdrop.mpr hlast), hrun]
    · rw [if_pos hlast, freePages_setPage]
      exact hacc
    · simp [setPage_pages, hlast]
    · rw [setPage_pages, if_neg hx, hlists.nPages, hlists.refCounts, setPage_pages, if_neg hx]
      exact ⟨rfl, rfl⟩
  · -- references are left: only the count drops
    refine ⟨s.setPage page fun p => { p with refCounts := p.refCounts - 1 }, ?_, rfl,
      h.setPage fun _ => rfl, ?_, ?_, fun x hx => ?_⟩
    · simp only [LOS_PhysPageFree, if_neg (mt hdrop.mp hlast)]
    · rw [if_neg hlast, List.append_nil, freePages_setPage]
    · rw [hdec, if_neg hlast]
    · rw [setPage_pages, if_neg hx]
      exact ⟨rfl, rfl⟩

-- ============================================================ the loops

/-- The loop of `LOS_PhysPagesAlloc`, from a segment that keeps the
invariant: no panic; the pages it appends were free, each records one
page and no reference, and no other page changes; it comes short of
`n` only when no page is left. -/
theorem VmPhysSeg.LOS_PhysPagesAlloc.loop_spec (n : Nat) :
    ∀ (s : VmPhysSeg) (list : List Nat) (count : Nat), BuddyOk s →
      ∃ pages s', loop n s list count = some (count + pages.length, s', list ++ pages) ∧
        s'.toVmPhysArea = s.toVmPhysArea ∧ BuddyOk s' ∧ pages.length ≤ n ∧
        List.Perm (freePages s) (freePages s' ++ pages) ∧
        (∀ p ∈ pages, (s'.pages p).nPages = ONE_PAGE ∧ (s'.pages p).refCounts = 0) ∧
        (∀ x, x ∉ pages → (s'.pages x).nPages = (s.pages x).nPages ∧
          (s'.pages x).refCounts = (s.pages x).refCounts) ∧
        (pages.length < n → freePages s' = []) := by
  induction n with
  | zero =>
    intro s list count h
    exact ⟨[], s, by simp [loop], rfl, h, le_rfl, by simp, by simp, fun _ _ => ⟨rfl, rfl⟩,
      fun hlt => absurd hlt (Nat.lt_irrefl 0)⟩
  | succ n ih =>
    intro s list count h
    obtain ⟨r, s₁, hget, harea₁, h₁, hnone, hsome⟩ := OsVmPhysPagesGet_spec h (n := ONE_PAGE) (by decide)
      (LargeAllocFits.of_le (by decide))
    cases r with
    | none =>
      -- `NULL`: the loop ends here, on a segment with no page free
      obtain hs : s₁ = s := hnone rfl
      subst s₁
      exact ⟨[], s, by simp [loop, hget], rfl, h, Nat.zero_le _, by simp, by simp, fun _ _ => ⟨rfl, rfl⟩,
        fun _ => OsVmPhysPagesGet_one_null hget⟩
    | some page =>
      obtain ⟨-, -, -, hacc₁, hnP, hrc, hother⟩ := hsome page rfl
      obtain ⟨pages, s', hloop, harea', h', hlen, hacc', hgot, hframe, hshort⟩ :=
        ih s₁ (list ++ [page]) (count + 1) h₁
      have hacc₁' : List.Perm (freePages s) (freePages s₁ ++ [page]) := hacc₁
      -- the later pages were free after this one was taken, so they are others
      have hnot : page ∉ pages := fun hmem => by
        have hnd := hacc₁'.nodup_iff.mp h.disjoint
        exact (List.nodup_append.mp hnd).2.2 page (hacc'.mem_iff.mpr (List.mem_append_right _ hmem))
          page (List.mem_singleton_self page) rfl
      refine ⟨page :: pages, s', ?_, harea'.trans harea₁, h', by simp only [List.length_cons]; omega, ?_,
        fun p hp => ?_, fun x hx => ?_, fun hlt => hshort (by simp only [List.length_cons] at hlt; omega)⟩
      · simp only [loop, hget, hloop, List.length_cons, List.append_assoc, List.singleton_append]
        congr 2
        omega
      · calc List.Perm (freePages s) (freePages s₁ ++ [page]) := hacc₁'
          List.Perm _ (freePages s' ++ pages ++ [page]) := hacc'.append_right _
          List.Perm _ (freePages s' ++ [page] ++ pages) := Buddy.perm_append_swap _ _ _
          _ = freePages s' ++ page :: pages := by simp
      · rcases List.mem_cons.mp hp with rfl | hp
        · rw [(hframe p hnot).1, (hframe p hnot).2]
          exact ⟨hnP, hrc⟩
        · exact hgot p hp
      · obtain ⟨hxp, hxs⟩ : x ≠ page ∧ x ∉ pages := by simpa [not_or] using hx
        rw [(hframe x hxs).1, (hframe x hxs).2]
        exact hother x hxp

/-- The loop of `LOS_PhysPagesFree` over pages of the segment, none of
them free and none twice: no panic and the invariant again; the lists
gain the pages whose references are used up, each page of the list
drops a reference, and no other page changes. -/
theorem VmPhysSeg.LOS_PhysPagesFree.fold_spec (list : List Nat) :
    ∀ (count : Nat) (s : VmPhysSeg), BuddyOk s → list.Nodup →
      (∀ p ∈ list, s.firstPage ≤ p ∧ p < s.endPage ∧ p ∉ freePages s) →
      ∃ s', list.foldlM (fun acc page => (LOS_PhysPageFree acc.2 page).map fun s => (acc.1 + 1, s))
          (count, s) = some (count + list.length, s') ∧
        s'.toVmPhysArea = s.toVmPhysArea ∧ BuddyOk s' ∧
        List.Perm (freePages s') (freePages s ++ list.filter fun p => (s.pages p).refCounts ≤ 1) ∧
        (∀ p ∈ list, (s'.pages p).refCounts =
          if (s.pages p).refCounts ≤ 1 then 0 else (s.pages p).refCounts - 1) ∧
        ∀ x, x ∉ list → (s'.pages x).nPages = (s.pages x).nPages ∧
          (s'.pages x).refCounts = (s.pages x).refCounts := by
  induction list with
  | nil =>
    intro count s h _ _
    exact ⟨s, rfl, rfl, h, by simp, (fun _ hp => nomatch hp), fun _ _ => ⟨rfl, rfl⟩⟩
  | cons page rest ih =>
    intro count s h hnd hheld
    obtain ⟨hpage, hrest⟩ := List.nodup_cons.mp hnd
    obtain ⟨hlo, hhi, hfree⟩ := hheld page List.mem_cons_self
    obtain ⟨s₁, hone, harea₁, h₁, hacc₁, hrc₁, hframe₁⟩ := LOS_PhysPageFree_spec h ⟨hlo, hhi⟩ hfree
    -- the rest of the list stays held: the one page freed is not in it
    have hheld₁ : ∀ q ∈ rest, s₁.firstPage ≤ q ∧ q < s₁.endPage ∧ q ∉ freePages s₁ := by
      intro q hq
      obtain ⟨hqlo, hqhi, hqfree⟩ := hheld q (List.mem_cons_of_mem _ hq)
      have hqp : q ≠ page := fun heq => hpage (heq ▸ hq)
      refine ⟨by rw [congrArg VmPhysArea.firstPage harea₁]; exact hqlo,
        by rw [congrArg VmPhysArea.endPage harea₁]; exact hqhi, fun hq₁ => ?_⟩
      rcases List.mem_append.mp (hacc₁.mem_iff.mp hq₁) with hq₁ | hq₁
      · exact hqfree hq₁
      · split at hq₁
        · exact hqp (List.mem_singleton.mp hq₁)
        · exact List.not_mem_nil hq₁
    obtain ⟨s', hfold, harea', h', hacc', hrc', hframe'⟩ := ih (count + 1) s₁ h₁ hrest hheld₁
    -- the rest sees the references the page's free left, which are its own
    have hsame : ∀ q ∈ rest, (s₁.pages q).refCounts = (s.pages q).refCounts :=
      fun q hq => (hframe₁ q fun heq => hpage (heq ▸ hq)).2
    have hfilter : (rest.filter fun q => (s₁.pages q).refCounts ≤ 1) =
        rest.filter fun q => (s.pages q).refCounts ≤ 1 :=
      List.filter_congr fun q hq => by rw [hsame q hq]
    refine ⟨s', ?_, harea'.trans harea₁, h', ?_, fun p hp => ?_, fun x hx => ?_⟩
    · rw [List.foldlM_cons, List.length_cons, Nat.add_comm rest.length 1, ← Nat.add_assoc]
      simp only [hone, Option.map_some]
      exact hfold
    · refine (hacc'.trans ((hacc₁.append_right _).trans ?_))
      rw [hfilter, List.filter_cons, List.append_assoc]
      by_cases hc : (s.pages page).refCounts ≤ 1
      · rw [if_pos hc, if_pos (by simpa using hc)]
        exact List.Perm.refl _
      · rw [if_neg hc, if_neg (by simpa using hc), List.nil_append]
    · rcases List.mem_cons.mp hp with rfl | hp
      · rw [(hframe' p hpage).2]
        exact hrc₁
      · rw [hrc' p hp, hsame p hp]
    · obtain ⟨hxp, hxs⟩ : x ≠ page ∧ x ∉ rest := by simpa [not_or] using hx
      rw [(hframe' x hxs).1, (hframe' x hxs).2]
      exact hframe₁ x hxp

-- ============================================================ the pool

/-- The pool's `LOS_PhysPagesFree` over a list with no page twice: the
pool gains the pages whose references are used up, each page of the
list drops a reference, and no other count changes. -/
theorem LOS_PhysPagesFree.one_foldl (list : List Nat) :
    ∀ (pool : VmSys), list.Nodup →
      List.Perm (list.foldl LOS_PhysPagesFree.one pool).freePages
        (pool.freePages ++ list.filter fun p => pool.refCounts p ≤ 1) ∧
      (∀ p ∈ list, (list.foldl LOS_PhysPagesFree.one pool).refCounts p =
        if pool.refCounts p ≤ 1 then 0 else pool.refCounts p - 1) ∧
      ∀ x, x ∉ list → (list.foldl LOS_PhysPagesFree.one pool).refCounts x = pool.refCounts x := by
  induction list with
  | nil => exact fun pool _ => ⟨by simp, (fun _ hp => nomatch hp), fun _ _ => rfl⟩
  | cons page rest ih =>
    intro pool hnd
    obtain ⟨hpage, hrest⟩ := List.nodup_cons.mp hnd
    set pool₁ := LOS_PhysPagesFree.one pool page with hpool₁
    -- one page: its count drops, and the page goes in front when it is used up
    have hone_free : List.Perm pool₁.freePages
        (pool.freePages ++ if pool.refCounts page ≤ 1 then [page] else []) := by
      rw [hpool₁, LOS_PhysPagesFree.one]
      split
      · rw [if_pos (by omega)]
        exact (List.perm_append_singleton _ _).symm
      · rw [if_neg (by omega), List.append_nil]
    have hone_rc : ∀ x, pool₁.refCounts x =
        if x = page then (if pool.refCounts page ≤ 1 then 0 else pool.refCounts page - 1)
        else pool.refCounts x := by
      intro x
      rw [hpool₁, LOS_PhysPagesFree.one]
      split <;> rename_i hle <;> simp only [Function.update_apply] <;> split <;> first | rfl | omega
    have hsame : ∀ q ∈ rest, pool₁.refCounts q = pool.refCounts q := fun q hq => by
      rw [hone_rc, if_neg (show q ≠ page from fun heq => hpage (heq ▸ hq))]
    obtain ⟨hfree', hrc', hframe'⟩ := ih pool₁ hrest
    have hfilter : (rest.filter fun q => pool₁.refCounts q ≤ 1) = rest.filter fun q => pool.refCounts q ≤ 1 :=
      List.filter_congr fun q hq => by rw [hsame q hq]
    refine ⟨?_, fun p hp => ?_, fun x hx => ?_⟩
    · refine hfree'.trans ((hone_free.append_right _).trans ?_)
      rw [hfilter, List.filter_cons, List.append_assoc]
      by_cases hc : pool.refCounts page ≤ 1
      · rw [if_pos hc, if_pos (by simpa using hc)]
        exact List.Perm.refl _
      · rw [if_neg hc, if_neg (by simpa using hc), List.nil_append]
    · rw [List.foldl_cons]
      rcases List.mem_cons.mp hp with rfl | hp
      · rw [hframe' p hpage, hone_rc, if_pos rfl]
      · rw [hrc' p hp, hsame p hp]
    · obtain ⟨hxp, hxs⟩ : x ≠ page ∧ x ∉ rest := by simpa [not_or] using hx
      rw [List.foldl_cons, hframe' x hxs, hone_rc, if_neg hxp]

/-- A pool of the VM model abstracts a segment: the same free pages, in
some order, and the same references. -/
structure PoolAbs (seg : VmPhysSeg) (pool : VmSys) : Prop where
  free : List.Perm (freePages seg) pool.freePages
  refCounts : ∀ p, (seg.pages p).refCounts = pool.refCounts p

/-- `LOS_PhysPagesAlloc` on the buddy lists refines the pool's: no panic
and the invariant again, and the count, the list and (abstracted) the
segment after are what the pool's call gives from some order of the
pool's free pages. -/
theorem LOS_PhysPagesAlloc_refines {seg : VmPhysSeg} {pool : VmSys} (h : BuddyOk seg)
    (habs : PoolAbs seg pool) (nPages : Nat) (list : List Nat) :
    ∃ count seg' list', seg.LOS_PhysPagesAlloc nPages list = some (count, seg', list') ∧
      seg'.toVmPhysArea = seg.toVmPhysArea ∧ BuddyOk seg' ∧
      ∃ free, List.Perm free pool.freePages ∧
        (LOS_PhysPagesAlloc { pool with freePages := free } nPages list).1 = count ∧
        (LOS_PhysPagesAlloc { pool with freePages := free } nPages list).2.1 = list' ∧
        PoolAbs seg' (LOS_PhysPagesAlloc { pool with freePages := free } nPages list).2.2 := by
  rcases Nat.eq_zero_or_pos nPages with rfl | hn
  · -- no pages: nothing taken from either
    refine ⟨0, seg, list, by simp [VmPhysSeg.LOS_PhysPagesAlloc], rfl, h, pool.freePages, List.Perm.refl _,
      by simp [LOS_PhysPagesAlloc], by simp [LOS_PhysPagesAlloc], ?_⟩
    exact ⟨by simpa [LOS_PhysPagesAlloc] using habs.free, fun p => by simp [LOS_PhysPagesAlloc, habs.refCounts]⟩
  obtain ⟨pages, seg', hloop, harea, h', hlen, hacc, hgot, hframe, hshort⟩ :=
    VmPhysSeg.LOS_PhysPagesAlloc.loop_spec nPages seg list 0 h
  -- the order of the pool that puts the pages the lists hand out first
  have hsplit : List.take nPages (pages ++ freePages seg') = pages ∧
      List.drop nPages (pages ++ freePages seg') = freePages seg' := by
    rcases Nat.lt_or_ge pages.length nPages with hlt | hge
    · rw [hshort hlt, List.append_nil]
      exact ⟨List.take_of_length_le hlen, List.drop_of_length_le hlen⟩
    · have heq : pages.length = nPages := by omega
      rw [← heq, List.take_left, List.drop_left]
      exact ⟨rfl, rfl⟩
  refine ⟨pages.length, seg', list ++ pages, ?_, harea, h', pages ++ freePages seg', ?_, ?_, ?_, ?_⟩
  · rw [VmPhysSeg.LOS_PhysPagesAlloc, if_neg (by omega), hloop, Nat.zero_add]
  · exact List.perm_append_comm.trans (hacc.symm.trans habs.free)
  · simp only [LOS_PhysPagesAlloc, hsplit.1]
  · simp only [LOS_PhysPagesAlloc, hsplit.1]
  · refine ⟨by simp only [LOS_PhysPagesAlloc, hsplit.2]; exact List.Perm.refl _, fun p => ?_⟩
    simp only [LOS_PhysPagesAlloc, hsplit.1]
    split
    · exact (hgot p ‹_›).2
    · rw [(hframe p ‹_›).2]
      exact habs.refCounts p

/-- After `OsVmPageStartup` of 256 pages, under the pool of all of them,
three pages. -/
theorem LOS_PhysPagesAlloc_refines_startup :
    ∃ s pool, OsVmPageStartup sampleArea = some s ∧
      pool = vmInit (List.range' sampleArea.firstPage (sampleArea.endPage - sampleArea.firstPage)) ∧
      BuddyOk s ∧ PoolAbs s pool ∧
      ∃ count seg' list', s.LOS_PhysPagesAlloc 3 [] = some (count, seg', list') ∧
        seg'.toVmPhysArea = s.toVmPhysArea ∧ BuddyOk seg' ∧
        ∃ free, List.Perm free pool.freePages ∧
          (LOS_PhysPagesAlloc { pool with freePages := free } 3 []).1 = count ∧
          (LOS_PhysPagesAlloc { pool with freePages := free } 3 []).2.1 = list' ∧
          PoolAbs seg' (LOS_PhysPagesAlloc { pool with freePages := free } 3 []).2.2 := by
  obtain ⟨s, hs, -, h, hacc, hrc⟩ := OsVmPageStartup_spec sampleArea
  -- the started lists hold the area's pages, none with a reference
  have habs : PoolAbs s (vmInit (List.range' sampleArea.firstPage (sampleArea.endPage - sampleArea.firstPage))) :=
    ⟨hacc, hrc⟩
  exact ⟨s, _, hs, rfl, h, habs, LOS_PhysPagesAlloc_refines h habs 3 []⟩

/-- `LOS_PhysPagesFree` on the buddy lists refines the pool's: for pages
of the segment, none free and none twice, no panic and the invariant
again, the count the pool's call returns, and (abstracted) the segment
after is the pool after. -/
theorem LOS_PhysPagesFree_refines {seg : VmPhysSeg} {pool : VmSys} (h : BuddyOk seg)
    (habs : PoolAbs seg pool) {list : List Nat} (hnd : list.Nodup)
    (hheld : ∀ p ∈ list, seg.firstPage ≤ p ∧ p < seg.endPage ∧ p ∉ freePages seg) :
    ∃ seg', seg.LOS_PhysPagesFree list = some ((LOS_PhysPagesFree pool list).1, seg') ∧
      seg'.toVmPhysArea = seg.toVmPhysArea ∧ BuddyOk seg' ∧ PoolAbs seg' (LOS_PhysPagesFree pool list).2 := by
  obtain ⟨seg', hfold, harea, h', hacc, hrc, hframe⟩ :=
    VmPhysSeg.LOS_PhysPagesFree.fold_spec list 0 seg h hnd hheld
  obtain ⟨hpool, hpoolrc, hpoolframe⟩ := LOS_PhysPagesFree.one_foldl list pool hnd
  -- both free the same pages: the references agree
  have hfilter : (list.filter fun p => (seg.pages p).refCounts ≤ 1) = list.filter fun p => pool.refCounts p ≤ 1 :=
    List.filter_congr fun p _ => by rw [habs.refCounts p]
  refine ⟨seg', ?_, harea, h', ?_, fun p => ?_⟩
  · rw [VmPhysSeg.LOS_PhysPagesFree, hfold, Nat.zero_add]
    rfl
  · rw [LOS_PhysPagesFree]
    refine hacc.trans ?_
    rw [hfilter]
    exact (habs.free.append_right _).trans hpool.symm
  · rw [LOS_PhysPagesFree]
    by_cases hp : p ∈ list
    · rw [hrc p hp, hpoolrc p hp, habs.refCounts p]
    · rw [(hframe p hp).2, hpoolframe p hp, habs.refCounts p]

theorem LOS_PhysPagesFree_refines_init :
    BuddyOk (OsVmPageStartup.seg sampleArea) ∧ PoolAbs (OsVmPageStartup.seg sampleArea) (vmInit []) ∧
      [0x40010, 0x40011].Nodup ∧
      (∀ p ∈ [0x40010, 0x40011], (OsVmPageStartup.seg sampleArea).firstPage ≤ p ∧
        p < (OsVmPageStartup.seg sampleArea).endPage ∧ p ∉ freePages (OsVmPageStartup.seg sampleArea)) ∧
    ∃ seg', (OsVmPageStartup.seg sampleArea).LOS_PhysPagesFree [0x40010, 0x40011] =
        some ((LOS_PhysPagesFree (vmInit []) [0x40010, 0x40011]).1, seg') ∧
      seg'.toVmPhysArea = (OsVmPageStartup.seg sampleArea).toVmPhysArea ∧ BuddyOk seg' ∧
      PoolAbs seg' (LOS_PhysPagesFree (vmInit []) [0x40010, 0x40011]).2 := by
  have hempty : freePages (OsVmPageStartup.seg sampleArea) = [] := by
    rw [freePages, freeBlocks_startup_seg, blockPages_nil]
  have habs : PoolAbs (OsVmPageStartup.seg sampleArea) (vmInit []) :=
    ⟨by rw [hempty]; exact List.Perm.refl _, fun _ => rfl⟩
  have hheld : ∀ p ∈ [0x40010, 0x40011], (OsVmPageStartup.seg sampleArea).firstPage ≤ p ∧
      p < (OsVmPageStartup.seg sampleArea).endPage ∧ p ∉ freePages (OsVmPageStartup.seg sampleArea) := by
    rw [hempty]
    decide
  exact ⟨BuddyOk_startup_seg _, habs, by decide, hheld,
    LOS_PhysPagesFree_refines (BuddyOk_startup_seg _) habs (by decide) hheld⟩

/-- Freeing the list `LOS_PhysPagesAlloc` filled gives back every page it
took: the pages it hands out record no reference, so each one's only
reference is used up. -/
theorem phys_pages_alloc_free_roundtrip (h : BuddyOk s) (nPages : Nat) :
    ∃ pages s₁ s₂, s.LOS_PhysPagesAlloc nPages [] = some (pages.length, s₁, pages) ∧
      s₁.LOS_PhysPagesFree pages = some (pages.length, s₂) ∧ BuddyOk s₂ ∧
      List.Perm (freePages s₂) (freePages s) := by
  rcases Nat.eq_zero_or_pos nPages with rfl | hn
  · exact ⟨[], s, s, by simp [VmPhysSeg.LOS_PhysPagesAlloc], rfl, h, List.Perm.refl _⟩
  obtain ⟨pages, s₁, hloop, harea₁, h₁, -, hacc₁, hgot, -, -⟩ :=
    VmPhysSeg.LOS_PhysPagesAlloc.loop_spec nPages s [] 0 h
  -- the pages handed out are distinct pages of the segment, no longer free
  have hnd : (freePages s₁ ++ pages).Nodup := hacc₁.nodup_iff.mp h.disjoint
  have hheld : ∀ p ∈ pages, s₁.firstPage ≤ p ∧ p < s₁.endPage ∧ p ∉ freePages s₁ := by
    intro p hp
    have hmem : p ∈ freePages s := hacc₁.mem_iff.mpr (List.mem_append_right _ hp)
    obtain ⟨b, hb, hlo, hhi⟩ := mem_blockPages.mp hmem
    obtain ⟨hbin, hbend⟩ := h.inside b hb
    refine ⟨by rw [congrArg VmPhysArea.firstPage harea₁]; omega,
      by rw [congrArg VmPhysArea.endPage harea₁]; omega,
      fun hfree => (List.nodup_append.mp hnd).2.2 p hfree p hp rfl⟩
  obtain ⟨s₂, hfold, -, h₂, hacc₂, -, -⟩ :=
    VmPhysSeg.LOS_PhysPagesFree.fold_spec pages 0 s₁ h₁ (List.nodup_append.mp hnd).2.1 hheld
  have hall : (pages.filter fun p => (s₁.pages p).refCounts ≤ 1) = pages :=
    List.filter_eq_self.mpr fun p hp => by simp [(hgot p hp).2]
  refine ⟨pages, s₁, s₂, ?_, by rw [VmPhysSeg.LOS_PhysPagesFree, hfold, Nat.zero_add], h₂, ?_⟩
  · rw [VmPhysSeg.LOS_PhysPagesAlloc, if_neg (by omega), hloop, Nat.zero_add, List.nil_append]
  · rw [hall] at hacc₂
    exact hacc₂.trans hacc₁.symm

/-- After `OsVmPageStartup` of 256 pages, four pages and back. -/
theorem phys_pages_alloc_free_roundtrip_startup :
    ∃ s, OsVmPageStartup sampleArea = some s ∧ BuddyOk s ∧
      ∃ pages s₁ s₂, s.LOS_PhysPagesAlloc 4 [] = some (pages.length, s₁, pages) ∧
        s₁.LOS_PhysPagesFree pages = some (pages.length, s₂) ∧ BuddyOk s₂ ∧
        List.Perm (freePages s₂) (freePages s) := by
  obtain ⟨s, hs, -, h, -⟩ := OsVmPageStartup_spec sampleArea
  exact ⟨s, hs, h, phys_pages_alloc_free_roundtrip h 4⟩

end LiteOsA.Vm
