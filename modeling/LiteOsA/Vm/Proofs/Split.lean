/-
Cutting a region in two on a well-formed tree (`OsVmRegionSplit`,
`OsVmRegionDup`, `OsVmRegionAdjust`), and the nested unmap that never
runs there.

A tree is well formed (`TreeOk`) when its regions are in key order,
and so disjoint, each of a positive size and ending below `2 ^ 32`,
with distinct record ids below the next one `OsCreateRegion` hands
out. A cut of a region `r` at an address `n` it runs across shrinks
the record to `[r.base, n)` (`cutHead`) and asks `LOS_RegionAlloc` for
the rest at the fixed address `n` (`OsVmRegionSplitWith_dup`). Once `r`
has shrunk that range is free, so `OsAllocSpecificRange` finds nothing
in the way and does not call its unmap routine: the rest enters the
tree as `fixedCopy`, or the allocation fails when the range is not in
the space (`OsVmRegionDupWith_of_free`). What a cut leaves is again a
well-formed tree whose regions are pieces of the old ones (`PieceOf`:
inside the old range, with the old flags or `VM_MAP_REGION_FLAG_FIXED`
added, and the old segment), holding the same addresses, with no
region across `n` (`OsVmRegionSplitWith_cut`).

# The nested unmap

`Map.lean` ties the recursion of `LOS_UnMMap` through region
allocation by a depth (`LOS_UnMMapN`). On a well-formed tree the depth
never answers: a removal never calls the unmap nested in it
(`OsRegionsRemoveWith_unmap`), so `LOS_UnMMap`, `LOS_RegionAlloc` and
`OsVmRegionDup` give the same result at every depth from `1` up
(`LOS_UnMMap_depth`, `LOS_RegionAlloc_depth`, `OsVmRegionDup_depth`),
and that result is the one of the source's unbounded recursion. A tree
over which `brk` has grown the heap (`LOS_DoBrk_grow_overlaps`) is not
well formed, and there the nested unmap can run.
-/
import LiteOsA.Vm.Proofs.AllocRange

namespace LiteOsA.Vm

@[simp] theorem VmSys.setSpace_nextRegion (s : VmSys) (pid : Nat) (space : LosVmSpace) :
    (s.setSpace pid space).nextRegion = s.nextRegion := rfl

-- ============================================================ pieces of regions

namespace LosVmMapRegion

/-- The region holds the address. -/
def Holds (r : LosVmMapRegion) (a : Nat) : Prop := r.base ≤ a ∧ a < r.base + r.size

/-- The region runs across `p`: it holds `p` and the byte before it. -/
def Crosses (r : LosVmMapRegion) (p : Nat) : Prop := r.base < p ∧ p < r.base + r.size

/-- `p` is what cuts have left of `r`: a part of its range, with its
flags (`VM_MAP_REGION_FLAG_FIXED` may have been added) and, for shared
memory, its segment. -/
def PieceOf (p r : LosVmMapRegion) : Prop :=
  r.base ≤ p.base ∧ p.base + p.size ≤ r.base + r.size ∧
    (p.regionFlags = r.regionFlags ∨ p.regionFlags = r.regionFlags ||| VM_MAP_REGION_FLAG_FIXED) ∧
    (r.regionFlags &&& VM_MAP_REGION_FLAG_SHM ≠ 0 → p.shmid = r.shmid)

theorem PieceOf.refl (r : LosVmMapRegion) : r.PieceOf r := ⟨le_rfl, le_rfl, .inl rfl, fun _ => rfl⟩

/-- Adding `VM_MAP_REGION_FLAG_FIXED` leaves the shared-memory bit alone. -/
theorem or_fixed_and_shm (f : Nat) :
    (f ||| VM_MAP_REGION_FLAG_FIXED) &&& VM_MAP_REGION_FLAG_SHM = f &&& VM_MAP_REGION_FLAG_SHM := by
  rw [Nat.and_or_distrib_right, show VM_MAP_REGION_FLAG_FIXED &&& VM_MAP_REGION_FLAG_SHM = 0 by decide,
    Nat.or_zero]

theorem PieceOf.trans {p q r : LosVmMapRegion} (hpq : p.PieceOf q) (hqr : q.PieceOf r) : p.PieceOf r := by
  obtain ⟨hb₁, he₁, hf₁, hs₁⟩ := hpq
  obtain ⟨hb₂, he₂, hf₂, hs₂⟩ := hqr
  -- a piece of a shared-memory region is one too, so it kept the segment
  have hshm : r.regionFlags &&& VM_MAP_REGION_FLAG_SHM ≠ 0 → q.regionFlags &&& VM_MAP_REGION_FLAG_SHM ≠ 0 := by
    rcases hf₂ with h | h <;> rw [h] <;> simp [or_fixed_and_shm]
  refine ⟨by omega, by omega, ?_, fun h => (hs₁ (hshm h)).trans (hs₂ h)⟩
  rcases hf₂ with h₂ | h₂ <;> rcases hf₁ with h₁ | h₁ <;> simp [h₁, h₂]

/-- Of two disjoint regions, the one starting lower ends first. -/
theorem Disjoint.before_of_le {a b : LosVmMapRegion} (h : a.Disjoint b) (hb : 0 < b.size)
    (hle : a.base ≤ b.base) : a.Before b := by
  unfold Before
  unfold Disjoint at h
  omega

theorem Meets.mono {r : LosVmMapRegion} {a len a' len' : Nat} (h : r.Meets a len) (ha : a' ≤ a)
    (hend : a + len ≤ a' + len') : r.Meets a' len' := by
  unfold Meets at *
  omega

end LosVmMapRegion

open LosVmMapRegion

/-- The regions `l'` are the regions `l` cut into pieces: an address a
region of `l` holds is held by a piece of it in `l'`, and every region
of `l'` is a piece of one of `l`. -/
def Pieces (l' l : List LosVmMapRegion) : Prop :=
  (∀ r ∈ l, ∀ a, r.Holds a → ∃ p ∈ l', p.Holds a ∧ p.PieceOf r) ∧ ∀ p ∈ l', ∃ r ∈ l, p.PieceOf r

namespace Pieces

variable {l l' l'' : List LosVmMapRegion}

theorem refl (l : List LosVmMapRegion) : Pieces l l :=
  ⟨fun r hr _ ha => ⟨r, hr, ha, .refl r⟩, fun p hp => ⟨p, hp, .refl p⟩⟩

theorem trans (h₂ : Pieces l'' l') (h₁ : Pieces l' l) : Pieces l'' l := by
  refine ⟨fun r hr a ha => ?_, fun p hp => ?_⟩
  · obtain ⟨q, hq, hqa, hqr⟩ := h₁.1 r hr a ha
    obtain ⟨p, hp, hpa, hpq⟩ := h₂.1 q hq a hqa
    exact ⟨p, hp, hpa, hpq.trans hqr⟩
  · obtain ⟨q, hq, hpq⟩ := h₂.2 p hp
    obtain ⟨r, hr, hqr⟩ := h₁.2 q hq
    exact ⟨r, hr, hpq.trans hqr⟩

end Pieces

-- ============================================================ well-formed trees

/-- The regions of a tree in key order, each of a positive size ending
below `2 ^ 32`, with distinct record ids below `next`. -/
structure TreeOk (l : List LosVmMapRegion) (next : Nat) : Prop where
  ordered : l.Pairwise LosVmMapRegion.Before
  size_pos : ∀ r ∈ l, 0 < r.size
  fits : ∀ r ∈ l, r.base + r.size < 2 ^ 32
  ids : (l.map LosVmMapRegion.id).Nodup
  fresh : ∀ r ∈ l, r.id < next

instance (l : List LosVmMapRegion) (next : Nat) : Decidable (TreeOk l next) :=
  decidable_of_iff (l.Pairwise LosVmMapRegion.Before ∧ (∀ r ∈ l, 0 < r.size) ∧
      (∀ r ∈ l, r.base + r.size < 2 ^ 32) ∧ (l.map LosVmMapRegion.id).Nodup ∧ ∀ r ∈ l, r.id < next)
    ⟨fun ⟨a, b, c, d, e⟩ => ⟨a, b, c, d, e⟩, fun ⟨a, b, c, d, e⟩ => ⟨a, b, c, d, e⟩⟩

/-- Every region starts and ends on a page boundary. -/
def RegionsAligned (l : List LosVmMapRegion) : Prop :=
  ∀ r ∈ l, r.base % PAGE_SIZE = 0 ∧ r.size % PAGE_SIZE = 0

instance (l : List LosVmMapRegion) : Decidable (RegionsAligned l) :=
  inferInstanceAs (Decidable (∀ r ∈ l, _))

theorem u32Sub_lt (x y : Nat) : u32Sub x y < 2 ^ 32 := u32_lt _

theorem LOS_RegionEndAddr_eq {r : LosVmMapRegion} (hpos : 0 < r.size) (hfit : r.base + r.size < 2 ^ 32) :
    LOS_RegionEndAddr r = r.base + r.size - 1 := by
  unfold LOS_RegionEndAddr
  rw [u32_of_lt hfit, u32Sub_of_le (by omega) hfit]

namespace TreeOk

variable {l : List LosVmMapRegion} {next : Nat}

theorem disjoint (hok : TreeOk l next) {a b : LosVmMapRegion} (ha : a ∈ l) (hb : b ∈ l) (hne : a ≠ b) :
    a.Disjoint b := by
  have hd : l.Pairwise LosVmMapRegion.Disjoint := hok.ordered.imp fun h => Or.inl h
  exact hd.forall ha hb hne

theorem eq_of_id (hok : TreeOk l next) {a b : LosVmMapRegion} (ha : a ∈ l) (hb : b ∈ l) (h : a.id = b.id) :
    a = b :=
  List.inj_on_of_nodup_map hok.ids ha hb h

theorem sublist (hok : TreeOk l next) {l' : List LosVmMapRegion} (h : l'.Sublist l) : TreeOk l' next :=
  ⟨hok.ordered.sublist h, fun r hr => hok.size_pos r (h.subset hr), fun r hr => hok.fits r (h.subset hr),
    hok.ids.sublist (h.map _), fun r hr => hok.fresh r (h.subset hr)⟩

/-- `LOS_RegionFind` answers with the region holding the address. -/
theorem find_some (hok : TreeOk l next) {space : LosVmSpace} (hl : space.regions = l) {x : Nat}
    (hx : x < 2 ^ 32) {r : LosVmMapRegion} (h : LOS_RegionFind space x = some r) : r ∈ l ∧ r.Holds x := by
  subst hl
  have hr := List.mem_of_find?_eq_some h
  have heq := List.find?_some h
  simp only [decide_eq_true_eq] at heq
  exact ⟨hr, (OsRegionRbCmpKeyFn_one hx (hok.size_pos r hr) (hok.fits r hr)).mp heq⟩

end TreeOk

-- ============================================================ lookups of a free range

/-- A key `[a, a + len)` compares equal only to a region that meets its
first `max len 1` bytes. -/
theorem OsRegionRbCmpKeyFn_equal_meets {a len : Nat} {r : LosVmMapRegion} (ha : 0 < a)
    (hend : a + len < 2 ^ 32) (hpos : 0 < r.size) (hfit : r.base + r.size < 2 ^ 32)
    (h : OsRegionRbCmpKeyFn a len r.base r.size = .RB_EQUAL) : r.Meets a (max len 1) := by
  have hendA : u32Sub (u32 (a + len)) 1 = a + len - 1 := by
    rw [u32_of_lt hend, u32Sub_of_le (by omega) hend]
  have hendB : u32Sub (u32 (r.base + r.size)) 1 = r.base + r.size - 1 := by
    rw [u32_of_lt hfit, u32Sub_of_le (by omega) hfit]
  unfold OsRegionRbCmpKeyFn at h
  dsimp only at h
  rw [hendA, hendB] at h
  unfold LosVmMapRegion.Meets
  split_ifs at h <;> (try cases h) <;> omega

/-- The lookups find nothing in a range no region meets. -/
theorem OsFindRegion_eq_none {l : List LosVmMapRegion} {next a len : Nat} (hok : TreeOk l next) (ha : 0 < a)
    (hend : a + len < 2 ^ 32) (hfree : ∀ r ∈ l, ¬ r.Meets a (max len 1)) : OsFindRegion l a len = none := by
  unfold OsFindRegion
  rw [List.find?_eq_none]
  intro r hr heq
  simp only [decide_eq_true_eq] at heq
  exact hfree r hr (OsRegionRbCmpKeyFn_equal_meets ha hend (hok.size_pos r hr) (hok.fits r hr) heq)

-- ============================================================ trees changed

theorem insertRegion_perm (r : LosVmMapRegion) :
    ∀ l : List LosVmMapRegion, (insertRegion r l).Perm (r :: l)
  | [] => .refl _
  | x :: xs => by
    unfold insertRegion
    split
    · exact .refl _
    · exact ((insertRegion_perm r xs).cons x).trans (.swap r x xs)

/-- A region disjoint from all of an ordered tree goes in at its place. -/
theorem insertRegion_pairwise {t : LosVmMapRegion} (ht : 0 < t.size) :
    ∀ {l : List LosVmMapRegion}, l.Pairwise LosVmMapRegion.Before → (∀ x ∈ l, 0 < x.size) →
      (∀ x ∈ l, t.Disjoint x) → (insertRegion t l).Pairwise LosVmMapRegion.Before
  | [], _, _, _ => List.pairwise_singleton _ _
  | x :: xs, hl, hpos, hdis => by
    obtain ⟨hx, hxs⟩ := List.pairwise_cons.mp hl
    unfold insertRegion
    split
    · -- `t` starts below `x`, and so below all that follows it
      rename_i hlt
      refine List.Pairwise.cons (fun y hy => (hdis y hy).before_of_le (hpos y hy) ?_) hl
      rcases List.mem_cons.mp hy with rfl | hy
      · exact hlt.le
      · have hxy := hx y hy
        have hxpos := hpos x List.mem_cons_self
        unfold LosVmMapRegion.Before at hxy
        omega
    · rename_i hge
      refine List.Pairwise.cons (fun y hy => ?_) (insertRegion_pairwise ht hxs
        (fun y hy => hpos y (List.mem_cons_of_mem _ hy)) fun y hy => hdis y (List.mem_cons_of_mem _ hy))
      rcases mem_insertRegion.mp hy with rfl | hy
      · exact (Std.Symm.symm _ _ (hdis x List.mem_cons_self)).before_of_le ht (by omega)
      · exact hx y hy

/-- Writing the record just inserted, under an id no other region has,
is inserting the written record. -/
theorem map_insertRegion {t u : LosVmMapRegion} (hid : u.id = t.id) (hbase : u.base = t.base) :
    ∀ {l : List LosVmMapRegion}, (∀ x ∈ l, x.id ≠ t.id) →
      (insertRegion t l).map (fun x => if x.id = u.id then u else x) = insertRegion u l
  | [], _ => by simp [insertRegion, hid]
  | x :: xs, hl => by
    have hx : ∀ y ∈ x :: xs, ¬ y.id = u.id := fun y hy => hid ▸ hl y hy
    unfold insertRegion
    rw [hbase]
    split
    · rw [List.map_cons, if_pos hid.symm, List.map_congr_left fun y hy => if_neg (hx y hy)]
      simp
    · rw [List.map_cons, if_neg (hx x List.mem_cons_self),
        map_insertRegion hid hbase fun y hy => hl y (List.mem_cons_of_mem _ hy)]

/-- The regions after a write of the record `t`: `t`, and the others. -/
theorem mem_setRegion {space : LosVmSpace} {t x : LosVmMapRegion} (ht : ∃ y ∈ space.regions, y.id = t.id) :
    x ∈ (setRegion space t).regions ↔ x = t ∨ (x ∈ space.regions ∧ x.id ≠ t.id) := by
  unfold setRegion
  simp only [List.mem_map]
  constructor
  · rintro ⟨y, hy, rfl⟩
    by_cases hyt : y.id = t.id
    · exact .inl (if_pos hyt)
    · exact .inr ⟨by rwa [if_neg hyt], by rwa [if_neg hyt]⟩
  · rintro (rfl | ⟨hx, hxt⟩)
    · obtain ⟨y, hy, hyt⟩ := ht
      exact ⟨y, hy, if_pos hyt⟩
    · exact ⟨x, hx, if_neg hxt⟩

namespace TreeOk

variable {l : List LosVmMapRegion} {next : Nat}

/-- A region disjoint from the tree, under the next id. -/
theorem insertRegion (hok : TreeOk l next) {t : LosVmMapRegion} (hid : t.id = next) (hpos : 0 < t.size)
    (hfit : t.base + t.size < 2 ^ 32) (hdis : ∀ x ∈ l, t.Disjoint x) :
    TreeOk (LiteOsA.Vm.insertRegion t l) (next + 1) := by
  have hperm := insertRegion_perm t l
  refine ⟨insertRegion_pairwise hpos hok.ordered hok.size_pos hdis, fun r hr => ?_, fun r hr => ?_,
    (hperm.map _).nodup_iff.mpr ?_, fun r hr => ?_⟩
  · rcases mem_insertRegion.mp hr with rfl | hr
    · exact hpos
    · exact hok.size_pos r hr
  · rcases mem_insertRegion.mp hr with rfl | hr
    · exact hfit
    · exact hok.fits r hr
  · -- the new id is above every id in the tree
    refine List.nodup_cons.mpr ⟨fun hin => ?_, hok.ids⟩
    obtain ⟨x, hx, hxt⟩ := List.mem_map.mp hin
    have := hok.fresh x hx
    omega
  · rcases mem_insertRegion.mp hr with rfl | hr
    · omega
    · exact Nat.lt_succ_of_lt (hok.fresh r hr)

end TreeOk

-- ============================================================ the front of a cut

/-- The front of `r` that a cut at `n` leaves in its record. -/
def cutHead (r : LosVmMapRegion) (n : Nat) : LosVmMapRegion := { r with size := n - r.base }

/-- The region `OsVmRegionDup` makes of `old` at the fixed address
`vaddr`, under the record id `id`. -/
def fixedCopy (old : LosVmMapRegion) (vaddr size id : Nat) : LosVmMapRegion :=
  ⟨id, vaddr, size, old.regionFlags ||| VM_MAP_REGION_FLAG_FIXED,
    if old.regionFlags &&& VM_MAP_REGION_FLAG_SHM ≠ 0 then old.shmid else 0xFFFFFFFF⟩

section Cut

variable {l : List LosVmMapRegion} {next : Nat} {space : LosVmSpace} {r : LosVmMapRegion} {n : Nat}

theorem cutHead_pieceOf (hn : r.Crosses n) : (cutHead r n).PieceOf r := by
  unfold Crosses at hn
  exact ⟨le_rfl, by simp only [cutHead]; omega, .inl rfl, fun _ => rfl⟩

theorem fixedCopy_pieceOf (id : Nat) (hn : r.Crosses n) :
    (fixedCopy r n (r.base + r.size - n) id).PieceOf r := by
  unfold Crosses at hn
  refine ⟨by simp only [fixedCopy]; omega, by simp only [fixedCopy]; omega, .inr rfl, fun h => ?_⟩
  simp [fixedCopy, h]

/-- A region other than `r` misses the range `r` holds. -/
theorem TreeOk.not_meets_of_ne (hok : TreeOk l next) (hr : r ∈ l) {x : LosVmMapRegion} (hx : x ∈ l)
    (hxr : x ≠ r) {a len : Nat} (ha : r.base ≤ a) (hend : a + len ≤ r.base + r.size) : ¬ x.Meets a len := by
  have := hok.disjoint hx hr hxr
  unfold LosVmMapRegion.Disjoint at this
  unfold LosVmMapRegion.Meets
  omega

variable (hl : space.regions = l) (hok : TreeOk l next) (hr : r ∈ l) (hn : r.Crosses n)
include hl hok hr hn

omit hn in
theorem mem_cut {x : LosVmMapRegion} :
    x ∈ (setRegion space (cutHead r n)).regions ↔ x = cutHead r n ∨ (x ∈ l ∧ x ≠ r) := by
  subst hl
  have ht : ∃ y ∈ space.regions, y.id = (cutHead r n).id := ⟨r, hr, rfl⟩
  rw [mem_setRegion ht]
  refine or_congr_right ⟨fun ⟨hx, hxr⟩ => ⟨hx, fun h => hxr (h ▸ rfl)⟩, fun ⟨hx, hxr⟩ => ⟨hx, fun h => ?_⟩⟩
  exact hxr (hok.eq_of_id hx hr h)

/-- The tree with `r` shrunk to the front of the cut. -/
theorem TreeOk.cut : TreeOk (setRegion space (cutHead r n)).regions next := by
  have hpos := hok.size_pos r hr
  have hfit := hok.fits r hr
  unfold Crosses at hn
  refine ⟨?_, fun x hx => ?_, fun x hx => ?_, ?_, fun x hx => ?_⟩
  · -- only `r` changes, to a front that starts where it did and ends below its end
    subst hl
    unfold setRegion
    rw [List.pairwise_map]
    refine hok.ordered.imp_of_mem fun {a b} ha hb hab => ?_
    split_ifs with har hbr hbr
    · rw [hok.eq_of_id ha hr har, hok.eq_of_id hb hr hbr] at hab
      unfold LosVmMapRegion.Before at hab
      omega
    · rw [hok.eq_of_id ha hr har] at hab
      unfold LosVmMapRegion.Before at hab ⊢
      simp only [cutHead]
      omega
    · rw [hok.eq_of_id hb hr hbr] at hab
      unfold LosVmMapRegion.Before at hab ⊢
      simp only [cutHead]
      omega
    · exact hab
  · rcases (mem_cut hl hok hr).mp hx with rfl | ⟨hx, -⟩
    · simp only [cutHead]
      omega
    · exact hok.size_pos x hx
  · rcases (mem_cut hl hok hr).mp hx with rfl | ⟨hx, -⟩
    · simp only [cutHead]
      omega
    · exact hok.fits x hx
  · -- the ids are the ids of the tree
    subst hl
    unfold setRegion
    rw [List.map_map]
    refine (List.map_congr_left fun x _ => ?_).symm ▸ hok.ids
    by_cases hxr : x.id = r.id <;> simp [cutHead, hxr]
  · rcases (mem_cut hl hok hr).mp hx with rfl | ⟨hx, -⟩
    · exact hok.fresh r hr
    · exact hok.fresh x hx

/-- Once `r` has shrunk, no region meets the rest of it. -/
theorem cut_free : ∀ x ∈ (setRegion space (cutHead r n)).regions, ¬ x.Meets n (r.base + r.size - n) := by
  intro x hx
  have hn' := hn
  unfold Crosses at hn'
  rcases (mem_cut hl hok hr).mp hx with rfl | ⟨hx, hxr⟩
  · unfold LosVmMapRegion.Meets
    simp only [cutHead]
    omega
  · exact hok.not_meets_of_ne hr hx hxr (by omega) (by omega)

/-- The cut tree: the front of `r` and its rest in place of `r`, a well
formed tree of pieces of the old one, with none across `n`. -/
theorem cut_insert :
    let t := fixedCopy r n (r.base + r.size - n) next
    TreeOk (insertRegion t (setRegion space (cutHead r n)).regions) (next + 1) ∧
      Pieces (insertRegion t (setRegion space (cutHead r n)).regions) l ∧
      ∀ p ∈ insertRegion t (setRegion space (cutHead r n)).regions, ¬ p.Crosses n := by
  intro t
  have hcut := TreeOk.cut hl hok hr hn
  have hfit := hok.fits r hr
  unfold Crosses at hn
  refine ⟨hcut.insertRegion rfl (by simp only [t, fixedCopy]; omega) (by simp only [t, fixedCopy]; omega)
      fun x hx => ?_, ⟨fun x hx a ha => ?_, fun p hp => ?_⟩, fun p hp hpn => ?_⟩
  · -- the rest lies where only `r` was
    have := cut_free hl hok hr ⟨hn.1, hn.2⟩ x hx
    unfold LosVmMapRegion.Meets at this
    unfold LosVmMapRegion.Disjoint
    simp only [t, fixedCopy]
    omega
  · -- an address of `r` is in the front or in the rest; one of another region stays there
    by_cases hxr : x = r
    · subst hxr
      by_cases han : a < n
      · refine ⟨cutHead x n, mem_insertRegion.mpr (.inr ?_), ?_, cutHead_pieceOf ⟨hn.1, hn.2⟩⟩
        · exact (mem_cut hl hok hr).mpr (.inl rfl)
        · unfold Holds at ha ⊢
          simp only [cutHead]
          omega
      · refine ⟨t, mem_insertRegion.mpr (.inl rfl), ?_, fixedCopy_pieceOf _ ⟨hn.1, hn.2⟩⟩
        unfold Holds at ha ⊢
        simp only [t, fixedCopy]
        omega
    · exact ⟨x, mem_insertRegion.mpr (.inr ((mem_cut hl hok hr).mpr (.inr ⟨hx, hxr⟩))), ha,
        .refl x⟩
  · rcases mem_insertRegion.mp hp with rfl | hp
    · exact ⟨r, hr, fixedCopy_pieceOf _ ⟨hn.1, hn.2⟩⟩
    · rcases (mem_cut hl hok hr).mp hp with rfl | ⟨hp, -⟩
      · exact ⟨r, hr, cutHead_pieceOf ⟨hn.1, hn.2⟩⟩
      · exact ⟨p, hp, .refl p⟩
  · -- the front ends at `n`, the rest starts there, and another region crossing `n` would meet `r`
    unfold Crosses at hpn
    rcases mem_insertRegion.mp hp with rfl | hp
    · simp only [t, fixedCopy] at hpn
      omega
    · rcases (mem_cut hl hok hr).mp hp with rfl | ⟨hp, hpr⟩
      · simp only [cutHead] at hpn
        omega
      · exact hok.not_meets_of_ne hr hp hpr (show r.base ≤ n by omega) (show n + 1 ≤ r.base + r.size by omega)
          ⟨by omega, by omega⟩

/-- Cutting at a page boundary keeps the regions page-aligned. -/
theorem cut_aligned (hal : RegionsAligned l) (hna : n % PAGE_SIZE = 0) :
    RegionsAligned (insertRegion (fixedCopy r n (r.base + r.size - n) next) (setRegion space (cutHead r n)).regions) := by
  have ⟨hb, hs⟩ := hal r hr
  unfold Crosses at hn
  intro p hp
  rcases mem_insertRegion.mp hp with rfl | hp
  · simp only [fixedCopy]
    unfold PAGE_SIZE at *
    omega
  · rcases (mem_cut hl hok hr).mp hp with rfl | ⟨hp, -⟩
    · simp only [cutHead]
      unfold PAGE_SIZE at *
      omega
    · exact hal p hp

end Cut

-- ============================================================ allocation of a free range

section Unmapper

variable {unmap : VmSys → Nat → Nat → Nat → Int × VmSys} {s : VmSys} {cur pid : Nat}

/-- `OsAllocSpecificRange` of a free range: `vaddr` when the range is in
the space and `0` otherwise, without a call to the unmap routine. -/
theorem OsAllocSpecificRangeWith_of_free {vaddr len regionFlags : Nat}
    (hok : TreeOk (s.spaces pid).regions s.nextRegion) (hv : 0 < vaddr) (hlen : 0 < len)
    (hend : vaddr + len < 2 ^ 32) (hfree : ∀ r ∈ (s.spaces pid).regions, ¬ r.Meets vaddr len) :
    OsAllocSpecificRangeWith unmap s cur pid vaddr len regionFlags =
      (if LOS_IsRangeInSpace (s.spaces pid) vaddr len then vaddr else 0, s) := by
  -- the three lookups look inside the range
  have hsub : ∀ k klen, vaddr ≤ k → k + max klen 1 ≤ vaddr + len →
      OsFindRegion (s.spaces pid).regions k klen = none := fun k klen hk hk' =>
    OsFindRegion_eq_none hok (by omega) (by omega) fun r hr hm => hfree r hr (hm.mono hk hk')
  have h₁ : LOS_RegionFind (s.spaces pid) vaddr = none := hsub _ _ le_rfl (by omega)
  have h₂ : LOS_RegionFind (s.spaces pid) (u32Sub (u32 (vaddr + len)) 1) = none := by
    rw [u32_of_lt hend, u32Sub_of_le (by omega) hend]
    exact hsub _ _ (by omega) (by omega)
  have h₃ : LOS_RegionRangeFind (s.spaces pid) vaddr (u32Sub len 1) = none := by
    rw [u32Sub_of_le hlen (by omega)]
    exact hsub _ _ le_rfl (by omega)
  unfold OsAllocSpecificRangeWith
  by_cases hin : LOS_IsRangeInSpace (s.spaces pid) vaddr len <;> simp [hin, h₁, h₂, h₃]

/-- `LOS_RegionAlloc` at a fixed address of a free range: the new region
enters the tree when the range is in the space. -/
theorem LOS_RegionAllocWith_of_free {vaddr len regionFlags : Nat}
    (hok : TreeOk (s.spaces pid).regions s.nextRegion) (hv : 0 < vaddr) (hlen : 0 < len)
    (hend : vaddr + len < 2 ^ 32) (hfree : ∀ r ∈ (s.spaces pid).regions, ¬ r.Meets vaddr len) :
    LOS_RegionAllocWith unmap s cur pid vaddr len regionFlags =
      if LOS_IsRangeInSpace (s.spaces pid) vaddr len then
        (some ⟨s.nextRegion, vaddr, len, regionFlags, 0xFFFFFFFF⟩,
          { s with nextRegion := s.nextRegion + 1 }.setSpace pid
            { s.spaces pid with
              regions := insertRegion ⟨s.nextRegion, vaddr, len, regionFlags, 0xFFFFFFFF⟩ (s.spaces pid).regions })
      else (none, s) := by
  have hins : OsFindRegion (s.spaces pid).regions vaddr len = none :=
    OsFindRegion_eq_none hok hv hend fun r hr hm => hfree r hr (hm.mono le_rfl (by omega))
  unfold LOS_RegionAllocWith
  rw [if_neg hv.ne', OsAllocSpecificRangeWith_of_free hok hv hlen hend hfree]
  by_cases hin : LOS_IsRangeInSpace (s.spaces pid) vaddr len
  · simp [hin, hv.ne', OsCreateRegion, OsInsertRegion, hins]
  · simp [hin]

/-- `OsVmRegionDup` at a fixed address of a free range: `fixedCopy`
enters the tree when the range is in the space. -/
theorem OsVmRegionDupWith_of_free {old : LosVmMapRegion} {vaddr size : Nat}
    (hok : TreeOk (s.spaces pid).regions s.nextRegion) (hv : 0 < vaddr) (hsize : 0 < size)
    (hend : vaddr + size < 2 ^ 32) (hfree : ∀ r ∈ (s.spaces pid).regions, ¬ r.Meets vaddr size) :
    OsVmRegionDupWith unmap s cur pid old vaddr size =
      if LOS_IsRangeInSpace (s.spaces pid) vaddr size then
        (some (fixedCopy old vaddr size s.nextRegion),
          { s with nextRegion := s.nextRegion + 1 }.setSpace pid
            { s.spaces pid with
              regions := insertRegion (fixedCopy old vaddr size s.nextRegion) (s.spaces pid).regions })
      else (none, s) := by
  unfold OsVmRegionDupWith
  dsimp only
  rw [if_neg hv.ne', LOS_RegionAllocWith_of_free hok hv hsize hend hfree]
  by_cases hin : LOS_IsRangeInSpace (s.spaces pid) vaddr size
  · rw [if_pos hin, if_pos hin]
    dsimp only
    split
    · -- shared memory: the copy takes over the segment, and no other region has its id
      rename_i hshm
      have hmap := map_insertRegion
        (t := ⟨s.nextRegion, vaddr, size, old.regionFlags ||| VM_MAP_REGION_FLAG_FIXED, 0xFFFFFFFF⟩)
        (u := ⟨s.nextRegion, vaddr, size, old.regionFlags ||| VM_MAP_REGION_FLAG_FIXED, old.shmid⟩) rfl rfl
        fun x hx => (hok.fresh x hx).ne
      simp only [VmSys.setSpace, Function.update_self, Function.update_idem, setRegion, hmap, fixedCopy,
        if_pos hshm]
    · rename_i hshm
      simp only [fixedCopy, if_neg hshm]
  · rw [if_neg hin, if_neg hin]

-- ============================================================ the cut

/-- A cut inside the region shrinks its record to `cutHead` and copies
the rest to the fixed address `n`. -/
theorem OsVmRegionSplitWith_dup {r : LosVmMapRegion} {n : Nat} (hn : r.Crosses n)
    (hfit : r.base + r.size < 2 ^ 32) :
    OsVmRegionSplitWith unmap s cur pid r n =
      OsVmRegionDupWith unmap (s.setSpace pid (setRegion (s.spaces pid) (cutHead r n))) cur pid (cutHead r n) n
        (r.base + r.size - n) := by
  unfold Crosses at hn
  have hsize : LOS_RegionSize n (LOS_RegionEndAddr r) = r.base + r.size - n := by
    unfold LOS_RegionSize
    rw [LOS_RegionEndAddr_eq (by omega) hfit, u32Sub_of_le (by omega) (by omega), u32_of_lt (by omega)]
    omega
  have hhead : LOS_RegionSize r.base (u32Sub n 1) = n - r.base := by
    have hn1 : u32Sub n 1 = n - 1 := u32Sub_of_le (by omega) (by omega)
    unfold LOS_RegionSize
    rw [hn1, u32Sub_of_le (by omega) (by omega), u32_of_lt (by omega)]
    omega
  unfold OsVmRegionSplitWith
  dsimp only
  rw [hsize, hhead, if_neg (by omega)]
  rfl

/-- The tree after the shrink, and the range of the copy free in it. -/
theorem cut_state {r : LosVmMapRegion} {n : Nat} (hok : TreeOk (s.spaces pid).regions s.nextRegion)
    (hr : r ∈ (s.spaces pid).regions) (hn : r.Crosses n) :
    let s₂ := s.setSpace pid (setRegion (s.spaces pid) (cutHead r n))
    TreeOk (s₂.spaces pid).regions s₂.nextRegion ∧
      ∀ x ∈ (s₂.spaces pid).regions, ¬ x.Meets n (r.base + r.size - n) := by
  simp only [VmSys.setSpace_spaces, Function.update_self, VmSys.setSpace_nextRegion]
  exact ⟨TreeOk.cut rfl hok hr hn, cut_free rfl hok hr hn⟩

/-- On a well-formed tree a cut never calls the unmap routine. -/
theorem OsVmRegionSplitWith_unmap (unmap' : VmSys → Nat → Nat → Nat → Int × VmSys) {r : LosVmMapRegion}
    {n : Nat} (hok : TreeOk (s.spaces pid).regions s.nextRegion) (hr : r ∈ (s.spaces pid).regions)
    (hn : r.Crosses n) :
    OsVmRegionSplitWith unmap s cur pid r n = OsVmRegionSplitWith unmap' s cur pid r n := by
  have hfit := hok.fits r hr
  obtain ⟨hok₂, hfree₂⟩ := cut_state hok hr hn
  unfold Crosses at hn
  rw [OsVmRegionSplitWith_dup ⟨hn.1, hn.2⟩ hfit, OsVmRegionSplitWith_dup ⟨hn.1, hn.2⟩ hfit,
    OsVmRegionDupWith_of_free hok₂ (by omega) (by omega) (by omega) hfree₂,
    OsVmRegionDupWith_of_free hok₂ (by omega) (by omega) (by omega) hfree₂]

/-- A cut that succeeds leaves a well-formed tree of pieces of the old
one, holding the same addresses, with no region across `n`, and keeps
a page-aligned tree aligned when `n` is a page boundary. -/
theorem OsVmRegionSplitWith_cut {r t : LosVmMapRegion} {n : Nat} {s' : VmSys}
    (hok : TreeOk (s.spaces pid).regions s.nextRegion) (hr : r ∈ (s.spaces pid).regions) (hn : r.Crosses n)
    (h : OsVmRegionSplitWith unmap s cur pid r n = (some t, s')) :
    TreeOk (s'.spaces pid).regions s'.nextRegion ∧ Pieces (s'.spaces pid).regions (s.spaces pid).regions ∧
      (∀ p ∈ (s'.spaces pid).regions, ¬ p.Crosses n) ∧
      (RegionsAligned (s.spaces pid).regions → n % PAGE_SIZE = 0 → RegionsAligned (s'.spaces pid).regions) := by
  have hfit := hok.fits r hr
  obtain ⟨hok₂, hfree₂⟩ := cut_state hok hr hn
  have hn' := hn
  unfold Crosses at hn'
  rw [OsVmRegionSplitWith_dup hn hfit, OsVmRegionDupWith_of_free hok₂ (by omega) (by omega) (by omega) hfree₂]
    at h
  split_ifs at h
  · obtain ⟨-, rfl⟩ := Prod.mk.inj h
    obtain ⟨hok', hpieces, hcross⟩ := cut_insert rfl hok hr hn
    simp only [VmSys.setSpace_spaces, Function.update_self, VmSys.setSpace_nextRegion]
    exact ⟨hok', hpieces, hcross, fun hal hna => cut_aligned rfl hok hr hn hal hna⟩
  · cases h

-- ============================================================ the unmap nested in a removal

/-- The second cut of `OsVmRegionAdjust` never calls the unmap routine. -/
theorem OsVmRegionAdjust.splitEnd_unmap (unmap' : VmSys → Nat → Nat → Nat → Int × VmSys)
    (hok : TreeOk (s.spaces pid).regions s.nextRegion) {p : Nat} (hp : p < 2 ^ 32) :
    OsVmRegionAdjust.splitEnd unmap s cur pid p = OsVmRegionAdjust.splitEnd unmap' s cur pid p := by
  unfold OsVmRegionAdjust.splitEnd
  split
  · rename_i region hfind
    obtain ⟨hr, hhold⟩ := hok.find_some rfl (u32Sub_lt _ _) hfind
    have hpos := hok.size_pos region hr
    have hfit := hok.fits region hr
    split
    · -- the region holds the byte before `p`, which is not the top byte, and runs past `p`
      rename_i hlt
      rw [LOS_RegionEndAddr_eq hpos hfit] at hlt
      rcases Nat.eq_zero_or_pos p with rfl | hp0
      · rw [show u32Sub 0 1 = 2 ^ 32 - 1 from rfl] at hhold
        unfold Holds at hhold
        omega
      rw [u32Sub_of_le hp0 hp] at hhold
      unfold Holds at hhold
      rw [OsVmRegionSplitWith_unmap unmap' hok hr ⟨by omega, by omega⟩]
    · rfl
  · rfl

/-- On a well-formed tree `OsVmRegionAdjust` never calls the unmap
routine. -/
theorem OsVmRegionAdjustWith_unmap (unmap' : VmSys → Nat → Nat → Nat → Int × VmSys)
    (hok : TreeOk (s.spaces pid).regions s.nextRegion) {b z : Nat} (hb : b < 2 ^ 32) :
    OsVmRegionAdjustWith unmap s cur pid b z = OsVmRegionAdjustWith unmap' s cur pid b z := by
  unfold OsVmRegionAdjustWith
  dsimp only
  split
  · rename_i region hfind
    obtain ⟨hr, hhold⟩ := hok.find_some rfl hb hfind
    split
    · rename_i hlt
      have hn : region.Crosses b := ⟨hlt, hhold.2⟩
      rw [← OsVmRegionSplitWith_unmap unmap' hok hr hn]
      have hcut := fun t s₁ => @OsVmRegionSplitWith_cut unmap s cur pid region t b s₁ hok hr hn
      generalize OsVmRegionSplitWith unmap s cur pid region b = cut at hcut ⊢
      obtain ⟨_ | t, s₁⟩ := cut
      · rfl
      · exact OsVmRegionAdjust.splitEnd_unmap unmap' (hcut t s₁ rfl).1 (u32_lt _)
    · exact OsVmRegionAdjust.splitEnd_unmap unmap' hok (u32_lt _)
  · exact OsVmRegionAdjust.splitEnd_unmap unmap' hok (u32_lt _)

theorem OsRegionsRemoveWith_unmap (unmap' : VmSys → Nat → Nat → Nat → Int × VmSys)
    (hok : TreeOk (s.spaces pid).regions s.nextRegion) {b z : Nat} (hb : b < 2 ^ 32) :
    OsRegionsRemoveWith unmap s cur pid b z = OsRegionsRemoveWith unmap' s cur pid b z := by
  unfold OsRegionsRemoveWith
  rw [OsVmRegionAdjustWith_unmap unmap' hok hb]

theorem LOS_Align_lt (addr : Nat) : LOS_Align addr PAGE_SIZE < 2 ^ 32 := by
  unfold LOS_Align
  split <;> exact Nat.and_lt_two_pow _ (by decide)

theorem OsUnMMapWith_unmap (unmap' : VmSys → Nat → Nat → Nat → Int × VmSys)
    (hok : TreeOk (s.spaces pid).regions s.nextRegion) (addr size : Nat) :
    OsUnMMapWith unmap s cur pid addr size = OsUnMMapWith unmap' s cur pid addr size := by
  unfold OsUnMMapWith
  dsimp only
  rw [OsRegionsRemoveWith_unmap unmap' hok (LOS_Align_lt addr)]

theorem OsAllocSpecificRangeWith_congr {unmap' : VmSys → Nat → Nat → Nat → Int × VmSys}
    {vaddr len regionFlags : Nat} (h : unmap s cur vaddr len = unmap' s cur vaddr len) :
    OsAllocSpecificRangeWith unmap s cur pid vaddr len regionFlags =
      OsAllocSpecificRangeWith unmap' s cur pid vaddr len regionFlags := by
  unfold OsAllocSpecificRangeWith
  rw [h]

theorem LOS_RegionAllocWith_congr {unmap' : VmSys → Nat → Nat → Nat → Int × VmSys}
    {vaddr len regionFlags : Nat} (h : unmap s cur vaddr len = unmap' s cur vaddr len) :
    LOS_RegionAllocWith unmap s cur pid vaddr len regionFlags =
      LOS_RegionAllocWith unmap' s cur pid vaddr len regionFlags := by
  unfold LOS_RegionAllocWith
  rw [OsAllocSpecificRangeWith_congr h]

end Unmapper

/-- On a well-formed tree of the caller, `LOS_UnMMap` answers alike at
every depth from `1` up. -/
theorem LOS_UnMMapN_succ (d : Nat) {s : VmSys} {cur : Nat} (hok : TreeOk (s.spaces cur).regions s.nextRegion)
    (addr size : Nat) : LOS_UnMMapN (d + 1) s cur addr size = LOS_UnMMapN 1 s cur addr size := by
  rw [LOS_UnMMapN, LOS_UnMMapN]
  split
  · rfl
  · exact OsUnMMapWith_unmap _ hok addr size

theorem LOS_UnMMap_depth (d : Nat) {s : VmSys} {cur : Nat} (hok : TreeOk (s.spaces cur).regions s.nextRegion)
    (addr size : Nat) : LOS_UnMMapN (d + 1) s cur addr size = LOS_UnMMap s cur addr size := by
  rw [LOS_UnMMap, unmapDepth, LOS_UnMMapN_succ d hok, LOS_UnMMapN_succ 1 hok]

/-- `LOS_RegionAlloc` answers alike at every depth of the unmap it may
call, from `1` up. -/
theorem LOS_RegionAlloc_depth (d : Nat) {s : VmSys} {cur : Nat}
    (hok : TreeOk (s.spaces cur).regions s.nextRegion) (pid vaddr len regionFlags : Nat) :
    LOS_RegionAllocWith (LOS_UnMMapN (d + 1)) s cur pid vaddr len regionFlags =
      LOS_RegionAlloc s cur pid vaddr len regionFlags :=
  LOS_RegionAllocWith_congr (LOS_UnMMap_depth d hok vaddr len)

theorem OsVmRegionDup_depth (d : Nat) {s : VmSys} {cur : Nat}
    (hok : TreeOk (s.spaces cur).regions s.nextRegion) (pid : Nat) (oldRegion : LosVmMapRegion)
    (vaddr size : Nat) :
    OsVmRegionDupWith (LOS_UnMMapN (d + 1)) s cur pid oldRegion vaddr size =
      OsVmRegionDup s cur pid oldRegion vaddr size := by
  unfold OsVmRegionDup OsVmRegionDupWith
  simp only [LOS_RegionAllocWith_congr (LOS_UnMMap_depth d hok vaddr size)]
  rfl

end LiteOsA.Vm
