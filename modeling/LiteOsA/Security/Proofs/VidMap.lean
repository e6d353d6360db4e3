/-
The vid map is a partial bijection whose bitmap covers its nodes.

# The invariant

`VidOk` says that the bitmap has `mapCount` words, between one and
`VID_MAP_MAX_NUM` of them (`MapShape`), that the vid of every node is
marked, and that no rid and no vid is in two nodes. Every call keeps it,
whatever its allocations return (`VidOk.apply`, `VidOk.run`).

The other half, that every marked vid is some node's (`Exact`), is kept
by every call whose node allocation succeeds (`Exact.run`). When
`AddNodeByRid`'s node allocation fails after `GetFreeVid` has marked a
vid, the vid stays marked with no node: it is `Leaked`, and stays so in
every run after, so it is never handed out again (`Leaked.run`).

# The calls

`GetFreeVid` hands out a vid that is not marked and marks it
(`GetFreeVid_spec`), and with its allocation it fails only when all
`MAX_INVALID_TIMER_VID` vids are marked (`GetFreeVid_invalid_full`).
`ReleaseVid` unmarks one vid, and its shrink drops only a word with no
mark (`ReleaseVid_spec`). `AddNodeByRid` returns the vid of a mapped
rid, and otherwise a vid of no node, which maps back to the rid
(`AddNodeByRid_of_mem`, `AddNodeByRid_fresh`, `GetRidByVid_AddNodeByRid`).
-/
import LiteOsA.Security.Vid
import Mathlib.Data.List.Nodup

namespace LiteOsA.Vid

-- ============================================================ bits

theorem and_one_shiftLeft_eq_zero (num j : Nat) : (num &&& 1 <<< j == 0) = !num.testBit j := by
  rw [Nat.one_shiftLeft, Nat.and_two_pow]
  cases num.testBit j <;> simp

theorem clearBit_some {num j : Nat} (h : GetFreeVid.clearBit num = some j) :
    j < INT_BIT_COUNT ∧ num.testBit j = false := by
  rw [GetFreeVid.clearBit, List.find?_range_eq_some] at h
  obtain ⟨hj, hmem, -⟩ := h
  rw [and_one_shiftLeft_eq_zero, Bool.not_eq_true'] at hj
  exact ⟨List.mem_range.mp hmem, hj⟩

theorem clearBit_none {num : Nat} (h : GetFreeVid.clearBit num = none) :
    ∀ j < INT_BIT_COUNT, num.testBit j = true := by
  intro j hj
  have hn := List.find?_eq_none.mp h j (List.mem_range.mpr hj)
  simpa [and_one_shiftLeft_eq_zero] using hn

theorem scan_some {m : TimerIdMap} {i j : Nat} (h : GetFreeVid.scan m = some (i, j)) :
    i < m.mapCount ∧ j < INT_BIT_COUNT ∧ (m.bitMap.getD i 0).testBit j = false := by
  rw [GetFreeVid.scan, List.findSome?_eq_some_iff] at h
  obtain ⟨l₁, a, l₂, hl, ha, -⟩ := h
  obtain ⟨j', hj', hij⟩ := Option.map_eq_some_iff.mp ha
  cases hij
  have hmem : i ∈ List.range m.mapCount := by rw [hl]; simp
  exact ⟨List.mem_range.mp hmem, clearBit_some hj'⟩

theorem scan_none {m : TimerIdMap} (h : GetFreeVid.scan m = none) :
    ∀ i < m.mapCount, ∀ j < INT_BIT_COUNT, (m.bitMap.getD i 0).testBit j = true := by
  intro i hi j hj
  rw [GetFreeVid.scan, List.findSome?_eq_none_iff] at h
  exact clearBit_none (Option.map_eq_none_iff.mp (h i (List.mem_range.mpr hi))) j hj

-- ============================================================ marks

/-- The bitmap has `mapCount` words, at least one and at most
`VID_MAP_MAX_NUM`. -/
structure MapShape (m : TimerIdMap) : Prop where
  length : m.bitMap.length = m.mapCount
  count_pos : 0 < m.mapCount
  count_le : m.mapCount ≤ VID_MAP_MAX_NUM

theorem vidUsed_of_length_le {m : TimerIdMap} {v : Nat} (h : m.bitMap.length ≤ v / INT_BIT_COUNT) :
    vidUsed m v = false := by
  simp [vidUsed, List.getD_eq_getElem?_getD, List.getElem?_eq_none h]

theorem MapShape.lt_of_used {m : TimerIdMap} (hs : MapShape m) {v : Nat} (hv : vidUsed m v = true) :
    v < INT_BIT_COUNT * m.mapCount := by
  by_contra hlt
  have hle : m.bitMap.length ≤ v / INT_BIT_COUNT := by
    rw [hs.length]; simp only [INT_BIT_COUNT] at hlt ⊢; omega
  rw [vidUsed_of_length_le hle] at hv
  exact Bool.false_ne_true hv

/-- A marked vid is below `MAX_INVALID_TIMER_VID`. -/
theorem MapShape.lt_max_of_used {m : TimerIdMap} (hs : MapShape m) {v : Nat} (hv : vidUsed m v = true) :
    v < MAX_INVALID_TIMER_VID := by
  have h := hs.lt_of_used hv
  have hc := hs.count_le
  simp only [MAX_INVALID_TIMER_VID, VID_MAP_MAX_NUM, INT_BIT_COUNT] at h hc ⊢
  omega

theorem vidUsed_set {m : TimerIdMap} {i : Nat} (w v : Nat) (hi : i < m.bitMap.length) :
    vidUsed { m with bitMap := m.bitMap.set i w } v =
      if v / INT_BIT_COUNT = i then w.testBit (v % INT_BIT_COUNT) else vidUsed m v := by
  unfold vidUsed
  by_cases hv : v / INT_BIT_COUNT = i
  · simp [List.getD_eq_getElem?_getD, hv, hi]
  · simp [List.getD_eq_getElem?_getD, hv, Ne.symm hv]

/-- The vid of bit `j` of word `i`. -/
theorem vid_div_mod {i j : Nat} (hj : j < INT_BIT_COUNT) :
    (INT_BIT_COUNT * i + j) / INT_BIT_COUNT = i ∧ (INT_BIT_COUNT * i + j) % INT_BIT_COUNT = j := by
  simp only [INT_BIT_COUNT] at hj ⊢; omega

theorem eq_vid_iff {v i j : Nat} (hj : j < INT_BIT_COUNT) :
    v = INT_BIT_COUNT * i + j ↔ v / INT_BIT_COUNT = i ∧ v % INT_BIT_COUNT = j := by
  simp only [INT_BIT_COUNT] at hj ⊢; omega

/-- The word `1` appended after the `mapCount` words marks the vid
`32 * mapCount` and no other. -/
theorem vidUsed_append_one {m : TimerIdMap} (hl : m.bitMap.length = m.mapCount) (c v : Nat) :
    vidUsed { m with bitMap := m.bitMap ++ [1], mapCount := c } v =
      (v == INT_BIT_COUNT * m.mapCount || vidUsed m v) := by
  unfold vidUsed
  rcases Nat.lt_trichotomy (v / INT_BIT_COUNT) m.mapCount with hlt | heq | hgt
  · have hne : v ≠ INT_BIT_COUNT * m.mapCount := by simp only [INT_BIT_COUNT] at hlt ⊢; omega
    simp [List.getD_eq_getElem?_getD, List.getElem?_append_left (hl ▸ hlt), hne]
  · -- the new word: bit `v % 32` of `1`
    have hiff : v = INT_BIT_COUNT * m.mapCount ↔ 0 = v % INT_BIT_COUNT := by
      simp only [INT_BIT_COUNT] at heq ⊢; omega
    have hone : Nat.testBit 1 (v % INT_BIT_COUNT) = decide (0 = v % INT_BIT_COUNT) :=
      @Nat.testBit_two_pow 0 _
    rw [List.getD_eq_getElem?_getD, List.getElem?_append_right (by omega), hl, heq, Nat.sub_self,
      List.getElem?_cons_zero, Option.getD_some, hone, List.getD_eq_getElem?_getD,
      List.getElem?_eq_none (by omega)]
    rw [Option.getD_none, Nat.zero_testBit, Bool.or_false, Bool.beq_eq_decide_eq]
    exact decide_eq_decide.mpr hiff.symm
  · have hne : v ≠ INT_BIT_COUNT * m.mapCount := by simp only [INT_BIT_COUNT] at hgt ⊢; omega
    have hold : m.bitMap[v / INT_BIT_COUNT]? = none := List.getElem?_eq_none (by omega)
    have hnew : (m.bitMap ++ [1])[v / INT_BIT_COUNT]? = none := List.getElem?_eq_none (by simp; omega)
    simp [List.getD_eq_getElem?_getD, hold, hnew, hne]

-- ============================================================ GetFreeVid

theorem GetFreeVid_of_scan_some {m : TimerIdMap} {i j : Nat} (ok : Bool) (h : GetFreeVid.scan m = some (i, j)) :
    GetFreeVid m ok = (INT_BIT_COUNT * i + j,
      { m with bitMap := m.bitMap.set i (m.bitMap.getD i 0 ||| 1 <<< j) }) := by
  simp [GetFreeVid, h]

/-- `GetFreeVid` hands out a vid that was not marked, marks it and
nothing else, and keeps the node list. -/
theorem GetFreeVid_spec {m : TimerIdMap} (hs : MapShape m) (ok : Bool)
    (hne : (GetFreeVid m ok).1 ≠ MAX_INVALID_TIMER_VID) :
    MapShape (GetFreeVid m ok).2 ∧ (GetFreeVid m ok).2.head = m.head ∧
      vidUsed m (GetFreeVid m ok).1 = false ∧
      ∀ v, vidUsed (GetFreeVid m ok).2 v = (v == (GetFreeVid m ok).1 || vidUsed m v) := by
  cases hsc : GetFreeVid.scan m with
  | some p =>
    obtain ⟨i, j⟩ := p
    obtain ⟨hi, hj, hclear⟩ := scan_some hsc
    have hil : i < m.bitMap.length := hs.length ▸ hi
    obtain ⟨hdiv, hmod⟩ := vid_div_mod (i := i) hj
    rw [GetFreeVid_of_scan_some ok hsc]
    refine ⟨⟨by simp [hs.length], hs.count_pos, hs.count_le⟩, rfl, ?_, fun v => ?_⟩
    · simp only [vidUsed, hdiv, hmod]; exact hclear
    · -- the word `i` gains bit `j`, the vid `32 * i + j`
      rw [vidUsed_set _ _ hil]
      by_cases hv : v / INT_BIT_COUNT = i
      · have hveq : (v == INT_BIT_COUNT * i + j) = decide (j = v % INT_BIT_COUNT) := by
          rw [Bool.beq_eq_decide_eq]
          exact decide_eq_decide.mpr (by rw [eq_vid_iff hj]; simp [hv, eq_comm])
        simp only [hv, if_true, Nat.one_shiftLeft, Nat.testBit_or, Nat.testBit_two_pow, vidUsed, hveq]
        exact Bool.or_comm _ _
      · have hne' : v ≠ INT_BIT_COUNT * i + j := fun he => hv (he ▸ hdiv)
        simp [hv, hne']
  | none =>
    -- the bitmap is full and grows by the word `1`
    have hcount : m.mapCount + 1 ≤ VID_MAP_MAX_NUM := by
      by_contra hc
      exact hne (by simp [GetFreeVid, hsc, show m.mapCount + 1 > VID_MAP_MAX_NUM by omega])
    have hok : ok = true := by
      by_contra hk
      exact hne (by simp [GetFreeVid, hsc, show ¬ m.mapCount + 1 > VID_MAP_MAX_NUM by omega, hk])
    have hget : GetFreeVid m ok = (INT_BIT_COUNT * m.mapCount,
        { m with bitMap := m.bitMap.take m.mapCount ++ [1], mapCount := m.mapCount + 1 }) := by
      simp [GetFreeVid, hsc, show ¬ m.mapCount + 1 > VID_MAP_MAX_NUM by omega, hok]
    rw [hget]
    have htake : m.bitMap.take m.mapCount = m.bitMap := List.take_of_length_le (le_of_eq hs.length)
    refine ⟨⟨by simp [htake, hs.length], Nat.succ_pos _, hcount⟩, rfl, ?_, fun v => ?_⟩
    · exact vidUsed_of_length_le (by rw [hs.length]; simp only [INT_BIT_COUNT]; omega)
    · rw [htake]; exact vidUsed_append_one hs.length _ v

/-- When `GetFreeVid` fails, the map is as it was. -/
theorem GetFreeVid_invalid {m : TimerIdMap} (hs : MapShape m) (ok : Bool)
    (h : (GetFreeVid m ok).1 = MAX_INVALID_TIMER_VID) :
    GetFreeVid.scan m = none ∧ (GetFreeVid m ok).2 = m := by
  cases hsc : GetFreeVid.scan m with
  | some p =>
    obtain ⟨i, j⟩ := p
    obtain ⟨hi, hj, -⟩ := scan_some hsc
    rw [GetFreeVid_of_scan_some ok hsc] at h
    -- a vid of a word of the map is below the bound
    have hc := hs.count_le
    simp only [MAX_INVALID_TIMER_VID, VID_MAP_MAX_NUM, INT_BIT_COUNT] at h hi hj hc
    omega
  | none =>
    refine ⟨rfl, ?_⟩
    have hc := hs.count_le
    simp only [GetFreeVid, hsc] at h ⊢
    split_ifs at h ⊢ with h1 h2
    · rfl
    · rfl
    · simp only [MAX_INVALID_TIMER_VID, VID_MAP_MAX_NUM, INT_BIT_COUNT] at h h1 hc
      omega

/-- With its allocation, `GetFreeVid` fails only when every vid below
`MAX_INVALID_TIMER_VID` is marked. -/
theorem GetFreeVid_invalid_full {m : TimerIdMap} (hs : MapShape m)
    (h : (GetFreeVid m true).1 = MAX_INVALID_TIMER_VID) :
    ∀ v < MAX_INVALID_TIMER_VID, vidUsed m v = true := by
  have hsc := (GetFreeVid_invalid hs true h).1
  -- the bitmap could not grow, so it has all `VID_MAP_MAX_NUM` words
  have hfull : m.mapCount = VID_MAP_MAX_NUM := by
    by_contra hne
    have hc := hs.count_le
    simp only [GetFreeVid, hsc, Bool.not_true] at h
    rw [if_neg (by omega), if_neg Bool.false_ne_true] at h
    simp only [MAX_INVALID_TIMER_VID, VID_MAP_MAX_NUM, INT_BIT_COUNT] at h hne hc
    omega
  intro v hv
  have hi : v / INT_BIT_COUNT < m.mapCount := by
    rw [hfull]; simp only [MAX_INVALID_TIMER_VID, VID_MAP_MAX_NUM, INT_BIT_COUNT] at hv ⊢; omega
  exact scan_none hsc _ hi _ (Nat.mod_lt _ (by decide))

-- ============================================================ ReleaseVid

theorem shift_eq_div (v : Nat) : v >>> INT_BIT_SHIFT = v / INT_BIT_COUNT := by
  rw [Nat.shiftRight_eq_div_pow]; rfl

theorem and_eq_mod (v : Nat) : v &&& (INT_BIT_COUNT - 1) = v % INT_BIT_COUNT :=
  Nat.and_two_pow_sub_one_eq_mod v 5

/-- `~(1 << b)` clears bit `b` of a word and no other. -/
theorem testBit_clearMask {b k : Nat} (hk : k < INT_BIT_COUNT) :
    ((2 ^ 32 - 1) ^^^ 1 <<< b).testBit k = !(b == k) := by
  rw [Nat.testBit_xor, Nat.testBit_two_pow_sub_one, Nat.one_shiftLeft, Nat.testBit_two_pow]
  simp only [INT_BIT_COUNT] at hk
  simp [hk, Bool.beq_eq_decide_eq]

/-- Dropping the last word, when it has no mark, keeps every mark. -/
theorem vidUsed_take_of_last {bm : List Nat} {c : Nat} (hl : bm.length = c) (hz : bm.getD (c - 1) 0 = 0)
    (h : List TimerIdMapNode) (c' v : Nat) :
    vidUsed ⟨h, bm.take (c - 1), c'⟩ v = vidUsed ⟨h, bm, c⟩ v := by
  unfold vidUsed
  by_cases hv : v / INT_BIT_COUNT < c - 1
  · simp [List.getD_eq_getElem?_getD, hv]
  · by_cases hlast : v / INT_BIT_COUNT = c - 1
    · rw [hlast, hz]
      simp only [List.getD_eq_getElem?_getD, List.getElem?_take]
      simp
    · have hnone : bm[v / INT_BIT_COUNT]? = none := List.getElem?_eq_none (by omega)
      simp only [List.getD_eq_getElem?_getD, List.getElem?_take]
      simp [hv, hnone]

/-- `ReleaseVid` of a vid of the map's words unmarks it and nothing
else, and keeps the node list. -/
theorem ReleaseVid_spec {m : TimerIdMap} (hs : MapShape m) {v : Nat} (hv : v < INT_BIT_COUNT * m.mapCount)
    (ok : Bool) :
    MapShape (ReleaseVid m v ok) ∧ (ReleaseVid m v ok).head = m.head ∧
      ∀ u, vidUsed (ReleaseVid m v ok) u = (vidUsed m u && u != v) := by
  have hc := hs.count_le
  have hmax : ¬ v ≥ VID_MAP_MAX_NUM * INT_BIT_COUNT := by
    simp only [VID_MAP_MAX_NUM, INT_BIT_COUNT] at hc hv ⊢; omega
  have ha : v / INT_BIT_COUNT < m.bitMap.length := by
    rw [hs.length]; simp only [INT_BIT_COUNT] at hv ⊢; omega
  -- the word of `v` loses bit `v % 32`
  have hclear : ∀ u, vidUsed { m with bitMap := (m.bitMap.set (v / INT_BIT_COUNT)
      (m.bitMap.getD (v / INT_BIT_COUNT) 0 &&& ((2 ^ 32 - 1) ^^^ 1 <<< (v % INT_BIT_COUNT)))) } u =
        (vidUsed m u && u != v) := by
    intro u
    rw [vidUsed_set _ _ ha]
    by_cases hu : u / INT_BIT_COUNT = v / INT_BIT_COUNT
    · have hk : u % INT_BIT_COUNT < INT_BIT_COUNT := Nat.mod_lt _ (by decide)
      have hiff : v % INT_BIT_COUNT = u % INT_BIT_COUNT ↔ u = v := by
        simp only [INT_BIT_COUNT] at hu ⊢; omega
      have hbeq : (v % INT_BIT_COUNT == u % INT_BIT_COUNT) = (u == v) := by
        rw [Bool.beq_eq_decide_eq, Bool.beq_eq_decide_eq]
        exact decide_eq_decide.mpr hiff
      rw [if_pos hu, Nat.testBit_and, testBit_clearMask hk, hbeq]
      simp only [vidUsed, hu]
      rfl
    · have hne : u ≠ v := fun he => hu (he ▸ rfl)
      simp [hu, hne]
  unfold ReleaseVid
  rw [if_neg hmax, shift_eq_div, and_eq_mod]
  dsimp only
  split_ifs with h1 h2 h3
  · -- the last word is empty and the bitmap shrinks by it
    refine ⟨⟨by simp [hs.length], by dsimp only; omega, by dsimp only; omega⟩, rfl, fun u => ?_⟩
    rw [vidUsed_take_of_last (by simp [hs.length]) h2]
    exact hclear u
  all_goals exact ⟨⟨by simp [hs.length], hs.count_pos, hc⟩, rfl, hclear⟩

-- ============================================================ searches

theorem findListNode_eq_none {m : TimerIdMap} {key : TimerIdMapNode → Nat} {k : Nat} :
    findListNode m key k = none ↔ ∀ n ∈ m.head, key n ≠ k := by
  unfold findListNode
  rw [List.find?_eq_none]
  refine forall₂_congr fun n _ => ?_
  simp only [beq_iff_eq]
  exact ⟨fun h he => h he.symm, fun h he => h he.symm⟩

theorem findListNode_some {m : TimerIdMap} {key : TimerIdMapNode → Nat} {k : Nat} {n : TimerIdMapNode}
    (h : findListNode m key k = some n) : n ∈ m.head ∧ key n = k := by
  unfold findListNode at h
  refine ⟨List.mem_of_find?_eq_some h, ?_⟩
  have hk := List.find?_some h
  rw [beq_iff_eq] at hk
  exact hk.symm

/-- With no field `key` in two nodes, the walk finds the node that has
it. -/
theorem findListNode_of_mem {m : TimerIdMap} {key : TimerIdMapNode → Nat} {n : TimerIdMapNode}
    (hnd : (m.head.map key).Nodup) (hn : n ∈ m.head) : findListNode m key (key n) = some n := by
  obtain ⟨n', hfind⟩ : ∃ n', findListNode m key (key n) = some n' :=
    Option.isSome_iff_exists.mp (List.find?_isSome.mpr ⟨n, hn, by simp⟩)
  obtain ⟨hmem, hk⟩ := findListNode_some hfind
  rw [hfind, List.inj_on_of_nodup_map hnd hmem hn hk]

-- ============================================================ the invariant

/-- The vid map: its bitmap's shape, every node's vid marked, and no rid
and no vid in two nodes. -/
structure VidOk (m : TimerIdMap) : Prop where
  shape : MapShape m
  marked : ∀ n ∈ m.head, vidUsed m n.vid = true
  rids : (m.head.map TimerIdMapNode.rid).Nodup
  vids : (m.head.map TimerIdMapNode.vid).Nodup

/-- Every marked vid is a node's. -/
def Exact (m : TimerIdMap) : Prop := ∀ v, vidUsed m v = true → ∃ n ∈ m.head, n.vid = v

/-- The marks are the bitmap's: the node list does not enter them. -/
@[simp] theorem vidUsed_head (m : TimerIdMap) (hd : List TimerIdMapNode) (v : Nat) :
    vidUsed { m with head := hd } v = vidUsed m v := rfl

theorem MapShape.head {m : TimerIdMap} (hs : MapShape m) (hd : List TimerIdMapNode) :
    MapShape { m with head := hd } := ⟨hs.length, hs.count_pos, hs.count_le⟩

/-- A node's vid is below `32 * mapCount`. -/
theorem VidOk.vid_lt {m : TimerIdMap} (h : VidOk m) {n : TimerIdMapNode} (hn : n ∈ m.head) :
    n.vid < INT_BIT_COUNT * m.mapCount :=
  h.shape.lt_of_used (h.marked n hn)

/-- A vid with no mark is no node's. -/
theorem VidOk.vid_ne_of_free {m : TimerIdMap} (h : VidOk m) {n : TimerIdMapNode} (hn : n ∈ m.head)
    {v : Nat} (hv : vidUsed m v = false) : n.vid ≠ v := by
  intro he
  have hm := h.marked n hn
  rw [he, hv] at hm
  exact Bool.false_ne_true hm

theorem VidOk.head_nodup {m : TimerIdMap} (h : VidOk m) : m.head.Nodup :=
  List.Nodup.of_map _ h.vids

theorem VidOk.init {m : TimerIdMap} (h : VidMapListInit true = some m) : VidOk m := by
  simp only [VidMapListInit, if_true, Option.some.injEq] at h
  subst h
  exact ⟨⟨rfl, Nat.one_pos, by decide⟩, by simp, by simp, by simp⟩

theorem Exact.init {m : TimerIdMap} (h : VidMapListInit true = some m) : Exact m := by
  simp only [VidMapListInit, if_true, Option.some.injEq] at h
  subst h
  intro v hv
  -- the one word is `0`
  simp [vidUsed, List.getD_eq_getElem?_getD] at hv

-- ============================================================ AddNodeByRid

/-- A mapped rid gives back its own vid, and the map stays as it is. -/
theorem AddNodeByRid_of_mem {m : TimerIdMap} (h : VidOk m) {n : TimerIdMapNode} (hn : n ∈ m.head)
    (mapAllocOk nodeAllocOk : Bool) : AddNodeByRid m n.rid mapAllocOk nodeAllocOk = (n.vid, m) := by
  simp [AddNodeByRid, FindListNodeByRid, findListNode_of_mem h.rids hn]

theorem AddNodeByRid_of_not_mem {m : TimerIdMap} {rid : Nat} (hr : ∀ n ∈ m.head, n.rid ≠ rid)
    (mapAllocOk nodeAllocOk : Bool) :
    AddNodeByRid m rid mapAllocOk nodeAllocOk =
      if (GetFreeVid m mapAllocOk).1 = MAX_INVALID_TIMER_VID then
        (MAX_INVALID_TIMER_VID, (GetFreeVid m mapAllocOk).2)
      else if !nodeAllocOk then (MAX_INVALID_TIMER_VID, (GetFreeVid m mapAllocOk).2)
      else ((GetFreeVid m mapAllocOk).1, { (GetFreeVid m mapAllocOk).2 with
        head := (GetFreeVid m mapAllocOk).2.head ++ [⟨rid, (GetFreeVid m mapAllocOk).1⟩] }) := by
  have hnone : FindListNodeByRid m rid = none := findListNode_eq_none.mpr hr
  simp only [AddNodeByRid, hnone]

/-- An unmapped rid gets `MAX_INVALID_TIMER_VID` or a vid of no node,
and a valid one comes with its node at the tail of the list. -/
theorem AddNodeByRid_fresh {m : TimerIdMap} (h : VidOk m) {rid : Nat} (hr : ∀ n ∈ m.head, n.rid ≠ rid)
    (mapAllocOk nodeAllocOk : Bool)
    (hne : (AddNodeByRid m rid mapAllocOk nodeAllocOk).1 ≠ MAX_INVALID_TIMER_VID) :
    vidUsed m (AddNodeByRid m rid mapAllocOk nodeAllocOk).1 = false ∧
      (∀ n ∈ m.head, n.vid ≠ (AddNodeByRid m rid mapAllocOk nodeAllocOk).1) ∧
      (AddNodeByRid m rid mapAllocOk nodeAllocOk).2.head =
        m.head ++ [⟨rid, (AddNodeByRid m rid mapAllocOk nodeAllocOk).1⟩] := by
  rw [AddNodeByRid_of_not_mem hr] at hne ⊢
  split_ifs at hne ⊢ with h1 h2
  · exact absurd rfl hne
  · exact absurd rfl hne
  · obtain ⟨-, hhead, hfree, -⟩ := GetFreeVid_spec h.shape mapAllocOk h1
    exact ⟨hfree, fun n hn => h.vid_ne_of_free hn hfree, by rw [hhead]⟩

/-- `AddNodeByRid` keeps the invariant, whatever its allocations
return. -/
theorem VidOk.add {m : TimerIdMap} (h : VidOk m) (rid : Nat) (mapAllocOk nodeAllocOk : Bool) :
    VidOk (AddNodeByRid m rid mapAllocOk nodeAllocOk).2 := by
  by_cases hr : ∃ n ∈ m.head, n.rid = rid
  · obtain ⟨n, hn, rfl⟩ := hr
    rw [AddNodeByRid_of_mem h hn]
    exact h
  simp only [not_exists, not_and] at hr
  rw [AddNodeByRid_of_not_mem hr]
  split_ifs with h1 h2
  · rw [(GetFreeVid_invalid h.shape mapAllocOk h1).2]; exact h
  all_goals
    obtain ⟨hshape, hhead, hfree, hused⟩ := GetFreeVid_spec h.shape mapAllocOk h1
  · -- the vid stays marked with no node
    refine ⟨hshape, fun n hn => ?_, hhead ▸ h.rids, hhead ▸ h.vids⟩
    rw [hhead] at hn
    rw [hused, h.marked n hn, Bool.or_true]
  · dsimp only
    refine ⟨hshape.head _, fun n hn => ?_, ?_, ?_⟩
    · simp only [List.mem_append, List.mem_singleton, hhead] at hn
      rw [vidUsed_head, hused]
      rcases hn with hn | rfl
      · rw [h.marked n hn, Bool.or_true]
      · simp
    · simp only [hhead, List.map_append, List.map_cons, List.map_nil]
      exact List.nodup_append.mpr ⟨h.rids, List.nodup_singleton _, by simpa using hr⟩
    · simp only [hhead, List.map_append, List.map_cons, List.map_nil]
      refine List.nodup_append.mpr ⟨h.vids, List.nodup_singleton _, ?_⟩
      simp only [List.mem_map, List.mem_singleton, ne_eq, forall_exists_index, and_imp]
      rintro _ n hn rfl _ rfl
      exact h.vid_ne_of_free hn hfree

/-- `AddNodeByRid` keeps every mark a node's when the node's allocation
succeeds. -/
theorem Exact.add {m : TimerIdMap} (h : VidOk m) (he : Exact m) (rid : Nat) (mapAllocOk : Bool) :
    Exact (AddNodeByRid m rid mapAllocOk true).2 := by
  by_cases hr : ∃ n ∈ m.head, n.rid = rid
  · obtain ⟨n, hn, rfl⟩ := hr
    rw [AddNodeByRid_of_mem h hn]
    exact he
  simp only [not_exists, not_and] at hr
  rw [AddNodeByRid_of_not_mem hr]
  split_ifs with h1 h2
  · rw [(GetFreeVid_invalid h.shape mapAllocOk h1).2]; exact he
  · exact absurd h2 (by decide)
  · obtain ⟨-, hhead, -, hused⟩ := GetFreeVid_spec h.shape mapAllocOk h1
    intro v hv
    dsimp only at hv ⊢
    rw [vidUsed_head, hused] at hv
    rcases Bool.or_eq_true_iff.mp hv with hv | hv
    · -- the vid just handed out is the new node's
      exact ⟨_, List.mem_append_right _ (List.mem_singleton_self _), (beq_iff_eq.mp hv).symm⟩
    · obtain ⟨n, hn, rfl⟩ := he v hv
      exact ⟨n, List.mem_append_left _ (hhead ▸ hn), rfl⟩

/-- A vid that `AddNodeByRid` hands out maps back to the rid. -/
theorem GetRidByVid_AddNodeByRid {m : TimerIdMap} (h : VidOk m) (rid : Nat) (mapAllocOk nodeAllocOk : Bool)
    (hne : (AddNodeByRid m rid mapAllocOk nodeAllocOk).1 ≠ MAX_INVALID_TIMER_VID) :
    GetRidByVid (AddNodeByRid m rid mapAllocOk nodeAllocOk).2 (AddNodeByRid m rid mapAllocOk nodeAllocOk).1 =
      rid := by
  by_cases hr : ∃ n ∈ m.head, n.rid = rid
  · obtain ⟨n, hn, rfl⟩ := hr
    rw [AddNodeByRid_of_mem h hn]
    simp [GetRidByVid, FindListNodeByVid, findListNode_of_mem h.vids hn]
  simp only [not_exists, not_and] at hr
  obtain ⟨-, -, hhead⟩ := AddNodeByRid_fresh h hr mapAllocOk nodeAllocOk hne
  -- the new node is in the list, and its vid is in no other node
  have hn : (⟨rid, (AddNodeByRid m rid mapAllocOk nodeAllocOk).1⟩ : TimerIdMapNode) ∈
      (AddNodeByRid m rid mapAllocOk nodeAllocOk).2.head := by
    rw [hhead]; exact List.mem_append_right _ (List.mem_singleton_self _)
  have hfind := findListNode_of_mem (h.add rid mapAllocOk nodeAllocOk).vids hn
  simp only at hfind
  simp [GetRidByVid, FindListNodeByVid, hfind]

/-- With both allocations, an unmapped rid gets `MAX_INVALID_TIMER_VID`
only when every vid below it is a node's. -/
theorem AddNodeByRid_invalid_full {m : TimerIdMap} (h : VidOk m) (he : Exact m) {rid : Nat}
    (hr : ∀ n ∈ m.head, n.rid ≠ rid) (hmax : (AddNodeByRid m rid true true).1 = MAX_INVALID_TIMER_VID) :
    ∀ v < MAX_INVALID_TIMER_VID, ∃ n ∈ m.head, n.vid = v := by
  rw [AddNodeByRid_of_not_mem hr] at hmax
  split_ifs at hmax with h1 h2
  · exact fun v hv => he v (GetFreeVid_invalid_full h.shape h1 v hv)
  · exact absurd h2 (by decide)
  · exact absurd hmax h1

-- ============================================================ RemoveNodeByVid

theorem RemoveNodeByVid_of_mem {m : TimerIdMap} (h : VidOk m) {n : TimerIdMapNode} (hn : n ∈ m.head)
    (ok : Bool) : RemoveNodeByVid m n.vid ok = ReleaseVid { m with head := m.head.erase n } n.vid ok := by
  simp [RemoveNodeByVid, FindListNodeByVid, findListNode_of_mem h.vids hn]

theorem RemoveNodeByVid_of_not_mem {m : TimerIdMap} {vid : Nat} (hv : ∀ n ∈ m.head, n.vid ≠ vid)
    (ok : Bool) : RemoveNodeByVid m vid ok = m := by
  have hnone : FindListNodeByVid m vid = none := findListNode_eq_none.mpr hv
  simp only [RemoveNodeByVid, hnone]

/-- Removing the node of a vid takes it out of the list and unmarks
that vid and no other. -/
theorem RemoveNodeByVid_spec {m : TimerIdMap} (h : VidOk m) {n : TimerIdMapNode} (hn : n ∈ m.head)
    (ok : Bool) :
    MapShape (RemoveNodeByVid m n.vid ok) ∧ (RemoveNodeByVid m n.vid ok).head = m.head.erase n ∧
      ∀ u, vidUsed (RemoveNodeByVid m n.vid ok) u = (vidUsed m u && u != n.vid) := by
  rw [RemoveNodeByVid_of_mem h hn]
  exact ReleaseVid_spec (h.shape.head (m.head.erase n)) (h.vid_lt hn) ok

theorem VidOk.remove {m : TimerIdMap} (h : VidOk m) (vid : Nat) (ok : Bool) :
    VidOk (RemoveNodeByVid m vid ok) := by
  by_cases hv : ∃ n ∈ m.head, n.vid = vid
  · obtain ⟨n, hn, rfl⟩ := hv
    obtain ⟨hshape, hhead, hused⟩ := RemoveNodeByVid_spec h hn ok
    have hsub : (m.head.erase n).Sublist m.head := List.erase_sublist
    refine ⟨hshape, fun n' hn' => ?_, ?_, ?_⟩
    · rw [hhead, h.head_nodup.mem_erase_iff] at hn'
      rw [hused, h.marked n' hn'.2, Bool.true_and]
      -- another node has another vid
      exact bne_iff_ne.mpr fun he => hn'.1 (List.inj_on_of_nodup_map h.vids hn'.2 hn he)
    · rw [hhead]; exact h.rids.sublist (hsub.map _)
    · rw [hhead]; exact h.vids.sublist (hsub.map _)
  · simp only [not_exists, not_and] at hv
    rw [RemoveNodeByVid_of_not_mem hv]
    exact h

theorem Exact.remove {m : TimerIdMap} (h : VidOk m) (he : Exact m) (vid : Nat) (ok : Bool) :
    Exact (RemoveNodeByVid m vid ok) := by
  by_cases hv : ∃ n ∈ m.head, n.vid = vid
  · obtain ⟨n, hn, rfl⟩ := hv
    obtain ⟨-, hhead, hused⟩ := RemoveNodeByVid_spec h hn ok
    intro u hu
    rw [hused, Bool.and_eq_true, bne_iff_ne] at hu
    obtain ⟨n', hn', rfl⟩ := he _ hu.1
    -- the node of another vid is not the one removed
    have hne : n' ≠ n := fun he' => hu.2 (he' ▸ rfl)
    exact ⟨n', hhead ▸ (List.mem_erase_of_ne hne).mpr hn', rfl⟩
  · simp only [not_exists, not_and] at hv
    rw [RemoveNodeByVid_of_not_mem hv]
    exact he

-- ============================================================ runs

theorem VidOk.apply {m : TimerIdMap} (h : VidOk m) : ∀ c : VidCall, VidOk (c.apply m)
  | .add rid mapAllocOk nodeAllocOk => h.add rid mapAllocOk nodeAllocOk
  | .remove vid ok => h.remove vid ok
  | .get _ => h

/-- Every run keeps the invariant, whatever its allocations return. -/
theorem VidOk.run {m : TimerIdMap} (h : VidOk m) (cs : List VidCall) : VidOk (runCalls m cs) := by
  induction cs generalizing m with
  | nil => exact h
  | cons c cs ih => exact ih (h.apply c)

/-- The call's node allocation, if it makes one, succeeds. -/
def VidCall.NodeAllocOk : VidCall → Prop
  | .add _ _ nodeAllocOk => nodeAllocOk = true
  | _ => True

theorem Exact.apply {m : TimerIdMap} (h : VidOk m) (he : Exact m) :
    ∀ c : VidCall, c.NodeAllocOk → Exact (c.apply m)
  | .add rid mapAllocOk _, hb => by
    subst hb
    exact Exact.add h he rid mapAllocOk
  | .remove vid ok, _ => Exact.remove h he vid ok
  | .get _, _ => he

/-- Every run whose node allocations succeed keeps every mark a node's. -/
theorem Exact.run {m : TimerIdMap} (h : VidOk m) (he : Exact m) (cs : List VidCall)
    (hcs : ∀ c ∈ cs, c.NodeAllocOk) : Exact (runCalls m cs) := by
  induction cs generalizing m with
  | nil => exact he
  | cons c cs ih =>
    exact ih (h.apply c) (Exact.apply h he c (hcs c List.mem_cons_self))
      fun c' hc' => hcs c' (List.mem_cons_of_mem c hc')

-- ============================================================ lost vids

/-- The vid `v` is marked and no node's: lost to the map. -/
def Leaked (m : TimerIdMap) (v : Nat) : Prop := vidUsed m v = true ∧ ∀ n ∈ m.head, n.vid ≠ v

theorem ne_of_used_free {m : TimerIdMap} {u v : Nat} (hu : vidUsed m u = false) (hv : vidUsed m v = true) :
    u ≠ v := by
  rintro rfl
  rw [hu] at hv
  exact Bool.false_ne_true hv

/-- `AddNodeByRid` never hands out a lost vid. -/
theorem Leaked.add_ne {m : TimerIdMap} (h : VidOk m) {v : Nat} (hl : Leaked m v) (rid : Nat)
    (mapAllocOk nodeAllocOk : Bool) : (AddNodeByRid m rid mapAllocOk nodeAllocOk).1 ≠ v := by
  by_cases hr : ∃ n ∈ m.head, n.rid = rid
  · obtain ⟨n, hn, rfl⟩ := hr
    rw [AddNodeByRid_of_mem h hn]
    exact hl.2 n hn
  simp only [not_exists, not_and] at hr
  by_cases hmax : (AddNodeByRid m rid mapAllocOk nodeAllocOk).1 = MAX_INVALID_TIMER_VID
  · -- a marked vid is below the bound
    rw [hmax]
    exact (Nat.ne_of_lt (h.shape.lt_max_of_used hl.1)).symm
  · exact ne_of_used_free (AddNodeByRid_fresh h hr mapAllocOk nodeAllocOk hmax).1 hl.1

theorem Leaked.apply {m : TimerIdMap} (h : VidOk m) {v : Nat} (hl : Leaked m v) :
    ∀ c : VidCall, Leaked (c.apply m) v
  | .add rid mapAllocOk nodeAllocOk => by
    show Leaked (AddNodeByRid m rid mapAllocOk nodeAllocOk).2 v
    by_cases hr : ∃ n ∈ m.head, n.rid = rid
    · obtain ⟨n, hn, rfl⟩ := hr
      rw [AddNodeByRid_of_mem h hn]
      exact hl
    simp only [not_exists, not_and] at hr
    rw [AddNodeByRid_of_not_mem hr]
    split_ifs with h1 h2
    · rw [(GetFreeVid_invalid h.shape mapAllocOk h1).2]; exact hl
    all_goals obtain ⟨-, hhead, hfree, hused⟩ := GetFreeVid_spec h.shape mapAllocOk h1
    · exact ⟨by rw [hused, hl.1, Bool.or_true], hhead ▸ hl.2⟩
    · dsimp only
      refine ⟨by rw [vidUsed_head, hused, hl.1, Bool.or_true], fun n hn => ?_⟩
      rw [hhead] at hn
      rcases List.mem_append.mp hn with hn | hn
      · exact hl.2 n hn
      · -- the new node's vid had no mark, and `v` has one
        rw [List.mem_singleton] at hn
        subst hn
        exact ne_of_used_free hfree hl.1
  | .remove vid ok => by
    show Leaked (RemoveNodeByVid m vid ok) v
    by_cases hv : ∃ n ∈ m.head, n.vid = vid
    · obtain ⟨n, hn, rfl⟩ := hv
      obtain ⟨-, hhead, hused⟩ := RemoveNodeByVid_spec h hn ok
      refine ⟨?_, fun n' hn' => hl.2 n' ?_⟩
      · rw [hused, hl.1, Bool.true_and]
        exact bne_iff_ne.mpr (hl.2 n hn).symm
      · rw [hhead] at hn'
        exact List.mem_of_mem_erase hn'
    · simp only [not_exists, not_and] at hv
      rw [RemoveNodeByVid_of_not_mem hv]
      exact hl
  | .get _ => hl

/-- A lost vid stays lost in every run. -/
theorem Leaked.run {m : TimerIdMap} (h : VidOk m) {v : Nat} (hl : Leaked m v) (cs : List VidCall) :
    Leaked (runCalls m cs) v := by
  induction cs generalizing m with
  | nil => exact hl
  | cons c cs ih => exact ih (h.apply c) (hl.apply h c)

/-- In every run from `VidMapListInit` whose node allocations succeed,
the map relates rids and vids one to one, its marks are exactly its
nodes' vids, below `32 * mapCount ≤ MAX_INVALID_TIMER_VID`, a vid that
`AddNodeByRid` hands out maps back to its rid, and with both of its
allocations `AddNodeByRid` of an unmapped rid fails only when every vid
is a node's. -/
theorem vid_map_run_exact {m : TimerIdMap} (hm : VidMapListInit true = some m) (cs : List VidCall)
    (hcs : ∀ c ∈ cs, c.NodeAllocOk) :
    ((runCalls m cs).head.map TimerIdMapNode.rid).Nodup ∧
      ((runCalls m cs).head.map TimerIdMapNode.vid).Nodup ∧
      (∀ v, vidUsed (runCalls m cs) v = true ↔ ∃ n ∈ (runCalls m cs).head, n.vid = v) ∧
      (∀ n ∈ (runCalls m cs).head, n.vid < INT_BIT_COUNT * (runCalls m cs).mapCount) ∧
      INT_BIT_COUNT * (runCalls m cs).mapCount ≤ MAX_INVALID_TIMER_VID ∧
      (∀ rid mapAllocOk nodeAllocOk,
        (AddNodeByRid (runCalls m cs) rid mapAllocOk nodeAllocOk).1 ≠ MAX_INVALID_TIMER_VID →
          GetRidByVid (AddNodeByRid (runCalls m cs) rid mapAllocOk nodeAllocOk).2
            (AddNodeByRid (runCalls m cs) rid mapAllocOk nodeAllocOk).1 = rid) ∧
      ∀ rid, (∀ n ∈ (runCalls m cs).head, n.rid ≠ rid) →
        (AddNodeByRid (runCalls m cs) rid true true).1 = MAX_INVALID_TIMER_VID →
          ∀ v < MAX_INVALID_TIMER_VID, ∃ n ∈ (runCalls m cs).head, n.vid = v := by
  have h := (VidOk.init hm).run cs
  have he := Exact.run (VidOk.init hm) (Exact.init hm) cs hcs
  have hc := h.shape.count_le
  refine ⟨h.rids, h.vids, fun v => ⟨he v, ?_⟩, fun n hn => h.vid_lt hn, ?_,
    fun rid mapAllocOk nodeAllocOk hne => GetRidByVid_AddNodeByRid h rid mapAllocOk nodeAllocOk hne,
    fun rid hr hmax => AddNodeByRid_invalid_full h he hr hmax⟩
  · rintro ⟨n, hn, rfl⟩
    exact h.marked n hn
  · simp only [MAX_INVALID_TIMER_VID, VID_MAP_MAX_NUM, INT_BIT_COUNT] at hc ⊢
    omega

theorem vid_map_run_exact_two_timers :
    VidMapListInit true = some ⟨[], [0], 1⟩ ∧
      (∀ c ∈ [VidCall.add 3 true true, .add 5 true true, .remove 0 true], c.NodeAllocOk) ∧
      GetRidByVid (AddNodeByRid (runCalls ⟨[], [0], 1⟩
          [VidCall.add 3 true true, .add 5 true true, .remove 0 true]) 9 true true).2
        (AddNodeByRid (runCalls ⟨[], [0], 1⟩
          [VidCall.add 3 true true, .add 5 true true, .remove 0 true]) 9 true true).1 = 9 := by
  have hcs : ∀ c ∈ [VidCall.add 3 true true, .add 5 true true, .remove 0 true], c.NodeAllocOk := by
    simp [VidCall.NodeAllocOk]
  exact ⟨rfl, hcs, (vid_map_run_exact rfl _ hcs).2.2.2.2.2.1 9 true true (by decide)⟩

/-- After `VidMapListInit`, an `AddNodeByRid` whose node allocation
fails leaves the vid 0 marked with no node, and in every run after it no
`AddNodeByRid` returns 0. -/
theorem vid_add_node_alloc_failure_leaks :
    ∃ m, VidMapListInit true = some m ∧ (AddNodeByRid m 7 true false).1 = MAX_INVALID_TIMER_VID ∧
      vidUsed (AddNodeByRid m 7 true false).2 0 = true ∧ (AddNodeByRid m 7 true false).2.head = [] ∧
      ∀ cs rid mapAllocOk nodeAllocOk,
        (AddNodeByRid (runCalls (AddNodeByRid m 7 true false).2 cs) rid mapAllocOk nodeAllocOk).1 ≠ 0 := by
  have hinit : VidMapListInit true = some ⟨[], [0], 1⟩ := rfl
  have h₁ : VidOk (AddNodeByRid ⟨[], [0], 1⟩ 7 true false).2 := (VidOk.init hinit).add 7 true false
  have hl : Leaked (AddNodeByRid ⟨[], [0], 1⟩ 7 true false).2 0 := ⟨by decide, by decide⟩
  refine ⟨_, hinit, by decide, by decide, rfl, fun cs rid mapAllocOk nodeAllocOk => ?_⟩
  exact (hl.run h₁ cs).add_ne (h₁.run cs) rid mapAllocOk nodeAllocOk

end LiteOsA.Vid
