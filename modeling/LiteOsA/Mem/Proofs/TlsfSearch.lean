/-
The good-fit search of the TLSF heap (`OsMemFindNextSuitableBlock`,
`OsMemFreeNodeGet`) on a well-formed pool.

# Exactness

The lists above a size's own hold only larger nodes, and a free node of
at least that size lies on the size's own list or above
(`OsMemFreeListIndexGet_mono`). The search looks at every list from the
one it starts on (`searchFrom_cases`), and a large size walks its own
list to the end (`OsMemFindCurSuitableBlock.loop_complete`: no list is
longer than the walk's fuel). So on a well-formed pool the search comes
back empty exactly when no free node is large enough, and otherwise
takes a large enough node off its list (`mem_free_node_get_exact`).

# Bounds

The search reads the bitmap words and list heads of the pool head only
at indices inside their arrays: a pool that agrees with a well-formed
one there, and in memory, gives the same answer
(`OsMemFindNextSuitableBlock_congr`).
-/
import LiteOsA.Mem.Proofs.TlsfAlloc
import Mathlib.Data.Finset.Card

namespace LiteOsA.Tlsf

variable {pool : Nat} {p p' : Pool} {bs : List Blk} {fl : Nat → List Nat} {U : Set Nat}
  {b : Blk}

-- ============================================================ the walk

/-- The walk finds a node when its list holds one whose word is at least
`size` and the fuel covers the list. -/
theorem OsMemFindCurSuitableBlock.loop_complete {size : Nat} :
    ∀ fuel {x : Nat} {l : List Nat}, LinkList (p.get · .next) NULL x l → l.length ≤ fuel →
      (∃ y ∈ l, size ≤ p.get y .sizeAndFlag) →
      OsMemFindCurSuitableBlock.loop p size fuel x ≠ NULL := by
  intro fuel
  induction fuel with
  | zero =>
      intro x l _ hlen hex
      obtain ⟨y, hy, -⟩ := hex
      rw [List.eq_nil_of_length_eq_zero (Nat.le_zero.1 hlen)] at hy
      cases hy
  | succ fuel ih =>
      intro x l hl hlen hex
      cases l with
      | nil => obtain ⟨y, hy, -⟩ := hex; cases hy
      | cons a l =>
          obtain ⟨rfl, ha, hl'⟩ := hl
          unfold OsMemFindCurSuitableBlock.loop
          rw [if_neg ha]
          by_cases hs : p.get x .sizeAndFlag ≥ size
          · rw [if_pos hs]; exact ha
          · rw [if_neg hs]
            obtain ⟨y, hy, hle⟩ := hex
            refine ih hl' (by simpa using hlen) ⟨y, ?_, hle⟩
            rcases List.mem_cons.1 hy with rfl | hy
            · exact absurd hle hs
            · exact hy

/-- A list holds distinct nodes of a pool below `2 ^ 32`: no more of
them than the walk's fuel. -/
theorem Shape.length_le (h : Shape pool p bs fl U) {i : Nat} (hi : i < OS_MEM_FREE_LIST_COUNT) :
    (fl i).length ≤ 2 ^ 32 := by
  have hsub : (fl i).toFinset ⊆ Finset.range (2 ^ 32) := by
    intro y hy
    obtain ⟨d, hd, -, rfl, -⟩ := (h.listed i y).1 (List.mem_toFinset.1 hy)
    have hE := (h.seg.bounds hd).2
    have hsz := (h.seg.ok hd).size_ge
    have hfit := h.fits
    unfold OS_MEM_END_NODE at hE
    rw [Finset.mem_range]
    omega
  calc (fl i).length = (fl i).toFinset.card :=
        (List.toFinset_card_of_nodup (h.lists.linked i hi).nodup).symm
    _ ≤ (Finset.range (2 ^ 32)).card := Finset.card_le_card hsub
    _ = 2 ^ 32 := Finset.card_range _

-- ============================================================ by size

section Size

variable {s : Nat}

/-- A node on a list the search scans is large enough: a small size
starts on its own list, which holds its size only, and a large size on
the list above its own. -/
theorem Shape.le_of_scanned (h : Shape pool p bs fl U) (h4 : 4 ≤ s) (hsm : s % 4 = 0)
    (hs : s < 2 ^ 29) {j x : Nat} (hj : (searchStart s).1 ≤ j) (hx : x ∈ fl j) :
    ∃ d ∈ bs, d.used = false ∧ d.addr = x ∧ s ≤ d.size := by
  obtain ⟨d, hd, hu, rfl, -, rfl⟩ := (h.listed j x).1 hx
  have hdo := h.seg.ok hd
  refine ⟨d, hd, hu, rfl, ?_⟩
  by_cases hsmall : s < OS_MEM_SMALL_BUCKET_MAX_SIZE
  · rw [searchStart_small h4 hsmall] at hj
    exact le_of_index_le_small h4 hsm hsmall (by have := hdo.size_ge; omega) hj
  · rw [searchStart_large (Nat.le_of_not_lt hsmall) hs] at hj
    exact Nat.le_of_lt (lt_of_index_lt (by have := hdo.size_ge; omega) hs hj)

/-- A free node large enough lies on a list the search scans, or on the
list a large size walks. -/
theorem index_scanned {x : Nat} (h4 : 4 ≤ s) (hs : s < 2 ^ 29) (hle : s ≤ x) (hx : x < 2 ^ 29) :
    (searchStart s).1 ≤ OsMemFreeListIndexGet x ∨
      (searchStart s).2 = OsMemFreeListIndexGet x := by
  have hmono := OsMemFreeListIndexGet_mono h4 hle hx
  by_cases hsmall : s < OS_MEM_SMALL_BUCKET_MAX_SIZE
  · rw [searchStart_small h4 hsmall]
    exact .inl hmono
  · rw [searchStart_large (Nat.le_of_not_lt hsmall) hs]
    rcases Nat.lt_or_eq_of_le hmono with hlt | heq
    · exact .inl hlt
    · exact .inr heq

/-- What the search returns on a well-formed pool, when it is not
`NULL`: a free node of at least `s` bytes, on the list it names. -/
theorem OsMemFindNextSuitableBlock_found (h : Shape pool p bs fl U) (h4 : 4 ≤ s) (hsm : s % 4 = 0)
    (hs : s < 2 ^ 29) (hne : (OsMemFindNextSuitableBlock p s).1 ≠ NULL) :
    ∃ d ∈ bs, d.used = false ∧ d.addr = (OsMemFindNextSuitableBlock p s).1 ∧ s ≤ d.size ∧
      (OsMemFindNextSuitableBlock p s).2 = OsMemFreeListIndexGet d.size := by
  obtain ⟨hidx, -⟩ := searchStart_lt h4 (by omega)
  obtain ⟨hlt, hmem⟩ := OsMemFindNextSuitableBlock_mem h.lists h4 (by omega) hne
  obtain ⟨d, hd, hu, hx, -, hdi⟩ := (h.listed _ _).1 hmem
  refine ⟨d, hd, hu, hx, ?_, hdi.symm⟩
  rw [OsMemFindNextSuitableBlock_eq] at hne hx
  rcases searchFrom_cases h.lists s (searchStart s).2 hidx with ⟨j, hj, hjne, heq⟩ | ⟨-, heq⟩
  · -- the head of a scanned list
    rw [heq] at hx
    obtain ⟨d', hd', -, hx', hle⟩ := h.le_of_scanned h4 hsm hs hj (h.lists.head_mem hjne).1
    rwa [h.seg.eq_of_addr hd hd' (hx.trans hx'.symm)]
  · -- a node of the walked list: its word, which is its size, is large enough
    rw [heq] at hne hx
    by_cases hc : (searchStart s).2 = OS_MEM_FREE_LIST_COUNT
    · rw [if_pos hc] at hne; exact absurd rfl hne
    · rw [if_neg hc] at hne hx
      dsimp only at hne hx
      have hcl : (searchStart s).2 < OS_MEM_FREE_LIST_COUNT :=
        (searchStart_lt h4 (by omega)).2.resolve_left hc
      have hw : s ≤ p.get (OsMemFindCurSuitableBlock p (searchStart s).2 s) .sizeAndFlag :=
        (OsMemFindCurSuitableBlock.loop_spec _ (h.lists.linked _ hcl).toLinkList hne).2
      rw [← hx, h.word_free hd hu] at hw
      exact hw

/-- The search of a well-formed pool comes back empty exactly when no
free node has `s` bytes or more. -/
theorem OsMemFindNextSuitableBlock_null_iff (h : Heap pool p bs fl) (h4 : 4 ≤ s) (hsm : s % 4 = 0)
    (hs : s < 2 ^ 29) :
    (OsMemFindNextSuitableBlock p s).1 = NULL ↔ ∀ d ∈ bs, d.used = false → d.size < s := by
  constructor
  · intro hnull d hd hu
    by_contra hle
    have hle : s ≤ d.size := Nat.le_of_not_lt hle
    have hdo := h.shape.seg.ok hd
    -- the node is on the list of its size
    have hmem : d.addr ∈ fl (OsMemFreeListIndexGet d.size) :=
      (h.shape.listed _ _).2 ⟨d, hd, hu, rfl, Set.notMem_empty _, rfl⟩
    have hlist := OsMemFreeListIndexGet_lt (by have := hdo.size_ge; omega) hdo.size_lt
    have hne : fl (OsMemFreeListIndexGet d.size) ≠ [] := List.ne_nil_of_mem hmem
    obtain ⟨hidx, -⟩ := searchStart_lt h4 (by omega)
    rw [OsMemFindNextSuitableBlock_eq] at hnull
    rcases searchFrom_cases h.shape.lists s (searchStart s).2 hidx with
      ⟨j, -, hj, heq⟩ | ⟨hall, heq⟩
    · rw [heq] at hnull
      exact (h.shape.lists.head_mem hj).2 hnull
    · rcases index_scanned h4 hs hle hdo.size_lt with hsc | hcur
      · -- a scanned list, found empty
        exact hne (hall _ hsc)
      · -- the walked list, which holds the node
        rw [heq, hcur, if_neg (Nat.ne_of_lt hlist)] at hnull
        refine OsMemFindCurSuitableBlock.loop_complete _
          (h.shape.lists.linked _ hlist).toLinkList (h.shape.length_le hlist)
          ⟨d.addr, hmem, ?_⟩ hnull
        rw [h.shape.word_free hd hu]
        exact hle
  · intro hall
    by_contra hne
    obtain ⟨d, hd, hu, -, hle, -⟩ := OsMemFindNextSuitableBlock_found h.shape h4 hsm hs hne
    exact absurd (hall d hd hu) (Nat.not_lt.2 hle)

end Size

-- ============================================================ what it reads

theorem OsMemNotEmptyIndexGet_congr {index : Nat}
    (hb : ∀ w < OS_MEM_BITMAP_WORDS, p'.freeListBitmap w = p.freeListBitmap w)
    (hw : index >>> 5 < OS_MEM_BITMAP_WORDS) :
    OsMemNotEmptyIndexGet p' index = OsMemNotEmptyIndexGet p index := by
  unfold OsMemNotEmptyIndexGet
  rw [hb _ hw]

/-- The scan reads a word only for a list below the last. -/
theorem OsMemFindNextSuitableBlock.scan_congr
    (hb : ∀ w < OS_MEM_BITMAP_WORDS, p'.freeListBitmap w = p.freeListBitmap w) :
    ∀ fuel index, OsMemFindNextSuitableBlock.scan p' fuel index =
      OsMemFindNextSuitableBlock.scan p fuel index := by
  intro fuel
  induction fuel with
  | zero => intro index; rfl
  | succ fuel ih =>
      intro index
      unfold OsMemFindNextSuitableBlock.scan
      split
      · next hi =>
        rw [OS_MEM_FREE_LIST_COUNT_eq] at hi
        rw [hb _ (by rw [shiftRight_five, OS_MEM_BITMAP_WORDS_eq]; omega), ih]
      · rfl

/-- The walk reads memory only. -/
theorem OsMemFindCurSuitableBlock.loop_congr (hm : p'.mem = p.mem) {size : Nat} :
    ∀ fuel x, OsMemFindCurSuitableBlock.loop p' size fuel x =
      OsMemFindCurSuitableBlock.loop p size fuel x := by
  have hget : ∀ y f, p'.get y f = p.get y f := fun y f => by simp only [Pool.get, hm]
  intro fuel
  induction fuel with
  | zero => intro x; rfl
  | succ fuel ih =>
      intro x
      unfold OsMemFindCurSuitableBlock.loop
      rw [hget, hget, ih]

/-- The search reads the bitmap words and list heads inside their arrays
only: a pool that agrees with a well-formed one there, and in memory,
gives the same answer. -/
theorem OsMemFindNextSuitableBlock_congr (hfl : FreeLists p fl) {size : Nat} (h4 : 4 ≤ size)
    (hs : size < 2 ^ 31) (hm : p'.mem = p.mem)
    (hb : ∀ w < OS_MEM_BITMAP_WORDS, p'.freeListBitmap w = p.freeListBitmap w)
    (hl : ∀ i < OS_MEM_FREE_LIST_COUNT, p'.freeList i = p.freeList i) :
    OsMemFindNextSuitableBlock p' size = OsMemFindNextSuitableBlock p size := by
  obtain ⟨hidx, hcur⟩ := searchStart_lt h4 hs
  have hw : (searchStart size).1 >>> 5 < OS_MEM_BITMAP_WORDS := by
    rw [OS_MEM_FREE_LIST_COUNT_eq] at hidx
    rw [shiftRight_five, OS_MEM_BITMAP_WORDS_eq]; omega
  rw [OsMemFindNextSuitableBlock_eq, OsMemFindNextSuitableBlock_eq]
  unfold searchFrom
  dsimp only
  rw [OsMemNotEmptyIndexGet_congr hb hw, OsMemFindNextSuitableBlock.scan_congr hb]
  split
  · -- a list the word search found is nonempty, so inside the array
    next htmp =>
    rw [hl _ (hfl.lt_of_ne_nil (OsMemNotEmptyIndexGet_spec hfl hidx htmp).2)]
  · split
    · next j hj =>
      rw [hl _ (hfl.lt_of_ne_nil (OsMemFindNextSuitableBlock.scan_spec hfl _ _ j
        (by rw [LOS_Align_32 (by rw [OS_MEM_FREE_LIST_COUNT_eq] at hidx; omega)]; omega) hj).2)]
    · split
      · rfl
      · next hc =>
        have hcl : (searchStart size).2 < OS_MEM_FREE_LIST_COUNT := hcur.resolve_left hc
        unfold OsMemFindCurSuitableBlock
        rw [hl _ hcl, OsMemFindCurSuitableBlock.loop_congr hm]

-- ============================================================ the claim

/-- `OsMemFreeNodeGet` is the search, then the unlink of what it found. -/
theorem OsMemFreeNodeGet_eq (p : Pool) (size : Nat) :
    OsMemFreeNodeGet p size =
      if (OsMemFindNextSuitableBlock p size).1 = NULL then (NULL, p)
      else ((OsMemFindNextSuitableBlock p size).1,
        OsMemListDelete p (OsMemFindNextSuitableBlock p size).2
          (OsMemFindNextSuitableBlock p size).1) := rfl

/-- `OsMemFreeNodeGet` on a well-formed pool, for every request of a
whole number of words from `OS_MEM_NODE_HEAD_SIZE + OS_MEM_MIN_ALLOC_SIZE`
up to `2 ^ 29` bytes: it returns `NULL`, leaving the pool as it was,
exactly when no free node is large enough; otherwise it returns a free
node of at least `s` bytes, taken off the list of its size and held.
The search behind it reads the bitmap and the list heads inside their
arrays only. -/
theorem mem_free_node_get_exact (h : Heap pool p bs fl) {s : Nat}
    (hlo : OS_MEM_NODE_HEAD_SIZE + OS_MEM_MIN_ALLOC_SIZE ≤ s) (hsm : s % 4 = 0) (hs : s < 2 ^ 29) :
    ((OsMemFreeNodeGet p s).1 = NULL ↔ ∀ d ∈ bs, d.used = false → d.size < s) ∧
      ((OsMemFreeNodeGet p s).1 = NULL → (OsMemFreeNodeGet p s).2 = p) ∧
      ((OsMemFreeNodeGet p s).1 ≠ NULL →
        ∃ d ∈ bs, d.used = false ∧ d.addr = (OsMemFreeNodeGet p s).1 ∧ s ≤ d.size ∧
          Shape pool (OsMemFreeNodeGet p s).2 bs
            (Function.update fl (OsMemFreeListIndexGet d.size)
              ((fl (OsMemFreeListIndexGet d.size)).erase d.addr)) {d.addr}) ∧
      ∀ p' : Pool, p'.mem = p.mem →
        (∀ w < OS_MEM_BITMAP_WORDS, p'.freeListBitmap w = p.freeListBitmap w) →
        (∀ i < OS_MEM_FREE_LIST_COUNT, p'.freeList i = p.freeList i) →
        OsMemFindNextSuitableBlock p' s = OsMemFindNextSuitableBlock p s := by
  have h4 : 4 ≤ s := by unfold OS_MEM_NODE_HEAD_SIZE OS_MEM_MIN_ALLOC_SIZE at hlo; omega
  -- `OsMemFreeNodeGet` is the search, then the unlink of what it found
  have hget : (OsMemFreeNodeGet p s).1 = (OsMemFindNextSuitableBlock p s).1 := by
    rw [OsMemFreeNodeGet_eq]
    split
    · next hn => exact hn.symm
    · rfl
  refine ⟨?_, fun hnull => by rw [OsMemFreeNodeGet_null hnull], fun hne => ?_,
    fun p' hm hb hl => OsMemFindNextSuitableBlock_congr h.shape.lists h4 (by omega) hm hb hl⟩
  · rw [hget]
    exact OsMemFindNextSuitableBlock_null_iff h h4 hsm hs
  · rw [hget] at hne ⊢
    obtain ⟨d, hd, hu, hx, hle, hi⟩ := OsMemFindNextSuitableBlock_found h.shape h4 hsm hs hne
    have hdo := h.shape.seg.ok hd
    have hlist := OsMemFreeListIndexGet_lt (by have := hdo.size_ge; omega) hdo.size_lt
    have hmem : d.addr ∈ fl (OsMemFreeListIndexGet d.size) :=
      (h.shape.listed _ _).2 ⟨d, hd, hu, rfl, Set.notMem_empty _, rfl⟩
    have hpool : (OsMemFreeNodeGet p s).2 =
        OsMemListDelete p (OsMemFreeListIndexGet d.size) d.addr := by
      rw [OsMemFreeNodeGet_eq, if_neg hne, ← hi, hx]
    refine ⟨d, hd, hu, hx, hle, ?_⟩
    rw [hpool, Set.singleton_def]
    exact h.shape.unlist hlist hmem

/-- A fresh pool of `0x1000` bytes, searched for `32` bytes: the
request is in range, and the search is empty exactly when every free
node is smaller. -/
theorem mem_free_node_get_exact_fresh :
    ∃ p bs fl, LOS_MemInit 0x1000 0x1000 zeroPool = some (LOS_OK, p) ∧ Heap 0x1000 p bs fl ∧
      OS_MEM_NODE_HEAD_SIZE + OS_MEM_MIN_ALLOC_SIZE ≤ 32 ∧ 32 % 4 = 0 ∧ 32 < 2 ^ 29 ∧
      ((OsMemFreeNodeGet p 32).1 = NULL ↔ ∀ d ∈ bs, d.used = false → d.size < 32) := by
  obtain ⟨p, fl, hinit, hheap, -⟩ := @LOS_MemInit_spec 0x1000 0x1000 zeroPool (by decide)
    (by decide) (by decide) (by decide) (by decide)
  exact ⟨p, _, fl, hinit, hheap, by decide, by decide, by decide,
    (mem_free_node_get_exact hheap (by decide) (by decide) (by decide)).1⟩

end LiteOsA.Tlsf
