/-
Freeing a node of a TLSF pool (`OsMemCheckUsedNode`, `OsMemFree`,
`LOS_MemFree`).

`OsMemCheckUsedNode` passes at every used node of a well-formed pool:
the node, the one after it and the one before it all pass
`OsMemIsNodeValid` and link to it (`OsMemCheckUsedNode_ok`).

`OsMemFree` then works on the shape of the pool in the steps of
`TlsfShape`: the node is held and marked free (`setWord`); a free node
before it comes off its list and takes it in (`unlist`, `merge`); a
free node after it does the same; the node that results goes on its
list (`relist`). `freeNodes` says which nodes that leaves.
-/
import LiteOsA.Mem.Proofs.TlsfAlloc

namespace LiteOsA.Tlsf

variable {pool : Nat} {p : Pool} {bs l₁ l₂ : List Blk} {fl : Nat → List Nat} {U : Set Nat}
  {a b c : Blk}

-- ============================================================ the checks

/-- The head at the start of a segment, a node's or the end node's,
carries the magic word. -/
theorem Seg.magic_start {prev x e : Nat} (h : Seg p prev x bs e)
    (hend : EndAt p (lastAddr prev bs) e) : p.get x .magic = OS_MEM_NODE_MAGIC := by
  cases bs with
  | nil => rw [show x = e from h]; exact hend.magic
  | cons b bs => obtain ⟨rfl, -, hn, -⟩ := h; exact hn.magic

/-- The node before a point of the pool is `NULL` or an address inside
the pool. -/
theorem Seg.lastAddr_valid {x : Nat} (h₁ : Seg p NULL (OS_MEM_FIRST_NODE pool) l₁ x)
    (hx : x ≤ OS_MEM_END_NODE pool p.totalSize) :
    OsMemAddrValidCheck pool p (lastAddr NULL l₁) = true := by
  unfold OsMemAddrValidCheck
  by_cases hl : l₁ = []
  · subst hl; simp
  · obtain ⟨d, hd, hlast, hend⟩ := h₁.lastAddr_eq hl
    have hlo := (h₁.bounds hd).1
    have := (h₁.ok hd).size_ge
    rw [hlast]
    unfold OS_MEM_FIRST_NODE sizeofOsMemPoolHead at hlo
    unfold OS_MEM_END_NODE OS_MEM_NODE_HEAD_SIZE at hx
    simp only [Bool.or_eq_true, beq_iff_eq, Bool.and_eq_true, decide_eq_true_eq]
    exact .inr ⟨by unfold sizeofOsMemPoolHead; omega, by omega⟩

/-- `OsMemIsNodeValid` passes at every node and at the end node. -/
theorem Shape.nodeValid (h : Shape pool p (l₁ ++ l₂) fl U) {x : Nat}
    (h₁ : Seg p NULL (OS_MEM_FIRST_NODE pool) l₁ x)
    (h₂ : Seg p (lastAddr NULL l₁) x l₂ (OS_MEM_END_NODE pool p.totalSize)) :
    OsMemIsNodeValid pool p x (OS_MEM_FIRST_NODE pool) (OS_MEM_END_NODE pool p.totalSize) =
      true := by
  have hend : EndAt p (lastAddr (lastAddr NULL l₁) l₂) (OS_MEM_END_NODE pool p.totalSize) := by
    have := h.last
    rwa [lastAddr_append] at this
  have hle₁ := h₁.le
  have hle₂ := h₂.le
  unfold OsMemIsNodeValid
  rw [if_neg (by simp [hle₁, hle₂])]
  split_ifs
  · simp [h₂.magic_start hend]
  · rw [h₂.ptrPrev_start hend]
    exact h₁.lastAddr_valid hle₂

/-- `OsMemCheckUsedNode` passes at every used node. -/
theorem OsMemCheckUsedNode_ok (h : Shape pool p (l₁ ++ b :: l₂) fl U) (hu : b.used = true) :
    OsMemCheckUsedNode pool p b.addr = LOS_OK := by
  obtain ⟨h₁, hbo, hn, h₂⟩ := h.seg.around
  have hw : p.get b.addr .sizeAndFlag = b.word := hn.sizeAndFlag
  have hused : OS_MEM_NODE_GET_USED_FLAG b.word ≠ 0 := by
    rw [Ne, Blk.GET_USED_word hbo, hu]; decide
  have hnext : OS_MEM_NEXT_NODE p b.addr = b.addr + b.size := by
    unfold OS_MEM_NEXT_NODE; rw [hw, Blk.GET_SIZE_word hbo]
  have hend₂ := h.last_around
  -- the node itself, and the node (or end node) after it
  have hv₁ := h.nodeValid h₁ ⟨rfl, hbo, hn, h₂⟩
  have h' : Shape pool p ((l₁ ++ [b]) ++ l₂) fl U := by simpa using h
  have hv₂ := h'.nodeValid (seg_append.2 ⟨b.addr, h₁, ⟨rfl, hbo, hn, rfl⟩⟩)
    (by simpa [lastAddr_append] using h₂)
  have hlink : p.get (b.addr + b.size) .ptrPrev = b.addr := h₂.ptrPrev_start hend₂
  -- the node before it, when there is one, is valid and ends at `b`
  have hprev : b.addr ≠ OS_MEM_FIRST_NODE pool →
      OsMemIsNodeValid pool p (p.get b.addr .ptrPrev) (OS_MEM_FIRST_NODE pool)
        (OS_MEM_END_NODE pool p.totalSize) = true ∧
      OS_MEM_NEXT_NODE p (p.get b.addr .ptrPrev) = b.addr := by
    intro hfirst
    rcases List.eq_nil_or_concat' l₁ with rfl | ⟨l₀, d, rfl⟩
    · exact absurd (show OS_MEM_FIRST_NODE pool = b.addr from h₁).symm hfirst
    obtain ⟨m, h₀, hd⟩ := seg_append.1 h₁
    obtain ⟨rfl, hdo, hdn, hdb⟩ := hd
    have hdb' : d.addr + d.size = b.addr := hdb
    rw [hn.ptrPrev, lastAddr_append, lastAddr_cons, lastAddr_nil]
    have h'' : Shape pool p (l₀ ++ (d :: b :: l₂)) fl U := by simpa using h
    have hn' : NodeAt p d.addr b := by simpa [lastAddr_append] using hn
    refine ⟨h''.nodeValid h₀ ⟨rfl, hdo, hdn, hdb' ▸ ⟨rfl, hbo, hn', h₂⟩⟩, ?_⟩
    unfold OS_MEM_NEXT_NODE
    rw [hdn.sizeAndFlag, Blk.GET_SIZE_word hdo, hdb']
  unfold OsMemCheckUsedNode
  dsimp only
  rw [hv₁, hw, hnext, hv₂, hlink]
  simp only [Bool.not_true, Bool.false_eq_true, if_false, ne_eq, hused, not_true_eq_false,
    and_false]
  by_cases hfirst : b.addr = OS_MEM_FIRST_NODE pool
  · simp [hfirst]
  · obtain ⟨hv₀, hnext₀⟩ := hprev hfirst
    simp [hfirst, hv₀, hnext₀]

-- ============================================================ the steps

/-- `OsMemFreeNodeDelete` of a listed free node takes it off its list
and holds it. -/
theorem Shape.freeNodeDelete {d : Blk} (h : Shape pool p bs fl U) (hd : d ∈ bs)
    (hu : d.used = false) (hU : d.addr ∉ U) :
    ∃ p' fl', OsMemFreeNodeDelete p d.addr = some p' ∧ p'.curUsedSize = p.curUsedSize ∧
      Shape pool p' bs fl' (insert d.addr U) := by
  have hw := h.word_free hd hu
  have hdo := h.seg.ok hd
  have h4 : 4 ≤ d.size := by have := hdo.size_ge; omega
  have hi := OsMemFreeListIndexGet_lt h4 hdo.size_lt
  have hx : d.addr ∈ fl (OsMemFreeListIndexGet d.size) :=
    (h.listed _ _).2 ⟨d, hd, hu, rfl, hU, rfl⟩
  have heq := OsMemFreeNodeDelete_eq (by rw [hw]; exact h4) (by rw [hw]; exact hdo.size_lt)
  rw [hw] at heq
  exact ⟨_, _, heq, by simp, h.unlist hi hx⟩

/-- `OsMemMergeNode` at `y`, after the free node `x`: `x` takes `y` in,
and the node after `y` names `x` before it. -/
theorem OsMemMergeNode_eq {x y : Blk} (h : Shape pool p (l₁ ++ x :: y :: l₂) fl U)
    (hx : x.used = false) (hy : y.used = false) :
    OsMemMergeNode p y.addr =
      (p.set x.addr .sizeAndFlag (x.size + y.size)).set (y.addr + y.size) .ptrPrev x.addr := by
  have hxm : x ∈ l₁ ++ x :: y :: l₂ := by simp
  have hym : y ∈ l₁ ++ x :: y :: l₂ := by simp
  have hxo := h.seg.ok hxm
  have hyo := h.seg.ok hym
  have hxs := hxo.size_lt
  have hys := hyo.size_lt
  obtain ⟨-, -, -, hxy, -⟩ := h.seg.around
  have hxy' : y.addr = x.addr + x.size := hxy
  have h' : Shape pool p ((l₁ ++ [x]) ++ y :: l₂) fl U := by simpa using h
  obtain ⟨-, -, hyn, h₂⟩ := h'.seg.around
  have hprev : p.get y.addr .ptrPrev = x.addr := by
    rw [hyn.ptrPrev, lastAddr_append]; rfl
  obtain ⟨hlast, -⟩ := h₂.start_flags h'.last_around
  have hxsz := hxo.size_ge
  -- the reads `OsMemMergeNode` makes, past its write of `x`'s word
  have r₁ : (p.set x.addr .sizeAndFlag (x.size + y.size)).get y.addr .sizeAndFlag = y.size := by
    rw [Pool.get_set, if_neg (by simp only [Field.off]; omega), h.word_free hym hy]
  have r₂ : (p.set x.addr .sizeAndFlag (x.size + y.size)).get (y.addr + y.size) .sizeAndFlag =
      p.get (y.addr + y.size) .sizeAndFlag := by
    rw [Pool.get_set, if_neg (by simp only [Field.off]; omega)]
  have r₃ : (p.set x.addr .sizeAndFlag (x.size + y.size)).get y.addr .ptrPrev = x.addr := by
    rw [Pool.get_set, if_neg (by simp only [Field.off]; omega), hprev]
  unfold OsMemMergeNode
  dsimp only
  rw [hprev, h.word_free hxm hx, h.word_free hym hy, u32_of_lt (by omega), r₁, r₂,
    if_pos hlast, r₃]

-- ============================================================ what is left

/-- The free node `m` takes in the node after it when that is free. -/
def joinNext (m : Blk) : List Blk → Blk × List Blk
  | [] => (m, [])
  | c :: l => if c.used then (m, c :: l) else (⟨m.addr, m.size + c.size, false, false⟩, l)

/-- The node before `m`, the last of `l`, takes `m` in when it is free. -/
def joinPrev (l : List Blk) (m : Blk) : List Blk × Blk :=
  match l.getLast? with
  | some a => if a.used then (l, m) else (l.dropLast, ⟨a.addr, a.size + m.size, false, false⟩)
  | none => ([], m)

/-- The nodes once the node `b` between `l₁` and `l₂` is freed. -/
def freeNodes (l₁ : List Blk) (b : Blk) (l₂ : List Blk) : List Blk :=
  let j := joinPrev l₁ ⟨b.addr, b.size, false, false⟩
  let k := joinNext j.2 l₂
  j.1 ++ k.1 :: k.2

@[simp] theorem joinNext_nil (m : Blk) : joinNext m [] = (m, []) := rfl

theorem joinNext_used (m : Blk) {c : Blk} (l : List Blk) (hc : c.used = true) :
    joinNext m (c :: l) = (m, c :: l) := by
  simp [joinNext, hc]

theorem joinNext_free (m : Blk) {c : Blk} (l : List Blk) (hc : c.used = false) :
    joinNext m (c :: l) = (⟨m.addr, m.size + c.size, false, false⟩, l) := by
  simp [joinNext, hc]

/-- With a used node after it, or none, the freed node stays as it is. -/
theorem joinNext_of_used (m : Blk) {l : List Blk} (hl : ∀ c ∈ l.head?, c.used = true) :
    joinNext m l = (m, l) := by
  cases l with
  | nil => rfl
  | cons c l => exact joinNext_used m l (hl c rfl)

/-- Taking in a node only grows the freed node. -/
theorem size_le_joinNext (m : Blk) (l : List Blk) : m.size ≤ (joinNext m l).1.size := by
  cases l with
  | nil => simp
  | cons c l =>
      cases hc : c.used
      · simp [joinNext_free m l hc]
      · simp [joinNext_used m l hc]

@[simp] theorem joinPrev_nil (m : Blk) : joinPrev [] m = ([], m) := rfl

theorem joinPrev_used {a : Blk} (l : List Blk) (m : Blk) (ha : a.used = true) :
    joinPrev (l ++ [a]) m = (l ++ [a], m) := by
  simp [joinPrev, ha]

theorem joinPrev_free {a : Blk} (l : List Blk) (m : Blk) (ha : a.used = false) :
    joinPrev (l ++ [a]) m = (l, ⟨a.addr, a.size + m.size, false, false⟩) := by
  simp [joinPrev, ha]

/-- With a used node before it, or none, the freed node stays as it is. -/
theorem joinPrev_of_used {l : List Blk} (m : Blk) (hl : ∀ a ∈ l.getLast?, a.used = true) :
    joinPrev l m = (l, m) := by
  rcases List.eq_nil_or_concat' l with rfl | ⟨l₀, a, rfl⟩
  · rfl
  · exact joinPrev_used l₀ m (hl a (by simp))

-- ============================================================ OsMemFree

/-- The last step of `OsMemFree`: the freed node, the only free node
held, goes on its list. -/
theorem Shape.freeNodeAdd {m : Blk} (h : Shape pool p (l₁ ++ m :: l₂) fl U) (hm : m.used = false)
    (hmU : m.addr ∈ U) (hU : ∀ d, d ∈ l₁ ∨ d ∈ l₂ → d.used = false → d.addr ∉ U) :
    ∃ p' fl', OsMemFreeNodeAdd p m.addr = some p' ∧ p'.curUsedSize = p.curUsedSize ∧
      Shape pool p' (l₁ ++ m :: l₂) fl' ∅ := by
  have hmm : m ∈ l₁ ++ m :: l₂ := by simp
  have hw := h.word_free hmm hm
  have hmo := h.seg.ok hmm
  have heq := OsMemFreeNodeAdd_eq (by rw [hw]; have := hmo.size_ge; omega)
    (by rw [hw]; exact hmo.size_lt)
  rw [hw] at heq
  refine ⟨_, _, heq, by simp, (h.relist hmm hm hmU).release fun d hd hdu hdU => ?_⟩
  simp only [List.mem_append, List.mem_cons] at hd
  rcases hd with hd | rfl | hd
  · exact hU d (.inl hd) hdu hdU.1
  · exact hdU.2 rfl
  · exact hU d (.inr hd) hdu hdU.1

/-- The second half of `OsMemFree`, from the freed node `m`, held: a free
node after it is taken in, and the result goes on its list. -/
theorem OsMemFree_next {m : Blk} (h : Shape pool p (l₁ ++ m :: l₂) fl U) (hm : m.used = false)
    (hmU : m.addr ∈ U) (hU : ∀ d, d ∈ l₁ ∨ d ∈ l₂ → d.used = false → d.addr ∉ U)
    (hlt : (joinNext m l₂).1.size < 2 ^ 29) (ret : Nat) :
    ∃ p' fl', (do
        let nextNode := OS_MEM_NEXT_NODE p m.addr
        let p ←
          if nextNode ≠ NULL ∧ OS_MEM_NODE_GET_USED_FLAG (p.get nextNode .sizeAndFlag) = 0 then do
            let p ← OsMemFreeNodeDelete p nextNode
            pure (OsMemMergeNode p nextNode)
          else pure p
        let p ← OsMemFreeNodeAdd p m.addr
        pure (ret, p) : Option (Nat × Pool)) = some (ret, p') ∧
      p'.curUsedSize = p.curUsedSize ∧
      Shape pool p' (l₁ ++ (joinNext m l₂).1 :: (joinNext m l₂).2) fl' ∅ := by
  have hmm : m ∈ l₁ ++ m :: l₂ := by simp
  obtain ⟨-, hmo, -, h₂⟩ := h.seg.around
  have hnext : OS_MEM_NEXT_NODE p m.addr = m.addr + m.size := by
    unfold OS_MEM_NEXT_NODE
    rw [h.word_free hmm hm, OS_MEM_NODE_GET_SIZE_eq, Nat.mod_eq_of_lt hmo.size_lt]
  have hnn : m.addr + m.size ≠ NULL := by
    have := h.addr_ne_null hmm
    unfold NULL at *
    omega
  obtain ⟨-, hused⟩ := h₂.start_flags h.last_around
  -- with no free node after `m`, `m` goes on its list as it is
  have hkeep : (∀ c ∈ l₂.head?, c.used = true) → ∃ p' fl', (do
      let p ← pure p
      let p ← OsMemFreeNodeAdd p m.addr
      pure (ret, p) : Option (Nat × Pool)) = some (ret, p') ∧
      p'.curUsedSize = p.curUsedSize ∧ Shape pool p' (l₁ ++ m :: l₂) fl' ∅ := fun _ => by
    obtain ⟨p', fl', hadd, hcur, hS⟩ := h.freeNodeAdd hm hmU hU
    exact ⟨p', fl', by rw [pure_bind, hadd]; rfl, hcur, hS⟩
  dsimp only
  rw [hnext]
  cases l₂ with
  | nil =>
      rw [if_neg fun hc => by simpa using hused.1 hc.2]
      simpa using hkeep (by simp)
  | cons c l =>
      cases hc : c.used
      · -- the node after `m` is free: off its list, and into `m`
        have hcm : c ∈ l₁ ++ m :: c :: l := by simp
        have hcaddr : c.addr = m.addr + m.size := h₂.1
        rw [if_pos ⟨hnn, hused.2 ⟨c, rfl, hc⟩⟩, ← hcaddr]
        obtain ⟨p₁, fl₁, hdel, hcur₁, h₁⟩ := h.freeNodeDelete hcm hc (hU c (.inr (by simp)) hc)
        have h₁' : Shape pool p₁ (l₁ ++ m :: c :: l) fl₁ (insert c.addr U) := h₁
        have hlt' : m.size + c.size < 2 ^ 29 := by simpa [joinNext_free m l hc] using hlt
        have h₂' := h₁'.merge (Set.mem_insert_of_mem _ hmU) (Set.mem_insert _ _) hlt'
        rw [← OsMemMergeNode_eq h₁' hm hc] at h₂'
        have h₃ : Shape pool p ((l₁ ++ [m]) ++ c :: l) fl U := by simpa using h
        obtain ⟨p', fl', hadd, hcur, hS⟩ := h₂'.freeNodeAdd rfl (Set.mem_insert_of_mem _ hmU)
          fun d hd hdu hdU => by
            -- the other nodes are neither `c` nor held
            rcases Set.mem_insert_iff.1 hdU with hdc | hdU
            · refine h₃.addr_ne_around ?_ hdc
              rcases hd with hd | hd <;> simp [hd]
            · exact hU d (hd.imp_right (List.mem_cons_of_mem _)) hdu hdU
        refine ⟨p', fl', ?_, by rw [hcur, OsMemMergeNode_eq h₁' hm hc]; simp [hcur₁], ?_⟩
        · rw [hdel]
          simp [hadd]
        · simpa [joinNext_free m l hc] using hS
      · rw [if_neg fun h' => by simpa [hc] using hused.1 h'.2, joinNext_used m l hc]
        simpa using hkeep (by simp [hc])

-- ============================================================ coalesced

/-- The nodes left of the freed node: a chain whose last node is used. -/
theorem joinPrev_chain (h : (l₁ ++ [b]).IsChain fun b c : Blk => b.used = true ∨ c.used = true)
    (m : Blk) :
    (joinPrev l₁ m).1.IsChain (fun b c : Blk => b.used = true ∨ c.used = true) ∧
      ∀ x ∈ (joinPrev l₁ m).1.getLast?, x.used = true := by
  rcases List.eq_nil_or_concat' l₁ with rfl | ⟨l₀, a, rfl⟩
  · simp
  obtain ⟨hl, -, -⟩ := List.isChain_append.1 h
  cases ha : a.used
  · -- `a` is taken in: the node before it was used
    rw [joinPrev_free l₀ m ha]
    obtain ⟨hl₀, -, hlast⟩ := List.isChain_append.1 hl
    refine ⟨hl₀, fun x hx => ?_⟩
    simpa [ha] using hlast x hx a (by simp)
  · rw [joinPrev_used l₀ m ha]
    exact ⟨hl, by simp [ha]⟩

/-- The nodes right of the freed node: a chain whose first node is used. -/
theorem joinNext_chain (h : (b :: l₂).IsChain fun b c : Blk => b.used = true ∨ c.used = true)
    (m : Blk) :
    (joinNext m l₂).2.IsChain (fun b c : Blk => b.used = true ∨ c.used = true) ∧
      ∀ y ∈ (joinNext m l₂).2.head?, y.used = true := by
  obtain ⟨-, hr⟩ := List.isChain_cons.1 h
  cases l₂ with
  | nil => simp
  | cons c l =>
      cases hc : c.used
      · -- `c` is taken in: the node after it was used
        rw [joinNext_free m l hc]
        obtain ⟨hhead, hl⟩ := List.isChain_cons.1 hr
        exact ⟨hl, fun y hy => by simpa [hc] using hhead y hy⟩
      · rw [joinNext_used m l hc]
        exact ⟨hr, by simp [hc]⟩

/-- A free node between two chains that end and start with used nodes. -/
theorem isChain_free_between {L R : List Blk} {m : Blk}
    (hL : L.IsChain fun b c : Blk => b.used = true ∨ c.used = true)
    (hl : ∀ x ∈ L.getLast?, x.used = true)
    (hR : R.IsChain fun b c : Blk => b.used = true ∨ c.used = true)
    (hr : ∀ y ∈ R.head?, y.used = true) :
    (L ++ m :: R).IsChain fun b c : Blk => b.used = true ∨ c.used = true := by
  refine List.isChain_append.2 ⟨hL, List.isChain_cons.2 ⟨fun y hy => .inr (hr y hy), hR⟩, ?_⟩
  intro x hx y hy
  exact .inl (hl x hx)

/-- Freeing a node keeps the pool coalesced. -/
theorem freeNodes_isChain
    (h : (l₁ ++ b :: l₂).IsChain fun b c : Blk => b.used = true ∨ c.used = true) :
    (freeNodes l₁ b l₂).IsChain fun b c : Blk => b.used = true ∨ c.used = true := by
  have h' : ((l₁ ++ [b]) ++ l₂).IsChain fun b c : Blk => b.used = true ∨ c.used = true := by
    simpa using h
  obtain ⟨hL, -, -⟩ := List.isChain_append.1 h'
  obtain ⟨-, hR⟩ := List.isChain_split.1 h
  obtain ⟨hLc, hLl⟩ := joinPrev_chain hL ⟨b.addr, b.size, false, false⟩
  obtain ⟨hRc, hRh⟩ := joinNext_chain hR (joinPrev l₁ ⟨b.addr, b.size, false, false⟩).2
  exact isChain_free_between hLc hLl hRc hRh

-- ============================================================ the free

/-- `OsMemFree` of a used node of a well-formed pool: the node is freed,
joined with the free nodes on either side, and counted off. The node
that results must stay below `2 ^ 29`, where its size would reach the
flag bits. -/
theorem OsMemFree_spec (h : Heap pool p (l₁ ++ b :: l₂) fl) (hu : b.used = true)
    (hlt : (joinNext (joinPrev l₁ ⟨b.addr, b.size, false, false⟩).2 l₂).1.size < 2 ^ 29) :
    ∃ p' fl', OsMemFree pool p b.addr = some (LOS_OK, p') ∧
      Heap pool p' (freeNodes l₁ b l₂) fl' ∧ p'.curUsedSize = u32Sub p.curUsedSize b.size := by
  have hS := h.shape
  have hbm : b ∈ l₁ ++ b :: l₂ := by simp
  have hbo := hS.seg.ok hbm
  have hsize : OS_MEM_NODE_GET_SIZE (p.get b.addr .sizeAndFlag) = b.size := by
    rw [hS.seg.word hbm, Blk.GET_SIZE_word hbo]
  unfold OsMemFree
  rw [OsMemCheckUsedNode_ok hS hu]
  dsimp only
  rw [if_neg (not_not.2 rfl)]
  have hget : ∀ v, (Pool.mk p.totalSize p.waterLine v p.freeListBitmap p.freeList p.mem).get b.addr
      .sizeAndFlag = p.get b.addr .sizeAndFlag := fun _ => rfl
  rw [hget, hsize, hget, hsize]
  -- the node, held and marked free, its count taken off
  have h₁ : Shape pool ((Pool.mk p.totalSize p.waterLine (u32Sub p.curUsedSize b.size)
      p.freeListBitmap p.freeList p.mem).set b.addr .sizeAndFlag b.size)
      (l₁ ++ ⟨b.addr, b.size, false, false⟩ :: l₂) fl (insert b.addr ∅) := by
    have h₀ : Shape pool (Pool.mk p.totalSize p.waterLine (u32Sub p.curUsedSize b.size)
        p.freeListBitmap p.freeList p.mem) (l₁ ++ b :: l₂) fl ∅ := hS.of_stats rfl rfl rfl rfl
    have h₀' := (h₀.hold fun d hd hda => by rw [hS.seg.eq_of_addr hd hbm hda]; exact hu).setWord
      (Set.mem_insert _ _) ⟨b.addr, b.size, false, false⟩ rfl rfl
      ⟨hbo.size_ge, hbo.size_mod, hbo.size_lt, by simp⟩
    rwa [Blk.word_free rfl rfl] at h₀'
  generalize hp₂ : (Pool.mk p.totalSize p.waterLine (u32Sub p.curUsedSize b.size)
    p.freeListBitmap p.freeList p.mem).set b.addr .sizeAndFlag b.size = p₂ at h₁ ⊢
  have hcur₂ : p₂.curUsedSize = u32Sub p.curUsedSize b.size := by rw [← hp₂]; rfl
  obtain ⟨-, -, hbn, -⟩ := h₁.seg.around
  rw [hbn.ptrPrev]
  have hchain := freeNodes_isChain h.coalesced
  -- the other nodes are not `b`, and not held
  have hU : ∀ d, d ∈ l₁ ∨ d ∈ l₂ → d.used = false → d.addr ∉ (insert b.addr ∅ : Set Nat) :=
    fun d hd _ hdU => hS.addr_ne_around hd (by simpa using hdU)
  rcases List.eq_nil_or_concat' l₁ with rfl | ⟨l₀, a, rfl⟩
  · -- `b` is the first node: nothing before it
    rw [lastAddr_nil, if_neg (by simp), pure_bind]
    obtain ⟨p', fl', heq, hcur, hS'⟩ := OsMemFree_next h₁ rfl (Set.mem_insert _ _) hU hlt LOS_OK
    exact ⟨p', fl', heq, ⟨hS', hchain⟩, by rw [hcur, hcur₂]⟩
  -- the node `a` before `b`
  have ham : a ∈ l₀ ++ [a] ++ ⟨b.addr, b.size, false, false⟩ :: l₂ := by simp
  have hao := h₁.seg.ok ham
  have hflag : OS_MEM_NODE_GET_USED_FLAG (p₂.get a.addr .sizeAndFlag) = 0 ↔ a.used = false := by
    rw [h₁.seg.word ham, Blk.GET_USED_word hao]
  rw [lastAddr_append, lastAddr_cons, lastAddr_nil]
  cases ha : a.used
  · -- `a` is free: off its list, and `b` into it
    rw [if_pos ⟨h₁.addr_ne_null ham, hflag.2 ha⟩]
    have hS₀ : Shape pool p (l₀ ++ a :: b :: l₂) fl ∅ := by simpa using hS
    have haU : a.addr ∉ (insert b.addr ∅ : Set Nat) := fun haU => by
      have hab : a.addr = b.addr := by simpa using haU
      exact hS₀.addr_ne_around (.inr (List.mem_cons_self ..)) hab.symm
    obtain ⟨p₃, fl₃, hdel, hcur₃, h₃⟩ := h₁.freeNodeDelete ham ha haU
    have h₃' : Shape pool p₃ (l₀ ++ a :: ⟨b.addr, b.size, false, false⟩ :: l₂) fl₃
        (insert a.addr (insert b.addr ∅)) := by simpa using h₃
    rw [joinPrev_free l₀ _ ha] at hlt
    dsimp only at hlt
    have hab : a.size + b.size < 2 ^ 29 :=
      lt_of_le_of_lt (size_le_joinNext ⟨a.addr, a.size + b.size, false, false⟩ l₂) hlt
    have h₄ := h₃'.merge (Set.mem_insert _ _) (Set.mem_insert_of_mem _ (Set.mem_insert _ _)) hab
    rw [← OsMemMergeNode_eq h₃' ha rfl] at h₄
    -- the nodes left are neither `a` nor `b`
    have hU₄ : ∀ d, d ∈ l₀ ∨ d ∈ l₂ → d.used = false →
        d.addr ∉ insert a.addr (insert b.addr ∅ : Set Nat) := by
      intro d hd hdu hdU
      rcases Set.mem_insert_iff.1 hdU with hda | hdb
      · exact hS₀.addr_ne_around (hd.imp_right (List.mem_cons_of_mem _)) hda
      · exact hU d (hd.imp_left (fun h => by simp [h])) hdu hdb
    obtain ⟨p', fl', heq, hcur, hS'⟩ := OsMemFree_next h₄ rfl (Set.mem_insert _ _) hU₄ hlt LOS_OK
    refine ⟨p', fl', ?_, ⟨?_, hchain⟩, ?_⟩
    · rw [hdel]
      simpa using heq
    · simpa [freeNodes, joinPrev_free l₀ _ ha] using hS'
    · rw [hcur, OsMemMergeNode_eq h₃' ha rfl]
      simp [hcur₃, hcur₂]
  · -- `a` is used: `b` stays where it is
    rw [if_neg fun h' => by simp [hflag.1 h'.2] at ha, pure_bind]
    rw [joinPrev_used l₀ _ ha] at hlt
    obtain ⟨p', fl', heq, hcur, hS'⟩ := OsMemFree_next h₁ rfl (Set.mem_insert _ _) hU hlt LOS_OK
    refine ⟨p', fl', heq, ⟨?_, hchain⟩, by rw [hcur, hcur₂]⟩
    simpa [freeNodes, joinPrev_used l₀ _ ha] using hS'

/-- `OS_MEM_IS_ALIGNED` at `4` is a test of the two low bits. -/
theorem OS_MEM_IS_ALIGNED_four {x : Nat} (hx : x % 4 = 0) : OS_MEM_IS_ALIGNED x 4 = true := by
  unfold OS_MEM_IS_ALIGNED
  rw [show x &&& (4 - 1) = x % 4 from Nat.and_two_pow_sub_one_eq_mod x 2, hx]
  rfl

/-- `LOS_MemFree` of the pointer `OsMemAlloc` handed out for a used node:
the gap word before it is the node's own word, not flagged aligned, so
the node itself is freed. -/
theorem LOS_MemFree_spec (h : Heap pool p (l₁ ++ b :: l₂) fl) (hu : b.used = true)
    (ha : b.aligned = false)
    (hlt : (joinNext (joinPrev l₁ ⟨b.addr, b.size, false, false⟩).2 l₂).1.size < 2 ^ 29) :
    ∃ p' fl', LOS_MemFree pool p (b.addr + OS_MEM_NODE_HEAD_SIZE) = some (LOS_OK, p') ∧
      Heap pool p' (freeNodes l₁ b l₂) fl' ∧ p'.curUsedSize = u32Sub p.curUsedSize b.size := by
  have hS := h.shape
  have hbm : b ∈ l₁ ++ b :: l₂ := by simp
  have hbo := hS.seg.ok hbm
  have hpm := hS.pool_mod
  have hmod := hS.seg.addr_mod (by unfold OS_MEM_FIRST_NODE sizeofOsMemPoolHead; omega) hbm
  have hend := (hS.seg.bounds hbm).2
  have hfits := hS.fits
  have hpool : pool ≠ NULL := hS.pool_ne
  unfold OS_MEM_END_NODE OS_MEM_NODE_HEAD_SIZE at hend
  unfold NULL at hpool
  -- the word before the pointer is the node's `sizeAndFlag`
  have hgap : p.mem (u32Sub (b.addr + OS_MEM_NODE_HEAD_SIZE) 4) = b.word := by
    rw [u32Sub_of_le (by unfold OS_MEM_NODE_HEAD_SIZE; omega)
      (by unfold OS_MEM_NODE_HEAD_SIZE; have := hbo.size_ge; omega)]
    exact hS.seg.word hbm
  have hnode : u32Sub (b.addr + OS_MEM_NODE_HEAD_SIZE) OS_MEM_NODE_HEAD_SIZE = b.addr := by
    rw [u32Sub_of_le (by omega) (by unfold OS_MEM_NODE_HEAD_SIZE; have := hbo.size_ge; omega)]
    omega
  have haligned : OS_MEM_NODE_GET_ALIGNED_FLAG b.word = 0 := (Blk.GET_ALIGNED_word hbo).2 ha
  unfold LOS_MemFree
  rw [if_neg (by
    simp only [OS_MEM_IS_ALIGNED_four hS.pool_mod,
      OS_MEM_IS_ALIGNED_four (show (b.addr + OS_MEM_NODE_HEAD_SIZE) % 4 = 0 by
        unfold OS_MEM_NODE_HEAD_SIZE; omega)]
    unfold NULL OS_MEM_NODE_HEAD_SIZE
    simp only [Bool.not_true, Bool.false_eq_true, or_false]
    omega)]
  dsimp only
  rw [hgap, haligned, if_neg (by simp), if_neg (by simp), hnode]
  exact OsMemFree_spec h hu hlt

/-- Allocating from a well-formed pool and freeing the pointer handed
out gives back the same nodes: the node taken is used and not aligned,
the nodes around it are used, and the rest a split left after it is
free, so freeing joins exactly what allocating cut. -/
theorem mem_alloc_free_round_trip (h : Heap pool p bs fl) {size ptr : Nat} {p₁ : Pool}
    (hs : size < 2 ^ 32) (halloc : LOS_MemAlloc p size = some (ptr, p₁)) (hptr : ptr ≠ NULL) :
    ∃ p₂ fl', LOS_MemFree pool p₁ ptr = some (LOS_OK, p₂) ∧ Heap pool p₂ bs fl' := by
  obtain ⟨r, hr, hres⟩ := LOS_MemAlloc_spec h hs
  rw [halloc] at hr
  cases hr
  cases hres with
  | null => exact absurd rfl hptr
  | @node l₁ l₂ b p₁ fl₁ hbs hu hheap _ =>
      subst hbs
      obtain ⟨hprev, hnext⟩ := h.around_used hu
      have hbo := h.shape.seg.ok (show b ∈ l₁ ++ b :: l₂ by simp)
      -- the free node `b` is the node that freeing rebuilds
      have hb : (⟨b.addr, b.size, false, false⟩ : Blk) = b := by
        have ha : b.aligned = false := hbo.aligned_of_free hu
        cases b
        simp only at hu ha ⊢
        rw [hu, ha]
      have hjoin : joinPrev l₁ (⟨b.addr, b.size, false, false⟩ : Blk) =
          (l₁, ⟨b.addr, b.size, false, false⟩) := joinPrev_of_used _ hprev
      generalize OS_MEM_ALIGN ((if size < OS_MEM_MIN_ALLOC_SIZE then OS_MEM_MIN_ALLOC_SIZE else size) +
        OS_MEM_NODE_HEAD_SIZE) OS_MEM_ALIGN_SIZE = allocSize at hheap
      by_cases hsplit : allocSize + OS_MEM_NODE_HEAD_SIZE + OS_MEM_MIN_ALLOC_SIZE ≤ b.size
      · -- the used part, then the free rest, which freeing takes back in
        rw [allocSplit_of_le hsplit] at hheap
        have hle : allocSize ≤ b.size := by omega
        have hrest : (⟨b.addr + allocSize, b.size - allocSize, false, false⟩ : Blk).used = false :=
          rfl
        have hjoin' : joinPrev l₁ (⟨b.addr, allocSize, false, false⟩ : Blk) =
            (l₁, ⟨b.addr, allocSize, false, false⟩) := joinPrev_of_used _ hprev
        have hheap' : Heap pool p₁ (l₁ ++ ⟨b.addr, allocSize, true, false⟩ ::
            ⟨b.addr + allocSize, b.size - allocSize, false, false⟩ :: l₂) fl₁ := by simpa using hheap
        obtain ⟨p₂, fl₂, hfree, hheap₂, -⟩ := LOS_MemFree_spec hheap' rfl rfl
          (by rw [hjoin', joinNext_free _ _ hrest]; dsimp only; rw [Nat.add_sub_cancel' hle]
              exact hbo.size_lt)
        refine ⟨p₂, fl₂, hfree, ?_⟩
        rwa [freeNodes, hjoin', joinNext_free _ _ hrest, Nat.add_sub_cancel' hle, hb] at hheap₂
      · -- all of `b` was handed out, between used nodes
        rw [allocSplit_of_lt hsplit] at hheap
        have hheap' : Heap pool p₁ (l₁ ++ { b with used := true } :: l₂) fl₁ := by
          simpa using hheap
        obtain ⟨p₂, fl₂, hfree, hheap₂, -⟩ := LOS_MemFree_spec hheap' rfl
          (hbo.aligned_of_free hu)
          (by rw [hjoin, joinNext_of_used _ hnext]; exact hbo.size_lt)
        refine ⟨p₂, fl₂, hfree, ?_⟩
        rwa [freeNodes, hjoin, joinNext_of_used _ hnext, hb] at hheap₂

/-- A fresh pool of `0x1000` bytes: `16` bytes allocated and freed again
leave the nodes `LOS_MemInit` laid out. -/
theorem mem_alloc_free_round_trip_fresh :
    ∃ p₀ p₁ bs fl, LOS_MemInit 0x1000 0x1000 zeroPool = some (LOS_OK, p₀) ∧
      Heap 0x1000 p₀ bs fl ∧ LOS_MemAlloc p₀ 16 = some (0x1000 + 956, p₁) ∧
      ∃ p₂ fl', LOS_MemFree 0x1000 p₁ (0x1000 + 956) = some (LOS_OK, p₂) ∧
        Heap 0x1000 p₂ bs fl' := by
  obtain ⟨p₀, p₁, hinit, halloc⟩ : ∃ p₀ p₁,
      LOS_MemInit 0x1000 0x1000 zeroPool = some (LOS_OK, p₀) ∧
        LOS_MemAlloc p₀ 16 = some (0x1000 + 956, p₁) :=
    ⟨_, _, rfl, rfl⟩
  obtain ⟨p', fl, hinit', hheap, -⟩ := @LOS_MemInit_spec 0x1000 0x1000 zeroPool (by decide)
    (by decide) (by decide) (by decide) (by decide)
  rw [hinit] at hinit'
  cases hinit'
  exact ⟨p₀, p₁, _, fl, hinit, hheap, halloc,
    mem_alloc_free_round_trip hheap (by decide) halloc (by decide)⟩

end LiteOsA.Tlsf
