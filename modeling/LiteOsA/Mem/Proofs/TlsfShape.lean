/-
The steps of the TLSF operations, on the shape of the pool.

Every operation of the allocator is a run of a few kinds of step, and
each kind is one lemma on `Shape` here:

* `Shape.unlist` and `Shape.relist`: a free node comes off its list
  (`OsMemListDelete`) or goes on the list of its size (`OsMemListAdd`);
  the set `U` of free nodes held off the lists grows or shrinks by it.
* `Shape.setWord`: a held node gets a new `sizeAndFlag`, used or free.
* `Shape.split` and `Shape.merge`: a held free node is cut in two, or
  two held nodes side by side become one free node.

A list step writes only links and one magic word
(`Shape.heads_of_links`); a node step writes only inside the nodes it
works on and in the `ptr.prev` of the node after them (`Shape.splice`,
over `Seg.splice`). Either way every other head and every list reads as
before.
-/
import LiteOsA.Mem.Proofs.TlsfList
import Mathlib.Data.Set.Insert

namespace LiteOsA.Tlsf

variable {pool : Nat} {p p' : Pool} {bs l₁ l₂ mid ms : List Blk} {fl : Nat → List Nat}
  {U : Set Nat} {b c : Blk}

namespace Shape

-- ============================================================ read off

theorem spaced (h : Shape pool p bs fl U) : Spaced fl := by
  intro i j x y hx hy hne
  obtain ⟨b, hb, -, rfl, -, rfl⟩ := (h.listed i x).1 hx
  obtain ⟨c, hc, -, rfl, -, rfl⟩ := (h.listed j y).1 hy
  have hbc : b ≠ c := by rintro rfl; simp at hne
  have := (h.seg.ok hb).size_ge
  have := (h.seg.ok hc).size_ge
  rcases h.seg.disjoint hb hc hbc with h' | h' <;> omega

/-- A node lies past the pool head, so it is not `NULL`. -/
theorem addr_ne_null (h : Shape pool p bs fl U) (hb : b ∈ bs) : b.addr ≠ NULL := by
  have := (h.seg.bounds hb).1
  unfold OS_MEM_FIRST_NODE sizeofOsMemPoolHead at this
  unfold NULL
  omega

/-- A word of a node's head is no link word of a node. -/
theorem head_ne_link (h : Shape pool p bs fl U) (hc : c ∈ bs) (hb : b ∈ bs) {k : Nat}
    (hk : k < 12) : b.addr + k ≠ c.addr + 12 ∧ b.addr + k ≠ c.addr + 16 := by
  by_cases hbc : b = c
  · subst hbc; omega
  · have := (h.seg.ok hb).size_ge
    have := (h.seg.ok hc).size_ge
    rcases h.seg.disjoint hb hc hbc with h' | h' <;> omega

/-- Memory that differs from `p` only in links of nodes and in the magic
word of node `n`, set again, keeps every head. -/
theorem heads_of_links (h : Shape pool p bs fl U) {n : Nat} (hn : ∃ c ∈ bs, c.addr = n)
    (hmagic : p'.mem n = OS_MEM_NODE_MAGIC)
    (hmem : ∀ x, x ≠ n → (∀ c ∈ bs, x ≠ c.addr + 12 ∧ x ≠ c.addr + 16) → p'.mem x = p.mem x) :
    (∀ d ∈ bs, HeadSame p p' d.addr) ∧ HeadSame p p' (OS_MEM_END_NODE pool p.totalSize) := by
  obtain ⟨c, hc, rfl⟩ := hn
  have hco := (h.seg.ok hc).size_ge
  have hcE := (h.seg.bounds hc).2
  refine ⟨fun d hd => ?_, ?_⟩
  · have hdo := (h.seg.ok hd).size_ge
    have hlink : ∀ k < 12, ∀ c' ∈ bs, d.addr + k ≠ c'.addr + 12 ∧ d.addr + k ≠ c'.addr + 16 :=
      fun k hk c' hc' => h.head_ne_link hc' hd hk
    by_cases hdc : d = c
    · -- the node whose magic word was set again
      subst hdc
      refine ⟨?_, hmem (d.addr + 4) (by omega) (hlink 4 (by decide)),
        hmem (d.addr + 8) (by omega) (hlink 8 (by decide))⟩
      show p'.mem d.addr = p.get d.addr .magic
      rw [hmagic, h.seg.magic hd]
    · have hfar := h.seg.disjoint hd hc hdc
      exact headSame_of_mem fun k hk => hmem _ (by omega) (hlink k hk)
  · refine headSame_of_mem fun k hk => hmem _ (by omega) fun c' hc' => ?_
    have := (h.seg.bounds hc').2
    have := (h.seg.ok hc').size_ge
    omega

/-- The shape reads only memory, the lists, the bitmap and the size. -/
theorem of_stats (h : Shape pool p bs fl U) (hm : p'.mem = p.mem) (hl : p'.freeList = p.freeList)
    (hb : p'.freeListBitmap = p.freeListBitmap) (ht : p'.totalSize = p.totalSize) :
    Shape pool p' bs fl U := by
  have hs : ∀ a, HeadSame p p' a := fun a => by simp [HeadSame, Pool.get, hm]
  exact ⟨h.pool_ne, h.pool_mod, ht ▸ h.size_mod, ht ▸ h.fits,
    ht ▸ h.seg.congr fun d _ => hs d.addr, ht ▸ h.last.congr (hs _),
    h.lists.congr hl hb fun i y _ => by simp [Pool.get, hm], h.listed⟩

-- ============================================================ list steps

/-- Taking a listed node off its list holds it. -/
theorem unlist (h : Shape pool p bs fl U) {i x : Nat} (hi : i < OS_MEM_FREE_LIST_COUNT)
    (hx : x ∈ fl i) :
    Shape pool (OsMemListDelete p i x) bs (Function.update fl i ((fl i).erase x)) (insert x U) := by
  have hsp := h.spaced
  obtain ⟨b, hb, -, rfl, -, hbi⟩ := (h.listed i x).1 hx
  obtain ⟨hheads, hend⟩ := h.heads_of_links ⟨b, hb, rfl⟩ OsMemListDelete_magic
    fun y hy hlink => OsMemListDelete_frame h.lists hsp hi hx hy fun z hz => by
      obtain ⟨c, hc, -, rfl, -⟩ := (h.listed i z).1 hz
      exact hlink c hc
  refine ⟨h.pool_ne, h.pool_mod, ?_, ?_, ?_, ?_, OsMemListDelete_spec h.lists hsp hi hx, ?_⟩
  · rw [OsMemListDelete_totalSize]; exact h.size_mod
  · rw [OsMemListDelete_totalSize]; exact h.fits
  · rw [OsMemListDelete_totalSize]; exact h.seg.congr hheads
  · rw [OsMemListDelete_totalSize]; exact h.last.congr hend
  · intro j y
    simp only [Function.update_apply, Set.mem_insert_iff, not_or]
    split_ifs with hj
    · subst hj
      rw [(h.lists.linked j hi).nodup.mem_erase_iff, h.listed]
      constructor
      · rintro ⟨hne, d, hd, hu, rfl, hU, hidx⟩
        exact ⟨d, hd, hu, rfl, ⟨hne, hU⟩, hidx⟩
      · rintro ⟨d, hd, hu, rfl, ⟨hne, hU⟩, hidx⟩
        exact ⟨hne, d, hd, hu, rfl, hU, hidx⟩
    · rw [h.listed]
      constructor
      · rintro ⟨d, hd, hu, rfl, hU, hidx⟩
        -- a node of another list is not `b`
        refine ⟨d, hd, hu, rfl, ⟨fun hdb => hj ?_, hU⟩, hidx⟩
        rw [← hidx, ← hbi, h.seg.eq_of_addr hd hb hdb]
      · rintro ⟨d, hd, hu, rfl, ⟨-, hU⟩, hidx⟩
        exact ⟨d, hd, hu, rfl, hU, hidx⟩

/-- Putting a held free node on the list of its size. -/
theorem relist (h : Shape pool p bs fl U) (hb : b ∈ bs) (hu : b.used = false) (hU : b.addr ∈ U) :
    Shape pool (OsMemListAdd p (OsMemFreeListIndexGet b.size) b.addr) bs
      (Function.update fl (OsMemFreeListIndexGet b.size)
        (b.addr :: fl (OsMemFreeListIndexGet b.size))) (U \ {b.addr}) := by
  have hsp := h.spaced
  have hbo := h.seg.ok hb
  have hi : OsMemFreeListIndexGet b.size < OS_MEM_FREE_LIST_COUNT :=
    OsMemFreeListIndexGet_lt (by have := hbo.size_ge; omega) hbo.size_lt
  -- the listed nodes are other nodes, clear of `b`
  have hother : ∀ j y, y ∈ fl j → ∃ c ∈ bs, c ≠ b ∧ c.addr = y := fun j y hy => by
    obtain ⟨c, hc, -, rfl, hcU, -⟩ := (h.listed j y).1 hy
    exact ⟨c, hc, by rintro rfl; exact hcU hU, rfl⟩
  have hfar : ∀ j y, y ∈ fl j → b.addr + 20 ≤ y ∨ y + 20 ≤ b.addr := fun j y hy => by
    obtain ⟨c, hc, hcb, rfl⟩ := hother j y hy
    have := hbo.size_ge
    have := (h.seg.ok hc).size_ge
    rcases h.seg.disjoint hb hc (Ne.symm hcb) with h' | h' <;> omega
  have hmagic : (OsMemListAdd p (OsMemFreeListIndexGet b.size) b.addr).mem b.addr =
      OS_MEM_NODE_MAGIC := by
    rw [OsMemListAdd_mem, if_pos rfl]
  obtain ⟨hheads, hend⟩ := h.heads_of_links ⟨b, hb, rfl⟩ hmagic fun x hx hlink => by
    rw [OsMemListAdd_mem, if_neg hx, if_neg (hlink b hb).2, if_neg (hlink b hb).1, if_neg]
    -- the old head of the list is a node, whose back link is a link word
    rintro ⟨h0, rfl⟩
    obtain ⟨c, hc, -, hcx⟩ := hother _ _ ((h.lists.linked _ hi).head_mem h0)
    exact (hlink c hc).1 (by rw [hcx])
  refine ⟨h.pool_ne, h.pool_mod, ?_, ?_, ?_, ?_,
    OsMemListAdd_spec h.lists hsp hi (h.addr_ne_null hb) hfar, ?_⟩
  · rw [OsMemListAdd_totalSize]; exact h.size_mod
  · rw [OsMemListAdd_totalSize]; exact h.fits
  · rw [OsMemListAdd_totalSize]; exact h.seg.congr hheads
  · rw [OsMemListAdd_totalSize]; exact h.last.congr hend
  · intro j y
    simp only [Function.update_apply, Set.mem_sdiff, Set.mem_singleton_iff, not_and, not_not]
    by_cases hy : y = b.addr
    · -- `b` is now on the list of its size, and on no other
      subst hy
      have hnot : ∀ j, b.addr ∉ fl j := fun j hm => by
        obtain ⟨c, hc, hcb, hcx⟩ := hother j _ hm
        exact hcb (h.seg.eq_of_addr hc hb hcx)
      constructor
      · intro hm
        split_ifs at hm with hj
        · exact ⟨b, hb, hu, rfl, fun _ => rfl, hj.symm⟩
        · exact absurd hm (hnot j)
      · rintro ⟨d, hd, -, hdb, -, rfl⟩
        rw [h.seg.eq_of_addr hd hb hdb, if_pos rfl]
        exact List.mem_cons_self
    · have hiff : y ∈ (if j = OsMemFreeListIndexGet b.size then
          b.addr :: fl (OsMemFreeListIndexGet b.size) else fl j) ↔ y ∈ fl j := by
        split_ifs with hj
        · subst hj; simp [hy]
        · exact Iff.rfl
      rw [hiff, h.listed]
      constructor
      · rintro ⟨d, hd, hu, rfl, hU, hidx⟩
        exact ⟨d, hd, hu, rfl, fun hm => absurd hm hU, hidx⟩
      · rintro ⟨d, hd, hu, rfl, hU, hidx⟩
        exact ⟨d, hd, hu, rfl, fun hm => hy (hU hm), hidx⟩

/-- Holding an address that is no free node's changes nothing. -/
theorem hold (h : Shape pool p bs fl U) {x : Nat} (hx : ∀ d ∈ bs, d.addr = x → d.used = true) :
    Shape pool p bs fl (insert x U) where
  __ := h
  listed i y := by
    rw [h.listed i y]
    constructor
    · rintro ⟨d, hd, hu, rfl, hU, hi⟩
      refine ⟨d, hd, hu, rfl, fun hm => ?_, hi⟩
      rcases (Set.mem_insert_iff.1 hm) with hm | hm
      · rw [hx d hd hm] at hu; exact absurd hu (by decide)
      · exact hU hm
    · rintro ⟨d, hd, hu, rfl, hU, hi⟩
      exact ⟨d, hd, hu, rfl, fun hm => hU (Set.mem_insert_of_mem _ hm), hi⟩

/-- Once no free node is held, the lists hold every free node. -/
theorem release (h : Shape pool p bs fl U) (hU : ∀ d ∈ bs, d.used = false → d.addr ∉ U) :
    Shape pool p bs fl ∅ where
  __ := h
  listed i y := by
    rw [h.listed i y]
    constructor
    · rintro ⟨d, hd, hu, rfl, -, hi⟩
      exact ⟨d, hd, hu, rfl, Set.notMem_empty _, hi⟩
    · rintro ⟨d, hd, hu, rfl, -, hi⟩
      exact ⟨d, hd, hu, rfl, hU d hd hu, hi⟩

-- ============================================================ node steps

/-- A node step: the held nodes `mid`, from `m` to `m'`, give way to
nodes `ms` over the same bytes; memory changes only there and in the
`ptr.prev` of the node at `m'`. -/
theorem splice {m m' q : Nat} (h : Shape pool p (l₁ ++ mid ++ l₂) fl U)
    (hmid : ∀ d ∈ mid, d.addr ∈ U) (h₁ : Seg p NULL (OS_MEM_FIRST_NODE pool) l₁ m)
    (h₂ : Seg p q m' l₂ (OS_MEM_END_NODE pool p.totalSize))
    (hend : EndAt p (lastAddr q l₂) (OS_MEM_END_NODE pool p.totalSize))
    (hms : Seg p' (lastAddr NULL l₁) m ms m') (hheld : ∀ d ∈ ms, d.used = false → d.addr ∈ U)
    (hmem : ∀ x, x < m ∨ m' ≤ x → x ≠ m' + 4 → p'.mem x = p.mem x)
    (hrel : p'.get m' .ptrPrev = lastAddr NULL (l₁ ++ ms))
    (htot : p'.totalSize = p.totalSize) (hfl : p'.freeList = p.freeList)
    (hbit : p'.freeListBitmap = p.freeListBitmap) :
    Shape pool p' (l₁ ++ ms ++ l₂) fl U := by
  obtain ⟨hseg, hlast⟩ := Seg.splice h₁ h₂ hend hms hmem hrel
  have hmm := hms.le
  -- a listed node is a node of `l₁` or of `l₂`: the middle ones are held
  have hside : ∀ i y, y ∈ fl i → ∃ d, (d ∈ l₁ ∨ d ∈ l₂) ∧ d.used = false ∧ d.addr = y ∧ y ∉ U ∧
      OsMemFreeListIndexGet d.size = i := fun i y hy => by
    obtain ⟨d, hd, hu, rfl, hU, hi⟩ := (h.listed i y).1 hy
    simp only [List.mem_append] at hd
    rcases hd with (hd | hd) | hd
    · exact ⟨d, .inl hd, hu, rfl, hU, hi⟩
    · exact absurd (hmid d hd) hU
    · exact ⟨d, .inr hd, hu, rfl, hU, hi⟩
  -- so its links lie outside the step
  have hlink : ∀ i, ∀ y ∈ fl i, ∀ k, 12 ≤ k → k < 20 → p'.mem (y + k) = p.mem (y + k) := by
    intro i y hy k hk hk'
    obtain ⟨d, hd | hd, -, rfl, -⟩ := hside i y hy
    · have := h₁.bounds hd
      have := (h₁.ok hd).size_ge
      exact hmem _ (.inl (by omega)) (by omega)
    · have := (h₂.bounds hd).1
      exact hmem _ (.inr (by omega)) (by omega)
  refine ⟨h.pool_ne, h.pool_mod, htot ▸ h.size_mod, htot ▸ h.fits, htot ▸ hseg, htot ▸ hlast,
    h.lists.congr hfl hbit fun i y hy =>
      ⟨hlink i y hy 16 (by decide) (by decide), hlink i y hy 12 (by decide) (by decide)⟩, ?_⟩
  intro i y
  constructor
  · intro hy
    obtain ⟨d, hd, hu, rfl, hU, hi⟩ := hside i y hy
    exact ⟨d, by simp only [List.mem_append]; tauto, hu, rfl, hU, hi⟩
  · rintro ⟨d, hd, hu, rfl, hU, hi⟩
    simp only [List.mem_append] at hd
    rw [h.listed]
    refine ⟨d, ?_, hu, rfl, hU, hi⟩
    simp only [List.mem_append]
    rcases hd with (hd | hd) | hd
    · exact .inl (.inl hd)
    · exact absurd (hheld d hd hu) hU
    · exact .inr hd

/-- The end node after the nodes around `b`, read off the shape. -/
theorem last_around (h : Shape pool p (l₁ ++ b :: l₂) fl U) :
    EndAt p (lastAddr b.addr l₂) (OS_MEM_END_NODE pool p.totalSize) := by
  have := h.last
  rwa [lastAddr_append, lastAddr_cons] at this

/-- A held node gets a new word: marked used, or marked free. -/
theorem setWord (h : Shape pool p (l₁ ++ b :: l₂) fl U) (hU : b.addr ∈ U) (b' : Blk)
    (haddr : b'.addr = b.addr) (hsize : b'.size = b.size) (hok : b'.Ok) :
    Shape pool (p.set b.addr .sizeAndFlag b'.word) (l₁ ++ b' :: l₂) fl U := by
  obtain ⟨h₁, hbo, hn, h₂⟩ := h.seg.around
  have hsz := hbo.size_ge
  have h' : Shape pool p (l₁ ++ [b] ++ l₂) fl U := by simpa using h
  rw [show l₁ ++ b' :: l₂ = l₁ ++ [b'] ++ l₂ by simp]
  refine h'.splice (by simpa using hU) h₁ h₂ h.last_around ?_ ?_ ?_ ?_
    (by simp only [Pool.set_totalSize]) (by simp only [Pool.set_freeList])
    (by simp only [Pool.set_freeListBitmap])
  · refine ⟨haddr, hok, ⟨?_, ?_, ?_⟩, by simp [hsize]⟩
    · rw [haddr, Pool.get_set, if_neg (by simp), hn.magic]
    · rw [haddr, Pool.get_set, if_neg (by simp), hn.ptrPrev]
    · rw [haddr, Pool.get_set, if_pos rfl]
  · intro d hd _
    rw [List.mem_singleton.1 hd, haddr]
    exact hU
  · intro x hx _
    rw [Pool.set_mem, Function.update_of_ne (by simp only [Field.off]; omega)]
  · rw [Pool.get_set, if_neg (by simp only [Field.off]; omega), h₂.ptrPrev_start h.last_around,
      lastAddr_append]
    simp [haddr]

/-- A held free node of at least `s + 20` bytes, cut after `s` bytes: its
head keeps the first part, and a new free node, held too, takes the
rest; the new node's magic word is written with it. -/
theorem split (h : Shape pool p (l₁ ++ b :: l₂) fl U) (hU : b.addr ∈ U) {s : Nat} (hs : 20 ≤ s)
    (hs4 : s % 4 = 0) (hle : s + 20 ≤ b.size) :
    Shape pool
      (((((p.set (b.addr + s) .ptrPrev b.addr).set (b.addr + s) .sizeAndFlag (b.size - s)).set
        b.addr .sizeAndFlag s).set (b.addr + b.size) .ptrPrev (b.addr + s)).set (b.addr + s)
          .magic OS_MEM_NODE_MAGIC)
      (l₁ ++ ⟨b.addr, s, false, false⟩ :: ⟨b.addr + s, b.size - s, false, false⟩ :: l₂) fl
      (insert (b.addr + s) U) := by
  obtain ⟨h₁, hbo, hn, h₂⟩ := h.seg.around
  have hsz := hbo.size_lt
  have hsm := hbo.size_mod
  -- no node starts inside `b`
  have hnone : ∀ d ∈ l₁ ++ b :: l₂, d.addr = b.addr + s → d.used = true := by
    intro d hd hds
    have hbm : b ∈ l₁ ++ b :: l₂ := by simp
    by_cases hdb : d = b
    · subst hdb; omega
    · have := (h.seg.ok hd).size_ge
      rcases h.seg.disjoint hd hbm hdb with h' | h' <;> omega
  have h' : Shape pool p (l₁ ++ [b] ++ l₂) fl (insert (b.addr + s) U) := by
    simpa using h.hold hnone
  rw [show ∀ x y : Blk, l₁ ++ x :: y :: l₂ = l₁ ++ [x, y] ++ l₂ by simp]
  refine h'.splice (by simp [hU]) h₁ h₂ h.last_around ?_ (by simp [hU]) ?_ ?_
    (by simp only [Pool.set_totalSize]) (by simp only [Pool.set_freeList])
    (by simp only [Pool.set_freeListBitmap])
  · -- the two nodes, read off the five writes
    refine ⟨rfl, ⟨hs, hs4, by dsimp only; omega, by simp⟩, ⟨?_, ?_, ?_⟩, rfl,
      ⟨by dsimp only; omega, by dsimp only; omega, by dsimp only; omega, by simp⟩,
      ⟨?_, ?_, ?_⟩, ?_⟩
    all_goals simp only [Pool.get, Pool.set_mem, Field.off, Function.update_apply]
    · split_ifs <;> first | omega | exact hn.magic
    · split_ifs <;> first | omega | exact hn.ptrPrev
    · split_ifs <;> first | omega | exact Eq.symm (Blk.word_free rfl rfl)
    · split_ifs <;> omega
    · split_ifs <;> omega
    · split_ifs <;> first | omega | exact Eq.symm (Blk.word_free rfl rfl)
    · show b.addr + s + (b.size - s) = b.addr + b.size
      omega
  · intro x hx hx4
    simp only [Pool.set_mem, Field.off, Function.update_apply]
    split_ifs <;> omega
  · simp only [Pool.get, Pool.set_mem, Field.off, Function.update_apply, lastAddr_append,
      lastAddr_cons, lastAddr_nil]
    split_ifs <;> omega

/-- Two held nodes side by side become one free node. -/
theorem merge (h : Shape pool p (l₁ ++ b :: c :: l₂) fl U) (hbU : b.addr ∈ U) (hcU : c.addr ∈ U)
    (hlt : b.size + c.size < 2 ^ 29) :
    Shape pool ((p.set b.addr .sizeAndFlag (b.size + c.size)).set (c.addr + c.size) .ptrPrev b.addr)
      (l₁ ++ ⟨b.addr, b.size + c.size, false, false⟩ :: l₂) fl U := by
  obtain ⟨h₁, hbo, hn, hc, hco, -, h₂⟩ := h.seg.around
  have hend : EndAt p (lastAddr (b.addr + b.size) l₂) (OS_MEM_END_NODE pool p.totalSize) := by
    have := h.last
    rwa [lastAddr_append, lastAddr_cons, lastAddr_cons, hc] at this
  have hb20 := hbo.size_ge
  have hc20 := hco.size_ge
  have hb4 := hbo.size_mod
  have hc4 := hco.size_mod
  have hok : Blk.Ok ⟨b.addr, b.size + c.size, false, false⟩ :=
    ⟨by dsimp only; omega, by dsimp only; omega, hlt, by simp⟩
  have h' : Shape pool p (l₁ ++ [b, c] ++ l₂) fl U := by simpa using h
  rw [show ∀ x : Blk, l₁ ++ x :: l₂ = l₁ ++ [x] ++ l₂ by simp]
  refine h'.splice (by simp [hbU, hcU]) h₁ h₂ hend ?_ (by simp [hbU]) ?_ ?_
    (by simp only [Pool.set_totalSize]) (by simp only [Pool.set_freeList])
    (by simp only [Pool.set_freeListBitmap])
  · refine ⟨rfl, hok, ⟨?_, ?_, ?_⟩, ?_⟩
    all_goals simp only [Pool.get, Pool.set_mem, Field.off, Function.update_apply]
    · split_ifs <;> first | omega | exact hn.magic
    · split_ifs <;> first | omega | exact hn.ptrPrev
    · split_ifs <;> first | omega | exact Eq.symm (Blk.word_free rfl rfl)
    · show b.addr + (b.size + c.size) = b.addr + b.size + c.size
      omega
  · intro x hx hx4
    simp only [Pool.set_mem, Field.off, Function.update_apply]
    split_ifs <;> omega
  · simp only [Pool.get, Pool.set_mem, Field.off, Function.update_apply, lastAddr_append,
      lastAddr_cons, lastAddr_nil]
    split_ifs <;> omega

end Shape

end LiteOsA.Tlsf
