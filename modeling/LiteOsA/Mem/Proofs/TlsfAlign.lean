/-
Aligned allocation (`LOS_MemAllocAlign`) and freeing what it hands out
(`LOS_MemFree`).

`LOS_MemAllocAlign` asks `OsMemAlloc` for `boundary - 4` bytes more than
the request and rounds the pointer up to `boundary`. When the pointer
moves, the node is flagged aligned and the gap is written, flagged
aligned too, in the word before the new pointer; when it does not, that
word is the node's own `sizeAndFlag`, not flagged aligned. `LOS_MemFree`
tells the two apart by the aligned flag alone and walks back over the
gap to the node's head.

`LOS_MemAllocAlign_free`: below `2 ^ 29` bytes for request and boundary
together, the pointer is aligned, the bytes requested lie in the used
node handed out, and `LOS_MemFree` of the pointer frees that node,
leaving the nodes of before the allocation, gap or no gap.

Above that, `OsMemAlloc` can hand out a node smaller than it was asked
for (`mem_alloc_large_undersized`), and an aligned request of
`2 ^ 29 - 24` bytes gets a pointer whose bytes run past the end of the
pool (`mem_alloc_align_undersized`).
-/
import LiteOsA.Mem.Proofs.TlsfSearch
import LiteOsA.Mem.Proofs.TlsfFree

namespace LiteOsA.Tlsf

variable {pool : Nat} {p : Pool} {bs l₁ l₂ : List Blk} {fl : Nat → List Nat} {U : Set Nat}
  {b c : Blk}

-- ============================================================ alignment

/-- `OS_MEM_IS_POW_TWO` on a `UINT32` other than zero: a power of two. -/
theorem OS_MEM_IS_POW_TWO_spec {v : Nat} (h0 : v ≠ 0) (hv : v < 2 ^ 32) (h : OS_MEM_IS_POW_TWO v = true) :
    ∃ k, v = 2 ^ k := by
  unfold OS_MEM_IS_POW_TWO at h
  rw [u32Sub_of_le (by omega) (by omega)] at h
  exact (Nat.and_sub_one_eq_zero_iff_isPowerOfTwo h0).mp (by simpa using h)

/-- `OS_MEM_ALIGN` to a power of two rounds up, when that does not wrap. -/
theorem OS_MEM_ALIGN_pow {x k : Nat} (hk : k ≤ 32) (hx : x + 2 ^ k - 1 < 2 ^ 32) :
    OS_MEM_ALIGN x (2 ^ k) = (x + 2 ^ k - 1) / 2 ^ k * 2 ^ k := by
  rw [OS_MEM_ALIGN, u32_of_lt hx]
  exact and_not_low_bits hx hk

/-- Rounding a multiple of four up to a multiple `m` of four moves it by
a multiple of four, at most `m - 4`. -/
theorem alignUp_gap {x m : Nat} (hx : x % 4 = 0) (hm : m % 4 = 0) (hm0 : 0 < m) :
    x ≤ (x + m - 1) / m * m ∧ (x + m - 1) / m * m + 4 ≤ x + m ∧ ((x + m - 1) / m * m - x) % 4 = 0 := by
  have hdm := Nat.div_add_mod (x + m - 1) m
  have hr := Nat.mod_lt (x + m - 1) hm0
  obtain ⟨t, rfl⟩ : ∃ t, m = 4 * t := ⟨m / 4, by omega⟩
  generalize (x + 4 * t - 1) / (4 * t) = d at hdm ⊢
  generalize (x + 4 * t - 1) % (4 * t) = r at hdm hr
  have he : d * (4 * t) = 4 * (d * t) := Nat.mul_left_comm d 4 t
  have he' : 4 * t * d = 4 * (d * t) := by rw [Nat.mul_assoc, Nat.mul_comm t d]
  rw [he]
  rw [he'] at hdm
  omega

-- ============================================================ the pool

/-- A word written into the user bytes of a used node: every head, the
end node and every free node's links stay as they were. -/
theorem Shape.writeUser (h : Shape pool p bs fl U) (hc : c ∈ bs) (hu : c.used = true) {x v : Nat}
    (hx₁ : c.addr + OS_MEM_NODE_HEAD_SIZE ≤ x) (hx₂ : x < c.addr + c.size) :
    Shape pool { p with mem := Function.update p.mem x v } bs fl U := by
  have hco := (h.seg.ok hc).size_ge
  unfold OS_MEM_NODE_HEAD_SIZE at hx₁
  -- `x` lies in `c`, past its head, and so off every other node
  have hoff : ∀ d ∈ bs, ∀ k < 20, d ≠ c ∨ k < 12 → x ≠ d.addr + k := by
    intro d hd k hk hdk hxk
    by_cases hdc : d = c
    · subst hdc
      rcases hdk with hdk | hdk
      · exact hdk rfl
      · omega
    · have := (h.seg.ok hd).size_ge
      rcases h.seg.disjoint hd hc hdc with h' | h' <;> omega
  have hend : x ≠ OS_MEM_END_NODE pool p.totalSize + 0 ∧ x ≠ OS_MEM_END_NODE pool p.totalSize + 4 ∧
      x ≠ OS_MEM_END_NODE pool p.totalSize + 8 := by
    have := (h.seg.bounds hc).2
    omega
  refine ⟨h.pool_ne, h.pool_mod, h.size_mod, h.fits, h.seg.congr fun d hd => ?_, h.last.congr ?_,
    h.lists.congr rfl rfl fun i y hy => ?_, h.listed⟩
  · exact headSame_of_mem fun k hk => Function.update_of_ne (hoff d hd k (by omega) (.inr hk)).symm _ _
  · exact ⟨Function.update_of_ne hend.1.symm _ _, Function.update_of_ne hend.2.1.symm _ _,
      Function.update_of_ne hend.2.2.symm _ _⟩
  · -- a listed node is free, so not `c`
    obtain ⟨d, hd, hdu, rfl, -⟩ := (h.listed i y).1 hy
    have hdc : d ≠ c := fun e => by rw [e, hu] at hdu; cases hdu
    exact ⟨Function.update_of_ne (hoff d hd 16 (by decide) (.inl hdc)).symm _ _,
      Function.update_of_ne (hoff d hd 12 (by decide) (.inl hdc)).symm _ _⟩

theorem Heap.writeUser (h : Heap pool p bs fl) (hc : c ∈ bs) (hu : c.used = true) {x v : Nat}
    (hx₁ : c.addr + OS_MEM_NODE_HEAD_SIZE ≤ x) (hx₂ : x < c.addr + c.size) :
    Heap pool { p with mem := Function.update p.mem x v } bs fl :=
  ⟨h.shape.writeUser hc hu hx₁ hx₂, h.coalesced⟩

/-- `OS_MEM_NODE_SET_ALIGNED_FLAG` on a used node. -/
theorem Heap.setAligned (h : Heap pool p (l₁ ++ c :: l₂) fl) (hu : c.used = true) :
    Heap pool (p.set c.addr .sizeAndFlag (p.get c.addr .sizeAndFlag ||| OS_MEM_NODE_ALIGNED_FLAG))
      (l₁ ++ { c with aligned := true } :: l₂) fl := by
  have hcm : c ∈ l₁ ++ c :: l₂ := by simp
  have hco := h.shape.seg.ok hcm
  rw [h.shape.seg.word hcm, Blk.word_or_aligned]
  -- held for the write, as only a used node is at `c.addr`
  have h₁ : Shape pool p (l₁ ++ c :: l₂) fl (insert c.addr ∅) :=
    h.shape.hold fun d hd hda => (h.shape.seg.eq_of_addr hd hcm hda) ▸ hu
  have h₂ := h₁.setWord (Set.mem_insert _ _) { c with aligned := true } rfl rfl
    ⟨hco.size_ge, hco.size_mod, hco.size_lt, fun _ => hu⟩
  refine ⟨h₂.release fun d hd hdu hdU => ?_, ?_⟩
  · have hda : d.addr = c.addr := by simpa using hdU
    have := h₂.seg.eq_of_addr hd (show { c with aligned := true } ∈ l₁ ++ { c with aligned := true } :: l₂ by simp) hda
    rw [this] at hdu
    simp [hu] at hdu
  · have hchain : (l₁ ++ [c] ++ l₂).IsChain fun b d : Blk => b.used = true ∨ d.used = true := by
      simpa using h.coalesced
    -- the chain reads only the used flags, and `c` stays used
    have hc' : (l₁ ++ [{ c with aligned := true }] ++ l₂).IsChain
        fun b d : Blk => b.used = true ∨ d.used = true :=
      isChain_splice hchain (by simp) (by simp) (fun _ _ y hy => .inr (by simp at hy; rw [← hy]; exact hu))
        (fun x hx _ _ => .inl (by simp at hx; rw [← hx]; exact hu))
    simpa using hc'

-- ============================================================ the gap word

/-- The gap word of an aligned allocation: flagged aligned, not used,
and the gap itself once the flag is masked off. -/
theorem gapWord_flags {g : Nat} (hg : g < 2 ^ 30) :
    OS_MEM_NODE_GET_ALIGNED_FLAG (g ||| OS_MEM_NODE_ALIGNED_FLAG) ≠ 0 ∧
      OS_MEM_NODE_GET_USED_FLAG (g ||| OS_MEM_NODE_ALIGNED_FLAG) = 0 ∧
      OS_MEM_NODE_GET_ALIGNED_GAPSIZE (g ||| OS_MEM_NODE_ALIGNED_FLAG) = g := by
  have h30 := testBit_of_lt_two_pow hg (le_refl 30)
  have h31 := testBit_of_lt_two_pow hg (show 30 ≤ 31 by decide)
  refine ⟨?_, ?_, ?_⟩
  · rw [Ne, OS_MEM_NODE_GET_ALIGNED_FLAG_eq_zero, Nat.testBit_or, OS_MEM_NODE_ALIGNED_FLAG_eq,
      Nat.testBit_two_pow]
    simp
  · rw [OS_MEM_NODE_GET_USED_FLAG_eq_zero, Nat.testBit_or, OS_MEM_NODE_ALIGNED_FLAG_eq, h31,
      Nat.testBit_two_pow]
    simp
  · refine Nat.eq_of_testBit_eq fun i => ?_
    rw [OS_MEM_NODE_GET_ALIGNED_GAPSIZE, Nat.testBit_and, Nat.testBit_or, Nat.testBit_xor,
      Nat.testBit_two_pow_sub_one, OS_MEM_NODE_ALIGNED_FLAG_eq, Nat.testBit_two_pow]
    by_cases hi : i = 30
    · subst hi
      simp [h30]
    · by_cases hi' : i < 32
      · simp [hi', Ne.symm hi]
      · simp [hi', Ne.symm hi, testBit_of_lt_two_pow hg (by omega : 30 ≤ i)]

/-- `LOS_MemFree` of the pointer `gap` bytes past the head of a used
node, with the gap word right before it: the gap is taken off and the
node itself goes to `OsMemFree`. -/
theorem LOS_MemFree_gap (h : Shape pool p bs fl U) (hc : c ∈ bs) {gap : Nat} (hg4 : gap % 4 = 0)
    (hg : gap < 2 ^ 30) (hin : c.addr + OS_MEM_NODE_HEAD_SIZE + gap ≤ c.addr + c.size)
    (hword : p.mem (c.addr + OS_MEM_NODE_HEAD_SIZE + gap - 4) = gap ||| OS_MEM_NODE_ALIGNED_FLAG) :
    LOS_MemFree pool p (c.addr + OS_MEM_NODE_HEAD_SIZE + gap) = OsMemFree pool p c.addr := by
  have hpm := h.pool_mod
  have hmod := h.seg.addr_mod (by unfold OS_MEM_FIRST_NODE sizeofOsMemPoolHead; omega) hc
  have hend := (h.seg.bounds hc).2
  have hfits := h.fits
  have hpool : pool ≠ NULL := h.pool_ne
  have hsz := (h.seg.ok hc).size_ge
  unfold OS_MEM_END_NODE OS_MEM_NODE_HEAD_SIZE at hend
  unfold NULL at hpool
  unfold OS_MEM_NODE_HEAD_SIZE at hin hword ⊢
  obtain ⟨hal, hused, hsize⟩ := gapWord_flags hg
  have hq4 : u32Sub (c.addr + 12 + gap) 4 = c.addr + 12 + gap - 4 := u32Sub_of_le (by omega) (by omega)
  have hq12 : u32Sub (c.addr + 12 + gap) 12 = c.addr + gap := by
    rw [u32Sub_of_le (by omega) (by omega)]
    omega
  have hnode : u32Sub (u32Sub (c.addr + 12 + gap) gap) 12 = c.addr := by
    rw [u32Sub_of_le (show gap ≤ c.addr + 12 + gap by omega) (by omega), Nat.add_sub_cancel,
      u32Sub_of_le (by omega) (by omega), Nat.add_sub_cancel]
  have hlow : gap &&& (OS_MEM_ALIGN_SIZE - 1) = 0 := by
    rw [show gap &&& (OS_MEM_ALIGN_SIZE - 1) = gap % 4 from Nat.and_two_pow_sub_one_eq_mod gap 2, hg4]
  unfold LOS_MemFree
  rw [if_neg (by
    simp only [OS_MEM_IS_ALIGNED_four hpm, OS_MEM_IS_ALIGNED_four (show (c.addr + 12 + gap) % 4 = 0 by omega)]
    unfold NULL
    simp only [Bool.not_true, Bool.false_eq_true, or_false]
    omega)]
  dsimp only
  unfold OS_MEM_NODE_HEAD_SIZE
  rw [hq4, hword, if_neg (fun hh => hh.2 hused), if_pos hal, hsize, hq12, if_neg (by omega), hnode]

-- ============================================================ freeing it again

/-- Freeing the node an allocation cut from the free node `b`, flagged
aligned or not: `OsMemFree` joins it with the rest the split left, and
the pool has its nodes of before the allocation again. -/
theorem OsMemFree_allocSplit (h : Heap pool p (l₁ ++ b :: l₂) fl) (hu : b.used = false) {A : Nat}
    {al : Bool} {p₁ : Pool} {fl₁ : Nat → List Nat}
    (h₁ : Heap pool p₁ (l₁ ++ { (allocSplit A b).1 with aligned := al } :: ((allocSplit A b).2 ++ l₂)) fl₁) :
    ∃ p₂ fl₂, OsMemFree pool p₁ b.addr = some (LOS_OK, p₂) ∧
      Heap pool p₂ (freeNodes l₁ { (allocSplit A b).1 with aligned := al } ((allocSplit A b).2 ++ l₂)) fl₂ ∧
      freeNodes l₁ { (allocSplit A b).1 with aligned := al } ((allocSplit A b).2 ++ l₂) = l₁ ++ b :: l₂ := by
  obtain ⟨hprev, hnext⟩ := h.around_used hu
  have hbo := h.shape.seg.ok (show b ∈ l₁ ++ b :: l₂ by simp)
  -- the free node `b` is the node that freeing rebuilds
  have hb : (⟨b.addr, b.size, false, false⟩ : Blk) = b := by
    have ha : b.aligned = false := hbo.aligned_of_free hu
    cases b
    simp only at hu ha ⊢
    rw [hu, ha]
  by_cases hsplit : A + OS_MEM_NODE_HEAD_SIZE + OS_MEM_MIN_ALLOC_SIZE ≤ b.size
  · -- the used part, then the free rest, which freeing takes back in
    rw [allocSplit_of_le hsplit] at h₁ ⊢
    have hle : A ≤ b.size := by omega
    have hjoin : joinPrev l₁ (⟨b.addr, A, false, false⟩ : Blk) = (l₁, ⟨b.addr, A, false, false⟩) :=
      joinPrev_of_used _ hprev
    have hnodes : freeNodes l₁ ⟨b.addr, A, true, al⟩ ([⟨b.addr + A, b.size - A, false, false⟩] ++ l₂) =
        l₁ ++ b :: l₂ := by
      simp only [freeNodes, hjoin, List.singleton_append, joinNext_free _ _ (rfl : (⟨b.addr + A, b.size - A,
        false, false⟩ : Blk).used = false), Nat.add_sub_cancel' hle, hb]
    obtain ⟨p₂, fl₂, hfree, hheap₂, -⟩ := OsMemFree_spec h₁ rfl (by
      rw [hjoin, List.singleton_append, joinNext_free _ _ rfl]
      dsimp only
      rw [Nat.add_sub_cancel' hle]
      exact hbo.size_lt)
    exact ⟨p₂, fl₂, hfree, hheap₂, hnodes⟩
  · -- all of `b` was handed out, between used nodes
    rw [allocSplit_of_lt hsplit] at h₁ ⊢
    have hjoin : joinPrev l₁ (⟨b.addr, b.size, false, false⟩ : Blk) = (l₁, ⟨b.addr, b.size, false, false⟩) :=
      joinPrev_of_used _ hprev
    have hnodes : freeNodes l₁ { b with used := true, aligned := al } ([] ++ l₂) = l₁ ++ b :: l₂ := by
      simp only [freeNodes, List.nil_append]
      rw [hjoin, joinNext_of_used _ hnext, hb]
    obtain ⟨p₂, fl₂, hfree, hheap₂, -⟩ := OsMemFree_spec h₁ rfl (by
      rw [List.nil_append]
      show (joinNext (joinPrev l₁ ⟨b.addr, b.size, false, false⟩).2 l₂).1.size < 2 ^ 29
      rw [hjoin, joinNext_of_used _ hnext]
      exact hbo.size_lt)
    exact ⟨p₂, fl₂, hfree, hheap₂, hnodes⟩

-- ============================================================ the node handed out

/-- A pointer `OsMemAlloc` hands out lies past the head of the node the
free-list search found. -/
theorem OsMemAlloc_ptr {size ptr : Nat} {p' : Pool} (halloc : OsMemAlloc p size = some (ptr, p'))
    (hptr : ptr ≠ NULL) :
    ptr = (OsMemFreeNodeGet p (OS_MEM_ALIGN (size + OS_MEM_NODE_HEAD_SIZE) OS_MEM_ALIGN_SIZE)).1 +
      OS_MEM_NODE_HEAD_SIZE := by
  unfold OsMemAlloc at halloc
  dsimp only at halloc
  generalize OS_MEM_ALIGN (size + OS_MEM_NODE_HEAD_SIZE) OS_MEM_ALIGN_SIZE = A at halloc ⊢
  by_cases h0 : A = 0
  · rw [if_pos h0] at halloc
    cases halloc
    exact absurd rfl hptr
  rw [if_neg h0] at halloc
  by_cases hx : (OsMemFreeNodeGet p A).1 = NULL
  · rw [if_pos hx] at halloc
    cases halloc
    exact absurd rfl hptr
  rw [if_neg hx] at halloc
  -- split or not, the pointer is the one past the node's head
  split at halloc <;>
  · obtain ⟨p₂, -, hp⟩ := Option.bind_eq_some_iff.mp halloc
    cases hp
    rfl

/-- Below `2 ^ 29` bytes, the node `OsMemAlloc` takes is as large as the
request: the search returns a node of that size or more. -/
theorem OsMemAlloc_size_le (h : Heap pool p (l₁ ++ b :: l₂) fl) {size : Nat} (h8 : OS_MEM_MIN_ALLOC_SIZE ≤ size)
    (hs : size < 2 ^ 30) (hA : OS_MEM_ALIGN (size + OS_MEM_NODE_HEAD_SIZE) OS_MEM_ALIGN_SIZE < 2 ^ 29)
    {p' : Pool} (halloc : OsMemAlloc p size = some (b.addr + OS_MEM_NODE_HEAD_SIZE, p')) :
    OS_MEM_ALIGN (size + OS_MEM_NODE_HEAD_SIZE) OS_MEM_ALIGN_SIZE ≤ b.size := by
  have hbm : b ∈ l₁ ++ b :: l₂ := by simp
  have hb0 := h.shape.addr_ne_null hbm
  have hptr := OsMemAlloc_ptr halloc (by unfold NULL at hb0 ⊢; unfold OS_MEM_NODE_HEAD_SIZE; omega)
  have hA4 : OS_MEM_ALIGN (size + OS_MEM_NODE_HEAD_SIZE) OS_MEM_ALIGN_SIZE =
      (size + OS_MEM_NODE_HEAD_SIZE + 3) / 4 * 4 :=
    OS_MEM_ALIGN_four (by unfold OS_MEM_NODE_HEAD_SIZE; omega)
  generalize OS_MEM_ALIGN (size + OS_MEM_NODE_HEAD_SIZE) OS_MEM_ALIGN_SIZE = A at hA hA4 hptr ⊢
  unfold OS_MEM_NODE_HEAD_SIZE OS_MEM_MIN_ALLOC_SIZE at *
  -- the node found is `b`'s
  have hx : (OsMemFreeNodeGet p A).1 = b.addr := by omega
  rw [OsMemFreeNodeGet_eq] at hx
  split_ifs at hx with hne
  · exact absurd hx.symm hb0
  obtain ⟨d, hd, -, hda, hle, -⟩ := OsMemFindNextSuitableBlock_found h.shape (by omega) (by omega) hA hne
  rw [h.shape.seg.eq_of_addr hd hbm (hda.trans hx)] at hle
  exact hle

/-- `LOS_MemFree` of the pointer past the head of a used node that is not
flagged aligned: the word before the pointer is the node's own, and the
node goes to `OsMemFree`. -/
theorem LOS_MemFree_node (h : Shape pool p bs fl U) (hc : c ∈ bs) (ha : c.aligned = false) :
    LOS_MemFree pool p (c.addr + OS_MEM_NODE_HEAD_SIZE) = OsMemFree pool p c.addr := by
  have hco := h.seg.ok hc
  have hpm := h.pool_mod
  have hmod := h.seg.addr_mod (by unfold OS_MEM_FIRST_NODE sizeofOsMemPoolHead; omega) hc
  have hend := (h.seg.bounds hc).2
  have hfits := h.fits
  have hpool : pool ≠ NULL := h.pool_ne
  unfold OS_MEM_END_NODE OS_MEM_NODE_HEAD_SIZE at hend
  unfold NULL at hpool
  -- the word before the pointer is the node's `sizeAndFlag`
  have hgap : p.mem (u32Sub (c.addr + OS_MEM_NODE_HEAD_SIZE) 4) = c.word := by
    rw [u32Sub_of_le (by unfold OS_MEM_NODE_HEAD_SIZE; omega)
      (by unfold OS_MEM_NODE_HEAD_SIZE; have := hco.size_ge; omega)]
    exact h.seg.word hc
  have hnode : u32Sub (c.addr + OS_MEM_NODE_HEAD_SIZE) OS_MEM_NODE_HEAD_SIZE = c.addr := by
    rw [u32Sub_of_le (by omega) (by unfold OS_MEM_NODE_HEAD_SIZE; have := hco.size_ge; omega)]
    omega
  have haligned : OS_MEM_NODE_GET_ALIGNED_FLAG c.word = 0 := (Blk.GET_ALIGNED_word hco).2 ha
  unfold LOS_MemFree
  rw [if_neg (by
    simp only [OS_MEM_IS_ALIGNED_four hpm,
      OS_MEM_IS_ALIGNED_four (show (c.addr + OS_MEM_NODE_HEAD_SIZE) % 4 = 0 by
        unfold OS_MEM_NODE_HEAD_SIZE; omega)]
    unfold NULL OS_MEM_NODE_HEAD_SIZE
    simp only [Bool.not_true, Bool.false_eq_true, or_false]
    omega)]
  dsimp only
  rw [hgap, haligned, if_neg (by simp), if_neg (by simp), hnode]

-- ============================================================ the round trip

/-- `LOS_MemAllocAlign` on a well-formed pool, request and boundary
together below `2 ^ 29` bytes: a pointer other than `NULL` is aligned to
the boundary, its bytes lie in a used node of the pool, and
`LOS_MemFree` of it returns `LOS_OK`, freeing that node and leaving the
nodes the pool had before the allocation. -/
theorem LOS_MemAllocAlign_free (h : Heap pool p bs fl) {size boundary : Nat}
    (hsmall : size + boundary + 20 ≤ 2 ^ 29) :
    ∃ q p₁, LOS_MemAllocAlign p size boundary = some (q, p₁) ∧
      (q ≠ NULL → q % boundary = 0 ∧
        ∃ l₁ c l₂ fl₁, Heap pool p₁ (l₁ ++ c :: l₂) fl₁ ∧ c.used = true ∧
          c.addr + OS_MEM_NODE_HEAD_SIZE ≤ q ∧ q + size ≤ c.addr + c.size ∧
          ∃ p₂ fl₂, LOS_MemFree pool p₁ q = some (LOS_OK, p₂) ∧
            Heap pool p₂ (freeNodes l₁ c l₂) fl₂ ∧ freeNodes l₁ c l₂ = bs) := by
  unfold LOS_MemAllocAlign
  by_cases hrej : size = 0 ∨ boundary = 0 ∨ !OS_MEM_IS_POW_TWO boundary ∨ !OS_MEM_IS_ALIGNED boundary 4
  · exact ⟨NULL, p, if_pos hrej, fun hq => absurd rfl hq⟩
  rw [if_neg hrej]
  simp only [not_or, Bool.not_eq_true', Bool.not_eq_false] at hrej
  obtain ⟨hs0, hb0, hpow, hal⟩ := hrej
  -- a power of two, of four bytes at least
  obtain ⟨k, rfl⟩ := OS_MEM_IS_POW_TWO_spec hb0 (by omega) hpow
  have hb4 : 2 ^ k % 4 = 0 := by
    unfold OS_MEM_IS_ALIGNED at hal
    rw [show 2 ^ k &&& (4 - 1) = 2 ^ k % 4 from Nat.and_two_pow_sub_one_eq_mod _ 2] at hal
    simpa using hal
  have hbpos : 0 < 2 ^ k := Nat.two_pow_pos k
  have hk : k < 29 := by
    by_contra hk
    have := Nat.pow_le_pow_right (show 0 < 2 by decide) (Nat.le_of_not_lt hk)
    omega
  dsimp only
  generalize hsz : (if size < OS_MEM_MIN_ALLOC_SIZE then OS_MEM_MIN_ALLOC_SIZE else size) = size'
  have hsz' : size ≤ size' ∧ 8 ≤ size' ∧ size' ≤ size + 8 := by
    rw [← hsz]
    unfold OS_MEM_MIN_ALLOC_SIZE
    split <;> omega
  rw [if_neg (by omega)]
  -- `useSize`: no wrap, and no flag bit
  have huse : u32Sub (u32 (size' + 2 ^ k)) 4 = size' + 2 ^ k - 4 := by
    rw [u32_of_lt (by omega), u32Sub_of_le (by omega) (by omega)]
  have hflags : ¬(OS_MEM_NODE_GET_USED_FLAG (size' + 2 ^ k - 4) ≠ 0 ∨
      OS_MEM_NODE_GET_ALIGNED_FLAG (size' + 2 ^ k - 4) ≠ 0) := by
    simp only [ne_eq, OS_MEM_NODE_GET_USED_FLAG_eq_zero, OS_MEM_NODE_GET_ALIGNED_FLAG_eq_zero, not_or,
      not_not]
    exact ⟨testBit_of_lt_two_pow (show size' + 2 ^ k - 4 < 2 ^ 29 by omega) (by decide),
      testBit_of_lt_two_pow (show size' + 2 ^ k - 4 < 2 ^ 29 by omega) (by decide)⟩
  rw [huse, if_neg hflags]
  obtain ⟨r, hr, hres⟩ := OsMemAlloc_spec h (show OS_MEM_MIN_ALLOC_SIZE ≤ size' + 2 ^ k - 4 by
    unfold OS_MEM_MIN_ALLOC_SIZE; omega) (show size' + 2 ^ k - 4 < 2 ^ 30 by omega)
  rw [hr]
  cases hres with
  | null =>
    -- no node: `OS_MEM_ALIGN(NULL, boundary)` is `NULL`
    have h0 : OS_MEM_ALIGN NULL (2 ^ k) = NULL := by
      rw [OS_MEM_ALIGN_pow (by omega) (by unfold NULL; omega)]
      unfold NULL
      rw [Nat.div_eq_of_lt (by omega), Nat.zero_mul]
    refine ⟨NULL, p, ?_, fun hq => absurd rfl hq⟩
    simp only [Option.bind_eq_bind, Option.bind_some, h0]
    rfl
  | @node l₁ l₂ b p' fl' hbs hu hheap hcur =>
    subst hbs
    have hbm : b ∈ l₁ ++ b :: l₂ := by simp
    have hpm := h.shape.pool_mod
    have hmod := h.shape.seg.addr_mod (by unfold OS_MEM_FIRST_NODE sizeofOsMemPoolHead; omega) hbm
    have hend := (h.shape.seg.bounds hbm).2
    have hfits := h.shape.fits
    unfold OS_MEM_END_NODE OS_MEM_NODE_HEAD_SIZE at hend
    -- the node taken holds the request and the largest gap
    have hA4 : OS_MEM_ALIGN (size' + 2 ^ k - 4 + OS_MEM_NODE_HEAD_SIZE) OS_MEM_ALIGN_SIZE =
        (size' + 2 ^ k - 4 + OS_MEM_NODE_HEAD_SIZE + 3) / 4 * 4 :=
      OS_MEM_ALIGN_four (by unfold OS_MEM_NODE_HEAD_SIZE; omega)
    have hAb := OsMemAlloc_size_le h (by unfold OS_MEM_MIN_ALLOC_SIZE; omega) (by omega)
      (by rw [hA4]; unfold OS_MEM_NODE_HEAD_SIZE; omega) hr
    rw [hA4] at hAb hheap
    generalize hAdef : (size' + 2 ^ k - 4 + OS_MEM_NODE_HEAD_SIZE + 3) / 4 * 4 = A at hAb hheap
    unfold OS_MEM_NODE_HEAD_SIZE at hAdef
    have hAs := le_allocSplit_fst_size hAb
    -- the aligned pointer: `ptr` rounded up to `boundary`
    have hq : OS_MEM_ALIGN (b.addr + OS_MEM_NODE_HEAD_SIZE) (2 ^ k) =
        (b.addr + OS_MEM_NODE_HEAD_SIZE + 2 ^ k - 1) / 2 ^ k * 2 ^ k :=
      OS_MEM_ALIGN_pow (by omega) (by unfold OS_MEM_NODE_HEAD_SIZE; omega)
    obtain ⟨hq₁, hq₂, hq₃⟩ := alignUp_gap (show (b.addr + OS_MEM_NODE_HEAD_SIZE) % 4 = 0 by
      unfold OS_MEM_NODE_HEAD_SIZE; omega) hb4 hbpos
    have hqm : (b.addr + OS_MEM_NODE_HEAD_SIZE + 2 ^ k - 1) / 2 ^ k * 2 ^ k % 2 ^ k = 0 :=
      Nat.mul_mod_left _ _
    simp only [Option.bind_eq_bind, Option.bind_some, hq]
    generalize (b.addr + OS_MEM_NODE_HEAD_SIZE + 2 ^ k - 1) / 2 ^ k * 2 ^ k = q at hq₁ hq₂ hq₃ hqm ⊢
    have hheap₁ : Heap pool p' (l₁ ++ (allocSplit A b).1 :: ((allocSplit A b).2 ++ l₂)) fl' := by
      simpa using hheap
    have hcm : (allocSplit A b).1 ∈ l₁ ++ (allocSplit A b).1 :: ((allocSplit A b).2 ++ l₂) := by simp
    unfold OS_MEM_NODE_HEAD_SIZE at hq₁ hq₂ hq₃ ⊢
    by_cases hgap : b.addr + 12 = q
    · -- already aligned: the node as `OsMemAlloc` left it
      rw [if_pos hgap]
      subst hgap
      have ha : (allocSplit A b).1.aligned = false := by
        rw [← allocSplit_fst_unaligned A ((h.shape.seg.ok hbm).aligned_of_free hu)]
      obtain ⟨p₂, fl₂, hfree, hheap₂, hnodes⟩ := OsMemFree_allocSplit h hu
        ((allocSplit_fst_unaligned A ((h.shape.seg.ok hbm).aligned_of_free hu)).symm ▸ hheap₁)
      rw [allocSplit_fst_unaligned A ((h.shape.seg.ok hbm).aligned_of_free hu)] at hheap₂ hnodes
      refine ⟨_, _, rfl, fun _ => ⟨hqm, l₁, _, _, fl', hheap₁, allocSplit_fst_used A b, by simp, ?_, p₂, fl₂, ?_,
        hheap₂, hnodes⟩⟩
      · simp only [allocSplit_fst_addr]
        omega
      · have := LOS_MemFree_node hheap₁.shape hcm ha
        simp only [allocSplit_fst_addr, OS_MEM_NODE_HEAD_SIZE] at this
        rw [this, hfree]
    · -- a gap: the node is flagged aligned and the gap written before `q`
      rw [if_neg hgap]
      have hgq : u32Sub q (b.addr + 12) = q - (b.addr + 12) := u32Sub_of_le (by omega) (by omega)
      have hnode : u32Sub (b.addr + 12) 12 = b.addr := by
        rw [u32Sub_of_le (by omega) (by omega)]
        omega
      have hq4 : u32Sub q 4 = q - 4 := u32Sub_of_le (by omega) (by omega)
      rw [hgq, hnode, hq4]
      have hset : Heap pool (p'.set b.addr .sizeAndFlag (p'.get b.addr .sizeAndFlag ||| OS_MEM_NODE_ALIGNED_FLAG))
          (l₁ ++ { (allocSplit A b).1 with aligned := true } :: ((allocSplit A b).2 ++ l₂)) fl' := by
        simpa only [allocSplit_fst_addr] using Heap.setAligned hheap₁ (allocSplit_fst_used A b)
      have hcm' : { (allocSplit A b).1 with aligned := true } ∈
          l₁ ++ { (allocSplit A b).1 with aligned := true } :: ((allocSplit A b).2 ++ l₂) := by simp
      have hw := @Heap.writeUser _ _ _ _ _ hset hcm' (allocSplit_fst_used A b) (q - 4)
        (q - (b.addr + 12) ||| OS_MEM_NODE_ALIGNED_FLAG)
        (by simp only [allocSplit_fst_addr, OS_MEM_NODE_HEAD_SIZE]; omega)
        (by simp only [allocSplit_fst_addr]; omega)
      obtain ⟨p₂, fl₂, hfree, hheap₂, hnodes⟩ := OsMemFree_allocSplit h hu hw
      -- `LOS_MemFree` reads the gap back and frees the node
      have hback := LOS_MemFree_gap hw.shape hcm' hq₃ (by omega)
        (by simp only [allocSplit_fst_addr, OS_MEM_NODE_HEAD_SIZE]; omega)
        (by
          simp only [allocSplit_fst_addr, OS_MEM_NODE_HEAD_SIZE]
          rw [show b.addr + 12 + (q - (b.addr + 12)) - 4 = q - 4 by omega]
          exact Function.update_self _ _ _)
      simp only [allocSplit_fst_addr, OS_MEM_NODE_HEAD_SIZE] at hback
      rw [show b.addr + 12 + (q - (b.addr + 12)) = q by omega, hfree] at hback
      refine ⟨_, _, rfl, fun _ => ⟨hqm, l₁, { (allocSplit A b).1 with aligned := true },
        (allocSplit A b).2 ++ l₂, fl', hw, allocSplit_fst_used A b, ?_, ?_, p₂, fl₂, hback, hheap₂, hnodes⟩⟩
      · simp only [allocSplit_fst_addr]
        omega
      · simp only [allocSplit_fst_addr]
        omega

/-- A fresh `0x1000`-byte pool asked for `16` bytes aligned to `16`: the
pointer past the first node's head, `0x1000 + 956`, moves by a gap of
four, and `LOS_MemFree` of the aligned pointer succeeds. -/
theorem LOS_MemAllocAlign_free_fresh :
    ∃ p₀ p₁ p₂, LOS_MemInit 0x1000 0x1000 zeroPool = some (LOS_OK, p₀) ∧
      LOS_MemAllocAlign p₀ 16 16 = some (0x1000 + 960, p₁) ∧
      LOS_MemFree 0x1000 p₁ (0x1000 + 960) = some (LOS_OK, p₂) := by
  obtain ⟨p₀, p₁', hinit, halloc'⟩ : ∃ p₀ p₁', LOS_MemInit 0x1000 0x1000 zeroPool = some (LOS_OK, p₀) ∧
      LOS_MemAllocAlign p₀ 16 16 = some (0x1000 + 960, p₁') := ⟨_, _, rfl, rfl⟩
  obtain ⟨p', fl, hinit', hheap, -⟩ := @LOS_MemInit_spec 0x1000 0x1000 zeroPool (by decide) (by decide)
    (by decide) (by decide) (by decide)
  rw [hinit] at hinit'
  cases hinit'
  obtain ⟨q, p₁, halloc, hq⟩ := LOS_MemAllocAlign_free hheap (show 16 + 16 + 20 ≤ 2 ^ 29 by decide)
  rw [halloc'] at halloc
  cases halloc
  obtain ⟨-, -, -, -, -, -, -, -, -, p₂, -, hfree, -⟩ := hq (by decide)
  exact ⟨p₀, p₁', p₂, hinit, halloc', hfree⟩

/-- The pool of `mem_alloc_large_undersized`, asked for `2 ^ 29 - 24`
bytes aligned to 16: `useSize` is `2 ^ 29 - 12`, `OsMemAlloc` hands out
the pool's one node at `0x1000 + 944`, and the pointer, moved by a gap
of four to `0x1000 + 960`, has its last bytes past the end of the pool,
and so of every node in it. -/
theorem mem_alloc_align_undersized :
    ∃ p₁ p₂, LOS_MemInit 0x1000 (OS_MEM_MIN_POOL_SIZE + 2 ^ 28 + 2 ^ 25) zeroPool = some (LOS_OK, p₁) ∧
      (∃ bs fl, Heap 0x1000 p₁ bs fl) ∧
      LOS_MemAllocAlign p₁ (2 ^ 29 - 24) 16 = some (0x1000 + 960, p₂) ∧
      0x1000 + p₂.totalSize < 0x1000 + 960 + (2 ^ 29 - 24) ∧
      ∀ bs fl, Heap 0x1000 p₂ bs fl → ∀ c ∈ bs, c.addr + c.size < 0x1000 + 960 + (2 ^ 29 - 24) := by
  obtain ⟨p₁, p₂, hinit, halloc, hend⟩ : ∃ p₁ p₂,
      LOS_MemInit 0x1000 (OS_MEM_MIN_POOL_SIZE + 2 ^ 28 + 2 ^ 25) zeroPool = some (LOS_OK, p₁) ∧
      LOS_MemAllocAlign p₁ (2 ^ 29 - 24) 16 = some (0x1000 + 960, p₂) ∧
      0x1000 + p₂.totalSize < 0x1000 + 960 + (2 ^ 29 - 24) :=
    ⟨_, _, rfl, rfl, by decide⟩
  obtain ⟨p', fl, hinit', hheap, -⟩ := @LOS_MemInit_spec 0x1000
    (OS_MEM_MIN_POOL_SIZE + 2 ^ 28 + 2 ^ 25) zeroPool (by decide) (by decide) (by decide)
    (by decide) (by decide)
  rw [hinit] at hinit'
  cases hinit'
  -- every node of the pool ends before the end node, far below `q + size`
  refine ⟨p₁, p₂, hinit, ⟨_, fl, hheap⟩, halloc, hend, fun bs fl₂ h₂ c hc => ?_⟩
  have := (h₂.shape.seg.bounds hc).2
  unfold OS_MEM_END_NODE OS_MEM_NODE_HEAD_SIZE at this
  omega

end LiteOsA.Tlsf
