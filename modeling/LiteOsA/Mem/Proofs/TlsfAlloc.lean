/-
Allocation from a TLSF pool (`OsMemAlloc`, `LOS_MemAlloc`).

`OsMemAlloc` rounds the request up to `allocSize`, takes a free node off
a list (`OsMemFreeNodeGet`), gives back what it does not need when the
rest is large enough for a node of its own (`OsMemSplitNode`), marks the
node used and counts it. On the shape of the pool those are the steps
`unlist`, then `split` and `relist`, then `setWord`.

`AllocRes` says what a call does to a well-formed pool: it hands out
`NULL` and changes nothing, or it takes a free node `b`, hands out the
address past its head, and leaves a well-formed pool in which `b` has
become `allocSplit allocSize b`. Which node is taken is the bucket
search's choice; it is not always one of `allocSize` bytes or more.
-/
import LiteOsA.Mem.Proofs.TlsfInit
import Mathlib.Order.BooleanAlgebra.Set

namespace LiteOsA.Tlsf

variable {pool : Nat} {p : Pool} {bs l₁ l₂ : List Blk} {fl : Nat → List Nat} {U : Set Nat}
  {b : Blk}

-- ============================================================ the outcome

/-- Allocating `allocSize` bytes from the free node `b`: the used node,
and the free node left after it when the rest is large enough for one. -/
def allocSplit (allocSize : Nat) (b : Blk) : Blk × List Blk :=
  if allocSize + OS_MEM_NODE_HEAD_SIZE + OS_MEM_MIN_ALLOC_SIZE ≤ b.size then
    (⟨b.addr, allocSize, true, false⟩, [⟨b.addr + allocSize, b.size - allocSize, false, false⟩])
  else ({ b with used := true }, [])

theorem allocSplit_of_le {allocSize : Nat}
    (h : allocSize + OS_MEM_NODE_HEAD_SIZE + OS_MEM_MIN_ALLOC_SIZE ≤ b.size) :
    allocSplit allocSize b =
      (⟨b.addr, allocSize, true, false⟩, [⟨b.addr + allocSize, b.size - allocSize, false, false⟩]) :=
  if_pos h

theorem allocSplit_of_lt {allocSize : Nat}
    (h : ¬allocSize + OS_MEM_NODE_HEAD_SIZE + OS_MEM_MIN_ALLOC_SIZE ≤ b.size) :
    allocSplit allocSize b = ({ b with used := true }, []) :=
  if_neg h

@[simp] theorem allocSplit_fst_addr (allocSize : Nat) (b : Blk) :
    (allocSplit allocSize b).1.addr = b.addr := by
  unfold allocSplit
  split <;> rfl

@[simp] theorem allocSplit_fst_used (allocSize : Nat) (b : Blk) :
    (allocSplit allocSize b).1.used = true := by
  unfold allocSplit
  split <;> rfl

theorem le_allocSplit_fst_size {allocSize : Nat} (hA : allocSize ≤ b.size) :
    allocSize ≤ (allocSplit allocSize b).1.size := by
  unfold allocSplit
  split
  · exact le_rfl
  · exact hA

/-- The node an allocation hands out is not flagged aligned. -/
theorem allocSplit_fst_unaligned (allocSize : Nat) (ha : b.aligned = false) :
    { (allocSplit allocSize b).1 with aligned := false } = (allocSplit allocSize b).1 := by
  unfold allocSplit
  split
  · rfl
  · cases b
    simp only at ha ⊢
    rw [ha]

/-- What allocating `allocSize` bytes from a well-formed pool returns:
`NULL` with the pool unchanged, or the address past the head of a free
node `b` that now makes way for `allocSplit allocSize b`, in a pool that
is well formed again and counts the used node. -/
inductive AllocRes (pool : Nat) (p : Pool) (bs : List Blk) (allocSize : Nat) :
    Nat × Pool → Prop
  | null : AllocRes pool p bs allocSize (NULL, p)
  | node {l₁ l₂ : List Blk} {b : Blk} {p' : Pool} {fl' : Nat → List Nat} :
      bs = l₁ ++ b :: l₂ → b.used = false →
      Heap pool p' (l₁ ++ (allocSplit allocSize b).1 :: (allocSplit allocSize b).2 ++ l₂) fl' →
      p'.curUsedSize = u32 (p.curUsedSize + (allocSplit allocSize b).1.size) →
      AllocRes pool p bs allocSize (b.addr + OS_MEM_NODE_HEAD_SIZE, p')

-- ============================================================ pieces

attribute [ext] Pool

/-- `OsMemListAdd` writes the node's magic word last, so an earlier
write of it is lost. -/
theorem OsMemListAdd_set_magic {i node : Nat} (v : Nat) :
    OsMemListAdd (p.set node .magic v) i node = OsMemListAdd p i node := by
  ext x
  · simp
  · simp
  · simp
  · simp only [OsMemListAdd_freeListBitmap, OsMemSetFreeListBit, Pool.set_freeListBitmap]
  · simp
  · rw [OsMemListAdd_mem, OsMemListAdd_mem]
    simp only [Pool.set_freeList, Pool.set_mem, Field.off, Nat.add_zero, Function.update_apply]
    split_ifs <;> rfl

/-- Only a used node is aligned. -/
theorem Blk.Ok.aligned_of_free (hb : b.Ok) (hu : b.used = false) : b.aligned = false := by
  cases ha : b.aligned
  · rfl
  · rw [hb.aligned_used ha] at hu; exact absurd hu (by decide)

/-- A free node's word is its size. -/
theorem Shape.word_free (h : Shape pool p bs fl U) (hb : b ∈ bs) (hu : b.used = false) :
    p.get b.addr .sizeAndFlag = b.size := by
  rw [h.seg.word hb, Blk.word_free hu ((h.seg.ok hb).aligned_of_free hu)]

/-- `OsMemSplitNode` on a held free node whose next node is used or the
end node: the cut, and the rest on the list of its size. -/
theorem OsMemSplitNode_spec (h : Shape pool p (l₁ ++ b :: l₂) fl U) (hu : b.used = false)
    (hU : b.addr ∈ U) {s : Nat} (hs : 20 ≤ s) (hs4 : s % 4 = 0) (hle : s + 20 ≤ b.size)
    (hnext : ∀ c ∈ l₂.head?, c.used = true) :
    ∃ p' fl', OsMemSplitNode p b.addr s = some p' ∧ p'.curUsedSize = p.curUsedSize ∧
      Shape pool p' (l₁ ++ ⟨b.addr, s, false, false⟩ :: ⟨b.addr + s, b.size - s, false, false⟩ :: l₂)
        fl' (U \ {b.addr + s}) := by
  have hbm : b ∈ l₁ ++ b :: l₂ := by simp
  have hbo := h.seg.ok hbm
  have hsz := hbo.size_lt
  have hw := h.word_free hbm hu
  obtain ⟨-, -, -, h₂⟩ := h.seg.around
  obtain ⟨hlast, hused⟩ := h₂.start_flags h.last_around
  -- the node after `b` is used, or is the end node
  have hnu : OS_MEM_NODE_GET_USED_FLAG (p.get (b.addr + b.size) .sizeAndFlag) ≠ 0 := by
    intro h0
    obtain ⟨c, hc, hcu⟩ := hused.1 h0
    rw [hnext c hc] at hcu
    exact absurd hcu (by decide)
  -- the words the code reads back
  have r₁ : (p.set (b.addr + s) .ptrPrev b.addr).get b.addr .sizeAndFlag = b.size := by
    rw [Pool.get_set, if_neg (by simp only [Field.off]; omega), hw]
  have r₂ : OS_MEM_NEXT_NODE (((p.set (b.addr + s) .ptrPrev b.addr).set (b.addr + s) .sizeAndFlag
      (b.size - s)).set b.addr .sizeAndFlag s) (b.addr + s) = b.addr + b.size := by
    unfold OS_MEM_NEXT_NODE
    rw [Pool.get_set, if_neg (by simp only [Field.off]; omega), Pool.get_set, if_pos rfl,
      OS_MEM_NODE_GET_SIZE_eq, Nat.mod_eq_of_lt (by omega)]
    omega
  have r₃ : (((p.set (b.addr + s) .ptrPrev b.addr).set (b.addr + s) .sizeAndFlag
      (b.size - s)).set b.addr .sizeAndFlag s).get (b.addr + b.size) .sizeAndFlag =
      p.get (b.addr + b.size) .sizeAndFlag := by
    simp only [Pool.get_set]
    rw [if_neg (by simp only [Field.off]; omega), if_neg (by simp only [Field.off]; omega),
      if_neg (by simp only [Field.off]; omega)]
  have r₄ : (((p.set (b.addr + s) .ptrPrev b.addr).set (b.addr + s) .sizeAndFlag
      (b.size - s)).set b.addr .sizeAndFlag s).get (b.addr + s) .sizeAndFlag = b.size - s := by
    rw [Pool.get_set, if_neg (by simp only [Field.off]; omega), Pool.get_set, if_pos rfl]
  have hS := h.split hU hs hs4 hle
  have hR := hS.relist
    (show (⟨b.addr + s, b.size - s, false, false⟩ : Blk) ∈ l₁ ++ _ :: _ :: l₂ by simp) rfl (by simp)
  dsimp only at hR
  rw [Set.insert_sdiff_of_mem U (Set.mem_singleton _)] at hR
  refine ⟨_, _, ?_, by simp, hR⟩
  unfold OsMemSplitNode
  dsimp only
  rw [r₁, u32Sub_of_le (by omega) (by omega), r₂]
  generalize ((p.set (b.addr + s) .ptrPrev b.addr).set (b.addr + s) .sizeAndFlag
    (b.size - s)).set b.addr .sizeAndFlag s = p₃ at r₃ r₄ ⊢
  have r₅ : (p₃.set (b.addr + b.size) .ptrPrev (b.addr + s)).get (b.addr + b.size) .sizeAndFlag =
      p.get (b.addr + b.size) .sizeAndFlag := by
    rw [Pool.get_set, if_neg (by simp only [Field.off]; omega), r₃]
  have r₆ : (p₃.set (b.addr + b.size) .ptrPrev (b.addr + s)).get (b.addr + s) .sizeAndFlag =
      b.size - s := by
    rw [Pool.get_set, if_neg (by simp only [Field.off]; omega), r₄]
  -- the node after the rest is not free: no merge, and the rest goes on its list
  rw [r₃, if_pos hlast, r₅, if_neg hnu, pure_bind,
    OsMemFreeNodeAdd_eq (by rw [r₆]; omega) (by rw [r₆]; omega), r₆,
    ← OsMemListAdd_set_magic OS_MEM_NODE_MAGIC]

/-- The other nodes around `b` start elsewhere. -/
theorem Shape.addr_ne_around (h : Shape pool p (l₁ ++ b :: l₂) fl U) {d : Blk}
    (hd : d ∈ l₁ ∨ d ∈ l₂) : d.addr ≠ b.addr := by
  obtain ⟨h₁, hbo, -, h₂⟩ := h.seg.around
  have := hbo.size_ge
  rcases hd with hd | hd
  · have := h₁.bounds hd
    have := (h₁.ok hd).size_ge
    omega
  · have := (h₂.bounds hd).1
    omega

/-- The nodes on either side of a free node are used. -/
theorem Heap.around_used (h : Heap pool p (l₁ ++ b :: l₂) fl) (hu : b.used = false) :
    (∀ c ∈ l₁.getLast?, c.used = true) ∧ ∀ c ∈ l₂.head?, c.used = true := by
  obtain ⟨-, -, hmid⟩ := List.isChain_append.1 h.coalesced
  obtain ⟨hright, -⟩ := List.isChain_cons.1 (List.isChain_split.1 h.coalesced).2
  refine ⟨fun c hc => ?_, fun c hc => ?_⟩
  · simpa [hu] using hmid c hc b (by simp)
  · simpa [hu] using hright c hc

/-- The size `OsMemAlloc` asks of the lists for `size` bytes. -/
theorem OsMemAlloc_allocSize {size : Nat} (h8 : OS_MEM_MIN_ALLOC_SIZE ≤ size) (hs : size < 2 ^ 30) :
    20 ≤ OS_MEM_ALIGN (size + OS_MEM_NODE_HEAD_SIZE) OS_MEM_ALIGN_SIZE ∧
      OS_MEM_ALIGN (size + OS_MEM_NODE_HEAD_SIZE) OS_MEM_ALIGN_SIZE % 4 = 0 ∧
      OS_MEM_ALIGN (size + OS_MEM_NODE_HEAD_SIZE) OS_MEM_ALIGN_SIZE < 2 ^ 31 ∧
      size + OS_MEM_NODE_HEAD_SIZE ≤ OS_MEM_ALIGN (size + OS_MEM_NODE_HEAD_SIZE) OS_MEM_ALIGN_SIZE := by
  unfold OS_MEM_MIN_ALLOC_SIZE at h8
  rw [OS_MEM_ALIGN_four (by unfold OS_MEM_NODE_HEAD_SIZE; omega)]
  unfold OS_MEM_NODE_HEAD_SIZE
  omega

/-- The size in a used node's word. -/
theorem OS_MEM_NODE_GET_SIZE_or_used {s : Nat} (hs : s < 2 ^ 29) :
    OS_MEM_NODE_GET_SIZE (s ||| OS_MEM_NODE_USED_FLAG) = s := by
  rw [OS_MEM_NODE_GET_SIZE_eq, OS_MEM_NODE_USED_FLAG_eq]
  refine Nat.eq_of_testBit_eq fun i => ?_
  rw [Nat.testBit_mod_two_pow, Nat.testBit_or, Nat.testBit_two_pow]
  by_cases hi : i < 29
  · simp only [hi, decide_true, Bool.true_and, Bool.or_eq_left_iff_imp, decide_eq_true_eq]
    omega
  · simp [hi, testBit_of_lt_two_pow hs (Nat.le_of_not_lt hi)]

/-- The last steps of `OsMemAlloc`, on the node `c` it hands out (all of
the node taken, or its first part): marked used and counted. With `c`
the only free node held off the lists, the pool is well formed again. -/
theorem alloc_mark_used {p₂ : Pool} {fl₂ : Nat → List Nat} {U₂ : Set Nat} {c : Blk}
    {r : List Blk} (h₂ : Shape pool p₂ (l₁ ++ c :: (r ++ l₂)) fl₂ U₂) (hu : c.used = false)
    (hcU : c.addr ∈ U₂) (hrel : ∀ d, d ∈ l₁ ∨ d ∈ r ∨ d ∈ l₂ → d.used = false → d.addr ∉ U₂)
    (hchain : (l₁ ++ { c with used := true } :: (r ++ l₂)).IsChain
      fun b c => b.used = true ∨ c.used = true) :
    Heap pool (OsMemWaterUsedRecord (p₂.set c.addr .sizeAndFlag (c.size ||| OS_MEM_NODE_USED_FLAG))
      c.size) (l₁ ++ { c with used := true } :: (r ++ l₂)) fl₂ := by
  have hcm : c ∈ l₁ ++ c :: (r ++ l₂) := by simp
  have hco := h₂.seg.ok hcm
  have hword : c.size ||| OS_MEM_NODE_USED_FLAG = { c with used := true }.word :=
    calc c.size ||| OS_MEM_NODE_USED_FLAG = c.word ||| OS_MEM_NODE_USED_FLAG := by
          rw [Blk.word_free hu (hco.aligned_of_free hu)]
      _ = { c with used := true }.word := Blk.word_or_used c
  rw [hword]
  have h₃ := h₂.setWord hcU { c with used := true } rfl rfl
    ⟨hco.size_ge, hco.size_mod, hco.size_lt, fun _ => rfl⟩
  -- the count changes nothing the shape reads
  have h₄ : Shape pool (OsMemWaterUsedRecord (p₂.set c.addr .sizeAndFlag
      { c with used := true }.word) c.size) (l₁ ++ { c with used := true } :: (r ++ l₂)) fl₂ U₂ :=
    h₃.of_stats rfl rfl rfl rfl
  refine ⟨h₄.release fun d hd hdu => ?_, hchain⟩
  simp only [List.mem_append, List.mem_cons] at hd
  rcases hd with hd | rfl | hd | hd
  · exact hrel d (.inl hd) hdu
  · simp at hdu
  · exact hrel d (.inr (.inl hd)) hdu
  · exact hrel d (.inr (.inr hd)) hdu

/-- `OsMemAlloc` on a well-formed pool, for a request the pool can
express (`LOS_MemAlloc` asks at least `OS_MEM_MIN_ALLOC_SIZE` bytes). -/
theorem OsMemAlloc_spec (h : Heap pool p bs fl) {size : Nat} (h8 : OS_MEM_MIN_ALLOC_SIZE ≤ size)
    (hs : size < 2 ^ 30) :
    ∃ r, OsMemAlloc p size = some r ∧
      AllocRes pool p bs (OS_MEM_ALIGN (size + OS_MEM_NODE_HEAD_SIZE) OS_MEM_ALIGN_SIZE) r := by
  obtain ⟨h20, hA4, hAlt, -⟩ := OsMemAlloc_allocSize h8 hs
  unfold OsMemAlloc
  dsimp only
  generalize OS_MEM_ALIGN (size + OS_MEM_NODE_HEAD_SIZE) OS_MEM_ALIGN_SIZE = allocSize at h20 hA4 hAlt ⊢
  rw [if_neg (by omega)]
  by_cases hx : (OsMemFreeNodeGet p allocSize).1 = NULL
  · -- no node: nothing changes
    rw [OsMemFreeNodeGet_null hx]
    exact ⟨_, rfl, .null⟩
  obtain ⟨i, hi, hxi, hp1⟩ := OsMemFreeNodeGet_spec h.shape.lists (by omega) (by omega) hx
  generalize OsMemFreeNodeGet p allocSize = g at hx hxi hp1 ⊢
  obtain ⟨x, p₁⟩ := g
  dsimp only at hx hxi hp1 ⊢
  rw [if_neg hx]
  obtain ⟨b, hb, hu, rfl, -, -⟩ := (h.shape.listed i x).1 hxi
  obtain ⟨l₁, l₂, rfl⟩ := List.append_of_mem hb
  have h₁ : Shape pool p₁ (l₁ ++ b :: l₂) (Function.update fl i ((fl i).erase b.addr))
      (insert b.addr ∅) := hp1 ▸ h.shape.unlist hi hxi
  have hbo := h₁.seg.ok hb
  have hblt := hbo.size_lt
  obtain ⟨hprev, hnext⟩ := h.around_used hu
  -- the held set is `b` alone, which ends up used
  have hother : ∀ d, d ∈ l₁ ∨ d ∈ l₂ → d.addr ∉ (insert b.addr ∅ : Set Nat) := fun d hd hm =>
    h₁.addr_ne_around hd (by simpa using hm)
  have hwrap : u32 (allocSize + OS_MEM_NODE_HEAD_SIZE + OS_MEM_MIN_ALLOC_SIZE) =
      allocSize + OS_MEM_NODE_HEAD_SIZE + OS_MEM_MIN_ALLOC_SIZE :=
    u32_of_lt (by unfold OS_MEM_NODE_HEAD_SIZE OS_MEM_MIN_ALLOC_SIZE; omega)
  have hchain : (l₁ ++ [b] ++ l₂).IsChain fun b c : Blk => b.used = true ∨ c.used = true := by
    simpa using h.coalesced
  rw [h₁.word_free hb hu, hwrap]
  by_cases hsplit : allocSize + OS_MEM_NODE_HEAD_SIZE + OS_MEM_MIN_ALLOC_SIZE ≤ b.size
  · -- the rest is large enough for a node of its own: `b` is cut
    have hsplit' : allocSize + 20 ≤ b.size := hsplit
    rw [if_pos hsplit]
    obtain ⟨p₂, fl₂, hsp, hcur, h₂⟩ := OsMemSplitNode_spec h₁ hu (Set.mem_insert _ _) h20 hA4
      hsplit' hnext
    rw [hsp, Option.bind_eq_bind, Option.bind_some]
    have hb₁ : (⟨b.addr, allocSize, false, false⟩ : Blk) ∈
        l₁ ++ ⟨b.addr, allocSize, false, false⟩ ::
          ⟨b.addr + allocSize, b.size - allocSize, false, false⟩ :: l₂ := by simp
    have hw₂ : p₂.get b.addr .sizeAndFlag = allocSize := h₂.word_free hb₁ rfl
    rw [hw₂, Pool.get_set, if_pos rfl, OS_MEM_NODE_GET_SIZE_or_used (by omega)]
    have h₂' : Shape pool p₂ (l₁ ++ ⟨b.addr, allocSize, false, false⟩ ::
        ([⟨b.addr + allocSize, b.size - allocSize, false, false⟩] ++ l₂)) fl₂
        (insert b.addr ∅ \ {b.addr + allocSize}) := h₂
    -- the used part meets a used node before it, the rest a used node after it
    have hchain' : (l₁ ++ [(⟨b.addr, allocSize, true, false⟩ : Blk),
        ⟨b.addr + allocSize, b.size - allocSize, false, false⟩] ++ l₂).IsChain
        fun b c : Blk => b.used = true ∨ c.used = true :=
      isChain_splice hchain (by simp) (by simp) (by simp) fun _ _ y hy => .inr (hnext y hy)
    have hm := alloc_mark_used h₂' rfl (by simp; omega) (fun d hd hdu hm => ?_)
      (by simpa using hchain')
    · exact ⟨_, rfl, .node rfl hu (by rw [allocSplit_of_le hsplit]; simpa using hm)
        (by rw [allocSplit_of_le hsplit]; simp [OsMemWaterUsedRecord, hcur, hp1])⟩
    · -- the rest is the only free node held, and it went on its list
      simp only [Set.mem_sdiff, Set.mem_singleton_iff, List.mem_singleton] at hm hd
      rcases hd with hd | rfl | hd
      · exact hother d (.inl hd) hm.1
      · exact hm.2 rfl
      · exact hother d (.inr hd) hm.1
  · -- the rest is too small: all of `b` is handed out
    rw [if_neg hsplit, pure_bind, h₁.word_free hb hu, Pool.get_set, if_pos rfl,
      OS_MEM_NODE_GET_SIZE_or_used hblt]
    have h₁' : Shape pool p₁ (l₁ ++ b :: ([] ++ l₂)) (Function.update fl i ((fl i).erase b.addr))
        (insert b.addr ∅) := h₁
    have hchain' : (l₁ ++ [{ b with used := true }] ++ l₂).IsChain
        fun b c : Blk => b.used = true ∨ c.used = true :=
      isChain_splice hchain (by simp) (by simp) (by simp) fun _ _ y hy => .inr (hnext y hy)
    have hm := alloc_mark_used h₁' hu (Set.mem_insert _ _) (fun d hd _ => ?_)
      (by simpa using hchain')
    · exact ⟨_, rfl, .node rfl hu (by rw [allocSplit_of_lt hsplit]; simpa using hm)
        (by rw [allocSplit_of_lt hsplit]; simp [OsMemWaterUsedRecord, hp1])⟩
    · simp only [List.not_mem_nil, false_or] at hd
      exact hother d hd

/-- A `UINT32` with neither flag bit set is below `2 ^ 30`. -/
theorem lt_of_flags_clear {x : Nat} (hx : x < 2 ^ 32) (hu : OS_MEM_NODE_GET_USED_FLAG x = 0)
    (ha : OS_MEM_NODE_GET_ALIGNED_FLAG x = 0) : x < 2 ^ 30 := by
  rw [OS_MEM_NODE_GET_USED_FLAG_eq_zero] at hu
  rw [OS_MEM_NODE_GET_ALIGNED_FLAG_eq_zero] at ha
  refine Nat.lt_pow_two_of_testBit x fun i hi => ?_
  rcases (show i = 30 ∨ i = 31 ∨ 32 ≤ i by omega) with rfl | rfl | hi'
  · exact ha
  · exact hu
  · exact testBit_of_lt_two_pow hx hi'

/-- `LOS_MemAlloc` on a well-formed pool, for any `UINT32` size: a size
it rejects (zero, or with a flag bit set) gets `NULL` and changes
nothing; any other is rounded up to at least `OS_MEM_MIN_ALLOC_SIZE`. -/
theorem LOS_MemAlloc_spec (h : Heap pool p bs fl) {size : Nat} (hs : size < 2 ^ 32) :
    ∃ r, LOS_MemAlloc p size = some r ∧
      AllocRes pool p bs (OS_MEM_ALIGN ((if size < OS_MEM_MIN_ALLOC_SIZE then OS_MEM_MIN_ALLOC_SIZE
        else size) + OS_MEM_NODE_HEAD_SIZE) OS_MEM_ALIGN_SIZE) r := by
  unfold LOS_MemAlloc
  by_cases h0 : size = 0
  · exact ⟨_, if_pos h0, .null⟩
  rw [if_neg h0]
  dsimp only
  by_cases hsmall : size < OS_MEM_MIN_ALLOC_SIZE
  · -- `OS_MEM_MIN_ALLOC_SIZE` has no flag bits
    rw [if_pos hsmall, if_neg (by decide)]
    exact OsMemAlloc_spec h le_rfl (by decide)
  · rw [if_neg hsmall]
    by_cases hflag : OS_MEM_NODE_GET_USED_FLAG size ≠ 0 ∨ OS_MEM_NODE_GET_ALIGNED_FLAG size ≠ 0
    · exact ⟨_, if_pos hflag, .null⟩
    · rw [if_neg hflag]
      simp only [not_or, not_not] at hflag
      exact OsMemAlloc_spec h (Nat.le_of_not_lt hsmall) (lt_of_flags_clear hs hflag.1 hflag.2)

/-- A pool of `2 ^ 28 + 2 ^ 25` free bytes, fresh from `LOS_MemInit` and
well formed, asked for `2 ^ 29 - 12` bytes: `allocSize` is `2 ^ 29`, and
`OsMemSlGet` wraps below zero for it, so its list index comes out as 199, one
below the list of the pool's node (200), and the bucket search starting at
list 200 hands out that node, smaller than the request. -/
theorem mem_alloc_large_undersized :
    ∃ p₁ p₂, LOS_MemInit 0x1000 (OS_MEM_MIN_POOL_SIZE + 2 ^ 28 + 2 ^ 25) zeroPool =
        some (LOS_OK, p₁) ∧ (∃ bs fl, Heap 0x1000 p₁ bs fl) ∧
      LOS_MemAlloc p₁ (2 ^ 29 - 12) = some (0x1000 + 956, p₂) ∧
      OS_MEM_NODE_GET_USED_FLAG (p₂.get (0x1000 + 944) .sizeAndFlag) ≠ 0 ∧
      OS_MEM_NODE_GET_SIZE (p₂.get (0x1000 + 944) .sizeAndFlag) <
        OS_MEM_ALIGN (2 ^ 29 - 12 + OS_MEM_NODE_HEAD_SIZE) OS_MEM_ALIGN_SIZE := by
  obtain ⟨p₁, p₂, hinit, halloc, hused, hsize⟩ : ∃ p₁ p₂,
      LOS_MemInit 0x1000 (OS_MEM_MIN_POOL_SIZE + 2 ^ 28 + 2 ^ 25) zeroPool = some (LOS_OK, p₁) ∧
      LOS_MemAlloc p₁ (2 ^ 29 - 12) = some (0x1000 + 956, p₂) ∧
      OS_MEM_NODE_GET_USED_FLAG (p₂.get (0x1000 + 944) .sizeAndFlag) ≠ 0 ∧
      OS_MEM_NODE_GET_SIZE (p₂.get (0x1000 + 944) .sizeAndFlag) <
        OS_MEM_ALIGN (2 ^ 29 - 12 + OS_MEM_NODE_HEAD_SIZE) OS_MEM_ALIGN_SIZE :=
    ⟨_, _, rfl, rfl, by decide, by decide⟩
  -- the pool before the call is the well-formed one `LOS_MemInit_spec` describes
  obtain ⟨p', fl, hinit', hheap, -⟩ := @LOS_MemInit_spec 0x1000
    (OS_MEM_MIN_POOL_SIZE + 2 ^ 28 + 2 ^ 25) zeroPool (by decide) (by decide) (by decide)
    (by decide) (by decide)
  rw [hinit] at hinit'
  cases hinit'
  exact ⟨p₁, p₂, hinit, ⟨_, fl, hheap⟩, halloc, hused, hsize⟩

end LiteOsA.Tlsf
