/-
Creating a TLSF pool (`OsMemPoolInit`, `LOS_MemInit`).

`OsMemPoolInit` lays one free node over everything between the pool head
and the end node and puts it on the list of its size. When that node
is a node, at least `20` bytes and below `2 ^ 29`, the pool is well
formed (`LOS_MemInit_spec`). `LOS_MemInit` accepts every size above
`OS_MEM_MIN_POOL_SIZE`, and for the smallest of them the end node falls
inside the first node's head: nothing tiles the pool.
-/
import LiteOsA.Mem.Proofs.TlsfShape

namespace LiteOsA.Tlsf

variable {pool : Nat} {p : Pool} {bs : List Blk} {fl : Nat → List Nat}

/-- A pool's memory and head before `LOS_MemInit`: all zero. -/
def zeroPool : Pool := ⟨0, 0, 0, fun _ => 0, fun _ => 0, fun _ => 0⟩

/-- A head with no list holds no node. -/
theorem FreeLists.empty {p : Pool} (hl : ∀ i, p.freeList i = NULL)
    (hb : ∀ w, p.freeListBitmap w = 0) : FreeLists p fun _ => [] where
  linked i _ := hl i
  bit i _ := by rw [hb]; simp
  word_lt w _ := by rw [hb]; decide
  beyond _ _ := rfl

theorem Spaced.empty : Spaced fun _ => [] := fun _ _ _ _ hx => by simp at hx

/-- `OsMemPoolInit` over `size` bytes, a whole number of words, leaving
a first node of at least `20` bytes and below `2 ^ 29`: one free node on
its list, and the head and end node counted as used. -/
theorem OsMemPoolInit_spec {pool size : Nat} (mem : Nat → Nat) (hpool : pool ≠ NULL)
    (hpm : pool % 4 = 0) (hsm : size % 4 = 0) (hfits : pool + size ≤ 2 ^ 32)
    (hlo : OS_MEM_MIN_POOL_SIZE + 20 ≤ size) (hhi : size < OS_MEM_MIN_POOL_SIZE + 2 ^ 29) :
    ∃ p fl, OsMemPoolInit pool size mem = some p ∧
      Heap pool p [⟨OS_MEM_FIRST_NODE pool, size - OS_MEM_MIN_POOL_SIZE, false, false⟩] fl ∧
      p.totalSize = size ∧ p.curUsedSize = OS_MEM_MIN_POOL_SIZE ∧
      p.waterLine = OS_MEM_MIN_POOL_SIZE := by
  have hsub : u32Sub (u32Sub size sizeofOsMemPoolHead) OS_MEM_NODE_HEAD_SIZE =
      size - OS_MEM_MIN_POOL_SIZE := by
    unfold OS_MEM_MIN_POOL_SIZE OS_MEM_NODE_HEAD_SIZE sizeofOsMemPoolHead at *
    rw [u32Sub_of_le (show 944 ≤ size by omega) (by omega), u32Sub_of_le (by omega) (by omega)]
    omega
  have hm : OS_MEM_MIN_POOL_SIZE = 956 := rfl
  unfold OS_MEM_MIN_POOL_SIZE OS_MEM_NODE_HEAD_SIZE sizeofOsMemPoolHead at hlo hhi
  unfold NULL at hpool
  have hn : OS_MEM_FIRST_NODE pool = pool + 944 := rfl
  have hE : OS_MEM_END_NODE pool size = pool + size - 12 := rfl
  have hs4 : 4 ≤ size - OS_MEM_MIN_POOL_SIZE := by
    unfold OS_MEM_MIN_POOL_SIZE OS_MEM_NODE_HEAD_SIZE sizeofOsMemPoolHead; omega
  have hs29 : size - OS_MEM_MIN_POOL_SIZE < 2 ^ 29 := by
    unfold OS_MEM_MIN_POOL_SIZE OS_MEM_NODE_HEAD_SIZE sizeofOsMemPoolHead; omega
  have hi := OsMemFreeListIndexGet_lt hs4 hs29
  -- the first node's head, written before it goes on its list
  have hhead : ∀ q : Pool, (((q.set (OS_MEM_FIRST_NODE pool) .sizeAndFlag
      (size - OS_MEM_MIN_POOL_SIZE)).set (OS_MEM_FIRST_NODE pool) .ptrPrev NULL).set
        (OS_MEM_FIRST_NODE pool) .magic OS_MEM_NODE_MAGIC).get (OS_MEM_FIRST_NODE pool) .sizeAndFlag =
      size - OS_MEM_MIN_POOL_SIZE := fun q => by simp
  unfold OsMemPoolInit
  dsimp only
  rw [hsub, OsMemFreeNodeAdd_eq (by rw [hhead]; exact hs4) (by rw [hhead]; exact hs29), hhead,
    Option.bind_eq_bind, Option.bind_some]
  -- the pool once the first node's head is written: no list yet
  generalize hp₃ : (((Pool.mk size 0 0 (fun _ => 0) (fun _ => NULL) mem).set
      (OS_MEM_FIRST_NODE pool) .sizeAndFlag (size - OS_MEM_MIN_POOL_SIZE)).set
      (OS_MEM_FIRST_NODE pool) .ptrPrev NULL).set (OS_MEM_FIRST_NODE pool) .magic
      OS_MEM_NODE_MAGIC = p₃
  have h3fl : ∀ i, p₃.freeList i = NULL := by subst hp₃; intro; rfl
  have h3lists : FreeLists p₃ fun _ => [] := FreeLists.empty h3fl (by subst hp₃; intro; rfl)
  have h3mem : ∀ x, p₃.mem x = if x = OS_MEM_FIRST_NODE pool then OS_MEM_NODE_MAGIC
      else if x = OS_MEM_FIRST_NODE pool + 4 then NULL
      else if x = OS_MEM_FIRST_NODE pool + 8 then size - OS_MEM_MIN_POOL_SIZE else mem x := by
    subst hp₃; intro x
    simp only [Pool.set_mem, Field.off, Function.update_apply, Nat.add_zero]
  -- the first node goes on the list of its size
  have hnE : OS_MEM_FIRST_NODE pool + 20 ≤ OS_MEM_END_NODE pool size := by rw [hn, hE]; omega
  generalize hI : OsMemFreeListIndexGet (size - OS_MEM_MIN_POOL_SIZE) = I at hi ⊢
  have h4lists : FreeLists (OsMemListAdd p₃ I (OS_MEM_FIRST_NODE pool))
      (Function.update (fun _ => []) I [OS_MEM_FIRST_NODE pool]) :=
    OsMemListAdd_spec h3lists Spaced.empty hi (by rw [hn]; unfold NULL; omega) (by simp)
  have h4mem : ∀ x, (OsMemListAdd p₃ I (OS_MEM_FIRST_NODE pool)).mem x =
      if x = OS_MEM_FIRST_NODE pool then OS_MEM_NODE_MAGIC
      else if x = OS_MEM_FIRST_NODE pool + 16 then NULL
      else if x = OS_MEM_FIRST_NODE pool + 12 then NULL else p₃.mem x := by
    intro x
    simp only [OsMemListAdd_mem, h3fl, ne_eq, not_true_eq_false, false_and, if_false]
  have h4ts : (OsMemListAdd p₃ I (OS_MEM_FIRST_NODE pool)).totalSize = size := by
    rw [OsMemListAdd_totalSize, ← hp₃]; rfl
  generalize OsMemListAdd p₃ I (OS_MEM_FIRST_NODE pool) = p₄ at h4lists h4mem h4ts ⊢
  refine ⟨_, Function.update (fun _ => []) I [OS_MEM_FIRST_NODE pool], rfl,
    ⟨⟨hpool, hpm, ?_, ?_, ?_, ?_, ?_, ?_⟩, ?_⟩, by simpa using h4ts, rfl, rfl⟩
  · simpa [h4ts] using hsm
  · simpa [h4ts] using hfits
  · simp only [Pool.set_totalSize, h4ts, seg_cons, seg_nil]
    have hword : (⟨OS_MEM_FIRST_NODE pool, size - OS_MEM_MIN_POOL_SIZE, false, false⟩ : Blk).word =
        size - OS_MEM_MIN_POOL_SIZE := Blk.word_free rfl rfl
    refine ⟨trivial, ⟨?_, ?_, hs29, fun h => h⟩, ⟨?_, ?_, ?_⟩, by omega⟩
    · show 20 ≤ size - OS_MEM_MIN_POOL_SIZE
      omega
    · show (size - OS_MEM_MIN_POOL_SIZE) % 4 = 0
      omega
    -- the first node's head, read past the end node's writes and the list links
    all_goals
      simp only [hword, Pool.get, Pool.set_mem, Field.off, Function.update_apply, h4mem, h3mem,
        if_true, Nat.add_zero]
      split_ifs <;> omega
  · simp only [Pool.set_totalSize, h4ts, lastAddr_cons, lastAddr_nil]
    refine ⟨?_, ?_, ?_⟩
    -- the end node's head, as its last four writes leave it
    all_goals
      simp only [Pool.get, Pool.set_mem, Field.off, Function.update_apply, if_true, Nat.add_zero]
      split_ifs <;> first | omega | simp
  · -- the list holds the first node alone, whose links the end node's writes miss
    refine h4lists.congr rfl rfl fun j y hy => ?_
    have hyn : y = OS_MEM_FIRST_NODE pool := by
      rw [Function.update_apply] at hy
      split_ifs at hy
      · exact List.mem_singleton.mp hy
      · simp at hy
    subst hyn
    constructor
    all_goals
      simp only [Pool.get, Pool.set_mem, Field.off, Function.update_apply]
      split_ifs <;> omega
  · intro j x
    constructor
    · intro hx
      rw [Function.update_apply] at hx
      split_ifs at hx with hj
      · rw [List.mem_singleton] at hx
        exact ⟨_, List.mem_singleton_self _, rfl, hx.symm, Set.notMem_empty x, by rw [hj, ← hI]⟩
      · simp at hx
    · rintro ⟨b, hb, -, rfl, -, rfl⟩
      rw [List.mem_singleton] at hb
      subst hb
      simp [hI]
  · exact List.isChain_singleton _

/-- The first node is the end node, or a whole node lies between them. -/
theorem Shape.first_end {U : Set Nat} (h : Shape pool p bs fl U) :
    OS_MEM_FIRST_NODE pool = OS_MEM_END_NODE pool p.totalSize ∨
      OS_MEM_FIRST_NODE pool + 20 ≤ OS_MEM_END_NODE pool p.totalSize := by
  cases bs with
  | nil => exact .inl h.seg
  | cons b bs =>
      have hb := h.seg.bounds (List.mem_cons_self ..)
      have := (h.seg.ok (List.mem_cons_self ..)).size_ge
      exact .inr (by omega)

/-- `LOS_MemInit` over a pool of at least `OS_MEM_MIN_POOL_SIZE + 20`
bytes whose first node stays below `2 ^ 29`: the pool, its size rounded up
to a word, holds one free node. -/
theorem LOS_MemInit_spec {pool size : Nat} (p : Pool) (hpool : pool ≠ NULL) (hpm : pool % 4 = 0)
    (hfits : pool + size + 3 < 2 ^ 32) (hlo : OS_MEM_MIN_POOL_SIZE + 20 ≤ size)
    (hhi : size + 3 < OS_MEM_MIN_POOL_SIZE + 2 ^ 29) :
    ∃ p' fl, LOS_MemInit pool size p = some (LOS_OK, p') ∧
      Heap pool p' [⟨OS_MEM_FIRST_NODE pool, p'.totalSize - OS_MEM_MIN_POOL_SIZE, false, false⟩] fl ∧
      p'.totalSize = (size + 3) / 4 * 4 ∧ p'.curUsedSize = OS_MEM_MIN_POOL_SIZE ∧
      p'.waterLine = OS_MEM_MIN_POOL_SIZE := by
  have hm : OS_MEM_MIN_POOL_SIZE = 956 := rfl
  rw [hm] at hlo hhi
  have halign := OS_MEM_ALIGN_four (show size + 3 < 2 ^ 32 by omega)
  obtain ⟨p', fl, hinit, hheap, hsize, hused, hwater⟩ := OsMemPoolInit_spec p.mem hpool hpm
    (show (size + 3) / 4 * 4 % 4 = 0 by omega) (by omega) (by omega) (by omega)
  refine ⟨p', fl, ?_, by rwa [hsize], by rw [hsize], hused, hwater⟩
  unfold LOS_MemInit
  rw [if_neg (by rw [hm]; omega), halign, hinit]
  rfl

/-- `LOS_MemInit` takes a pool of `957` bytes, one more than
`OS_MEM_MIN_POOL_SIZE`. Its first node gets `4` bytes, and the end node,
written after it, lands on the first node's head: the first node's size
word then holds an address, and no list of nodes tiles the pool. -/
theorem mem_init_small_pool_broken :
    ∃ p, LOS_MemInit 0x1000 957 zeroPool = some (LOS_OK, p) ∧
      OS_MEM_NEXT_NODE p (OS_MEM_FIRST_NODE 0x1000) ≠ OS_MEM_END_NODE 0x1000 p.totalSize ∧
      ¬∃ bs fl, Heap 0x1000 p bs fl := by
  obtain ⟨p, hinit, hsize, hnext⟩ : ∃ p, LOS_MemInit 0x1000 957 zeroPool = some (LOS_OK, p) ∧
      p.totalSize = 960 ∧
      OS_MEM_NEXT_NODE p (OS_MEM_FIRST_NODE 0x1000) ≠ OS_MEM_END_NODE 0x1000 p.totalSize :=
    ⟨_, rfl, rfl, by decide⟩
  refine ⟨p, hinit, hnext, ?_⟩
  rintro ⟨bs, fl, h⟩
  -- the end node sits 4 bytes past the first node: too close for any node between
  have hfe := h.shape.first_end
  rw [hsize] at hfe
  unfold OS_MEM_FIRST_NODE OS_MEM_END_NODE sizeofOsMemPoolHead OS_MEM_NODE_HEAD_SIZE at hfe
  omega

end LiteOsA.Tlsf
