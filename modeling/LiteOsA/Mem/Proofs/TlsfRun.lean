/-
Runs of a TLSF pool: `LOS_MemInit`, then any interleaving of
`LOS_MemAlloc` and `LOS_MemFree` of live pointers.

# The invariant

`Tracked` is what every call keeps. The pool is well formed (`Heap`). No
node is aligned. `curUsedSize` counts the pool head and the used nodes
(`usedBytes`). The live pointers are exactly the user pointers of the
used nodes (`usedPtrs`).

# Sums

Splitting and joining nodes never changes the bytes they cover
(`sizeSum`). So the pool's size is the pool head plus its nodes
(`Shape.totalSize_eq`). A pool below `OS_MEM_MIN_POOL_SIZE + 2 ^ 29`
bytes therefore has every node a free can build below the flag bits.

# Accounting

The accounting holds for alloc and free. `LOS_MemRealloc` growing a
node into its free neighbour adds the node's word, flag bit and all,
to `curUsedSize` (`mem_realloc_grow_miscounts`). Of a pointer from
`LOS_MemAllocAlign` it returns the pointer `OsMemAlloc` gave, before the
alignment gap, so the user's bytes no longer start at the pointer it
returns (`mem_realloc_aligned_shifts`).
-/
import LiteOsA.Mem.Proofs.TlsfFree
import LiteOsA.Lib.Reach

namespace LiteOsA.Tlsf

variable {pool : Nat} {p : Pool} {bs l l₁ l₂ : List Blk} {fl : Nat → List Nat} {U : Set Nat}
  {b m : Blk}

-- ============================================================ sums

/-- The bytes the nodes `bs` cover. -/
def sizeSum : List Blk → Nat
  | [] => 0
  | b :: bs => b.size + sizeSum bs

/-- The bytes of the used nodes of `bs`. -/
def usedBytes : List Blk → Nat
  | [] => 0
  | b :: bs => (if b.used then b.size else 0) + usedBytes bs

/-- The user pointers of the used nodes of `bs`, as `OsMemAlloc` hands
them out. -/
def usedPtrs : List Blk → List Nat
  | [] => []
  | b :: bs => if b.used then (b.addr + OS_MEM_NODE_HEAD_SIZE) :: usedPtrs bs else usedPtrs bs

@[simp] theorem sizeSum_nil : sizeSum [] = 0 := rfl
@[simp] theorem sizeSum_cons : sizeSum (b :: bs) = b.size + sizeSum bs := rfl
@[simp] theorem usedBytes_nil : usedBytes [] = 0 := rfl
@[simp] theorem usedBytes_cons : usedBytes (b :: bs) = (if b.used then b.size else 0) + usedBytes bs :=
  rfl
@[simp] theorem usedPtrs_nil : usedPtrs [] = [] := rfl
@[simp] theorem usedPtrs_cons :
    usedPtrs (b :: bs) =
      if b.used then (b.addr + OS_MEM_NODE_HEAD_SIZE) :: usedPtrs bs else usedPtrs bs := rfl

@[simp] theorem sizeSum_append : sizeSum (l₁ ++ l₂) = sizeSum l₁ + sizeSum l₂ := by
  induction l₁ with
  | nil => simp
  | cons b l₁ ih => simp [ih]; omega

@[simp] theorem usedBytes_append : usedBytes (l₁ ++ l₂) = usedBytes l₁ + usedBytes l₂ := by
  induction l₁ with
  | nil => simp
  | cons b l₁ ih => simp [ih]; omega

@[simp] theorem usedPtrs_append : usedPtrs (l₁ ++ l₂) = usedPtrs l₁ ++ usedPtrs l₂ := by
  induction l₁ with
  | nil => simp
  | cons b l₁ ih => by_cases hb : b.used <;> simp [hb, ih]

theorem usedBytes_le_sizeSum (bs : List Blk) : usedBytes bs ≤ sizeSum bs := by
  induction bs with
  | nil => simp
  | cons b bs ih => by_cases hb : b.used <;> simp [hb] <;> omega

/-- A segment covers its nodes' bytes. -/
theorem Seg.sizeSum {prev a e : Nat} (h : Seg p prev a bs e) : a + sizeSum bs = e := by
  induction bs generalizing prev a with
  | nil => exact h
  | cons b bs ih =>
      obtain ⟨-, -, -, hs⟩ := h
      have := ih hs
      simp only [LiteOsA.Tlsf.sizeSum_cons]
      omega

/-- The pool is its head, its nodes and the end node. -/
theorem Shape.totalSize_eq (h : Shape pool p bs fl U) :
    p.totalSize = OS_MEM_MIN_POOL_SIZE + sizeSum bs := by
  have := h.seg.sizeSum
  unfold OS_MEM_FIRST_NODE OS_MEM_END_NODE sizeofOsMemPoolHead OS_MEM_NODE_HEAD_SIZE at this
  unfold OS_MEM_MIN_POOL_SIZE OS_MEM_NODE_HEAD_SIZE sizeofOsMemPoolHead
  omega

-- ============================================================ joins and cuts

theorem sizeSum_joinPrev (l : List Blk) (m : Blk) :
    sizeSum (joinPrev l m).1 + (joinPrev l m).2.size = sizeSum l + m.size := by
  rcases List.eq_nil_or_concat' l with rfl | ⟨l₀, a, rfl⟩
  · simp
  · cases ha : a.used
    · simp [joinPrev_free l₀ m ha]; omega
    · simp [joinPrev_used l₀ m ha]

theorem sizeSum_joinNext (m : Blk) (l : List Blk) :
    (joinNext m l).1.size + sizeSum (joinNext m l).2 = m.size + sizeSum l := by
  cases l with
  | nil => simp
  | cons c l =>
      cases hc : c.used
      · simp [joinNext_free m l hc]; omega
      · simp [joinNext_used m l hc]

/-- The nodes a join drops are free: the used ones stay. -/
theorem used_joinPrev (l : List Blk) (m : Blk) :
    usedBytes (joinPrev l m).1 = usedBytes l ∧ usedPtrs (joinPrev l m).1 = usedPtrs l := by
  rcases List.eq_nil_or_concat' l with rfl | ⟨l₀, a, rfl⟩
  · simp
  · cases ha : a.used
    · simp [joinPrev_free l₀ m ha, ha]
    · simp [joinPrev_used l₀ m ha]

theorem used_joinNext (m : Blk) (l : List Blk) :
    usedBytes (joinNext m l).2 = usedBytes l ∧ usedPtrs (joinNext m l).2 = usedPtrs l := by
  cases l with
  | nil => simp
  | cons c l =>
      cases hc : c.used
      · simp [joinNext_free m l hc, hc]
      · simp [joinNext_used m l hc]

/-- The node a join builds is free and not aligned. -/
theorem joinPrev_free_node (l : List Blk) {m : Blk} (hu : m.used = false)
    (ha : m.aligned = false) :
    (joinPrev l m).2.used = false ∧ (joinPrev l m).2.aligned = false := by
  rcases List.eq_nil_or_concat' l with rfl | ⟨l₀, a, rfl⟩
  · exact ⟨hu, ha⟩
  · cases ha' : a.used
    · simp [joinPrev_free l₀ m ha']
    · simp [joinPrev_used l₀ m ha', hu, ha]

theorem joinNext_free_node {m : Blk} (l : List Blk) (hu : m.used = false)
    (ha : m.aligned = false) :
    (joinNext m l).1.used = false ∧ (joinNext m l).1.aligned = false := by
  cases l with
  | nil => exact ⟨hu, ha⟩
  | cons c l =>
      cases hc : c.used
      · simp [joinNext_free m l hc]
      · simp [joinNext_used m l hc, hu, ha]

theorem joinPrev_sub (l : List Blk) (m : Blk) : ∀ d ∈ (joinPrev l m).1, d ∈ l := by
  rcases List.eq_nil_or_concat' l with rfl | ⟨l₀, a, rfl⟩
  · simp
  · cases ha : a.used
    · simp only [joinPrev_free l₀ m ha]
      exact fun d hd => List.mem_append_left _ hd
    · simp [joinPrev_used l₀ m ha]

theorem joinNext_sub (m : Blk) (l : List Blk) : ∀ d ∈ (joinNext m l).2, d ∈ l := by
  cases l with
  | nil => simp
  | cons c l =>
      cases hc : c.used
      · simp only [joinNext_free m l hc]
        exact fun d hd => List.mem_cons_of_mem _ hd
      · simp [joinNext_used m l hc]

/-- Freeing a node covers the same bytes, with the node's bytes no longer
used and its pointer no longer live. -/
theorem freeNodes_sums (l₁ : List Blk) (b : Blk) (l₂ : List Blk) :
    sizeSum (freeNodes l₁ b l₂) = sizeSum (l₁ ++ b :: l₂) ∧
      usedBytes (freeNodes l₁ b l₂) = usedBytes l₁ + usedBytes l₂ ∧
      usedPtrs (freeNodes l₁ b l₂) = usedPtrs l₁ ++ usedPtrs l₂ := by
  have hp := sizeSum_joinPrev l₁ ⟨b.addr, b.size, false, false⟩
  have hn := sizeSum_joinNext (joinPrev l₁ ⟨b.addr, b.size, false, false⟩).2 l₂
  obtain ⟨hfree, ha⟩ :=
    joinPrev_free_node l₁ (show (⟨b.addr, b.size, false, false⟩ : Blk).used = false from rfl) rfl
  obtain ⟨hfree', -⟩ := joinNext_free_node l₂ hfree ha
  obtain ⟨hu₁, hp₁⟩ := used_joinPrev l₁ ⟨b.addr, b.size, false, false⟩
  obtain ⟨hu₂, hp₂⟩ := used_joinNext (joinPrev l₁ ⟨b.addr, b.size, false, false⟩).2 l₂
  unfold freeNodes
  simp only [sizeSum_append, sizeSum_cons, usedBytes_append, usedBytes_cons, usedPtrs_append,
    usedPtrs_cons, hfree', Bool.false_eq_true, if_false, hu₁, hu₂, hp₁, hp₂]
  refine ⟨by simp only at hp hn; omega, by omega, trivial⟩

/-- Allocating from a free node covers its bytes: the used part, counted
and live, and the free rest. -/
theorem allocSplit_sums {A : Nat} (b : Blk) :
    sizeSum ((allocSplit A b).1 :: (allocSplit A b).2) = b.size ∧
      usedBytes ((allocSplit A b).1 :: (allocSplit A b).2) = (allocSplit A b).1.size ∧
      usedPtrs ((allocSplit A b).1 :: (allocSplit A b).2) = [b.addr + OS_MEM_NODE_HEAD_SIZE] ∧
      ∀ d ∈ (allocSplit A b).1 :: (allocSplit A b).2, d.aligned = b.aligned ∨ d.aligned = false := by
  by_cases hsplit : A + OS_MEM_NODE_HEAD_SIZE + OS_MEM_MIN_ALLOC_SIZE ≤ b.size
  · rw [allocSplit_of_le hsplit]
    refine ⟨?_, by simp, by simp, by simp⟩
    simp only [sizeSum_cons, sizeSum_nil]
    omega
  · rw [allocSplit_of_lt hsplit]
    simp

theorem size_le_sizeSum {d : Blk} (hd : d ∈ l) : d.size ≤ sizeSum l := by
  induction l with
  | nil => simp at hd
  | cons c l ih =>
      rcases List.mem_cons.1 hd with rfl | hd
      · simp
      · have := ih hd
        simp only [sizeSum_cons]
        omega

-- ============================================================ the count

/-- The loop of `LOS_MemTotalUsedGet` over a segment: each node adds its
size when it is used, and the end node stops it. -/
theorem LOS_MemTotalUsedGet.loop_seg {prev a : Nat} (h : Seg p prev a bs
    (OS_MEM_END_NODE pool p.totalSize)) (hend : EndAt p (lastAddr prev bs)
    (OS_MEM_END_NODE pool p.totalSize)) {fuel acc : Nat} (hfuel : bs.length < fuel)
    (hacc : acc + usedBytes bs < 2 ^ 32) :
    LOS_MemTotalUsedGet.loop p (OS_MEM_END_NODE pool p.totalSize) fuel a acc =
      acc + usedBytes bs := by
  induction bs generalizing prev a fuel acc with
  | nil =>
      obtain ⟨k, rfl⟩ : ∃ k, fuel = k + 1 := ⟨fuel - 1, by simp at hfuel; omega⟩
      rw [show a = OS_MEM_END_NODE pool p.totalSize from h]
      simp [LOS_MemTotalUsedGet.loop]
  | cons b bs ih =>
      obtain ⟨k, rfl⟩ : ∃ k, fuel = k + 1 := ⟨fuel - 1, by simp at hfuel; omega⟩
      obtain ⟨rfl, hbo, hn, hs⟩ := h
      have hle := hs.le
      have h20 := hbo.size_ge
      have hnext : OS_MEM_NEXT_NODE p b.addr = b.addr + b.size := by
        unfold OS_MEM_NEXT_NODE
        rw [hn.sizeAndFlag, Blk.GET_SIZE_word hbo]
      simp only [usedBytes_cons] at hacc ⊢
      rw [LOS_MemTotalUsedGet.loop, if_pos (by omega), hnext, hn.sizeAndFlag,
        Blk.GET_SIZE_word hbo]
      -- a used node adds its size, without wrapping
      have hstep : (if OS_MEM_NODE_GET_USED_FLAG b.word ≠ 0 then u32 (acc + b.size) else acc) =
          acc + (if b.used then b.size else 0) := by
        cases hu : b.used
        · rw [if_neg (by rw [not_not, Blk.GET_USED_word hbo]; exact hu)]
          simp
        · rw [if_pos (by rw [Ne, Blk.GET_USED_word hbo, hu]; decide), u32_of_lt (by simp [hu] at hacc; omega)]
          simp
      rw [hstep, ih hs hend (by simp at hfuel; omega) (by omega)]
      omega

/-- `LOS_MemTotalUsedGet` on a well-formed pool: the bytes of its used
nodes. -/
theorem LOS_MemTotalUsedGet_eq (h : Shape pool p bs fl U) :
    LOS_MemTotalUsedGet pool p = usedBytes bs := by
  have htot := h.totalSize_eq
  have hle := usedBytes_le_sizeSum bs
  have hfits := h.fits
  have hpool := h.pool_ne
  unfold NULL at hpool
  -- every node takes at least `20` bytes, so the pool size outlasts them
  have hlen : bs.length ≤ sizeSum bs := by
    have hsz : ∀ d ∈ bs, 20 ≤ d.size := fun d hd => (h.seg.ok hd).size_ge
    clear h htot hle
    induction bs with
    | nil => simp
    | cons d bs ih =>
        have := hsz d (List.mem_cons_self ..)
        have := ih fun d' hd' => hsz d' (List.mem_cons_of_mem _ hd')
        simp only [List.length_cons, sizeSum_cons]
        omega
  unfold OS_MEM_MIN_POOL_SIZE OS_MEM_NODE_HEAD_SIZE sizeofOsMemPoolHead at htot
  unfold LOS_MemTotalUsedGet
  rw [LOS_MemTotalUsedGet.loop_seg h.seg h.last (by omega) (by omega)]
  simp

-- ============================================================ runs

/-- A pool and the pointers its users hold. -/
structure Sys where
  pool : Pool
  live : List Nat

/-- Right after `LOS_MemInit(pool, size)` returns `LOS_OK`: nothing is out. -/
def Initialised (pool size : Nat) (s : Sys) : Prop :=
  ∃ p₀, LOS_MemInit pool size p₀ = some (LOS_OK, s.pool) ∧ s.live = []

/-- One call on the pool: `LOS_MemAlloc` of any `UINT32` size, whose
pointer is then held unless it is `NULL`; or `LOS_MemFree` of a held
pointer, which is then given up. -/
def Next (pool : Nat) (s s' : Sys) : Prop :=
  (∃ size ptr, size < 2 ^ 32 ∧ LOS_MemAlloc s.pool size = some (ptr, s'.pool) ∧
      s'.live = if ptr = NULL then s.live else ptr :: s.live) ∨
    (∃ ptr ∈ s.live, ∃ ret, LOS_MemFree pool s.pool ptr = some (ret, s'.pool) ∧
      s'.live = s.live.erase ptr)

/-- What every call keeps: a well-formed pool of nodes `bs`, none of
them aligned, small enough that no free builds a node past the flag
bits, its used bytes counted, and the held pointers exactly those of
its used nodes. -/
structure Tracked (pool : Nat) (s : Sys) (bs : List Blk) (fl : Nat → List Nat) : Prop where
  heap : Heap pool s.pool bs fl
  aligned : ∀ b ∈ bs, b.aligned = false
  small : s.pool.totalSize < OS_MEM_MIN_POOL_SIZE + 2 ^ 29
  counted : s.pool.curUsedSize = OS_MEM_MIN_POOL_SIZE + usedBytes bs
  live : s.live.Perm (usedPtrs bs)

/-- A held pointer is the user pointer of a used node. -/
theorem mem_usedPtrs {ptr : Nat} (h : ptr ∈ usedPtrs bs) :
    ∃ l₁ b l₂, bs = l₁ ++ b :: l₂ ∧ b.used = true ∧ ptr = b.addr + OS_MEM_NODE_HEAD_SIZE := by
  induction bs with
  | nil => simp at h
  | cons d bs ih =>
      by_cases hd : d.used
      · rw [usedPtrs_cons, if_pos hd] at h
        rcases List.mem_cons.1 h with rfl | h
        · exact ⟨[], d, bs, rfl, hd, rfl⟩
        · obtain ⟨l₁, b, l₂, rfl, hb, rfl⟩ := ih h
          exact ⟨d :: l₁, b, l₂, rfl, hb, rfl⟩
      · rw [usedPtrs_cons, if_neg hd] at h
        obtain ⟨l₁, b, l₂, rfl, hb, rfl⟩ := ih h
        exact ⟨d :: l₁, b, l₂, rfl, hb, rfl⟩

/-- A held pointer is word aligned, as every node head is. -/
theorem Tracked.live_mod {s : Sys} {ptr : Nat} (h : Tracked pool s bs fl) (hptr : ptr ∈ s.live) :
    ptr % 4 = 0 := by
  obtain ⟨l₁, b, l₂, hbs, -, rfl⟩ := mem_usedPtrs (h.live.subset hptr)
  have hS := h.heap.shape
  have hpm := hS.pool_mod
  have hmod := hS.seg.addr_mod (by unfold OS_MEM_FIRST_NODE sizeofOsMemPoolHead; omega)
    (show b ∈ bs by simp [hbs])
  unfold OS_MEM_NODE_HEAD_SIZE
  omega

/-- `LOS_MemFree` of a pointer off the word grid fails and changes nothing. -/
theorem LOS_MemFree_of_mod_ne {ptr : Nat} (hptr : ptr % 4 ≠ 0) : LOS_MemFree pool p ptr = some (LOS_NOK, p) := by
  have hal : OS_MEM_IS_ALIGNED ptr 4 = false := by
    unfold OS_MEM_IS_ALIGNED
    rw [show ptr &&& (4 - 1) = ptr % 4 from Nat.and_two_pow_sub_one_eq_mod ptr 2]
    simpa using hptr
  unfold LOS_MemFree
  rw [if_pos (Or.inr (Or.inr (Or.inr (by rw [hal]; rfl))))]

/-- The pool `LOS_MemInit` builds is tracked. -/
theorem Tracked.init {size : Nat} {s : Sys} (hpool : pool ≠ NULL) (hpm : pool % 4 = 0)
    (hfits : pool + size + 3 < 2 ^ 32) (hlo : OS_MEM_MIN_POOL_SIZE + 20 ≤ size)
    (hhi : size + 3 < OS_MEM_MIN_POOL_SIZE + 2 ^ 29) (h : Initialised pool size s) :
    ∃ bs fl, Tracked pool s bs fl := by
  obtain ⟨p₀, hinit, hlive⟩ := h
  obtain ⟨p, fl, hinit', hheap, hsize, hused, -⟩ :=
    LOS_MemInit_spec p₀ hpool hpm hfits hlo hhi
  rw [hinit] at hinit'
  cases hinit'
  refine ⟨_, fl, ⟨hheap, by simp, ?_, by simp [hused], by simp [hlive]⟩⟩
  rw [hsize]
  unfold OS_MEM_MIN_POOL_SIZE OS_MEM_NODE_HEAD_SIZE sizeofOsMemPoolHead at hhi ⊢
  omega

/-- A pool lies below `2 ^ 32`, so its used bytes, counted with its head,
fit a `UINT32`. -/
theorem Shape.count_lt (h : Shape pool p bs fl U) :
    OS_MEM_MIN_POOL_SIZE + usedBytes bs < 2 ^ 32 := by
  have htot := h.totalSize_eq
  have hle := usedBytes_le_sizeSum bs
  have hfits := h.fits
  have hpool := h.pool_ne
  unfold NULL at hpool
  omega

/-- `LOS_MemAlloc` keeps the pool tracked; its pointer is held unless it
is `NULL`. -/
theorem Tracked.alloc {s : Sys} {p' : Pool} {size ptr : Nat} (h : Tracked pool s bs fl)
    (hs : size < 2 ^ 32) (halloc : LOS_MemAlloc s.pool size = some (ptr, p')) :
    ∃ bs' fl', Tracked pool ⟨p', if ptr = NULL then s.live else ptr :: s.live⟩ bs' fl' := by
  obtain ⟨r, hr, hres⟩ := LOS_MemAlloc_spec h.heap hs
  rw [halloc] at hr
  cases hr
  cases hres with
  | null => exact ⟨bs, fl, by simpa using h⟩
  | @node l₁ l₂ b p' fl' hbs hu hheap hcur =>
      subst hbs
      generalize OS_MEM_ALIGN ((if size < OS_MEM_MIN_ALLOC_SIZE then OS_MEM_MIN_ALLOC_SIZE
        else size) + OS_MEM_NODE_HEAD_SIZE) OS_MEM_ALIGN_SIZE = A at hheap hcur
      obtain ⟨hsum, hused, hptrs, hal⟩ := @allocSplit_sums A b
      have hba := h.aligned b (by simp)
      have ht := h.heap.shape.totalSize_eq
      have ht' := hheap.shape.totalSize_eq
      have hcount := hheap.shape.count_lt
      have hcur₀ := h.counted
      have hptr : b.addr + OS_MEM_NODE_HEAD_SIZE ≠ NULL := by
        unfold NULL OS_MEM_NODE_HEAD_SIZE; omega
      simp only [usedBytes_append, usedBytes_cons, hu, Bool.false_eq_true, if_false,
        Nat.zero_add] at hcur₀
      simp only [List.append_assoc, sizeSum_append, sizeSum_cons, usedBytes_append] at ht ht' hcount
      simp only [List.append_assoc, List.cons_append] at hheap
      refine ⟨_, fl', ⟨hheap, fun d hd => ?_, ?_, ?_, ?_⟩⟩
      · -- the nodes are the old ones and the two parts of `b`
        simp only [List.mem_append, List.mem_cons] at hd
        rcases hd with hd | hd | hd | hd
        · exact h.aligned d (by simp [hd])
        · exact (hal d (by simp [hd])).elim (fun e => e.trans hba) id
        · exact (hal d (by simp [hd])).elim (fun e => e.trans hba) id
        · exact h.aligned d (by simp [hd])
      · dsimp only
        have := h.small
        rw [← hsum] at ht
        simp only [sizeSum_cons] at ht
        omega
      · dsimp only
        have hnew : usedBytes (l₁ ++ (allocSplit A b).1 :: ((allocSplit A b).2 ++ l₂)) =
            usedBytes l₁ + (allocSplit A b).1.size + usedBytes l₂ := by
          rw [← List.cons_append, usedBytes_append, usedBytes_append, hused, Nat.add_assoc]
        rw [hused] at hcount
        rw [hcur, u32_of_lt (by omega), hnew]
        omega
      · dsimp only
        rw [if_neg hptr]
        have hold : usedPtrs (l₁ ++ b :: l₂) = usedPtrs l₁ ++ usedPtrs l₂ := by simp [hu]
        have hnew : usedPtrs (l₁ ++ (allocSplit A b).1 :: ((allocSplit A b).2 ++ l₂)) =
            usedPtrs l₁ ++ (b.addr + OS_MEM_NODE_HEAD_SIZE) :: usedPtrs l₂ := by
          rw [← List.cons_append, usedPtrs_append, usedPtrs_append, hptrs]
          rfl
        rw [hnew]
        exact ((h.live.trans (by rw [hold])).cons _).trans List.perm_middle.symm

/-- `LOS_MemFree` of a held pointer returns `LOS_OK` and keeps the pool
tracked, the pointer given up. -/
theorem Tracked.free {s : Sys} {ptr : Nat} (h : Tracked pool s bs fl) (hptr : ptr ∈ s.live) :
    ∃ p' bs' fl', LOS_MemFree pool s.pool ptr = some (LOS_OK, p') ∧
      Tracked pool ⟨p', s.live.erase ptr⟩ bs' fl' := by
  obtain ⟨l₁, b, l₂, rfl, hu, rfl⟩ := mem_usedPtrs (h.live.subset hptr)
  obtain ⟨hsum, hbytes, hptrs⟩ := freeNodes_sums l₁ b l₂
  have ht := h.heap.shape.totalSize_eq
  have hsmall := h.small
  -- the node the free builds lies inside the pool, so below the flag bits
  have hm : (joinNext (joinPrev l₁ ⟨b.addr, b.size, false, false⟩).2 l₂).1 ∈ freeNodes l₁ b l₂ := by
    simp [freeNodes]
  have hlt := size_le_sizeSum hm
  rw [hsum] at hlt
  obtain ⟨p', fl', hfree, hheap, hcur⟩ := LOS_MemFree_spec h.heap hu (h.aligned b (by simp))
    (by omega)
  have ht' := hheap.shape.totalSize_eq
  have hcur₀ := h.counted
  have hcount := h.heap.shape.count_lt
  simp only [usedBytes_append, usedBytes_cons, hu, if_true] at hcur₀ hcount
  refine ⟨p', _, fl', hfree, ⟨hheap, fun d hd => ?_, ?_, ?_, ?_⟩⟩
  · -- the nodes left are old ones, and the freed node, not aligned
    unfold freeNodes at hd
    simp only [List.mem_append, List.mem_cons] at hd
    rcases hd with hd | rfl | hd
    · exact h.aligned d (List.mem_append_left _ (joinPrev_sub _ _ d hd))
    · exact (joinNext_free_node l₂ (joinPrev_free_node l₁
        (show (⟨b.addr, b.size, false, false⟩ : Blk).used = false from rfl) rfl).1
        (joinPrev_free_node l₁
          (show (⟨b.addr, b.size, false, false⟩ : Blk).used = false from rfl) rfl).2).2
    · exact h.aligned d (by simp [joinNext_sub _ _ d hd])
  · dsimp only
    omega
  · dsimp only
    rw [hcur, u32Sub_of_le (by omega) (by omega), hbytes]
    omega
  · dsimp only
    rw [hptrs]
    have hmid : usedPtrs (l₁ ++ b :: l₂) = usedPtrs l₁ ++ (b.addr + OS_MEM_NODE_HEAD_SIZE) ::
        usedPtrs l₂ := by simp [hu]
    -- both sides are the used pointers less the one freed
    have hl := (h.live.erase (b.addr + OS_MEM_NODE_HEAD_SIZE))
    rw [hmid] at hl
    refine hl.trans (@List.Perm.cons_inv _ (b.addr + OS_MEM_NODE_HEAD_SIZE) _ _ ?_)
    exact (List.perm_cons_erase (by simp)).symm.trans List.perm_middle

/-- Every pool reachable from `LOS_MemInit` by `LOS_MemAlloc` and
`LOS_MemFree` of held pointers is well formed: its nodes tile it, each
naming the one before it; no two free nodes touch; the free lists and
their bitmap hold exactly the free nodes, each on the list of its size.
The held pointers are those of the used nodes, each frees with `LOS_OK`,
and `curUsedSize` is the pool head and what `LOS_MemTotalUsedGet` counts. -/
theorem mem_heap_run {pool size : Nat} (hpool : pool ≠ NULL) (hpm : pool % 4 = 0)
    (hfits : pool + size + 3 < 2 ^ 32) (hlo : OS_MEM_MIN_POOL_SIZE + 20 ≤ size)
    (hhi : size + 3 < OS_MEM_MIN_POOL_SIZE + 2 ^ 29) {s : Sys}
    (hs : Reach (Initialised pool size) (Next pool) s) :
    (∃ bs fl, Heap pool s.pool bs fl ∧ s.live.Perm (usedPtrs bs)) ∧
      s.pool.curUsedSize = OS_MEM_MIN_POOL_SIZE + LOS_MemTotalUsedGet pool s.pool ∧
      ∀ ptr ∈ s.live, ∃ p', LOS_MemFree pool s.pool ptr = some (LOS_OK, p') := by
  obtain ⟨bs, fl, h⟩ : ∃ bs fl, Tracked pool s bs fl := by
    refine Reach.inv (fun s => ∃ bs fl, Tracked pool s bs fl)
      (fun _ hi => Tracked.init hpool hpm hfits hlo hhi hi) ?_ hs
    rintro s ⟨p', live'⟩ ⟨bs, fl, h⟩ (⟨size, ptr, hsz, halloc, hlive⟩ | ⟨ptr, hptr, ret, hfree, hlive⟩)
    · dsimp only at halloc hlive
      subst hlive
      exact h.alloc hsz halloc
    · dsimp only at hfree hlive
      subst hlive
      obtain ⟨p'', bs', fl', hfree', h'⟩ := h.free hptr
      rw [hfree] at hfree'
      cases hfree'
      exact ⟨bs', fl', h'⟩
  refine ⟨⟨bs, fl, h.heap, h.live⟩, by rw [h.counted, LOS_MemTotalUsedGet_eq h.heap.shape],
    fun ptr hptr => ?_⟩
  obtain ⟨p', -, -, hfree, -⟩ := h.free hptr
  exact ⟨p', hfree⟩

/-- A fresh pool of `0x1000` bytes with `16` bytes allocated: the pointer
held frees with `LOS_OK`, and the count is right. -/
theorem mem_heap_run_fresh :
    ∃ s : Sys, Reach (Initialised 0x1000 0x1000) (Next 0x1000) s ∧ s.live = [0x1000 + 956] ∧
      s.pool.curUsedSize = OS_MEM_MIN_POOL_SIZE + LOS_MemTotalUsedGet 0x1000 s.pool ∧
      ∃ p₂, LOS_MemFree 0x1000 s.pool (0x1000 + 956) = some (LOS_OK, p₂) := by
  obtain ⟨p₀, p₁, hinit, halloc⟩ : ∃ p₀ p₁,
      LOS_MemInit 0x1000 0x1000 zeroPool = some (LOS_OK, p₀) ∧
        LOS_MemAlloc p₀ 16 = some (0x1000 + 956, p₁) :=
    ⟨_, _, rfl, rfl⟩
  have h₀ : Reach (Initialised 0x1000 0x1000) (Next 0x1000) ⟨p₀, []⟩ :=
    .init ⟨zeroPool, hinit, rfl⟩
  have hs : Reach (Initialised 0x1000 0x1000) (Next 0x1000) ⟨p₁, [0x1000 + 956]⟩ :=
    .step h₀ (.inl ⟨16, 0x1000 + 956, by decide, halloc,
      (if_neg (by decide : ¬(0x1000 + 956 = NULL))).symm⟩)
  obtain ⟨-, hcount, hfree⟩ := mem_heap_run (by decide) (by decide) (by decide) (by decide)
    (by decide) hs
  exact ⟨_, hs, rfl, hcount, hfree _ (List.mem_singleton_self _)⟩

/-- A state `mem_heap_run` covers, a fresh `0x1000`-byte pool with `16`
bytes allocated, then `LOS_MemRealloc` of that pointer to `32` bytes.
The node grows into the free node after it
(`OsMemMergeNodeForReAllocBigger`), which records
`node->sizeAndFlag - nodeSize` after setting the used flag, so
`2 ^ 31 + 16` bytes: `curUsedSize` exceeds the pool head and the used
bytes by `2 ^ 31`. -/
theorem mem_realloc_grow_miscounts :
    ∃ p₁ p₂, Reach (Initialised 0x1000 0x1000) (Next 0x1000) ⟨p₁, [0x1000 + 956]⟩ ∧
      LOS_MemRealloc 0x1000 p₁ (0x1000 + 956) 32 = some (0x1000 + 956, p₂) ∧
      OS_MEM_MIN_POOL_SIZE + LOS_MemTotalUsedGet 0x1000 p₂ = 1000 ∧
      p₂.curUsedSize = 2 ^ 31 + 1000 := by
  obtain ⟨p₀, p₁, p₂, hinit, halloc, hrealloc, htotal, hcur⟩ : ∃ p₀ p₁ p₂,
      LOS_MemInit 0x1000 0x1000 zeroPool = some (LOS_OK, p₀) ∧
        LOS_MemAlloc p₀ 16 = some (0x1000 + 956, p₁) ∧
        LOS_MemRealloc 0x1000 p₁ (0x1000 + 956) 32 = some (0x1000 + 956, p₂) ∧
        OS_MEM_MIN_POOL_SIZE + LOS_MemTotalUsedGet 0x1000 p₂ = 1000 ∧
        p₂.curUsedSize = 2 ^ 31 + 1000 :=
    ⟨_, _, _, rfl, rfl, rfl, rfl, rfl⟩
  have h₀ : Reach (Initialised 0x1000 0x1000) (Next 0x1000) ⟨p₀, []⟩ :=
    .init ⟨zeroPool, hinit, rfl⟩
  exact ⟨p₁, p₂, .step h₀ (.inl ⟨16, 0x1000 + 956, by decide, halloc,
    (if_neg (by decide : ¬(0x1000 + 956 = NULL))).symm⟩), hrealloc, htotal, hcur⟩

/-- `LOS_MemRealloc` of a pointer from `LOS_MemAllocAlign`. In a fresh
`0x1000`-byte pool, `LOS_MemAllocAlign(pool, 16, 16)` gets `0x1000 + 956`
from `OsMemAlloc` and hands out `0x1000 + 960`, with the gap word
`4 | OS_MEM_NODE_ALIGNED_FLAG` before it. The user stores a word there;
`LOS_MemRealloc` to the same `16` bytes rewinds the pointer by the gap
(`OsGetRealPtr`), keeps the node (`OsMemReAllocSmaller`) and returns the
rewound pointer: its first word is the gap word, and the user's word
sits `4` bytes further on. -/
theorem mem_realloc_aligned_shifts :
    ∃ p₀ p₁ p₂, LOS_MemInit 0x1000 0x1000 zeroPool = some (LOS_OK, p₀) ∧
      LOS_MemAllocAlign p₀ 16 16 = some (0x1000 + 960, p₁) ∧
      LOS_MemRealloc 0x1000 { p₁ with mem := Function.update p₁.mem (0x1000 + 960) 0x11223344 }
        (0x1000 + 960) 16 = some (0x1000 + 956, p₂) ∧
      p₂.mem (0x1000 + 956) = 4 ||| OS_MEM_NODE_ALIGNED_FLAG ∧
      p₂.mem (0x1000 + 960) = 0x11223344 :=
  ⟨_, _, _, rfl, rfl, rfl, rfl, rfl⟩

end LiteOsA.Tlsf
