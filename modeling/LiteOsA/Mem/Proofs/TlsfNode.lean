/-
Node words and bucket arithmetic of the TLSF heap.

A node's `sizeAndFlag` is its size with the used, aligned and last
flags in bits 31, 30 and 29. The proofs keep a node as a `Blk` (where it
starts, its size and its two flags) and read every mask the code
applies to its word off `testBit_word`.

The bucket arithmetic is what keeps `OsMemFreeNodeAdd` and
`OsMemFreeNodeDelete` away from `LOS_Panic`: every size a node can
have, from 4 bytes up to the 29 bits the word leaves it, falls in one
of the 223 lists (`OsMemFreeListIndexGet_lt`). `OsMemFFS` returns a set
bit of a nonzero word (`OsMemFFS_spec`), which is all the searches need
to land on a nonempty list.
-/
import LiteOsA.Mem.Tlsf

namespace LiteOsA.Tlsf

-- ============================================================ the flags

theorem OS_MEM_NODE_USED_FLAG_eq : OS_MEM_NODE_USED_FLAG = 2 ^ 31 := rfl

theorem OS_MEM_NODE_ALIGNED_FLAG_eq : OS_MEM_NODE_ALIGNED_FLAG = 2 ^ 30 := rfl

theorem OS_MEM_NODE_LAST_FLAG_eq : OS_MEM_NODE_LAST_FLAG = 2 ^ 29 := rfl

theorem OS_MEM_NODE_GET_SIZE_eq (w : Nat) : OS_MEM_NODE_GET_SIZE w = w % 2 ^ 29 := by
  rw [OS_MEM_NODE_GET_SIZE,
    show (2 ^ 32 - 1) ^^^ OS_MEM_NODE_ALIGNED_AND_USED_FLAG = 2 ^ 29 - 1 by decide,
    Nat.and_two_pow_sub_one_eq_mod]

theorem OS_MEM_NODE_GET_USED_FLAG_eq_zero (w : Nat) :
    OS_MEM_NODE_GET_USED_FLAG w = 0 ↔ w.testBit 31 = false := by
  rw [OS_MEM_NODE_GET_USED_FLAG, OS_MEM_NODE_USED_FLAG_eq, Nat.and_two_pow]
  cases w.testBit 31 <;> simp

theorem OS_MEM_NODE_GET_ALIGNED_FLAG_eq_zero (w : Nat) :
    OS_MEM_NODE_GET_ALIGNED_FLAG w = 0 ↔ w.testBit 30 = false := by
  rw [OS_MEM_NODE_GET_ALIGNED_FLAG, OS_MEM_NODE_ALIGNED_FLAG_eq, Nat.and_two_pow]
  cases w.testBit 30 <;> simp

theorem OS_MEM_NODE_GET_LAST_FLAG_eq_zero (w : Nat) :
    OS_MEM_NODE_GET_LAST_FLAG w = 0 ↔ w.testBit 29 = false := by
  rw [OS_MEM_NODE_GET_LAST_FLAG, OS_MEM_NODE_LAST_FLAG_eq, Nat.and_two_pow]
  cases w.testBit 29 <;> simp

/-- `OS_MEM_ALIGN(x, 4)` of a size that does not wrap. -/
theorem OS_MEM_ALIGN_four {x : Nat} (hx : x + 3 < 2 ^ 32) :
    OS_MEM_ALIGN x OS_MEM_ALIGN_SIZE = (x + 3) / 4 * 4 := by
  rw [OS_MEM_ALIGN, OS_MEM_ALIGN_SIZE, show x + 4 - 1 = x + 3 by omega, u32_of_lt hx]
  exact @and_not_low_bits (x + 3) 2 hx (by decide)

-- ============================================================ the nodes

/-- A node as the proofs see it: where it starts, its size, and whether
it is used and aligned. -/
structure Blk where
  addr : Nat
  size : Nat
  used : Bool
  aligned : Bool
  deriving DecidableEq, Repr

namespace Blk

/-- The `sizeAndFlag` word the pool keeps for the node. -/
def word (b : Blk) : Nat :=
  b.size ||| (if b.used then OS_MEM_NODE_USED_FLAG else 0) |||
    (if b.aligned then OS_MEM_NODE_ALIGNED_FLAG else 0)

/-- What every node of a pool satisfies: the two links of a free node
fit in it, its size is a whole number of words and leaves the flag bits
clear, and only a used node is aligned. -/
structure Ok (b : Blk) : Prop where
  size_ge : 20 ≤ b.size
  size_mod : b.size % 4 = 0
  size_lt : b.size < 2 ^ 29
  aligned_used : b.aligned = true → b.used = true

theorem testBit_word (b : Blk) (i : Nat) :
    b.word.testBit i =
      (b.size.testBit i || (b.used && decide (i = 31)) || (b.aligned && decide (i = 30))) := by
  unfold word
  rw [OS_MEM_NODE_USED_FLAG_eq, OS_MEM_NODE_ALIGNED_FLAG_eq]
  cases b.used <;> cases b.aligned <;>
    simp only [Nat.testBit_or, Nat.testBit_two_pow, Nat.zero_testBit, Bool.false_and,
      Bool.true_and, Bool.or_false, eq_comm, if_true, if_false, Bool.false_eq_true]

variable {b : Blk}

/-- The size leaves the flag bits clear. -/
theorem Ok.testBit_size (hb : b.Ok) {i : Nat} (hi : 29 ≤ i) : b.size.testBit i = false :=
  testBit_of_lt_two_pow hb.size_lt hi

theorem word_free (hu : b.used = false) (ha : b.aligned = false) : b.word = b.size := by
  simp [word, hu, ha]

theorem word_lt (hb : b.Ok) : b.word < 2 ^ 32 := by
  refine Nat.lt_pow_two_of_testBit _ fun i hi => ?_
  rw [testBit_word, hb.testBit_size (by omega)]
  have h31 : decide (i = 31) = false := by simp; omega
  have h30 : decide (i = 30) = false := by simp; omega
  simp [h31, h30]

theorem GET_SIZE_word (hb : b.Ok) : OS_MEM_NODE_GET_SIZE b.word = b.size := by
  rw [OS_MEM_NODE_GET_SIZE_eq]
  refine Nat.eq_of_testBit_eq fun i => ?_
  rw [Nat.testBit_mod_two_pow, testBit_word]
  by_cases hi : i < 29
  · have h31 : decide (i = 31) = false := by simp; omega
    have h30 : decide (i = 30) = false := by simp; omega
    simp [hi, h31, h30]
  · simp [hi, hb.testBit_size (by omega : 29 ≤ i)]

theorem GET_USED_word (hb : b.Ok) : OS_MEM_NODE_GET_USED_FLAG b.word = 0 ↔ b.used = false := by
  rw [OS_MEM_NODE_GET_USED_FLAG_eq_zero, testBit_word, hb.testBit_size (by decide)]
  simp

theorem GET_ALIGNED_word (hb : b.Ok) :
    OS_MEM_NODE_GET_ALIGNED_FLAG b.word = 0 ↔ b.aligned = false := by
  rw [OS_MEM_NODE_GET_ALIGNED_FLAG_eq_zero, testBit_word, hb.testBit_size (by decide)]
  simp

theorem GET_LAST_word (hb : b.Ok) : OS_MEM_NODE_GET_LAST_FLAG b.word = 0 := by
  rw [OS_MEM_NODE_GET_LAST_FLAG_eq_zero, testBit_word, hb.testBit_size le_rfl]
  simp

/-- `OS_MEM_NODE_SET_USED_FLAG` on a node's word. -/
theorem word_or_used (b : Blk) : b.word ||| OS_MEM_NODE_USED_FLAG = { b with used := true }.word := by
  refine Nat.eq_of_testBit_eq fun i => ?_
  rw [Nat.testBit_or, testBit_word, testBit_word, OS_MEM_NODE_USED_FLAG_eq, Nat.testBit_two_pow]
  cases b.used <;> by_cases h : i = 31 <;> simp [h, eq_comm]

/-- `OS_MEM_NODE_SET_ALIGNED_FLAG` on a node's word. -/
theorem word_or_aligned (b : Blk) :
    b.word ||| OS_MEM_NODE_ALIGNED_FLAG = { b with aligned := true }.word := by
  refine Nat.eq_of_testBit_eq fun i => ?_
  rw [Nat.testBit_or, testBit_word, testBit_word, OS_MEM_NODE_ALIGNED_FLAG_eq, Nat.testBit_two_pow]
  cases b.aligned <;> by_cases h : i = 30 <;> simp [h, eq_comm]

end Blk

-- ============================================================ the buckets

theorem OS_MEM_FREE_LIST_COUNT_eq : OS_MEM_FREE_LIST_COUNT = 223 := rfl

theorem OS_MEM_BITMAP_WORDS_eq : OS_MEM_BITMAP_WORDS = 7 := rfl

/-- `OsMemFLS` of a nonzero word is its highest set bit. -/
theorem OsMemFLS_spec {x : Nat} (h0 : x ≠ 0) (hx : x < 2 ^ 32) :
    OsMemFLS x < 32 ∧ 2 ^ OsMemFLS x ≤ x ∧ x < 2 ^ (OsMemFLS x + 1) := by
  have hfls : OsMemFLS x = LOS_HighBitGet x := by
    simp [OsMemFLS, LOS_HighBitGet, h0, OS_MEM_BITMAP_MASK, OS_BITMAP_MASK]
  obtain ⟨hlt, hbit, habove⟩ := LOS_HighBitGet_spec h0 hx
  rw [hfls]
  exact ⟨hlt, Nat.ge_two_pow_of_testBit hbit,
    Nat.lt_pow_two_of_testBit _ fun i hi => habove i (by omega)⟩

/-- The first level of a small size: one list per word count. -/
theorem OsMemFlGet_small {s : Nat} (h4 : 4 ≤ s) (hs : s < OS_MEM_SMALL_BUCKET_MAX_SIZE) :
    OsMemFlGet s = s / 4 - 1 := by
  have hq : s >>> 2 = s / 4 := Nat.shiftRight_eq_div_pow s 2
  have hs' : s < 128 := hs
  rw [OsMemFlGet, if_pos hs, hq, u32Sub_of_le (by omega) (by omega)]

/-- The first level of a large size: its logarithm, at least 7. -/
theorem OsMemFlGet_large {s : Nat} (hs : OS_MEM_SMALL_BUCKET_MAX_SIZE ≤ s) (hs' : s < 2 ^ 32) :
    7 ≤ OsMemFlGet s ∧ 2 ^ OsMemFlGet s ≤ s ∧ s < 2 ^ (OsMemFlGet s + 1) := by
  rw [OsMemFlGet, if_neg (by omega), OsMemLog2]
  obtain ⟨-, hlo, hhi⟩ := OsMemFLS_spec (x := s) (by unfold OS_MEM_SMALL_BUCKET_MAX_SIZE at hs; omega) hs'
  refine ⟨?_, hlo, hhi⟩
  by_contra h7
  have : 2 ^ (OsMemFLS s + 1) ≤ 2 ^ 7 := Nat.pow_le_pow_right (by decide) (by omega)
  unfold OS_MEM_SMALL_BUCKET_MAX_SIZE at hs
  omega

/-- The second level of a large size below `2 ^ 29`, where `size << 3`
does not wrap: the size's next three bits below its highest. -/
theorem OsMemSlGet_large {s : Nat} (hs : OS_MEM_SMALL_BUCKET_MAX_SIZE ≤ s) (hs' : s < 2 ^ 29) :
    OsMemSlGet s (OsMemFlGet s) = s * 8 / 2 ^ OsMemFlGet s - 8 ∧
      8 ≤ s * 8 / 2 ^ OsMemFlGet s ∧ s * 8 / 2 ^ OsMemFlGet s < 16 := by
  obtain ⟨-, hlo, hhi⟩ := OsMemFlGet_large hs (by omega)
  set fl := OsMemFlGet s
  have hpos : 0 < 2 ^ fl := Nat.two_pow_pos fl
  have hq₁ : 8 ≤ s * 8 / 2 ^ fl := (Nat.le_div_iff_mul_le hpos).2 (by omega)
  have hq₂ : s * 8 / 2 ^ fl < 16 := by
    rw [Nat.div_lt_iff_lt_mul hpos]
    rw [Nat.pow_succ] at hhi
    omega
  have hshift : u32 (s <<< OS_MEM_SLI) >>> fl = s * 8 / 2 ^ fl := by
    rw [OS_MEM_SLI, Nat.shiftLeft_eq, u32_of_lt (by omega), Nat.shiftRight_eq_div_pow]
  refine ⟨?_, hq₁, hq₂⟩
  rw [OsMemSlGet, hshift, OS_MEM_FREE_LIST_NUM, show 1 <<< OS_MEM_SLI = 8 by rfl,
    u32Sub_of_le hq₁ (by omega)]

/-- A large size below `2 ^ 29` has a level of at most 28. -/
theorem OsMemFlGet_lt {s : Nat} (hs : OS_MEM_SMALL_BUCKET_MAX_SIZE ≤ s) (hs' : s < 2 ^ 29) :
    OsMemFlGet s < 29 := by
  obtain ⟨-, hlo, -⟩ := OsMemFlGet_large hs (by omega)
  by_contra h
  have : 2 ^ 29 ≤ 2 ^ OsMemFlGet s := Nat.pow_le_pow_right (by decide) (by omega)
  omega

/-- The first large list of a level: eight lists a level, from level 7. -/
theorem level_first_list {fl : Nat} (h7 : 7 ≤ fl) (h30 : fl ≤ 30) :
    u32 (u32Sub fl OS_MEM_LARGE_START_BUCKET <<< OS_MEM_SLI) = (fl - 7) * 8 := by
  rw [OS_MEM_LARGE_START_BUCKET, u32Sub_of_le h7 (by omega), OS_MEM_SLI, Nat.shiftLeft_eq,
    u32_of_lt (by omega)]

/-- The list of a small size: one list a word count. -/
theorem OsMemFreeListIndexGet_small {s : Nat} (h4 : 4 ≤ s) (hs : s < OS_MEM_SMALL_BUCKET_MAX_SIZE) :
    OsMemFreeListIndexGet s = s / 4 - 1 := by
  rw [OsMemFreeListIndexGet, if_pos hs, OsMemFlGet_small h4 hs]

/-- The list of a large size below `2 ^ 29`: past the 31 small lists,
eight lists a level, chosen by the three bits below the highest. -/
theorem OsMemFreeListIndexGet_large {s : Nat} (hs : OS_MEM_SMALL_BUCKET_MAX_SIZE ≤ s)
    (hs' : s < 2 ^ 29) :
    OsMemFreeListIndexGet s = 31 + (OsMemFlGet s - 7) * 8 + (s * 8 / 2 ^ OsMemFlGet s - 8) := by
  obtain ⟨h7, -, -⟩ := OsMemFlGet_large hs (by omega)
  obtain ⟨hsl, -, hq⟩ := OsMemSlGet_large hs hs'
  have h28 := OsMemFlGet_lt hs hs'
  rw [OsMemFreeListIndexGet, if_neg (Nat.not_lt.2 hs)]
  show u32 (31 + u32 (u32Sub (OsMemFlGet s) OS_MEM_LARGE_START_BUCKET <<< OS_MEM_SLI) +
    OsMemSlGet s (OsMemFlGet s)) = _
  rw [level_first_list h7 (by omega), hsl, u32_of_lt (by omega)]

/-- Every size a node can have falls in one of the lists. -/
theorem OsMemFreeListIndexGet_lt {s : Nat} (h4 : 4 ≤ s) (hs : s < 2 ^ 29) :
    OsMemFreeListIndexGet s < OS_MEM_FREE_LIST_COUNT := by
  by_cases hsmall : s < OS_MEM_SMALL_BUCKET_MAX_SIZE
  · rw [OsMemFreeListIndexGet_small h4 hsmall, OS_MEM_FREE_LIST_COUNT_eq]
    unfold OS_MEM_SMALL_BUCKET_MAX_SIZE at hsmall
    omega
  · have hlarge := Nat.le_of_not_lt hsmall
    obtain ⟨-, -, hq⟩ := OsMemSlGet_large hlarge hs
    -- the level is below 29, so the index stays below 31 + 22 * 8
    have h28 := OsMemFlGet_lt hlarge hs
    rw [OsMemFreeListIndexGet_large hlarge hs, OS_MEM_FREE_LIST_COUNT_eq]
    omega

/-- A larger size never has a lower list. -/
theorem OsMemFreeListIndexGet_mono {x y : Nat} (h4 : 4 ≤ x) (hxy : x ≤ y) (hy : y < 2 ^ 29) :
    OsMemFreeListIndexGet x ≤ OsMemFreeListIndexGet y := by
  by_cases hys : y < OS_MEM_SMALL_BUCKET_MAX_SIZE
  · rw [OsMemFreeListIndexGet_small h4 (by omega), OsMemFreeListIndexGet_small (by omega) hys]
    omega
  · have hyl := Nat.le_of_not_lt hys
    obtain ⟨hy7, -, hyhi⟩ := OsMemFlGet_large hyl (by omega)
    obtain ⟨-, hqy, -⟩ := OsMemSlGet_large hyl hy
    rw [OsMemFreeListIndexGet_large hyl hy]
    by_cases hxs : x < OS_MEM_SMALL_BUCKET_MAX_SIZE
    · rw [OsMemFreeListIndexGet_small h4 hxs]
      unfold OS_MEM_SMALL_BUCKET_MAX_SIZE at hxs
      omega
    · have hxl := Nat.le_of_not_lt hxs
      obtain ⟨hx7, hxlo, -⟩ := OsMemFlGet_large hxl (by omega)
      obtain ⟨-, -, hqx⟩ := OsMemSlGet_large hxl (by omega)
      rw [OsMemFreeListIndexGet_large hxl (by omega)]
      -- the levels are ordered as the sizes are
      have hfl : OsMemFlGet x ≤ OsMemFlGet y := by
        by_contra h
        have : 2 ^ (OsMemFlGet y + 1) ≤ 2 ^ OsMemFlGet x :=
          Nat.pow_le_pow_right (by decide) (by omega)
        omega
      rcases Nat.lt_or_eq_of_le hfl with hlt | heq
      · -- a lower level ends below the first list of the next one
        omega
      · rw [heq]
        have : x * 8 / 2 ^ OsMemFlGet y ≤ y * 8 / 2 ^ OsMemFlGet y :=
          Nat.div_le_div_right (by omega)
        omega

/-- A size on a higher list than `s` is larger than `s`. -/
theorem lt_of_index_lt {s x : Nat} (h4 : 4 ≤ x) (hs : s < 2 ^ 29)
    (h : OsMemFreeListIndexGet s < OsMemFreeListIndexGet x) : s < x := by
  by_contra hle
  exact absurd (OsMemFreeListIndexGet_mono h4 (Nat.le_of_not_lt hle) hs) (Nat.not_le.2 h)

/-- A small list holds one size: a size on the list of a small whole
number of words `s`, or above, is at least `s`. -/
theorem le_of_index_le_small {s x : Nat} (h4 : 4 ≤ s) (hsm : s % 4 = 0)
    (hs : s < OS_MEM_SMALL_BUCKET_MAX_SIZE) (hx4 : 4 ≤ x)
    (h : OsMemFreeListIndexGet s ≤ OsMemFreeListIndexGet x) : s ≤ x := by
  by_cases hxs : x < OS_MEM_SMALL_BUCKET_MAX_SIZE
  · rw [OsMemFreeListIndexGet_small h4 hs, OsMemFreeListIndexGet_small hx4 hxs] at h
    omega
  · unfold OS_MEM_SMALL_BUCKET_MAX_SIZE at hs hxs
    omega

/-- For a large size below `2 ^ 29` the list `OsMemFindNextSuitableBlock`
calls `curIndex` is the size's own. -/
theorem curIndex_eq {s : Nat} (hs : OS_MEM_SMALL_BUCKET_MAX_SIZE ≤ s) (hs' : s < 2 ^ 29) :
    u32 (u32 (u32Sub (OsMemFlGet s) OS_MEM_LARGE_START_BUCKET <<< OS_MEM_SLI) +
      OsMemSlGet s (OsMemFlGet s) + OS_MEM_SMALL_BUCKET_COUNT) = OsMemFreeListIndexGet s := by
  obtain ⟨h7, -, -⟩ := OsMemFlGet_large hs (by omega)
  obtain ⟨hsl, -, hq⟩ := OsMemSlGet_large hs hs'
  have h28 := OsMemFlGet_lt hs hs'
  rw [OsMemFreeListIndexGet_large hs hs', level_first_list h7 (by omega), hsl,
    OS_MEM_SMALL_BUCKET_COUNT, u32_of_lt (by omega)]
  omega

/-- The list of a large size the search starts from, `curIndex`, stays
below the last list for every size below `2 ^ 31`; from `2 ^ 29` on the
second level wraps and the index falls back among smaller sizes. -/
theorem curIndex_lt {s : Nat} (hs : OS_MEM_SMALL_BUCKET_MAX_SIZE ≤ s) (hs' : s < 2 ^ 31) :
    u32 (u32 (u32Sub (OsMemFlGet s) OS_MEM_LARGE_START_BUCKET <<< OS_MEM_SLI) +
      OsMemSlGet s (OsMemFlGet s) + OS_MEM_SMALL_BUCKET_COUNT) < 215 := by
  obtain ⟨h7, hlo, hhi⟩ := OsMemFlGet_large hs (by omega)
  by_cases hsmall : s < 2 ^ 29
  · obtain ⟨-, -, hq⟩ := OsMemSlGet_large hs hsmall
    have h28 := OsMemFlGet_lt hs hsmall
    rw [curIndex_eq hs hsmall, OsMemFreeListIndexGet_large hs hsmall]
    omega
  · -- the level is 29 or 30
    have h30 : OsMemFlGet s ≤ 30 := by
      by_contra h
      have : 2 ^ 31 ≤ 2 ^ OsMemFlGet s := Nat.pow_le_pow_right (by decide) (by omega)
      omega
    have h29 : 29 ≤ OsMemFlGet s := by
      by_contra h
      have : 2 ^ (OsMemFlGet s + 1) ≤ 2 ^ 29 := Nat.pow_le_pow_right (by decide) (by omega)
      omega
    rw [level_first_list h7 h30, OS_MEM_SMALL_BUCKET_COUNT]
    -- `size << 3` wraps: what is left of it is below `2 ^ 32`, so below 8 after the shift
    have hq : u32 (s <<< OS_MEM_SLI) >>> OsMemFlGet s < 8 := by
      rw [Nat.shiftRight_eq_div_pow, Nat.div_lt_iff_lt_mul (Nat.two_pow_pos _)]
      have : 2 ^ 29 ≤ 2 ^ OsMemFlGet s := Nat.pow_le_pow_right (by decide) h29
      have := u32_lt (s <<< OS_MEM_SLI)
      omega
    rw [OsMemSlGet, OS_MEM_FREE_LIST_NUM, show 1 <<< OS_MEM_SLI = 8 by rfl,
      u32Sub_of_lt hq (by decide)]
    set q := u32 (s <<< OS_MEM_SLI) >>> OsMemFlGet s
    have hsum : (OsMemFlGet s - 7) * 8 + (2 ^ 32 - 8 + q) + 31 =
        ((OsMemFlGet s - 7) * 8 + q + 23) + 2 ^ 32 := by omega
    rw [hsum, u32, Nat.add_mod_right, Nat.mod_eq_of_lt (by omega)]
    omega

/-- `LOS_Align(index + 1, 32)` of a list index: the first list of the
next bitmap word. -/
theorem LOS_Align_32 {x : Nat} (hx : x + 31 < 2 ^ 32) : LOS_Align x 32 = (x + 31) / 32 * 32 := by
  rw [LOS_Align, show u32Sub 32 1 = 2 ^ 5 - 1 by rfl, show x + 32 - 1 = x + 31 by omega,
    u32_of_lt hx, if_pos (by omega)]
  exact @and_not_low_bits (x + 31) 5 hx (by decide)

/-- `~mask + 1` in 32 bits keeps the lowest set bit of `mask`: below it
both are clear, and at it the negation is odd. -/
theorem testBit_neg_CTZ {mask : Nat} (h0 : mask ≠ 0) (hm : mask < 2 ^ 32) :
    (u32Sub 0 mask).testBit (CTZ mask) = true := by
  obtain ⟨hc, hbit, hbelow⟩ := CTZ_spec h0 hm
  set c := CTZ mask
  have hmod : mask % 2 ^ c = 0 := Nat.eq_of_testBit_eq fun i => by
    rw [Nat.testBit_mod_two_pow, Nat.zero_testBit]
    by_cases hi : i < c
    · simp [hi, hbelow i hi]
    · simp [hi]
  have hmask : mask = 2 ^ c * (mask / 2 ^ c) :=
    (Nat.mul_div_cancel' (Nat.dvd_of_mod_eq_zero hmod)).symm
  have hpq : 2 ^ c * 2 ^ (32 - c) = 2 ^ 32 := by
    rw [← Nat.pow_add, Nat.add_sub_cancel' (by omega)]
  have hodd : mask / 2 ^ c % 2 = 1 := by
    rw [Nat.testBit_eq_decide_div_mod_eq, decide_eq_true_iff] at hbit
    exact hbit
  have heven : 2 ^ (32 - c) % 2 = 0 := by
    rw [show 32 - c = (31 - c) + 1 by omega, Nat.pow_succ, Nat.mul_mod_left]
  have hlt : mask / 2 ^ c < 2 ^ (32 - c) := by
    rw [Nat.div_lt_iff_lt_mul (Nat.two_pow_pos c), Nat.mul_comm, hpq]
    exact hm
  have hneg : 2 ^ 32 - mask = 2 ^ c * (2 ^ (32 - c) - mask / 2 ^ c) := by
    rw [Nat.mul_sub, hpq, ← hmask]
  rw [u32Sub, Nat.add_zero, u32_of_lt (by omega), Nat.testBit_eq_decide_div_mod_eq,
    decide_eq_true_iff, hneg, Nat.mul_div_cancel_left _ (Nat.two_pow_pos c)]
  omega

/-- `OsMemFFS` of a nonzero word names one of its set bits. -/
theorem OsMemFFS_spec {mask : Nat} (h0 : mask ≠ 0) (hm : mask < 2 ^ 32) :
    OsMemFFS mask < 32 ∧ mask.testBit (OsMemFFS mask) = true := by
  set y := mask &&& u32Sub 0 mask
  have hyc : y.testBit (CTZ mask) = true := by
    rw [Nat.testBit_and, (CTZ_spec h0 hm).2.1, testBit_neg_CTZ h0 hm]
    rfl
  have hy0 : y ≠ 0 := by
    rintro hy
    rw [hy, Nat.zero_testBit] at hyc
    exact Bool.false_ne_true hyc
  have hylt : y < 2 ^ 32 := lt_of_le_of_lt Nat.and_le_left hm
  obtain ⟨hlt, hybit, -⟩ := LOS_HighBitGet_spec hy0 hylt
  -- the highest bit of `y` is a bit of `mask`, as `y` is `mask` masked
  have hffs : OsMemFFS mask = LOS_HighBitGet y := by
    simp only [OsMemFFS, LOS_HighBitGet, hy0, if_false, OS_MEM_BITMAP_MASK, OS_BITMAP_MASK, y]
  rw [hffs]
  rw [Nat.testBit_and, Bool.and_eq_true] at hybit
  exact ⟨hlt, hybit.1⟩

end LiteOsA.Tlsf
