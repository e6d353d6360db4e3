/-
The 32-bit bitmaps of kernel/base/core/los_bitmap.c.

A bitmap is a `UINT32` and position `pos` names bit `pos & 31`.
`LOS_HighBitGet` and `LOS_LowBitGet` go through the compiler's `CLZ`
and `CTZ`; the model states those as searches over the 32 bit
positions, from the top and from the bottom, so that both evaluate and
both answer to the same two list lemmas (`List.find?_range_eq_some`,
`List.find?_range_eq_none`).

The results below are what the callers read: setting and clearing
touch one bit, a bitmap stays a 32-bit word, and on a nonzero word the
two searches return the highest and the lowest set bit.
-/
import LiteOsA.Base

namespace LiteOsA

/-- `OS_BITMAP_MASK`: positions are taken modulo 32. -/
def OS_BITMAP_MASK : Nat := 0x1F

/-- `LOS_INVALID_BIT_INDEX` (los_bitmap.h). -/
def LOS_INVALID_BIT_INDEX : Nat := 32

/-- `LOS_BitmapSet`. -/
def LOS_BitmapSet (bitmap pos : Nat) : Nat :=
  bitmap ||| 1 <<< (pos &&& OS_BITMAP_MASK)

/-- `LOS_BitmapClr`; `~` is the 32-bit complement. -/
def LOS_BitmapClr (bitmap pos : Nat) : Nat :=
  bitmap &&& (1 <<< (pos &&& OS_BITMAP_MASK) ^^^ (2 ^ 32 - 1))

/-- `CLZ` of a nonzero 32-bit word: the zero bits above its highest set
bit. -/
def CLZ (x : Nat) : Nat :=
  ((List.range 32).find? fun i => x.testBit (31 - i)).getD 32

/-- `CTZ` of a nonzero 32-bit word: the zero bits below its lowest set
bit. -/
def CTZ (x : Nat) : Nat :=
  ((List.range 32).find? x.testBit).getD 32

/-- `LOS_HighBitGet`. -/
def LOS_HighBitGet (bitmap : Nat) : Nat :=
  if bitmap = 0 then LOS_INVALID_BIT_INDEX else OS_BITMAP_MASK - CLZ bitmap

/-- `LOS_LowBitGet`. -/
def LOS_LowBitGet (bitmap : Nat) : Nat :=
  if bitmap = 0 then LOS_INVALID_BIT_INDEX else CTZ bitmap

-- ============================================================ set, clear

theorem mask_eq_mod (pos : Nat) : pos &&& OS_BITMAP_MASK = pos % 32 :=
  Nat.and_two_pow_sub_one_eq_mod pos 5

@[simp]
theorem testBit_LOS_BitmapSet (bitmap pos i : Nat) :
    (LOS_BitmapSet bitmap pos).testBit i = (bitmap.testBit i || decide (pos % 32 = i)) := by
  rw [LOS_BitmapSet, mask_eq_mod, Nat.one_shiftLeft, Nat.testBit_or, Nat.testBit_two_pow]

@[simp]
theorem testBit_LOS_BitmapClr (bitmap pos i : Nat) :
    (LOS_BitmapClr bitmap pos).testBit i =
      (bitmap.testBit i && !decide (pos % 32 = i) && decide (i < 32)) := by
  rw [LOS_BitmapClr, mask_eq_mod, Nat.one_shiftLeft, Nat.testBit_and, Nat.testBit_xor,
    Nat.testBit_two_pow, Nat.testBit_two_pow_sub_one]
  by_cases h : pos % 32 = i <;> by_cases hi : i < 32 <;> simp [h, hi]
  -- the last case has `pos % 32 = i` with `32 ≤ i`
  omega

theorem LOS_BitmapSet_lt {bitmap : Nat} (hb : bitmap < 2 ^ 32) (pos : Nat) :
    LOS_BitmapSet bitmap pos < 2 ^ 32 := by
  refine Nat.or_lt_two_pow hb ?_
  rw [mask_eq_mod, Nat.one_shiftLeft]
  exact Nat.pow_lt_pow_right (by decide) (Nat.mod_lt _ (by decide))

theorem LOS_BitmapClr_le (bitmap pos : Nat) : LOS_BitmapClr bitmap pos ≤ bitmap :=
  Nat.and_le_left

-- ===================================================== the two searches

/-- A nonzero 32-bit word has a set bit below 32. -/
theorem exists_testBit_lt {x : Nat} (h0 : x ≠ 0) (hx : x < 2 ^ 32) :
    ∃ i < 32, x.testBit i = true := by
  obtain ⟨i, hi⟩ := Nat.exists_testBit_of_ne_zero h0
  refine ⟨i, ?_, hi⟩
  by_contra hge
  have := Nat.ge_two_pow_of_testBit hi
  have : 2 ^ 32 ≤ 2 ^ i := Nat.pow_le_pow_right (by decide) (by omega)
  omega

theorem CTZ_spec {x : Nat} (h0 : x ≠ 0) (hx : x < 2 ^ 32) :
    CTZ x < 32 ∧ x.testBit (CTZ x) = true ∧ ∀ j < CTZ x, x.testBit j = false := by
  obtain ⟨i, hi, hbit⟩ := exists_testBit_lt h0 hx
  -- the search cannot come back empty, so it returns its first hit
  cases hf : (List.range 32).find? x.testBit with
  | none =>
      have := List.find?_range_eq_none.1 hf i hi
      simp [hbit] at this
  | some k =>
      obtain ⟨hk, hmem, hmin⟩ := List.find?_range_eq_some.1 hf
      simp only [CTZ, hf, Option.getD_some]
      exact ⟨List.mem_range.1 hmem, hk, fun j hj => by simpa using hmin j hj⟩

theorem CLZ_spec {x : Nat} (h0 : x ≠ 0) (hx : x < 2 ^ 32) :
    CLZ x < 32 ∧ x.testBit (31 - CLZ x) = true ∧ ∀ j < CLZ x, x.testBit (31 - j) = false := by
  obtain ⟨i, hi, hbit⟩ := exists_testBit_lt h0 hx
  cases hf : (List.range 32).find? (fun i => x.testBit (31 - i)) with
  | none =>
      have := List.find?_range_eq_none.1 hf (31 - i) (by omega)
      simp [show 31 - (31 - i) = i by omega, hbit] at this
  | some k =>
      obtain ⟨hk, hmem, hmin⟩ := List.find?_range_eq_some.1 hf
      simp only [CLZ, hf, Option.getD_some]
      exact ⟨List.mem_range.1 hmem, hk, fun j hj => by simpa using hmin j hj⟩

/-- `LOS_HighBitGet` of a nonzero word is its highest set bit. -/
theorem LOS_HighBitGet_spec {x : Nat} (h0 : x ≠ 0) (hx : x < 2 ^ 32) :
    LOS_HighBitGet x < 32 ∧ x.testBit (LOS_HighBitGet x) = true ∧
      ∀ i, LOS_HighBitGet x < i → x.testBit i = false := by
  obtain ⟨hlt, hbit, habove⟩ := CLZ_spec h0 hx
  simp only [LOS_HighBitGet, h0, if_false, OS_BITMAP_MASK]
  refine ⟨by omega, hbit, fun i hi => ?_⟩
  by_cases h32 : i < 32
  · -- below 32 the search from the top passed bit `i` before its hit
    have := habove (31 - i) (by omega)
    rwa [show 31 - (31 - i) = i by omega] at this
  · exact Nat.testBit_lt_two_pow
      (lt_of_lt_of_le hx (Nat.pow_le_pow_right (by decide) (by omega)))

/-- A position `LOS_HighBitGet` returns other than `LOS_INVALID_BIT_INDEX`
is a bit position. -/
theorem LOS_HighBitGet_lt {x : Nat} (hx : x < 2 ^ 32) (h : LOS_HighBitGet x ≠ LOS_INVALID_BIT_INDEX) :
    LOS_HighBitGet x < 32 := by
  by_cases h0 : x = 0
  · simp [LOS_HighBitGet, h0] at h
  · exact (LOS_HighBitGet_spec h0 hx).1

/-- `LOS_LowBitGet` of a nonzero word is its lowest set bit. -/
theorem LOS_LowBitGet_spec {x : Nat} (h0 : x ≠ 0) (hx : x < 2 ^ 32) :
    LOS_LowBitGet x < 32 ∧ x.testBit (LOS_LowBitGet x) = true ∧
      ∀ i < LOS_LowBitGet x, x.testBit i = false := by
  simp only [LOS_LowBitGet, h0, if_false]
  exact CTZ_spec h0 hx

theorem LOS_LowBitGet_lt {x : Nat} (hx : x < 2 ^ 32) (h : LOS_LowBitGet x ≠ LOS_INVALID_BIT_INDEX) :
    LOS_LowBitGet x < 32 := by
  by_cases h0 : x = 0
  · simp [LOS_LowBitGet, h0] at h
  · exact (LOS_LowBitGet_spec h0 hx).1

end LiteOsA
