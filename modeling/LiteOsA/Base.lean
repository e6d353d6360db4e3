/-
What every module of the model shares: the kernel's return codes and the
machine the model is for.

The model is of the 32-bit ARM configuration: `UINTPTR`, `size_t`,
`paddr_t` and pointers are 32 bits wide, and `UINT32` arithmetic wraps
modulo `2 ^ 32`. A value of a C integer type is a `Nat` below its
bound; where the code's arithmetic can leave that range the model
writes the reduction `% 2 ^ 32` out, and where it cannot (sizes and
addresses inside one memory region) it does not.
-/
import Mathlib.Data.Nat.Bitwise

namespace LiteOsA

/-- `LOS_OK` (los_typedef.h). -/
def LOS_OK : Nat := 0

/-- `LOS_NOK` (los_typedef.h). -/
def LOS_NOK : Nat := 1

/-- `LOS_EPERM` (los_typedef.h). -/
def LOS_EPERM : Nat := 1

/-- `LOS_EBADF` (los_typedef.h). -/
def LOS_EBADF : Nat := 9

/-- `LOS_EBUSY` (los_typedef.h). -/
def LOS_EBUSY : Nat := 16

/-- `LOS_EINVAL` (los_typedef.h). -/
def LOS_EINVAL : Nat := 22

/-- `LOS_EDEADLK` (los_typedef.h). -/
def LOS_EDEADLK : Nat := 35

/-- `LOS_ETIMEDOUT` (los_typedef.h). -/
def LOS_ETIMEDOUT : Nat := 110

/-- `LOS_ERRTYPE_ERROR` (los_errno.h). -/
def LOS_ERRTYPE_ERROR : Nat := 0x02 <<< 24

/-- `LOS_ERRNO_OS_ID` (los_errno.h). -/
def LOS_ERRNO_OS_ID : Nat := 0x00 <<< 16

/-- `LOS_ERRNO_OS_ERROR(MID, ERRNO)` (los_errno.h): an error code of the
module `mid`. -/
def LOS_ERRNO_OS_ERROR (mid errno : Nat) : Nat :=
  LOS_ERRTYPE_ERROR ||| LOS_ERRNO_OS_ID ||| (mid <<< 8) ||| errno

/-- `LOS_WAIT_FOREVER` (los_base.h). -/
def LOS_WAIT_FOREVER : Nat := 0xFFFFFFFF

/-- An error code is never `LOS_OK`: its `LOS_ERRTYPE_ERROR` bit is set. -/
theorem LOS_ERRNO_OS_ERROR_ne_ok (mid errno : Nat) : LOS_ERRNO_OS_ERROR mid errno ≠ LOS_OK := by
  intro h
  simp only [LOS_ERRNO_OS_ERROR, LOS_OK, Nat.or_eq_zero_iff] at h
  exact absurd h.1.1.1 (by decide)

/-- `LOS_NO_WAIT` (los_base.h). -/
def LOS_NO_WAIT : Nat := 0

/-- `OS_NULL_SHORT` (los_typedef.h). -/
def OS_NULL_SHORT : Nat := 0xFFFF

/-- `OS_ERROR`: `(UINT32)(-1)` (los_typedef.h). -/
def OS_ERROR : Nat := 0xFFFFFFFF

/-- `NULL`. -/
def NULL : Nat := 0

/-- `UINT32` wrap-around. -/
def u32 (x : Nat) : Nat := x % 2 ^ 32

theorem u32_of_lt {x : Nat} (h : x < 2 ^ 32) : u32 x = x := Nat.mod_eq_of_lt h

theorem u32_lt (x : Nat) : u32 x < 2 ^ 32 := Nat.mod_lt _ (by decide)

/-- `UINT32` subtraction [x - y] (and [x--] for [y = 1]), for [y ≤ 2 ^ 32].
The bias [2 ^ 32 - y] stands first so that a symbolic [x] blocks
reduction rather than letting it count through [2 ^ 32]. -/
def u32Sub (x y : Nat) : Nat := u32 (2 ^ 32 - y + x)

theorem u32Sub_of_le {x y : Nat} (hy : y ≤ x) (hx : x < 2 ^ 32) : u32Sub x y = x - y := by
  unfold u32Sub u32
  rw [show 2 ^ 32 - y + x = x - y + 2 ^ 32 by omega, Nat.add_mod_right, Nat.mod_eq_of_lt (by omega)]

/-- Below [y] the difference wraps round. -/
theorem u32Sub_of_lt {x y : Nat} (hy : x < y) (hy' : y ≤ 2 ^ 32) : u32Sub x y = 2 ^ 32 - y + x :=
  Nat.mod_eq_of_lt (by omega)

/-- A number below `2 ^ n` has no bit at or above `n`. -/
theorem testBit_of_lt_two_pow {x n i : Nat} (hx : x < 2 ^ n) (hi : n ≤ i) :
    x.testBit i = false :=
  Nat.testBit_lt_two_pow (lt_of_lt_of_le hx (Nat.pow_le_pow_right (by decide) hi))

/-- Masking a 32-bit word with `~(2 ^ n - 1)` rounds it down to a
multiple of `2 ^ n`. -/
theorem and_not_low_bits {x n : Nat} (hx : x < 2 ^ 32) (hn : n ≤ 32) :
    x &&& ((2 ^ 32 - 1) ^^^ (2 ^ n - 1)) = x / 2 ^ n * 2 ^ n := by
  refine Nat.eq_of_testBit_eq fun i => ?_
  rw [Nat.testBit_and, Nat.testBit_xor, Nat.testBit_two_pow_sub_one, Nat.testBit_two_pow_sub_one,
    Nat.testBit_mul_two_pow, Nat.testBit_div_two_pow]
  by_cases hi : i < 32
  · by_cases hin : i < n
    · simp [hi, hin, show ¬ n ≤ i by omega]
    · simp [hi, hin, show n ≤ i by omega, show i - n + n = i by omega]
  · simp [hi, testBit_of_lt_two_pow hx (Nat.le_of_not_lt hi), show ¬ i < n by omega,
      show i - n + n = i by omega]

/-- `LOS_Align` (los_misc.c): round `addr` up to a multiple of the power
of two `boundary`, unless that would wrap past the top of the address
space. -/
def LOS_Align (addr boundary : Nat) : Nat :=
  let mask := (2 ^ 32 - 1) ^^^ u32Sub boundary 1
  if u32 (addr + boundary - 1) > addr then u32 (addr + boundary - 1) &&& mask
  else addr &&& mask

end LiteOsA
