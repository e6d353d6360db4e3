/-
The conversions between time spans and ticks (compat/posix/include/
time_posix.h and kernel/base/core/los_sys.c), at the default
`LOSCFG_BASE_CORE_TICK_PER_SECOND` of 1000.

# What the model keeps

A `timespec` holds its two fields as integers; each conversion computes
in `UINT64` as the code does, every product and sum taken modulo
`2 ^ 64` (`u64`), and clamps only at the end. `ticksOfTimeSpec` and
`ticksOfMicrosec` say what the conversions are for: the span in ticks,
rounded up, over the integers, and saturated at the largest `UINT32`.

# What is proved

Below the first wrap of its products, each conversion is that
specification (`OsTimeSpec2Tick_exact`, below `tv_sec = 18446744`, some
213 days; `OsUS2Tick_exact`, below `2 ^ 64 - 999` microseconds), and a
tick count survives the way to a `timespec` and back
(`OsTimeSpec2Tick_OsTick2TimeSpec`). Past the wrap the product falls
back to a small value, and so does the timeout.
-/
import LiteOsA.Base
import Mathlib.Algebra.Order.Floor.Div
import Mathlib.Tactic.Linarith
import Mathlib.Tactic.NormNum

namespace LiteOsA.Time

-- ============================================================ constants

/-- `OS_SYS_US_PER_SECOND` (los_sys_pri.h). -/
def OS_SYS_US_PER_SECOND : Nat := 1000000

/-- `OS_SYS_NS_PER_SECOND` (los_sys_pri.h). -/
def OS_SYS_NS_PER_SECOND : Nat := 1000000000

/-- `LOSCFG_BASE_CORE_TICK_PER_SECOND` (los_config.h), its default. -/
def LOSCFG_BASE_CORE_TICK_PER_SECOND : Nat := 1000

/-- `OS_MAX_VALUE` (los_sys.c). -/
def OS_MAX_VALUE : Nat := 0xFFFFFFFF

/-- `UINT64` wrap-around. -/
def u64 (x : Nat) : Nat := x % 2 ^ 64

/-- A signed value converted to `UINT64`. -/
def toUInt64 (x : Int) : Nat := (x % 2 ^ 64).toNat

-- ============================================================ conversions

/-- `struct timespec`. -/
structure timespec where
  tv_sec : Int
  tv_nsec : Int
deriving DecidableEq, Repr

/-- `ValidTimeSpec`, for a pointer that is not `NULL`. -/
def ValidTimeSpec (tp : timespec) : Bool :=
  !(tp.tv_nsec < 0 || tp.tv_nsec ≥ OS_SYS_NS_PER_SECOND || tp.tv_sec < 0)

/-- `OsTimeSpec2Tick`. -/
def OsTimeSpec2Tick (tp : timespec) : Nat :=
  let ns := u64 (u64 (toUInt64 tp.tv_sec * OS_SYS_NS_PER_SECOND) + toUInt64 tp.tv_nsec)
  -- round up for ticks, in `UINT64`
  let tick := u64 (ns * LOSCFG_BASE_CORE_TICK_PER_SECOND + (OS_SYS_NS_PER_SECOND - 1)) / OS_SYS_NS_PER_SECOND
  let tick := if tick > LOS_WAIT_FOREVER then LOS_WAIT_FOREVER else tick
  u32 tick

/-- `OsTick2TimeSpec`, the `timespec` it writes. -/
def OsTick2TimeSpec (tick : Nat) : timespec :=
  let ns := u64 (tick * OS_SYS_NS_PER_SECOND) / LOSCFG_BASE_CORE_TICK_PER_SECOND
  ⟨ns / OS_SYS_NS_PER_SECOND, ns % OS_SYS_NS_PER_SECOND⟩

/-- `OsUS2Tick`. -/
def OsUS2Tick (microsec : Nat) : Nat :=
  let usPerTick := OS_SYS_US_PER_SECOND / LOSCFG_BASE_CORE_TICK_PER_SECOND
  let ticks := u64 (microsec + usPerTick - 1) / usPerTick
  let ticks := if ticks > OS_MAX_VALUE then OS_MAX_VALUE else ticks
  u32 ticks

/-- What `OsTimeSpec2Tick` is for: the span of a valid `timespec` in
ticks, rounded up, saturated at `LOS_WAIT_FOREVER`. -/
def ticksOfTimeSpec (tp : timespec) : Nat :=
  min ((tp.tv_sec.toNat * OS_SYS_NS_PER_SECOND + tp.tv_nsec.toNat) * LOSCFG_BASE_CORE_TICK_PER_SECOND
    ⌈/⌉ OS_SYS_NS_PER_SECOND) LOS_WAIT_FOREVER

/-- What `OsUS2Tick` is for: microseconds in ticks, rounded up,
saturated at `OS_MAX_VALUE`. -/
def ticksOfMicrosec (microsec : Nat) : Nat :=
  min (microsec ⌈/⌉ (OS_SYS_US_PER_SECOND / LOSCFG_BASE_CORE_TICK_PER_SECOND)) OS_MAX_VALUE

-- ============================================================ below the wrap

theorem u64_of_lt {x : Nat} (h : x < 2 ^ 64) : u64 x = x := Nat.mod_eq_of_lt h

theorem toUInt64_natCast {x : Nat} (h : x < 2 ^ 64) : toUInt64 x = x := by
  rw [toUInt64, Int.emod_eq_of_lt (Int.natCast_nonneg x) (by exact_mod_cast h), Int.toNat_natCast]

theorem ValidTimeSpec_iff {tp : timespec} :
    ValidTimeSpec tp = true ↔ 0 ≤ tp.tv_nsec ∧ tp.tv_nsec < OS_SYS_NS_PER_SECOND ∧ 0 ≤ tp.tv_sec := by
  simp only [ValidTimeSpec, Bool.not_eq_true', Bool.or_eq_false_iff, decide_eq_false_iff_not]
  omega

/-- The clamp of both conversions is a `min`, and it leaves a `UINT32`. -/
theorem u32_clamp (x m : Nat) (hm : m < 2 ^ 32) : u32 (if x > m then m else x) = min x m := by
  split_ifs with h
  · rw [u32_of_lt hm, min_eq_right h.le]
  · rw [min_eq_left (not_lt.mp h), u32_of_lt (by omega)]

/-- Rounding up as the code writes it. -/
theorem ceilDiv_ns (x : Nat) : x ⌈/⌉ OS_SYS_NS_PER_SECOND = (x + (OS_SYS_NS_PER_SECOND - 1)) / OS_SYS_NS_PER_SECOND := by
  rw [Nat.ceilDiv_eq_add_pred_div, Nat.add_sub_assoc (by decide)]

/-- A time span of `s` seconds and `n` nanoseconds whose rounding sum
fits in `UINT64` converts to its ticks exactly. -/
theorem OsTimeSpec2Tick_natCast {s n : Nat}
    (h : (s * OS_SYS_NS_PER_SECOND + n) * LOSCFG_BASE_CORE_TICK_PER_SECOND + (OS_SYS_NS_PER_SECOND - 1) < 2 ^ 64) :
    OsTimeSpec2Tick ⟨s, n⟩ = ticksOfTimeSpec ⟨s, n⟩ := by
  -- each partial sum is below the whole
  have hns : s * OS_SYS_NS_PER_SECOND + n < 2 ^ 64 :=
    lt_of_le_of_lt (le_trans (Nat.le_mul_of_pos_right _ (by decide)) (Nat.le_add_right _ _)) h
  have hs : s * OS_SYS_NS_PER_SECOND < 2 ^ 64 := lt_of_le_of_lt (Nat.le_add_right _ _) hns
  have hs₁ : s < 2 ^ 64 := lt_of_le_of_lt (Nat.le_mul_of_pos_right _ (by decide)) hs
  have hn₁ : n < 2 ^ 64 := lt_of_le_of_lt (Nat.le_add_left _ _) hns
  simp only [OsTimeSpec2Tick, ticksOfTimeSpec, Int.toNat_natCast, ceilDiv_ns]
  rw [toUInt64_natCast hs₁, toUInt64_natCast hn₁, u64_of_lt hs, u64_of_lt hns, u64_of_lt h,
    u32_clamp _ _ (by decide)]

/-- A valid `timespec` of fewer than `18446744` seconds converts to its
ticks exactly: no product wraps. -/
theorem OsTimeSpec2Tick_exact {tp : timespec} (hv : ValidTimeSpec tp = true) (hs : tp.tv_sec < 18446744) :
    OsTimeSpec2Tick tp = ticksOfTimeSpec tp := by
  obtain ⟨sec, nsec⟩ := tp
  obtain ⟨hn0, hn, hs0⟩ := ValidTimeSpec_iff.mp hv
  dsimp only at hn0 hn hs0 hs
  -- the seconds and nanoseconds as naturals
  lift sec to Nat using hs0
  lift nsec to Nat using hn0
  have hs' : sec < 18446744 := by exact_mod_cast hs
  have hn' : nsec < OS_SYS_NS_PER_SECOND := by exact_mod_cast hn
  apply OsTimeSpec2Tick_natCast
  simp only [OS_SYS_NS_PER_SECOND, LOSCFG_BASE_CORE_TICK_PER_SECOND] at hn' ⊢
  norm_num
  linarith

/-- Fewer than `2 ^ 64 - 999` microseconds convert to their ticks
exactly. -/
theorem OsUS2Tick_exact {microsec : Nat} (h : microsec + 999 < 2 ^ 64) :
    OsUS2Tick microsec = ticksOfMicrosec microsec := by
  have hsum : microsec + OS_SYS_US_PER_SECOND / LOSCFG_BASE_CORE_TICK_PER_SECOND - 1 = microsec + 999 := by
    simp only [OS_SYS_US_PER_SECOND, LOSCFG_BASE_CORE_TICK_PER_SECOND]; omega
  simp only [OsUS2Tick, ticksOfMicrosec, Nat.ceilDiv_eq_add_pred_div, hsum]
  rw [u64_of_lt h, u32_clamp _ _ (by decide)]

/-- `OsTick2TimeSpec` writes `tick / 1000` seconds and the rest in
nanoseconds. -/
theorem OsTick2TimeSpec_eq {tick : Nat} (h : tick < 2 ^ 32) :
    OsTick2TimeSpec tick = ⟨(tick / LOSCFG_BASE_CORE_TICK_PER_SECOND : Nat),
      (tick % LOSCFG_BASE_CORE_TICK_PER_SECOND * 1000000 : Nat)⟩ := by
  have hlt : tick * OS_SYS_NS_PER_SECOND < 2 ^ 64 := by
    simp only [OS_SYS_NS_PER_SECOND]; norm_num; linarith
  -- the nanoseconds are `tick * 10 ^ 6`
  have hns : tick * OS_SYS_NS_PER_SECOND / LOSCFG_BASE_CORE_TICK_PER_SECOND = tick * 1000000 := by
    simp only [OS_SYS_NS_PER_SECOND, LOSCFG_BASE_CORE_TICK_PER_SECOND]; omega
  simp only [OsTick2TimeSpec, u64_of_lt hlt, hns, timespec.mk.injEq]
  simp only [OS_SYS_NS_PER_SECOND, LOSCFG_BASE_CORE_TICK_PER_SECOND]
  constructor <;> omega

/-- `OsTick2TimeSpec` writes a valid `timespec`. -/
theorem ValidTimeSpec_OsTick2TimeSpec {tick : Nat} (h : tick < 2 ^ 32) :
    ValidTimeSpec (OsTick2TimeSpec tick) = true := by
  rw [OsTick2TimeSpec_eq h, ValidTimeSpec_iff]
  simp only [OS_SYS_NS_PER_SECOND, LOSCFG_BASE_CORE_TICK_PER_SECOND]
  omega

/-- A tick count converted to a `timespec` and back is itself. -/
theorem OsTimeSpec2Tick_OsTick2TimeSpec {tick : Nat} (h : tick < 2 ^ 32) :
    OsTimeSpec2Tick (OsTick2TimeSpec tick) = tick := by
  -- the span is `tick * 10 ^ 9` nanoseconds times the rate: no wrap
  have hspan : (tick / LOSCFG_BASE_CORE_TICK_PER_SECOND * OS_SYS_NS_PER_SECOND +
      tick % LOSCFG_BASE_CORE_TICK_PER_SECOND * 1000000) * LOSCFG_BASE_CORE_TICK_PER_SECOND =
        tick * OS_SYS_NS_PER_SECOND := by
    simp only [OS_SYS_NS_PER_SECOND, LOSCFG_BASE_CORE_TICK_PER_SECOND]; omega
  have hfit : tick * OS_SYS_NS_PER_SECOND + (OS_SYS_NS_PER_SECOND - 1) < 2 ^ 64 := by
    simp only [OS_SYS_NS_PER_SECOND]; norm_num; linarith
  rw [OsTick2TimeSpec_eq h, OsTimeSpec2Tick_natCast (by rw [hspan]; exact hfit)]
  simp only [ticksOfTimeSpec, Int.toNat_natCast, ceilDiv_ns, hspan]
  simp only [OS_SYS_NS_PER_SECOND, LOS_WAIT_FOREVER]
  omega

-- ============================================================ past the wrap

/-- A valid `timespec` of 18446745 seconds, some 213 days, converts to
927 ticks where its span is past `LOS_WAIT_FOREVER`, and the largest
`UINT64` count of microseconds converts to no tick at all. -/
theorem time_to_tick_wraps :
    ValidTimeSpec ⟨18446745, 0⟩ = true ∧ OsTimeSpec2Tick ⟨18446745, 0⟩ = 927 ∧
      ticksOfTimeSpec ⟨18446745, 0⟩ = LOS_WAIT_FOREVER ∧
      OsUS2Tick (2 ^ 64 - 1) = 0 ∧ ticksOfMicrosec (2 ^ 64 - 1) = OS_MAX_VALUE :=
  ⟨by decide, by decide, by decide, by decide, by decide⟩

end LiteOsA.Time
