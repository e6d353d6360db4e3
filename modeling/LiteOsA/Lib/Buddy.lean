/-
Buddy blocks of the number line.

A block `(a, k)` is the run of `2 ^ k` numbers from `a`; it is aligned
when `2 ^ k ∣ a`. The buddy of an aligned block is the block of the
same order whose start differs from `a` in bit `k` alone, `a ^^^ 2 ^ k`:
the two halves of the aligned block of order `k + 1` that holds both,
whose start is `a` with its low `k + 1` bits cleared (`buddy_cases`,
`range'_merge_perm`).

Two aligned blocks that meet are nested (`aligned_nested`). And a
family of aligned blocks with no two buddies of an order below `L`
is as merged as it can be: an aligned run of order at most `L` that
the family covers lies inside one of its blocks (`covered_inside`).
That is why a buddy allocator that merges on every free finds any
aligned run that is free.

An allocator keeps its blocks on one list per order; `tagged L n` reads
the lists of orders below `n` as one list of blocks, and replacing one
list changes it by the entries that list gains and loses
(`tagged_update_perm`).
-/
import Mathlib.Data.List.Perm.Basic
import Mathlib.Data.Nat.Bitwise
import Mathlib.Tactic.Ring

namespace Buddy

-- ============================================================ one block and its buddy

/-- Flipping bit `0` moves an even number up and an odd one down. -/
theorem xor_one_eq (m : Nat) : m ^^^ 1 = if m % 2 = 0 then m + 1 else m - 1 := by
  have hdiv : (m ^^^ 1) / 2 = m / 2 := by
    rw [Nat.xor_div_two]
    simp
  have hmod : (m ^^^ 1) % 2 = 1 - m % 2 := by
    have := Nat.mod_two_eq_zero_or_one m
    rcases this with h | h
    · have h1 : (m ^^^ 1) % 2 = 1 := by
        rw [Nat.xor_mod_two_eq_one]
        omega
      omega
    · have h1 : ¬ (m ^^^ 1) % 2 = 1 := by
        rw [Nat.xor_mod_two_eq_one]
        omega
      omega
  have hm := Nat.div_add_mod m 2
  have hx := Nat.div_add_mod (m ^^^ 1) 2
  split_ifs with h <;> omega

/-- The buddy of a multiple of `2 ^ k`, read off its quotient. -/
theorem two_pow_mul_xor (k m : Nat) : (2 ^ k * m) ^^^ 2 ^ k = 2 ^ k * (m ^^^ 1) := by
  have h := @Nat.shiftLeft_xor_distrib k m 1
  rw [Nat.shiftLeft_eq, Nat.shiftLeft_eq, Nat.shiftLeft_eq, Nat.one_mul] at h
  rw [Nat.mul_comm (2 ^ k) m, Nat.mul_comm (2 ^ k) (m ^^^ 1)]
  exact h.symm

/-- An aligned block is the lower or the upper half of the block of the
next order that holds it; its buddy is the other half, and that block
starts at the number with its low `k + 1` bits cleared. -/
theorem buddy_cases {a k : Nat} (h : 2 ^ k ∣ a) :
    (a ^^^ 2 ^ k = a + 2 ^ k ∧ a / 2 ^ (k + 1) * 2 ^ (k + 1) = a) ∨
      ((a ^^^ 2 ^ k) + 2 ^ k = a ∧ a / 2 ^ (k + 1) * 2 ^ (k + 1) = a ^^^ 2 ^ k) := by
  obtain ⟨m, rfl⟩ := h
  have hpos : 0 < 2 ^ k := Nat.two_pow_pos k
  have hsucc : 2 ^ (k + 1) = 2 ^ k * 2 := Nat.pow_succ 2 k
  rw [two_pow_mul_xor, xor_one_eq, hsucc]
  -- the quotient by the next power is the quotient of `m` by two
  obtain ⟨q, rfl | rfl⟩ := Nat.even_or_odd' m
  · -- `m` even: the block is the lower half
    left
    have hq : 2 ^ k * (2 * q) / (2 ^ k * 2) = q := by
      rw [show 2 ^ k * (2 * q) = q * (2 ^ k * 2) by ring, Nat.mul_div_cancel _ (by omega)]
    rw [if_pos (by omega), hq]
    constructor <;> ring
  · -- `m` odd: the upper half
    right
    have hq : 2 ^ k * (2 * q + 1) / (2 ^ k * 2) = q := by
      rw [← Nat.div_div_eq_div_mul, Nat.mul_div_cancel_left _ hpos]
      omega
    rw [if_neg (by omega), hq, show 2 * q + 1 - 1 = 2 * q by omega]
    constructor <;> ring

/-- The buddy of an aligned block is aligned to the same order. -/
theorem dvd_xor_two_pow {a k : Nat} (h : 2 ^ k ∣ a) : 2 ^ k ∣ a ^^^ 2 ^ k := by
  obtain ⟨m, rfl⟩ := h
  rw [two_pow_mul_xor]
  exact Nat.dvd_mul_right _ _

/-- The block of the next order that holds an aligned block is aligned
to that order. -/
theorem dvd_merge (a k : Nat) : 2 ^ (k + 1) ∣ a / 2 ^ (k + 1) * 2 ^ (k + 1) :=
  Nat.dvd_mul_left _ _

/-- The block of the next order holds the block and its buddy. -/
theorem range'_merge_perm {a k : Nat} (h : 2 ^ k ∣ a) :
    List.Perm (List.range' (a / 2 ^ (k + 1) * 2 ^ (k + 1)) (2 ^ (k + 1)))
      (List.range' a (2 ^ k) ++ List.range' (a ^^^ 2 ^ k) (2 ^ k)) := by
  have hsucc : 2 ^ (k + 1) = 2 ^ k + 2 ^ k := by rw [Nat.pow_succ]; omega
  rcases buddy_cases h with ⟨hb, hm⟩ | ⟨hb, hm⟩
  · rw [hm, hb, hsucc, List.range'_append_1]
  · rw [hm, hsucc, ← List.range'_append_1, hb]
    exact List.perm_append_comm

-- ============================================================ aligned blocks meet nested

/-- Between two multiples of `2 ^ i` there is room for a block of order `i`. -/
theorem add_le_of_dvd_of_lt {i a c : Nat} (ha : 2 ^ i ∣ a) (hc : 2 ^ i ∣ c) (hlt : a < c) :
    a + 2 ^ i ≤ c := by
  obtain ⟨x, rfl⟩ := ha
  obtain ⟨y, rfl⟩ := hc
  have hxy : x < y := Nat.lt_of_mul_lt_mul_left hlt
  calc 2 ^ i * x + 2 ^ i = 2 ^ i * (x + 1) := by rw [Nat.mul_add_one]
    _ ≤ 2 ^ i * y := Nat.mul_le_mul_left _ hxy

/-- A block of order `i` aligned to `2 ^ i` that starts before the end
of a block of order `j ≥ i` aligned to `2 ^ j` ends before it too. -/
theorem aligned_nested {a b i j : Nat} (ha : 2 ^ i ∣ a) (hb : 2 ^ j ∣ b) (hij : i ≤ j)
    (hhi : a < b + 2 ^ j) : a + 2 ^ i ≤ b + 2 ^ j := by
  have hdvd : 2 ^ i ∣ 2 ^ j := Nat.pow_dvd_pow 2 hij
  exact add_le_of_dvd_of_lt ha (Nat.dvd_add (Nat.dvd_trans hdvd hb) hdvd) hhi

-- ============================================================ a merged family

section Merged

variable (bs : List (Nat × Nat)) (L : Nat)

/-- `x` lies in a block of the family. -/
def Covered (x : Nat) : Prop := ∃ b ∈ bs, b.1 ≤ x ∧ x < b.1 + 2 ^ b.2

/-- Every block of the family is aligned, and none has its buddy in the
family at an order below `L`. -/
structure Merged : Prop where
  aligned : ∀ b ∈ bs, 2 ^ b.2 ∣ b.1
  no_buddy : ∀ b ∈ bs, b.2 < L → (b.1 ^^^ 2 ^ b.2, b.2) ∉ bs

variable {bs L}

/-- A block of the family that holds an aligned run no longer than it
starts at the run and has its order. -/
theorem eq_of_holds_of_le {b : Nat × Nat} {a j : Nat} (hlo : b.1 ≤ a) (hhi : a + 2 ^ j ≤ b.1 + 2 ^ b.2)
    (hle : b.2 ≤ j) : b = (a, j) := by
  have hpow : 2 ^ b.2 ≤ 2 ^ j := Nat.pow_le_pow_right (by decide) hle
  have hstart : b.1 = a := by omega
  have hord : b.2 = j := by
    have : 2 ^ j ≤ 2 ^ b.2 := by omega
    exact le_antisymm hle ((Nat.pow_le_pow_iff_right (by decide)).mp this)
  exact Prod.ext hstart hord

/-- In a merged family, an aligned run of order at most `L` whose every
number is covered lies inside one block: by induction on the order,
its two halves lie in blocks, and were both of them its halves exactly,
they would be buddies of an order below `L`. -/
theorem covered_inside (hm : Merged bs L) :
    ∀ j a, j ≤ L → 2 ^ j ∣ a → (∀ x, a ≤ x → x < a + 2 ^ j → Covered bs x) →
      ∃ b ∈ bs, b.1 ≤ a ∧ a + 2 ^ j ≤ b.1 + 2 ^ b.2 := by
  intro j
  induction j with
  | zero =>
    intro a _ _ hcov
    obtain ⟨b, hb, hlo, hhi⟩ := hcov a le_rfl (by simp)
    refine ⟨b, hb, hlo, ?_⟩
    rw [Nat.pow_zero]
    omega
  | succ j ih =>
    intro a hjL hal hcov
    have hpj : 0 < 2 ^ j := Nat.two_pow_pos j
    have hsucc : 2 ^ (j + 1) = 2 ^ j + 2 ^ j := by rw [Nat.pow_succ]; omega
    have hal₁ : 2 ^ j ∣ a := Nat.dvd_trans (Nat.pow_dvd_pow 2 (Nat.le_succ j)) hal
    have hal₂ : 2 ^ j ∣ a + 2 ^ j := Nat.dvd_add hal₁ (Nat.dvd_refl _)
    -- the two halves each lie in a block
    obtain ⟨b₁, hb₁, hlo₁, hhi₁⟩ := ih a (by omega) hal₁ fun x hx hx' => hcov x hx (by omega)
    obtain ⟨b₂, hb₂, hlo₂, hhi₂⟩ := ih (a + 2 ^ j) (by omega) hal₂ fun x hx hx' => hcov x (by omega) (by omega)
    by_cases h₁ : j + 1 ≤ b₁.2
    · -- the lower half's block reaches the next order: it holds the run
      exact ⟨b₁, hb₁, hlo₁, aligned_nested hal (hm.aligned b₁ hb₁) h₁ (by omega)⟩
    by_cases h₂ : j + 1 ≤ b₂.2
    · -- so does the upper half's, which then starts at or below `a`
      have hb₂al : 2 ^ (j + 1) ∣ b₂.1 :=
        Nat.dvd_trans (Nat.pow_dvd_pow 2 h₂) (hm.aligned b₂ hb₂)
      have hlo : b₂.1 ≤ a := by
        by_contra hgt
        have := add_le_of_dvd_of_lt hal hb₂al (by omega)
        omega
      have hend : 2 ^ (j + 1) ∣ b₂.1 + 2 ^ b₂.2 :=
        Nat.dvd_add hb₂al (Nat.pow_dvd_pow 2 h₂)
      exact ⟨b₂, hb₂, hlo, add_le_of_dvd_of_lt hal hend (by omega)⟩
    · -- both halves are blocks of order `j`, buddies below `L`
      have he₁ : b₁ = (a, j) := eq_of_holds_of_le hlo₁ hhi₁ (by omega)
      have he₂ : b₂ = (a + 2 ^ j, j) := eq_of_holds_of_le hlo₂ hhi₂ (by omega)
      have hbuddy : a ^^^ 2 ^ j = a + 2 ^ j := by
        rcases buddy_cases hal₁ with ⟨hb, -⟩ | ⟨hb, hm'⟩
        · exact hb
        · -- `a` is aligned to the next order, so it is the lower half
          have : a / 2 ^ (j + 1) * 2 ^ (j + 1) = a := Nat.div_mul_cancel hal
          omega
      have hnot := hm.no_buddy b₁ hb₁ (by rw [he₁]; omega)
      rw [he₁] at hnot
      exact absurd (he₂ ▸ hb₂) (by simpa [hbuddy] using hnot)

end Merged

-- ============================================================ one list per order

section Tagged

/-- The last two parts of a list swap places. -/
theorem perm_append_swap {α : Type*} (a b c : List α) : List.Perm (a ++ b ++ c) (a ++ c ++ b) := by
  rw [List.append_assoc, List.append_assoc]
  exact List.Perm.append_left _ List.perm_append_comm

variable {α : Type*} (L : Nat → List α)

/-- The entries of the lists of orders below `n`, each with its order,
order by order. -/
def tagged (n : Nat) : List (α × Nat) :=
  (List.range n).flatMap fun k => (L k).map (·, k)

variable {L}

@[simp] theorem mem_tagged {x : α} {k n : Nat} : (x, k) ∈ tagged L n ↔ k < n ∧ x ∈ L k := by
  simp [tagged, and_comm]

theorem tagged_succ (n : Nat) : tagged L (n + 1) = tagged L n ++ (L n).map (·, n) := by
  simp [tagged, List.range_succ]

/-- Replacing a list of an order at or past `n` leaves the entries below `n`. -/
theorem tagged_update_of_le {k n : Nat} (l : List α) (h : n ≤ k) :
    tagged (Function.update L k l) n = tagged L n := by
  induction n with
  | zero => rfl
  | succ n ih =>
    rw [tagged_succ, tagged_succ, ih (by omega), Function.update_of_ne (by omega)]

/-- Replacing the list of order `k < n` by `l`: the entries gain `l` and
lose the old list. -/
theorem tagged_update_perm {k n : Nat} (l : List α) (hk : k < n) :
    List.Perm (tagged (Function.update L k l) n ++ (L k).map (·, k)) (tagged L n ++ l.map (·, k)) := by
  induction n with
  | zero => omega
  | succ n ih =>
    rw [tagged_succ, tagged_succ]
    rcases Nat.lt_succ_iff_lt_or_eq.mp hk with hlt | rfl
    · -- the list replaced lies below the last order
      rw [Function.update_of_ne (by omega)]
      calc List.Perm _ (tagged (Function.update L k l) n ++ (L k).map (·, k) ++ (L n).map (·, n)) :=
            perm_append_swap _ _ _
        List.Perm _ (tagged L n ++ l.map (·, k) ++ (L n).map (·, n)) :=
            List.Perm.append_right _ (ih hlt)
        List.Perm _ (tagged L n ++ (L n).map (·, n) ++ l.map (·, k)) :=
            perm_append_swap _ _ _
    · -- the last order's list is the one replaced
      rw [Function.update_self, tagged_update_of_le l le_rfl]
      exact perm_append_swap _ _ _

/-- An entry appended to a list joins the entries. -/
theorem tagged_update_append {k n : Nat} (hk : k < n) (l : List α) :
    List.Perm (tagged (Function.update L k (L k ++ l)) n) (tagged L n ++ l.map (·, k)) := by
  have h := tagged_update_perm (L := L) (L k ++ l) hk
  rw [List.map_append, ← List.append_assoc] at h
  -- move the old list to the end on the right too, then cancel it
  exact (List.perm_append_right_iff _).mp (h.trans (perm_append_swap _ _ _))

/-- An entry erased from its list leaves the entries. -/
theorem tagged_update_erase [BEq α] [LawfulBEq α] {k n : Nat} {x : α} (hk : k < n) (hx : x ∈ L k) :
    List.Perm (tagged L n) (tagged (Function.update L k ((L k).erase x)) n ++ [(x, k)]) := by
  have h := tagged_update_perm (L := L) ((L k).erase x) hk
  have hmap : List.Perm ((L k).map (·, k)) ((x, k) :: ((L k).erase x).map (·, k)) := by
    simpa using (List.perm_cons_erase hx).map (·, k)
  -- both sides gain the erased list; cancel it
  have hgain : List.Perm (tagged L n ++ ((L k).erase x).map (·, k))
      (tagged (Function.update L k ((L k).erase x)) n ++ [(x, k)] ++ ((L k).erase x).map (·, k)) := by
    rw [List.append_assoc, List.singleton_append]
    exact h.symm.trans (List.Perm.append_left _ hmap)
  exact (List.perm_append_right_iff _).mp hgain

end Tagged

end Buddy
