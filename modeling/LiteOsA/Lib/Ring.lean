/-
Ring buffers: a sequence laid out in `n` cells from a start index,
wrapping at the end.

`RingHolds mem n start S` says that cell `(start + k) % n` of `mem`
holds the `k`th element of `S`. The queue and the circular byte buffer
keep their contents this way, each with its own indices. The lemmas are
what their operations do: write one element after the last
(`push_back`), write one before the first and move the start back
(`push_front`), read the first and move the start on (`pop_front`).
The code moves an index by comparing with the bound rather than by
`%`; `next_eq_mod` and `prev_eq_mod` say the two agree.

A byte buffer copies a block at a time (`copyBlock`): `append_block`
writes `k` elements after the last in one copy that does not pass the
end of the cells, and `drop` moves the start past elements read.
-/
import Mathlib.Data.Nat.ModEq
import Mathlib.Logic.Function.Basic

variable {α : Type _}

/-- `mem` with the `count` cells from `dest` taken from those from `src`
of `sm`. -/
def copyBlock (mem : Nat → α) (dest : Nat) (sm : Nat → α) (src count : Nat) : Nat → α :=
  fun a => if dest ≤ a ∧ a < dest + count then sm (src + (a - dest)) else mem a

section copyBlock

variable {mem sm : Nat → α} {dest src count : Nat}

theorem copyBlock_add {j : Nat} (hj : j < count) :
    copyBlock mem dest sm src count (dest + j) = sm (src + j) := by
  simp [copyBlock, hj]

theorem copyBlock_of_lt {a : Nat} (ha : a < dest) : copyBlock mem dest sm src count a = mem a := by
  simp [copyBlock, Nat.not_le.2 ha]

theorem copyBlock_of_le {a : Nat} (ha : dest + count ≤ a) :
    copyBlock mem dest sm src count a = mem a := by
  simp [copyBlock, Nat.not_lt.2 ha]

end copyBlock

/-- `mem` holds `S` in the ring of `n` cells from `start`. -/
def RingHolds (mem : Nat → α) (n start : Nat) (S : List α) : Prop :=
  ∀ k (hk : k < S.length), mem ((start + k) % n) = S[k]

namespace RingHolds

variable {mem : Nat → α} {n start : Nat} {S : List α} {a : α}

/-- Two offsets less than a turn apart name different cells. -/
theorem mod_ne {k j : Nat} (hkj : k < j) (hj : j < k + n) (x : Nat) :
    (x + k) % n ≠ (x + j) % n := by
  intro heq
  have hmod : k ≡ j [MOD n] := Nat.ModEq.add_left_cancel' x heq
  have hdvd : n ∣ j - k := (Nat.modEq_iff_dvd' hkj.le).1 hmod
  have hpos : 0 < j - k := by omega
  have hle := Nat.le_of_dvd hpos hdvd
  omega

/-- The index after `i`, as the code moves it. -/
theorem next_eq_mod {i : Nat} (hi : i < n) : (if i + 1 = n then 0 else i + 1) = (i + 1) % n := by
  split_ifs with h
  · rw [h, Nat.mod_self]
  · rw [Nat.mod_eq_of_lt (by omega)]

/-- The index before `i`, as the code moves it. -/
theorem prev_eq_mod {i : Nat} (hi : i < n) :
    (if i = 0 then n - 1 else i - 1) = (i + (n - 1)) % n := by
  split_ifs with h
  · rw [h, Nat.zero_add, Nat.mod_eq_of_lt (by omega)]
  · rw [show i + (n - 1) = i - 1 + n by omega, Nat.add_mod_right, Nat.mod_eq_of_lt (by omega)]

theorem nil : RingHolds mem n start ([] : List α) := fun _ hk => absurd hk (Nat.not_lt_zero _)

/-- Cells the sequence does not use may change. -/
theorem congr {mem' : Nat → α} (h : RingHolds mem n start S)
    (hmem : ∀ k, k < S.length → mem' ((start + k) % n) = mem ((start + k) % n)) :
    RingHolds mem' n start S := fun k hk => (hmem k hk).trans (h k hk)

/-- The start is only ever read modulo `n`. -/
theorem mod_start (h : RingHolds mem n start S) : RingHolds mem n (start % n) S := by
  intro k hk
  rw [Nat.mod_add_mod]
  exact h k hk

/-- Write after the last element, in a ring with room for it. -/
theorem push_back (h : RingHolds mem n start S) (hlen : S.length < n) (a : α) :
    RingHolds (Function.update mem ((start + S.length) % n) a) n start (S ++ [a]) := by
  intro k hk
  rw [List.length_append, List.length_singleton] at hk
  rcases Nat.lt_succ_iff_lt_or_eq.1 hk with hk | rfl
  · rw [Function.update_of_ne (mod_ne hk (by omega) start), List.getElem_append_left hk]
    exact h k hk
  · rw [Function.update_self, List.getElem_append_right (Nat.le_refl _)]
    simp

/-- Write before the first element and move the start back one cell. -/
theorem push_front (h : RingHolds mem n start S) (hlen : S.length < n) (a : α) :
    RingHolds (Function.update mem ((start + (n - 1)) % n) a) n ((start + (n - 1)) % n) (a :: S) := by
  intro k hk
  cases k with
  | zero =>
    rw [Nat.add_zero, Nat.mod_mod, Function.update_self]
    rfl
  | succ k =>
    have hk' : k < S.length := by simpa using hk
    -- one cell back and `k + 1` on is `k` on from the old start
    have hcell : ((start + (n - 1)) % n + (k + 1)) % n = (start + k) % n := by
      rw [Nat.mod_add_mod, show start + (n - 1) + (k + 1) = start + k + n by omega,
        Nat.add_mod_right]
    rw [hcell, Function.update_of_ne (mod_ne (by omega) (by omega) start)]
    exact h k hk'

/-- The first element is at the start, and the rest follows the next cell. -/
theorem pop_front (h : RingHolds mem n start (a :: S)) :
    mem (start % n) = a ∧ RingHolds mem n ((start + 1) % n) S := by
  constructor
  · have h0 := h 0 (by simp)
    rwa [Nat.add_zero] at h0
  · intro k hk
    rw [Nat.mod_add_mod, show start + 1 + k = start + (k + 1) by omega]
    exact h (k + 1) (by simpa using hk)

/-- Copy `k` elements after the last in one block, in a ring with room
for them, where the block does not pass the end of the cells. -/
theorem append_block {k : Nat} (h : RingHolds mem n start S) (hroom : S.length + k ≤ n)
    (hend : (start + S.length) % n + k ≤ n) (sm : Nat → α) (src : Nat) :
    RingHolds (copyBlock mem ((start + S.length) % n) sm src k) n start
      (S ++ (List.range k).map fun j => sm (src + j)) := by
  intro i hi
  rw [List.length_append, List.length_map, List.length_range] at hi
  -- the cell of offset `S.length + t` is `t` cells into the block
  have hcell : ∀ t, t < k → (start + (S.length + t)) % n = (start + S.length) % n + t := by
    intro t ht
    rw [← Nat.add_assoc, ← Nat.mod_add_mod, Nat.mod_eq_of_lt (by omega)]
  by_cases hlt : i < S.length
  · -- an old element: its cell is outside the block
    rw [List.getElem_append_left hlt, ← h i hlt]
    refine if_neg fun ⟨hlo, hhi⟩ => ?_
    obtain ⟨t, ht, hc⟩ : ∃ t, t < k ∧ (start + i) % n = (start + S.length) % n + t :=
      ⟨(start + i) % n - (start + S.length) % n, by omega, by omega⟩
    exact mod_ne (show i < S.length + t by omega) (by omega) start (hc.trans (hcell t ht).symm)
  · -- a new element: `t` cells into the block
    obtain ⟨t, rfl⟩ : ∃ t, i = S.length + t := ⟨i - S.length, by omega⟩
    rw [List.getElem_append_right (by omega), hcell t (by omega), copyBlock_add (by omega)]
    simp

/-- Dropping `k` elements from the front moves the start `k` cells on. -/
theorem drop (h : RingHolds mem n start S) (k : Nat) : RingHolds mem n (start + k) (S.drop k) := by
  intro j hj
  rw [List.length_drop] at hj
  rw [List.getElem_drop, Nat.add_assoc]
  exact h (k + j) (by omega)

end RingHolds
