/-
The first hit of a search in increasing order.

A search that visits the indices of a set `S` from the smallest up and
stops at the first index where `f` answers returns what `FirstSome S f`
describes: the answer at an index of `S` below which `f` answers
nowhere in `S`, or `none` when `f` answers nowhere in `S`. The search
itself may be written any way at all (a loop over a bitmap, a list, a
recursion); its spec lemma says only that its result is a `FirstSome`.

Indices of `S` where `f` does not answer may be added or taken away
(`of_none_insert`, `mono`), and a search of searches, the outer one over
`S` and the inner one at `i` over `T i`, finds the first hit in the
lexicographic order of the pairs (`lex_some`, `lex_none`).
-/
import Mathlib.Order.Lattice

variable {ι κ β : Type _} [LinearOrder ι] [LinearOrder κ]

/-- `r` is the first answer of `f` over `S` in increasing order. -/
def FirstSome (S : ι → Prop) (f : ι → Option β) : Option β → Prop
  | some b => ∃ i, S i ∧ f i = some b ∧ ∀ j < i, S j → f j = none
  | none => ∀ i, S i → f i = none

namespace FirstSome

section Sets

variable {S S' : ι → Prop} {f : ι → Option β}

/-- An index where `f` does not answer changes nothing. -/
theorem of_none_insert {i₀ : ι} (h₀ : f i₀ = none) {r : Option β} (h : FirstSome S f r) :
    FirstSome (fun i => i = i₀ ∨ S i) f r := by
  cases r with
  | none =>
    rintro i (rfl | hi)
    · exact h₀
    · exact h i hi
  | some b =>
    obtain ⟨i, hi, hb, hbelow⟩ := h
    refine ⟨i, Or.inr hi, hb, ?_⟩
    rintro j hj (rfl | hjS)
    · exact h₀
    · exact hbelow j hj hjS

/-- Indices added where `f` does not answer change nothing. -/
theorem mono (hsub : ∀ i, S i → S' i) (hout : ∀ i, S' i → ¬S i → f i = none) {r : Option β}
    (h : FirstSome S f r) : FirstSome S' f r := by
  cases r with
  | none =>
    intro i hi
    by_cases hS : S i
    · exact h i hS
    · exact hout i hi hS
  | some b =>
    obtain ⟨i, hi, hb, hbelow⟩ := h
    refine ⟨i, hsub i hi, hb, fun j hj hjS' => ?_⟩
    by_cases hS : S j
    · exact hbelow j hj hS
    · exact hout j hjS' hS

theorem congr (hS : ∀ i, S i ↔ S' i) {r : Option β} (h : FirstSome S f r) : FirstSome S' f r :=
  mono (fun i => (hS i).1) (fun i hi hn => absurd ((hS i).2 hi) hn) h

end Sets

section Lex

variable {S : ι → Prop} {T : ι → κ → Prop} {f : ι → κ → Option β} {g : ι → Option β}

/-- The outer search found `b`: at the first pair, in the lexicographic
order, where the inner search answers. -/
theorem lex_some (hg : ∀ i, S i → FirstSome (T i) (f i) (g i)) {b : β}
    (h : FirstSome S g (some b)) :
    ∃ i j, S i ∧ T i j ∧ f i j = some b ∧
      ∀ i' j', S i' → T i' j' → i' < i ∨ (i' = i ∧ j' < j) → f i' j' = none := by
  obtain ⟨i, hi, hgi, hbelow⟩ := h
  have hinner := hg i hi
  rw [hgi] at hinner
  obtain ⟨j, hj, hb, hjbelow⟩ := hinner
  refine ⟨i, j, hi, hj, hb, fun i' j' hi' hj' hlt => ?_⟩
  rcases hlt with hlt | ⟨rfl, hlt⟩
  · -- an earlier outer index: its whole inner search came back empty
    have hnone := hg i' hi'
    rw [hbelow i' hlt hi'] at hnone
    exact hnone j' hj'
  · exact hjbelow j' hlt hj'

/-- The outer search found nothing: no inner search answers anywhere. -/
theorem lex_none (hg : ∀ i, S i → FirstSome (T i) (f i) (g i)) (h : FirstSome S g none) :
    ∀ i j, S i → T i j → f i j = none := by
  intro i j hi hj
  have hinner := hg i hi
  rw [h i hi] at hinner
  exact hinner j hj

end Lex

end FirstSome
