/-
Labelled runs, and the conservation rule for them.

Where a property speaks of what the calls of a run returned (how many
posts succeeded, how many pends), the steps carry a label, the event
the tasks see. `Run next s l s'` goes from `s` to `s'` through the
events `l`, first to last. A run from an initial state ends in a
state that `Reach` reaches (`Run.reach`), so every invariant proved
through `Reach.inv` holds along it.

`Run.rel` carries a relation between a run's first and last states,
such as "no bit was gained", when each step makes it.

`Run.simulate` is the one induction behind every refinement: a step
matched by a step of an abstract machine with the same event makes
a run matched by an abstract run.

`Run.conserve` is the one induction behind every count equation: if
each step changes a quantity `Q` of the state by what its event adds
and takes, then over a run `Q` changes by the sums of those. Counting
the tasks in some state is the usual `Q`; `sum_update_add` says how
that count moves when one task's state is written.
-/
import LiteOsA.Lib.Reach
import Mathlib.Algebra.BigOperators.Group.Finset.Piecewise
import Mathlib.Data.Fintype.Card
import Mathlib.Algebra.GroupWithZero.Nat

/-- The runs of a labelled step relation, events first to last. -/
inductive Run {σ ε : Type _} (next : σ → ε → σ → Prop) : σ → List ε → σ → Prop
  | nil {s : σ} : Run next s [] s
  | snoc {s s' s'' : σ} {l : List ε} {e : ε} :
      Run next s l s' → next s' e s'' → Run next s (l ++ [e]) s''

namespace Run

variable {σ ε : Type _} {next : σ → ε → σ → Prop} {s s' : σ} {l : List ε}

/-- A run from an initial state ends in a reachable one. -/
theorem reach {init : σ → Prop} (hi : init s) (h : Run next s l s') :
    Reach init (fun s s' => ∃ e, next s e s') s' := by
  induction h with
  | nil => exact .init hi
  | snoc _ hn ih => exact .step ih ⟨_, hn⟩

/-- What one step keeps holds along a run. -/
theorem inv (I : σ → Prop) (hI : ∀ s e s', I s → next s e s' → I s') (h : Run next s l s')
    (hs : I s) : I s' := by
  induction h with
  | nil => exact hs
  | snoc _ hn ih => exact hI _ _ _ ih hn

/-- A reflexive and transitive relation that every step makes holds
between the two ends of a run. -/
theorem rel (R : σ → σ → Prop) (hrefl : ∀ s, R s s) (htrans : ∀ a b c, R a b → R b c → R a c)
    (hstep : ∀ s e s', next s e s' → R s s') (h : Run next s l s') : R s s' := by
  induction h with
  | nil => exact hrefl _
  | snoc _ hn ih => exact htrans _ _ _ ih (hstep _ _ _ hn)

/-- The conservation rule: a step under the invariant `I` adds `add e`
to `Q` and takes `take e` from it, so a run does the sums of those. -/
theorem conserve (I : σ → Prop) (Q : σ → Nat) (add take : ε → Nat)
    (hI : ∀ s e s', I s → next s e s' → I s')
    (hQ : ∀ s e s', I s → next s e s' → Q s + add e = Q s' + take e)
    (h : Run next s l s') (hs : I s) :
    Q s + (l.map add).sum = Q s' + (l.map take).sum := by
  induction h with
  | nil => simp
  | @snoc s₁ s₂ l e hrun hn ih =>
    -- the invariant at the start of the last step, for its count equation
    have hQe := hQ _ _ _ (hrun.inv I hI hs) hn
    simp only [List.map_append, List.sum_append, List.map_cons, List.map_nil, List.sum_cons,
      List.sum_nil]
    omega

/-- Forward simulation: if every step under the invariant `I` from a
state related to `a` by `R` is matched by a step of `anext` with the
same event, a run is matched by a run of `anext` through the same
events. -/
theorem simulate {α : Type _} {anext : α → ε → α → Prop} (I : σ → Prop) (R : σ → α → Prop)
    (hI : ∀ s e s', I s → next s e s' → I s')
    (hsim : ∀ s e s' a, I s → R s a → next s e s' → ∃ a', R s' a' ∧ anext a e a')
    (h : Run next s l s') (hs : I s) {a : α} (ha : R s a) :
    ∃ a', R s' a' ∧ Run anext a l a' := by
  induction h with
  | nil => exact ⟨a, ha, .nil⟩
  | @snoc s₁ s₂ l e hrun hn ih =>
    obtain ⟨a₁, hR₁, hrun₁⟩ := ih
    obtain ⟨a₂, hR₂, hstep⟩ := hsim _ _ _ _ (hrun.inv I hI hs) hR₁ hn
    exact ⟨a₂, hR₂, .snoc hrun₁ hstep⟩

end Run

section count

open Finset

variable {ι β : Type _} [Fintype ι] [DecidableEq ι]

/-- Writing `b` at `i` changes a sum over the points by the new value's
term against the old one's. -/
theorem sum_update_add (f : ι → β) (g : β → Nat) (i : ι) (b : β) :
    ∑ x, g (Function.update f i b x) + g (f i) = ∑ x, g (f x) + g b := by
  have h₁ : ∑ x, g (Function.update f i b x) = g b + ∑ x ∈ univ \ {i}, g (f x) := by
    rw [← sum_update_of_mem (mem_univ i) (fun x => g (f x)) (g b)]
    exact sum_congr rfl fun x _ => Function.apply_update (fun _ => g) f i b x
  have h₂ : ∑ x, g (f x) = g (f i) + ∑ x ∈ univ \ {i}, g (f x) :=
    sum_eq_add_sum_sdiff_singleton_of_mem (mem_univ i) _
  omega

end count
