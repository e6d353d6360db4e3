/-
Reachable states of a transition system, and the one induction that
every run invariant of this development goes through.

A component is a step relation `next : σ → σ → Prop` over its states
together with the predicate `init` naming the states it starts in.
`Reach init next` is the least set that holds the initial states and is
closed under `next`. A property of every reachable state is then proved
once, by `Reach.inv`: it holds of every initial state and one step
keeps it. `Reach.inv_of` is the strengthening form, for invariants
that only go through together with a stronger companion.
-/
import Mathlib.Logic.Basic

/-- The states reachable from `init` by steps of `next`. -/
inductive Reach {σ : Type _} (init : σ → Prop) (next : σ → σ → Prop) : σ → Prop
  | init {s : σ} : init s → Reach init next s
  | step {s s' : σ} : Reach init next s → next s s' → Reach init next s'

namespace Reach

variable {σ : Type _} {init : σ → Prop} {next : σ → σ → Prop}

/-- The invariant rule: what holds initially and survives one step holds
at every reachable state. -/
theorem inv (I : σ → Prop) (h₀ : ∀ s, init s → I s)
    (h₁ : ∀ s s', I s → next s s' → I s') {s : σ} (hs : Reach init next s) :
    I s := by
  induction hs with
  | init hi => exact h₀ _ hi
  | step _ hn ih => exact h₁ _ _ ih hn

/-- The invariant rule with reachability in the step premise: the step
may use every fact already known of reachable states. -/
theorem inv_of (I : σ → Prop) (h₀ : ∀ s, init s → I s)
    (h₁ : ∀ s s', Reach init next s → I s → next s s' → I s') {s : σ}
    (hs : Reach init next s) : I s := by
  induction hs with
  | init hi => exact h₀ _ hi
  | step hr hn ih => exact h₁ _ _ hr ih hn

/-- A step relation that is contained in another reaches no more. -/
theorem mono {next' : σ → σ → Prop} (hsub : ∀ s s', next s s' → next' s s')
    {s : σ} (hs : Reach init next s) : Reach init next' s := by
  induction hs with
  | init hi => exact .init hi
  | step _ hn ih => exact .step ih (hsub _ _ hn)

end Reach
