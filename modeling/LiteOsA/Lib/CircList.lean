/-
Circular doubly linked lists threaded through memory, with links that
may be null.

Every node has a `next` and a `prev` link (`Links`), `none` standing for
a null link. `Links.Link l u v` says that `u` and `v` are linked both
ways: `u`'s `next` is `v` and `v`'s `prev` is `u`. A stretch of a list is
a chain of such pairs (Mathlib's `List.IsChain`), and `Circ l s xs` is a
whole circular list: from `s` through the nodes of `xs`, in order, and
back to `s`. A list with a sentinel is a `Circ` at the sentinel; a ring
of nodes with no sentinel is a `Circ` at any node of it, the others
after it (`Circ.rotate`).

A ring reads only the links of its own nodes (`Circ.congr`), so an edit
elsewhere leaves it as it was. The edits themselves are the client's:
its own link writes, stated through `setNext` and `setPrev`.
-/
import Mathlib.Data.List.Chain
import Mathlib.Logic.Function.Basic

variable {α : Type _}

/-- The `next` and `prev` links of every node; `none` is a null link. -/
structure Links (α : Type _) where
  next : α → Option α
  prev : α → Option α

namespace Links

/-- `u` and `v` are linked both ways: `u.next = v` and `v.prev = u`. -/
def Link (l : Links α) (u v : α) : Prop := l.next u = some v ∧ l.prev v = some u

instance [DecidableEq α] (l : Links α) : DecidableRel l.Link :=
  fun u v => inferInstanceAs (Decidable (l.next u = some v ∧ l.prev v = some u))

variable [DecidableEq α]

/-- Write the `next` link of `x`. -/
def setNext (l : Links α) (x : α) (v : Option α) : Links α := { l with next := Function.update l.next x v }

/-- Write the `prev` link of `x`. -/
def setPrev (l : Links α) (x : α) (v : Option α) : Links α := { l with prev := Function.update l.prev x v }

variable (l : Links α) (x y : α) (v : Option α)

@[simp] theorem setNext_next : (l.setNext x v).next y = if y = x then v else l.next y :=
  Function.update_apply _ _ _ _

@[simp] theorem setNext_prev : (l.setNext x v).prev = l.prev := rfl

@[simp] theorem setPrev_prev : (l.setPrev x v).prev y = if y = x then v else l.prev y :=
  Function.update_apply _ _ _ _

@[simp] theorem setPrev_next : (l.setPrev x v).next = l.next := rfl

end Links

/-- A circular list: from `s` through the nodes of `xs` and back to `s`. -/
def Circ (l : Links α) (s : α) (xs : List α) : Prop := (s :: xs ++ [s]).IsChain l.Link

instance Circ.decidable [DecidableEq α] (l : Links α) (s : α) (xs : List α) : Decidable (Circ l s xs) :=
  inferInstanceAs (Decidable ((s :: xs ++ [s]).IsChain l.Link))

namespace Circ

variable {l l' : Links α} {s x : α} {xs xs₁ xs₂ : List α}

/-- A ring of one node links it to itself. -/
@[simp] theorem nil_iff : Circ l s [] ↔ l.next s = some s ∧ l.prev s = some s := by
  simp [Circ, Links.Link]

/-- A ring read from its second node: the first goes to the end. -/
theorem rotate : Circ l s (x :: xs) ↔ Circ l x (xs ++ [s]) := by
  have hlast : (x :: (xs ++ [s])).getLast? = some s := by
    rw [List.getLast?_eq_some_getLast (by simp)]; simp
  unfold Circ
  rw [List.cons_append, List.cons_append, List.isChain_cons_cons, List.isChain_append, hlast]
  simp [and_comm]

/-- The first node of the ring is linked to the start, both ways. -/
theorem link_head (h : Circ l s (x :: xs)) : l.Link s x :=
  (List.isChain_cons_cons.mp h).1

/-- The last node of the ring is linked to the start, both ways. -/
theorem link_last (h : Circ l s (xs ++ [x])) : l.Link x s := by
  unfold Circ at h
  rw [List.cons_append, List.append_assoc, ← List.cons_append, List.singleton_append,
    List.isChain_append_cons_cons] at h
  exact h.2.1

/-- The start of a ring has both links. -/
theorem isSome_next_prev (h : Circ l s xs) : (l.next s).isSome ∧ (l.prev s).isSome := by
  rcases List.eq_nil_or_concat' xs with rfl | ⟨ys, y, rfl⟩
  · simp [nil_iff.mp h]
  · have hlast := link_last h
    cases ys with
    | nil => simp [(link_head h).1, hlast.2]
    | cons z zs =>
      have hhead : l.Link s z := link_head (show Circ l s (z :: (zs ++ [y])) from h)
      simp [hhead.1, hlast.2]

/-- A ring reads only the links of its own nodes: another `Links` that
agrees with `l` there holds the same ring. -/
theorem congr (h : Circ l s xs)
    (hnext : ∀ a ∈ s :: xs, l'.next a = l.next a) (hprev : ∀ a ∈ s :: xs, l'.prev a = l.prev a) :
    Circ l' s xs := by
  have hmem : ∀ a ∈ s :: xs ++ [s], a ∈ s :: xs := by simp +contextual [or_comm]
  refine h.imp_of_mem_imp fun a b ha hb hab => ?_
  exact ⟨(hnext a (hmem a ha)).trans hab.1, (hprev b (hmem b hb)).trans hab.2⟩

/-- A ring split at one of its nodes `x`: from `s` to `x`, and from `x`
back round to `s`. -/
theorem split : Circ l s (xs₁ ++ x :: xs₂) ↔
    (s :: xs₁ ++ [x]).IsChain l.Link ∧ (x :: xs₂ ++ [s]).IsChain l.Link := by
  simp only [Circ, List.cons_append, List.append_assoc]
  rw [← List.cons_append, List.isChain_split, List.cons_append]

/-- The neighbours of a node of the ring: the node before it, on the
stretch from `s`, and the node after it, on the way back to `s`. -/
theorem neighbours (h : Circ l s (xs₁ ++ x :: xs₂)) :
    ∃ u ∈ s :: xs₁, ∃ v ∈ xs₂ ++ [s], l.Link u x ∧ l.Link x v := by
  obtain ⟨h₁, h₂⟩ := split.mp h
  rw [List.isChain_append] at h₁
  rw [List.cons_append, ← List.singleton_append, List.isChain_append] at h₂
  have hu := List.getLast?_eq_some_getLast (List.cons_ne_nil s xs₁)
  have hv := List.head?_eq_some_head (List.append_ne_nil_of_right_ne_nil xs₂ (List.cons_ne_nil s []))
  exact ⟨_, List.mem_of_getLast? hu, _, List.mem_of_head? hv,
    h₁.2.2 _ hu x (by simp), h₂.2.2 x (by simp) _ hv⟩

/-- A stretch of the ring that does not pass through `x` keeps its links
in any `Links` that leaves alone the `next` of its nodes not pointing at
`x` and the `prev` of its nodes not pointing back at `x`. -/
theorem isChain_avoid {L ys : List α} (hL : L.IsChain l.Link) (hsub : ∀ a ∈ L, a ∈ ys) (hx : x ∉ ys)
    (hnext : ∀ a ∈ ys, l.next a ≠ some x → l'.next a = l.next a)
    (hprev : ∀ a ∈ ys, l.prev a ≠ some x → l'.prev a = l.prev a) : L.IsChain l'.Link := by
  refine hL.imp_of_mem_imp fun a b ha hb hab => ⟨?_, ?_⟩
  · -- `a` points at `b`, a node of the stretch, hence not at `x`
    have hne : l.next a ≠ some x := by
      rw [hab.1]; exact fun he => hx (Option.some_inj.mp he ▸ hsub b hb)
    rw [hnext a (hsub a ha) hne, hab.1]
  · have hne : l.prev b ≠ some x := by
      rw [hab.2]; exact fun he => hx (Option.some_inj.mp he ▸ hsub a ha)
    rw [hprev b (hsub b hb) hne, hab.2]

/-- Unlinking `x` from a ring: if the new links join `x`'s two
neighbours and leave the other links of the ring's nodes as they were,
the ring without `x` remains. -/
theorem unlink (h : Circ l s (xs₁ ++ x :: xs₂)) (hx : x ∉ s :: (xs₁ ++ xs₂))
    (hlink : ∀ u v, l.Link u x → l.Link x v → l'.Link u v)
    (hnext : ∀ a ∈ s :: (xs₁ ++ xs₂), l.next a ≠ some x → l'.next a = l.next a)
    (hprev : ∀ a ∈ s :: (xs₁ ++ xs₂), l.prev a ≠ some x → l'.prev a = l.prev a) :
    Circ l' s (xs₁ ++ xs₂) := by
  obtain ⟨h₁, h₂⟩ := split.mp h
  rw [List.isChain_append] at h₁
  rw [List.cons_append, ← List.singleton_append, List.isChain_append] at h₂
  simp only [Circ, List.cons_append, List.append_assoc]
  rw [← List.cons_append, List.isChain_append]
  refine ⟨isChain_avoid h₁.1 ?_ hx hnext hprev, isChain_avoid h₂.2.1 ?_ hx hnext hprev, ?_⟩
  · intro a ha; simp only [List.mem_cons, List.mem_append] at ha ⊢; tauto
  · intro a ha; simp only [List.mem_cons, List.mem_append] at ha ⊢; tauto
  · -- the two neighbours of `x` are now linked to each other
    intro u hu v hv
    exact hlink u v (h₁.2.2 u hu x (by simp)) (h₂.2.2 x (by simp) v hv)

end Circ
