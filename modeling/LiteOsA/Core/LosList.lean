/-
The kernel's doubly linked list (kernel/include/los_list.h), on links
that may be null.

A `LOS_DL_LIST` is a point of `α` whose two fields are read and written
in `Links α`. The operations are translated write by write, in the
source's order and with its re-reads (`LOS_ListAdd` reads
`list->pstNext` again after writing `node`'s fields), and each one that
dereferences a null link returns `none`: the caller stops there.

On a ring (`Circ`) the operations do what their names say:
`LOS_ListDelete` unlinks a node of the ring, leaves its links null and
every node off the ring as it was (`LOS_ListDelete_circ`), and deleting
the last node of a ring nulls its links (`LOS_ListDelete_self`).
-/
import LiteOsA.Lib.CircList
import Mathlib.Data.List.Nodup

namespace LiteOsA

variable {α : Type _} [DecidableEq α]

/-- `LOS_ListInit`: `list` alone, linked to itself. -/
def LOS_ListInit (l : Links α) (list : α) : Links α :=
  (l.setNext list (some list)).setPrev list (some list)

/-- `LOS_ListAdd`: link `node` in after `list`. -/
def LOS_ListAdd (l : Links α) (list node : α) : Option (Links α) := do
  let n ← l.next list
  let l := (l.setNext node (some n)).setPrev node (some list)
  -- `list->pstNext->pstPrev = node` reads `list->pstNext` again
  let n ← l.next list
  let l := l.setPrev n (some node)
  return l.setNext list (some node)

/-- `LOS_ListTailInsert`: link `node` in before `list`. -/
def LOS_ListTailInsert (l : Links α) (list node : α) : Option (Links α) := do
  let p ← l.prev list
  LOS_ListAdd l p node

/-- `LOS_ListHeadInsert`: link `node` in after `list`. -/
def LOS_ListHeadInsert (l : Links α) (list node : α) : Option (Links α) :=
  LOS_ListAdd l list node

/-- `LOS_ListDelete`: join the neighbours of `node` and null its links. -/
def LOS_ListDelete (l : Links α) (node : α) : Option (Links α) := do
  let n ← l.next node
  let l := l.setPrev n (l.prev node)
  let p ← l.prev node
  let l := l.setNext p (l.next node)
  return (l.setNext node none).setPrev node none

/-- `LOS_ListEmpty`: `list` is linked to itself. -/
def LOS_ListEmpty (l : Links α) (list : α) : Bool := decide (l.next list = some list)

variable {l : Links α}

@[simp] theorem LOS_ListEmpty_iff {list : α} : LOS_ListEmpty l list = true ↔ l.next list = some list :=
  decide_eq_true_iff

/-- `LOS_ListDelete` of a node with both links. -/
theorem LOS_ListDelete_eq {x n p : α} (hn : l.next x = some n) (hp : l.prev x = some p) :
    LOS_ListDelete l x =
      some ((((l.setPrev n (some p)).setNext p (some n)).setNext x none).setPrev x none) := by
  simp [LOS_ListDelete, hn, hp]

/-- `LOS_ListDelete` stops on a null `next` link. -/
theorem LOS_ListDelete_of_next_none {x : α} (hn : l.next x = none) : LOS_ListDelete l x = none := by
  simp [LOS_ListDelete, hn]

/-- Deleting a node linked to itself nulls its links and nothing else. -/
theorem LOS_ListDelete_self {x : α} (h : Circ l x []) :
    LOS_ListDelete l x = some ((l.setNext x none).setPrev x none) := by
  obtain ⟨hn, hp⟩ := Circ.nil_iff.mp h
  rw [LOS_ListDelete_eq hn hp]
  congr 1
  cases l
  simp only [Links.setNext, Links.setPrev, Function.update_idem]

/-- `LOS_ListAdd` after a node with a `next` link, of a node other than
it. -/
theorem LOS_ListAdd_eq {list node n : α} (hn : l.next list = some n) (hne : list ≠ node) :
    LOS_ListAdd l list node =
      some ((((l.setNext node (some n)).setPrev node (some list)).setPrev n (some node)).setNext list
        (some node)) := by
  simp [LOS_ListAdd, hn, hne]

/-- `LOS_ListDelete` of a node `x` of a ring: the ring without `x`
remains, `x`'s links are null, and no node off the ring changes. -/
theorem LOS_ListDelete_circ {s x : α} {xs₁ xs₂ : List α} (h : Circ l s (xs₁ ++ x :: xs₂))
    (hnd : (s :: (xs₁ ++ x :: xs₂)).Nodup) :
    ∃ l', LOS_ListDelete l x = some l' ∧ Circ l' s (xs₁ ++ xs₂) ∧ l'.next x = none ∧
      l'.prev x = none ∧ ∀ a, a ∉ s :: (xs₁ ++ x :: xs₂) → l'.next a = l.next a ∧ l'.prev a = l.prev a := by
  obtain ⟨u, hu, v, hv, ⟨hux, hxu⟩, ⟨hxv, hvx⟩⟩ := h.neighbours
  -- `x` occurs once: it is none of the other nodes, its neighbours among them
  have hx : x ∉ s :: (xs₁ ++ xs₂) := by
    rw [← List.cons_append] at hnd ⊢
    exact (List.nodup_cons.mp (List.nodup_middle.mp hnd)).1
  have hu' : u ∈ s :: (xs₁ ++ xs₂) := by
    simp only [List.mem_cons, List.mem_append] at hu ⊢; tauto
  have hv' : v ∈ s :: (xs₁ ++ xs₂) := by
    simp only [List.mem_cons, List.mem_append] at hv ⊢; tauto
  have hux' : u ≠ x := fun he => hx (he ▸ hu')
  have hvx' : v ≠ x := fun he => hx (he ▸ hv')
  refine ⟨_, LOS_ListDelete_eq hxv hxu, ?_, by simp, by simp, ?_⟩
  · refine h.unlink hx ?_ ?_ ?_
    · -- the neighbours are `u` and `v`, now linked to each other
      rintro u' v' ⟨-, hu'⟩ ⟨hv', -⟩
      rw [hxu, Option.some_inj] at hu'
      rw [hxv, Option.some_inj] at hv'
      subst hu' hv'
      simp [Links.Link, hux', hvx']
    · intro a ha hne
      have hau : a ≠ u := fun he => hne (he ▸ hux)
      have hax : a ≠ x := fun he => hx (he ▸ ha)
      simp [hau, hax]
    · intro a ha hne
      have hav : a ≠ v := fun he => hne (he ▸ hvx)
      have hax : a ≠ x := fun he => hx (he ▸ ha)
      simp [hav, hax]
  · -- off the ring: not `x` and neither of its neighbours
    intro a ha
    have hsub : ∀ b ∈ s :: (xs₁ ++ xs₂), b ∈ s :: (xs₁ ++ x :: xs₂) := by
      intro b hb; simp only [List.mem_cons, List.mem_append] at hb ⊢; tauto
    have hau : a ≠ u := fun he => ha (hsub a (he ▸ hu'))
    have hav : a ≠ v := fun he => ha (hsub a (he ▸ hv'))
    have hax : a ≠ x := fun he => ha (he ▸ by simp)
    simp [hau, hav, hax]

end LiteOsA
