/-
Lists read as sets: a pend list and the tasks waiting on it.

A kernel wait queue is a list in memory, but what the proofs about it
need is which tasks are on it, each once. `Enumerates l p` says that
`l` holds exactly the `x` with `p x`, with no repeats. The lemmas are
the edits the queues go through: a task joins at the tail
(`concat`) or at a position (`insertIdx`), leaves from anywhere
(`erase`) or from the front (`tail`), an empty queue means nobody
waits (`eq_nil_iff`), and two queues of disjoint sets together list
their union (`append`).
-/
import Mathlib.Data.List.Nodup

variable {α : Type _}

/-- `l` lists the `x` with `p x`, each once. -/
structure Enumerates (l : List α) (p : α → Prop) : Prop where
  nodup : l.Nodup
  mem_iff : ∀ x, x ∈ l ↔ p x

namespace Enumerates

variable {l : List α} {p q : α → Prop} {a : α}

theorem nil (h : ∀ x, ¬ p x) : Enumerates [] p :=
  ⟨List.nodup_nil, fun x => by simp [h x]⟩

/-- The same list enumerates an equivalent predicate. -/
theorem congr (h : Enumerates l p) (hq : ∀ x, q x ↔ p x) : Enumerates l q :=
  ⟨h.nodup, fun x => (h.mem_iff x).trans (hq x).symm⟩

theorem eq_nil_iff (h : Enumerates l p) : l = [] ↔ ∀ x, ¬ p x := by
  constructor
  · rintro rfl x hx
    exact List.not_mem_nil ((h.mem_iff x).2 hx)
  · intro hp
    exact List.eq_nil_iff_forall_not_mem.2 fun x hx => hp x ((h.mem_iff x).1 hx)

theorem of_cons (h : Enumerates (a :: l) p) : p a :=
  (h.mem_iff a).1 List.mem_cons_self

/-- A task that was not waiting joins at the tail. -/
theorem concat (h : Enumerates l p) (ha : ¬ p a) (hq : ∀ x, q x ↔ p x ∨ x = a) :
    Enumerates (l ++ [a]) q := by
  refine ⟨?_, fun x => ?_⟩
  · have ha' : a ∉ l := fun hal => ha ((h.mem_iff a).1 hal)
    exact List.nodup_append.2
      ⟨h.nodup, List.nodup_singleton a, fun x hx y hy => by
        rintro rfl
        exact ha' (List.mem_singleton.1 hy ▸ hx)⟩
  · rw [hq, List.mem_append, List.mem_singleton, h.mem_iff]

/-- A task that was not waiting joins at position `n`. -/
theorem insertIdx (h : Enumerates l p) (n : Nat) (hn : n ≤ l.length) (ha : ¬ p a)
    (hq : ∀ x, q x ↔ p x ∨ x = a) : Enumerates (l.insertIdx n a) q := by
  refine ⟨?_, fun x => ?_⟩
  · have hperm := List.perm_insertIdx a l hn
    exact hperm.nodup_iff.2 (List.nodup_cons.2 ⟨fun hal => ha ((h.mem_iff a).1 hal), h.nodup⟩)
  · rw [List.mem_insertIdx hn, hq, h.mem_iff, or_comm]

/-- A task leaves the queue, wherever it stands. -/
theorem erase [BEq α] [LawfulBEq α] (h : Enumerates l p) (hq : ∀ x, q x ↔ p x ∧ x ≠ a) :
    Enumerates (l.erase a) q :=
  ⟨h.nodup.erase a, fun x => by rw [h.nodup.mem_erase_iff, hq, h.mem_iff, and_comm]⟩

/-- Two lists of disjoint sets, one after the other, list their union. -/
theorem append {l' : List α} (h : Enumerates l p) (h' : Enumerates l' q)
    (hdisj : ∀ x, p x → ¬ q x) : Enumerates (l ++ l') fun x => p x ∨ q x := by
  refine ⟨List.nodup_append.2 ⟨h.nodup, h'.nodup, ?_⟩, fun x => ?_⟩
  · intro x hx y hy hxy
    subst hxy
    exact hdisj x ((h.mem_iff x).1 hx) ((h'.mem_iff x).1 hy)
  · rw [List.mem_append, h.mem_iff, h'.mem_iff]

/-- The first task leaves the queue. -/
theorem tail [BEq α] [LawfulBEq α] (h : Enumerates (a :: l) p) (hq : ∀ x, q x ↔ p x ∧ x ≠ a) :
    Enumerates l q := by
  simpa using h.erase hq

end Enumerates
