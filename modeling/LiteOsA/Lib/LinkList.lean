/-
Null-terminated linked lists threaded through memory.

A C list threads its nodes through a pointer field: the head pointer
names the first node, each node's field names the next one, and a
distinguished null value ends the list. `LinkList next null x l` says
that following `next` from the link value `x` visits exactly the nodes
of `l`, in order, and then reaches `null`. The list `l` is the ghost
the proofs reason about; memory only holds the links.

The lemmas are the ones the allocators' proofs consume: the memory
determines the ghost (`unique`), the ghost has no repeated node and
never holds `null` (`nodup`, `null_not_mem`), a node links only to
`null` or to another node (`next_mem`), it survives writes to
links outside it (`congr`), and it changes by one node when a node is
pushed onto its front or popped off it (`push`, `pop_update`).
-/
import Mathlib.Data.List.Nodup
import Mathlib.Logic.Function.Basic

variable {α : Type _}

/-- Following `next` from `x` visits the nodes of `l` and then `null`. -/
def LinkList (next : α → α) (null : α) : α → List α → Prop
  | x, [] => x = null
  | x, a :: l => x = a ∧ a ≠ null ∧ LinkList next null (next a) l

namespace LinkList

variable {next next' : α → α} {null x a : α} {l l' l₁ l₂ : List α}

@[simp] theorem nil_iff : LinkList next null x [] ↔ x = null := Iff.rfl

@[simp] theorem cons_iff :
    LinkList next null x (a :: l)
      ↔ x = a ∧ a ≠ null ∧ LinkList next null (next a) l := Iff.rfl

/-- The list is empty exactly when the link is null. -/
theorem eq_nil_iff (h : LinkList next null x l) : l = [] ↔ x = null := by
  cases l with
  | nil => simpa using h
  | cons a l =>
      obtain ⟨rfl, ha, -⟩ := h
      simp [ha]

/-- The memory determines the ghost list. -/
theorem unique (h : LinkList next null x l) (h' : LinkList next null x l') :
    l = l' := by
  induction l generalizing x l' with
  | nil =>
      cases l' with
      | nil => rfl
      | cons b l' =>
          obtain ⟨rfl, hb, -⟩ := h'
          exact absurd h hb
  | cons a l ih =>
      obtain ⟨rfl, ha, hl⟩ := h
      cases l' with
      | nil => exact absurd h' ha
      | cons b l' =>
          obtain ⟨hab, -, hl'⟩ := h'
          subst hab
          rw [ih hl hl']

/-- No node of the list is `null`. -/
theorem null_not_mem (h : LinkList next null x l) : null ∉ l := by
  induction l generalizing x with
  | nil => simp
  | cons a l ih =>
      obtain ⟨rfl, ha, hl⟩ := h
      simp only [List.mem_cons, not_or]
      exact ⟨fun e => ha e.symm, ih hl⟩

/-- Every node starts the part of the list from it on. -/
theorem of_mem_split (h : LinkList next null x (l₁ ++ a :: l₂)) :
    LinkList next null a (a :: l₂) := by
  induction l₁ generalizing x with
  | nil =>
      obtain ⟨-, ha, hl⟩ := h
      exact ⟨rfl, ha, hl⟩
  | cons b l₁ ih =>
      obtain ⟨-, -, hl⟩ := h
      exact ih hl

/-- A list threaded through memory has no repeated node: a node met
twice would start both the list from it and a strict suffix of that
list, and the memory determines the list. -/
theorem nodup (h : LinkList next null x l) : l.Nodup := by
  induction l generalizing x with
  | nil => exact List.nodup_nil
  | cons a l ih =>
      obtain ⟨rfl, ha, hl⟩ := h
      refine List.nodup_cons.2 ⟨fun hmem => ?_, ih hl⟩
      obtain ⟨l₁, l₂, rfl⟩ := List.append_of_mem hmem
      have hsuf := of_mem_split hl
      have hall : LinkList next null x (x :: (l₁ ++ x :: l₂)) := ⟨rfl, ha, hl⟩
      have hlen := congrArg List.length (unique hall hsuf)
      simp only [List.length_cons, List.length_append] at hlen
      omega

/-- The link of a node is `null` or another node of the list. -/
theorem next_mem (h : LinkList next null x l) (ha : a ∈ l) :
    next a = null ∨ next a ∈ l := by
  induction l generalizing x with
  | nil => simp at ha
  | cons b l ih =>
      obtain ⟨-, -, hl⟩ := h
      rcases List.mem_cons.1 ha with rfl | ha'
      · cases l with
        | nil => exact .inl hl
        | cons c l => exact .inr (by rw [hl.1]; simp)
      · rcases ih hl ha' with h' | h'
        · exact .inl h'
        · exact .inr (List.mem_cons_of_mem _ h')

/-- The list reads only the links of its own nodes. -/
theorem congr (h : LinkList next null x l) (hag : ∀ b ∈ l, next' b = next b) :
    LinkList next' null x l := by
  induction l generalizing x with
  | nil => exact h
  | cons a l ih =>
      obtain ⟨rfl, ha, hl⟩ := h
      refine ⟨rfl, ha, ?_⟩
      rw [hag x List.mem_cons_self]
      exact ih hl fun b hb => hag b (List.mem_cons_of_mem _ hb)

/-- A write to a link outside the list leaves the list. -/
theorem update_of_not_mem [DecidableEq α] {v : α} (h : LinkList next null x l)
    (ha : a ∉ l) : LinkList (Function.update next a v) null x l :=
  h.congr fun b hb => Function.update_of_ne (by rintro rfl; exact ha hb) _ _

/-- Pushing a fresh node: its link takes the old head. -/
theorem push [DecidableEq α] (h : LinkList next null x l) (ha : a ≠ null)
    (hnot : a ∉ l) : LinkList (Function.update next a x) null a (a :: l) := by
  refine ⟨rfl, ha, ?_⟩
  rw [Function.update_self]
  exact h.update_of_not_mem hnot

/-- Popping the head: the rest of the list survives any write to the
popped node's link. -/
theorem pop_update [DecidableEq α] (v : α) (h : LinkList next null x (a :: l)) :
    LinkList (Function.update next a v) null (next a) l := by
  have hnd := h.nodup
  obtain ⟨-, -, hl⟩ := h
  exact hl.update_of_not_mem (List.nodup_cons.1 hnd).1

end LinkList
