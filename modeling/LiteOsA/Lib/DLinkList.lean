/-
Doubly linked, null-terminated lists threaded through memory.

`DLinkList next prev null p x l` adds back links to `LinkList`:
following `next` from `x` visits the nodes of `l` and then `null`, and
the `prev` of each node names the node before it, `p` for the first. A
whole list, whose head is kept outside the nodes, has `p = null`.

The edits are those of such a list: push a node on the front (`push`),
take the first node off (`pop`), unlink a node behind the first
(`unlink`). Each is stated by what the new links read at the nodes the
edit touches and by every other node reading as before, so that a
caller discharges it from its own memory model.
-/
import LiteOsA.Lib.LinkList

variable {α : Type _}

/-- Following `next` from `x` visits the nodes of `l` and then `null`;
each node's `prev` is the node before it, `p` for the first. -/
def DLinkList (next prev : α → α) (null : α) : α → α → List α → Prop
  | _, x, [] => x = null
  | p, x, a :: l => x = a ∧ a ≠ null ∧ prev a = p ∧ DLinkList next prev null a (next a) l

namespace DLinkList

variable {next prev next' prev' : α → α} {null p q x a : α} {l : List α}

@[simp] theorem nil_iff : DLinkList next prev null p x [] ↔ x = null := Iff.rfl

@[simp] theorem cons_iff :
    DLinkList next prev null p x (a :: l) ↔
      x = a ∧ a ≠ null ∧ prev a = p ∧ DLinkList next prev null a (next a) l := Iff.rfl

theorem toLinkList (h : DLinkList next prev null p x l) : LinkList next null x l := by
  induction l generalizing p x with
  | nil => exact h
  | cons a l ih =>
      obtain ⟨rfl, ha, -, hl⟩ := h
      exact ⟨rfl, ha, ih hl⟩

theorem nodup (h : DLinkList next prev null p x l) : l.Nodup := h.toLinkList.nodup

theorem null_not_mem (h : DLinkList next prev null p x l) : null ∉ l :=
  h.toLinkList.null_not_mem

/-- A head that is not `null` is the first node. -/
theorem head_mem (h : DLinkList next prev null p x l) (hx : x ≠ null) : x ∈ l := by
  cases l with
  | nil => exact absurd h hx
  | cons a l =>
      obtain ⟨rfl, -⟩ := h
      exact List.mem_cons_self

/-- The list reads only the links of its own nodes. -/
theorem congr (h : DLinkList next prev null p x l)
    (hag : ∀ b ∈ l, next' b = next b ∧ prev' b = prev b) :
    DLinkList next' prev' null p x l := by
  induction l generalizing p x with
  | nil => exact h
  | cons a l ih =>
      obtain ⟨rfl, ha, hp, hl⟩ := h
      obtain ⟨hn', hp'⟩ := hag x List.mem_cons_self
      refine ⟨rfl, ha, hp'.trans hp, ?_⟩
      rw [hn']
      exact ih hl fun b hb => hag b (List.mem_cons_of_mem _ hb)

/-- The first node's `prev` now names `q`; every other link reads as
before. -/
theorem retarget (h : DLinkList next prev null p x l) (hx : x ≠ null → prev' x = q)
    (hag : ∀ b ∈ l, next' b = next b ∧ (b ≠ x → prev' b = prev b)) :
    DLinkList next' prev' null q x l := by
  cases l with
  | nil => exact h
  | cons a l =>
      have hfresh := (List.nodup_cons.1 h.nodup).1
      obtain ⟨rfl, ha, -, hl⟩ := h
      obtain ⟨hn', -⟩ := hag x List.mem_cons_self
      refine ⟨rfl, ha, hx ha, ?_⟩
      rw [hn']
      refine hl.congr fun b hb => ⟨(hag b (List.mem_cons_of_mem _ hb)).1, ?_⟩
      -- `b` follows the first node, so it is not the first node
      exact (hag b (List.mem_cons_of_mem _ hb)).2 fun e => hfresh (e ▸ hb)

/-- Push `a` on the front: `a` links forward to the old head and back
to `null`, the old head links back to `a`. -/
theorem push (h : DLinkList next prev null null x l) (ha : a ≠ null) (hn : next' a = x)
    (hp : prev' a = null) (hx : x ≠ null → prev' x = a)
    (hag : ∀ b ∈ l, next' b = next b ∧ (b ≠ x → prev' b = prev b)) :
    DLinkList next' prev' null null a (a :: l) :=
  ⟨rfl, ha, hp, by rw [hn]; exact h.retarget hx hag⟩

/-- Take the first node off: the list goes on from its `next`, whose
`prev` now names `q`. -/
theorem pop (h : DLinkList next prev null p x (a :: l))
    (hx : next a ≠ null → prev' (next a) = q)
    (hag : ∀ b ∈ l, next' b = next b ∧ (b ≠ next a → prev' b = prev b)) :
    DLinkList next' prev' null q (next a) l :=
  h.2.2.2.retarget hx hag

/-- A node behind the first has its `prev` in the list. -/
theorem prev_mem (h : DLinkList next prev null p x l) (ha : a ∈ l) (hx : a ≠ x) :
    prev a ∈ l := by
  induction l generalizing p x with
  | nil => simp at ha
  | cons b l ih =>
      obtain ⟨rfl, -, -, hl⟩ := h
      have ha' : a ∈ l := (List.mem_cons.1 ha).resolve_left hx
      by_cases hab : a = next x
      · -- `a` is the second node: its `prev` is the first
        cases l with
        | nil => simp at ha'
        | cons c l =>
            obtain ⟨hc, -, hpc, -⟩ := hl
            rw [hab, hc, hpc]
            exact List.mem_cons_self
      · exact List.mem_cons_of_mem _ (ih hl ha' hab)

/-- The `next` of a node is `null` or a node of the list. -/
theorem next_mem (h : DLinkList next prev null p x l) (ha : a ∈ l) :
    next a = null ∨ next a ∈ l :=
  h.toLinkList.next_mem ha

/-- Unlink `a`, a node behind the first: its `prev` links forward to
its `next`, which links back to its `prev`; every other link reads as
before. -/
theorem unlink [DecidableEq α] (h : DLinkList next prev null p x l) (ha : a ∈ l) (hx : a ≠ x)
    (hn : next' (prev a) = next a) (hp : next a ≠ null → prev' (next a) = prev a)
    (hag : ∀ b ∈ l, b ≠ a → (b ≠ prev a → next' b = next b) ∧ (b ≠ next a → prev' b = prev b)) :
    DLinkList next' prev' null p x (l.erase a) := by
  induction l generalizing p x with
  | nil => simp at ha
  | cons b l ih =>
      have hnd := h.nodup
      obtain ⟨rfl, hb, hbp, hl⟩ := h
      have ha' : a ∈ l := (List.mem_cons.1 ha).resolve_left hx
      have hfresh : x ∉ l := (List.nodup_cons.1 hnd).1
      have hxa : ¬(x == a) = true := by simpa using Ne.symm hx
      rw [List.erase_cons_tail hxa]
      -- the first node keeps its `prev`: the node after `a` is not it
      have hxn : x ≠ next a := by
        rintro e
        rcases hl.next_mem ha' with h0 | hm
        · exact hb (e.trans h0)
        · exact hfresh (by rw [e]; exact hm)
      refine ⟨rfl, hb, ((hag x List.mem_cons_self hx.symm).2 hxn).trans hbp, ?_⟩
      by_cases hsecond : a = next x
      · -- `a` is the second node: the first now links past it
        cases l with
        | nil => simp at ha'
        | cons c l =>
            obtain ⟨hc, -, hpc, hl'⟩ := hl
            have hca : a = c := hsecond.trans hc
            rw [hca] at hn hp hag
            have hfc : c ∉ l := (List.nodup_cons.1 (List.nodup_cons.1 hnd).2).1
            rw [hca, List.erase_cons_head, ← hpc, hn]
            refine hl'.retarget hp fun d hd => ?_
            have hdc : d ≠ c := fun e => hfc (e ▸ hd)
            have hdx : d ≠ prev c := by
              rw [hpc]; exact fun e => hfresh (e ▸ List.mem_cons_of_mem _ hd)
            have hag' := hag d (.tail _ (.tail _ hd)) hdc
            exact ⟨hag'.1 hdx, hag'.2⟩
      · -- `a` lies further on: the first node's links are untouched
        have hxp : x ≠ prev a := fun e => hfresh (by rw [e]; exact hl.prev_mem ha' hsecond)
        rw [(hag x List.mem_cons_self hx.symm).1 hxp]
        exact ih hl ha' hsecond (fun d hd hda => hag d (List.mem_cons_of_mem _ hd) hda)

end DLinkList
