/-
Binary trees, and nodes of them that know the way back to the root.

A C tree whose nodes link to their parents is walked up as well as down.
`BTree.Node` is a node of a tree together with that way up, innermost
step first (`BTree.Frame`): what the parent pointers of the node and of
its ancestors hold. Every walk over such a tree stays in it
(`Node.fill`).

In order, the tree reads as the elements before the node (`Node.pre`),
the node, and the elements after it (`Node.post`): `Node.toList_fill`.
In a tree ordered by a relation, what comes before a node is below it
and what comes after above it (`Node.rel_of_pairwise`). The two walks
the lookups of a search tree are made of move along that order:
`leftmost` goes down the left children to the first element of a
subtree (`leftmost_spec`), and `climb` goes up while the position is a
right child, to the first ancestor after it, or past the root when
there is none (`climb_spec`, `climb_eq_none`). A descent that stops at
an empty subtree has last passed through `parentOf` it.

A walk that changes the tree as it goes stands at a `Cursor`: a subtree
and the way up from it. Its moves (`Cursor.up`, `Cursor.downLeft`,
`Cursor.downRight`) keep the tree (`Cursor.fill`), and `Cursor.modify`
rewrites the subtree where it stands.
-/
import Mathlib.Logic.Basic

variable {α : Type _}

/-- A binary tree: empty, or a node with its left subtree, its element
and its right subtree. -/
inductive BTree (α : Type _) where
  | nil
  | node (l : BTree α) (a : α) (r : BTree α)

namespace BTree

/-- The elements in order. -/
def toList : BTree α → List α
  | nil => []
  | node l a r => l.toList ++ a :: r.toList

@[simp] theorem toList_nil : (nil : BTree α).toList = [] := rfl

@[simp] theorem toList_node (l : BTree α) (a : α) (r : BTree α) :
    (node l a r).toList = l.toList ++ a :: r.toList := rfl

/-- One step from a subtree up to its parent: the subtree is the left
child of `a`, whose right subtree is `r`, or the right child of `a`,
whose left subtree is `l`. -/
inductive Frame (α : Type _) where
  | left (a : α) (r : BTree α)
  | right (l : BTree α) (a : α)

/-- The parent, with the subtree put back in its place. -/
def Frame.fill : Frame α → BTree α → BTree α
  | .left a r, t => node t a r
  | .right l a, t => node l a t

@[simp] theorem Frame.fill_left (a : α) (r t : BTree α) : (Frame.left a r).fill t = node t a r := rfl

@[simp] theorem Frame.fill_right (l : BTree α) (a : α) (t : BTree α) :
    (Frame.right l a).fill t = node l a t := rfl

/-- The whole tree, from a subtree and the way up from it. -/
def fill : List (Frame α) → BTree α → BTree α
  | [], t => t
  | f :: ps, t => fill ps (f.fill t)

/-- The elements before a subtree at the end of the way `ps` down, in
order. -/
def before : List (Frame α) → List α
  | [] => []
  | .left _ _ :: ps => before ps
  | .right l a :: ps => before ps ++ (l.toList ++ [a])

/-- The elements after a subtree at the end of the way `ps` down, in
order. -/
def after : List (Frame α) → List α
  | [] => []
  | .left a r :: ps => a :: (r.toList ++ after ps)
  | .right _ _ :: ps => after ps

@[simp] theorem fill_nil (t : BTree α) : fill [] t = t := rfl

@[simp] theorem fill_left (a : α) (r : BTree α) (ps : List (Frame α)) (t : BTree α) :
    fill (.left a r :: ps) t = fill ps (node t a r) := rfl

@[simp] theorem fill_right (l : BTree α) (a : α) (ps : List (Frame α)) (t : BTree α) :
    fill (.right l a :: ps) t = fill ps (node l a t) := rfl

@[simp] theorem before_nil : before ([] : List (Frame α)) = [] := rfl

@[simp] theorem before_left (a : α) (r : BTree α) (ps : List (Frame α)) :
    before (.left a r :: ps) = before ps := rfl

@[simp] theorem before_right (l : BTree α) (a : α) (ps : List (Frame α)) :
    before (.right l a :: ps) = before ps ++ (l.toList ++ [a]) := rfl

@[simp] theorem after_nil : after ([] : List (Frame α)) = [] := rfl

@[simp] theorem after_left (a : α) (r : BTree α) (ps : List (Frame α)) :
    after (.left a r :: ps) = a :: (r.toList ++ after ps) := rfl

@[simp] theorem after_right (l : BTree α) (a : α) (ps : List (Frame α)) :
    after (.right l a :: ps) = after ps := rfl

/-- In order, the whole tree is what comes before the subtree, the
subtree, and what comes after it. -/
theorem toList_fill (ps : List (Frame α)) (t : BTree α) :
    (fill ps t).toList = before ps ++ (t.toList ++ after ps) := by
  induction ps generalizing t with
  | nil => simp
  | cons f ps ih =>
    cases f with
    | left a r => simp [ih]
    | right l a => simp [ih]

-- ============================================================ nodes

/-- A node of a tree: its subtrees and element, and the way up from it
to the root. -/
structure Node (α : Type _) where
  path : List (Frame α)
  left : BTree α
  val : α
  right : BTree α

namespace Node

/-- The tree the node is in. -/
def fill (n : Node α) : BTree α := BTree.fill n.path (node n.left n.val n.right)

/-- The elements before the node, in order. -/
def pre (n : Node α) : List α := before n.path ++ n.left.toList

/-- The elements after the node, in order. -/
def post (n : Node α) : List α := n.right.toList ++ after n.path

theorem toList_fill (n : Node α) : n.fill.toList = n.pre ++ n.val :: n.post := by
  simp [fill, pre, post, BTree.toList_fill]

/-- In a tree ordered by `R`, what comes before a node is below it, and
what comes after it above it. -/
theorem rel_of_pairwise {R : α → α → Prop} {n : Node α} (h : n.fill.toList.Pairwise R) :
    (∀ x ∈ n.pre, R x n.val) ∧ ∀ x ∈ n.post, R n.val x := by
  rw [toList_fill, List.pairwise_append, List.pairwise_cons] at h
  obtain ⟨-, ⟨hpost, -⟩, hpre⟩ := h
  exact ⟨fun x hx => hpre x hx n.val List.mem_cons_self, hpost⟩

end Node

-- ============================================================ walks

/-- Down the left children while there is one: the first node of the
subtree `node l a r` at the end of the way `ps` down. -/
def leftmost : List (Frame α) → BTree α → α → BTree α → Node α
  | ps, nil, a, r => ⟨ps, nil, a, r⟩
  | ps, node ll la lr, a, r => leftmost (.left a r :: ps) ll la lr

/-- `leftmost` stays in the tree and lands on the subtree's first
element: nothing of the subtree comes before it. -/
theorem leftmost_spec (ps : List (Frame α)) (l : BTree α) (a : α) (r : BTree α) :
    (leftmost ps l a r).fill = fill ps (node l a r) ∧ (leftmost ps l a r).pre = before ps ∧
      (leftmost ps l a r).val :: (leftmost ps l a r).post = l.toList ++ a :: (r.toList ++ after ps) := by
  induction l generalizing ps a r with
  | nil => exact ⟨rfl, by simp [leftmost, Node.pre], by simp [leftmost, Node.post]⟩
  | node ll la lr ihl _ =>
    obtain ⟨hfill, hpre, hpost⟩ := ihl (.left a r :: ps) la lr
    refine ⟨hfill, hpre, ?_⟩
    rw [leftmost, hpost]
    simp

/-- `leftmost` stops at a node with no left child. -/
theorem leftmost_left (ps : List (Frame α)) (l : BTree α) (a : α) (r : BTree α) :
    (leftmost ps l a r).left = nil := by
  induction l generalizing ps a r with
  | nil => rfl
  | node ll la lr ihl _ => exact ihl _ _ _

theorem fill_append (qs ps : List (Frame α)) (t : BTree α) :
    fill (qs ++ ps) t = fill ps (fill qs t) := by
  induction qs generalizing t with
  | nil => rfl
  | cons f qs ih => exact ih (f.fill t)

/-- In order, a subtree is its first element, then the subtree without
it: the first element's right subtree in its place. -/
theorem toList_leftmost (l : BTree α) (a : α) (r : BTree α) :
    (node l a r).toList = (leftmost [] l a r).val ::
      (fill (leftmost [] l a r).path (leftmost [] l a r).right).toList := by
  obtain ⟨hfill, hpre, -⟩ := leftmost_spec [] l a r
  -- nothing of the subtree comes before its first element
  have hb : before (leftmost [] l a r).path = [] := by
    simpa [Node.pre, leftmost_left] using hpre
  rw [← fill_nil (node l a r), ← hfill, Node.fill, leftmost_left, toList_fill, toList_fill, hb]
  simp

/-- The first element of a right subtree, found from the top: the
tree is that element with an empty left child, at the end of the way
down the right subtree's left children. -/
theorem fill_leftmost (ps : List (Frame α)) (l : BTree α) (a : α) (rl : BTree α) (rv : α)
    (rr : BTree α) :
    fill ps (node l a (node rl rv rr)) =
      fill ((leftmost [] rl rv rr).path ++ .right l a :: ps)
        (node nil (leftmost [] rl rv rr).val (leftmost [] rl rv rr).right) := by
  have hfill := (leftmost_spec [] rl rv rr).1
  rw [Node.fill, leftmost_left] at hfill
  rw [fill_append, hfill]
  rfl

/-- Up while the position is a right child: the parent it is then the
left child of, or `none` when the way up ends first. -/
def climb : List (Frame α) → BTree α → Option (Node α)
  | [], _ => none
  | .left a r :: ps, t => some ⟨ps, t, a, r⟩
  | .right l a :: ps, t => climb ps (node l a t)

/-- The node `climb` reaches is in the tree and is the first element
after the subtree it started from. -/
theorem climb_spec {ps : List (Frame α)} {t : BTree α} {n : Node α} (h : climb ps t = some n) :
    n.fill = fill ps t ∧ n.pre = before ps ++ t.toList ∧ n.val :: n.post = after ps := by
  induction ps generalizing t with
  | nil => cases h
  | cons f ps ih =>
    cases f with
    | left a r =>
      cases h
      exact ⟨rfl, rfl, rfl⟩
    | right l a =>
      obtain ⟨hfill, hpre, hpost⟩ := ih h
      exact ⟨hfill, by simp [hpre], hpost⟩

/-- `climb` goes past the root only when nothing comes after the subtree. -/
theorem climb_eq_none {ps : List (Frame α)} {t : BTree α} (h : climb ps t = none) : after ps = [] := by
  induction ps generalizing t with
  | nil => rfl
  | cons f ps ih =>
    cases f with
    | left a r => cases h
    | right l a => exact ih h

/-- The node a descent along the way `ps` last went through, before it
reached the subtree `t`; `none` at the root. -/
def parentOf : List (Frame α) → BTree α → Option (Node α)
  | [], _ => none
  | .left a r :: ps, t => some ⟨ps, t, a, r⟩
  | .right l a :: ps, t => some ⟨ps, l, a, t⟩

-- ============================================================ cursors

/-- The element of the parent a frame steps up to. -/
def Frame.val : Frame α → α
  | .left a _ => a
  | .right _ a => a

/-- Whether the subtree is the parent's left child. -/
def Frame.isLeft : Frame α → Bool
  | .left .. => true
  | .right .. => false

/-- The parent's element changed by `g`. -/
def Frame.map (g : α → α) : Frame α → Frame α
  | .left a r => .left (g a) r
  | .right l a => .right l (g a)

@[simp] theorem Frame.val_map (g : α → α) (f : Frame α) : (f.map g).val = g f.val := by
  cases f <;> rfl

/-- Where a walk that also changes the tree stands: a subtree, and the
way up from it. -/
structure Cursor (α : Type _) where
  path : List (Frame α)
  sub : BTree α

namespace Cursor

/-- The tree the cursor is in. -/
def fill (c : Cursor α) : BTree α := BTree.fill c.path c.sub

/-- Up to the parent; the root stays where it is. -/
def up : Cursor α → Cursor α
  | ⟨[], t⟩ => ⟨[], t⟩
  | ⟨f :: ps, t⟩ => ⟨ps, f.fill t⟩

/-- Down to the left subtree; an empty subtree stays where it is. -/
def downLeft : Cursor α → Cursor α
  | ⟨ps, node l a r⟩ => ⟨.left a r :: ps, l⟩
  | c => c

/-- Down to the right subtree; an empty subtree stays where it is. -/
def downRight : Cursor α → Cursor α
  | ⟨ps, node l a r⟩ => ⟨.right l a :: ps, r⟩
  | c => c

/-- The subtree at the cursor changed by `g`. -/
def modify (g : BTree α → BTree α) (c : Cursor α) : Cursor α := ⟨c.path, g c.sub⟩

@[simp] theorem downLeft_node (ps : List (Frame α)) (l : BTree α) (a : α) (r : BTree α) :
    (⟨ps, node l a r⟩ : Cursor α).downLeft = ⟨.left a r :: ps, l⟩ := rfl

@[simp] theorem downRight_node (ps : List (Frame α)) (l : BTree α) (a : α) (r : BTree α) :
    (⟨ps, node l a r⟩ : Cursor α).downRight = ⟨.right l a :: ps, r⟩ := rfl

@[simp] theorem fill_up (c : Cursor α) : c.up.fill = c.fill := by
  obtain ⟨_ | ⟨f, ps⟩, t⟩ := c <;> rfl

@[simp] theorem fill_downLeft (c : Cursor α) : c.downLeft.fill = c.fill := by
  obtain ⟨ps, _ | ⟨l, a, r⟩⟩ := c <;> rfl

@[simp] theorem fill_downRight (c : Cursor α) : c.downRight.fill = c.fill := by
  obtain ⟨ps, _ | ⟨l, a, r⟩⟩ := c <;> rfl

@[simp] theorem fill_modify (g : BTree α → BTree α) (c : Cursor α) :
    (c.modify g).fill = BTree.fill c.path (g c.sub) := rfl

@[simp] theorem path_modify (g : BTree α → BTree α) (c : Cursor α) : (c.modify g).path = c.path := rfl

@[simp] theorem sub_modify (g : BTree α → BTree α) (c : Cursor α) : (c.modify g).sub = g c.sub := rfl

theorem length_up (c : Cursor α) : c.up.path.length = c.path.length - 1 := by
  obtain ⟨_ | ⟨f, ps⟩, t⟩ := c <;> rfl

theorem length_downLeft_le (c : Cursor α) : c.downLeft.path.length ≤ c.path.length + 1 := by
  obtain ⟨ps, _ | ⟨l, a, r⟩⟩ := c
  · exact Nat.le_succ _
  · exact Nat.le_refl _

theorem length_downRight_le (c : Cursor α) : c.downRight.path.length ≤ c.path.length + 1 := by
  obtain ⟨ps, _ | ⟨l, a, r⟩⟩ := c
  · exact Nat.le_succ _
  · exact Nat.le_refl _

end Cursor

end BTree
