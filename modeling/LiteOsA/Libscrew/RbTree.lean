/-
The lookups of the red-black tree of libscrew (los_rbtree.c):
`LOS_RbFirstNode`, `LOS_RbSuccessorNode`, `LOS_RbGetNode` and
`LOS_RbGetNextNode`.

# Nodes

A `LosRbNode` is linked to its parent and its two children; every
missing child is the tree's sentinel `stNilT`, and so is the parent of
the root. A node is a `BTree.Node`: its subtrees and element, and the
way up to the root that the parent links follow. The user's structure
around the `LosRbNode` is the element, of a type `α`; the tree reads a
key of it through `pfGetKey` and compares keys through `pfCmpKey`, which
answers `RB_EQUAL`, `RB_BIGGER` or `RB_SMALLER` for the first key
against the second.

A node pointer is `Option (BTree.Node α)`: `none` is `NULL`, and also
`stNilT` where the code treats both alike (`LOS_RbGetNextNode` returns
`NULL` for either, `LOS_RbSuccessorNode` for either).

# What is left out

The checks of `pstTree`, `pKey` and `ppstNode` against `NULL` and of
`pfGetKey` and `pfCmpKey` against `NULL`: the model's tree, key and
callbacks are values. The colour of a node, `ulNodes`, `pfFree` and the
walks: no lookup reads them.
-/
import LiteOsA.Lib.TreeZipper

namespace LiteOsA.Rb

open BTree

variable {κ α : Type _}

/-- `RB_EQUAL`. -/
def RB_EQUAL : Nat := 0

/-- `RB_BIGGER`. -/
def RB_BIGGER : Nat := 1

/-- `RB_SMALLER`. -/
def RB_SMALLER : Nat := 2

/-- `LosRbTree`, with the fields the lookups read: the nodes from
`pstRoot`, and the callbacks of `LOS_RbInitTree`. -/
structure LosRbTree (κ α : Type _) where
  pstRoot : BTree α
  pfCmpKey : κ → κ → Nat
  pfGetKey : α → κ

-- ============================================================ walking

/-- `LOS_RbFirstNode`: down the left children from the root. -/
def LOS_RbFirstNode (t : LosRbTree κ α) : Option (Node α) :=
  match t.pstRoot with
  | .nil => none
  | .node l a r => some (leftmost [] l a r)

/-- `LOS_RbSuccessorNode`: the leftmost node of the right subtree when
there is one, else up past every ancestor the node is in the right
subtree of; `NULL` for `NULL`, for `stNilT`, and past the root. -/
def LOS_RbSuccessorNode : Option (Node α) → Option (Node α)
  | none => none
  | some ⟨ps, l, a, r⟩ =>
    match r with
    | .node rl ra rr => some (leftmost (.right l a :: ps) rl ra rr)
    | .nil => climb ps (.node l a .nil)

/-- The successor of a node is the next element in order, in the same
tree, and there is none only after the last. -/
theorem LOS_RbSuccessorNode_spec (n : Node α) :
    match LOS_RbSuccessorNode (some n) with
    | some m => m.fill = n.fill ∧ m.pre = n.pre ++ [n.val] ∧ m.val :: m.post = n.post
    | none => n.post = [] := by
  obtain ⟨ps, l, a, r⟩ := n
  cases r with
  | node rl ra rr =>
    -- into the right subtree, then to its first node
    obtain ⟨hfill, hpre, hpost⟩ := leftmost_spec (.right l a :: ps) rl ra rr
    refine ⟨hfill, ?_, ?_⟩
    · rw [hpre]
      simp [Node.pre]
    · rw [hpost]
      simp [Node.post]
  | nil =>
    -- up the right spine to the first ancestor after the node
    dsimp only [LOS_RbSuccessorNode]
    cases h : climb ps (.node l a .nil) with
    | none => simpa [Node.post] using climb_eq_none h
    | some m =>
      obtain ⟨hfill, hpre, hpost⟩ := climb_spec h
      refine ⟨hfill, ?_, ?_⟩
      · rw [hpre]
        simp [Node.pre]
      · rw [hpost]
        simp [Node.post]

theorem LOS_RbSuccessorNode_post_lt {n m : Node α} (h : LOS_RbSuccessorNode (some n) = some m) :
    m.post.length < n.post.length := by
  have hs := LOS_RbSuccessorNode_spec n
  rw [h] at hs
  have := congrArg List.length hs.2.2
  simp only [List.length_cons] at this
  omega

-- ============================================================ lookups

/-- The loop of `LOS_RbGetNode`: `pstX` is the subtree `sub` at the end
of the way `ps` down, `pstY` the node visited last. -/
def LOS_RbGetNode.loop (t : LosRbTree κ α) (pKey : κ) (pstY : Option (Node α)) :
    List (Frame α) → BTree α → Bool × Option (Node α)
  | _, .nil => (false, pstY)
  | ps, .node l a r =>
    let ulCmpResult := t.pfCmpKey pKey (t.pfGetKey a)
    if ulCmpResult = RB_EQUAL then (true, some ⟨ps, l, a, r⟩)
    else if ulCmpResult = RB_SMALLER then loop t pKey (some ⟨ps, l, a, r⟩) (.left a r :: ps) l
    else loop t pKey (some ⟨ps, l, a, r⟩) (.right l a :: ps) r

/-- `LOS_RbGetNode`: `TRUE` and the node whose key compares equal to
`pKey`, or `FALSE` and the last node the search visited. `pstY` starts
at the root, which is read back only when the loop does not run, when
the root is `stNilT`. -/
def LOS_RbGetNode (t : LosRbTree κ α) (pKey : κ) : Bool × Option (Node α) :=
  LOS_RbGetNode.loop t pKey none [] t.pstRoot

-- `h` is read by the termination proof only
set_option linter.unusedVariables false in
/-- The loop of `LOS_RbGetNextNode` from `pNode`: successors until one
whose key `pKey` compares smaller than. -/
def LOS_RbGetNextNode.scan (t : LosRbTree κ α) (pKey : κ) (pNode : Node α) : Option (Node α) :=
  match h : LOS_RbSuccessorNode (some pNode) with
  | none => none
  | some n =>
    if t.pfCmpKey pKey (t.pfGetKey n.val) = RB_SMALLER then some n
    else scan t pKey n
termination_by pNode.post.length
decreasing_by exact LOS_RbSuccessorNode_post_lt h

/-- `LOS_RbGetNextNode`: the successor of the node found, or from the
last node the search visited, that node or the first successor whose key
is bigger than `pKey`. -/
def LOS_RbGetNextNode (t : LosRbTree κ α) (pKey : κ) : Option (Node α) :=
  match LOS_RbGetNode t pKey with
  | (true, pNode) => LOS_RbSuccessorNode pNode
  | (false, none) => none
  | (false, some pNode) =>
    if t.pfCmpKey pKey (t.pfGetKey pNode.val) = RB_BIGGER then LOS_RbGetNextNode.scan t pKey pNode
    else some pNode

end LiteOsA.Rb
