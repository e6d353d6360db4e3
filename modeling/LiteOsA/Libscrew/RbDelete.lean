/-
The deletion of the red-black tree of libscrew (los_rbtree.c):
`LOS_RbDelNode`, `OsRbDeleteNode` and `OsRbDeleteNodeFixup`.

# Taking a node out

`OsRbDeleteNode` takes out the node `pstZ` itself, where the book's
algorithm would copy the successor's element into it: the user's
structure is around the node. A node with a `stNilT` child gives its
place to the other child. A node with two children gives its place to
its successor, the last node down the left children of
`pstZ->pstRight`: the successor's right child takes the successor's
place, and the successor takes `pstZ`'s, with `pstZ`'s colour. When the
node that left its place was black, the fixup runs from the child that
took the place.

The node to delete is a `BTree.Node`: its subtrees, element and way up,
as the lookups give it. The fixup's `pstNode` is a `BTree.Cursor` and
may stand at an empty subtree: the code then follows the parent link of
`stNilT`, which the deletion sets to the parent of the place and the
rotations save and restore.

# The loop

A round of the loop of `OsRbDeleteNodeFixup` (`OsRbDeleteNodeFixup.round`)
looks at the sibling `pstW` of `pstNode`. A red sibling is painted black
and rotated up over the parent painted red, and the sibling's child
that comes below the parent is the new sibling. Then a sibling with two
black children is painted red and the loop goes on from the parent;
otherwise the sibling, once its outer child is red (after a rotation at
the sibling where only its inner child is), takes the parent's colour
and is rotated up over the parent, its outer child and the parent are
painted black, and the loop goes on from the root, where it ends. Each
round takes `pstNode` up, or leaves it at the same depth on a red parent
where the loop ends next, or at the root (`OsRbDeleteNodeFixup.round_lt`).

# The calls

`RbStep` takes a tree through the calls its users make, adds and
deletes, each with what it returns.

# What is left out

The walks: `OsRbDeleteNode` moves every walk that stands at `pstZ` on to
the successor, and `OsRbDeleteNodeFixup` clears the walks when the tree
is empty; no modelled function walks a tree. `ulNodes`. The checks of
`pstTree`, `pstData` and `pstChild` against `NULL`, of `pstZ` against
`stNilT`, and whether `pstZ` is in a tree: the node is a place in the
tree. The colour and links `pstZ` is reset to once it is out of the
tree.
-/
import LiteOsA.Libscrew.RbInsert

namespace LiteOsA.Rb

open BTree RbColor

variable {κ α : Type _}

/-- `lColor` of the left child of the root of a subtree set to `c`. -/
def paintLeft (c : RbColor) : BTree (RbElem α) → BTree (RbElem α)
  | nil => nil
  | node l a r => node (paint c l) a r

/-- `lColor` of the right child of the root of a subtree set to `c`. -/
def paintRight (c : RbColor) : BTree (RbElem α) → BTree (RbElem α)
  | nil => nil
  | node l a r => node l a (paint c r)

-- ============================================================ the fixup

/-- One round of the loop of `OsRbDeleteNodeFixup`, at a black `pstNode`
that is not the root: the place the loop goes on from. `none` where the
code reads through `NULL`: the children of a sibling that is `stNilT`. -/
def OsRbDeleteNodeFixup.round (c : Cursor (RbElem α)) : Option (Cursor (RbElem α)) :=
  match c.path with
  | .left p w :: rest =>
    -- pstW = pstNode->pstParent->pstRight; a red pstW black, rotated left over the
    -- parent painted red, and pstW the parent's new right child
    let c : Cursor (RbElem α) :=
      if colorOf w = LOS_RB_RED then
        (⟨rest, OsRbLeftRotateNode (node c.sub (p.setColor LOS_RB_RED) (paint LOS_RB_BLACK w))⟩ :
          Cursor (RbElem α)).downLeft.downLeft
      else c
    match c.path, c.sub with
    | .left p (node wl w wr) :: rest, x =>
      if colorOf wl = LOS_RB_BLACK ∧ colorOf wr = LOS_RB_BLACK then
        -- pstW red, and on from the parent
        some ⟨rest, node x p (paint LOS_RB_RED (node wl w wr))⟩
      else
        -- a black outer child: the inner one black, pstW red and rotated right
        let w := if colorOf wr = LOS_RB_BLACK then
            OsRbRightRotateNode (paint LOS_RB_RED (paintLeft LOS_RB_BLACK (node wl w wr)))
          else node wl w wr
        -- pstW takes the parent's colour, the parent and pstW's right child black,
        -- and pstW rotated left over the parent; on from the root
        some ⟨[], fill rest (OsRbLeftRotateNode
          (node x (p.setColor LOS_RB_BLACK) (paintRight LOS_RB_BLACK (paint p.lColor w))))⟩
    | _, _ => none
  | .right w p :: rest =>
    -- pstW = pstNode->pstParent->pstLeft
    let c : Cursor (RbElem α) :=
      if colorOf w = LOS_RB_RED then
        (⟨rest, OsRbRightRotateNode (node (paint LOS_RB_BLACK w) (p.setColor LOS_RB_RED) c.sub)⟩ :
          Cursor (RbElem α)).downRight.downRight
      else c
    match c.path, c.sub with
    | .right (node wl w wr) p :: rest, x =>
      if colorOf wl = LOS_RB_BLACK ∧ colorOf wr = LOS_RB_BLACK then
        some ⟨rest, node (paint LOS_RB_RED (node wl w wr)) p x⟩
      else
        let w := if colorOf wl = LOS_RB_BLACK then
            OsRbLeftRotateNode (paint LOS_RB_RED (paintRight LOS_RB_BLACK (node wl w wr)))
          else node wl w wr
        some ⟨[], fill rest (OsRbRightRotateNode
          (node (paintLeft LOS_RB_BLACK (paint p.lColor w)) (p.setColor LOS_RB_BLACK) x))⟩
    | _, _ => none
  | [] => none

/-- What the loop of `OsRbDeleteNodeFixup` counts down: twice the depth
of `pstNode`, and one more while it is black. -/
def OsRbDeleteNodeFixup.measure (c : Cursor (RbElem α)) : Nat :=
  2 * c.path.length + if colorOf c.sub = LOS_RB_BLACK then 1 else 0

/-- Where a round leaves `pstNode`: at the root, one level up, or at the
same depth on a red node. -/
theorem OsRbDeleteNodeFixup.round_cases {c c' : Cursor (RbElem α)}
    (h : OsRbDeleteNodeFixup.round c = some c') :
    c'.path = [] ∨ c'.path.length + 1 = c.path.length ∨
      (c'.path.length = c.path.length ∧ colorOf c'.sub = LOS_RB_RED) := by
  obtain ⟨_ | ⟨f, rest⟩, x⟩ := c
  · simp [round] at h
  · cases f with
    | left p w =>
      by_cases hw : colorOf w = LOS_RB_RED
      · -- a red sibling: rotated up, and `pstNode` one level down on its red parent
        cases w with
        | nil => simp [colorOf] at hw
        | node wl wv wr =>
          cases wl with
          | nil => simp [round, hw, paint, OsRbLeftRotateNode, Cursor.downLeft] at h
          | node a b d =>
            simp only [round, hw, ↓reduceIte, paint, OsRbLeftRotateNode, Cursor.downLeft] at h
            split at h
            · cases h
              exact .inr (.inr ⟨by simp, rfl⟩)
            · cases h
              exact .inl rfl
      · cases w with
        | nil => simp [round, hw] at h
        | node wl wv wr =>
          simp only [round, hw, ↓reduceIte] at h
          split at h
          · cases h
            exact .inr (.inl rfl)
          · cases h
            exact .inl rfl
    | right w p =>
      by_cases hw : colorOf w = LOS_RB_RED
      · cases w with
        | nil => simp [colorOf] at hw
        | node wl wv wr =>
          cases wr with
          | nil => simp [round, hw, paint, OsRbRightRotateNode, Cursor.downRight] at h
          | node a b d =>
            simp only [round, hw, ↓reduceIte, paint, OsRbRightRotateNode, Cursor.downRight] at h
            split at h
            · cases h
              exact .inr (.inr ⟨by simp, rfl⟩)
            · cases h
              exact .inl rfl
      · cases w with
        | nil => simp [round, hw] at h
        | node wl wv wr =>
          simp only [round, hw, ↓reduceIte] at h
          split at h
          · cases h
            exact .inr (.inl rfl)
          · cases h
            exact .inl rfl

theorem OsRbDeleteNodeFixup.round_lt {c c' : Cursor (RbElem α)} (hp : c.path ≠ [])
    (hb : colorOf c.sub = LOS_RB_BLACK) (h : OsRbDeleteNodeFixup.round c = some c') :
    OsRbDeleteNodeFixup.measure c' < OsRbDeleteNodeFixup.measure c := by
  have hlen : 0 < c.path.length := List.length_pos_iff.mpr hp
  unfold measure
  rw [if_pos hb]
  rcases round_cases h with h' | h' | ⟨h', hred⟩
  · rw [h', List.length_nil]
    split <;> omega
  · split <;> omega
  · rw [if_neg (by rw [hred]; decide)]
    omega

-- `h` and `hr` are read by the termination proof only
set_option linter.unusedVariables false in
/-- `OsRbDeleteNodeFixup` from `pstNode` at the cursor `c`: rounds while
`pstNode` is black and not the root, then `pstNode` painted black. -/
def OsRbDeleteNodeFixup (c : Cursor (RbElem α)) : Option (BTree (RbElem α)) :=
  if h : c.path ≠ [] ∧ colorOf c.sub = LOS_RB_BLACK then
    match hr : OsRbDeleteNodeFixup.round c with
    | some c' => OsRbDeleteNodeFixup c'
    | none => none
  else
    -- pstNode->lColor = LOS_RB_BLACK
    some (fill c.path (paint LOS_RB_BLACK c.sub))
termination_by OsRbDeleteNodeFixup.measure c
decreasing_by exact OsRbDeleteNodeFixup.round_lt h.1 h.2 hr

-- ============================================================ the deletion

/-- The fixup when the node that left its place had colour `lColor`:
none for a red one. -/
def OsRbDeleteNode.fixupIf (c : Cursor (RbElem α)) (lColor : RbColor) : Option (BTree (RbElem α)) :=
  if lColor = LOS_RB_BLACK then OsRbDeleteNodeFixup c else some c.fill

/-- `OsRbDeleteNode` of the node `pstZ`. -/
def OsRbDeleteNode (t : LosRbTree κ (RbElem α)) (pstZ : Node (RbElem α)) :
    Option (LosRbTree κ (RbElem α)) :=
  let root := match pstZ with
    -- a stNilT child: the other child takes pstZ's place
    | ⟨ps, nil, z, r⟩ => OsRbDeleteNode.fixupIf ⟨ps, r⟩ z.lColor
    | ⟨ps, l, z, nil⟩ => OsRbDeleteNode.fixupIf ⟨ps, l⟩ z.lColor
    | ⟨ps, l, z, node rl rv rr⟩ =>
      -- the successor pstY, down the left children of pstZ->pstRight: its right child
      -- takes its place, and it takes pstZ's, with pstZ's colour
      let y := leftmost [] rl rv rr
      OsRbDeleteNode.fixupIf ⟨y.path ++ Frame.right l (y.val.setColor z.lColor) :: ps, y.right⟩ y.val.lColor
  root.map fun root => { t with pstRoot := root }

/-- `LOS_RbDelNode`. -/
def LOS_RbDelNode (t : LosRbTree κ (RbElem α)) (pstNode : Node (RbElem α)) :
    Option (LosRbTree κ (RbElem α)) :=
  OsRbDeleteNode t pstNode

-- ============================================================ the calls

/-- A call on a tree, with what it returns: `LOS_RbAddNode` of an
element, or `LOS_RbDelNode` of a node. -/
inductive RbCall (α : Type _) where
  | add (pstNew : RbElem α) (ret : Bool)
  | del (pstNode : Node (RbElem α))

/-- The calls on a tree as steps; `LOS_RbDelNode` is called on a node
of the tree. -/
inductive RbStep : LosRbTree κ (RbElem α) → RbCall α → LosRbTree κ (RbElem α) → Prop where
  | add {t t' : LosRbTree κ (RbElem α)} {pstNew : RbElem α} {ret : Bool} :
    LOS_RbAddNode t pstNew = some (ret, t') → RbStep t (.add pstNew ret) t'
  | del {t t' : LosRbTree κ (RbElem α)} {pstNode : Node (RbElem α)} :
    pstNode.fill = t.pstRoot → LOS_RbDelNode t pstNode = some t' → RbStep t (.del pstNode) t'

end LiteOsA.Rb
