/-
The insertion of the red-black tree of libscrew (los_rbtree.c):
`LOS_RbAddNode`, `LOS_RbInsertOneNodeProcess`, `OsRbInsertNodeFixup`,
and the rotations `OsRbLeftRotateNode` and `OsRbRightRotateNode`.

# Colours

The lookups of `RbTree.lean` read an element only through `pfGetKey`.
The insertion also reads and writes `lColor` of the `LosRbNode` in it,
so here an element is an `RbElem`: that colour, and the rest of the
user's structure. `lColor` is a `ULONG_T`, but the tree code only ever
writes `LOS_RB_RED` and `LOS_RB_BLACK` into it, and paints a new node
before it links it in: the model's colours are these two. `stNilT` is
black (`OsRbInitTree`), and the insertion never paints it.

# Walking and rotating

The loop of `OsRbInsertNodeFixup` follows `pstX` from the new node up.
Its place is a `BTree.Cursor`: the subtree `pstX` is the root of, and
the way up that `pstX->pstParent` and the parents above it follow;
`pstX = pstParent` is `Cursor.up`. A rotation rewrites the subtree of
the node it rotates: the child it rotates up takes the node's place,
and the node goes down one level, to the side the rotation is named
after. Where the code goes on with a node a rotation moved, the cursor
goes down to it (`Cursor.downLeft`, `Cursor.downRight`): the last two
lines of the rotation make the node that took the place its parent.

# What is left out

The checks of `pstTree`, `pstNew`, `pfGetKey` and `pfCmpKey` against
`NULL`: the model's are values. `LOS_RbGetNode` answers `NULL` only
for these, so the check of `pstX` against `NULL` in `LOS_RbAddNode`
does not arise; its `stNilT`, the model's `none`, is the parent of a new
root. `ulNodes`, which the fixup counts up and no modelled function
reads: the number of nodes is the length of the tree in order. The
saved and restored parent of `stNilT` in the rotations: a tree of values
keeps no parent link at `stNilT`.
-/
import LiteOsA.Libscrew.RbTree

namespace LiteOsA.Rb

open BTree

variable {κ α : Type _}

/-- The colours `LOS_RB_RED` and `LOS_RB_BLACK` that `lColor` holds. -/
inductive RbColor where
  | LOS_RB_RED
  | LOS_RB_BLACK
  deriving DecidableEq, Repr

open RbColor

/-- An element of the tree as the tree code sees it: `lColor` of its
`LosRbNode`, and the rest of the user's structure. -/
structure RbElem (α : Type _) where
  lColor : RbColor
  data : α

/-- `lColor = c`. -/
def RbElem.setColor (c : RbColor) (a : RbElem α) : RbElem α := { a with lColor := c }

/-- `lColor` of the root of a subtree; `stNilT` is black. -/
def colorOf : BTree (RbElem α) → RbColor
  | nil => LOS_RB_BLACK
  | node _ a _ => a.lColor

/-- `lColor` of the root of a subtree set to `c`. -/
def paint (c : RbColor) : BTree (RbElem α) → BTree (RbElem α)
  | nil => nil
  | node l a r => node l (a.setColor c) r

/-- `pstX->pstParent->lColor`, for `pstX` at the end of the way `ps`
down; the parent of the root is `stNilT`. -/
def parentColor : List (Frame (RbElem α)) → RbColor
  | [] => LOS_RB_BLACK
  | f :: _ => f.val.lColor

/-- `pstX->pstParent->lColor = c`. -/
def setParentColor (c : RbColor) : List (Frame (RbElem α)) → List (Frame (RbElem α))
  | [] => []
  | f :: ps => f.map (RbElem.setColor c) :: ps

theorem length_setParentColor (c : RbColor) (ps : List (Frame (RbElem α))) :
    (setParentColor c ps).length = ps.length := by
  cases ps <;> rfl

-- ============================================================ rotations

/-- `OsRbLeftRotateNode` at `pstX`, the root of the subtree: its right
child `pstY` takes its place, `pstX` becomes `pstY`'s left child, and
`pstY`'s left subtree moves over to `pstX`'s right. The code rotates
only where `pstY` is a node; at `stNilT` it would write through the
`NULL` links of `stNilT`, and the model leaves the subtree as it is. -/
def OsRbLeftRotateNode : BTree α → BTree α
  | node a x (node b y c) => node (node a x b) y c
  | t => t

/-- `OsRbRightRotateNode` at `pstY`, the root of the subtree: its left
child `pstX` takes its place, `pstY` becomes `pstX`'s right child, and
`pstX`'s right subtree moves over to `pstY`'s left. -/
def OsRbRightRotateNode : BTree α → BTree α
  | node (node a x b) y c => node a x (node b y c)
  | t => t

-- ============================================================ the fixup

-- `hp` is read by the termination proof only
set_option linter.unusedVariables false in
/-- `OsRbInsertNodeFixup` from `pstX` at the cursor `c`: while
`pstX->pstParent` is red, a red uncle `pstY` is painted black with the
parent, and the loop goes on from the grandparent painted red; a black
uncle ends it with one or two rotations. Then the root is painted
black. `none` where the code reads through `NULL`: a red parent at the
root, whose parent `stNilT` has `NULL` children. -/
def OsRbInsertNodeFixup (c : Cursor (RbElem α)) : Option (BTree (RbElem α)) :=
  if parentColor c.path = LOS_RB_RED then
    match hp : c.path with
    | f :: .left g y :: rest =>
      -- pstParent == pstGParent->pstLeft, pstY = pstGParent->pstRight
      if colorOf y = LOS_RB_RED then
        OsRbInsertNodeFixup
          ⟨rest, node ((f.map (RbElem.setColor LOS_RB_BLACK)).fill c.sub) (g.setColor LOS_RB_RED)
            (paint LOS_RB_BLACK y)⟩
      else
        -- pstParent->pstRight == pstX: pstX = pstParent, rotated left below its right child
        let c' := if f.isLeft then c else (c.up.modify OsRbLeftRotateNode).downLeft
        -- pstX->pstParent black; pstGParent red and rotated right: pstX->pstParent takes
        -- its place, with pstX its left child still
        OsRbInsertNodeFixup
          ((((⟨setParentColor LOS_RB_BLACK c'.path, c'.sub⟩ : Cursor (RbElem α)).up.up.modify
            (paint LOS_RB_RED)).modify OsRbRightRotateNode).downLeft)
    | f :: .right y g :: rest =>
      -- pstParent == pstGParent->pstRight, pstY = pstGParent->pstLeft
      if colorOf y = LOS_RB_RED then
        OsRbInsertNodeFixup
          ⟨rest, node (paint LOS_RB_BLACK y) (g.setColor LOS_RB_RED)
            ((f.map (RbElem.setColor LOS_RB_BLACK)).fill c.sub)⟩
      else
        -- pstParent->pstLeft == pstX: pstX = pstParent, rotated right below its left child
        let c' := if f.isLeft then (c.up.modify OsRbRightRotateNode).downRight else c
        OsRbInsertNodeFixup
          ((((⟨setParentColor LOS_RB_BLACK c'.path, c'.sub⟩ : Cursor (RbElem α)).up.up.modify
            (paint LOS_RB_RED)).modify OsRbLeftRotateNode).downRight)
    | _ => none
  else
    -- pstTree->pstRoot->lColor = LOS_RB_BLACK
    some (paint LOS_RB_BLACK c.fill)
termination_by c.path.length
decreasing_by
  all_goals simp only [hp, List.length_cons]
  · omega
  · -- up twice and down once, from a place no further down than pstX
    refine Nat.lt_of_le_of_lt (Cursor.length_downLeft_le _) ?_
    simp only [Cursor.path_modify, Cursor.length_up, length_setParentColor]
    split
    · simp only [hp, List.length_cons]
      omega
    · have := Cursor.length_downLeft_le (c.up.modify OsRbLeftRotateNode)
      simp only [Cursor.path_modify, Cursor.length_up, hp, List.length_cons] at this
      omega
  · omega
  · refine Nat.lt_of_le_of_lt (Cursor.length_downRight_le _) ?_
    simp only [Cursor.path_modify, Cursor.length_up, length_setParentColor]
    split
    · have := Cursor.length_downRight_le (c.up.modify OsRbRightRotateNode)
      simp only [Cursor.path_modify, Cursor.length_up, hp, List.length_cons] at this
      omega
    · simp only [hp, List.length_cons]
      omega

-- ============================================================ insertion

/-- `LOS_RbInsertOneNodeProcess`: `pstNew` red, with `stNilT` children,
below `pstParent`: its left child when the key of `pstNew` compares
smaller than the parent's, else its right child; the root when
`pstParent` is `stNilT`. Then the fixup. -/
def LOS_RbInsertOneNodeProcess (t : LosRbTree κ (RbElem α)) (pstParent : Option (Node (RbElem α)))
    (pstNew : RbElem α) : Option (LosRbTree κ (RbElem α)) :=
  let pstNew := pstNew.setColor LOS_RB_RED
  let c : Cursor (RbElem α) := match pstParent with
    | none => ⟨[], node nil pstNew nil⟩
    | some ⟨ps, l, p, r⟩ =>
      if t.pfCmpKey (t.pfGetKey pstNew) (t.pfGetKey p) = RB_SMALLER then
        ⟨.left p r :: ps, node nil pstNew nil⟩
      else ⟨.right l p :: ps, node nil pstNew nil⟩
  (OsRbInsertNodeFixup c).map fun root => { t with pstRoot := root }

/-- `LOS_RbAddNode`: `FALSE` and the tree as it was when a node's key
compares equal to the key of `pstNew`; else `TRUE`, with `pstNew`
inserted below the node the search visited last. -/
def LOS_RbAddNode (t : LosRbTree κ (RbElem α)) (pstNew : RbElem α) :
    Option (Bool × LosRbTree κ (RbElem α)) :=
  match LOS_RbGetNode t (t.pfGetKey pstNew) with
  | (true, _) => some (false, t)
  | (false, pstX) => (LOS_RbInsertOneNodeProcess t pstX pstNew).map fun t => (true, t)

/-- `LOS_RbInitTree`: no node, the root is `stNilT`; `pfFree` is left
out with the walks that call it. -/
def LOS_RbInitTree (pfCmpKey : κ → κ → Nat) (pfGetKey : α → κ) : LosRbTree κ α :=
  ⟨nil, pfCmpKey, pfGetKey⟩

end LiteOsA.Rb
