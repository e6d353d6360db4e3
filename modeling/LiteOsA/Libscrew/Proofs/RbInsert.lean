/-
What `LOS_RbAddNode` keeps: every red-black search tree stays one, and
the new node lands in key order.

# In order

The fixup moves nodes with its rotations and repaints them, and keeps
them in order: `elems`, the elements in order with their colours set
aside, is the same before and after every step
(`OsRbInsertNodeFixup_elems`).

# Balance

`FixupInv` is the invariant of the loop of `OsRbInsertNodeFixup`:
`pstX` is the red root of a balanced subtree, and the way up from it is
balanced for a black subtree of the same black height, so that the red
rule may fail only between `pstX` and its parent. The new node starts
it. Each round keeps it and takes `pstX` closer to the root
(`FixupInv.step`): a red uncle moves the violation two levels up, a
black uncle ends it with the rotations, after which the parent of
`pstX` is black. When the parent is black, painting the root black
leaves a red-black tree (`FixupInv.exit`), and `OsRbInsertNodeFixup_balanced`
puts the two together. Both cases of the uncle have a left and a right
version; the invariants they build are `FixupInv.recolored_left` and
`FixupInv.rotated_left` and their mirrors.

# The insertion

The search of `LOS_RbAddNode` ends at an empty subtree with every key
before it below the new key and every key after it above; the node it
visited last is that subtree's parent, and `LOS_RbInsertOneNodeProcess`
puts the new node in the subtree's place (`insert_cursor`).
`LosRbTree.RbOk` is what a tree keeps: a search tree whose keys do not
read the colour, and a red-black tree. A run of insertions keeps it
(`LOS_RbAddNode_run_spec`), so from `LOS_RbInitTree` the lookups find
exactly the keys added, and the tree stays no deeper than twice the
logarithm of its size.
-/
import LiteOsA.Libscrew.RbInsert
import LiteOsA.Libscrew.Proofs.RbLookup
import LiteOsA.Lib.RedBlack
import Mathlib.Data.List.Sort

namespace LiteOsA.Rb

open BTree RbColor

variable {κ α : Type _}

-- ============================================================ colours

/-- Whether a node is red. -/
def isRed (a : RbElem α) : Bool := decide (a.lColor = LOS_RB_RED)

@[simp] theorem isRed_setColor_red (a : RbElem α) : isRed (a.setColor LOS_RB_RED) = true := rfl

@[simp] theorem isRed_setColor_black (a : RbElem α) : isRed (a.setColor LOS_RB_BLACK) = false := rfl

@[simp] theorem data_setColor (c : RbColor) (a : RbElem α) : (a.setColor c).data = a.data := rfl

@[simp] theorem paint_nil (c : RbColor) : paint c (nil : BTree (RbElem α)) = nil := rfl

@[simp] theorem paint_node (c : RbColor) (l : BTree (RbElem α)) (a : RbElem α) (r : BTree (RbElem α)) :
    paint c (node l a r) = node l (a.setColor c) r := rfl

@[simp] theorem colorOf_node (l : BTree (RbElem α)) (a : RbElem α) (r : BTree (RbElem α)) :
    colorOf (node l a r) = a.lColor := rfl

@[simp] theorem lColor_setColor (c : RbColor) (a : RbElem α) : (a.setColor c).lColor = c := rfl

theorem isRed_eq_true {a : RbElem α} : isRed a = true ↔ a.lColor = LOS_RB_RED := by
  simp [isRed]

theorem colorOf_eq_red {t : BTree (RbElem α)} : colorOf t = LOS_RB_RED ↔ rootRed isRed t = true := by
  cases t with
  | nil => simp [colorOf, rootRed]
  | node l a r => simp [colorOf, rootRed, isRed_eq_true]

theorem parentColor_eq_red {f : Frame (RbElem α)} {ps : List (Frame (RbElem α))} :
    parentColor (f :: ps) = LOS_RB_RED ↔ isRed f.val = true := by
  simp [parentColor, isRed_eq_true]

/-- A balanced subtree painted black at the root is balanced with a
black root. -/
theorem balanced_paint_black {t : BTree (RbElem α)} {c : Bool} {n : Nat}
    (h : Balanced isRed t c n) : ∃ n', Balanced isRed (paint LOS_RB_BLACK t) false n' := by
  cases t with
  | nil => exact ⟨0, .nil⟩
  | node l a r => exact h.blacken (isRed_setColor_black a)

-- ============================================================ in order

/-- The elements in order, with their colours set aside. -/
def elems (t : BTree (RbElem α)) : List α := t.toList.map RbElem.data

@[simp] theorem elems_nil : elems (nil : BTree (RbElem α)) = [] := rfl

@[simp] theorem elems_node (l : BTree (RbElem α)) (a : RbElem α) (r : BTree (RbElem α)) :
    elems (node l a r) = elems l ++ a.data :: elems r := by
  simp [elems]

@[simp] theorem elems_paint (c : RbColor) (t : BTree (RbElem α)) : elems (paint c t) = elems t := by
  cases t <;> simp [elems, paint]

@[simp] theorem OsRbLeftRotateNode_node_node (a : BTree α) (x : α) (b : BTree α) (y : α) (c : BTree α) :
    OsRbLeftRotateNode (node a x (node b y c)) = node (node a x b) y c := rfl

@[simp] theorem OsRbRightRotateNode_node_node (a : BTree α) (x : α) (b : BTree α) (y : α) (c : BTree α) :
    OsRbRightRotateNode (node (node a x b) y c) = node a x (node b y c) := rfl

@[simp] theorem toList_OsRbLeftRotateNode (t : BTree α) : (OsRbLeftRotateNode t).toList = t.toList := by
  unfold OsRbLeftRotateNode
  split <;> simp

@[simp] theorem toList_OsRbRightRotateNode (t : BTree α) : (OsRbRightRotateNode t).toList = t.toList := by
  unfold OsRbRightRotateNode
  split <;> simp

theorem elems_fill_congr (ps : List (Frame (RbElem α))) {t t' : BTree (RbElem α)}
    (h : elems t = elems t') : elems (fill ps t) = elems (fill ps t') := by
  simp only [elems, toList_fill, List.map_append] at h ⊢
  rw [h]

@[simp] theorem elems_frame_fill_map (c : RbColor) (f : Frame (RbElem α)) (t : BTree (RbElem α)) :
    elems ((f.map (RbElem.setColor c)).fill t) = elems (f.fill t) := by
  cases f <;> simp [elems, Frame.map, Frame.fill]

theorem elems_fill_setParentColor (c : RbColor) (ps : List (Frame (RbElem α))) (t : BTree (RbElem α)) :
    elems (fill (setParentColor c ps) t) = elems (fill ps t) := by
  cases ps with
  | nil => rfl
  | cons f ps => exact elems_fill_congr ps (elems_frame_fill_map c f t)

theorem elems_fill_modify {c : Cursor (RbElem α)} {g : BTree (RbElem α) → BTree (RbElem α)}
    (h : elems (g c.sub) = elems c.sub) : elems (c.modify g).fill = elems c.fill :=
  elems_fill_congr c.path h

/-- The rotation at the parent that comes first when `pstX` is an inner
child keeps the elements in order. -/
theorem elems_rotate_parent {c : Cursor (RbElem α)} {rot : BTree (RbElem α) → BTree (RbElem α)}
    (hrot : ∀ t, (rot t).toList = t.toList) :
    elems (c.up.modify rot).fill = elems c.fill := by
  rw [elems_fill_modify (by simp [elems, hrot]), Cursor.fill_up]

/-- The rotations at the grandparent that end the fixup keep the
elements in order. -/
theorem elems_rotate_grandparent {c : Cursor (RbElem α)} {rot : BTree (RbElem α) → BTree (RbElem α)}
    (hrot : ∀ t, (rot t).toList = t.toList) :
    elems ((⟨setParentColor LOS_RB_BLACK c.path, c.sub⟩ : Cursor (RbElem α)).up.up.modify
      (paint LOS_RB_RED) |>.modify rot).fill = elems c.fill := by
  rw [elems_fill_modify (by simp [elems, hrot]), elems_fill_modify (elems_paint _ _)]
  simp only [Cursor.fill_up]
  exact elems_fill_setParentColor _ _ _

/-- The fixup keeps the elements in order. -/
theorem OsRbInsertNodeFixup_elems {c : Cursor (RbElem α)} {t : BTree (RbElem α)}
    (h : OsRbInsertNodeFixup c = some t) : elems t = elems c.fill := by
  fun_induction OsRbInsertNodeFixup c with
  | case1 c _ f g y rest hp _ ih =>
    -- a red uncle: the parent, the uncle and the grandparent repainted
    rw [ih h, Cursor.fill, Cursor.fill, hp]
    simp only [BTree.fill, Frame.fill_left]
    exact elems_fill_congr rest (by simp only [elems_node, elems_frame_fill_map, elems_paint, data_setColor])
  | case2 c _ f g y rest hp _ c' ih =>
    -- a black uncle: one or two rotations
    rw [ih h, Cursor.fill_downLeft, elems_rotate_grandparent toList_OsRbRightRotateNode]
    simp only [c']
    split
    · rfl
    · rw [Cursor.fill_downLeft, elems_rotate_parent toList_OsRbLeftRotateNode]
  | case3 c _ f y g rest hp _ ih =>
    rw [ih h, Cursor.fill, Cursor.fill, hp]
    simp only [BTree.fill, Frame.fill_right]
    exact elems_fill_congr rest (by simp only [elems_node, elems_frame_fill_map, elems_paint, data_setColor])
  | case4 c _ f y g rest hp _ c' ih =>
    rw [ih h, Cursor.fill_downRight, elems_rotate_grandparent toList_OsRbLeftRotateNode]
    simp only [c']
    split
    · rw [Cursor.fill_downRight, elems_rotate_parent toList_OsRbRightRotateNode]
    · rfl
  | case5 => cases h
  | case6 =>
    -- a black parent: the root painted black
    cases h
    exact elems_paint _ _

-- ============================================================ the rounds

section Rounds

variable {c : Cursor (RbElem α)} {f : Frame (RbElem α)} {g p xv : RbElem α}
  {x y s xl xr : BTree (RbElem α)} {rest : List (Frame (RbElem α))}

/-- A black parent: the root painted black, and the fixup is over. -/
theorem OsRbInsertNodeFixup_of_not_red (h : ¬parentColor c.path = LOS_RB_RED) :
    OsRbInsertNodeFixup c = some (paint LOS_RB_BLACK c.fill) := by
  rw [OsRbInsertNodeFixup, if_neg h]

/-- A red parent, the left child of the grandparent, and a red uncle:
parent and uncle black, the grandparent red, and on from it. -/
theorem OsRbInsertNodeFixup_recolor_left (hf : isRed f.val = true) (hy : colorOf y = LOS_RB_RED) :
    OsRbInsertNodeFixup ⟨f :: .left g y :: rest, x⟩ =
      OsRbInsertNodeFixup ⟨rest, node ((f.map (RbElem.setColor LOS_RB_BLACK)).fill x)
        (g.setColor LOS_RB_RED) (paint LOS_RB_BLACK y)⟩ := by
  rw [OsRbInsertNodeFixup, if_pos (parentColor_eq_red.mpr hf)]
  simp only [if_pos hy]

/-- A red parent and a black uncle, both left children: the parent
black, the grandparent red and rotated right; `pstX` stays where it is,
below its parent, which took the grandparent's place. -/
theorem OsRbInsertNodeFixup_rotate_left_left (hp : isRed p = true) (hy : ¬colorOf y = LOS_RB_RED) :
    OsRbInsertNodeFixup ⟨.left p s :: .left g y :: rest, x⟩ =
      OsRbInsertNodeFixup
        ⟨.left (p.setColor LOS_RB_BLACK) (node s (g.setColor LOS_RB_RED) y) :: rest, x⟩ := by
  rw [OsRbInsertNodeFixup, if_pos ((parentColor_eq_red (f := .left p s)).mpr hp)]
  simp only [if_neg hy]
  rfl

/-- A red parent on the left with `pstX` its right child, and a black
uncle: first the parent rotated left below `pstX`, then as in the outer
case, with `pstX` in its parent's place and the old parent as `pstX`. -/
theorem OsRbInsertNodeFixup_rotate_left_right (hp : isRed p = true) (hy : ¬colorOf y = LOS_RB_RED) :
    OsRbInsertNodeFixup ⟨.right s p :: .left g y :: rest, node xl xv xr⟩ =
      OsRbInsertNodeFixup
        ⟨.left (xv.setColor LOS_RB_BLACK) (node xr (g.setColor LOS_RB_RED) y) :: rest, node s p xl⟩ := by
  rw [OsRbInsertNodeFixup, if_pos ((parentColor_eq_red (f := .right s p)).mpr hp)]
  simp only [if_neg hy]
  rfl

/-- The mirror of `OsRbInsertNodeFixup_recolor_left`: the parent is the
right child of the grandparent. -/
theorem OsRbInsertNodeFixup_recolor_right (hf : isRed f.val = true) (hy : colorOf y = LOS_RB_RED) :
    OsRbInsertNodeFixup ⟨f :: .right y g :: rest, x⟩ =
      OsRbInsertNodeFixup ⟨rest, node (paint LOS_RB_BLACK y) (g.setColor LOS_RB_RED)
        ((f.map (RbElem.setColor LOS_RB_BLACK)).fill x)⟩ := by
  rw [OsRbInsertNodeFixup, if_pos (parentColor_eq_red.mpr hf)]
  simp only [if_pos hy]

/-- The mirror of `OsRbInsertNodeFixup_rotate_left_left`. -/
theorem OsRbInsertNodeFixup_rotate_right_right (hp : isRed p = true) (hy : ¬colorOf y = LOS_RB_RED) :
    OsRbInsertNodeFixup ⟨.right s p :: .right y g :: rest, x⟩ =
      OsRbInsertNodeFixup
        ⟨.right (node y (g.setColor LOS_RB_RED) s) (p.setColor LOS_RB_BLACK) :: rest, x⟩ := by
  rw [OsRbInsertNodeFixup, if_pos ((parentColor_eq_red (f := .right s p)).mpr hp)]
  simp only [if_neg hy]
  rfl

/-- The mirror of `OsRbInsertNodeFixup_rotate_left_right`. -/
theorem OsRbInsertNodeFixup_rotate_right_left (hp : isRed p = true) (hy : ¬colorOf y = LOS_RB_RED) :
    OsRbInsertNodeFixup ⟨.left p s :: .right y g :: rest, node xl xv xr⟩ =
      OsRbInsertNodeFixup
        ⟨.right (node y (g.setColor LOS_RB_RED) xl) (xv.setColor LOS_RB_BLACK) :: rest, node xr p s⟩ := by
  rw [OsRbInsertNodeFixup, if_pos ((parentColor_eq_red (f := .left p s)).mpr hp)]
  simp only [if_neg hy]
  rfl

end Rounds

-- ============================================================ balance

/-- The invariant of the loop of `OsRbInsertNodeFixup`: `pstX` is the
red root of a balanced subtree, and the way up is balanced for a black
subtree of that black height. -/
def FixupInv (c : Cursor (RbElem α)) : Prop :=
  ∃ n, Balanced isRed c.sub true n ∧ PathBalanced isRed c.path false n

section Balance

variable {c : Cursor (RbElem α)} {f : Frame (RbElem α)} {g p : RbElem α}
  {x y s P : BTree (RbElem α)} {ps rest : List (Frame (RbElem α))} {n : Nat}

/-- A red subtree painted black: one black node more on every way down. -/
theorem balanced_paint_black_of_red (h : Balanced isRed y true n) :
    Balanced isRed (paint LOS_RB_BLACK y) false (n + 1) := by
  cases h with
  | red _ hl hr => exact .black (isRed_setColor_black _) hl hr

/-- Below a red parent: the parent's subtree painted black over `pstX`
is balanced, and the way up from the parent is balanced for a red
subtree. -/
theorem pathBalanced_red_parent (hp : PathBalanced isRed (f :: ps) false n)
    (hf : isRed f.val = true) (hx : Balanced isRed x true n) :
    Balanced isRed ((f.map (RbElem.setColor LOS_RB_BLACK)).fill x) false (n + 1) ∧
      PathBalanced isRed ps true n := by
  cases hp with
  | redL _ hs hps => exact ⟨.black (isRed_setColor_black _) hx hs, hps⟩
  | redR _ hs hps => exact ⟨.black (isRed_setColor_black _) hs hx, hps⟩
  | blackL ha => simp [Frame.val, ha] at hf
  | blackR ha => simp [Frame.val, ha] at hf

/-- The colour index of a balanced subtree with a red root. -/
theorem balanced_red_of_red {c : Bool} (h : Balanced isRed y c n) (hy : colorOf y = LOS_RB_RED) :
    Balanced isRed y true n := by
  have hc := h.color_eq
  rw [colorOf_eq_red.mp hy] at hc
  exact hc ▸ h

/-- The colour index of a balanced subtree with a black root. -/
theorem balanced_black_of_not_red {c : Bool} (h : Balanced isRed y c n)
    (hy : ¬colorOf y = LOS_RB_RED) : Balanced isRed y false n := by
  have hc := h.color_eq
  rw [colorOf_eq_red, Bool.not_eq_true] at hy
  rw [hy] at hc
  exact hc ▸ h

/-- After a red uncle: the grandparent red over its two black children,
one level of black height up. -/
theorem FixupInv.recolored_left (hP : Balanced isRed P false (n + 1)) (hy : Balanced isRed y true n)
    (hrest : PathBalanced isRed rest false (n + 1)) :
    FixupInv ⟨rest, node P (g.setColor LOS_RB_RED) (paint LOS_RB_BLACK y)⟩ :=
  ⟨n + 1, .red (isRed_setColor_red _) hP (balanced_paint_black_of_red hy), hrest⟩

theorem FixupInv.recolored_right (hP : Balanced isRed P false (n + 1)) (hy : Balanced isRed y true n)
    (hrest : PathBalanced isRed rest false (n + 1)) :
    FixupInv ⟨rest, node (paint LOS_RB_BLACK y) (g.setColor LOS_RB_RED) P⟩ :=
  ⟨n + 1, .red (isRed_setColor_red _) (balanced_paint_black_of_red hy) hP, hrest⟩

/-- After the rotations: `pstX` below a black parent whose other child
is the red old grandparent. -/
theorem FixupInv.rotated_left (hx : Balanced isRed x true n) (hs : Balanced isRed s false n)
    (hy : Balanced isRed y false n) (hrest : PathBalanced isRed rest false (n + 1)) :
    FixupInv ⟨.left (p.setColor LOS_RB_BLACK) (node s (g.setColor LOS_RB_RED) y) :: rest, x⟩ :=
  ⟨n, hx, .blackL (isRed_setColor_black _) (.red (isRed_setColor_red _) hs hy) hrest⟩

theorem FixupInv.rotated_right (hx : Balanced isRed x true n) (hs : Balanced isRed s false n)
    (hy : Balanced isRed y false n) (hrest : PathBalanced isRed rest false (n + 1)) :
    FixupInv ⟨.right (node y (g.setColor LOS_RB_RED) s) (p.setColor LOS_RB_BLACK) :: rest, x⟩ :=
  ⟨n, hx, .blackR (isRed_setColor_black _) (.red (isRed_setColor_red _) hy hs) hrest⟩

/-- One round of the loop keeps the invariant and takes `pstX` closer
to the root. A red parent is not the root, so there is a grandparent,
and it is black. -/
theorem FixupInv.step (hc : FixupInv c) (hred : parentColor c.path = LOS_RB_RED) :
    ∃ c', OsRbInsertNodeFixup c = OsRbInsertNodeFixup c' ∧ FixupInv c' ∧
      c'.path.length < c.path.length := by
  obtain ⟨ps, x⟩ := c
  obtain ⟨n, hx, hp⟩ := hc
  cases ps with
  | nil => simp [parentColor] at hred
  | cons f ps =>
    have hf : isRed f.val = true := parentColor_eq_red.mp hred
    obtain ⟨hP, hps⟩ := pathBalanced_red_parent hp hf hx
    -- the grandparent is black; the uncle decides
    cases hps with
    | @blackL g y rest _ _ _ _ hy hrest =>
      by_cases hyr : colorOf y = LOS_RB_RED
      · exact ⟨_, OsRbInsertNodeFixup_recolor_left hf hyr,
          .recolored_left hP (balanced_red_of_red hy hyr) hrest, by simp only [List.length_cons]; omega⟩
      · have hyb := balanced_black_of_not_red hy hyr
        cases hp with
        | redL hpr hs _ =>
          exact ⟨_, OsRbInsertNodeFixup_rotate_left_left hpr hyr, .rotated_left hx hs hyb hrest, by simp only [List.length_cons]; omega⟩
        | redR hpr hs _ =>
          cases hx with
          | red _ hxl hxr =>
            exact ⟨_, OsRbInsertNodeFixup_rotate_left_right hpr hyr,
              .rotated_left (.red hpr hs hxl) hxr hyb hrest, by simp only [List.length_cons]; omega⟩
        | blackL ha => simp [Frame.val, ha] at hf
        | blackR ha => simp [Frame.val, ha] at hf
    | @blackR y g rest _ _ _ _ hy hrest =>
      by_cases hyr : colorOf y = LOS_RB_RED
      · exact ⟨_, OsRbInsertNodeFixup_recolor_right hf hyr,
          .recolored_right hP (balanced_red_of_red hy hyr) hrest, by simp only [List.length_cons]; omega⟩
      · have hyb := balanced_black_of_not_red hy hyr
        cases hp with
        | redL hpr hs _ =>
          cases hx with
          | red _ hxl hxr =>
            exact ⟨_, OsRbInsertNodeFixup_rotate_right_left hpr hyr,
              .rotated_right (.red hpr hxr hs) hxl hyb hrest, by simp only [List.length_cons]; omega⟩
        | redR hpr hs _ =>
          exact ⟨_, OsRbInsertNodeFixup_rotate_right_right hpr hyr, .rotated_right hx hs hyb hrest, by simp only [List.length_cons]; omega⟩
        | blackL ha => simp [Frame.val, ha] at hf
        | blackR ha => simp [Frame.val, ha] at hf

/-- Below a black parent, or at the root, painting the root black
leaves a red-black tree. -/
theorem FixupInv.exit (hc : FixupInv c) (hred : ¬parentColor c.path = LOS_RB_RED) :
    ∃ n, Balanced isRed (paint LOS_RB_BLACK c.fill) false n := by
  obtain ⟨ps, x⟩ := c
  obtain ⟨n, hx, hp⟩ := hc
  cases ps with
  | nil => exact balanced_paint_black hx
  | cons f ps =>
    have hf : isRed f.val = false := by simpa [parentColor_eq_red] using hred
    obtain ⟨N, hN⟩ := (hp.of_black hf true).fill hx
    exact balanced_paint_black hN

/-- The new node, red in the empty subtree a search of a red-black tree
ended at, starts the fixup's invariant. -/
theorem FixupInv.insert (hb : Balanced isRed (fill ps nil) false n) (a : RbElem α) :
    FixupInv ⟨ps, node nil (a.setColor LOS_RB_RED) nil⟩ := by
  obtain ⟨c, m, hnil, hp⟩ := hb.of_fill
  cases hnil
  exact ⟨0, .red (isRed_setColor_red a) .nil .nil, hp⟩

/-- From its invariant, the fixup returns a red-black tree. -/
theorem OsRbInsertNodeFixup_balanced (hc : FixupInv c) :
    ∃ t, OsRbInsertNodeFixup c = some t ∧ ∃ n, Balanced isRed t false n := by
  -- on the length of the way up from `pstX`, which every round shortens
  induction h : c.path.length using Nat.strong_induction_on generalizing c with
  | _ len ih =>
    by_cases hred : parentColor c.path = LOS_RB_RED
    · obtain ⟨c', heq, hc', hlt⟩ := hc.step hred
      rw [heq]
      exact ih _ (h ▸ hlt) hc' rfl
    · rw [OsRbInsertNodeFixup_of_not_red hred]
      exact ⟨_, rfl, hc.exit hred⟩

end Balance

-- ============================================================ the insertion

/-- Inserting before the first element `a` is in relation with, where
that is right after `pre`. -/
theorem orderedInsert_append {r : α → α → Prop} [DecidableRel r] {a : α} {pre post : List α}
    (hpre : ∀ b ∈ pre, ¬r a b) (hpost : ∀ b ∈ post, r a b) :
    (pre ++ post).orderedInsert r a = pre ++ a :: post := by
  induction pre with
  | nil =>
    cases post with
    | nil => rfl
    | cons b post => exact List.orderedInsert_cons_of_le _ _ (hpost b List.mem_cons_self)
  | cons b pre ih =>
    rw [List.cons_append, List.orderedInsert_of_not_le _ _ (hpre b List.mem_cons_self),
      ih fun c hc => hpre c (List.mem_cons_of_mem _ hc)]
    rfl

section Insertion

variable [LinearOrder κ] {t : LosRbTree κ (RbElem α)} {ps : List (Frame (RbElem α))}

/-- What `LOS_RbAddNode` keeps of a tree: a search tree whose keys are
read off the user's structure and not off the colour, and a red-black
tree. -/
structure LosRbTree.RbOk (t : LosRbTree κ (RbElem α)) : Prop extends LosRbTree.Ok t where
  key_setColor : ∀ (c : RbColor) (a : RbElem α), t.pfGetKey (a.setColor c) = t.pfGetKey a
  balanced : ∃ n, Balanced isRed t.pstRoot false n

/-- Whether the keys increase in order depends on the elements with
their colours set aside, when the keys do not read the colours. -/
theorem sorted_iff_of_map_data (hkey : ∀ (c : RbColor) (a : RbElem α), t.pfGetKey (a.setColor c) = t.pfGetKey a)
    {l₁ l₂ : List (RbElem α)} (h : l₁.map RbElem.data = l₂.map RbElem.data) :
    l₁.Pairwise (fun x y => t.pfGetKey x < t.pfGetKey y) ↔
      l₂.Pairwise (fun x y => t.pfGetKey x < t.pfGetKey y) := by
  have hdata : ∀ l : List (RbElem α), l.Pairwise (fun x y => t.pfGetKey x < t.pfGetKey y) ↔
      (l.map RbElem.data).Pairwise
        (fun d e => t.pfGetKey ⟨LOS_RB_RED, d⟩ < t.pfGetKey ⟨LOS_RB_RED, e⟩) := by
    intro l
    rw [List.pairwise_map]
    exact List.Pairwise.iff fun a b => by rw [← hkey LOS_RB_RED a, ← hkey LOS_RB_RED b]; rfl
  rw [hdata, hdata, h]

/-- No key of a search tree is the key a search ended at an empty
subtree for. -/
theorem Zoomed.forall_ne {k : κ} (hfill : fill ps nil = t.pstRoot) (hz : Zoomed t k ps) :
    ∀ x ∈ t.pstRoot.toList, t.pfGetKey x ≠ k := by
  intro x hx hkx
  rw [← hfill, toList_fill, toList_nil, List.nil_append, List.mem_append] at hx
  rcases hx with hx | hx
  · exact absurd hkx (ne_of_lt (hz.1 x hx))
  · exact absurd hkx (ne_of_gt (hz.2 x hx))

/-- An element whose key a search ended at an empty subtree for, put in
that subtree's place, keeps the keys increasing. -/
theorem sorted_insert (ht : t.Ok) {a : RbElem α} (hfill : fill ps nil = t.pstRoot)
    (hz : Zoomed t (t.pfGetKey a) ps) :
    (fill ps (node nil a nil)).toList.Pairwise (fun x y => t.pfGetKey x < t.pfGetKey y) := by
  have hs := ht.sorted
  rw [← hfill, toList_fill, toList_nil, List.nil_append, List.pairwise_append] at hs
  obtain ⟨hpre, hpost, hcross⟩ := hs
  rw [toList_fill, toList_node, toList_nil, List.nil_append, List.singleton_append,
    List.pairwise_append, List.pairwise_cons]
  refine ⟨hpre, ⟨hz.2, hpost⟩, fun x hx y hy => ?_⟩
  rcases List.mem_cons.mp hy with rfl | hy
  · exact hz.1 x hx
  · exact hcross x hx y hy

/-- `LOS_RbInsertOneNodeProcess` below the node the search visited last
puts the new element, red, in the empty subtree the search ended at. -/
theorem insert_cursor (ht : t.RbOk) {pstNew : RbElem α} (hz : Zoomed t (t.pfGetKey pstNew) ps) :
    LOS_RbInsertOneNodeProcess t (parentOf ps nil) pstNew =
      (OsRbInsertNodeFixup ⟨ps, node nil (pstNew.setColor LOS_RB_RED) nil⟩).map
        fun root => { t with pstRoot := root } := by
  have hk : t.pfGetKey (pstNew.setColor LOS_RB_RED) = t.pfGetKey pstNew := ht.key_setColor _ _
  cases ps with
  | nil => rfl
  | cons f ps =>
    cases f with
    | left a r =>
      -- the search went left from `a`: the new key is below `a`'s
      have hlt : t.pfGetKey pstNew < t.pfGetKey a := hz.2 a List.mem_cons_self
      simp only [LOS_RbInsertOneNodeProcess, parentOf, hk, (ht.cmp_smaller _ _).mpr hlt, if_true]
    | right l a =>
      -- the search went right from `a`: the new key is above `a`'s
      have hlt : t.pfGetKey a < t.pfGetKey pstNew := hz.1 a (by simp)
      have hns : ¬t.pfCmpKey (t.pfGetKey pstNew) (t.pfGetKey a) = RB_SMALLER :=
        fun h => absurd ((ht.cmp_smaller _ _).mp h) (not_lt.mpr hlt.le)
      simp only [LOS_RbInsertOneNodeProcess, parentOf, hk, if_neg hns]

/-- `LOS_RbAddNode` on a red-black search tree: `FALSE` and the tree as
it was when a node has the new key, or else the fixup from the new node
in the empty subtree the search for its key ended at. -/
theorem LOS_RbAddNode_cases (ht : t.RbOk) (pstNew : RbElem α) :
    ((∃ x ∈ t.pstRoot.toList, t.pfGetKey x = t.pfGetKey pstNew) ∧
        LOS_RbAddNode t pstNew = some (false, t)) ∨
      ∃ ps, fill ps nil = t.pstRoot ∧ Zoomed t (t.pfGetKey pstNew) ps ∧
        LOS_RbAddNode t pstNew = (OsRbInsertNodeFixup ⟨ps, node nil (pstNew.setColor LOS_RB_RED) nil⟩).map
          fun root => (true, { t with pstRoot := root }) := by
  unfold LOS_RbAddNode LOS_RbGetNode
  have hz : Zoomed t (t.pfGetKey pstNew) [] := ⟨nofun, nofun⟩
  rcases LOS_RbGetNode.loop_cases ht.toOk (rfl : fill [] t.pstRoot = t.pstRoot) hz
    (rfl : (none : Option (Node (RbElem α))) = parentOf [] t.pstRoot) with
    ⟨n, hres, hn, hkey⟩ | ⟨ps, hres, hfill, hz⟩
  · -- found: the node's key is the new key
    refine .inl ⟨⟨n.val, ?_, hkey⟩, by rw [hres]⟩
    rw [← hn, Node.toList_fill]
    exact List.mem_append_right _ List.mem_cons_self
  · refine .inr ⟨ps, hfill, hz, ?_⟩
    rw [hres]
    dsimp only
    rw [insert_cursor ht hz, Option.map_map]
    rfl

/-- The fixup from the new node in the empty subtree a search ended at
returns a red-black search tree: the old elements in order, with the
new one between the keys below its own and the keys above. -/
theorem insert_fixup_spec (ht : t.RbOk) {pstNew : RbElem α} (hfill : fill ps nil = t.pstRoot)
    (hz : Zoomed t (t.pfGetKey pstNew) ps) :
    ∃ root, OsRbInsertNodeFixup ⟨ps, node nil (pstNew.setColor LOS_RB_RED) nil⟩ = some root ∧
      ({ t with pstRoot := root } : LosRbTree κ (RbElem α)).RbOk ∧
      elems root = (before ps).map RbElem.data ++ pstNew.data :: (after ps).map RbElem.data := by
  obtain ⟨N, hN⟩ := ht.balanced
  obtain ⟨root, hfix, hbal⟩ := OsRbInsertNodeFixup_balanced (FixupInv.insert (hfill ▸ hN) pstNew)
  have helems := OsRbInsertNodeFixup_elems hfix
  refine ⟨root, hfix, ⟨⟨ht.cmp_equal, ht.cmp_smaller, ht.cmp_bigger, ?_⟩, ht.key_setColor, hbal⟩, ?_⟩
  · -- the keys increase in order as they do with the new node put in place
    have hz' : Zoomed t (t.pfGetKey (pstNew.setColor LOS_RB_RED)) ps := by
      rw [ht.key_setColor]
      exact hz
    exact (sorted_iff_of_map_data ht.key_setColor helems).mpr (sorted_insert ht.toOk hfill hz')
  · rw [helems]
    simp [elems, Cursor.fill, toList_fill]

/-- The keys of a red-black search tree are the keys of its elements
with their colours set aside. -/
theorem LosRbTree.RbOk.exists_key_iff (ht : t.RbOk) (l : List (RbElem α)) (k : κ) :
    (∃ x ∈ l, t.pfGetKey x = k) ↔ ∃ d ∈ l.map RbElem.data, t.pfGetKey ⟨LOS_RB_RED, d⟩ = k := by
  simp only [List.mem_map, exists_exists_and_eq_and]
  exact exists_congr fun x => and_congr_right fun _ => by rw [← ht.key_setColor LOS_RB_RED x]; rfl

/-- `LOS_RbAddNode` on a red-black search tree returns one, `FALSE`
exactly when the new key was there, with the keys it had and the new
key. -/
theorem LOS_RbAddNode_keys (ht : t.RbOk) (pstNew : RbElem α) :
    ∃ b root, LOS_RbAddNode t pstNew = some (b, { t with pstRoot := root }) ∧
      ({ t with pstRoot := root } : LosRbTree κ (RbElem α)).RbOk ∧
      (b = false ↔ ∃ x ∈ t.pstRoot.toList, t.pfGetKey x = t.pfGetKey pstNew) ∧
      ∀ k, (∃ x ∈ root.toList, t.pfGetKey x = k) ↔
        (∃ x ∈ t.pstRoot.toList, t.pfGetKey x = k) ∨ t.pfGetKey pstNew = k := by
  rcases LOS_RbAddNode_cases ht pstNew with ⟨⟨x, hx, hkx⟩, h⟩ | ⟨ps, hfill, hz, h⟩
  · -- refused: the key was there
    refine ⟨false, t.pstRoot, h, ht, iff_of_true rfl ⟨x, hx, hkx⟩, fun k => ⟨.inl, ?_⟩⟩
    rintro (hk | rfl)
    · exact hk
    · exact ⟨x, hx, hkx⟩
  · obtain ⟨root, hfix, hok, helems⟩ := insert_fixup_spec ht hfill hz
    refine ⟨true, root, by rw [h, hfix]; rfl, hok,
      iff_of_false (by decide) fun ⟨x, hx, hkx⟩ => Zoomed.forall_ne hfill hz x hx hkx, fun k => ?_⟩
    have hroot : t.pstRoot.toList.map RbElem.data =
        (before ps).map RbElem.data ++ (after ps).map RbElem.data := by
      rw [← hfill, toList_fill]
      simp
    rw [ht.exists_key_iff, ht.exists_key_iff, show root.toList.map RbElem.data = elems root from rfl,
      helems, hroot, ← ht.key_setColor LOS_RB_RED pstNew]
    simp only [List.mem_append, List.mem_cons]
    constructor
    · rintro ⟨d, hd | rfl | hd, hdk⟩
      · exact .inl ⟨d, .inl hd, hdk⟩
      · exact .inr hdk
      · exact .inl ⟨d, .inr hd, hdk⟩
    · rintro (⟨d, hd | hd, hdk⟩ | hk)
      · exact ⟨d, .inl hd, hdk⟩
      · exact ⟨d, .inr (.inr hd), hdk⟩
      · exact ⟨pstNew.data, .inr (.inl rfl), hk⟩

/-- `LOS_RbAddNode` on a red-black search tree always returns, and
leaves a red-black search tree with the same callbacks. -/
theorem LOS_RbAddNode_rbOk (ht : t.RbOk) (pstNew : RbElem α) :
    ∃ b root, LOS_RbAddNode t pstNew = some (b, { t with pstRoot := root }) ∧
      ({ t with pstRoot := root } : LosRbTree κ (RbElem α)).RbOk := by
  rcases LOS_RbAddNode_cases ht pstNew with ⟨-, h⟩ | ⟨ps, hfill, hz, h⟩
  · exact ⟨false, t.pstRoot, h, ht⟩
  · obtain ⟨root, hfix, hok, -⟩ := insert_fixup_spec ht hfill hz
    exact ⟨true, root, by rw [h, hfix]; rfl, hok⟩

/-- The tree of `2` over a red `1`, keyed by the element, with `3`
added. -/
theorem LOS_RbAddNode_rbOk_three :
    ∃ t : LosRbTree Nat (RbElem Nat),
      t.pstRoot = .node (.node .nil ⟨LOS_RB_RED, 1⟩ .nil) ⟨LOS_RB_BLACK, 2⟩ .nil ∧ t.RbOk ∧
      ∃ b root, LOS_RbAddNode t ⟨LOS_RB_RED, 3⟩ = some (b, { t with pstRoot := root }) ∧
        ({ t with pstRoot := root } : LosRbTree Nat (RbElem Nat)).RbOk := by
  have ht : (⟨.node (.node .nil ⟨LOS_RB_RED, 1⟩ .nil) ⟨LOS_RB_BLACK, 2⟩ .nil, cmpKey, RbElem.data⟩ :
      LosRbTree Nat (RbElem Nat)).RbOk :=
    ⟨LosRbTree.Ok.of_cmpKey (by decide), fun _ _ => rfl, ⟨1, .black rfl (.red rfl .nil .nil) .nil⟩⟩
  exact ⟨_, rfl, ht, LOS_RbAddNode_rbOk ht _⟩

/-- `LOS_RbAddNode` refuses exactly a key the tree has, and then leaves
the tree as it was; otherwise the elements in order are the old ones
with the new one inserted in key order. -/
theorem LOS_RbAddNode_inorder (ht : t.RbOk) (pstNew : RbElem α) :
    ∃ b root, LOS_RbAddNode t pstNew = some (b, { t with pstRoot := root }) ∧
      (b = false ↔ ∃ x ∈ t.pstRoot.toList, t.pfGetKey x = t.pfGetKey pstNew) ∧
      (b = false → root = t.pstRoot) ∧
      (b = true → elems root =
        (t.pstRoot.toList.orderedInsert (fun x y => t.pfGetKey x ≤ t.pfGetKey y) pstNew).map
          RbElem.data) := by
  rcases LOS_RbAddNode_cases ht pstNew with ⟨hex, h⟩ | ⟨ps, hfill, hz, h⟩
  · exact ⟨false, t.pstRoot, h, iff_of_true rfl hex, fun _ => rfl, nofun⟩
  · obtain ⟨root, hfix, -, helems⟩ := insert_fixup_spec ht hfill hz
    refine ⟨true, root, by rw [h, hfix]; rfl,
      iff_of_false (by decide) fun ⟨x, hx, hkx⟩ => Zoomed.forall_ne hfill hz x hx hkx, nofun,
      fun _ => ?_⟩
    -- in order, the new element comes after the keys below its own and before those above
    have hins : t.pstRoot.toList.orderedInsert (fun x y => t.pfGetKey x ≤ t.pfGetKey y) pstNew =
        before ps ++ pstNew :: after ps := by
      rw [← hfill, toList_fill, toList_nil, List.nil_append]
      exact orderedInsert_append (fun b hb => not_le.mpr (hz.1 b hb)) fun b hb => (hz.2 b hb).le
    rw [helems, hins]
    simp

/-- The tree of `2` over a red `1`, keyed by the element, with `3`
added in order. -/
theorem LOS_RbAddNode_inorder_three :
    ∃ t : LosRbTree Nat (RbElem Nat),
      t.pstRoot = .node (.node .nil ⟨LOS_RB_RED, 1⟩ .nil) ⟨LOS_RB_BLACK, 2⟩ .nil ∧ t.RbOk ∧
      ∃ b root, LOS_RbAddNode t ⟨LOS_RB_RED, 3⟩ = some (b, { t with pstRoot := root }) ∧
        (b = false ↔ ∃ x ∈ t.pstRoot.toList, t.pfGetKey x = t.pfGetKey ⟨LOS_RB_RED, 3⟩) ∧
        (b = false → root = t.pstRoot) ∧
        (b = true → elems root =
          (t.pstRoot.toList.orderedInsert (fun x y => t.pfGetKey x ≤ t.pfGetKey y)
            ⟨LOS_RB_RED, 3⟩).map RbElem.data) := by
  have ht : (⟨.node (.node .nil ⟨LOS_RB_RED, 1⟩ .nil) ⟨LOS_RB_BLACK, 2⟩ .nil, cmpKey, RbElem.data⟩ :
      LosRbTree Nat (RbElem Nat)).RbOk :=
    ⟨LosRbTree.Ok.of_cmpKey (by decide), fun _ _ => rfl, ⟨1, .black rfl (.red rfl .nil .nil) .nil⟩⟩
  exact ⟨_, rfl, ht, LOS_RbAddNode_inorder ht _⟩

/-- A run of `LOS_RbAddNode` from a red-black search tree returns one,
holding the keys it had and the keys added. -/
theorem LOS_RbAddNode_run_spec (ht : t.RbOk) (news : List (RbElem α)) :
    ∃ root, news.foldlM (fun t a => (LOS_RbAddNode t a).map Prod.snd) t =
        some { t with pstRoot := root } ∧
      ({ t with pstRoot := root } : LosRbTree κ (RbElem α)).RbOk ∧
      ∀ k, (∃ x ∈ root.toList, t.pfGetKey x = k) ↔
        (∃ x ∈ t.pstRoot.toList, t.pfGetKey x = k) ∨ ∃ a ∈ news, t.pfGetKey a = k := by
  induction news generalizing t with
  | nil => exact ⟨t.pstRoot, rfl, ht, fun k => by simp⟩
  | cons a news ih =>
    obtain ⟨b, root₁, h₁, hok₁, -, hkeys₁⟩ := LOS_RbAddNode_keys ht a
    obtain ⟨root, hrun, hok, hkeys⟩ := ih hok₁
    refine ⟨root, ?_, hok, fun k => ?_⟩
    · rw [List.foldlM_cons, h₁]
      exact hrun
    · rw [hkeys, hkeys₁]
      simp only [List.mem_cons, or_and_right, exists_or, exists_eq_left, or_assoc]

end Insertion

/-- Every run of `LOS_RbAddNode` from `LOS_RbInitTree` with keys of a
linear order read off the user's structure. -/
theorem rb_add_run_from_init [LinearOrder κ] (getKey : α → κ) (news : List (RbElem α)) :
    ∃ t : LosRbTree κ (RbElem α),
      news.foldlM (fun t a => (LOS_RbAddNode t a).map Prod.snd)
        (LOS_RbInitTree cmpKey fun a => getKey a.data) = some t ∧
      t.RbOk ∧
      (∀ k, (LOS_RbGetNode t k).1 = true ↔ ∃ a ∈ news, getKey a.data = k) ∧
      t.pstRoot.depth ≤ 2 * Nat.log 2 (t.pstRoot.toList.length + 1) := by
  have h₀ : (LOS_RbInitTree cmpKey fun a : RbElem α => getKey a.data).RbOk :=
    ⟨LosRbTree.Ok.of_cmpKey List.Pairwise.nil, fun _ _ => rfl, ⟨0, .nil⟩⟩
  obtain ⟨root, hrun, hok, hkeys⟩ := LOS_RbAddNode_run_spec h₀ news
  refine ⟨_, hrun, hok, fun k => ?_, ?_⟩
  · -- the lookups of a search tree find exactly its keys
    rw [(LOS_RbGetNode_spec hok.toOk k).fst_eq_true_iff]
    simpa [LOS_RbInitTree] using hkeys k
  · obtain ⟨n, hn⟩ := hok.balanced
    exact hn.depth_le_log

end LiteOsA.Rb
