/-
What `LOS_RbDelNode` keeps: a red-black search tree stays one, with the
node taken out of the order.

# In order

The successor splice of `OsRbDeleteNode` leaves the elements in order
without the node, and the rounds of the fixup only rotate and repaint
(`OsRbDeleteNodeFixup_elems`, `OsRbDeleteNode_elems`).

# Balance

`DelInv` is the invariant of the loop of `OsRbDeleteNodeFixup`: the way
up from `pstNode` needs one black node more than `pstNode`'s subtree
has, and that subtree is balanced with a black root, or is a red node
over two balanced subtrees (where the loop ends, and painting it black
mends the tree). A round at a black `pstNode` keeps it (`DelInv.round`);
its cases are one lemma each, on the way the round leaves the tree
(`OsRbDeleteNodeFixup.round_red_left` and the others). After a red
sibling is rotated up, the parent is red and the new sibling black, so
the rest of the round runs from a black sibling in every case
(`SibInv`).
-/
import LiteOsA.Libscrew.RbDelete
import LiteOsA.Libscrew.Proofs.RbInsert

namespace LiteOsA.Rb

open BTree RbColor

variable {κ α : Type _}

-- ============================================================ colours

@[simp] theorem paintLeft_node (c : RbColor) (l : BTree (RbElem α)) (a : RbElem α) (r : BTree (RbElem α)) :
    paintLeft c (node l a r) = node (paint c l) a r := rfl

@[simp] theorem paintRight_node (c : RbColor) (l : BTree (RbElem α)) (a : RbElem α) (r : BTree (RbElem α)) :
    paintRight c (node l a r) = node l a (paint c r) := rfl

@[simp] theorem setColor_setColor (c c' : RbColor) (a : RbElem α) :
    (a.setColor c).setColor c' = a.setColor c' := rfl

/-- An element that takes the colour of `b` is red as `b` is. -/
@[simp] theorem isRed_setColor_lColor (a b : RbElem α) : isRed (a.setColor b.lColor) = isRed b := rfl

theorem lColor_ne_red {a : RbElem α} (h : isRed a = false) : a.lColor ≠ LOS_RB_RED := by
  simpa [isRed] using h

theorem isRed_eq_false {a : RbElem α} : isRed a = false ↔ a.lColor = LOS_RB_BLACK := by
  rcases a with ⟨_ | _, d⟩ <;> simp [isRed]

/-- A subtree that is not black at the root is red there. -/
theorem colorOf_eq_red_of_ne {t : BTree (RbElem α)} (h : colorOf t ≠ LOS_RB_BLACK) :
    colorOf t = LOS_RB_RED := by
  cases hc : colorOf t
  · rfl
  · exact absurd hc h

-- ============================================================ in order

@[simp] theorem elems_paintLeft (c : RbColor) (t : BTree (RbElem α)) : elems (paintLeft c t) = elems t := by
  cases t <;> simp [paintLeft]

@[simp] theorem elems_paintRight (c : RbColor) (t : BTree (RbElem α)) :
    elems (paintRight c t) = elems t := by
  cases t <;> simp [paintRight]

@[simp] theorem elems_OsRbLeftRotateNode (t : BTree (RbElem α)) : elems (OsRbLeftRotateNode t) = elems t := by
  simp [elems]

@[simp] theorem elems_OsRbRightRotateNode (t : BTree (RbElem α)) :
    elems (OsRbRightRotateNode t) = elems t := by
  simp [elems]

/-- A round of the deletion fixup only rotates and repaints. -/
theorem OsRbDeleteNodeFixup.round_elems {c c' : Cursor (RbElem α)}
    (h : OsRbDeleteNodeFixup.round c = some c') : elems c'.fill = elems c.fill := by
  obtain ⟨_ | ⟨f, rest⟩, x⟩ := c
  · simp [round] at h
  · cases f with
    | left p w =>
      by_cases hw : colorOf w = LOS_RB_RED
      · cases w with
        | nil => simp [colorOf] at hw
        | node wl wv wr =>
          cases wl with
          | nil => simp [round, hw, paint, OsRbLeftRotateNode, Cursor.downLeft] at h
          | node a b d =>
            simp only [round, hw, ↓reduceIte, paint_node, OsRbLeftRotateNode_node_node, Cursor.downLeft_node] at h
            split at h <;> cases h
            · exact elems_fill_congr rest (by simp)
            · split <;> exact elems_fill_congr rest (by simp)
      · cases w with
        | nil => simp [round, hw] at h
        | node wl wv wr =>
          simp only [round, hw, ↓reduceIte] at h
          split at h <;> cases h
          · exact elems_fill_congr rest (by simp)
          · split <;> exact elems_fill_congr rest (by simp)
    | right w p =>
      by_cases hw : colorOf w = LOS_RB_RED
      · cases w with
        | nil => simp [colorOf] at hw
        | node wl wv wr =>
          cases wr with
          | nil => simp [round, hw, paint, OsRbRightRotateNode, Cursor.downRight] at h
          | node a b d =>
            simp only [round, hw, ↓reduceIte, paint_node, OsRbRightRotateNode_node_node, Cursor.downRight_node] at h
            split at h <;> cases h
            · exact elems_fill_congr rest (by simp)
            · split <;> exact elems_fill_congr rest (by simp)
      · cases w with
        | nil => simp [round, hw] at h
        | node wl wv wr =>
          simp only [round, hw, ↓reduceIte] at h
          split at h <;> cases h
          · exact elems_fill_congr rest (by simp)
          · split <;> exact elems_fill_congr rest (by simp)

/-- The deletion fixup keeps the elements in order. -/
theorem OsRbDeleteNodeFixup_elems {c : Cursor (RbElem α)} {t : BTree (RbElem α)}
    (h : OsRbDeleteNodeFixup c = some t) : elems t = elems c.fill := by
  fun_induction OsRbDeleteNodeFixup c with
  | case1 c _ c' hr ih => rw [ih h, OsRbDeleteNodeFixup.round_elems hr]
  | case2 => cases h
  | case3 c _ =>
    cases h
    exact elems_fill_congr c.path (elems_paint _ _)

theorem OsRbDeleteNode.fixupIf_elems {c : Cursor (RbElem α)} {lColor : RbColor} {t : BTree (RbElem α)}
    (h : OsRbDeleteNode.fixupIf c lColor = some t) : elems t = elems c.fill := by
  unfold OsRbDeleteNode.fixupIf at h
  split at h
  · exact OsRbDeleteNodeFixup_elems h
  · cases h
    rfl

section Splice

variable {t : LosRbTree κ (RbElem α)} {ps : List (Frame (RbElem α))} {r ll lr rl rr : BTree (RbElem α)}
  {z lv rv : RbElem α}

/-- No left child: the right child takes the node's place. -/
theorem OsRbDeleteNode_nil_left :
    OsRbDeleteNode t ⟨ps, nil, z, r⟩ =
      (OsRbDeleteNode.fixupIf ⟨ps, r⟩ z.lColor).map fun root => { t with pstRoot := root } := rfl

/-- A left child and no right child: the left child takes the node's
place. -/
theorem OsRbDeleteNode_nil_right :
    OsRbDeleteNode t ⟨ps, node ll lv lr, z, nil⟩ =
      (OsRbDeleteNode.fixupIf ⟨ps, node ll lv lr⟩ z.lColor).map fun root => { t with pstRoot := root } :=
  rfl

/-- Two children: the successor takes the node's place with its colour,
and the successor's right child takes the successor's. -/
theorem OsRbDeleteNode_two :
    OsRbDeleteNode t ⟨ps, node ll lv lr, z, node rl rv rr⟩ =
      (OsRbDeleteNode.fixupIf
        ⟨(leftmost [] rl rv rr).path ++
            .right (node ll lv lr) ((leftmost [] rl rv rr).val.setColor z.lColor) :: ps,
          (leftmost [] rl rv rr).right⟩ (leftmost [] rl rv rr).val.lColor).map
        fun root => { t with pstRoot := root } := rfl

end Splice

/-- `OsRbDeleteNode` leaves the elements in order without the node. -/
theorem OsRbDeleteNode_elems {t t' : LosRbTree κ (RbElem α)} {n : Node (RbElem α)}
    (h : OsRbDeleteNode t n = some t') :
    elems t'.pstRoot = (n.pre ++ n.post).map RbElem.data := by
  obtain ⟨ps, l, z, r⟩ := n
  cases l with
  | nil =>
    -- no left child: the right child in the node's place
    rw [OsRbDeleteNode_nil_left] at h
    obtain ⟨root, hroot, rfl⟩ := Option.map_eq_some_iff.mp h
    rw [OsRbDeleteNode.fixupIf_elems hroot]
    simp [elems, Cursor.fill, toList_fill, Node.pre, Node.post]
  | node ll lv lr =>
    cases r with
    | nil =>
      rw [OsRbDeleteNode_nil_right] at h
      obtain ⟨root, hroot, rfl⟩ := Option.map_eq_some_iff.mp h
      rw [OsRbDeleteNode.fixupIf_elems hroot]
      simp [elems, Cursor.fill, toList_fill, Node.pre, Node.post]
    | node rl rv rr =>
      -- the successor in the node's place, and its right child in the successor's
      rw [OsRbDeleteNode_two] at h
      obtain ⟨root, hroot, rfl⟩ := Option.map_eq_some_iff.mp h
      rw [OsRbDeleteNode.fixupIf_elems hroot]
      simp [elems, Cursor.fill, fill_append, toList_fill, Node.pre, Node.post, toList_leftmost rl rv rr]

-- ============================================================ the rounds

section Rounds

variable {q w sv : RbElem α} {x sl sr wl wr : BTree (RbElem α)} {rest : List (Frame (RbElem α))}

/-- A red sibling on the right is rotated up over the parent: the
round goes on from its left child as the sibling, under the parent
painted red. -/
theorem OsRbDeleteNodeFixup.round_red_left (hw : w.lColor = LOS_RB_RED) (hwl : colorOf wl ≠ LOS_RB_RED) :
    round ⟨.left q (node wl w wr) :: rest, x⟩ =
      round ⟨.left (q.setColor LOS_RB_RED) wl :: .left (w.setColor LOS_RB_BLACK) wr :: rest, x⟩ := by
  simp only [round, colorOf_node, hw, ↓reduceIte, paint_node, OsRbLeftRotateNode_node_node,
    Cursor.downLeft_node, hwl]

/-- A black sibling with two black children is painted red, and the
round goes on from the parent. -/
theorem OsRbDeleteNodeFixup.round_black_left (hsv : sv.lColor ≠ LOS_RB_RED)
    (hsl : colorOf sl = LOS_RB_BLACK) (hsr : colorOf sr = LOS_RB_BLACK) :
    round ⟨.left q (node sl sv sr) :: rest, x⟩ =
      some ⟨rest, node x q (paint LOS_RB_RED (node sl sv sr))⟩ := by
  simp only [round, colorOf_node, hsv, ↓reduceIte, hsl, hsr, and_self]

/-- A black sibling with a red outer child is rotated up over the
parent with the parent's colour, and the loop goes on from the root. -/
theorem OsRbDeleteNodeFixup.round_outer_left (hsv : sv.lColor ≠ LOS_RB_RED)
    (hsr : colorOf sr ≠ LOS_RB_BLACK) :
    round ⟨.left q (node sl sv sr) :: rest, x⟩ =
      some ⟨[], fill rest (OsRbLeftRotateNode (node x (q.setColor LOS_RB_BLACK)
        (paintRight LOS_RB_BLACK (paint q.lColor (node sl sv sr)))))⟩ := by
  simp only [round, colorOf_node, hsv, ↓reduceIte, hsr, and_false]

/-- A black sibling whose outer child is black and inner child red is
first rotated right below its inner child, then as in the outer case. -/
theorem OsRbDeleteNodeFixup.round_inner_left (hsv : sv.lColor ≠ LOS_RB_RED)
    (hsl : colorOf sl ≠ LOS_RB_BLACK) (hsr : colorOf sr = LOS_RB_BLACK) :
    round ⟨.left q (node sl sv sr) :: rest, x⟩ =
      some ⟨[], fill rest (OsRbLeftRotateNode (node x (q.setColor LOS_RB_BLACK)
        (paintRight LOS_RB_BLACK (paint q.lColor
          (OsRbRightRotateNode (paint LOS_RB_RED (paintLeft LOS_RB_BLACK (node sl sv sr))))))))⟩ := by
  simp only [round, colorOf_node, hsv, ↓reduceIte, hsl, hsr, false_and]

/-- The mirror of `OsRbDeleteNodeFixup.round_red_left`. -/
theorem OsRbDeleteNodeFixup.round_red_right (hw : w.lColor = LOS_RB_RED) (hwr : colorOf wr ≠ LOS_RB_RED) :
    round ⟨.right (node wl w wr) q :: rest, x⟩ =
      round ⟨.right wr (q.setColor LOS_RB_RED) :: .right wl (w.setColor LOS_RB_BLACK) :: rest, x⟩ := by
  simp only [round, colorOf_node, hw, ↓reduceIte, paint_node, OsRbRightRotateNode_node_node,
    Cursor.downRight_node, hwr]

/-- The mirror of `OsRbDeleteNodeFixup.round_black_left`. -/
theorem OsRbDeleteNodeFixup.round_black_right (hsv : sv.lColor ≠ LOS_RB_RED)
    (hsl : colorOf sl = LOS_RB_BLACK) (hsr : colorOf sr = LOS_RB_BLACK) :
    round ⟨.right (node sl sv sr) q :: rest, x⟩ =
      some ⟨rest, node (paint LOS_RB_RED (node sl sv sr)) q x⟩ := by
  simp only [round, colorOf_node, hsv, ↓reduceIte, hsl, hsr, and_self]

/-- The mirror of `OsRbDeleteNodeFixup.round_outer_left`. -/
theorem OsRbDeleteNodeFixup.round_outer_right (hsv : sv.lColor ≠ LOS_RB_RED)
    (hsl : colorOf sl ≠ LOS_RB_BLACK) :
    round ⟨.right (node sl sv sr) q :: rest, x⟩ =
      some ⟨[], fill rest (OsRbRightRotateNode (node
        (paintLeft LOS_RB_BLACK (paint q.lColor (node sl sv sr))) (q.setColor LOS_RB_BLACK) x))⟩ := by
  simp only [round, colorOf_node, hsv, ↓reduceIte, hsl, false_and]

/-- The mirror of `OsRbDeleteNodeFixup.round_inner_left`. -/
theorem OsRbDeleteNodeFixup.round_inner_right (hsv : sv.lColor ≠ LOS_RB_RED)
    (hsl : colorOf sl = LOS_RB_BLACK) (hsr : colorOf sr ≠ LOS_RB_BLACK) :
    round ⟨.right (node sl sv sr) q :: rest, x⟩ =
      some ⟨[], fill rest (OsRbRightRotateNode (node
        (paintLeft LOS_RB_BLACK (paint q.lColor
          (OsRbLeftRotateNode (paint LOS_RB_RED (paintRight LOS_RB_BLACK (node sl sv sr))))))
        (q.setColor LOS_RB_BLACK) x))⟩ := by
  simp only [round, colorOf_node, hsv, ↓reduceIte, hsl, hsr, and_false]

end Rounds

-- ============================================================ balance

/-- A red node over two balanced subtrees of black height `n`, whose
roots may be red: what a round leaves at `pstNode` when the sibling
was painted red below a red parent. Painted black it is balanced. -/
def RedOver (t : BTree (RbElem α)) (n : Nat) : Prop :=
  ∃ l a r cl cr, t = node l a r ∧ isRed a = true ∧ Balanced isRed l cl n ∧ Balanced isRed r cr n

/-- The invariant of the loop of `OsRbDeleteNodeFixup`: the way up from
`pstNode` is balanced for one black node more than `pstNode`'s subtree
has, and that subtree is balanced with a black root, or a red node over
two balanced subtrees. -/
def DelInv (c : Cursor (RbElem α)) : Prop :=
  ∃ n, PathBalanced isRed c.path false (n + 1) ∧ (Balanced isRed c.sub false n ∨ RedOver c.sub n)

section Balance

variable {c : Cursor (RbElem α)} {q b sv : RbElem α} {x l r L R sl sr : BTree (RbElem α)}
  {rest : List (Frame (RbElem α))} {n : Nat} {cl cr : Bool}

theorem RedOver.paint_black (h : RedOver x n) : Balanced isRed (paint LOS_RB_BLACK x) false (n + 1) := by
  obtain ⟨l, a, r, cl, cr, rfl, -, hl, hr⟩ := h
  exact .black (isRed_setColor_black a) hl hr

theorem RedOver.colorOf_eq (h : RedOver x n) : colorOf x = LOS_RB_RED := by
  obtain ⟨l, a, r, cl, cr, rfl, ha, -⟩ := h
  exact isRed_eq_true.mp ha

/-- A balanced subtree is one of the two kinds the loop's invariant
allows at `pstNode`. -/
theorem balanced_or_redOver {c : Bool} (h : Balanced isRed x c n) :
    Balanced isRed x false n ∨ RedOver x n := by
  cases h with
  | nil => exact .inl .nil
  | red ha hl hr => exact .inr ⟨_, _, _, _, _, rfl, ha, hl, hr⟩
  | black ha hl hr => exact .inl (.black ha hl hr)

/-- The colour index of a balanced subtree with a black root. -/
theorem balanced_black_of_black {c : Bool} (h : Balanced isRed x c n) (hx : colorOf x = LOS_RB_BLACK) :
    Balanced isRed x false n :=
  balanced_black_of_not_red h (by rw [hx]; decide)

/-- The parent's subtree with the sibling painted red: the loop goes on
from the parent, which needs one black node more when it is black, and
ends at it when it is red. -/
theorem DelInv.up (hl : Balanced isRed l cl n) (hr : Balanced isRed r cr n)
    (hrest : PathBalanced isRed rest (isRed q) (if isRed q then n + 1 else n + 1 + 1)) :
    DelInv ⟨rest, node l q r⟩ := by
  cases hq : isRed q with
  | true =>
    rw [hq, if_pos rfl] at hrest
    exact ⟨n, hrest.false_of_true, .inr ⟨_, _, _, _, _, rfl, hq, hl, hr⟩⟩
  | false =>
    rw [hq, if_neg Bool.false_ne_true] at hrest
    exact ⟨n + 1, hrest, .inl (.black hq hl hr)⟩

/-- The sibling rotated up over the parent, with the parent's colour:
the hole is filled, and the loop goes on from the root. -/
theorem DelInv.rotated (hL : Balanced isRed L false (n + 1)) (hR : Balanced isRed R false (n + 1))
    (hrest : PathBalanced isRed rest (isRed q) (if isRed q then n + 1 else n + 1 + 1)) (b : RbElem α) :
    DelInv ⟨[], fill rest (node L (b.setColor q.lColor) R)⟩ := by
  have hnode := hL.node_of_black hR (b.setColor q.lColor)
  rw [isRed_setColor_lColor] at hnode
  obtain ⟨N, hN⟩ := hrest.fill hnode
  exact ⟨N, .root, .inl hN⟩

/-- A round at a black sibling on the right, below a parent `q` whose
way up is balanced for `q`'s subtree. -/
theorem DelInv.round_sib_left (hx : Balanced isRed x false n) (hsv : isRed sv = false)
    (hsl : Balanced isRed sl cl n) (hsr : Balanced isRed sr cr n)
    (hrest : PathBalanced isRed rest (isRed q) (if isRed q then n + 1 else n + 1 + 1)) :
    ∃ c', OsRbDeleteNodeFixup.round ⟨.left q (node sl sv sr) :: rest, x⟩ = some c' ∧ DelInv c' := by
  have hsv' := lColor_ne_red hsv
  by_cases hbr : colorOf sr = LOS_RB_BLACK
  · by_cases hbl : colorOf sl = LOS_RB_BLACK
    · -- two black nephews: the sibling red, and on from the parent
      exact ⟨_, OsRbDeleteNodeFixup.round_black_left hsv' hbl hbr,
        .up hx (.red (isRed_setColor_red sv) (balanced_black_of_black hsl hbl)
          (balanced_black_of_black hsr hbr)) hrest⟩
    · -- a red inner nephew: rotated up over the sibling, then over the parent
      cases balanced_red_of_red hsl (colorOf_eq_red_of_ne hbl) with
      | red _ hal har =>
        refine ⟨_, OsRbDeleteNodeFixup.round_inner_left hsv' hbl hbr, ?_⟩
        simp only [paintLeft_node, paint_node, OsRbRightRotateNode_node_node, paintRight_node,
          setColor_setColor, OsRbLeftRotateNode_node_node]
        exact .rotated (.black (isRed_setColor_black q) hx hal)
          (.black (isRed_setColor_black sv) har (balanced_black_of_black hsr hbr)) hrest _
  · -- a red outer nephew, painted black below the sibling rotated up
    refine ⟨_, OsRbDeleteNodeFixup.round_outer_left hsv' hbr, ?_⟩
    simp only [paint_node, paintRight_node, OsRbLeftRotateNode_node_node]
    exact .rotated (.black (isRed_setColor_black q) hx hsl)
      (balanced_paint_black_of_red (balanced_red_of_red hsr (colorOf_eq_red_of_ne hbr))) hrest _

/-- The mirror of `DelInv.round_sib_left`. -/
theorem DelInv.round_sib_right (hx : Balanced isRed x false n) (hsv : isRed sv = false)
    (hsl : Balanced isRed sl cl n) (hsr : Balanced isRed sr cr n)
    (hrest : PathBalanced isRed rest (isRed q) (if isRed q then n + 1 else n + 1 + 1)) :
    ∃ c', OsRbDeleteNodeFixup.round ⟨.right (node sl sv sr) q :: rest, x⟩ = some c' ∧ DelInv c' := by
  have hsv' := lColor_ne_red hsv
  by_cases hbl : colorOf sl = LOS_RB_BLACK
  · by_cases hbr : colorOf sr = LOS_RB_BLACK
    · exact ⟨_, OsRbDeleteNodeFixup.round_black_right hsv' hbl hbr,
        .up (.red (isRed_setColor_red sv) (balanced_black_of_black hsl hbl)
          (balanced_black_of_black hsr hbr)) hx hrest⟩
    · cases balanced_red_of_red hsr (colorOf_eq_red_of_ne hbr) with
      | red _ hal har =>
        refine ⟨_, OsRbDeleteNodeFixup.round_inner_right hsv' hbl hbr, ?_⟩
        simp only [paintRight_node, paint_node, OsRbLeftRotateNode_node_node, paintLeft_node,
          setColor_setColor, OsRbRightRotateNode_node_node]
        exact .rotated (.black (isRed_setColor_black sv) (balanced_black_of_black hsl hbl) hal)
          (.black (isRed_setColor_black q) har hx) hrest _
  · refine ⟨_, OsRbDeleteNodeFixup.round_outer_right hsv' hbl, ?_⟩
    simp only [paint_node, paintLeft_node, OsRbRightRotateNode_node_node]
    exact .rotated (balanced_paint_black_of_red (balanced_red_of_red hsl (colorOf_eq_red_of_ne hbl)))
      (.black (isRed_setColor_black q) hsr hx) hrest _

/-- A round at a black `pstNode` that is not the root keeps the
invariant. Below a red parent the sibling is black; below a black one a
red sibling is rotated up first, and the round goes on under the parent
painted red. -/
theorem DelInv.round (hc : DelInv c) (hp : c.path ≠ []) (hb : colorOf c.sub = LOS_RB_BLACK) :
    ∃ c', OsRbDeleteNodeFixup.round c = some c' ∧ DelInv c' := by
  obtain ⟨ps, x⟩ := c
  obtain ⟨n, hpath, hx⟩ := hc
  -- a black `pstNode` is not a red node over two subtrees
  replace hx : Balanced isRed x false n := hx.resolve_right fun h => by
    rw [h.colorOf_eq] at hb
    cases hb
  cases hpath with
  | root => exact absurd rfl hp
  | redL hq hs hrest =>
    cases hs with
    | black hsv hsl hsr => exact DelInv.round_sib_left hx hsv hsl hsr (by rwa [hq, if_pos rfl])
  | redR hq hs hrest =>
    cases hs with
    | black hsv hsl hsr => exact DelInv.round_sib_right hx hsv hsl hsr (by rwa [hq, if_pos rfl])
  | blackL hq hs hrest =>
    cases hs with
    | red hw hwl hwr =>
      cases hwl with
      | @black sl sr sv _ _ _ hsv hsl hsr =>
        have hwl : colorOf (node sl sv sr) ≠ LOS_RB_RED := lColor_ne_red hsv
        rw [OsRbDeleteNodeFixup.round_red_left (isRed_eq_true.mp hw) hwl]
        exact DelInv.round_sib_left hx hsv hsl hsr
          (by simpa using PathBalanced.blackL (isRed_setColor_black _) hwr hrest)
    | black hsv hsl hsr =>
      exact DelInv.round_sib_left hx hsv hsl hsr (by rwa [hq, if_neg Bool.false_ne_true])
  | blackR hq hs hrest =>
    cases hs with
    | red hw hwl hwr =>
      cases hwr with
      | @black sl sr sv _ _ _ hsv hsl hsr =>
        have hwr : colorOf (node sl sv sr) ≠ LOS_RB_RED := lColor_ne_red hsv
        rw [OsRbDeleteNodeFixup.round_red_right (isRed_eq_true.mp hw) hwr]
        exact DelInv.round_sib_right hx hsv hsl hsr
          (by simpa using PathBalanced.blackR (isRed_setColor_black _) hwl hrest)
    | black hsv hsl hsr =>
      exact DelInv.round_sib_right hx hsv hsl hsr (by rwa [hq, if_neg Bool.false_ne_true])

/-- Where the loop ends, at the root or at a red `pstNode`, painting
`pstNode` black leaves a red-black tree. -/
theorem DelInv.exit (hc : DelInv c) (h : ¬(c.path ≠ [] ∧ colorOf c.sub = LOS_RB_BLACK)) :
    ∃ n, Balanced isRed (fill c.path (paint LOS_RB_BLACK c.sub)) false n := by
  obtain ⟨ps, x⟩ := c
  obtain ⟨n, hpath, hx⟩ := hc
  by_cases hps : ps = []
  · subst hps
    rcases hx with hx | hx
    · exact balanced_paint_black hx
    · exact ⟨_, hx.paint_black⟩
  · -- a red `pstNode`: a red node over two subtrees, one black node short once black
    have hred : colorOf x = LOS_RB_RED := colorOf_eq_red_of_ne fun hb => h ⟨hps, hb⟩
    rcases hx with hx | hx
    · exact absurd (hx.color_eq.trans (colorOf_eq_red.mp hred)) Bool.false_ne_true
    · exact hpath.fill hx.paint_black

end Balance

-- ============================================================ the loop

section Loop

variable {c c' : Cursor (RbElem α)}

theorem OsRbDeleteNodeFixup_round (h : c.path ≠ [] ∧ colorOf c.sub = LOS_RB_BLACK)
    (hr : OsRbDeleteNodeFixup.round c = some c') :
    OsRbDeleteNodeFixup c = OsRbDeleteNodeFixup c' := by
  rw [OsRbDeleteNodeFixup, dif_pos h]
  split
  next c'' hr' =>
    rw [hr] at hr'
    cases hr'
    rfl
  next hr' =>
    rw [hr] at hr'
    cases hr'

theorem OsRbDeleteNodeFixup_exit (h : ¬(c.path ≠ [] ∧ colorOf c.sub = LOS_RB_BLACK)) :
    OsRbDeleteNodeFixup c = some (fill c.path (paint LOS_RB_BLACK c.sub)) := by
  rw [OsRbDeleteNodeFixup, dif_neg h]

/-- From its invariant, the deletion fixup returns a red-black tree. -/
theorem OsRbDeleteNodeFixup_balanced (hc : DelInv c) :
    ∃ t, OsRbDeleteNodeFixup c = some t ∧ ∃ n, Balanced isRed t false n := by
  -- on the loop's measure, which every round lowers
  induction h : OsRbDeleteNodeFixup.measure c using Nat.strong_induction_on generalizing c with
  | _ m ih =>
    by_cases hloop : c.path ≠ [] ∧ colorOf c.sub = LOS_RB_BLACK
    · obtain ⟨c', hr, hc'⟩ := hc.round hloop.1 hloop.2
      rw [OsRbDeleteNodeFixup_round hloop hr]
      exact ih _ (h ▸ OsRbDeleteNodeFixup.round_lt hloop.1 hloop.2 hr) hc' rfl
    · rw [OsRbDeleteNodeFixup_exit hloop]
      exact ⟨_, rfl, hc.exit hloop⟩

end Loop

-- ============================================================ the deletion

section Deletion

variable {t : LosRbTree κ (RbElem α)} {n : Node (RbElem α)}

/-- The node taken out had an empty child, and `x` is its other child:
below a red node `x` is empty and the tree is mended as it is; below a
black one `x` is empty or red, one black node short, and the fixup from
`x` mends the tree. -/
theorem OsRbDeleteNode.fixupIf_balanced {ps : List (Frame (RbElem α))} {z : RbElem α}
    {x : BTree (RbElem α)} {c : Bool} {m : Nat} (hp : PathBalanced isRed ps c m)
    (hz : Balanced isRed (node nil z x) c m ∨ Balanced isRed (node x z nil) c m) :
    ∃ root, OsRbDeleteNode.fixupIf ⟨ps, x⟩ z.lColor = some root ∧ ∃ N, Balanced isRed root false N := by
  have hx : (isRed z = true ∧ c = true ∧ Balanced isRed x false m) ∨
      (isRed z = false ∧ c = false ∧ m = 1 ∧ ∃ cx, Balanced isRed x cx 0) := by
    rcases hz with hz | hz
    · cases hz with
      | red hz _ hx => exact .inl ⟨hz, rfl, hx⟩
      | black hz hnil hx =>
        cases hnil
        exact .inr ⟨hz, rfl, rfl, _, hx⟩
    · cases hz with
      | red hz hx _ => exact .inl ⟨hz, rfl, hx⟩
      | black hz hx hnil =>
        cases hnil
        exact .inr ⟨hz, rfl, rfl, _, hx⟩
  unfold OsRbDeleteNode.fixupIf
  rcases hx with ⟨hred, rfl, hx⟩ | ⟨hblack, rfl, rfl, cx, hx⟩
  · -- a red node: its place taken, nothing to mend
    rw [if_neg (by rw [isRed_eq_true.mp hred]; decide)]
    exact ⟨_, rfl, hp.false_of_true.fill hx⟩
  · rw [if_pos (isRed_eq_false.mp hblack)]
    exact OsRbDeleteNodeFixup_balanced ⟨0, hp, balanced_or_redOver hx⟩

/-- `OsRbDeleteNode` of a node of a red-black tree returns a red-black
tree with the same callbacks. -/
theorem OsRbDeleteNode_balanced {N : Nat} (hb : Balanced isRed n.fill false N) :
    ∃ root, OsRbDeleteNode t n = some { t with pstRoot := root } ∧ ∃ N', Balanced isRed root false N' := by
  obtain ⟨ps, l, z, r⟩ := n
  unfold Node.fill at hb
  cases l with
  | nil =>
    obtain ⟨c, m, hz, hp⟩ := Balanced.of_fill hb
    obtain ⟨root, hroot, hbal⟩ := OsRbDeleteNode.fixupIf_balanced hp (.inl hz)
    exact ⟨root, by rw [OsRbDeleteNode_nil_left, hroot]; rfl, hbal⟩
  | node ll lv lr =>
    cases r with
    | nil =>
      obtain ⟨c, m, hz, hp⟩ := Balanced.of_fill hb
      obtain ⟨root, hroot, hbal⟩ := OsRbDeleteNode.fixupIf_balanced hp (.inr hz)
      exact ⟨root, by rw [OsRbDeleteNode_nil_right, hroot]; rfl, hbal⟩
    | node rl rv rr =>
      -- the successor, with an empty left child, in the node's place with the node's colour
      rw [fill_leftmost] at hb
      obtain ⟨c, m, hz, hp⟩ := Balanced.of_fill hb
      have hp' := hp.replace_right (isRed_setColor_lColor (leftmost [] rl rv rr).val z)
      obtain ⟨root, hroot, hbal⟩ := OsRbDeleteNode.fixupIf_balanced hp' (.inl hz)
      exact ⟨root, by rw [OsRbDeleteNode_two, hroot]; rfl, hbal⟩

variable [LinearOrder κ]

/-- `OsRbDeleteNode` of a node of a red-black search tree returns one,
with the elements in order without the node. -/
theorem OsRbDeleteNode_rbOk (ht : t.RbOk) (hn : n.fill = t.pstRoot) :
    ∃ root, OsRbDeleteNode t n = some { t with pstRoot := root } ∧
      ({ t with pstRoot := root } : LosRbTree κ (RbElem α)).RbOk ∧
      elems root = (n.pre ++ n.post).map RbElem.data := by
  obtain ⟨N, hN⟩ := ht.balanced
  obtain ⟨root, hdel, hbal⟩ := OsRbDeleteNode_balanced (t := t) (hn ▸ hN)
  have helems := OsRbDeleteNode_elems hdel
  refine ⟨root, hdel, ⟨⟨ht.cmp_equal, ht.cmp_smaller, ht.cmp_bigger, ?_⟩, ht.key_setColor, hbal⟩, helems⟩
  -- the keys without the node's increase as the keys with it do
  have hsorted := ht.sorted
  rw [← hn, Node.toList_fill] at hsorted
  exact (sorted_iff_of_map_data ht.key_setColor helems).mpr
    (hsorted.sublist ((List.sublist_cons_self n.val n.post).append_left n.pre))

/-- The keys of the tree `OsRbDeleteNode` returns are the old ones but
the node's. -/
theorem OsRbDeleteNode_keys (ht : t.RbOk) (hn : n.fill = t.pstRoot) :
    ∃ root, OsRbDeleteNode t n = some { t with pstRoot := root } ∧
      ({ t with pstRoot := root } : LosRbTree κ (RbElem α)).RbOk ∧
      ∀ k, (∃ x ∈ root.toList, t.pfGetKey x = k) ↔
        (∃ x ∈ t.pstRoot.toList, t.pfGetKey x = k) ∧ k ≠ t.pfGetKey n.val := by
  obtain ⟨root, hdel, hok, helems⟩ := OsRbDeleteNode_rbOk ht hn
  refine ⟨root, hdel, hok, fun k => ?_⟩
  -- no other node has the node's key
  obtain ⟨hpre, hpost⟩ := ht.node_rel hn
  rw [ht.exists_key_iff, show root.toList.map RbElem.data = elems root from rfl, helems,
    ← ht.exists_key_iff, ← hn, Node.toList_fill]
  simp only [List.mem_append, List.mem_cons]
  constructor
  · rintro ⟨x, hx | hx, rfl⟩
    · exact ⟨⟨x, .inl hx, rfl⟩, (hpre x hx).ne⟩
    · exact ⟨⟨x, .inr (.inr hx), rfl⟩, (hpost x hx).ne'⟩
  · rintro ⟨⟨x, hx | rfl | hx, rfl⟩, hk⟩
    · exact ⟨x, .inl hx, rfl⟩
    · exact absurd rfl hk
    · exact ⟨x, .inr hx, rfl⟩

/-- `LOS_RbDelNode` of a node of a red-black search tree always returns,
and leaves a red-black search tree with the same callbacks: the
elements in order without the node, no deeper than twice the logarithm
of its size. -/
theorem LOS_RbDelNode_rbOk (ht : t.RbOk) (hn : n.fill = t.pstRoot) :
    ∃ root, LOS_RbDelNode t n = some { t with pstRoot := root } ∧
      ({ t with pstRoot := root } : LosRbTree κ (RbElem α)).RbOk ∧
      elems root = (n.pre ++ n.post).map RbElem.data ∧
      root.depth ≤ 2 * Nat.log 2 (root.toList.length + 1) := by
  obtain ⟨root, hdel, hok, helems⟩ := OsRbDeleteNode_rbOk ht hn
  obtain ⟨N, hN⟩ := hok.balanced
  exact ⟨root, hdel, hok, helems, hN.depth_le_log⟩

/-- The root of the tree of `2` over a red `1` taken out. -/
theorem LOS_RbDelNode_rbOk_root :
    ∃ t : LosRbTree Nat (RbElem Nat),
      t.pstRoot = .node (.node .nil ⟨LOS_RB_RED, 1⟩ .nil) ⟨LOS_RB_BLACK, 2⟩ .nil ∧ t.RbOk ∧
      ∃ n : Node (RbElem Nat), n.fill = t.pstRoot ∧
        ∃ root, LOS_RbDelNode t n = some { t with pstRoot := root } ∧
          ({ t with pstRoot := root } : LosRbTree Nat (RbElem Nat)).RbOk ∧
          elems root = (n.pre ++ n.post).map RbElem.data ∧
          root.depth ≤ 2 * Nat.log 2 (root.toList.length + 1) := by
  have ht : (⟨.node (.node .nil ⟨LOS_RB_RED, 1⟩ .nil) ⟨LOS_RB_BLACK, 2⟩ .nil, cmpKey, RbElem.data⟩ :
      LosRbTree Nat (RbElem Nat)).RbOk :=
    ⟨LosRbTree.Ok.of_cmpKey (by decide), fun _ _ => rfl, ⟨1, .black rfl (.red rfl .nil .nil) .nil⟩⟩
  exact ⟨_, rfl, ht, ⟨[], .node .nil ⟨LOS_RB_RED, 1⟩ .nil, ⟨LOS_RB_BLACK, 2⟩, .nil⟩, rfl,
    LOS_RbDelNode_rbOk ht rfl⟩

/-- `LOS_RbDelNode` of the node `LOS_RbGetNode` found for `k` takes out
exactly the key `k`: the lookups of the tree it returns find every key
they found before but `k`. -/
theorem LOS_RbDelNode_of_get {k : κ} {n : Node (RbElem α)} (ht : t.RbOk)
    (hget : LOS_RbGetNode t k = (true, some n)) :
    ∃ t', LOS_RbDelNode t n = some t' ∧ t'.RbOk ∧
      ∀ k', (LOS_RbGetNode t' k').1 = true ↔ (LOS_RbGetNode t k').1 = true ∧ k' ≠ k := by
  have hspec := LOS_RbGetNode_spec ht.toOk k
  rw [hget] at hspec
  obtain ⟨hn, hkey⟩ := hspec
  obtain ⟨root, hdel, hok, hkeys⟩ := OsRbDeleteNode_keys ht hn
  refine ⟨_, hdel, hok, fun k' => ?_⟩
  rw [(LOS_RbGetNode_spec hok.toOk k').fst_eq_true_iff, (LOS_RbGetNode_spec ht.toOk k').fst_eq_true_iff,
    ← hkey]
  exact hkeys k'

/-- The tree of `2` over a red `1`: `1` looked up and taken out. -/
theorem LOS_RbDelNode_of_get_one :
    ∃ t : LosRbTree Nat (RbElem Nat),
      t.pstRoot = .node (.node .nil ⟨LOS_RB_RED, 1⟩ .nil) ⟨LOS_RB_BLACK, 2⟩ .nil ∧ t.RbOk ∧
      ∃ n : Node (RbElem Nat), LOS_RbGetNode t 1 = (true, some n) ∧
        ∃ t', LOS_RbDelNode t n = some t' ∧ t'.RbOk ∧
          ∀ k', (LOS_RbGetNode t' k').1 = true ↔ (LOS_RbGetNode t k').1 = true ∧ k' ≠ 1 := by
  have ht : (⟨.node (.node .nil ⟨LOS_RB_RED, 1⟩ .nil) ⟨LOS_RB_BLACK, 2⟩ .nil, cmpKey, RbElem.data⟩ :
      LosRbTree Nat (RbElem Nat)).RbOk :=
    ⟨LosRbTree.Ok.of_cmpKey (by decide), fun _ _ => rfl, ⟨1, .black rfl (.red rfl .nil .nil) .nil⟩⟩
  have hget : LOS_RbGetNode (⟨.node (.node .nil ⟨LOS_RB_RED, 1⟩ .nil) ⟨LOS_RB_BLACK, 2⟩ .nil, cmpKey,
      RbElem.data⟩ : LosRbTree Nat (RbElem Nat)) 1 =
      (true, some ⟨[.left ⟨LOS_RB_BLACK, 2⟩ .nil], .nil, ⟨LOS_RB_RED, 1⟩, .nil⟩) := rfl
  exact ⟨_, rfl, ht, _, hget, LOS_RbDelNode_of_get ht hget⟩

end Deletion

end LiteOsA.Rb
