/-
Red-black trees over the binary trees of `BTree`, with a test `isRed`
of the elements.

`Balanced isRed t c n` is the invariant of a subtree: no red node has a
red child, every way down from the root to an empty subtree passes `n`
black nodes, and the root is red when `c` is. A red-black tree is a
balanced tree with a black root.

`PathBalanced isRed ps c n` says the same of the way up from a hole:
filling the hole with a subtree balanced for `c` and `n` gives a
red-black tree (`PathBalanced.fill`), and every subtree of a red-black
tree leaves such a way up (`Balanced.of_fill`). An insertion that mends
the tree bottom up, one step at a time, keeps an invariant of this
form at the place it has got to. Below a black parent the colour of
the hole does not matter (`PathBalanced.of_black`), nor which element
of a given colour a frame holds (`PathBalanced.replace_right`).

Balance bounds the depth: a subtree of black height `n` is no deeper
than `2 * n + 1` (`Balanced.depth_le`) and holds at least `2 ^ n - 1`
elements (`Balanced.two_pow_le`), so a red-black tree is no deeper than
twice the logarithm of its size (`Balanced.depth_le_log`).
-/
import LiteOsA.Lib.TreeZipper
import Mathlib.Data.Nat.Log
import Mathlib.Algebra.Group.Nat.Defs

namespace BTree

variable {α : Type _} (isRed : α → Bool)

/-- The red-black invariant of a subtree of black height `n`, whose
root is red when `c`. -/
inductive Balanced : BTree α → Bool → Nat → Prop
  | nil : Balanced nil false 0
  | red {l r : BTree α} {a : α} {n : Nat} :
    isRed a = true → Balanced l false n → Balanced r false n → Balanced (node l a r) true n
  | black {l r : BTree α} {a : α} {c₁ c₂ : Bool} {n : Nat} :
    isRed a = false → Balanced l c₁ n → Balanced r c₂ n → Balanced (node l a r) false (n + 1)

/-- The way up from a hole that a subtree balanced for `c` and `n`
fills to a red-black tree. -/
inductive PathBalanced : List (Frame α) → Bool → Nat → Prop
  | root {n : Nat} : PathBalanced [] false n
  | redL {a : α} {r : BTree α} {ps : List (Frame α)} {n : Nat} :
    isRed a = true → Balanced isRed r false n → PathBalanced ps true n →
      PathBalanced (.left a r :: ps) false n
  | redR {l : BTree α} {a : α} {ps : List (Frame α)} {n : Nat} :
    isRed a = true → Balanced isRed l false n → PathBalanced ps true n →
      PathBalanced (.right l a :: ps) false n
  | blackL {a : α} {r : BTree α} {ps : List (Frame α)} {c c₂ : Bool} {n : Nat} :
    isRed a = false → Balanced isRed r c₂ n → PathBalanced ps false (n + 1) →
      PathBalanced (.left a r :: ps) c n
  | blackR {l : BTree α} {a : α} {ps : List (Frame α)} {c c₁ : Bool} {n : Nat} :
    isRed a = false → Balanced isRed l c₁ n → PathBalanced ps false (n + 1) →
      PathBalanced (.right l a :: ps) c n

variable {isRed}

/-- Whether the root is red; an empty subtree counts as black. -/
def rootRed (isRed : α → Bool) : BTree α → Bool
  | nil => false
  | node _ a _ => isRed a

/-- The colour index of a balanced subtree is the colour of its root. -/
theorem Balanced.color_eq {t : BTree α} {c : Bool} {n : Nat} (h : Balanced isRed t c n) :
    c = rootRed isRed t := by
  cases h with
  | nil => rfl
  | red ha _ _ => exact ha.symm
  | black ha _ _ => exact ha.symm

/-- Filling the hole of a balanced way up gives a red-black tree. -/
theorem PathBalanced.fill {ps : List (Frame α)} {c : Bool} {n : Nat} {t : BTree α}
    (hp : PathBalanced isRed ps c n) (ht : Balanced isRed t c n) :
    ∃ N, Balanced isRed (BTree.fill ps t) false N := by
  induction hp generalizing t with
  | root => exact ⟨_, ht⟩
  | redL ha hr _ ih => exact ih (.red ha ht hr)
  | redR ha hl _ ih => exact ih (.red ha hl ht)
  | blackL ha hr _ ih => exact ih (.black ha ht hr)
  | blackR ha hl _ ih => exact ih (.black ha hl ht)

/-- Every subtree of a red-black tree is balanced, and the way up from
it is. -/
theorem Balanced.of_fill {ps : List (Frame α)} {t : BTree α} {N : Nat}
    (h : Balanced isRed (BTree.fill ps t) false N) :
    ∃ c n, Balanced isRed t c n ∧ PathBalanced isRed ps c n := by
  induction ps generalizing t with
  | nil => exact ⟨_, _, h, .root⟩
  | cons f ps ih =>
    obtain ⟨c, n, hf, hp⟩ := ih h
    -- the parent's subtree is balanced: its root's colour decides the frame
    cases f with
    | left a r =>
      cases hf with
      | red ha hl hr => exact ⟨_, _, hl, .redL ha hr hp⟩
      | black ha hl hr => exact ⟨_, _, hl, .blackL ha hr hp⟩
    | right l a =>
      cases hf with
      | red ha hl hr => exact ⟨_, _, hr, .redR ha hl hp⟩
      | black ha hl hr => exact ⟨_, _, hr, .blackR ha hl hp⟩

/-- Below a black parent a hole takes a subtree of either colour. -/
theorem PathBalanced.of_black {f : Frame α} {ps : List (Frame α)} {c : Bool} {n : Nat}
    (hp : PathBalanced isRed (f :: ps) c n) (hf : isRed f.val = false) (c' : Bool) :
    PathBalanced isRed (f :: ps) c' n := by
  cases hp with
  | redL ha => simp [Frame.val, ha] at hf
  | redR ha => simp [Frame.val, ha] at hf
  | blackL ha hr hp => exact .blackL ha hr hp
  | blackR ha hl hp => exact .blackR ha hl hp

/-- Where a red subtree may stand, a black one may too. -/
theorem PathBalanced.false_of_true {ps : List (Frame α)} {n : Nat} (hp : PathBalanced isRed ps true n) :
    PathBalanced isRed ps false n := by
  cases hp with
  | blackL ha hr hp => exact .blackL ha hr hp
  | blackR ha hl hp => exact .blackR ha hl hp

/-- A way up stays balanced when the element of one of its frames is
replaced by one of the same colour. -/
theorem PathBalanced.replace_right {qs ps : List (Frame α)} {l : BTree α} {a b : α} {c : Bool}
    {n : Nat} (h : PathBalanced isRed (qs ++ .right l a :: ps) c n) (hab : isRed b = isRed a) :
    PathBalanced isRed (qs ++ .right l b :: ps) c n := by
  induction qs generalizing c n with
  | nil =>
    cases h with
    | redR ha hl hp => exact .redR (hab.trans ha) hl hp
    | blackR ha hl hp => exact .blackR (hab.trans ha) hl hp
  | cons q qs ih =>
    -- the frames below the replaced one keep their constructors
    cases h with
    | redL ha hr hp => exact .redL ha hr (ih hp)
    | redR ha hl hp => exact .redR ha hl (ih hp)
    | blackL ha hr hp => exact .blackL ha hr (ih hp)
    | blackR ha hl hp => exact .blackR ha hl (ih hp)

/-- Two balanced subtrees of black height `k` with black roots under a
node: a balanced subtree of the node's colour, one level higher when
the node is black. -/
theorem Balanced.node_of_black {l r : BTree α} {k : Nat} (hl : Balanced isRed l false k)
    (hr : Balanced isRed r false k) (a : α) :
    Balanced isRed (node l a r) (isRed a) (if isRed a then k else k + 1) := by
  cases ha : isRed a with
  | true => exact .red ha hl hr
  | false => exact .black ha hl hr

/-- A balanced subtree with its root element replaced by a black one is
balanced with a black root. -/
theorem Balanced.blacken {l r : BTree α} {a b : α} {c : Bool} {n : Nat}
    (h : Balanced isRed (node l a r) c n) (hb : isRed b = false) :
    ∃ n', Balanced isRed (node l b r) false n' := by
  cases h with
  | red _ hl hr => exact ⟨_, .black hb hl hr⟩
  | black _ hl hr => exact ⟨_, .black hb hl hr⟩

-- ============================================================ depth

/-- The longest way down, counted in nodes. -/
def depth : BTree α → Nat
  | nil => 0
  | node l _ r => max l.depth r.depth + 1

/-- A balanced subtree of black height `n` is no deeper than twice its
black height, and one more under a red root. -/
theorem Balanced.depth_le {t : BTree α} {c : Bool} {n : Nat} (h : Balanced isRed t c n) :
    t.depth ≤ 2 * n + (if c then 1 else 0) := by
  induction h with
  | nil => simp [depth]
  | red _ _ _ ihl ihr =>
    simp only [depth, Bool.false_eq_true, ↓reduceIte] at ihl ihr ⊢
    omega
  | black _ _ _ ihl ihr =>
    simp only [depth, Bool.false_eq_true, ↓reduceIte]
    split at ihl <;> split at ihr <;> omega

/-- A balanced subtree of black height `n` holds at least `2 ^ n - 1`
elements. -/
theorem Balanced.two_pow_le {t : BTree α} {c : Bool} {n : Nat} (h : Balanced isRed t c n) :
    2 ^ n ≤ t.toList.length + 1 := by
  induction h with
  | nil => simp
  | red _ _ _ ihl ihr =>
    simp only [toList_node, List.length_append, List.length_cons]
    omega
  | black _ _ _ ihl ihr =>
    simp only [toList_node, List.length_append, List.length_cons, Nat.pow_succ]
    omega

/-- A red-black tree is no deeper than twice the binary logarithm of
one more than its number of elements. -/
theorem Balanced.depth_le_log {t : BTree α} {n : Nat} (h : Balanced isRed t false n) :
    t.depth ≤ 2 * Nat.log 2 (t.toList.length + 1) := by
  have hdepth := h.depth_le
  have hn : n ≤ Nat.log 2 (t.toList.length + 1) := Nat.le_log_of_pow_le (by decide) h.two_pow_le
  simp only [Bool.false_eq_true, ↓reduceIte, Nat.add_zero] at hdepth
  omega

end BTree
