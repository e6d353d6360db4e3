/-
The lookups of the red-black tree are right on every search tree.

`LosRbTree.Ok` is what the lookups need of a tree: `pfCmpKey` compares
keys by their order, and the keys of the nodes increase in order. The
colours do not enter; every red-black tree `LOS_RbAddNode` builds is
such a tree, since it refuses a key that is there already.

What the two lookups are for is `GetNodeSpec` and `NextNodeSpec`: the
node of the tree whose key is `k`, or word that there is none; the
node with the least key above `k`, or `NULL` when no key is above it.

The search of `LOS_RbGetNode` keeps everything before the subtree it is
in below `k`, and everything after it above (`Zoomed`). When it finds
no node it ends at an empty subtree, with the node it visited last the
parent of that subtree (`LOS_RbGetNode.loop_cases`). That node is the
successor of `k` when the search went left from it, and its predecessor
when the search went right; `LOS_RbGetNextNode` returns the first, and
walks on with `LOS_RbSuccessorNode` from the second (`scan_spec`), one
node in order at a time.
-/
import LiteOsA.Libscrew.RbTree
import Mathlib.Data.Nat.Basic
import Mathlib.Order.Lattice

namespace LiteOsA.Rb

open BTree

variable {κ α : Type _} [LinearOrder κ] {t : LosRbTree κ α} {k : κ}

/-- A search tree: `pfCmpKey` answers for the order of its keys, and in
order the keys of the nodes increase. -/
structure LosRbTree.Ok (t : LosRbTree κ α) : Prop where
  cmp_equal : ∀ a b, t.pfCmpKey a b = RB_EQUAL ↔ a = b
  cmp_smaller : ∀ a b, t.pfCmpKey a b = RB_SMALLER ↔ a < b
  cmp_bigger : ∀ a b, t.pfCmpKey a b = RB_BIGGER ↔ b < a
  sorted : t.pstRoot.toList.Pairwise fun x y => t.pfGetKey x < t.pfGetKey y

/-- In order, the keys before a node of a search tree are below its key,
and those after it above. -/
theorem LosRbTree.Ok.node_rel (ht : t.Ok) {n : Node α} (hn : n.fill = t.pstRoot) :
    (∀ x ∈ n.pre, t.pfGetKey x < t.pfGetKey n.val) ∧ ∀ x ∈ n.post, t.pfGetKey n.val < t.pfGetKey x :=
  Node.rel_of_pairwise (hn ▸ ht.sorted)

/-- The comparison of keys of a linear order, answered as `pfCmpKey`
answers. -/
def cmpKey (a b : κ) : Nat :=
  if a = b then RB_EQUAL else if a < b then RB_SMALLER else RB_BIGGER

/-- A tree compared by `cmpKey` whose keys increase in order is a search
tree. -/
theorem LosRbTree.Ok.of_cmpKey {root : BTree α} {getKey : α → κ}
    (hs : root.toList.Pairwise fun x y => getKey x < getKey y) :
    (⟨root, cmpKey, getKey⟩ : LosRbTree κ α).Ok := by
  refine ⟨fun a b => ?_, fun a b => ?_, fun a b => ?_, hs⟩ <;> dsimp only <;> unfold cmpKey
  · by_cases hab : a = b
    · rw [if_pos hab]
      exact iff_of_true rfl hab
    · rw [if_neg hab]
      split <;> exact iff_of_false (by decide) hab
  · by_cases hab : a = b
    · rw [if_pos hab]
      exact iff_of_false (by decide) (hab ▸ lt_irrefl a)
    · rw [if_neg hab]
      split
      next h => exact iff_of_true rfl h
      next h => exact iff_of_false (by decide) h
  · by_cases hab : a = b
    · rw [if_pos hab]
      exact iff_of_false (by decide) (hab ▸ lt_irrefl a)
    · rw [if_neg hab]
      split
      next h => exact iff_of_false (by decide) (lt_asymm h)
      next h => exact iff_of_true rfl (lt_of_le_of_ne (not_lt.mp h) (Ne.symm hab))

-- ============================================================ the purpose

/-- What `LOS_RbGetNode` is for: `TRUE` with a node of the tree whose
key is `k`, or `FALSE` when no node has key `k`. -/
def GetNodeSpec (t : LosRbTree κ α) (k : κ) : Bool × Option (Node α) → Prop
  | (true, some n) => n.fill = t.pstRoot ∧ t.pfGetKey n.val = k
  | (true, none) => False
  | (false, _) => ∀ x ∈ t.pstRoot.toList, t.pfGetKey x ≠ k

/-- What `LOS_RbGetNextNode` is for: the node of the tree with the least
key above `k`, or `NULL` when no key is above `k`. -/
def NextNodeSpec (t : LosRbTree κ α) (k : κ) : Option (Node α) → Prop
  | some n => n.fill = t.pstRoot ∧ k < t.pfGetKey n.val ∧
      ∀ x ∈ t.pstRoot.toList, k < t.pfGetKey x → t.pfGetKey n.val ≤ t.pfGetKey x
  | none => ∀ x ∈ t.pstRoot.toList, t.pfGetKey x ≤ k

/-- A node of the tree above `k` with nothing before it above `k` is
the one `LOS_RbGetNextNode` is to return. -/
theorem NextNodeSpec.of_pre (ht : t.Ok) {n : Node α} (hn : n.fill = t.pstRoot)
    (hpre : ∀ x ∈ n.pre, t.pfGetKey x ≤ k) (hk : k < t.pfGetKey n.val) : NextNodeSpec t k (some n) := by
  refine ⟨hn, hk, fun x hx hkx => ?_⟩
  have hpost := (ht.node_rel hn).2
  rw [← hn, Node.toList_fill, List.mem_append, List.mem_cons] at hx
  rcases hx with hx | rfl | hx
  · exact absurd hkx (not_lt.mpr (hpre x hx))
  · exact le_rfl
  · exact le_of_lt (hpost x hx)

-- ============================================================ the successor

/-- From a node with nothing up to it above `k`, the successor is in the
tree with nothing before it above `k`; above `k` it is the node to
return, and when there is none no key is above `k`. -/
theorem LOS_RbSuccessorNode_le (ht : t.Ok) {n : Node α} (hn : n.fill = t.pstRoot)
    (hle : ∀ x ∈ n.pre ++ [n.val], t.pfGetKey x ≤ k) :
    match LOS_RbSuccessorNode (some n) with
    | some m => m.fill = t.pstRoot ∧ (∀ x ∈ m.pre, t.pfGetKey x ≤ k) ∧
        (k < t.pfGetKey m.val → NextNodeSpec t k (some m))
    | none => NextNodeSpec t k none := by
  have hs := LOS_RbSuccessorNode_spec n
  split
  next m hm =>
    rw [hm] at hs
    obtain ⟨hfill, hpre, -⟩ := hs
    have hfill' : m.fill = t.pstRoot := hfill.trans hn
    have hpre' : ∀ x ∈ m.pre, t.pfGetKey x ≤ k := hpre ▸ hle
    exact ⟨hfill', hpre', NextNodeSpec.of_pre ht hfill' hpre'⟩
  next hm =>
    rw [hm] at hs
    -- nothing after `n`: the whole tree is up to `n`
    intro x hx
    rw [← hn, Node.toList_fill, hs] at hx
    exact hle x (by simpa using hx)

/-- The loop of `LOS_RbGetNextNode` from a node with nothing up to it
above `k` returns the node with the least key above `k`, or `NULL` when
no key is above `k`. -/
theorem LOS_RbGetNextNode.scan_spec (ht : t.Ok) {n : Node α} (hn : n.fill = t.pstRoot)
    (hle : ∀ x ∈ n.pre ++ [n.val], t.pfGetKey x ≤ k) :
    NextNodeSpec t k (LOS_RbGetNextNode.scan t k n) := by
  -- induction along the successors, the measure of `scan`
  induction n using LOS_RbGetNextNode.scan.induct t k with
  | case1 n hnone =>
    have hs := LOS_RbSuccessorNode_le ht hn hle
    rw [LOS_RbGetNextNode.scan, hnone] at *
    exact hs
  | case2 n m hm hsmall =>
    have hs := LOS_RbSuccessorNode_le ht hn hle
    rw [hm] at hs
    rw [LOS_RbGetNextNode.scan, hm]
    dsimp only
    rw [if_pos hsmall]
    exact hs.2.2 ((ht.cmp_smaller _ _).mp hsmall)
  | case3 n m hm hsmall ih =>
    have hs := LOS_RbSuccessorNode_le ht hn hle
    rw [hm] at hs
    obtain ⟨hfill, hpre, -⟩ := hs
    rw [LOS_RbGetNextNode.scan, hm]
    dsimp only
    rw [if_neg hsmall]
    -- `m` is not above `k` either: go on from it
    have hm' : t.pfGetKey m.val ≤ k := not_lt.mp fun h => hsmall ((ht.cmp_smaller _ _).mpr h)
    exact ih hfill fun x hx => by
      rw [List.mem_append, List.mem_singleton] at hx
      rcases hx with hx | rfl
      · exact hpre x hx
      · exact hm'

-- ============================================================ the search

/-- The invariant of the search for `k`: everything before the subtree
it is in has a key below `k`, everything after it a key above. -/
def Zoomed (t : LosRbTree κ α) (k : κ) (ps : List (Frame α)) : Prop :=
  (∀ x ∈ before ps, t.pfGetKey x < k) ∧ ∀ x ∈ after ps, k < t.pfGetKey x

/-- Left from a node whose key is above `k`. -/
theorem Zoomed.left (ht : t.Ok) {ps : List (Frame α)} {l r : BTree α} {a : α}
    (hfill : fill ps (.node l a r) = t.pstRoot) (hz : Zoomed t k ps) (hk : k < t.pfGetKey a) :
    Zoomed t k (.left a r :: ps) := by
  have hpost := (ht.node_rel (show Node.fill ⟨ps, l, a, r⟩ = t.pstRoot from hfill)).2
  refine ⟨hz.1, fun x hx => ?_⟩
  rw [after_left, List.mem_cons, List.mem_append] at hx
  rcases hx with rfl | hx | hx
  · exact hk
  · exact lt_trans hk (hpost x (List.mem_append_left _ hx))
  · exact hz.2 x hx

/-- Right from a node whose key is below `k`. -/
theorem Zoomed.right (ht : t.Ok) {ps : List (Frame α)} {l r : BTree α} {a : α}
    (hfill : fill ps (.node l a r) = t.pstRoot) (hz : Zoomed t k ps) (hk : t.pfGetKey a < k) :
    Zoomed t k (.right l a :: ps) := by
  have hpre := (ht.node_rel (show Node.fill ⟨ps, l, a, r⟩ = t.pstRoot from hfill)).1
  refine ⟨fun x hx => ?_, hz.2⟩
  rw [before_right, List.mem_append, List.mem_append, List.mem_singleton] at hx
  rcases hx with hx | hx | rfl
  · exact hz.1 x hx
  · exact lt_trans (hpre x (List.mem_append_right _ hx)) hk
  · exact hk

/-- The search ends at a node whose key is `k`, or at an empty subtree
with everything before it below `k` and everything after it above, with
the node it visited last the parent of that subtree. -/
theorem LOS_RbGetNode.loop_cases (ht : t.Ok) {ps : List (Frame α)} {sub : BTree α}
    {pstY : Option (Node α)} (hfill : fill ps sub = t.pstRoot) (hz : Zoomed t k ps)
    (hy : pstY = parentOf ps sub) :
    (∃ n, LOS_RbGetNode.loop t k pstY ps sub = (true, some n) ∧ n.fill = t.pstRoot ∧
        t.pfGetKey n.val = k) ∨
      ∃ ps', LOS_RbGetNode.loop t k pstY ps sub = (false, parentOf ps' .nil) ∧
        fill ps' .nil = t.pstRoot ∧ Zoomed t k ps' := by
  induction sub generalizing ps pstY with
  | nil => exact .inr ⟨ps, by rw [hy]; rfl, hfill, hz⟩
  | node l a r ihl ihr =>
    rw [LOS_RbGetNode.loop]
    by_cases heq : t.pfCmpKey k (t.pfGetKey a) = RB_EQUAL
    · -- found
      rw [if_pos heq]
      exact .inl ⟨_, rfl, hfill, ((ht.cmp_equal _ _).mp heq).symm⟩
    rw [if_neg heq]
    by_cases hsmall : t.pfCmpKey k (t.pfGetKey a) = RB_SMALLER
    · -- `k` is below the node's key: left
      rw [if_pos hsmall]
      exact ihl hfill (hz.left ht hfill ((ht.cmp_smaller _ _).mp hsmall)) rfl
    · -- neither equal nor below: right
      rw [if_neg hsmall]
      have hk : t.pfGetKey a < k := by
        rcases lt_trichotomy k (t.pfGetKey a) with h | h | h
        · exact absurd ((ht.cmp_smaller _ _).mpr h) hsmall
        · exact absurd ((ht.cmp_equal _ _).mpr h) heq
        · exact h
      exact ihr hfill (hz.right ht hfill hk) rfl

/-- `LOS_RbGetNode` on a search tree: the node whose key is `k`, or
`FALSE` when there is none. -/
theorem LOS_RbGetNode_spec (ht : t.Ok) (k : κ) : GetNodeSpec t k (LOS_RbGetNode t k) := by
  unfold LOS_RbGetNode
  have hz : Zoomed t k [] := ⟨nofun, nofun⟩
  rcases LOS_RbGetNode.loop_cases ht (rfl : fill [] t.pstRoot = t.pstRoot) hz
    (rfl : (none : Option (Node α)) = parentOf [] t.pstRoot) with
    ⟨n, hres, hn, hkey⟩ | ⟨ps, hres, hfill, hz⟩
  · rw [hres]
    exact ⟨hn, hkey⟩
  · rw [hres]
    -- every key is below or above `k`
    intro x hx hkx
    rw [← hfill, toList_fill, BTree.toList_nil, List.nil_append, List.mem_append] at hx
    rcases hx with hx | hx
    · exact absurd hkx (ne_of_lt (hz.1 x hx))
    · exact absurd hkx (ne_of_gt (hz.2 x hx))

/-- `LOS_RbGetNextNode` on a search tree: the node with the least key
above `k`, or `NULL` when no key is above `k`. -/
theorem LOS_RbGetNextNode_spec (ht : t.Ok) (k : κ) : NextNodeSpec t k (LOS_RbGetNextNode t k) := by
  unfold LOS_RbGetNextNode LOS_RbGetNode
  have hz : Zoomed t k [] := ⟨nofun, nofun⟩
  rcases LOS_RbGetNode.loop_cases ht (rfl : fill [] t.pstRoot = t.pstRoot) hz
    (rfl : (none : Option (Node α)) = parentOf [] t.pstRoot) with
    ⟨n, hres, hn, hkey⟩ | ⟨ps, hres, hfill, hz⟩
  · -- found: the successor of the node whose key is `k`
    rw [hres]
    dsimp only
    have hle : ∀ x ∈ n.pre ++ [n.val], t.pfGetKey x ≤ k := by
      intro x hx
      rw [List.mem_append, List.mem_singleton] at hx
      rcases hx with hx | rfl
      · exact le_of_lt (hkey ▸ (ht.node_rel hn).1 x hx)
      · exact le_of_eq hkey
    have hs := LOS_RbSuccessorNode_le ht hn hle
    have hs' := LOS_RbSuccessorNode_spec n
    cases hsucc : LOS_RbSuccessorNode (some n) with
    | none =>
      rw [hsucc] at hs
      exact hs
    | some m =>
      rw [hsucc] at hs hs'
      -- the successor comes after `n`, so its key is above `k`
      have hm : m.val ∈ n.post := hs'.2.2 ▸ List.mem_cons_self
      exact hs.2.2 (hkey ▸ (ht.node_rel hn).2 m.val hm)
  · rw [hres]
    cases ps with
    | nil =>
      -- an empty tree
      intro x hx
      rw [← hfill] at hx
      cases hx
    | cons f ps =>
      cases f with
      | left a r =>
        -- the search went left from `a`: `a` is the successor of `k`
        have hk : k < t.pfGetKey a := hz.2 a List.mem_cons_self
        have hfill' : Node.fill ⟨ps, .nil, a, r⟩ = t.pstRoot := hfill
        dsimp only [parentOf]
        rw [if_neg fun h => absurd ((ht.cmp_bigger _ _).mp h) (not_lt.mpr (le_of_lt hk))]
        exact NextNodeSpec.of_pre ht hfill' (fun x hx => le_of_lt (hz.1 x (by simpa [Node.pre] using hx))) hk
      | right l a =>
        -- the search went right from `a`: `a` is the predecessor of `k`
        have hk : t.pfGetKey a < k := hz.1 a (by simp)
        have hfill' : Node.fill ⟨ps, l, a, .nil⟩ = t.pstRoot := hfill
        dsimp only [parentOf]
        rw [if_pos ((ht.cmp_bigger _ _).mpr hk)]
        exact LOS_RbGetNextNode.scan_spec ht hfill' fun x hx =>
          le_of_lt (hz.1 x (by simpa [Node.pre] using hx))

-- the search for `4` goes right from `3` and left from `5`, and stops there
example : (LOS_RbGetNextNode (⟨.node (.node .nil 1 .nil) 3 (.node .nil 5 .nil), cmpKey, id⟩ :
    LosRbTree Nat Nat) 4).map Node.val = some 5 := by decide

omit [LinearOrder κ] in
/-- `LOS_RbGetNode` says `TRUE` exactly when a node has key `k`. -/
theorem GetNodeSpec.fst_eq_true_iff {r : Bool × Option (Node α)} (h : GetNodeSpec t k r) :
    r.1 = true ↔ ∃ x ∈ t.pstRoot.toList, t.pfGetKey x = k := by
  match r, h with
  | (true, some n), ⟨hn, hkey⟩ =>
    refine iff_of_true rfl ⟨n.val, ?_, hkey⟩
    rw [← hn, Node.toList_fill]
    exact List.mem_append_right _ List.mem_cons_self
  | (false, _), h =>
    refine iff_of_false Bool.false_ne_true ?_
    rintro ⟨x, hx, hkx⟩
    exact h x hx hkx

theorem rb_ordered_lookups (ht : t.Ok) (k : κ) :
    ((LOS_RbGetNode t k).1 = true ↔ ∃ x ∈ t.pstRoot.toList, t.pfGetKey x = k) ∧
      GetNodeSpec t k (LOS_RbGetNode t k) ∧ NextNodeSpec t k (LOS_RbGetNextNode t k) := by
  have hget := LOS_RbGetNode_spec ht k
  exact ⟨hget.fst_eq_true_iff, hget, LOS_RbGetNextNode_spec ht k⟩

/-- A tree of keys `1`, `3`, `5` compared by `cmpKey`, looked up at `4`. -/
theorem rb_ordered_lookups_three :
    ∃ t : LosRbTree Nat Nat, t.pstRoot = .node (.node .nil 1 .nil) 3 (.node .nil 5 .nil) ∧ t.Ok ∧
      ((LOS_RbGetNode t 4).1 = true ↔ ∃ x ∈ t.pstRoot.toList, t.pfGetKey x = 4) ∧
      GetNodeSpec t 4 (LOS_RbGetNode t 4) ∧ NextNodeSpec t 4 (LOS_RbGetNextNode t 4) := by
  have ht : (⟨.node (.node .nil 1 .nil) 3 (.node .nil 5 .nil), cmpKey, id⟩ : LosRbTree Nat Nat).Ok :=
    LosRbTree.Ok.of_cmpKey (by decide)
  exact ⟨_, rfl, ht, rb_ordered_lookups ht 4⟩

end LiteOsA.Rb
