/-
The red-black tree refines a set of keys.

`KeysStep key` is what the tree is for: a set of keys, where an add
puts in the key of the new element, or refuses with `FALSE` an element
whose key is in already, and a delete takes out the key of a node.

`RbStep.keys` matches each call on a red-black search tree with a step
of `KeysStep`, on the keys the lookups find (`foundKeys`), and keeps
the tree a red-black search tree with the same callbacks.
`rb_run_refines_keys` puts them together by `Run.simulate`: every run of
calls from `LOS_RbInitTree` is matched by a run of `KeysStep` from the
empty set through the same calls, and ends at a red-black search tree,
no deeper than twice the logarithm of its size.
-/
import LiteOsA.Libscrew.Proofs.RbDelete
import LiteOsA.Lib.Run

namespace LiteOsA.Rb

open BTree RbColor

variable {κ α : Type _}

/-- A set of keys, as the calls on a tree change it. -/
inductive KeysStep (key : RbElem α → κ) : Set κ → RbCall α → Set κ → Prop where
  | add_new {S : Set κ} {a : RbElem α} : key a ∉ S → KeysStep key S (.add a true) (insert (key a) S)
  | add_dup {S : Set κ} {a : RbElem α} : key a ∈ S → KeysStep key S (.add a false) S
  | del {S : Set κ} {n : Node (RbElem α)} : key n.val ∈ S → KeysStep key S (.del n) (S \ {key n.val})

/-- The keys the lookups of a tree find. -/
def foundKeys (t : LosRbTree κ α) : Set κ := {k | (LOS_RbGetNode t k).1 = true}

variable [LinearOrder κ] {t t' : LosRbTree κ (RbElem α)} {c : RbCall α}

theorem LosRbTree.RbOk.mem_foundKeys (ht : t.RbOk) (k : κ) :
    k ∈ foundKeys t ↔ ∃ x ∈ t.pstRoot.toList, t.pfGetKey x = k :=
  (LOS_RbGetNode_spec ht.toOk k).fst_eq_true_iff

/-- Each call on a red-black search tree returns one with the same
callbacks, and changes the keys the lookups find as a step of
`KeysStep` does. -/
theorem RbStep.keys (ht : t.RbOk) (h : RbStep t c t') :
    t'.RbOk ∧ t'.pfGetKey = t.pfGetKey ∧ KeysStep t.pfGetKey (foundKeys t) c (foundKeys t') := by
  cases h with
  | @add _ a b hadd =>
    obtain ⟨b', root, h', hok, hret, hkeys⟩ := LOS_RbAddNode_keys ht a
    rw [hadd] at h'
    obtain ⟨rfl, rfl⟩ := Prod.mk.inj (Option.some.inj h')
    refine ⟨hok, rfl, ?_⟩
    have hfound : foundKeys { t with pstRoot := root } = insert (t.pfGetKey a) (foundKeys t) := by
      ext k
      rw [hok.mem_foundKeys, Set.mem_insert_iff, ht.mem_foundKeys, eq_comm, or_comm]
      exact hkeys k
    cases b with
    | false =>
      -- refused: the key was in, and the keys are as they were
      have hin : t.pfGetKey a ∈ foundKeys t := (ht.mem_foundKeys _).mpr (hret.mp rfl)
      rw [hfound, Set.insert_eq_of_mem hin]
      exact .add_dup hin
    | true =>
      rw [hfound]
      exact .add_new fun hin => absurd (hret.mpr ((ht.mem_foundKeys _).mp hin)) (by decide)
  | @del _ n hn hdel =>
    obtain ⟨root, h', hok, hkeys⟩ := OsRbDeleteNode_keys ht hn
    obtain rfl := Option.some.inj (hdel.symm.trans h')
    refine ⟨hok, rfl, ?_⟩
    have hfound : foundKeys { t with pstRoot := root } = foundKeys t \ {t.pfGetKey n.val} := by
      ext k
      rw [hok.mem_foundKeys, Set.mem_sdiff, Set.mem_singleton_iff, ht.mem_foundKeys]
      exact hkeys k
    -- the node is in the tree, and so is its key
    have hin : t.pfGetKey n.val ∈ foundKeys t := by
      refine (ht.mem_foundKeys _).mpr ⟨n.val, ?_, rfl⟩
      rw [← hn, Node.toList_fill]
      exact List.mem_append_right _ List.mem_cons_self
    rw [hfound]
    exact .del hin

/-- The tree refines its set of keys: every run of calls from
`LOS_RbInitTree`, with keys of a linear order read off the user's
structure, is matched by a run of `KeysStep` from the empty set through
the same calls, whose set is the keys the lookups find; and it ends at
a red-black search tree, no deeper than twice the logarithm of its
size. -/
theorem rb_run_refines_keys (getKey : α → κ) {calls : List (RbCall α)} {t : LosRbTree κ (RbElem α)}
    (hrun : Run RbStep (LOS_RbInitTree cmpKey fun a => getKey a.data) calls t) :
    ∃ S, Run (KeysStep fun a => getKey a.data) ∅ calls S ∧ foundKeys t = S ∧ t.RbOk ∧
      t.pstRoot.depth ≤ 2 * Nat.log 2 (t.pstRoot.toList.length + 1) := by
  have h₀ : (LOS_RbInitTree cmpKey fun a : RbElem α => getKey a.data).RbOk :=
    ⟨LosRbTree.Ok.of_cmpKey List.Pairwise.nil, fun _ _ => rfl, ⟨0, .nil⟩⟩
  have hempty : foundKeys (LOS_RbInitTree cmpKey fun a : RbElem α => getKey a.data) = ∅ := by
    ext k
    rw [h₀.mem_foundKeys]
    simp [LOS_RbInitTree]
  -- the tree and the set are related while the tree keeps its key function
  obtain ⟨S, ⟨hok, -, hS⟩, hkeys⟩ := hrun.simulate (fun _ => True)
    (fun t S => t.RbOk ∧ t.pfGetKey = (fun a => getKey a.data) ∧ foundKeys t = S)
    (fun _ _ _ _ _ => trivial)
    (fun _ _ _ _ _ hR hs => by
      obtain ⟨hok, hkey, hS⟩ := hR
      obtain ⟨hok', hkey', hstep⟩ := RbStep.keys hok hs
      exact ⟨_, ⟨hok', hkey'.trans hkey, rfl⟩, hkey ▸ hS ▸ hstep⟩)
    trivial ⟨h₀, rfl, hempty⟩
  obtain ⟨N, hN⟩ := hok.balanced
  exact ⟨S, hkeys, hS, hok, hN.depth_le_log⟩

/-- From `LOS_RbInitTree` keyed by the element, `1` added, and the node
that holds it taken out. -/
theorem rb_run_refines_keys_add_del :
    ∃ t : LosRbTree Nat (RbElem Nat),
      Run RbStep (LOS_RbInitTree cmpKey fun a => a.data)
        [.add ⟨LOS_RB_RED, 1⟩ true, .del ⟨[], .nil, ⟨LOS_RB_BLACK, 1⟩, .nil⟩] t ∧
      ∃ S, Run (KeysStep fun a => a.data) ∅
          [.add ⟨LOS_RB_RED, 1⟩ true, .del ⟨[], .nil, ⟨LOS_RB_BLACK, 1⟩, .nil⟩] S ∧
        foundKeys t = S ∧ t.RbOk ∧ t.pstRoot.depth ≤ 2 * Nat.log 2 (t.pstRoot.toList.length + 1) := by
  -- the add paints the new root black; the delete leaves the empty tree
  have hadd : LOS_RbAddNode (LOS_RbInitTree cmpKey fun a : RbElem Nat => a.data) ⟨LOS_RB_RED, 1⟩ =
      some (true, ⟨.node .nil ⟨LOS_RB_BLACK, 1⟩ .nil, cmpKey, fun a => a.data⟩) := by
    simp only [LOS_RbAddNode, LOS_RbGetNode, LOS_RbGetNode.loop, LOS_RbInitTree,
      LOS_RbInsertOneNodeProcess]
    rw [OsRbInsertNodeFixup_of_not_red (by decide)]
    rfl
  have hdel : LOS_RbDelNode (⟨.node .nil ⟨LOS_RB_BLACK, 1⟩ .nil, cmpKey, fun a => a.data⟩ :
      LosRbTree Nat (RbElem Nat)) ⟨[], .nil, ⟨LOS_RB_BLACK, 1⟩, .nil⟩ =
      some ⟨.nil, cmpKey, fun a => a.data⟩ := by
    simp only [LOS_RbDelNode, OsRbDeleteNode, OsRbDeleteNode.fixupIf, if_pos]
    rw [OsRbDeleteNodeFixup_exit (by simp)]
    rfl
  have hrun : Run RbStep (LOS_RbInitTree cmpKey fun a => a.data)
      [.add ⟨LOS_RB_RED, 1⟩ true, .del ⟨[], .nil, ⟨LOS_RB_BLACK, 1⟩, .nil⟩] ⟨.nil, cmpKey, fun a => a.data⟩ :=
    (Run.nil.snoc (RbStep.add hadd)).snoc (RbStep.del rfl hdel)
  exact ⟨_, hrun, rb_run_refines_keys (fun x : Nat => x) hrun⟩

end LiteOsA.Rb
