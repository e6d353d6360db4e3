/-
The futex hash read as lists, and the pointer walks over it.

# The invariant

`HashOk s v` says that the links of `s` hold the hash that the view `v`
lists. Bucket `i` is the ring of its key nodes `v.heads i` behind
`.lockList i`; each key node `h` heads the ring of its waiters, `h`
and then `v.queue h`; the nodes of such a ring carry the bucket of
their key node, and its key and pid; no two key nodes of a bucket have
the same key and pid; a waiter behind a key node is not a key node
itself (its `futexList` link is null); and no node is listed twice.

# The walks

`OsFindFutexNode` walks the ring of a bucket. On a ring it is
`List.find?` over the key nodes (`OsFindFutexNode_walked`): it returns
the first key node with the key and pid searched for, or it runs out
of fuel before the end of the ring (`Walked`). Under the invariant the
key node it finds is the only one (`find?_head`).

Unlinking a key node from its bucket leaves every bucket a ring, the
key node's own without it (`bucket_unlink`).
-/
import LiteOsA.Ipc.Futex
import Mathlib.Data.Fintype.Card

namespace LiteOsA.Futex


variable {τ : Type} [DecidableEq τ]

-- ============================================================ binds

@[simp] theorem bind_ok {β γ : Type} (b : β) (f : β → Except Stop γ) : (Except.ok b >>= f) = f b := rfl

@[simp] theorem bind_error {β γ : Type} (e : Stop) (f : β → Except Stop γ) :
    (Except.error e >>= f) = .error e := rfl

@[simp] theorem deref_some {β : Type} (b : β) : deref (some b) = .ok b := rfl

@[simp] theorem deref_none {β : Type} : deref (none : Option β) = .error .null := rfl

omit [DecidableEq τ] in
@[simp] theorem fromFutexList_futexList (x : τ) : fromFutexList (.futexList x) = .ok x := rfl

@[simp] theorem setFutex_futex (s : FutexSys τ) (x y : τ) (n : FutexNode) :
    (s.setFutex x n).futex y = if y = x then n else s.futex y :=
  Function.update_apply _ _ _ _

/-- The state a call leaves, `d` when it stopped. -/
def leftState {α : Type} (d : FutexSys τ) : Except Stop (α × FutexSys τ) → FutexSys τ
  | .ok (_, s) => s
  | .error _ => d

/-- A walk of `n` rounds given `fuel`: it returns `v`, or it stops for
fuel, which only a walk short of fuel does. -/
def Walked {β : Type} (fuel n : Nat) (r : Except Stop β) (v : β) : Prop :=
  r = .ok v ∨ (fuel < n ∧ r = .error .fuel)

theorem Walked.eq_ok {β : Type} {fuel n : Nat} {r : Except Stop β} {v : β} (h : Walked fuel n r v)
    (hf : n ≤ fuel) : r = .ok v :=
  h.resolve_right fun hlt => absurd hf (Nat.not_le.mpr hlt.1)

-- ============================================================ keys

/-- Every key hashes to a bucket of `g_futexHash`. -/
theorem OsFutexKeyToIndex_lt (futexKey flags : Nat) : OsFutexKeyToIndex futexKey flags < FUTEX_INDEX_MAX := by
  have hp : ∀ x, x &&& FUTEX_HASH_PRIVATE_MASK ≤ FUTEX_HASH_PRIVATE_MASK := fun _ => Nat.and_le_right
  have hsh : ∀ x, x &&& FUTEX_HASH_SHARED_MASK ≤ FUTEX_HASH_SHARED_MASK := fun _ => Nat.and_le_right
  unfold OsFutexKeyToIndex
  split
  · have := hp (LOS_HashFNV32aBuf (uintptrBytes futexKey) FNV1_32A_INIT)
    simp only [FUTEX_HASH_PRIVATE_MASK, FUTEX_INDEX_PRIVATE_MAX, FUTEX_INDEX_MAX,
      FUTEX_INDEX_SHARED_MAX] at this ⊢
    omega
  · have := hsh (LOS_HashFNV32aBuf (uintptrBytes futexKey) FNV1_32A_INIT)
    simp only [FUTEX_HASH_SHARED_MASK, FUTEX_INDEX_SHARED_POS, FUTEX_INDEX_PRIVATE_MAX,
      FUTEX_INDEX_MAX, FUTEX_INDEX_SHARED_MAX] at this ⊢
    omega

-- ============================================================ the invariant

/-- The futex hash read as lists. -/
structure HashView (τ : Type) where
  /-- the key nodes of a bucket, in list order -/
  heads : Nat → List τ
  /-- the waiters behind a key node, in ring order -/
  queue : τ → List τ

/-- Every node of the hash: bucket by bucket, each key node and then its
waiters. -/
def HashView.nodes (v : HashView τ) : List τ :=
  (List.range FUTEX_INDEX_MAX).flatMap fun i => (v.heads i).flatMap fun h => h :: v.queue h

/-- The pointers of `s` hold the hash that `v` lists. -/
structure HashOk (s : FutexSys τ) (v : HashView τ) : Prop where
  bucket : ∀ i < FUTEX_INDEX_MAX, Circ s.futexList (.lockList i) ((v.heads i).map .futexList)
  ring : ∀ i < FUTEX_INDEX_MAX, ∀ h ∈ v.heads i, Circ s.queueList h (v.queue h)
  index : ∀ i < FUTEX_INDEX_MAX, ∀ h ∈ v.heads i, ∀ x ∈ h :: v.queue h, (s.futex x).index = i
  key : ∀ i < FUTEX_INDEX_MAX, ∀ h ∈ v.heads i, ∀ x ∈ v.queue h,
    (s.futex x).key = (s.futex h).key ∧ (s.futex x).pid = (s.futex h).pid
  unique : ∀ i < FUTEX_INDEX_MAX, (v.heads i).Pairwise fun a b =>
    ((s.futex a).key, (s.futex a).pid) ≠ ((s.futex b).key, (s.futex b).pid)
  queued : ∀ i < FUTEX_INDEX_MAX, ∀ h ∈ v.heads i, ∀ x ∈ v.queue h, s.futexList.next (.futexList x) = none
  nodup : v.nodes.Nodup

/-- In a list without repeats made of blocks, an element lies in one
block only. -/
theorem eq_of_mem_flatMap_nodup {α β : Type} {f : α → List β} :
    ∀ {l : List α}, (l.flatMap f).Nodup → ∀ {a b : α}, a ∈ l → b ∈ l → ∀ {x : β}, x ∈ f a → x ∈ f b → a = b
  | [], _, _, _, ha, _, _, _, _ => absurd ha List.not_mem_nil
  | c :: l, h, a, b, ha, hb, x, hxa, hxb => by
    rw [List.flatMap_cons, List.nodup_append] at h
    obtain ⟨-, hl, hdisj⟩ := h
    -- a block of the rest shares no element with the first block
    have hout : ∀ d ∈ l, x ∈ f d → x ∉ f c := fun d hd hxd hxc =>
      hdisj x hxc x (List.mem_flatMap.mpr ⟨d, hd, hxd⟩) rfl
    rcases List.mem_cons.mp ha with rfl | ha' <;> rcases List.mem_cons.mp hb with rfl | hb'
    · rfl
    · exact absurd hxa (hout b hb' hxb)
    · exact absurd hxb (hout a ha' hxa)
    · exact eq_of_mem_flatMap_nodup hl ha' hb' hxa hxb

namespace HashOk

variable {s : FutexSys τ} {v : HashView τ} {i j : Nat}

omit [DecidableEq τ] in
/-- The blocks of one bucket. -/
theorem bucket_nodup (hs : HashOk s v) (hi : i < FUTEX_INDEX_MAX) :
    ((v.heads i).flatMap fun h => h :: v.queue h).Nodup :=
  (List.nodup_flatMap.mp hs.nodup).1 i (List.mem_range.mpr hi)

omit [DecidableEq τ] in
/-- A bucket lists each key node once. -/
theorem heads_nodup (hs : HashOk s v) (hi : i < FUTEX_INDEX_MAX) : (v.heads i).Nodup :=
  (List.nodup_flatMap.mp (hs.bucket_nodup hi)).2.imp fun hd he => hd (he ▸ List.mem_cons_self) List.mem_cons_self

omit [DecidableEq τ] in
/-- A key node is in one bucket only. -/
theorem heads_disjoint (hs : HashOk s v) (hi : i < FUTEX_INDEX_MAX) (hj : j < FUTEX_INDEX_MAX) {h : τ}
    (hhi : h ∈ v.heads i) (hhj : h ∈ v.heads j) : i = j :=
  eq_of_mem_flatMap_nodup hs.nodup (List.mem_range.mpr hi) (List.mem_range.mpr hj)
    (List.mem_flatMap.mpr ⟨h, hhi, List.mem_cons_self⟩) (List.mem_flatMap.mpr ⟨h, hhj, List.mem_cons_self⟩)

omit [DecidableEq τ] in
/-- A bucket has at most as many key nodes as there are tasks. -/
theorem length_heads_le [Fintype τ] (hs : HashOk s v) (hi : i < FUTEX_INDEX_MAX) :
    (v.heads i).length ≤ Fintype.card τ :=
  (hs.heads_nodup hi).length_le_card

end HashOk

-- ============================================================ the search

section Find

variable {s : FutexSys τ} {node : FutexNode}

/-- What `OsFindFutexNode` looks for. -/
def FutexNode.Matches (s : FutexSys τ) (node : FutexNode) (h : τ) : Bool :=
  decide ((s.futex h).key = node.key ∧ (s.futex h).pid = node.pid)

/-- The walk from a key node on: the key nodes `ys` to the bucket's
`lockList` are searched in order. -/
theorem OsFindFutexNode.loop_walked :
    ∀ {ys : List τ} {fuel : Nat}, (ys.map FLoc.futexList ++ [FLoc.lockList node.index]).IsChain s.futexList.Link →
      Walked fuel ys.length
        (OsFindFutexNode.loop s node fuel ((ys.map .futexList).headD (.lockList node.index)))
        (ys.find? (FutexNode.Matches s node))
  | [], fuel, _ => by
    left
    rw [OsFindFutexNode.loop.eq_def]
    simp
  | y :: ys, fuel, hc => by
    -- the link from `y` leads to the next key node, or back to the bucket
    have hnext : s.futexList.next (.futexList y) = some ((ys.map .futexList).headD (.lockList node.index)) := by
      cases ys with
      | nil => exact (List.isChain_cons_cons.mp hc).1.1
      | cons z zs => exact (List.isChain_cons_cons.mp hc).1.1
    cases fuel with
    | zero =>
      right
      rw [OsFindFutexNode.loop.eq_def]
      simp
    | succ fuel =>
      have ih : Walked fuel ys.length
          (OsFindFutexNode.loop s node fuel ((ys.map .futexList).headD (.lockList node.index)))
          (ys.find? (FutexNode.Matches s node)) :=
        OsFindFutexNode.loop_walked (List.isChain_cons.mp hc).2
      by_cases hm : FutexNode.Matches s node y = true
      · left
        have hm' := hm
        simp only [FutexNode.Matches, decide_eq_true_eq] at hm'
        rw [OsFindFutexNode.loop.eq_def]
        simp [hm', List.find?_cons_of_pos hm]
        rfl
      · have hm' := hm
        simp only [FutexNode.Matches, decide_eq_true_eq] at hm'
        have hloop : OsFindFutexNode.loop s node (fuel + 1) (List.map FLoc.futexList (y :: ys) |>.headD
            (.lockList node.index)) =
            OsFindFutexNode.loop s node fuel ((ys.map .futexList).headD (.lockList node.index)) := by
          rw [OsFindFutexNode.loop.eq_def]
          simp [hm', hnext]
        rw [hloop, List.find?_cons_of_neg hm]
        rcases ih with h | ⟨hlt, h⟩
        · exact Or.inl h
        · exact Or.inr ⟨by simp; omega, h⟩

/-- `OsFindFutexNode` on a bucket whose ring holds the key nodes `hs`:
`List.find?` over them. -/
theorem OsFindFutexNode_walked {hs : List τ}
    (hb : Circ s.futexList (.lockList node.index) (hs.map .futexList)) (fuel : Nat) :
    Walked fuel hs.length (OsFindFutexNode s node fuel) (hs.find? (FutexNode.Matches s node)) := by
  have hc : (FLoc.lockList node.index :: (hs.map FLoc.futexList ++ [FLoc.lockList node.index])).IsChain
      s.futexList.Link := hb
  have hnext : s.futexList.next (.lockList node.index) =
      some ((hs.map FLoc.futexList).headD (.lockList node.index)) := by
    cases hs with
    | nil => exact (List.isChain_cons_cons.mp hc).1.1
    | cons z zs => exact (List.isChain_cons_cons.mp hc).1.1
  unfold OsFindFutexNode
  rw [hnext, deref_some, bind_ok]
  exact OsFindFutexNode.loop_walked (List.isChain_cons.mp hc).2

omit [DecidableEq τ] in
/-- Among key nodes of pairwise different keys and pids, the search finds
the one that matches. -/
theorem find?_head {hs : List τ}
    (hu : hs.Pairwise fun a b => ((s.futex a).key, (s.futex a).pid) ≠ ((s.futex b).key, (s.futex b).pid))
    {h : τ} (hh : h ∈ hs) (hm : FutexNode.Matches s node h = true) :
    hs.find? (FutexNode.Matches s node) = some h := by
  induction hs with
  | nil => exact absurd hh List.not_mem_nil
  | cons a hs ih =>
    obtain ⟨hua, hus⟩ := List.pairwise_cons.mp hu
    rcases List.mem_cons.mp hh with rfl | hh'
    · exact List.find?_cons_of_pos hm
    · -- `a` comes first, and matches only if it is `h` itself
      have hma : FutexNode.Matches s node a = false := by
        by_contra hne
        simp only [FutexNode.Matches, Bool.not_eq_false, decide_eq_true_eq] at hne hm
        exact hua h hh' (by rw [hne.1, hne.2, hm.1, hm.2])
      rw [List.find?_cons_of_neg (by simp [hma])]
      exact ih hus hh'

end Find


-- ============================================================ unlinking

/-- Unlinking the key node `h` from bucket `i`: every bucket is still a
ring, bucket `i` without `h`, `h`'s links are null, and nothing off
bucket `i`'s ring changes. -/
theorem bucket_unlink {s : FutexSys τ} {v : HashView τ} (hs : HashOk s v) {i : Nat} (hi : i < FUTEX_INDEX_MAX)
    {xs₁ xs₂ : List τ} {h : τ} (hh : v.heads i = xs₁ ++ h :: xs₂) :
    ∃ l', LOS_ListDelete s.futexList (.futexList h) = some l' ∧
      (∀ j < FUTEX_INDEX_MAX,
        Circ l' (.lockList j) ((Function.update v.heads i (xs₁ ++ xs₂) j).map .futexList)) ∧
      l'.next (.futexList h) = none ∧ l'.prev (.futexList h) = none ∧
      ∀ a, a ∉ FLoc.lockList i :: (v.heads i).map .futexList →
        l'.next a = s.futexList.next a ∧ l'.prev a = s.futexList.prev a := by
  have hnd : (FLoc.lockList i :: (v.heads i).map FLoc.futexList).Nodup :=
    List.nodup_cons.mpr ⟨by simp, (hs.heads_nodup hi).map fun _ _ he => FLoc.futexList.inj he⟩
  have hb := hs.bucket i hi
  rw [hh, List.map_append, List.map_cons] at hb hnd
  obtain ⟨l', hdel, hcirc, hn, hp, hframe⟩ := LOS_ListDelete_circ hb hnd
  refine ⟨l', hdel, fun j hj => ?_, hn, hp, ?_⟩
  · by_cases hji : j = i
    · subst hji
      rw [Function.update_self, List.map_append]
      exact hcirc
    · -- another bucket: none of its nodes is on bucket `i`'s ring
      rw [Function.update_of_ne hji]
      refine (hs.bucket j hj).congr (fun a ha => (hframe a ?_).1) (fun a ha => (hframe a ?_).2) <;>
      · rw [← List.map_cons, ← List.map_append, ← hh]
        simp only [List.mem_cons, List.mem_map] at ha ⊢
        rintro (rfl | ⟨x, hx, rfl⟩)
        · rcases ha with he | ⟨y, -, hy⟩
          · exact hji (FLoc.lockList.inj he).symm
          · exact absurd hy (by simp)
        · rcases ha with he | ⟨y, hy, hyx⟩
          · exact absurd he (by simp)
          · exact hji (hs.heads_disjoint hj hi (FLoc.futexList.inj hyx ▸ hy) hx)
  · rw [hh, List.map_append, List.map_cons]
    exact hframe

end LiteOsA.Futex
