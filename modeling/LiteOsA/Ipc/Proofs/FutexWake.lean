/-
`OsFutexWake` with a wake count that is not positive.

`OsFutexCheckAndWakePendTask` runs its loop `wakeNumber` times, so with
`wakeNumber ≤ 0` it does nothing and leaves the caller's `*nextNode`
null (`OsFutexCheckAndWakePendTask_of_nonpos`). `OsFutexWakeTask` reads
a null `*newHeadNode` as "every waiter was woken": it unlinks the key
node from its bucket and deinitialises it. Every waiter of the key is
still pending, and none of them can be found again: a later
`OsFutexWake` of the same address finds no key node and returns
`LOS_EBADF` (`OsFutexWake_nonpos_orphans`, for every state of the
invariant).
-/
import LiteOsA.Ipc.Proofs.FutexHash

namespace LiteOsA.Futex


variable {τ : Type} [DecidableEq τ]

/-- No round of the wake loop runs for a count that is not positive. -/
theorem OsFutexCheckAndWakePendTask_of_nonpos (s : FutexSys τ) (headNode : τ) {wakeNumber : Int}
    (hw : wakeNumber ≤ 0) (nextNode : Option τ) (wakeAny : Bool) (fuel : Nat) :
    OsFutexCheckAndWakePendTask s headNode wakeNumber nextNode wakeAny fuel = .ok (nextNode, wakeAny, s) := by
  rw [OsFutexCheckAndWakePendTask, Int.toNat_eq_zero.mpr hw, OsFutexCheckAndWakePendTask.loop]

/-- The node `OsFutexWakeTask` searches for, as `tempNode`. -/
def wakeTempNode (s : FutexSys τ) (run : τ) (futexKey flags : Nat) : FutexNode :=
  ⟨futexKey, OsFutexKeyToIndex futexKey flags,
    if flags &&& FUTEX_PRIVATE ≠ 0 then s.processID run else OS_INVALID⟩

omit [DecidableEq τ] in
@[simp] theorem wakeTempNode_key (s : FutexSys τ) (run : τ) (futexKey flags : Nat) :
    (wakeTempNode s run futexKey flags).key = futexKey := rfl

omit [DecidableEq τ] in
@[simp] theorem wakeTempNode_index (s : FutexSys τ) (run : τ) (futexKey flags : Nat) :
    (wakeTempNode s run futexKey flags).index = OsFutexKeyToIndex futexKey flags := rfl

theorem OsFutexWakeTask_eq (s : FutexSys τ) (run : τ) (futexKey flags : Nat) (wakeNumber : Int)
    (newHeadNode : Option τ) (wakeAny : Bool) (fuel : Nat) :
    OsFutexWakeTask s run futexKey flags wakeNumber newHeadNode wakeAny fuel = do
      let some node ← OsFindFutexNode s (wakeTempNode s run futexKey flags) fuel
        | return (LOS_EBADF, newHeadNode, wakeAny, s)
      let (newHeadNode, wakeAny, s) ←
        OsFutexCheckAndWakePendTask s node wakeNumber newHeadNode wakeAny fuel
      match newHeadNode with
      | some newHead =>
        let s ← OsFutexReplaceQueueListHeadNode s node newHead
        let s ← OsFutexDeinitFutexNode s node
        return (LOS_OK, newHeadNode, wakeAny, s)
      | none =>
        if (s.futex node).index < FUTEX_INDEX_MAX then
          let s ← OsFutexDeleteKeyFromFutexList s node
          let s ← OsFutexDeinitFutexNode s node
          return (LOS_OK, newHeadNode, wakeAny, s)
        return (LOS_OK, newHeadNode, wakeAny, s) := rfl

/-- A wake that finds no key node returns `LOS_EBADF` and changes
nothing. -/
theorem OsFutexWake_of_not_found {s : FutexSys τ} {run : τ} {userVaddr flags : Nat}
    (hcheck : OsFutexWakeParamCheck s userVaddr flags = LOS_OK) {fuel : Nat}
    (hfind : OsFindFutexNode s (wakeTempNode s run (OsFutexFlagsToKey s userVaddr flags) flags) fuel = .ok none)
    (wakeNumber : Int) : OsFutexWake s run userVaddr flags wakeNumber fuel = .ok (LOS_EBADF, s) := by
  simp [OsFutexWake, hcheck, LOS_OK, OsFutexWakeTask_eq, hfind]
  rfl

section Orphans

variable {s : FutexSys τ} {v : HashView τ}

/-- Deinitialising a node of a ring: its key fields and its queue links
change, nothing else. -/
theorem OsFutexDeinitFutexNode_of_ring {h : τ} {xs : List τ} (hr : Circ s.queueList h xs) :
    ∃ q, OsFutexDeinitFutexNode s h =
      .ok { s.setFutex h { s.futex h with index := OS_INVALID_VALUE, pid := 0 } with queueList := q } := by
  obtain ⟨hn, hp⟩ := hr.isSome_next_prev
  obtain ⟨n, hn⟩ := Option.isSome_iff_exists.mp hn
  obtain ⟨p, hp⟩ := Option.isSome_iff_exists.mp hp
  refine ⟨(((s.queueList.setPrev n (some p)).setNext p (some n)).setNext h none).setPrev h none, ?_⟩
  simp only [OsFutexDeinitFutexNode, FutexSys.editQueue, FutexSys.setFutex, LOS_ListDelete_eq hn hp]
  rfl

/-- A wake with a count that is not positive, of an address whose key
node `h` is in the hash: it returns `LOS_OK` having woken no one, and
afterwards no wake of that address finds the key. Every waiter stays
pending. -/
theorem OsFutexWake_nonpos_orphans [Fintype τ] (hs : HashOk s v) {run : τ} {userVaddr flags : Nat}
    (hcheck : OsFutexWakeParamCheck s userVaddr flags = LOS_OK) {h : τ}
    (hh : h ∈ v.heads (OsFutexKeyToIndex (OsFutexFlagsToKey s userVaddr flags) flags))
    (hm : FutexNode.Matches s (wakeTempNode s run (OsFutexFlagsToKey s userVaddr flags) flags) h = true)
    {wakeNumber : Int} (hw : wakeNumber ≤ 0) {fuel : Nat} (hfuel : Fintype.card τ ≤ fuel) :
    ∃ s', OsFutexWake s run userVaddr flags wakeNumber fuel = .ok (LOS_OK, s') ∧
      s'.pended = s.pended ∧ s'.woken = s.woken ∧
      ∀ w, OsFutexWake s' run userVaddr flags w fuel = .ok (LOS_EBADF, s') := by
  have hi := OsFutexKeyToIndex_lt (OsFutexFlagsToKey s userVaddr flags) flags
  -- the search finds `h`
  have hfind : OsFindFutexNode s (wakeTempNode s run (OsFutexFlagsToKey s userVaddr flags) flags) fuel =
      .ok (some h) := by
    rw [(OsFindFutexNode_walked (hs.bucket _ hi) fuel).eq_ok
      ((hs.length_heads_le hi).trans hfuel), wakeTempNode_index, find?_head (hs.unique _ hi) hh hm]
  -- the key node is unlinked from its bucket and deinitialised
  obtain ⟨xs₁, xs₂, hsplit⟩ := List.mem_iff_append.mp hh
  obtain ⟨l', hdel, hbuckets, -, -, -⟩ := bucket_unlink hs hi hsplit
  have hindex : (s.futex h).index < FUTEX_INDEX_MAX := (hs.index _ hi h hh h List.mem_cons_self).symm ▸ hi
  have hring : Circ ({ s with futexList := l' } : FutexSys τ).queueList h (v.queue h) := hs.ring _ hi h hh
  obtain ⟨q, hdeinit⟩ := OsFutexDeinitFutexNode_of_ring hring
  have hwake : OsFutexWake s run userVaddr flags wakeNumber fuel = .ok (LOS_OK,
      { ({ s with futexList := l' } : FutexSys τ).setFutex h
        { s.futex h with index := OS_INVALID_VALUE, pid := 0 } with queueList := q }) := by
    simp [OsFutexWake, hcheck, LOS_OK, OsFutexWakeTask_eq, hfind, OsFutexCheckAndWakePendTask_of_nonpos _ _ hw,
      hindex, OsFutexDeleteKeyFromFutexList, FutexSys.editFutex, hdel, hdeinit]
    rfl
  refine ⟨_, hwake, rfl, rfl, fun w => ?_⟩
  -- the bucket has lost `h`, and no other key node matches
  have hlen : (xs₁ ++ xs₂).length ≤ fuel := by
    have := hs.length_heads_le hi
    rw [hsplit] at this
    simp only [List.length_append, List.length_cons] at this ⊢
    omega
  have hnd := hs.heads_nodup hi
  rw [hsplit] at hnd
  have hhx : h ∉ xs₁ ++ xs₂ := (List.nodup_middle.mp hnd |> List.nodup_cons.mp).1
  have hu := hs.unique _ hi
  rw [hsplit, List.pairwise_append, List.pairwise_cons] at hu
  have hnone : (xs₁ ++ xs₂).find? (FutexNode.Matches ({ ({ s with futexList := l' } : FutexSys τ).setFutex h
      { s.futex h with index := OS_INVALID_VALUE, pid := 0 } with queueList := q })
      (wakeTempNode s run (OsFutexFlagsToKey s userVaddr flags) flags)) = none := by
    refine List.find?_eq_none.mpr fun x hx hmx => ?_
    have hxh : x ≠ h := fun he => hhx (he ▸ hx)
    simp only [FutexNode.Matches, decide_eq_true_eq] at hm hmx
    simp only [setFutex_futex, hxh, if_false] at hmx
    have hpair : ((s.futex x).key, (s.futex x).pid) = ((s.futex h).key, (s.futex h).pid) := by
      rw [hmx.1, hmx.2, hm.1, hm.2]
    rcases List.mem_append.mp hx with hx₁ | hx₂
    · exact hu.2.2 x hx₁ h List.mem_cons_self hpair
    · exact hu.2.1.1 x hx₂ hpair.symm
  have hfind' : OsFindFutexNode ({ ({ s with futexList := l' } : FutexSys τ).setFutex h
      { s.futex h with index := OS_INVALID_VALUE, pid := 0 } with queueList := q })
      (wakeTempNode s run (OsFutexFlagsToKey s userVaddr flags) flags) fuel = .ok none := by
    have hb := hbuckets _ hi
    rw [Function.update_self] at hb
    rw [(OsFindFutexNode_walked hb fuel).eq_ok hlen, hnone]
  -- the second wake reads of the state only what the first left alone
  refine OsFutexWake_of_not_found ?_ ?_ w
  · exact hcheck
  · exact hfind'

end Orphans

/-- Two tasks of process 1 at boot, where a word of 0 is at every user
address. -/
def wakeBoot : FutexSys (Fin 2) := FutexSys.boot (fun _ => 20) (fun _ => 1) (fun _ => some 0) (fun _ => 0)

/-- Task 1 waits on the private futex at `OS_FUTEX_KEY_BASE`, which
leaves the hash holding it as the one key node of bucket 2. Task 0 then
wakes the address with a count of 0: the wake returns `LOS_OK` and wakes
no one, task 1 still waits, and every later wake of the address,
whatever its count, returns `LOS_EBADF`. -/
theorem futex_wake_zero_orphans :
    ∃ s₁ s₂, OsFutexWait wakeBoot 1 OS_FUTEX_KEY_BASE FUTEX_PRIVATE 0 LOS_WAIT_FOREVER 2 = .ok (none, s₁) ∧
      HashOk s₁ ⟨fun i => if i = 2 then [1] else [], fun _ => []⟩ ∧
      OsFutexWake s₁ 0 OS_FUTEX_KEY_BASE (FUTEX_WAKE ||| FUTEX_PRIVATE) 0 2 = .ok (LOS_OK, s₂) ∧
      s₂.pended 1 = true ∧ s₂.woken = [] ∧
      ∀ w, OsFutexWake s₂ 0 OS_FUTEX_KEY_BASE (FUTEX_WAKE ||| FUTEX_PRIVATE) w 2 = .ok (LOS_EBADF, s₂) := by
  refine ⟨leftState wakeBoot (OsFutexWait wakeBoot 1 OS_FUTEX_KEY_BASE FUTEX_PRIVATE 0 LOS_WAIT_FOREVER 2),
    leftState (leftState wakeBoot (OsFutexWait wakeBoot 1 OS_FUTEX_KEY_BASE FUTEX_PRIVATE 0 LOS_WAIT_FOREVER 2))
      (OsFutexWake (leftState wakeBoot (OsFutexWait wakeBoot 1 OS_FUTEX_KEY_BASE FUTEX_PRIVATE 0
        LOS_WAIT_FOREVER 2)) 0 OS_FUTEX_KEY_BASE (FUTEX_WAKE ||| FUTEX_PRIVATE) 0 2), rfl,
    ⟨by decide +kernel, by decide +kernel, by decide +kernel, by decide +kernel, by decide +kernel,
      by decide +kernel, by decide +kernel⟩, rfl, by decide +kernel, by decide +kernel,
    OsFutexWake_of_not_found (by decide +kernel) (by decide +kernel)⟩

end LiteOsA.Futex
