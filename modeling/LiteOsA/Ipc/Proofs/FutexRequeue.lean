/-
The walk of the requeue over the nodes it moves (`OsFutexRequeueInsertNewKey`).

Each round steps `queueList` to the next node first, then unlinks the
current node and inserts it under the new key, and the walk goes on
while the node it stepped to has a `pstNext`. A key with one waiter `x`
has the ring `x ⇄ x`, so the step lands on `x` itself; the unlink nulls
`x`'s links and the insertion links `x` into the new key's ring again,
so the walk goes on at `x` (`loop_self_revisits`). When `x`'s task
comes before the head of that ring, `x` has become the head: the next
round unlinks it once more and inserts it into the ring of the head it
now is, whose links are null, and the insertion follows the null `prev`
link of its head (`loop_head_faults`).

The run at the end starts from boot, makes one waiter for each of two
keys, and requeues the first key onto the second.
-/
import LiteOsA.Ipc.Proofs.FutexHash

namespace LiteOsA.Futex

variable {τ : Type} [DecidableEq τ]

/-- The insertion of the pended node `x` into the ring of `x` itself,
after `x` was unlinked, follows the null `prev` link of `x`. -/
theorem OsFutexInsertTasktoPendList_unlinked {s : FutexSys τ} {x : τ} (fuel : Nat)
    (hp : s.pended x = true) (hn : s.queueList.next x = none) (hpv : s.queueList.prev x = none) :
    OsFutexInsertTasktoPendList s x x x fuel = .error .null := by
  have hempty : LOS_ListEmpty s.queueList x = false := by simp [LOS_ListEmpty, hn]
  simp [OsFutexInsertTasktoPendList, FutexSys.pendTask, hp, hempty, hpv]

/-- A round of the walk at the pended, linked node `x` that is the head
of the new key's ring faults. -/
theorem OsFutexRequeueInsertNewKey.loop_head_faults {s : FutexSys τ} {x a b : τ} (fuel n : Nat)
    (hp : s.pended x = true) (hn : s.queueList.next x = some a) (hpv : s.queueList.prev x = some b) :
    OsFutexRequeueInsertNewKey.loop fuel (n + 1) s x x = .error .null := by
  rw [OsFutexRequeueInsertNewKey.loop]
  -- the unlink nulls both links of `x`
  have hins : OsFutexInsertTasktoPendList { s with
      queueList := (((s.queueList.setPrev a (some b)).setNext b (some a)).setNext x none).setPrev x none }
      x x x fuel = .error .null :=
    OsFutexInsertTasktoPendList_unlinked fuel hp (by simp) (by simp)
  simp [FutexSys.pendTask, FutexSys.editQueue, hp, hn, LOS_ListDelete_eq hn hpv, hins]

/-- The walk at a node `x` whose ring is `x` alone: after `x` moves to
the new key's ring, where it is linked, the walk goes on at `x`. -/
theorem OsFutexRequeueInsertNewKey.loop_self_revisits {s s' : FutexSys τ} {l : Links τ} {x h h' : τ}
    {r fuel n : Nat} (hp : s.pended x = true) (hn : s.queueList.next x = some x)
    (hdel : LOS_ListDelete s.queueList x = some l)
    (hins : OsFutexInsertTasktoPendList { s with queueList := l } h x x fuel = .ok (r, h', s'))
    (hlinked : (s'.queueList.next x).isSome) :
    OsFutexRequeueInsertNewKey.loop fuel (n + 1) s x h = OsFutexRequeueInsertNewKey.loop fuel n s' x h' := by
  rw [OsFutexRequeueInsertNewKey.loop]
  simp [FutexSys.pendTask, FutexSys.editQueue, hp, hn, hdel, hins, hlinked]

/-- The walk moving the one waiter `x` of its key, where `x` comes
before the head of the new key's ring (the insertion returns `x` as the
head) and stays pended and linked, faults in its second round. -/
theorem OsFutexRequeueInsertNewKey.loop_single_faults {s s' : FutexSys τ} {l : Links τ} {x h a b : τ}
    {r fuel n : Nat} (hp : s.pended x = true) (hn : s.queueList.next x = some x)
    (hdel : LOS_ListDelete s.queueList x = some l)
    (hins : OsFutexInsertTasktoPendList { s with queueList := l } h x x fuel = .ok (r, x, s'))
    (hp' : s'.pended x = true) (hn' : s'.queueList.next x = some a) (hpv' : s'.queueList.prev x = some b) :
    OsFutexRequeueInsertNewKey.loop fuel (n + 2) s x h = .error .null := by
  rw [OsFutexRequeueInsertNewKey.loop_self_revisits hp hn hdel hins (by simp [hn'])]
  exact OsFutexRequeueInsertNewKey.loop_head_faults fuel n hp' hn' hpv'

/-- Three tasks of process 1 at boot, task 1 of priority 10 and the
others of priority 20, where a word of 0 is at every user address. -/
def requeueBoot : FutexSys (Fin 3) :=
  FutexSys.boot (fun t => if t.val = 1 then 10 else 20) (fun _ => 1) (fun _ => some 0) (fun _ => 0)

/-- Task 1 waits on the private futex at `OS_FUTEX_KEY_BASE` (bucket 2)
and task 2 on the one at `OS_FUTEX_KEY_BASE + 4` (bucket 62). Task 0
then requeues one waiter of the first onto the second, waking none: the
moved node is the one waiter of its key and comes before task 2, and
the requeue follows a null link, whatever the fuel beyond the three
tasks. -/
theorem futex_requeue_single_waiter_faults :
    ∃ s₁ s₂, OsFutexWait requeueBoot 1 OS_FUTEX_KEY_BASE FUTEX_PRIVATE 0 LOS_WAIT_FOREVER 3 = .ok (none, s₁) ∧
      OsFutexWait s₁ 2 (OS_FUTEX_KEY_BASE + 4) FUTEX_PRIVATE 0 LOS_WAIT_FOREVER 3 = .ok (none, s₂) ∧
      HashOk s₂ ⟨fun i => if i = 2 then [1] else if i = 62 then [2] else [], fun _ => []⟩ ∧
      ∀ fuel, 3 ≤ fuel → OsFutexRequeue s₂ 0 OS_FUTEX_KEY_BASE (FUTEX_REQUEUE ||| FUTEX_PRIVATE) 0 1
        (OS_FUTEX_KEY_BASE + 4) fuel = .error .null := by
  refine ⟨leftState requeueBoot
      (OsFutexWait requeueBoot 1 OS_FUTEX_KEY_BASE FUTEX_PRIVATE 0 LOS_WAIT_FOREVER 3),
    leftState requeueBoot (OsFutexWait (leftState requeueBoot
      (OsFutexWait requeueBoot 1 OS_FUTEX_KEY_BASE FUTEX_PRIVATE 0 LOS_WAIT_FOREVER 3))
        2 (OS_FUTEX_KEY_BASE + 4) FUTEX_PRIVATE 0 LOS_WAIT_FOREVER 3), rfl, rfl,
    ⟨by decide +kernel, by decide +kernel, by decide +kernel, by decide +kernel, by decide +kernel,
      by decide +kernel, by decide +kernel⟩, ?_⟩
  intro fuel hfuel
  -- the walks of the run take at most three rounds, so any more fuel is left over
  obtain ⟨k, rfl⟩ := Nat.exists_eq_add_of_le' hfuel
  set_option maxRecDepth 2000 in rfl

end LiteOsA.Futex
