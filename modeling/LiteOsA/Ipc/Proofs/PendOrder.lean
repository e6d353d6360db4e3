/-
The order of a priority pend list (`OsSchedLockPendFindPos`,
kernel/base/sched/sched_sq/los_sched.c), shared by the mutex and the
read-write lock.

A task about to pend goes before the node `OsSchedLockPendFindPos`
returns (`OsSchedTaskWait`, here `insertIdx` at the index the model
returns). On a list sorted by priority value, that position always
exists and keeps the list sorted (`OsSchedLockPendFindPos_sorted`).
It is not FIFO among equals: the four cases put the task at the tail
when the last waiter's priority is not above its own, but the scan of
`OsSchedLockPendFindPosSub` stops at the first waiter of equal priority
and inserts right after it (`OsSchedLockPendFindPosSub_first_equal`),
ahead of the later ones of that priority
(`pend_equal_priority_not_fifo`).
-/
import LiteOsA.Ipc.Proofs.MuxOwner
import Mathlib.Data.List.Pairwise

namespace LiteOsA.Mux

variable {τ : Type _} (pri : τ → Nat)

/-- A pend list in non-decreasing priority value. -/
def PriSorted (l : List τ) : Prop := l.Pairwise fun a b => pri a ≤ pri b

instance (l : List τ) : Decidable (PriSorted pri l) := inferInstanceAs (Decidable (List.Pairwise _ _))

variable {pri}

/-- Every task of `l.insertIdx i r` is `r` or a task of `l`. -/
theorem mem_insertIdx_of_le {l : List τ} {i : Nat} {r x : τ} (hi : i ≤ l.length)
    (hx : x ∈ l.insertIdx i r) : x = r ∨ x ∈ l :=
  List.mem_cons.mp ((List.perm_insertIdx r l hi).subset hx)

-- ============================================================ sorted

/-- The scan inserts a task of priority `pri r` where the list stays
sorted. The walk passes the waiters of smaller priority value; each of
them stays ahead of `r`. -/
theorem OsSchedLockPendFindPosSub_sorted [DecidableEq τ] (r : τ) :
    ∀ {l : List τ} {i : Nat}, PriSorted pri l → OsSchedLockPendFindPosSub pri (pri r) l = some i →
      PriSorted pri (l.insertIdx i r)
  | [], _, _, h => by simp [OsSchedLockPendFindPosSub] at h
  | t :: l, i, hs, h => by
    obtain ⟨ht, hl⟩ := List.pairwise_cons.mp hs
    rw [OsSchedLockPendFindPosSub] at h
    split_ifs at h with hlt hgt
    · -- a waiter of smaller priority value: the insertion is further on
      obtain ⟨j, hj, rfl⟩ := Option.map_eq_some_iff.mp h
      have hjl : j ≤ l.length := OsSchedLockPendFindPosSub_le pri (pri r) hj
      refine List.pairwise_cons.mpr ⟨fun x hx => ?_, OsSchedLockPendFindPosSub_sorted r hl hj⟩
      rcases mem_insertIdx_of_le hjl hx with rfl | hx
      · exact hlt.le
      · exact ht x hx
    · -- a waiter of larger priority value: `r` goes before it
      cases h
      have hrt : pri r ≤ pri t := by omega
      refine List.pairwise_cons.mpr ⟨fun x hx => ?_, hs⟩
      rcases List.mem_cons.mp hx with rfl | hx
      · exact hrt
      · exact hrt.trans (ht x hx)
    · -- a waiter of equal priority: `r` goes right after it
      cases h
      have heq : pri t = pri r := by omega
      refine List.pairwise_cons.mpr ⟨fun x hx => ?_, List.pairwise_cons.mpr ⟨fun x hx => ?_, hl⟩⟩
      · rcases List.mem_cons.mp hx with rfl | hx
        · exact heq.le
        · exact ht x hx
      · exact heq.ge.trans (ht x hx)

/-- The scan finds a position when some waiter's priority value is not
below the new task's. -/
theorem OsSchedLockPendFindPosSub_isSome {p : Nat} :
    ∀ {l : List τ}, (∃ x ∈ l, p ≤ pri x) → (OsSchedLockPendFindPosSub pri p l).isSome
  | [], ⟨_, hx, _⟩ => absurd hx List.not_mem_nil
  | t :: l, ⟨x, hx, hpx⟩ => by
    rw [OsSchedLockPendFindPosSub]
    split_ifs with hlt hgt
    · -- `t` is passed, so the waiter sought is further on
      rcases List.mem_cons.mp hx with rfl | hx
      · omega
      · simpa using OsSchedLockPendFindPosSub_isSome ⟨x, hx, hpx⟩
    · rfl
    · rfl

/-- On a sorted pend list, `OsSchedLockPendFindPos` always returns a
node, and inserting before it keeps the list sorted. -/
theorem OsSchedLockPendFindPos_sorted [DecidableEq τ] {l : List τ} (r : τ) (hs : PriSorted pri l) :
    ∃ i, OsSchedLockPendFindPos pri (pri r) l = some i ∧ PriSorted pri (l.insertIdx i r) := by
  cases l with
  | nil => exact ⟨0, rfl, List.pairwise_singleton _ _⟩
  | cons first rest =>
    obtain ⟨hfirst, hrest⟩ := List.pairwise_cons.mp hs
    rw [OsSchedLockPendFindPos]
    split_ifs with hgt hle
    · -- before the first waiter
      refine ⟨0, rfl, List.pairwise_cons.mpr ⟨fun x hx => ?_, hs⟩⟩
      rcases List.mem_cons.mp hx with rfl | hx
      · exact hgt.le
      · exact hgt.le.trans (hfirst x hx)
    · -- at the tail: every waiter's priority value is at most the last one's
      refine ⟨rest.length + 1, rfl, ?_⟩
      show PriSorted pri ((first :: rest).insertIdx (first :: rest).length r)
      rw [List.insertIdx_length_self]
      have : Std.Refl fun a b : τ => pri a ≤ pri b := ⟨fun _ => le_rfl⟩
      refine List.pairwise_append.mpr ⟨hs, List.pairwise_singleton _ _, fun x hx y hy => ?_⟩
      rw [List.mem_singleton.mp hy]
      exact (List.Pairwise.rel_getLast hs hx).trans hle
    · -- the scan: it stops at the last waiter at the latest
      have hlast := List.getLast_mem (List.cons_ne_nil first rest)
      obtain ⟨i, hi⟩ := Option.isSome_iff_exists.mp
        (OsSchedLockPendFindPosSub_isSome ⟨_, hlast, (Nat.lt_of_not_le hle).le⟩)
      exact ⟨i, hi, OsSchedLockPendFindPosSub_sorted r hs hi⟩

-- ============================================================ not FIFO

/-- The scan stops at the first waiter of the new task's priority and
puts the task right after it, whatever follows. -/
theorem OsSchedLockPendFindPosSub_first_equal {p : Nat} {a : τ} {rest : List τ} (ha : pri a = p) :
    ∀ {pre : List τ}, (∀ x ∈ pre, pri x < p) →
      OsSchedLockPendFindPosSub pri p (pre ++ a :: rest) = some (pre.length + 1)
  | [], _ => by simp [OsSchedLockPendFindPosSub, ha]
  | t :: pre, hpre => by
    have ht : pri t < p := hpre t (List.mem_cons_self ..)
    have ih : OsSchedLockPendFindPosSub pri p (pre ++ a :: rest) = some (pre.length + 1) :=
      OsSchedLockPendFindPosSub_first_equal ha fun x hx => hpre x (List.mem_cons_of_mem t hx)
    simp [OsSchedLockPendFindPosSub, ht, ih]

/-- Two waiters of priority `5` ahead of one of priority `7`: a third
task of priority `5` is queued between the first two. -/
theorem pend_equal_priority_not_fifo :
    PriSorted (fun t : Nat => if t = 3 then 7 else 5) [1, 2, 3] ∧ 4 ∉ [1, 2, 3] ∧
      OsSchedLockPendFindPos (fun t : Nat => if t = 3 then 7 else 5) 5 [1, 2, 3] = some 1 ∧
      [1, 2, 3].insertIdx 1 4 = [1, 4, 2, 3] := by
  exact ⟨by decide, by decide, by decide, rfl⟩

end LiteOsA.Mux
