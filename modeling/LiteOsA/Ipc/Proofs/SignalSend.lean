/-
Which threads a process-directed signal reaches, and which signal
`sigtimedwait` takes.

`SigProcessSignalHandler` records, in one visit of the process's
threads, the first thread waiting for the signal (`firstWaiter`) and
the first other thread on which the signal is unblocked
(`firstReceiver`), and dispatches to each as it finds it; the visit
stops only once it has both. `SigProcessLoadTcb` then dispatches to the
first thread when it found neither. After the threads `l` the visit's
record is `infoAfter l` and the control blocks are `stateAfter l`
(`handler_step`, `foreach_after`), so `OsSigProcessSend` dispatches to
the waiter and to the receiver, or to the first thread
(`OsSigProcessSend_eq`): to one thread unless a process has both
(`OsSigProcessSend_one`), and then to two (`OsSigProcessSend_two`).

`FindFirstSetedBit` shifts its argument until one bit is left, so it
returns the index of the highest set bit (`FindFirstSetedBit_eq_log2`),
and `OsSigTimedWaitNoLock` reports the highest pending signal of the
set while it takes every one of them off the pending set
(`OsSigTimedWaitNoLock_pending`).
-/
import LiteOsA.Ipc.Signal
import Mathlib.Data.List.Find

namespace LiteOsA.Signal

-- ------------------------------------------------------------ dispatch

theorem dispatchTo_self (σ : Nat → SigCB) (t signo : Nat) :
    dispatchTo σ t signo t = OsTcbDispatch (σ t) signo := by
  simp [dispatchTo]

theorem dispatchTo_of_ne (σ : Nat → SigCB) {t x : Nat} (signo : Nat) (hx : x ≠ t) :
    dispatchTo σ t signo x = σ x := by
  simp [dispatchTo, hx]

/-- Dispatches to two threads do not see each other. -/
theorem dispatchTo_comm (σ : Nat → SigCB) {t u : Nat} (signo : Nat) (htu : t ≠ u) :
    dispatchTo (dispatchTo σ t signo) u signo = dispatchTo (dispatchTo σ u signo) t signo := by
  unfold dispatchTo
  rw [Function.update_of_ne htu.symm, Function.update_of_ne htu, Function.update_comm htu]

-- ------------------------------------------------------------ the threads the visit records

section send

variable (sig : Nat → SigCB) (signo : Nat)

/-- The thread waits for the signal: it is in the thread's wait mask. -/
def waits (t : Nat) : Bool := OsSigIsMember (sig t).sigwaitmask signo

/-- The signal is unblocked on the thread. -/
def unblockedOn (t : Nat) : Bool := !OsSigIsMember (sig t).sigprocmask signo

/-- The first thread of `l` waiting for the signal. -/
def firstWaiter (l : List Nat) : Option Nat := l.find? (waits sig signo)

/-- The first thread of `l` other than `firstWaiter` with the signal
unblocked. -/
def firstReceiver (l : List Nat) : Option Nat :=
  l.find? fun t => unblockedOn sig signo t && decide (firstWaiter sig signo l ≠ some t)

/-- What the visit has recorded after the threads `l`. -/
def infoAfter (l : List Nat) : ProcessSignalInfo :=
  ⟨l.head?, firstReceiver sig signo l, firstWaiter sig signo l, firstReceiver sig signo l⟩

/-- `OsTcbDispatch` on the thread named, if any. -/
def dispatchOpt (σ : Nat → SigCB) : Option Nat → Nat → SigCB
  | some t => dispatchTo σ t signo
  | none => σ

/-- The control blocks after the visit of `l`: the first waiter and the
first receiver have had the signal. -/
def stateAfter (l : List Nat) : Nat → SigCB :=
  dispatchOpt signo (dispatchOpt signo sig (firstWaiter sig signo l)) (firstReceiver sig signo l)

variable {sig signo}

@[simp] theorem infoAfter_awakenedTcb (l : List Nat) :
    (infoAfter sig signo l).awakenedTcb = firstWaiter sig signo l := rfl

@[simp] theorem infoAfter_receivedTcb (l : List Nat) :
    (infoAfter sig signo l).receivedTcb = firstReceiver sig signo l := rfl

@[simp] theorem infoAfter_unblockedTcb (l : List Nat) :
    (infoAfter sig signo l).unblockedTcb = firstReceiver sig signo l := rfl

theorem dispatchOpt_of_not_mem (σ : Nat → SigCB) {o : Option Nat} {x : Nat} (hx : o ≠ some x) :
    dispatchOpt signo σ o x = σ x := by
  cases o with
  | none => rfl
  | some t => exact dispatchTo_of_ne σ signo fun h => hx (by rw [h])

theorem firstWaiter_mem {l : List Nat} {w : Nat} (h : firstWaiter sig signo l = some w) : w ∈ l :=
  List.mem_of_find?_eq_some h

theorem firstReceiver_mem {l : List Nat} {u : Nat} (h : firstReceiver sig signo l = some u) : u ∈ l :=
  List.mem_of_find?_eq_some h

/-- The receiver is never the waiter. -/
theorem firstReceiver_ne {l : List Nat} {u : Nat} (h : firstReceiver sig signo l = some u) :
    firstWaiter sig signo l ≠ some u := by
  have hp := List.find?_some h
  simp only [Bool.and_eq_true, decide_eq_true_eq] at hp
  exact hp.2

/-- A thread the visit has not reached is as it was. -/
theorem stateAfter_of_not_mem {l : List Nat} {t : Nat} (ht : t ∉ l) : stateAfter sig signo l t = sig t := by
  have hw : firstWaiter sig signo l ≠ some t := fun h => ht (firstWaiter_mem h)
  have hr : firstReceiver sig signo l ≠ some t := fun h => ht (firstReceiver_mem h)
  unfold stateAfter
  rw [dispatchOpt_of_not_mem _ hr, dispatchOpt_of_not_mem _ hw]

theorem firstWaiter_append_of_isSome {p : List Nat} (q : List Nat) (h : (firstWaiter sig signo p).isSome) :
    firstWaiter sig signo (p ++ q) = firstWaiter sig signo p := by
  obtain ⟨w, hw⟩ := Option.isSome_iff_exists.1 h
  unfold firstWaiter at hw ⊢
  rw [List.find?_append, hw, Option.some_or]

theorem firstWaiter_snoc (p : List Nat) (t : Nat) :
    firstWaiter sig signo (p ++ [t]) =
      (firstWaiter sig signo p).or (if waits sig signo t then some t else none) := by
  unfold firstWaiter
  rw [List.find?_append, List.find?_singleton]

/-- A thread already visited is the waiter after one more thread just
when it was before. -/
theorem firstWaiter_snoc_ne_iff {p : List Nat} {t x : Nat} (ht : t ∉ p) (hx : x ∈ p) :
    firstWaiter sig signo (p ++ [t]) ≠ some x ↔ firstWaiter sig signo p ≠ some x := by
  have hxt : x ≠ t := fun h => ht (h ▸ hx)
  rw [firstWaiter_snoc]
  cases firstWaiter sig signo p with
  | some w => rfl
  | none =>
    split_ifs <;> simp [Ne.symm hxt]

theorem firstReceiver_snoc {p : List Nat} {t : Nat} (ht : t ∉ p) :
    firstReceiver sig signo (p ++ [t]) =
      (firstReceiver sig signo p).or
        (if unblockedOn sig signo t ∧ firstWaiter sig signo (p ++ [t]) ≠ some t then some t else none) := by
  unfold firstReceiver
  rw [List.find?_append, List.find?_singleton]
  -- on the threads already visited the two predicates agree
  have hcongr : p.find? (fun x => unblockedOn sig signo x && decide (firstWaiter sig signo (p ++ [t]) ≠ some x)) =
      p.find? (fun x => unblockedOn sig signo x && decide (firstWaiter sig signo p ≠ some x)) :=
    List.find?_congr fun x hx => by simp only [firstWaiter_snoc_ne_iff ht hx]
  rw [hcongr]
  simp only [Bool.and_eq_true, decide_eq_true_eq]

/-- Once the visit has both threads, later threads change neither. -/
theorem firstReceiver_append_of_done {p : List Nat} (q : List Nat) (hw : (firstWaiter sig signo p).isSome)
    (hr : (firstReceiver sig signo p).isSome) :
    firstReceiver sig signo (p ++ q) = firstReceiver sig signo p := by
  obtain ⟨u, hu⟩ := Option.isSome_iff_exists.1 hr
  unfold firstReceiver at hu ⊢
  rw [firstWaiter_append_of_isSome q hw, List.find?_append, hu, Option.some_or]

theorem infoAfter_append_of_done {p : List Nat} (q : List Nat) (hp : p ≠ [])
    (hw : (firstWaiter sig signo p).isSome) (hr : (firstReceiver sig signo p).isSome) :
    infoAfter sig signo (p ++ q) = infoAfter sig signo p := by
  unfold infoAfter
  rw [firstWaiter_append_of_isSome q hw, firstReceiver_append_of_done q hw hr, List.head?_append]
  cases p with
  | nil => exact absurd rfl hp
  | cons x p' => rfl

theorem stateAfter_append_of_done {p : List Nat} (q : List Nat) (hw : (firstWaiter sig signo p).isSome)
    (hr : (firstReceiver sig signo p).isSome) :
    stateAfter sig signo (p ++ q) = stateAfter sig signo p := by
  simp [stateAfter, firstWaiter_append_of_isSome q hw, firstReceiver_append_of_done q hw hr]

-- ------------------------------------------------------------ one thread of the visit

/-- The first waiter after one more thread: the new thread when none
waited before and it waits, the old one otherwise. -/
theorem firstWaiter_snoc_of_new {p : List Nat} {t : Nat} (hW : firstWaiter sig signo p = none)
    (hwt : waits sig signo t = true) : firstWaiter sig signo (p ++ [t]) = some t := by
  rw [firstWaiter_snoc, hW, if_pos hwt]
  rfl

theorem firstWaiter_snoc_of_old {p : List Nat} {t : Nat}
    (h : ¬(firstWaiter sig signo p = none ∧ waits sig signo t = true)) :
    firstWaiter sig signo (p ++ [t]) = firstWaiter sig signo p := by
  rw [firstWaiter_snoc]
  cases hW : firstWaiter sig signo p with
  | some w => rfl
  | none =>
    have hwt : ¬waits sig signo t = true := fun hwt => h ⟨hW, hwt⟩
    rw [if_neg hwt]
    rfl

/-- The first receiver after one more thread `t`: `t` when none was
found before, the signal is unblocked on `t` and `t` is not the waiter;
the old one otherwise. -/
theorem firstReceiver_snoc_of_new {p : List Nat} {t : Nat} (ht : t ∉ p)
    (h : unblockedOn sig signo t = true ∧ firstWaiter sig signo (p ++ [t]) ≠ some t ∧
      firstReceiver sig signo p = none) :
    firstReceiver sig signo (p ++ [t]) = some t := by
  rw [firstReceiver_snoc ht, h.2.2, if_pos ⟨h.1, h.2.1⟩]
  rfl

theorem firstReceiver_snoc_of_old {p : List Nat} {t : Nat} (ht : t ∉ p)
    (h : ¬(unblockedOn sig signo t = true ∧ firstWaiter sig signo (p ++ [t]) ≠ some t ∧
      firstReceiver sig signo p = none)) :
    firstReceiver sig signo (p ++ [t]) = firstReceiver sig signo p := by
  rw [firstReceiver_snoc ht]
  cases hR : firstReceiver sig signo p with
  | some u => rfl
  | none =>
    have hc : ¬(unblockedOn sig signo t = true ∧ firstWaiter sig signo (p ++ [t]) ≠ some t) :=
      fun hc => h ⟨hc.1, hc.2, hR⟩
    rw [if_neg hc]
    rfl

/-- The visit fills in its default thread at the first thread. -/
theorem infoAfter_default (p : List Nat) (t : Nat) :
    (if (infoAfter sig signo p).defaultTcb = none then
        { infoAfter sig signo p with defaultTcb := some t } else infoAfter sig signo p) =
      { infoAfter sig signo p with defaultTcb := (p ++ [t]).head? } := by
  cases p with
  | nil => rfl
  | cons x p' => rfl

/-- The visit at a thread `t` it has not reached, while it has not both
threads: what it records and the control blocks after are those after
`p ++ [t]`, and it stops exactly when it then has both. -/
theorem handler_step {p : List Nat} {t : Nat} (ht : t ∉ p)
    (hgo : ¬((firstWaiter sig signo p).isSome ∧ (firstReceiver sig signo p).isSome)) :
    (SigProcessSignalHandler signo (infoAfter sig signo p) (stateAfter sig signo p) t).2 =
        (infoAfter sig signo (p ++ [t]), stateAfter sig signo (p ++ [t])) ∧
      ((SigProcessSignalHandler signo (infoAfter sig signo p) (stateAfter sig signo p) t).1 ≠ 0 ↔
        (firstWaiter sig signo (p ++ [t])).isSome ∧ (firstReceiver sig signo (p ++ [t])).isSome) := by
  have hσ : stateAfter sig signo p t = sig t := stateAfter_of_not_mem ht
  have hWt : firstWaiter sig signo p ≠ some t := fun h => ht (firstWaiter_mem h)
  have hRt : firstReceiver sig signo p ≠ some t := fun h => ht (firstReceiver_mem h)
  have hub : (¬OsSigIsMember (stateAfter sig signo p t).sigprocmask signo = true) ↔
      unblockedOn sig signo t = true := by
    rw [hσ]
    simp [unblockedOn]
  simp only [SigProcessSignalHandler, infoAfter_default]
  by_cases hA : firstWaiter sig signo p = none ∧ waits sig signo t = true
  · -- `t` is the first waiter: it gets the signal, and is not the receiver
    have hW' := firstWaiter_snoc_of_new hA.1 hA.2
    have hR' : firstReceiver sig signo (p ++ [t]) = firstReceiver sig signo p :=
      firstReceiver_snoc_of_old ht fun h => h.2.1 hW'
    have hcond : OsSigIsMember (stateAfter sig signo p t).sigwaitmask signo = true ∧
        (infoAfter sig signo p).awakenedTcb = none := ⟨by rw [hσ]; exact hA.2, hA.1⟩
    -- the waiter's dispatch and the receiver's, if any, touch two threads
    have hstate : dispatchTo (stateAfter sig signo p) t signo = stateAfter sig signo (p ++ [t]) := by
      unfold stateAfter
      rw [hW', hR', hA.1]
      cases hR : firstReceiver sig signo p with
      | none => rfl
      | some u =>
        have htu : t ≠ u := fun h => hRt (by rw [hR, h])
        exact (dispatchTo_comm sig signo htu).symm
    simp only [hcond, and_self, if_true]
    by_cases hR : firstReceiver sig signo p = none
    · have hrec : (infoAfter sig signo p).receivedTcb = none := hR
      simp only [hrec, ne_eq, not_true_eq_false, if_false, SigProcessSignalHandler.unblocked, and_false]
      refine ⟨by rw [hstate]; simp only [infoAfter, hW', hR', hR], ?_⟩
      simp [hR', hR]
    · have hrec : (infoAfter sig signo p).receivedTcb ≠ none := hR
      simp only [hrec, ne_eq, not_false_eq_true, if_true]
      refine ⟨by rw [hstate]; simp only [infoAfter, hW', hR'], ?_⟩
      simp [SIG_STOP_VISIT, hW', hR', Option.isSome_iff_ne_none.2 hR]
  · -- `t` is not the first waiter: it gets the signal if it is the first receiver
    have hW' := firstWaiter_snoc_of_old hA
    have hcond : ¬(OsSigIsMember (stateAfter sig signo p t).sigwaitmask signo = true ∧
        (infoAfter sig signo p).awakenedTcb = none) := by
      rw [hσ]
      exact fun h => hA ⟨h.2, h.1⟩
    simp only [hcond, if_false, SigProcessSignalHandler.unblocked]
    have hawake : (infoAfter sig signo p).awakenedTcb ≠ some t := hWt
    by_cases hB : unblockedOn sig signo t = true ∧ firstReceiver sig signo p = none
    · have hR' := firstReceiver_snoc_of_new ht ⟨hB.1, by rw [hW']; exact hWt, hB.2⟩
      have hrec : (infoAfter sig signo p).receivedTcb = none := hB.2
      have hunb : (infoAfter sig signo p).unblockedTcb = none := hB.2
      simp only [hub.2 hB.1, hrec, hunb, hawake, ne_eq, not_false_eq_true, and_self, if_true]
      refine ⟨?_, ?_⟩
      · simp only [infoAfter, hW', hR', stateAfter, hB.2]
        rfl
      · cases hW : firstWaiter sig signo p with
        | none => simp [hW', hW, hR', infoAfter_awakenedTcb]
        | some w => simp [SIG_STOP_VISIT, hW', hW, hR', infoAfter_awakenedTcb]
    · have hR' := firstReceiver_snoc_of_old ht fun h => hB ⟨h.1, h.2.2⟩
      have hskip : ¬(¬OsSigIsMember (stateAfter sig signo p t).sigprocmask signo = true ∧
          (infoAfter sig signo p).receivedTcb = none ∧ (infoAfter sig signo p).awakenedTcb ≠ some t) :=
        fun h => hB ⟨hub.1 h.1, h.2.1⟩
      simp only [hskip, if_false]
      refine ⟨?_, ?_⟩
      · simp only [infoAfter, hW', hR', stateAfter]
      · simp only [hW', hR', ne_eq, not_true_eq_false, false_iff]
        exact hgo

/-- The visit of the threads `rest` after `p`: by induction on `rest`,
one `handler_step` a thread, up to the thread after which the visit has
both and stops, where the rest changes nothing. -/
theorem foreach_after : ∀ (rest p : List Nat), (p ++ rest).Nodup →
    ¬((firstWaiter sig signo p).isSome ∧ (firstReceiver sig signo p).isSome) →
    (OsSigProcessForeachChild (SigProcessSignalHandler signo) rest (infoAfter sig signo p)
        (stateAfter sig signo p)).2 = (infoAfter sig signo (p ++ rest), stateAfter sig signo (p ++ rest))
  | [], p, _, _ => by simp [OsSigProcessForeachChild]
  | t :: rest, p, hnd, hgo => by
    have ht : t ∉ p := fun h => (List.nodup_append.1 hnd).2.2 t h t List.mem_cons_self rfl
    obtain ⟨hstep, hret⟩ := handler_step ht hgo
    have hsplit : p ++ t :: rest = (p ++ [t]) ++ rest := by simp
    unfold OsSigProcessForeachChild
    dsimp only
    split_ifs with hstop
    · -- the visit has both threads after `t` and stops
      obtain ⟨hw, hr⟩ := hret.1 hstop
      rw [hstep, hsplit, infoAfter_append_of_done rest (by simp) hw hr, stateAfter_append_of_done rest hw hr]
    · rw [hstep, hsplit]
      exact foreach_after rest (p ++ [t]) (by rw [← hsplit]; exact hnd) fun h => hstop (hret.2 h)

theorem infoAfter_nil : infoAfter sig signo [] = .empty := rfl

theorem stateAfter_nil : stateAfter sig signo [] = sig := rfl

/-- `OsSigProcessSend` of a signal other than `SIGKILL` to a process
whose threads are distinct: the first waiter and the first receiver get
the signal, or the first thread when there is neither. -/
theorem OsSigProcessSend_eq {threads : List Nat} (hnd : threads.Nodup) (hkill : signo ≠ SIGKILL)
    (sigShare : Nat) :
    OsSigProcessSend threads sigShare sig signo =
      (0, sigShare, if firstWaiter sig signo threads = none ∧ firstReceiver sig signo threads = none
        then dispatchOpt signo sig threads.head? else stateAfter sig signo threads) := by
  have hvisit := @foreach_after sig signo threads [] (by simpa using hnd) (by simp [firstWaiter])
  rw [infoAfter_nil, stateAfter_nil, List.nil_append] at hvisit
  simp only [OsSigProcessSend, hkill, if_false, hvisit]
  unfold SigProcessLoadTcb
  by_cases hnone : firstWaiter sig signo threads = none ∧ firstReceiver sig signo threads = none
  · have hstate : stateAfter sig signo threads = sig := by
      simp only [stateAfter, hnone.1, hnone.2]
      rfl
    simp only [infoAfter_awakenedTcb, infoAfter_receivedTcb, infoAfter_unblockedTcb, hnone, and_self,
      if_true, hstate]
    cases threads with
    | nil => rfl
    | cons x rest => rfl
  · simp only [infoAfter_awakenedTcb, infoAfter_receivedTcb, hnone, if_false]

/-- A process with both a thread waiting for the signal and another
thread on which it is unblocked: both threads get the signal, and no
other thread changes. -/
theorem OsSigProcessSend_two {threads : List Nat} (hnd : threads.Nodup) (hkill : signo ≠ SIGKILL)
    (sigShare : Nat) {w u : Nat} (hw : firstWaiter sig signo threads = some w)
    (hu : firstReceiver sig signo threads = some u) :
    w ≠ u ∧ (OsSigProcessSend threads sigShare sig signo).2.2 w = OsTcbDispatch (sig w) signo ∧
      (OsSigProcessSend threads sigShare sig signo).2.2 u = OsTcbDispatch (sig u) signo ∧
      ∀ x, x ≠ w → x ≠ u → (OsSigProcessSend threads sigShare sig signo).2.2 x = sig x := by
  have hwu : w ≠ u := fun h => firstReceiver_ne hu (by rw [hw, h])
  rw [OsSigProcessSend_eq hnd hkill, if_neg (by simp [hw])]
  simp only [stateAfter, hw, hu, dispatchOpt]
  refine ⟨hwu, ?_, ?_, fun x hxw hxu => ?_⟩
  · rw [dispatchTo_of_ne _ signo hwu, dispatchTo_self]
  · rw [dispatchTo_self, dispatchTo_of_ne _ signo hwu.symm]
  · rw [dispatchTo_of_ne _ signo hxu, dispatchTo_of_ne _ signo hxw]

/-- Otherwise one thread gets the signal: the first waiter, or else the
first thread with the signal unblocked, or else the first thread. -/
theorem OsSigProcessSend_one {threads : List Nat} (hnd : threads.Nodup) (hkill : signo ≠ SIGKILL)
    (sigShare : Nat) (hne : threads ≠ [])
    (hone : ¬((firstWaiter sig signo threads).isSome ∧ (firstReceiver sig signo threads).isSome)) :
    ∃ t ∈ threads, (OsSigProcessSend threads sigShare sig signo).2.2 = dispatchTo sig t signo ∧
      t = ((firstWaiter sig signo threads).or (firstReceiver sig signo threads)).getD (threads.headD 0) := by
  rw [OsSigProcessSend_eq hnd hkill]
  cases hw : firstWaiter sig signo threads with
  | some w =>
    have hu : firstReceiver sig signo threads = none := by
      cases hu : firstReceiver sig signo threads with
      | none => rfl
      | some u => exact absurd ⟨by simp [hw], by simp [hu]⟩ hone
    refine ⟨w, firstWaiter_mem hw, ?_, rfl⟩
    simp only [reduceCtorEq, false_and, if_false, stateAfter, hw, hu, dispatchOpt]
  | none =>
    cases hu : firstReceiver sig signo threads with
    | some u =>
      refine ⟨u, firstReceiver_mem hu, ?_, rfl⟩
      simp only [reduceCtorEq, and_false, if_false, stateAfter, hw, hu, dispatchOpt]
    | none =>
      obtain ⟨x, rest, rfl⟩ := List.exists_cons_of_ne_nil hne
      exact ⟨x, List.mem_cons_self, by simp [dispatchOpt], rfl⟩

/-- Two threads: thread 1 waits in `sigtimedwait` for `SIGUSR1` (10),
which it blocks; thread 2 has every signal unblocked. -/
def twoThreads : Nat → SigCB := fun t =>
  if t = 1 then ⟨0, 0, SIGNO2SET 9, SIGNO2SET 9, true, 0⟩ else ⟨0, 0, 0, 0, false, 0⟩

/-- `OsSigProcessSend` of `SIGUSR1` to the process of `twoThreads`
changes both threads: it wakes thread 1 and flags the signal on
thread 2. -/
theorem process_signal_reaches_two_threads :
    (OsSigProcessSend [1, 2] 0 twoThreads 10).2.2 1 = ⟨0, 0, SIGNO2SET 9, 0, false, 10⟩ ∧
      (OsSigProcessSend [1, 2] 0 twoThreads 10).2.2 2 = ⟨SIGNO2SET 9, 0, 0, 0, false, 10⟩ ∧
      (OsSigProcessSend [1, 2] 0 twoThreads 10).2.2 1 ≠ twoThreads 1 ∧
      (OsSigProcessSend [1, 2] 0 twoThreads 10).2.2 2 ≠ twoThreads 2 := by
  decide

end send

-- ------------------------------------------------------------ FindFirstSetedBit

/-- From any `n > 0` the loop counts the index of `n`'s highest set bit,
up to the rounds it has: it stops when `n` is down to 1. -/
theorem FindFirstSetedBit.loop_eq : ∀ (fuel n count : Nat), 0 < n →
    FindFirstSetedBit.loop fuel n count = count + min fuel n.log2
  | 0, _, _, _ => by simp [FindFirstSetedBit.loop]
  | fuel + 1, n, count, hn => by
    by_cases h1 : n = 1
    · subst h1
      have hlog : Nat.log2 1 = 0 := rfl
      simp [FindFirstSetedBit.loop, hlog]
    · have hx : n ^^^ 1 ≠ 0 := fun h => h1 (Nat.xor_eq_zero_iff.1 h)
      have hlog : n.log2 = (n / 2).log2 + 1 := by
        rw [Nat.log2_def, if_pos (by omega)]
      rw [FindFirstSetedBit.loop, if_pos hx, Nat.shiftRight_one,
        FindFirstSetedBit.loop_eq fuel (n / 2) (count + 1) (by omega), hlog]
      omega

/-- `FindFirstSetedBit` returns the index of the highest set bit of a
nonzero 64-bit word. -/
theorem FindFirstSetedBit_eq_log2 {n : Nat} (hn : 0 < n) (h64 : n < 2 ^ 64) :
    FindFirstSetedBit n = n.log2 := by
  have hlt : n.log2 < 64 := (Nat.log2_lt (Nat.pos_iff_ne_zero.1 hn)).2 h64
  have hloop : FindFirstSetedBit.loop UINT64_BIT_SIZE n 0 = n.log2 := by
    rw [FindFirstSetedBit.loop_eq _ _ _ hn, UINT64_BIT_SIZE]
    omega
  unfold FindFirstSetedBit
  rw [if_neg (Nat.pos_iff_ne_zero.1 hn)]
  dsimp only
  rw [hloop, if_pos (show n.log2 < UINT64_BIT_SIZE from hlt)]

/-- Taking the pending signals of `set` off leaves exactly the others. -/
theorem pend_clear_testBit (pend set j : Nat) :
    (pend ^^^ (pend &&& set)).testBit j = (pend.testBit j && !set.testBit j) := by
  rw [Nat.testBit_xor, Nat.testBit_and]
  cases pend.testBit j <;> cases set.testBit j <;> rfl

/-- With a signal of `set` pending, `OsSigTimedWaitNoLock` returns the
highest one and takes every signal of `set` off the pending set. -/
theorem OsSigTimedWaitNoLock_pending (sigcb : SigCB) (set : Nat) (hclear : sigcb.sigPendFlag &&& set ≠ 0)
    (h64 : sigcb.sigPendFlag < 2 ^ 64) :
    (OsSigTimedWaitNoLock sigcb set).1 =
        some (((sigcb.sigPendFlag &&& set).log2 : Int) + 1, sigcb.sigunbinfo) ∧
      ∀ j, ((OsSigTimedWaitNoLock sigcb set).2.sigPendFlag).testBit j =
        (sigcb.sigPendFlag.testBit j && !set.testBit j) := by
  have hlt : sigcb.sigPendFlag &&& set < 2 ^ 64 := lt_of_le_of_lt Nat.and_le_left h64
  have hbit := FindFirstSetedBit_eq_log2 (Nat.pos_of_ne_zero hclear) hlt
  refine ⟨?_, fun j => ?_⟩
  · simp [OsSigTimedWaitNoLock, hclear, hbit]
  · simp only [OsSigTimedWaitNoLock, hclear, ne_eq, not_false_eq_true, if_true]
    exact pend_clear_testBit _ _ j

/-- Signals 2 and 3 pending and waited for: `FindFirstSetedBit` of the
set `0b110` is 2, not the index 1 of its lowest bit, so
`OsSigTimedWaitNoLock` returns signal 3, and it takes both signals off
the pending set. -/
theorem sigtimedwait_returns_highest_clears_all :
    FindFirstSetedBit 6 = 2 ∧
      OsSigTimedWaitNoLock ⟨0, 6, 6, 0, false, 0⟩ 6 = (some (3, 0), ⟨0, 0, 6, 0, false, 0⟩) := by
  decide

end LiteOsA.Signal
