/-
Who stays pended on an event, and what a read returns.

# The invariant

`WaitInv`: the pend list lists the tasks pended on the event, each
once, and every one of them waits with a mask and mode that passed
`OsEventParamCheck` and that the word does not satisfy. Reads and
clears only take bits away from the word, and an unsatisfied waiter
stays unsatisfied (`OsEventPoll_zero_and`). A write adds bits, and its
loop wakes every waiter the new word satisfies: an OR-waiter it does
not wake shares no bit with what was written and none with the old
word, and an AND-waiter it does not wake is tested against the whole
new word (`OsEventPoll_zero_or`). `WakeInv` carries that through the
loop, and `event_pended_unsatisfied` is the invariant over every run.

# What a read returns

The value a read returns is that of an `OsEventPoll` of the word in the
step where the read takes effect, in the call or on resuming
(`Step.read_poll`): the bits of the mask the word holds, all of the
mask in AND mode (`OsEventPoll_fst_ne_zero`), and with
`LOS_WAITMODE_CLR` the word loses exactly those bits
(`OsEventPoll_snd_clr`).

# What breaks

The write only wakes; the woken reader polls again when it runs. In
between, another reader with `LOS_WAITMODE_CLR` (or `LOS_EventClear`)
may take the bits, and the reader that waited forever returns `0`
(`event_read_forever_returns_zero`).
-/
import LiteOsA.Ipc.Event
import LiteOsA.Lib.Enumerates
import LiteOsA.Lib.Run

namespace LiteOsA.Event

open EventSys


variable {τ : Type} [DecidableEq τ]

-- ============================================================ the poll

/-- A mode that passes `OsEventParamCheck` has the AND bit exactly when
it lacks the OR bit, and the mask is not empty. -/
theorem OsEventParamCheck_ok {eventMask mode : Nat} (h : OsEventParamCheck eventMask mode = LOS_OK) :
    eventMask ≠ 0 ∧ (mode &&& LOS_WAITMODE_AND ≠ 0 ↔ mode &&& LOS_WAITMODE_OR = 0) := by
  unfold OsEventParamCheck at h
  split_ifs at h with h₀ h₁ h₂
  · exact absurd h (LOS_ERRNO_OS_ERROR_ne_ok _ _)
  · exact absurd h (LOS_ERRNO_OS_ERROR_ne_ok _ _)
  · exact absurd h (LOS_ERRNO_OS_ERROR_ne_ok _ _)
  · refine ⟨h₀, ?_⟩
    -- the mode has one of the two bits, and not both
    have hone : mode &&& LOS_WAITMODE_OR ≠ 0 ∨ mode &&& LOS_WAITMODE_AND ≠ 0 := by
      have h₃ : mode &&& (LOS_WAITMODE_OR ||| LOS_WAITMODE_AND) ≠ 0 := fun h => h₂ (.inr (.inr h))
      rw [Nat.and_or_distrib_left] at h₃
      by_contra hno
      push Not at hno
      exact h₃ (by rw [hno.1, hno.2, Nat.zero_or])
    have hnot : ¬(mode &&& LOS_WAITMODE_OR ≠ 0 ∧ mode &&& LOS_WAITMODE_AND ≠ 0) := fun h => h₂ (.inl h)
    constructor
    · intro hand
      by_contra hor
      exact hnot ⟨hor, hand⟩
    · intro hor
      simpa [hor] using hone

theorem OsEventPoll_fst (eventID eventMask mode : Nat) :
    (OsEventPoll eventID eventMask mode).1 =
      if mode &&& LOS_WAITMODE_OR ≠ 0 then
        if eventID &&& eventMask ≠ 0 then eventID &&& eventMask else 0
      else if eventMask ≠ 0 ∧ eventMask = eventID &&& eventMask then eventID &&& eventMask
      else 0 :=
  rfl

theorem OsEventPoll_snd (eventID eventMask mode : Nat) :
    (OsEventPoll eventID eventMask mode).2 =
      if (OsEventPoll eventID eventMask mode).1 ≠ 0 ∧ mode &&& LOS_WAITMODE_CLR ≠ 0 then
        eventID &&& ((2 ^ 32 - 1) ^^^ (OsEventPoll eventID eventMask mode).1)
      else eventID :=
  rfl

/-- The poll finds nothing exactly when an OR-mask shares no bit with
the word, or an AND-mask is empty or not all in the word. -/
theorem OsEventPoll_fst_eq_zero (eventID eventMask mode : Nat) :
    (OsEventPoll eventID eventMask mode).1 = 0 ↔
      if mode &&& LOS_WAITMODE_OR ≠ 0 then eventID &&& eventMask = 0
      else ¬(eventMask ≠ 0 ∧ eventMask = eventID &&& eventMask) := by
  rw [OsEventPoll_fst]
  by_cases hor : mode &&& LOS_WAITMODE_OR ≠ 0
  · rw [if_pos hor, if_pos hor]
    by_cases h : eventID &&& eventMask ≠ 0
    · rw [if_pos h]
    · rw [if_neg h]
      exact iff_of_true rfl (not_not.1 h)
  · rw [if_neg hor, if_neg hor]
    by_cases h : eventMask ≠ 0 ∧ eventMask = eventID &&& eventMask
    · -- the AND test passed: what it returns is the whole mask
      rw [if_pos h]
      exact iff_of_false (fun h₀ => h.1 (h.2.trans h₀)) (not_not.2 h)
    · rw [if_neg h]
      exact iff_of_true rfl h

/-- A poll that finds something returns the bits of the mask the word
holds; without the OR bit that is the whole mask. -/
theorem OsEventPoll_fst_ne_zero {eventID eventMask mode : Nat}
    (h : (OsEventPoll eventID eventMask mode).1 ≠ 0) :
    (OsEventPoll eventID eventMask mode).1 = eventID &&& eventMask ∧
      (mode &&& LOS_WAITMODE_OR = 0 → (OsEventPoll eventID eventMask mode).1 = eventMask) := by
  rw [OsEventPoll_fst] at h ⊢
  by_cases hor : mode &&& LOS_WAITMODE_OR ≠ 0
  · rw [if_pos hor] at h ⊢
    by_cases hhit : eventID &&& eventMask ≠ 0
    · rw [if_pos hhit]
      exact ⟨rfl, fun h₀ => absurd h₀ hor⟩
    · rw [if_neg hhit] at h
      exact absurd rfl h
  · rw [if_neg hor] at h ⊢
    by_cases hand : eventMask ≠ 0 ∧ eventMask = eventID &&& eventMask
    · rw [if_pos hand]
      exact ⟨rfl, fun _ => hand.2.symm⟩
    · rw [if_neg hand] at h
      exact absurd rfl h

/-- A poll that finds nothing leaves the word. -/
theorem OsEventPoll_snd_of_zero {eventID eventMask mode : Nat}
    (h : (OsEventPoll eventID eventMask mode).1 = 0) : (OsEventPoll eventID eventMask mode).2 = eventID := by
  rw [OsEventPoll_snd, if_neg fun hc => hc.1 h]

/-- The word a poll leaves keeps some of the bits it had and gains none. -/
theorem OsEventPoll_snd_and (eventID eventMask mode : Nat) :
    ∃ x, (OsEventPoll eventID eventMask mode).2 = eventID &&& x := by
  rw [OsEventPoll_snd]
  split_ifs
  · exact ⟨_, rfl⟩
  · exact ⟨eventID, (Nat.and_self eventID).symm⟩

/-- With `LOS_WAITMODE_CLR`, a poll that finds something clears exactly
the bits it returns from a `UINT32` word. -/
theorem OsEventPoll_snd_clr {eventID eventMask mode : Nat} (hid : eventID < 2 ^ 32)
    (h : (OsEventPoll eventID eventMask mode).1 ≠ 0) (hclr : mode &&& LOS_WAITMODE_CLR ≠ 0) (i : Nat) :
    (OsEventPoll eventID eventMask mode).2.testBit i =
      (eventID.testBit i && !(OsEventPoll eventID eventMask mode).1.testBit i) := by
  rw [OsEventPoll_snd, if_pos ⟨h, hclr⟩, Nat.testBit_and, Nat.testBit_xor]
  by_cases hi : i < 32
  · -- a bit of the 32: the complement of what was returned
    rw [Nat.testBit_two_pow_sub_one, decide_eq_true hi, Bool.true_xor]
  · -- above them the word has no bit
    have hle : 2 ^ 32 ≤ 2 ^ i := Nat.pow_le_pow_right (by decide) (by omega)
    rw [Nat.testBit_eq_false_of_lt (by omega), Bool.false_and, Bool.false_and]

/-- A word that only loses bits satisfies no waiter it did not. -/
theorem OsEventPoll_zero_and {eventID eventMask mode : Nat} (h : (OsEventPoll eventID eventMask mode).1 = 0)
    (x : Nat) : (OsEventPoll (eventID &&& x) eventMask mode).1 = 0 := by
  rw [OsEventPoll_fst_eq_zero] at h ⊢
  split_ifs at h ⊢
  · rw [Nat.and_comm eventID x, Nat.and_assoc, h, Nat.and_zero]
  · rintro ⟨hm, hsub⟩
    apply h
    refine ⟨hm, ?_⟩
    -- all of the mask in `eventID &&& x` is all of it in `eventID`
    calc eventMask = (eventID &&& x) &&& eventMask := hsub
      _ = (eventID &&& eventID &&& x) &&& eventMask := by rw [Nat.and_self]
      _ = eventID &&& ((eventID &&& x) &&& eventMask) := by rw [Nat.and_assoc, Nat.and_assoc, Nat.and_assoc]
      _ = eventID &&& eventMask := by rw [← hsub]

/-- A waiter that passed the parameter check, that the word did not
satisfy and that the write's test does not wake, is not satisfied by
the word the write made. -/
theorem OsEventPoll_zero_or {eventID eventMask mode events : Nat}
    (hok : OsEventParamCheck eventMask mode = LOS_OK) (h : (OsEventPoll eventID eventMask mode).1 = 0)
    (hwake : ¬OsEventResumeTest eventMask mode events (eventID ||| events)) :
    (OsEventPoll (eventID ||| events) eventMask mode).1 = 0 := by
  have hmode := (OsEventParamCheck_ok hok).2
  unfold OsEventResumeTest at hwake
  push Not at hwake
  rw [OsEventPoll_fst_eq_zero] at h ⊢
  by_cases hor : mode &&& LOS_WAITMODE_OR ≠ 0
  · -- OR: the old word and the bits written both miss the mask
    rw [if_pos hor] at h ⊢
    have hev : eventMask &&& events = 0 := hwake.1 hor
    rw [Nat.and_or_distrib_right, h, Nat.and_comm, hev, Nat.zero_or]
  · -- AND: the test looked at the whole new word
    rw [if_neg hor] at h ⊢
    have hand : mode &&& LOS_WAITMODE_AND ≠ 0 := hmode.2 (not_not.1 hor)
    have hne := hwake.2 hand
    rintro ⟨-, hsub⟩
    rw [Nat.and_comm] at hsub
    exact hne hsub.symm

-- ============================================================ the calls

omit [DecidableEq τ] in
/-- A read that passes its checks passed the parameter check. -/
theorem OsEventReadCheck_ok {s : EventSys τ} {t : τ} {eventMask mode : Nat}
    (h : OsEventReadCheck s t eventMask mode = LOS_OK) : OsEventParamCheck eventMask mode = LOS_OK := by
  by_contra hp
  unfold OsEventReadCheck at h
  dsimp only at h
  rw [if_pos hp] at h
  exact hp h

/-- What `LOS_EventRead` can do: refuse, return what it polled (also
`0`, when the timeout is `0`), or pend its caller with the word as it
found it. -/
theorem LOS_EventRead_cases (s : EventSys τ) (t : τ) (eventMask mode timeout : Nat) :
    (OsEventReadCheck s t eventMask mode ≠ LOS_OK ∧
        LOS_EventRead s t eventMask mode timeout = (some (OsEventReadCheck s t eventMask mode), s)) ∨
      (OsEventReadCheck s t eventMask mode = LOS_OK ∧
        LOS_EventRead s t eventMask mode timeout =
          (some (OsEventPoll s.uwEventID eventMask mode).1,
            { s with uwEventID := (OsEventPoll s.uwEventID eventMask mode).2 })) ∨
      (OsEventReadCheck s t eventMask mode = LOS_OK ∧ (OsEventPoll s.uwEventID eventMask mode).1 = 0 ∧
        LOS_EventRead s t eventMask mode timeout = (none, OsSchedTaskWait s t eventMask mode timeout)) := by
  unfold LOS_EventRead
  by_cases hchk : OsEventReadCheck s t eventMask mode ≠ LOS_OK
  · exact .inl ⟨hchk, by rw [if_pos hchk]⟩
  rw [if_neg hchk]
  have hchk' := not_not.1 hchk
  by_cases hret : (OsEventPoll s.uwEventID eventMask mode).1 = 0
  · by_cases hto : timeout = 0
    · refine .inr (.inl ⟨hchk', ?_⟩)
      simp [hret, hto]
    · -- the caller pends; the poll left the word as it was
      refine .inr (.inr ⟨hchk', hret, ?_⟩)
      have hsnd := OsEventPoll_snd_of_zero hret
      simp only [hret, if_true, hto, if_false, hsnd]
  · refine .inr (.inl ⟨hchk', ?_⟩)
    simp [hret]

/-- What `OsEventResume` can do: leave a task it does not wake, or wake
a pended task whose test passes. -/
theorem OsEventResume_cases (s : EventSys τ) (t : τ) (events : Nat) :
    ((OsEventResume s t events).2 = s ∧
        ∀ m md b, (s.tasks t).state = .pended m md b → ¬OsEventResumeTest m md events s.uwEventID) ∨
      ∃ m md b, (s.tasks t).state = .pended m md b ∧ OsEventResumeTest m md events s.uwEventID ∧
        (OsEventResume s t events).2 = OsSchedTaskWake s t m md := by
  unfold OsEventResume
  split
  · rename_i m md b hst
    by_cases htest : OsEventResumeTest m md events s.uwEventID
    · exact .inr ⟨m, md, b, hst, htest, by rw [if_pos htest]⟩
    · refine .inl ⟨by rw [if_neg htest], fun m' md' b' hst' => ?_⟩
      rw [hst] at hst'
      cases hst'
      exact htest
  · rename_i hnot
    refine .inl ⟨rfl, fun m md b hst => absurd hst (hnot m md b)⟩

/-- A woken task's resume: a timeout, or a second poll of the word. -/
theorem OsEventReadResume_eq (s : EventSys τ) (t : τ) (eventMask mode : Nat) (timedOut : Bool) :
    OsEventReadResume s t eventMask mode timedOut =
      if timedOut then (LOS_ERRNO_EVENT_READ_TIMEOUT, s.modifyTask t fun task => { task with state := .ready })
      else ((OsEventPoll s.uwEventID eventMask mode).1,
        { s.modifyTask t (fun task => { task with state := .ready }) with
          uwEventID := (OsEventPoll s.uwEventID eventMask mode).2 }) := by
  unfold OsEventReadResume
  cases timedOut <;> rfl

-- ====================================================== what a read returns

/-- A read that returns at once either was refused, with the error code
of its checks, or returns what an `OsEventPoll` of the word returns and
leaves the word that poll leaves. -/
theorem Step.read_some {s s' : EventSys τ} {t : τ} {m md timeout r : Nat}
    (h : Step s (.read t m md timeout (some r)) s') :
    (OsEventReadCheck s t m md ≠ LOS_OK ∧ r = OsEventReadCheck s t m md) ∨
      (r = (OsEventPoll s.uwEventID m md).1 ∧ s'.uwEventID = (OsEventPoll s.uwEventID m md).2) := by
  generalize he : Call.read t m md timeout (some r) = e at h
  cases h with
  | read =>
    simp only [Call.read.injEq] at he
    obtain ⟨rfl, rfl, rfl, rfl, hr⟩ := he
    rcases LOS_EventRead_cases s t m md timeout with ⟨hchk, heq⟩ | ⟨-, heq⟩ | ⟨-, -, heq⟩
    · rw [heq] at hr
      exact .inl ⟨hchk, Option.some.inj hr⟩
    · rw [heq] at hr ⊢
      exact .inr ⟨Option.some.inj hr, rfl⟩
    · rw [heq] at hr
      cases hr
  | _ => cases he

/-- A read that waited and was woken by a write returns, when it runs
again, what an `OsEventPoll` of the word then returns, and leaves the
word that poll leaves. -/
theorem Step.resume_poll {s s' : EventSys τ} {t : τ} {m md r : Nat} (h : Step s (.resume t r) s')
    (hw : (s.tasks t).state = .woken m md false) :
    r = (OsEventPoll s.uwEventID m md).1 ∧ s'.uwEventID = (OsEventPoll s.uwEventID m md).2 := by
  generalize he : Call.resume t r = e at h
  cases h with
  | resume hst =>
    simp only [Call.resume.injEq] at he
    obtain ⟨rfl, hr⟩ := he
    rw [hw] at hst
    cases hst
    rw [OsEventReadResume_eq] at hr ⊢
    exact ⟨hr, rfl⟩
  | _ => cases he

-- ========================================================= the invariant

/-- Task `t` is pended on the event. -/
def Pended (s : EventSys τ) (t : τ) : Prop :=
  ∃ m md b, (s.tasks t).state = .pended m md b

/-- The pend list lists the pended tasks, each once, and each waits with
a mask and mode that passed `OsEventParamCheck` and that the word does
not satisfy. -/
structure WaitInv (s : EventSys τ) : Prop where
  waiters : Enumerates s.stEventList (Pended s)
  unsatisfied : ∀ t m md b, (s.tasks t).state = .pended m md b →
    OsEventParamCheck m md = LOS_OK ∧ (OsEventPoll s.uwEventID m md).1 = 0

theorem pended_modifyTask {s : EventSys τ} (t : τ) (f : TaskCB → TaskCB) (x : τ) :
    Pended (s.modifyTask t f) x ↔
      if x = t then ∃ m md b, (f (s.tasks t)).state = .pended m md b else Pended s x := by
  unfold Pended
  by_cases hx : x = t <;> simp [hx]

/-- A task leaves the list and its state becomes one that is not
pended: the list still lists the pended tasks. -/
theorem waiters_leave {s : EventSys τ} (hw : Enumerates s.stEventList (Pended s)) (t : τ)
    (f : TaskCB → TaskCB) (hf : ∀ m md b, (f (s.tasks t)).state ≠ .pended m md b) :
    Enumerates (({ s with stEventList := s.stEventList.erase t } : EventSys τ).modifyTask t f).stEventList
      (Pended (({ s with stEventList := s.stEventList.erase t } : EventSys τ).modifyTask t f)) := by
  apply hw.erase
  intro x
  rw [pended_modifyTask]
  by_cases hx : x = t
  · subst hx
    simp only [if_true, ne_eq, not_true_eq_false, and_false, iff_false]
    rintro ⟨m, md, b, hp⟩
    exact hf m md b hp
  · simp only [hx, if_false, ne_eq, not_false_eq_true, and_true]
    rfl

omit [DecidableEq τ] in
/-- Reads and clears only take bits from the word. -/
theorem WaitInv.shrink {s : EventSys τ} (h : WaitInv s) (x : Nat) :
    WaitInv { s with uwEventID := s.uwEventID &&& x } := by
  refine ⟨h.waiters, fun t m md b hp => ?_⟩
  obtain ⟨hok, hzero⟩ := h.unsatisfied t m md b hp
  exact ⟨hok, OsEventPoll_zero_and hzero x⟩

/-- A task that is not pended changes to a state that is not pended. -/
theorem WaitInv.setTask {s : EventSys τ} (h : WaitInv s) {t : τ} (ht : ¬Pended s t) (f : TaskCB → TaskCB)
    (hf : ∀ m md b, (f (s.tasks t)).state ≠ .pended m md b) : WaitInv (s.modifyTask t f) := by
  have hiff : ∀ x, Pended (s.modifyTask t f) x ↔ Pended s x := by
    intro x
    rw [pended_modifyTask]
    by_cases hx : x = t
    · subst hx
      simp only [if_true]
      constructor
      · rintro ⟨m, md, b, hp⟩
        exact absurd hp (hf m md b)
      · intro hp
        exact absurd hp ht
    · simp [hx]
  refine ⟨h.waiters.congr hiff, fun x m md b hp => ?_⟩
  by_cases hx : x = t
  · subst hx
    simp only [modifyTask_tasks, if_true] at hp
    exact absurd hp (hf m md b)
  · simp only [modifyTask_tasks, hx, if_false] at hp
    exact h.unsatisfied x m md b hp

/-- A waiter leaves the list, woken by its timeout. -/
theorem WaitInv.timeout {s : EventSys τ} (h : WaitInv s) (t : τ) (m md : Nat) :
    WaitInv (OsEventPendTimeout s t m md) := by
  refine ⟨waiters_leave h.waiters t (fun task => { task with state := .woken m md true })
    (fun _ _ _ => by simp), fun x m' md' b hp => ?_⟩
  by_cases hx : x = t
  · subst hx
    simp [OsEventPendTimeout] at hp
  · simp only [OsEventPendTimeout, modifyTask_tasks, hx, if_false] at hp
    exact h.unsatisfied x m' md' b hp

/-- A ready caller that finds nothing pends at the tail. -/
theorem WaitInv.wait {s : EventSys τ} (h : WaitInv s) {t : τ} {m md : Nat} (timeout : Nat)
    (hready : (s.tasks t).state = .ready) (hok : OsEventParamCheck m md = LOS_OK)
    (hzero : (OsEventPoll s.uwEventID m md).1 = 0) : WaitInv (OsSchedTaskWait s t m md timeout) := by
  have hnot : ¬Pended s t := by
    rintro ⟨m', md', b, hp⟩
    rw [hready] at hp
    cases hp
  constructor
  · apply h.waiters.concat hnot
    intro x
    rw [OsSchedTaskWait, pended_modifyTask]
    by_cases hx : x = t
    · simp only [hx, if_true, or_true, iff_true]
      exact ⟨m, md, _, rfl⟩
    · simp only [hx, if_false, or_false]
      rfl
  · intro x m' md' b hp
    by_cases hx : x = t
    · subst hx
      simp only [OsSchedTaskWait, modifyTask_tasks, if_true, TaskState.pended.injEq] at hp
      obtain ⟨rfl, rfl, -⟩ := hp
      exact ⟨hok, hzero⟩
    · simp only [OsSchedTaskWait, modifyTask_tasks, hx, if_false] at hp
      exact h.unsatisfied x m' md' b hp

/-- `LOS_EventRead` by a ready task keeps the invariant. -/
theorem WaitInv.read {s : EventSys τ} (h : WaitInv s) {t : τ} (m md timeout : Nat)
    (hready : (s.tasks t).state = .ready) : WaitInv (LOS_EventRead s t m md timeout).2 := by
  rcases LOS_EventRead_cases s t m md timeout with ⟨-, heq⟩ | ⟨-, heq⟩ | ⟨hchk, hzero, heq⟩
  · rw [heq]
    exact h
  · rw [heq]
    obtain ⟨x, hx⟩ := OsEventPoll_snd_and s.uwEventID m md
    rw [hx]
    exact h.shrink x
  · rw [heq]
    exact h.wait timeout hready (OsEventReadCheck_ok hchk) hzero

/-- A woken task finishing its read keeps the invariant. -/
theorem WaitInv.resume {s : EventSys τ} (h : WaitInv s) {t : τ} {m md : Nat} {timedOut : Bool}
    (hw : (s.tasks t).state = .woken m md timedOut) : WaitInv (OsEventReadResume s t m md timedOut).2 := by
  have hnot : ¬Pended s t := by
    rintro ⟨m', md', b, hp⟩
    rw [hw] at hp
    cases hp
  have hready := h.setTask hnot (fun task => { task with state := .ready }) fun _ _ _ => by simp
  rw [OsEventReadResume_eq]
  cases timedOut with
  | true => exact hready
  | false =>
    obtain ⟨x, hx⟩ := OsEventPoll_snd_and s.uwEventID m md
    simp only [Bool.false_eq_true, if_false, hx]
    exact hready.shrink x

-- ============================================================ the write

/-- Part way through the wake loop of a write of `events` onto the word
`eventID`, with `rest` still to visit: the list lists the pended tasks,
each passed the parameter check and was unsatisfied by `eventID`, and
one the loop has passed is unsatisfied by the new word. -/
structure WakeInv (eventID events : Nat) (rest : List τ) (s : EventSys τ) : Prop where
  waiters : Enumerates s.stEventList (Pended s)
  word : s.uwEventID = eventID ||| events
  pended : ∀ t m md b, (s.tasks t).state = .pended m md b →
    OsEventParamCheck m md = LOS_OK ∧ (OsEventPoll eventID m md).1 = 0 ∧
      (t ∉ rest → (OsEventPoll s.uwEventID m md).1 = 0)

/-- One round of the loop: `OsEventResume` of the next task. -/
theorem WakeInv.resume {eventID events : Nat} {t : τ} {rest : List τ} {s : EventSys τ}
    (h : WakeInv eventID events (t :: rest) s) : WakeInv eventID events rest (OsEventResume s t events).2 := by
  rcases OsEventResume_cases s t events with ⟨heq, hno⟩ | ⟨m, md, b, hp, -, heq⟩
  · -- not woken: the test failed, so the new word does not satisfy it
    rw [heq]
    refine ⟨h.waiters, h.word, fun x m' md' b' hx => ?_⟩
    obtain ⟨hok, hzero, hpast⟩ := h.pended x m' md' b' hx
    refine ⟨hok, hzero, fun hrest => ?_⟩
    by_cases hxt : x = t
    · subst hxt
      rw [h.word]
      exact OsEventPoll_zero_or hok hzero (h.word ▸ hno m' md' b' hx)
    · exact hpast (by simp [hxt, hrest])
  · -- woken: it leaves the list, and the others keep their states
    rw [heq]
    refine ⟨waiters_leave h.waiters t (fun task => { task with state := .woken m md false })
      (fun _ _ _ => by simp), h.word, fun x m' md' b' hx => ?_⟩
    have hxt : x ≠ t := by
      rintro rfl
      simp [OsSchedTaskWake] at hx
    simp only [OsSchedTaskWake, modifyTask_tasks, hxt, if_false] at hx
    obtain ⟨hok, hzero, hpast⟩ := h.pended x m' md' b' hx
    exact ⟨hok, hzero, fun hrest => hpast (by simp [hxt, hrest])⟩

/-- The whole loop. -/
theorem WakeInv.foldl {eventID events : Nat} :
    ∀ (rest : List τ) (s : EventSys τ), WakeInv eventID events rest s →
      WakeInv eventID events [] (rest.foldl (fun s t => (OsEventResume s t events).2) s)
  | [], _, h => h
  | _ :: rest, _, h => WakeInv.foldl rest _ h.resume

/-- `OsEventWriteUnsafe` keeps the invariant: every waiter the new word
satisfies is woken. -/
theorem WaitInv.write {s : EventSys τ} (h : WaitInv s) (events : Nat) :
    WaitInv (OsEventWriteUnsafe s events) := by
  -- before the loop no task has been passed, and every pended task is on the list
  have h₀ : WakeInv s.uwEventID events s.stEventList { s with uwEventID := s.uwEventID ||| events } := by
    refine ⟨h.waiters, rfl, fun t m md b hp => ?_⟩
    obtain ⟨hok, hzero⟩ := h.unsatisfied t m md b hp
    refine ⟨hok, hzero, fun hnot => absurd ((h.waiters.mem_iff t).2 ⟨m, md, b, hp⟩) hnot⟩
  have h₁ := WakeInv.foldl _ _ h₀
  refine ⟨h₁.waiters, fun t m md b hp => ?_⟩
  obtain ⟨hok, -, hnew⟩ := h₁.pended t m md b hp
  exact ⟨hok, hnew List.not_mem_nil⟩

/-- Every step keeps the invariant. -/
theorem WaitInv.step {s s' : EventSys τ} {e : Call τ} (h : WaitInv s) (hs : Step s e s') : WaitInv s' := by
  cases hs with
  | read m md timeout hready => exact h.read m md timeout hready
  | write events =>
    unfold LOS_EventWrite
    split_ifs
    · exact h
    · exact h.write events
  | clear events => exact h.shrink events
  | timeout _ => exact h.timeout _ _ _
  | resume hw => exact h.resume hw

omit [DecidableEq τ] in
theorem WaitInv.init {s : EventSys τ} (h : Init s) : WaitInv s := by
  obtain ⟨-, hlist, hready⟩ := h
  have hnone : ∀ t, ¬Pended s t := by
    rintro t ⟨m, md, b, hp⟩
    rw [hready t] at hp
    cases hp
  refine ⟨hlist ▸ Enumerates.nil hnone, fun t m md b hp => absurd ⟨m, md, b, hp⟩ (hnone t)⟩

theorem reachable_waitInv {s : EventSys τ} (hs : Reachable s) : WaitInv s :=
  Reach.inv WaitInv (fun _ h => WaitInv.init h) (fun _ _ h ⟨_, hn⟩ => h.step hn) hs

/-- The control block as `LOS_EventInit` leaves it, over tasks numbered
by `Nat`. -/
def eventInit : EventSys Nat :=
  ⟨0, [], fun _ => ⟨false, .ready⟩⟩

/-- In every state of every run, the pend list holds exactly the tasks
pended on the event, each once, and none of them waits with a mask and
mode that the word satisfies. -/
theorem event_pended_unsatisfied {s : EventSys τ} (hs : Reachable s) :
    s.stEventList.Nodup ∧
      ∀ t, t ∈ s.stEventList ↔ ∃ m md b, (s.tasks t).state = .pended m md b ∧
        (OsEventPoll s.uwEventID m md).1 = 0 := by
  have h := reachable_waitInv hs
  refine ⟨h.waiters.nodup, fun t => ?_⟩
  rw [h.waiters.mem_iff]
  constructor
  · rintro ⟨m, md, b, hp⟩
    exact ⟨m, md, b, hp, (h.unsatisfied t m md b hp).2⟩
  · rintro ⟨m, md, b, hp, -⟩
    exact ⟨m, md, b, hp⟩

/-- Task `1` reads bit `0` in AND mode from an empty word and pends: the
list holds it alone, unsatisfied. -/
theorem event_pended_unsatisfied_one_waiter :
    let s := (LOS_EventRead eventInit 1 1 LOS_WAITMODE_AND LOS_WAIT_FOREVER).2
    Reachable s ∧ s.stEventList.Nodup ∧
      ∀ t, t ∈ s.stEventList ↔ ∃ m md b, (s.tasks t).state = .pended m md b ∧
        (OsEventPoll s.uwEventID m md).1 = 0 := by
  intro s
  have hs : Reachable s :=
    .step (.init ⟨rfl, rfl, fun _ => rfl⟩) ⟨_, Step.read 1 LOS_WAITMODE_AND LOS_WAIT_FOREVER (t := 1) rfl⟩
  exact ⟨hs, event_pended_unsatisfied hs⟩

-- ======================================================== what breaks

/-- Tasks `1` and `2` both read bit `0` in OR mode with
`LOS_WAITMODE_CLR` and wait forever; a write of that bit wakes both.
Task `1` runs first and its poll clears the bit; task `2` then polls an
empty word, and its `LOS_EventRead` returns `0` after waiting forever. -/
theorem event_read_forever_returns_zero :
    Init eventInit ∧ ∃ s, Run Step eventInit
      [.read 1 1 (LOS_WAITMODE_OR ||| LOS_WAITMODE_CLR) LOS_WAIT_FOREVER none,
       .read 2 1 (LOS_WAITMODE_OR ||| LOS_WAITMODE_CLR) LOS_WAIT_FOREVER none,
       .write 1 LOS_OK,
       .resume 1 1,
       .resume 2 0] s := by
  have r₁ := (@Run.nil _ _ Step eventInit).snoc
    (Step.read 1 (LOS_WAITMODE_OR ||| LOS_WAITMODE_CLR) LOS_WAIT_FOREVER (t := 1) rfl)
  have r₂ := r₁.snoc (Step.read 1 (LOS_WAITMODE_OR ||| LOS_WAITMODE_CLR) LOS_WAIT_FOREVER (t := 2) rfl)
  have r₃ := r₂.snoc (Step.write 1)
  have r₄ := r₃.snoc (Step.resume (t := 1) rfl)
  have r₅ := r₄.snoc (Step.resume (t := 2) rfl)
  exact ⟨⟨rfl, rfl, fun _ => rfl⟩, _, r₅⟩

end LiteOsA.Event
