/-
The semaphore's count and its waiters, over every run.

# The invariant

`SemOk`: for every semaphore, `semList` lists the tasks pended on it,
each once; a positive count has nobody waiting (a pend takes a token
when there is one, and a post hands its token to a waiter when there
is one); and the count stays at most `OS_SEM_COUNT_MAX`, the bound
`OsSemPostUnsafe` checks. One lemma per edit of the state carries it
(`SemOk.take`, `SemOk.wait`, `SemOk.leave`, `SemOk.give`,
`SemOk.setReady`), and `SemOk.step` puts them together per event.

# The token count

A post that wakes a waiter hands it its token, and the waiter returns
from `LOS_SemPend` with `LOS_OK` only when the scheduler runs it again.
Between the two the token is with the task (`handed`). Tokens are then
conserved (`tokens_step`, and over a run `sem_tokens`): the initial
count plus the posts that returned `LOS_OK` is the count now, plus the
tokens handed and not yet taken, plus the pends that returned `LOS_OK`.

# What breaks

`maxSemCount` is not what `OsSemPostUnsafe` checks: a binary semaphore
posted while its one token is free counts two (`sem_binary_post_overflow`).
-/
import LiteOsA.Ipc.Sem
import LiteOsA.Lib.Enumerates
import LiteOsA.Lib.Run

namespace LiteOsA.Sem

open SemSys


variable {τ σ : Type} [DecidableEq τ] [DecidableEq σ]

-- ========================================================= the invariant

/-- Task `t` is pended on semaphore `i`. -/
def Waiting (s : SemSys τ σ) (i : σ) (t : τ) : Prop :=
  ∃ b, (s.tasks t).state = .pended i b

/-- For every semaphore: its pend list lists its waiters, a positive
count has none, and the count is at most `OS_SEM_COUNT_MAX`. -/
structure SemOk (s : SemSys τ σ) : Prop where
  waiters : ∀ i, Enumerates (s.sems i).semList (Waiting s i)
  idle : ∀ i, 0 < (s.sems i).semCount → (s.sems i).semList = []
  count_le : ∀ i, (s.sems i).semCount ≤ OS_SEM_COUNT_MAX

section edits

variable {s : SemSys τ σ}

omit [DecidableEq τ] in
@[simp]
theorem waiting_modifySem (j : σ) (f : LosSemCB τ → LosSemCB τ) :
    Waiting (s.modifySem j f) = Waiting s :=
  rfl

omit [DecidableEq σ] in
theorem waiting_modifyTask (t : τ) (f : TaskCB σ → TaskCB σ) (i : σ) (x : τ) :
    Waiting (s.modifyTask t f) i x ↔
      if x = t then ∃ b, (f (s.tasks t)).state = .pended i b else Waiting s i x := by
  unfold Waiting
  by_cases hx : x = t <;> simp [hx]

omit [DecidableEq τ] [DecidableEq σ] in
theorem not_waiting_of_ne {t : τ} {i j : σ} {b : Bool} (hw : (s.tasks t).state = .pended j b)
    (hij : i ≠ j) : ¬ Waiting s i t := by
  intro ⟨b', hb'⟩
  rw [hw] at hb'
  cases hb'
  exact hij rfl

omit [DecidableEq τ] in
/-- A pend that finds a token takes it. -/
theorem SemOk.take (h : SemOk s) (i : σ) :
    SemOk (s.modifySem i fun sem => { sem with semCount := sem.semCount - 1 }) := by
  constructor
  · intro j
    by_cases hj : j = i
    · subst hj
      simpa using h.waiters j
    · simpa [hj] using h.waiters j
  · intro j hpos
    by_cases hj : j = i
    · subst hj
      simp only [modifySem_sems, if_true] at hpos ⊢
      exact h.idle j (by omega)
    · simp only [modifySem_sems, hj, if_false] at hpos ⊢
      exact h.idle j hpos
  · intro j
    have hle := h.count_le j
    by_cases hj : j = i
    · subst hj
      simp only [modifySem_sems, if_true]
      omega
    · simpa [hj] using hle

/-- A ready caller that finds no token pends at the tail. -/
theorem SemOk.wait (h : SemOk s) {t : τ} {i : σ} (timeout : Nat)
    (hready : (s.tasks t).state = .ready) (hzero : (s.sems i).semCount = 0) :
    SemOk (OsSchedTaskWait s t i timeout) := by
  have hnot : ∀ j, ¬ Waiting s j t := by
    intro j ⟨b, hb⟩
    rw [hready] at hb
    cases hb
  constructor
  · intro j
    by_cases hj : j = i
    · subst hj
      simp only [OsSchedTaskWait, modifyTask_sems, modifySem_sems, if_true]
      apply (h.waiters j).concat (hnot j)
      intro x
      rw [waiting_modifyTask]
      by_cases hx : x = t
      · simp only [hx, if_true, or_true, iff_true]
        exact ⟨_, rfl⟩
      · simp [hx]
    · simp only [OsSchedTaskWait, modifyTask_sems, modifySem_sems, hj, if_false]
      apply (h.waiters j).congr
      intro x
      rw [waiting_modifyTask]
      by_cases hx : x = t
      · subst hx
        simp [Ne.symm hj, hnot j]
      · simp [hx]
  · intro j hpos
    by_cases hj : j = i
    · subst hj
      simp [OsSchedTaskWait, hzero] at hpos
    · simp only [OsSchedTaskWait, modifyTask_sems, modifySem_sems, hj, if_false] at hpos ⊢
      exact h.idle j hpos
  · intro j
    by_cases hj : j = i
    · subst hj
      simpa [OsSchedTaskWait] using h.count_le j
    · simpa [OsSchedTaskWait, hj] using h.count_le j

/-- A waiter leaves the pend list, woken: by its timeout
(`OsSemPendTimeout`) or by a post (`OsSchedTaskWake`). -/
theorem SemOk.leave (h : SemOk s) {t : τ} {i : σ} {b : Bool} (hw : (s.tasks t).state = .pended i b)
    (timedOut : Bool) :
    SemOk ((s.modifySem i fun sem => { sem with semList := sem.semList.erase t }).modifyTask t
      fun task => { task with state := .woken i timedOut }) := by
  constructor
  · intro j
    by_cases hj : j = i
    · subst hj
      simp only [modifyTask_sems, modifySem_sems, if_true]
      apply (h.waiters j).erase
      intro x
      rw [waiting_modifyTask]
      by_cases hx : x = t
      · simp [hx]
      · simp [hx]
    · simp only [modifyTask_sems, modifySem_sems, hj, if_false]
      apply (h.waiters j).congr
      intro x
      rw [waiting_modifyTask]
      by_cases hx : x = t
      · subst hx
        simp [not_waiting_of_ne hw hj]
      · simp [hx]
  · intro j hpos
    by_cases hj : j = i
    · subst hj
      simp only [modifyTask_sems, modifySem_sems, if_true] at hpos ⊢
      rw [h.idle j hpos, List.erase_nil]
    · simp only [modifyTask_sems, modifySem_sems, hj, if_false] at hpos ⊢
      exact h.idle j hpos
  · intro j
    by_cases hj : j = i
    · subst hj
      simpa using h.count_le j
    · simpa [hj] using h.count_le j

omit [DecidableEq τ] in
/-- A post that finds nobody waiting adds a token. -/
theorem SemOk.give (h : SemOk s) {i : σ} (hlist : (s.sems i).semList = [])
    (hne : (s.sems i).semCount ≠ OS_SEM_COUNT_MAX) :
    SemOk (s.modifySem i fun sem => { sem with semCount := (sem.semCount + 1) % 2 ^ 16 }) := by
  have hle := h.count_le i
  -- below `OS_SEM_COUNT_MAX` the `UINT16` increment does not wrap
  have hinc : ((s.sems i).semCount + 1) % 2 ^ 16 = (s.sems i).semCount + 1 := by
    unfold OS_SEM_COUNT_MAX at hle hne
    omega
  constructor
  · intro j
    by_cases hj : j = i
    · subst hj
      simpa using h.waiters j
    · simpa [hj] using h.waiters j
  · intro j hpos
    by_cases hj : j = i
    · subst hj
      simpa using hlist
    · simp only [modifySem_sems, hj, if_false] at hpos ⊢
      exact h.idle j hpos
  · intro j
    by_cases hj : j = i
    · subst hj
      simp only [modifySem_sems, if_true, hinc]
      unfold OS_SEM_COUNT_MAX at hle hne ⊢
      omega
    · simpa [hj] using h.count_le j

omit [DecidableEq σ] in
/-- A woken task returns from `LOS_SemPend`. -/
theorem SemOk.setReady (h : SemOk s) {t : τ} {i : σ} {b : Bool}
    (hw : (s.tasks t).state = .woken i b) :
    SemOk (s.modifyTask t fun task => { task with state := .ready }) := by
  have hsame : ∀ j, Waiting (s.modifyTask t fun task => { task with state := .ready }) j =
      Waiting s j := by
    intro j
    funext x
    apply propext
    rw [waiting_modifyTask]
    by_cases hx : x = t
    · subst hx
      simp [Waiting, hw]
    · simp [hx]
  refine ⟨fun j => ?_, h.idle, h.count_le⟩
  rw [hsame j]
  exact h.waiters j

end edits

-- ============================================================= the calls

section calls

variable {s : SemSys τ σ}

theorem SemOk.LOS_SemPend (h : SemOk s) {t : τ} (i : σ) (timeout : Nat)
    (hready : (s.tasks t).state = .ready) : SemOk (LOS_SemPend s t i timeout).2 := by
  unfold Sem.LOS_SemPend
  split_ifs with hsys hpos htimeout
  · exact h
  · exact h.take i
  · exact h
  · exact h.wait timeout hready (by omega)

theorem SemOk.OsSemPostUnsafe (h : SemOk s) (i : σ) : SemOk (OsSemPostUnsafe s i).2 := by
  simp only [Sem.OsSemPostUnsafe]
  split_ifs with hmax
  · exact h
  · split
    · next resumed rest hlist =>
      have hw := h.waiters i
      rw [hlist] at hw
      obtain ⟨b, hb⟩ := hw.of_cons
      exact h.leave hb false
    · next hlist => exact h.give hlist hmax

theorem SemOk.step {e : Event τ σ} {s' : SemSys τ σ} (h : SemOk s) (hs : Step s e s') :
    SemOk s' := by
  cases hs with
  | pend i timeout hready => exact h.LOS_SemPend i timeout hready
  | post i => exact h.OsSemPostUnsafe i
  | timeout hw => exact h.leave hw true
  | resume hw => exact h.setReady hw

omit [DecidableEq τ] [DecidableEq σ] in
theorem SemOk.init (h : Init s) : SemOk s := by
  obtain ⟨hready, hcreated⟩ := h
  -- a fresh block: count at most its maximum, which is at most `OS_SEM_COUNT_MAX`
  have hfresh : ∀ i, (s.sems i).semList = [] ∧ (s.sems i).semCount ≤ OS_SEM_COUNT_MAX := by
    intro i
    obtain ⟨count, -, hmk⟩ := hcreated i
    cases hmk with
    | inl hmk =>
      unfold LOS_SemCreate OsSemCreate at hmk
      split_ifs at hmk with hgt
      rw [← Except.ok.inj hmk]
      exact ⟨rfl, show count ≤ OS_SEM_COUNT_MAX by omega⟩
    | inr hmk =>
      unfold LOS_BinarySemCreate OsSemCreate at hmk
      split_ifs at hmk with hgt
      rw [← Except.ok.inj hmk]
      unfold OS_SEM_BINARY_COUNT_MAX at hgt
      exact ⟨rfl, show count ≤ OS_SEM_COUNT_MAX by unfold OS_SEM_COUNT_MAX; omega⟩
  constructor
  · intro i
    rw [(hfresh i).1]
    apply Enumerates.nil
    intro t ⟨b, hb⟩
    rw [hready t] at hb
    cases hb
  · intro i _
    exact (hfresh i).1
  · intro i
    exact (hfresh i).2

theorem SemOk.of_reach (hs : Reachable s) : SemOk s :=
  Reach.inv SemOk (fun _ h₀ => SemOk.init h₀) (fun _ _ h ⟨_, hstep⟩ => h.step hstep) hs

/-- `maxSemCount` is written only by `OsSemCreate`. -/
theorem maxSemCount_step {e : Event τ σ} {s' : SemSys τ σ} (hs : Step s e s') (i : σ) :
    (s'.sems i).maxSemCount = (s.sems i).maxSemCount := by
  cases hs with
  | pend j timeout _ =>
    unfold LOS_SemPend
    split_ifs <;> by_cases hi : i = j <;> simp [OsSchedTaskWait, hi]
  | post j =>
    simp only [OsSemPostUnsafe]
    split_ifs
    · rfl
    · split <;> by_cases hi : i = j <;> simp [OsSchedTaskWake, hi]
  | timeout =>
    simp only [OsSemPendTimeout, modifyTask_sems, modifySem_sems]
    split_ifs <;> simp_all
  | resume => rfl

end calls

-- ======================================================= the token count

/-- One if the task holds a token of `i` that a post handed it. -/
def TaskCB.token (i : σ) (task : TaskCB σ) : Nat :=
  if task.state = .woken i false then 1 else 0

/-- The tokens of `i` handed to woken tasks and not yet taken by their
`LOS_SemPend`. -/
def handed [Fintype τ] (s : SemSys τ σ) (i : σ) : Nat :=
  ∑ t, (s.tasks t).token i

/-- One if the event is a post on `i` that returned `LOS_OK`. -/
def Event.posted (i : σ) : Event τ σ → Nat
  | .post j ret => if j = i ∧ ret = LOS_OK then 1 else 0
  | _ => 0

/-- One if the event is a pend on `i` that returned `LOS_OK`, at once or
when its woken caller resumed. -/
def Event.taken (i : σ) : Event τ σ → Nat
  | .pend _ j _ ret => if j = i ∧ ret = some LOS_OK then 1 else 0
  | .resume _ j ret => if j = i ∧ ret = LOS_OK then 1 else 0
  | _ => 0

section count

variable [Fintype τ] {s : SemSys τ σ}

omit [DecidableEq τ] in
@[simp]
theorem handed_modifySem (j : σ) (f : LosSemCB τ → LosSemCB τ) (i : σ) :
    handed (s.modifySem j f) i = handed s i :=
  rfl

/-- Writing one task moves the count by that task's own tokens. -/
theorem handed_modifyTask (s : SemSys τ σ) (t : τ) (f : TaskCB σ → TaskCB σ) (i : σ) :
    handed (s.modifyTask t f) i + (s.tasks t).token i = handed s i + (f (s.tasks t)).token i :=
  sum_update_add s.tasks (TaskCB.token i) t (f (s.tasks t))

omit [DecidableEq τ] in
theorem handed_init (h : Init s) (i : σ) : handed s i = 0 := by
  unfold handed
  apply Finset.sum_eq_zero
  intro t _
  simp [TaskCB.token, h.1 t]

theorem handed_OsSchedTaskWait (t : τ) (j : σ) (timeout : Nat) (i : σ)
    (hready : (s.tasks t).state = .ready) :
    handed (OsSchedTaskWait s t j timeout) i = handed s i := by
  have hmove := handed_modifyTask (s.modifySem j fun sem =>
    { sem with semList := sem.semList ++ [t] }) t
    (fun task => { task with state := .pended j (decide (timeout ≠ LOS_WAIT_FOREVER)) }) i
  simp only [modifySem_tasks, handed_modifySem, TaskCB.token, hready] at hmove
  simpa [OsSchedTaskWait] using hmove

/-- A waiter that leaves the list woken by a post takes a token of its
semaphore; one that timed out takes none. -/
theorem handed_leave {t : τ} {j : σ} {b : Bool} (hw : (s.tasks t).state = .pended j b)
    (timedOut : Bool) (i : σ) :
    handed ((s.modifySem j fun sem => { sem with semList := sem.semList.erase t }).modifyTask t
        fun task => { task with state := .woken j timedOut }) i =
      handed s i + if j = i ∧ timedOut = false then 1 else 0 := by
  have hmove := handed_modifyTask (s.modifySem j fun sem =>
    { sem with semList := sem.semList.erase t }) t
    (fun task => { task with state := .woken j timedOut }) i
  simp only [modifySem_tasks, handed_modifySem, TaskCB.token, hw] at hmove
  simpa using hmove

theorem handed_setReady {t : τ} {j : σ} {b : Bool} (hw : (s.tasks t).state = .woken j b)
    (i : σ) :
    handed (s.modifyTask t fun task => { task with state := .ready }) i +
        (if j = i ∧ b = false then 1 else 0) = handed s i := by
  have hmove := handed_modifyTask s t (fun task => { task with state := .ready }) i
  simp only [TaskCB.token, hw] at hmove
  simpa using hmove

/-- One step keeps the tokens: what a successful post adds is the count
now, the tokens handed, and what a successful pend takes. -/
theorem tokens_step {e : Event τ σ} {s' : SemSys τ σ} (h : SemOk s) (hs : Step s e s') (i : σ) :
    (s.sems i).semCount + handed s i + e.posted i =
      (s'.sems i).semCount + handed s' i + e.taken i := by
  cases hs with
  | @pend t j timeout hready =>
    unfold LOS_SemPend
    split_ifs with hsys hpos htimeout
    · simp [Event.posted, Event.taken, LOS_ERRNO_SEM_PEND_IN_SYSTEM_TASK, LOS_OK,
        LOS_ERRNO_OS_ERROR, LOS_ERRTYPE_ERROR, LOS_ERRNO_OS_ID]
    · -- the caller takes a token of `j`
      by_cases hj : j = i
      · subst hj
        simp only [Event.posted, Event.taken, modifySem_sems, if_true, handed_modifySem]
        simp
        omega
      · simp [Event.posted, Event.taken, hj, Ne.symm hj]
    · simp [Event.posted, Event.taken, LOS_ERRNO_SEM_UNAVAILABLE, LOS_OK,
        LOS_ERRNO_OS_ERROR, LOS_ERRTYPE_ERROR, LOS_ERRNO_OS_ID]
    · -- the caller blocks: nothing is taken yet
      rw [handed_OsSchedTaskWait t j timeout i hready]
      by_cases hj : j = i
      · subst hj
        simp [Event.posted, Event.taken, OsSchedTaskWait]
      · simp [Event.posted, Event.taken, OsSchedTaskWait, Ne.symm hj]
  | post j =>
    simp only [OsSemPostUnsafe]
    split_ifs with hmax
    · simp [Event.posted, Event.taken, LOS_ERRNO_SEM_OVERFLOW, LOS_OK,
        LOS_ERRNO_OS_ERROR, LOS_ERRTYPE_ERROR, LOS_ERRNO_OS_ID]
    · split
      · next resumed rest hlist =>
        -- the token goes to the first waiter
        have hw := h.waiters j
        rw [hlist] at hw
        obtain ⟨b, hb⟩ := hw.of_cons
        rw [OsSchedTaskWake, handed_leave hb false i]
        by_cases hj : j = i
        · subst hj
          simp [Event.posted, Event.taken]
          omega
        · simp [Event.posted, Event.taken, hj, Ne.symm hj]
      · next hlist =>
        -- the token goes to the count, which does not wrap below the bound
        have hle := h.count_le j
        by_cases hj : j = i
        · subst hj
          have hinc : ((s.sems j).semCount + 1) % 2 ^ 16 = (s.sems j).semCount + 1 := by
            unfold OS_SEM_COUNT_MAX at hle hmax
            omega
          simp only [Event.posted, Event.taken, modifySem_sems, handed_modifySem, hinc, and_self,
            if_true]
          omega
        · simp [Event.posted, Event.taken, hj, Ne.symm hj]
  | @timeout t j hw =>
    rw [OsSemPendTimeout, handed_leave hw true i]
    by_cases hj : j = i
    · subst hj
      simp [Event.posted, Event.taken]
    · simp [Event.posted, Event.taken, Ne.symm hj]
  | @resume t j b hw =>
    have hready := handed_setReady hw i
    cases b with
    | true =>
      simp only [Bool.true_eq_false, and_false, if_false, Nat.add_zero] at hready
      simp [Event.posted, Event.taken, OsSemPendResume, hready, LOS_ERRNO_SEM_TIMEOUT, LOS_OK,
        LOS_ERRNO_OS_ERROR, LOS_ERRTYPE_ERROR, LOS_ERRNO_OS_ID]
    | false =>
      simp only [OsSemPendResume, Event.posted, Event.taken, modifyTask_sems]
      by_cases hj : j = i
      · subst hj
        simp only [and_self, if_true] at hready
        simp
        omega
      · simp only [hj, false_and, if_false, Nat.add_zero] at hready
        simp [hj, hready]

end count

-- ================================================================= runs

/-- Semaphore runs: in every state a run from creation reaches, the pend
list of a semaphore lists its waiters each once, a positive count has
no waiter, the count is at most `OS_SEM_COUNT_MAX`, `maxSemCount` is as
created (so a semaphore from `LOS_SemCreate` keeps within it), and the
tokens are conserved: the initial count plus the posts that returned
`LOS_OK` is the count, plus the tokens handed to woken waiters, plus the
pends that returned `LOS_OK`. The task table is finite, as the kernel's
is. -/
theorem sem_tokens [Fintype τ] {s₀ s : SemSys τ σ} {evs : List (Event τ σ)} (h₀ : Init s₀)
    (hrun : Run Step s₀ evs s) (i : σ) :
    Enumerates (s.sems i).semList (Waiting s i) ∧
      (0 < (s.sems i).semCount → (s.sems i).semList = []) ∧
      (s.sems i).semCount ≤ OS_SEM_COUNT_MAX ∧
      (s.sems i).maxSemCount = (s₀.sems i).maxSemCount ∧
      ((s₀.sems i).maxSemCount = OS_SEM_COUNT_MAX →
        (s.sems i).semCount ≤ (s.sems i).maxSemCount) ∧
      (s₀.sems i).semCount + (evs.map (Event.posted i)).sum =
        (s.sems i).semCount + handed s i + (evs.map (Event.taken i)).sum := by
  have hok : SemOk s := SemOk.of_reach (hrun.reach h₀)
  have hmax : (s.sems i).maxSemCount = (s₀.sems i).maxSemCount :=
    hrun.inv (fun s' => (s'.sems i).maxSemCount = (s₀.sems i).maxSemCount)
      (fun _ _ _ hprev hstep => (maxSemCount_step hstep i).trans hprev) rfl
  have hcount := hrun.conserve SemOk (fun s' => (s'.sems i).semCount + handed s' i)
    (Event.posted i) (Event.taken i) (fun _ _ _ h hstep => h.step hstep)
    (fun _ _ _ h hstep => tokens_step h hstep i) (SemOk.init h₀)
  refine ⟨hok.waiters i, hok.idle i, hok.count_le i, hmax, fun hcnt => ?_, ?_⟩
  · rw [hmax, hcnt]
    exact hok.count_le i
  · rw [handed_init h₀ i, Nat.add_zero] at hcount
    omega

/-- A post that wakes a waiter leaves the token with it until it
resumes: the count equation then carries one handed token. -/
theorem sem_tokens_handoff :
    let s₀ : SemSys (Fin 2) (Fin 1) := ⟨fun _ => ⟨false, .ready⟩, fun _ => ⟨0, OS_SEM_COUNT_MAX, []⟩⟩
    let s₁ := (LOS_SemPend s₀ 0 0 LOS_WAIT_FOREVER).2
    let s₂ := (OsSemPostUnsafe s₁ 0).2
    let evs : List (Event (Fin 2) (Fin 1)) := [.pend 0 0 LOS_WAIT_FOREVER none, .post 0 LOS_OK]
    Init s₀ ∧ Run Step s₀ evs s₂ ∧
      (s₀.sems 0).semCount + (evs.map (Event.posted 0)).sum =
        (s₂.sems 0).semCount + handed s₂ 0 + (evs.map (Event.taken 0)).sum := by
  intro s₀ s₁ s₂ evs
  have h₀ : Init s₀ := ⟨fun _ => rfl, fun _ => ⟨0, by decide, .inl rfl⟩⟩
  have hrun : Run Step s₀ evs s₂ :=
    Run.snoc (Run.snoc Run.nil (Step.pend 0 LOS_WAIT_FOREVER rfl)) (Step.post 0)
  exact ⟨h₀, hrun, (sem_tokens h₀ hrun 0).2.2.2.2.2⟩

/-- A binary semaphore created with its token free and posted once
counts two tokens, one above its `maxSemCount`, and the post returns
`LOS_OK`: `OsSemPostUnsafe` checks the count against `OS_SEM_COUNT_MAX`. -/
theorem sem_binary_post_overflow :
    let s₀ : SemSys (Fin 1) (Fin 1) := ⟨fun _ => ⟨false, .ready⟩, fun _ => ⟨1, 1, []⟩⟩
    LOS_BinarySemCreate 1 = .ok (s₀.sems 0) ∧
      Reachable (OsSemPostUnsafe s₀ 0).2 ∧ (OsSemPostUnsafe s₀ 0).1 = LOS_OK ∧
      ((OsSemPostUnsafe s₀ 0).2.sems 0).semCount = 2 ∧
      ((OsSemPostUnsafe s₀ 0).2.sems 0).maxSemCount = 1 := by
  intro s₀
  have hcreate : LOS_BinarySemCreate 1 = .ok (s₀.sems 0) := rfl
  have h₀ : Init s₀ := ⟨fun _ => rfl, fun _ => ⟨1, by decide, .inr hcreate⟩⟩
  exact ⟨hcreate, .step (.init h₀) ⟨_, Step.post 0⟩, rfl, rfl, rfl⟩

end LiteOsA.Sem
