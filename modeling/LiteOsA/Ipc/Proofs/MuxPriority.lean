/-
What the mutex code does to task priorities.

# Priorities stay priorities

Every priority the mutex code writes is either the priority of another
task, a ceiling that `OsCheckMutexAttr` accepted, or a saved position
read back out of a `priBitMap` by `LOS_HighBitGet` or `LOS_LowBitGet`.
The last kind is guarded against `LOS_INVALID_BIT_INDEX` everywhere but
in `OsMuxPostOpSub`, which reads the lowest bit left after its loop. The
loop spares the bit at the highest saved position
(`testBit_clearPendedPri_self`) and `OsMuxPostOp` enters it only with a
nonzero bitmap, so a bit is left there too. Hence `PriOk`: every task's
priority is at most `OS_TASK_PRIORITY_LOWEST` and its bitmap is a
32-bit word, in every reachable state (`priority_le_lowest`).

# Priorities are not given back

The bitmap records which priorities a task had, not in which order it
was boosted, and the two protocols read it from opposite ends. Two runs
show what that costs. With two ceiling mutexes held one inside the
other, each unlock takes the highest saved position, which is the
oldest, so the task ends at the ceiling it held in between
(`prio_protect_nested_leak`). With two inheriting mutexes, releasing
one drops the owner to the lowest saved position, which may be below a
waiter on the other (`prio_inherit_release_other`).
-/
import LiteOsA.Ipc.Mux
import Mathlib.Data.Fin.VecNotation

namespace LiteOsA.Mux

open Protocol MuxType Call MuxSys


variable {τ μ : Type} [DecidableEq τ] [DecidableEq μ]

-- ============================================================ invariant

/-- A task's priority is one, and its bitmap a 32-bit word. -/
structure TaskOk (task : TaskCB τ μ) : Prop where
  priority_le : task.priority ≤ OS_TASK_PRIORITY_LOWEST
  bitmap_lt : task.priBitMap < 2 ^ 32

/-- Every task is `TaskOk`. -/
structure PriOk (s : MuxSys τ μ) : Prop where
  task_ok : ∀ t, TaskOk (s.tasks t)

variable {attr : μ → LosMuxAttr} {s : MuxSys τ μ}

/-- A ceiling `OsCheckMutexAttr` accepts is a priority. -/
theorem prioceiling_le_of_check {a : LosMuxAttr} (h : OsCheckMutexAttr a = LOS_OK) :
    a.prioceiling ≤ OS_TASK_PRIORITY_LOWEST := by
  unfold OsCheckMutexAttr at h
  split_ifs at h with hc
  · exact absurd h (by decide)
  · exact Nat.le_of_not_lt hc

omit [DecidableEq μ] in
theorem PriOk.modifyTask (h : PriOk s) {t : τ} {f : TaskCB τ μ → TaskCB τ μ}
    (hf : TaskOk (f (s.tasks t))) : PriOk (s.modifyTask t f) := by
  refine ⟨fun t' => ?_⟩
  rw [modifyTask_tasks]
  split_ifs
  · exact hf
  · exact h.task_ok t'

omit [DecidableEq τ] in
theorem PriOk.modifyMux (h : PriOk s) (m : μ) (f : LosMux τ → LosMux τ) :
    PriOk (s.modifyMux m f) :=
  ⟨h.task_ok⟩

omit [DecidableEq μ] in
theorem PriOk.lockListInsert (h : PriOk s) (t : τ) (m : μ) : PriOk (lockListInsert s t m) :=
  h.modifyTask ⟨(h.task_ok t).priority_le, (h.task_ok t).bitmap_lt⟩

omit [DecidableEq τ] in
theorem PriOk.holdListDelete (h : PriOk s) (m : μ) : PriOk (holdListDelete s m) :=
  ⟨fun t => ⟨(h.task_ok t).priority_le, (h.task_ok t).bitmap_lt⟩⟩

omit [DecidableEq μ] in
theorem PriOk.setPriority (h : PriOk s) {t : τ} {p : Nat} (hp : p ≤ OS_TASK_PRIORITY_LOWEST) :
    PriOk (OsSchedModifyTaskSchedParam s t p) :=
  h.modifyTask ⟨hp, (h.task_ok t).bitmap_lt⟩

omit [DecidableEq μ] in
theorem PriOk.bitmapSet (h : PriOk s) (t : τ) (pos : Nat) : PriOk (bitmapSet s t pos) :=
  h.modifyTask ⟨(h.task_ok t).priority_le, LOS_BitmapSet_lt (h.task_ok t).bitmap_lt pos⟩

omit [DecidableEq μ] in
theorem PriOk.bitmapClr (h : PriOk s) (t : τ) (pos : Nat) : PriOk (bitmapClr s t pos) :=
  h.modifyTask ⟨(h.task_ok t).priority_le,
    lt_of_le_of_lt (LOS_BitmapClr_le _ _) (h.task_ok t).bitmap_lt⟩

-- ====================================================== lock and resume

omit [DecidableEq μ] in
theorem PriOk.OsMuxBitmapSet (h : PriOk s) (m : μ) (runTask owner : τ) :
    PriOk (OsMuxBitmapSet s m runTask owner) := by
  unfold LiteOsA.Mux.OsMuxBitmapSet
  split
  · -- the owner takes the pending task's priority
    have h' := h.bitmapSet owner (s.tasks owner).priority
    exact h'.setPriority (h'.task_ok runTask).priority_le
  · exact h

omit [DecidableEq μ] in
theorem PriOk.OsMuxBitmapRestore (h : PriOk s) (m : μ) (taskCB owner : τ) :
    PriOk (OsMuxBitmapRestore s m taskCB owner) := by
  unfold LiteOsA.Mux.OsMuxBitmapRestore
  dsimp only
  split
  · exact h
  split
  · split
    next hbit =>
      -- the guard makes the lowest saved position a bit position
      have := LOS_LowBitGet_lt (h.task_ok owner).bitmap_lt hbit
      exact (h.bitmapClr _ _).setPriority (by simp only [OS_TASK_PRIORITY_LOWEST]; omega)
    next => exact h
  split
  · exact h.bitmapClr _ _
  · exact h

theorem PriOk.OsMuxPendOp (h : PriOk s) (runTask : τ) (m : μ) (timeout : Nat)
    (hattr : OsCheckMutexAttr (s.muxes m).attr = LOS_OK) :
    PriOk (OsMuxPendOp s runTask m timeout).2 := by
  unfold LiteOsA.Mux.OsMuxPendOp
  dsimp only
  split
  · -- the new owner takes the mutex's hold node
    split
    · -- the ceiling protocol raises the new owner to the mutex's ceiling
      dsimp only
      exact (((h.modifyMux _ _).lockListInsert _ _).bitmapSet _ _).setPriority
        (prioceiling_le_of_check hattr)
    · dsimp only
      exact (h.modifyMux _ _).lockListInsert _ _
  split
  · dsimp only
    exact h.modifyMux _ _
  split
  · exact h
  split
  · exact h
  next owner _ =>
    have h₁ := h.OsMuxBitmapSet m runTask owner
    split
    · exact h₁
    next i _ =>
      -- the caller joins the pend list, its priority untouched
      dsimp only
      exact (h₁.modifyMux _ _).modifyTask
        ⟨(h₁.task_ok runTask).priority_le, (h₁.task_ok runTask).bitmap_lt⟩

theorem PriOk.OsMuxLockUnsafe (h : PriOk s) (runTask : τ) (m : μ) (timeout : Nat) :
    PriOk (OsMuxLockUnsafe s runTask m timeout).2 := by
  unfold LiteOsA.Mux.OsMuxLockUnsafe
  dsimp only
  split
  · exact h
  split
  · exact h
  split
  · exact h
  next hattr _ => exact h.OsMuxPendOp runTask m timeout (not_not.mp hattr)

theorem PriOk.OsMuxTrylockUnsafe (h : PriOk s) (runTask : τ) (m : μ) :
    PriOk (OsMuxTrylockUnsafe s runTask m).2 := by
  unfold LiteOsA.Mux.OsMuxTrylockUnsafe
  dsimp only
  split
  · exact h
  split
  · exact h
  split
  · exact h
  next hattr _ => exact h.OsMuxPendOp runTask m 0 (not_not.mp hattr)

omit [DecidableEq μ] in
theorem PriOk.OsMuxPendResume (h : PriOk s) (t : τ) (w : Wait τ μ) (timedOut : Bool) :
    PriOk (OsMuxPendResume s t w timedOut).2 := by
  have h' : PriOk (s.modifyTask t fun task => { task with state := .ready }) :=
    h.modifyTask ⟨(h.task_ok t).priority_le, (h.task_ok t).bitmap_lt⟩
  unfold LiteOsA.Mux.OsMuxPendResume
  dsimp only
  split
  · exact h'.OsMuxBitmapRestore _ _ _
  · exact h'

theorem PriOk.OsMuxPendTimeout (h : PriOk s) (t : τ) (w : Wait τ μ) :
    PriOk (OsMuxPendTimeout s t w) := by
  unfold LiteOsA.Mux.OsMuxPendTimeout
  dsimp only
  exact (h.modifyMux _ _).modifyTask ⟨(h.task_ok t).priority_le, (h.task_ok t).bitmap_lt⟩

-- ================================================================ unlock

omit [DecidableEq τ] in
/-- The loop of `OsMuxPostOpSub` only clears bits. -/
theorem clearPendedPri_le (pri : τ → Nat) (b : Nat) :
    ∀ (x : Nat) (l : List τ), clearPendedPri pri b x l ≤ x
  | x, [] => le_refl x
  | x, p :: l => by
      rw [clearPendedPri]
      refine le_trans (clearPendedPri_le pri b _ l) ?_
      split_ifs
      · exact LOS_BitmapClr_le _ _
      · exact le_refl x

omit [DecidableEq τ] in
/-- The loop of `OsMuxPostOpSub` spares the bit it compares against, as
long as the waiters' priorities are bit positions. -/
theorem testBit_clearPendedPri_self (pri : τ → Nat) {b : Nat} (hb : b < 32) :
    ∀ (x : Nat) (l : List τ), (∀ p ∈ l, pri p < 32) →
      (clearPendedPri pri b x l).testBit b = x.testBit b
  | x, [], _ => rfl
  | x, p :: l, hl => by
      rw [clearPendedPri, testBit_clearPendedPri_self pri hb _ l fun q hq => hl q (.tail _ hq)]
      split_ifs with hne
      · have hp := hl p List.mem_cons_self
        rw [testBit_LOS_BitmapClr, Nat.mod_eq_of_lt hp]
        simp [Ne.symm hne, hb]
      · rfl

omit [DecidableEq μ] in
/-- The tail of `OsMuxPostOpSub`: drop to the lowest position saved in a
nonzero bitmap. -/
theorem PriOk.lowBit_restore (h : PriOk s) {t : τ} (hne : (s.tasks t).priBitMap ≠ 0) :
    PriOk (OsSchedModifyTaskSchedParam (Mux.bitmapClr s t (LOS_LowBitGet (s.tasks t).priBitMap))
      t (LOS_LowBitGet (s.tasks t).priBitMap)) := by
  have := LOS_LowBitGet_spec hne (h.task_ok t).bitmap_lt
  exact (h.bitmapClr _ _).setPriority (by simp only [OS_TASK_PRIORITY_LOWEST]; omega)

omit [DecidableEq μ] in
theorem PriOk.OsMuxPostOpSub (h : PriOk s) (taskCB : τ) (m : μ)
    (hne : (s.tasks taskCB).priBitMap ≠ 0) : PriOk (OsMuxPostOpSub s taskCB m) := by
  unfold LiteOsA.Mux.OsMuxPostOpSub
  dsimp only
  split
  · -- the loop spares the highest saved position, so a bit is left for the tail
    obtain ⟨hhb, hbit, -⟩ := LOS_HighBitGet_spec hne (h.task_ok taskCB).bitmap_lt
    have hwait : ∀ p ∈ (s.muxes m).muxList, (s.tasks p).priority < 32 := fun p _ => by
      have := (h.task_ok p).priority_le
      simp only [OS_TASK_PRIORITY_LOWEST] at this
      omega
    have hkeep := testBit_clearPendedPri_self (fun t => (s.tasks t).priority) hhb
      (s.tasks taskCB).priBitMap _ hwait
    refine PriOk.lowBit_restore (h.modifyTask ?_) ?_
    · exact ⟨(h.task_ok taskCB).priority_le,
        lt_of_le_of_lt (clearPendedPri_le _ _ _ _) (h.task_ok taskCB).bitmap_lt⟩
    · simp only [modifyTask_tasks, if_true]
      intro h0
      rw [h0, Nat.zero_testBit, hbit] at hkeep
      exact absurd hkeep (by decide)
  · exact h.lowBit_restore hne

theorem PriOk.OsSchedTaskWake (h : PriOk s) (m : μ) (resumed : τ) :
    PriOk (OsSchedTaskWake s m resumed) := by
  unfold LiteOsA.Mux.OsSchedTaskWake
  dsimp only
  refine (h.modifyMux _ _).modifyTask ?_
  -- only the woken task's state changes
  split
  · exact ⟨(h.task_ok resumed).priority_le, (h.task_ok resumed).bitmap_lt⟩
  · exact h.task_ok resumed

theorem PriOk.OsMuxPostOp (h : PriOk s) (taskCB : τ) (m : μ) :
    PriOk (OsMuxPostOp s taskCB m) := by
  unfold LiteOsA.Mux.OsMuxPostOp
  dsimp only
  split
  · exact (h.holdListDelete m).modifyMux _ _
  next resumed _ _ =>
    refine PriOk.OsSchedTaskWake (PriOk.lockListInsert (PriOk.holdListDelete
      (PriOk.modifyMux ?_ _ _) m) resumed m) m resumed
    -- the inheritance protocol's adjustment of the old owner
    split
    · split
      · split
        · exact h.bitmapClr _ _
        · exact h
      · split
        next hne => exact h.OsMuxPostOpSub taskCB m hne
        next => exact h
    · exact h

theorem PriOk.OsMuxUnlockUnsafe (h : PriOk s) (taskCB : τ) (m : μ) :
    PriOk (OsMuxUnlockUnsafe s taskCB m).2 := by
  unfold LiteOsA.Mux.OsMuxUnlockUnsafe
  dsimp only
  split
  · exact h
  split
  · exact h
  split
  · exact h
  split
  · exact h
  have h₀ : PriOk (s.modifyMux m fun mutex => { mutex with muxCount := mutex.muxCount - 1 }) :=
    h.modifyMux _ _
  split
  · exact h₀
  refine PriOk.OsMuxPostOp ?_ taskCB m
  split
  · split
    next hbit =>
      -- the ceiling protocol's guard makes the highest saved position a bit position
      have := LOS_HighBitGet_lt (h₀.task_ok taskCB).bitmap_lt hbit
      exact (h₀.bitmapClr _ _).setPriority (by simp only [OS_TASK_PRIORITY_LOWEST]; omega)
    next => exact h₀
  · exact h₀

-- ================================================================= runs

omit [DecidableEq τ] in
theorem PriOk.LOS_MuxInit (h : PriOk s) (m : μ) (attr : Option LosMuxAttr) :
    PriOk (LOS_MuxInit s m attr).2 := by
  unfold LiteOsA.Mux.LOS_MuxInit
  dsimp only
  split
  · dsimp only
    exact h.modifyMux _ _
  · dsimp only
    exact (h.modifyMux _ _).modifyMux _ _

omit [DecidableEq τ] in
theorem PriOk.LOS_MuxDestroy (h : PriOk s) (m : μ) : PriOk (LOS_MuxDestroy s m).2 := by
  unfold LiteOsA.Mux.LOS_MuxDestroy
  dsimp only
  split
  · exact h
  split
  · exact h
  · dsimp only
    exact h.modifyMux _ _

theorem PriOk.step {ok : MuxSys τ μ → τ → Call μ → Prop} (h : PriOk s) {s' : MuxSys τ μ}
    (hs : Step ok s s') : PriOk s' := by
  cases hs with
  | call c _ _ =>
      cases c with
      | LOS_MuxInit m attr => exact h.LOS_MuxInit m attr
      | LOS_MuxDestroy m => exact h.LOS_MuxDestroy m
      | LOS_MuxLock m timeout => exact h.OsMuxLockUnsafe _ m timeout
      | LOS_MuxTrylock m => exact h.OsMuxTrylockUnsafe _ m
      | LOS_MuxUnlock m => exact h.OsMuxUnlockUnsafe _ m
  | timeout _ _ => exact h.OsMuxPendTimeout _ _
  | resume _ => exact h.OsMuxPendResume _ _ _

/-- In every reachable state every task's priority is a priority and its
bitmap a 32-bit word, whatever the interleaving of locks, timed locks,
timeouts and unlocks on mutexes of any protocol. -/
theorem priority_le_lowest {base : τ → Nat} (hbase : ∀ t, base t ≤ OS_TASK_PRIORITY_LOWEST)
    {s : MuxSys τ μ} (hs : Reachable base attr s) (t : τ) :
    (s.tasks t).priority ≤ OS_TASK_PRIORITY_LOWEST ∧ (s.tasks t).priBitMap < 2 ^ 32 := by
  have hi : PriOk s := by
    refine Reach.inv _ (fun s₀ h₀ => ⟨fun t => ?_⟩) (fun _ _ h hs => h.step hs) hs
    rw [h₀.1 t]
    exact ⟨hbase t, Nat.two_pow_pos 32⟩
  exact ⟨(hi.task_ok t).priority_le, (hi.task_ok t).bitmap_lt⟩

/-- One task at priority 20 and one mutex of each protocol, before any
call. -/
theorem priority_le_lowest_initial :
    (∀ _ : Fin 1, (20 : Nat) ≤ OS_TASK_PRIORITY_LOWEST) ∧
      ((⟨fun _ => ⟨20, 0, .ready, []⟩, fun m => ⟨⟨m, 10, LOS_MUX_NORMAL⟩, 0, none, [], OS_MUX_MAGIC⟩⟩ :
        MuxSys (Fin 1) Protocol).tasks 0).priority ≤ OS_TASK_PRIORITY_LOWEST := by
  have hbase : ∀ _ : Fin 1, (20 : Nat) ≤ OS_TASK_PRIORITY_LOWEST := fun _ => by decide
  have hs : Reachable (fun _ => 20) (fun m => ⟨m, 10, LOS_MUX_NORMAL⟩)
      (⟨fun _ => ⟨20, 0, .ready, []⟩, fun m => ⟨⟨m, 10, LOS_MUX_NORMAL⟩, 0, none, [], OS_MUX_MAGIC⟩⟩ :
        MuxSys (Fin 1) Protocol) :=
    .init ⟨fun _ => rfl, fun _ => ⟨rfl, rfl⟩⟩
  exact ⟨hbase, (priority_le_lowest hbase hs 0).1⟩

-- ============================================== priorities not given back

/-- A task at priority 20 locks a mutex of ceiling 10 and then one of
ceiling 5, and unlocks them in the opposite order. It owns nothing,
nothing waits and its bitmap is empty, yet it runs at 10: each unlock
restored the highest saved position, the base priority first. -/
theorem prio_protect_nested_leak :
    let attr : Fin 2 → LosMuxAttr := fun m =>
      ⟨LOS_MUX_PRIO_PROTECT, if m = 0 then 10 else 5, LOS_MUX_NORMAL⟩
    let s₀ : MuxSys (Fin 1) (Fin 2) :=
      ⟨fun _ => ⟨20, 0, .ready, []⟩, fun m => ⟨attr m, 0, none, [], OS_MUX_MAGIC⟩⟩
    let s := callStep (callStep (callStep (callStep s₀
      0 (LOS_MuxLock 0 LOS_WAIT_FOREVER)) 0 (LOS_MuxLock 1 LOS_WAIT_FOREVER))
      0 (LOS_MuxUnlock 1)) 0 (LOS_MuxUnlock 0)
    Reachable (fun _ => 20) attr s ∧
      (∀ m, (s.muxes m).owner = none ∧ (s.muxes m).muxList = []) ∧
      (s.tasks 0).priBitMap = 0 ∧ (s.tasks 0).priority = 10 := by
  intro attr s₀ s
  refine ⟨?_, by decide, by decide, by decide⟩
  exact .step (.step (.step (.step (.init ⟨fun _ => rfl, fun _ => ⟨rfl, by decide +revert⟩⟩)
    (.call _ rfl trivial)) (.call _ (by decide) trivial)) (.call _ (by decide) trivial)) (.call _ (by decide) trivial)

/-- Task 0 (priority 20) holds two inheriting mutexes. Task 1 (10) pends
on mutex 0 and task 2 (5) on mutex 1, each boosting the owner; task 3
(8) then pends on mutex 0 without a boost, the owner being at 5. When
task 0 releases mutex 1 it drops to 10, the lowest saved position,
while task 3 at 8 still waits on the mutex it holds. -/
theorem prio_inherit_release_other :
    let s₀ : MuxSys (Fin 4) (Fin 2) :=
      ⟨fun t => ⟨![20, 10, 5, 8] t, 0, .ready, []⟩, fun _ => ⟨LOS_MuxAttrInit, 0, none, [], OS_MUX_MAGIC⟩⟩
    let s := callStep (callStep (callStep (callStep (callStep (callStep s₀
      0 (LOS_MuxLock 0 LOS_WAIT_FOREVER)) 0 (LOS_MuxLock 1 LOS_WAIT_FOREVER))
      1 (LOS_MuxLock 0 LOS_WAIT_FOREVER)) 2 (LOS_MuxLock 1 LOS_WAIT_FOREVER))
      3 (LOS_MuxLock 0 LOS_WAIT_FOREVER)) 0 (LOS_MuxUnlock 1)
    Reachable ![20, 10, 5, 8] (fun _ => LOS_MuxAttrInit) s ∧
      (s.muxes 0).attr.protocol = LOS_MUX_PRIO_INHERIT ∧ (s.muxes 0).owner = some 0 ∧
      3 ∈ (s.muxes 0).muxList ∧ (s.tasks 3).priority = 8 ∧ (s.tasks 0).priority = 10 := by
  intro s₀ s
  refine ⟨?_, by decide, by decide, by decide, by decide, by decide⟩
  exact .step (.step (.step (.step (.step (.step
    (.init ⟨fun _ => rfl, fun _ => ⟨rfl, rfl⟩⟩)
    (.call _ rfl trivial)) (.call _ (by decide) trivial)) (.call _ (by decide) trivial)) (.call _ (by decide) trivial))
    (.call _ (by decide) trivial)) (.call _ (by decide) trivial)

end LiteOsA.Mux
