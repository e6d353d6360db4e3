/-
Who owns a mutex (kernel/base/ipc/los_mux.c).

# The invariant

`OwnOk` is the bookkeeping of ownership. Each mutex on its own
(`MuxOk`) is counted exactly when it has an owner, more than once only
if it is recursive, has an owner while anyone waits on it, and keeps its
waiters once each. Across the system, a task is in a pend list exactly
when it is pended on that mutex, a mutex's hold node is in its owner's
`lockList` and in no other, and a task an unlock handed the mutex to
owns it until it runs again.

The owner itself may wait on its own mutex, and only on a
`LOS_MUX_NORMAL` one: `OsMuxPendOp` has no case for a normal mutex
locked again by its owner, which pends behind itself
(`mux_normal_relock_self_pend`).

# Steps

The priority code moves no task and no mutex: `Places s s'` says that
two states agree on all `OwnOk` reads, and every priority write keeps
it. What is left of each call is one of a few edits of the state: take
a free mutex (`OwnOk.acquire`), write a mutex's count
(`OwnOk.modifyMux`), pend (`OwnOk.pend`), release with no waiter
(`OwnOk.release`), hand over to the first waiter (`OwnOk.handoff`), a
timeout and a resumption.

# Runs

`LOS_MuxInit` resets `muxCount`, `owner` and `muxList` without looking
at them. On a held mutex that leaves the hold node in the old owner's
`lockList` (`mux_reinit_held`), so the run theorem, `mux_ownership`, is
for runs whose calls are `Call.Admissible`: a mutex is initialised
again only while nobody holds it. `muxCount` is a `UINT16`: an owner
that locks a recursive mutex it holds 65535 times leaves the count at 0
with itself the owner, and the next lock by any task takes the mutex as
free (`OsMuxPendOp_wrap`). So admissible runs also lock a held mutex
again only while its count has room.
-/
import LiteOsA.Ipc.Proofs.MuxPriority

namespace LiteOsA.Mux

open Protocol MuxType Call MuxSys


variable {τ μ : Type} [DecidableEq τ] [DecidableEq μ]

-- ============================================================ frames

/-- `s'` differs from `s` at most in priorities and bitmaps. -/
structure Places (s s' : MuxSys τ μ) : Prop where
  muxes : s'.muxes = s.muxes
  state : ∀ t, (s'.tasks t).state = (s.tasks t).state
  lockList : ∀ t, (s'.tasks t).lockList = (s.tasks t).lockList

variable {s s₁ s₂ : MuxSys τ μ}

omit [DecidableEq τ] [DecidableEq μ] in
theorem Places.refl (s : MuxSys τ μ) : Places s s :=
  ⟨rfl, fun _ => rfl, fun _ => rfl⟩

omit [DecidableEq τ] [DecidableEq μ] in
theorem Places.trans (h₁ : Places s s₁) (h₂ : Places s₁ s₂) : Places s s₂ :=
  ⟨h₂.muxes.trans h₁.muxes, fun t => (h₂.state t).trans (h₁.state t),
    fun t => (h₂.lockList t).trans (h₁.lockList t)⟩

omit [DecidableEq μ] in
/-- A write to one task that keeps its state and its hold list. -/
theorem Places.modifyTask {t : τ} {f : TaskCB τ μ → TaskCB τ μ}
    (hs : (f (s.tasks t)).state = (s.tasks t).state)
    (hl : (f (s.tasks t)).lockList = (s.tasks t).lockList) : Places s (s.modifyTask t f) := by
  refine ⟨rfl, fun t' => ?_, fun t' => ?_⟩
  · rw [modifyTask_tasks]
    split_ifs with ht
    · rw [ht, hs]
    · rfl
  · rw [modifyTask_tasks]
    split_ifs with ht
    · rw [ht, hl]
    · rfl

omit [DecidableEq μ] in
theorem Places.OsSchedModifyTaskSchedParam (s : MuxSys τ μ) (t : τ) (p : Nat) :
    Places s (OsSchedModifyTaskSchedParam s t p) :=
  Places.modifyTask rfl rfl

omit [DecidableEq μ] in
theorem Places.bitmapSet (s : MuxSys τ μ) (t : τ) (pos : Nat) : Places s (bitmapSet s t pos) :=
  Places.modifyTask rfl rfl

omit [DecidableEq μ] in
theorem Places.bitmapClr (s : MuxSys τ μ) (t : τ) (pos : Nat) : Places s (bitmapClr s t pos) :=
  Places.modifyTask rfl rfl

omit [DecidableEq μ] in
theorem Places.OsMuxBitmapSet (s : MuxSys τ μ) (m : μ) (runTask owner : τ) :
    Places s (OsMuxBitmapSet s m runTask owner) := by
  unfold LiteOsA.Mux.OsMuxBitmapSet
  split
  · exact (Places.bitmapSet _ _ _).trans (Places.OsSchedModifyTaskSchedParam _ _ _)
  · exact Places.refl s

omit [DecidableEq μ] in
theorem Places.OsMuxBitmapRestore (s : MuxSys τ μ) (m : μ) (taskCB owner : τ) :
    Places s (OsMuxBitmapRestore s m taskCB owner) := by
  unfold LiteOsA.Mux.OsMuxBitmapRestore
  dsimp only
  split
  · exact Places.refl s
  split
  · split
    · exact (Places.bitmapClr _ _ _).trans (Places.OsSchedModifyTaskSchedParam _ _ _)
    · exact Places.refl s
  split
  · exact Places.bitmapClr _ _ _
  · exact Places.refl s

omit [DecidableEq μ] in
theorem Places.OsMuxPostOpSub (s : MuxSys τ μ) (taskCB : τ) (m : μ) :
    Places s (OsMuxPostOpSub s taskCB m) := by
  unfold LiteOsA.Mux.OsMuxPostOpSub
  dsimp only
  refine Places.trans ?_ ((Places.bitmapClr _ _ _).trans (Places.OsSchedModifyTaskSchedParam _ _ _))
  split
  · exact Places.modifyTask rfl rfl
  · exact Places.refl s

omit [DecidableEq μ] in
/-- The ceiling protocol's give-back in `OsMuxUnlockUnsafe`. -/
theorem Places.unlockCeiling (s : MuxSys τ μ) (t : τ) (protect : Prop) [Decidable protect] :
    Places s (if protect then
      if LOS_HighBitGet (s.tasks t).priBitMap ≠ LOS_INVALID_BIT_INDEX then
        Mux.OsSchedModifyTaskSchedParam (Mux.bitmapClr s t (LOS_HighBitGet (s.tasks t).priBitMap)) t
          (LOS_HighBitGet (s.tasks t).priBitMap)
      else s
    else s) := by
  split
  · split
    · exact (Places.bitmapClr _ _ _).trans (Places.OsSchedModifyTaskSchedParam _ _ _)
    · exact Places.refl s
  · exact Places.refl s

omit [DecidableEq μ] in
/-- The inheritance protocol's adjustment of the old owner in
`OsMuxPostOp`. -/
theorem Places.postInherit (s : MuxSys τ μ) (t r : τ) (m : μ) (inherit : Prop) [Decidable inherit] :
    Places s (if inherit then
      if (s.tasks r).priority > (s.tasks t).priority then
        if LOS_HighBitGet (s.tasks t).priBitMap ≠ (s.tasks r).priority then
          Mux.bitmapClr s t (s.tasks r).priority
        else s
      else if (s.tasks t).priBitMap ≠ 0 then Mux.OsMuxPostOpSub s t m
      else s
    else s) := by
  split
  · split
    · split
      · exact Places.bitmapClr _ _ _
      · exact Places.refl s
    · split
      · exact Places.OsMuxPostOpSub _ _ _
      · exact Places.refl s
  · exact Places.refl s

-- The edits `OwnOk` sees, applied to states that agree on what it reads.

omit [DecidableEq τ] in
theorem Places.modifyMux (h : Places s₁ s₂) (m : μ) (f : LosMux τ → LosMux τ) :
    Places (s₁.modifyMux m f) (s₂.modifyMux m f) :=
  ⟨by simp only [MuxSys.modifyMux, h.muxes], h.state, h.lockList⟩

omit [DecidableEq τ] in
theorem Places.holdListDelete (h : Places s₁ s₂) (m : μ) :
    Places (holdListDelete s₁ m) (holdListDelete s₂ m) :=
  ⟨h.muxes, h.state, fun t => by simp only [holdListDelete_tasks, h.lockList]⟩

omit [DecidableEq μ] in
theorem Places.lockListInsert (h : Places s₁ s₂) (t : τ) (m : μ) :
    Places (lockListInsert s₁ t m) (lockListInsert s₂ t m) :=
  ⟨h.muxes, fun t' => by simp only [lockListInsert_state, h.state],
    fun t' => by simp only [lockListInsert_lockList, h.lockList]⟩

theorem Places.OsSchedTaskWake (h : Places s₁ s₂) (m : μ) (resumed : τ) :
    Places (OsSchedTaskWake s₁ m resumed) (OsSchedTaskWake s₂ m resumed) := by
  refine ⟨funext fun m' => ?_, fun t => ?_, fun t => ?_⟩
  · simp only [OsSchedTaskWake_muxes, h.muxes]
  · by_cases ht : t = resumed
    · -- the woken task's new state is read off its old one
      subst ht
      simp only [LiteOsA.Mux.OsSchedTaskWake, modifyTask_tasks, if_true, modifyMux_tasks]
      rw [h.state]
      split
      · rfl
      · exact h.state t
    · rw [OsSchedTaskWake_state_of_ne ht, OsSchedTaskWake_state_of_ne ht, h.state]
  · rw [OsSchedTaskWake_lockList, OsSchedTaskWake_lockList, h.lockList]


-- ========================================================= invariant

/-- What one mutex says of itself. -/
structure MuxOk (mutex : LosMux τ) : Prop where
  count_iff : mutex.muxCount = 0 ↔ mutex.owner = none
  count_le : mutex.attr.type ≠ LOS_MUX_RECURSIVE → mutex.muxCount ≤ 1
  nodup : mutex.muxList.Nodup
  owned : mutex.muxList ≠ [] → mutex.owner ≠ none
  owner_mem : ∀ t, mutex.owner = some t → t ∈ mutex.muxList → mutex.attr.type = LOS_MUX_NORMAL

omit [DecidableEq τ] in
/-- A mutex nobody holds or waits on. -/
theorem MuxOk.idle {mutex : LosMux τ} (hc : mutex.muxCount = 0) (ho : mutex.owner = none)
    (hl : mutex.muxList = []) : MuxOk mutex where
  count_iff := by simp [hc, ho]
  count_le := fun _ => by omega
  nodup := by rw [hl]; exact List.nodup_nil
  owned := fun hne => absurd hl hne
  owner_mem := fun t ht => by rw [ho] at ht; cases ht

/-- The ownership invariant (module doc). -/
structure OwnOk (s : MuxSys τ μ) : Prop where
  mux_ok : ∀ m, MuxOk (s.muxes m)
  mem_iff : ∀ m t, t ∈ (s.muxes m).muxList ↔ ∃ w, (s.tasks t).state = .pended w ∧ w.mux = m
  hold_iff : ∀ m t, m ∈ (s.tasks t).lockList ↔ (s.muxes m).owner = some t
  hold_nodup : ∀ t, (s.tasks t).lockList.Nodup
  woken : ∀ t w, (s.tasks t).state = .woken w false → (s.muxes w.mux).owner = some t

variable {m : μ} {t : τ}

omit [DecidableEq τ] [DecidableEq μ] in
theorem OwnOk.congr (h : OwnOk s₁) (hp : Places s₁ s₂) : OwnOk s₂ where
  mux_ok m := by rw [hp.muxes]; exact h.mux_ok m
  mem_iff m t := by rw [hp.muxes, hp.state]; exact h.mem_iff m t
  hold_iff m t := by rw [hp.muxes, hp.lockList]; exact h.hold_iff m t
  hold_nodup t := by rw [hp.lockList]; exact h.hold_nodup t
  woken t w := by rw [hp.muxes, hp.state]; exact h.woken t w

omit [DecidableEq τ] [DecidableEq μ] in
/-- A task outside the mutex code waits on nothing. -/
theorem OwnOk.not_mem_of_ready (h : OwnOk s₁) (hready : (s₁.tasks t).state = .ready) (m : μ) :
    t ∉ (s₁.muxes m).muxList := by
  rw [h.mem_iff]
  rintro ⟨w, hw, -⟩
  rw [hready] at hw
  cases hw

omit [DecidableEq τ] [DecidableEq μ] in
/-- A mutex with no count is idle, and no hold list has it. -/
theorem OwnOk.idle_of_count (h : OwnOk s₁) (hcount : (s₁.muxes m).muxCount = 0) :
    (s₁.muxes m).owner = none ∧ (s₁.muxes m).muxList = [] ∧ ∀ t, m ∉ (s₁.tasks t).lockList := by
  have hnone := ((h.mux_ok m).count_iff).1 hcount
  refine ⟨hnone, ?_, fun t hm => ?_⟩
  · by_contra hne
    exact (h.mux_ok m).owned hne hnone
  · rw [h.hold_iff, hnone] at hm
    cases hm

omit [DecidableEq τ] in
/-- A write to one mutex that keeps its owner and pend list. -/
theorem OwnOk.modifyMux (h : OwnOk s₁) {f : LosMux τ → LosMux τ} (hf : MuxOk (f (s₁.muxes m)))
    (howner : (f (s₁.muxes m)).owner = (s₁.muxes m).owner)
    (hlist : (f (s₁.muxes m)).muxList = (s₁.muxes m).muxList) : OwnOk (s₁.modifyMux m f) where
  mux_ok m' := by
    rw [modifyMux_muxes]
    split_ifs with hm
    · exact hm ▸ hf
    · exact h.mux_ok m'
  mem_iff m' t := by
    rw [modifyMux_muxes, modifyMux_tasks]
    split_ifs with hm
    · rw [hlist, hm]; exact h.mem_iff m t
    · exact h.mem_iff m' t
  hold_iff m' t := by
    rw [modifyMux_muxes, modifyMux_tasks]
    split_ifs with hm
    · rw [howner, hm]; exact h.hold_iff m t
    · exact h.hold_iff m' t
  hold_nodup := h.hold_nodup
  woken t w hw := by
    rw [modifyMux_muxes]
    split_ifs with hm
    · rw [howner, ← hm]; exact h.woken t w hw
    · exact h.woken t w hw

-- ============================================================ edits

/-- `l ++ [a]` keeps a list without `a` free of duplicates. -/
theorem nodup_append_singleton {α : Type} {l : List α} {a : α} (hl : l.Nodup) (ha : a ∉ l) :
    (l ++ [a]).Nodup := by
  rw [List.nodup_append]
  refine ⟨hl, List.pairwise_singleton _ _, ?_⟩
  intro b hb c hc hbc
  rw [List.mem_singleton] at hc
  rw [hbc, hc] at hb
  exact ha hb

/-- `OsMuxPendOp` on a free mutex: the caller counts it, owns it and
links its hold node. -/
theorem OwnOk.acquire (h : OwnOk s₁) (hcount : (s₁.muxes m).muxCount = 0) :
    OwnOk (lockListInsert (s₁.modifyMux m fun mutex =>
      { mutex with muxCount := u16 (mutex.muxCount + 1), owner := some t }) t m) := by
  obtain ⟨hnone, hlist, hfree⟩ := h.idle_of_count hcount
  refine ⟨fun m' => ?_, fun m' t' => ?_, fun m' t' => ?_, fun t' => ?_, fun t' w hw => ?_⟩
  · simp only [lockListInsert_muxes, modifyMux_muxes]
    split_ifs with hm
    · refine ⟨by simp [hcount, u16], fun _ => by simp [hcount, u16], by simp [hlist], fun _ => by simp, ?_⟩
      intro t' _ hmem
      simp [hlist] at hmem
    · exact h.mux_ok m'
  · simp only [lockListInsert_muxes, lockListInsert_state, modifyMux_muxes, modifyMux_tasks]
    split_ifs with hm
    · rw [hm]
      exact h.mem_iff m t'
    · exact h.mem_iff m' t'
  · simp only [lockListInsert_muxes, lockListInsert_lockList, modifyMux_muxes, modifyMux_tasks]
    by_cases hm : m' = m <;> by_cases ht : t' = t
    · simp [hm, ht]
    · -- nobody else has the hold node of a free mutex
      simp only [hm, ht, if_true, if_false, Option.some.injEq]
      exact ⟨fun hin => absurd hin (hfree t'), fun heq => absurd heq.symm ht⟩
    · simp only [hm, ht, if_true, if_false, List.mem_append, List.mem_singleton, or_false]
      rw [← ht]
      exact h.hold_iff m' t'
    · simp only [hm, ht, if_false]
      exact h.hold_iff m' t'
  · simp only [lockListInsert_lockList, modifyMux_tasks]
    split_ifs with ht
    · exact nodup_append_singleton (h.hold_nodup t') (ht ▸ hfree t)
    · exact h.hold_nodup t'
  · simp only [lockListInsert_state, modifyMux_tasks] at hw
    simp only [lockListInsert_muxes, modifyMux_muxes]
    split_ifs with hm
    · -- a task handed a mutex owns it, and this one had no owner
      have := h.woken t' w hw
      rw [hm, hnone] at this
      cases this
    · exact h.woken t' w hw

omit [DecidableEq τ] in
/-- The position `OsSchedLockPendFindPosSub` finds is in the list. -/
theorem OsSchedLockPendFindPosSub_le (pri : τ → Nat) (p : Nat) :
    ∀ {l : List τ} {i : Nat}, OsSchedLockPendFindPosSub pri p l = some i → i ≤ l.length
  | [], _, h => by simp [OsSchedLockPendFindPosSub] at h
  | t :: l, i, h => by
      rw [OsSchedLockPendFindPosSub] at h
      split_ifs at h
      · obtain ⟨j, hj, rfl⟩ := Option.map_eq_some_iff.mp h
        have := OsSchedLockPendFindPosSub_le pri p hj
        simp only [List.length_cons]
        omega
      · cases h
        exact Nat.zero_le _
      · cases h
        simp

omit [DecidableEq τ] in
/-- The position `OsSchedLockPendFindPos` finds is in the list. -/
theorem OsSchedLockPendFindPos_le {pri : τ → Nat} {p : Nat} {l : List τ} {i : Nat}
    (h : OsSchedLockPendFindPos pri p l = some i) : i ≤ l.length := by
  cases l with
  | nil =>
      cases h
      exact le_rfl
  | cons first rest =>
      rw [OsSchedLockPendFindPos] at h
      split_ifs at h
      · cases h
        exact Nat.zero_le _
      · cases h
        simp
      · exact OsSchedLockPendFindPosSub_le pri p h

/-- `OsMuxPendOp` on a held mutex: the caller joins the pend list. The
owner joins it only on a normal mutex. -/
theorem OwnOk.pend (h : OwnOk s₁) {o : τ} (howner : (s₁.muxes m).owner = some o)
    (hready : (s₁.tasks t).state = .ready) (hself : o = t → (s₁.muxes m).attr.type = LOS_MUX_NORMAL)
    {i : Nat} (hi : i ≤ (s₁.muxes m).muxList.length) (timed : Bool) :
    OwnOk ((s₁.modifyMux m fun mutex => { mutex with muxList := mutex.muxList.insertIdx i t }).modifyTask
      t fun task => { task with state := .pended ⟨m, timed, o⟩ }) := by
  have hout := h.not_mem_of_ready hready
  have hmem : ∀ t', t' ∈ (s₁.muxes m).muxList.insertIdx i t ↔ t' = t ∨ t' ∈ (s₁.muxes m).muxList :=
    fun t' => List.mem_insertIdx hi
  refine ⟨fun m' => ?_, fun m' t' => ?_, fun m' t' => ?_, fun t' => ?_, fun t' w hw => ?_⟩
  · simp only [modifyTask_muxes, modifyMux_muxes]
    split_ifs with hm
    · have hok := h.mux_ok m
      refine ⟨hok.count_iff, hok.count_le, ?_, fun _ => by simp [howner], ?_⟩
      · exact ((List.perm_insertIdx t _ hi).nodup_iff).2 (List.nodup_cons.2 ⟨hout m, hok.nodup⟩)
      · intro t' ht' hin
        simp only [howner, Option.some.injEq] at ht'
        subst ht'
        rcases (hmem o).1 hin with heq | hin
        · exact hself heq
        · exact hok.owner_mem o howner hin
    · exact h.mux_ok m'
  · simp only [modifyTask_muxes, modifyMux_muxes, modifyTask_tasks, modifyMux_tasks]
    by_cases hm : m' = m <;> by_cases ht : t' = t
    · subst hm ht
      simp [hmem]
    · simp only [hm, ht, if_true, if_false, hmem, false_or]
      exact h.mem_iff m t'
    · subst ht
      simp only [hm, if_true, if_false, TaskState.pended.injEq]
      refine ⟨fun hin => absurd hin (hout m'), ?_⟩
      rintro ⟨w, rfl, hw⟩
      exact absurd hw.symm hm
    · simp only [hm, ht, if_false]
      exact h.mem_iff m' t'
  · -- the pend moves no hold node and no owner
    simp only [modifyTask_muxes, modifyMux_muxes, modifyTask_tasks, modifyMux_tasks]
    by_cases hm : m' = m <;> by_cases ht : t' = t
    · subst hm ht
      simpa using h.hold_iff m' t'
    · subst hm
      simpa [ht] using h.hold_iff m' t'
    · subst ht
      simpa [hm] using h.hold_iff m' t'
    · simpa [hm, ht] using h.hold_iff m' t'
  · simp only [modifyTask_tasks, modifyMux_tasks]
    split_ifs with ht
    · exact h.hold_nodup t
    · exact h.hold_nodup t'
  · -- the caller is pended now, not woken
    simp only [modifyTask_tasks, modifyMux_tasks] at hw
    split_ifs at hw with ht
    simp only [modifyTask_muxes, modifyMux_muxes]
    split_ifs with hm
    · rw [← hm]; exact h.woken t' w hw
    · exact h.woken t' w hw

omit [DecidableEq τ] in
/-- `OsMuxPostOp` with nobody waiting: the mutex, its count down to
nothing, loses its owner and leaves the owner's hold list. -/
theorem OwnOk.release (h : OwnOk s₁) (howner : (s₁.muxes m).owner = some t)
    (hready : (s₁.tasks t).state = .ready) (hone : (s₁.muxes m).muxCount = 1)
    (hlist : (s₁.muxes m).muxList = []) :
    OwnOk ((holdListDelete (s₁.modifyMux m fun mutex => { mutex with muxCount := mutex.muxCount - 1 })
      m).modifyMux m fun mutex => { mutex with owner := none }) := by
  refine ⟨fun m' => ?_, fun m' t' => ?_, fun m' t' => ?_, fun t' => ?_, fun t' w hw => ?_⟩
  · simp only [modifyMux_muxes, holdListDelete_muxes]
    split_ifs with hm
    · exact MuxOk.idle (by simp [hone]) rfl hlist
    · exact h.mux_ok m'
  · simp only [modifyMux_muxes, holdListDelete_muxes, modifyMux_tasks, holdListDelete_tasks]
    split_ifs with hm
    · rw [hm]; exact h.mem_iff m t'
    · exact h.mem_iff m' t'
  · simp only [modifyMux_muxes, holdListDelete_muxes, modifyMux_tasks, holdListDelete_tasks]
    rw [(h.hold_nodup t').mem_erase_iff]
    split_ifs with hm
    · simp [hm]
    · simp only [hm, ne_eq, not_false_eq_true, true_and]
      exact h.hold_iff m' t'
  · exact (h.hold_nodup t').erase m
  · simp only [modifyMux_tasks, holdListDelete_tasks] at hw
    simp only [modifyMux_muxes, holdListDelete_muxes]
    split_ifs with hm
    · -- only the caller owned the mutex, and it is not waiting to be woken
      have := h.woken t' w hw
      rw [hm, howner, Option.some.injEq] at this
      subst this
      rw [hready] at hw
      cases hw
    · exact h.woken t' w hw

/-- `OsMuxPostOp` with waiters: the first of them, woken, owns the
mutex with a count of one and takes its hold node. -/
theorem OwnOk.handoff (h : OwnOk s₁) (howner : (s₁.muxes m).owner = some t)
    (hready : (s₁.tasks t).state = .ready) {r : τ} {rest : List τ}
    (hlist : (s₁.muxes m).muxList = r :: rest) :
    OwnOk (OsSchedTaskWake (lockListInsert (holdListDelete
      ((s₁.modifyMux m fun mutex => { mutex with muxCount := mutex.muxCount - 1 }).modifyMux m
        fun mutex => { mutex with muxCount := 1, owner := some r }) m) r m) m r) := by
  have hnd := (h.mux_ok m).nodup
  rw [hlist] at hnd
  obtain ⟨w, hw, hwm⟩ := (h.mem_iff m r).1 (by rw [hlist]; exact List.mem_cons_self)
  have hrt : r ≠ t := fun hrt => h.not_mem_of_ready hready m (by rw [hlist, ← hrt]; exact List.mem_cons_self)
  -- the state of every task after the wake
  have hstate : ∀ t', ((OsSchedTaskWake (lockListInsert (holdListDelete
      ((s₁.modifyMux m fun mutex => { mutex with muxCount := mutex.muxCount - 1 }).modifyMux m
        fun mutex => { mutex with muxCount := 1, owner := some r }) m) r m) m r).tasks t').state =
      if t' = r then .woken w false else (s₁.tasks t').state := by
    intro t'
    split_ifs with ht
    · subst ht
      exact OsSchedTaskWake_state_of_pended (by simpa using hw)
    · rw [OsSchedTaskWake_state_of_ne ht]
      simp
  refine ⟨fun m' => ?_, fun m' t' => ?_, fun m' t' => ?_, fun t' => ?_, fun t' w' hw' => ?_⟩
  · simp only [OsSchedTaskWake_muxes, lockListInsert_muxes, holdListDelete_muxes, modifyMux_muxes]
    split_ifs with hm
    · rw [hlist, List.erase_cons_head]
      refine ⟨by simp, fun _ => le_rfl, (List.nodup_cons.1 hnd).2, fun _ => by simp, ?_⟩
      intro t' ht' hin
      simp only [Option.some.injEq] at ht'
      subst ht'
      exact absurd hin (List.nodup_cons.1 hnd).1
    · exact h.mux_ok m'
  · rw [hstate]
    simp only [OsSchedTaskWake_muxes, lockListInsert_muxes, holdListDelete_muxes, modifyMux_muxes]
    by_cases hm : m' = m <;> by_cases ht : t' = r
    · subst hm ht
      simp only [if_true, hlist, List.erase_cons_head]
      simp [(List.nodup_cons.1 hnd).1]
    · subst hm
      simp only [if_true, ht, if_false, hlist, List.erase_cons_head]
      rw [← h.mem_iff, hlist, List.mem_cons]
      simp [ht]
    · -- the woken task waited on `m` alone
      subst ht
      simp only [hm, if_false, if_true]
      refine ⟨fun hin => ?_, fun ⟨_, hx, _⟩ => by cases hx⟩
      obtain ⟨w'', hw'', hm''⟩ := (h.mem_iff m' t').1 hin
      rw [hw, TaskState.pended.injEq] at hw''
      exact absurd (hm''.symm.trans (hw'' ▸ hwm)) hm
    · simp only [hm, ht, if_false]
      exact h.mem_iff m' t'
  · simp only [OsSchedTaskWake_lockList, lockListInsert_lockList, holdListDelete_tasks,
      OsSchedTaskWake_muxes, lockListInsert_muxes, holdListDelete_muxes, modifyMux_muxes,
      modifyMux_tasks]
    by_cases hm : m' = m <;> by_cases ht : t' = r
    · subst hm ht
      simp
    · subst hm
      simp only [ht, if_false, if_true, (h.hold_nodup t').mem_erase_iff, ne_eq, not_true_eq_false,
        false_and, Option.some.injEq, false_iff]
      exact fun heq => ht heq.symm
    · subst ht
      simp only [hm, if_true, if_false, List.mem_append, (h.hold_nodup t').mem_erase_iff, ne_eq,
        not_false_eq_true, true_and, List.mem_singleton, or_false]
      exact h.hold_iff m' t'
    · simp only [hm, ht, if_false, (h.hold_nodup t').mem_erase_iff, ne_eq, not_false_eq_true,
        true_and]
      exact h.hold_iff m' t'
  · simp only [OsSchedTaskWake_lockList, lockListInsert_lockList, holdListDelete_tasks,
      modifyMux_tasks]
    split_ifs with ht
    · exact nodup_append_singleton ((h.hold_nodup t').erase m) (List.Nodup.not_mem_erase (h.hold_nodup t'))
    · exact (h.hold_nodup t').erase m
  · rw [hstate] at hw'
    simp only [OsSchedTaskWake_muxes, lockListInsert_muxes, holdListDelete_muxes, modifyMux_muxes]
    split_ifs at hw' with ht
    · -- the woken task owns the mutex it waited on
      rw [TaskState.woken.injEq] at hw'
      rw [← hw'.1, hwm]
      simp [ht]
    · split_ifs with hm
      · have := h.woken t' w' hw'
        rw [hm, howner, Option.some.injEq] at this
        subst this
        rw [hready] at hw'
        cases hw'
      · exact h.woken t' w' hw'

/-- `OsMuxPendTimeout`: a pended task leaves its pend list, timed out. -/
theorem OwnOk.OsMuxPendTimeout (h : OwnOk s₁) {w : Wait τ μ} (hw : (s₁.tasks t).state = .pended w) :
    OwnOk (OsMuxPendTimeout s₁ t w) := by
  unfold LiteOsA.Mux.OsMuxPendTimeout
  dsimp only
  refine ⟨fun m' => ?_, fun m' t' => ?_, fun m' t' => ?_, fun t' => ?_, fun t' w' hw' => ?_⟩
  · simp only [modifyTask_muxes, modifyMux_muxes]
    split_ifs with hm
    · have hok := h.mux_ok w.mux
      refine ⟨hok.count_iff, hok.count_le, hok.nodup.erase t, fun hne => ?_, fun o ho hin => ?_⟩
      · exact hok.owned fun hnil => hne (by simp [hnil])
      · exact hok.owner_mem o ho (List.mem_of_mem_erase hin)
    · exact h.mux_ok m'
  · simp only [modifyTask_muxes, modifyMux_muxes, modifyTask_tasks, modifyMux_tasks]
    by_cases hm : m' = w.mux <;> by_cases ht : t' = t
    · subst hm ht
      simp [(h.mux_ok _).nodup.not_mem_erase]
    · subst hm
      simp only [if_true, ht, if_false, ((h.mux_ok _).nodup.mem_erase_iff), ne_eq,
        not_false_eq_true, true_and]
      exact h.mem_iff _ t'
    · -- a pended task waits on its own mutex only
      subst ht
      simp only [hm, if_false, if_true]
      refine ⟨fun hin => ?_, fun ⟨_, hx, _⟩ => by cases hx⟩
      obtain ⟨w'', hw'', hm''⟩ := (h.mem_iff m' t').1 hin
      rw [hw, TaskState.pended.injEq] at hw''
      exact absurd (hw'' ▸ hm''.symm) hm
    · simp only [hm, ht, if_false]
      exact h.mem_iff m' t'
  · simp only [modifyTask_muxes, modifyMux_muxes, modifyTask_tasks, modifyMux_tasks]
    by_cases hm : m' = w.mux <;> by_cases ht : t' = t
    · subst hm ht
      simpa using h.hold_iff _ t'
    · subst hm
      simpa [ht] using h.hold_iff _ t'
    · subst ht
      simpa [hm] using h.hold_iff m' t'
    · simpa [hm, ht] using h.hold_iff m' t'
  · simp only [modifyTask_tasks, modifyMux_tasks]
    split_ifs with ht
    · exact h.hold_nodup t
    · exact h.hold_nodup t'
  · -- the timed-out task is woken with its flag set, so the hand-over fact is not about it
    simp only [modifyTask_tasks, modifyMux_tasks] at hw'
    split_ifs at hw' with ht
    · simp at hw'
    simp only [modifyTask_muxes, modifyMux_muxes]
    split_ifs with hm
    · rw [← hm]; exact h.woken t' w' hw'
    · exact h.woken t' w' hw'

omit [DecidableEq μ] in
/-- A task that waits on no mutex goes back to being ready. -/
theorem OwnOk.setReady (h : OwnOk s₁) (hnp : ∀ w, (s₁.tasks t).state ≠ .pended w) :
    OwnOk (s₁.modifyTask t fun task => { task with state := .ready }) where
  mux_ok := h.mux_ok
  mem_iff m' t' := by
    simp only [modifyTask_muxes, modifyTask_tasks]
    split_ifs with ht
    · subst ht
      refine ⟨fun hin => ?_, fun ⟨_, hx, _⟩ => by cases hx⟩
      obtain ⟨w, hw, -⟩ := (h.mem_iff m' t').1 hin
      exact absurd hw (hnp w)
    · exact h.mem_iff m' t'
  hold_iff m' t' := by
    simp only [modifyTask_muxes, modifyTask_tasks]
    split_ifs with ht
    · subst ht
      exact h.hold_iff m' t'
    · exact h.hold_iff m' t'
  hold_nodup t' := by
    simp only [modifyTask_tasks]
    split_ifs with ht
    · exact h.hold_nodup t
    · exact h.hold_nodup t'
  woken t' w hw := by
    simp only [modifyTask_tasks] at hw
    split_ifs at hw with ht
    exact h.woken t' w hw

-- ========================================================== the calls

omit [DecidableEq τ] in
/-- The type of a mutex its owner pends on: not recursive (that is a
recount) and not error-checking (that is refused), so normal. -/
theorem type_normal_of_self {mutex : LosMux τ} {t : τ} (howner : mutex.owner = some t)
    (hrec : ¬(mutex.owner = some t ∧ mutex.attr.type = LOS_MUX_RECURSIVE))
    (hcheck : mutex.attr.type = LOS_MUX_ERRORCHECK → mutex.owner ≠ some t) :
    mutex.attr.type = LOS_MUX_NORMAL := by
  cases htp : mutex.attr.type with
  | LOS_MUX_NORMAL => rfl
  | LOS_MUX_RECURSIVE => exact absurd ⟨howner, htp⟩ hrec
  | LOS_MUX_ERRORCHECK => exact absurd howner (hcheck htp)

theorem OwnOk.OsMuxPendOp (h : OwnOk s₁) (hready : (s₁.tasks t).state = .ready)
    (hcheck : (s₁.muxes m).attr.type = LOS_MUX_ERRORCHECK → (s₁.muxes m).owner ≠ some t)
    (hroom : (s₁.muxes m).owner = some t → (s₁.muxes m).muxCount + 1 < 2 ^ 16)
    (timeout : Nat) : OwnOk (OsMuxPendOp s₁ t m timeout).2 := by
  unfold LiteOsA.Mux.OsMuxPendOp
  dsimp only
  split
  next hcount =>
    -- the caller takes the free mutex; a ceiling boost moves nothing
    have h₀ : OwnOk (lockListInsert _ t m) := h.acquire hcount
    split
    · exact h₀.congr ((Places.bitmapSet _ _ _).trans (Places.OsSchedModifyTaskSchedParam _ _ _))
    · exact h₀
  split
  next hrec =>
    -- one more hold of a recursive mutex the caller owns
    have hok := h.mux_ok m
    dsimp only
    refine h.modifyMux ?_ ?_ ?_
    · -- the admissible run leaves room for the hold: no wrap
      refine ⟨?_, fun hne => absurd hrec.2 hne, hok.nodup, hok.owned, hok.owner_mem⟩
      simp [hrec.1, u16_of_lt (hroom hrec.1)]
    · rfl
    · rfl
  next hrec =>
  split
  · exact h
  split
  · exact h
  next o howner =>
    -- the inheritance boost moves nothing, then the caller pends
    have hX := Places.OsMuxBitmapSet s₁ m t o
    have h₁ := h.congr hX
    split
    · exact h₁
    next i hi =>
      refine h₁.pend (by rw [hX.muxes]; exact howner) (by rw [hX.state]; exact hready) ?_
        (OsSchedLockPendFindPos_le hi) _
      rintro rfl
      rw [hX.muxes]
      exact type_normal_of_self howner hrec hcheck

theorem OwnOk.OsMuxLockUnsafe (h : OwnOk s₁) (hready : (s₁.tasks t).state = .ready) (m : μ)
    (hroom : (s₁.muxes m).owner = some t → (s₁.muxes m).muxCount + 1 < 2 ^ 16)
    (timeout : Nat) : OwnOk (OsMuxLockUnsafe s₁ t m timeout).2 := by
  unfold LiteOsA.Mux.OsMuxLockUnsafe
  dsimp only
  split
  · exact h
  split
  · exact h
  split
  · exact h
  next hcheck =>
    exact h.OsMuxPendOp hready (fun htp hown => hcheck ⟨htp, hown⟩) hroom timeout

theorem OwnOk.OsMuxTrylockUnsafe (h : OwnOk s₁) (hready : (s₁.tasks t).state = .ready) (m : μ)
    (hroom : (s₁.muxes m).owner = some t → (s₁.muxes m).muxCount + 1 < 2 ^ 16) :
    OwnOk (OsMuxTrylockUnsafe s₁ t m).2 := by
  unfold LiteOsA.Mux.OsMuxTrylockUnsafe
  dsimp only
  split
  · exact h
  split
  · exact h
  split
  · exact h
  next hbusy =>
    -- an error-checking mutex gets here only when it has no owner
    refine h.OsMuxPendOp hready (fun htp hown => hbusy ⟨by simp [hown], Or.inr ?_⟩) hroom 0
    rw [htp]
    decide

/-- `OsMuxPostOp` after the last hold is counted off. -/
theorem OwnOk.OsMuxPostOp (h : OwnOk s₁) (howner : (s₁.muxes m).owner = some t)
    (hready : (s₁.tasks t).state = .ready) (hone : (s₁.muxes m).muxCount = 1)
    (hX : Places (s₁.modifyMux m fun mutex => { mutex with muxCount := mutex.muxCount - 1 }) s₂) :
    OwnOk (OsMuxPostOp s₂ t m) := by
  have hlist : (s₂.muxes m).muxList = (s₁.muxes m).muxList := by
    rw [hX.muxes]
    simp
  unfold LiteOsA.Mux.OsMuxPostOp
  dsimp only
  split
  next hnil =>
    exact (h.release howner hready hone (hlist ▸ hnil)).congr ((hX.holdListDelete m).modifyMux m _)
  next r rest hcons =>
    exact (h.handoff howner hready (hlist ▸ hcons)).congr
      ((((hX.trans (Places.postInherit _ t r m _)).modifyMux m _).holdListDelete m).lockListInsert r m
        |>.OsSchedTaskWake m r)

theorem OwnOk.OsMuxUnlockUnsafe (h : OwnOk s₁) (hready : (s₁.tasks t).state = .ready) (m : μ) :
    OwnOk (OsMuxUnlockUnsafe s₁ t m).2 := by
  unfold LiteOsA.Mux.OsMuxUnlockUnsafe
  dsimp only
  split
  · exact h
  split
  · exact h
  split
  · exact h
  split
  · exact h
  next hne howner hcount =>
  have hok := h.mux_ok m
  rw [not_not] at howner
  split
  next hrec =>
    -- a recursive mutex still held
    dsimp only
    refine h.modifyMux ?_ ?_ ?_
    · refine ⟨?_, fun hne => absurd hrec.2 hne, hok.nodup, hok.owned, hok.owner_mem⟩
      simp [hrec.1, howner]
    · rfl
    · rfl
  next hrec =>
    -- the last hold: the count was one
    have hone : (s₁.muxes m).muxCount = 1 := by
      by_cases htp : (s₁.muxes m).attr.type = LOS_MUX_RECURSIVE
      · have : ¬(s₁.muxes m).muxCount - 1 ≠ 0 := fun h' => hrec ⟨h', htp⟩
        omega
      · have := hok.count_le htp
        omega
    exact h.OsMuxPostOp howner hready hone (Places.unlockCeiling _ _ _)

omit [DecidableEq μ] in
theorem OwnOk.OsMuxPendResume (h : OwnOk s₁) {w : Wait τ μ} {timedOut : Bool}
    (hw : (s₁.tasks t).state = .woken w timedOut) : OwnOk (OsMuxPendResume s₁ t w timedOut).2 := by
  have h₀ := h.setReady fun w' hw' => by rw [hw] at hw'; cases hw'
  unfold LiteOsA.Mux.OsMuxPendResume
  dsimp only
  split
  · exact h₀.congr (Places.OsMuxBitmapRestore _ _ _ _)
  · exact h₀

omit [DecidableEq τ] in
/-- `LOS_MuxInit` on a mutex nobody holds: a new attribute, and, if it
is accepted, a fresh idle mutex. -/
theorem OwnOk.LOS_MuxInit (h : OwnOk s₁) (hcount : (s₁.muxes m).muxCount = 0)
    (attr : Option LosMuxAttr) : OwnOk (LOS_MuxInit s₁ m attr).2 := by
  obtain ⟨hnone, hlist, -⟩ := h.idle_of_count hcount
  have h₀ : OwnOk (s₁.modifyMux m fun mutex => { mutex with attr := attr.getD LOS_MuxAttrInit }) :=
    h.modifyMux (MuxOk.idle hcount hnone hlist) rfl rfl
  unfold LiteOsA.Mux.LOS_MuxInit
  dsimp only
  split
  · exact h₀
  · dsimp only
    refine h₀.modifyMux ?_ ?_ ?_
    · exact MuxOk.idle rfl rfl rfl
    · simp [hnone]
    · simp [hlist]

omit [DecidableEq τ] in
theorem OwnOk.LOS_MuxDestroy (h : OwnOk s₁) (m : μ) : OwnOk (LOS_MuxDestroy s₁ m).2 := by
  unfold LiteOsA.Mux.LOS_MuxDestroy
  dsimp only
  split
  · exact h
  split
  · exact h
  next hcount =>
    -- only an idle mutex is zeroed
    obtain ⟨hnone, hlist, -⟩ := h.idle_of_count (not_not.mp hcount)
    dsimp only
    refine h.modifyMux ?_ ?_ ?_
    · exact MuxOk.idle rfl rfl rfl
    · rw [hnone]; rfl
    · rw [hlist]; rfl

-- ================================================================ runs

theorem OwnOk.step (h : OwnOk s₁) (hs : Step Call.Admissible s₁ s₂) : OwnOk s₂ := by
  cases hs with
  | call c hready hadm =>
      cases c with
      | LOS_MuxInit m attr => exact h.LOS_MuxInit hadm attr
      | LOS_MuxDestroy m => exact h.LOS_MuxDestroy m
      | LOS_MuxLock m timeout => exact h.OsMuxLockUnsafe hready m hadm timeout
      | LOS_MuxTrylock m => exact h.OsMuxTrylockUnsafe hready m hadm
      | LOS_MuxUnlock m => exact h.OsMuxUnlockUnsafe hready m
  | timeout hw _ => exact h.OsMuxPendTimeout hw
  | resume hw => exact h.OsMuxPendResume hw

omit [DecidableEq μ] [DecidableEq τ] in
theorem OwnOk.init {base : τ → Nat} {attr : μ → LosMuxAttr} (h₀ : Init base attr s₁) : OwnOk s₁ where
  mux_ok m := by rw [(h₀.2 m).1]; exact MuxOk.idle rfl rfl rfl
  mem_iff m t := by simp [(h₀.2 m).1, h₀.1 t]
  hold_iff m t := by simp [(h₀.2 m).1, h₀.1 t]
  hold_nodup t := by rw [h₀.1 t]; exact List.nodup_nil
  woken t w hw := by rw [h₀.1 t] at hw; cases hw

/-- Every state of an admissible run is `OwnOk`. -/
theorem OwnOk.of_reach {base : τ → Nat} {attr : μ → LosMuxAttr}
    (hs : Reach (Init base attr) (Step Call.Admissible) s₁) : OwnOk s₁ :=
  Reach.inv OwnOk (fun _ h₀ => OwnOk.init h₀) (fun _ _ h hs => h.step hs) hs

-- ====================================================== what calls return

/-- `OsMuxPendOp` answers `LOS_OK` only to the task that then owns the
mutex: a blocked caller gets no answer here. -/
theorem OsMuxPendOp_owner (s : MuxSys τ μ) (t : τ) (m : μ) (timeout : Nat) :
    (OsMuxPendOp s t m timeout).1 = some LOS_OK → ((OsMuxPendOp s t m timeout).2.muxes m).owner = some t := by
  unfold LiteOsA.Mux.OsMuxPendOp
  dsimp only
  split
  · -- the caller took the free mutex; the ceiling boost writes no mutex
    intro _
    split <;> simp [bitmapSet, OsSchedModifyTaskSchedParam]
  split
  next hrec =>
    intro _
    simp [hrec.1]
  split
  · simp [LOS_EINVAL, LOS_OK]
  split
  · simp [LOS_NOK, LOS_OK]
  split
  · simp [LOS_NOK, LOS_OK]
  · simp

/-- `OsMuxPendOp` on a mutex whose count is 0 gives it to the caller,
whoever the owner field names. -/
theorem OsMuxPendOp_of_free {s : MuxSys τ μ} {t : τ} {m : μ} (hcount : (s.muxes m).muxCount = 0)
    (timeout : Nat) :
    (OsMuxPendOp s t m timeout).1 = some LOS_OK ∧ ((OsMuxPendOp s t m timeout).2.muxes m).owner = some t := by
  unfold LiteOsA.Mux.OsMuxPendOp
  dsimp only
  rw [if_pos hcount]
  split <;> simp [bitmapSet, OsSchedModifyTaskSchedParam]

theorem OsMuxLockUnsafe_owner (s : MuxSys τ μ) (t : τ) (m : μ) (timeout : Nat) :
    (OsMuxLockUnsafe s t m timeout).1 = some LOS_OK →
      ((OsMuxLockUnsafe s t m timeout).2.muxes m).owner = some t := by
  unfold LiteOsA.Mux.OsMuxLockUnsafe
  dsimp only
  split
  · simp [LOS_EBADF, LOS_OK]
  split
  · simp [LOS_EINVAL, LOS_OK]
  split
  · simp [LOS_EDEADLK, LOS_OK]
  · exact OsMuxPendOp_owner s t m timeout

theorem OsMuxTrylockUnsafe_owner (s : MuxSys τ μ) (t : τ) (m : μ) :
    (OsMuxTrylockUnsafe s t m).1 = some LOS_OK → ((OsMuxTrylockUnsafe s t m).2.muxes m).owner = some t := by
  unfold LiteOsA.Mux.OsMuxTrylockUnsafe
  dsimp only
  split
  · simp [LOS_EBADF, LOS_OK]
  split
  · simp [LOS_EINVAL, LOS_OK]
  split
  · simp [LOS_EBUSY, LOS_OK]
  · exact OsMuxPendOp_owner s t m 0

omit [DecidableEq μ] in
/-- What a blocked lock call answers when its task runs again. -/
theorem OsMuxPendResume_ret (s : MuxSys τ μ) (t : τ) (w : Wait τ μ) (timedOut : Bool) :
    (OsMuxPendResume s t w timedOut).1 = if timedOut then LOS_ETIMEDOUT else LOS_OK := by
  unfold LiteOsA.Mux.OsMuxPendResume
  dsimp only
  split <;> rfl

omit [DecidableEq μ] in
/-- A blocked lock call comes back with `LOS_OK` only to the task the
mutex was handed to, which still owns it. -/
theorem OsMuxPendResume_owner (h : OwnOk s₁) {w : Wait τ μ} {timedOut : Bool}
    (hw : (s₁.tasks t).state = .woken w timedOut) :
    (OsMuxPendResume s₁ t w timedOut).1 = LOS_OK →
      ((OsMuxPendResume s₁ t w timedOut).2.muxes w.mux).owner = some t := by
  have hmuxes : (OsMuxPendResume s₁ t w timedOut).2.muxes = s₁.muxes := by
    unfold LiteOsA.Mux.OsMuxPendResume
    dsimp only
    split
    · rw [(Places.OsMuxBitmapRestore _ _ _ _).muxes]
      rfl
    · rfl
  intro hret
  rw [hmuxes]
  cases timedOut with
  | true =>
    rw [OsMuxPendResume_ret] at hret
    simp [LOS_ETIMEDOUT, LOS_OK] at hret
  | false => exact h.woken t w hw

/-- `OsMuxPostOp` on a mutex with waiters: the first is woken and owns
the mutex once, and leaves the pend list. -/
theorem OsMuxPostOp_cons {r : τ} {rest : List τ} (hlist : (s₁.muxes m).muxList = r :: rest)
    {w : Wait τ μ} (hw : (s₁.tasks r).state = .pended w) :
    ((OsMuxPostOp s₁ t m).muxes m).owner = some r ∧ ((OsMuxPostOp s₁ t m).muxes m).muxCount = 1 ∧
      ((OsMuxPostOp s₁ t m).muxes m).muxList = rest ∧
      ((OsMuxPostOp s₁ t m).tasks r).state = .woken w false := by
  unfold LiteOsA.Mux.OsMuxPostOp
  dsimp only
  rw [hlist]
  dsimp only
  have hP := Places.postInherit s₁ t r m ((s₁.muxes m).attr.protocol = LOS_MUX_PRIO_INHERIT)
  refine ⟨by simp, by simp, ?_, OsSchedTaskWake_state_of_pended ?_⟩
  · simp only [OsSchedTaskWake_muxes, lockListInsert_muxes, holdListDelete_muxes, modifyMux_muxes,
      if_true]
    rw [hP.muxes, hlist, List.erase_cons_head]
  · simp only [lockListInsert_state, holdListDelete_tasks, modifyMux_tasks]
    rw [hP.state]
    exact hw

/-- `OsMuxPostOp` after the last hold is counted off, on a mutex with
waiters. -/
theorem OsMuxPostOp_handoff {r : τ} {rest : List τ} (hlist : (s₁.muxes m).muxList = r :: rest)
    {w : Wait τ μ} (hw : (s₁.tasks r).state = .pended w)
    (hX : Places (s₁.modifyMux m fun mutex => { mutex with muxCount := mutex.muxCount - 1 }) s₂) :
    ((OsMuxPostOp s₂ t m).muxes m).owner = some r ∧ ((OsMuxPostOp s₂ t m).muxes m).muxCount = 1 ∧
      ((OsMuxPostOp s₂ t m).muxes m).muxList = rest ∧
      ((OsMuxPostOp s₂ t m).tasks r).state = .woken w false :=
  OsMuxPostOp_cons (by rw [hX.muxes]; simp [hlist]) (by rw [hX.state]; simpa using hw)

/-- An unlock that drops the last hold of a mutex with waiters hands it
to the first waiter, counted once, and wakes it. -/
theorem OsMuxUnlockUnsafe_handoff (h : OwnOk s₁) (hone : (s₁.muxes m).muxCount = 1) {r : τ}
    {rest : List τ} (hlist : (s₁.muxes m).muxList = r :: rest) :
    (OsMuxUnlockUnsafe s₁ t m).1 = LOS_OK → ∃ w,
      ((OsMuxUnlockUnsafe s₁ t m).2.muxes m).owner = some r ∧
      ((OsMuxUnlockUnsafe s₁ t m).2.muxes m).muxCount = 1 ∧
      ((OsMuxUnlockUnsafe s₁ t m).2.muxes m).muxList = rest ∧
      ((OsMuxUnlockUnsafe s₁ t m).2.tasks r).state = .woken w false := by
  obtain ⟨w, hw, -⟩ := (h.mem_iff m r).1 (by rw [hlist]; exact List.mem_cons_self)
  unfold LiteOsA.Mux.OsMuxUnlockUnsafe
  dsimp only
  -- every refusal answers another code
  split
  · simp [LOS_EBADF, LOS_OK]
  split
  · simp [LOS_EINVAL, LOS_OK]
  split
  · simp [LOS_EPERM, LOS_OK]
  split
  · simp [LOS_EPERM, LOS_OK]
  split
  next hrec => exact absurd hrec.1 (by simp [hone])
  intro _
  exact ⟨w, OsMuxPostOp_handoff hlist hw (Places.unlockCeiling _ _ _)⟩

-- ====================================================== the run theorem

/-- Ownership along every admissible run: each mutex is counted exactly
when owned, more than once only if recursive, its waiters are pended on
it, once each, and include the owner only on a normal mutex; its hold
node is linked in its owner's `lockList` and nowhere else. A lock call
answers `LOS_OK` only to the task that then owns the mutex, at once or
when it runs again; and the unlock that drops the last hold of a mutex
with waiters hands it to the first, counted once, and wakes it. -/
theorem mux_ownership {base : τ → Nat} {attr : μ → LosMuxAttr} {s : MuxSys τ μ}
    (hs : Reach (Init base attr) (Step Call.Admissible) s) :
    (∀ m, ((s.muxes m).muxCount = 0 ↔ (s.muxes m).owner = none) ∧
      ((s.muxes m).attr.type ≠ LOS_MUX_RECURSIVE → (s.muxes m).muxCount ≤ 1) ∧
      (∀ t ∈ (s.muxes m).muxList, ∃ w, (s.tasks t).state = .pended w ∧ w.mux = m) ∧
      (s.muxes m).muxList.Nodup ∧
      (∀ t, (s.muxes m).owner = some t → t ∈ (s.muxes m).muxList →
        (s.muxes m).attr.type = LOS_MUX_NORMAL) ∧
      ∀ t, m ∈ (s.tasks t).lockList ↔ (s.muxes m).owner = some t) ∧
    (∀ t m timeout, (OsMuxLockUnsafe s t m timeout).1 = some LOS_OK →
      ((OsMuxLockUnsafe s t m timeout).2.muxes m).owner = some t) ∧
    (∀ t m, (OsMuxTrylockUnsafe s t m).1 = some LOS_OK →
      ((OsMuxTrylockUnsafe s t m).2.muxes m).owner = some t) ∧
    (∀ t w timedOut, (s.tasks t).state = .woken w timedOut →
      (OsMuxPendResume s t w timedOut).1 = LOS_OK →
      ((OsMuxPendResume s t w timedOut).2.muxes w.mux).owner = some t) ∧
    (∀ t m r rest, (s.muxes m).muxCount = 1 → (s.muxes m).muxList = r :: rest →
      (OsMuxUnlockUnsafe s t m).1 = LOS_OK → ∃ w,
        ((OsMuxUnlockUnsafe s t m).2.muxes m).owner = some r ∧
        ((OsMuxUnlockUnsafe s t m).2.muxes m).muxCount = 1 ∧
        ((OsMuxUnlockUnsafe s t m).2.muxes m).muxList = rest ∧
        ((OsMuxUnlockUnsafe s t m).2.tasks r).state = .woken w false) := by
  have h := OwnOk.of_reach hs
  refine ⟨fun m => ?_, OsMuxLockUnsafe_owner s, OsMuxTrylockUnsafe_owner s,
    fun t w timedOut hw => OsMuxPendResume_owner h hw,
    fun t m r rest hone hlist => OsMuxUnlockUnsafe_handoff h hone hlist⟩
  have hok := h.mux_ok m
  exact ⟨hok.count_iff, hok.count_le, fun t ht => (h.mem_iff m t).1 ht, hok.nodup, hok.owner_mem,
    fun t => h.hold_iff m t⟩

/-- Task 0 holds a default mutex and task 1 waits on it. -/
theorem mux_ownership_waiter :
    let s₀ : MuxSys (Fin 2) (Fin 1) :=
      ⟨fun _ => ⟨20, 0, .ready, []⟩, fun _ => ⟨LOS_MuxAttrInit, 0, none, [], OS_MUX_MAGIC⟩⟩
    let s := callStep (callStep s₀ 0 (LOS_MuxLock 0 LOS_WAIT_FOREVER)) 1 (LOS_MuxLock 0 LOS_WAIT_FOREVER)
    Reach (Init (fun _ => 20) fun _ => LOS_MuxAttrInit) (Step Call.Admissible) s ∧
      ∃ w, (s.tasks 1).state = .pended w ∧ w.mux = 0 := by
  intro s₀ s
  have hs : Reach (Init (fun _ => 20) fun _ => LOS_MuxAttrInit) (Step Call.Admissible) s :=
    .step (.step (.init ⟨fun _ => rfl, fun _ => ⟨rfl, rfl⟩⟩) (.call _ rfl (by trivial)))
      (.call _ (by decide) (by trivial))
  exact ⟨hs, ((mux_ownership hs).1 0).2.2.1 1 (by decide)⟩

-- ============================================= where the bookkeeping breaks

/-- A task locks a normal mutex and locks it again: `OsMuxPendOp` pends
the owner on its own mutex, where it waits for good. -/
theorem mux_normal_relock_self_pend :
    let attr : Fin 1 → LosMuxAttr := fun _ =>
      ⟨LOS_MUX_PRIO_NONE, OS_TASK_PRIORITY_LOWEST, LOS_MUX_NORMAL⟩
    let s₀ : MuxSys (Fin 1) (Fin 1) :=
      ⟨fun _ => ⟨20, 0, .ready, []⟩, fun m => ⟨attr m, 0, none, [], OS_MUX_MAGIC⟩⟩
    let s := callStep (callStep s₀ 0 (LOS_MuxLock 0 LOS_WAIT_FOREVER)) 0 (LOS_MuxLock 0 LOS_WAIT_FOREVER)
    Reach (Init (fun _ => 20) attr) (Step Call.Admissible) s ∧
      (s.muxes 0).owner = some 0 ∧ (s.muxes 0).muxList = [0] ∧
      (s.tasks 0).state = .pended ⟨0, false, 0⟩ := by
  intro attr s₀ s
  refine ⟨?_, by decide, by decide, by decide⟩
  exact .step (.step (.init ⟨fun _ => rfl, fun _ => ⟨rfl, by decide⟩⟩) (.call _ rfl (by trivial)))
    (.call _ (by decide) (by trivial))

/-- The 65536th hold of a recursive mutex: the count wraps round to 0
with the owner kept, and another task's lock then takes the mutex as a
free one, while the first owner still holds it. -/
theorem OsMuxPendOp_wrap {s : MuxSys τ μ} {t u : τ} {m : μ} (ht : (s.muxes m).owner = some t)
    (hrec : (s.muxes m).attr.type = LOS_MUX_RECURSIVE) (hcount : (s.muxes m).muxCount = 0xFFFF)
    (timeout timeout' : Nat) :
    (OsMuxPendOp s t m timeout).1 = some LOS_OK ∧
      ((OsMuxPendOp s t m timeout).2.muxes m).muxCount = 0 ∧
      ((OsMuxPendOp s t m timeout).2.muxes m).owner = some t ∧
      (OsMuxPendOp (OsMuxPendOp s t m timeout).2 u m timeout').1 = some LOS_OK ∧
      ((OsMuxPendOp (OsMuxPendOp s t m timeout).2 u m timeout').2.muxes m).owner = some u := by
  -- the relock: `muxCount` is not 0, and the caller owns the recursive mutex
  have hrelock : OsMuxPendOp s t m timeout = (some LOS_OK, s.modifyMux m fun mutex =>
      { mutex with muxCount := u16 (mutex.muxCount + 1) }) := by
    unfold LiteOsA.Mux.OsMuxPendOp
    simp [hcount, ht, hrec]
  have hwrapped : ((s.modifyMux m fun mutex => { mutex with muxCount := u16 (mutex.muxCount + 1) }).muxes
      m).muxCount = 0 := by
    simp [hcount, u16]
  rw [hrelock]
  refine ⟨rfl, hwrapped, by simp [ht], ?_⟩
  -- the next lock finds the count at 0 and takes the mutex
  exact OsMuxPendOp_of_free hwrapped timeout'

/-- `LOS_MuxInit` on a mutex its caller holds: the mutex has no owner,
yet its hold node stays in the caller's `lockList`. -/
theorem mux_reinit_held :
    let s₀ : MuxSys (Fin 1) (Fin 1) :=
      ⟨fun _ => ⟨20, 0, .ready, []⟩, fun _ => ⟨LOS_MuxAttrInit, 0, none, [], OS_MUX_MAGIC⟩⟩
    let s := callStep (callStep s₀ 0 (LOS_MuxLock 0 LOS_WAIT_FOREVER)) 0 (.LOS_MuxInit 0 none)
    Reachable (fun _ => 20) (fun _ => LOS_MuxAttrInit) s ∧
      (s.muxes 0).owner = none ∧ 0 ∈ (s.tasks 0).lockList := by
  intro s₀ s
  refine ⟨?_, by decide, by decide⟩
  exact .step (.step (.init ⟨fun _ => rfl, fun _ => ⟨rfl, rfl⟩⟩) (.call _ rfl (by trivial)))
    (.call _ (by decide) (by trivial))

end LiteOsA.Mux
