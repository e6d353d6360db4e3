/-
Timer IDs: which block an ID names, and when an ID comes back.

In every state of every run a block's ID is its index plus a multiple
of `LOSCFG_BASE_CORE_SWTMR_LIMIT`, below `OS_SWTMR_MAX_TIMERID`
(`IdsOk`, `ids_ok_run`), and the calls that take an ID check it only
against the block it names (`withTimer`). Only the expiry of a one-off
timer moves a block's ID on (`OsWakePendTimeSwtmr_id`).
`LOS_SwtmrDelete` frees a block under the ID it had
(`LOS_SwtmrDelete_named`), so the next `LOS_SwtmrCreate` that takes the
block hands the same ID out again (`id_reissued_after_delete`), and
whoever still holds it then stops and deletes the new timer.

`OsSwtmrRecycle` passes each block's index as its ID, which is the
block's ID only until the block's first one-off expiry. A block whose
ID has moved on is left as it is, timer and owner
(`OsSwtmrRecycle_keeps_moved`); one whose ID is still its index is
freed (`OsSwtmrRecycle_frees_named`); no other process's block changes
(`OsSwtmrRecycle_other`).
-/
import LiteOsA.Core.SwtmrOwner

namespace LiteOsA.Swtmr

open SortLink

variable {L N C : Nat}

-- ------------------------------------------------------------ the blocks

namespace SwtmrSys

@[simp] theorem setCb_cb (s : SwtmrSys) (i : Nat) (c : SWTMR_CTRL_S) :
    (s.setCb i c).cb = Function.update s.cb i c := rfl

@[simp] theorem setCb_freeList (s : SwtmrSys) (i : Nat) (c : SWTMR_CTRL_S) :
    (s.setCb i c).freeList = s.freeList := rfl

@[simp] theorem setScan_cb (s : SwtmrSys) (cpu : Nat) (p : Option (Nat × Option Nat)) :
    (s.setScan cpu p).cb = s.cb := rfl

end SwtmrSys

@[simp] theorem OsSwtmrStart_cb_of_ne (ctx : Ctx) (s : SwtmrSys) {i j : Nat} (h : j ≠ i) :
    (OsSwtmrStart N C ctx s i).cb j = s.cb j := by
  simp [OsSwtmrStart, h]

@[simp] theorem OsSwtmrStop_cb_of_ne (s : SwtmrSys) {i j : Nat} (h : j ≠ i) :
    (OsSwtmrStop s i).cb j = s.cb j := by
  simp [OsSwtmrStop, h]

@[simp] theorem OsSwtmrDelete_cb_of_ne (s : SwtmrSys) {i j : Nat} (h : j ≠ i) :
    (OsSwtmrDelete s i).cb j = s.cb j := by
  simp [OsSwtmrDelete, h]

@[simp] theorem OsSwtmrStart_id (ctx : Ctx) (s : SwtmrSys) (i j : Nat) :
    ((OsSwtmrStart N C ctx s i).cb j).usTimerID = (s.cb j).usTimerID := by
  by_cases h : j = i
  · subst h
    simp [OsSwtmrStart]
  · simp [h]

@[simp] theorem OsSwtmrStop_id (s : SwtmrSys) (i j : Nat) :
    ((OsSwtmrStop s i).cb j).usTimerID = (s.cb j).usTimerID := by
  by_cases h : j = i
  · subst h
    simp [OsSwtmrStop]
  · simp [h]

@[simp] theorem OsSwtmrDelete_id (s : SwtmrSys) (i j : Nat) :
    ((OsSwtmrDelete s i).cb j).usTimerID = (s.cb j).usTimerID := by
  by_cases h : j = i
  · subst h
    simp [OsSwtmrDelete]
  · simp [h]

@[simp] theorem OsSwtmrDelete_freeList (s : SwtmrSys) (i : Nat) :
    (OsSwtmrDelete s i).freeList = s.freeList ++ [i] := rfl

@[simp] theorem OsSwtmrStop_freeList (s : SwtmrSys) (i : Nat) :
    (OsSwtmrStop s i).freeList = s.freeList := rfl

/-- The checks of `withTimer` pass for the ID a block holds. -/
theorem withTimer_named {α : Type} {s : SwtmrSys} {swtmrID : Nat} (f : Nat → Nat × α) (d : α)
    (hid : swtmrID < OS_SWTMR_MAX_TIMERID L) (hcur : (s.cb (swtmrID % L)).usTimerID = swtmrID) :
    withTimer L s swtmrID f d = f (swtmrID % L) := by
  simp [withTimer, Nat.not_le.2 hid, hcur]

/-- What holds of the error and of `f` at the block the ID names holds
of `withTimer`. -/
theorem withTimer_cases {α : Type} (P : Nat × α → Prop) {s : SwtmrSys} {swtmrID : Nat}
    {f : Nat → Nat × α} {d : α} (herr : P (LOS_ERRNO_SWTMR_ID_INVALID, d)) (hf : P (f (swtmrID % L))) :
    P (withTimer L s swtmrID f d) := by
  dsimp only [withTimer]
  split_ifs
  · exact herr
  · exact herr
  · exact hf

/-- No call changes a block's ID. -/
@[simp] theorem callStep_id (ctx : Ctx) (s : SwtmrSys) (c : Call) (j : Nat) :
    ((callStep L N C ctx s c).2.cb j).usTimerID = (s.cb j).usTimerID := by
  cases c with
  | LOS_SwtmrCreate interval mode =>
    simp only [callStep, LOS_SwtmrCreate]
    split_ifs
    · rfl
    · rfl
    · split
      · rfl
      · next i rest _ =>
        by_cases h : j = i
        · subst h
          simp
        · simp [h]
  | LOS_SwtmrStart swtmrID =>
    refine withTimer_cases (fun r : Nat × SwtmrSys => (r.2.cb j).usTimerID = (s.cb j).usTimerID) rfl ?_
    dsimp only
    split_ifs <;> simp
  | LOS_SwtmrStop swtmrID =>
    refine withTimer_cases (fun r : Nat × SwtmrSys => (r.2.cb j).usTimerID = (s.cb j).usTimerID) rfl ?_
    dsimp only
    split_ifs <;> simp
  | LOS_SwtmrDelete swtmrID =>
    refine withTimer_cases (fun r : Nat × SwtmrSys => (r.2.cb j).usTimerID = (s.cb j).usTimerID) rfl ?_
    dsimp only
    split_ifs <;> simp
  | LOS_SwtmrTimeGet swtmrID => rfl

/-- The wake of a one-off timer moves its ID on by the limit, or back to
its index past the top; no other wake changes an ID. -/
theorem OsWakePendTimeSwtmr_id (ctx : Ctx) (s : SwtmrSys) (cpu i : Nat) (queued : Bool) (j : Nat) :
    ((OsWakePendTimeSwtmr L N C ctx s cpu i queued).cb j).usTimerID =
      if j = i ∧ (s.cb i).ucMode = LOS_SWTMR_MODE_ONCE then
        (if (s.cb i).usTimerID < OS_SWTMR_MAX_TIMERID L - L then (s.cb i).usTimerID + L
          else (s.cb i).usTimerID % L)
      else (s.cb j).usTimerID := by
  have hmodes : LOS_SWTMR_MODE_NO_SELFDELETE ≠ LOS_SWTMR_MODE_ONCE := by decide
  by_cases hj : j = i
  · subst hj
    by_cases honce : (s.cb j).ucMode = LOS_SWTMR_MODE_ONCE
    · cases queued <;> simp [OsWakePendTimeSwtmr, honce]
    · by_cases hself : (s.cb j).ucMode = LOS_SWTMR_MODE_NO_SELFDELETE
      · cases queued <;> simp [OsWakePendTimeSwtmr, hself, hmodes]
      · cases queued <;> simp [OsWakePendTimeSwtmr, honce, hself]
  · cases queued <;> simp [OsWakePendTimeSwtmr, hj] <;> split_ifs <;> simp [hj]

-- ------------------------------------------------------------ IDs name blocks

/-- Every block's ID names it: the block's index plus a multiple of the
limit, below `OS_SWTMR_MAX_TIMERID`. -/
def IdsOk (L : Nat) (s : SwtmrSys) : Prop :=
  ∀ i < L, (s.cb i).usTimerID % L = i ∧ (s.cb i).usTimerID < OS_SWTMR_MAX_TIMERID L

/-- The top of the IDs is at least the limit while the limit fits in a
`UINT16`. -/
theorem le_max_timerid (hL : L ≤ 0xFFFF) : L ≤ OS_SWTMR_MAX_TIMERID L := by
  rcases Nat.eq_zero_or_pos L with h | h
  · simp [h]
  · have hq : 1 ≤ 0xFFFF / L := (Nat.le_div_iff_mul_le h).2 (by omega)
    unfold OS_SWTMR_MAX_TIMERID
    calc L = 1 * L := (one_mul L).symm
      _ ≤ 0xFFFF / L * L := Nat.mul_le_mul_right L hq

theorem IdsOk.init (hL : L ≤ 0xFFFF) : IdsOk L (OsSwtmrInit L) := by
  intro i hi
  have := le_max_timerid hL
  exact ⟨Nat.mod_eq_of_lt hi, by simp [OsSwtmrInit]; omega⟩

/-- A step keeps every block named by its ID: the one-off wake, the only
step that moves an ID, adds the limit below the top and goes back to
the index past it. -/
theorem IdsOk.step (hL : L ≤ 0xFFFF) {s s' : SwtmrSys} {e : Event} (h : IdsOk L s)
    (hs : Step L N C s e s') : IdsOk L s' := by
  cases hs with
  | call => intro i hi; simpa using h i hi
  | scanFirst => exact h
  | scanNext => exact h
  | @wake ctx t k queued _ =>
    intro i hi
    obtain ⟨hmod, hlt⟩ := h i hi
    simp only [SwtmrSys.setScan_cb, OsWakePendTimeSwtmr_id]
    split_ifs with hk hmax
    · obtain ⟨rfl, -⟩ := hk
      exact ⟨by rw [Nat.add_mod_right, hmod], by omega⟩
    · obtain ⟨rfl, -⟩ := hk
      have := le_max_timerid hL
      exact ⟨by rw [Nat.mod_mod, hmod], by rw [hmod]; omega⟩
    · exact ⟨hmod, hlt⟩

/-- In every state of every run from `OsSwtmrInit`, each block's ID
names it. -/
theorem ids_ok_run (hL : L ≤ 0xFFFF) {evs : List Event} {s : SwtmrSys}
    (h : Run (Step L N C) (OsSwtmrInit L) evs s) : IdsOk L s :=
  h.inv (IdsOk L) (fun _ _ _ hi hs => hi.step hL hs) (IdsOk.init hL)

/-- A block's ID is its index exactly while it is below the limit, that
is, before the block's first one-off expiry. -/
theorem IdsOk.id_eq_index_iff {s : SwtmrSys} (h : IdsOk L s) {i : Nat} (hi : i < L) :
    (s.cb i).usTimerID = i ↔ (s.cb i).usTimerID < L := by
  obtain ⟨hmod, -⟩ := h i hi
  constructor
  · intro heq
    omega
  · intro hlt
    rwa [Nat.mod_eq_of_lt hlt] at hmod

-- ------------------------------------------------------------ delete and create

/-- `LOS_SwtmrCreate` with the free list at `i :: rest` hands out block
`i` under the ID it holds. -/
theorem LOS_SwtmrCreate_head {s : SwtmrSys} {interval mode i : Nat} {rest : List Nat}
    (hint : interval ≠ 0) (hmode : mode = LOS_SWTMR_MODE_ONCE ∨ mode = LOS_SWTMR_MODE_PERIOD ∨
      mode = LOS_SWTMR_MODE_NO_SELFDELETE)
    (hfree : s.freeList = i :: rest) :
    (LOS_SwtmrCreate s interval mode).1 = LOS_OK ∧
      (LOS_SwtmrCreate s interval mode).2.1 = some (s.cb i).usTimerID ∧
      (LOS_SwtmrCreate s interval mode).2.2.freeList = rest ∧
      (LOS_SwtmrCreate s interval mode).2.2.cb =
        Function.update s.cb i ⟨OS_SWTMR_STATUS_CREATED, mode, (s.cb i).usTimerID, 0, interval, interval⟩ := by
  have hm : ¬(mode ≠ LOS_SWTMR_MODE_ONCE ∧ mode ≠ LOS_SWTMR_MODE_PERIOD ∧
      mode ≠ LOS_SWTMR_MODE_NO_SELFDELETE) := by
    rintro ⟨h₁, h₂, h₃⟩
    rcases hmode with h | h | h <;> contradiction
  simp [LOS_SwtmrCreate, hint, hm, hfree]

/-- `LOS_SwtmrDelete` of the ID a created or ticking block holds frees
the block, which keeps its ID. -/
theorem LOS_SwtmrDelete_named {s : SwtmrSys} {swtmrID : Nat} (hid : swtmrID < OS_SWTMR_MAX_TIMERID L)
    (hcur : (s.cb (swtmrID % L)).usTimerID = swtmrID)
    (hlive : (s.cb (swtmrID % L)).ucState = OS_SWTMR_STATUS_CREATED ∨
      (s.cb (swtmrID % L)).ucState = OS_SWTMR_STATUS_TICKING) :
    (LOS_SwtmrDelete L s swtmrID).1 = LOS_OK ∧
      ((LOS_SwtmrDelete L s swtmrID).2.cb (swtmrID % L)).ucState = OS_SWTMR_STATUS_UNUSED ∧
      (LOS_SwtmrDelete L s swtmrID).2.freeList = s.freeList ++ [swtmrID % L] := by
  unfold LOS_SwtmrDelete
  rw [withTimer_named _ _ hid hcur]
  rcases hlive with h | h <;> simp [h, OS_SWTMR_STATUS_CREATED, OS_SWTMR_STATUS_TICKING,
    OS_SWTMR_STATUS_UNUSED, OsSwtmrDelete]

/-- `LOS_SwtmrDelete` writes no block but the one the ID names. -/
theorem LOS_SwtmrDelete_cb_of_ne (s : SwtmrSys) {swtmrID j : Nat} (hj : j ≠ swtmrID % L) :
    (LOS_SwtmrDelete L s swtmrID).2.cb j = s.cb j := by
  refine withTimer_cases (fun r : Nat × SwtmrSys => r.2.cb j = s.cb j) rfl ?_
  dsimp only
  split_ifs <;> simp [hj]

/-- `LOS_SwtmrDelete` only appends to the free list. -/
theorem LOS_SwtmrDelete_freeList_prefix (s : SwtmrSys) (swtmrID : Nat) :
    s.freeList <+: (LOS_SwtmrDelete L s swtmrID).2.freeList := by
  refine withTimer_cases (fun r : Nat × SwtmrSys => s.freeList <+: r.2.freeList) (List.prefix_refl _) ?_
  dsimp only
  split_ifs <;> simp

/-- `LOS_SwtmrDelete` refuses an ID its block does not hold, and changes
nothing. -/
theorem LOS_SwtmrDelete_stale (s : SwtmrSys) {swtmrID : Nat}
    (hstale : (s.cb (swtmrID % L)).usTimerID ≠ swtmrID) :
    LOS_SwtmrDelete L s swtmrID = (LOS_ERRNO_SWTMR_ID_INVALID, s) := by
  simp [LOS_SwtmrDelete, withTimer, hstale]

-- ------------------------------------------------------------ an ID handed out twice

/-- `k` calls `LOS_SwtmrCreate(1, LOS_SWTMR_MODE_PERIOD, ...)` on the
context `ctx`, which return `LOS_OK` with the IDs `0, ..., k - 1`. -/
def createRun (ctx : Ctx) (k : Nat) : List Event :=
  (List.range k).map fun j => .call ctx (.LOS_SwtmrCreate 1 LOS_SWTMR_MODE_PERIOD) (LOS_OK, some j)

theorem createRun_succ (ctx : Ctx) (k : Nat) :
    createRun ctx (k + 1) =
      createRun ctx k ++ [.call ctx (.LOS_SwtmrCreate 1 LOS_SWTMR_MODE_PERIOD) (LOS_OK, some k)] := by
  simp [createRun, List.range_succ]

theorem mode_period_ok : LOS_SWTMR_MODE_PERIOD = LOS_SWTMR_MODE_ONCE ∨
    LOS_SWTMR_MODE_PERIOD = LOS_SWTMR_MODE_PERIOD ∨ LOS_SWTMR_MODE_PERIOD = LOS_SWTMR_MODE_NO_SELFDELETE :=
  Or.inr (Or.inl rfl)

/-- From `OsSwtmrInit`, the first `k` creations take the blocks in index
order, under their indices. -/
theorem createRun_run (ctx : Ctx) {k : Nat} (hk : k ≤ L) :
    ∃ s, Run (Step L N C) (OsSwtmrInit L) (createRun ctx k) s ∧
      s.freeList = List.range' k (L - k) ∧ (∀ j, (s.cb j).usTimerID = j) ∧
      ∀ j < k, (s.cb j).ucState = OS_SWTMR_STATUS_CREATED := by
  induction k with
  | zero =>
    refine ⟨OsSwtmrInit L, .nil, ?_, fun j => rfl, fun j hj => absurd hj (Nat.not_lt_zero j)⟩
    simp [OsSwtmrInit, List.range_eq_range']
  | succ k ih =>
    obtain ⟨s, hrun, hfree, hid, hst⟩ := ih (by omega)
    -- block `k` is at the head of the free list
    have hfree' : s.freeList = k :: List.range' (k + 1) (L - (k + 1)) := by
      rw [hfree, show L - k = (L - (k + 1)) + 1 by omega, List.range'_succ]
    obtain ⟨hret, hout, hfl, hcb⟩ := LOS_SwtmrCreate_head one_ne_zero mode_period_ok hfree'
    have hstep := Step.call_ret L N C
      (show (callStep L N C ctx s (.LOS_SwtmrCreate 1 LOS_SWTMR_MODE_PERIOD)).1 = (LOS_OK, some k) by
        simp [callStep, hret, hout, hid])
    refine ⟨_, createRun_succ ctx k ▸ hrun.snoc hstep, hfl, fun j => ?_, fun j hj => ?_⟩
    · by_cases h : j = k
      · subst h
        simp [hcb, hid]
      · simp [hcb, h, hid]
    · by_cases h : j = k
      · subst h
        simp [hcb]
      · simp [hcb, h, hst j (by omega)]

/-- With every block taken, a delete and a create: the block comes back
under the ID it had, and the holder of the old timer's ID deletes the
new timer. -/
theorem id_reissued_after_delete (hL : 0 < L) (hmax : L ≤ 0xFFFF) (ctx : Ctx) :
    ∃ s, Run (Step L N C) (OsSwtmrInit L)
      (createRun ctx L ++ [.call ctx (.LOS_SwtmrDelete 0) (LOS_OK, none),
        .call ctx (.LOS_SwtmrCreate 1 LOS_SWTMR_MODE_PERIOD) (LOS_OK, some 0),
        .call ctx (.LOS_SwtmrDelete 0) (LOS_OK, none)]) s := by
  obtain ⟨s₀, hrun, hfree, hid, hst⟩ := createRun_run (N := N) (C := C) ctx (le_refl L)
  have h0 : 0 < OS_SWTMR_MAX_TIMERID L := lt_of_lt_of_le hL (le_max_timerid hmax)
  have hmod : 0 % L = 0 := Nat.zero_mod L
  -- the delete frees block 0 onto the empty free list
  obtain ⟨hret₁, -, hfree₁⟩ := LOS_SwtmrDelete_named (s := s₀) h0 (by rw [hmod, hid])
    (Or.inl (by rw [hmod]; exact hst 0 hL))
  set s₁ := (LOS_SwtmrDelete L s₀ 0).2
  have hstep₁ := Step.call_ret L N C
    (show (callStep L N C ctx s₀ (.LOS_SwtmrDelete 0)).1 = (LOS_OK, none) by simp [callStep, hret₁])
  have hfree₁' : s₁.freeList = [0] := by rw [hfree₁, hfree, hmod]; simp
  -- the create takes it back, under the ID 0 it kept
  have hid₁ : (s₁.cb 0).usTimerID = 0 :=
    (callStep_id (N := N) (C := C) ctx s₀ (.LOS_SwtmrDelete 0) 0).trans (hid 0)
  obtain ⟨hret₂, hout₂, -, hcb₂⟩ := LOS_SwtmrCreate_head one_ne_zero mode_period_ok hfree₁'
  have hstep₂ := Step.call_ret L N C
    (show (callStep L N C ctx s₁ (.LOS_SwtmrCreate 1 LOS_SWTMR_MODE_PERIOD)).1 = (LOS_OK, some 0) by
      simp [callStep, hret₂, hout₂, hid₁])
  set s₂ := (LOS_SwtmrCreate s₁ 1 LOS_SWTMR_MODE_PERIOD).2.2
  -- and the old ID deletes the new timer
  have hcb₂0 : s₂.cb (0 % L) = ⟨OS_SWTMR_STATUS_CREATED, LOS_SWTMR_MODE_PERIOD, 0, 0, 1, 1⟩ := by
    simp [s₂, hcb₂, hmod, hid₁]
  obtain ⟨hret₃, -, -⟩ := LOS_SwtmrDelete_named (s := s₂) h0 (by rw [hcb₂0]) (Or.inl (by rw [hcb₂0]))
  have hstep₃ := Step.call_ret L N C
    (show (callStep L N C ctx s₂ (.LOS_SwtmrDelete 0)).1 = (LOS_OK, none) by simp [callStep, hret₃])
  exact ⟨_, by simpa using ((hrun.snoc hstep₁).snoc hstep₂).snoc hstep₃⟩

theorem swtmr_stale_id_reaches_new_timer (N C : Nat) (ctx : Ctx) :
    1 < OS_SWTMR_MAX_TIMERID 1024 / 1024 ∧
    ∃ s, Run (Step 1024 N C) (OsSwtmrInit 1024)
      (createRun ctx 1024 ++ [.call ctx (.LOS_SwtmrDelete 0) (LOS_OK, none),
        .call ctx (.LOS_SwtmrCreate 1 LOS_SWTMR_MODE_PERIOD) (LOS_OK, some 0),
        .call ctx (.LOS_SwtmrDelete 0) (LOS_OK, none)]) s :=
  ⟨by decide, id_reissued_after_delete (by decide) (by decide) ctx⟩

-- ------------------------------------------------------------ OsSwtmrRecycle

namespace OsSwtmrRecycle

/-- A round at another block leaves block `i` and its owner, and only
appends to the free list. -/
theorem round_of_ne (pid : Nat) (s : SwtmrOwnerSys) {x i : Nat} (hx : x < L) (hxi : x ≠ i) :
    (round L pid s x).sys.cb i = s.sys.cb i ∧ (round L pid s x).uwOwnerPid i = s.uwOwnerPid i ∧
      s.sys.freeList <+: (round L pid s x).sys.freeList := by
  have hix : i ≠ x % L := by rw [Nat.mod_eq_of_lt hx]; exact Ne.symm hxi
  unfold round
  split_ifs
  · refine ⟨LOS_SwtmrDelete_cb_of_ne s.sys hix, ?_, LOS_SwtmrDelete_freeList_prefix s.sys x⟩
    dsimp only
    split_ifs <;> simp [Ne.symm hxi]
  · exact ⟨rfl, rfl, List.prefix_refl _⟩

/-- A round at a block whose ID is no longer its index changes nothing:
`LOS_SwtmrDelete` refuses the index. -/
theorem round_stale (pid : Nat) (s : SwtmrOwnerSys) {i : Nat} (hi : i < L)
    (hid : (s.sys.cb i).usTimerID ≠ i) : round L pid s i = s := by
  have hdel := @LOS_SwtmrDelete_stale L s.sys i (by rwa [Nat.mod_eq_of_lt hi])
  have hne : LOS_ERRNO_SWTMR_ID_INVALID ≠ LOS_OK := by decide
  unfold round
  split_ifs
  · simp [hdel, hne]
  · rfl

/-- A round at a created or ticking block of `pid` whose ID is still its
index frees it and clears its owner. -/
theorem round_named (s : SwtmrOwnerSys) {pid i : Nat} (hi : i < L) (hmax : L ≤ 0xFFFF)
    (hown : s.uwOwnerPid i = pid) (hid : (s.sys.cb i).usTimerID = i)
    (hlive : (s.sys.cb i).ucState = OS_SWTMR_STATUS_CREATED ∨
      (s.sys.cb i).ucState = OS_SWTMR_STATUS_TICKING) :
    ((round L pid s i).sys.cb i).ucState = OS_SWTMR_STATUS_UNUSED ∧
      (round L pid s i).uwOwnerPid i = 0 ∧ (round L pid s i).sys.freeList = s.sys.freeList ++ [i] := by
  have hmod : i % L = i := Nat.mod_eq_of_lt hi
  obtain ⟨hret, hst, hfree⟩ := LOS_SwtmrDelete_named (s := s.sys)
    (lt_of_lt_of_le hi (le_max_timerid hmax)) (by rw [hmod, hid]) (by rwa [hmod])
  rw [hmod] at hst hfree
  simp [round, hown, hret, hst, hfree]

/-- A round leaves the blocks of the other processes, and their owners. -/
theorem round_other (pid : Nat) (s : SwtmrOwnerSys) {x j : Nat} (hx : x < L) (hj : s.uwOwnerPid j ≠ pid) :
    (round L pid s x).sys.cb j = s.sys.cb j ∧ (round L pid s x).uwOwnerPid j = s.uwOwnerPid j := by
  by_cases hxj : x = j
  · subst hxj
    simp [round, hj]
  · exact ⟨(round_of_ne pid s hx hxj).1, (round_of_ne pid s hx hxj).2.1⟩

/-- The rounds at other blocks leave block `i` and its owner, and only
append to the free list. -/
theorem foldl_frame (pid i : Nat) : ∀ (l : List Nat) (s : SwtmrOwnerSys), (∀ x ∈ l, x < L ∧ x ≠ i) →
    (l.foldl (round L pid) s).sys.cb i = s.sys.cb i ∧ (l.foldl (round L pid) s).uwOwnerPid i = s.uwOwnerPid i ∧
      s.sys.freeList <+: (l.foldl (round L pid) s).sys.freeList
  | [], _, _ => ⟨rfl, rfl, List.prefix_refl _⟩
  | x :: l, s, hl => by
    obtain ⟨hx, hxi⟩ := hl x List.mem_cons_self
    obtain ⟨hcb, hown, hpre⟩ := round_of_ne pid s hx hxi
    obtain ⟨hcb', hown', hpre'⟩ := foldl_frame pid i l (round L pid s x) fun y hy => hl y (List.mem_cons_of_mem x hy)
    exact ⟨hcb'.trans hcb, hown'.trans hown, hpre.trans hpre'⟩

/-- The rounds leave a block whose ID is not its index, and its owner. -/
theorem foldl_stale (pid i : Nat) : ∀ (l : List Nat) (s : SwtmrOwnerSys), (∀ x ∈ l, x < L) →
    (s.sys.cb i).usTimerID ≠ i →
    (l.foldl (round L pid) s).sys.cb i = s.sys.cb i ∧ (l.foldl (round L pid) s).uwOwnerPid i = s.uwOwnerPid i
  | [], _, _, _ => ⟨rfl, rfl⟩
  | x :: l, s, hl, hid => by
    have hx := hl x List.mem_cons_self
    -- the round at `x` leaves block `i` as it is, so its ID is still not `i`
    have hround : (round L pid s x).sys.cb i = s.sys.cb i ∧ (round L pid s x).uwOwnerPid i = s.uwOwnerPid i := by
      by_cases hxi : x = i
      · subst hxi
        rw [round_stale pid s hx hid]
        exact ⟨rfl, rfl⟩
      · exact ⟨(round_of_ne pid s hx hxi).1, (round_of_ne pid s hx hxi).2.1⟩
    obtain ⟨hcb, hown⟩ := foldl_stale pid i l (round L pid s x) (fun y hy => hl y (List.mem_cons_of_mem x hy))
      (by rw [hround.1]; exact hid)
    exact ⟨hcb.trans hround.1, hown.trans hround.2⟩

/-- The rounds leave the blocks of the other processes, and their owners. -/
theorem foldl_other (pid j : Nat) : ∀ (l : List Nat) (s : SwtmrOwnerSys), (∀ x ∈ l, x < L) →
    s.uwOwnerPid j ≠ pid →
    (l.foldl (round L pid) s).sys.cb j = s.sys.cb j ∧ (l.foldl (round L pid) s).uwOwnerPid j = s.uwOwnerPid j
  | [], _, _, _ => ⟨rfl, rfl⟩
  | x :: l, s, hl, hj => by
    obtain ⟨hcb, hown⟩ := round_other pid s (hl x List.mem_cons_self) hj
    obtain ⟨hcb', hown'⟩ := foldl_other pid j l (round L pid s x) (fun y hy => hl y (List.mem_cons_of_mem x hy))
      (by rw [hown]; exact hj)
    exact ⟨hcb'.trans hcb, hown'.trans hown⟩

end OsSwtmrRecycle

open OsSwtmrRecycle in
/-- `OsSwtmrRecycle` leaves a block whose ID has moved off its index as
it is, timer and owner. -/
theorem OsSwtmrRecycle_keeps_moved (s : SwtmrOwnerSys) (pid : Nat) {i : Nat}
    (hid : (s.sys.cb i).usTimerID ≠ i) :
    (OsSwtmrRecycle L s pid).sys.cb i = s.sys.cb i ∧ (OsSwtmrRecycle L s pid).uwOwnerPid i = s.uwOwnerPid i :=
  foldl_stale pid i _ s (fun _ hx => List.mem_range.1 hx) hid

open OsSwtmrRecycle in
/-- `OsSwtmrRecycle` frees each created or ticking block of the process
whose ID is still its index. -/
theorem OsSwtmrRecycle_frees_named (s : SwtmrOwnerSys) {pid i : Nat} (hi : i < L) (hmax : L ≤ 0xFFFF)
    (hown : s.uwOwnerPid i = pid) (hid : (s.sys.cb i).usTimerID = i)
    (hlive : (s.sys.cb i).ucState = OS_SWTMR_STATUS_CREATED ∨
      (s.sys.cb i).ucState = OS_SWTMR_STATUS_TICKING) :
    ((OsSwtmrRecycle L s pid).sys.cb i).ucState = OS_SWTMR_STATUS_UNUSED ∧
      (OsSwtmrRecycle L s pid).uwOwnerPid i = 0 ∧ i ∈ (OsSwtmrRecycle L s pid).sys.freeList := by
  -- the indices before `i`, then `i`, then those after it
  have hsplit : List.range L = List.range' 0 i ++ i :: List.range' (i + 1) (L - (i + 1)) := by
    rw [List.range_eq_range', ← List.range'_succ, show L - (i + 1) + 1 = L - i by omega,
      show List.range' i (L - i) = List.range' (0 + i) (L - i) by rw [Nat.zero_add],
      List.range'_append_1, Nat.add_sub_cancel' hi.le]
  obtain ⟨hcb₁, hown₁, -⟩ := foldl_frame (L := L) pid i (List.range' 0 i) s fun x hx => by
    have := List.mem_range'_1.1 hx
    omega
  set s₁ := (List.range' 0 i).foldl (round L pid) s
  obtain ⟨hst₂, hown₂, hfree₂⟩ := round_named s₁ hi hmax (hown₁.trans hown) (by rw [hcb₁]; exact hid)
    (by rw [hcb₁]; exact hlive)
  obtain ⟨hcb₃, hown₃, hpre₃⟩ := foldl_frame (L := L) pid i (List.range' (i + 1) (L - (i + 1))) (round L pid s₁ i)
    fun x hx => by
      have := List.mem_range'_1.1 hx
      omega
  unfold OsSwtmrRecycle
  rw [hsplit, List.foldl_append, List.foldl_cons]
  refine ⟨by rw [hcb₃]; exact hst₂, by rw [hown₃]; exact hown₂, hpre₃.subset ?_⟩
  rw [hfree₂]
  exact List.mem_append_right _ (List.mem_singleton_self i)

open OsSwtmrRecycle in
/-- `OsSwtmrRecycle` changes no other process's block or owner. -/
theorem OsSwtmrRecycle_other (s : SwtmrOwnerSys) {pid j : Nat} (hj : s.uwOwnerPid j ≠ pid) :
    (OsSwtmrRecycle L s pid).sys.cb j = s.sys.cb j ∧ (OsSwtmrRecycle L s pid).uwOwnerPid j = s.uwOwnerPid j :=
  foldl_other pid j _ s (fun _ hx => List.mem_range.1 hx) hj

/-- Where every ID names its block, `OsSwtmrRecycle` frees a created or
ticking block of the process exactly when its ID is below the limit,
that is, when the block has had no one-off expiry. -/
theorem OsSwtmrRecycle_frees_iff (s : SwtmrOwnerSys) {pid i : Nat} (hi : i < L) (hmax : L ≤ 0xFFFF)
    (hok : IdsOk L s.sys) (hown : s.uwOwnerPid i = pid)
    (hlive : (s.sys.cb i).ucState = OS_SWTMR_STATUS_CREATED ∨
      (s.sys.cb i).ucState = OS_SWTMR_STATUS_TICKING) :
    ((OsSwtmrRecycle L s pid).sys.cb i).ucState = OS_SWTMR_STATUS_UNUSED ↔ (s.sys.cb i).usTimerID < L := by
  by_cases hid : (s.sys.cb i).usTimerID = i
  · exact ⟨fun _ => (hok.id_eq_index_iff hi).1 hid,
      fun _ => (OsSwtmrRecycle_frees_named s hi hmax hown hid hlive).1⟩
  · rw [(OsSwtmrRecycle_keeps_moved s pid hid).1]
    have hlt : ¬(s.sys.cb i).usTimerID < L := fun h => hid ((hok.id_eq_index_iff hi).2 h)
    have hne : (s.sys.cb i).ucState ≠ OS_SWTMR_STATUS_UNUSED := by
      rcases hlive with h | h <;> rw [h] <;> decide
    simp [hne, hlt]

/-- One timer block, two CPUs, a tick of one cycle. Process 5 creates a
one-off timer of 10 ticks on CPU 1 and starts it; at time 10 CPU 0's
scan takes it off and wakes it, which frees the block and moves its ID
to 1; process 5 creates a timer again and gets the block under ID 1.
Its `OsSwtmrRecycle` then passes index 0, which the block no longer
answers to: the timer stays created, owned by process 5, off the free
list. -/
theorem swtmr_recycle_misses_moved_id :
    let evs : List OwnerEvent :=
      [.step 5 (.call ⟨1, 0, true⟩ (.LOS_SwtmrCreate 10 LOS_SWTMR_MODE_ONCE) (LOS_OK, some 0)),
        .step 5 (.call ⟨1, 0, true⟩ (.LOS_SwtmrStart 0) (LOS_OK, none)),
        .step 0 (.scanFirst ⟨0, 10, true⟩ (some 0)),
        .step 0 (.wake ⟨0, 10, true⟩ 0 true),
        .step 5 (.call ⟨1, 10, true⟩ (.LOS_SwtmrCreate 10 LOS_SWTMR_MODE_ONCE) (LOS_OK, some 1))]
    ∃ s s', Run (OwnerStep 1 2 1) (OsSwtmrOwnerInit 1) evs s ∧
      s.uwOwnerPid 0 = 5 ∧ (s.sys.cb 0).ucState = OS_SWTMR_STATUS_CREATED ∧
      OwnerStep 1 2 1 s (.recycle 5) s' ∧
      s'.uwOwnerPid 0 = 5 ∧ (s'.sys.cb 0).ucState = OS_SWTMR_STATUS_CREATED ∧ 0 ∉ s'.sys.freeList := by
  intro evs
  have r₀ : Run (OwnerStep 1 2 1) (OsSwtmrOwnerInit 1) [] (OsSwtmrOwnerInit 1) := .nil
  have r₁ : Run (OwnerStep 1 2 1) (OsSwtmrOwnerInit 1) (evs.take 1) _ :=
    r₀.snoc (OwnerStep.step 5 (Step.call_ret 1 2 1 (by decide)))
  have r₂ : Run (OwnerStep 1 2 1) (OsSwtmrOwnerInit 1) (evs.take 2) _ :=
    r₁.snoc (OwnerStep.step 5 (Step.call_ret 1 2 1 (by decide)))
  -- the expiry frees the block and moves its ID on
  have r₃ : Run (OwnerStep 1 2 1) (OsSwtmrOwnerInit 1) (evs.take 3) _ :=
    r₂.snoc (OwnerStep.step 0 (Step.scanFirst_ret 1 2 1 (by decide) (by decide)))
  have r₄ : Run (OwnerStep 1 2 1) (OsSwtmrOwnerInit 1) (evs.take 4) _ :=
    r₃.snoc (OwnerStep.step 0 (Step.wake ⟨0, 10, true⟩ true (show _ = some (10, some 0) by decide)))
  have r₅ : Run (OwnerStep 1 2 1) (OsSwtmrOwnerInit 1) evs _ :=
    r₄.snoc (OwnerStep.step 5 (Step.call_ret 1 2 1 (by decide)))
  exact ⟨_, _, r₅, by decide, by decide, OwnerStep.recycle _ 5, by decide, by decide, by decide⟩

end LiteOsA.Swtmr
