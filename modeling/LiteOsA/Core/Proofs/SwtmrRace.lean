/-
A timer deleted while its expiry is being handled is freed twice.

`OsSwtmrScan` takes an expired timer off its CPU's sort link under
`swtmrSortLinkSpin` and drops that lock before `OsWakePendTimeSwtmr`
takes `g_swtmrSpin` to act on it. In between, another CPU's
`LOS_SwtmrDelete` finds the timer still `OS_SWTMR_STATUS_TICKING`:
its `OsSwtmrStop` changes no link, since the scan already marked the
node's time invalid (`OsSwtmrStop_unlinked`), and `OsSwtmrDelete` puts
the block on the free list and returns `LOS_OK`. The pending wake then
queues the handler anyway and, for a one-off timer, frees the block a
second time (`delete_then_wake`): its list node goes onto the free list
it is already on.

`swtmr_delete_during_expiry` is a run from `OsSwtmrInit` that does
this, after which two `LOS_SwtmrCreate` calls hand out the same block
under the same ID.
-/
import LiteOsA.Core.Swtmr

namespace LiteOsA.Swtmr

open SortLink

variable {L N C : Nat}

/-- Stopping a timer whose node a scan has taken off changes no link. -/
theorem OsSwtmrStop_unlinked {s : SwtmrSys} {i : Nat}
    (hrt : (s.sl.node i).responseTime = OS_SORT_LINK_INVALID_TIME) :
    (OsSwtmrStop s i).sl = s.sl ∧
      (OsSwtmrStop s i).cb i = { s.cb i with ucState := OS_SWTMR_STATUS_CREATED, uwOverrun := 0 } ∧
      (OsSwtmrStop s i).freeList = s.freeList := by
  simp [OsSwtmrStop, OsDeleteSortLink, hrt, SwtmrSys.setCb]

/-- `LOS_SwtmrDelete` of a ticking timer whose node a scan has taken
off: it returns `LOS_OK` with the block on the free list, and no link
changed. -/
theorem LOS_SwtmrDelete_expiring {s : SwtmrSys} {swtmrID : Nat}
    (hid : swtmrID < OS_SWTMR_MAX_TIMERID L) (hcur : (s.cb (swtmrID % L)).usTimerID = swtmrID)
    (hticking : (s.cb (swtmrID % L)).ucState = OS_SWTMR_STATUS_TICKING)
    (hrt : (s.sl.node (swtmrID % L)).responseTime = OS_SORT_LINK_INVALID_TIME) :
    (LOS_SwtmrDelete L s swtmrID).1 = LOS_OK ∧
      (LOS_SwtmrDelete L s swtmrID).2.freeList = s.freeList ++ [swtmrID % L] ∧
      (LOS_SwtmrDelete L s swtmrID).2.sl = s.sl ∧
      (LOS_SwtmrDelete L s swtmrID).2.handlerQueue = s.handlerQueue ∧
      ((LOS_SwtmrDelete L s swtmrID).2.cb (swtmrID % L)).ucMode = (s.cb (swtmrID % L)).ucMode ∧
      ((LOS_SwtmrDelete L s swtmrID).2.cb (swtmrID % L)).ucState = OS_SWTMR_STATUS_UNUSED := by
  have hstop := OsSwtmrStop_unlinked hrt
  have hne : OS_SWTMR_STATUS_TICKING ≠ OS_SWTMR_STATUS_UNUSED := by decide
  -- the ID checks pass and the ticking branch runs
  have hdel : LOS_SwtmrDelete L s swtmrID =
      (LOS_OK, OsSwtmrDelete (OsSwtmrStop s (swtmrID % L)) (swtmrID % L)) := by
    simp only [LOS_SwtmrDelete, withTimer, Nat.not_le.2 hid, if_false, hcur, ne_eq,
      not_true_eq_false, hticking, hne, if_true]
  rw [hdel]
  refine ⟨rfl, ?_, ?_, rfl, ?_, ?_⟩
  · simp [OsSwtmrDelete, hstop.2.2]
  · simp [OsSwtmrDelete, SwtmrSys.setCb, hstop.1]
  · simp [OsSwtmrDelete, SwtmrSys.setCb, hstop.2.1]
  · simp [OsSwtmrDelete, SwtmrSys.setCb]

/-- The wake of a one-off timer frees its block, whatever state the
block is in, and queues its handler when it can. -/
theorem OsWakePendTimeSwtmr_once (L N C : Nat) (ctx : Ctx) {s : SwtmrSys} (cpu : Nat) {i : Nat}
    (queued : Bool)
    (honce : (s.cb i).ucMode = LOS_SWTMR_MODE_ONCE) :
    (OsWakePendTimeSwtmr L N C ctx s cpu i queued).freeList = s.freeList ++ [i] ∧
      (OsWakePendTimeSwtmr L N C ctx s cpu i queued).handlerQueue cpu =
        s.handlerQueue cpu ++ (if queued then [i] else []) := by
  cases queued <;>
    simp [OsWakePendTimeSwtmr, honce, OsSwtmrDelete, SwtmrSys.setCb]

/-- The race, from any state: a scan has taken the ticking one-off
timer `swtmrID` off its link and not yet woken it; another CPU's
`LOS_SwtmrDelete` succeeds, and the wake then queues the handler and
puts the block on the free list a second time. -/
theorem delete_then_wake {ctx : Ctx} {s : SwtmrSys} {swtmrID : Nat} (queued : Bool)
    (hid : swtmrID < OS_SWTMR_MAX_TIMERID L) (hcur : (s.cb (swtmrID % L)).usTimerID = swtmrID)
    (hticking : (s.cb (swtmrID % L)).ucState = OS_SWTMR_STATUS_TICKING)
    (honce : (s.cb (swtmrID % L)).ucMode = LOS_SWTMR_MODE_ONCE)
    (hrt : (s.sl.node (swtmrID % L)).responseTime = OS_SORT_LINK_INVALID_TIME) :
    let s₁ := (LOS_SwtmrDelete L s swtmrID).2
    (LOS_SwtmrDelete L s swtmrID).1 = LOS_OK ∧
      (OsWakePendTimeSwtmr L N C ctx s₁ ctx.cur (swtmrID % L) queued).freeList =
        s.freeList ++ [swtmrID % L, swtmrID % L] ∧
      (OsWakePendTimeSwtmr L N C ctx s₁ ctx.cur (swtmrID % L) queued).handlerQueue ctx.cur =
        s.handlerQueue ctx.cur ++ (if queued then [swtmrID % L] else []) := by
  intro s₁
  obtain ⟨hret, hfree, -, hq, hmode, -⟩ := LOS_SwtmrDelete_expiring hid hcur hticking hrt
  obtain ⟨hfree', hq'⟩ := OsWakePendTimeSwtmr_once L N C ctx ctx.cur queued (hmode.trans honce)
  refine ⟨hret, ?_, ?_⟩
  · rw [hfree', hfree, List.append_assoc]
    rfl
  · rw [hq', hq]

/-- One timer block, two CPUs, a tick of one cycle. CPU 1 creates and
starts a one-off timer of 10 ticks, which goes on CPU 0's link; CPU 0's
scan at time 10 takes it off; CPU 1 deletes it and `LOS_SwtmrDelete`
returns `LOS_OK`; CPU 0's wake then queues the timer's handler and frees
the block again, so that the next two `LOS_SwtmrCreate` calls both
succeed with the one block under the same timer ID. -/
theorem swtmr_delete_during_expiry :
    let evs : List Event :=
      [.call ⟨1, 0, true⟩ (.LOS_SwtmrCreate 10 LOS_SWTMR_MODE_ONCE) (LOS_OK, some 0),
        .call ⟨1, 0, true⟩ (.LOS_SwtmrStart 0) (LOS_OK, none),
        .scanFirst ⟨0, 10, true⟩ (some 0),
        .call ⟨1, 10, true⟩ (.LOS_SwtmrDelete 0) (LOS_OK, none),
        .wake ⟨0, 10, true⟩ 0 true,
        .call ⟨1, 10, true⟩ (.LOS_SwtmrCreate 10 LOS_SWTMR_MODE_ONCE) (LOS_OK, some 1),
        .call ⟨1, 10, true⟩ (.LOS_SwtmrCreate 10 LOS_SWTMR_MODE_ONCE) (LOS_OK, some 1)]
    ∃ s, Run (Step 1 2 1) (OsSwtmrInit 1) evs s ∧ s.handlerQueue 0 = [0] := by
  intro evs
  have r₀ : Run (Step 1 2 1) (OsSwtmrInit 1) [] (OsSwtmrInit 1) := .nil
  have r₁ : Run (Step 1 2 1) (OsSwtmrInit 1) (evs.take 1) _ :=
    r₀.snoc (Step.call_ret 1 2 1 (by decide))
  have r₂ : Run (Step 1 2 1) (OsSwtmrInit 1) (evs.take 2) _ :=
    r₁.snoc (Step.call_ret 1 2 1 (by decide))
  -- CPU 0's scan takes the timer off its link
  have r₃ : Run (Step 1 2 1) (OsSwtmrInit 1) (evs.take 3) _ :=
    r₂.snoc (Step.scanFirst_ret 1 2 1 (by decide) (by decide))
  -- CPU 1 deletes it before the wake
  have r₄ : Run (Step 1 2 1) (OsSwtmrInit 1) (evs.take 4) _ :=
    r₃.snoc (Step.call_ret 1 2 1 (by decide))
  have r₅ : Run (Step 1 2 1) (OsSwtmrInit 1) (evs.take 5) _ :=
    r₄.snoc (Step.wake ⟨0, 10, true⟩ true (show _ = some (10, some 0) by decide))
  have r₆ : Run (Step 1 2 1) (OsSwtmrInit 1) (evs.take 6) _ :=
    r₅.snoc (Step.call_ret 1 2 1 (by decide))
  have r₇ : Run (Step 1 2 1) (OsSwtmrInit 1) evs _ :=
    r₆.snoc (Step.call_ret 1 2 1 (by decide))
  exact ⟨_, r₇, by decide⟩

end LiteOsA.Swtmr
