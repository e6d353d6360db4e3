/-
The owner of a software timer, and `OsSwtmrRecycle`
(kernel/base/core/los_swtmr.c).

# What the model keeps

The `uwOwnerPid` column of `g_swtmrCBArray`, beside the blocks of
`LiteOsA.Swtmr`. Two places write it: `LOS_SwtmrCreate` writes the
calling process into the block it takes off the free list, and
`OsSwtmrDelete` writes 0 into the block it frees, whether for
`LOS_SwtmrDelete` or for the expiry of a one-off timer in
`OsWakePendTimeSwtmr`. `OsSwtmrInit` clears the whole array, so every
owner starts at 0.

`OsSwtmrRecycle(processID)` calls `LOS_SwtmrDelete(index)` for each
block `index` that `processID` owns: the index stands for the timer ID.

# What it leaves out

The lock: each `LOS_SwtmrDelete` of `OsSwtmrRecycle` is a critical
section of its own, but the call runs when its process exits and a run
here takes the whole loop as one step.
-/
import LiteOsA.Core.Swtmr

namespace LiteOsA.Swtmr

/-- The blocks, with the owner column. -/
structure SwtmrOwnerSys where
  sys : SwtmrSys
  uwOwnerPid : Nat → Nat

variable (LOSCFG_BASE_CORE_SWTMR_LIMIT LOSCFG_KERNEL_CORE_NUM OS_CYCLE_PER_TICK : Nat)

/-- How a step of `Step`, made by process `pid` where it is a call,
writes the owner column: a `LOS_SwtmrCreate` that succeeds writes `pid`
into the block at the head of the free list; a `LOS_SwtmrDelete` that
succeeds, and the wake of a one-off timer, write 0. -/
def ownerStep (s : SwtmrSys) (pid : Nat) (owner : Nat → Nat) : Event → Nat → Nat
  | .call _ (.LOS_SwtmrCreate _ _) (ret, _) =>
    match s.freeList with
    | i :: _ => if ret = LOS_OK then Function.update owner i pid else owner
    | [] => owner
  | .call _ (.LOS_SwtmrDelete swtmrID) (ret, _) =>
    if ret = LOS_OK then Function.update owner (swtmrID % LOSCFG_BASE_CORE_SWTMR_LIMIT) 0 else owner
  | .wake _ i _ => if (s.cb i).ucMode = LOS_SWTMR_MODE_ONCE then Function.update owner i 0 else owner
  | _ => owner

/-- A round of `OsSwtmrRecycle`'s loop, at block `index`. -/
def OsSwtmrRecycle.round (processID : Nat) (s : SwtmrOwnerSys) (index : Nat) : SwtmrOwnerSys :=
  if s.uwOwnerPid index = processID then
    -- the block's index is passed as its timer ID
    let r := LOS_SwtmrDelete LOSCFG_BASE_CORE_SWTMR_LIMIT s.sys index
    ⟨r.2, if r.1 = LOS_OK then Function.update s.uwOwnerPid index 0 else s.uwOwnerPid⟩
  else s

/-- `OsSwtmrRecycle(processID)`: the rounds at the indices in order. -/
def OsSwtmrRecycle (s : SwtmrOwnerSys) (processID : Nat) : SwtmrOwnerSys :=
  (List.range LOSCFG_BASE_CORE_SWTMR_LIMIT).foldl
    (OsSwtmrRecycle.round LOSCFG_BASE_CORE_SWTMR_LIMIT processID) s

/-- A step of `Step` made by process `pid`, or an `OsSwtmrRecycle`. -/
inductive OwnerEvent where
  | step (pid : Nat) (e : Event)
  | recycle (processID : Nat)

/-- One step of the blocks with their owners. -/
inductive OwnerStep : SwtmrOwnerSys → OwnerEvent → SwtmrOwnerSys → Prop where
  | step {s : SwtmrOwnerSys} {e : Event} {sys' : SwtmrSys} (pid : Nat)
      (h : Step LOSCFG_BASE_CORE_SWTMR_LIMIT LOSCFG_KERNEL_CORE_NUM OS_CYCLE_PER_TICK s.sys e sys') :
      OwnerStep s (.step pid e) ⟨sys', ownerStep LOSCFG_BASE_CORE_SWTMR_LIMIT s.sys pid s.uwOwnerPid e⟩
  | recycle (s : SwtmrOwnerSys) (processID : Nat) :
      OwnerStep s (.recycle processID) (OsSwtmrRecycle LOSCFG_BASE_CORE_SWTMR_LIMIT s processID)

/-- After `OsSwtmrInit`, which clears the array: no block has an owner. -/
def OsSwtmrOwnerInit : SwtmrOwnerSys := ⟨OsSwtmrInit LOSCFG_BASE_CORE_SWTMR_LIMIT, fun _ => 0⟩

end LiteOsA.Swtmr
