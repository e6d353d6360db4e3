/-
Software timers (kernel/base/core/los_swtmr.c), for the SMP
configuration.

# What the model keeps

The control blocks `g_swtmrCBArray`, block `i` with its state, mode,
timer ID, overrun count, interval and expiry; its `stSortList` node is
a node of the sort links (`SortLinkSys`, nodes named by block index),
and the same list node threads `g_swtmrFreeList`, kept in list order.
Each CPU has a handler queue, kept as the blocks whose handler items it
holds, and the progress of its `OsSwtmrScan`.

Each critical section is one step, as the code takes its locks:
`LOS_SwtmrCreate`, `LOS_SwtmrStart`, `LOS_SwtmrStop`,
`LOS_SwtmrDelete` and `LOS_SwtmrTimeGet` under `g_swtmrSpin`; a scan's
deletion of the first due node under the CPU's `swtmrSortLinkSpin`
(`SortLink.scanStep`); and, with that lock dropped, the scan's call
of `OsWakePendTimeSwtmr` under `g_swtmrSpin`. The handler item is
queued only when `LOS_MemboxAlloc` and `LOS_QueueWrite` succeed, which
the step is told.

# What it leaves out

The owner process and `OsSwtmrRecycle`, the handler function and its
argument (a queued item is named by its block), the software-timer
task that runs the queued handlers, `OsSchedUpdateExpireTime`,
and `NULL` pointer arguments. The fields `LOS_SwtmrCreate` writes
after it drops the lock belong to a block no longer on the free
list, so the call is one step.
-/
import LiteOsA.Core.SortLink

namespace LiteOsA.Swtmr

open SortLink

-- ============================================================ constants

/-- `LOS_MOD_SWTMR` (los_err.h). -/
def LOS_MOD_SWTMR : Nat := 0x3

/-- `LOS_ERRNO_SWTMR_INTERVAL_NOT_SUITED` (los_swtmr.h). -/
def LOS_ERRNO_SWTMR_INTERVAL_NOT_SUITED : Nat := LOS_ERRNO_OS_ERROR LOS_MOD_SWTMR 0x01

/-- `LOS_ERRNO_SWTMR_MODE_INVALID`. -/
def LOS_ERRNO_SWTMR_MODE_INVALID : Nat := LOS_ERRNO_OS_ERROR LOS_MOD_SWTMR 0x02

/-- `LOS_ERRNO_SWTMR_MAXSIZE`. -/
def LOS_ERRNO_SWTMR_MAXSIZE : Nat := LOS_ERRNO_OS_ERROR LOS_MOD_SWTMR 0x04

/-- `LOS_ERRNO_SWTMR_ID_INVALID`. -/
def LOS_ERRNO_SWTMR_ID_INVALID : Nat := LOS_ERRNO_OS_ERROR LOS_MOD_SWTMR 0x05

/-- `LOS_ERRNO_SWTMR_NOT_CREATED`. -/
def LOS_ERRNO_SWTMR_NOT_CREATED : Nat := LOS_ERRNO_OS_ERROR LOS_MOD_SWTMR 0x06

/-- `LOS_ERRNO_SWTMR_NOT_STARTED`. -/
def LOS_ERRNO_SWTMR_NOT_STARTED : Nat := LOS_ERRNO_OS_ERROR LOS_MOD_SWTMR 0x0d

/-- `LOS_ERRNO_SWTMR_STATUS_INVALID`. -/
def LOS_ERRNO_SWTMR_STATUS_INVALID : Nat := LOS_ERRNO_OS_ERROR LOS_MOD_SWTMR 0x0e

/-- `OS_SWTMR_STATUS_UNUSED` (los_swtmr_pri.h). -/
def OS_SWTMR_STATUS_UNUSED : Nat := 0

/-- `OS_SWTMR_STATUS_CREATED`. -/
def OS_SWTMR_STATUS_CREATED : Nat := 1

/-- `OS_SWTMR_STATUS_TICKING`. -/
def OS_SWTMR_STATUS_TICKING : Nat := 2

/-- `LOS_SWTMR_MODE_ONCE` (los_swtmr.h). -/
def LOS_SWTMR_MODE_ONCE : Nat := 0

/-- `LOS_SWTMR_MODE_PERIOD`. -/
def LOS_SWTMR_MODE_PERIOD : Nat := 1

/-- `LOS_SWTMR_MODE_NO_SELFDELETE`. -/
def LOS_SWTMR_MODE_NO_SELFDELETE : Nat := 2

/-- `LOS_SWTMR_MODE_OPP`. -/
def LOS_SWTMR_MODE_OPP : Nat := 3

/-- `OS_SWTMR_MAX_TIMERID` (los_config.h). -/
def OS_SWTMR_MAX_TIMERID (LOSCFG_BASE_CORE_SWTMR_LIMIT : Nat) : Nat :=
  (0xFFFF / LOSCFG_BASE_CORE_SWTMR_LIMIT) * LOSCFG_BASE_CORE_SWTMR_LIMIT

-- ============================================================ the state

/-- The fields of `SWTMR_CTRL_S` the calls read, besides its node. -/
structure SWTMR_CTRL_S where
  ucState : Nat
  ucMode : Nat
  usTimerID : Nat
  uwOverrun : Nat
  uwInterval : Nat
  uwExpiry : Nat
  deriving DecidableEq, Repr

/-- The blocks, the free list, the sort links, each CPU's handler queue,
and each CPU's scan: the time it read and the block whose
`OsWakePendTimeSwtmr` is still to come, if any. -/
structure SwtmrSys where
  cb : Nat → SWTMR_CTRL_S
  freeList : List Nat
  sl : SortLinkSys Nat
  handlerQueue : Nat → List Nat
  scan : Nat → Option (Nat × Option Nat)

/-- What the CPU making a step sees of the rest of the system: which CPU
it is, the scheduler clock, and whether the scheduler runs. -/
structure Ctx where
  cur : Nat
  currTime : Nat
  active : Bool
  deriving DecidableEq, Repr

/-- Replace block `i`. -/
def SwtmrSys.setCb (s : SwtmrSys) (i : Nat) (c : SWTMR_CTRL_S) : SwtmrSys :=
  { s with cb := Function.update s.cb i c }

variable (LOSCFG_BASE_CORE_SWTMR_LIMIT LOSCFG_KERNEL_CORE_NUM OS_CYCLE_PER_TICK : Nat)

-- ============================================================ the helpers

/-- `OsSwtmrStart`: due after the expiry on a first one-off run, after
the interval otherwise. -/
def OsSwtmrStart (ctx : Ctx) (s : SwtmrSys) (i : Nat) : SwtmrSys :=
  let swtmr := s.cb i
  let ticks :=
    if swtmr.uwOverrun = 0 ∧ (swtmr.ucMode = LOS_SWTMR_MODE_ONCE ∨
        swtmr.ucMode = LOS_SWTMR_MODE_OPP ∨ swtmr.ucMode = LOS_SWTMR_MODE_NO_SELFDELETE) then
      swtmr.uwExpiry
    else swtmr.uwInterval
  let s := s.setCb i { swtmr with ucState := OS_SWTMR_STATUS_TICKING }
  let sl := OsAdd2SortLink LOSCFG_KERNEL_CORE_NUM OS_CYCLE_PER_TICK s.sl i ctx.currTime ticks
    .OS_SORT_LINK_SWTMR ctx.active ctx.cur
  { s with sl }

/-- `OsSwtmrDelete`: onto the tail of the free list. -/
def OsSwtmrDelete (s : SwtmrSys) (i : Nat) : SwtmrSys :=
  let s' := s.setCb i { s.cb i with ucState := OS_SWTMR_STATUS_UNUSED }
  { s' with freeList := s.freeList ++ [i] }

/-- `OsSwtmrStop`: off its sort link, if its time says it is on one. -/
def OsSwtmrStop (s : SwtmrSys) (i : Nat) : SwtmrSys :=
  let s := { s with sl := OsDeleteSortLink s.sl i .OS_SORT_LINK_SWTMR }
  s.setCb i { s.cb i with ucState := OS_SWTMR_STATUS_CREATED, uwOverrun := 0 }

/-- `OsSortLinkGetTargetExpireTime`: the ticks left. -/
def OsSortLinkGetTargetExpireTime (currTime responseTime : Nat) : Nat :=
  if currTime ≥ responseTime then 0 else u32 (responseTime - currTime) / OS_CYCLE_PER_TICK

/-- `OsWakePendTimeSwtmr` on `cpu` for block `i`, whose handler item is
queued when `queued`: a one-off timer is freed and its ID moved on, a
timer that does not delete itself is left created, and any other is
started again. -/
def OsWakePendTimeSwtmr (ctx : Ctx) (s : SwtmrSys) (cpu i : Nat) (queued : Bool) : SwtmrSys :=
  let s := if queued then
    { s with handlerQueue := Function.update s.handlerQueue cpu (s.handlerQueue cpu ++ [i]) }
    else s
  let swtmr := s.cb i
  if swtmr.ucMode = LOS_SWTMR_MODE_ONCE then
    let s := OsSwtmrDelete s i
    let id := (s.cb i).usTimerID
    let id := if id < OS_SWTMR_MAX_TIMERID LOSCFG_BASE_CORE_SWTMR_LIMIT - LOSCFG_BASE_CORE_SWTMR_LIMIT
      then id + LOSCFG_BASE_CORE_SWTMR_LIMIT else id % LOSCFG_BASE_CORE_SWTMR_LIMIT
    s.setCb i { s.cb i with usTimerID := id }
  else if swtmr.ucMode = LOS_SWTMR_MODE_NO_SELFDELETE then
    s.setCb i { swtmr with ucState := OS_SWTMR_STATUS_CREATED }
  else
    let s := s.setCb i { swtmr with uwOverrun := swtmr.uwOverrun + 1 }
    OsSwtmrStart LOSCFG_KERNEL_CORE_NUM OS_CYCLE_PER_TICK ctx s i

-- ============================================================ the calls

/-- `LOS_SwtmrCreate`: the return code, the timer ID, and the state. -/
def LOS_SwtmrCreate (s : SwtmrSys) (interval mode : Nat) : Nat × Option Nat × SwtmrSys :=
  if interval = 0 then (LOS_ERRNO_SWTMR_INTERVAL_NOT_SUITED, none, s)
  else if mode ≠ LOS_SWTMR_MODE_ONCE ∧ mode ≠ LOS_SWTMR_MODE_PERIOD ∧
      mode ≠ LOS_SWTMR_MODE_NO_SELFDELETE then (LOS_ERRNO_SWTMR_MODE_INVALID, none, s)
  else
    match s.freeList with
    | [] => (LOS_ERRNO_SWTMR_MAXSIZE, none, s)
    | i :: rest =>
      let s := { s with freeList := rest }
      let swtmr : SWTMR_CTRL_S :=
        ⟨OS_SWTMR_STATUS_CREATED, mode, (s.cb i).usTimerID, 0, interval, interval⟩
      let s := s.setCb i swtmr
      let node := { s.sl.node i with responseTime := OS_SORT_LINK_INVALID_TIME }
      let s := { s with sl := s.sl.setNode i node }
      (LOS_OK, some (s.cb i).usTimerID, s)

/-- The checks `LOS_SwtmrStart`, `LOS_SwtmrStop`, `LOS_SwtmrDelete` and
`LOS_SwtmrTimeGet` share: the ID is in range and names its block's
current timer; then `f` of the block's index. -/
def withTimer {α : Type} (s : SwtmrSys) (swtmrID : Nat) (f : Nat → Nat × α) (none : α) :
    Nat × α :=
  if swtmrID ≥ OS_SWTMR_MAX_TIMERID LOSCFG_BASE_CORE_SWTMR_LIMIT then
    (LOS_ERRNO_SWTMR_ID_INVALID, none)
  else
    let i := swtmrID % LOSCFG_BASE_CORE_SWTMR_LIMIT
    if (s.cb i).usTimerID ≠ swtmrID then (LOS_ERRNO_SWTMR_ID_INVALID, none)
    else f i

/-- `LOS_SwtmrStart`: a ticking timer is stopped and started again. -/
def LOS_SwtmrStart (ctx : Ctx) (s : SwtmrSys) (swtmrID : Nat) : Nat × SwtmrSys :=
  withTimer LOSCFG_BASE_CORE_SWTMR_LIMIT s swtmrID (fun i =>
    let st := (s.cb i).ucState
    if st = OS_SWTMR_STATUS_UNUSED then (LOS_ERRNO_SWTMR_NOT_CREATED, s)
    else if st = OS_SWTMR_STATUS_TICKING then
      (LOS_OK, OsSwtmrStart LOSCFG_KERNEL_CORE_NUM OS_CYCLE_PER_TICK ctx (OsSwtmrStop s i) i)
    else if st = OS_SWTMR_STATUS_CREATED then
      (LOS_OK, OsSwtmrStart LOSCFG_KERNEL_CORE_NUM OS_CYCLE_PER_TICK ctx s i)
    else (LOS_ERRNO_SWTMR_STATUS_INVALID, s)) s

/-- `LOS_SwtmrStop`. -/
def LOS_SwtmrStop (s : SwtmrSys) (swtmrID : Nat) : Nat × SwtmrSys :=
  withTimer LOSCFG_BASE_CORE_SWTMR_LIMIT s swtmrID (fun i =>
    let st := (s.cb i).ucState
    if st = OS_SWTMR_STATUS_UNUSED then (LOS_ERRNO_SWTMR_NOT_CREATED, s)
    else if st = OS_SWTMR_STATUS_CREATED then (LOS_ERRNO_SWTMR_NOT_STARTED, s)
    else if st = OS_SWTMR_STATUS_TICKING then (LOS_OK, OsSwtmrStop s i)
    else (LOS_ERRNO_SWTMR_STATUS_INVALID, s)) s

/-- `LOS_SwtmrDelete`: a ticking timer is stopped, then freed. -/
def LOS_SwtmrDelete (s : SwtmrSys) (swtmrID : Nat) : Nat × SwtmrSys :=
  withTimer LOSCFG_BASE_CORE_SWTMR_LIMIT s swtmrID (fun i =>
    let st := (s.cb i).ucState
    if st = OS_SWTMR_STATUS_UNUSED then (LOS_ERRNO_SWTMR_NOT_CREATED, s)
    else if st = OS_SWTMR_STATUS_TICKING then (LOS_OK, OsSwtmrDelete (OsSwtmrStop s i) i)
    else if st = OS_SWTMR_STATUS_CREATED then (LOS_OK, OsSwtmrDelete s i)
    else (LOS_ERRNO_SWTMR_STATUS_INVALID, s)) s

/-- `LOS_SwtmrTimeGet`: the return code and the ticks left. -/
def LOS_SwtmrTimeGet (ctx : Ctx) (s : SwtmrSys) (swtmrID : Nat) : Nat × Option Nat :=
  withTimer LOSCFG_BASE_CORE_SWTMR_LIMIT s swtmrID (fun i =>
    let st := (s.cb i).ucState
    if st = OS_SWTMR_STATUS_UNUSED then (LOS_ERRNO_SWTMR_NOT_CREATED, none)
    else if st = OS_SWTMR_STATUS_CREATED then (LOS_ERRNO_SWTMR_NOT_STARTED, none)
    else if st = OS_SWTMR_STATUS_TICKING then
      (LOS_OK, some (OsSortLinkGetTargetExpireTime OS_CYCLE_PER_TICK ctx.currTime
        (s.sl.node i).responseTime))
    else (LOS_ERRNO_SWTMR_STATUS_INVALID, none)) none

-- ============================================================ runs

/-- The calls a task makes. -/
inductive Call where
  | LOS_SwtmrCreate (interval mode : Nat)
  | LOS_SwtmrStart (swtmrID : Nat)
  | LOS_SwtmrStop (swtmrID : Nat)
  | LOS_SwtmrDelete (swtmrID : Nat)
  | LOS_SwtmrTimeGet (swtmrID : Nat)
  deriving DecidableEq, Repr

/-- What a call returns (its code, and the ID or the ticks it writes
out), and the state after it. -/
def callStep (ctx : Ctx) (s : SwtmrSys) : Call → (Nat × Option Nat) × SwtmrSys
  | .LOS_SwtmrCreate interval mode =>
    let r := LOS_SwtmrCreate s interval mode
    ((r.1, r.2.1), r.2.2)
  | .LOS_SwtmrStart swtmrID =>
    let r := LOS_SwtmrStart LOSCFG_BASE_CORE_SWTMR_LIMIT LOSCFG_KERNEL_CORE_NUM OS_CYCLE_PER_TICK
      ctx s swtmrID
    ((r.1, none), r.2)
  | .LOS_SwtmrStop swtmrID =>
    let r := LOS_SwtmrStop LOSCFG_BASE_CORE_SWTMR_LIMIT s swtmrID
    ((r.1, none), r.2)
  | .LOS_SwtmrDelete swtmrID =>
    let r := LOS_SwtmrDelete LOSCFG_BASE_CORE_SWTMR_LIMIT s swtmrID
    ((r.1, none), r.2)
  | .LOS_SwtmrTimeGet swtmrID => (LOS_SwtmrTimeGet LOSCFG_BASE_CORE_SWTMR_LIMIT
      OS_CYCLE_PER_TICK ctx s swtmrID, s)

/-- What a step shows: a call and what it returned, or a critical
section of a CPU's scan: a deletion (with the block it took off), the
wake of that block, or the deletion after it. -/
inductive Event where
  | call (ctx : Ctx) (c : Call) (ret : Nat × Option Nat)
  | scanFirst (ctx : Ctx) (removed : Option Nat)
  | wake (ctx : Ctx) (i : Nat) (queued : Bool)
  | scanNext (cpu : Nat) (removed : Option Nat)

/-- A scan of `cpu` going on at `t`, with block `i` to wake, if any. -/
def SwtmrSys.setScan (s : SwtmrSys) (cpu : Nat) (p : Option (Nat × Option Nat)) : SwtmrSys :=
  { s with scan := Function.update s.scan cpu p }

/-- One step. A scan begins on a CPU that is not scanning, at the time
it reads; after a deletion the CPU wakes that block, then takes its
next critical section; it is over when it deletes nothing. -/
inductive Step : SwtmrSys → Event → SwtmrSys → Prop where
  | call (s : SwtmrSys) (ctx : Ctx) (c : Call) :
      Step s (.call ctx c (callStep LOSCFG_BASE_CORE_SWTMR_LIMIT LOSCFG_KERNEL_CORE_NUM
          OS_CYCLE_PER_TICK ctx s c).1)
        (callStep LOSCFG_BASE_CORE_SWTMR_LIMIT LOSCFG_KERNEL_CORE_NUM OS_CYCLE_PER_TICK ctx s c).2
  | scanFirst {s : SwtmrSys} (ctx : Ctx) (hidle : s.scan ctx.cur = none) :
      Step s (.scanFirst ctx (scanStep s.sl ctx.cur .OS_SORT_LINK_SWTMR ctx.currTime).1)
        ({ s with sl := (scanStep s.sl ctx.cur .OS_SORT_LINK_SWTMR ctx.currTime).2 }.setScan ctx.cur
          ((scanStep s.sl ctx.cur .OS_SORT_LINK_SWTMR ctx.currTime).1.map
            fun i => (ctx.currTime, some i)))
  | wake {s : SwtmrSys} (ctx : Ctx) {t i : Nat} (queued : Bool)
      (hwake : s.scan ctx.cur = some (t, some i)) :
      Step s (.wake ctx i queued)
        ((OsWakePendTimeSwtmr LOSCFG_BASE_CORE_SWTMR_LIMIT LOSCFG_KERNEL_CORE_NUM
          OS_CYCLE_PER_TICK ctx s ctx.cur i queued).setScan ctx.cur (some (t, none)))
  | scanNext {s : SwtmrSys} (cpu : Nat) {t : Nat} (hnext : s.scan cpu = some (t, none)) :
      Step s (.scanNext cpu (scanStep s.sl cpu .OS_SORT_LINK_SWTMR t).1)
        ({ s with sl := (scanStep s.sl cpu .OS_SORT_LINK_SWTMR t).2 }.setScan cpu
          ((scanStep s.sl cpu .OS_SORT_LINK_SWTMR t).1.map fun i => (t, some i)))

/-- A call step at the value it returns, stated apart so that a run on a
fixed input names its returns. -/
theorem Step.call_ret {s : SwtmrSys} {ctx : Ctx} {c : Call} {ret : Nat × Option Nat}
    (hret : (callStep LOSCFG_BASE_CORE_SWTMR_LIMIT LOSCFG_KERNEL_CORE_NUM OS_CYCLE_PER_TICK ctx s
      c).1 = ret) :
    Step LOSCFG_BASE_CORE_SWTMR_LIMIT LOSCFG_KERNEL_CORE_NUM OS_CYCLE_PER_TICK s (.call ctx c ret)
      (callStep LOSCFG_BASE_CORE_SWTMR_LIMIT LOSCFG_KERNEL_CORE_NUM OS_CYCLE_PER_TICK ctx s c).2 :=
  hret ▸ Step.call s ctx c

/-- A scan's first critical section at the block it took off. -/
theorem Step.scanFirst_ret {s : SwtmrSys} {ctx : Ctx} {removed : Option Nat}
    (hidle : s.scan ctx.cur = none)
    (hr : (scanStep s.sl ctx.cur .OS_SORT_LINK_SWTMR ctx.currTime).1 = removed) :
    Step LOSCFG_BASE_CORE_SWTMR_LIMIT LOSCFG_KERNEL_CORE_NUM OS_CYCLE_PER_TICK s
      (.scanFirst ctx removed)
      ({ s with sl := (scanStep s.sl ctx.cur .OS_SORT_LINK_SWTMR ctx.currTime).2 }.setScan ctx.cur
        (removed.map fun i => (ctx.currTime, some i))) :=
  hr ▸ Step.scanFirst ctx hidle

/-- After `OsSwtmrInit`: every block cleared and free with its own index
as timer ID, the free list in index order, every link empty, no
handler queued and no scan going on. -/
def OsSwtmrInit : SwtmrSys where
  cb i := ⟨OS_SWTMR_STATUS_UNUSED, 0, i, 0, 0, 0⟩
  freeList := List.range LOSCFG_BASE_CORE_SWTMR_LIMIT
  sl := ⟨fun _ => ⟨0, 0⟩, fun _ _ => OsSortLinkInit⟩
  handlerQueue _ := []
  scan _ := none

end LiteOsA.Swtmr
