/-
The timer sort links (kernel/base/core/los_sortlink.c) and the scans
that expire their nodes (`OsSchedScanTimerList` in
sched_sq/los_sched.c, `OsSwtmrScan` in los_swtmr.c), for the SMP
configuration.

# What the model keeps

Nodes are drawn from any type `ν` with decidable equality; a node is
its `SortLinkList`, the `responseTime` it is due at and the `cpuid` of
the link it was put on. Each CPU has a task link and a software-timer
link, a `SortLinkAttribute`: its nodes in list order and `nodeNum`.

`OsAddNode2SortLink` puts a node first when the first node is due no
earlier, and otherwise scans back from the tail to the last node due
no later and puts it after that node (`addScan`, over the reversed
list). `OsAdd2SortLink` writes the response time, `startTime +
waitTicks * OS_CYCLE_PER_TICK` in `UINT64`, picks the CPU with
`OsFindIdleCpu` once the scheduler runs (the current CPU before), and
records it in the node. `OsDeleteSortLink` finds the link through the
node's `cpuid` and deletes only a node whose time is valid; that is
the node's "is linked" flag.

A scan holds the link's spin lock only around each deletion: it takes
the first node off while that node is due at the time it read when
it began (`scanStep`), and drops the lock to wake the node's owner
between two deletions. Each of those critical sections is one step
here, so other CPUs' adds and deletes interleave with a scan.

# What it leaves out

What the woken owners do (the tasks' and timers' own state, which the
scheduler and software-timer models keep), `OsGetNextExpireTime` and
the other readers of the links, `LOS_MpSchedule`, and `LOS_Panic` on
a type that is neither link. `nodeNum` counts nodes in memory, so its
`UINT32` arithmetic never wraps.
-/
import LiteOsA.Base
import LiteOsA.Lib.Run
import Mathlib.Logic.Function.Basic

namespace LiteOsA.SortLink

-- ============================================================ the links

/-- `SortLinkType` (los_sortlink_pri.h). -/
inductive SortLinkType where
  | OS_SORT_LINK_TASK
  | OS_SORT_LINK_SWTMR
  deriving DecidableEq, Repr

/-- `OS_SORT_LINK_INVALID_TIME`: `(UINT64)-1`. -/
def OS_SORT_LINK_INVALID_TIME : Nat := 2 ^ 64 - 1

/-- `SortLinkList`, the node a task or timer embeds. -/
structure SortLinkList where
  responseTime : Nat
  cpuid : Nat
  deriving DecidableEq, Repr

/-- `SortLinkAttribute`, a link's head. -/
structure SortLinkAttribute (ν : Type) where
  sortLink : List ν
  nodeNum : Nat
  deriving DecidableEq, Repr

/-- The nodes and every CPU's two links. -/
structure SortLinkSys (ν : Type) where
  node : ν → SortLinkList
  link : Nat → SortLinkType → SortLinkAttribute ν

variable {ν : Type} [DecidableEq ν]

/-- Replace one CPU's link of one type. -/
def SortLinkSys.setLink (s : SortLinkSys ν) (cpu : Nat) (type : SortLinkType)
    (h : SortLinkAttribute ν) : SortLinkSys ν :=
  { s with link := fun c ty => if c = cpu ∧ ty = type then h else s.link c ty }

/-- Replace one node. -/
def SortLinkSys.setNode (s : SortLinkSys ν) (x : ν) (n : SortLinkList) : SortLinkSys ν :=
  { s with node := Function.update s.node x n }

omit [DecidableEq ν] in
@[simp] theorem setLink_node (s : SortLinkSys ν) (cpu : Nat) (type : SortLinkType)
    (h : SortLinkAttribute ν) : (s.setLink cpu type h).node = s.node := rfl

omit [DecidableEq ν] in
@[simp] theorem setLink_link (s : SortLinkSys ν) (cpu : Nat) (type : SortLinkType)
    (h : SortLinkAttribute ν) (c : Nat) (ty : SortLinkType) :
    (s.setLink cpu type h).link c ty = if c = cpu ∧ ty = type then h else s.link c ty := rfl

@[simp] theorem setNode_node (s : SortLinkSys ν) (x : ν) (n : SortLinkList) :
    (s.setNode x n).node = Function.update s.node x n := rfl

@[simp] theorem setNode_link (s : SortLinkSys ν) (x : ν) (n : SortLinkList) :
    (s.setNode x n).link = s.link := rfl

/-- `OsSortLinkInit`. -/
def OsSortLinkInit : SortLinkAttribute ν := ⟨[], 0⟩

/-- The backward scan of `OsAddNode2SortLink`, over the link from its
tail: `x` goes before (in list order, after) the first node due no
later than it. -/
def addScan (rt : ν → Nat) (x : ν) : List ν → List ν
  -- not reached: the scan runs only when the first node is due earlier than `x`
  | [] => [x]
  | y :: rest => if rt y ≤ rt x then x :: y :: rest else y :: addScan rt x rest

/-- `OsAddNode2SortLink`, with the nodes' response times `rt`. -/
def OsAddNode2SortLink (rt : ν → Nat) (h : SortLinkAttribute ν) (x : ν) : SortLinkAttribute ν :=
  match h.sortLink with
  | [] => ⟨[x], h.nodeNum + 1⟩
  | first :: _ =>
    if rt first ≥ rt x then ⟨x :: h.sortLink, h.nodeNum + 1⟩
    else ⟨(addScan rt x h.sortLink.reverse).reverse, h.nodeNum + 1⟩

/-- `OsDeleteNodeSortLink` of `x` from `cpu`'s link of `type`. -/
def OsDeleteNodeSortLink (s : SortLinkSys ν) (cpu : Nat) (type : SortLinkType) (x : ν) :
    SortLinkSys ν :=
  let h := s.link cpu type
  (s.setLink cpu type ⟨h.sortLink.erase x, h.nodeNum - 1⟩).setNode x
    { s.node x with responseTime := OS_SORT_LINK_INVALID_TIME }

/-- `OsFindIdleCpu`: the last CPU after 0 whose links hold fewer nodes
than CPU 0's (the count it compares with stays CPU 0's). -/
def OsFindIdleCpu (s : SortLinkSys ν) (LOSCFG_KERNEL_CORE_NUM : Nat) : Nat :=
  let count := fun cpu => (s.link cpu .OS_SORT_LINK_TASK).nodeNum +
    (s.link cpu .OS_SORT_LINK_SWTMR).nodeNum
  (List.range' 1 (LOSCFG_KERNEL_CORE_NUM - 1)).foldl
    (fun idle cpuID => if count 0 > count cpuID then cpuID else idle) 0

/-- `OsAdd2SortLink` of `x`, due `waitTicks` ticks after `startTime`,
called on CPU `cur`, with the scheduler running or not. -/
def OsAdd2SortLink (LOSCFG_KERNEL_CORE_NUM OS_CYCLE_PER_TICK : Nat) (s : SortLinkSys ν) (x : ν)
    (startTime waitTicks : Nat) (type : SortLinkType) (active : Bool) (cur : Nat) :
    SortLinkSys ν :=
  let idleCpu := if active then OsFindIdleCpu s LOSCFG_KERNEL_CORE_NUM else cur
  let s := s.setNode x
    { s.node x with responseTime := (startTime + waitTicks * OS_CYCLE_PER_TICK) % 2 ^ 64 }
  let s := s.setLink idleCpu type
    (OsAddNode2SortLink (fun y => (s.node y).responseTime) (s.link idleCpu type) x)
  s.setNode x { s.node x with cpuid := idleCpu }

/-- `OsDeleteSortLink` of `x` from its CPU's link of `type`. -/
def OsDeleteSortLink (s : SortLinkSys ν) (x : ν) (type : SortLinkType) : SortLinkSys ν :=
  if (s.node x).responseTime ≠ OS_SORT_LINK_INVALID_TIME then
    OsDeleteNodeSortLink s (s.node x).cpuid type x
  else s

/-- One critical section of a scan of `cpu`'s link of `type` that
began at `currTime`: the first node, taken off if it is due. -/
def scanStep (s : SortLinkSys ν) (cpu : Nat) (type : SortLinkType) (currTime : Nat) :
    Option ν × SortLinkSys ν :=
  match (s.link cpu type).sortLink with
  | [] => (none, s)
  | x :: _ =>
    if (s.node x).responseTime ≤ currTime then (some x, OsDeleteNodeSortLink s cpu type x)
    else (none, s)

-- ============================================================ runs

/-- The links, and for each CPU's link of each type the time its scan
in progress compares with. -/
structure SortSys (ν : Type) where
  sys : SortLinkSys ν
  scan : Nat → SortLinkType → Option Nat

/-- What a step shows: an add, a delete, or a critical section of a
scan, with the node it took off. -/
inductive Event (ν : Type) where
  | add (x : ν) (startTime waitTicks : Nat) (type : SortLinkType) (active : Bool) (cur : Nat)
  | delete (x : ν) (type : SortLinkType)
  | scanFirst (cpu : Nat) (type : SortLinkType) (currTime : Nat) (removed : Option ν)
  | scanNext (cpu : Nat) (type : SortLinkType) (removed : Option ν)

/-- Mark a scan of `cpu`'s link of `type` as going on at `t`, or over. -/
def setScan (scan : Nat → SortLinkType → Option Nat) (cpu : Nat) (type : SortLinkType)
    (t : Option Nat) : Nat → SortLinkType → Option Nat :=
  fun c ty => if c = cpu ∧ ty = type then t else scan c ty

variable (LOSCFG_KERNEL_CORE_NUM OS_CYCLE_PER_TICK : Nat)

/-- One step: any CPU adds or deletes any node, or a scan of a CPU's
link takes its next critical section. A scan goes on after a deletion
and is over once it finds the link empty or its first node not due. -/
inductive Step : SortSys ν → Event ν → SortSys ν → Prop where
  | add (s : SortSys ν) (x : ν) (startTime waitTicks : Nat) (type : SortLinkType) (active : Bool)
      (cur : Nat) :
      Step s (.add x startTime waitTicks type active cur)
        ⟨OsAdd2SortLink LOSCFG_KERNEL_CORE_NUM OS_CYCLE_PER_TICK s.sys x startTime waitTicks type
          active cur, s.scan⟩
  | delete (s : SortSys ν) (x : ν) (type : SortLinkType) :
      Step s (.delete x type) ⟨OsDeleteSortLink s.sys x type, s.scan⟩
  | scanFirst {s : SortSys ν} (cpu : Nat) (type : SortLinkType) (currTime : Nat)
      (hidle : s.scan cpu type = none) :
      Step s (.scanFirst cpu type currTime (scanStep s.sys cpu type currTime).1)
        ⟨(scanStep s.sys cpu type currTime).2,
          setScan s.scan cpu type ((scanStep s.sys cpu type currTime).1.map fun _ => currTime)⟩
  | scanNext {s : SortSys ν} (cpu : Nat) (type : SortLinkType) {t : Nat}
      (hscan : s.scan cpu type = some t) :
      Step s (.scanNext cpu type (scanStep s.sys cpu type t).1)
        ⟨(scanStep s.sys cpu type t).2,
          setScan s.scan cpu type ((scanStep s.sys cpu type t).1.map fun _ => t)⟩

/-- A scan's first critical section at the node it took off, stated
apart so that a run on a fixed input names it. -/
theorem Step.scanFirst_ret {s : SortSys ν} {cpu : Nat} {type : SortLinkType} {currTime : Nat}
    {removed : Option ν} (hidle : s.scan cpu type = none)
    (hr : (scanStep s.sys cpu type currTime).1 = removed) :
    Step LOSCFG_KERNEL_CORE_NUM OS_CYCLE_PER_TICK s (.scanFirst cpu type currTime removed)
      ⟨(scanStep s.sys cpu type currTime).2,
        setScan s.scan cpu type (removed.map fun _ => currTime)⟩ :=
  hr ▸ Step.scanFirst cpu type currTime hidle

/-- Every link empty (`OsSortLinkInit`), every node's time invalid, no
scan going on. -/
def Init (s : SortSys ν) : Prop :=
  (∀ c ty, s.sys.link c ty = OsSortLinkInit) ∧
    (∀ x, (s.sys.node x).responseTime = OS_SORT_LINK_INVALID_TIME) ∧ ∀ c ty, s.scan c ty = none

end LiteOsA.SortLink
