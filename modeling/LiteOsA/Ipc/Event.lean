/-
The event control block (kernel/base/ipc/los_event.c).

# What the model keeps

One control block `EVENT_CB_S`: its word `uwEventID` and its pend list
`stEventList`, in list order. Tasks are drawn from any type `τ` with
decidable equality. A task keeps its `OS_TASK_FLAG_SYSTEM_TASK` flag
and where it is in the event code: free to make a call, pended in
`LOS_EventRead` with the `eventMask` and `eventMode` it wrote into its
control block, or woken (by a write or by its timeout) and not yet back
from `OsSchedTaskWait`. A woken task finishes `OsEventReadImp` in a
step of its own (`OsEventReadResume`), when the scheduler runs it
again: the second `OsEventPoll` happens there, not in the write.

Words, masks and modes are `UINT32`s, kept as `Nat`; `~x` on a `UINT32`
is `(2 ^ 32 - 1) ^^^ x`.

# What it leaves out

`NULL` control blocks, `OS_INT_ACTIVE` and `OsPreemptableInSched`
(reads are made from preemptable task context), the `once` variants
(`OsEventReadOnce`, `OsEventWriteOnce`), `LOS_EventDestroy`, the
condition-variable read, and the reschedule after a write.

# Runs

`Step` is one call, labelled with what it shows: a ready task calls
`LOS_EventRead` with any mask, mode and timeout; `LOS_EventWrite` or
`LOS_EventClear` is called (from a task or an interrupt: neither looks
at its caller); a timed wait expires; or a woken task finishes its
read.
-/
import LiteOsA.Base
import LiteOsA.Lib.Reach
import Mathlib.Logic.Function.Basic

namespace LiteOsA.Event

-- ============================================================ constants

/-- `LOS_MOD_EVENT` (los_err.h). -/
def LOS_MOD_EVENT : Nat := 0x1c

/-- `LOS_WAITMODE_AND` (los_event.h). -/
def LOS_WAITMODE_AND : Nat := 4

/-- `LOS_WAITMODE_OR` (los_event.h). -/
def LOS_WAITMODE_OR : Nat := 2

/-- `LOS_WAITMODE_CLR` (los_event.h). -/
def LOS_WAITMODE_CLR : Nat := 1

/-- `LOS_ERRNO_EVENT_SETBIT_INVALID` (los_event.h). -/
def LOS_ERRNO_EVENT_SETBIT_INVALID : Nat := LOS_ERRNO_OS_ERROR LOS_MOD_EVENT 0x00

/-- `LOS_ERRNO_EVENT_READ_TIMEOUT` (los_event.h). -/
def LOS_ERRNO_EVENT_READ_TIMEOUT : Nat := LOS_ERRNO_OS_ERROR LOS_MOD_EVENT 0x01

/-- `LOS_ERRNO_EVENT_EVENTMASK_INVALID` (los_event.h). -/
def LOS_ERRNO_EVENT_EVENTMASK_INVALID : Nat := LOS_ERRNO_OS_ERROR LOS_MOD_EVENT 0x02

/-- `LOS_ERRNO_EVENT_FLAGS_INVALID` (los_event.h). -/
def LOS_ERRNO_EVENT_FLAGS_INVALID : Nat := LOS_ERRNO_OS_ERROR LOS_MOD_EVENT 0x04

/-- `LOS_ERRNO_EVENT_READ_IN_SYSTEM_TASK` (los_event.h). -/
def LOS_ERRNO_EVENT_READ_IN_SYSTEM_TASK : Nat := LOS_ERRNO_OS_ERROR LOS_MOD_EVENT 0x07

-- ============================================================= the state


variable {τ : Type} [DecidableEq τ]

/-- How far a task is in `LOS_EventRead`. -/
inductive TaskState where
  /-- Not inside `LOS_EventRead`. -/
  | ready
  /-- Pended on the list (`OS_TASK_STATUS_PENDING`) with the
  `eventMask` and `eventMode` of its control block, with a timeout or
  not. -/
  | pended (eventMask eventMode : Nat) (timed : Bool)
  /-- Woken, by a write or by its timeout, and not yet back from
  `OsSchedTaskWait`. -/
  | woken (eventMask eventMode : Nat) (timedOut : Bool)
  deriving DecidableEq, Repr

/-- The fields of `LosTaskCB` the event code reads. -/
structure TaskCB where
  /-- `taskStatus & OS_TASK_FLAG_SYSTEM_TASK`. -/
  system : Bool
  state : TaskState
  deriving DecidableEq, Repr

/-- The control block and the tasks. -/
structure EventSys (τ : Type) where
  uwEventID : Nat
  /-- `stEventList`, the pended tasks from first to last. -/
  stEventList : List τ
  tasks : τ → TaskCB

namespace EventSys

/-- Write one task. -/
def modifyTask (s : EventSys τ) (t : τ) (f : TaskCB → TaskCB) : EventSys τ :=
  { s with tasks := Function.update s.tasks t (f (s.tasks t)) }

variable {s : EventSys τ}

@[simp]
theorem modifyTask_tasks (t t' : τ) (f : TaskCB → TaskCB) :
    (s.modifyTask t f).tasks t' = if t' = t then f (s.tasks t) else s.tasks t' :=
  Function.update_apply _ _ _ _

@[simp]
theorem modifyTask_uwEventID (t : τ) (f : TaskCB → TaskCB) :
    (s.modifyTask t f).uwEventID = s.uwEventID :=
  rfl

@[simp]
theorem modifyTask_stEventList (t : τ) (f : TaskCB → TaskCB) :
    (s.modifyTask t f).stEventList = s.stEventList :=
  rfl

end EventSys

open EventSys

-- ================================================================= poll

/-- `OsEventParamCheck` for a control block that is not `NULL`. -/
def OsEventParamCheck (eventMask mode : Nat) : Nat :=
  if eventMask = 0 then LOS_ERRNO_EVENT_EVENTMASK_INVALID
  else if eventMask &&& LOS_ERRTYPE_ERROR ≠ 0 then LOS_ERRNO_EVENT_SETBIT_INVALID
  else if (mode &&& LOS_WAITMODE_OR ≠ 0 ∧ mode &&& LOS_WAITMODE_AND ≠ 0) ∨
      mode &&& ((2 ^ 32 - 1) ^^^ (LOS_WAITMODE_OR ||| LOS_WAITMODE_AND ||| LOS_WAITMODE_CLR)) ≠ 0 ∨
      mode &&& (LOS_WAITMODE_OR ||| LOS_WAITMODE_AND) = 0 then LOS_ERRNO_EVENT_FLAGS_INVALID
  else LOS_OK

/-- `OsEventPoll(&eventID, eventMask, mode)`: what it returns, and the
word it leaves. -/
def OsEventPoll (eventID eventMask mode : Nat) : Nat × Nat :=
  let ret :=
    if mode &&& LOS_WAITMODE_OR ≠ 0 then
      if eventID &&& eventMask ≠ 0 then eventID &&& eventMask else 0
    else if eventMask ≠ 0 ∧ eventMask = eventID &&& eventMask then eventID &&& eventMask
    else 0
  (ret, if ret ≠ 0 ∧ mode &&& LOS_WAITMODE_CLR ≠ 0 then eventID &&& ((2 ^ 32 - 1) ^^^ ret) else eventID)

-- ================================================================= read

/-- `OsEventReadCheck` by `runTask`. -/
def OsEventReadCheck (s : EventSys τ) (runTask : τ) (eventMask mode : Nat) : Nat :=
  let ret := OsEventParamCheck eventMask mode
  if ret ≠ LOS_OK then ret
  else if (s.tasks runTask).system then LOS_ERRNO_EVENT_READ_IN_SYSTEM_TASK
  else LOS_OK

/-- `OsSchedTaskWait(&eventCB->stEventList, timeout, TRUE)` up to the
reschedule, after the caller wrote its mask and mode: it pends at the
tail of the list. -/
def OsSchedTaskWait (s : EventSys τ) (runTask : τ) (eventMask mode timeout : Nat) : EventSys τ :=
  let s := { s with stEventList := s.stEventList ++ [runTask] }
  s.modifyTask runTask fun task =>
    { task with state := .pended eventMask mode (decide (timeout ≠ LOS_WAIT_FOREVER)) }

/-- `LOS_EventRead` up to its wait (`OsEventRead` with `once` false):
`none` when the caller blocks, to finish in `OsEventReadResume`. -/
def LOS_EventRead (s : EventSys τ) (runTask : τ) (eventMask mode timeout : Nat) :
    Option Nat × EventSys τ :=
  let ret := OsEventReadCheck s runTask eventMask mode
  if ret ≠ LOS_OK then (some ret, s)
  else
    let (ret, eventID) := OsEventPoll s.uwEventID eventMask mode
    let s := { s with uwEventID := eventID }
    if ret = 0 then
      if timeout = 0 then (some ret, s)
      else (none, OsSchedTaskWait s runTask eventMask mode timeout)
    else (some ret, s)

/-- The rest of `OsEventReadImp` once `OsSchedTaskWait` returns:
`LOS_ERRNO_TSK_TIMEOUT` becomes `LOS_ERRNO_EVENT_READ_TIMEOUT`, and
otherwise the task polls the word again. -/
def OsEventReadResume (s : EventSys τ) (t : τ) (eventMask mode : Nat) (timedOut : Bool) :
    Nat × EventSys τ :=
  let s := s.modifyTask t fun task => { task with state := .ready }
  if timedOut then (LOS_ERRNO_EVENT_READ_TIMEOUT, s)
  else
    let (ret, eventID) := OsEventPoll s.uwEventID eventMask mode
    (ret, { s with uwEventID := eventID })

/-- `OsSchedWakePendTimeTask` on a task pended on the event: it leaves
the pend list, timed out. -/
def OsEventPendTimeout (s : EventSys τ) (t : τ) (eventMask mode : Nat) : EventSys τ :=
  let s := { s with stEventList := s.stEventList.erase t }
  s.modifyTask t fun task => { task with state := .woken eventMask mode true }

-- ================================================================ write

/-- `OsSchedTaskWake` on a task pended on the event. -/
def OsSchedTaskWake (s : EventSys τ) (resumedTask : τ) (eventMask mode : Nat) : EventSys τ :=
  let s := { s with stEventList := s.stEventList.erase resumedTask }
  s.modifyTask resumedTask fun task => { task with state := .woken eventMask mode false }

/-- The test of `OsEventResume` on a task pended with `eventMask` and
`eventMode`: an OR-waiter is tested against the bits written, an
AND-waiter against the whole word. -/
def OsEventResumeTest (eventMask eventMode events uwEventID : Nat) : Prop :=
  (eventMode &&& LOS_WAITMODE_OR ≠ 0 ∧ eventMask &&& events ≠ 0) ∨
    (eventMode &&& LOS_WAITMODE_AND ≠ 0 ∧ eventMask &&& uwEventID = eventMask)

instance (eventMask eventMode events uwEventID : Nat) :
    Decidable (OsEventResumeTest eventMask eventMode events uwEventID) :=
  inferInstanceAs (Decidable (_ ∨ _))

/-- `OsEventResume(resumedTask, eventCB, events)`. A task that is not
pended (never on the list) is left alone. -/
def OsEventResume (s : EventSys τ) (resumedTask : τ) (events : Nat) : Bool × EventSys τ :=
  match (s.tasks resumedTask).state with
  | .pended eventMask eventMode _ =>
    if OsEventResumeTest eventMask eventMode events s.uwEventID then
      (true, OsSchedTaskWake s resumedTask eventMask eventMode)
    else (false, s)
  | _ => (false, s)

/-- `OsEventWriteUnsafe` with `once` false. The loop reads each task's
successor before it may unlink the task, so it visits the list as it
stood when the loop began. -/
def OsEventWriteUnsafe (s : EventSys τ) (events : Nat) : EventSys τ :=
  let s := { s with uwEventID := s.uwEventID ||| events }
  s.stEventList.foldl (fun s resumedTask => (OsEventResume s resumedTask events).2) s

/-- `LOS_EventWrite` (`OsEventWrite` with `once` false). -/
def LOS_EventWrite (s : EventSys τ) (events : Nat) : Nat × EventSys τ :=
  if events &&& LOS_ERRTYPE_ERROR ≠ 0 then (LOS_ERRNO_EVENT_SETBIT_INVALID, s)
  else (LOS_OK, OsEventWriteUnsafe s events)

/-- `LOS_EventClear`: it keeps the bits of `events`, and returns
`LOS_OK`. -/
def LOS_EventClear (s : EventSys τ) (events : Nat) : EventSys τ :=
  { s with uwEventID := s.uwEventID &&& events }

-- ================================================================= runs

/-- What a step shows: who called what, and what the call returned
(`none`: the caller blocked). -/
inductive Call (τ : Type) where
  | read (t : τ) (eventMask mode timeout : Nat) (ret : Option Nat)
  | write (events ret : Nat)
  | clear (events : Nat)
  | timeout (t : τ)
  | resume (t : τ) (ret : Nat)
  deriving DecidableEq, Repr

/-- One step of the system. -/
inductive Step : EventSys τ → Call τ → EventSys τ → Prop where
  | read {s : EventSys τ} {t : τ} (eventMask mode timeout : Nat) :
      (s.tasks t).state = .ready →
        Step s (.read t eventMask mode timeout (LOS_EventRead s t eventMask mode timeout).1)
          (LOS_EventRead s t eventMask mode timeout).2
  | write {s : EventSys τ} (events : Nat) :
      Step s (.write events (LOS_EventWrite s events).1) (LOS_EventWrite s events).2
  | clear {s : EventSys τ} (events : Nat) : Step s (.clear events) (LOS_EventClear s events)
  | timeout {s : EventSys τ} {t : τ} {eventMask mode : Nat} :
      (s.tasks t).state = .pended eventMask mode true →
        Step s (.timeout t) (OsEventPendTimeout s t eventMask mode)
  | resume {s : EventSys τ} {t : τ} {eventMask mode : Nat} {timedOut : Bool} :
      (s.tasks t).state = .woken eventMask mode timedOut →
        Step s (.resume t (OsEventReadResume s t eventMask mode timedOut).1)
          (OsEventReadResume s t eventMask mode timedOut).2

/-- The control block as `LOS_EventInit` leaves it, and no task inside
the event code. -/
def Init (s : EventSys τ) : Prop :=
  s.uwEventID = 0 ∧ s.stEventList = [] ∧ ∀ t, (s.tasks t).state = .ready

/-- The states some run reaches. -/
def Reachable : EventSys τ → Prop :=
  Reach Init fun s s' => ∃ e, Step s e s'

end LiteOsA.Event
