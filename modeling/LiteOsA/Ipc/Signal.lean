/-
Signals (kernel/base/ipc/los_signal.c): how a signal reaches a thread,
how a process-directed signal picks its threads, and how
`sigtimedwait` takes a pending one.

# What the model keeps

A `sigset_t` is a 64-bit word, kept as a `Nat`; signal `s` is its bit
`s - 1`. A thread's `sig_cb` is kept with its four sets and two more
fields: whether the thread is pended on its `waitList`, and the signal
number of `sigunbinfo`. Waking the thread (`OsTaskWakeClearPendMask`
and `OsSchedTaskWake`) takes it off that list.

A process is the list of its threads in `threadSiblingList` order, over
the threads' control blocks; `OsSigProcessForeachChild` takes the
handler as the code passes it, a function of the visit's argument.

# What it leaves out

The rest of `siginfo_t`; `OsWaitSignalToWakeProcess` on the `SIGKILL`
path; and of `OsSigTimedWaitNoLock`'s blocking branch everything after
the task pends: the model stops there, with the wait mask set.
-/
import LiteOsA.Base

namespace LiteOsA.Signal

-- ============================================================ signal sets

/-- `_NSIG` of the C library. -/
def NSIG : Nat := 65

/-- `SIGKILL` of the C library. -/
def SIGKILL : Nat := 9

/-- `SIGSTOP` of the C library. -/
def SIGSTOP : Nat := 19

/-- `SIG_STOP_VISIT` (los_signal.h). -/
def SIG_STOP_VISIT : Nat := 1

/-- `NULL_SIGNAL_SET` (los_signal.h). -/
def NULL_SIGNAL_SET : Nat := 0

/-- `UINT64_BIT_SIZE`. -/
def UINT64_BIT_SIZE : Nat := 64

/-- `GOOD_SIGNO` (los_signal.h). -/
def GOOD_SIGNO (sig : Nat) : Bool := sig < NSIG

/-- `SIGNO2SET` (los_signal.h). -/
def SIGNO2SET (s : Nat) : Nat := 1 <<< s

/-- `OsSigIsMember(set, signo)`, read as a truth value. For `signo = 0`
the `int` `signo - 1` is `-1`, which `GOOD_SIGNO` refuses, and the
function returns `LOS_NOK`, which reads as true. -/
def OsSigIsMember (set signo : Nat) : Bool :=
  if signo = 0 then true
  else if GOOD_SIGNO (signo - 1) then set &&& SIGNO2SET (signo - 1) ≠ 0
  else true

/-- `OsSigAddSet(set, signo)`, for the signals `GOOD_SIGNO` accepts; a
refused signal leaves the set as it is. -/
def OsSigAddSet (set signo : Nat) : Nat :=
  if GOOD_SIGNO signo then set ||| SIGNO2SET (signo - 1) else set

-- ============================================================ a thread

/-- The fields of a thread's `sig_cb` the calls read and write:
`waiting` when the thread is pended on `waitList`, and `sigunbinfo`'s
signal number. -/
structure SigCB where
  sigFlag : Nat
  sigPendFlag : Nat
  sigprocmask : Nat
  sigwaitmask : Nat
  waiting : Bool
  sigunbinfo : Nat
  deriving DecidableEq, Repr

/-- The thread is pended on its `waitList` for `signo`; waking it takes
it off the list and empties its wait mask. -/
def SigCB.wakeFor (sigcb : SigCB) (signo : Nat) : SigCB :=
  if sigcb.waiting ∧ OsSigIsMember sigcb.sigwaitmask signo then
    { sigcb with waiting := false, sigwaitmask := NULL_SIGNAL_SET }
  else sigcb

/-- `OsTcbDispatch(stcb, info)` on the thread's `sig_cb`: a blocked
signal wakes a thread waiting for it or else becomes pending; an
unblocked one is flagged, and wakes a thread waiting for it. -/
def OsTcbDispatch (sigcb : SigCB) (signo : Nat) : SigCB :=
  -- signal 0 only checks that the thread exists
  if signo = 0 then sigcb
  else
    let sigcb :=
      if OsSigIsMember sigcb.sigprocmask signo then
        if sigcb.waiting ∧ OsSigIsMember sigcb.sigwaitmask signo then sigcb.wakeFor signo
        else { sigcb with sigPendFlag := OsSigAddSet sigcb.sigPendFlag signo }
      else ({ sigcb with sigFlag := OsSigAddSet sigcb.sigFlag signo } : SigCB).wakeFor signo
    { sigcb with sigunbinfo := signo }

-- ============================================================ a process

/-- `OsTcbDispatch` on thread `tcb` of the control blocks `sig`. -/
def dispatchTo (sig : Nat → SigCB) (tcb signo : Nat) : Nat → SigCB :=
  Function.update sig tcb (OsTcbDispatch (sig tcb) signo)

/-- `struct ProcessSignalInfo`: the threads the visit has recorded. -/
structure ProcessSignalInfo where
  defaultTcb : Option Nat
  unblockedTcb : Option Nat
  awakenedTcb : Option Nat
  receivedTcb : Option Nat
  deriving DecidableEq, Repr

/-- What a visit starts from. -/
def ProcessSignalInfo.empty : ProcessSignalInfo := ⟨none, none, none, none⟩

/-- A `ForEachTaskCB` handler: its return value, its argument and the
control blocks after it. -/
abbrev ForEachTaskCB := ProcessSignalInfo → (Nat → SigCB) → Nat → Nat × ProcessSignalInfo × (Nat → SigCB)

/-- `OsSigProcessForeachChild(spcb, handler, arg)` over the threads
`threads`: the first nonzero return stops the visit. -/
def OsSigProcessForeachChild (handler : ForEachTaskCB) :
    List Nat → ProcessSignalInfo → (Nat → SigCB) → Nat × ProcessSignalInfo × (Nat → SigCB)
  | [], info, sig => (LOS_OK, info, sig)
  | tcb :: rest, info, sig =>
    let r := handler info sig tcb
    if r.1 ≠ 0 then r else OsSigProcessForeachChild handler rest r.2.1 r.2.2

/-- The second half of `SigProcessSignalHandler`: a thread on which the
signal is unblocked receives it, unless one already has or it is the
thread just woken. -/
def SigProcessSignalHandler.unblocked (signo : Nat) (info : ProcessSignalInfo) (sig : Nat → SigCB)
    (tcb : Nat) : Nat × ProcessSignalInfo × (Nat → SigCB) :=
  if ¬OsSigIsMember (sig tcb).sigprocmask signo ∧ info.receivedTcb = none ∧ info.awakenedTcb ≠ some tcb then
    let info := if info.unblockedTcb = none then { info with unblockedTcb := some tcb } else info
    let info := { info with receivedTcb := some tcb }
    (if info.awakenedTcb ≠ none then SIG_STOP_VISIT else 0, info, dispatchTo sig tcb signo)
  else (0, info, sig)

/-- `SigProcessSignalHandler(tcb, arg)` for the signal `signo`: the
first thread waiting for the signal gets it, and so does the first
other thread on which it is unblocked; the visit stops once both are
found. -/
def SigProcessSignalHandler (signo : Nat) : ForEachTaskCB := fun info sig tcb =>
  let info := if info.defaultTcb = none then { info with defaultTcb := some tcb } else info
  if OsSigIsMember (sig tcb).sigwaitmask signo ∧ info.awakenedTcb = none then
    let info := { info with awakenedTcb := some tcb }
    if info.receivedTcb ≠ none then (SIG_STOP_VISIT, info, dispatchTo sig tcb signo)
    else SigProcessSignalHandler.unblocked signo info (dispatchTo sig tcb signo) tcb
  else SigProcessSignalHandler.unblocked signo info sig tcb

/-- `SigProcessKillSigHandler(tcb, arg)`: a thread waiting for the
signal is woken. -/
def SigProcessKillSigHandler (signo : Nat) : ForEachTaskCB := fun info sig tcb =>
  (0, info, Function.update sig tcb ((sig tcb).wakeFor signo))

/-- `SigProcessLoadTcb(info, sigInfo)`: when the visit dispatched to no
thread, the first thread with the signal unblocked gets it, or else the
first thread. -/
def SigProcessLoadTcb (signo : Nat) (info : ProcessSignalInfo) (sig : Nat → SigCB) : Nat → SigCB :=
  if info.awakenedTcb = none ∧ info.receivedTcb = none then
    match info.unblockedTcb, info.defaultTcb with
    | some tcb, _ => dispatchTo sig tcb signo
    | none, some tcb => dispatchTo sig tcb signo
    | none, none => sig
  else sig

/-- `OsSigProcessSend(spcb, sigInfo)` to the process with the threads
`threads` and the shared set `sigShare`: the return value, `sigShare`
after, and the control blocks after. -/
def OsSigProcessSend (threads : List Nat) (sigShare : Nat) (sig : Nat → SigCB) (signo : Nat) :
    Nat × Nat × (Nat → SigCB) :=
  if signo = SIGKILL then
    let r := OsSigProcessForeachChild (SigProcessKillSigHandler signo) threads .empty sig
    (0, OsSigAddSet sigShare signo, r.2.2)
  else
    -- the handlers return 0 or `SIG_STOP_VISIT`, never a negative error
    let r := OsSigProcessForeachChild (SigProcessSignalHandler signo) threads .empty sig
    (0, sigShare, SigProcessLoadTcb signo r.2.1 r.2.2)

-- ============================================================ sigtimedwait

/-- The loop of `FindFirstSetedBit`: it shifts `n` right while fewer
than `fuel` rounds are left and `n ^ 1ULL` is not zero. -/
def FindFirstSetedBit.loop : Nat → Nat → Nat → Nat
  | 0, _, count => count
  | fuel + 1, n, count => if n ^^^ 1 ≠ 0 then loop fuel (n >>> 1) (count + 1) else count

/-- `FindFirstSetedBit(n)` for a 64-bit `n`. -/
def FindFirstSetedBit (n : Nat) : Int :=
  if n = 0 then -1
  else
    let count := FindFirstSetedBit.loop UINT64_BIT_SIZE n 0
    if count < UINT64_BIT_SIZE then count else -1

/-- `OsSigTimedWaitNoLock(set, info, timeout)` on the calling thread's
`sig_cb`: with a pending signal of `set`, the return value, the signal
number it writes to `info`, and the `sig_cb` after; `none` when the
thread pends, with the `sig_cb` it pends with. -/
def OsSigTimedWaitNoLock (sigcb : SigCB) (set : Nat) : Option (Int × Nat) × SigCB :=
  let clear := sigcb.sigPendFlag &&& set
  if clear ≠ 0 then
    let sigcb := { sigcb with sigPendFlag := sigcb.sigPendFlag ^^^ clear }
    (some (FindFirstSetedBit clear + 1, sigcb.sigunbinfo), sigcb)
  else
    let set := OsSigAddSet (OsSigAddSet set SIGKILL) SIGSTOP
    (none, { sigcb with sigwaitmask := sigcb.sigwaitmask ||| set, waiting := true })

end LiteOsA.Signal
