/-
The message queue refines a bounded deque of messages.

# The abstract queue

`Deque len` is what a queue of `len` nodes is for: a list of messages,
at most `len` long, where a write at the tail appends, a write at the
head pushes in front, and a read pops the front and copies out exactly
its bytes. An event finishes an operation when it returns `LOS_OK`, at
once or when a woken caller resumes (`Event.done`); every other event
leaves the list alone.

# The ring

`Holds cb S`: the nodes from `queueHead` on hold `S` (`RingHolds`), and
`queueTail` is `|S|` nodes on. `OsQueueBufferOperate` keeps it, one
lemma per operation (`Holds.readHead`, `Holds.writeTail`,
`Holds.writeHead`).

# The counts

A count of one side is not the number of messages or free nodes: a
hand-off wakes a task without raising the count, and the woken task
does not take one. `Tokens s q rw n` counts both: the count plus the
tasks handed one and not yet resumed. The readable tokens are `|S|` and
the writable ones `queueLen - |S|` (`QueueOk`); an operation takes one
token of its side (`InFlight`), moves the bytes, and the hand-off gives
one to the other side.

# Runs

`queue_deque` puts it together by `Run.simulate`: every run of the
queues is matched, queue by queue, by a run of `Deque` through the same
events.
-/
import LiteOsA.Ipc.Queue
import LiteOsA.Lib.Enumerates
import LiteOsA.Lib.Ring
import LiteOsA.Lib.Run

namespace LiteOsA.Queue

open QueueSys RW


variable {τ κ : Type} [DecidableEq τ] [DecidableEq κ]

-- ===================================================== the abstract queue

/-- The queue a call is on. -/
def Call.queue : Call κ → κ
  | .LOS_QueueReadCopy q _ _ => q
  | .LOS_QueueWriteHeadCopy q _ _ => q
  | .LOS_QueueWriteCopy q _ _ => q

/-- The operation a call makes. -/
def Call.op : Call κ → Op
  | .LOS_QueueReadCopy _ bufferSize _ => .readHead bufferSize
  | .LOS_QueueWriteHeadCopy _ msg _ => .writeHead msg
  | .LOS_QueueWriteCopy _ msg _ => .writeTail msg

/-- The operation `op` finished, with what it copied out, if it returned
`LOS_OK`. -/
def finished (op : Op) : Option (Nat × Option Msg) → Option (Op × Option Msg)
  | some (ret, out) => if ret = LOS_OK then some (op, out) else none
  | none => none

/-- The operation an event finished on `q`, at once or when its woken
caller resumed. -/
def Event.done (q : κ) : Event τ κ → Option (Op × Option Msg)
  | .call _ c ret => if c.queue = q then finished c.op ret else none
  | .resume _ q' op ret => if q' = q then finished op (some ret) else none
  | .timeout _ _ => none

/-- A bounded deque of at most `len` messages, and what a finished
operation does to it. -/
inductive Deque (len : Nat) : List Msg → Option (Op × Option Msg) → List Msg → Prop where
  | idle {S : List Msg} : Deque len S none S
  | writeTail {S : List Msg} {m : Msg} :
      S.length < len → Deque len S (some (.writeTail m, none)) (S ++ [m])
  | writeHead {S : List Msg} {m : Msg} :
      S.length < len → Deque len S (some (.writeHead m, none)) (m :: S)
  | readHead {S : List Msg} {m : Msg} {bufferSize : Nat} :
      Deque len (m :: S) (some (.readHead bufferSize, some m)) S

/-- The deque never holds more than `len` messages. -/
theorem Deque.length_le {len : Nat} {S S' : List Msg} {d : Option (Op × Option Msg)}
    (h : Deque len S d S') (hS : S.length ≤ len) : S'.length ≤ len := by
  cases h with
  | idle => exact hS
  | writeTail hlt =>
    rw [List.length_append, List.length_singleton]
    omega
  | writeHead hlt =>
    rw [List.length_cons]
    omega
  | readHead => simp only [List.length_cons] at hS; omega

-- ============================================================== the ring

/-- The queue's nodes hold `S` from `queueHead` on, `queueTail` is after
its last message, and each message fits a node. -/
structure Holds (cb : LosQueueCB τ) (S : List Msg) : Prop where
  len_pos : 0 < cb.queueLen
  len_lt : cb.queueLen < 2 ^ 16
  head_lt : cb.queueHead < cb.queueLen
  tail_eq : cb.queueTail = (cb.queueHead + S.length) % cb.queueLen
  ring : RingHolds cb.queueHandle cb.queueLen cb.queueHead S
  len_le : S.length ≤ cb.queueLen
  fits : ∀ m ∈ S, m.length ≤ cb.queueSize - 4

/-- Two control blocks with the same ring. -/
structure SameRing (cb cb' : LosQueueCB τ) : Prop where
  len : cb'.queueLen = cb.queueLen
  size : cb'.queueSize = cb.queueSize
  handle : cb'.queueHandle = cb.queueHandle
  head : cb'.queueHead = cb.queueHead
  tail : cb'.queueTail = cb.queueTail

omit [DecidableEq τ] in
theorem SameRing.refl (cb : LosQueueCB τ) : SameRing cb cb :=
  ⟨rfl, rfl, rfl, rfl, rfl⟩

omit [DecidableEq τ] in
theorem SameRing.trans {cb cb' cb'' : LosQueueCB τ} (h : SameRing cb cb') (h' : SameRing cb' cb'') :
    SameRing cb cb'' :=
  ⟨h'.len.trans h.len, h'.size.trans h.size, h'.handle.trans h.handle, h'.head.trans h.head,
    h'.tail.trans h.tail⟩

omit [DecidableEq τ] in
theorem Holds.sameRing {cb cb' : LosQueueCB τ} {S : List Msg} (h : Holds cb S)
    (hr : SameRing cb cb') : Holds cb' S := by
  obtain ⟨hlen, hsize, hhandle, hhead, htail⟩ := hr
  constructor <;> simp only [hlen, hsize, hhandle, hhead, htail]
  · exact h.len_pos
  · exact h.len_lt
  · exact h.head_lt
  · exact h.tail_eq
  · exact h.ring
  · exact h.len_le
  · exact h.fits

omit [DecidableEq τ] in
@[simp]
theorem OsQueueBufferOperate_cnt (cb : LosQueueCB τ) (op : Op) :
    (OsQueueBufferOperate cb op).1.readWriteableCnt = cb.readWriteableCnt := by
  cases op <;> simp only [OsQueueBufferOperate] <;> split_ifs <;> rfl

omit [DecidableEq τ] in
@[simp]
theorem OsQueueBufferOperate_list (cb : LosQueueCB τ) (op : Op) :
    (OsQueueBufferOperate cb op).1.readWriteList = cb.readWriteList := by
  cases op <;> simp only [OsQueueBufferOperate] <;> split_ifs <;> rfl

omit [DecidableEq τ] in
@[simp]
theorem OsQueueBufferOperate_len (cb : LosQueueCB τ) (op : Op) :
    (OsQueueBufferOperate cb op).1.queueLen = cb.queueLen := by
  cases op <;> simp only [OsQueueBufferOperate] <;> split_ifs <;> rfl

omit [DecidableEq τ] in
@[simp]
theorem OsQueueBufferOperate_size (cb : LosQueueCB τ) (op : Op) :
    (OsQueueBufferOperate cb op).1.queueSize = cb.queueSize := by
  cases op <;> simp only [OsQueueBufferOperate] <;> split_ifs <;> rfl

section buffer

variable {cb : LosQueueCB τ} {S : List Msg} {m : Msg}

omit [DecidableEq τ] in
/-- A read takes the message at the head, whole: it fits the reader's
buffer. -/
theorem Holds.readHead (h : Holds cb (m :: S)) {bufferSize : Nat}
    (hfit : cb.queueSize - 4 ≤ bufferSize) :
    (OsQueueBufferOperate cb (.readHead bufferSize)).2 = some m ∧
      Holds (OsQueueBufferOperate cb (.readHead bufferSize)).1 S := by
  obtain ⟨hm, hring⟩ := h.ring.pop_front
  rw [Nat.mod_eq_of_lt h.head_lt] at hm
  have hmfit : m.length ≤ cb.queueSize - 4 := h.fits m List.mem_cons_self
  have hnext := RingHolds.next_eq_mod h.head_lt
  simp only [OsQueueBufferOperate, hm, hnext]
  rw [if_neg (by omega)]
  refine ⟨rfl, ⟨h.len_pos, h.len_lt, Nat.mod_lt _ h.len_pos, ?_, hring, ?_, ?_⟩⟩
  · rw [h.tail_eq, Nat.mod_add_mod, List.length_cons]
    congr 1
    omega
  · have := h.len_le
    simp only [List.length_cons] at this
    show S.length ≤ cb.queueLen
    omega
  · intro x hx
    exact h.fits x (List.mem_cons_of_mem _ hx)

omit [DecidableEq τ] in
/-- A write at the tail stores the message after the last one. -/
theorem Holds.writeTail (h : Holds cb S) (hlt : S.length < cb.queueLen)
    (hfit : m.length ≤ cb.queueSize - 4) :
    (OsQueueBufferOperate cb (.writeTail m)).2 = none ∧
      Holds (OsQueueBufferOperate cb (.writeTail m)).1 (S ++ [m]) := by
  have hnext := RingHolds.next_eq_mod (h.tail_eq ▸ Nat.mod_lt _ h.len_pos :
    cb.queueTail < cb.queueLen)
  simp only [OsQueueBufferOperate, hnext]
  rw [if_neg (by omega)]
  refine ⟨rfl, ⟨h.len_pos, h.len_lt, h.head_lt, ?_, ?_, ?_, ?_⟩⟩
  · rw [h.tail_eq, Nat.mod_add_mod, List.length_append, List.length_singleton, Nat.add_assoc]
  · rw [h.tail_eq]
    exact h.ring.push_back hlt m
  · show (S ++ [m]).length ≤ cb.queueLen
    rw [List.length_append, List.length_singleton]
    omega
  · intro x hx
    rcases List.mem_append.1 hx with hx | hx
    · exact h.fits x hx
    · rw [List.mem_singleton.1 hx]
      exact hfit

omit [DecidableEq τ] in
/-- A write at the head stores the message in the node before the first
and moves the head back to it. -/
theorem Holds.writeHead (h : Holds cb S) (hlt : S.length < cb.queueLen)
    (hfit : m.length ≤ cb.queueSize - 4) :
    (OsQueueBufferOperate cb (.writeHead m)).2 = none ∧
      Holds (OsQueueBufferOperate cb (.writeHead m)).1 (m :: S) := by
  have hprev := RingHolds.prev_eq_mod h.head_lt
  simp only [OsQueueBufferOperate, hprev]
  rw [if_neg (by omega)]
  refine ⟨rfl, ⟨h.len_pos, h.len_lt, Nat.mod_lt _ h.len_pos, ?_, ?_, ?_, ?_⟩⟩
  · -- one node back and `|S| + 1` on is where the tail already was
    rw [h.tail_eq, Nat.mod_add_mod, List.length_cons,
      show cb.queueHead + (cb.queueLen - 1) + (S.length + 1) = cb.queueHead + S.length + cb.queueLen
        by have := h.len_pos; omega,
      Nat.add_mod_right]
  · exact h.ring.push_front hlt m
  · show (m :: S).length ≤ cb.queueLen
    rw [List.length_cons]
    omega
  · intro x hx
    rcases List.mem_cons.1 hx with rfl | hx
    · exact hfit
    · exact h.fits x hx

end buffer

-- ============================================================ the counts

/-- Task `t` waits on side `rw` of `q`. -/
def Pended (s : QueueSys τ κ) (q : κ) (rw : RW) (t : τ) : Prop :=
  ∃ op b, s.tasks t = .pended q op b ∧ op.readWrite = rw

/-- Task `t` was handed a count of side `rw` of `q` and has not resumed. -/
def Handed (s : QueueSys τ κ) (q : κ) (rw : RW) (t : τ) : Prop :=
  ∃ op, s.tasks t = .woken q op false ∧ op.readWrite = rw

/-- Side `rw` of `q` has `n` tokens: its count, and the tasks handed a
count and not yet resumed. -/
def Tokens (s : QueueSys τ κ) (q : κ) (rw : RW) (n : Nat) : Prop :=
  ∃ w, Enumerates w (Handed s q rw) ∧ (s.queues q).readWriteableCnt rw + w.length = n

/-- What `OsQueueOperateParamCheck` lets through. -/
def Fits (queueSize : Nat) : Op → Prop
  | .readHead bufferSize => queueSize - 4 ≤ bufferSize
  | .writeHead msg => msg.length ≤ queueSize - 4
  | .writeTail msg => msg.length ≤ queueSize - 4

/-- The queue and the operation a task is inside of. -/
def TaskState.making : TaskState κ → Option (κ × Op)
  | .ready => none
  | .pended q op _ => some (q, op)
  | .woken q op _ => some (q, op)

/-- The tokens a queue holding `S` has: one readable per message, one
writable per free node. -/
def need (cb : LosQueueCB τ) (S : List Msg) : RW → Nat
  | OS_QUEUE_READ => S.length
  | OS_QUEUE_WRITE => cb.queueLen - S.length

/-- What holds of every queue: its pend lists list its waiters, and a
task inside a call makes an operation that passed the size checks. -/
structure SysOk (s : QueueSys τ κ) : Prop where
  lists : ∀ q rw, Enumerates ((s.queues q).readWriteList rw) (Pended s q rw)
  fits : ∀ t q op, (s.tasks t).making = some (q, op) → Fits (s.queues q).queueSize op

/-- Queue `q` holds `S`, with the tokens `S` needs. -/
structure QueueOk (s : QueueSys τ κ) (q : κ) (S : List Msg) : Prop where
  holds : Holds (s.queues q) S
  tokens : ∀ rw, Tokens s q rw (need (s.queues q) S rw)

/-- `s'` differs from `s` only on queue `q` and its tasks: every other
queue, and who holds a token of it, is as it was. -/
structure Frame (q : κ) (s s' : QueueSys τ κ) : Prop where
  queues : ∀ q', q' ≠ q → s'.queues q' = s.queues q'
  handed : ∀ q', q' ≠ q → ∀ rw x, Handed s' q' rw x ↔ Handed s q' rw x

section counts

variable {s : QueueSys τ κ}

omit [DecidableEq τ] in
@[simp]
theorem handed_modifyQueue (q' : κ) (f : LosQueueCB τ → LosQueueCB τ) :
    Handed (s.modifyQueue q' f) = Handed s :=
  rfl

omit [DecidableEq τ] in
@[simp]
theorem pended_modifyQueue (q' : κ) (f : LosQueueCB τ → LosQueueCB τ) :
    Pended (s.modifyQueue q' f) = Pended s :=
  rfl

omit [DecidableEq κ] in
theorem handed_setTask (t : τ) (st : TaskState κ) (q : κ) (rw : RW) (x : τ) :
    Handed (s.setTask t st) q rw x ↔
      if x = t then ∃ op, st = .woken q op false ∧ op.readWrite = rw else Handed s q rw x := by
  unfold Handed
  by_cases hx : x = t <;> simp [hx]

omit [DecidableEq κ] in
theorem pended_setTask (t : τ) (st : TaskState κ) (q : κ) (rw : RW) (x : τ) :
    Pended (s.setTask t st) q rw x ↔
      if x = t then ∃ op b, st = .pended q op b ∧ op.readWrite = rw else Pended s q rw x := by
  unfold Pended
  by_cases hx : x = t <;> simp [hx]

theorem RW.not_ne (rw : RW) : rw.not ≠ rw := by
  cases rw <;> decide

omit [DecidableEq τ] [DecidableEq κ] in
theorem Frame.refl (q : κ) (s : QueueSys τ κ) : Frame q s s :=
  ⟨fun _ _ => rfl, fun _ _ _ _ => Iff.rfl⟩

omit [DecidableEq τ] [DecidableEq κ] in
theorem Frame.trans {q : κ} {s' s'' : QueueSys τ κ} (h : Frame q s s') (h' : Frame q s' s'') :
    Frame q s s'' :=
  ⟨fun q' hq => (h'.queues q' hq).trans (h.queues q' hq),
    fun q' hq rw x => (h'.handed q' hq rw x).trans (h.handed q' hq rw x)⟩

omit [DecidableEq τ] in
theorem Frame.modifyQueue (q : κ) (f : LosQueueCB τ → LosQueueCB τ) :
    Frame q s (s.modifyQueue q f) :=
  ⟨fun q' hq => by simp [hq], fun _ _ _ _ => Iff.rfl⟩

omit [DecidableEq κ] in
/-- A task of `q` changes state: no other queue sees it. -/
theorem Frame.setTask {q : κ} {t : τ} {st : TaskState κ}
    (hold : ∀ q' op b, s.tasks t = .woken q' op b → q' = q)
    (hnew : ∀ q' op b, st = .woken q' op b → q' = q) : Frame q s (s.setTask t st) := by
  refine ⟨fun _ _ => rfl, fun q' hq rw x => ?_⟩
  rw [handed_setTask]
  by_cases hx : x = t
  · subst hx
    simp only [if_true]
    constructor
    · rintro ⟨op, hst, -⟩
      exact absurd (hnew q' op false hst) hq
    · rintro ⟨op, hst, -⟩
      exact absurd (hold q' op false hst) hq
  · simp [hx]

omit [DecidableEq τ] [DecidableEq κ] in
theorem QueueOk.frame {q q' : κ} {s' : QueueSys τ κ} {S : List Msg} (h : QueueOk s q' S)
    (hf : Frame q s s') (hq : q' ≠ q) : QueueOk s' q' S := by
  have hcb := hf.queues q' hq
  refine ⟨hcb ▸ h.holds, fun rw => ?_⟩
  obtain ⟨w, hw, hcnt⟩ := h.tokens rw
  refine ⟨w, hw.congr (hf.handed q' hq rw), ?_⟩
  rw [hcb]
  exact hcnt

omit [DecidableEq τ] in
theorem need_congr {cb cb' : LosQueueCB τ} (h : cb'.queueLen = cb.queueLen) (S : List Msg) :
    need cb' S = need cb S := by
  funext rw
  cases rw <;> simp [need, h]

omit [DecidableEq κ] [DecidableEq τ] in
/-- The same ring, the same counts and the same tasks handed a token
keep a queue's contents. -/
theorem QueueOk.congr {s' : QueueSys τ κ} {q : κ} {S : List Msg} (h : QueueOk s q S)
    (hr : SameRing (s.queues q) (s'.queues q))
    (hcnt : (s'.queues q).readWriteableCnt = (s.queues q).readWriteableCnt)
    (hH : ∀ rw x, Handed s' q rw x ↔ Handed s q rw x) : QueueOk s' q S := by
  refine ⟨h.holds.sameRing hr, fun rw => ?_⟩
  obtain ⟨w, hw, hn⟩ := h.tokens rw
  refine ⟨w, hw.congr (hH rw), ?_⟩
  rw [hcnt, need_congr hr.len, hn]

omit [DecidableEq τ] [DecidableEq κ] in
/-- The tokens stay with the count and the handed tasks. -/
theorem Tokens.congr {s' : QueueSys τ κ} {q : κ} {rw : RW} {n : Nat} (h : Tokens s q rw n)
    (hcnt : (s'.queues q).readWriteableCnt rw = (s.queues q).readWriteableCnt rw)
    (hH : ∀ x, Handed s' q rw x ↔ Handed s q rw x) : Tokens s' q rw n := by
  obtain ⟨w, hw, hn⟩ := h
  exact ⟨w, hw.congr hH, hcnt ▸ hn⟩

omit [DecidableEq κ] in
/-- A task that is neither handed a token of `q` before nor after its
change leaves the tokens of `q` alone. -/
theorem Tokens.setTask {q : κ} {rw : RW} {n : Nat} {t : τ} {st : TaskState κ}
    (h : Tokens s q rw n) (hold : ¬ Handed s q rw t)
    (hnew : ∀ op, st = .woken q op false → op.readWrite ≠ rw) : Tokens (s.setTask t st) q rw n := by
  refine h.congr ?_ fun x => ?_
  · rfl
  rw [handed_setTask]
  by_cases hx : x = t
  · subst hx
    simp only [if_true]
    constructor
    · rintro ⟨op, hst, hrw⟩
      exact absurd hrw (hnew op hst)
    · intro hH
      exact absurd hH hold
  · simp [hx]

omit [DecidableEq κ] in
/-- A resumed task gives up the token it was handed. -/
theorem Tokens.resume {q : κ} {rw : RW} {n : Nat} {t : τ} (h : Tokens s q rw n)
    (ht : Handed s q rw t) : Tokens (s.setTask t .ready) q rw (n - 1) := by
  obtain ⟨w, hw, hn⟩ := h
  have htw : t ∈ w := (hw.mem_iff t).2 ht
  refine ⟨w.erase t, hw.erase fun x => ?_, ?_⟩
  · rw [handed_setTask]
    by_cases hx : x = t <;> simp [hx]
  · have hlen := List.length_erase_of_mem htw
    simp only [setTask_queues]
    have hpos := List.length_pos_of_mem htw
    omega

omit [DecidableEq κ] in
/-- A woken waiter holds the token it is handed. -/
theorem Tokens.wake {q : κ} {rw : RW} {n : Nat} {t : τ} {op : Op} {b : Bool} (h : Tokens s q rw n)
    (ht : s.tasks t = .pended q op b) (hrw : op.readWrite = rw) :
    Tokens (s.setTask t (.woken q op false)) q rw (n + 1) := by
  obtain ⟨w, hw, hn⟩ := h
  have hnot : ¬ Handed s q rw t := by
    rintro ⟨op', ht', -⟩
    rw [ht] at ht'
    cases ht'
  refine ⟨w ++ [t], hw.concat hnot fun x => ?_, ?_⟩
  · rw [handed_setTask]
    by_cases hx : x = t
    · subst hx
      simp [hrw]
    · simp [hx]
  · simp only [setTask_queues, List.length_append, List.length_singleton]
    omega

end counts

-- ============================================================= the edits

section edits

variable {s : QueueSys τ κ}

/-- A ready caller pends at the tail of its side. -/
theorem SysOk.wait (h : SysOk s) {t : τ} {q : κ} {op : Op} (timeout : Nat)
    (hready : s.tasks t = .ready) (hfit : Fits (s.queues q).queueSize op) :
    SysOk (OsSchedTaskWait s t q op timeout) := by
  have hnot : ∀ q' rw', ¬ Pended s q' rw' t := by
    rintro q' rw' ⟨op', b, ht, -⟩
    rw [hready] at ht
    cases ht
  constructor
  · intro q' rw'
    simp only [OsSchedTaskWait, setTask_queues, modifyQueue_queues]
    by_cases hq : q' = q
    · subst hq
      by_cases hrw : rw' = op.readWrite
      · subst hrw
        simp only [if_true, Function.update_self]
        apply (h.lists q' op.readWrite).concat (hnot _ _)
        intro x
        rw [pended_setTask]
        by_cases hx : x = t
        · simp only [hx, if_true, or_true, iff_true]
          exact ⟨op, _, rfl, rfl⟩
        · simp [hx]
      · simp only [if_true, Function.update_of_ne hrw]
        apply (h.lists q' rw').congr
        intro x
        rw [pended_setTask]
        by_cases hx : x = t
        · subst hx
          simp [hnot, Ne.symm hrw]
        · simp [hx]
    · simp only [hq, if_false]
      apply (h.lists q' rw').congr
      intro x
      rw [pended_setTask]
      by_cases hx : x = t
      · subst hx
        simp [hnot, Ne.symm hq]
      · simp [hx]
  · intro t' q' op' hm
    simp only [OsSchedTaskWait, setTask_queues, setTask_tasks, modifyQueue_queues] at hm ⊢
    by_cases ht : t' = t
    · subst ht
      simp only [if_true, TaskState.making, Option.some.injEq, Prod.mk.injEq] at hm
      obtain ⟨rfl, rfl⟩ := hm
      simpa using hfit
    · simp only [ht, if_false] at hm
      have := h.fits t' q' op' hm
      by_cases hq : q' = q
      · subst hq
        simpa using this
      · simpa [hq] using this

theorem Frame.wait {t : τ} {q : κ} {op : Op} (timeout : Nat) (hready : s.tasks t = .ready) :
    Frame q s (OsSchedTaskWait s t q op timeout) :=
  (Frame.modifyQueue q _).trans
    (Frame.setTask (by intro q' op' b h; simp [hready] at h) (by intro q' op' b h; cases h))

/-- A pended caller leaves the queue untouched: only a pend list grows. -/
theorem QueueOk.wait {q : κ} {S : List Msg} {t : τ} {op : Op} (h : QueueOk s q S) (timeout : Nat)
    (hready : s.tasks t = .ready) : QueueOk (OsSchedTaskWait s t q op timeout) q S := by
  have hnot : ∀ rw, ¬ Handed s q rw t := by
    rintro rw ⟨op', ht, -⟩
    rw [hready] at ht
    cases ht
  apply h.congr
  · simp only [OsSchedTaskWait, setTask_queues, modifyQueue_queues, if_true]
    exact ⟨rfl, rfl, rfl, rfl, rfl⟩
  · simp [OsSchedTaskWait]
  · intro rw x
    rw [OsSchedTaskWait, handed_setTask, handed_modifyQueue]
    by_cases hx : x = t
    · subst hx
      simp [hnot rw]
    · simp [hx]

/-- A waiter leaves its pend list, woken: by its timeout
(`OsQueuePendTimeout`) or by a hand-off (`OsSchedTaskWake`). -/
def leave (s : QueueSys τ κ) (t : τ) (q : κ) (op : Op) (timedOut : Bool) : QueueSys τ κ :=
  let s := s.modifyQueue q fun cb =>
    let list := (cb.readWriteList op.readWrite).erase t
    { cb with readWriteList := Function.update cb.readWriteList op.readWrite list }
  s.setTask t (.woken q op timedOut)

theorem OsQueuePendTimeout_eq (t : τ) (q : κ) (op : Op) :
    OsQueuePendTimeout s t q op = leave s t q op true :=
  rfl

theorem OsSchedTaskWake_eq {q : κ} {r : τ} {op : Op} {b : Bool} (hr : s.tasks r = .pended q op b) :
    OsSchedTaskWake s q op.readWrite r = leave s r q op false := by
  simp only [OsSchedTaskWake, modifyQueue_tasks, hr]
  rfl

theorem SysOk.leave (h : SysOk s) {t : τ} {q : κ} {op : Op} {b : Bool}
    (ht : s.tasks t = .pended q op b) (timedOut : Bool) : SysOk (leave s t q op timedOut) := by
  -- the waiter is pended on one side of one queue, and on none after
  have hwas : ∀ q' rw', Pended s q' rw' t ↔ q' = q ∧ rw' = op.readWrite := by
    intro q' rw'
    simp only [Pended, ht, TaskState.pended.injEq]
    constructor
    · rintro ⟨op', b', ⟨rfl, rfl, rfl⟩, hrw⟩
      exact ⟨rfl, hrw.symm⟩
    · rintro ⟨rfl, rfl⟩
      exact ⟨op, b, ⟨rfl, rfl, rfl⟩, rfl⟩
  constructor
  · intro q' rw'
    simp only [Queue.leave, setTask_queues, modifyQueue_queues]
    by_cases hq : q' = q
    · subst hq
      by_cases hrw : rw' = op.readWrite
      · subst hrw
        simp only [if_true, Function.update_self]
        apply (h.lists q' op.readWrite).erase
        intro x
        rw [pended_setTask]
        by_cases hx : x = t
        · simp [hx]
        · simp [hx]
      · simp only [if_true, Function.update_of_ne hrw]
        apply (h.lists q' rw').congr
        intro x
        rw [pended_setTask]
        by_cases hx : x = t
        · subst hx
          simp [hwas, hrw]
        · simp [hx]
    · simp only [hq, if_false]
      apply (h.lists q' rw').congr
      intro x
      rw [pended_setTask]
      by_cases hx : x = t
      · subst hx
        simp [hwas, hq]
      · simp [hx]
  · -- the node size is untouched, and the waiter makes the same operation
    intro t' q' op' hm
    have hsize : ((Queue.leave s t q op timedOut).queues q').queueSize = (s.queues q').queueSize := by
      by_cases hq : q' = q
      · subst hq
        simp [Queue.leave]
      · simp [Queue.leave, hq]
    rw [hsize]
    simp only [Queue.leave, setTask_tasks, modifyQueue_tasks] at hm
    by_cases hx : t' = t
    · subst hx
      simp only [if_true, TaskState.making] at hm
      exact h.fits t' q' op' (by rw [ht]; exact hm)
    · simp only [hx, if_false] at hm
      exact h.fits t' q' op' hm

theorem Frame.leave {t : τ} {q : κ} {op : Op} {b : Bool} (ht : s.tasks t = .pended q op b)
    (timedOut : Bool) : Frame q s (leave s t q op timedOut) :=
  (Frame.modifyQueue q _).trans
    (Frame.setTask (by intro q' op' b' h; simp [ht] at h) (by intro q' op' b' h; cases h; rfl))

theorem sameRing_leave (t : τ) (q : κ) (op : Op) (timedOut : Bool) :
    SameRing (s.queues q) ((leave s t q op timedOut).queues q) := by
  simp only [Queue.leave, setTask_queues, modifyQueue_queues, if_true]
  exact ⟨rfl, rfl, rfl, rfl, rfl⟩

theorem cnt_leave (t : τ) (q : κ) (op : Op) (timedOut : Bool) :
    ((leave s t q op timedOut).queues q).readWriteableCnt = (s.queues q).readWriteableCnt := by
  simp [Queue.leave]

/-- A waiter that times out holds no token. -/
theorem QueueOk.timeout {q : κ} {S : List Msg} {t : τ} {op : Op} {b : Bool} (h : QueueOk s q S)
    (ht : s.tasks t = .pended q op b) : QueueOk (leave s t q op true) q S := by
  apply h.congr (sameRing_leave t q op true) (cnt_leave t q op true)
  intro rw x
  rw [Queue.leave, handed_setTask, handed_modifyQueue]
  by_cases hx : x = t
  · subst hx
    simp [Handed, ht]
  · simp [hx]

/-- A woken waiter holds the token it was handed. -/
theorem Tokens.leave {q : κ} {n : Nat} {t : τ} {op : Op} {b : Bool} (h : Tokens s q op.readWrite n)
    (ht : s.tasks t = .pended q op b) : Tokens (leave s t q op false) q op.readWrite (n + 1) := by
  unfold Queue.leave
  exact Tokens.wake (h.congr (by simp) fun _ => Iff.rfl) ht rfl

omit [DecidableEq τ] in
/-- An edit of a queue that keeps its pend lists and node size. -/
theorem SysOk.modifyQueue (h : SysOk s) (q : κ) {f : LosQueueCB τ → LosQueueCB τ}
    (hl : (f (s.queues q)).readWriteList = (s.queues q).readWriteList)
    (hs : (f (s.queues q)).queueSize = (s.queues q).queueSize) : SysOk (s.modifyQueue q f) := by
  constructor
  · intro q' rw
    by_cases hq : q' = q
    · subst hq
      simpa [hl] using h.lists q' rw
    · simpa [hq] using h.lists q' rw
  · intro t q' op hm
    by_cases hq : q' = q
    · subst hq
      simpa [hs] using h.fits t q' op hm
    · simpa [hq] using h.fits t q' op hm

omit [DecidableEq κ] in
/-- A woken task returns from `OsSchedTaskWait`. -/
theorem SysOk.setReady (h : SysOk s) {t : τ} {q : κ} {op : Op} {b : Bool}
    (ht : s.tasks t = .woken q op b) : SysOk (s.setTask t .ready) := by
  constructor
  · intro q' rw
    apply (h.lists q' rw).congr
    intro x
    rw [pended_setTask]
    by_cases hx : x = t
    · subst hx
      simp [Pended, ht]
    · simp [hx]
  · intro t' q' op' hm
    simp only [setTask_tasks, setTask_queues] at hm ⊢
    by_cases hx : t' = t
    · simp [hx, TaskState.making] at hm
    · simp only [hx, if_false] at hm
      exact h.fits t' q' op' hm

omit [DecidableEq κ] in
theorem Frame.setReady {t : τ} {q : κ} {op : Op} {b : Bool} (ht : s.tasks t = .woken q op b) :
    Frame q s (s.setTask t .ready) :=
  Frame.setTask (by intro q' op' b' h; rw [ht] at h; cases h; rfl) (by intro q' op' b' h; cases h)

omit [DecidableEq τ] in
/-- A count taken: one token fewer. -/
theorem Tokens.cntDec {q : κ} {rw : RW} {n : Nat} (h : Tokens s q rw n)
    (hpos : 0 < (s.queues q).readWriteableCnt rw) :
    Tokens (s.modifyQueue q fun cb => cb.cntDec rw) q rw (n - 1) := by
  obtain ⟨w, hw, hn⟩ := h
  refine ⟨w, hw, ?_⟩
  simp only [modifyQueue_queues, if_true, LosQueueCB.cntDec, Function.update_self]
  omega

omit [DecidableEq τ] in
/-- A count raised: one token more. -/
theorem Tokens.cntInc {q : κ} {rw : RW} {n : Nat} (h : Tokens s q rw n) (hn : n + 1 < 2 ^ 16) :
    Tokens (s.modifyQueue q fun cb => cb.cntInc rw) q rw (n + 1) := by
  obtain ⟨w, hw, hcnt⟩ := h
  refine ⟨w, hw, ?_⟩
  simp only [modifyQueue_queues, if_true, LosQueueCB.cntInc, Function.update_self]
  rw [Nat.mod_eq_of_lt (by omega)]
  omega

end edits

-- ====================================================== the operations

theorem RW.not_not (rw : RW) : rw.not.not = rw := by
  cases rw <;> rfl

theorem RW.eq_or_eq_not (rw rw' : RW) : rw = rw' ∨ rw = rw'.not := by
  cases rw <;> cases rw' <;> simp [RW.not]

omit [DecidableEq τ] in
theorem need_le {cb : LosQueueCB τ} {S : List Msg} (h : Holds cb S) (rw : RW) :
    need cb S rw ≤ cb.queueLen := by
  cases rw
  · exact h.len_le
  · exact Nat.sub_le _ _

omit [DecidableEq τ] in
theorem OsQueueOperateParamCheck_eq_ok (cb : LosQueueCB τ) (op : Op) :
    OsQueueOperateParamCheck cb op = LOS_OK ↔ Fits cb.queueSize op := by
  cases op <;> simp only [OsQueueOperateParamCheck, Fits] <;> split_ifs with hc
  all_goals first
    | exact iff_of_false (LOS_ERRNO_OS_ERROR_ne_ok _ _) (by omega)
    | exact iff_of_true rfl (by omega)

omit [DecidableEq τ] in
/-- The bytes move: a read takes the first message, a write puts one at
its end. The side that made the operation needs one token fewer, the
other side one more. -/
theorem buffer_spec {cb : LosQueueCB τ} {S : List Msg} {op : Op} (hH : Holds cb S)
    (hfit : Fits cb.queueSize op) (hpos : 0 < need cb S op.readWrite) :
    ∃ S', Holds (OsQueueBufferOperate cb op).1 S' ∧
      Deque cb.queueLen S (some (op, (OsQueueBufferOperate cb op).2)) S' ∧
      need cb S' op.readWrite + 1 = need cb S op.readWrite ∧
      need cb S' op.readWrite.not = need cb S op.readWrite.not + 1 := by
  have hle := hH.len_le
  cases op with
  | readHead bufferSize =>
    -- a readable token means a message
    obtain ⟨m, S', rfl⟩ : ∃ m S', S = m :: S' := by
      cases S with
      | nil => simp [need, Op.readWrite] at hpos
      | cons m S' => exact ⟨m, S', rfl⟩
    obtain ⟨hout, hH'⟩ := hH.readHead hfit
    refine ⟨S', hH', hout ▸ Deque.readHead, ?_, ?_⟩
    · simp [need, Op.readWrite]
    · simp only [need, Op.readWrite, RW.not, List.length_cons] at hle ⊢
      omega
  | writeHead m =>
    have hlt : S.length < cb.queueLen := by
      simp only [need, Op.readWrite] at hpos
      omega
    obtain ⟨hout, hH'⟩ := hH.writeHead hlt hfit
    refine ⟨m :: S, hH', hout ▸ Deque.writeHead hlt, ?_, ?_⟩
    · simp only [need, Op.readWrite, List.length_cons]
      omega
    · simp [need, Op.readWrite, RW.not]
  | writeTail m =>
    have hlt : S.length < cb.queueLen := by
      simp only [need, Op.readWrite] at hpos
      omega
    obtain ⟨hout, hH'⟩ := hH.writeTail hlt hfit
    refine ⟨S ++ [m], hH', hout ▸ Deque.writeTail hlt, ?_, ?_⟩
    · simp only [need, Op.readWrite, List.length_append, List.length_singleton]
      omega
    · simp [need, Op.readWrite, RW.not]

section operate

variable {s : QueueSys τ κ}

/-- The hand-off to side `rw`: one token more there; nothing else moves
but that side's pend list and the task woken from it. -/
theorem OsQueueWakeOrCount_spec (h : SysOk s) {q : κ} {rw : RW} {n : Nat} (hT : Tokens s q rw n)
    (hn : n + 1 < 2 ^ 16) :
    SysOk (OsQueueWakeOrCount s q rw) ∧ Frame q s (OsQueueWakeOrCount s q rw) ∧
      SameRing (s.queues q) ((OsQueueWakeOrCount s q rw).queues q) ∧
      Tokens (OsQueueWakeOrCount s q rw) q rw (n + 1) ∧
      ∀ m, Tokens s q rw.not m → Tokens (OsQueueWakeOrCount s q rw) q rw.not m := by
  unfold OsQueueWakeOrCount
  split
  · next r rest hlist =>
    -- the first waiter is pended on this side
    have hr : Pended s q rw r := ((h.lists q rw).mem_iff r).1 (hlist ▸ List.mem_cons_self)
    obtain ⟨op, b, ht, hrw⟩ := hr
    subst hrw
    rw [OsSchedTaskWake_eq ht]
    refine ⟨h.leave ht false, Frame.leave ht false, sameRing_leave r q op false, hT.leave ht,
      fun m hm => ?_⟩
    -- it holds a token of its own side, not of the other
    dsimp only [Queue.leave]
    refine Tokens.setTask (hm.congr ?_ fun _ => Iff.rfl) ?_ ?_
    · simp
    · rintro ⟨op', ht', -⟩
      simp [ht] at ht'
    · intro op' hst hrw'
      cases hst
      exact RW.not_ne _ hrw'.symm
  · next hlist =>
    refine ⟨h.modifyQueue q rfl rfl, Frame.modifyQueue q _, ?_, hT.cntInc hn, fun m hm => ?_⟩
    · simp only [modifyQueue_queues, if_true]
      exact ⟨rfl, rfl, rfl, rfl, rfl⟩
    · refine hm.congr ?_ fun _ => Iff.rfl
      simp [LosQueueCB.cntInc, Function.update_of_ne (RW.not_ne rw)]

/-- An operation that has its token finishes: the bytes move as the
deque says, and every token is back in place. -/
theorem OsQueueOperateFinish_spec (h : SysOk s) {q : κ} {op : Op} {S : List Msg}
    (hH : Holds (s.queues q) S) (hfit : Fits (s.queues q).queueSize op)
    (htok : ∀ rw, Tokens s q rw (need (s.queues q) S rw - if rw = op.readWrite then 1 else 0))
    (hpos : 0 < need (s.queues q) S op.readWrite) :
    SysOk (OsQueueOperateFinish s q op).2 ∧ Frame q s (OsQueueOperateFinish s q op).2 ∧
      ((OsQueueOperateFinish s q op).2.queues q).queueLen = (s.queues q).queueLen ∧
      ∃ S', Deque (s.queues q).queueLen S (some (op, (OsQueueOperateFinish s q op).1)) S' ∧
        QueueOk (OsQueueOperateFinish s q op).2 q S' := by
  obtain ⟨S', hH', hdeque, hmine, hother⟩ := buffer_spec hH hfit hpos
  have hfin : OsQueueOperateFinish s q op = ((OsQueueBufferOperate (s.queues q) op).2,
      OsQueueWakeOrCount (s.modifyQueue q fun _ => (OsQueueBufferOperate (s.queues q) op).1) q
        op.readWrite.not) := rfl
  rw [hfin]
  have hcnt := OsQueueBufferOperate_cnt (s.queues q) op
  have hlist := OsQueueBufferOperate_list (s.queues q) op
  have hlen₁ := OsQueueBufferOperate_len (s.queues q) op
  have hsize₁ := OsQueueBufferOperate_size (s.queues q) op
  generalize OsQueueBufferOperate (s.queues q) op = r at hH' hdeque hcnt hlist hlen₁ hsize₁
  -- after the copy (`s₁`) the tokens are where they were
  have hq₁ : (s.modifyQueue q fun _ => r.1).queues q = r.1 := by simp
  have htok₁ : ∀ rw n, Tokens s q rw n → Tokens (s.modifyQueue q fun _ => r.1) q rw n :=
    fun rw n ht => ht.congr (by simp [hcnt]) fun _ => Iff.rfl
  have hsys₁ : SysOk (s.modifyQueue q fun _ => r.1) := h.modifyQueue q hlist hsize₁
  have hframe₁ : Frame q s (s.modifyQueue q fun _ => r.1) := Frame.modifyQueue q _
  generalize (s.modifyQueue q fun _ => r.1) = s₁ at hq₁ htok₁ hsys₁ hframe₁
  -- the hand-off raises the other side to what `S'` needs
  have hgive : Tokens s₁ q op.readWrite.not (need (s.queues q) S op.readWrite.not) := by
    have := htok op.readWrite.not
    rw [if_neg (RW.not_ne _)] at this
    exact htok₁ _ _ (by simpa using this)
  have hbound : need (s.queues q) S op.readWrite.not + 1 < 2 ^ 16 := by
    have h1 := need_le hH' op.readWrite.not
    have h2 := hH'.len_lt
    rw [need_congr hlen₁] at h1
    omega
  obtain ⟨hsys₂, hframe₂, hring₂, hgot, hkeep⟩ := OsQueueWakeOrCount_spec hsys₁ hgive hbound
  have hlen : ((OsQueueWakeOrCount s₁ q op.readWrite.not).queues q).queueLen =
      (s.queues q).queueLen := by
    rw [hring₂.len, hq₁, hlen₁]
  refine ⟨hsys₂, hframe₁.trans hframe₂, hlen, S', hdeque, ?_⟩
  refine ⟨hH'.sameRing (hq₁ ▸ hring₂), fun rw => ?_⟩
  rw [need_congr hlen]
  rcases RW.eq_or_eq_not rw op.readWrite with rfl | rfl
  · -- the side that made the operation keeps the one it took
    have := htok op.readWrite
    rw [if_pos rfl] at this
    have h' := hkeep _ (by rw [RW.not_not]; exact htok₁ _ _ this)
    rw [RW.not_not] at h'
    convert h' using 1
    omega
  · rw [hother]
    exact hgot

omit [DecidableEq τ] [DecidableEq κ] in
theorem Tokens.pos_of_cnt {q : κ} {rw : RW} {n : Nat} (h : Tokens s q rw n)
    (hpos : 0 < (s.queues q).readWriteableCnt rw) : 0 < n := by
  obtain ⟨w, -, hn⟩ := h
  omega

omit [DecidableEq τ] [DecidableEq κ] in
theorem Tokens.pos_of_handed {q : κ} {rw : RW} {n : Nat} {t : τ} (h : Tokens s q rw n)
    (ht : Handed s q rw t) : 0 < n := by
  obtain ⟨w, hw, hn⟩ := h
  have := List.length_pos_of_mem ((hw.mem_iff t).2 ht)
  omega

/-- `OsQueueOperate`: the call fails and changes nothing, pends, or takes
a count and finishes as the deque says. -/
theorem OsQueueOperate_spec (h : SysOk s) {t : τ} {q : κ} {op : Op} {timeout : Nat}
    {S : List Msg} (hok : QueueOk s q S) (hready : s.tasks t = .ready) :
    SysOk (OsQueueOperate s t q op timeout).2 ∧ Frame q s (OsQueueOperate s t q op timeout).2 ∧
      ((OsQueueOperate s t q op timeout).2.queues q).queueLen = (s.queues q).queueLen ∧
      ∃ S', Deque (s.queues q).queueLen S (finished op (OsQueueOperate s t q op timeout).1) S' ∧
        QueueOk (OsQueueOperate s t q op timeout).2 q S' := by
  dsimp only [OsQueueOperate]
  by_cases hcheck : OsQueueOperateParamCheck (s.queues q) op ≠ LOS_OK
  · -- a size the queue does not take
    rw [if_pos hcheck]
    refine ⟨h, Frame.refl q s, rfl, S, ?_, hok⟩
    simp only [finished, if_neg hcheck]
    exact Deque.idle
  have hfit := (OsQueueOperateParamCheck_eq_ok _ _).1 (not_not.1 hcheck)
  rw [if_neg hcheck]
  by_cases hzero : (s.queues q).readWriteableCnt op.readWrite = 0
  · rw [if_pos hzero]
    by_cases hnowait : timeout = LOS_NO_WAIT
    · -- nothing to take, and no wait
      rw [if_pos hnowait]
      refine ⟨h, Frame.refl q s, rfl, S, ?_, hok⟩
      have hne : (if op.readWrite = OS_QUEUE_READ then LOS_ERRNO_QUEUE_ISEMPTY
          else LOS_ERRNO_QUEUE_ISFULL) ≠ LOS_OK := by
        split_ifs <;> exact LOS_ERRNO_OS_ERROR_ne_ok _ _
      simp only [finished, if_neg hne]
      exact Deque.idle
    · -- the caller pends
      rw [if_neg hnowait]
      refine ⟨h.wait timeout hready hfit, Frame.wait timeout hready, ?_, S, Deque.idle,
        hok.wait timeout hready⟩
      simp [OsSchedTaskWait]
  · -- a count is taken; the operation finishes
    rw [if_neg hzero]
    have hcnt : 0 < (s.queues q).readWriteableCnt op.readWrite := Nat.pos_of_ne_zero hzero
    have hpos := (hok.tokens op.readWrite).pos_of_cnt hcnt
    have hq₁ : SameRing (s.queues q) ((s.modifyQueue q fun cb => cb.cntDec op.readWrite).queues q) := by
      simp only [modifyQueue_queues, if_true]
      exact ⟨rfl, rfl, rfl, rfl, rfl⟩
    have htok : ∀ rw, Tokens (s.modifyQueue q fun cb => cb.cntDec op.readWrite) q rw
        (need ((s.modifyQueue q fun cb => cb.cntDec op.readWrite).queues q) S rw -
          if rw = op.readWrite then 1 else 0) := by
      intro rw
      rw [need_congr hq₁.len]
      by_cases hrw : rw = op.readWrite
      · subst hrw
        rw [if_pos rfl]
        exact (hok.tokens _).cntDec hcnt
      · rw [if_neg hrw, Nat.sub_zero]
        refine (hok.tokens rw).congr ?_ fun _ => Iff.rfl
        simp [LosQueueCB.cntDec, Function.update_of_ne hrw]
    obtain ⟨hsys', hframe', hlen', S', hdeque, hok'⟩ := OsQueueOperateFinish_spec
      (h.modifyQueue q rfl rfl) (hok.holds.sameRing hq₁) (hq₁.size ▸ hfit) htok
      (by rw [need_congr hq₁.len]; exact hpos)
    refine ⟨hsys', (Frame.modifyQueue q _).trans hframe', hlen'.trans hq₁.len, S', ?_, hok'⟩
    rw [← hq₁.len]
    simpa [finished] using hdeque

/-- A woken task resumes: one that timed out returns, one handed a count
finishes its operation as the deque says. -/
theorem OsQueuePendResume_spec (h : SysOk s) {t : τ} {q : κ} {op : Op} {b : Bool} {S : List Msg}
    (hok : QueueOk s q S) (ht : s.tasks t = .woken q op b) :
    SysOk (OsQueuePendResume s t q op b).2 ∧ Frame q s (OsQueuePendResume s t q op b).2 ∧
      ((OsQueuePendResume s t q op b).2.queues q).queueLen = (s.queues q).queueLen ∧
      ∃ S', Deque (s.queues q).queueLen S (finished op (some (OsQueuePendResume s t q op b).1)) S' ∧
        QueueOk (OsQueuePendResume s t q op b).2 q S' := by
  have hsys₁ := h.setReady ht
  have hframe₁ := Frame.setReady ht
  cases b with
  | true =>
    refine ⟨hsys₁, hframe₁, rfl, S, ?_, ?_⟩
    · have hne : LOS_ERRNO_QUEUE_TIMEOUT ≠ LOS_OK := LOS_ERRNO_OS_ERROR_ne_ok _ _
      simp only [OsQueuePendResume, if_true, finished]
      rw [if_neg hne]
      exact Deque.idle
    · -- a task that timed out held no token
      refine hok.congr (SameRing.refl _) rfl fun rw x => ?_
      simp only [OsQueuePendResume, if_true]
      rw [handed_setTask]
      by_cases hx : x = t
      · subst hx
        simp [Handed, ht]
      · simp [hx]
  | false =>
    -- the resumed task gives back the token it was handed, to take it now
    have hmine : Handed s q op.readWrite t := ⟨op, ht, rfl⟩
    have htok : ∀ rw, Tokens (s.setTask t .ready) q rw
        (need ((s.setTask t .ready).queues q) S rw - if rw = op.readWrite then 1 else 0) := by
      intro rw
      by_cases hrw : rw = op.readWrite
      · subst hrw
        rw [if_pos rfl]
        exact (hok.tokens _).resume hmine
      · rw [if_neg hrw, Nat.sub_zero]
        refine (hok.tokens rw).setTask ?_ (fun _ hst => by cases hst)
        rintro ⟨op', ht', hrw'⟩
        rw [ht] at ht'
        cases ht'
        exact hrw hrw'.symm
    have hfit : Fits (s.queues q).queueSize op := h.fits t q op (by simp [ht, TaskState.making])
    obtain ⟨hsys', hframe', hlen', S', hdeque, hok'⟩ := OsQueueOperateFinish_spec hsys₁
      hok.holds hfit htok ((hok.tokens _).pos_of_handed hmine)
    refine ⟨hsys', hframe₁.trans hframe', hlen', S', ?_, hok'⟩
    simpa [OsQueuePendResume, finished] using hdeque

end operate

-- ================================================================= steps

/-- What `LOS_QueueReadCopy`, `LOS_QueueWriteHeadCopy` and
`LOS_QueueWriteCopy` check before `OsQueueOperate`. -/
def Call.check : Call κ → Nat
  | .LOS_QueueReadCopy _ bufferSize _ =>
    if bufferSize = 0 ∨ bufferSize > OS_NULL_SHORT - 4 then LOS_ERRNO_QUEUE_READSIZE_IS_INVALID
    else LOS_OK
  | .LOS_QueueWriteHeadCopy _ msg _ => if msg.length = 0 then LOS_ERRNO_QUEUE_WRITESIZE_ISZERO else LOS_OK
  | .LOS_QueueWriteCopy _ msg _ => if msg.length = 0 then LOS_ERRNO_QUEUE_WRITESIZE_ISZERO else LOS_OK

/-- The timeout a call waits with. -/
def Call.timeout : Call κ → Nat
  | .LOS_QueueReadCopy _ _ timeout => timeout
  | .LOS_QueueWriteHeadCopy _ _ timeout => timeout
  | .LOS_QueueWriteCopy _ _ timeout => timeout

/-- The three calls are one: a parameter check, then `OsQueueOperate`. -/
theorem callStep_eq (s : QueueSys τ κ) (t : τ) (c : Call κ) :
    callStep s t c = if c.check ≠ LOS_OK then (some (c.check, none), s)
      else OsQueueOperate s t c.queue c.op c.timeout := by
  cases c with
  | LOS_QueueReadCopy q bufferSize timeout =>
    by_cases hc : bufferSize = 0 ∨ bufferSize > OS_NULL_SHORT - 4 <;>
      simp [callStep, LOS_QueueReadCopy, Call.check, Call.queue, Call.op, Call.timeout, hc,
        LOS_ERRNO_OS_ERROR_ne_ok, LOS_ERRNO_QUEUE_READSIZE_IS_INVALID]
  | LOS_QueueWriteHeadCopy q msg timeout =>
    by_cases hc : msg.length = 0 <;>
      simp [callStep, LOS_QueueWriteHeadCopy, Call.check, Call.queue, Call.op, Call.timeout, hc,
        LOS_ERRNO_OS_ERROR_ne_ok, LOS_ERRNO_QUEUE_WRITESIZE_ISZERO]
  | LOS_QueueWriteCopy q msg timeout =>
    by_cases hc : msg.length = 0 <;>
      simp [callStep, LOS_QueueWriteCopy, Call.check, Call.queue, Call.op, Call.timeout, hc,
        LOS_ERRNO_OS_ERROR_ne_ok, LOS_ERRNO_QUEUE_WRITESIZE_ISZERO]

/-- Every queue holds some list of messages, with the tokens it needs. -/
structure QueuesOk (s : QueueSys τ κ) : Prop where
  sys : SysOk s
  each : ∀ q, ∃ S, QueueOk s q S

section steps

variable {s : QueueSys τ κ}

omit [DecidableEq τ] in
/-- One operation on queue `q`, seen from any queue `q₀`: on `q` it moves
as its spec says, and any other queue keeps its list. -/
theorem track {s' : QueueSys τ κ} {q : κ} {d : Option (Op × Option Msg)} (h : QueuesOk s)
    (hspec : ∀ S, QueueOk s q S → SysOk s' ∧ Frame q s s' ∧
      (s'.queues q).queueLen = (s.queues q).queueLen ∧
      ∃ S', Deque (s.queues q).queueLen S d S' ∧ QueueOk s' q S')
    {q₀ : κ} {S : List Msg} (hq₀ : QueueOk s q₀ S) :
    QueuesOk s' ∧ (s'.queues q₀).queueLen = (s.queues q₀).queueLen ∧
      ∃ S', Deque (s.queues q₀).queueLen S (if q = q₀ then d else none) S' ∧ QueueOk s' q₀ S' := by
  obtain ⟨Sq, hSq⟩ := h.each q
  obtain ⟨hsys, hframe, -, Sq', -, hq'⟩ := hspec Sq hSq
  have hall : QueuesOk s' := by
    refine ⟨hsys, fun q' => ?_⟩
    by_cases hq : q' = q
    · subst hq
      exact ⟨Sq', hq'⟩
    · obtain ⟨S', hS'⟩ := h.each q'
      exact ⟨S', hS'.frame hframe hq⟩
  refine ⟨hall, ?_⟩
  by_cases hq : q = q₀
  · subst hq
    obtain ⟨-, -, hlen, S', hdeque, hok⟩ := hspec S hq₀
    exact ⟨hlen, S', by simpa using hdeque, hok⟩
  · rw [if_neg hq, hframe.queues q₀ (Ne.symm hq)]
    exact ⟨rfl, S, Deque.idle, hq₀.frame hframe (Ne.symm hq)⟩

/-- One step, seen from queue `q₀`: the deque moves as the event says. -/
theorem step_spec (h : QueuesOk s) {e : Event τ κ} {s' : QueueSys τ κ} (hs : Step s e s')
    {q₀ : κ} {S : List Msg} (hq₀ : QueueOk s q₀ S) :
    QueuesOk s' ∧ (s'.queues q₀).queueLen = (s.queues q₀).queueLen ∧
      ∃ S', Deque (s.queues q₀).queueLen S (e.done q₀) S' ∧ QueueOk s' q₀ S' := by
  cases hs with
  | @call t c hready =>
    simp only [Event.done]
    rw [callStep_eq]
    by_cases hc : c.check ≠ LOS_OK
    · -- refused by the parameter check
      rw [if_pos hc]
      refine ⟨h, rfl, S, ?_, hq₀⟩
      simp only [finished, if_neg hc, ite_self]
      exact Deque.idle
    · rw [if_neg hc]
      exact track h (fun Sq hSq => OsQueueOperate_spec h.sys hSq hready) hq₀
  | @timeout t q op ht =>
    have := track (d := none) h (fun Sq hSq => ⟨h.sys.leave ht true, Frame.leave ht true,
      (sameRing_leave t q op true).len, Sq, Deque.idle, hSq.timeout ht⟩) hq₀
    simpa [Event.done, OsQueuePendTimeout_eq] using this
  | @resume t q op b ht =>
    exact track h (fun Sq hSq => OsQueuePendResume_spec h.sys hSq ht) hq₀

omit [DecidableEq τ] [DecidableEq κ] in
/-- A fresh queue holds nothing, with all its nodes writable. -/
theorem QueueOk.init (h : Init s) (q : κ) : QueueOk s q [] := by
  obtain ⟨len, hlen, maxMsgSize, -, queue, hmk⟩ := h.2 q
  unfold LOS_QueueCreate at hmk
  split_ifs at hmk with hbig hzero
  have hcb := (Except.ok.inj hmk).symm
  have hnone : ∀ rw, Enumerates [] (Handed s q rw) := by
    intro rw
    apply Enumerates.nil
    rintro x ⟨op, hx, -⟩
    rw [h.1 x] at hx
    cases hx
  constructor
  · rw [hcb]
    have hpos : 0 < len := by omega
    exact ⟨hpos, hlen, hpos, by simp, RingHolds.nil, by simp, by simp⟩
  · intro rw
    refine ⟨[], hnone rw, ?_⟩
    rw [hcb]
    cases rw <;> simp [need]

omit [DecidableEq τ] [DecidableEq κ] in
theorem QueuesOk.init (h : Init s) : QueuesOk s := by
  refine ⟨⟨fun q rw => ?_, fun t q op hm => ?_⟩, fun q => ⟨[], QueueOk.init h q⟩⟩
  · -- nobody is pended on a fresh queue
    obtain ⟨len, -, maxMsgSize, -, queue, hmk⟩ := h.2 q
    unfold LOS_QueueCreate at hmk
    split_ifs at hmk
    rw [(Except.ok.inj hmk).symm]
    apply Enumerates.nil
    rintro x ⟨op, b, hx, -⟩
    rw [h.1 x] at hx
    cases hx
  · rw [h.1 t] at hm
    cases hm

end steps

-- ================================================================== runs

/-- The queue refines a bounded deque: every run from created queues is
matched, for each queue, by a run of the deque of its length through the
same events, ending in the list `S` the queue then holds. Writes at the
tail append to `S`, writes at the head push in front, a read that
returns `LOS_OK` pops the front and copies out exactly its bytes, and
every other event leaves `S` alone. In every state `queueHead` and
`queueTail` are below `queueLen`, `queueTail - queueHead` is `|S|`
modulo `queueLen`, and the two counts plus the tasks handed a count and
not yet resumed (each listed once in `w`) make `queueLen`. -/
theorem queue_deque {s₀ s : QueueSys τ κ} {evs : List (Event τ κ)} (h₀ : Init s₀)
    (hrun : Run Step s₀ evs s) (q : κ) :
    ∃ S, Run (fun S e S' => Deque (s₀.queues q).queueLen S (e.done q) S') [] evs S ∧
      (s.queues q).queueLen = (s₀.queues q).queueLen ∧ S.length ≤ (s.queues q).queueLen ∧
      (s.queues q).queueHead < (s.queues q).queueLen ∧
      (s.queues q).queueTail < (s.queues q).queueLen ∧
      (((s.queues q).queueTail : Int) - (s.queues q).queueHead) % (s.queues q).queueLen =
        S.length % (s.queues q).queueLen ∧
      ∃ w, Enumerates w (fun t => ∃ rw, Handed s q rw t) ∧
        (s.queues q).readWriteableCnt OS_QUEUE_READ + (s.queues q).readWriteableCnt OS_QUEUE_WRITE +
          w.length = (s.queues q).queueLen := by
  obtain ⟨S, ⟨hok, hlen⟩, hdeque⟩ := hrun.simulate QueuesOk
    (fun s S => QueueOk s q S ∧ (s.queues q).queueLen = (s₀.queues q).queueLen)
    (fun _ _ _ h hs => (step_spec h hs (h.each q).choose_spec).1)
    (fun _ _ _ S h ⟨hS, hlen⟩ hs => by
      obtain ⟨-, hlen', S', hd, hS'⟩ := step_spec h hs hS
      exact ⟨S', ⟨hS', hlen'.trans hlen⟩, hlen ▸ hd⟩)
    (QueuesOk.init h₀) ⟨QueueOk.init h₀ q, rfl⟩
  have hH := hok.holds
  refine ⟨S, hdeque, hlen, hH.len_le, hH.head_lt, hH.tail_eq ▸ Nat.mod_lt _ hH.len_pos, ?_, ?_⟩
  · -- the tail is `|S|` nodes after the head, modulo the length
    rw [hH.tail_eq, Int.natCast_mod, Int.sub_emod, Int.emod_emod, ← Int.sub_emod]
    push_cast
    rw [add_sub_cancel_left]
  · obtain ⟨wr, hwr, hr⟩ := hok.tokens OS_QUEUE_READ
    obtain ⟨ww, hww, hw⟩ := hok.tokens OS_QUEUE_WRITE
    refine ⟨wr ++ ww, ?_, ?_⟩
    · -- a task holds a token of one side only
      refine (hwr.append hww ?_).congr fun t => ?_
      · rintro x ⟨op, hx, hop⟩ ⟨op', hx', hop'⟩
        rw [hx] at hx'
        cases hx'
        rw [hop] at hop'
        cases hop'
      · constructor
        · rintro ⟨rw, hrw⟩
          cases rw
          · exact Or.inl hrw
          · exact Or.inr hrw
        · rintro (hrw | hrw)
          · exact ⟨_, hrw⟩
          · exact ⟨_, hrw⟩
    · simp only [need] at hr hw
      rw [List.length_append]
      have := hH.len_le
      omega

/-- A write at the tail and a read on a queue of two nodes: the write
returns `LOS_OK`, the read returns `LOS_OK` with the message `[7]`, and
the deque takes the message and gives it back. -/
theorem queue_deque_write_read :
    let s₀ : QueueSys (Fin 1) (Fin 1) := ⟨fun _ => .ready, fun _ =>
      ⟨2, 8, fun _ => [], 0, 0, fun rw => match rw with
        | OS_QUEUE_READ => 0
        | OS_QUEUE_WRITE => 2, fun _ => []⟩⟩
    let c₁ : Call (Fin 1) := .LOS_QueueWriteCopy 0 [7] LOS_NO_WAIT
    let c₂ : Call (Fin 1) := .LOS_QueueReadCopy 0 4 LOS_NO_WAIT
    let s₁ := (callStep s₀ 0 c₁).2
    let evs := [Event.call 0 c₁ (callStep s₀ 0 c₁).1, Event.call 0 c₂ (callStep s₁ 0 c₂).1]
    Init s₀ ∧ Run Step s₀ evs (callStep s₁ 0 c₂).2 ∧
      (callStep s₀ 0 c₁).1 = some (LOS_OK, none) ∧ (callStep s₁ 0 c₂).1 = some (LOS_OK, some [7]) ∧
      ∃ S, Run (fun S e S' => Deque (s₀.queues 0).queueLen S (e.done 0) S') [] evs S ∧
        S.length ≤ ((callStep s₁ 0 c₂).2.queues 0).queueLen := by
  intro s₀ c₁ c₂ s₁ evs
  have h₀ : Init s₀ := ⟨fun _ => rfl, fun _ => ⟨2, by decide, 4, by decide, fun _ => [], rfl⟩⟩
  have hrun : Run Step s₀ evs (callStep s₁ 0 c₂).2 :=
    Run.snoc (Run.snoc Run.nil (Step.call c₁ rfl)) (Step.call c₂ (by decide))
  obtain ⟨S, hS, -, hle, -⟩ := queue_deque h₀ hrun 0
  exact ⟨h₀, hrun, by decide, by decide, S, hS, hle⟩

end LiteOsA.Queue
