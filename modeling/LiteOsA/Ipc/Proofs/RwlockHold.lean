/-
Who holds a read-write lock (kernel/base/ipc/los_rwlock.c).

# Acquisitions

The code keeps no record of its readers: `rwCount` is a number. What
it stands for is the acquisitions outstanding, each a task and a
mode. Some were returned to their callers (a lock call that returned
`LOS_OK`, `Event.held`); the others belong to tasks an unlock has woken
and that are not yet back (`Woken`). An unlock that gets past its
checks gives one of its caller's back (`UnlockTakes`), in the mode the
lock is in, even when `OsRwlockPostOp` then returns `EINVAL`.

`Acquired rwlock acq` is what `rwCount` and `writeOwner` say about the
acquisitions `acq`: none, and both pend lists empty; `rwCount` reads,
and no owner; or `-rwCount` writes, all by the owner.

# The caller's side

A read unlock does not look at its caller, so a task holding nothing
can give back another task's read acquisition; a writer can then take
the lock while that reader still reads (`rwlock_unlock_by_nonholder`).
`HeldStep` is the system with its acquisitions, run by callers that
unlock a read-locked lock only while holding a read acquisition of it
(`UnlockHeld`).

# The invariant

`LockOk s acq m`: both pend lists of `m` list exactly the tasks pended
on them, the woken holders and `acq` are `Acquired`, `rwCount` stays in
its 8-bit field, and a lock that is not initialised is free. One lemma
per edit of the state keeps it (a grant, a wait, a timeout, a
resumption, a release, the hand-over in `OsRwlockPostOp`), with
`Frame m` for the other locks; `rwlock_held` puts them together over
every run.
-/
import LiteOsA.Ipc.Rwlock
import LiteOsA.Ipc.Proofs.MuxOwner
import LiteOsA.Lib.Enumerates

namespace LiteOsA.Rwlock

open RwSys RwlockMode


variable {τ μ : Type} [DecidableEq τ] [DecidableEq μ]

-- =========================================================== the fields

namespace LosRwlock

variable {rwlock : LosRwlock τ} {mode mode' : Mode} {l : List τ}

omit [DecidableEq τ] in
@[simp]
theorem list_read : rwlock.list .read = rwlock.readList :=
  rfl

omit [DecidableEq τ] in
@[simp]
theorem list_write : rwlock.list .write = rwlock.writeList :=
  rfl

omit [DecidableEq τ] in
@[simp]
theorem setList_rwCount : (rwlock.setList mode l).rwCount = rwlock.rwCount := by
  cases mode <;> rfl

omit [DecidableEq τ] in
@[simp]
theorem setList_writeOwner : (rwlock.setList mode l).writeOwner = rwlock.writeOwner := by
  cases mode <;> rfl

omit [DecidableEq τ] in
@[simp]
theorem setList_magic : (rwlock.setList mode l).magic = rwlock.magic := by
  cases mode <;> rfl

omit [DecidableEq τ] in
@[simp]
theorem list_setList : (rwlock.setList mode l).list mode' = if mode' = mode then l else rwlock.list mode' := by
  cases mode <;> cases mode' <;> rfl

end LosRwlock

/-- The lock a task state is about. -/
def TaskState.lock : TaskState μ → Option μ
  | .ready => none
  | .pended m _ _ => some m
  | .woken m _ _ => some m

/-- The lock a call is on. -/
def Call.lock : Call μ → μ
  | .LOS_RwlockInit m => m
  | .LOS_RwlockDestroy m => m
  | .LOS_RwlockRdLock m _ => m
  | .LOS_RwlockTryRdLock m => m
  | .LOS_RwlockWrLock m _ => m
  | .LOS_RwlockTryWrLock m => m
  | .LOS_RwlockUnLock m => m

/-- The lock an event is on. -/
def Event.lock : Event τ μ → μ
  | .call _ c _ => c.lock
  | .timeout _ m => m
  | .resume _ m _ _ => m

-- ========================================================= acquisitions

/-- Task `t` waits on a list of `m`. -/
def Pended (s : RwSys τ μ) (m : μ) (mode : Mode) (t : τ) : Prop :=
  ∃ timed, (s.tasks t).state = .pended m mode timed

/-- An unlock of `m` woke the task of `a` in the mode of `a`, and it is
not back yet: it holds the lock. -/
def Woken (s : RwSys τ μ) (m : μ) (a : Mode × τ) : Prop :=
  (s.tasks a.2).state = .woken m a.1 false

/-- What `rwCount` and `writeOwner` say about the acquisitions `acq`
outstanding on a lock. -/
inductive Acquired : LosRwlock τ → List (Mode × τ) → Prop
  /-- Free: nobody holds it, nobody waits. -/
  | free {rwlock : LosRwlock τ} :
      rwlock.rwCount = 0 → rwlock.writeOwner = none → rwlock.readList = [] →
        rwlock.writeList = [] → Acquired rwlock []
  /-- Read-locked: `rwCount` read acquisitions. -/
  | read {rwlock : LosRwlock τ} {acq : List (Mode × τ)} :
      0 < rwlock.rwCount → rwlock.writeOwner = none → (∀ a ∈ acq, a.1 = .read) →
        (acq.length : Int) = rwlock.rwCount → Acquired rwlock acq
  /-- Write-locked: `-rwCount` write acquisitions, all by the owner. -/
  | write {rwlock : LosRwlock τ} {acq : List (Mode × τ)} {w : τ} :
      rwlock.writeOwner = some w → (∀ a ∈ acq, a = (.write, w)) →
        (acq.length : Int) = -rwlock.rwCount → acq ≠ [] → Acquired rwlock acq

/-- The mode an unlock of `rwlock` gives back. -/
def LosRwlock.unlockMode (rwlock : LosRwlock τ) : Mode :=
  if 0 < rwlock.rwCount then .read else .write

/-- `LOS_RwlockUnLock` gets past its checks: the caller's acquisition is
given back, whatever `OsRwlockPostOp` then returns. -/
def UnlockTakes (s : RwSys τ μ) (t : τ) (m : μ) : Prop :=
  (s.tasks t).system = false ∧ LOS_RwlockIsValid (s.locks m) = true ∧ (s.locks m).rwCount ≠ 0 ∧
    ¬((s.locks m).rwCount < 0 ∧ (s.locks m).writeOwner ≠ some t)

instance (s : RwSys τ μ) (t : τ) (m : μ) : Decidable (UnlockTakes s t m) := by
  unfold UnlockTakes
  infer_instance

/-- The acquisitions of the event's lock after it, from `acq` before it,
in state `s`. -/
def Event.held (s : RwSys τ μ) (acq : List (Mode × τ)) : Event τ μ → List (Mode × τ)
  | .call t (.LOS_RwlockRdLock _ _) ret | .call t (.LOS_RwlockTryRdLock _) ret =>
      if ret = some LOS_OK then (.read, t) :: acq else acq
  | .call t (.LOS_RwlockWrLock _ _) ret | .call t (.LOS_RwlockTryWrLock _) ret =>
      if ret = some LOS_OK then (.write, t) :: acq else acq
  | .call t (.LOS_RwlockUnLock m) _ =>
      if UnlockTakes s t m then acq.erase ((s.locks m).unlockMode, t) else acq
  | .call _ (.LOS_RwlockInit _) _ | .call _ (.LOS_RwlockDestroy _) _ | .timeout _ _ => acq
  | .resume t _ mode ret => if ret = LOS_OK then (mode, t) :: acq else acq

/-- The acquisitions of every lock after the event. -/
def held (s : RwSys τ μ) (g : μ → List (Mode × τ)) (e : Event τ μ) : μ → List (Mode × τ) :=
  Function.update g e.lock (e.held s (g e.lock))

/-- The caller's side of `LOS_RwlockUnLock`: a read-locked lock is
unlocked only by a task that holds a read acquisition of it. -/
def UnlockHeld (s : RwSys τ μ) (g : μ → List (Mode × τ)) : Event τ μ → Prop
  | .call t (.LOS_RwlockUnLock m) _ => 0 < (s.locks m).rwCount → (.read, t) ∈ g m
  | _ => True

/-- A step of the system with its acquisitions, by callers that keep to
`UnlockHeld`. -/
inductive HeldStep :
    RwSys τ μ × (μ → List (Mode × τ)) → Event τ μ → RwSys τ μ × (μ → List (Mode × τ)) → Prop
  | mk {s s' : RwSys τ μ} {g : μ → List (Mode × τ)} {e : Event τ μ} :
      Step s e s' → UnlockHeld s g e → HeldStep (s, g) e (s', held s g e)

-- ============================================================= the frame

section frame

variable {s s' s'' : RwSys τ μ} {m m' : μ} {t x : τ} {st : TaskState μ} {mode : Mode}

omit [DecidableEq τ] in
@[simp]
theorem pended_modifyLock (f : LosRwlock τ → LosRwlock τ) :
    Pended (s.modifyLock m f) = Pended s :=
  rfl

omit [DecidableEq τ] in
@[simp]
theorem woken_modifyLock (f : LosRwlock τ → LosRwlock τ) :
    Woken (s.modifyLock m f) = Woken s :=
  rfl

omit [DecidableEq μ] in
theorem pended_setTask :
    Pended (s.setTask t st) m mode x ↔ if x = t then ∃ b, st = .pended m mode b else Pended s m mode x := by
  unfold Pended
  by_cases hx : x = t <;> simp [hx, eq_comm]

omit [DecidableEq μ] in
theorem woken_setTask (a : Mode × τ) :
    Woken (s.setTask t st) m a ↔ if a.2 = t then st = .woken m a.1 false else Woken s m a := by
  unfold Woken
  by_cases hx : a.2 = t <;> simp [hx]

/-- A step on lock `m` keeps the other locks, and who waits on them or
holds them woken. -/
structure Frame (m : μ) (s s' : RwSys τ μ) : Prop where
  locks : ∀ m', m' ≠ m → s'.locks m' = s.locks m'
  pended : ∀ m', m' ≠ m → ∀ mode t, Pended s' m' mode t ↔ Pended s m' mode t
  woken : ∀ m', m' ≠ m → ∀ a, Woken s' m' a ↔ Woken s m' a

omit [DecidableEq τ] [DecidableEq μ] in
theorem Frame.refl : Frame m s s :=
  ⟨fun _ _ => rfl, fun _ _ _ _ => Iff.rfl, fun _ _ _ => Iff.rfl⟩

omit [DecidableEq τ] [DecidableEq μ] in
theorem Frame.trans (h₁ : Frame m s s') (h₂ : Frame m s' s'') : Frame m s s'' :=
  ⟨fun m' hm => (h₂.locks m' hm).trans (h₁.locks m' hm),
    fun m' hm mode t => (h₂.pended m' hm mode t).trans (h₁.pended m' hm mode t),
    fun m' hm a => (h₂.woken m' hm a).trans (h₁.woken m' hm a)⟩

omit [DecidableEq τ] in
theorem Frame.modifyLock (f : LosRwlock τ → LosRwlock τ) : Frame m s (s.modifyLock m f) :=
  ⟨fun m' hm => by simp [hm], fun _ _ _ _ => Iff.rfl, fun _ _ _ => Iff.rfl⟩

omit [DecidableEq μ] in
/-- Writing a task that was ready or on `m`, and stays so. -/
theorem Frame.setTask (hold : (s.tasks t).state.lock = none ∨ (s.tasks t).state.lock = some m)
    (hnew : st.lock = none ∨ st.lock = some m) : Frame m s (s.setTask t st) := by
  -- a state on a lock other than `m` is neither the old nor the new one
  have hoff : ∀ st' : TaskState μ, (st'.lock = none ∨ st'.lock = some m) → ∀ m', m' ≠ m →
      ∀ mode b, st' ≠ .pended m' mode b ∧ st' ≠ .woken m' mode b := by
    rintro st' hst' m' hm mode b
    constructor <;> rintro rfl <;> simp [TaskState.lock, hm] at hst'
  refine ⟨fun _ _ => rfl, fun m' hm mode x => ?_, fun m' hm a => ?_⟩
  · rw [pended_setTask]
    split_ifs with hx
    · subst hx
      constructor
      · rintro ⟨b, hb⟩
        exact absurd hb (hoff st hnew m' hm mode b).1
      · rintro ⟨b, hb⟩
        exact absurd hb (hoff _ hold m' hm mode b).1
    · exact Iff.rfl
  · rw [woken_setTask]
    split_ifs with hx
    · simp only [Woken, hx]
      exact ⟨fun h => absurd h (hoff st hnew m' hm a.1 false).2,
        fun h => absurd h (hoff _ hold m' hm a.1 false).2⟩
    · exact Iff.rfl

end frame

-- ============================================================== Acquired

namespace Acquired

variable {rwlock rwlock' : LosRwlock τ} {acq acq' : List (Mode × τ)}

omit [DecidableEq τ] in
/-- A free lock: nobody holds it and nobody waits on it. -/
theorem of_zero (h : Acquired rwlock acq) (hc : rwlock.rwCount = 0) :
    acq = [] ∧ rwlock.writeOwner = none ∧ rwlock.readList = [] ∧ rwlock.writeList = [] := by
  cases h with
  | free _ ho hr hw => exact ⟨rfl, ho, hr, hw⟩
  | read hpos => omega
  | write _ _ hlen hne =>
      exact absurd (List.eq_nil_of_length_eq_zero (by omega)) hne

omit [DecidableEq τ] in
/-- A read-locked lock: `rwCount` read acquisitions and no owner. -/
theorem of_pos (h : Acquired rwlock acq) (hc : 0 < rwlock.rwCount) :
    rwlock.writeOwner = none ∧ (∀ a ∈ acq, a.1 = .read) ∧ (acq.length : Int) = rwlock.rwCount := by
  cases h with
  | free hz => omega
  | read _ ho hread hlen => exact ⟨ho, hread, hlen⟩
  | write _ _ hlen => omega

/-- A write-locked lock: `-rwCount` write acquisitions, all by the
owner. -/
theorem of_neg (h : Acquired rwlock acq) (hc : rwlock.rwCount < 0) :
    ∃ w, rwlock.writeOwner = some w ∧ (∀ a ∈ acq, a = (.write, w)) ∧
      (acq.length : Int) = -rwlock.rwCount := by
  cases h with
  | free hz => omega
  | read hpos => omega
  | write ho hwrite hlen => exact ⟨_, ho, hwrite, hlen⟩

omit [DecidableEq τ] in
/-- `Acquired` reads the lists of a free lock only. -/
theorem congr (h : Acquired rwlock acq) (hc : rwlock'.rwCount = rwlock.rwCount)
    (ho : rwlock'.writeOwner = rwlock.writeOwner)
    (hl : rwlock.rwCount = 0 → rwlock'.readList = [] ∧ rwlock'.writeList = []) :
    Acquired rwlock' acq := by
  cases h with
  | free hz ho' =>
      obtain ⟨hr, hw⟩ := hl hz
      exact .free (hc.trans hz) (ho.trans ho') hr hw
  | read hpos ho' hread hlen => exact .read (by omega) (ho.trans ho') hread (by omega)
  | write ho' hwrite hlen hne => exact .write (ho.trans ho') hwrite (by omega) hne

omit [DecidableEq τ] in
/-- The acquisitions are a multiset. -/
theorem perm (h : Acquired rwlock acq) (hp : acq.Perm acq') : Acquired rwlock acq' := by
  cases h with
  | free hz ho hr hw =>
      obtain rfl := hp.nil_eq
      exact .free hz ho hr hw
  | read hpos ho hread hlen =>
      exact .read hpos ho (fun a ha => hread a (hp.mem_iff.2 ha)) (by rw [← hp.length_eq, hlen])
  | write ho hwrite hlen hne =>
      refine .write ho (fun a ha => hwrite a (hp.mem_iff.2 ha)) (by rw [← hp.length_eq, hlen]) ?_
      intro hnil
      subst hnil
      exact hne hp.eq_nil

end Acquired

-- ========================================================= the invariant

/-- Lock `m` of `s` with the acquisitions `acq` returned to their
callers. -/
structure LockOk (s : RwSys τ μ) (acq : List (Mode × τ)) (m : μ) : Prop where
  /-- Each pend list lists the tasks pended on it, once each. -/
  lists : ∀ mode, Enumerates ((s.locks m).list mode) (Pended s m mode)
  /-- With the woken holders, the acquisitions are what the counts say. -/
  acquired : ∃ w, Enumerates w (Woken s m) ∧ Acquired (s.locks m) (acq ++ w)
  /-- `rwCount` fits its 8-bit field. -/
  bounded : INT8_MIN ≤ (s.locks m).rwCount ∧ (s.locks m).rwCount ≤ INT8_MAX
  /-- A lock that is not initialised is free. -/
  invalid : LOS_RwlockIsValid (s.locks m) = false → (s.locks m).rwCount = 0

section invariant

variable {s s' : RwSys τ μ} {m m' : μ} {t r : τ} {acq : List (Mode × τ)} {mode : Mode}

omit [DecidableEq τ] [DecidableEq μ] in
theorem LockOk.frame (h : LockOk s acq m') (hf : Frame m s s') (hm : m' ≠ m) : LockOk s' acq m' := by
  have hlock := hf.locks m' hm
  refine ⟨fun mode => ?_, ?_, by rw [hlock]; exact h.bounded, by rw [hlock]; exact h.invalid⟩
  · rw [hlock]
    exact (h.lists mode).congr (hf.pended m' hm mode)
  · obtain ⟨w, hw, hacq⟩ := h.acquired
    exact ⟨w, hw.congr (hf.woken m' hm), by rwa [hlock]⟩

omit [DecidableEq τ] [DecidableEq μ] in
/-- A task that is ready holds nothing woken. -/
theorem not_woken_of_ready {w : List (Mode × τ)} (hw : Enumerates w (Woken s m))
    (hready : (s.tasks t).state = .ready) (mode : Mode) : (mode, t) ∉ w := by
  intro hmem
  have := (hw.mem_iff _).1 hmem
  simp [Woken, hready] at this

omit [DecidableEq μ] in
/-- The write owner, ready, holds a write acquisition returned to it. -/
theorem LockOk.owner_mem (h : LockOk s acq m) (hc : (s.locks m).rwCount < 0)
    (ho : (s.locks m).writeOwner = some t) (hready : (s.tasks t).state = .ready) :
    (.write, t) ∈ acq := by
  obtain ⟨w, hw, hacq⟩ := h.acquired
  obtain ⟨o, ho', hwrite, hlen⟩ := hacq.of_neg hc
  rw [ho] at ho'
  obtain rfl := Option.some.inj ho'
  obtain ⟨a, ha⟩ := List.exists_mem_of_length_pos (show 0 < (acq ++ w).length by omega)
  rcases List.mem_append.1 ha with ha' | ha'
  · rwa [hwrite a ha] at ha'
  · -- a woken holder is not ready
    rw [hwrite a ha] at ha'
    exact absurd ha' (not_woken_of_ready hw hready _)

omit [DecidableEq τ] [DecidableEq μ] in
/-- A task on a pend list of `m` is pended there. -/
theorem LockOk.pended_of_mem (h : LockOk s acq m) (hr : r ∈ (s.locks m).list mode) :
    ∃ b, (s.tasks r).state = .pended m mode b :=
  ((h.lists mode).mem_iff r).1 hr

end invariant

-- ================================================================ edits

section edits

variable {s : RwSys τ μ} {m : μ} {t r : τ} {acq : List (Mode × τ)} {mode : Mode}

omit [DecidableEq τ] in
/-- Writing `rwCount` and `writeOwner` of a valid lock: the new counts
must fit the new acquisitions `acq'`, with the same woken holders. -/
theorem LockOk.modifyCount {acq' : List (Mode × τ)} (h : LockOk s acq m)
    (hvalid : LOS_RwlockIsValid (s.locks m) = true) (f : LosRwlock τ → LosRwlock τ)
    (hf : (f (s.locks m)).readList = (s.locks m).readList ∧
      (f (s.locks m)).writeList = (s.locks m).writeList ∧ (f (s.locks m)).magic = (s.locks m).magic)
    (hb : INT8_MIN ≤ (f (s.locks m)).rwCount ∧ (f (s.locks m)).rwCount ≤ INT8_MAX)
    (hacq : ∀ w, Enumerates w (Woken s m) → Acquired (s.locks m) (acq ++ w) →
      Acquired (f (s.locks m)) (acq' ++ w)) :
    LockOk (s.modifyLock m f) acq' m := by
  obtain ⟨hr, hw, hmagic⟩ := hf
  refine ⟨fun mode => ?_, ?_, by simpa using hb, fun hinv => ?_⟩
  · cases mode
    · simpa [hr] using h.lists .read
    · simpa [hw] using h.lists .write
  · obtain ⟨w, hwk, hacq₀⟩ := h.acquired
    exact ⟨w, hwk, by simpa using hacq w hwk hacq₀⟩
  · simp only [modifyLock_locks, if_true, LOS_RwlockIsValid, hmagic] at hinv
    simp only [LOS_RwlockIsValid] at hvalid
    rw [hinv] at hvalid
    cases hvalid

omit [DecidableEq τ] in
/-- A read acquisition granted (`rwCount++` in `OsRwlockRdPendOp`). -/
theorem LockOk.grantRead (h : LockOk s acq m) (hvalid : LOS_RwlockIsValid (s.locks m) = true)
    (hc : 0 ≤ (s.locks m).rwCount) (hmax : (s.locks m).rwCount ≠ INT8_MAX) :
    LockOk (s.modifyLock m fun rwlock => { rwlock with rwCount := rwlock.rwCount + 1 })
      ((.read, t) :: acq) m := by
  have hb := h.bounded
  refine h.modifyCount hvalid _ ⟨rfl, rfl, rfl⟩
    ⟨by dsimp only; omega, by dsimp only; unfold INT8_MAX at *; omega⟩ ?_
  intro w hwk hacq
  rw [List.cons_append]
  rcases hc.lt_or_eq with hpos | hz
  · -- read-locked already: one more reader
    obtain ⟨ho, hread, hlen⟩ := hacq.of_pos hpos
    refine .read (by dsimp only; omega) ho ?_ ?_
    · intro a ha
      rcases List.mem_cons.1 ha with rfl | ha
      · rfl
      · exact hread a ha
    · simp only [List.length_cons]
      omega
  · -- free: the caller is the first reader
    obtain ⟨hnil, ho, -, -⟩ := hacq.of_zero hz.symm
    rw [hnil]
    refine .read (by dsimp only; omega) ho (by simp) ?_
    simp only [List.length_cons, List.length_nil]
    omega

omit [DecidableEq τ] in
/-- A free lock taken for writing (`OsRwlockWrPendOp`). -/
theorem LockOk.grantWrite (h : LockOk s acq m) (hvalid : LOS_RwlockIsValid (s.locks m) = true)
    (hz : (s.locks m).rwCount = 0) :
    LockOk (s.modifyLock m fun rwlock => { rwlock with rwCount := -1, writeOwner := some t })
      ((.write, t) :: acq) m := by
  refine h.modifyCount hvalid _ ⟨rfl, rfl, rfl⟩ ⟨by dsimp only; decide, by dsimp only; decide⟩ ?_
  intro w hwk hacq
  obtain ⟨hnil, -, -, -⟩ := hacq.of_zero hz
  rw [List.cons_append, hnil]
  exact .write rfl (by simp) rfl (List.cons_ne_nil _ _)

/-- The owner takes its write lock once more (`rwCount--`). -/
theorem LockOk.regrantWrite (h : LockOk s acq m) (hvalid : LOS_RwlockIsValid (s.locks m) = true)
    (hc : (s.locks m).rwCount < 0) (ho : (s.locks m).writeOwner = some t)
    (hmin : (s.locks m).rwCount ≠ INT8_MIN) :
    LockOk (s.modifyLock m fun rwlock => { rwlock with rwCount := rwlock.rwCount - 1 })
      ((.write, t) :: acq) m := by
  have hb := h.bounded
  refine h.modifyCount hvalid _ ⟨rfl, rfl, rfl⟩
    ⟨by dsimp only; unfold INT8_MIN at *; omega, by dsimp only; omega⟩ ?_
  intro w hwk hacq
  rw [List.cons_append]
  obtain ⟨o, ho', hwrite, hlen⟩ := hacq.of_neg hc
  rw [ho] at ho'
  obtain rfl := Option.some.inj ho'
  refine .write ho ?_ ?_ (List.cons_ne_nil _ _)
  · intro a ha
    rcases List.mem_cons.1 ha with rfl | ha
    · rfl
    · exact hwrite a ha
  · simp only [List.length_cons]
    omega

/-- A reader gives back one of several read acquisitions. -/
theorem LockOk.releaseRead (h : LockOk s acq m) (hvalid : LOS_RwlockIsValid (s.locks m) = true)
    (hc : 1 < (s.locks m).rwCount) (ha : (.read, t) ∈ acq) :
    LockOk (s.modifyLock m fun rwlock => { rwlock with rwCount := rwlock.rwCount - 1 })
      (acq.erase (.read, t)) m := by
  have hb := h.bounded
  refine h.modifyCount hvalid _ ⟨rfl, rfl, rfl⟩
    ⟨by dsimp only; unfold INT8_MIN at *; omega, by dsimp only; omega⟩ ?_
  intro w hwk hacq
  obtain ⟨ho, hread, hlen⟩ := hacq.of_pos (by omega)
  refine .read (by dsimp only; omega) ho ?_ ?_
  · intro a ha'
    rcases List.mem_append.1 ha' with ha' | ha'
    · exact hread a (List.mem_append_left _ (List.erase_subset ha'))
    · exact hread a (List.mem_append_right _ ha')
  · have hlen' := List.length_erase_of_mem ha
    have hpos := List.length_pos_of_mem ha
    simp only [List.length_append] at hlen ⊢
    omega

/-- The owner gives back one of several write acquisitions. -/
theorem LockOk.releaseWrite (h : LockOk s acq m) (hvalid : LOS_RwlockIsValid (s.locks m) = true)
    (hc : (s.locks m).rwCount < -1) (ho : (s.locks m).writeOwner = some t)
    (hready : (s.tasks t).state = .ready) :
    LockOk (s.modifyLock m fun rwlock => { rwlock with rwCount := rwlock.rwCount + 1 })
      (acq.erase (.write, t)) m := by
  have hb := h.bounded
  have ha := h.owner_mem (by omega) ho hready
  refine h.modifyCount hvalid _ ⟨rfl, rfl, rfl⟩
    ⟨by dsimp only; omega, by dsimp only; unfold INT8_MAX at *; omega⟩ ?_
  intro w hwk hacq
  obtain ⟨o, ho', hwrite, hlen⟩ := hacq.of_neg (by omega)
  rw [ho] at ho'
  obtain rfl := Option.some.inj ho'
  have hlen' := List.length_erase_of_mem ha
  have hpos := List.length_pos_of_mem ha
  refine .write ho ?_ ?_ ?_
  · intro a ha'
    rcases List.mem_append.1 ha' with ha' | ha'
    · exact hwrite a (List.mem_append_left _ (List.erase_subset ha'))
    · exact hwrite a (List.mem_append_right _ ha')
  · simp only [List.length_append] at hlen ⊢
    omega
  · intro hnil
    have := congrArg List.length hnil
    simp only [List.length_append, List.length_nil] at this hlen
    omega

omit [DecidableEq μ] in
/-- The last acquisition given back: nothing is left, and nobody holds
the lock woken. -/
theorem LockOk.release_last {a : Mode × τ} (h : LockOk s acq m) (ha : a ∈ acq)
    (hone : (s.locks m).rwCount = 1 ∨ (s.locks m).rwCount = -1) :
    acq.erase a = [] ∧ ∀ b, ¬ Woken s m b := by
  obtain ⟨w, hw, hacq⟩ := h.acquired
  -- one acquisition in all, and `a` is it
  have hlen : (acq ++ w).length = 1 := by
    rcases hone with hc | hc
    · have := (hacq.of_pos (by omega)).2.2
      omega
    · obtain ⟨-, -, -, hlen⟩ := hacq.of_neg (by omega)
      omega
  have hpos := List.length_pos_of_mem ha
  have hlen' := List.length_erase_of_mem ha
  simp only [List.length_append] at hlen
  have hnil : w = [] := List.eq_nil_of_length_eq_zero (by omega)
  exact ⟨List.eq_nil_of_length_eq_zero (by omega), (hw.eq_nil_iff).1 hnil⟩

/-- A ready task joins a pend list of a held lock at place `i`
(`OsSchedTaskWait`). -/
theorem LockOk.wait (h : LockOk s acq m) (hready : (s.tasks t).state = .ready)
    (hc : (s.locks m).rwCount ≠ 0) {i : Nat} (hi : i ≤ ((s.locks m).list mode).length)
    (timeout : Nat) :
    LockOk (OsSchedTaskWait s t m mode i timeout) acq m ∧
      Frame m s (OsSchedTaskWait s t m mode i timeout) := by
  have hnot : ∀ mode' b, (s.tasks t).state ≠ .pended m mode' b := by simp [hready]
  refine ⟨⟨fun mode' => ?_, ?_, ?_, ?_⟩, ?_⟩
  · simp only [OsSchedTaskWait, setTask_locks, modifyLock_locks, if_true, LosRwlock.list_setList]
    split_ifs with hmode
    · subst hmode
      refine (h.lists mode').insertIdx i hi (fun ⟨b, hb⟩ => hnot mode' b hb) fun x => ?_
      rw [pended_setTask]
      split_ifs with hx
      · simp only [hx, or_true, iff_true]
        exact ⟨_, rfl⟩
      · simp [hx]
    · refine (h.lists mode').congr fun x => ?_
      rw [pended_setTask]
      split_ifs with hx
      · subst hx
        simp [Pended, hready, Ne.symm hmode]
      · exact Iff.rfl
  · obtain ⟨w, hw, hacq⟩ := h.acquired
    refine ⟨w, hw.congr fun a => ?_, hacq.congr (by simp [OsSchedTaskWait]) (by simp [OsSchedTaskWait])
      (fun hz => absurd hz hc)⟩
    simp only [OsSchedTaskWait, woken_setTask, woken_modifyLock]
    split_ifs with hx
    · simp [Woken, hx, hready]
    · exact Iff.rfl
  · simpa [OsSchedTaskWait] using h.bounded
  · simpa [OsSchedTaskWait, LOS_RwlockIsValid] using h.invalid
  · exact (Frame.modifyLock _).trans
      (Frame.setTask (.inl (by simp [hready, TaskState.lock])) (.inr rfl))

/-- A task pended on `m` leaves its list, woken by an unlock (`b` false)
or by its timeout: `OsSchedTaskWake` and `OsRwlockPendTimeout` are this
edit. -/
theorem lists_leave (hl : ∀ mode, Enumerates ((s.locks m).list mode) (Pended s m mode))
    {b₀ : Bool} (hp : (s.tasks t).state = .pended m mode b₀) (b : Bool) :
    let s' := (s.modifyLock m fun rwlock => rwlock.setList mode ((rwlock.list mode).erase t)).setTask
      t (.woken m mode b)
    (∀ mode', Enumerates ((s'.locks m).list mode') (Pended s' m mode')) ∧ Frame m s s' := by
  intro s'
  refine ⟨fun mode' => ?_,
    (Frame.modifyLock _).trans (Frame.setTask (.inr (by simp [hp, TaskState.lock])) (.inr rfl))⟩
  simp only [s', setTask_locks, modifyLock_locks, if_true, LosRwlock.list_setList]
  split_ifs with hmode
  · subst hmode
    refine (hl mode').erase fun x => ?_
    rw [pended_setTask]
    split_ifs with hx <;> simp [hx]
  · refine (hl mode').congr fun x => ?_
    rw [pended_setTask]
    split_ifs with hx
    · subst hx
      simp [Pended, hp, Ne.symm hmode]
    · exact Iff.rfl

/-- `OsSchedTaskWake` adds its task to the woken holders. -/
theorem woken_wake {w : List (Mode × τ)} (hw : Enumerates w (Woken s m)) {b₀ : Bool}
    (hp : (s.tasks t).state = .pended m mode b₀) :
    Enumerates (w ++ [(mode, t)]) (Woken (OsSchedTaskWake s m mode t) m) := by
  refine hw.concat (by simp [Woken, hp]) fun a => ?_
  obtain ⟨mode', x⟩ := a
  simp only [OsSchedTaskWake, woken_setTask, woken_modifyLock]
  split_ifs with hx
  · subst hx
    simp [Woken, hp, eq_comm]
  · simp [hx]

/-- A timed wait on `m` expires. -/
theorem LockOk.timeout (h : LockOk s acq m) (hp : (s.tasks t).state = .pended m mode true) :
    LockOk (OsRwlockPendTimeout s t m mode) acq m ∧ Frame m s (OsRwlockPendTimeout s t m mode) := by
  obtain ⟨hl, hfr⟩ := lists_leave h.lists hp true
  obtain ⟨w, hw, hacq⟩ := h.acquired
  refine ⟨⟨hl, ⟨w, hw.congr fun a => ?_, hacq.congr ?_ ?_ fun hz => ?_⟩, ?_, ?_⟩, hfr⟩
  · -- the task was pended, and is woken timed out: no holder either way
    simp only [OsRwlockPendTimeout, woken_setTask, woken_modifyLock]
    split_ifs with hx
    · simp [Woken, hx, hp]
    · exact Iff.rfl
  · simp [OsRwlockPendTimeout]
  · simp [OsRwlockPendTimeout]
  · obtain ⟨-, -, hr, hwl⟩ := hacq.of_zero hz
    cases mode <;> simp [OsRwlockPendTimeout, LosRwlock.setList, hr, hwl]
  · simpa [OsRwlockPendTimeout] using h.bounded
  · simpa [OsRwlockPendTimeout, LOS_RwlockIsValid] using h.invalid

omit [DecidableEq μ] in
/-- A woken task finishes its lock call: a holder woken by an unlock now
holds an acquisition returned to it. -/
theorem LockOk.resume (h : LockOk s acq m) {b : Bool} (hwk : (s.tasks t).state = .woken m mode b) :
    LockOk (OsRwlockPendResume s t b).2
        (if (OsRwlockPendResume s t b).1 = LOS_OK then (mode, t) :: acq else acq) m ∧
      Frame m s (OsRwlockPendResume s t b).2 := by
  have hfr : Frame m s (s.setTask t .ready) :=
    Frame.setTask (.inr (by simp [hwk, TaskState.lock])) (.inl rfl)
  refine ⟨⟨fun mode' => (h.lists mode').congr fun x => ?_, ?_, h.bounded, h.invalid⟩, hfr⟩
  · simp only [OsRwlockPendResume, pended_setTask]
    split_ifs with hx
    · subst hx
      simp [Pended, hwk]
    · exact Iff.rfl
  obtain ⟨w, hw, hacq⟩ := h.acquired
  cases b with
  | false =>
      -- the holder moves from the woken ones to those returned
      have hmem : (mode, t) ∈ w := (hw.mem_iff _).2 hwk
      simp only [OsRwlockPendResume, Bool.false_eq_true, if_false, if_true]
      refine ⟨w.erase (mode, t), hw.erase fun a => ?_,
        hacq.perm (((List.perm_cons_erase hmem).append_left acq).trans List.perm_middle)⟩
      obtain ⟨mode', x⟩ := a
      rw [woken_setTask]
      split_ifs with hx
      · subst hx
        simp [Woken, hwk, eq_comm]
      · simp [hx]
  | true =>
      simp only [OsRwlockPendResume, if_true]
      rw [if_neg (by decide)]
      refine ⟨w, hw.congr fun a => ?_, hacq⟩
      rw [woken_setTask]
      split_ifs with hx
      · simp [Woken, hx, hwk]
      · exact Iff.rfl

omit [DecidableEq τ] in
/-- A free lock written with another free lock (`LOS_RwlockInit`,
`LOS_RwlockDestroy`). -/
theorem LockOk.reset (h : LockOk s acq m) (hz : (s.locks m).rwCount = 0) (rwlock : LosRwlock τ)
    (hfree : rwlock.rwCount = 0 ∧ rwlock.writeOwner = none ∧ rwlock.readList = [] ∧
      rwlock.writeList = []) :
    LockOk (s.modifyLock m fun _ => rwlock) acq m ∧ Frame m s (s.modifyLock m fun _ => rwlock) := by
  obtain ⟨w, hw, hacq⟩ := h.acquired
  obtain ⟨hnil, -, hr, hwl⟩ := hacq.of_zero hz
  obtain ⟨hc, ho, hr', hw'⟩ := hfree
  refine ⟨⟨fun mode => ?_, ⟨w, hw, ?_⟩, ?_, fun _ => by simpa using hc⟩, Frame.modifyLock _⟩
  · cases mode
    · simpa [hr, hr'] using h.lists .read
    · simpa [hwl, hw'] using h.lists .write
  · simp only [modifyLock_locks, if_true]
    rw [hnil]
    exact .free hc ho hr' hw'
  · simp only [modifyLock_locks, if_true, hc]
    decide

end edits


-- ============================================================== unlock

section unlock

variable {s : RwSys τ μ} {m : μ} {t r : τ} {acq : List (Mode × τ)}

/-- What `OsRwlockPostOp` does, from the lock it frees: nothing more when
nobody waits, hand the lock to the first writer, or to the first reader
and then run the reader loop over the rest of the read list. -/
theorem OsRwlockPostOp_cases (s : RwSys τ μ) (m : μ) :
    let s₀ := s.modifyLock m fun rwlock => { rwlock with rwCount := 0, writeOwner := none }
    ((s.locks m).readList = [] ∧ (s.locks m).writeList = [] ∧ (OsRwlockPostOp s m).2 = s₀) ∨
    (∃ r rest, (s.locks m).writeList = r :: rest ∧
      (OsRwlockPostOp s m).2 = OsSchedTaskWake (s₀.modifyLock m fun rwlock =>
        { rwlock with rwCount := -1, writeOwner := some r }) m .write r) ∨
    (∃ r rest readFirst pri, (s.locks m).readList = r :: rest ∧
      (OsRwlockPostOp s m).2 = (OsRwlockPostOpLoop m readFirst pri (OsSchedTaskWake
        (s₀.modifyLock m fun rwlock => { rwlock with rwCount := 1 }) m .read r) rest).2) := by
  intro s₀
  rcases hr : (s.locks m).readList with _ | ⟨r, rest⟩ <;>
    rcases hw : (s.locks m).writeList with _ | ⟨w, wrest⟩
  · exact .inl ⟨rfl, rfl, by simp [OsRwlockPostOp, OsRwlockGetMode, hr, hw, s₀]⟩
  · exact .inr (.inl ⟨w, wrest, rfl, by simp [OsRwlockPostOp, OsRwlockGetMode, hr, hw, s₀]⟩)
  · exact .inr (.inr ⟨r, rest, false, 0, rfl, by simp [OsRwlockPostOp, OsRwlockGetMode, hr, hw, s₀]⟩)
  · -- both lists wait: the first writer's priority picks the side
    by_cases hpri : (s.tasks w).priority ≤ (s.tasks r).priority
    · exact .inr (.inl ⟨w, wrest, rfl, by simp [OsRwlockPostOp, OsRwlockGetMode, hr, hw, s₀, hpri]⟩)
    · exact .inr (.inr ⟨r, rest, true, (s.tasks w).priority, rfl,
        by simp [OsRwlockPostOp, OsRwlockGetMode, hr, hw, s₀, hpri]⟩)

/-- `OsSchedTaskWake` on the first reader of a lock whose `rwCount`
already counts it, every woken holder a reader. -/
theorem wake_read (hl : ∀ mode, Enumerates ((s.locks m).list mode) (Pended s m mode))
    {w : List (Mode × τ)} (hw : Enumerates w (Woken s m)) (hread : ∀ a ∈ w, a.1 = .read)
    (ho : (s.locks m).writeOwner = none) {rest : List τ} (hfirst : (s.locks m).readList = r :: rest)
    (hlen : (w.length : Int) + 1 = (s.locks m).rwCount) (hmax : (s.locks m).rwCount ≤ INT8_MAX)
    (hvalid : LOS_RwlockIsValid (s.locks m) = true) :
    LockOk (OsSchedTaskWake s m .read r) [] m ∧ Frame m s (OsSchedTaskWake s m .read r) ∧
      ((OsSchedTaskWake s m .read r).locks m).readList = rest ∧
      ((OsSchedTaskWake s m .read r).locks m).rwCount = (s.locks m).rwCount := by
  obtain ⟨b, hp⟩ : ∃ b, (s.tasks r).state = .pended m .read b :=
    ((hl .read).mem_iff r).1 (by simp [hfirst])
  obtain ⟨hl', hfr⟩ := lists_leave hl hp false
  have hlock : (OsSchedTaskWake s m .read r).locks m = (s.locks m).setList .read rest := by
    simp [OsSchedTaskWake, hfirst]
  refine ⟨⟨hl', ⟨w ++ [(.read, r)], woken_wake hw hp, ?_⟩, ?_, ?_⟩, hfr, ?_, ?_⟩
  · rw [hlock]
    refine .read (by simp; omega) (by simpa using ho) ?_ ?_
    · intro a ha
      simp only [List.nil_append, List.mem_append, List.mem_singleton] at ha
      rcases ha with ha | rfl
      · exact hread a ha
      · rfl
    · simp only [List.nil_append, List.length_append, List.length_singleton, LosRwlock.setList_rwCount]
      omega
  · rw [hlock, LosRwlock.setList_rwCount]
    unfold INT8_MIN
    omega
  · rw [hlock]
    simp [LOS_RwlockIsValid] at hvalid ⊢
    simp [hvalid]
  · rw [hlock]
    rfl
  · rw [hlock, LosRwlock.setList_rwCount]

/-- The reader loop of `OsRwlockPostOp` keeps the lock read-locked by the
readers it wakes. -/
theorem LockOk.postOpLoop (readFirst : Bool) (pri : Nat) :
    ∀ (l : List τ) (s : RwSys τ μ), LockOk s [] m → 0 < (s.locks m).rwCount →
      (s.locks m).readList = l → LOS_RwlockIsValid (s.locks m) = true →
      LockOk (OsRwlockPostOpLoop m readFirst pri s l).2 [] m ∧
        Frame m s (OsRwlockPostOpLoop m readFirst pri s l).2
  | [], s, h, _, _, _ => ⟨h, Frame.refl⟩
  | r :: rest, s, h, hpos, hl, hvalid => by
      rw [Rwlock.OsRwlockPostOpLoop]
      split_ifs with hbreak hmax
      · exact ⟨h, Frame.refl⟩
      · exact ⟨h, Frame.refl⟩
      · -- count `r` first, then wake it
        obtain ⟨w, hw, hacq⟩ := h.acquired
        obtain ⟨ho, hread, hlen⟩ := hacq.of_pos hpos
        have hnext : (s.locks m).rwCount + 1 ≤ INT8_MAX := by
          have := h.bounded.2
          unfold INT8_MAX at *
          omega
        have hfr₁ : Frame m s (s.modifyLock m fun rwlock =>
            { rwlock with rwCount := rwlock.rwCount + 1 }) :=
          Frame.modifyLock _
        generalize hs₁ : s.modifyLock m (fun rwlock => { rwlock with rwCount := rwlock.rwCount + 1 }) = s₁ at hfr₁ ⊢
        have hcount₁ : (s₁.locks m).rwCount = (s.locks m).rwCount + 1 := by
          rw [← hs₁]
          simp
        have hlist₁ : ∀ mode, (s₁.locks m).list mode = (s.locks m).list mode := by
          intro mode
          rw [← hs₁]
          cases mode <;> simp
        have htasks₁ : s₁.tasks = s.tasks := by
          rw [← hs₁]
          rfl
        have hl₁ : ∀ mode, Enumerates ((s₁.locks m).list mode) (Pended s₁ m mode) := by
          intro mode
          rw [hlist₁, show Pended s₁ = Pended s by unfold Pended; rw [htasks₁]]
          exact h.lists mode
        have hw₁ : Enumerates w (Woken s₁ m) := by
          rwa [show Woken s₁ = Woken s by unfold Woken; rw [htasks₁]]
        have ho₁ : (s₁.locks m).writeOwner = none := by
          rw [← hs₁]
          simpa using ho
        have hvalid₁ : LOS_RwlockIsValid (s₁.locks m) = true := by
          rw [← hs₁]
          simpa [LOS_RwlockIsValid] using hvalid
        simp only [List.nil_append] at hlen
        obtain ⟨hok, hfr, hrest, hcount⟩ := wake_read hl₁ hw₁ hread ho₁
          (by rw [← LosRwlock.list_read, hlist₁]; exact hl) (by omega) (by omega) hvalid₁
        have hvalid₂ : LOS_RwlockIsValid ((OsSchedTaskWake s₁ m .read r).locks m) = true := by
          by_contra hinv
          have := hok.invalid (by simpa using hinv)
          omega
        obtain ⟨hok', hfr'⟩ := LockOk.postOpLoop readFirst pri rest _ hok (by omega) hrest hvalid₂
        exact ⟨hok', (hfr₁.trans hfr).trans hfr'⟩

omit [DecidableEq τ] in
/-- An edit of `rwCount` and `writeOwner` keeps the pend lists and who
is pended on them. -/
theorem lists_modifyLock (hl : ∀ mode, Enumerates ((s.locks m).list mode) (Pended s m mode))
    (f : LosRwlock τ → LosRwlock τ) (hf : ∀ mode, (f (s.locks m)).list mode = (s.locks m).list mode) :
    ∀ mode, Enumerates (((s.modifyLock m f).locks m).list mode) (Pended (s.modifyLock m f) m mode) := by
  intro mode
  simpa [hf] using hl mode

/-- `OsRwlockPostOp` from a lock whose last acquisition was just given
back: the lock goes free, or to the first writer, or to the readers the
loop admits. -/
theorem LockOk.postOp (h : LockOk s acq m) (hvalid : LOS_RwlockIsValid (s.locks m) = true)
    (hnone : ∀ a, ¬ Woken s m a) :
    LockOk (OsRwlockPostOp s m).2 [] m ∧ Frame m s (OsRwlockPostOp s m).2 := by
  have hw₀ : Enumerates ([] : List (Mode × τ)) (Woken s m) := Enumerates.nil hnone
  -- the lock after `rwCount = 0; writeOwner = NULL`
  have hl₀ := lists_modifyLock h.lists
    (fun rwlock => { rwlock with rwCount := 0, writeOwner := none }) fun mode => by cases mode <;> rfl
  rcases OsRwlockPostOp_cases s m with ⟨hr, hwl, heq⟩ | ⟨r, rest, hwl, heq⟩ |
      ⟨r, rest, readFirst, pri, hr, heq⟩
  · -- nobody waits: the lock is free
    rw [heq]
    refine ⟨⟨hl₀, ⟨[], hw₀, ?_⟩, ?_, ?_⟩, Frame.modifyLock _⟩
    · exact .free (by simp) (by simp) (by simpa using hr) (by simpa using hwl)
    · simp only [modifyLock_locks, if_true]
      decide
    · simp
  · -- the first writer takes the lock
    rw [heq]
    have hl₁ := lists_modifyLock hl₀
      (fun rwlock => { rwlock with rwCount := -1, writeOwner := some r }) fun mode => by cases mode <;> rfl
    obtain ⟨b, hp⟩ : ∃ b, (s.tasks r).state = .pended m .write b :=
      h.pended_of_mem (by simp [hwl])
    obtain ⟨hl', hfr⟩ := lists_leave hl₁ hp false
    have hwk := woken_wake (Enumerates.nil hnone) hp
    refine ⟨⟨hl', ⟨[(.write, r)], hwk, ?_⟩, ?_, ?_⟩, ((Frame.modifyLock _).trans (Frame.modifyLock _)).trans hfr⟩
    · exact .write (by simp [OsSchedTaskWake] : _ = some r) (by simp) (by simp [OsSchedTaskWake])
        (by simp)
    · simp only [OsSchedTaskWake, setTask_locks, modifyLock_locks, if_true, LosRwlock.setList_rwCount]
      decide
    · simpa [OsSchedTaskWake, LOS_RwlockIsValid] using hvalid
  · -- the first reader takes the lock, then the loop wakes the readers it admits
    rw [heq]
    have hl₁ := lists_modifyLock hl₀ (fun rwlock => { rwlock with rwCount := 1 }) fun mode => by
      cases mode <;> rfl
    obtain ⟨hok, hfr, hrest, hcount⟩ := wake_read hl₁ hw₀ (by simp) (by simp) (by simpa using hr)
      (by simp) (by simp [INT8_MAX]) (by simpa [LOS_RwlockIsValid] using hvalid)
    have hvalid₂ : LOS_RwlockIsValid ((OsSchedTaskWake (((s.modifyLock m fun rwlock =>
        { rwlock with rwCount := 0, writeOwner := none }).modifyLock m fun rwlock =>
          { rwlock with rwCount := 1 })) m .read r).locks m) = true := by
      simpa [OsSchedTaskWake, LOS_RwlockIsValid] using hvalid
    obtain ⟨hok', hfr'⟩ := LockOk.postOpLoop readFirst pri rest _ hok (by rw [hcount]; simp) hrest hvalid₂
    exact ⟨hok', (((Frame.modifyLock _).trans (Frame.modifyLock _)).trans hfr).trans hfr'⟩

end unlock

-- ================================================================= calls

section calls

variable {s : RwSys τ μ} {m : μ} {t : τ} {acq : List (Mode × τ)} {mode : Mode}

/-- What a lock call in `mode` by `t` keeps: lock `m`, with the caller's
acquisition when the call returns `LOS_OK`, and the other locks. -/
def LockCallOk (s : RwSys τ μ) (acq : List (Mode × τ)) (m : μ) (t : τ) (mode : Mode)
    (r : Option Nat × RwSys τ μ) : Prop :=
  LockOk r.2 (if r.1 = some LOS_OK then (mode, t) :: acq else acq) m ∧ Frame m s r.2

omit [DecidableEq τ] [DecidableEq μ] in
/-- A call refused with an error changes nothing. -/
theorem LockOk.refuse (h : LockOk s acq m) {e : Nat} (he : e ≠ LOS_OK) :
    LockCallOk s acq m t mode (some e, s) := by
  simp only [LockCallOk, Option.some.injEq, he, if_false]
  exact ⟨h, Frame.refl⟩

omit [DecidableEq μ] [DecidableEq τ] in
/-- A free lock: no acquisition, no owner, nobody waiting. -/
theorem LockOk.free (h : LockOk s acq m) (hz : (s.locks m).rwCount = 0) :
    acq = [] ∧ (s.locks m).writeOwner = none ∧ (s.locks m).readList = [] ∧
      (s.locks m).writeList = [] := by
  obtain ⟨w, -, hacq⟩ := h.acquired
  obtain ⟨hnil, ho, hr, hw⟩ := hacq.of_zero hz
  exact ⟨(List.append_eq_nil_iff.1 hnil).1, ho, hr, hw⟩

/-- `OsRwlockPend` on a held lock: the caller waits where
`OsSchedLockPendFindPos` puts it, or gets `LOS_NOK`. -/
theorem LockOk.pend (h : LockOk s acq m) (hready : (s.tasks t).state = .ready)
    (hc : (s.locks m).rwCount ≠ 0) (timeout : Nat) :
    LockCallOk s acq m t mode (OsRwlockPend s t m mode timeout) := by
  unfold Rwlock.OsRwlockPend
  cases hpos : Mux.OsSchedLockPendFindPos (fun t => (s.tasks t).priority) (s.tasks t).priority
      ((s.locks m).list mode) with
  | none => exact h.refuse (by decide)
  | some i =>
      obtain ⟨hok, hfr⟩ := h.wait hready hc (Mux.OsSchedLockPendFindPos_le hpos) timeout
      exact ⟨by simpa using hok, hfr⟩

/-- `OsRwlockRdPendOp`: a read acquisition granted, a refusal, or a wait
on a held lock. -/
theorem LockOk.rdPendOp (h : LockOk s acq m) (hvalid : LOS_RwlockIsValid (s.locks m) = true)
    (hready : (s.tasks t).state = .ready) (timeout : Nat) :
    LockCallOk s acq m t .read (OsRwlockRdPendOp s t m timeout) := by
  dsimp only [Rwlock.OsRwlockRdPendOp]
  split_ifs with hgrant hmax htimeout hown
  · exact h.refuse (by decide)
  · exact ⟨by simpa using h.grantRead hvalid hgrant.1 hmax, by dsimp only; exact Frame.modifyLock _⟩
  · exact h.refuse (by decide)
  · exact h.refuse (by decide)
  · -- a free lock has nobody on its write list, so the caller waits on a held one
    refine h.pend hready (fun hz => hgrant ⟨hz.symm.le, ?_⟩) timeout
    rw [(h.free hz).2.2.2]
    rfl

/-- `OsRwlockWrPendOp`: the lock taken or taken again, a refusal, or a
wait on a held lock. -/
theorem LockOk.wrPendOp (h : LockOk s acq m) (hvalid : LOS_RwlockIsValid (s.locks m) = true)
    (hready : (s.tasks t).state = .ready) (timeout : Nat) :
    LockCallOk s acq m t .write (OsRwlockWrPendOp s t m timeout) := by
  dsimp only [Rwlock.OsRwlockWrPendOp]
  split_ifs with hz hown hmin htimeout
  · exact ⟨by simpa using h.grantWrite hvalid hz, by dsimp only; exact Frame.modifyLock _⟩
  · exact h.refuse (by decide)
  · exact ⟨by simpa using h.regrantWrite hvalid hown.1 hown.2 hmin, by dsimp only; exact Frame.modifyLock _⟩
  · exact h.refuse (by decide)
  · exact h.pend hready hz timeout

theorem LockOk.rdLock (h : LockOk s acq m) (hready : (s.tasks t).state = .ready) (timeout : Nat) :
    LockCallOk s acq m t .read (LOS_RwlockRdLock s t m timeout) := by
  dsimp only [Rwlock.LOS_RwlockRdLock, OsRwlockRdUnsafe]
  split_ifs with hcheck hvalid
  · exact h.refuse hcheck
  · exact h.refuse (by decide)
  · exact h.rdPendOp (by simpa using hvalid) hready timeout

theorem LockOk.tryRdLock (h : LockOk s acq m) (hready : (s.tasks t).state = .ready) :
    LockCallOk s acq m t .read (LOS_RwlockTryRdLock s t m) := by
  dsimp only [Rwlock.LOS_RwlockTryRdLock, OsRwlockTryRdUnsafe]
  split_ifs with hcheck hvalid
  · exact h.refuse hcheck
  · exact h.refuse (by decide)
  · exact h.refuse (by decide)
  · exact h.refuse (by decide)
  · exact h.refuse (by decide)
  · exact h.rdPendOp (by simpa using hvalid) hready 0

theorem LockOk.wrLock (h : LockOk s acq m) (hready : (s.tasks t).state = .ready) (timeout : Nat) :
    LockCallOk s acq m t .write (LOS_RwlockWrLock s t m timeout) := by
  dsimp only [Rwlock.LOS_RwlockWrLock, OsRwlockWrUnsafe]
  split_ifs with hcheck hvalid
  · exact h.refuse hcheck
  · exact h.refuse (by decide)
  · exact h.wrPendOp (by simpa using hvalid) hready timeout

theorem LockOk.tryWrLock (h : LockOk s acq m) (hready : (s.tasks t).state = .ready) :
    LockCallOk s acq m t .write (LOS_RwlockTryWrLock s t m) := by
  dsimp only [Rwlock.LOS_RwlockTryWrLock, OsRwlockTryWrUnsafe]
  split_ifs with hcheck hvalid
  · exact h.refuse hcheck
  · exact h.refuse (by decide)
  · exact h.refuse (by decide)
  · exact h.refuse (by decide)
  · exact h.wrPendOp (by simpa using hvalid) hready 0

end calls

-- =========================================================== unlock, init

section unlockCall

variable {s : RwSys τ μ} {m : μ} {t : τ} {acq : List (Mode × τ)}

/-- An unlock that does not get past its checks changes nothing. -/
theorem LOS_RwlockUnLock_refused (ht : ¬ UnlockTakes s t m) : (LOS_RwlockUnLock s t m).2 = s := by
  by_cases hsys : (s.tasks t).system = true
  · simp [Rwlock.LOS_RwlockUnLock, OsRwlockCheck, hsys, LOS_EPERM, LOS_OK]
  have hsys' : (s.tasks t).system = false := by simpa using hsys
  have hcheck : OsRwlockCheck s t = LOS_OK := by simp [OsRwlockCheck, hsys']
  simp only [Rwlock.LOS_RwlockUnLock, hcheck, ne_eq, not_true_eq_false, if_false, OsRwlockUnlockUnsafe]
  -- the checks that pass leave one that refuses the call
  by_cases hvalid : LOS_RwlockIsValid (s.locks m) = true
  · rw [if_neg (by simp [hvalid])]
    by_cases hz : (s.locks m).rwCount = 0
    · rw [if_pos hz]
    · have hown : (s.locks m).rwCount < 0 ∧ (s.locks m).writeOwner ≠ some t := by
        by_contra hown
        exact ht ⟨hsys', hvalid, hz, hown⟩
      rw [if_neg hz, if_pos hown]
  · rw [if_pos (by simpa using hvalid)]

/-- `LOS_RwlockUnLock` by a ready task keeping to `UnlockHeld`: the lock
with the caller's acquisition given back when the unlock gets past its
checks. -/
theorem LockOk.unLock (h : LockOk s acq m) (hready : (s.tasks t).state = .ready)
    (hheld : 0 < (s.locks m).rwCount → (.read, t) ∈ acq) :
    LockOk (LOS_RwlockUnLock s t m).2
        (if UnlockTakes s t m then acq.erase ((s.locks m).unlockMode, t) else acq) m ∧
      Frame m s (LOS_RwlockUnLock s t m).2 := by
  by_cases htake : UnlockTakes s t m
  · rw [if_pos htake]
    obtain ⟨hsys, hvalid, hc, hown⟩ := htake
    have hunlock : (LOS_RwlockUnLock s t m).2 = (OsRwlockUnlockUnsafe s t m).2 := by
      simp [Rwlock.LOS_RwlockUnLock, OsRwlockCheck, hsys]
    -- the owner of a write-locked lock is the caller
    have howner : (s.locks m).rwCount < 0 → (s.locks m).writeOwner = some t := by
      intro hneg
      by_contra hne
      exact hown ⟨hneg, hne⟩
    rw [hunlock]
    dsimp only [OsRwlockUnlockUnsafe]
    rw [if_neg (by simp [hvalid]), if_neg hc, if_neg hown]
    split_ifs with hgt hlt
    · rw [show (s.locks m).unlockMode = .read from if_pos (by omega)]
      exact ⟨h.releaseRead hvalid hgt (hheld (by omega)), by dsimp only; exact Frame.modifyLock _⟩
    · rw [show (s.locks m).unlockMode = .write from if_neg (by omega)]
      exact ⟨h.releaseWrite hvalid hlt (howner (by omega)) hready,
        by dsimp only; exact Frame.modifyLock _⟩
    · -- the last acquisition: `OsRwlockPostOp` hands the lock on
      have hone : (s.locks m).rwCount = 1 ∨ (s.locks m).rwCount = -1 := by omega
      have ha : ((s.locks m).unlockMode, t) ∈ acq := by
        rcases hone with h1 | h1
        · rw [show (s.locks m).unlockMode = .read from if_pos (by omega)]
          exact hheld (by omega)
        · rw [show (s.locks m).unlockMode = .write from if_neg (by omega)]
          exact h.owner_mem (by omega) (howner (by omega)) hready
      obtain ⟨hnil, hnone⟩ := h.release_last ha hone
      rw [hnil]
      exact h.postOp hvalid hnone
  · rw [if_neg htake, LOS_RwlockUnLock_refused htake]
    exact ⟨h, Frame.refl⟩

omit [DecidableEq τ] in
theorem LockOk.rwlockInit (h : LockOk s acq m) :
    LockOk (LOS_RwlockInit s m).2 acq m ∧ Frame m s (LOS_RwlockInit s m).2 := by
  unfold Rwlock.LOS_RwlockInit
  split_ifs with hvalid
  · exact ⟨h, Frame.refl⟩
  · exact h.reset (h.invalid (by simpa using hvalid)) _ ⟨rfl, rfl, rfl, rfl⟩

omit [DecidableEq τ] in
theorem LockOk.rwlockDestroy (h : LockOk s acq m) :
    LockOk (LOS_RwlockDestroy s m).2 acq m ∧ Frame m s (LOS_RwlockDestroy s m).2 := by
  unfold Rwlock.LOS_RwlockDestroy
  split_ifs with hvalid hz
  · exact ⟨h, Frame.refl⟩
  · exact ⟨h, Frame.refl⟩
  · exact h.reset (by simpa using hz) _ ⟨rfl, rfl, rfl, rfl⟩

end unlockCall

-- ================================================================= runs

omit [DecidableEq τ] in
/-- What `Acquired` says, read as the counts and the owner. -/
theorem Acquired.spec {rwlock : LosRwlock τ} {acq : List (Mode × τ)} (h : Acquired rwlock acq) :
    (0 < rwlock.rwCount ↔ rwlock.writeOwner = none ∧ acq ≠ [] ∧ ∀ a ∈ acq, a.1 = .read) ∧
    (0 < rwlock.rwCount → (acq.length : Int) = rwlock.rwCount) ∧
    (rwlock.rwCount < 0 ↔ ∃ w, rwlock.writeOwner = some w ∧ acq ≠ [] ∧ ∀ a ∈ acq, a = (.write, w)) ∧
    (rwlock.rwCount < 0 → (acq.length : Int) = -rwlock.rwCount) ∧
    (rwlock.rwCount = 0 → acq = [] ∧ rwlock.readList = [] ∧ rwlock.writeList = []) := by
  cases h with
  | free hz ho hr hw => simp [hz, hr, hw]
  | read hpos ho hread hlen =>
      have hne : acq ≠ [] := fun hnil => by simp [hnil] at hlen; omega
      refine ⟨iff_of_true hpos ⟨ho, hne, hread⟩, fun _ => hlen, iff_of_false (by omega) ?_,
        fun hneg => by omega, fun hz => by omega⟩
      rintro ⟨w, hw, -⟩
      rw [ho] at hw
      cases hw
  | write ho hwrite hlen hne =>
      have hpos : 0 < acq.length := List.length_pos_iff.2 hne
      refine ⟨iff_of_false (by omega) ?_, fun hpos' => by omega, iff_of_true (by omega) ⟨_, ho, hne, hwrite⟩,
        fun _ => hlen, fun hz => by omega⟩
      rintro ⟨hnone, -⟩
      rw [ho] at hnone
      cases hnone

omit [DecidableEq μ] [DecidableEq τ] in
/-- Every lock of an initial state is kept, with no acquisitions. -/
theorem LockOk.initial {s : RwSys τ μ} (h₀ : Init s) (m : μ) : LockOk s [] m := by
  obtain ⟨hready, hlocks⟩ := h₀
  have hnp : ∀ mode x, ¬ Pended s m mode x := by
    rintro mode x ⟨b, hb⟩
    rw [hready x] at hb
    cases hb
  have hnw : ∀ a, ¬ Woken s m a := by
    intro a ha
    rw [Woken, hready a.2] at ha
    cases ha
  have hfree : (s.locks m).rwCount = 0 ∧ (s.locks m).writeOwner = none ∧
      (s.locks m).readList = [] ∧ (s.locks m).writeList = [] := by
    rcases hlocks m with hm | hm <;> rw [hm] <;> exact ⟨rfl, rfl, rfl, rfl⟩
  obtain ⟨hz, ho, hr, hw⟩ := hfree
  refine ⟨fun mode => ?_, ⟨[], Enumerates.nil hnw, .free hz ho hr hw⟩, by rw [hz]; decide, fun _ => hz⟩
  cases mode
  · rw [LosRwlock.list_read, hr]
    exact Enumerates.nil (hnp _)
  · rw [LosRwlock.list_write, hw]
    exact Enumerates.nil (hnp _)

/-- One step of the system with its acquisitions keeps every lock: the
event's lock by the lemma for its call, the others by its frame. -/
theorem LockOk.step {p p' : RwSys τ μ × (μ → List (Mode × τ))} {e : Event τ μ}
    (hall : ∀ m, LockOk p.1 (p.2 m) m) (hs : HeldStep p e p') : ∀ m, LockOk p'.1 (p'.2 m) m := by
  cases hs with
  | @mk s s' g e hstep hheld =>
    have key : LockOk s' (e.held s (g e.lock)) e.lock ∧ Frame e.lock s s' := by
      cases hstep with
      | call c hready =>
          cases c with
          | LOS_RwlockInit m => exact (hall m).rwlockInit
          | LOS_RwlockDestroy m => exact (hall m).rwlockDestroy
          | LOS_RwlockRdLock m timeout => exact (hall m).rdLock hready timeout
          | LOS_RwlockTryRdLock m => exact (hall m).tryRdLock hready
          | LOS_RwlockWrLock m timeout => exact (hall m).wrLock hready timeout
          | LOS_RwlockTryWrLock m => exact (hall m).tryWrLock hready
          | LOS_RwlockUnLock m => exact (hall m).unLock hready hheld
      | timeout hp => exact (hall _).timeout hp
      | resume hw => exact (hall _).resume hw
    intro m
    by_cases hm : m = e.lock
    · subst hm
      simpa [held] using key.1
    · simp only [held, Function.update_of_ne hm]
      exact (hall m).frame key.2 hm

/-- Read-write lock safety, for runs whose callers unlock a read-locked
lock only while holding a read acquisition of it: in every state, the
acquisitions outstanding on a lock (those returned to their callers,
`g m`, and those of the tasks an unlock has woken) are `rwCount` reads
with no owner, or `-rwCount` writes all by the owner, or none on a free
lock with both pend lists empty; each pend list holds exactly the tasks
pended on it, once each; and `rwCount` fits its 8-bit field. -/
theorem rwlock_held {s₀ s : RwSys τ μ} {evs : List (Event τ μ)} {g : μ → List (Mode × τ)}
    (h₀ : Init s₀) (hrun : Run HeldStep (s₀, fun _ => []) evs (s, g)) (m : μ) :
    ∃ woken : List (Mode × τ), Enumerates woken (Woken s m) ∧
      (0 < (s.locks m).rwCount ↔ (s.locks m).writeOwner = none ∧ g m ++ woken ≠ [] ∧
        ∀ a ∈ g m ++ woken, a.1 = .read) ∧
      (0 < (s.locks m).rwCount → ((g m ++ woken).length : Int) = (s.locks m).rwCount) ∧
      ((s.locks m).rwCount < 0 ↔ ∃ w, (s.locks m).writeOwner = some w ∧ g m ++ woken ≠ [] ∧
        ∀ a ∈ g m ++ woken, a = (.write, w)) ∧
      ((s.locks m).rwCount < 0 → ((g m ++ woken).length : Int) = -(s.locks m).rwCount) ∧
      ((s.locks m).rwCount = 0 →
        g m ++ woken = [] ∧ (s.locks m).readList = [] ∧ (s.locks m).writeList = []) ∧
      Enumerates (s.locks m).readList (Pended s m .read) ∧
      Enumerates (s.locks m).writeList (Pended s m .write) ∧
      INT8_MIN ≤ (s.locks m).rwCount ∧ (s.locks m).rwCount ≤ INT8_MAX := by
  have hok : ∀ m, LockOk s (g m) m :=
    hrun.inv (fun p => ∀ m, LockOk p.1 (p.2 m) m) (fun _ _ _ hp hs => LockOk.step hp hs)
      (LockOk.initial h₀)
  obtain ⟨hl, ⟨w, hw, hacq⟩, hb, -⟩ := hok m
  obtain ⟨hpos, hposlen, hneg, hneglen, hz⟩ := hacq.spec
  exact ⟨w, hw, hpos, hposlen, hneg, hneglen, hz, hl .read, hl .write, hb⟩

/-- Task 0 read-locks a free lock, task 2's write lock waits behind it,
task 0 unlocks and so hands the lock to task 2, which returns from its
wait: task 2 owns the lock with its one write acquisition. -/
theorem rwlock_held_handover :
    let s₀ : RwSys (Fin 3) (Fin 1) :=
      ⟨fun _ => ⟨10, false, .ready⟩, fun _ => ⟨OS_RWLOCK_MAGIC, 0, none, [], []⟩⟩
    let evs : List (Event (Fin 3) (Fin 1)) :=
      [.call 0 (.LOS_RwlockRdLock 0 0) (some LOS_OK), .call 2 (.LOS_RwlockWrLock 0 5) none,
        .call 0 (.LOS_RwlockUnLock 0) (some LOS_OK), .resume 2 0 .write LOS_OK]
    ∃ s g, Init s₀ ∧ Run HeldStep (s₀, fun _ => []) evs (s, g) ∧ (s.locks 0).rwCount = -1 ∧
      ∃ woken : List (Mode × Fin 3), Enumerates woken (Woken s 0) ∧
        ∃ w, (s.locks 0).writeOwner = some w ∧ g 0 ++ woken ≠ [] ∧
          ∀ a ∈ g 0 ++ woken, a = (.write, w) := by
  intro s₀ evs
  have h₀ : Init s₀ := ⟨fun _ => rfl, fun _ => .inl rfl⟩
  -- the run, one event at a time, each step taken at the state the last one left
  have r₀ : Run HeldStep (s₀, fun _ => []) [] (s₀, fun _ => []) := .nil
  have r₁ : Run HeldStep _ (evs.take 1) _ :=
    r₀.snoc (HeldStep.mk (Step.call_ret rfl (by decide)) trivial)
  have r₂ : Run HeldStep _ (evs.take 2) _ :=
    r₁.snoc (HeldStep.mk (Step.call_ret (by decide) (by decide)) trivial)
  have r₃ : Run HeldStep _ (evs.take 3) _ :=
    r₂.snoc (HeldStep.mk (Step.call_ret (by decide) (by decide)) fun _ => by decide)
  have r₄ : Run HeldStep _ evs _ :=
    r₃.snoc (HeldStep.mk (Step.resume_ret (show _ = TaskState.woken 0 .write false by decide)
      (by decide)) trivial)
  obtain ⟨woken, hwk, -, -, hneg, -⟩ := rwlock_held h₀ r₄ 0
  exact ⟨_, _, h₀, r₄, by decide, woken, hwk, hneg.1 (by decide)⟩

/-- Without the caller's side of the contract the safety law fails, since
a read-mode unlock does not check its caller: task 0 read-locks the lock,
task 1, which holds nothing, unlocks it, and task 2 then write-locks it,
so task 2 owns the lock while task 0's read acquisition is outstanding. -/
theorem rwlock_unlock_by_nonholder :
    let s₀ : RwSys (Fin 3) (Fin 1) :=
      ⟨fun _ => ⟨10, false, .ready⟩, fun _ => ⟨OS_RWLOCK_MAGIC, 0, none, [], []⟩⟩
    let evs : List (Event (Fin 3) (Fin 1)) :=
      [.call 0 (.LOS_RwlockRdLock 0 0) (some LOS_OK), .call 1 (.LOS_RwlockUnLock 0) (some LOS_OK),
        .call 2 (.LOS_RwlockWrLock 0 0) (some LOS_OK)]
    ∃ s, Init s₀ ∧ Run Step s₀ evs s ∧ (s.locks 0).rwCount = -1 ∧
      (s.locks 0).writeOwner = some 2 := by
  intro s₀ evs
  have r₀ : Run Step s₀ [] s₀ := .nil
  have r₁ : Run Step _ (evs.take 1) _ := r₀.snoc (Step.call_ret rfl (by decide))
  have r₂ : Run Step _ (evs.take 2) _ := r₁.snoc (Step.call_ret (by decide) (by decide))
  have r₃ : Run Step _ evs _ := r₂.snoc (Step.call_ret (by decide) (by decide))
  exact ⟨_, ⟨fun _ => rfl, fun _ => .inl rfl⟩, r₃, by decide, by decide⟩

end LiteOsA.Rwlock
