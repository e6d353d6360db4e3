/-
`OsGetTopTask` takes the best task the current CPU may run.

# The bits

The queue code names priority `p` by two expressions: the enqueues and
`OsSchedPriQueueDelete` by `PRIQUEUE_PRIOR0_BIT >> p`, and the loops of
`OsGetTopTask` by `1U << (OS_PRIORITY_QUEUE_NUM - p - 1)`. Both are bit
`31 - p` (`PRIQUEUE_PRIOR0_BIT_shiftRight`), so that setting, clearing
and `CLZ` answer to the bitmap lemmas of `LOS_BitmapSet` and
`LOS_BitmapClr`. A loop of `scanQueues` over a 32-bit bitmap is then a
search of the priorities whose bit is set, in increasing order
(`scanQueues_spec`), and the two nested loops search the pairs of a
process priority and a task priority in lexicographic order.

# The invariant

`BitmapsOk` ties the bitmaps and counts to the lists: a list's bit is
set exactly while it holds a task, a `SchedQueue`'s exactly while its
bitmap is not zero, and `readyTasks` is the length of its list.
`QueueOk` adds what the lists hold: exactly the tasks that are ready and
not idle tasks, each in the list of its process's priority and its own;
and every CPU's idle task has the policy `LOS_SCHED_IDLE`.

# The result

Under `QueueOk`, `OsGetTopTask` on `cpuid` returns the first task that
may run on `cpuid` of the list with the smallest pair of priorities
holding one, or the CPU's idle task when no queued task may run there
(`TopTask`, `NoTopTask`); it unlinks the task it returns from its list
and clears its `OS_TASK_STATUS_READY`, re-establishing `QueueOk`, and
keeps every process's `readyTaskNum` counting its ready tasks when the
task was ready.
-/
import LiteOsA.Sched.Sched
import LiteOsA.Lib.FirstSome
import Mathlib.Data.Fintype.Card

namespace LiteOsA.Sched


variable {τ π : Type} [DecidableEq τ] [DecidableEq π]

-- ============================================================ the bits

/-- The priority bit of the enqueues is the bit of `OsGetTopTask`'s
loops: both are bit `31 - p`. -/
theorem PRIQUEUE_PRIOR0_BIT_shiftRight {p : Nat} (hp : p < 32) :
    PRIQUEUE_PRIOR0_BIT >>> p = 1 <<< (31 - p) := by
  rw [Nat.shiftRight_eq_div_pow, Nat.one_shiftLeft, PRIQUEUE_PRIOR0_BIT,
    show (0x80000000 : Nat) = 2 ^ 31 by rfl, Nat.pow_div (by omega) (by decide)]

theorem testBit_clr_prior (x : Nat) {p : Nat} (hp : p < 32) (i : Nat) :
    (x &&& ((2 ^ 32 - 1) ^^^ (PRIQUEUE_PRIOR0_BIT >>> p))).testBit i =
      (x.testBit i && !decide (31 - p = i) && decide (i < 32)) := by
  rw [PRIQUEUE_PRIOR0_BIT_shiftRight hp, and_not_shiftLeft x (by omega), testBit_LOS_BitmapClr,
    Nat.mod_eq_of_lt (by omega)]

theorem testBit_set_prior (x : Nat) {p : Nat} (hp : p < 32) (i : Nat) :
    (x ||| (PRIQUEUE_PRIOR0_BIT >>> p)).testBit i = (x.testBit i || decide (31 - p = i)) := by
  rw [PRIQUEUE_PRIOR0_BIT_shiftRight hp, Nat.one_shiftLeft, Nat.testBit_or, Nat.testBit_two_pow]

theorem clr_prior_le (x p : Nat) : x &&& ((2 ^ 32 - 1) ^^^ (PRIQUEUE_PRIOR0_BIT >>> p)) ≤ x :=
  Nat.and_le_left

theorem set_prior_lt {x : Nat} (hx : x < 2 ^ 32) {p : Nat} (hp : p < 32) :
    x ||| (PRIQUEUE_PRIOR0_BIT >>> p) < 2 ^ 32 := by
  rw [PRIQUEUE_PRIOR0_BIT_shiftRight hp, Nat.one_shiftLeft]
  exact Nat.or_lt_two_pow hx (Nat.pow_lt_pow_right (by decide) (by omega))

/-- `bitmap` is the priority bitmap of the set `ne` of priorities: a
32-bit word whose bit `31 - k` is set exactly for the priorities `k < 32`
in `ne`. -/
structure IsPrioBitmap (bitmap : Nat) (ne : Nat → Prop) : Prop where
  lt : bitmap < 2 ^ 32
  bit : ∀ k < 32, bitmap.testBit (31 - k) = true ↔ ne k

namespace IsPrioBitmap

variable {bitmap k₀ : Nat} {ne ne' : Nat → Prop}

/-- The bit of a priority that may have left the set is cleared when it
has: the test of `OsSchedPriQueueDelete`, on the state after the delete. -/
theorem clr (h : IsPrioBitmap bitmap ne) (hk₀ : k₀ < 32) (hin : ne k₀)
    (hrest : ∀ k, k ≠ k₀ → (ne' k ↔ ne k)) {c : Prop} [Decidable c] (hc : c ↔ ¬ne' k₀) :
    IsPrioBitmap (if c then bitmap &&& ((2 ^ 32 - 1) ^^^ (PRIQUEUE_PRIOR0_BIT >>> k₀)) else bitmap) ne' := by
  by_cases hcc : c
  · rw [if_pos hcc]
    refine ⟨lt_of_le_of_lt (clr_prior_le _ _) h.lt, fun k hk => ?_⟩
    rw [testBit_clr_prior _ hk₀]
    by_cases hkk : k = k₀
    · subst hkk
      simp [hc.1 hcc]
    · have hne : 31 - k₀ ≠ 31 - k := by omega
      simp [hne, (h.bit k hk), hrest k hkk]
      omega
  · rw [if_neg hcc]
    refine ⟨h.lt, fun k hk => ?_⟩
    by_cases hkk : k = k₀
    · subst hkk
      exact ⟨fun _ => not_not.1 (mt hc.2 hcc), fun _ => (h.bit k hk).2 hin⟩
    · rw [h.bit k hk, hrest k hkk]

/-- The bit of a priority that joined the set is set when it was not in
it: the test of the enqueues, on the state before. -/
theorem set (h : IsPrioBitmap bitmap ne) (hk₀ : k₀ < 32) (hin : ne' k₀)
    (hrest : ∀ k, k ≠ k₀ → (ne' k ↔ ne k)) {c : Prop} [Decidable c] (hc : c ↔ ¬ne k₀) :
    IsPrioBitmap (if c then bitmap ||| (PRIQUEUE_PRIOR0_BIT >>> k₀) else bitmap) ne' := by
  by_cases hcc : c
  · rw [if_pos hcc]
    refine ⟨set_prior_lt h.lt hk₀, fun k hk => ?_⟩
    rw [testBit_set_prior _ hk₀]
    by_cases hkk : k = k₀
    · subst hkk
      simp [hin]
    · have hne : 31 - k₀ ≠ 31 - k := by omega
      simp [hne, h.bit k hk, hrest k hkk]
  · rw [if_neg hcc]
    refine ⟨h.lt, fun k hk => ?_⟩
    by_cases hkk : k = k₀
    · subst hkk
      exact ⟨fun _ => hin, fun _ => (h.bit k hk).2 (not_not.1 (mt hc.2 hcc))⟩
    · rw [h.bit k hk, hrest k hkk]

end IsPrioBitmap

-- ===================================================== the CLZ loops

/-- The priorities whose bit is set in a bitmap. -/
def Prios (bitmap : Nat) (k : Nat) : Prop := k < 32 ∧ bitmap.testBit (31 - k) = true

theorem scanQueues_zero {β : Type} (visit : Nat → Option β) : scanQueues visit 0 = none := by
  rw [scanQueues, dif_pos rfl]

/-- Clearing `CLZ`'s bit takes its priority out of the bitmap and
leaves the others. -/
theorem prios_clearTop {bitmap : Nat} (h0 : bitmap ≠ 0) (hb : bitmap < 2 ^ 32) (k : Nat) :
    Prios bitmap k ↔
      k = CLZ bitmap ∨ Prios (bitmap &&& ((2 ^ 32 - 1) ^^^ 1 <<< (OS_PRIORITY_QUEUE_NUM - CLZ bitmap - 1))) k := by
  obtain ⟨hlt, hbit, -⟩ := CLZ_spec h0 hb
  have hk : OS_PRIORITY_QUEUE_NUM - CLZ bitmap - 1 = 31 - CLZ bitmap := by
    unfold OS_PRIORITY_QUEUE_NUM; omega
  rw [hk, and_not_shiftLeft bitmap (by omega)]
  unfold Prios
  rw [testBit_LOS_BitmapClr, Nat.mod_eq_of_lt (by omega)]
  constructor
  · rintro ⟨hk32, hkbit⟩
    by_cases hkc : k = CLZ bitmap
    · exact Or.inl hkc
    · exact Or.inr ⟨hk32, by simp [hkbit]; omega⟩
  · rintro (rfl | ⟨hk32, hkbit⟩)
    · exact ⟨hlt, hbit⟩
    · simp only [Bool.and_eq_true] at hkbit
      exact ⟨hk32, hkbit.1.1⟩

/-- A loop of `OsGetTopTask` over a 32-bit bitmap visits its priorities
in increasing order and stops at the first visit that finds a task. -/
theorem scanQueues_spec {β : Type} (visit : Nat → Option β) {bitmap : Nat} (hb : bitmap < 2 ^ 32) :
    FirstSome (Prios bitmap) visit (scanQueues visit bitmap) := by
  induction bitmap using scanQueues.induct visit with
  | case1 =>
    rw [scanQueues_zero]
    intro k hk
    simp [Prios] at hk
  | case2 bitmap h0 priority newTask hvisit =>
    -- the first set bit found a task: nothing before it is in the bitmap
    dsimp only [priority] at hvisit
    obtain ⟨hlt, hbit, habove⟩ := CLZ_spec h0 hb
    rw [scanQueues, dif_neg h0]
    simp only [hvisit]
    exact ⟨CLZ bitmap, ⟨hlt, hbit⟩, hvisit, fun j hj hjp => absurd hjp.2 (by simp [habove j hj])⟩
  | case3 bitmap h0 priority hvisit ih =>
    -- the first set bit found nothing: the rest of the loop runs on the cleared bitmap
    dsimp only [priority] at hvisit ih
    have hclr : bitmap &&& ((2 ^ 32 - 1) ^^^ 1 <<< (OS_PRIORITY_QUEUE_NUM - CLZ bitmap - 1)) < 2 ^ 32 :=
      lt_of_le_of_lt Nat.and_le_left hb
    rw [scanQueues, dif_neg h0]
    simp only [hvisit]
    exact FirstSome.congr (fun k => (prios_clearTop h0 hb k).symm)
      (FirstSome.of_none_insert hvisit (ih hclr))

-- ========================================================= the invariant

/-- The priority of the process `u` belongs to. -/
def procPriority (s : SchedSys τ π) (u : τ) : Nat := (s.processes (s.tasks u).processID).priority

/-- `u` belongs in the ready queues: it is ready, and not an idle task. -/
def Queued (s : SchedSys τ π) (u : τ) : Prop :=
  (s.tasks u).isReady = true ∧ (s.tasks u).policy ≠ LOS_SCHED_IDLE

/-- `u` may run on `cpuid`: bit `cpuid` of its `cpuAffiMask` is set. -/
def MayRun (s : SchedSys τ π) (cpuid : Nat) (u : τ) : Prop := (s.tasks u).cpuAffiMask.testBit cpuid = true

/-- `u`'s pair of priorities, its process's first, comes before `t`'s. -/
def PrioLt (s : SchedSys τ π) (u t : τ) : Prop :=
  procPriority s u < procPriority s t ∨
    procPriority s u = procPriority s t ∧ (s.tasks u).priority < (s.tasks t).priority

omit [DecidableEq τ] [DecidableEq π] in
theorem cpuAffine_iff (s : SchedSys τ π) (cpuid : Nat) (u : τ) : cpuAffine s cpuid u = true ↔ MayRun s cpuid u := by
  unfold cpuAffine MayRun
  rw [Nat.one_shiftLeft, Nat.and_two_pow]
  cases (s.tasks u).cpuAffiMask.testBit cpuid <;> simp

/-- The bitmaps and counts of the 32 × 32 lists agree with the lists. -/
structure BitmapsOk (queueList : Nat → SchedQueue τ) (queueBitmap : Nat) : Prop where
  top : IsPrioBitmap queueBitmap fun pp => (queueList pp).queueBitmap ≠ 0
  queue : ∀ pp < 32, IsPrioBitmap (queueList pp).queueBitmap fun p => (queueList pp).priQueueList p ≠ []
  readyTasks : ∀ pp p, (queueList pp).readyTasks p = ((queueList pp).priQueueList p).length
  length_lt : ∀ pp p, ((queueList pp).priQueueList p).length < 2 ^ 32
  nodup : ∀ pp p, ((queueList pp).priQueueList p).Nodup

/-- The ready-queue invariant: the bitmaps agree with the lists, and the
lists hold exactly the queued tasks, each in the list of its pair of
priorities; every CPU's idle task has the policy `LOS_SCHED_IDLE`. -/
structure SchedSys.QueueOk (s : SchedSys τ π) : Prop where
  bitmaps : BitmapsOk s.queueList s.queueBitmap
  mem : ∀ pp p u, u ∈ (s.queueList pp).priQueueList p ↔
    Queued s u ∧ procPriority s u = pp ∧ (s.tasks u).priority = p
  priority_lt : ∀ u, Queued s u → procPriority s u < 32 ∧ (s.tasks u).priority < 32
  idle : ∀ cpuid, (s.tasks (s.idleTaskID cpuid)).policy = LOS_SCHED_IDLE

-- ========================================================= the search

section Search

variable {s : SchedSys τ π} {cpuid : Nat}

/-- What the inner loop of `OsGetTopTask` visits at process priority
`pp`: the first task of a list that may run on `cpuid`. -/
def firstAffine (s : SchedSys τ π) (cpuid pp p : Nat) : Option τ :=
  ((s.queueList pp).priQueueList p).find? (cpuAffine s cpuid)

omit [DecidableEq τ] [DecidableEq π] in
/-- The inner loop searches every task priority: the lists whose bit is
clear are empty. -/
theorem inner_spec (hs : BitmapsOk s.queueList s.queueBitmap) {pp : Nat} (hpp : pp < 32) :
    FirstSome (· < 32) (firstAffine s cpuid pp)
      (scanQueues (firstAffine s cpuid pp) (s.queueList pp).queueBitmap) := by
  refine FirstSome.mono (fun p hp => hp.1) (fun p hp hn => ?_) (scanQueues_spec _ (hs.queue pp hpp).lt)
  have hempty : (s.queueList pp).priQueueList p = [] := by
    by_contra hne
    exact hn ⟨hp, ((hs.queue pp hpp).bit p hp).2 hne⟩
  simp [firstAffine, hempty]

omit [DecidableEq τ] [DecidableEq π] in
/-- The outer loop searches every process priority: the `SchedQueue`s
whose bit is clear have an empty bitmap, on which the inner loop does
not run. -/
theorem outer_spec (hs : BitmapsOk s.queueList s.queueBitmap) :
    FirstSome (· < 32) (fun pp => scanQueues (firstAffine s cpuid pp) (s.queueList pp).queueBitmap)
      (OsGetTopTask.search s cpuid) := by
  refine FirstSome.mono (fun pp hpp => hpp.1) (fun pp hpp hn => ?_) (scanQueues_spec _ hs.top.lt)
  have hzero : (s.queueList pp).queueBitmap = 0 := by
    by_contra hne
    exact hn ⟨hpp, (hs.top.bit pp hpp).2 hne⟩
  rw [hzero, scanQueues_zero]

omit [DecidableEq τ] [DecidableEq π] in
/-- The search found `t`: in the first list, in the order of the pairs
of priorities, that holds a task that may run on `cpuid`. -/
theorem search_some (hs : BitmapsOk s.queueList s.queueBitmap) {t : τ} (h : OsGetTopTask.search s cpuid = some t) :
    ∃ pp p, pp < 32 ∧ p < 32 ∧ firstAffine s cpuid pp p = some t ∧
      ∀ pp' p', pp' < 32 → p' < 32 → pp' < pp ∨ (pp' = pp ∧ p' < p) → firstAffine s cpuid pp' p' = none := by
  have hout : FirstSome _ _ (OsGetTopTask.search s cpuid) := outer_spec hs
  rw [h] at hout
  obtain ⟨pp, p, hpp, hp, ht, hbefore⟩ := FirstSome.lex_some (fun pp hpp => inner_spec hs hpp) hout
  exact ⟨pp, p, hpp, hp, ht, hbefore⟩

omit [DecidableEq τ] [DecidableEq π] in
theorem search_none (hs : BitmapsOk s.queueList s.queueBitmap) (h : OsGetTopTask.search s cpuid = none) :
    ∀ pp p, pp < 32 → p < 32 → firstAffine s cpuid pp p = none := by
  have hout : FirstSome _ _ (OsGetTopTask.search s cpuid) := outer_spec hs
  rw [h] at hout
  exact FirstSome.lex_none (fun pp hpp => inner_spec hs hpp) hout

omit [DecidableEq τ] [DecidableEq π] in
/-- A queued task is in its own list, which is one the search visits. -/
theorem SchedSys.QueueOk.mem_own (hs : s.QueueOk) {u : τ} (hu : Queued s u) :
    u ∈ (s.queueList (procPriority s u)).priQueueList (s.tasks u).priority ∧
      procPriority s u < 32 ∧ (s.tasks u).priority < 32 :=
  ⟨(hs.mem _ _ u).2 ⟨hu, rfl, rfl⟩, hs.priority_lt u hu⟩

omit [DecidableEq τ] [DecidableEq π] in
/-- No task that may run on `cpuid` is in a list the search found empty
of them. -/
theorem not_mayRun_of_firstAffine (hs : s.QueueOk) {u : τ} (hu : Queued s u)
    (h : firstAffine s cpuid (procPriority s u) (s.tasks u).priority = none) : ¬MayRun s cpuid u := by
  intro hrun
  exact List.find?_eq_none.1 h u (hs.mem_own hu).1 ((cpuAffine_iff s cpuid u).2 hrun)

end Search

-- ============================================================ the choice

/-- The task `OsGetTopTask` should take on `cpuid`: a queued task that
may run there, with no such task before it in the order of the pairs of
priorities, and none before it in its own list. -/
def TopTask (s : SchedSys τ π) (cpuid : Nat) (t : τ) : Prop :=
  Queued s t ∧ MayRun s cpuid t ∧ (∀ u, Queued s u → MayRun s cpuid u → ¬PrioLt s u t) ∧
    ∃ as bs, (s.queueList (procPriority s t)).priQueueList (s.tasks t).priority = as ++ t :: bs ∧
      ∀ u ∈ as, ¬MayRun s cpuid u

/-- No queued task may run on `cpuid`. -/
def NoTopTask (s : SchedSys τ π) (cpuid : Nat) : Prop := ∀ u, Queued s u → ¬MayRun s cpuid u

section Choice

variable {s : SchedSys τ π} {cpuid : Nat}

omit [DecidableEq τ] [DecidableEq π] in
theorem search_some_topTask (hs : s.QueueOk) {t : τ} (h : OsGetTopTask.search s cpuid = some t) :
    TopTask s cpuid t := by
  obtain ⟨pp, p, -, -, ht, hbefore⟩ := search_some hs.bitmaps h
  obtain ⟨hrun, as, bs, hsplit, has⟩ := List.find?_eq_some_iff_append.1 ht
  -- the list it was found in is the list of its pair of priorities
  obtain ⟨hq, rfl, rfl⟩ := (hs.mem pp p t).1 (List.mem_of_find?_eq_some ht)
  refine ⟨hq, (cpuAffine_iff s cpuid t).1 hrun, fun u hu hurun hlt => ?_, as, bs, hsplit, fun u hu hurun => ?_⟩
  · obtain ⟨-, hpp', hp'⟩ := hs.mem_own hu
    exact not_mayRun_of_firstAffine hs hu (hbefore _ _ hpp' hp' hlt) hurun
  · simpa [(cpuAffine_iff s cpuid u).2 hurun] using has u hu

omit [DecidableEq τ] [DecidableEq π] in
theorem search_none_noTopTask (hs : s.QueueOk) (h : OsGetTopTask.search s cpuid = none) :
    NoTopTask s cpuid := by
  intro u hu
  obtain ⟨-, hpp, hp⟩ := hs.mem_own hu
  exact not_mayRun_of_firstAffine hs hu (search_none hs.bitmaps h _ _ hpp hp)

end Choice

-- ======================================================= the unlinking

section Delete

variable {s : SchedSys τ π} {pp p : Nat} {t : τ}

omit [DecidableEq π] in
@[simp] theorem OsSchedPriQueueDelete_tasks : (OsSchedPriQueueDelete s pp t p).tasks = s.tasks := rfl

omit [DecidableEq π] in
@[simp] theorem OsSchedPriQueueDelete_processes :
    (OsSchedPriQueueDelete s pp t p).processes = s.processes := rfl

omit [DecidableEq π] in
@[simp] theorem OsSchedPriQueueDelete_idleTaskID :
    (OsSchedPriQueueDelete s pp t p).idleTaskID = s.idleTaskID := rfl

omit [DecidableEq π] in
theorem OsSchedPriQueueDelete_queueList_of_ne {pp' : Nat} (h : pp' ≠ pp) :
    (OsSchedPriQueueDelete s pp t p).queueList pp' = s.queueList pp' := by
  simp [OsSchedPriQueueDelete, Function.update_of_ne h]

omit [DecidableEq π] in
theorem OsSchedPriQueueDelete_priQueueList (p' : Nat) :
    ((OsSchedPriQueueDelete s pp t p).queueList pp).priQueueList p' =
      Function.update (s.queueList pp).priQueueList p (((s.queueList pp).priQueueList p).erase t) p' := by
  simp [OsSchedPriQueueDelete]

omit [DecidableEq π] in
/-- Every list after the delete: the task's list lost it. -/
theorem OsSchedPriQueueDelete_list (pp' p' : Nat) :
    ((OsSchedPriQueueDelete s pp t p).queueList pp').priQueueList p' =
      if pp' = pp ∧ p' = p then ((s.queueList pp).priQueueList p).erase t
      else (s.queueList pp').priQueueList p' := by
  by_cases h : pp' = pp
  · subst h
    rw [OsSchedPriQueueDelete_priQueueList, Function.update_apply]
    simp
  · rw [OsSchedPriQueueDelete_queueList_of_ne h, if_neg fun hh => h hh.1]

omit [DecidableEq π] in
theorem OsSchedPriQueueDelete_readyTasks (p' : Nat) :
    ((OsSchedPriQueueDelete s pp t p).queueList pp).readyTasks p' =
      Function.update (s.queueList pp).readyTasks p (u32Sub ((s.queueList pp).readyTasks p) 1) p' := by
  simp [OsSchedPriQueueDelete]

omit [DecidableEq π] in
theorem OsSchedPriQueueDelete_bitmap :
    ((OsSchedPriQueueDelete s pp t p).queueList pp).queueBitmap =
      if ((s.queueList pp).priQueueList p).erase t = [] then
        (s.queueList pp).queueBitmap &&& ((2 ^ 32 - 1) ^^^ (PRIQUEUE_PRIOR0_BIT >>> p))
      else (s.queueList pp).queueBitmap := by
  simp [OsSchedPriQueueDelete]

omit [DecidableEq π] in
theorem OsSchedPriQueueDelete_queueBitmap :
    (OsSchedPriQueueDelete s pp t p).queueBitmap =
      if ((OsSchedPriQueueDelete s pp t p).queueList pp).queueBitmap = 0 then
        s.queueBitmap &&& ((2 ^ 32 - 1) ^^^ (PRIQUEUE_PRIOR0_BIT >>> pp))
      else s.queueBitmap := by
  simp [OsSchedPriQueueDelete]

omit [DecidableEq π] in
/-- Unlinking a task from its list keeps the bitmaps and counts right:
the list's bit is cleared if it emptied, and then the `SchedQueue`'s if
its bitmap did. -/
theorem bitmapsOk_delete (hs : BitmapsOk s.queueList s.queueBitmap) (hpp : pp < 32) (hp : p < 32)
    (ht : t ∈ (s.queueList pp).priQueueList p) :
    BitmapsOk (OsSchedPriQueueDelete s pp t p).queueList (OsSchedPriQueueDelete s pp t p).queueBitmap := by
  have hne : (s.queueList pp).priQueueList p ≠ [] := List.ne_nil_of_mem ht
  -- the list's bit is set, so its `SchedQueue`'s bitmap is not zero
  have hbm : (s.queueList pp).queueBitmap ≠ 0 := by
    intro h0
    have := ((hs.queue pp hpp).bit p hp).2 hne
    simp [h0] at this
  have hqueue : IsPrioBitmap ((OsSchedPriQueueDelete s pp t p).queueList pp).queueBitmap
      fun p' => ((OsSchedPriQueueDelete s pp t p).queueList pp).priQueueList p' ≠ [] := by
    rw [OsSchedPriQueueDelete_bitmap]
    refine (hs.queue pp hpp).clr hp hne (fun p' hp' => ?_) ?_
    · rw [OsSchedPriQueueDelete_priQueueList, Function.update_of_ne hp']
    · rw [OsSchedPriQueueDelete_priQueueList, Function.update_self, not_not]
  refine ⟨?_, fun pp' hpp' => ?_, fun pp' p' => ?_, fun pp' p' => ?_, fun pp' p' => ?_⟩
  · rw [OsSchedPriQueueDelete_queueBitmap]
    refine hs.top.clr hpp hbm (fun pp' hpp' => ?_) not_not.symm
    rw [OsSchedPriQueueDelete_queueList_of_ne hpp']
  · by_cases h : pp' = pp
    · subst h
      exact hqueue
    · rw [OsSchedPriQueueDelete_queueList_of_ne h]
      exact hs.queue pp' hpp'
  · by_cases h : pp' = pp
    · subst h
      rw [OsSchedPriQueueDelete_readyTasks, OsSchedPriQueueDelete_priQueueList]
      by_cases hp' : p' = p
      · subst hp'
        rw [Function.update_self, Function.update_self, hs.readyTasks,
          u32Sub_of_le (List.length_pos_of_mem ht) (hs.length_lt pp' p'), List.length_erase_of_mem ht]
      · rw [Function.update_of_ne hp', Function.update_of_ne hp', hs.readyTasks]
    · rw [OsSchedPriQueueDelete_queueList_of_ne h, hs.readyTasks]
  · rw [OsSchedPriQueueDelete_list]
    split_ifs
    · exact lt_of_le_of_lt List.length_erase_le (hs.length_lt pp p)
    · exact hs.length_lt pp' p'
  · rw [OsSchedPriQueueDelete_list]
    split_ifs
    · exact (hs.nodup pp p).erase t
    · exact hs.nodup pp' p'

end Delete

section DeQueue

variable {s : SchedSys τ π} {t u : τ} {q : π}

/-- What `OsSchedDeTaskQueue` does to the queues: the delete, unless the
task is an idle task. -/
theorem OsSchedDeTaskQueue_queues :
    (OsSchedDeTaskQueue s t q).queueList =
        (if (s.tasks t).policy ≠ LOS_SCHED_IDLE then
          OsSchedPriQueueDelete s (s.processes q).priority t (s.tasks t).priority else s).queueList ∧
      (OsSchedDeTaskQueue s t q).queueBitmap =
        (if (s.tasks t).policy ≠ LOS_SCHED_IDLE then
          OsSchedPriQueueDelete s (s.processes q).priority t (s.tasks t).priority else s).queueBitmap :=
  ⟨rfl, rfl⟩

theorem OsSchedDeTaskQueue_tasks :
    (OsSchedDeTaskQueue s t q).tasks = Function.update s.tasks t
      { s.tasks t with taskStatus := (s.tasks t).taskStatus &&& ((2 ^ 32 - 1) ^^^ OS_TASK_STATUS_READY) } := by
  unfold OsSchedDeTaskQueue
  dsimp only
  split <;> rfl

theorem OsSchedDeTaskQueue_processes :
    (OsSchedDeTaskQueue s t q).processes = Function.update s.processes q
      { s.processes q with
        readyTaskNum := (2 ^ 16 - 1 + (s.processes q).readyTaskNum) % 2 ^ 16
        processStatus :=
          if (2 ^ 16 - 1 + (s.processes q).readyTaskNum) % 2 ^ 16 = 0 then
            (s.processes q).processStatus &&& ((2 ^ 32 - 1) ^^^ OS_PROCESS_STATUS_READY)
          else (s.processes q).processStatus } := by
  unfold OsSchedDeTaskQueue
  dsimp only
  split <;> rfl

@[simp] theorem OsSchedDeTaskQueue_idleTaskID : (OsSchedDeTaskQueue s t q).idleTaskID = s.idleTaskID := by
  unfold OsSchedDeTaskQueue
  dsimp only
  split <;> rfl

theorem OsSchedDeTaskQueue_tasks_of_ne (h : u ≠ t) : (OsSchedDeTaskQueue s t q).tasks u = s.tasks u := by
  rw [OsSchedDeTaskQueue_tasks, Function.update_of_ne h]

/-- Clearing `OS_TASK_STATUS_READY` leaves a task not ready. -/
theorem OsSchedDeTaskQueue_isReady : ((OsSchedDeTaskQueue s t q).tasks t).isReady = false := by
  rw [OsSchedDeTaskQueue_tasks, Function.update_self]
  simp only [LosTaskCB.isReady, Nat.and_assoc,
    show ((2 ^ 32 - 1) ^^^ OS_TASK_STATUS_READY) &&& OS_TASK_STATUS_READY = 0 by decide, Nat.and_zero]
  rfl

/-- The fields the queues are ordered by are left alone. -/
@[simp] theorem OsSchedDeTaskQueue_policy : ((OsSchedDeTaskQueue s t q).tasks u).policy = (s.tasks u).policy := by
  rw [OsSchedDeTaskQueue_tasks, Function.update_apply]
  split <;> simp_all

@[simp] theorem OsSchedDeTaskQueue_priority :
    ((OsSchedDeTaskQueue s t q).tasks u).priority = (s.tasks u).priority := by
  rw [OsSchedDeTaskQueue_tasks, Function.update_apply]
  split <;> simp_all

@[simp] theorem OsSchedDeTaskQueue_procPriority : procPriority (OsSchedDeTaskQueue s t q) u = procPriority s u := by
  have hid : ((OsSchedDeTaskQueue s t q).tasks u).processID = (s.tasks u).processID := by
    rw [OsSchedDeTaskQueue_tasks, Function.update_apply]
    split <;> simp_all
  unfold procPriority
  rw [hid, OsSchedDeTaskQueue_processes, Function.update_apply]
  split <;> simp_all

/-- After `OsSchedDeTaskQueue`, the queued tasks are those that were,
but the one taken out. -/
theorem OsSchedDeTaskQueue_queued : Queued (OsSchedDeTaskQueue s t q) u ↔ u ≠ t ∧ Queued s u := by
  by_cases h : u = t
  · subst h
    simp [Queued, OsSchedDeTaskQueue_isReady]
  · simp [Queued, OsSchedDeTaskQueue_tasks_of_ne h, h]

variable (hs : s.QueueOk) (ht : (s.tasks t).policy ≠ LOS_SCHED_IDLE → (s.tasks t).isReady = true)
include hs ht

omit ht in
/-- A task taken out of the queues, queued or an idle task, is unlinked
from every list it was in, which is at most its own. -/
theorem OsSchedDeTaskQueue_priQueueList (pp p : Nat) :
    ((OsSchedDeTaskQueue s t (s.tasks t).processID).queueList pp).priQueueList p =
      ((s.queueList pp).priQueueList p).erase t := by
  rw [OsSchedDeTaskQueue_queues.1]
  by_cases hidle : (s.tasks t).policy ≠ LOS_SCHED_IDLE
  · rw [if_pos hidle, OsSchedPriQueueDelete_list]
    split_ifs with hown
    · obtain ⟨rfl, rfl⟩ := hown
      rfl
    · -- any other list does not hold the task
      refine (List.erase_of_not_mem fun hmem => hown ?_).symm
      obtain ⟨-, hpp, hp⟩ := (hs.mem pp p t).1 hmem
      exact ⟨hpp.symm, hp.symm⟩
  · rw [if_neg hidle]
    refine (List.erase_of_not_mem fun hmem => hidle ?_).symm
    exact ((hs.mem pp p t).1 hmem).1.2

theorem OsSchedDeTaskQueue_bitmapsOk :
    BitmapsOk (OsSchedDeTaskQueue s t (s.tasks t).processID).queueList
      (OsSchedDeTaskQueue s t (s.tasks t).processID).queueBitmap := by
  rw [OsSchedDeTaskQueue_queues.1, OsSchedDeTaskQueue_queues.2]
  by_cases hidle : (s.tasks t).policy ≠ LOS_SCHED_IDLE
  · rw [if_pos hidle]
    obtain ⟨hmem, hpp, hp⟩ := hs.mem_own ⟨ht hidle, hidle⟩
    exact bitmapsOk_delete hs.bitmaps hpp hp hmem
  · rw [if_neg hidle]
    exact hs.bitmaps

/-- Taking a task out keeps the ready-queue invariant. -/
theorem OsSchedDeTaskQueue_queueOk : (OsSchedDeTaskQueue s t (s.tasks t).processID).QueueOk := by
  refine ⟨OsSchedDeTaskQueue_bitmapsOk hs ht, fun pp p u => ?_, fun u hu => ?_, fun cpuid => ?_⟩
  · rw [OsSchedDeTaskQueue_priQueueList hs, (hs.bitmaps.nodup pp p).mem_erase_iff, hs.mem,
      OsSchedDeTaskQueue_queued, OsSchedDeTaskQueue_procPriority, OsSchedDeTaskQueue_priority]
    tauto
  · rw [OsSchedDeTaskQueue_queued] at hu
    rw [OsSchedDeTaskQueue_procPriority, OsSchedDeTaskQueue_priority]
    exact hs.priority_lt u hu.2
  · rw [OsSchedDeTaskQueue_idleTaskID, OsSchedDeTaskQueue_policy]
    exact hs.idle cpuid

end DeQueue

-- ============================================================ the counts

/-- Every process's `readyTaskNum` counts its ready tasks, and fits its
`UINT16`. -/
structure ReadyCount [Fintype τ] (s : SchedSys τ π) : Prop where
  count : ∀ q, (s.processes q).readyTaskNum =
    (Finset.univ.filter fun u => (s.tasks u).processID = q ∧ (s.tasks u).isReady = true).card
  lt : ∀ q, (s.processes q).readyTaskNum < 2 ^ 16

section Count

variable [Fintype τ] {s : SchedSys τ π} {t : τ}

/-- Taking out a ready task keeps the counts: its process's count goes
down by one with the task's `OS_TASK_STATUS_READY`. -/
theorem OsSchedDeTaskQueue_readyCount (hc : ReadyCount s) (ht : (s.tasks t).isReady = true) :
    ReadyCount (OsSchedDeTaskQueue s t (s.tasks t).processID) := by
  -- the ready tasks of a process after: those before, but `t`
  have hset : ∀ q, (Finset.univ.filter fun u => ((OsSchedDeTaskQueue s t (s.tasks t).processID).tasks u).processID = q ∧
      ((OsSchedDeTaskQueue s t (s.tasks t).processID).tasks u).isReady = true) =
      (Finset.univ.filter fun u => (s.tasks u).processID = q ∧ (s.tasks u).isReady = true).erase t := by
    intro q
    ext u
    by_cases hu : u = t
    · subst hu
      simp [OsSchedDeTaskQueue_isReady]
    · simp [OsSchedDeTaskQueue_tasks_of_ne hu, hu]
  refine ⟨fun q => ?_, fun q => ?_⟩
  · rw [hset, OsSchedDeTaskQueue_processes]
    by_cases hq : q = (s.tasks t).processID
    · -- `t`'s process: one ready task fewer, and `readyTaskNum--` does not wrap
      subst hq
      have hmem : t ∈ Finset.univ.filter fun u => (s.tasks u).processID = (s.tasks t).processID ∧
          (s.tasks u).isReady = true := by simp [ht]
      have hpos := Finset.card_pos.2 ⟨t, hmem⟩
      have hlt := hc.lt (s.tasks t).processID
      rw [Function.update_self, Finset.card_erase_of_mem hmem, ← hc.count]
      rw [← hc.count] at hpos
      dsimp only
      omega
    · -- another process: `t` was not among its tasks
      have hnot : t ∉ Finset.univ.filter fun u => (s.tasks u).processID = q ∧ (s.tasks u).isReady = true := by
        simp only [Finset.mem_filter, Finset.mem_univ, true_and, not_and]
        exact fun h => absurd h.symm hq
      rw [Function.update_of_ne hq, Finset.erase_eq_of_notMem hnot, hc.count]
  · rw [OsSchedDeTaskQueue_processes]
    by_cases hq : q = (s.tasks t).processID
    · subst hq
      rw [Function.update_self]
      exact Nat.mod_lt _ (by decide)
    · rw [Function.update_of_ne hq]
      exact hc.lt q

end Count

-- =========================================================== the claim

theorem get_top_task_best [Fintype τ] {s : SchedSys τ π} (hs : s.QueueOk) (cpuid : Nat) {t : τ}
    {s' : SchedSys τ π} (h : OsGetTopTask s cpuid = (t, s')) :
    (TopTask s cpuid t ∨ NoTopTask s cpuid ∧ t = s.idleTaskID cpuid) ∧
      (∀ pp p, (s'.queueList pp).priQueueList p = ((s.queueList pp).priQueueList p).erase t) ∧
      s'.QueueOk ∧ (s'.tasks t).isReady = false ∧ (∀ u, u ≠ t → s'.tasks u = s.tasks u) ∧
      (ReadyCount s → (s.tasks t).isReady = true → ReadyCount s') := by
  simp only [OsGetTopTask, Prod.mk.injEq] at h
  obtain ⟨rfl, rfl⟩ := h
  -- which task it is, found or idle
  have hchoice : TopTask s cpuid ((OsGetTopTask.search s cpuid).getD (s.idleTaskID cpuid)) ∨
      NoTopTask s cpuid ∧ (OsGetTopTask.search s cpuid).getD (s.idleTaskID cpuid) = s.idleTaskID cpuid := by
    cases hsearch : OsGetTopTask.search s cpuid with
    | some t => exact Or.inl (search_some_topTask hs hsearch)
    | none => exact Or.inr ⟨search_none_noTopTask hs hsearch, rfl⟩
  -- either way it is queued or an idle task
  have hready : ((s.tasks ((OsGetTopTask.search s cpuid).getD (s.idleTaskID cpuid))).policy ≠ LOS_SCHED_IDLE →
      (s.tasks ((OsGetTopTask.search s cpuid).getD (s.idleTaskID cpuid))).isReady = true) := by
    rcases hchoice with htop | ⟨-, hidle⟩
    · exact fun _ => htop.1.1
    · rw [hidle]
      exact fun hne => absurd (hs.idle cpuid) hne
  exact ⟨hchoice, OsSchedDeTaskQueue_priQueueList hs, OsSchedDeTaskQueue_queueOk hs hready,
    OsSchedDeTaskQueue_isReady, fun u hu => OsSchedDeTaskQueue_tasks_of_ne hu,
    fun hc hr => OsSchedDeTaskQueue_readyCount hc hr⟩

/-- Three tasks in two processes: the idle task `0` of the idle process
`0`, a ready task `1` of priority 2 in process `1` of priority 1, and a
task `2` of process `1` that is not ready. -/
def topTaskSys : SchedSys (Fin 3) (Fin 2) where
  queueList pp :=
    if pp = 1 then ⟨fun p => if p = 2 then [1] else [], fun p => if p = 2 then 1 else 0, 2 ^ 29⟩
    else ⟨fun _ => [], fun _ => 0, 0⟩
  queueBitmap := 2 ^ 30
  tasks u :=
    if u = 0 then ⟨OS_TASK_STATUS_READY, LOS_SCHED_IDLE, 31, 0, 1⟩
    else if u = 1 then ⟨OS_TASK_STATUS_READY, 2, 2, 1, 1⟩
    else ⟨0, 2, 5, 1, 1⟩
  processes q := if q = 0 then ⟨OS_PROCESS_STATUS_READY, 31, 1⟩ else ⟨OS_PROCESS_STATUS_READY, 1, 1⟩
  idleTaskID _ := 0

theorem topTaskSys_queueOk : topTaskSys.QueueOk := by
  refine ⟨⟨⟨by decide, fun pp hpp => ?_⟩, fun pp hpp => ⟨?_, fun p hp => ?_⟩, fun pp p => ?_, fun pp p => ?_,
    fun pp p => ?_⟩, fun pp p u => ?_, fun u hu => ?_, fun cpuid => rfl⟩
  · by_cases h : pp = 1
    · subst h; decide
    · simp [topTaskSys, h, Nat.testBit_two_pow, -Nat.reducePow]; omega
  · by_cases h : pp = 1 <;> simp [topTaskSys, h]
  · by_cases h : pp = 1
    · subst h
      by_cases hp2 : p = 2
      · subst hp2; decide
      · simp [topTaskSys, hp2, Nat.testBit_two_pow, -Nat.reducePow]; omega
    · simp [topTaskSys, h]
  · by_cases h : pp = 1 <;> by_cases hp2 : p = 2 <;> simp [topTaskSys, h, hp2]
  · by_cases h : pp = 1 <;> by_cases hp2 : p = 2 <;> simp [topTaskSys, h, hp2]
  · by_cases h : pp = 1 <;> by_cases hp2 : p = 2 <;> simp [topTaskSys, h, hp2]
  · match u with
    | 0 | 1 | 2 =>
      by_cases h : pp = 1 <;> by_cases hp2 : p = 2 <;>
        simp [topTaskSys, h, hp2, Queued, procPriority, LosTaskCB.isReady, OS_TASK_STATUS_READY, LOS_SCHED_IDLE] <;>
        omega
  · match u with
    | 0 | 1 | 2 => simp_all [topTaskSys, Queued, procPriority, LosTaskCB.isReady, OS_TASK_STATUS_READY, LOS_SCHED_IDLE]

theorem get_top_task_best_two : topTaskSys.QueueOk ∧
    (TopTask topTaskSys 0 (OsGetTopTask topTaskSys 0).1 ∨
      NoTopTask topTaskSys 0 ∧ (OsGetTopTask topTaskSys 0).1 = topTaskSys.idleTaskID 0) :=
  ⟨topTaskSys_queueOk, (get_top_task_best topTaskSys_queueOk 0 rfl).1⟩

end LiteOsA.Sched
