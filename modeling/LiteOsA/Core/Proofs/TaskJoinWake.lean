/-
Who wakes a joiner.

# One joiner at most

`OsTaskJoinPendUnsafe` links a joiner only onto an empty join list,
and every other call only takes tasks off join lists (`Shrinks`): a
wake takes the first, `OsSchedTaskExit` unlinks a pended task, and
`OsInsertTCBToFreeList` clears the list. So along every run no join
list ever holds more than one task (`join_list_single`).

# A joiner nobody wakes

Only `OsTaskJoinPostUnsafe` wakes a joiner. `OsTaskToExit` calls it,
and of the two deletions only through `OsTaskReleaseHoldLock`, which
calls it for a task of a user-mode process alone. Deleting a task of a
kernel-mode process that is not running leaves its joiner pended on
its join list (`OsTaskDeleteInactive_keeps_joiner`), and recycling the
task clears that list and puts the task on the free list while the
joiner keeps waiting for it (`OsTaskCBRecyleToFree_other`). A joiner of
a kernel thread that is deleted is left pended for ever, waiting on a
control block on `g_losFreeTask` (`delete_strands_joiner`).
-/
import LiteOsA.Core.TaskJoin
import LiteOsA.Lib.Run

namespace LiteOsA.TaskJoin

open TaskSys

variable {s s' : TaskSys} {t u : Nat}

-- ================================================== no list gains a task

/-- No join list gains a task. -/
def Shrinks (s s' : TaskSys) : Prop :=
  ∀ u, (s'.tasks u).joinList.Sublist (s.tasks u).joinList

theorem Shrinks.refl (s : TaskSys) : Shrinks s s :=
  fun _ => List.Sublist.refl _

theorem Shrinks.trans {s₁ s₂ s₃ : TaskSys} (h₁ : Shrinks s₁ s₂) (h₂ : Shrinks s₂ s₃) : Shrinks s₁ s₃ :=
  fun u => (h₂ u).trans (h₁ u)

/-- A write of one task whose join list only loses tasks. -/
theorem Shrinks.modifyTask {f : LosTaskCB → LosTaskCB}
    (h : (f (s.tasks t)).joinList.Sublist (s.tasks t).joinList) : Shrinks s (s.modifyTask t f) := by
  intro u
  rw [modifyTask_tasks]
  split_ifs with hu
  · subst hu
    exact h
  · exact List.Sublist.refl _

/-- A write that leaves the tasks alone. -/
theorem Shrinks.of_tasks (h : s'.tasks = s.tasks) : Shrinks s s' := by
  intro u
  rw [h]

/-- A write of one task that leaves its join list alone. -/
theorem Shrinks.modifyTask_keep {f : LosTaskCB → LosTaskCB} (h : ∀ task, (f task).joinList = task.joinList) :
    Shrinks s (s.modifyTask t f) := by
  apply Shrinks.modifyTask
  rw [h]

theorem OsTaskJoinPostUnsafe_shrinks : Shrinks s (OsTaskJoinPostUnsafe s t) := by
  unfold OsTaskJoinPostUnsafe
  refine Shrinks.trans ?_ (Shrinks.modifyTask_keep (by intro _; rfl))
  split_ifs
  · refine Shrinks.trans ?_ (Shrinks.modifyTask_keep (by intro _; rfl))
    split
    · exact Shrinks.refl _
    · next r rest hl =>
      -- the first joiner leaves the list
      refine (Shrinks.modifyTask ?_).trans (Shrinks.modifyTask_keep (by intro _; rfl))
      rw [hl]
      exact List.sublist_cons_self r rest
  · exact Shrinks.refl _

theorem OsTaskSetDeatchUnsafe_shrinks : Shrinks s (OsTaskSetDeatchUnsafe s t).2 := by
  unfold OsTaskSetDeatchUnsafe
  split_ifs
  · exact Shrinks.refl _
  · dsimp only
    exact Shrinks.modifyTask_keep (by intro _; rfl)
  · exact Shrinks.refl _
  · exact Shrinks.refl _

theorem OsSchedTaskExit_shrinks : Shrinks s (OsSchedTaskExit s t) := by
  unfold OsSchedTaskExit
  split_ifs
  · exact Shrinks.modifyTask_keep (by intro _; rfl)
  · -- unlinked from the join list it pends on
    refine (Shrinks.modifyTask ?_).trans (Shrinks.modifyTask_keep (by intro _; rfl))
    exact List.erase_sublist
  · exact Shrinks.refl _

theorem OsTaskReleaseHoldLock_shrinks : Shrinks s (OsTaskReleaseHoldLock s t) := by
  unfold OsTaskReleaseHoldLock
  split_ifs
  · exact OsTaskJoinPostUnsafe_shrinks
  · exact Shrinks.refl _

@[simp]
theorem toRecyleList_tasks : (toRecyleList s t).tasks = s.tasks := rfl

@[simp]
theorem toRecyleList_g_taskRecyleList : (toRecyleList s t).g_taskRecyleList = s.g_taskRecyleList ++ [t] := rfl

theorem OsTaskDeleteInactive_shrinks : Shrinks s (OsTaskDeleteInactive s t) := by
  unfold OsTaskDeleteInactive OsTaskStatusUnusedSet
  dsimp only
  refine Shrinks.trans ?_ (Shrinks.of_tasks toRecyleList_tasks)
  refine Shrinks.trans ?_ (Shrinks.modifyTask_keep (by intro _; rfl))
  exact OsTaskReleaseHoldLock_shrinks.trans OsSchedTaskExit_shrinks

theorem OsRunTaskToDelete_shrinks : Shrinks s (OsRunTaskToDelete s t) := by
  unfold OsRunTaskToDelete OsTaskStatusUnusedSet
  dsimp only
  refine Shrinks.trans ?_ (Shrinks.modifyTask_keep (by intro _; rfl))
  refine Shrinks.trans ?_ (Shrinks.of_tasks toRecyleList_tasks)
  exact OsTaskReleaseHoldLock_shrinks.trans (Shrinks.modifyTask_keep (by intro _; rfl))

theorem OsTaskDeleteUnsafe_shrinks {onRun : Option Nat} : Shrinks s (OsTaskDeleteUnsafe s t onRun).2 := by
  unfold OsTaskDeleteUnsafe
  split_ifs
  · exact Shrinks.refl _
  · cases onRun with
    | some _ => exact Shrinks.refl _
    | none => exact OsRunTaskToDelete_shrinks
  · exact OsTaskDeleteInactive_shrinks

theorem LOS_TaskDelete_shrinks {cur : Nat} {onRun : Option Nat} {ret : Nat}
    (h : LOS_TaskDelete s cur t onRun = some (ret, s')) : Shrinks s s' := by
  unfold LOS_TaskDelete at h
  split_ifs at h
  · cases h
    exact Shrinks.refl _
  · cases h
    exact Shrinks.refl _
  · cases h
    exact Shrinks.refl _
  · obtain rfl : (OsTaskDeleteUnsafe s t onRun).2 = s' := congrArg Prod.snd (Option.some.inj h)
    exact OsTaskDeleteUnsafe_shrinks

theorem OsTaskToExit_shrinks (h : OsTaskToExit s t = some s') : Shrinks s s' := by
  unfold OsTaskToExit at h
  dsimp only at h
  split_ifs at h
  · cases h
    exact OsTaskDeleteUnsafe_shrinks
  · cases h
    exact OsTaskJoinPostUnsafe_shrinks.trans (Shrinks.modifyTask_keep (by intro _; rfl))

theorem OsTaskResourcesToFree_shrinks : Shrinks s (OsTaskResourcesToFree s t) := by
  unfold OsTaskResourcesToFree OsInsertTCBToFreeList
  split_ifs
  · -- cleared: the join list is empty
    intro u
    dsimp only
    rw [modifyTask_tasks]
    split_ifs
    · exact List.nil_sublist _
    · exact List.Sublist.refl _
  · exact Shrinks.refl _

theorem OsTaskCBRecyleToFree_shrinks : Shrinks s (OsTaskCBRecyleToFree s) := by
  -- the frees, one after the other, from the state with the recycle list emptied
  unfold OsTaskCBRecyleToFree
  refine List.foldlRecOn (motive := fun b => Shrinks s b) _ _ (Shrinks.of_tasks rfl) ?_
  intro b hb _ _
  exact hb.trans OsTaskResourcesToFree_shrinks

-- ========================================================= one joiner

/-- No join list holds two tasks. -/
def SingleJoiner (s : TaskSys) : Prop :=
  ∀ u, (s.tasks u).joinList.length ≤ 1

theorem SingleJoiner.shrink (h : SingleJoiner s) (hs : Shrinks s s') : SingleJoiner s' :=
  fun u => (hs u).length_le.trans (h u)

/-- A write of one task that leaves its join list alone leaves every
join list alone. -/
theorem joinList_modifyTask_keep {f : LosTaskCB → LosTaskCB} (h : ∀ task, (f task).joinList = task.joinList)
    (v : Nat) : ((s.modifyTask t f).tasks v).joinList = (s.tasks v).joinList := by
  rw [modifyTask_tasks]
  split_ifs with hv
  · rw [h, hv]
  · rfl

/-- A join links the joiner onto an empty list only. -/
theorem SingleJoiner.joinPend {runTask : Nat} (h : SingleJoiner s) :
    SingleJoiner (OsTaskJoinPendUnsafe s runTask t).2 := by
  unfold OsTaskJoinPendUnsafe
  split_ifs with _ _ hpend
  · exact h
  · exact h
  · -- the joiner's own writes leave the join lists alone
    intro u
    rw [modifyTask_tasks]
    split_ifs with hut
    · subst hut
      dsimp only
      rw [joinList_modifyTask_keep, joinList_modifyTask_keep, hpend.2]
      · rfl
      all_goals intro _; rfl
    · rw [joinList_modifyTask_keep, joinList_modifyTask_keep]
      · exact h u
      all_goals intro _; rfl
  · exact h
  · exact h

theorem SingleJoiner.step {e : Call} (h : SingleJoiner s) (hstep : Step s e s') : SingleJoiner s' := by
  cases hstep with
  | joinPend t _ => exact h.joinPend
  | detach t => exact h.shrink OsTaskSetDeatchUnsafe_shrinks
  | exit _ hx => exact h.shrink (OsTaskToExit_shrinks hx)
  | delete hd => exact h.shrink (LOS_TaskDelete_shrinks hd)
  | recycle => exact h.shrink OsTaskCBRecyleToFree_shrinks
  | run _ => exact h.shrink (Shrinks.modifyTask (List.Sublist.refl _))

theorem SingleJoiner.init (h : Init s) : SingleJoiner s := by
  intro u
  rw [(h.2 u).1]
  exact Nat.zero_le _

/-- Along every run, at most one task is pended on a task's join
list. -/
theorem join_list_single (hs : Reachable s) : ∀ t, (s.tasks t).joinList.length ≤ 1 :=
  Reach.inv SingleJoiner (fun _ h => SingleJoiner.init h) (fun _ _ h ⟨_, hn⟩ => h.step hn) hs

-- ==================================================== a stranded joiner

/-- In a kernel-mode process, `OsTaskReleaseHoldLock` wakes nobody. -/
theorem OsTaskReleaseHoldLock_kernel (hk : (s.processes (s.tasks t).processID).userMode = false) :
    OsTaskReleaseHoldLock s t = s := by
  unfold OsTaskReleaseHoldLock
  rw [if_neg (by simp [hk])]

/-- Deleting a task of a kernel-mode process that does not pend leaves
every other task as it was, a joiner on its list included, and puts
the task on the recycle list with that list. -/
theorem OsTaskDeleteInactive_keeps_joiner (hk : (s.processes (s.tasks t).processID).userMode = false)
    (hp : (s.tasks t).pending = false) (hu : u ≠ t) :
    (OsTaskDeleteInactive s t).tasks u = s.tasks u ∧
      ((OsTaskDeleteInactive s t).tasks t).joinList = (s.tasks t).joinList ∧
      t ∈ (OsTaskDeleteInactive s t).g_taskRecyleList := by
  unfold OsTaskDeleteInactive
  rw [OsTaskReleaseHoldLock_kernel hk]
  unfold OsSchedTaskExit OsTaskStatusUnusedSet
  dsimp only
  -- off the ready queue at most: a task that does not pend is on no join list
  split_ifs with hr hpe
  · simp [toRecyleList_tasks, toRecyleList_g_taskRecyleList, hu]
  · rw [hp] at hpe
    cases hpe
  · simp [toRecyleList_tasks, toRecyleList_g_taskRecyleList, hu]

/-- `LOS_TaskDelete` of a task that is not running, in a process with
other threads, is `OsTaskDeleteInactive`. -/
theorem LOS_TaskDelete_inactive {cur : Nat} {onRun : Option Nat} (hu : (s.tasks t).unused = false)
    (hsys : (s.tasks t).systemTask = false) (hnd : (s.tasks t).noDelete = false)
    (hn : (s.processes (s.tasks t).processID).threadNumber ≠ 1) (hr : (s.tasks t).running = false) :
    LOS_TaskDelete s cur t onRun = some (LOS_OK, OsTaskDeleteInactive s t) := by
  unfold LOS_TaskDelete OsTaskDeleteUnsafe
  rw [if_neg (by simp [hu]), if_neg (by simp [hsys, hnd]), if_neg hn, if_neg (by simp [hsys]),
    if_neg (by simp [hr])]

-- ============================================================ recycling

/-- Freeing one task leaves the others alone. -/
theorem OsTaskResourcesToFree_other (hu : u ≠ t) : (OsTaskResourcesToFree s t).tasks u = s.tasks u := by
  unfold OsTaskResourcesToFree OsInsertTCBToFreeList
  split_ifs
  · dsimp only
    rw [modifyTask_tasks, if_neg hu]
  · rfl

/-- A task that is unused stays so, freed or not. -/
theorem OsTaskResourcesToFree_unused (h : (s.tasks t).unused) : ((OsTaskResourcesToFree s u).tasks t).unused := by
  by_cases htu : t = u
  · subst htu
    unfold OsTaskResourcesToFree OsInsertTCBToFreeList
    rw [if_pos h]
    dsimp only
    rw [modifyTask_tasks, if_pos rfl]
    rfl
  · rw [OsTaskResourcesToFree_other htu]
    exact h

/-- The free list only grows, and an unused task freed is on it. -/
theorem OsTaskResourcesToFree_free (h : t = u ∧ (s.tasks t).unused ∨ t ∈ s.g_losFreeTask) :
    t ∈ (OsTaskResourcesToFree s u).g_losFreeTask := by
  unfold OsTaskResourcesToFree OsInsertTCBToFreeList
  split_ifs with hu
  · dsimp only
    rcases h with ⟨rfl, -⟩ | hmem
    · exact List.mem_cons_self
    · exact List.mem_cons_of_mem u hmem
  · rcases h with ⟨rfl, hun⟩ | hmem
    · exact absurd hun hu
    · exact hmem

/-- Recycling leaves every task off the recycle list alone. -/
theorem OsTaskCBRecyleToFree_other (hu : u ∉ s.g_taskRecyleList) :
    (OsTaskCBRecyleToFree s).tasks u = s.tasks u := by
  -- the frees of the tasks of the list, none of them `u`
  unfold OsTaskCBRecyleToFree
  refine List.foldlRecOn (motive := fun b : TaskSys => b.tasks u = s.tasks u) _ _ rfl ?_
  intro b hb t ht
  have hut : u ≠ t := by
    rintro rfl
    exact hu ht
  rw [OsTaskResourcesToFree_other hut, hb]

/-- Recycling puts an unused task of the recycle list on the free list. -/
theorem OsTaskCBRecyleToFree_free (ht : t ∈ s.g_taskRecyleList) (hun : (s.tasks t).unused) :
    t ∈ (OsTaskCBRecyleToFree s).g_losFreeTask := by
  -- the frees before the task's own keep it unused, its own puts it on
  -- the free list, and the later ones keep it there
  obtain ⟨l₁, l₂, hl⟩ := List.append_of_mem ht
  unfold OsTaskCBRecyleToFree
  rw [hl, List.foldl_append, List.foldl_cons]
  refine List.foldlRecOn (motive := fun b : TaskSys => t ∈ b.g_losFreeTask) _ _ ?_
    (fun b hb _ _ => OsTaskResourcesToFree_free (.inr hb))
  have hbefore : ((l₁.foldl OsTaskResourcesToFree { s with g_taskRecyleList := [] }).tasks t).unused :=
    List.foldlRecOn (motive := fun b : TaskSys => (b.tasks t).unused) _ _ hun
      (fun _ hb _ _ => OsTaskResourcesToFree_unused hb)
  exact OsTaskResourcesToFree_free (.inl ⟨rfl, hbefore⟩)

-- ========================================================= a kernel thread

/-- A thread of process 1, not pended, with nothing on its join list. -/
def joinThread (ready running pthreadJoin : Bool) : LosTaskCB :=
  ⟨false, false, ready, running, false, false, pthreadJoin, false, false, false, 0, 0, 1, []⟩

/-- Process 1, a running kernel-mode process, with three threads: its
main thread 0 and thread 2 are running, and thread 1, joinable, is
ready. -/
def joinInit : TaskSys where
  tasks := fun t =>
    if t = 0 then joinThread false true false
    else if t = 1 then joinThread true false true
    else if t = 2 then joinThread false true false
    else LosTaskCB.cleared
  processes := fun _ => ⟨true, false, 0, 3⟩
  g_taskRecyleList := []
  g_losFreeTask := []

theorem joinInit_init : Init joinInit := by
  refine ⟨rfl, fun t => ?_⟩
  unfold joinInit
  dsimp only
  split_ifs <;> exact ⟨rfl, rfl⟩

/-- A join call with the value it returned. -/
theorem step_joinPend {runTask : Nat} {ret : Option Nat} (hr : (s.tasks runTask).running)
    (h : (OsTaskJoinPendUnsafe s runTask t).1 = ret) :
    Step s (.joinPend runTask t ret) (OsTaskJoinPendUnsafe s runTask t).2 :=
  h ▸ Step.joinPend t hr

theorem one_joiner_after_join :
    Reachable (OsTaskJoinPendUnsafe joinInit 2 1).2 ∧
      ∀ t, (((OsTaskJoinPendUnsafe joinInit 2 1).2.tasks t).joinList).length ≤ 1 :=
  have hreach : Reachable (OsTaskJoinPendUnsafe joinInit 2 1).2 :=
    (Run.nil.snoc (step_joinPend (by decide) (rfl : (OsTaskJoinPendUnsafe joinInit 2 1).1 = none))).reach
      joinInit_init
  ⟨hreach, join_list_single hreach⟩

theorem delete_strands_joiner :
    Init joinInit ∧ ∃ s, Run Step joinInit [.joinPend 2 1 none, .delete 1 1 none LOS_OK, .recycle] s ∧
      1 ∈ s.g_losFreeTask ∧ (s.tasks 2).pending = true ∧ (s.tasks 2).waitFlag = OS_TASK_WAIT_JOIN ∧
      (s.tasks 2).waitID = 1 := by
  -- thread 2 joins thread 1 and pends on its join list
  have r₁ := (@Run.nil _ _ Step joinInit).snoc
    (step_joinPend (by decide) (rfl : (OsTaskJoinPendUnsafe joinInit 2 1).1 = none))
  set s₁ := (OsTaskJoinPendUnsafe joinInit 2 1).2 with hs₁
  -- thread 1, of a kernel-mode process, is deleted: nobody wakes thread 2
  have hdel : LOS_TaskDelete s₁ 1 1 none = some (LOS_OK, OsTaskDeleteInactive s₁ 1) :=
    LOS_TaskDelete_inactive (by rw [hs₁]; decide) (by rw [hs₁]; decide) (by rw [hs₁]; decide)
      (by rw [hs₁]; decide) (by rw [hs₁]; decide)
  have r₂ := r₁.snoc (Step.delete hdel)
  obtain ⟨hkeep, -, hrecyle⟩ := OsTaskDeleteInactive_keeps_joiner (s := s₁) (t := 1) (u := 2)
    (by rw [hs₁]; decide) (by rw [hs₁]; decide) (by decide)
  set s₂ := OsTaskDeleteInactive s₁ 1 with hs₂
  -- and the recycled control block goes to the free list, thread 2 still waiting on it
  have r₃ := r₂.snoc (@Step.recycle s₂)
  have hunused : (s₂.tasks 1).unused := by rw [hs₂, hs₁]; decide
  have hother : (OsTaskCBRecyleToFree s₂).tasks 2 = s₁.tasks 2 := by
    rw [OsTaskCBRecyleToFree_other (by rw [hs₂, hs₁]; decide), hkeep]
  refine ⟨joinInit_init, _, r₃, OsTaskCBRecyleToFree_free hrecyle hunused, ?_⟩
  rw [hother, hs₁]
  exact ⟨rfl, rfl, rfl⟩

end LiteOsA.TaskJoin
