/-
Who frees a process group, and how often.

`OsExitProcessGroup` sets its out-parameter only when the group it
leaves is left empty; otherwise the variable keeps what it held
(`OsExitProcessGroup_out`). A caller that
starts from `NULL` and frees the variable once frees `NULL` or the group
the call emptied and unlinked (`OsWaitRecycleChildPorcess_frees`,
`OsDeInitPCB_frees`). `OsChildProcessResourcesFree` keeps one variable
for all its rounds: after a round that emptied a group, a round whose
child leaves a group with members frees that group again
(`OsChildProcessResourcesFree_frees_twice`), as a run from a
consistent state shows (`process_group_freed_twice`).
-/
import LiteOsA.Core.ProcessGroup

namespace LiteOsA.Process

-- ------------------------------------------------------------ the state

namespace ProcSys

variable (s : ProcSys) (pid : Nat)

@[simp] theorem setPCB_pcb_self (f : LosProcessCB → LosProcessCB) : (s.setPCB pid f).pcb pid = f (s.pcb pid) := by
  simp [setPCB]

@[simp] theorem setPCB_pcb_of_ne {y : Nat} (f : LosProcessCB → LosProcessCB) (hy : y ≠ pid) :
    (s.setPCB pid f).pcb y = s.pcb y := by
  simp [setPCB, hy]

@[simp] theorem setPCB_groupAt (f : LosProcessCB → LosProcessCB) : (s.setPCB pid f).groupAt = s.groupAt := rfl

@[simp] theorem setPCB_groupList (f : LosProcessCB → LosProcessCB) : (s.setPCB pid f).groupList = s.groupList := rfl

@[simp] theorem setPCB_freed (f : LosProcessCB → LosProcessCB) : (s.setPCB pid f).freed = s.freed := rfl

@[simp] theorem deleteSubordinate_pcb : (s.deleteSubordinate pid).pcb = s.pcb := rfl

@[simp] theorem deleteSubordinate_groupList : (s.deleteSubordinate pid).groupList = s.groupList := rfl

@[simp] theorem deleteSubordinate_freed : (s.deleteSubordinate pid).freed = s.freed := rfl

@[simp] theorem deleteSubordinate_groupAt (g : Nat) : (s.deleteSubordinate pid).groupAt g =
    { s.groupAt g with
      processList := (s.groupAt g).processList.erase pid
      exitProcessList := (s.groupAt g).exitProcessList.erase pid } := rfl

@[simp] theorem deleteSibling_pcb (y : Nat) : (s.deleteSibling pid).pcb y =
    { s.pcb y with
      childrenList := (s.pcb y).childrenList.erase pid
      exitChildList := (s.pcb y).exitChildList.erase pid } := rfl

@[simp] theorem deleteSibling_groupAt : (s.deleteSibling pid).groupAt = s.groupAt := rfl

@[simp] theorem deleteSibling_freed : (s.deleteSibling pid).freed = s.freed := rfl

@[simp] theorem deleteSibling_groupList : (s.deleteSibling pid).groupList = s.groupList := rfl

@[simp] theorem deletePend_groupList : (s.deletePend pid).groupList = s.groupList := rfl

@[simp] theorem deletePend_pcb : (s.deletePend pid).pcb = s.pcb := rfl

@[simp] theorem deletePend_groupAt : (s.deletePend pid).groupAt = s.groupAt := rfl

@[simp] theorem deletePend_freed : (s.deletePend pid).freed = s.freed := rfl

@[simp] theorem memFree_freed (g : Nat) : (s.memFree g).freed = s.freed ++ [g] := rfl

@[simp] theorem memFree_pcb (g : Nat) : (s.memFree g).pcb = s.pcb := rfl

@[simp] theorem memFree_groupAt (g : Nat) : (s.memFree g).groupAt = s.groupAt := rfl

@[simp] theorem memFree_groupList (g : Nat) : (s.memFree g).groupList = s.groupList := rfl

end ProcSys

@[simp] theorem OsInsertPCBToFreeList_groupAt (s : ProcSys) (pid : Nat) :
    (OsInsertPCBToFreeList s pid).groupAt = s.groupAt := rfl

@[simp] theorem OsInsertPCBToFreeList_freed (s : ProcSys) (pid : Nat) :
    (OsInsertPCBToFreeList s pid).freed = s.freed := rfl

@[simp] theorem OsInsertPCBToFreeList_groupList (s : ProcSys) (pid : Nat) :
    (OsInsertPCBToFreeList s pid).groupList = s.groupList := rfl

@[simp] theorem OsInsertPCBToFreeList_pcb_self (s : ProcSys) (pid : Nat) :
    (OsInsertPCBToFreeList s pid).pcb pid = ⟨OS_PROCESS_FLAG_UNUSED, 0, 0, NULL, [], []⟩ := by
  simp [OsInsertPCBToFreeList]

theorem OsInsertPCBToFreeList_pcb_of_ne (s : ProcSys) {pid y : Nat} (hy : y ≠ pid) :
    (OsInsertPCBToFreeList s pid).pcb y = s.pcb y := by
  simp [OsInsertPCBToFreeList, hy]

-- ------------------------------------------------------------ leaving a group

/-- Taking `pid` off the lists of its group leaves them empty: the test
`OsExitProcessGroup` makes. -/
def Emptied (s : ProcSys) (pid : Nat) : Prop :=
  (s.groupAt (s.pcb pid).group).processList.erase pid = [] ∧
    (s.groupAt (s.pcb pid).group).exitProcessList.erase pid = []

instance (s : ProcSys) (pid : Nat) : Decidable (Emptied s pid) := by
  unfold Emptied
  infer_instance

/-- `OsExitProcessGroup` by its two branches. -/
theorem OsExitProcessGroup_eq (s : ProcSys) (pid group : Nat) :
    OsExitProcessGroup s pid group =
      if Emptied s pid then
        (((OsExitProcessGroup.unlink (s.deleteSubordinate pid) (s.pcb pid).group).setPCB pid
          fun cb => { cb with group := NULL }), (s.pcb pid).group)
      else ((s.deleteSubordinate pid).setPCB pid fun cb => { cb with group := NULL }, group) := by
  simp only [OsExitProcessGroup, Emptied]
  rfl

/-- The out-parameter of `OsExitProcessGroup`: the group left, when it
was left empty, and otherwise what it held. -/
theorem OsExitProcessGroup_out (s : ProcSys) (pid group : Nat) :
    (OsExitProcessGroup s pid group).2 = if Emptied s pid then (s.pcb pid).group else group := by
  rw [OsExitProcessGroup_eq]
  split_ifs <;> rfl

/-- Another process still in the group keeps it from being left empty. -/
theorem not_emptied_of_mem {s : ProcSys} {pid q : Nat} (hq : q ≠ pid)
    (hmem : q ∈ (s.groupAt (s.pcb pid).group).processList ∨
      q ∈ (s.groupAt (s.pcb pid).group).exitProcessList) :
    ¬Emptied s pid := by
  rintro ⟨h₁, h₂⟩
  rcases hmem with hm | hm
  · simpa [h₁] using (List.mem_erase_of_ne hq).mpr hm
  · simpa [h₂] using (List.mem_erase_of_ne hq).mpr hm

-- ------------------------------------------------------------ unlink

@[simp] theorem OsExitProcessGroup.unlink_groupAt (s : ProcSys) (g : Nat) :
    (OsExitProcessGroup.unlink s g).groupAt = s.groupAt := by
  dsimp only [OsExitProcessGroup.unlink]
  split_ifs <;> rfl

@[simp] theorem OsExitProcessGroup.unlink_freed (s : ProcSys) (g : Nat) :
    (OsExitProcessGroup.unlink s g).freed = s.freed := by
  dsimp only [OsExitProcessGroup.unlink]
  split_ifs <;> rfl

@[simp] theorem OsExitProcessGroup.unlink_groupList (s : ProcSys) (g : Nat) :
    (OsExitProcessGroup.unlink s g).groupList = s.groupList.erase g := by
  dsimp only [OsExitProcessGroup.unlink]
  split_ifs <;> rfl

/-- Unlinking a group touches no block but its leader's. -/
theorem OsExitProcessGroup.unlink_pcb_of_ne (s : ProcSys) {g y : Nat} (hy : y ≠ (s.groupAt g).groupID) :
    (OsExitProcessGroup.unlink s g).pcb y = s.pcb y := by
  dsimp only [OsExitProcessGroup.unlink]
  split_ifs
  · rw [OsInsertPCBToFreeList_pcb_of_ne _ hy, ProcSys.deletePend_pcb, ProcSys.setPCB_pcb_of_ne _ _ _ hy]
  · rw [ProcSys.setPCB_pcb_of_ne _ _ _ hy]

/-- Unlinking a group leaves every block's group, or clears it. -/
theorem OsExitProcessGroup.unlink_pcb_group (s : ProcSys) (g y : Nat) :
    ((OsExitProcessGroup.unlink s g).pcb y).group = NULL ∨
      ((OsExitProcessGroup.unlink s g).pcb y).group = (s.pcb y).group := by
  by_cases hy : y = (s.groupAt g).groupID
  · dsimp only [OsExitProcessGroup.unlink]
    split_ifs
    · left
      simp [OsInsertPCBToFreeList, hy]
    · right
      simp [hy]
  · exact Or.inr (by rw [OsExitProcessGroup.unlink_pcb_of_ne s hy])

-- ------------------------------------------------------------ leaving a group

/-- The lists of every group lose the process leaving, and only it. -/
@[simp] theorem OsExitProcessGroup_groupAt (s : ProcSys) (pid group : Nat) :
    (OsExitProcessGroup s pid group).1.groupAt = (s.deleteSubordinate pid).groupAt := by
  rw [OsExitProcessGroup_eq]
  split_ifs <;> simp

/-- The group list loses the group left, when it was left empty. -/
theorem OsExitProcessGroup_groupList (s : ProcSys) (pid group : Nat) :
    (OsExitProcessGroup s pid group).1.groupList =
      if Emptied s pid then s.groupList.erase (s.pcb pid).group else s.groupList := by
  rw [OsExitProcessGroup_eq]
  split_ifs <;> simp

@[simp] theorem OsExitProcessGroup_freed (s : ProcSys) (pid group : Nat) :
    (OsExitProcessGroup s pid group).1.freed = s.freed := by
  rw [OsExitProcessGroup_eq]
  split_ifs <;> simp

/-- A block other than the leaving process's and its group leader's is
untouched. -/
theorem OsExitProcessGroup_pcb_of_ne (s : ProcSys) {pid group y : Nat} (hy : y ≠ pid)
    (hl : y ≠ (s.groupAt (s.pcb pid).group).groupID) :
    (OsExitProcessGroup s pid group).1.pcb y = s.pcb y := by
  rw [OsExitProcessGroup_eq]
  split_ifs
  · rw [ProcSys.setPCB_pcb_of_ne _ _ _ hy, OsExitProcessGroup.unlink_pcb_of_ne _ (by simpa using hl)]
    rfl
  · rw [ProcSys.setPCB_pcb_of_ne _ _ _ hy]
    rfl

/-- After a process leaves its group, a block's group is `NULL`, or as it
was for a block other than the leaving one. -/
theorem OsExitProcessGroup_pcb_group (s : ProcSys) (pid group y : Nat) :
    ((OsExitProcessGroup s pid group).1.pcb y).group = NULL ∨
      (y ≠ pid ∧ ((OsExitProcessGroup s pid group).1.pcb y).group = (s.pcb y).group) := by
  by_cases hy : y = pid
  · left
    subst hy
    rw [OsExitProcessGroup_eq]
    split_ifs <;> simp
  · rw [OsExitProcessGroup_eq]
    split_ifs
    · simp only [ProcSys.setPCB_pcb_of_ne _ _ _ hy]
      rcases OsExitProcessGroup.unlink_pcb_group (s.deleteSubordinate pid) (s.pcb pid).group y with h | h
      · exact Or.inl h
      · exact Or.inr ⟨hy, h⟩
    · exact Or.inr ⟨hy, by rw [ProcSys.setPCB_pcb_of_ne _ _ _ hy]; rfl⟩

-- ------------------------------------------------------------ recycling

theorem OsRecycleZombiesProcess_out (s : ProcSys) (childPid group : Nat) :
    (OsRecycleZombiesProcess s childPid group).2 = (OsExitProcessGroup s childPid group).2 := rfl

@[simp] theorem OsRecycleZombiesProcess_groupAt (s : ProcSys) (childPid group : Nat) :
    (OsRecycleZombiesProcess s childPid group).1.groupAt = (s.deleteSubordinate childPid).groupAt := by
  simp only [OsRecycleZombiesProcess]
  split_ifs <;> simp

@[simp] theorem OsRecycleZombiesProcess_freed (s : ProcSys) (childPid group : Nat) :
    (OsRecycleZombiesProcess s childPid group).1.freed = s.freed := by
  simp only [OsRecycleZombiesProcess]
  split_ifs <;> simp

@[simp] theorem OsRecycleZombiesProcess_groupList (s : ProcSys) (childPid group : Nat) :
    (OsRecycleZombiesProcess s childPid group).1.groupList = (OsExitProcessGroup s childPid group).1.groupList := by
  simp only [OsRecycleZombiesProcess]
  split_ifs <;> simp

/-- Recycling changes no block's group but to clear it, after the child
has left its group. -/
theorem OsRecycleZombiesProcess_pcb_group (s : ProcSys) (childPid group y : Nat) :
    ((OsRecycleZombiesProcess s childPid group).1.pcb y).group = NULL ∨
      ((OsRecycleZombiesProcess s childPid group).1.pcb y).group =
        ((OsExitProcessGroup s childPid group).1.pcb y).group := by
  -- the steps after leaving the group change only the child's block
  by_cases hy : y = childPid
  · subst hy
    simp only [OsRecycleZombiesProcess]
    split_ifs <;> simp
  · simp only [OsRecycleZombiesProcess]
    split_ifs <;> simp [OsInsertPCBToFreeList_pcb_of_ne _ hy, hy]

/-- Recycling a child touches no other block than the child's and its
group leader's, but for taking the child off the lists of children. -/
theorem OsRecycleZombiesProcess_pcb_of_ne (s : ProcSys) {childPid group y : Nat} (hy : y ≠ childPid)
    (hl : y ≠ (s.groupAt (s.pcb childPid).group).groupID) :
    (OsRecycleZombiesProcess s childPid group).1.pcb y = { s.pcb y with
      childrenList := (s.pcb y).childrenList.erase childPid
      exitChildList := (s.pcb y).exitChildList.erase childPid } := by
  have hexit := @OsExitProcessGroup_pcb_of_ne s childPid group y hy hl
  simp only [OsRecycleZombiesProcess]
  split_ifs <;> simp [OsInsertPCBToFreeList_pcb_of_ne _ hy, hy, hexit]

/-- The loop only adds to the free record. -/
theorem OsChildProcessResourcesFree.loop_freed (pid : Nat) :
    ∀ (fuel : Nat) (s : ProcSys) (group : Nat),
      ∃ l, (OsChildProcessResourcesFree.loop pid fuel s group).freed = s.freed ++ l
  | 0, s, _ => ⟨[], by simp [OsChildProcessResourcesFree.loop]⟩
  | fuel + 1, s, group => by
    unfold OsChildProcessResourcesFree.loop
    split
    · exact ⟨[], by simp⟩
    next childPid _ _ =>
      obtain ⟨l, hl⟩ := loop_freed pid fuel
        ((OsRecycleZombiesProcess s childPid group).1.memFree (OsRecycleZombiesProcess s childPid group).2)
        (OsRecycleZombiesProcess s childPid group).2
      exact ⟨(OsRecycleZombiesProcess s childPid group).2 :: l, by rw [hl]; simp⟩

/-- A round of the loop: the first exited child is recycled, and the
group variable, as the recycling leaves it, is freed. -/
theorem OsChildProcessResourcesFree.loop_cons {pid fuel group childPid : Nat} {rest : List Nat} {s : ProcSys}
    (h : (s.pcb pid).exitChildList = childPid :: rest) :
    OsChildProcessResourcesFree.loop pid (fuel + 1) s group =
      OsChildProcessResourcesFree.loop pid fuel
        ((OsRecycleZombiesProcess s childPid group).1.memFree (OsRecycleZombiesProcess s childPid group).2)
        (OsRecycleZombiesProcess s childPid group).2 := by
  rw [OsChildProcessResourcesFree.loop, h]

/-- Two exited children, the first alone in its group and the second in
a group with another member: the first round frees the first child's
group, and the second round frees it again, since the variable still
holds it. -/
theorem OsChildProcessResourcesFree_frees_twice {s : ProcSys} {pid c₁ c₂ q : Nat} {rest : List Nat}
    (hlist : (s.pcb pid).exitChildList = c₁ :: c₂ :: rest)
    (hpid₁ : pid ≠ c₁) (h₁₂ : c₂ ≠ c₁)
    (hlead : pid ≠ (s.groupAt (s.pcb c₁).group).groupID ∧ c₂ ≠ (s.groupAt (s.pcb c₁).group).groupID)
    (hempty : Emptied s c₁) (hq₁ : q ≠ c₁) (hq₂ : q ≠ c₂)
    (hq : q ∈ (s.groupAt (s.pcb c₂).group).processList ∨ q ∈ (s.groupAt (s.pcb c₂).group).exitProcessList) :
    ∃ l, (OsChildProcessResourcesFree s pid).freed =
      s.freed ++ [(s.pcb c₁).group, (s.pcb c₁).group] ++ l := by
  set g₁ := (s.pcb c₁).group
  -- the first round empties the first child's group
  have hout₁ : (OsRecycleZombiesProcess s c₁ NULL).2 = g₁ := by
    rw [OsRecycleZombiesProcess_out, OsExitProcessGroup_out, if_pos hempty]
  set s₁ := (OsRecycleZombiesProcess s c₁ NULL).1.memFree g₁ with hs₁
  have hlist₁ : (s₁.pcb pid).exitChildList = c₂ :: rest := by
    rw [hs₁, ProcSys.memFree_pcb, OsRecycleZombiesProcess_pcb_of_ne s hpid₁ hlead.1]
    simp [hlist]
  -- the second child's group keeps `q`
  have hc₂ : (s₁.pcb c₂).group = (s.pcb c₂).group := by
    rw [hs₁, ProcSys.memFree_pcb, OsRecycleZombiesProcess_pcb_of_ne s h₁₂ hlead.2]
  have hkept : ¬Emptied s₁ c₂ := by
    refine not_emptied_of_mem hq₂ ?_
    rw [hc₂, hs₁, ProcSys.memFree_groupAt, OsRecycleZombiesProcess_groupAt, ProcSys.deleteSubordinate_groupAt]
    rcases hq with hm | hm
    · exact Or.inl ((List.mem_erase_of_ne hq₁).mpr hm)
    · exact Or.inr ((List.mem_erase_of_ne hq₁).mpr hm)
  have hout₂ : (OsRecycleZombiesProcess s₁ c₂ g₁).2 = g₁ := by
    rw [OsRecycleZombiesProcess_out, OsExitProcessGroup_out, if_neg hkept]
  unfold OsChildProcessResourcesFree
  rw [hlist, List.length_cons, List.length_cons, OsChildProcessResourcesFree.loop_cons hlist, hout₁,
    OsChildProcessResourcesFree.loop_cons hlist₁, hout₂]
  obtain ⟨l, hl⟩ := OsChildProcessResourcesFree.loop_freed pid rest.length
    ((OsRecycleZombiesProcess s₁ c₂ g₁).1.memFree g₁) g₁
  exact ⟨l, by rw [hl]; simp [hs₁]⟩

-- ------------------------------------------------------------ one free

/-- Every process with a group is on one of its lists, and no group is
twice on the global list. -/
structure GroupsOk (s : ProcSys) : Prop where
  nodup : s.groupList.Nodup
  member : ∀ q, (s.pcb q).group ≠ NULL →
    q ∈ (s.groupAt (s.pcb q).group).processList ∨ q ∈ (s.groupAt (s.pcb q).group).exitProcessList

/-- A pointer it is safe to free: `NULL`, or a group off the global
list, with no member, that no process points to. -/
def FreeClean (s : ProcSys) (x : Nat) : Prop :=
  x = NULL ∨ (x ∉ s.groupList ∧ (s.groupAt x).processList = [] ∧ (s.groupAt x).exitProcessList = [] ∧
    ∀ y, (s.pcb y).group ≠ x)

/-- A group that `pid` leaves empty is no other process's group. -/
theorem Emptied.not_group {s : ProcSys} {pid y : Nat} (hok : GroupsOk s) (he : Emptied s pid)
    (hg : (s.pcb pid).group ≠ NULL) (hy : y ≠ pid) : (s.pcb y).group ≠ (s.pcb pid).group := by
  intro heq
  have hmem := hok.member y (heq ▸ hg)
  rw [heq] at hmem
  exact not_emptied_of_mem hy hmem he

/-- Safety of a free reads only the global list, the groups, and each
block's group, which may have been cleared since. -/
theorem FreeClean.of_groups {s s' : ProcSys} {x : Nat} (h : FreeClean s x)
    (hl : s'.groupList = s.groupList) (ha : s'.groupAt = s.groupAt)
    (hp : ∀ y, (s'.pcb y).group = NULL ∨ (s'.pcb y).group = (s.pcb y).group) : FreeClean s' x := by
  by_cases hx : x = NULL
  · exact Or.inl hx
  obtain ⟨hl', hp₁, hp₂, hy⟩ := h.resolve_left hx
  refine Or.inr ⟨hl ▸ hl', ha ▸ hp₁, ha ▸ hp₂, fun y => ?_⟩
  rcases hp y with h | h
  · rw [h]
    exact Ne.symm hx
  · rw [h]
    exact hy y

/-- Leaving a group from an out-parameter of `NULL` leaves it safe to
free. -/
theorem OsExitProcessGroup_clean {s : ProcSys} {pid : Nat} (hok : GroupsOk s) :
    FreeClean (OsExitProcessGroup s pid NULL).1 (OsExitProcessGroup s pid NULL).2 := by
  rw [OsExitProcessGroup_out]
  by_cases he : Emptied s pid
  · rw [if_pos he]
    by_cases hg : (s.pcb pid).group = NULL
    · exact Or.inl hg
    refine Or.inr ⟨?_, ?_, ?_, fun y => ?_⟩
    · rw [OsExitProcessGroup_groupList, if_pos he]
      exact hok.nodup.not_mem_erase
    · simpa using he.1
    · simpa using he.2
    · rcases OsExitProcessGroup_pcb_group s pid NULL y with h | ⟨hy, h⟩
      · rw [h]
        exact Ne.symm hg
      · rw [h]
        exact he.not_group hok hg hy
  · rw [if_neg he]
    exact Or.inl rfl

/-- `OsWaitRecycleChildPorcess` frees one pointer, safely. -/
theorem OsWaitRecycleChildPorcess_frees {s : ProcSys} {childPid : Nat} (hok : GroupsOk s) :
    ∃ x, (OsWaitRecycleChildPorcess s childPid).freed = s.freed ++ [x] ∧
      FreeClean (OsWaitRecycleChildPorcess s childPid) x := by
  refine ⟨(OsRecycleZombiesProcess s childPid NULL).2, by simp [OsWaitRecycleChildPorcess], ?_⟩
  exact (OsExitProcessGroup_clean hok).of_groups (by simp [OsWaitRecycleChildPorcess])
    (by simp [OsWaitRecycleChildPorcess]) (OsRecycleZombiesProcess_pcb_group s childPid NULL)

/-- The invariant reads only the global list, the groups, and each
block's group. -/
theorem GroupsOk.of_same {s s' : ProcSys} (h : GroupsOk s) (hl : s'.groupList = s.groupList)
    (ha : s'.groupAt = s.groupAt) (hp : ∀ y, (s'.pcb y).group = (s.pcb y).group) : GroupsOk s' :=
  ⟨hl ▸ h.nodup, fun q hq => by rw [ha, hp q]; exact h.member q (hp q ▸ hq)⟩

/-- `OsDeInitPCB` frees one pointer, safely. -/
theorem OsDeInitPCB_frees {s : ProcSys} {pid : Nat} (hok : GroupsOk s) :
    ∃ x, (OsDeInitPCB s pid).freed = s.freed ++ [x] ∧ FreeClean (OsDeInitPCB s pid) x := by
  -- taking the block off its parent changes no group
  set s₀ := if (s.pcb pid).parentProcessID ≠ OS_INVALID_VALUE then
      (s.deleteSibling pid).setPCB pid fun cb => { cb with parentProcessID := OS_INVALID_VALUE }
    else s with hs₀
  have hgroup₀ : ∀ y, (s₀.pcb y).group = (s.pcb y).group := by
    intro y
    rw [hs₀]
    split_ifs
    · by_cases hy : y = pid
      · subst hy
        simp
      · simp [hy]
    · rfl
  have hok₀ : GroupsOk s₀ :=
    hok.of_same (by rw [hs₀]; split_ifs <;> simp) (by rw [hs₀]; split_ifs <;> simp) hgroup₀
  have hfreed₀ : s₀.freed = s.freed := by
    rw [hs₀]
    split_ifs <;> simp
  set r := if (s₀.pcb pid).group ≠ NULL then OsExitProcessGroup s₀ pid NULL else (s₀, NULL) with hr
  have hclean : FreeClean r.1 r.2 := by
    rw [hr]
    split_ifs
    · exact OsExitProcessGroup_clean hok₀
    · exact Or.inl rfl
  have hfreed : r.1.freed = s.freed := by
    rw [hr]
    split_ifs <;> simp [hfreed₀]
  -- the rest marks the block and queues it for recycling
  have hdef : OsDeInitPCB s pid =
      ({ r.1.setPCB pid (fun cb => { cb with
          processStatus := clearFlag cb.processStatus OS_PROCESS_STATUS_INIT ||| OS_PROCESS_FLAG_EXIT }) with
        g_processRecyleList := pid :: r.1.g_processRecyleList } : ProcSys).memFree r.2 := rfl
  refine ⟨r.2, by rw [hdef]; simp [hfreed], ?_⟩
  rw [hdef]
  refine hclean.of_groups rfl rfl fun y => Or.inr ?_
  by_cases hy : y = pid
  · subst hy
    simp
  · simp [hy]

-- ------------------------------------------------------------ a run

/-- The blocks of `groupSys`: init (pid 1) leads group `0x100`, and its
child 3 has the children 4 and 5, all in that group. -/
def groupSysPcb : Nat → LosProcessCB := fun q =>
  if q = 1 then ⟨OS_PROCESS_STATUS_RUNNING ||| OS_PROCESS_FLAG_GROUP_LEADER, OS_USER_MODE, OS_INVALID_VALUE,
    0x100, [3], []⟩
  else if q = 3 then ⟨OS_PROCESS_STATUS_RUNNING, OS_USER_MODE, 1, 0x100, [4, 5], []⟩
  else if q = 4 ∨ q = 5 then ⟨OS_PROCESS_STATUS_RUNNING, OS_USER_MODE, 3, 0x100, [], []⟩
  else ⟨OS_PROCESS_FLAG_UNUSED, OS_KERNEL_MODE, 0, NULL, [], []⟩

/-- Four user processes in the root group `0x100`. -/
def groupSys : ProcSys where
  pcb := groupSysPcb
  groupAt := fun g => if g = 0x100 then ⟨1, [1, 3, 4, 5], []⟩ else ⟨0, [], []⟩
  g_processGroup := 0x100
  groupList := []
  g_freeProcess := []
  g_processRecyleList := []
  freed := []

theorem groupSys_ok : GroupsOk groupSys := by
  refine ⟨List.nodup_nil, fun q hq => ?_⟩
  simp only [groupSys, groupSysPcb] at hq ⊢
  split_ifs at hq ⊢ <;> simp_all

/-- Process 4 makes itself a group at `0x200` with `setpgid(0, 0)`;
then 4, 5 and 3 exit in turn. When 3 exits, its first child 4 empties
its group, which is freed, and its second child 5 leaves the root
group, which keeps 1: the variable still holds `0x200`, which is freed
again. -/
theorem process_group_freed_twice :
    GroupsOk groupSys ∧ ∃ s₁ s₂ s₃ s₄, OsSetProcessGroupID groupSys 4 4 4 0x200 = (0, s₁) ∧
      OsProcessNaturalExit s₁ 4 = some s₂ ∧ OsProcessNaturalExit s₂ 5 = some s₃ ∧
      OsProcessNaturalExit s₃ 3 = some s₄ ∧ s₄.freed = [NULL, 0x200, 0x200] :=
  ⟨groupSys_ok, _, _, _, _, rfl, rfl, rfl, rfl, by decide⟩

end LiteOsA.Process
