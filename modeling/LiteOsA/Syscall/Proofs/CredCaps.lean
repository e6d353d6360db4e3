/-
What the credential calls keep, and what their unlocked stretches lose.

# Kept

* A capability mask never gains a bit, over any run (`cred_caps_within`):
  `SysCapSet` installs only a mask inside the old one, and no other step
  writes a mask but a fork's copy of its parent's.
* A one-section call by a process without `CAP_SETUID` leaves its user
  IDs alone, and one without `CAP_SETGID` its group IDs and entries
  (`callStep_ids_of_not_permit`).
* Every `User` holds exactly `groupNumber` entries in its allocation
  (`cred_users_fit`), in every reachable state.

# Lost

`GetGroups` reads `groupNumber` in one critical section and copies that
many entries in a second, from whatever `User` the process has by then.
A `SysSetGroups` of another thread in between installs a smaller one,
and the copy reads past its end (`cred_get_groups_overread`).
`SysSetGroups` scans its list against a `gid` read without the lock: a
`SysSetGroupID` in between leaves a `User` whose entries miss its own
`gid` (`cred_set_groups_stale_gid`).
-/
import LiteOsA.Syscall.Cred
import LiteOsA.Lib.Run

namespace LiteOsA.Cred

variable {s s' : CredSys} {e : Event}

-- ============================================================ masks

/-- The 32 capability bits of `a` are among those of `b`. -/
def CapsWithin (a b : Nat) : Prop := ∀ i < 32, a.testBit i = true → b.testBit i = true

theorem CapsWithin.refl (a : Nat) : CapsWithin a a := fun _ _ h => h

theorem CapsWithin.trans {a b c : Nat} (hab : CapsWithin a b) (hbc : CapsWithin b c) :
    CapsWithin a c := fun i hi h => hbc i hi (hab i hi h)

/-- A mask `VALID_CAPS` lets through has no bit the old one lacks. -/
theorem capsWithin_of_not_VALID_CAPS {caps cap : Nat} (h : VALID_CAPS caps cap = false) :
    CapsWithin caps cap := by
  intro i hi hbit
  have h0 : caps &&& ((2 ^ 32 - 1) ^^^ cap) = 0 := by simpa [VALID_CAPS] using h
  have := congrArg (·.testBit i) h0
  simp only [Nat.testBit_and, Nat.testBit_xor, Nat.testBit_two_pow_sub_one, hbit,
    decide_eq_true hi, Nat.zero_testBit, Bool.true_and] at this
  simpa using this

theorem SysCapSet_within (cap caps : Nat) : CapsWithin (SysCapSet cap caps).2 cap := by
  unfold SysCapSet
  split
  · exact CapsWithin.refl _
  · split
    · exact CapsWithin.refl _
    · next hvalid => exact capsWithin_of_not_VALID_CAPS (by simpa using hvalid)

/-- Of the one-section calls only `SysCapSet` writes the mask. -/
theorem callStep_within (cap : Nat) (u : User) (c : Call) :
    CapsWithin (callStep cap u c).2.1 cap := by
  cases c with
  | SysCapSet caps => exact SysCapSet_within cap caps
  | _ => exact CapsWithin.refl _

/-- Every process of `s` is one of `s'`, with no capability bit more. -/
def ProcsWithin (s s' : CredSys) : Prop :=
  ∀ pid p, s.procs pid = some p → ∃ p', s'.procs pid = some p' ∧ CapsWithin p'.capability p.capability

theorem ProcsWithin.refl (s : CredSys) : ProcsWithin s s :=
  fun _ p hp => ⟨p, hp, CapsWithin.refl _⟩

theorem ProcsWithin.trans {a b c : CredSys} (hab : ProcsWithin a b) (hbc : ProcsWithin b c) :
    ProcsWithin a c := by
  intro pid p hp
  obtain ⟨p₁, hp₁, h₁⟩ := hab pid p hp
  obtain ⟨p₂, hp₂, h₂⟩ := hbc pid p₁ hp₁
  exact ⟨p₂, hp₂, h₂.trans h₁⟩

/-- A state whose processes are those of `s`, each with the same mask,
keeps every process. -/
theorem ProcsWithin.of_caps {s s' : CredSys}
    (h : ∀ pid p, s.procs pid = some p → ∃ p', s'.procs pid = some p' ∧ p'.capability = p.capability) :
    ProcsWithin s s' := by
  intro pid p hp
  obtain ⟨p', hp', hcap⟩ := h pid p hp
  exact ⟨p', hp', hcap ▸ CapsWithin.refl _⟩

/-- One step: no process goes, and none gains a capability. -/
theorem Step.procsWithin (h : Step s e s') : ProcsWithin s s' := by
  cases h with
  | @call pid₀ p₀ u c hp hu =>
      intro pid p hpid
      by_cases hq : pid = pid₀
      · subst hq
        rw [hp] at hpid
        cases hpid
        exact ⟨{ p₀ with capability := (callStep p₀.capability u c).2.1 }, by simp,
          callStep_within _ _ _⟩
      · exact ⟨p, by simp [Function.update_of_ne hq, hpid], CapsWithin.refl _⟩
  | getGroupsRet => exact ProcsWithin.refl _
  | getGroupsOn => exact ProcsWithin.of_caps fun pid p hp => ⟨p, by simpa using hp, rfl⟩
  | getGroupsCopy => exact ProcsWithin.of_caps fun pid p hp => ⟨p, by simpa using hp, rfl⟩
  | setGroupsRet => exact ProcsWithin.refl _
  | setGroupsOn => exact ProcsWithin.of_caps fun pid p hp => ⟨p, by simpa using hp, rfl⟩
  | setGroupsNoMem => exact ProcsWithin.of_caps fun pid p hp => ⟨p, by simpa using hp, rfl⟩
  | @setGroupsCommit _ pid₀ _ _ addr _ p₀ _ _ _ _ hp _ =>
      -- the new `User` replaces the old one; the mask stays
      refine ProcsWithin.of_caps fun pid p hpid => ?_
      by_cases hq : pid = pid₀
      · subst hq
        rw [hp] at hpid
        cases hpid
        exact ⟨{ p₀ with user := addr }, by simp, rfl⟩
      · exact ⟨p, by simp [Function.update_of_ne hq, hpid], rfl⟩
  | forkNoMem => exact ProcsWithin.refl _
  | @fork _ child _ _ _ _ _ hchild _ _ =>
      -- the child is new, so every process of `s` is another one
      refine ProcsWithin.of_caps fun pid p hpid => ⟨p, ?_, rfl⟩
      have hq : pid ≠ child := by rintro rfl; rw [hchild] at hpid; cases hpid
      simp [Function.update_of_ne hq, hpid]

/-- A capability mask never gains a bit: over any run, every process
there at its start is there at its end, with its 32 capability bits
among those it started with. -/
theorem cred_caps_within {s₀ s : CredSys} {evs : List Event} (hrun : Run Step s₀ evs s) :
    ∀ pid p, s₀.procs pid = some p →
      ∃ p', s.procs pid = some p' ∧ CapsWithin p'.capability p.capability :=
  hrun.rel ProcsWithin ProcsWithin.refl (fun _ _ _ => ProcsWithin.trans)
    (fun _ _ _ h => h.procsWithin)

-- ============================================================ IDs

/-- The user IDs `SysSetUserID` leaves to a caller without `CAP_SETUID`. -/
theorem SysSetUserID_of_not_permit {cap : Nat} {u : User} {uid : Int}
    (h : IsCapPermit cap CAP_SETUID = false) : (SysSetUserID cap u uid).2 = u := by
  unfold SysSetUserID
  simp only [h]
  split_ifs <;> first | rfl | contradiction

theorem SysSetRealEffSaveUserID_of_not_permit {cap : Nat} {u : User} {ruid euid suid : Int}
    (h : IsCapPermit cap CAP_SETUID = false) :
    (SysSetRealEffSaveUserID cap u ruid euid suid).2 = u := by
  unfold SysSetRealEffSaveUserID
  split_ifs <;> first | rfl | exact SysSetUserID_of_not_permit h

/-- The group IDs and entries `SysSetGroupID` leaves to a caller without
`CAP_SETGID`. -/
theorem SysSetGroupID_of_not_permit {cap : Nat} {u : User} {gid : Int}
    (h : IsCapPermit cap CAP_SETGID = false) : (SysSetGroupID cap u gid).2 = u := by
  unfold SysSetGroupID
  simp only [h]
  split_ifs <;> first | rfl | contradiction

theorem SysSetRealEffSaveGroupID_of_not_permit {cap : Nat} {u : User} {rgid egid sgid : Int}
    (h : IsCapPermit cap CAP_SETGID = false) :
    (SysSetRealEffSaveGroupID cap u rgid egid sgid).2 = u := by
  unfold SysSetRealEffSaveGroupID
  split_ifs <;> first | rfl | exact SysSetGroupID_of_not_permit h

/-- A user-ID call writes the two user IDs at most. -/
theorem SysSetUserID_shape (cap : Nat) (u : User) (uid : Int) :
    ∃ a b, (SysSetUserID cap u uid).2 = { u with userID := a, effUserID := b } := by
  unfold SysSetUserID
  split_ifs
  · exact ⟨u.userID, u.effUserID, rfl⟩
  · exact ⟨_, _, rfl⟩
  · exact ⟨u.userID, u.effUserID, rfl⟩
  · exact ⟨u.userID, u.effUserID, rfl⟩

theorem SysSetRealEffSaveUserID_shape (cap : Nat) (u : User) (ruid euid suid : Int) :
    ∃ a b, (SysSetRealEffSaveUserID cap u ruid euid suid).2 =
      { u with userID := a, effUserID := b } := by
  unfold SysSetRealEffSaveUserID
  split_ifs <;> first | exact ⟨u.userID, u.effUserID, rfl⟩ | exact SysSetUserID_shape _ _ _

/-- A group-ID call writes the two group IDs and the entries at most. -/
theorem SysSetGroupID_shape (cap : Nat) (u : User) (gid : Int) :
    ∃ g e gs, (SysSetGroupID cap u gid).2 = { u with gid := g, effGid := e, groups := gs } := by
  unfold SysSetGroupID
  split_ifs
  · exact ⟨u.gid, u.effGid, u.groups, rfl⟩
  · dsimp only
    split
    · exact ⟨_, _, _, rfl⟩
    · exact ⟨_, _, u.groups, rfl⟩
  · exact ⟨u.gid, u.effGid, u.groups, rfl⟩
  · exact ⟨u.gid, u.effGid, u.groups, rfl⟩

theorem SysSetRealEffSaveGroupID_shape (cap : Nat) (u : User) (rgid egid sgid : Int) :
    ∃ g e gs, (SysSetRealEffSaveGroupID cap u rgid egid sgid).2 =
      { u with gid := g, effGid := e, groups := gs } := by
  unfold SysSetRealEffSaveGroupID
  split_ifs <;> first | exact ⟨u.gid, u.effGid, u.groups, rfl⟩ | exact SysSetGroupID_shape _ _ _

/-- A one-section call by a process without `CAP_SETUID` changes no user
ID, and by one without `CAP_SETGID` no group ID and no entry. -/
theorem callStep_ids_of_not_permit (cap : Nat) (u : User) (c : Call) :
    (IsCapPermit cap CAP_SETUID = false →
      (callStep cap u c).2.2.userID = u.userID ∧ (callStep cap u c).2.2.effUserID = u.effUserID) ∧
    (IsCapPermit cap CAP_SETGID = false →
      (callStep cap u c).2.2.gid = u.gid ∧ (callStep cap u c).2.2.effGid = u.effGid ∧
        (callStep cap u c).2.2.groups = u.groups) := by
  cases c with
  | SysSetUserID uid =>
      -- the capability guards the user IDs; the group fields are not written
      obtain ⟨a, b, hs⟩ := SysSetUserID_shape cap u uid
      refine ⟨fun h => by simp [callStep, SysSetUserID_of_not_permit h], fun _ => ?_⟩
      simp [callStep, hs]
  | SysSetRealEffUserID ruid euid =>
      obtain ⟨a, b, hs⟩ := SysSetRealEffSaveUserID_shape cap u ruid euid (-1)
      refine ⟨fun h => by simp [callStep, SysSetRealEffUserID,
        SysSetRealEffSaveUserID_of_not_permit h], fun _ => ?_⟩
      simp [callStep, SysSetRealEffUserID, hs]
  | SysSetRealEffSaveUserID ruid euid suid =>
      obtain ⟨a, b, hs⟩ := SysSetRealEffSaveUserID_shape cap u ruid euid suid
      refine ⟨fun h => by simp [callStep, SysSetRealEffSaveUserID_of_not_permit h], fun _ => ?_⟩
      simp [callStep, hs]
  | SysSetGroupID gid =>
      obtain ⟨g, e, gs, hs⟩ := SysSetGroupID_shape cap u gid
      refine ⟨fun _ => ?_, fun h => by simp [callStep, SysSetGroupID_of_not_permit h]⟩
      simp [callStep, hs]
  | SysSetRealEffGroupID rgid egid =>
      obtain ⟨g, e, gs, hs⟩ := SysSetRealEffSaveGroupID_shape cap u rgid egid (-1)
      refine ⟨fun _ => ?_, fun h => by simp [callStep, SysSetRealEffGroupID,
        SysSetRealEffSaveGroupID_of_not_permit h]⟩
      simp [callStep, SysSetRealEffGroupID, hs]
  | SysSetRealEffSaveGroupID rgid egid sgid =>
      obtain ⟨g, e, gs, hs⟩ := SysSetRealEffSaveGroupID_shape cap u rgid egid sgid
      refine ⟨fun _ => ?_, fun h => by simp [callStep, SysSetRealEffSaveGroupID_of_not_permit h]⟩
      simp [callStep, hs]
  | SysCapSet caps => exact ⟨fun _ => ⟨rfl, rfl⟩, fun _ => ⟨rfl, rfl, rfl⟩⟩

-- ============================================================ room

/-- Every live `User` holds exactly `groupNumber` entries. -/
def UsersFit (s : CredSys) : Prop :=
  ∀ a u, s.users a = some u → u.groups.length = u.groupNumber

theorem SysSetGroupID.loop_length {oldGid gid : Nat} :
    ∀ n {l l' : List Nat}, SysSetGroupID.loop oldGid gid n l = some l' → l'.length = l.length := by
  intro n
  induction n with
  | zero => intro l l' h; cases h
  | succ n ih =>
      intro l l' h
      cases l with
      | nil => cases h
      | cons x l =>
          unfold SysSetGroupID.loop at h
          split at h
          · cases h; rfl
          · obtain ⟨l₁, h₁, rfl⟩ := Option.map_eq_some_iff.1 h
            simp [ih h₁]

/-- `SysSetGroupID` keeps the count and the room. -/
theorem SysSetGroupID_fits (cap : Nat) (u : User) (gid : Int) :
    (SysSetGroupID cap u gid).2.groupNumber = u.groupNumber ∧
      (SysSetGroupID cap u gid).2.groups.length = u.groups.length := by
  unfold SysSetGroupID
  split_ifs
  · exact ⟨rfl, rfl⟩
  · dsimp only
    split
    · next groups hloop => exact ⟨rfl, SysSetGroupID.loop_length _ hloop⟩
    · exact ⟨rfl, rfl⟩
  · exact ⟨rfl, rfl⟩
  · exact ⟨rfl, rfl⟩

theorem SysSetRealEffSaveGroupID_fits (cap : Nat) (u : User) (rgid egid sgid : Int) :
    (SysSetRealEffSaveGroupID cap u rgid egid sgid).2.groupNumber = u.groupNumber ∧
      (SysSetRealEffSaveGroupID cap u rgid egid sgid).2.groups.length = u.groups.length := by
  unfold SysSetRealEffSaveGroupID
  split_ifs <;> first | exact ⟨rfl, rfl⟩ | exact SysSetGroupID_fits _ _ _

/-- A one-section call keeps the count and the room of the `User`. -/
theorem callStep_fits (cap : Nat) (u : User) (c : Call) :
    (callStep cap u c).2.2.groupNumber = u.groupNumber ∧
      (callStep cap u c).2.2.groups.length = u.groups.length := by
  cases c with
  | SysSetUserID uid =>
      obtain ⟨a, b, hs⟩ := SysSetUserID_shape cap u uid
      simp [callStep, hs]
  | SysSetRealEffUserID ruid euid =>
      obtain ⟨a, b, hs⟩ := SysSetRealEffSaveUserID_shape cap u ruid euid (-1)
      simp [callStep, SysSetRealEffUserID, hs]
  | SysSetRealEffSaveUserID ruid euid suid =>
      obtain ⟨a, b, hs⟩ := SysSetRealEffSaveUserID_shape cap u ruid euid suid
      simp [callStep, hs]
  | SysSetGroupID gid => exact SysSetGroupID_fits cap u gid
  | SysSetRealEffGroupID rgid egid => exact SysSetRealEffSaveGroupID_fits cap u rgid egid (-1)
  | SysSetRealEffSaveGroupID rgid egid sgid => exact SysSetRealEffSaveGroupID_fits cap u rgid egid sgid
  | SysCapSet caps => exact ⟨rfl, rfl⟩

/-- `SetGroups` sizes its object for the count it records. -/
theorem SetGroups_fits (u : User) (listSize : Nat) (safeList : Option (List Nat)) (n : Nat) :
    (SetGroups u listSize safeList n).groups.length = (SetGroups u listSize safeList n).groupNumber := by
  unfold SetGroups memcpyList
  cases safeList <;> split_ifs <;> simp

/-- Every step keeps every `User` fitting its count. -/
theorem UsersFit.step (h : UsersFit s) (hs : Step s e s') : UsersFit s' := by
  cases hs with
  | @call pid₀ p₀ u c hp hu =>
      intro a v hv
      simp only [CredSys.setUser_users, CredSys.setProc_users, Function.update_apply] at hv
      split_ifs at hv with ha
      · -- the caller's `User`, rewritten by the call
        cases hv
        obtain ⟨hn, hl⟩ := callStep_fits p₀.capability u c
        rw [hn, hl]
        exact h _ _ hu
      · exact h a v hv
  | getGroupsRet => exact h
  | getGroupsOn => exact fun a v hv => h a v hv
  | getGroupsCopy => exact fun a v hv => h a v hv
  | setGroupsRet => exact h
  | setGroupsOn => exact fun a v hv => h a v hv
  | setGroupsNoMem => exact fun a v hv => h a v hv
  | @setGroupsCommit _ _ listSize n addr safeList p₀ u _ _ _ _ _ =>
      intro a v hv
      simp only [CredSys.setPending_users, CredSys.setUser_users, CredSys.setProc_users,
        Function.update_apply] at hv
      -- the caller's old `User` is gone, so two cases are left
      split_ifs at hv with hold hnew
      · -- the new `User`
        cases hv
        exact SetGroups_fits u listSize safeList n
      · exact h a v hv
  | forkNoMem => exact h
  | @fork _ _ addr _ u _ hu _ _ _ =>
      intro a v hv
      simp only [CredSys.setProc_users, CredSys.setUser_users, Function.update_apply] at hv
      split_ifs at hv with ha
      · -- the child's copy, with room for the parent's count
        cases hv
        simp [OsCopyUser, h _ _ hu]
      · exact h a v hv

theorem UsersFit.init (pid user : Nat) : UsersFit (OsInitProcess pid user) := by
  intro a u hu
  simp only [OsInitProcess] at hu
  split_ifs at hu
  cases hu
  rfl

/-- In every state reached from the first process, every `User` holds
exactly `groupNumber` entries. -/
theorem cred_users_fit {pid user : Nat} {evs : List Event} {s : CredSys}
    (hrun : Run Step (OsInitProcess pid user) evs s) : UsersFit s :=
  hrun.inv UsersFit (fun _ _ _ h hs => h.step hs) (UsersFit.init pid user)

-- ============================================================ races

/-- `GetGroups` against a `SysSetGroups` of another thread. Process 1
starts as `OsInitProcess` makes it. Thread 1 sets the groups `[5, 6]`
(a `User` of three entries at `200`); thread 2's `GetGroups(3, list)`
reads `groupNumber = 3` and takes its buffer; thread 1 sets no groups
(a `User` of one entry at `300`, the one at `200` freed); thread 2 then
copies three entries from the `User` at `300`, which holds one. -/
theorem cred_get_groups_overread :
    ∃ s u, Run Step (OsInitProcess 1 100)
      [.setGroups 1 1 2 [5, 6] false true true, .setGroupsCommit 1 200,
       .getGroups 2 1 3 false true, .setGroups 1 1 0 [] false true true,
       .setGroupsCommit 1 300, .getGroupsCopy 2 300 3 true] s ∧
      s.users 300 = some u ∧ u.groupNumber = 1 ∧ u.groups.length = 1 := by
  have r₁ : Run Step (OsInitProcess 1 100) [.setGroups 1 1 2 [5, 6] false true true] _ :=
    Run.nil.snoc (Step.setGroupsOn rfl rfl rfl rfl)
  have r₂ : Run Step (OsInitProcess 1 100)
      [.setGroups 1 1 2 [5, 6] false true true, .setGroupsCommit 1 200] _ :=
    r₁.snoc (Step.setGroupsCommit rfl (by decide) rfl rfl rfl)
  -- thread 2 reads the count of the `User` at `200`
  have r₃ : Run Step (OsInitProcess 1 100)
      [.setGroups 1 1 2 [5, 6] false true true, .setGroupsCommit 1 200,
       .getGroups 2 1 3 false true] _ :=
    r₂.snoc (Step.getGroupsOn rfl rfl rfl rfl)
  have r₄ : Run Step (OsInitProcess 1 100)
      [.setGroups 1 1 2 [5, 6] false true true, .setGroupsCommit 1 200,
       .getGroups 2 1 3 false true, .setGroups 1 1 0 [] false true true] _ :=
    r₃.snoc (Step.setGroupsOn rfl rfl rfl rfl)
  have r₅ : Run Step (OsInitProcess 1 100)
      [.setGroups 1 1 2 [5, 6] false true true, .setGroupsCommit 1 200,
       .getGroups 2 1 3 false true, .setGroups 1 1 0 [] false true true,
       .setGroupsCommit 1 300] _ :=
    r₄.snoc (Step.setGroupsCommit rfl (by decide) rfl rfl rfl)
  -- and copies from the `User` at `300`
  have r₆ : Run Step (OsInitProcess 1 100)
      [.setGroups 1 1 2 [5, 6] false true true, .setGroupsCommit 1 200,
       .getGroups 2 1 3 false true, .setGroups 1 1 0 [] false true true,
       .setGroupsCommit 1 300, .getGroupsCopy 2 300 3 true] _ :=
    r₅.snoc (@Step.getGroupsCopy _ 2 1 3 ⟨300, CAPABILITY_INIT_STAT⟩ true rfl rfl)
  exact ⟨_, _, r₆, rfl, rfl, rfl⟩

/-- `SysSetGroups` against a `SysSetGroupID` of another thread. Thread 1
of process 1 (group `0`) sets the groups `[0]`: the list holds its
`gid`, so no entry is added. Before `SetGroups` runs, thread 2 sets the
group ID to `5`. The `User` installed then has `gid = 5` and the one
entry `0`. -/
theorem cred_set_groups_stale_gid :
    ∃ s u, Run Step (OsInitProcess 1 100)
      [.setGroups 1 1 1 [0] false true true, .call 1 (.SysSetGroupID 5) 0,
       .setGroupsCommit 1 200] s ∧
      s.users 200 = some u ∧ u.gid = 5 ∧ u.groups = [0] := by
  have r₁ : Run Step (OsInitProcess 1 100) [.setGroups 1 1 1 [0] false true true] _ :=
    Run.nil.snoc (Step.setGroupsOn rfl rfl rfl rfl)
  have r₂ : Run Step (OsInitProcess 1 100)
      [.setGroups 1 1 1 [0] false true true, .call 1 (.SysSetGroupID 5) 0] _ :=
    r₁.snoc (Step.call_ret (.SysSetGroupID 5) rfl rfl rfl)
  have r₃ : Run Step (OsInitProcess 1 100)
      [.setGroups 1 1 1 [0] false true true, .call 1 (.SysSetGroupID 5) 0,
       .setGroupsCommit 1 200] _ :=
    r₂.snoc (Step.setGroupsCommit rfl (by decide) rfl rfl rfl)
  exact ⟨_, _, r₃, rfl, rfl, rfl⟩

end LiteOsA.Cred
