/-
How `ShmGet` resolves a key, and where it dereferences `NULL`.

`ShmFindSegByKey` takes the first segment whose `SHM_SEG_USED` bit is
set and whose key matches; `ShmFindSeg` then refuses a segment that is
free or marked `SHM_SEG_REMOVE`, and `ShmGet` hands its `NULL` to
`ShmPermCheck`. `ShmGet_none_iff` says exactly when that happens: the
flags pass the first check, the key is not `IPC_PRIVATE`, and the
segment found by key is free or marked for removal.

`IPC_RMID` of a segment that is still attached only adds the
`SHM_SEG_REMOVE` bit, so the segment keeps its `SHM_SEG_USED` bit and
its key and `ShmFindSegByKey` finds what it found before
(`ShmFindSegByKey_rmid`). Every later `ShmGet` of that key then
dereferences `NULL` (`ShmGet_after_rmid`), with or without
`IPC_CREAT`, until the last detach.
-/
import LiteOsA.Vm.Proofs.ShmAttach

namespace LiteOsA.Vm

open LiteOsA.Cred (User OsCreateUser)

/-- What `ShmFindSegByKey` finds is a segment of the table, in use,
with the key. -/
theorem ShmFindSegByKey_some {s : VmSys} {key : Int} {i : Nat} (h : ShmFindSegByKey s key = some i) :
    i < SHM_MNI ∧ (s.segs i).status &&& SHM_SEG_USED ≠ 0 ∧ (s.segs i).ds.perm.key = key := by
  have hmem := List.mem_range.1 (List.mem_of_find?_eq_some h)
  have hp := List.find?_some h
  simp only [ne_eq, decide_eq_true_eq] at hp
  exact ⟨hmem, hp⟩

/-- `ShmFindSeg` of an index of the table refuses exactly a free segment
and one marked for removal. -/
theorem ShmFindSeg_error_iff {s : VmSys} {i : Nat} (hi : i < SHM_MNI) :
    (∃ e, ShmFindSeg s i = .error e) ↔
      (s.segs i).status &&& SHM_SEG_FREE ≠ 0 ∨ (s.segs i).status &&& SHM_SEG_REMOVE ≠ 0 := by
  have hlt : ¬((i : Int) < 0 ∨ (i : Int) ≥ SHM_MNI) := by omega
  simp only [ShmFindSeg, hlt, if_false, Int.toNat_natCast]
  split_ifs with h
  · exact ⟨fun _ => h, fun _ => ⟨_, rfl⟩⟩
  · simp only [exists_false, false_iff]
    exact h

/-- `ShmGet` dereferences `NULL` exactly when the flags pass the first
check, the key is not `IPC_PRIVATE`, and the segment `ShmFindSegByKey`
finds is free or marked for removal. -/
theorem ShmGet_none_iff {s : VmSys} {cur : Nat} {user : User} {key : Int} {size shmflg : Nat} :
    ShmGet s cur user key size shmflg = none ↔
      ¬(shmflg &&& IPC_CREAT = 0 ∧ shmflg &&& IPC_EXCL ≠ 0) ∧ key ≠ IPC_PRIVATE ∧
        ∃ i, ShmFindSegByKey s key = some i ∧
          ((s.segs i).status &&& SHM_SEG_FREE ≠ 0 ∨ (s.segs i).status &&& SHM_SEG_REMOVE ≠ 0) := by
  unfold ShmGet
  by_cases hflg : shmflg &&& IPC_CREAT = 0 ∧ shmflg &&& IPC_EXCL ≠ 0
  · simp [hflg]
  rw [if_neg hflg]
  by_cases hkey : key = IPC_PRIVATE
  · simp [hkey]
  rw [if_neg hkey]
  cases hfind : ShmFindSegByKey s key with
  | none =>
    -- no segment has the key: `ShmGet` answers
    simp only [reduceCtorEq, false_and, exists_false, and_false, iff_false]
    split <;> simp
  | some i =>
    have hi := (ShmFindSegByKey_some hfind).1
    simp only [Option.some.injEq, exists_eq_left', hflg, ne_eq, hkey, not_false_eq_true, true_and]
    cases hseg : ShmFindSeg s i with
    | error e => simpa using (ShmFindSeg_error_iff hi).1 ⟨e, hseg⟩
    | ok j =>
      -- `ShmFindSeg` accepts it: `ShmGet` answers
      have hok : ¬((s.segs i).status &&& SHM_SEG_FREE ≠ 0 ∨ (s.segs i).status &&& SHM_SEG_REMOVE ≠ 0) :=
        fun hbad => by
          obtain ⟨e, he⟩ := (ShmFindSeg_error_iff hi).2 hbad
          rw [hseg] at he
          cases he
      simp only [hok]
      split_ifs <;> simp

/-- `IPC_RMID` of an attached segment leaves its `SHM_SEG_USED` bit and
its key, so `ShmFindSegByKey` finds what it found before. -/
theorem ShmFindSegByKey_rmid (s : VmSys) (i : Nat) (key : Int) :
    ShmFindSegByKey (s.setSeg i { s.segs i with status := (s.segs i).status ||| SHM_SEG_REMOVE }) key =
      ShmFindSegByKey s key := by
  have hused : ∀ st : Nat, (st ||| SHM_SEG_REMOVE) &&& SHM_SEG_USED = st &&& SHM_SEG_USED := by
    intro st
    rw [Nat.and_or_distrib_right, show SHM_SEG_REMOVE &&& SHM_SEG_USED = 0 by decide, Nat.or_zero]
  unfold ShmFindSegByKey
  congr 1
  funext j
  by_cases hj : j = i
  · subst hj
    simp [hused]
  · simp [Function.update_of_ne hj]

/-- After `IPC_RMID` of an attached segment that is the one its key
finds, every `ShmGet` of the key whose flags pass the first check
dereferences `NULL`, whatever the size, the caller and `IPC_CREAT`. -/
theorem ShmGet_after_rmid {s : VmSys} {user user' : User} {shmid key : Int} {buf : ShmBuf} {i cur size shmflg : Nat}
    (hfind : ShmFindSeg s shmid = .ok i) (hperm : ShmPermCheck user (s.segs i) SHM_M = 0)
    (hatt : (s.segs i).ds.nattch ≠ 0) (hkey : ShmFindSegByKey s key = some i) (hpriv : key ≠ IPC_PRIVATE)
    (hflg : ¬(shmflg &&& IPC_CREAT = 0 ∧ shmflg &&& IPC_EXCL ≠ 0)) :
    ShmGet (ShmCtl s user shmid IPC_RMID buf).2 cur user' key size shmflg = none := by
  rw [ShmCtl_rmid_attached hfind hperm hatt, ShmGet_none_iff]
  refine ⟨hflg, hpriv, i, by rw [ShmFindSegByKey_rmid, hkey], .inr ?_⟩
  simp only [VmSys.setSeg_segs, Function.update_self]
  rw [Nat.and_or_distrib_right]
  intro h0
  exact absurd (Nat.or_eq_zero_iff.mp h0).2 (by decide)

/-- Process `1` creates a segment for key `5`, attaches it and removes
it; the segment stays in use with its key, and process `1`'s next
`shmget` of key `5`, even with `IPC_CREAT`, hands `ShmPermCheck` the
`NULL` that `ShmFindSeg` returns. -/
theorem shmget_removed_key_derefs_null :
    ∃ s, Run Step (vmInit [100])
        [.shmget 1 (OsCreateUser 0 0 1) 5 4096 (IPC_CREAT ||| 0o600) 0,
         .shmat 1 (OsCreateUser 0 0 1) 0 0 0 USER_MAP_BASE,
         .shmctl 1 (OsCreateUser 0 0 1) 0 IPC_RMID ⟨true, none, true⟩ 0] s ∧
      ShmFindSegByKey s 5 = some 0 ∧
      ShmGet s 1 (OsCreateUser 0 0 1) 5 4096 (IPC_CREAT ||| 0o600) = none := by
  have r₁ : Run Step (vmInit [100]) [.shmget 1 (OsCreateUser 0 0 1) 5 4096 (IPC_CREAT ||| 0o600) 0] _ :=
    Run.nil.snoc (Step.shmget rfl)
  have r₂ := r₁.snoc (@Step.shmat_ret _ 1 (OsCreateUser 0 0 1) 0 0 0 USER_MAP_BASE (by decide))
  have r₃ := r₂.snoc (@Step.shmctl_ret _ 1 (OsCreateUser 0 0 1) 0 IPC_RMID ⟨true, none, true⟩ 0 (by decide))
  exact ⟨_, r₃, by decide, by decide⟩

end LiteOsA.Vm
