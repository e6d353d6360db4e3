/-
Attachment accounting of the shared-memory segments, and where it
breaks.

A segment counts its attachments in `shm_nattch`: `ShmAt` and
`OsShmFork` add one, `ShmDt` and `OsShmRegionFree` (a region freed by
`munmap`, by a fixed mapping over it, or at exit) take one, and a
segment marked by `IPC_RMID` is to be freed with its last attachment.
The detaching calls find the segment through `ShmFindSeg`, which
refuses a segment marked `SHM_SEG_REMOVE`, so that branch of
`ShmDetach` is never reached from them: once `IPC_RMID` has marked a
segment with attachments, no call changes it again
(`ShmCtl_rmid_attached_kept`), although its regions still go away.
`ShmDt` takes the region out of the caller's tree and page table before
it looks the segment up, and fails afterwards with the region gone
(`ShmDt_refused`); it does so for any region at the address, shared
memory or not.

`shm_removed_segment_never_freed` runs it: a segment is created,
attached, removed and detached; no region is left in any space, the
segment still counts one attachment and holds its page, and no later
call frees it.
-/
import LiteOsA.Vm.Proofs.Frame

namespace LiteOsA.Vm

open LiteOsA.Cred (User toInt32 OsCreateUser)

@[simp] theorem ShmFindSeg_setSpace (s : VmSys) (pid : Nat) (space : LosVmSpace) (shmid : Int) :
    ShmFindSeg (s.setSpace pid space) shmid = ShmFindSeg s shmid := rfl

-- ============================================================ detach

/-- `ShmDt` at the base of a region whose segment `ShmFindSeg` refuses:
the call fails, yet the region has left the caller's tree, and no
segment changed. -/
theorem ShmDt_refused {s : VmSys} {cur shmaddr e : Nat} {region : LosVmMapRegion}
    (hal : shmaddr &&& (PAGE_SIZE - 1) = 0) (hfind : LOS_RegionFind (s.spaces cur) shmaddr = some region)
    (hbase : region.base = shmaddr) (hseg : ShmFindSeg s (toInt32 region.shmid) = .error e) :
    (ShmDt s cur shmaddr).1 = -(EINVAL : Int) ∧
      ((ShmDt s cur shmaddr).2.spaces cur).regions = (s.spaces cur).regions.filter (fun r => r.id ≠ region.id) ∧
      (ShmDt s cur shmaddr).2.segs = s.segs := by
  unfold ShmDt
  simp only [hal, hfind, hbase, ShmFindSeg_setSpace, hseg]
  simp

-- ============================================================ removal

/-- The status bits after `IPC_RMID` of a segment that is not free:
marked for removal. -/
theorem removed_of_rmid {seg : ShmIdSource} (h : seg.status &&& SHM_SEG_FREE = 0) :
    Removed { seg with status := seg.status ||| SHM_SEG_REMOVE } := by
  constructor
  · show (seg.status ||| SHM_SEG_REMOVE) &&& SHM_SEG_REMOVE ≠ 0
    rw [Nat.and_or_distrib_right]
    intro h0
    exact absurd (Nat.or_eq_zero_iff.mp h0).2 (by decide)
  · show (seg.status ||| SHM_SEG_REMOVE) &&& SHM_SEG_FREE = 0
    rw [Nat.and_or_distrib_right, h]
    decide

/-- `IPC_RMID` of a segment with attachments, by a caller allowed to:
the segment is marked, and nothing else changes. -/
theorem ShmCtl_rmid_attached {s : VmSys} {user : User} {shmid : Int} {buf : ShmBuf} {i : Nat}
    (hfind : ShmFindSeg s shmid = .ok i) (hperm : ShmPermCheck user (s.segs i) SHM_M = 0)
    (hatt : (s.segs i).ds.nattch ≠ 0) :
    ShmCtl s user shmid IPC_RMID buf =
      (0, s.setSeg i { s.segs i with status := (s.segs i).status ||| SHM_SEG_REMOVE }) := by
  have hcmd : IPC_RMID &&& ((2 ^ 32 - 1) ^^^ IPC_64) = IPC_RMID := by decide
  unfold ShmCtl
  simp only [hcmd, hfind]
  simp [hperm, hatt, IPC_RMID, IPC_INFO, SHM_INFO, IPC_STAT, SHM_STAT, IPC_SET]

/-- Once `IPC_RMID` has marked a segment with attachments, no call
changes it again: it is never freed, and its attachment count stays
whatever detaches follow. -/
theorem ShmCtl_rmid_attached_kept {s : VmSys} {user : User} {shmid : Int} {buf : ShmBuf} {i : Nat}
    (hfind : ShmFindSeg s shmid = .ok i) (hperm : ShmPermCheck user (s.segs i) SHM_M = 0)
    (hatt : (s.segs i).ds.nattch ≠ 0) :
    Removed ((ShmCtl s user shmid IPC_RMID buf).2.segs i) ∧
      ∀ l s', Run Step (ShmCtl s user shmid IPC_RMID buf).2 l s' →
        s'.segs i = (ShmCtl s user shmid IPC_RMID buf).2.segs i := by
  rw [ShmCtl_rmid_attached hfind hperm hatt]
  have hrem : Removed ((s.setSeg i { s.segs i with status := (s.segs i).status ||| SHM_SEG_REMOVE }).segs i) := by
    simpa using removed_of_rmid (ShmFindSeg_ok hfind).1
  exact ⟨hrem, fun l s' h => run_removed_kept h i hrem⟩

/-- A segment created, attached at the start of the mapping area,
removed and detached by process `1`: the detach fails after taking the
region away, so no space keeps a region while the segment counts one
attachment and holds its page, and no later call frees it. -/
theorem shm_removed_segment_never_freed :
    ∃ s, Run Step (vmInit [100])
        [.shmget 1 (OsCreateUser 0 0 1) IPC_PRIVATE 4096 (IPC_CREAT ||| 0o600) 0,
         .shmat 1 (OsCreateUser 0 0 1) 0 0 0 USER_MAP_BASE,
         .shmctl 1 (OsCreateUser 0 0 1) 0 IPC_RMID ⟨true, none, true⟩ 0,
         .shmdt 1 USER_MAP_BASE (-(EINVAL : Int))] s ∧
      (∀ pid, (s.spaces pid).regions = []) ∧ (s.segs 0).ds.nattch = 1 ∧
      (s.segs 0).status = SHM_SEG_USED ||| SHM_SEG_REMOVE ∧ (s.segs 0).node = [100] ∧
      ∀ l s', Run Step s l s' → s'.segs 0 = s.segs 0 := by
  have r₁ : Run Step (vmInit [100]) [.shmget 1 (OsCreateUser 0 0 1) IPC_PRIVATE 4096 (IPC_CREAT ||| 0o600) 0] _ :=
    Run.nil.snoc (Step.shmget rfl)
  have r₂ := r₁.snoc (@Step.shmat_ret _ 1 (OsCreateUser 0 0 1) 0 0 0 USER_MAP_BASE (by decide))
  have r₃ := r₂.snoc (@Step.shmctl_ret _ 1 (OsCreateUser 0 0 1) 0 IPC_RMID ⟨true, none, true⟩ 0 (by decide))
  -- the detach: `ShmFindSeg` refuses the marked segment after the region is gone
  have r₄ := r₃.snoc (@Step.shmdt_ret _ 1 USER_MAP_BASE (-(EINVAL : Int)) (by decide))
  -- every call was process `1`'s, so the other spaces are as `vmInit` left them
  have hframe : Frame (· = 1) (vmInit [100]) _ := run_frame r₄ (by
    intro e he q hq
    simp only [List.nil_append, List.cons_append, List.mem_cons, List.not_mem_nil,
      or_false] at he
    rcases he with rfl | rfl | rfl | rfl <;> exact hq)
  refine ⟨_, r₄, fun pid => ?_, by decide, by decide, by decide,
    fun l s' h => run_removed_kept h 0 (by decide)⟩
  by_cases hpid : pid = 1
  · subst hpid
    decide
  · rw [hframe.spaces pid hpid]
    rfl

end LiteOsA.Vm
