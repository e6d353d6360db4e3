/-
What `mprotect` leaves in the region flags.

`LOS_DoMprotect` rebuilds the flags of the region it changes from
`prot` alone: `OsCvtProtFlagsToRegionFlags(prot, 0)`, which sets the
user and permission bits, plus `VM_MAP_REGION_FLAG_SHARED` when the
region had it (`LOS_DoMprotect_ok`). Every other bit of the old flags
is lost, whatever the region was: the shared-memory, mmap, private and
fixed bits among them (`LOS_DoMprotect_drops_flags`).

The region layer reads those bits later: `LOS_RegionFree` releases a
region through `OsShmRegionFree` only when `VM_MAP_REGION_FLAG_SHM` is
set. `mprotect_drops_shm_flag` runs it: after `mprotect` of an attached
segment, `munmap` of it takes the anonymous path, and the segment keeps
counting an attachment no space has.
-/
import LiteOsA.Vm.Mprotect
import LiteOsA.Vm.Call
import LiteOsA.Lib.Run

namespace LiteOsA.Vm

open LiteOsA.Cred (OsCreateUser)

/-- The region bits that `mprotect` is to keep and that the rebuilt
flags never hold. -/
def mprotectLostFlags : Nat :=
  VM_MAP_REGION_FLAG_PRIVATE ||| VM_MAP_REGION_FLAG_MMAP ||| VM_MAP_REGION_FLAG_SHM |||
    VM_MAP_REGION_FLAG_FIXED

/-- The flags `OsCvtProtFlagsToRegionFlags` builds without mapping flags
hold none of those bits. -/
theorem OsCvtProtFlagsToRegionFlags_lost (prot : Nat) :
    OsCvtProtFlagsToRegionFlags prot 0 &&& mprotectLostFlags = 0 := by
  unfold OsCvtProtFlagsToRegionFlags
  -- without mapping flags only the three permission tests remain
  simp only [Nat.zero_and, ne_eq, not_true_eq_false, if_false, Nat.or_zero]
  split_ifs <;> decide

/-- Rewriting the flags of the region `OsFindRegion` finds leaves it the
region found, with its new flags. -/
theorem OsFindRegion_map_flags {addr len f : Nat} {r : LosVmMapRegion} :
    ∀ {l : List LosVmMapRegion}, OsFindRegion l addr len = some r →
      OsFindRegion (l.map fun x => if x.id = r.id then { r with regionFlags := f } else x) addr len =
        some { r with regionFlags := f }
  | [], h => by simp [OsFindRegion] at h
  | x :: l, h => by
    unfold OsFindRegion at h ⊢
    rw [List.map_cons, List.find?_cons]
    rw [List.find?_cons] at h
    by_cases hx : OsRegionRbCmpKeyFn addr len x.base x.size = .RB_EQUAL
    · -- the region found is the first that matches
      simp only [hx, decide_true, Option.some.injEq] at h
      subst h
      simp [hx]
    · simp only [hx, decide_false] at h
      by_cases hid : x.id = r.id
      · simp only [hid, if_true]
        have hr := List.find?_some h
        simp only [decide_eq_true_eq] at hr
        simp [hr]
      · simp only [hid, if_false, hx, decide_false]
        exact OsFindRegion_map_flags h

theorem LOS_RegionFind_setRegion {space : LosVmSpace} {addr f : Nat} {r : LosVmMapRegion}
    (h : LOS_RegionFind space addr = some r) :
    LOS_RegionFind (setRegion space { r with regionFlags := f }) addr = some { r with regionFlags := f } :=
  @OsFindRegion_map_flags addr 1 f r space.regions h

/-- The flags `LOS_DoMprotect` writes, for the region `region` it found
first: the permission bits of `prot` and the region's shared bit. -/
def mprotectFlags (prot : Nat) (region : LosVmMapRegion) : Nat :=
  OsCvtProtFlagsToRegionFlags prot 0 |||
    (if region.regionFlags &&& VM_MAP_REGION_FLAG_SHARED ≠ 0 then VM_MAP_REGION_FLAG_SHARED else 0)

/-- `LOS_DoMprotect` that returns `0` found a region at `vaddr`, split
the space (or not) into some `s₁`, and rewrote the flags of the region
it then found at `vaddr` in `s₁`. -/
theorem LOS_DoMprotect_ok {s : VmSys} {cur vaddr len prot : Nat}
    (h : (LOS_DoMprotect s cur vaddr len prot).1 = 0) :
    ∃ (region : LosVmMapRegion) (s₁ : VmSys) (r : LosVmMapRegion),
      LOS_RegionFind (s.spaces cur) vaddr = some region ∧
      LOS_RegionFind (s₁.spaces cur) vaddr = some r ∧
      (LOS_DoMprotect s cur vaddr len prot).2 =
        s₁.setSpace cur (setRegion (s₁.spaces cur) { r with regionFlags := mprotectFlags prot region }) := by
  unfold LOS_DoMprotect at h ⊢
  split at h
  · simp [EINVAL] at h
  rename_i region hf
  simp only [hf]
  -- every refusal returns a negative errno
  by_cases h₁ : (!IS_ALIGNED vaddr PAGE_SIZE) = true ∨ vaddr > u32 (vaddr + len)
  · rw [if_pos h₁] at h
    simp [EINVAL] at h
  rw [if_neg h₁] at h ⊢
  by_cases h₂ : prot &&& ((2 ^ 32 - 1) ^^^ (PROT_READ ||| PROT_WRITE ||| PROT_EXEC)) ≠ 0
  · rw [if_pos h₂] at h
    simp [EINVAL] at h
  rw [if_neg h₂] at h ⊢
  by_cases h₃ : region.regionFlags &&& VM_MAP_REGION_FLAG_VDSO ≠ 0 ∨
      region.regionFlags &&& VM_MAP_REGION_FLAG_HEAP ≠ 0
  · rw [if_pos h₃] at h
    simp [EPERM] at h
  rw [if_neg h₃] at h ⊢
  dsimp only at h ⊢
  by_cases h₄ : u32 (region.base + region.size) < u32 (vaddr + LOS_Align len PAGE_SIZE)
  · rw [if_pos h₄] at h
    simp [EINVAL] at h
  rw [if_neg h₄] at h ⊢
  generalize (if region.size > LOS_Align len PAGE_SIZE then
    (OsVmRegionAdjustWith (LOS_UnMMapN unmapDepth) s cur cur vaddr (LOS_Align len PAGE_SIZE)).2 else s) = s₁ at h ⊢
  split at h
  · simp [ENOMEM] at h
  · rename_i r hr
    exact ⟨region, s₁, r, rfl, hr, rfl⟩

/-- The region `mprotect` changes loses its private, mmap, shared-memory
and fixed bits. -/
theorem LOS_DoMprotect_drops_flags {s : VmSys} {cur vaddr len prot : Nat}
    (h : (LOS_DoMprotect s cur vaddr len prot).1 = 0) :
    ∃ r, LOS_RegionFind ((LOS_DoMprotect s cur vaddr len prot).2.spaces cur) vaddr = some r ∧
      r.regionFlags &&& mprotectLostFlags = 0 := by
  obtain ⟨region, s₁, r, -, hr, heq⟩ := LOS_DoMprotect_ok h
  refine ⟨_, by rw [heq]; simpa using LOS_RegionFind_setRegion hr, ?_⟩
  have hshared : VM_MAP_REGION_FLAG_SHARED &&& mprotectLostFlags = 0 := by decide
  simp only [mprotectFlags]
  rw [Nat.and_or_distrib_right, OsCvtProtFlagsToRegionFlags_lost, Nat.zero_or]
  split_ifs
  · exact hshared
  · exact Nat.zero_and _

/-- Process `1` creates a one-page segment and attaches it, then calls
`mprotect(USER_MAP_BASE, PAGE_SIZE, PROT_READ)` on it, which returns
`0` and leaves the region without `VM_MAP_REGION_FLAG_SHM`; `munmap` of
the page then frees the region as anonymous memory, and the segment
keeps one attachment that no space holds. -/
theorem mprotect_drops_shm_flag :
    ∃ s, Run Step (vmInit [100])
        [.shmget 1 (OsCreateUser 0 0 1) IPC_PRIVATE 4096 (IPC_CREAT ||| 0o600) 0,
         .shmat 1 (OsCreateUser 0 0 1) 0 0 0 USER_MAP_BASE] s ∧
      (LOS_RegionFind (s.spaces 1) USER_MAP_BASE).map (·.regionFlags &&& VM_MAP_REGION_FLAG_SHM) =
        some VM_MAP_REGION_FLAG_SHM ∧
      (LOS_DoMprotect s 1 USER_MAP_BASE PAGE_SIZE PROT_READ).1 = 0 ∧
      (LOS_RegionFind ((LOS_DoMprotect s 1 USER_MAP_BASE PAGE_SIZE PROT_READ).2.spaces 1)
        USER_MAP_BASE).map (·.regionFlags &&& VM_MAP_REGION_FLAG_SHM) = some 0 ∧
      (LOS_UnMMap (LOS_DoMprotect s 1 USER_MAP_BASE PAGE_SIZE PROT_READ).2 1 USER_MAP_BASE PAGE_SIZE).1 = 0 ∧
      ((LOS_UnMMap (LOS_DoMprotect s 1 USER_MAP_BASE PAGE_SIZE PROT_READ).2 1 USER_MAP_BASE
        PAGE_SIZE).2.spaces 1).regions = [] ∧
      ((LOS_UnMMap (LOS_DoMprotect s 1 USER_MAP_BASE PAGE_SIZE PROT_READ).2 1 USER_MAP_BASE
        PAGE_SIZE).2.segs 0).ds.nattch = 1 := by
  have r₁ : Run Step (vmInit [100]) [.shmget 1 (OsCreateUser 0 0 1) IPC_PRIVATE 4096 (IPC_CREAT ||| 0o600) 0] _ :=
    Run.nil.snoc (Step.shmget rfl)
  have r₂ := r₁.snoc (@Step.shmat_ret _ 1 (OsCreateUser 0 0 1) 0 0 0 USER_MAP_BASE (by decide))
  exact ⟨_, r₂, by decide, by decide, by decide, by decide, by decide, by decide⟩

end LiteOsA.Vm
