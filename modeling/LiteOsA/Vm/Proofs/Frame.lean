/-
What a call leaves alone.

`Frame P s s'` says that `s'` differs from `s` at most in the address
spaces of the processes `P` and in segments that are not marked for
removal. Every function of the model is framed so, with `P` the
process it works for: the page loops and the region functions change
the space they are given, the shared-memory hooks change the segment
`ShmFindSeg` found, and `ShmFindSeg` never finds a segment marked
`SHM_SEG_REMOVE`.

The rules compose (`Frame.trans`, `Frame.onlySeg`), and the lemmas
follow the call graph from the page loops up to `Step.frame`: a step
of process `pid` changes no other process's space except the child it
forks, and no segment marked for removal. Along a whole run
(`run_removed_kept`), such a segment never changes again.
-/
import LiteOsA.Vm.Call
import LiteOsA.Lib.Run

namespace LiteOsA.Vm

open LiteOsA.Cred (toInt32)

/-- A segment marked for removal: `ShmFindSeg` refuses it and
`ShmAllocSeg` passes over it. -/
def Removed (seg : ShmIdSource) : Prop :=
  seg.status &&& SHM_SEG_REMOVE ≠ 0 ∧ seg.status &&& SHM_SEG_FREE = 0

instance (seg : ShmIdSource) : Decidable (Removed seg) := inferInstanceAs (Decidable (_ ∧ _))

/-- `s'` differs from `s` at most in the spaces of the processes `P` and
in segments not marked for removal. -/
structure Frame (P : Nat → Prop) (s s' : VmSys) : Prop where
  spaces : ∀ q, ¬ P q → s'.spaces q = s.spaces q
  segs : ∀ i, Removed (s.segs i) → s'.segs i = s.segs i

/-- `u` differs from `t` in segment `i` only. -/
def OnlySeg (i : Nat) (t u : VmSys) : Prop :=
  u.spaces = t.spaces ∧ ∀ k, k ≠ i → u.segs k = t.segs k

namespace Frame

variable {P Q : Nat → Prop} {s t u : VmSys}

theorem refl (P : Nat → Prop) (s : VmSys) : Frame P s s := ⟨fun _ _ => rfl, fun _ _ => rfl⟩

theorem trans (h₁ : Frame P s t) (h₂ : Frame P t u) : Frame P s u :=
  ⟨fun q hq => (h₂.spaces q hq).trans (h₁.spaces q hq),
    fun i hi => (h₂.segs i (by rwa [h₁.segs i hi])).trans (h₁.segs i hi)⟩

theorem mono (h : Frame P s t) (hPQ : ∀ q, P q → Q q) : Frame Q s t :=
  ⟨fun q hq => h.spaces q fun hp => hq (hPQ q hp), h.segs⟩

/-- No space and no segment changes. -/
theorem of_eq (hsp : t.spaces = s.spaces) (hsg : t.segs = s.segs) : Frame P s t :=
  ⟨fun _ _ => by rw [hsp], fun _ _ => by rw [hsg]⟩

/-- A write to the space of a process of `P`. -/
theorem of_update {pid : Nat} {space : LosVmSpace} (hp : P pid)
    (hsp : t.spaces = Function.update s.spaces pid space) (hsg : t.segs = s.segs) : Frame P s t :=
  ⟨fun q hq => by
    have hne : q ≠ pid := by
      rintro rfl
      exact hq hp
    rw [hsp, Function.update_of_ne hne], fun _ _ => by rw [hsg]⟩

theorem setSpace {pid : Nat} (hp : P pid) (space : LosVmSpace) : Frame P s (s.setSpace pid space) :=
  of_update hp rfl rfl

/-- A change to one segment, not marked for removal at the start. -/
theorem onlySeg {i : Nat} (h : Frame P s t) (hi : ¬ Removed (s.segs i)) (ho : OnlySeg i t u) :
    Frame P s u := by
  refine ⟨fun q hq => by rw [ho.1, h.spaces q hq], fun k hk => ?_⟩
  have hki : k ≠ i := by
    rintro rfl
    exact hi hk
  rw [ho.2 k hki, h.segs k hk]

end Frame

namespace OnlySeg

variable {i : Nat} {t u v : VmSys}

theorem refl (i : Nat) (t : VmSys) : OnlySeg i t t := ⟨rfl, fun _ _ => rfl⟩

theorem trans (h₁ : OnlySeg i t u) (h₂ : OnlySeg i u v) : OnlySeg i t v :=
  ⟨h₂.1.trans h₁.1, fun k hk => (h₂.2 k hk).trans (h₁.2 k hk)⟩

theorem of_eq (hsp : u.spaces = t.spaces) (hsg : u.segs = t.segs) : OnlySeg i t u :=
  ⟨hsp, fun _ _ => by rw [hsg]⟩

theorem of_setSeg {seg : ShmIdSource} (hsp : u.spaces = t.spaces)
    (hsg : u.segs = Function.update t.segs i seg) : OnlySeg i t u :=
  ⟨hsp, fun _ hk => by rw [hsg, Function.update_of_ne hk]⟩

theorem setSeg (i : Nat) (t : VmSys) (seg : ShmIdSource) : OnlySeg i t (t.setSeg i seg) :=
  of_setSeg rfl rfl

end OnlySeg

-- ============================================================ segments

/-- A segment `ShmFindSeg` finds is neither free nor marked for removal. -/
theorem ShmFindSeg_ok {s : VmSys} {shmid : Int} {i : Nat} (h : ShmFindSeg s shmid = .ok i) :
    (s.segs i).status &&& SHM_SEG_FREE = 0 ∧ (s.segs i).status &&& SHM_SEG_REMOVE = 0 := by
  unfold ShmFindSeg at h
  dsimp only at h
  split_ifs at h with h₁ h₂
  cases h
  obtain ⟨hfree, hrem⟩ := not_or.mp h₂
  exact ⟨not_not.mp hfree, not_not.mp hrem⟩

theorem ShmFindSeg_not_removed {s : VmSys} {shmid : Int} {i : Nat} (h : ShmFindSeg s shmid = .ok i) :
    ¬ Removed (s.segs i) :=
  fun hr => hr.1 (ShmFindSeg_ok h).2

@[simp] theorem LOS_PhysPagesFree.one_spaces (s : VmSys) (p : Nat) :
    (LOS_PhysPagesFree.one s p).spaces = s.spaces := by
  unfold LOS_PhysPagesFree.one
  split <;> rfl

@[simp] theorem LOS_PhysPagesFree.one_segs (s : VmSys) (p : Nat) :
    (LOS_PhysPagesFree.one s p).segs = s.segs := by
  unfold LOS_PhysPagesFree.one
  split <;> rfl

theorem LOS_PhysPagesFree_frame (s : VmSys) (l : List Nat) :
    (l.foldl LOS_PhysPagesFree.one s).spaces = s.spaces ∧ (l.foldl LOS_PhysPagesFree.one s).segs = s.segs := by
  induction l generalizing s with
  | nil => exact ⟨rfl, rfl⟩
  | cons p l ih =>
    obtain ⟨h₁, h₂⟩ := ih (LOS_PhysPagesFree.one s p)
    exact ⟨h₁.trans (LOS_PhysPagesFree.one_spaces s p), h₂.trans (LOS_PhysPagesFree.one_segs s p)⟩

theorem ShmFreeSeg_onlySeg (s : VmSys) (i : Nat) : OnlySeg i s (ShmFreeSeg s i) := by
  obtain ⟨hsp, hsg⟩ := LOS_PhysPagesFree_frame (ShmSetSharedFlag s (s.segs i) false) (s.segs i).node
  have hfree : OnlySeg i (ShmSetSharedFlag s (s.segs i) false)
      (LOS_PhysPagesFree (ShmSetSharedFlag s (s.segs i) false) (s.segs i).node).2 := OnlySeg.of_eq hsp hsg
  unfold ShmFreeSeg
  dsimp only
  split
  · exact hfree.trans (OnlySeg.setSeg _ _ _)
  · exact hfree.trans (OnlySeg.of_setSeg rfl rfl)

theorem ShmDetach_onlySeg (s : VmSys) (cur i : Nat) : OnlySeg i s (ShmDetach s cur i) := by
  have hdec : OnlySeg i s (ShmPagesRefDec s (s.segs i)) := OnlySeg.of_eq rfl rfl
  unfold ShmDetach
  dsimp only
  split
  · exact (hdec.trans (OnlySeg.setSeg _ _ _)).trans (ShmFreeSeg_onlySeg _ _)
  · exact (hdec.trans (OnlySeg.setSeg _ _ _)).trans (OnlySeg.setSeg _ _ _)

/-- `ShmVmmMapping` writes the space of `pid` and page counts only. -/
theorem ShmVmmMapping_frame {P : Nat → Prop} {pid : Nat} (hp : P pid) (s : VmSys) (pages : List Nat)
    (vaddr : Nat) : Frame P s (ShmVmmMapping s pid pages vaddr) :=
  Frame.of_update hp rfl rfl

theorem OsShmRegionFree_frame (s : VmSys) (cur pid : Nat) (region : LosVmMapRegion) :
    Frame (· = pid) s (OsShmRegionFree s cur pid region) := by
  unfold OsShmRegionFree
  split
  · exact Frame.refl _ _
  · rename_i i hfind
    refine Frame.onlySeg ?_ (ShmFindSeg_not_removed hfind) (ShmDetach_onlySeg _ _ _)
    exact Frame.setSpace (by rfl) _

theorem OsShmFork_frame (s : VmSys) (child : Nat) (oldRegion newRegion : LosVmMapRegion) :
    Frame (· = child) s (OsShmFork s child oldRegion newRegion) := by
  unfold OsShmFork
  split
  · exact Frame.refl _ _
  · rename_i i hfind
    refine Frame.onlySeg ?_ (ShmFindSeg_not_removed hfind) (OnlySeg.setSeg _ _ _)
    exact (Frame.setSpace (by rfl) _).trans (ShmVmmMapping_frame (by rfl) _ _ _)


-- ============================================================ page loops

theorem pagesRemove_frame (keepShared : Bool) (pid : Nat) :
    ∀ (k va : Nat) (s : VmSys), Frame (· = pid) s (pagesRemove keepShared s pid k va) := by
  intro k
  induction k with
  | zero => intro va s; exact Frame.refl _ _
  | succ k ih =>
    intro va s
    unfold pagesRemove
    split
    · exact ih _ _
    · -- unmap the page, then drop its reference
      rename_i pa _
      have h₁ : Frame (· = pid) s (s.setSpace pid (LOS_ArchMmuUnmap (s.spaces pid) va 1)) :=
        Frame.setSpace (by rfl) _
      refine Frame.trans ?_ (ih _ _)
      split
      · exact h₁
      · exact h₁.trans (Frame.of_eq (LOS_PhysPagesFree.one_spaces _ _) (LOS_PhysPagesFree.one_segs _ _))

theorem OsAnonPagesRemove_frame (s : VmSys) (pid vaddr count : Nat) :
    Frame (· = pid) s (OsAnonPagesRemove s pid vaddr count) := by
  unfold OsAnonPagesRemove
  split
  · exact Frame.refl _ _
  · exact pagesRemove_frame _ _ _ _ _

theorem LOS_RegionFree_frame (s : VmSys) (cur pid : Nat) (region : LosVmMapRegion) :
    Frame (· = pid) s (LOS_RegionFree s cur pid region) := by
  have h₁ : Frame (· = pid) s
      (if region.regionFlags &&& VM_MAP_REGION_FLAG_SHM ≠ 0 then OsShmRegionFree s cur pid region
        else OsAnonPagesRemove s pid region.base (region.size >>> PAGE_SHIFT)) := by
    split
    · exact OsShmRegionFree_frame _ _ _ _
    · exact OsAnonPagesRemove_frame _ _ _ _
  exact h₁.trans (Frame.setSpace (by rfl) _)

theorem OsRegionsRemove.scan_frame (cur pid regionBase regionEnd : Nat) :
    ∀ (l : List LosVmMapRegion) (s : VmSys),
      Frame (· = pid) s (OsRegionsRemove.scan cur pid regionBase regionEnd s l) := by
  intro l
  induction l with
  | nil => intro s; exact Frame.refl _ _
  | cons r rs ih =>
    intro s
    unfold OsRegionsRemove.scan
    split
    · exact Frame.refl _ _
    · split
      · exact (LOS_RegionFree_frame s cur pid r).trans (ih _)
      · exact ih s

-- ============================================================ allocation and unmapping

section Unmapper

variable {unmap : VmSys → Nat → Nat → Nat → Int × VmSys}
  (hu : ∀ t cur addr size, Frame (· = cur) t (unmap t cur addr size).2)

include hu

theorem OsAllocSpecificRangeWith_frame (s : VmSys) (cur pid vaddr len regionFlags : Nat) :
    Frame (fun q => q = pid ∨ q = cur) s
      (OsAllocSpecificRangeWith unmap s cur pid vaddr len regionFlags).2 := by
  have hun : Frame (fun q => q = pid ∨ q = cur) s (unmap s cur vaddr len).2 :=
    (hu s cur vaddr len).mono fun _ h => Or.inr h
  unfold OsAllocSpecificRangeWith
  dsimp only
  split
  · exact Frame.refl _ _
  · split
    · split
      · exact Frame.refl _ _
      · split
        · -- a fixed mapping unmaps what is in the way
          split
          · exact hun
          · exact hun
        · exact Frame.refl _ _
    · exact Frame.refl _ _

theorem LOS_RegionAllocWith_frame (s : VmSys) (cur pid vaddr len regionFlags : Nat) :
    Frame (fun q => q = pid ∨ q = cur) s (LOS_RegionAllocWith unmap s cur pid vaddr len regionFlags).2 := by
  unfold LOS_RegionAllocWith
  have h₁ : Frame (fun q => q = pid ∨ q = cur) s (if vaddr = 0 then (OsAllocRange (s.spaces pid) len, s)
      else OsAllocSpecificRangeWith unmap s cur pid vaddr len regionFlags).2 := by
    split
    · exact Frame.refl _ _
    · exact OsAllocSpecificRangeWith_frame hu _ _ _ _ _ _
  generalize (if vaddr = 0 then _ else _ : Nat × VmSys) = r at h₁ ⊢
  obtain ⟨rst, s₁⟩ := r
  dsimp only at h₁ ⊢
  split
  · exact h₁
  · have h₂ : Frame (fun q => q = pid ∨ q = cur) s (OsCreateRegion s₁ rst len regionFlags).2 :=
      h₁.trans (Frame.of_eq rfl rfl)
    split
    · exact h₂
    · exact h₂.trans (Frame.setSpace (Or.inl rfl) _)

theorem OsVmRegionDupWith_frame (s : VmSys) (cur pid : Nat) (oldRegion : LosVmMapRegion) (vaddr size : Nat) :
    Frame (fun q => q = pid ∨ q = cur) s (OsVmRegionDupWith unmap s cur pid oldRegion vaddr size).2 := by
  unfold OsVmRegionDupWith
  dsimp only
  have h₁ := LOS_RegionAllocWith_frame hu s cur pid vaddr size
    (if vaddr = 0 then
      oldRegion.regionFlags &&& ((2 ^ 32 - 1) ^^^ (VM_MAP_REGION_FLAG_FIXED ||| VM_MAP_REGION_FLAG_FIXED_NOREPLACE))
    else oldRegion.regionFlags ||| VM_MAP_REGION_FLAG_FIXED)
  generalize LOS_RegionAllocWith unmap s cur pid vaddr size _ = r at h₁ ⊢
  obtain ⟨_ | r, s₁⟩ := r
  · exact h₁
  · dsimp only at h₁ ⊢
    split
    · exact h₁.trans (Frame.setSpace (Or.inl rfl) _)
    · exact h₁

theorem OsVmRegionSplitWith_frame (s : VmSys) (cur pid : Nat) (oldRegion : LosVmMapRegion)
    (newRegionStart : Nat) :
    Frame (fun q => q = pid ∨ q = cur) s (OsVmRegionSplitWith unmap s cur pid oldRegion newRegionStart).2 :=
  (Frame.setSpace (Or.inl rfl) _).trans (OsVmRegionDupWith_frame hu _ _ _ _ _ _)

theorem OsVmRegionAdjust.splitEnd_frame (s : VmSys) (cur pid nextRegionBase : Nat) :
    Frame (fun q => q = pid ∨ q = cur) s (OsVmRegionAdjust.splitEnd unmap s cur pid nextRegionBase).2 := by
  unfold OsVmRegionAdjust.splitEnd
  split
  · rename_i region _
    split
    · have h₁ := OsVmRegionSplitWith_frame hu s cur pid region nextRegionBase
      generalize OsVmRegionSplitWith unmap s cur pid region nextRegionBase = r at h₁ ⊢
      obtain ⟨_ | _, s₁⟩ := r
      · exact h₁
      · exact h₁
    · exact Frame.refl _ _
  · exact Frame.refl _ _

theorem OsVmRegionAdjustWith_frame (s : VmSys) (cur pid newRegionStart size : Nat) :
    Frame (fun q => q = pid ∨ q = cur) s (OsVmRegionAdjustWith unmap s cur pid newRegionStart size).2 := by
  unfold OsVmRegionAdjustWith
  dsimp only
  split
  · rename_i region _
    split
    · have h₁ := OsVmRegionSplitWith_frame hu s cur pid region newRegionStart
      generalize OsVmRegionSplitWith unmap s cur pid region newRegionStart = r at h₁ ⊢
      obtain ⟨_ | _, s₁⟩ := r
      · exact h₁
      · exact h₁.trans (OsVmRegionAdjust.splitEnd_frame hu _ _ _ _)
    · exact OsVmRegionAdjust.splitEnd_frame hu _ _ _ _
  · exact OsVmRegionAdjust.splitEnd_frame hu _ _ _ _

theorem OsRegionsRemoveWith_frame (s : VmSys) (cur pid regionBase size : Nat) :
    Frame (fun q => q = pid ∨ q = cur) s (OsRegionsRemoveWith unmap s cur pid regionBase size).2 := by
  unfold OsRegionsRemoveWith
  have h₁ := OsVmRegionAdjustWith_frame hu s cur pid regionBase size
  generalize OsVmRegionAdjustWith unmap s cur pid regionBase size = r at h₁ ⊢
  obtain ⟨status, s₁⟩ := r
  dsimp only at h₁ ⊢
  split
  · exact h₁
  · exact h₁.trans ((OsRegionsRemove.scan_frame _ _ _ _ _ _).mono fun _ h => Or.inl h)

theorem OsUnMMapWith_frame (s : VmSys) (cur pid addr size : Nat) :
    Frame (fun q => q = pid ∨ q = cur) s (OsUnMMapWith unmap s cur pid addr size).2 := by
  have h₁ := OsRegionsRemoveWith_frame hu s cur pid (LOS_Align addr PAGE_SIZE) (LOS_Align size PAGE_SIZE)
  unfold OsUnMMapWith
  dsimp only
  split
  · exact h₁
  · exact h₁

end Unmapper

/-- An unmap of process `cur`, nested to any depth, changes the space
of `cur` only. -/
theorem LOS_UnMMapN_frame :
    ∀ (d : Nat) (s : VmSys) (cur addr size : Nat), Frame (· = cur) s (LOS_UnMMapN d s cur addr size).2 := by
  intro d
  induction d with
  | zero => intro s cur addr size; exact Frame.refl _ _
  | succ d ih =>
    intro s cur addr size
    unfold LOS_UnMMapN
    split
    · exact Frame.refl _ _
    · exact (OsUnMMapWith_frame ih s cur cur addr size).mono fun _ h => h.elim id id

theorem LOS_UnMMap_frame (s : VmSys) (cur addr size : Nat) :
    Frame (· = cur) s (LOS_UnMMap s cur addr size).2 :=
  LOS_UnMMapN_frame _ _ _ _ _

theorem LOS_RegionAlloc_frame (s : VmSys) (cur pid vaddr len regionFlags : Nat) :
    Frame (fun q => q = pid ∨ q = cur) s (LOS_RegionAlloc s cur pid vaddr len regionFlags).2 :=
  LOS_RegionAllocWith_frame (LOS_UnMMapN_frame _) _ _ _ _ _ _

theorem OsVmRegionDup_frame (s : VmSys) (cur pid : Nat) (oldRegion : LosVmMapRegion) (vaddr size : Nat) :
    Frame (fun q => q = pid ∨ q = cur) s (OsVmRegionDup s cur pid oldRegion vaddr size).2 :=
  OsVmRegionDupWith_frame (LOS_UnMMapN_frame _) _ _ _ _ _ _

-- ============================================================ mmap and brk

theorem OsUserHeapFree_frame {s s' : VmSys} {pid addr len : Nat}
    (h : OsUserHeapFree s pid addr len = some s') : Frame (· = pid) s s' := by
  unfold OsUserHeapFree at h
  split at h
  · cases h
  · split at h
    · cases h
    · split at h
      · cases h
        exact pagesRemove_frame _ _ _ _ _
      · cases h

theorem LOS_MMap_frame (s : VmSys) (cur vaddr len prot flags pgoff : Nat) :
    Frame (· = cur) s (LOS_MMap s cur vaddr len prot flags pgoff).2 := by
  unfold LOS_MMap
  dsimp only
  split
  · exact Frame.refl _ _
  · rename_i v _
    split
    · exact Frame.refl _ _
    · split
      · rename_i s₁ hfree
        exact OsUserHeapFree_frame hfree
      · -- a new region
        have h₁ := (LOS_RegionAlloc_frame s cur cur v (ROUNDUP len PAGE_SIZE)
          (OsCvtProtFlagsToRegionFlags prot flags)).mono fun _ h => h.elim id id
        split
        · rename_i s₁ heq
          rw [heq] at h₁
          exact h₁
        · rename_i r s₁ heq
          rw [heq] at h₁
          exact h₁.trans (Frame.setSpace (by rfl) _)

theorem OsShrinkHeap_frame (s : VmSys) (cur addr : Nat) :
    Frame (· = cur) s (OsShrinkHeap s cur addr).2 := by
  have h₁ := LOS_UnMMap_frame s cur (LOS_Align addr PAGE_SIZE)
    (u32Sub (LOS_Align (s.spaces cur).heapNow PAGE_SIZE) (LOS_Align addr PAGE_SIZE))
  unfold OsShrinkHeap
  dsimp only
  split
  · dsimp only
    exact h₁
  · exact h₁.trans (Frame.setSpace (by rfl) _)

theorem LOS_DoBrk.newHeap_frame (s : VmSys) (cur size : Nat) :
    Frame (· = cur) s (LOS_DoBrk.newHeap s cur size).2 := by
  have h₁ := (LOS_RegionAlloc_frame s cur cur (s.spaces cur).heapBase size heapRegionFlags).mono
    fun _ h => h.elim id id
  unfold LOS_DoBrk.newHeap
  split
  · rename_i s₁ heq
    rw [heq] at h₁
    exact h₁
  · rename_i r s₁ heq
    rw [heq] at h₁
    exact h₁.trans (Frame.setSpace (by rfl) _)

theorem LOS_DoBrk_frame (s : VmSys) (cur addr : Nat) : Frame (· = cur) s (LOS_DoBrk s cur addr).2 := by
  unfold LOS_DoBrk
  dsimp only
  split
  · exact Frame.refl _ _
  · split
    · exact Frame.refl _ _
    · split
      · exact OsShrinkHeap_frame _ _ _
      · split
        · exact Frame.refl _ _
        · -- a new heap region, or the old one
          have h₁ : Frame (· = cur) s (if (s.spaces cur).heapBase = (s.spaces cur).heapNow then
              LOS_DoBrk.newHeap s cur (ROUNDUP (addr - (s.spaces cur).heapBase) PAGE_SIZE) else (true, s)).2 := by
            split
            · exact LOS_DoBrk.newHeap_frame _ _ _
            · exact Frame.refl _ _
          generalize (if (s.spaces cur).heapBase = (s.spaces cur).heapNow then _ else _ : Bool × VmSys) = r
            at h₁ ⊢
          obtain ⟨ok, s₁⟩ := r
          dsimp only at h₁ ⊢
          split
          · exact h₁
          · exact h₁.trans (Frame.setSpace (by rfl) _)

-- ============================================================ fork and exit

theorem clonePages_frame (old new : Nat) :
    ∀ (k va : Nat) (s : VmSys), Frame (· = new) s (clonePages s old new k va) := by
  intro k
  induction k with
  | zero => intro va s; exact Frame.refl _ _
  | succ k ih =>
    intro va s
    unfold clonePages
    split
    · exact ih _ _
    · -- the child maps the parent's page
      rename_i pa _
      dsimp only
      have h₁ : Frame (· = new) s { s with refCounts := Function.update s.refCounts pa (s.refCounts pa + 1) } :=
        Frame.of_eq rfl rfl
      exact (h₁.trans (Frame.setSpace (by rfl) _)).trans (ih _ _)

theorem LOS_VmSpaceClone.region_frame (s : VmSys) (cur old new : Nat) (oldRegion : LosVmMapRegion) :
    Frame (fun q => q = new ∨ q = cur) s (LOS_VmSpaceClone.region s cur old new oldRegion).2 := by
  have h₁ := OsVmRegionDup_frame s cur new oldRegion oldRegion.base oldRegion.size
  unfold LOS_VmSpaceClone.region
  generalize OsVmRegionDup s cur new oldRegion oldRegion.base oldRegion.size = r at h₁ ⊢
  obtain ⟨_ | newRegion, s₁⟩ := r
  · exact h₁
  · dsimp only at h₁ ⊢
    have hclone : ∀ t : VmSys, Frame (fun q => q = new ∨ q = cur) t
        (clonePages t old new newRegion.base (newRegion.size >>> PAGE_SHIFT)) :=
      fun t => (clonePages_frame _ _ _ _ _).mono fun _ h => Or.inl h
    split
    · exact h₁.trans ((OsShmFork_frame _ _ _ _).mono fun _ h => Or.inl h)
    · split
      · exact (h₁.trans (Frame.setSpace (Or.inl rfl) _)).trans (hclone _)
      · exact h₁.trans (hclone _)

theorem LOS_VmSpaceClone.loop_frame (cur old new : Nat) :
    ∀ (l : List LosVmMapRegion) (s : VmSys),
      Frame (fun q => q = new ∨ q = cur) s (LOS_VmSpaceClone.loop cur old new s l).2 := by
  intro l
  induction l with
  | nil => intro s; exact Frame.refl _ _
  | cons r rs ih =>
    intro s
    have h₁ := LOS_VmSpaceClone.region_frame s cur old new r
    unfold LOS_VmSpaceClone.loop
    generalize LOS_VmSpaceClone.region s cur old new r = x at h₁ ⊢
    obtain ⟨_ | _, s₁⟩ := x
    · exact h₁
    · exact h₁.trans (ih _)

theorem LOS_VmSpaceClone_frame (s : VmSys) (cur old new : Nat) :
    Frame (fun q => q = new ∨ q = cur) s (LOS_VmSpaceClone s cur old new).2 := by
  unfold LOS_VmSpaceClone
  dsimp only
  split
  · exact Frame.refl _ _
  · exact (Frame.setSpace (Or.inl rfl) _).trans (LOS_VmSpaceClone.loop_frame _ _ _ _ _)

theorem LOS_VmSpaceFree_frame (s : VmSys) (cur pid : Nat) :
    Frame (· = pid) s (LOS_VmSpaceFree s cur pid) := by
  have hfold : ∀ (l : List LosVmMapRegion) (t : VmSys),
      Frame (· = pid) t (l.foldl (fun t r => LOS_RegionFree t cur pid r) t) := by
    intro l
    induction l with
    | nil => intro t; exact Frame.refl _ _
    | cons r rs ih => intro t; exact (LOS_RegionFree_frame t cur pid r).trans (ih _)
  exact (hfold _ _).trans (Frame.setSpace (by rfl) _)

-- ============================================================ shared memory

/-- The segment `ShmAllocSeg` takes is free, so not marked for removal. -/
theorem ShmAllocSeg.findFree_not_removed {s : VmSys} {i : Nat} (h : ShmAllocSeg.findFree s = some i) :
    ¬ Removed (s.segs i) := by
  have hfree := List.find?_some h
  simp only [decide_eq_true_eq] at hfree
  exact fun hr => hfree hr.2

theorem ShmAllocSeg_frame {P : Nat → Prop} (s : VmSys) (cur : Nat) (user : LiteOsA.Cred.User) (key : Int)
    (size shmflg : Nat) : Frame P s (ShmAllocSeg s cur user key size shmflg).2 := by
  unfold ShmAllocSeg
  dsimp only
  split
  · exact Frame.refl _ _
  · split
    · exact Frame.refl _ _
    · split
      · exact Frame.refl _ _
      · rename_i i hfind
        have hi := ShmAllocSeg.findFree_not_removed hfind
        have hpages := LOS_PhysPagesFree_frame
          (LOS_PhysPagesAlloc s (LOS_Align size PAGE_SIZE >>> PAGE_SHIFT) (s.segs i).node).2.2
          (LOS_PhysPagesAlloc s (LOS_Align size PAGE_SIZE >>> PAGE_SHIFT) (s.segs i).node).2.1
        split
        · -- too few pages: they go back and the segment is free again
          exact (Frame.refl _ _).onlySeg hi ((OnlySeg.of_eq hpages.1 hpages.2).trans (OnlySeg.setSeg _ _ _))
        · exact (Frame.refl _ _).onlySeg hi (OnlySeg.of_setSeg rfl rfl)

theorem ShmGet_frame {P : Nat → Prop} {s s' : VmSys} {cur : Nat} {user : LiteOsA.Cred.User} {key : Int}
    {size shmflg : Nat} {ret : Int} (h : ShmGet s cur user key size shmflg = some (ret, s')) :
    Frame P s s' := by
  have halloc := @ShmAllocSeg_frame P s cur user key size shmflg
  unfold ShmGet at h
  split at h
  · cases h
    exact Frame.refl _ _
  · split at h
    · injection h with h
      rw [h] at halloc
      exact halloc
    · split at h
      · split at h
        · cases h
          exact Frame.refl _ _
        · injection h with h
          rw [h] at halloc
          exact halloc
      · split at h
        · cases h
        · dsimp only at h
          split at h
          · cases h
            exact Frame.refl _ _
          · cases h
            exact Frame.refl _ _

theorem ShmatVmmAlloc_frame (s : VmSys) (cur i shmaddr shmflg prot : Nat) :
    Frame (· = cur) s (ShmatVmmAlloc s cur i shmaddr shmflg prot).2 := by
  unfold ShmatVmmAlloc
  dsimp only
  split
  · have h₁ := (LOS_RegionAlloc_frame s cur cur 0 (s.segs i).ds.segsz
      (OsCvtProtFlagsToRegionFlags prot (MAP_ANONYMOUS ||| MAP_SHARED))).mono fun _ h => h.elim id id
    split
    · rename_i s₁ heq
      rw [heq] at h₁
      exact h₁
    · rename_i r s₁ heq
      rw [heq] at h₁
      exact h₁.trans (ShmVmmMapping_frame (by rfl) _ _ _)
  · generalize (if shmflg &&& SHM_RND ≠ 0 then _ else shmaddr : Nat) = vaddr
    split
    · exact Frame.refl _ _
    · -- the fixed address goes through `LOS_MMap`
      have h₁ := LOS_MMap_frame s cur vaddr (s.segs i).ds.segsz prot (MAP_ANONYMOUS ||| MAP_SHARED ||| MAP_FIXED) 0
      split
      · exact h₁
      · exact h₁.trans (ShmVmmMapping_frame (by rfl) _ _ _)

theorem ShmAt_frame (s : VmSys) (cur : Nat) (user : LiteOsA.Cred.User) (shmid : Int) (shmaddr shmflg : Nat) :
    Frame (· = cur) s (ShmAt s cur user shmid shmaddr shmflg).2 := by
  unfold ShmAt
  dsimp only
  split
  · exact Frame.refl _ _
  · split
    · exact Frame.refl _ _
    · rename_i i hfind
      have hi := ShmFindSeg_not_removed hfind
      split
      · exact Frame.refl _ _
      · -- one more attachment, then the region
        have h₁ : Frame (· = cur) s (addNattch s i fun n => u32 (n + 1)) :=
          (Frame.refl _ _).onlySeg hi (OnlySeg.setSeg _ _ _)
        have h₂ := h₁.trans (ShmatVmmAlloc_frame (addNattch s i fun n => u32 (n + 1)) cur i shmaddr shmflg
          (ShmAt.mode shmflg).1)
        generalize ShmatVmmAlloc _ cur i shmaddr shmflg _ = r at h₂ ⊢
        obtain ⟨_ | _, s₂⟩ := r
        · exact h₂.onlySeg hi (OnlySeg.setSeg _ _ _)
        · exact (h₂.trans (Frame.setSpace (by rfl) _)).onlySeg hi (OnlySeg.setSeg _ _ _)

theorem ShmCtl_frame {P : Nat → Prop} (s : VmSys) (user : LiteOsA.Cred.User) (shmid : Int) (cmd : Nat)
    (buf : ShmBuf) : Frame P s (ShmCtl s user shmid cmd buf).2 := by
  unfold ShmCtl
  dsimp only
  split
  · exact Frame.refl _ _
  · rename_i i hfound
    -- a command other than the two `INFO`s has looked the segment up
    have hi : cmd &&& ((2 ^ 32 - 1) ^^^ IPC_64) ≠ IPC_INFO → cmd &&& ((2 ^ 32 - 1) ^^^ IPC_64) ≠ SHM_INFO →
        ¬ Removed (s.segs i) := by
      intro h₁ h₂
      rw [if_pos ⟨h₁, h₂⟩] at hfound
      exact ShmFindSeg_not_removed hfound
    split
    · exact Frame.refl _ _
    · split
      · -- reading the segment changes nothing
        split
        · exact Frame.refl _ _
        · split
          · exact Frame.refl _ _
          · split
            · exact Frame.refl _ _
            · exact Frame.refl _ _
      · split
        · -- `IPC_SET` writes the segment it found
          rename_i hset
          have hs := hi (by rw [hset]; decide) (by rw [hset]; decide)
          split
          · exact Frame.refl _ _
          · split
            · exact Frame.refl _ _
            · exact (Frame.refl _ _).onlySeg hs (OnlySeg.setSeg _ _ _)
        · split
          · -- `IPC_RMID` marks the segment it found, and frees it when unattached
            rename_i hrmid
            have hs := hi (by rw [hrmid]; decide) (by rw [hrmid]; decide)
            split
            · exact Frame.refl _ _
            · split
              · exact (Frame.refl _ _).onlySeg hs ((OnlySeg.setSeg _ _ _).trans (ShmFreeSeg_onlySeg _ _))
              · exact (Frame.refl _ _).onlySeg hs (OnlySeg.setSeg _ _ _)
          · split
            · split
              · exact Frame.refl _ _
              · exact Frame.refl _ _
            · exact Frame.refl _ _

theorem ShmDt_frame (s : VmSys) (cur shmaddr : Nat) : Frame (· = cur) s (ShmDt s cur shmaddr).2 := by
  unfold ShmDt
  dsimp only
  split
  · exact Frame.refl _ _
  · split
    · exact Frame.refl _ _
    · split
      · exact Frame.refl _ _
      · -- the region goes first, then the segment's count
        split
        · exact Frame.setSpace (by rfl) _
        · rename_i i hfind
          exact (Frame.setSpace (by rfl) _).onlySeg (ShmFindSeg_not_removed hfind) (ShmDetach_onlySeg _ _ _)

-- ============================================================ steps and runs

/-- The processes whose spaces a call may change: the caller, and the
child of a fork. -/
def Event.touches : Event → Nat → Prop
  | .mmap pid .. | .munmap pid .. | .brk pid .. | .shmget pid .. | .shmat pid .. | .shmctl pid ..
  | .shmdt pid .. | .exit pid => (· = pid)
  | .fork parent child _ => fun q => q = child ∨ q = parent

/-- A call changes no space but its caller's (and a forked child's),
and no segment marked for removal. -/
theorem Step.frame {s s' : VmSys} {e : Event} (h : Step s e s') : Frame e.touches s s' := by
  cases h with
  | mmap => exact LOS_MMap_frame _ _ _ _ _ _ _
  | munmap => exact LOS_UnMMap_frame _ _ _ _
  | brk => exact LOS_DoBrk_frame _ _ _
  | shmget hget => exact ShmGet_frame hget
  | shmat => exact ShmAt_frame _ _ _ _ _ _
  | shmctl => exact ShmCtl_frame _ _ _ _ _
  | shmdt => exact ShmDt_frame _ _ _
  | fork =>
    exact (Frame.setSpace (Or.inl rfl) _).trans (LOS_VmSpaceClone_frame _ _ _ _)
  | exit => exact LOS_VmSpaceFree_frame _ _ _

/-- A run whose calls touch only the processes `P` changes no other
space, and no segment marked for removal. -/
theorem run_frame {P : Nat → Prop} {s s' : VmSys} {l : List Event} (h : Run Step s l s')
    (hl : ∀ e ∈ l, ∀ q, e.touches q → P q) : Frame P s s' := by
  induction h with
  | nil => exact Frame.refl _ _
  | @snoc _ _ l e _ hs ih =>
    have hl₁ : ∀ e' ∈ l, ∀ q, e'.touches q → P q := fun e' he => hl e' (List.mem_append_left _ he)
    have he : ∀ q, e.touches q → P q := hl e (List.mem_append_right _ (List.mem_singleton_self e))
    exact (ih hl₁).trans ((Step.frame hs).mono he)

/-- Along any run, a segment marked for removal never changes: no call
detaches from it, frees it or hands it out again. -/
theorem run_removed_kept {s s' : VmSys} {l : List Event} (h : Run Step s l s') :
    ∀ i, Removed (s.segs i) → s'.segs i = s.segs i :=
  (@run_frame (fun _ => True) _ _ _ h fun _ _ _ _ => trivial).segs

end LiteOsA.Vm
