/-
`mmap` over the heap (`LOS_MMap`, `OsUserHeapFree`): what it unmaps.

A `mmap` whose address falls in the heap region does not map: it calls
`OsUserHeapFree`, which releases the physical pages under the range and
keeps the heap's virtual space. `OsUserHeapFree` checks only that the
start address lies in the heap region; its loop then walks the whole
length the caller gave, one page at a time, and unmaps and frees
whatever page the MMU has there (`pagesRemove false`), without looking
at which region the page belongs to or whether it is shared.

`pagesRemove_mmu_page` and `pagesRemove_mmu_out` say what the loop does
to the page table: every page of the range is unmapped, and nothing
outside it changes. So `LOS_MMap_heap` unmaps the whole rounded range
from the start address, however far it runs past the heap's end
(`LOS_MMap_heap_unmaps`). `mmap_heap_frees_shared_page` runs it: a
segment attached two pages above a one-page heap loses its mapping and
its page, which goes back to the free list while the segment still
holds it.
-/
import LiteOsA.Vm.Proofs.Frame

namespace LiteOsA.Vm

open LiteOsA.Cred (OsCreateUser)

-- ============================================================ the page loop

theorem PAGE_SIZE_pos : 0 < PAGE_SIZE := by decide

/-- One round of the page loop: the page at `va` is unmapped, if it was
mapped, and nothing else of the page table changes. -/
theorem pagesRemove_succ (keepShared : Bool) (s : VmSys) (pid va : Nat) :
    ∃ s', (∀ k, pagesRemove keepShared s pid (k + 1) va = pagesRemove keepShared s' pid k (va + PAGE_SIZE)) ∧
      (s'.spaces pid).mmu va = none ∧
      ∀ x, x < va ∨ va + PAGE_SIZE ≤ x → (s'.spaces pid).mmu x = (s.spaces pid).mmu x := by
  cases hm : (s.spaces pid).mmu va with
  | none => exact ⟨s, fun k => by simp only [pagesRemove, hm], hm, fun _ _ => rfl⟩
  | some pa =>
    -- the page is unmapped, then its reference dropped, which leaves the spaces alone
    let s₁ := s.setSpace pid (LOS_ArchMmuUnmap (s.spaces pid) va 1)
    let s₂ := if keepShared && s₁.shared pa then s₁ else LOS_PhysPagesFree.one s₁ pa
    have hsp : s₂.spaces = s₁.spaces := by
      simp only [s₂]
      split <;> simp
    refine ⟨s₂, fun k => by simp only [pagesRemove, hm]; rfl, ?_, fun x hx => ?_⟩
    · simp [hsp, s₁, LOS_ArchMmuUnmap, PAGE_SIZE_pos.ne']
    · have hout : ¬(va ≤ x ∧ x < va + 1 * PAGE_SIZE) := by omega
      simp only [hsp, s₁, VmSys.setSpace_spaces, Function.update_self, LOS_ArchMmuUnmap, hout, if_false]

/-- The loop leaves the page table outside its range alone. -/
theorem pagesRemove_mmu_out (keepShared : Bool) (pid : Nat) :
    ∀ (k : Nat) (s : VmSys) (va x : Nat), x < va ∨ va + k * PAGE_SIZE ≤ x →
      ((pagesRemove keepShared s pid k va).spaces pid).mmu x = (s.spaces pid).mmu x
  | 0, _, _, _, _ => rfl
  | k + 1, s, va, x, hx => by
    obtain ⟨s', hstep, -, hkeep⟩ := pagesRemove_succ keepShared s pid va
    rw [hstep, pagesRemove_mmu_out keepShared pid k s' (va + PAGE_SIZE) x (by rw [Nat.succ_mul] at hx; omega)]
    exact hkeep x (by rw [Nat.succ_mul] at hx; omega)

/-- The loop unmaps every page of its range. -/
theorem pagesRemove_mmu_page (keepShared : Bool) (pid : Nat) :
    ∀ (k : Nat) (s : VmSys) (va j : Nat), j < k →
      ((pagesRemove keepShared s pid k va).spaces pid).mmu (va + j * PAGE_SIZE) = none
  | 0, _, _, _, hj => absurd hj (Nat.not_lt_zero _)
  | k + 1, s, va, j, hj => by
    obtain ⟨s', hstep, hva, -⟩ := pagesRemove_succ keepShared s pid va
    rw [hstep]
    cases j with
    | zero =>
      -- unmapped in the first round, and outside the rounds after it
      rw [pagesRemove_mmu_out keepShared pid k s' (va + PAGE_SIZE) _ (by have := PAGE_SIZE_pos; omega)]
      simpa using hva
    | succ j =>
      rw [Nat.succ_mul, show va + (j * PAGE_SIZE + PAGE_SIZE) = va + PAGE_SIZE + j * PAGE_SIZE by omega]
      exact pagesRemove_mmu_page keepShared pid k s' (va + PAGE_SIZE) j (by omega)

-- ============================================================ mmap over the heap

/-- `LOS_MMap` of an anonymous mapping whose checked address lies in the
heap region: it returns that address after the page loop of
`OsUserHeapFree` over the whole rounded length. -/
theorem LOS_MMap_heap {s : VmSys} {cur vaddr len prot flags pgoff v h : Nat} {r : LosVmMapRegion}
    (hchk : OsCheckMMapParams (s.spaces cur) vaddr flags (ROUNDUP len PAGE_SIZE) pgoff = .ok v)
    (hanon : flags &&& MAP_ANONYMOUS ≠ 0) (hheap : (s.spaces cur).heap = some h)
    (hfind : LOS_RegionFind (s.spaces cur) v = some r) (hr : r.id = h) :
    LOS_MMap s cur vaddr len prot flags pgoff =
      ((v : Int), pagesRemove false s cur (ROUNDUP len PAGE_SIZE / PAGE_SIZE) v) := by
  simp [LOS_MMap, hchk, hanon, OsUserHeapFree, hheap, hfind, hr]

/-- The same call unmaps every page from the address for the whole
rounded length, whichever regions they belong to, and nothing outside
that range or in another process's space. -/
theorem LOS_MMap_heap_unmaps {s : VmSys} {cur vaddr len prot flags pgoff v h : Nat}
    {r : LosVmMapRegion}
    (hchk : OsCheckMMapParams (s.spaces cur) vaddr flags (ROUNDUP len PAGE_SIZE) pgoff = .ok v)
    (hanon : flags &&& MAP_ANONYMOUS ≠ 0) (hheap : (s.spaces cur).heap = some h)
    (hfind : LOS_RegionFind (s.spaces cur) v = some r) (hr : r.id = h) :
    (LOS_MMap s cur vaddr len prot flags pgoff).1 = v ∧
      (∀ j < ROUNDUP len PAGE_SIZE / PAGE_SIZE,
        ((LOS_MMap s cur vaddr len prot flags pgoff).2.spaces cur).mmu (v + j * PAGE_SIZE) = none) ∧
      (∀ x, x < v ∨ v + ROUNDUP len PAGE_SIZE / PAGE_SIZE * PAGE_SIZE ≤ x →
        ((LOS_MMap s cur vaddr len prot flags pgoff).2.spaces cur).mmu x = (s.spaces cur).mmu x) ∧
      ∀ q, q ≠ cur → (LOS_MMap s cur vaddr len prot flags pgoff).2.spaces q = s.spaces q := by
  rw [LOS_MMap_heap hchk hanon hheap hfind hr]
  exact ⟨rfl, fun j hj => pagesRemove_mmu_page false cur _ s v j hj,
    fun x hx => pagesRemove_mmu_out false cur _ s v x hx,
    fun q hq => (pagesRemove_frame false cur _ v s).spaces q hq⟩

/-- Process `1` sets its break one byte above `USER_HEAP_BASE`, creates
a one-page segment and attaches it two pages above the heap base; then
it maps four pages at the heap base. The call returns the heap base,
and the segment's page loses its mapping and goes back to the free
list, while the segment, with its region still in the tree, holds it. -/
theorem mmap_heap_frees_shared_page :
    ∃ s s', Run Step (vmInit [100])
        [.brk 1 (USER_HEAP_BASE + 1) (USER_HEAP_BASE + PAGE_SIZE : Nat),
         .shmget 1 (OsCreateUser 0 0 1) IPC_PRIVATE 4096 (IPC_CREAT ||| 0o600) 0,
         .shmat 1 (OsCreateUser 0 0 1) 0 (USER_HEAP_BASE + 2 * PAGE_SIZE) 0
           (USER_HEAP_BASE + 2 * PAGE_SIZE : Nat)] s ∧
      (s.spaces 1).mmu (USER_HEAP_BASE + 2 * PAGE_SIZE) = some 100 ∧ 100 ∉ s.freePages ∧
      Step s (.mmap 1 USER_HEAP_BASE (4 * PAGE_SIZE) PROT_READ (MAP_ANONYMOUS ||| MAP_PRIVATE) 0
        (USER_HEAP_BASE : Nat)) s' ∧
      (s'.spaces 1).mmu (USER_HEAP_BASE + 2 * PAGE_SIZE) = none ∧ 100 ∈ s'.freePages ∧
      (s'.segs 0).node = [100] ∧
      (LOS_RegionFind (s'.spaces 1) (USER_HEAP_BASE + 2 * PAGE_SIZE)).isSome := by
  have r₁ := (@Run.nil _ _ Step (vmInit [100])).snoc
    (@Step.brk_ret _ 1 (USER_HEAP_BASE + 1) (USER_HEAP_BASE + PAGE_SIZE : Nat) (by decide))
  have r₂ := r₁.snoc (@Step.shmget _ _ 1 (OsCreateUser 0 0 1) IPC_PRIVATE 4096 (IPC_CREAT ||| 0o600) 0 rfl)
  have r₃ := r₂.snoc (@Step.shmat_ret _ 1 (OsCreateUser 0 0 1) 0 (USER_HEAP_BASE + 2 * PAGE_SIZE) 0
    (USER_HEAP_BASE + 2 * PAGE_SIZE : Nat) (by decide))
  exact ⟨_, _, r₃, by decide, by decide,
    @Step.mmap_ret _ 1 USER_HEAP_BASE (4 * PAGE_SIZE) PROT_READ (MAP_ANONYMOUS ||| MAP_PRIVATE) 0
      (USER_HEAP_BASE : Nat) (by decide),
    by decide, by decide, by decide, by decide⟩

end LiteOsA.Vm
