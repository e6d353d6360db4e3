/-
What `OsAllocRange` finds (los_vm_map.c), against a first-fit search
of the map area.

A first-fit search of `len` bytes (`FirstFit`) returns `0` only when no
`len` bytes between `mapBase` and `mapBase + mapSize` are free of
regions, and otherwise the lowest start from `mapBase` up with `len`
free bytes, inside the map area. `OsAllocRange` keeps all of it but the
last part (`OsAllocRange_firstFitAbove`): its scan over the tree takes
the first gap between two regions that is long enough, without looking
at where the map area ends. Only the gap after the last region is
checked against `mapBase + mapSize`. A region above the map area (a
fixed mapping may go anywhere in the user space) makes the gap below it
count: `alloc_range_outside_map_area` fills the map area and then maps
a page past its end.

The proof follows the scan: what it skips lies below its running end
(`scan_inl`, `scan_inr`), and every range it passes meets a region
(`scan_covers`). The tree is taken in key order with regions of
positive size below `2 ^ 32` (`SpaceOk`), as the red-black tree of a
user space holds them.
-/
import LiteOsA.Vm.Proofs.BrkHeap
import Mathlib.Data.List.TakeWhile

namespace LiteOsA.Vm

-- ============================================================ the specification

/-- `a` ends before `b` begins. -/
def LosVmMapRegion.Before (a b : LosVmMapRegion) : Prop := a.base + a.size ≤ b.base

instance : DecidableRel LosVmMapRegion.Before := fun _ _ => inferInstanceAs (Decidable (_ ≤ _))

/-- The region shares an address with `[a, a + len)`. -/
def LosVmMapRegion.Meets (r : LosVmMapRegion) (a len : Nat) : Prop :=
  r.base < a + len ∧ a < r.base + r.size

/-- The tree of a user space: its regions in key order, each of a
positive size below `2 ^ 32`, and a map area above `0` that ends below
`2 ^ 32`. -/
structure SpaceOk (space : LosVmSpace) : Prop where
  ordered : space.regions.Pairwise LosVmMapRegion.Before
  size_pos : ∀ r ∈ space.regions, 0 < r.size
  fits : ∀ r ∈ space.regions, r.base + r.size < 2 ^ 32
  map_pos : 0 < space.mapBase
  map_fits : space.mapBase + space.mapSize < 2 ^ 32

instance (space : LosVmSpace) : Decidable (SpaceOk space) :=
  decidable_of_iff (space.regions.Pairwise LosVmMapRegion.Before ∧ (∀ r ∈ space.regions, 0 < r.size) ∧
      (∀ r ∈ space.regions, r.base + r.size < 2 ^ 32) ∧ 0 < space.mapBase ∧
      space.mapBase + space.mapSize < 2 ^ 32)
    ⟨fun ⟨a, b, c, d, e⟩ => ⟨a, b, c, d, e⟩, fun ⟨a, b, c, d, e⟩ => ⟨a, b, c, d, e⟩⟩

/-- A first fit from `mapBase` up, whatever the end of the map area:
`0` only when no `len` bytes of the map area are free, and otherwise a
start at or above `mapBase` with `len` free bytes and none below it. -/
def FirstFitAbove (space : LosVmSpace) (len a : Nat) : Prop :=
  (a = 0 → ∀ a', space.mapBase ≤ a' → a' + len ≤ space.mapBase + space.mapSize →
      ∃ r ∈ space.regions, r.Meets a' len) ∧
    (a ≠ 0 → space.mapBase ≤ a ∧ (∀ r ∈ space.regions, ¬ r.Meets a len) ∧
      ∀ a', space.mapBase ≤ a' → a' < a → ∃ r ∈ space.regions, r.Meets a' len)

/-- A first fit in the map area. -/
def FirstFit (space : LosVmSpace) (len a : Nat) : Prop :=
  FirstFitAbove space len a ∧ (a ≠ 0 → a + len ≤ space.mapBase + space.mapSize)

-- ============================================================ lookups

/-- A one-byte key compares equal to the regions that hold it. -/
theorem OsRegionRbCmpKeyFn_one {addr base size : Nat} (haddr : addr < 2 ^ 32) (hsize : 0 < size)
    (hfit : base + size < 2 ^ 32) :
    OsRegionRbCmpKeyFn addr 1 base size = .RB_EQUAL ↔ base ≤ addr ∧ addr < base + size := by
  -- the last byte of `[addr, addr + 1)`, also at the top of the address space
  have hendA : u32Sub (u32 (addr + 1)) 1 = addr := by
    by_cases htop : addr + 1 < 2 ^ 32
    · rw [u32_of_lt htop, u32Sub_of_le (by omega) htop, Nat.add_sub_cancel]
    · have : addr + 1 = 2 ^ 32 := by omega
      rw [this]
      unfold u32Sub u32
      omega
  have hendB : u32Sub (u32 (base + size)) 1 = base + size - 1 := by
    rw [u32_of_lt hfit, u32Sub_of_le (by omega) hfit]
  unfold OsRegionRbCmpKeyFn
  dsimp only
  rw [hendA, hendB]
  split_ifs <;> simp <;> omega

/-- `LOS_RegionFind` answers with a region that holds the address. -/
theorem SpaceOk.LOS_RegionFind_some {space : LosVmSpace} {addr : Nat} {r : LosVmMapRegion}
    (hok : SpaceOk space) (haddr : addr < 2 ^ 32) (h : LOS_RegionFind space addr = some r) :
    r ∈ space.regions ∧ r.base ≤ addr ∧ addr < r.base + r.size := by
  have hr := List.mem_of_find?_eq_some h
  have heq := List.find?_some h
  simp only [decide_eq_true_eq] at heq
  exact ⟨hr, (OsRegionRbCmpKeyFn_one haddr (hok.size_pos r hr) (hok.fits r hr)).mp heq⟩

/-- `LOS_RegionFind` fails only when no region holds the address. -/
theorem SpaceOk.LOS_RegionFind_none {space : LosVmSpace} {addr : Nat}
    (hok : SpaceOk space) (haddr : addr < 2 ^ 32) (h : LOS_RegionFind space addr = none) :
    ∀ r ∈ space.regions, ¬ (r.base ≤ addr ∧ addr < r.base + r.size) := by
  intro r hr hin
  have := List.find?_eq_none.mp h r hr
  simp only [decide_eq_true_eq] at this
  exact this ((OsRegionRbCmpKeyFn_one haddr (hok.size_pos r hr) (hok.fits r hr)).mpr hin)

-- ============================================================ the scan

namespace OsAllocRange

variable {len : Nat}

/-- A gap found by the scan: at or above where it started, and free of
the regions scanned, given that those it skips lie below its start. -/
theorem scan_inl {a : Nat} : ∀ {curEnd : Nat} {l : List LosVmMapRegion},
    l.Pairwise LosVmMapRegion.Before → (∀ r ∈ l, r.base + r.size < 2 ^ 32) →
    (∀ r ∈ l, r.base < curEnd → r.base + r.size ≤ curEnd) →
    scan len curEnd l = .inl a → curEnd ≤ a ∧ ∀ r ∈ l, ¬ r.Meets a len
  | _, [], _, _, _, h => by cases h
  | curEnd, r :: rs, hord, hfit, hskip, h => by
    obtain ⟨hr, hrs⟩ := List.pairwise_cons.mp hord
    have hfit' : ∀ x ∈ rs, x.base + x.size < 2 ^ 32 := fun x hx => hfit x (List.mem_cons_of_mem r hx)
    rw [scan] at h
    split_ifs at h with hlt hgap
    · -- `r` lies below `curEnd`
      have hend := hskip r List.mem_cons_self hlt
      obtain ⟨hle, hfree⟩ := scan_inl hrs hfit' (fun x hx => hskip x (List.mem_cons_of_mem r hx)) h
      refine ⟨hle, fun x hx => ?_⟩
      rcases List.mem_cons.mp hx with rfl | hx
      · unfold LosVmMapRegion.Meets
        omega
      · exact hfree x hx
    · -- a gap of `len` bytes before `r`: the regions after it are further on
      cases h
      refine ⟨le_rfl, fun x hx => ?_⟩
      unfold LosVmMapRegion.Meets
      rcases List.mem_cons.mp hx with rfl | hx
      · omega
      · have := hr x hx
        unfold LosVmMapRegion.Before at this
        omega
    · -- on from the end of `r`, past which the regions after it begin
      rw [u32_of_lt (hfit r List.mem_cons_self)] at h
      have hnext : ∀ x ∈ rs, x.base < r.base + r.size → x.base + x.size ≤ r.base + r.size :=
        fun x hx hlt' => absurd (hr x hx) (by unfold LosVmMapRegion.Before; omega)
      obtain ⟨hle, hfree⟩ := scan_inl hrs hfit' hnext h
      refine ⟨by omega, fun x hx => ?_⟩
      rcases List.mem_cons.mp hx with rfl | hx
      · unfold LosVmMapRegion.Meets
        omega
      · exact hfree x hx

/-- The end of a scan that found no gap: every region scanned lies below
it. -/
theorem scan_inr {e : Nat} : ∀ {curEnd : Nat} {l : List LosVmMapRegion},
    l.Pairwise LosVmMapRegion.Before → (∀ r ∈ l, r.base + r.size < 2 ^ 32) →
    (∀ r ∈ l, r.base < curEnd → r.base + r.size ≤ curEnd) →
    scan len curEnd l = .inr e → curEnd ≤ e ∧ ∀ r ∈ l, r.base + r.size ≤ e
  | _, [], _, _, _, h => by cases h; exact ⟨le_rfl, fun _ h => absurd h List.not_mem_nil⟩
  | curEnd, r :: rs, hord, hfit, hskip, h => by
    obtain ⟨hr, hrs⟩ := List.pairwise_cons.mp hord
    have hfit' : ∀ x ∈ rs, x.base + x.size < 2 ^ 32 := fun x hx => hfit x (List.mem_cons_of_mem r hx)
    rw [scan] at h
    split_ifs at h with hlt hgap
    · have hend := hskip r List.mem_cons_self hlt
      obtain ⟨hle, hbelow⟩ := scan_inr hrs hfit' (fun x hx => hskip x (List.mem_cons_of_mem r hx)) h
      refine ⟨hle, fun x hx => ?_⟩
      rcases List.mem_cons.mp hx with rfl | hx
      · omega
      · exact hbelow x hx
    · rw [u32_of_lt (hfit r List.mem_cons_self)] at h
      have hnext : ∀ x ∈ rs, x.base < r.base + r.size → x.base + x.size ≤ r.base + r.size :=
        fun x hx hlt' => absurd (hr x hx) (by unfold LosVmMapRegion.Before; omega)
      obtain ⟨hle, hbelow⟩ := scan_inr hrs hfit' hnext h
      refine ⟨by omega, fun x hx => ?_⟩
      rcases List.mem_cons.mp hx with rfl | hx
      · exact hle
      · exact hbelow x hx

/-- Every range that starts between the scan's start and where it stops
meets a scanned region: each gap it passes is shorter than `len`. -/
theorem scan_covers : ∀ {curEnd : Nat} {l : List LosVmMapRegion}, (∀ r ∈ l, r.base + r.size < 2 ^ 32) →
    ∀ a, curEnd ≤ a → a < (scan len curEnd l).elim id id → ∃ r ∈ l, r.Meets a len
  | _, [], _, a, h₁, h₂ => absurd h₂ (by simp [scan]; omega)
  | curEnd, r :: rs, hfit, a, h₁, h₂ => by
    have hfit' : ∀ x ∈ rs, x.base + x.size < 2 ^ 32 := fun x hx => hfit x (List.mem_cons_of_mem r hx)
    rw [scan] at h₂
    split_ifs at h₂ with hlt hgap
    · obtain ⟨x, hx, hm⟩ := scan_covers hfit' a h₁ h₂
      exact ⟨x, List.mem_cons_of_mem r hx, hm⟩
    · exact absurd h₂ (by simp; omega)
    · rw [u32_of_lt (hfit r List.mem_cons_self)] at h₂
      by_cases ha : a < r.base + r.size
      · -- the gap before `r` is shorter than `len`
        exact ⟨r, List.mem_cons_self, by omega, ha⟩
      · obtain ⟨x, hx, hm⟩ := scan_covers hfit' a (by omega) h₂
        exact ⟨x, List.mem_cons_of_mem r hx, hm⟩
end OsAllocRange

-- ============================================================ the search

/-- The end of `OsAllocRange`, from a scan over the regions `l` that
starts at `c`: a first fit above `mapBase` when the regions before `l`
lie below `mapBase` and every range between `mapBase` and `c` meets a
region. -/
theorem OsAllocRange.finish {space : LosVmSpace} {len : Nat} (hok : SpaceOk space)
    {pre l : List LosVmMapRegion} {c : Nat} (hsplit : space.regions = pre ++ l)
    (hpre : ∀ x ∈ pre, x.base + x.size ≤ space.mapBase)
    (hskip : ∀ r ∈ l, r.base < c → r.base + r.size ≤ c) (hc : space.mapBase ≤ c)
    (hcov : ∀ a, space.mapBase ≤ a → a < c → ∃ r ∈ space.regions, r.Meets a len) :
    FirstFitAbove space len (match OsAllocRange.scan len c l with
      | .inl v => v
      | .inr curEnd =>
        let nextStart := u32 (space.mapBase + space.mapSize)
        if nextStart ≥ curEnd ∧ nextStart - curEnd ≥ len then curEnd else 0) := by
  have hord : l.Pairwise LosVmMapRegion.Before := (hsplit ▸ hok.ordered).sublist (List.sublist_append_right pre l)
  have hmem : ∀ x ∈ l, x ∈ space.regions := fun x hx => hsplit ▸ List.mem_append_right pre hx
  have hfit : ∀ x ∈ l, x.base + x.size < 2 ^ 32 := fun x hx => hok.fits x (hmem x hx)
  -- no region of `pre` meets a range at or above `mapBase`
  have hfree : ∀ a, space.mapBase ≤ a → (∀ r ∈ l, ¬ r.Meets a len) → ∀ r ∈ space.regions, ¬ r.Meets a len := by
    intro a ha hl r hr
    rw [hsplit] at hr
    rcases List.mem_append.mp hr with hr | hr
    · have := hpre r hr
      unfold LosVmMapRegion.Meets
      omega
    · exact hl r hr
  -- below the scan's position, every range from `mapBase` meets a region
  have hbelow : ∀ a, space.mapBase ≤ a → a < (OsAllocRange.scan len c l).elim id id →
      ∃ r ∈ space.regions, r.Meets a len := by
    intro a ha hlt
    by_cases hac : a < c
    · exact hcov a ha hac
    · obtain ⟨r, hr, hm⟩ := OsAllocRange.scan_covers hfit a (by omega) hlt
      exact ⟨r, hmem r hr, hm⟩
  split
  · -- a gap before a region
    rename_i v hv
    obtain ⟨hcv, hl⟩ := OsAllocRange.scan_inl hord hfit hskip hv
    have hv0 : v ≠ 0 := by have := hok.map_pos; omega
    refine ⟨fun h => absurd h hv0, fun _ => ⟨by omega, hfree v (by omega) hl, fun a ha hlt => ?_⟩⟩
    exact hbelow a ha (by rw [hv]; exact hlt)
  · -- past the last region: the gap up to the end of the map area
    rename_i e he
    obtain ⟨hce, hl⟩ := OsAllocRange.scan_inr hord hfit hskip he
    rw [u32_of_lt hok.map_fits]
    dsimp only
    split
    · rename_i hgap
      have he0 : e ≠ 0 := by have := hok.map_pos; omega
      refine ⟨fun h => absurd h he0, fun _ => ⟨by omega, hfree e (by omega) fun r hr => ?_, fun a ha hlt => ?_⟩⟩
      · have := hl r hr
        unfold LosVmMapRegion.Meets
        omega
      · exact hbelow a ha (by rw [he]; exact hlt)
    · rename_i hgap
      refine ⟨fun _ a ha hend => ?_, fun h => absurd rfl h⟩
      by_cases hae : a < e
      · exact hbelow a ha (by rw [he]; exact hae)
      · exact absurd ⟨by omega, by omega⟩ hgap

/-- `OsAllocRange` finds the first fit from `mapBase` up, and reports
`0` exactly when the map area has no room. -/
theorem OsAllocRange_firstFitAbove {space : LosVmSpace} {len : Nat} (hok : SpaceOk space) (hlen : 0 < len) :
    FirstFitAbove space len (OsAllocRange space len) := by
  have hmap : space.mapBase < 2 ^ 32 := by have := hok.map_fits; omega
  unfold OsAllocRange
  cases hfind : LOS_RegionFind space space.mapBase with
  | some r =>
    -- the scan starts at the region holding `mapBase`
    obtain ⟨hmem, hlo, hhi⟩ := hok.LOS_RegionFind_some hmap hfind
    simp only
    -- `dropWhile` stops at `r`: the regions before it, and `r` with those after it
    have hne : space.regions.dropWhile (fun x => decide (x ≠ r)) ≠ [] := fun h => by
      simpa using List.dropWhile_eq_nil_iff.mp h r hmem
    obtain ⟨x, rest, hdrop⟩ := List.exists_cons_of_ne_nil hne
    obtain rfl : x = r := by
      have hhead := List.head_dropWhile_not (fun x => decide (x ≠ r)) hne
      rw [(List.head_eq_iff_head?_eq_some hne).mpr (by rw [hdrop]; rfl)] at hhead
      simpa using hhead
    have hsplit : space.regions = space.regions.takeWhile (fun y => decide (y ≠ x)) ++ x :: rest := by
      rw [← hdrop, List.takeWhile_append_dropWhile]
    have hord := List.pairwise_append.mp (hsplit ▸ hok.ordered)
    rw [hdrop, u32_of_lt (hok.fits x hmem)]
    refine OsAllocRange.finish hok hsplit (fun y hy => ?_) (fun y hy hlt => ?_) (by omega)
      (fun a ha hlt => ⟨x, hmem, by omega, hlt⟩)
    · have := hord.2.2 y hy x List.mem_cons_self
      unfold LosVmMapRegion.Before at this
      omega
    · rcases List.mem_cons.mp hy with rfl | hy
      · exact le_rfl
      · have := (List.pairwise_cons.mp hord.2.1).1 y hy
        unfold LosVmMapRegion.Before at this
        omega
  | none =>
    -- no region holds `mapBase`: the scan starts at the first region
    have hnone := hok.LOS_RegionFind_none hmap hfind
    simp only
    refine OsAllocRange.finish hok (List.nil_append _).symm (fun _ h => absurd h List.not_mem_nil)
      (fun x hx hlt => ?_) le_rfl (fun a ha hlt => absurd hlt (by omega))
    by_contra hend
    exact hnone x hx ⟨by omega, by omega⟩

-- ============================================================ past the map area

/-- Process `1` maps a page at a fixed address 1 MiB past the end of the
map area, and then the whole map area: `OsAllocRange` then answers a
page at the end of the map area, outside it, and `mmap` maps it there. -/
theorem alloc_range_outside_map_area :
    ∃ s, Run Step (vmInit [])
        [.mmap 1 (USER_MAP_BASE + USER_MAP_SIZE + 0x100000) PAGE_SIZE (PROT_READ ||| PROT_WRITE)
           (MAP_ANONYMOUS ||| MAP_PRIVATE ||| MAP_FIXED) 0 (USER_MAP_BASE + USER_MAP_SIZE + 0x100000 : Nat),
         .mmap 1 0 USER_MAP_SIZE (PROT_READ ||| PROT_WRITE) (MAP_ANONYMOUS ||| MAP_PRIVATE) 0
           (USER_MAP_BASE : Nat)] s ∧
      SpaceOk (s.spaces 1) ∧ RegionsDisjoint (s.spaces 1) ∧
      OsAllocRange (s.spaces 1) PAGE_SIZE = USER_MAP_BASE + USER_MAP_SIZE ∧
      ¬ FirstFit (s.spaces 1) PAGE_SIZE (OsAllocRange (s.spaces 1) PAGE_SIZE) ∧
      ∃ s', Step s (.mmap 1 0 PAGE_SIZE (PROT_READ ||| PROT_WRITE) (MAP_ANONYMOUS ||| MAP_PRIVATE) 0
        (USER_MAP_BASE + USER_MAP_SIZE : Nat)) s' := by
  have r₁ := (@Run.nil _ _ Step (vmInit [])).snoc
    (@Step.mmap_ret _ 1 (USER_MAP_BASE + USER_MAP_SIZE + 0x100000) PAGE_SIZE (PROT_READ ||| PROT_WRITE)
      (MAP_ANONYMOUS ||| MAP_PRIVATE ||| MAP_FIXED) 0 (USER_MAP_BASE + USER_MAP_SIZE + 0x100000 : Nat) (by decide))
  have r₂ := r₁.snoc (@Step.mmap_ret _ 1 0 USER_MAP_SIZE (PROT_READ ||| PROT_WRITE) (MAP_ANONYMOUS ||| MAP_PRIVATE) 0
    (USER_MAP_BASE : Nat) (by decide))
  refine ⟨_, r₂, by decide, by decide, by decide, fun ⟨_, hin⟩ => absurd (hin (by decide)) (by decide),
    _, @Step.mmap_ret _ 1 0 PAGE_SIZE (PROT_READ ||| PROT_WRITE) (MAP_ANONYMOUS ||| MAP_PRIVATE) 0
      (USER_MAP_BASE + USER_MAP_SIZE : Nat) (by decide)⟩

end LiteOsA.Vm
