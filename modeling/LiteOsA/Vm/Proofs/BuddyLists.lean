/-
The invariant of the buddy lists (kernel/base/vm/los_vm_phys.c), and
what one list operation does to it.

`BuddyOk` is what the C code relies on without checking: the first page
of each free block records the block's order and no other page records
one below `VM_LIST_ORDER_MAX` (so `buddyPage->order == order` is the
test "the buddy is free"), the blocks lie in the segment, no two share a
page, and no two buddies of an order below the largest are both free.

The lists are read as one list of blocks, `freeBlocks` (frame and
order), and their pages as `freePages`. `OsVmPhysFreeListAdd` adds one
block to it and `OsVmPhysFreeListDel` takes one away, up to order
(`freeBlocks_add`, `OsVmPhysFreeListDel_spec`); the accounting of every
later proof is these two permutations. A block about to go on a list is
`Unlisted`: its pages are free in the sense of the allocator but on no
list, which is what the merge loop of `OsVmPhysPagesFree` carries.
-/
import LiteOsA.Vm.Buddy
import LiteOsA.Vm.Proofs.PhysFree
import LiteOsA.Lib.Buddy

namespace LiteOsA.Vm

-- ============================================================ vocabulary

/-- The blocks of the segment's lists, frame and order. -/
def freeBlocks (s : VmPhysSeg) : List (Nat × Nat) := Buddy.tagged s.freeList VM_LIST_ORDER_MAX

/-- The pages of the free blocks. -/
def freePages (s : VmPhysSeg) : List Nat := blockPages (freeBlocks s)

/-- The first frame of an area. -/
def VmPhysArea.firstPage (a : VmPhysArea) : Nat := a.start / PAGE_SIZE

/-- The frame past an area. -/
def VmPhysArea.endPage (a : VmPhysArea) : Nat := (a.start + a.size) / PAGE_SIZE

theorem blockPages_perm {l l' : List (Nat × Nat)} (h : List.Perm l l') :
    List.Perm (blockPages l) (blockPages l') :=
  (h.map _).flatten

/-- Blocks whose pages are distinct are distinct. -/
theorem nodup_of_blockPages : ∀ {l : List (Nat × Nat)}, (blockPages l).Nodup → l.Nodup
  | [], _ => List.nodup_nil
  | b :: l, h => by
    rw [blockPages_cons, List.nodup_append] at h
    obtain ⟨-, hl, hdis⟩ := h
    refine List.nodup_cons.mpr ⟨fun hb => ?_, nodup_of_blockPages hl⟩
    -- the block's first page would lie in the rest too
    have hfirst : b.1 ∈ blockPages l := mem_blockPages.mpr ⟨b, hb, le_rfl, by simp⟩
    exact hdis b.1 (by simp) b.1 hfirst rfl

-- ============================================================ addresses and frames

theorem VM_PAGE_TO_PHYS_eq (f : Nat) : VM_PAGE_TO_PHYS f = f * PAGE_SIZE := by
  rw [VM_PAGE_TO_PHYS, Nat.shiftLeft_eq]
  rfl

theorem VM_ORDER_TO_PHYS_eq (k : Nat) : VM_ORDER_TO_PHYS k = 2 ^ (PAGE_SHIFT + k) := by
  rw [VM_ORDER_TO_PHYS, Nat.one_shiftLeft]

/-- The frame of an address of the area. -/
theorem VmPhysArea.pageAt_eq (a : VmPhysArea) {pa : Nat} (h : a.start ≤ pa) :
    a.pageAt pa = pa / PAGE_SIZE := by
  have hs := a.start_page
  rw [VmPhysArea.pageAt, Nat.shiftRight_eq_div_pow, Nat.shiftRight_eq_div_pow]
  change a.start / PAGE_SIZE + (pa - a.start) / PAGE_SIZE = pa / PAGE_SIZE
  unfold PAGE_SIZE at hs ⊢
  omega

/-- `OsVmPhysToPage` at the address of a frame: the frame, if the
segment has it. -/
theorem OsVmPhysToPage_frame (s : VmPhysSeg) (f : Nat) :
    OsVmPhysToPage s (VM_PAGE_TO_PHYS f) =
      if s.firstPage ≤ f ∧ f < s.endPage then some f else none := by
  have hs := s.start_page
  have hz := s.size_page
  rw [OsVmPhysToPage, VM_PAGE_TO_PHYS_eq, VmPhysArea.firstPage, VmPhysArea.endPage]
  by_cases hin : s.start / PAGE_SIZE ≤ f ∧ f < (s.start + s.size) / PAGE_SIZE
  · have hlo : s.start ≤ f * PAGE_SIZE := by
      unfold PAGE_SIZE at hs hin ⊢
      omega
    rw [if_pos hin, if_neg (by unfold PAGE_SIZE at hs hz hin ⊢; omega), s.pageAt_eq hlo,
      Nat.mul_div_cancel _ (by decide)]
  · rw [if_neg hin, if_pos (by unfold PAGE_SIZE at hs hz hin ⊢; omega)]

/-- The buddy's address, `pa ^= VM_ORDER_TO_PHYS(order)`, is the
address of the buddy's frame. -/
theorem VM_PAGE_TO_PHYS_xor (f k : Nat) :
    VM_PAGE_TO_PHYS f ^^^ VM_ORDER_TO_PHYS k = VM_PAGE_TO_PHYS (f ^^^ 2 ^ k) := by
  have hbit : VM_ORDER_TO_PHYS k = 2 ^ k <<< PAGE_SHIFT := by
    rw [VM_ORDER_TO_PHYS, Nat.shiftLeft_eq, Nat.shiftLeft_eq, Nat.one_mul, Nat.pow_add, Nat.mul_comm]
  rw [hbit, VM_PAGE_TO_PHYS, VM_PAGE_TO_PHYS, Nat.shiftLeft_xor_distrib]

/-- `pa &= ~(VM_ORDER_TO_PHYS(order) - 1)` clears the low bits of the
frame. -/
theorem VM_PAGE_TO_PHYS_mask {b k : Nat} (hb : VM_PAGE_TO_PHYS b < 2 ^ 32)
    (hk : k + 1 ≤ VM_LIST_ORDER_MAX) :
    VM_PAGE_TO_PHYS b &&& ((2 ^ 32 - 1) ^^^ (VM_ORDER_TO_PHYS (k + 1) - 1)) =
      VM_PAGE_TO_PHYS (b / 2 ^ (k + 1) * 2 ^ (k + 1)) := by
  have hn : PAGE_SHIFT + (k + 1) ≤ 32 := by
    unfold PAGE_SHIFT
    unfold VM_LIST_ORDER_MAX at hk
    omega
  have hsplit : 2 ^ (PAGE_SHIFT + (k + 1)) = PAGE_SIZE * 2 ^ (k + 1) := by
    rw [Nat.pow_add]
    rfl
  rw [VM_ORDER_TO_PHYS_eq, and_not_low_bits hb hn, VM_PAGE_TO_PHYS_eq, VM_PAGE_TO_PHYS_eq, hsplit,
    Nat.mul_comm b PAGE_SIZE, Nat.mul_div_mul_left _ _ (by decide : 0 < PAGE_SIZE)]
  ring

-- ============================================================ the list operations

/-- `s'` is `s` with other lists and other orders recorded: the area, and
every page's run length and references, are as they were. -/
structure ListsOnly (s s' : VmPhysSeg) : Prop where
  area : s'.toVmPhysArea = s.toVmPhysArea
  nPages : ∀ x, (s'.pages x).nPages = (s.pages x).nPages
  refCounts : ∀ x, (s'.pages x).refCounts = (s.pages x).refCounts

theorem ListsOnly.refl (s : VmPhysSeg) : ListsOnly s s := ⟨rfl, fun _ => rfl, fun _ => rfl⟩

theorem ListsOnly.trans {s₁ s₂ s₃ : VmPhysSeg} (h₁ : ListsOnly s₁ s₂) (h₂ : ListsOnly s₂ s₃) :
    ListsOnly s₁ s₃ :=
  ⟨h₂.area.trans h₁.area, fun x => (h₂.nPages x).trans (h₁.nPages x),
    fun x => (h₂.refCounts x).trans (h₁.refCounts x)⟩

/-- Writing the order a page records changes nothing else of it. -/
theorem ListsOnly.of_order {s s' : VmPhysSeg} {p o : Nat} (harea : s'.toVmPhysArea = s.toVmPhysArea)
    (hpages : s'.pages = Function.update s.pages p { s.pages p with order := o }) : ListsOnly s s' := by
  refine ⟨harea, fun x => ?_, fun x => ?_⟩ <;>
  · rw [hpages, Function.update_apply]
    split <;> simp_all

section Ops

variable (s : VmPhysSeg) (p k : Nat)

@[simp] theorem OsVmPhysFreeListAdd_area :
    (OsVmPhysFreeListAdd s p k).toVmPhysArea = s.toVmPhysArea := rfl

theorem OsVmPhysFreeListAdd_order (x : Nat) :
    ((OsVmPhysFreeListAdd s p k).pages x).order = if x = p then k else (s.pages x).order := by
  simp only [OsVmPhysFreeListAdd, Function.update_apply]
  split <;> simp_all

@[simp] theorem OsVmPhysFreeListAdd_pages_other {x : Nat} (hx : x ≠ p) :
    (OsVmPhysFreeListAdd s p k).pages x = s.pages x :=
  Function.update_of_ne hx _ _

@[simp] theorem setPage_area (f : LosVmPage → LosVmPage) :
    (s.setPage p f).toVmPhysArea = s.toVmPhysArea := rfl

@[simp] theorem setPage_freeList (f : LosVmPage → LosVmPage) :
    (s.setPage p f).freeList = s.freeList := rfl

@[simp] theorem setPage_listCnt (f : LosVmPage → LosVmPage) :
    (s.setPage p f).listCnt = s.listCnt := rfl

theorem setPage_pages (f : LosVmPage → LosVmPage) (x : Nat) :
    (s.setPage p f).pages x = if x = p then f (s.pages p) else s.pages x :=
  Function.update_apply _ _ _ _

variable {s p k}

theorem ListsOnly.add : ListsOnly s (OsVmPhysFreeListAdd s p k) :=
  ListsOnly.of_order rfl rfl


theorem freeBlocks_add (hk : k < VM_LIST_ORDER_MAX) :
    List.Perm (freeBlocks (OsVmPhysFreeListAdd s p k)) (freeBlocks s ++ [(p, k)]) :=
  Buddy.tagged_update_append hk [p]

/-- A block more or less on the lists is its pages more or less free. -/
theorem freePages_perm_of {s₁ s₂ : VmPhysSeg} {q j : Nat}
    (h : List.Perm (freeBlocks s₁) (freeBlocks s₂ ++ [(q, j)])) :
    List.Perm (freePages s₁) (freePages s₂ ++ List.range' q (2 ^ j)) := by
  have := blockPages_perm h
  rwa [blockPages_append, blockPages_cons, blockPages_nil, List.append_nil] at this

theorem freePages_add (hk : k < VM_LIST_ORDER_MAX) :
    List.Perm (freePages (OsVmPhysFreeListAdd s p k)) (freePages s ++ List.range' p (2 ^ k)) :=
  freePages_perm_of (freeBlocks_add hk)

/-- `OsVmPhysFreeListDel` on a page that records an order: the page's
block leaves the lists, the page records none, and the rest stays. -/
theorem OsVmPhysFreeListDel_spec (h : (s.pages p).order < VM_LIST_ORDER_MAX) :
    ∃ s', OsVmPhysFreeListDel s p = some s' ∧ ListsOnly s s' ∧
      s'.freeList = Function.update s.freeList (s.pages p).order ((s.freeList (s.pages p).order).erase p) ∧
      s'.listCnt = Function.update s.listCnt (s.pages p).order (u32Sub (s.listCnt (s.pages p).order) 1) ∧
      ∀ x, (s'.pages x).order = if x = p then VM_LIST_ORDER_MAX else (s.pages x).order := by
  rw [OsVmPhysFreeListDel, if_neg (by omega)]
  refine ⟨_, rfl, ListsOnly.of_order rfl rfl, rfl, rfl, fun x => ?_⟩
  simp only [Function.update_apply]
  split <;> simp_all

end Ops

-- ============================================================ the invariant

/-- What the C code relies on of the lists. -/
structure BuddyOk (s : VmPhysSeg) : Prop where
  /-- The first page of a free block records its order. -/
  mem_order : ∀ b ∈ freeBlocks s, (s.pages b.1).order = b.2
  /-- A page that records an order the lists have starts a free block of it. -/
  order_mem : ∀ f, (s.pages f).order < VM_LIST_ORDER_MAX → (f, (s.pages f).order) ∈ freeBlocks s
  /-- `listCnt` counts its list, as a `UINT32`. -/
  count : ∀ k, s.listCnt k = u32 (s.freeList k).length
  inside : ∀ b ∈ freeBlocks s, s.firstPage ≤ b.1 ∧ b.1 + 2 ^ b.2 ≤ s.endPage
  disjoint : (freePages s).Nodup
  /-- Aligned, and merged below the largest order. -/
  merged : Buddy.Merged (freeBlocks s) (VM_LIST_ORDER_MAX - 1)

/-- A block that may go on a list: an order the lists have, aligned,
inside the segment, and apart from the free pages. -/
structure Unlisted (s : VmPhysSeg) (p k : Nat) : Prop where
  order : k < VM_LIST_ORDER_MAX
  aligned : 2 ^ k ∣ p
  inside : s.firstPage ≤ p ∧ p + 2 ^ k ≤ s.endPage
  apart : (freePages s ++ List.range' p (2 ^ k)).Nodup

section Inv

variable {s : VmPhysSeg} {p k : Nat}

theorem BuddyOk.nodup (h : BuddyOk s) : (freeBlocks s).Nodup :=
  nodup_of_blockPages h.disjoint

/-- A free block's pages are free pages. -/
theorem mem_freePages_of_block {b : Nat × Nat} (hb : b ∈ freeBlocks s) {x : Nat}
    (hlo : b.1 ≤ x) (hhi : x < b.1 + 2 ^ b.2) : x ∈ freePages s :=
  mem_blockPages.mpr ⟨b, hb, hlo, hhi⟩

/-- No free block starts inside an unlisted one. -/
theorem Unlisted.not_start (hu : Unlisted s p k) {b : Nat × Nat} (hb : b ∈ freeBlocks s) :
    ¬ (p ≤ b.1 ∧ b.1 < p + 2 ^ k) := by
  rintro ⟨hlo, hhi⟩
  have hfree : b.1 ∈ freePages s := mem_freePages_of_block hb le_rfl (by simp)
  exact (List.nodup_append.mp hu.apart).2.2 b.1 hfree b.1 (by simp; omega) rfl

/-- A page inside an unlisted block records no order the lists have. -/
theorem Unlisted.order_ge (h : BuddyOk s) (hu : Unlisted s p k) {x : Nat} (hlo : p ≤ x)
    (hhi : x < p + 2 ^ k) : VM_LIST_ORDER_MAX ≤ (s.pages x).order := by
  by_contra hlt
  exact hu.not_start (h.order_mem x (by omega)) ⟨hlo, hhi⟩

/-- `listCnt--` on a `UINT32` count of a list that is not empty. -/
theorem u32Sub_u32_one {n : Nat} (h : 0 < n) : u32Sub (u32 n) 1 = u32 (n - 1) := by
  unfold u32Sub u32
  omega

/-- Adding an unlisted block whose buddy is not free keeps the
invariant. -/
theorem BuddyOk.add (h : BuddyOk s) (hu : Unlisted s p k)
    (hbuddy : k < VM_LIST_ORDER_MAX - 1 → (p ^^^ 2 ^ k, k) ∉ freeBlocks s) :
    BuddyOk (OsVmPhysFreeListAdd s p k) := by
  have hperm := freeBlocks_add (s := s) (p := p) hu.order
  have hmem : ∀ b, b ∈ freeBlocks (OsVmPhysFreeListAdd s p k) ↔ b ∈ freeBlocks s ∨ b = (p, k) := by
    intro b
    rw [hperm.mem_iff]
    simp
  -- the blocks already free start elsewhere than `p`
  have hne : ∀ b ∈ freeBlocks s, b.1 ≠ p := by
    intro b hb hbp
    exact hu.not_start hb ⟨hbp ▸ le_rfl, by rw [hbp]; simp⟩
  refine ⟨?_, ?_, ?_, ?_, ?_, ⟨?_, ?_⟩⟩
  · -- mem_order
    intro b hb
    rw [OsVmPhysFreeListAdd_order]
    rcases (hmem b).mp hb with hb | rfl
    · rw [if_neg (hne b hb)]
      exact h.mem_order b hb
    · simp
  · -- order_mem
    intro f hf
    rw [OsVmPhysFreeListAdd_order] at hf ⊢
    by_cases hfp : f = p
    · subst hfp
      simp only [if_true]
      exact (hmem _).mpr (Or.inr rfl)
    · simp only [if_neg hfp] at hf ⊢
      exact (hmem _).mpr (Or.inl (h.order_mem f hf))
  · -- count
    intro j
    simp only [OsVmPhysFreeListAdd, Function.update_apply]
    split
    · subst j
      rw [h.count, List.length_append, List.length_singleton]
      unfold u32
      omega
    · exact h.count j
  · -- inside
    intro b hb
    rcases (hmem b).mp hb with hb | rfl
    · exact h.inside b hb
    · exact hu.inside
  · -- disjoint
    exact ((freePages_add hu.order).nodup_iff).mpr hu.apart
  · -- aligned
    intro b hb
    rcases (hmem b).mp hb with hb | rfl
    · exact h.merged.aligned b hb
    · exact hu.aligned
  · -- no buddy: the new block's is not free, and it is nobody's buddy
    intro b hb hlt hin
    rcases (hmem _).mp hin with hin | hin
    · rcases (hmem b).mp hb with hb | rfl
      · exact h.merged.no_buddy b hb hlt hin
      · exact hbuddy hlt hin
    · rcases (hmem b).mp hb with hb | rfl
      · -- then `b` is the new block's buddy
        have hk : b.2 = k := (Prod.mk.inj hin).2
        have hb1 : b.1 = p ^^^ 2 ^ k := by
          rw [← hk, ← (Prod.mk.inj hin).1, Nat.xor_assoc, Nat.xor_self, Nat.xor_zero]
        exact hbuddy (hk ▸ hlt) (by rw [← hb1, ← hk]; exact hb)
      · -- a block is not its own buddy
        have hx : p ^^^ 2 ^ k = p := (Prod.mk.inj hin).1
        have hcancel : 2 ^ k = p ^^^ (p ^^^ 2 ^ k) := by
          rw [← Nat.xor_assoc, Nat.xor_self, Nat.zero_xor]
        rw [hx, Nat.xor_self] at hcancel
        exact absurd hcancel (Nat.two_pow_pos k).ne'

/-- Taking a free block off its list keeps the invariant; the block is
what the lists lose. -/
theorem BuddyOk.del (h : BuddyOk s) (hb : (p, k) ∈ freeBlocks s) :
    ∃ s', OsVmPhysFreeListDel s p = some s' ∧ ListsOnly s s' ∧ BuddyOk s' ∧
      List.Perm (freeBlocks s) (freeBlocks s' ++ [(p, k)]) := by
  have hord : (s.pages p).order = k := h.mem_order _ hb
  have hk : k < VM_LIST_ORDER_MAX := (Buddy.mem_tagged.mp hb).1
  obtain ⟨s', hdel, harea, hlist, hcnt, hpages⟩ := OsVmPhysFreeListDel_spec (s := s) (p := p) (by omega)
  rw [hord] at hlist hcnt
  have hperm : List.Perm (freeBlocks s) (freeBlocks s' ++ [(p, k)]) := by
    rw [freeBlocks, freeBlocks, hlist]
    exact Buddy.tagged_update_erase hk (Buddy.mem_tagged.mp hb).2
  have hnd : (freeBlocks s' ++ [(p, k)]).Nodup := hperm.nodup_iff.mp h.nodup
  have hgone : (p, k) ∉ freeBlocks s' := fun hin => by
    have := (List.nodup_append.mp hnd).2.2 _ hin _ (List.mem_singleton_self _)
    exact this rfl
  have hsub : ∀ b ∈ freeBlocks s', b ∈ freeBlocks s := fun b hb' =>
    hperm.mem_iff.mpr (List.mem_append_left _ hb')
  have hpages' : List.Perm (freePages s) (freePages s' ++ List.range' p (2 ^ k)) := freePages_perm_of hperm
  refine ⟨s', hdel, harea, ⟨?_, ?_, ?_, ?_, ?_, ⟨?_, ?_⟩⟩, hperm⟩
  · -- mem_order: what is left starts elsewhere than `p`
    intro b hb'
    have hbp : b.1 ≠ p := by
      intro hbp
      have : b.2 = k := by rw [← h.mem_order b (hsub b hb'), hbp, hord]
      exact hgone (by rw [← hbp, ← this]; exact hb')
    rw [hpages, if_neg hbp]
    exact h.mem_order b (hsub b hb')
  · -- order_mem
    intro f hf
    rw [hpages] at hf ⊢
    by_cases hfp : f = p
    · simp [hfp] at hf
    · simp only [if_neg hfp] at hf ⊢
      have hin := hperm.mem_iff.mp (h.order_mem f hf)
      rcases List.mem_append.mp hin with hin | hin
      · exact hin
      · exact absurd (Prod.mk.inj (List.mem_singleton.mp hin)).1 hfp
  · -- count
    intro j
    rw [hcnt, hlist]
    simp only [Function.update_apply]
    split
    · subst j
      have hpk : p ∈ s.freeList k := (Buddy.mem_tagged.mp hb).2
      rw [h.count, List.length_erase_of_mem hpk]
      exact u32Sub_u32_one (List.length_pos_of_mem hpk)
    · exact h.count j
  · -- inside
    intro b hb'
    rw [harea.area]
    exact h.inside b (hsub b hb')
  · -- disjoint
    exact (hpages'.nodup_iff.mp h.disjoint).sublist (List.sublist_append_left _ _)
  · -- aligned
    exact fun b hb' => h.merged.aligned b (hsub b hb')
  · -- no buddy
    exact fun b hb' hlt hin => h.merged.no_buddy b (hsub b hb') hlt (hsub _ hin)

/-- Rewriting a page descriptor without its order leaves the lists as
they were. -/
theorem BuddyOk.setPage (h : BuddyOk s) {f : LosVmPage → LosVmPage} (hf : ∀ q, (f q).order = q.order) :
    BuddyOk (s.setPage p f) := by
  have horder : ∀ x, ((s.setPage p f).pages x).order = (s.pages x).order := by
    intro x
    rw [setPage_pages]
    split
    · subst x
      exact hf _
    · rfl
  exact ⟨fun b hb => by rw [horder]; exact h.mem_order b hb,
    fun x hx => by rw [horder] at hx ⊢; exact h.order_mem x hx,
    h.count, h.inside, h.disjoint, h.merged⟩

end Inv

end LiteOsA.Vm
