/-
The membox pool invariant, and what it says about `LOS_MemboxFree`.

# The invariant

The block size `bs` and count `num` are fixed by `LOS_MemboxInit` for
the life of the pool, so they are parameters here, with what init
guarantees of them (`Geometry`) and the one assumption the magic check
needs (no block begins at the address `OS_MEMBOX_MAGIC`) as section
hypotheses. `FreeInv` ties memory to the ghost list `free` of free
blocks: the links from `stFreeList` thread exactly `free`, every free
node is a block, every other block carries `OS_MEMBOX_MAGIC`, and
`uwBlkCnt` counts the rest. `Inv` adds that the header still records
`bs` and `num` and that the handed-out pointers are exactly the user
words of the blocks that are not free.

# Why the magic word decides

`LOS_MemboxFree` checks the offset and then reads the block's link
word. A free block's link word is `NULL` or the address of another free
block (`LinkList.next_mem`); an allocated one holds the magic. The two
are told apart as long as no block sits at the address
`OS_MEMBOX_MAGIC` — true of every pool at an address that is a multiple
of four, false for the pool of `membox_double_free_at_magic`, where a
free block's link word equals the magic and a second free of it is
accepted.
-/
import LiteOsA.Mem.Membox
import LiteOsA.Lib.Reach
import LiteOsA.Lib.LinkList
import Mathlib.Data.List.Perm.Subperm

namespace LiteOsA.Membox

-- ============================================================ geometry

/-- The address of block `i` of a pool of `bs`-byte blocks. -/
def blockAddr (pool bs i : Nat) : Nat :=
  pool + sizeofInfo + i * bs

/-- The `num` blocks of the pool, in address order. -/
def blocks (pool bs num : Nat) : List Nat :=
  (List.range num).map (blockAddr pool bs)

/-- The block size `LOS_MemboxInit` computes from its argument. -/
def initBlkSize (blkSize : Nat) : Nat :=
  LOS_MEMBOX_ALLIGNED (u32 (blkSize + OS_MEMBOX_NODE_HEAD_SIZE))

/-- The block count `LOS_MemboxInit` computes from its arguments. -/
def initBlkNum (poolSize blkSize : Nat) : Nat :=
  (poolSize - sizeofInfo) / initBlkSize blkSize

/-- What `LOS_MemboxInit` guarantees of the block size and count. -/
structure Geometry (pool bs num : Nat) : Prop where
  pool_ne : pool ≠ NULL
  size_pos : 0 < bs
  size_dvd : bs % 4 = 0
  fits : pool + sizeofInfo + num * bs ≤ 2 ^ 32

variable {pool bs num a : Nat}

theorem mem_blocks : a ∈ blocks pool bs num ↔ ∃ i < num, a = blockAddr pool bs i := by
  simp [blocks, eq_comm]

theorem length_blocks : (blocks pool bs num).length = num := by
  simp [blocks]

/-- The aligned size is a multiple of four: `~3` clears the low bits. -/
theorem LOS_MEMBOX_ALLIGNED_mod (x : Nat) : LOS_MEMBOX_ALLIGNED x % 4 = 0 := by
  have h : (u32 (x + 4 - 1) &&& (2 ^ 32 - 4)) &&& (2 ^ 2 - 1) = 0 := by
    rw [Nat.and_assoc, show (2 ^ 32 - 4) &&& (2 ^ 2 - 1) = 0 by decide, Nat.and_zero]
  rwa [Nat.and_two_pow_sub_one_eq_mod] at h

theorem Geometry.four_le (hg : Geometry pool bs num) : 4 ≤ bs := by
  have := hg.size_pos
  have := hg.size_dvd
  omega

theorem Geometry.num_lt (hg : Geometry pool bs num) : num < 2 ^ 32 := by
  have hle : num * 4 ≤ num * bs := Nat.mul_le_mul_left _ hg.four_le
  have := hg.fits
  omega

/-- Every block starts past the header and ends inside the 32-bit
address space. -/
theorem Geometry.block_le (hg : Geometry pool bs num) (ha : a ∈ blocks pool bs num) :
    pool + sizeofInfo ≤ a ∧ a + bs ≤ 2 ^ 32 := by
  obtain ⟨i, hi, rfl⟩ := mem_blocks.1 ha
  have hle : (i + 1) * bs ≤ num * bs := Nat.mul_le_mul_right _ hi
  have := hg.fits
  simp only [blockAddr, Nat.add_mul, Nat.one_mul] at hle ⊢
  omega

theorem Geometry.blocks_nodup (hg : Geometry pool bs num) : (blocks pool bs num).Nodup :=
  List.nodup_range.map fun i j h => by
    simp only [blockAddr] at h
    exact Nat.eq_of_mul_eq_mul_right hg.size_pos (by omega)

theorem Geometry.block_ne_null (hg : Geometry pool bs num) (ha : a ∈ blocks pool bs num) :
    a ≠ NULL := by
  have := (hg.block_le ha).1
  simp only [NULL, sizeofInfo] at this ⊢
  omega

-- ======================================================= the offset test

/-- The offset test of `OsCheckBoxMem`, done in 32-bit arithmetic,
accepts exactly the block addresses: an address below the pool wraps to
an offset past the last block. -/
theorem offset_test_iff (hg : Geometry pool bs num) {node : Nat} (hnode : node < 2 ^ 32) :
    (u32Sub node (pool + sizeofInfo) % bs = 0 ∧ u32Sub node (pool + sizeofInfo) / bs < num)
    ↔ node ∈ blocks pool bs num := by
  have hpos := hg.size_pos
  have hfits := hg.fits
  rw [mem_blocks]
  by_cases hlo : pool + sizeofInfo ≤ node
  · -- at or above the first block the offset is the plain distance
    rw [u32Sub_of_le hlo hnode]
    constructor
    · rintro ⟨hmod, hdiv⟩
      refine ⟨(node - (pool + sizeofInfo)) / bs, hdiv, ?_⟩
      have := Nat.div_add_mod (node - (pool + sizeofInfo)) bs
      simp only [blockAddr]
      rw [hmod, Nat.add_zero, Nat.mul_comm] at this
      omega
    · rintro ⟨i, hi, rfl⟩
      have hd : pool + sizeofInfo + i * bs - (pool + sizeofInfo) = i * bs := by omega
      refine ⟨?_, ?_⟩
      · simp only [blockAddr, hd, Nat.mul_mod_left]
      · simpa only [blockAddr, hd, Nat.mul_div_cancel _ hpos] using hi
  · -- below the first block the offset wraps past every block
    rw [u32Sub_of_lt (by omega) (by omega)]
    constructor
    · rintro ⟨-, hdiv⟩
      have : num * bs ≤ 2 ^ 32 - (pool + sizeofInfo) + node := by omega
      have := (Nat.le_div_iff_mul_le hpos).2 this
      omega
    · rintro ⟨i, -, rfl⟩
      simp only [blockAddr] at hlo
      omega

/-- `OsCheckBoxMem` accepts exactly a block carrying the magic word. -/
theorem OsCheckBoxMem_iff (hg : Geometry pool bs num) {p : Pool} (hbs : p.uwBlkSize = bs)
    (hnum : p.uwBlkNum = num) {node : Nat} (hnode : node < 2 ^ 32) :
    OsCheckBoxMem pool p node = true ↔ node ∈ blocks pool bs num ∧ p.mem node = OS_MEMBOX_MAGIC := by
  rw [← offset_test_iff hg hnode]
  have hne : bs ≠ 0 := Nat.ne_of_gt hg.size_pos
  subst hbs hnum
  by_cases h₁ : u32Sub node (pool + sizeofInfo) % p.uwBlkSize = 0 <;>
    by_cases h₂ : u32Sub node (pool + sizeofInfo) / p.uwBlkSize < p.uwBlkNum <;>
    simp_all [OsCheckBoxMem]

/-- The link word in front of a nonzero user pointer is block `a`
exactly when the pointer is `a`'s user word. -/
theorem node_addr_eq_iff (hg : Geometry pool bs num) (ha : a ∈ blocks pool bs num) {box : Nat}
    (hbox : box < 2 ^ 32) (hne : box ≠ NULL) :
    OS_MEMBOX_NODE_ADDR box = a ↔ box = a + OS_MEMBOX_NODE_HEAD_SIZE := by
  have hle := (hg.block_le ha).2
  have h4 := hg.four_le
  simp only [OS_MEMBOX_NODE_ADDR, OS_MEMBOX_NODE_HEAD_SIZE, NULL] at hne ⊢
  by_cases hb : 4 ≤ box
  · rw [u32Sub_of_le hb hbox]
    omega
  · -- a pointer below 4 wraps to the top of the address space
    rw [u32Sub_of_lt (by omega) (by decide)]
    omega

-- =========================================================== invariant

/-- The free list and the counters against the ghost list of free
blocks. -/
structure FreeInv (pool bs num : Nat) (p : Pool) (free : List Nat) : Prop where
  links : LinkList p.mem NULL p.freeHead free
  sub : ∀ a ∈ free, a ∈ blocks pool bs num
  magic : ∀ a ∈ blocks pool bs num, a ∉ free → p.mem a = OS_MEMBOX_MAGIC
  count : p.uwBlkCnt + free.length = num

/-- The pool invariant, the ghost of handed-out pointers included. -/
structure Inv (pool bs num : Nat) (s : Sys) : Prop where
  size : s.pool.uwBlkSize = bs
  count : s.pool.uwBlkNum = num
  state : ∃ free, FreeInv pool bs num s.pool free ∧
    ∀ b, b ∈ s.live ↔ ∃ a ∈ blocks pool bs num, a ∉ free ∧ b = a + OS_MEMBOX_NODE_HEAD_SIZE
  live_nodup : s.live.Nodup

section Calls

variable (hg : Geometry pool bs num) (hnm : ∀ a ∈ blocks pool bs num, a ≠ OS_MEMBOX_MAGIC)
include hg hnm

variable {p : Pool} {free : List Nat}

omit hg in
/-- A block carries the magic word exactly when it is not free. -/
theorem FreeInv.magic_iff (hf : FreeInv pool bs num p free) (ha : a ∈ blocks pool bs num) :
    p.mem a = OS_MEMBOX_MAGIC ↔ a ∉ free := by
  refine ⟨fun hm hfree => ?_, hf.magic a ha⟩
  rcases hf.links.next_mem hfree with h | h
  · rw [hm] at h
    exact absurd h (by decide)
  · exact hnm _ (hf.sub _ h) hm

omit hnm in
/-- A block outside the free list leaves the list shorter than the
pool. -/
theorem FreeInv.length_lt (hf : FreeInv pool bs num p free) (ha : a ∈ blocks pool bs num)
    (hna : a ∉ free) : free.length < num := by
  have hsub : free ⊆ (blocks pool bs num).erase a := fun x hx =>
    (hg.blocks_nodup.mem_erase_iff).2 ⟨fun e => hna (e ▸ hx), hf.sub x hx⟩
  have hle := (hf.links.nodup.subperm hsub).length_le
  rw [List.length_erase_of_mem ha, length_blocks] at hle
  have hpos := List.length_pos_of_mem ha
  rw [length_blocks] at hpos
  omega

/-- `LOS_MemboxFree` succeeds exactly on a handed-out pointer. -/
theorem Inv.free_ok_iff {s : Sys} (hi : Inv pool bs num s) {box : Nat} (hbox : box < 2 ^ 32) :
    (LOS_MemboxFree pool box s.pool).1 = LOS_OK ↔ box ∈ s.live := by
  obtain ⟨free, hf, hlive⟩ := hi.state
  rw [hlive]
  unfold LOS_MemboxFree
  by_cases hnull : pool = NULL ∨ box = NULL
  · -- a null pointer is refused, and no user word is null
    rw [if_pos hnull]
    have hbne : box = NULL := hnull.resolve_left hg.pool_ne
    simp only [LOS_NOK, LOS_OK, one_ne_zero, false_iff, not_exists, not_and]
    intro c _ _ hc
    simp [hbne, NULL, OS_MEMBOX_NODE_HEAD_SIZE] at hc
  · rw [if_neg hnull]
    have hbne : box ≠ NULL := fun h => hnull (.inr h)
    have hnode : OS_MEMBOX_NODE_ADDR box < 2 ^ 32 := u32_lt _
    have hcheck := OsCheckBoxMem_iff hg hi.size hi.count hnode
    by_cases hc : OsCheckBoxMem pool s.pool (OS_MEMBOX_NODE_ADDR box) = true
    · rw [if_pos hc]
      obtain ⟨hblk, hm⟩ := hcheck.1 hc
      exact ⟨fun _ => ⟨_, hblk, (hf.magic_iff hnm hblk).1 hm,
        (node_addr_eq_iff hg hblk hbox hbne).1 rfl⟩, fun _ => rfl⟩
    · rw [if_neg hc]
      simp only [LOS_NOK, LOS_OK, one_ne_zero, false_iff, not_exists, not_and]
      intro c hcb hcf hbc
      have hna : OS_MEMBOX_NODE_ADDR box = c := (node_addr_eq_iff hg hcb hbox hbne).2 hbc
      exact hc (hcheck.2 ⟨hna ▸ hcb, hna ▸ (hf.magic_iff hnm hcb).2 hcf⟩)

end Calls

/-- A refused free leaves the pool as it was. -/
theorem LOS_MemboxFree_refused {p : Pool} {box : Nat} (h : (LOS_MemboxFree pool box p).1 ≠ LOS_OK) :
    (LOS_MemboxFree pool box p).2 = p := by
  unfold LOS_MemboxFree at h ⊢
  by_cases h₁ : pool = NULL ∨ box = NULL
  · rw [if_pos h₁]
  · rw [if_neg h₁] at h ⊢
    by_cases h₂ : OsCheckBoxMem pool p (OS_MEMBOX_NODE_ADDR box) = true
    · rw [if_pos h₂] at h
      exact absurd rfl h
    · rw [if_neg h₂]


-- ======================================================== the three calls

/-- `LOS_MemboxAlloc` on an empty free list hands out nothing. -/
theorem allocStep_empty {s : Sys} (hp : pool ≠ NULL) (hh : s.pool.freeHead = NULL) :
    allocStep pool s = s := by
  simp only [NULL] at hp hh
  simp [allocStep, LOS_MemboxAlloc, hp, hh, NULL]

/-- `LOS_MemboxAlloc` with free block `a` at the head. -/
theorem allocStep_head {s : Sys} (hp : pool ≠ NULL) (hh : s.pool.freeHead = a) (ha : a ≠ NULL) :
    allocStep pool s =
      ⟨{ s.pool with freeHead := s.pool.mem a,
                     mem := Function.update s.pool.mem a OS_MEMBOX_MAGIC,
                     uwBlkCnt := u32 (s.pool.uwBlkCnt + 1) },
        (a + OS_MEMBOX_NODE_HEAD_SIZE) :: s.live⟩ := by
  simp only [NULL] at hp ha
  simp [allocStep, LOS_MemboxAlloc, hp, hh, ha, NULL, OS_MEMBOX_NODE_HEAD_SIZE]

/-- A refused free changes neither the pool nor the ghost. -/
theorem freeStep_refused {s : Sys} {box : Nat} (h : (LOS_MemboxFree pool box s.pool).1 ≠ LOS_OK) :
    freeStep pool box s = s := by
  simp only [freeStep, if_neg h, LOS_MemboxFree_refused h]

/-- `LOS_MemboxFree` of the user word of block `a` when the block passes
the check. -/
theorem LOS_MemboxFree_block {p : Pool} (hp : pool ≠ NULL)
    (hbox : a + OS_MEMBOX_NODE_HEAD_SIZE ≠ NULL)
    (hnode : OS_MEMBOX_NODE_ADDR (a + OS_MEMBOX_NODE_HEAD_SIZE) = a)
    (hc : OsCheckBoxMem pool p a = true) :
    LOS_MemboxFree pool (a + OS_MEMBOX_NODE_HEAD_SIZE) p =
      (LOS_OK, { p with mem := Function.update p.mem a p.freeHead, freeHead := a,
                        uwBlkCnt := u32Sub p.uwBlkCnt 1 }) := by
  unfold LOS_MemboxFree
  rw [if_neg (by simp [hp, hbox]), hnode, if_pos hc]

-- ======================================================== preservation

section Steps

variable (hg : Geometry pool bs num) (hnm : ∀ a ∈ blocks pool bs num, a ≠ OS_MEMBOX_MAGIC)
include hg

/-- `LOS_MemboxAlloc` keeps the invariant: the head block leaves the
free list stamped with the magic word, and its user word joins the
ghost. -/
theorem Inv.alloc {s : Sys} (hi : Inv pool bs num s) : Inv pool bs num (allocStep pool s) := by
  obtain ⟨free, hf, hlive⟩ := hi.state
  cases free with
  | nil => rw [allocStep_empty hg.pool_ne hf.links]; exact hi
  | cons a rest =>
      have hnd := hf.links.nodup
      have hrest := hf.links.pop_update OS_MEMBOX_MAGIC
      obtain ⟨hha, ha0, -⟩ := hf.links
      have har : a ∉ rest := (List.nodup_cons.1 hnd).1
      have hab : a ∈ blocks pool bs num := hf.sub a List.mem_cons_self
      rw [allocStep_head hg.pool_ne hha ha0]
      dsimp only
      refine ⟨hi.size, hi.count, ⟨rest, ⟨hrest, ?_, ?_, ?_⟩, fun b => ?_⟩, ?_⟩
      · exact fun x hx => hf.sub x (List.mem_cons_of_mem _ hx)
      · intro c hc hcr
        by_cases hca : c = a
        · simp only [hca, Function.update_self]
        · simp only [Function.update_of_ne hca]
          exact hf.magic c hc (by simp [hca, hcr])
      · -- one more block is counted, and the count stays below `2 ^ 32`
        have hc := hf.count
        have hn := hg.num_lt
        simp only [List.length_cons] at hc
        show u32 (s.pool.uwBlkCnt + 1) + rest.length = num
        rw [u32_of_lt (by omega)]
        omega
      · show b ∈ (a + OS_MEMBOX_NODE_HEAD_SIZE) :: s.live ↔ _
        rw [List.mem_cons, hlive]
        constructor
        · rintro (rfl | ⟨c, hc, hcf, rfl⟩)
          · exact ⟨a, hab, har, rfl⟩
          · exact ⟨c, hc, fun h => hcf (List.mem_cons_of_mem _ h), rfl⟩
        · rintro ⟨c, hc, hcr, rfl⟩
          by_cases hca : c = a
          · exact .inl (by rw [hca])
          · exact .inr ⟨c, hc, by simp [hca, hcr], rfl⟩
      · refine List.nodup_cons.2 ⟨fun hmem => ?_, hi.live_nodup⟩
        obtain ⟨c, -, hcf, hce⟩ := (hlive _).1 hmem
        have : c = a := by simp only [OS_MEMBOX_NODE_HEAD_SIZE] at hce; omega
        exact hcf (this ▸ List.mem_cons_self)

include hnm

/-- `LOS_MemboxFree` keeps the invariant: a pointer it takes back is the
user word of a block that is not free, and that block is pushed on the
free list; anything else is refused untouched. -/
theorem Inv.free {s : Sys} (hi : Inv pool bs num s) {box : Nat} (hbox : box < 2 ^ 32) :
    Inv pool bs num (freeStep pool box s) := by
  by_cases hok : (LOS_MemboxFree pool box s.pool).1 = LOS_OK
  · have hlv := (hi.free_ok_iff hg hnm hbox).1 hok
    obtain ⟨free, hf, hlive⟩ := hi.state
    obtain ⟨a, hab, haf, rfl⟩ := (hlive _).1 hlv
    have hne : a + OS_MEMBOX_NODE_HEAD_SIZE ≠ NULL := by simp [OS_MEMBOX_NODE_HEAD_SIZE, NULL]
    have hnode := (node_addr_eq_iff hg hab hbox hne).2 rfl
    have hc : OsCheckBoxMem pool s.pool a = true :=
      (OsCheckBoxMem_iff hg hi.size hi.count (by have := (hg.block_le hab).2; omega)).2
        ⟨hab, (hf.magic_iff hnm hab).2 haf⟩
    have hlt := hf.length_lt hg hab haf
    simp only [freeStep, LOS_MemboxFree_block hg.pool_ne hne hnode hc, if_true]
    refine ⟨hi.size, hi.count, ⟨a :: free, ⟨hf.links.push (hg.block_ne_null hab) haf, ?_, ?_, ?_⟩,
      fun b => ?_⟩, hi.live_nodup.erase _⟩
    · intro x hx
      rcases List.mem_cons.1 hx with rfl | hx
      · exact hab
      · exact hf.sub x hx
    · intro c hc hcf
      have hca : c ≠ a := fun e => hcf (e ▸ List.mem_cons_self)
      simp only [Function.update_of_ne hca]
      exact hf.magic c hc (fun h => hcf (List.mem_cons_of_mem _ h))
    · -- the block leaves the count, which was at least one
      have hc := hf.count
      have hn := hg.num_lt
      show u32Sub s.pool.uwBlkCnt 1 + (free.length + 1) = num
      rw [u32Sub_of_le (by omega) (by omega)]
      omega
    · show b ∈ s.live.erase (a + OS_MEMBOX_NODE_HEAD_SIZE) ↔ _
      rw [hi.live_nodup.mem_erase_iff, hlive]
      constructor
      · rintro ⟨hne', c, hc, hcf, rfl⟩
        have hca : c ≠ a := fun e => hne' (by rw [e])
        exact ⟨c, hc, by simp [hca, hcf], rfl⟩
      · rintro ⟨c, hc, hcf, rfl⟩
        have hca : c ≠ a := fun e => hcf (e ▸ List.mem_cons_self)
        refine ⟨fun e => hca (by simp only [OS_MEMBOX_NODE_HEAD_SIZE] at e; omega), c, hc,
          fun h => hcf (List.mem_cons_of_mem _ h), rfl⟩
  · rw [freeStep_refused hok]
    exact hi

end Steps

-- ===================================================== initialisation

/-- The initialisation loop writes only at and past `node`. -/
theorem linkBlocks_frame (bs : Nat) :
    ∀ (k node : Nat) (mem : Nat → Nat) (x : Nat), x < node → linkBlocks bs k node mem x = mem x
  | 0, node, mem, x, hx => Function.update_of_ne (by omega) _ _
  | k + 1, node, mem, x, hx => by
      rw [linkBlocks, linkBlocks_frame bs k (node + bs) _ x (by omega),
        Function.update_of_ne (by omega)]

/-- The initialisation loop threads `k + 1` blocks, `bs` bytes apart,
from `node` on. -/
theorem linkBlocks_links (hbs : 0 < bs) :
    ∀ (k node : Nat) (mem : Nat → Nat), node ≠ NULL →
      LinkList (linkBlocks bs k node mem) NULL node ((List.range (k + 1)).map fun i => node + i * bs)
  | 0, node, mem, hn => by simp [linkBlocks, hn]
  | k + 1, node, mem, hn => by
      have hf : ((fun i => node + i * bs) ∘ Nat.succ) = fun i => node + bs + i * bs := by
        funext i
        simp only [Function.comp, Nat.succ_mul]
        omega
      rw [List.range_succ_eq_map, List.map_cons, List.map_map, hf]
      simp only [Nat.zero_mul, Nat.add_zero]
      refine ⟨rfl, hn, ?_⟩
      rw [linkBlocks, linkBlocks_frame bs k _ _ node (by omega), Function.update_self]
      exact linkBlocks_links hbs k (node + bs) _ (by simp only [NULL] at hn ⊢; omega)

/-- What a successful `LOS_MemboxInit` leaves: every block free, linked
in address order. -/
theorem LOS_MemboxInit_ok {poolSize blkSize : Nat} {p₀ p : Pool}
    (h : LOS_MemboxInit pool poolSize blkSize p₀ = (LOS_OK, p)) :
    pool ≠ NULL ∧ sizeofInfo ≤ poolSize ∧ 0 < initBlkSize blkSize ∧
      0 < initBlkNum poolSize blkSize ∧
      p = { uwBlkSize := initBlkSize blkSize, uwBlkNum := initBlkNum poolSize blkSize,
            uwBlkCnt := 0, freeHead := pool + sizeofInfo,
            mem := linkBlocks (initBlkSize blkSize) (initBlkNum poolSize blkSize - 1)
              (pool + sizeofInfo) p₀.mem } := by
  have hne : LOS_NOK ≠ LOS_OK := by decide
  simp only [LOS_MemboxInit] at h
  split_ifs at h with h₁ h₂ h₃ h₄ h₅
  -- the five rejections return `LOS_NOK`
  iterate 5 exact absurd (congrArg Prod.fst h) hne
  obtain ⟨-, rfl⟩ := Prod.mk.inj h
  exact ⟨h₁, Nat.le_of_not_lt h₃, Nat.pos_of_ne_zero h₄, Nat.pos_of_ne_zero h₅, rfl⟩

/-- The geometry a successful `LOS_MemboxInit` fixes, for a pool that
lies inside the 32-bit address space. -/
theorem init_geometry {poolSize blkSize : Nat} {p₀ p : Pool} (hfit : pool + poolSize ≤ 2 ^ 32)
    (h : LOS_MemboxInit pool poolSize blkSize p₀ = (LOS_OK, p)) :
    Geometry pool (initBlkSize blkSize) (initBlkNum poolSize blkSize) := by
  obtain ⟨hp, hsz, hbs, -, -⟩ := LOS_MemboxInit_ok h
  have hdiv := Nat.div_mul_le_self (poolSize - sizeofInfo) (initBlkSize blkSize)
  exact ⟨hp, hbs, LOS_MEMBOX_ALLIGNED_mod _, by simp only [initBlkNum] at *; omega⟩

-- ====================================================== the block size

/-- The mask `~(sizeof(UINTPTR) - 1)` of `LOS_MEMBOX_ALLIGNED` rounds a
32-bit word down to a multiple of four. -/
theorem and_align_mask {y : Nat} (hy : y < 2 ^ 32) : y &&& (2 ^ 32 - 4) = y / 4 * 4 := by
  have h4 : (2 ^ 32 - 4 : Nat) = (2 ^ 30 - 1) * 2 ^ 2 := by decide
  have hy4 : y / 4 * 4 = y / 2 ^ 2 * 2 ^ 2 := rfl
  apply Nat.eq_of_testBit_eq
  intro i
  rw [Nat.testBit_and, h4, hy4, Nat.testBit_mul_two_pow, Nat.testBit_mul_two_pow,
    Nat.testBit_div_two_pow, Nat.testBit_two_pow_sub_one]
  -- the two low bits are cleared, bits `2` to `31` kept, and `y` has none above
  by_cases hi : 2 ≤ i
  · rw [Nat.sub_add_cancel hi]
    by_cases hi' : i < 32
    · simp [hi, show i - 2 < 30 by omega]
    · have hbit : y.testBit i = false :=
        Nat.testBit_eq_false_of_lt (lt_of_lt_of_le hy (Nat.pow_le_pow_right (by decide) (by omega)))
      simp [hbit]
  · simp [hi]

/-- The block size in terms of `blkSize + OS_MEMBOX_NODE_HEAD_SIZE`,
when that sum does not wrap: rounded up to four, or `0` when the
rounding itself wraps. -/
theorem initBlkSize_eq {blkSize : Nat} (h : blkSize + OS_MEMBOX_NODE_HEAD_SIZE < 2 ^ 32) :
    initBlkSize blkSize = (blkSize + OS_MEMBOX_NODE_HEAD_SIZE + 3) % 2 ^ 32 / 4 * 4 := by
  unfold initBlkSize LOS_MEMBOX_ALLIGNED
  rw [u32_of_lt h, and_align_mask (u32_lt _)]
  rfl

/-- What a successful `LOS_MemboxInit` fixes of the block size: a
multiple of four, all blocks inside the pool, and, when
`blkSize + OS_MEMBOX_NODE_HEAD_SIZE` does not wrap, room in each block
for the link word and `blkSize` bytes. -/
theorem LOS_MemboxInit_blkSize {poolSize blkSize : Nat} {p₀ p : Pool}
    (h : LOS_MemboxInit pool poolSize blkSize p₀ = (LOS_OK, p)) :
    p.uwBlkSize % 4 = 0 ∧ sizeofInfo + p.uwBlkNum * p.uwBlkSize ≤ poolSize ∧
      (blkSize + OS_MEMBOX_NODE_HEAD_SIZE < 2 ^ 32 → blkSize + OS_MEMBOX_NODE_HEAD_SIZE ≤ p.uwBlkSize) := by
  obtain ⟨-, hsz, hbs, -, rfl⟩ := LOS_MemboxInit_ok h
  have hdiv := Nat.div_mul_le_self (poolSize - sizeofInfo) (initBlkSize blkSize)
  refine ⟨LOS_MEMBOX_ALLIGNED_mod _, by simp only [initBlkNum]; omega, fun hw => ?_⟩
  -- a rounding that wraps leaves `0`, which `LOS_MemboxInit` refuses
  rw [initBlkSize_eq hw] at hbs ⊢
  simp only [OS_MEMBOX_NODE_HEAD_SIZE] at hw hbs ⊢
  omega

/-- `blkSize = 0xFFFFFFFF`: `blkSize + OS_MEMBOX_NODE_HEAD_SIZE` wraps to
`3`, which rounds to a nonzero `4`, and `LOS_MemboxInit` accepts a
24-byte pool of two 4-byte blocks. The first pointer `LOS_MemboxAlloc`
hands out is the address of the second block's link word. -/
theorem membox_init_block_size_wraps :
    ∃ p, LOS_MemboxInit 0x1000 24 0xFFFFFFFF ⟨0, 0, 0, 0, fun _ => 0⟩ = (LOS_OK, p) ∧
      p.uwBlkSize = 4 ∧ p.uwBlkSize < 0xFFFFFFFF + OS_MEMBOX_NODE_HEAD_SIZE ∧ p.uwBlkNum = 2 ∧
      (LOS_MemboxAlloc 0x1000 p).1 = 0x1014 ∧ p.mem 0x1010 = 0x1014 :=
  ⟨_, rfl, by decide, by decide, by decide, by decide, by decide⟩

/-- A pool right after `LOS_MemboxInit` satisfies the invariant, every
block free. -/
theorem init_inv {poolSize blkSize : Nat} {s : Sys} (h : Initialised pool poolSize blkSize s) :
    Inv pool (initBlkSize blkSize) (initBlkNum poolSize blkSize) s := by
  obtain ⟨p₀, hinit, hlive⟩ := h
  obtain ⟨hp, -, hbs, hnum, hs⟩ := LOS_MemboxInit_ok hinit
  obtain ⟨p, live⟩ := s
  dsimp only at hs hlive
  subst hs hlive
  have hblocks : blocks pool (initBlkSize blkSize) (initBlkNum poolSize blkSize) =
      (List.range (initBlkNum poolSize blkSize - 1 + 1)).map
        fun i => pool + sizeofInfo + i * initBlkSize blkSize := by
    rw [Nat.sub_add_cancel hnum]
    rfl
  -- every block is free and nothing is out
  refine ⟨rfl, rfl, ⟨blocks pool _ _, ⟨?_, fun _ h => h, fun _ h h' => absurd h h', ?_⟩,
    fun b => ?_⟩, List.nodup_nil⟩
  · rw [hblocks]
    exact linkBlocks_links hbs _ _ _ (by simp only [NULL, sizeofInfo] at hp ⊢; omega)
  · rw [length_blocks, Nat.zero_add]
  · exact ⟨fun h => absurd h List.not_mem_nil, fun ⟨_, ha, ha', _⟩ => absurd ha ha'⟩

-- ================================================================ runs

/-- Every pool reachable from `LOS_MemboxInit` by allocations and frees
of arbitrary pointers keeps its free list well formed and exact, and
`LOS_MemboxFree` takes back exactly the pointers that are out — as long
as no block of the pool begins at the address `OS_MEMBOX_MAGIC`. -/
theorem membox_free_exact {pool poolSize blkSize : Nat} (hfit : pool + poolSize ≤ 2 ^ 32)
    (hmagic : ∀ a ∈ blocks pool (initBlkSize blkSize) (initBlkNum poolSize blkSize),
      a ≠ OS_MEMBOX_MAGIC)
    {s : Sys} (hs : Reach (Initialised pool poolSize blkSize) (Next pool) s) :
    s.pool.uwBlkSize = initBlkSize blkSize ∧ s.pool.uwBlkNum = initBlkNum poolSize blkSize ∧
      (∃ free, free.Nodup ∧ LinkList s.pool.mem NULL s.pool.freeHead free ∧
        (∀ a ∈ free, a ∈ blocks pool s.pool.uwBlkSize s.pool.uwBlkNum) ∧
        (∀ a ∈ blocks pool s.pool.uwBlkSize s.pool.uwBlkNum,
          a ∈ free ↔ s.pool.mem a ≠ OS_MEMBOX_MAGIC) ∧
        s.pool.uwBlkCnt + free.length = s.pool.uwBlkNum ∧
        ∀ b, b ∈ s.live ↔ ∃ a ∈ blocks pool s.pool.uwBlkSize s.pool.uwBlkNum,
          a ∉ free ∧ b = a + OS_MEMBOX_NODE_HEAD_SIZE) ∧
      ∀ box < 2 ^ 32,
        ((LOS_MemboxFree pool box s.pool).1 = LOS_OK ↔ box ∈ s.live) ∧
        ((LOS_MemboxFree pool box s.pool).1 ≠ LOS_OK →
          (LOS_MemboxFree pool box s.pool).2 = s.pool) := by
  -- the geometry is read off any initial state of the run
  have hg : Geometry pool (initBlkSize blkSize) (initBlkNum poolSize blkSize) := by
    induction hs with
    | init h => obtain ⟨p₀, hinit, -⟩ := h; exact init_geometry hfit hinit
    | step _ _ ih => exact ih
  have hi : Inv pool (initBlkSize blkSize) (initBlkNum poolSize blkSize) s := by
    refine Reach.inv (Inv pool _ _) (fun _ h => init_inv h) ?_ hs
    rintro s s' hi (rfl | ⟨box, hbox, rfl⟩)
    · exact hi.alloc hg
    · exact hi.free hg hmagic hbox
  obtain ⟨free, hf, hlive⟩ := hi.state
  rw [hi.size, hi.count]
  refine ⟨rfl, rfl, ⟨free, hf.links.nodup, hf.links, hf.sub, fun a ha => ?_, hf.count, hlive⟩,
    fun box hbox => ⟨hi.free_ok_iff hg hmagic hbox, LOS_MemboxFree_refused⟩⟩
  rw [Ne, hf.magic_iff hmagic ha, not_not]

/-- A pool at `0x1000` with three 8-byte blocks, right after
`LOS_MemboxInit`: its three blocks are free and threaded. -/
theorem membox_free_exact_initial :
    0x1000 + 40 ≤ 2 ^ 32 ∧
      (∀ a ∈ blocks 0x1000 (initBlkSize 4) (initBlkNum 40 4), a ≠ OS_MEMBOX_MAGIC) ∧
      (LOS_MemboxInit 0x1000 40 4 ⟨0, 0, 0, 0, fun _ => 0⟩).2.uwBlkNum = 3 := by
  have hfit : 0x1000 + 40 ≤ 2 ^ 32 := by decide
  have hmagic : ∀ a ∈ blocks 0x1000 (initBlkSize 4) (initBlkNum 40 4), a ≠ OS_MEMBOX_MAGIC := by
    decide
  have hs : Reach (Initialised 0x1000 40 4) (Next 0x1000)
      ⟨(LOS_MemboxInit 0x1000 40 4 ⟨0, 0, 0, 0, fun _ => 0⟩).2, []⟩ :=
    .init ⟨_, rfl, rfl⟩
  obtain ⟨-, hnum, -⟩ := membox_free_exact hfit hmagic hs
  exact ⟨hfit, hmagic, hnum.trans (by decide)⟩

/-- A pool placed so that its first block sits at the address
`OS_MEMBOX_MAGIC`. After two allocations and two frees, free block 1
links to block 0, so its link word is the magic, and `LOS_MemboxFree`
takes block 1 back although it is not out. -/
theorem membox_double_free_at_magic :
    let s₀ : Sys := ⟨(LOS_MemboxInit 0xa55a5a95 40 4 ⟨0, 0, 0, 0, fun _ => 0⟩).2, []⟩
    let s := freeStep 0xa55a5a95 0xa55a5ab1 (freeStep 0xa55a5a95 0xa55a5aa9
      (allocStep 0xa55a5a95 (allocStep 0xa55a5a95 s₀)))
    Reach (Initialised 0xa55a5a95 40 4) (Next 0xa55a5a95) s ∧ 0xa55a5ab1 ∉ s.live ∧
      (LOS_MemboxFree 0xa55a5a95 0xa55a5ab1 s.pool).1 = LOS_OK := by
  intro s₀ s
  refine ⟨?_, by decide, by decide⟩
  exact .step (.step (.step (.step (.init ⟨_, rfl, rfl⟩) (.inl rfl)) (.inl rfl))
    (.inr ⟨0xa55a5aa9, by decide, rfl⟩)) (.inr ⟨0xa55a5ab1, by decide, rfl⟩)

end LiteOsA.Membox
