/-
A failed device read and the block cache's bookkeeping.

A descriptor of the cache is either free (on the free list, not in use,
in neither the tree nor the number list) or cached (on the LRU list, in
the tree and on the number list), and `nBlock` and `sumNum` count the
cached ones. `AddBlock` and `DelBlock` move a descriptor between the
two, and keep the counters.

`BlockRead` breaks this when the device fails on a descriptor that is
cached and not modified: it takes the descriptor off the LRU list and
out of the tree and frees it, but leaves it on the number list and in
the counters (`BlockRead_fail_keeps_num`). `BlockCacheRead` with
`useRead` false reaches that case on every miss: `BcacheGetBlock`
caches the new descriptor with `AddBlock` without reading it, and the
loop then reads it (`BlockCacheRead_loop_miss_fail`). The first read
of a fresh cache whose device fails leaves a free descriptor on the
number list and `nBlock` at one with nothing cached
(`bcache_read_error_leaves_num_node`).
-/
import LiteOsA.Fs.Bcache
import LiteOsA.Lib.Run

namespace LiteOsA.Bcache

open OsBcache

variable {bc bc' : OsBcache} {b num : Nat} {dev : Dev}

-- ======================================================== the links

@[simp]
theorem ListDelete_blocks : (ListDelete bc b).blocks = bc.blocks := rfl

@[simp]
theorem ListDelete_listHead : (ListDelete bc b).listHead = bc.listHead.erase b := rfl

@[simp]
theorem ListDelete_freeListHead : (ListDelete bc b).freeListHead = bc.freeListHead.erase b := rfl

@[simp]
theorem ListDelete_numHead : (ListDelete bc b).numHead = bc.numHead := rfl

@[simp]
theorem ListDelete_nBlock : (ListDelete bc b).nBlock = bc.nBlock := rfl

@[simp]
theorem ListDelete_sumNum : (ListDelete bc b).sumNum = bc.sumNum := rfl

@[simp]
theorem RbDelBlock_blocks : (RbDelBlock bc b).blocks = bc.blocks := rfl

@[simp]
theorem RbDelBlock_listHead : (RbDelBlock bc b).listHead = bc.listHead := rfl

@[simp]
theorem RbDelBlock_freeListHead : (RbDelBlock bc b).freeListHead = bc.freeListHead := rfl

@[simp]
theorem RbDelBlock_numHead : (RbDelBlock bc b).numHead = bc.numHead := rfl

@[simp]
theorem RbDelBlock_nBlock : (RbDelBlock bc b).nBlock = bc.nBlock := rfl

@[simp]
theorem RbDelBlock_sumNum : (RbDelBlock bc b).sumNum = bc.sumNum := rfl

@[simp]
theorem FreeBlock_used : ((FreeBlock bc b).blocks b).used = false := by
  simp [FreeBlock]

@[simp]
theorem FreeBlock_listHead : (FreeBlock bc b).listHead = bc.listHead := rfl

@[simp]
theorem FreeBlock_freeListHead : (FreeBlock bc b).freeListHead = b :: bc.freeListHead := rfl

@[simp]
theorem FreeBlock_numHead : (FreeBlock bc b).numHead = bc.numHead := rfl

@[simp]
theorem FreeBlock_nBlock : (FreeBlock bc b).nBlock = bc.nBlock := rfl

@[simp]
theorem FreeBlock_sumNum : (FreeBlock bc b).sumNum = bc.sumNum := rfl

/-- `NumListAdd` puts the descriptor on the number list. -/
theorem mem_numInsert (blocks : Nat → OsBcacheBlock) (b : Nat) (l : List Nat) :
    b ∈ numInsert blocks b l := by
  induction l with
  | nil => simp [numInsert]
  | cons t ts ih =>
    unfold numInsert
    split_ifs
    · exact List.mem_cons_self
    · exact List.mem_cons_of_mem t ih

-- ======================================================== AddBlock

@[simp]
theorem RbAddBlock_blocks : (RbAddBlock bc b).blocks = bc.blocks := by
  unfold RbAddBlock
  split_ifs <;> rfl

@[simp]
theorem RbAddBlock_listHead : (RbAddBlock bc b).listHead = bc.listHead := by
  unfold RbAddBlock
  split_ifs <;> rfl

@[simp]
theorem RbAddBlock_numHead : (RbAddBlock bc b).numHead = bc.numHead := by
  unfold RbAddBlock
  split_ifs <;> rfl

@[simp]
theorem RbAddBlock_nBlock : (RbAddBlock bc b).nBlock = bc.nBlock := by
  unfold RbAddBlock
  split_ifs <;> rfl

@[simp]
theorem AddBlock_blocks : (AddBlock bc b).blocks = bc.blocks := by
  simp [AddBlock, NumListAdd]

@[simp]
theorem AddBlock_listHead : (AddBlock bc b).listHead = b :: bc.listHead := by
  simp [AddBlock, NumListAdd]

@[simp]
theorem AddBlock_nBlock : (AddBlock bc b).nBlock = u32 (bc.nBlock + 1) := by
  simp [AddBlock, NumListAdd]

/-- `AddBlock` puts the descriptor on the number list. -/
theorem mem_AddBlock_numHead : b ∈ (AddBlock bc b).numHead := by
  simp only [AddBlock, NumListAdd, RbAddBlock_blocks]
  exact mem_numInsert _ _ _

@[simp]
theorem BlockInit_listHead : (BlockInit bc b num).listHead = bc.listHead := by
  by_cases h : (bc.blocks b).modified <;> simp [BlockInit, h]

@[simp]
theorem BlockInit_nBlock : (BlockInit bc b num).nBlock = bc.nBlock := by
  by_cases h : (bc.blocks b).modified <;> simp [BlockInit, h]

/-- `BlockInit` leaves the descriptor neither read nor modified. -/
theorem BlockInit_fresh :
    ((BlockInit bc b num).blocks b).readFlag = false ∧ ((BlockInit bc b num).blocks b).modified = false := by
  by_cases h : (bc.blocks b).modified <;> simp [BlockInit, h]

-- ======================================================= the reads

/-- `BlockRead` failing on a cached descriptor that is not modified:
off the LRU list and out of the tree, then freed. -/
theorem BlockRead_fail (hb : b ∈ bc.listHead) (hm : (bc.blocks b).modified = false)
    (hr : dev.readRet ≠ 0) :
    BlockRead bc b dev = (dev.readRet, FreeBlock (RbDelBlock (ListDelete bc b) b) b) := by
  have hl : listLinked bc b = true := by simp [listLinked, hb]
  unfold BlockRead
  rw [if_pos hr, if_pos (by simp [hm]), if_pos hl]

/-- The failed read frees the descriptor and leaves it on the number
list, with `nBlock` and `sumNum` still counting it. -/
theorem BlockRead_fail_keeps_num (hb : b ∈ bc.listHead) (hm : (bc.blocks b).modified = false)
    (hr : dev.readRet ≠ 0) :
    (BlockRead bc b dev).1 = dev.readRet ∧
      (BlockRead bc b dev).2.freeListHead = b :: bc.freeListHead.erase b ∧
      ((BlockRead bc b dev).2.blocks b).used = false ∧
      (BlockRead bc b dev).2.listHead = bc.listHead.erase b ∧
      (BlockRead bc b dev).2.numHead = bc.numHead ∧
      (BlockRead bc b dev).2.nBlock = bc.nBlock ∧
      (BlockRead bc b dev).2.sumNum = bc.sumNum := by
  rw [BlockRead_fail hb hm hr]
  simp

/-- A miss of `BcacheGetBlock` without a read: the descriptor the
allocation gives is initialised and cached. -/
theorem BcacheGetBlock_miss (hmiss : BcacheGetBlock.hit bc num = none)
    (halloc : AllocNewBlock bc false num dev = (some b, bc')) :
    BcacheGetBlock bc num false dev = (ENOERR, some b, AddBlock (BlockInit bc' b num) b) := by
  unfold BcacheGetBlock
  rw [hmiss, halloc]
  rfl

/-- The first block of a `BlockCacheRead` without `useRead` that
misses, on a device whose read fails: the call fails, and the new
descriptor ends free but on the number list, counted by `nBlock`,
while the LRU list is as the allocation left it. -/
theorem BlockCacheRead_loop_miss_fail (k : Nat) (hmiss : BcacheGetBlock.hit bc num = none)
    (halloc : AllocNewBlock bc false num dev = (some b, bc')) (hr : dev.readRet ≠ 0) :
    (BlockCacheRead.loop false dev (k + 1) num bc).1 = dev.readRet ∧
      b ∈ (BlockCacheRead.loop false dev (k + 1) num bc).2.freeListHead ∧
      ((BlockCacheRead.loop false dev (k + 1) num bc).2.blocks b).used = false ∧
      b ∈ (BlockCacheRead.loop false dev (k + 1) num bc).2.numHead ∧
      (BlockCacheRead.loop false dev (k + 1) num bc).2.listHead = bc'.listHead ∧
      (BlockCacheRead.loop false dev (k + 1) num bc).2.nBlock = u32 (bc'.nBlock + 1) := by
  -- the descriptor `BcacheGetBlock` caches has not been read and is not modified
  obtain ⟨hrf, hmod⟩ := @BlockInit_fresh bc' b num
  have hb : b ∈ (AddBlock (BlockInit bc' b num) b).listHead := by simp
  have hm : ((AddBlock (BlockInit bc' b num) b).blocks b).modified = false := by simp [hmod]
  -- so the loop reads it, and the read fails
  have hloop : BlockCacheRead.loop false dev (k + 1) num bc =
      BlockRead (AddBlock (BlockInit bc' b num) b) b dev := by
    rw [BlockCacheRead.loop, BcacheGetBlock_miss hmiss halloc]
    simp only [AddBlock_blocks, hrf, hmod, Bool.not_false, Bool.and_false, Bool.false_eq_true,
      if_false, Bool.and_self, if_true]
    rw [BlockRead_fail hb hm hr, if_pos (by simpa [ENOERR] using hr)]
  obtain ⟨hret, hfree, hused, hlist, hnum, hn, -⟩ := BlockRead_fail_keeps_num hb hm hr
  rw [hloop]
  refine ⟨hret, ?_, hused, ?_, ?_, ?_⟩
  · simp [hfree]
  · rw [hnum]
    exact mem_AddBlock_numHead
  · simp [hlist]
  · simp [hn]

-- ======================================================= a run

/-- A read call with the value it returned. -/
theorem step_read {len sector : Nat} {useRead : Bool} {ret : Int}
    (h : (BlockCacheRead bc len sector useRead dev).1 = ret) :
    Step bc (.read len sector useRead dev ret) (BlockCacheRead bc len sector useRead dev).2 :=
  h ▸ Step.read len sector useRead dev

theorem bcache_read_error_leaves_num_node :
    ∃ bc, Run Step (BcacheInitCache 9 512 14) [.read 512 64 false ⟨-5, 0⟩ (-5)] bc ∧
      7 ∈ bc.freeListHead ∧ (bc.blocks 7).used = false ∧ 7 ∈ bc.numHead ∧
      bc.listHead = [] ∧ bc.nBlock = 1 := by
  -- 16 KiB blocks of 32 sectors: sector 64 starts block 2, and one block is read
  have hspan : blockSpan (BcacheInitCache 9 512 14) 64 512 = (2, 1) := by decide
  have hcall : BlockCacheRead (BcacheInitCache 9 512 14) 512 64 false ⟨-5, 0⟩ =
      BlockCacheRead.loop false ⟨-5, 0⟩ 1 2 (BcacheInitCache 9 512 14) := by
    simp only [BlockCacheRead, hspan]
  -- the cache is empty, and the first write buffer, descriptor 7, is taken
  have hmiss : BcacheGetBlock.hit (BcacheInitCache 9 512 14) 2 = none := rfl
  have halloc : AllocNewBlock (BcacheInitCache 9 512 14) false 2 ⟨-5, 0⟩ =
      (some 7, (AllocNewBlock (BcacheInitCache 9 512 14) false 2 ⟨-5, 0⟩).2) :=
    Prod.ext (by decide) rfl
  obtain ⟨hret, hfree, hused, hnum, hlist, hn⟩ :=
    BlockCacheRead_loop_miss_fail 0 hmiss halloc (by decide)
  rw [← hcall] at hret hfree hused hnum hlist hn
  refine ⟨_, Run.nil.snoc (step_read hret), hfree, hused, hnum, ?_, ?_⟩
  · rw [hlist]
    decide
  · rw [hn]
    decide

end LiteOsA.Bcache
