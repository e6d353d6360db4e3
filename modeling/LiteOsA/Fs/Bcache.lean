/-
The block cache (fs/vfs/bcache/src/bcache.c).

# What the model keeps

The block descriptors, by their index in the cache's memory, with the
fields the bookkeeping reads: `num`, `modified`, `readFlag`, `readBuff`,
`used` and `allDirty`. The four intrusive structures a descriptor is
linked into are kept as what they hold: the LRU list `listHead` and the
free list `freeListHead` (the two lists a descriptor's `listNode` can
be on, head first), the number list `numHead` (the `numNode`s, in list
order), and the red-black tree as the set of descriptors in it, which
`RbFindBlock` searches by number. Then the counters `nBlock`,
`sumNum` and `modifiedBlock`, and the bounds `wStart` and `wEnd` of
the write buffers.

# What it leaves out

The data, and with it the copies and `BcacheGetFlag`'s merge of what
was read with what was written. The sector bit map of a block is kept
only as `allDirty`: a block all of whose sectors are dirty is one a
whole-block write made so. So `BlockAllDirty` is `modified && allDirty`,
`BcacheGetFlag` reads the block unless it was read or is all dirty,
and `BcacheSyncBlock` writes the dirty run without reading first. What
the device does is an input of each call (`Dev`): every read of the
call returns `readRet`, every write `writeRet` (`0` is success). The
pre-read hook `prereadFun` is not set, and the sync thread is a
`BlockCacheSync` call like any other.
-/
import LiteOsA.Base
import Mathlib.Logic.Function.Basic

namespace LiteOsA.Bcache

-- ============================================================ constants

/-- `CONFIG_FS_FAT_READ_NUMS` (vfs_config.h): the first descriptors are
read buffers. -/
def CONFIG_FS_FAT_READ_NUMS : Nat := 7

/-- `ENOERR`. -/
def ENOERR : Int := 0

/-- `ENOMEM`. -/
def ENOMEM : Int := 12

-- ============================================================= the state

/-- `OsBcacheBlock` without its links and its data. -/
structure OsBcacheBlock where
  num : Nat
  modified : Bool
  readFlag : Bool
  readBuff : Bool
  used : Bool
  allDirty : Bool
  deriving DecidableEq, Repr

/-- `OsBcache`. -/
structure OsBcache where
  /-- The descriptors, by index. -/
  blocks : Nat → OsBcacheBlock
  /-- The LRU list, most recent first. -/
  listHead : List Nat
  /-- The free list, head first. -/
  freeListHead : List Nat
  /-- The number list, in list order. -/
  numHead : List Nat
  /-- The descriptors in the red-black tree. -/
  rbTree : List Nat
  sumNum : Nat
  nBlock : Nat
  modifiedBlock : Nat
  wStart : Nat
  wEnd : Nat
  sectorSize : Nat
  blockSizeLog2 : Nat

/-- What the device returns to the reads and the writes of a call. -/
structure Dev where
  readRet : Int
  writeRet : Int
  deriving DecidableEq, Repr

namespace OsBcache

/-- Write one descriptor. -/
def modifyBlock (bc : OsBcache) (b : Nat) (f : OsBcacheBlock → OsBcacheBlock) : OsBcache :=
  { bc with blocks := Function.update bc.blocks b (f (bc.blocks b)) }

@[simp]
theorem modifyBlock_blocks (bc : OsBcache) (b b' : Nat) (f : OsBcacheBlock → OsBcacheBlock) :
    (bc.modifyBlock b f).blocks b' = if b' = b then f (bc.blocks b) else bc.blocks b' :=
  Function.update_apply _ _ _ _

@[simp]
theorem modifyBlock_listHead (bc : OsBcache) (b : Nat) (f : OsBcacheBlock → OsBcacheBlock) :
    (bc.modifyBlock b f).listHead = bc.listHead := rfl

@[simp]
theorem modifyBlock_nBlock (bc : OsBcache) (b : Nat) (f : OsBcacheBlock → OsBcacheBlock) :
    (bc.modifyBlock b f).nBlock = bc.nBlock := rfl

end OsBcache

open OsBcache

-- ================================================================ links

/-- `LOS_ListDelete(&block->listNode)`: the descriptor leaves the list
its `listNode` is on. -/
def ListDelete (bc : OsBcache) (b : Nat) : OsBcache :=
  { bc with listHead := bc.listHead.erase b, freeListHead := bc.freeListHead.erase b }

/-- `block->listNode.pstNext != NULL`: the `listNode` is on a list. -/
def listLinked (bc : OsBcache) (b : Nat) : Bool :=
  decide (b ∈ bc.listHead) || decide (b ∈ bc.freeListHead)

/-- `RbFindBlock(bc, num)`. -/
def RbFindBlock (bc : OsBcache) (num : Nat) : Option Nat :=
  bc.rbTree.find? fun b => (bc.blocks b).num = num

/-- `RbAddBlock`: refused when a descriptor of the same number is in
the tree. -/
def RbAddBlock (bc : OsBcache) (b : Nat) : OsBcache :=
  if bc.rbTree.any fun b' => (bc.blocks b').num = (bc.blocks b).num then bc
  else { bc with rbTree := b :: bc.rbTree }

/-- `RbDelBlock`. -/
def RbDelBlock (bc : OsBcache) (b : Nat) : OsBcache :=
  { bc with rbTree := bc.rbTree.erase b }

/-- `ListMoveBlockToHead`. -/
def ListMoveBlockToHead (bc : OsBcache) (b : Nat) : OsBcache :=
  let bc := ListDelete bc b
  { bc with listHead := b :: bc.listHead }

/-- `FreeBlock`: the descriptor goes to the head of the free list. -/
def FreeBlock (bc : OsBcache) (b : Nat) : OsBcache :=
  let bc := bc.modifyBlock b fun blk => { blk with used := false }
  { bc with freeListHead := b :: bc.freeListHead }

/-- The insertion of `NumListAdd`: before the first descriptor of a
larger number, or at the tail. -/
def numInsert (blocks : Nat → OsBcacheBlock) (b : Nat) : List Nat → List Nat
  | [] => [b]
  | t :: ts => if (blocks t).num > (blocks b).num then b :: t :: ts else t :: numInsert blocks b ts

/-- `NumListAdd`. -/
def NumListAdd (bc : OsBcache) (b : Nat) : OsBcache :=
  { bc with numHead := numInsert bc.blocks b bc.numHead }

/-- `AddBlock`: into the tree, the number list and the LRU list, and
counted. -/
def AddBlock (bc : OsBcache) (b : Nat) : OsBcache :=
  let bc := RbAddBlock bc b
  let bc := NumListAdd bc b
  let bc := { bc with sumNum := (bc.sumNum + (bc.blocks b).num) % 2 ^ 64, nBlock := u32 (bc.nBlock + 1) }
  { bc with listHead := b :: bc.listHead }

/-- `DelBlock`: out of the LRU list, the number list and the tree,
uncounted, and freed. -/
def DelBlock (bc : OsBcache) (b : Nat) : OsBcache :=
  let bc := ListDelete bc b
  let bc := { bc with numHead := bc.numHead.erase b }
  let bc := { bc with sumNum := (2 ^ 64 - (bc.blocks b).num + bc.sumNum) % 2 ^ 64, nBlock := u32Sub bc.nBlock 1 }
  let bc := RbDelBlock bc b
  FreeBlock bc b

-- ============================================================ the device

/-- `BlockRead`: on a failed read of a descriptor not modified, the
descriptor leaves the LRU list and the tree, if its `listNode` is on a
list, and goes to the free list. -/
def BlockRead (bc : OsBcache) (b : Nat) (dev : Dev) : Int × OsBcache :=
  if dev.readRet ≠ 0 then
    if !(bc.blocks b).modified then
      let bc := if listLinked bc b then RbDelBlock (ListDelete bc b) b else bc
      (dev.readRet, FreeBlock bc b)
    else (dev.readRet, bc)
  else (ENOERR, bc.modifyBlock b fun blk => { blk with readFlag := true })

/-- `BcacheGetFlag`: a descriptor not read and not all dirty is read. -/
def BcacheGetFlag (bc : OsBcache) (b : Nat) (dev : Dev) : Int × OsBcache :=
  if (bc.blocks b).readFlag then (ENOERR, bc)
  else if (bc.blocks b).allDirty then (ENOERR, bc)
  else BlockRead bc b dev

/-- `BcacheSyncBlock`: a modified descriptor is written back. -/
def BcacheSyncBlock (bc : OsBcache) (b : Nat) (dev : Dev) : Int × OsBcache :=
  if (bc.blocks b).modified then
    if dev.writeRet = 0 then
      let bc := bc.modifyBlock b fun blk => { blk with modified := false }
      (ENOERR, { bc with modifiedBlock := u32Sub bc.modifiedBlock 1 })
    else (dev.writeRet, bc)
  else (ENOERR, bc)

/-- `BlockAllDirty`. -/
def BlockAllDirty (bc : OsBcache) (b : Nat) : Bool :=
  (bc.blocks b).modified && (bc.blocks b).allDirty

-- ========================================================= allocation

/-- The loop of `GetBaseBlock` over the write buffers before `wEnd`. -/
def GetBaseBlock.loop (bc : OsBcache) : List Nat → Option Nat × OsBcache
  | [] => (none, bc)
  | b :: bs =>
    if !(bc.blocks b).used then
      (some b, ListDelete (bc.modifyBlock b fun blk => { blk with used := true }) b)
    else loop bc bs

/-- `GetBaseBlock`: the first write buffer not in use, from `wStart` up
to, and without, `wEnd`. -/
def GetBaseBlock (bc : OsBcache) : Option Nat × OsBcache :=
  GetBaseBlock.loop bc (List.range' bc.wStart (bc.wEnd - bc.wStart))

/-- `GetSlowBlock(bc, read)`: a free descriptor of the kind asked for,
or else the least recently used cached one, synced (whatever the
sync returns) and evicted. -/
def GetSlowBlock (bc : OsBcache) (read : Bool) (dev : Dev) : Option Nat × OsBcache :=
  match bc.freeListHead.find? fun b => (bc.blocks b).readBuff = read with
  | some b => (some b, ListDelete (bc.modifyBlock b fun blk => { blk with used := true }) b)
  | none =>
    match bc.listHead.reverse.find? fun b => (bc.blocks b).readBuff = read with
    | some b =>
      let bc := if (bc.blocks b).modified then (BcacheSyncBlock bc b dev).2 else bc
      let bc := DelBlock bc b
      (some b, ListDelete (bc.modifyBlock b fun blk => { blk with used := true }) b)
    | none => (none, bc)

/-- The descriptor after `cur` on the number list. -/
def numNext (bc : OsBcache) (cur : Nat) : Option Nat :=
  match bc.numHead.dropWhile (· ≠ cur) with
  | _ :: next :: _ => some next
  | _ => none

/-- The loop of `WriteMergedBlocks`: it reads the next descriptor on
the number list before it deletes the current one. -/
def WriteMergedBlocks.loop (bc : OsBcache) : Nat → Option Nat → OsBcache
  | 0, _ => bc
  | _ + 1, none => bc
  | k + 1, some cur =>
    let next := numNext bc cur
    let bc := DelBlock bc cur
    let bc := bc.modifyBlock cur fun blk => { blk with modified := false }
    loop bc k next

/-- `WriteMergedBlocks(bc, begin, blocks)`. -/
def WriteMergedBlocks (bc : OsBcache) (begin blocks : Nat) (dev : Dev) : OsBcache :=
  if dev.writeRet ≠ 0 then bc
  else
    let bc := { bc with modifiedBlock := u32Sub bc.modifiedBlock blocks }
    WriteMergedBlocks.loop bc blocks (some begin)

/-- The count of `MergeSyncBlocks`: consecutive descriptors in use, all
dirty and of consecutive numbers. -/
def MergeSyncBlocks.count (bc : OsBcache) (last : Option Nat) : List Nat → Nat
  | [] => 0
  | cur :: rest =>
    if !(bc.blocks cur).used || !BlockAllDirty bc cur then 0
    else if last.any fun l => (bc.blocks l).num + 1 ≠ (bc.blocks cur).num then 0
    else count bc (some cur) rest + 1

/-- `MergeSyncBlocks(bc, start)`. -/
def MergeSyncBlocks (bc : OsBcache) (start : Nat) (dev : Dev) : OsBcache :=
  let mergedBlock := MergeSyncBlocks.count bc none (List.range' start (bc.wEnd + 1 - start))
  if mergedBlock > 0 then WriteMergedBlocks bc start mergedBlock dev else bc

/-- `GetMinWriteNum`: the number of the first write buffer on the number
list, or `0`. -/
def GetMinWriteNum (bc : OsBcache) : Nat :=
  match bc.numHead.find? fun b => !(bc.blocks b).readBuff with
  | some b => (bc.blocks b).num
  | none => 0

/-- `AllocNewBlock(bc, read, num)`. A write prefers the buffer after the
one holding `num - 1` (on `UINT64`s), which it first evicts. -/
def AllocNewBlock (bc : OsBcache) (read : Bool) (num : Nat) (dev : Dev) : Option Nat × OsBcache :=
  if read then GetSlowBlock bc true dev
  else if bc.nBlock ≠ 0 ∧ num < GetMinWriteNum bc then GetSlowBlock bc true dev
  else
    match RbFindBlock bc ((2 ^ 64 - 1 + num) % 2 ^ 64) with
    | none => GetBaseBlock bc
    | some last =>
      if (bc.blocks last).readBuff then GetBaseBlock bc
      else
        let prefer := if last + 1 > bc.wEnd then bc.wStart else last + 1
        -- a block the sync thread synced
        let bc := if (bc.blocks prefer).used && !(bc.blocks prefer).modified then
            DelBlock (bc.modifyBlock prefer fun blk => { blk with used := false }) prefer
          else bc
        let bc := if (bc.blocks prefer).used then MergeSyncBlocks bc prefer dev else bc
        let bc := if (bc.blocks prefer).used then DelBlock (BcacheSyncBlock bc prefer dev).2 prefer else bc
        (some prefer, ListDelete (bc.modifyBlock prefer fun blk => { blk with used := true }) prefer)

/-- `BlockInit`. -/
def BlockInit (bc : OsBcache) (b num : Nat) : OsBcache :=
  let wasModified := (bc.blocks b).modified
  let bc := bc.modifyBlock b fun blk =>
    { blk with num := num, readFlag := false, modified := false, allDirty := false }
  if wasModified then { bc with modifiedBlock := u32Sub bc.modifiedBlock 1 } else bc

/-- The lookup of `BcacheGetBlock`: the most recently used descriptor
if it holds `num`, else the tree's. -/
def BcacheGetBlock.hit (bc : OsBcache) (num : Nat) : Option Nat :=
  match bc.listHead with
  | [] => none
  | first :: _ => if (bc.blocks first).num = num then some first else RbFindBlock bc num

/-- `BcacheGetBlock(bc, num, readData, &block)`: the descriptor, or an
error. -/
def BcacheGetBlock (bc : OsBcache) (num : Nat) (readData : Bool) (dev : Dev) : Int × Option Nat × OsBcache :=
  match BcacheGetBlock.hit bc num with
  | some b => (ENOERR, some b, if bc.listHead.head? = some b then bc else ListMoveBlockToHead bc b)
  | none =>
    let (blk, bc) := AllocNewBlock bc readData num dev
    let (blk, bc) := match blk with
      | some b => (some b, bc)
      | none => GetSlowBlock bc readData dev
    match blk with
    | none => (-ENOMEM, none, bc)
    | some b =>
      let bc := BlockInit bc b num
      if readData then
        let (ret, bc) := BlockRead bc b dev
        if ret ≠ ENOERR then (ret, none, bc) else (ENOERR, some b, AddBlock bc b)
      else (ENOERR, some b, AddBlock bc b)

-- ================================================================ calls

/-- The blocks a transfer of `len` bytes from `sector` touches: the
first block and how many. -/
def blockSpan (bc : OsBcache) (sector len : Nat) : Nat × Nat :=
  let pos := sector * bc.sectorSize
  let num := pos >>> bc.blockSizeLog2
  let pos := pos &&& (2 ^ bc.blockSizeLog2 - 1)
  (num, if len = 0 then 0 else (pos + len + 2 ^ bc.blockSizeLog2 - 1) >>> bc.blockSizeLog2)

/-- The loop of `BlockCacheRead` over the blocks, from `num` on. -/
def BlockCacheRead.loop (useRead : Bool) (dev : Dev) : Nat → Nat → OsBcache → Int × OsBcache
  | 0, _, bc => (ENOERR, bc)
  | k + 1, num, bc =>
    match BcacheGetBlock bc num useRead dev with
    | (ret, none, bc) => (ret, bc)
    | (_, some b, bc) =>
      if !(bc.blocks b).readFlag && (bc.blocks b).modified then
        match BcacheGetFlag bc b dev with
        | (ret, bc) => if ret ≠ ENOERR then (ret, bc) else loop useRead dev k (num + 1) bc
      else if !(bc.blocks b).readFlag && !(bc.blocks b).modified then
        match BlockRead bc b dev with
        | (ret, bc) => if ret ≠ ENOERR then (ret, bc) else loop useRead dev k (num + 1) bc
      else loop useRead dev k (num + 1) bc

/-- `BlockCacheRead(bc, buf, &len, sector, useRead)`. -/
def BlockCacheRead (bc : OsBcache) (len sector : Nat) (useRead : Bool) (dev : Dev) : Int × OsBcache :=
  let (num, count) := blockSpan bc sector len
  BlockCacheRead.loop useRead dev count num bc

/-- The loop of `BlockCacheWrite` over the blocks, from `num` on, with
the offset `pos` into the first and the bytes `size` left. -/
def BlockCacheWrite.loop (dev : Dev) (blockSize : Nat) : Nat → Nat → Nat → Nat → OsBcache → Int × OsBcache
  | 0, _, _, _, bc => (ENOERR, bc)
  | k + 1, num, pos, size, bc =>
    let currentSize := if size + pos > blockSize then blockSize - pos else size
    match BcacheGetBlock bc num false dev with
    | (ret, none, bc) => (ret, bc)
    | (_, some b, bc) =>
      let bc := if !(bc.blocks b).modified then
          { bc.modifyBlock b fun blk => { blk with modified := true } with
            modifiedBlock := u32 (bc.modifiedBlock + 1) }
        else bc
      -- a whole block sets every flag; a part only sets the flags of its sectors
      let bc := if pos = 0 ∧ currentSize = blockSize then
          bc.modifyBlock b fun blk => { blk with allDirty := true }
        else bc
      loop dev blockSize k (num + 1) 0 (size - currentSize) bc

/-- `BlockCacheWrite(bc, buf, &len, sector)`. -/
def BlockCacheWrite (bc : OsBcache) (len sector : Nat) (dev : Dev) : Int × OsBcache :=
  let (num, count) := blockSpan bc sector len
  let pos := (sector * bc.sectorSize) &&& (2 ^ bc.blockSizeLog2 - 1)
  BlockCacheWrite.loop dev (2 ^ bc.blockSizeLog2) count num pos len bc

/-- The loop of `BcacheSync` over the LRU list from its tail. -/
def BcacheSync.loop (dev : Dev) : List Nat → OsBcache → Int × OsBcache
  | [], bc => (ENOERR, bc)
  | b :: bs, bc =>
    match BcacheSyncBlock bc b dev with
    | (ret, bc) => if ret ≠ ENOERR then (ret, bc) else loop dev bs bc

/-- `BlockCacheSync`, which is `BcacheSync`. -/
def BlockCacheSync (bc : OsBcache) (dev : Dev) : Int × OsBcache :=
  BcacheSync.loop dev bc.listHead.reverse bc

-- ================================================================ runs

/-- A call, what the device answered, and what the call returned. -/
inductive Call where
  | read (len sector : Nat) (useRead : Bool) (dev : Dev) (ret : Int)
  | write (len sector : Nat) (dev : Dev) (ret : Int)
  | sync (dev : Dev) (ret : Int)

/-- One call, under `bcacheMutex`. -/
inductive Step : OsBcache → Call → OsBcache → Prop where
  | read {bc : OsBcache} (len sector : Nat) (useRead : Bool) (dev : Dev) :
      Step bc (.read len sector useRead dev (BlockCacheRead bc len sector useRead dev).1)
        (BlockCacheRead bc len sector useRead dev).2
  | write {bc : OsBcache} (len sector : Nat) (dev : Dev) :
      Step bc (.write len sector dev (BlockCacheWrite bc len sector dev).1) (BlockCacheWrite bc len sector dev).2
  | sync {bc : OsBcache} (dev : Dev) :
      Step bc (.sync dev (BlockCacheSync bc dev).1) (BlockCacheSync bc dev).2

/-- `BcacheInitCache` on zeroed memory for `blockNum` descriptors, more
than the read buffers: every descriptor is on the free list, in order. -/
def BcacheInitCache (blockNum sectorSize blockSizeLog2 : Nat) : OsBcache where
  blocks := fun i => ⟨0, false, false, decide (i < CONFIG_FS_FAT_READ_NUMS), false, false⟩
  listHead := []
  freeListHead := List.range blockNum
  numHead := []
  rbTree := []
  sumNum := 0
  nBlock := 0
  modifiedBlock := 0
  wStart := CONFIG_FS_FAT_READ_NUMS
  wEnd := blockNum - 1
  sectorSize := sectorSize
  blockSizeLog2 := blockSizeLog2

end LiteOsA.Bcache
