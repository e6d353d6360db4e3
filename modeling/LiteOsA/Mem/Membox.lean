/-
The fixed-size block pool (kernel/base/mem/membox/los_membox.c).

# The pool

`LOS_MemboxInit(pool, poolSize, blkSize)` writes a `LOS_MEMBOX_INFO`
header at `pool` and carves the rest into `uwBlkNum` blocks of
`uwBlkSize` bytes each, the first at `boxInfo + 1`. A block's first word
is its `LOS_MEMBOX_NODE`: while the block is free it links to the next
free block, and while it is allocated it holds `OS_MEMBOX_MAGIC`. The
user's pointer is the word after it.

# What the model keeps

The header is a record (`Pool`), and memory is a map from addresses to
32-bit words: the pool reads and writes only the link word of each
block. Pointers are 32-bit (`UINTPTR` on the ARM configuration), so the
offset that `OsCheckBoxMem` computes wraps modulo `2 ^ 32` exactly as
the C does, and so do `uwBlkCnt` and the alignment macro.

`Sys` adds the ghost the claims speak about: the user pointers handed
out by `LOS_MemboxAlloc` and not yet given back. `Next` is one call of
`LOS_MemboxAlloc` or of `LOS_MemboxFree` with an arbitrary pointer.
-/
import LiteOsA.Base
import Mathlib.Logic.Function.Basic

namespace LiteOsA.Membox

-- ============================================================ constants

/-- `OS_MEMBOX_MAGIC` (the 32-bit value; `LOSCFG_AARCH64` is off). -/
def OS_MEMBOX_MAGIC : Nat := 0xa55a5aa5

/-- `OS_MEMBOX_NODE_HEAD_SIZE`: one pointer-sized link word. -/
def OS_MEMBOX_NODE_HEAD_SIZE : Nat := 4

/-- `sizeof(LOS_MEMBOX_INFO)`: three `UINT32` counters and the free-list
head node. -/
def sizeofInfo : Nat := 16

/-- `LOS_MEMBOX_ALLIGNED`: round up to `sizeof(UINTPTR)` in `UINTPTR`
arithmetic. -/
def LOS_MEMBOX_ALLIGNED (memAddr : Nat) : Nat :=
  u32 (memAddr + 4 - 1) &&& (2 ^ 32 - 4)

-- ============================================================ the state

/-- The pool header and memory. -/
structure Pool where
  /-- `uwBlkSize`: bytes per block, link word included. -/
  uwBlkSize : Nat
  /-- `uwBlkNum`: the number of blocks. -/
  uwBlkNum : Nat
  /-- `uwBlkCnt`: the number of allocated blocks. -/
  uwBlkCnt : Nat
  /-- `stFreeList.pstNext`, the first free block (`NULL` when none). -/
  freeHead : Nat
  /-- The 32-bit word stored at each address. -/
  mem : Nat → Nat

-- ============================================================ the code

/-- The initialisation loop of `LOS_MemboxInit`: `k` more times, the
block at `node` links to the block `blkSize` bytes on; the block where
the loop stops gets `NULL`. -/
def linkBlocks (blkSize : Nat) : Nat → Nat → (Nat → Nat) → Nat → Nat
  | 0, node, mem => Function.update mem node NULL
  | k + 1, node, mem =>
      linkBlocks blkSize k (node + blkSize) (Function.update mem node (node + blkSize))

/-- `LOS_MemboxInit`. The header fields are written in the order the C
writes them, so a rejected block size still leaves its trace in the
header. -/
def LOS_MemboxInit (pool poolSize blkSize : Nat) (p : Pool) : Nat × Pool :=
  if pool = NULL then (LOS_NOK, p)
  else if blkSize = 0 then (LOS_NOK, p)
  else if poolSize < sizeofInfo then (LOS_NOK, p)
  else
    let bs := LOS_MEMBOX_ALLIGNED (u32 (blkSize + OS_MEMBOX_NODE_HEAD_SIZE))
    if bs = 0 then (LOS_NOK, { p with uwBlkSize := bs })
    else
      let num := (poolSize - sizeofInfo) / bs
      if num = 0 then (LOS_NOK, { p with uwBlkSize := bs, uwBlkNum := num, uwBlkCnt := 0 })
      else
        let node := pool + sizeofInfo
        (LOS_OK, { uwBlkSize := bs, uwBlkNum := num, uwBlkCnt := 0, freeHead := node,
                   mem := linkBlocks bs (num - 1) node p.mem })

/-- `LOS_MemboxAlloc`: unlink the first free block, stamp it with the
magic word and hand out the word after it. -/
def LOS_MemboxAlloc (pool : Nat) (p : Pool) : Nat × Pool :=
  if pool = NULL then (NULL, p)
  else if p.freeHead ≠ NULL then
    let nodeTmp := p.freeHead
    (nodeTmp + OS_MEMBOX_NODE_HEAD_SIZE,
      { p with freeHead := p.mem nodeTmp,
               mem := Function.update p.mem nodeTmp OS_MEMBOX_MAGIC,
               uwBlkCnt := u32 (p.uwBlkCnt + 1) })
  else (NULL, p)

/-- `OsCheckBoxMem`: the node must lie a whole number of blocks past the
first block, inside the pool (offset taken in 32-bit arithmetic), and
carry the magic word. -/
def OsCheckBoxMem (pool : Nat) (p : Pool) (node : Nat) : Bool :=
  if p.uwBlkSize = 0 then false
  else
    let offset := u32Sub node (pool + sizeofInfo)
    if offset % p.uwBlkSize ≠ 0 then false
    else if offset / p.uwBlkSize ≥ p.uwBlkNum then false
    else p.mem node == OS_MEMBOX_MAGIC

/-- `OS_MEMBOX_NODE_ADDR`: the link word in front of a user pointer, in
`UINTPTR` arithmetic. -/
def OS_MEMBOX_NODE_ADDR (box : Nat) : Nat := u32Sub box OS_MEMBOX_NODE_HEAD_SIZE

/-- `LOS_MemboxFree`: a block that passes `OsCheckBoxMem` is pushed on
the free list; anything else is refused and nothing changes. -/
def LOS_MemboxFree (pool box : Nat) (p : Pool) : Nat × Pool :=
  if pool = NULL ∨ box = NULL then (LOS_NOK, p)
  else
    let node := OS_MEMBOX_NODE_ADDR box
    if OsCheckBoxMem pool p node then
      (LOS_OK, { p with mem := Function.update p.mem node p.freeHead,
                        freeHead := node,
                        uwBlkCnt := u32Sub p.uwBlkCnt 1 })
    else (LOS_NOK, p)

-- ========================================================== the system

/-- A pool and the user pointers it has handed out and not taken back. -/
structure Sys where
  pool : Pool
  live : List Nat

/-- One `LOS_MemboxAlloc` call; a pointer it returns joins the ghost. -/
def allocStep (pool : Nat) (s : Sys) : Sys :=
  let r := LOS_MemboxAlloc pool s.pool
  ⟨r.2, if r.1 = NULL then s.live else r.1 :: s.live⟩

/-- One `LOS_MemboxFree` call; a pointer it takes back leaves the ghost. -/
def freeStep (pool box : Nat) (s : Sys) : Sys :=
  let r := LOS_MemboxFree pool box s.pool
  ⟨r.2, if r.1 = LOS_OK then s.live.erase box else s.live⟩

/-- The pool right after a successful `LOS_MemboxInit`, over whatever
memory was there before. -/
def Initialised (pool poolSize blkSize : Nat) (s : Sys) : Prop :=
  ∃ p₀, LOS_MemboxInit pool poolSize blkSize p₀ = (LOS_OK, s.pool) ∧ s.live = []

/-- One call: an allocation, or a free of any 32-bit pointer. -/
def Next (pool : Nat) (s s' : Sys) : Prop :=
  s' = allocStep pool s ∨ ∃ box, box < 2 ^ 32 ∧ s' = freeStep pool box s

end LiteOsA.Membox
