/-
The TLSF heap (kernel/base/mem/tlsf/los_memory.c).

# The pool

`LOS_MemInit(pool, size)` puts an `OsMemPoolHead` at `pool` and tiles
the rest with nodes: the first node right after the head, the end node
in the last `OS_MEM_NODE_HEAD_SIZE` bytes. A node's head holds the
magic word, the node physically before it (`ptr.prev`) and its size,
whose top three bits are the used, aligned and last flags. A free node
goes on with the two links of its free list. The pool head keeps one
free list per size bucket (`OsMemFreeListIndexGet`) and a bitmap of the
nonempty ones, which `OsMemFindNextSuitableBlock` searches.

# What the model keeps

The configuration is the one without pool expansion, multiple pools,
leak or integrity checks, and with the waterline statistics
(`OS_MEM_WATERLINE == YES`). The pool head is a record, `Pool`, of the
fields the code reads; `info.pool`, `info.attr` and the spinlock are
written by `OsMemPoolInit` and read by nothing in this configuration.
Node heads live in memory, a map from byte addresses to 32-bit words,
read and written one field at a time (`Pool.get`, `Pool.set`), so that
nodes that overlap clobber each other's fields as they do in C.

`LOS_Panic` traps and does not come back: a function that can reach it
returns `Option`, and `none` is the panic. The walk along a free list
and the walk over all nodes carry fuel beyond the length of any list of
distinct nodes; the scan over the bitmap words is bounded by the number
of words. Pointer sums are plain sums (a pool lies below `2 ^ 32`);
pointer differences are 32-bit (`u32Sub`), as a pointer handed in from
outside may lie anywhere.
-/
import LiteOsA.Core.Bitmap
import Mathlib.Logic.Function.Basic

namespace LiteOsA.Tlsf

-- ============================================================ buckets

/-- `OS_MEM_SLI`: each power-of-two range splits into `2 ^ 3` lists. -/
def OS_MEM_SLI : Nat := 3

def OS_MEM_SMALL_BUCKET_COUNT : Nat := 31

def OS_MEM_SMALL_BUCKET_MAX_SIZE : Nat := 128

def OS_MEM_LARGE_BUCKET_COUNT : Nat := 24

def OS_MEM_FREE_LIST_NUM : Nat := 1 <<< OS_MEM_SLI

def OS_MEM_LARGE_START_BUCKET : Nat := 7

def OS_MEM_FREE_LIST_COUNT : Nat :=
  OS_MEM_SMALL_BUCKET_COUNT + (OS_MEM_LARGE_BUCKET_COUNT <<< OS_MEM_SLI)

def OS_MEM_BITMAP_WORDS : Nat := (OS_MEM_FREE_LIST_COUNT >>> 5) + 1

def OS_MEM_BITMAP_MASK : Nat := 0x1F

/-- `OsMemFFS`: the lowest set bit, isolated by `bitmap & (~bitmap + 1)`. -/
def OsMemFFS (bitmap : Nat) : Nat :=
  OS_MEM_BITMAP_MASK - CLZ (bitmap &&& u32Sub 0 bitmap)

/-- `OsMemFLS`: the highest set bit. -/
def OsMemFLS (bitmap : Nat) : Nat := OS_MEM_BITMAP_MASK - CLZ bitmap

def OsMemLog2 (size : Nat) : Nat := OsMemFLS size

/-- `OsMemFlGet`: the first level, `size / 4 - 1` for small sizes and
`log2 size` above. -/
def OsMemFlGet (size : Nat) : Nat :=
  if size < OS_MEM_SMALL_BUCKET_MAX_SIZE then u32Sub (size >>> 2) 1 else OsMemLog2 size

/-- `OsMemSlGet`: the second level, `(size << 3) >> fl` less `8`, all in
`UINT32`. -/
def OsMemSlGet (size fl : Nat) : Nat :=
  u32Sub (u32 (size <<< OS_MEM_SLI) >>> fl) OS_MEM_FREE_LIST_NUM

/-- `OsMemFreeListIndexGet`. -/
def OsMemFreeListIndexGet (size : Nat) : Nat :=
  let fl := OsMemFlGet size
  if size < OS_MEM_SMALL_BUCKET_MAX_SIZE then fl
  else
    let sl := OsMemSlGet size fl
    u32 (OS_MEM_SMALL_BUCKET_COUNT + u32 (u32Sub fl OS_MEM_LARGE_START_BUCKET <<< OS_MEM_SLI) + sl)

-- ============================================================ nodes

def OS_MEM_NODE_MAGIC : Nat := 0xABCDDCBA

def OS_MEM_NODE_USED_FLAG : Nat := 0x80000000

def OS_MEM_NODE_ALIGNED_FLAG : Nat := 0x40000000

def OS_MEM_NODE_LAST_FLAG : Nat := 0x20000000

def OS_MEM_NODE_ALIGNED_AND_USED_FLAG : Nat :=
  OS_MEM_NODE_USED_FLAG ||| OS_MEM_NODE_ALIGNED_FLAG ||| OS_MEM_NODE_LAST_FLAG

def OS_MEM_NODE_GET_ALIGNED_FLAG (sizeAndFlag : Nat) : Nat :=
  sizeAndFlag &&& OS_MEM_NODE_ALIGNED_FLAG

def OS_MEM_NODE_GET_ALIGNED_GAPSIZE (sizeAndFlag : Nat) : Nat :=
  sizeAndFlag &&& ((2 ^ 32 - 1) ^^^ OS_MEM_NODE_ALIGNED_FLAG)

def OS_MEM_NODE_GET_USED_FLAG (sizeAndFlag : Nat) : Nat :=
  sizeAndFlag &&& OS_MEM_NODE_USED_FLAG

def OS_MEM_NODE_GET_LAST_FLAG (sizeAndFlag : Nat) : Nat :=
  sizeAndFlag &&& OS_MEM_NODE_LAST_FLAG

def OS_MEM_NODE_GET_SIZE (sizeAndFlag : Nat) : Nat :=
  sizeAndFlag &&& ((2 ^ 32 - 1) ^^^ OS_MEM_NODE_ALIGNED_AND_USED_FLAG)

def OS_MEM_ALIGN_SIZE : Nat := 4

/-- `OS_MEM_ALIGN(p, alignSize)`, in `UINTPTR` arithmetic. -/
def OS_MEM_ALIGN (p alignSize : Nat) : Nat :=
  u32 (p + alignSize - 1) &&& ((2 ^ 32 - 1) ^^^ (alignSize - 1))

def OS_MEM_IS_POW_TWO (value : Nat) : Bool := value &&& u32Sub value 1 == 0

def OS_MEM_IS_ALIGNED (a b : Nat) : Bool := a &&& (b - 1) == 0

/-- `sizeof(struct OsMemUsedNodeHead)`: magic, `ptr` and `sizeAndFlag`. -/
def OS_MEM_NODE_HEAD_SIZE : Nat := 12

/-- `OS_MEM_MIN_ALLOC_SIZE`: a free node's head is two links longer. -/
def OS_MEM_MIN_ALLOC_SIZE : Nat := 8

/-- `sizeof(struct OsMemPoolHead)`: the 20-byte `info`, 7 bitmap words,
223 list heads and the 4-byte spinlock of the uniprocessor build. -/
def sizeofOsMemPoolHead : Nat := 944

def OS_MEM_MIN_POOL_SIZE : Nat := OS_MEM_NODE_HEAD_SIZE + sizeofOsMemPoolHead

/-- The fields of `struct OsMemFreeNodeHead`; the first three are its
`header`, the whole of a used node's head. -/
inductive Field
  | magic
  | ptrPrev
  | sizeAndFlag
  | prev
  | next
  deriving DecidableEq, Repr

/-- Byte offset of a field in the node. -/
@[simp] def Field.off : Field → Nat
  | .magic => 0
  | .ptrPrev => 4
  | .sizeAndFlag => 8
  | .prev => 12
  | .next => 16

-- ============================================================ the pool

/-- The pool head and memory. -/
structure Pool where
  /-- `info.totalSize`. -/
  totalSize : Nat
  /-- `info.waterLine`. -/
  waterLine : Nat
  /-- `info.curUsedSize`. -/
  curUsedSize : Nat
  /-- `freeListBitmap[]`, by word. -/
  freeListBitmap : Nat → Nat
  /-- `freeList[]`: the first node of each list, `NULL` when empty. -/
  freeList : Nat → Nat
  /-- The 32-bit word at each address. -/
  mem : Nat → Nat

namespace Pool

/-- `node->f`. -/
def get (p : Pool) (node : Nat) (f : Field) : Nat := p.mem (node + f.off)

/-- `node->f = v`. -/
def set (p : Pool) (node : Nat) (f : Field) (v : Nat) : Pool :=
  { p with mem := Function.update p.mem (node + f.off) v }

@[simp] theorem get_set (p : Pool) (node : Nat) (f : Field) (v a : Nat) (g : Field) :
    (p.set node f v).get a g = if a + g.off = node + f.off then v else p.get a g := by
  simp only [get, set, Function.update_apply]

@[simp] theorem set_mem (p : Pool) (node : Nat) (f : Field) (v : Nat) :
    (p.set node f v).mem = Function.update p.mem (node + f.off) v := rfl

@[simp] theorem set_totalSize (p : Pool) (node : Nat) (f : Field) (v : Nat) :
    (p.set node f v).totalSize = p.totalSize := rfl

@[simp] theorem set_waterLine (p : Pool) (node : Nat) (f : Field) (v : Nat) :
    (p.set node f v).waterLine = p.waterLine := rfl

@[simp] theorem set_curUsedSize (p : Pool) (node : Nat) (f : Field) (v : Nat) :
    (p.set node f v).curUsedSize = p.curUsedSize := rfl

@[simp] theorem set_freeListBitmap (p : Pool) (node : Nat) (f : Field) (v : Nat) :
    (p.set node f v).freeListBitmap = p.freeListBitmap := rfl

@[simp] theorem set_freeList (p : Pool) (node : Nat) (f : Field) (v : Nat) :
    (p.set node f v).freeList = p.freeList := rfl

end Pool

def OS_MEM_NEXT_NODE (p : Pool) (node : Nat) : Nat :=
  node + OS_MEM_NODE_GET_SIZE (p.get node .sizeAndFlag)

def OS_MEM_FIRST_NODE (pool : Nat) : Nat := pool + sizeofOsMemPoolHead

def OS_MEM_END_NODE (pool size : Nat) : Nat := pool + size - OS_MEM_NODE_HEAD_SIZE

/-- `OsMemWaterUsedRecord`. -/
def OsMemWaterUsedRecord (p : Pool) (size : Nat) : Pool :=
  let curUsedSize := u32 (p.curUsedSize + size)
  { p with curUsedSize := curUsedSize,
           waterLine := if curUsedSize > p.waterLine then curUsedSize else p.waterLine }

-- ========================================================= free lists

/-- The loop of `OsMemFindCurSuitableBlock`: the first node from `node`
on whose `sizeAndFlag` is at least `size`. -/
def OsMemFindCurSuitableBlock.loop (p : Pool) (size : Nat) : Nat → Nat → Nat
  | 0, _ => NULL
  | fuel + 1, node =>
      if node = NULL then NULL
      else if p.get node .sizeAndFlag ≥ size then node
      else loop p size fuel (p.get node .next)

def OsMemFindCurSuitableBlock (p : Pool) (index size : Nat) : Nat :=
  OsMemFindCurSuitableBlock.loop p size (2 ^ 32) (p.freeList index)

/-- `OsMemNotEmptyIndexGet`: the first nonempty list at `index` or above
within the bitmap word of `index`, or `OS_MEM_FREE_LIST_COUNT`. -/
def OsMemNotEmptyIndexGet (p : Pool) (index : Nat) : Nat :=
  let mask := p.freeListBitmap (index >>> 5) &&&
    ((2 ^ 32 - 1) ^^^ ((1 <<< (index &&& OS_MEM_BITMAP_MASK)) - 1))
  if mask ≠ 0 then OsMemFFS mask + (index &&& ((2 ^ 32 - 1) ^^^ OS_MEM_BITMAP_MASK))
  else OS_MEM_FREE_LIST_COUNT

/-- The loop of `OsMemFindNextSuitableBlock` over the later bitmap
words, from the first list of a word. -/
def OsMemFindNextSuitableBlock.scan (p : Pool) : Nat → Nat → Option Nat
  | 0, _ => none
  | fuel + 1, index =>
      if index < OS_MEM_FREE_LIST_COUNT then
        let mask := p.freeListBitmap (index >>> 5)
        if mask ≠ 0 then some (OsMemFFS mask + index) else scan p fuel (index + 32)
      else none

/-- `OsMemFindNextSuitableBlock`: a node of a list above the bucket of
`size`, else one of the bucket of `size` itself that is large enough.
Returns the node and `*outIndex`, which the caller reads only when the
node is not `NULL`. -/
def OsMemFindNextSuitableBlock (p : Pool) (size : Nat) : Nat × Nat :=
  let fl := OsMemFlGet size
  let (index, curIndex) :=
    if size < OS_MEM_SMALL_BUCKET_MAX_SIZE then (fl, OS_MEM_FREE_LIST_COUNT)
    else
      let sl := OsMemSlGet size fl
      let curIndex :=
        u32 (u32 (u32Sub fl OS_MEM_LARGE_START_BUCKET <<< OS_MEM_SLI) + sl + OS_MEM_SMALL_BUCKET_COUNT)
      (u32 (curIndex + 1), curIndex)
  let tmp := OsMemNotEmptyIndexGet p index
  if tmp ≠ OS_MEM_FREE_LIST_COUNT then (p.freeList tmp, tmp)
  else
    match OsMemFindNextSuitableBlock.scan p OS_MEM_BITMAP_WORDS (LOS_Align (index + 1) 32) with
    | some index => (p.freeList index, index)
    | none =>
        if curIndex = OS_MEM_FREE_LIST_COUNT then (NULL, curIndex)
        else (OsMemFindCurSuitableBlock p curIndex size, curIndex)

/-- `OsMemSetFreeListBit`, the expression of `LOS_BitmapSet`. -/
def OsMemSetFreeListBit (p : Pool) (index : Nat) : Pool :=
  let word := LOS_BitmapSet (p.freeListBitmap (index >>> 5)) index
  { p with freeListBitmap := Function.update p.freeListBitmap (index >>> 5) word }

/-- `OsMemClearFreeListBit`, the expression of `LOS_BitmapClr`. -/
def OsMemClearFreeListBit (p : Pool) (index : Nat) : Pool :=
  let word := LOS_BitmapClr (p.freeListBitmap (index >>> 5)) index
  { p with freeListBitmap := Function.update p.freeListBitmap (index >>> 5) word }

/-- `OsMemListAdd`: push `node` on list `listIndex`. -/
def OsMemListAdd (p : Pool) (listIndex node : Nat) : Pool :=
  let firstNode := p.freeList listIndex
  let p := if firstNode ≠ NULL then p.set firstNode .prev node else p
  let p := p.set node .prev NULL
  let p := p.set node .next firstNode
  let p := { p with freeList := Function.update p.freeList listIndex node }
  let p := OsMemSetFreeListBit p listIndex
  p.set node .magic OS_MEM_NODE_MAGIC

/-- `OsMemListDelete`: unlink `node` from list `listIndex`. -/
def OsMemListDelete (p : Pool) (listIndex node : Nat) : Pool :=
  let p :=
    if node = p.freeList listIndex then
      let p := { p with freeList := Function.update p.freeList listIndex (p.get node .next) }
      if p.get node .next = NULL then OsMemClearFreeListBit p listIndex
      else p.set (p.get node .next) .prev NULL
    else
      let p := p.set (p.get node .prev) .next (p.get node .next)
      if p.get node .next ≠ NULL then p.set (p.get node .next) .prev (p.get node .prev) else p
  p.set node .magic OS_MEM_NODE_MAGIC

def OsMemFreeNodeAdd (p : Pool) (node : Nat) : Option Pool :=
  let index := OsMemFreeListIndexGet (p.get node .sizeAndFlag)
  if index ≥ OS_MEM_FREE_LIST_COUNT then none else some (OsMemListAdd p index node)

def OsMemFreeNodeDelete (p : Pool) (node : Nat) : Option Pool :=
  let index := OsMemFreeListIndexGet (p.get node .sizeAndFlag)
  if index ≥ OS_MEM_FREE_LIST_COUNT then none else some (OsMemListDelete p index node)

/-- `OsMemFreeNodeGet`: take a node of at least `size` bytes off its list. -/
def OsMemFreeNodeGet (p : Pool) (size : Nat) : Nat × Pool :=
  let (firstNode, index) := OsMemFindNextSuitableBlock p size
  if firstNode = NULL then (NULL, p) else (firstNode, OsMemListDelete p index firstNode)

-- ======================================================= merge, split

/-- `OsMemMergeNode`: `node` joins the node before it. -/
def OsMemMergeNode (p : Pool) (node : Nat) : Pool :=
  let prev := p.get node .ptrPrev
  let p := p.set prev .sizeAndFlag (u32 (p.get prev .sizeAndFlag + p.get node .sizeAndFlag))
  let nextNode := node + p.get node .sizeAndFlag
  if OS_MEM_NODE_GET_LAST_FLAG (p.get nextNode .sizeAndFlag) = 0 then
    p.set nextNode .ptrPrev (p.get node .ptrPrev)
  else p

/-- `OsMemSplitNode`: the first `allocSize` bytes stay `allocNode`, the
rest becomes a free node, merged with the next one if that is free. -/
def OsMemSplitNode (p : Pool) (allocNode allocSize : Nat) : Option Pool := do
  let newFreeNode := allocNode + allocSize
  let p := p.set newFreeNode .ptrPrev allocNode
  let p := p.set newFreeNode .sizeAndFlag (u32Sub (p.get allocNode .sizeAndFlag) allocSize)
  let p := p.set allocNode .sizeAndFlag allocSize
  let nextNode := OS_MEM_NEXT_NODE p newFreeNode
  let p ←
    if OS_MEM_NODE_GET_LAST_FLAG (p.get nextNode .sizeAndFlag) = 0 then do
      let p := p.set nextNode .ptrPrev newFreeNode
      if OS_MEM_NODE_GET_USED_FLAG (p.get nextNode .sizeAndFlag) = 0 then do
        let p ← OsMemFreeNodeDelete p nextNode
        pure (OsMemMergeNode p nextNode)
      else pure p
    else pure p
  OsMemFreeNodeAdd p newFreeNode

/-- `OsMemCreateUsedNode`: the user's pointer is just past the head. -/
def OsMemCreateUsedNode (addr : Nat) : Nat := addr + OS_MEM_NODE_HEAD_SIZE

-- ======================================================= initialisation

/-- `OsMemPoolInit`: a zeroed head, one free node over the whole pool and
the end node. -/
def OsMemPoolInit (pool size : Nat) (mem : Nat → Nat) : Option Pool := do
  let p : Pool := { totalSize := size, waterLine := 0, curUsedSize := 0,
                    freeListBitmap := fun _ => 0, freeList := fun _ => NULL, mem := mem }
  let newNode := OS_MEM_FIRST_NODE pool
  let p := p.set newNode .sizeAndFlag
    (u32Sub (u32Sub size sizeofOsMemPoolHead) OS_MEM_NODE_HEAD_SIZE)
  let p := p.set newNode .ptrPrev NULL
  let p := p.set newNode .magic OS_MEM_NODE_MAGIC
  let p ← OsMemFreeNodeAdd p newNode
  let endNode := OS_MEM_END_NODE pool size
  let p := p.set endNode .magic OS_MEM_NODE_MAGIC
  let p := p.set endNode .sizeAndFlag 0
  let p := p.set endNode .ptrPrev newNode
  let p := p.set endNode .sizeAndFlag (p.get endNode .sizeAndFlag ||| OS_MEM_NODE_USED_FLAG)
  let curUsedSize := sizeofOsMemPoolHead + OS_MEM_NODE_HEAD_SIZE
  pure { p with curUsedSize := curUsedSize, waterLine := curUsedSize }

/-- `LOS_MemInit` over the pool state found at `pool`; a rejected call
leaves it as it was. -/
def LOS_MemInit (pool size : Nat) (p : Pool) : Option (Nat × Pool) :=
  if pool = NULL ∨ size ≤ OS_MEM_MIN_POOL_SIZE then some (OS_ERROR, p)
  else (OsMemPoolInit pool (OS_MEM_ALIGN size OS_MEM_ALIGN_SIZE) p.mem).map (LOS_OK, ·)

-- =========================================================== allocation

/-- `OsMemAlloc`: the user pointer of a node of at least
`OS_MEM_ALIGN(size + OS_MEM_NODE_HEAD_SIZE, 4)` bytes, or `NULL`. -/
def OsMemAlloc (p : Pool) (size : Nat) : Option (Nat × Pool) := do
  let allocSize := OS_MEM_ALIGN (size + OS_MEM_NODE_HEAD_SIZE) OS_MEM_ALIGN_SIZE
  if allocSize = 0 then pure (NULL, p)
  else
    let (allocNode, p) := OsMemFreeNodeGet p allocSize
    if allocNode = NULL then pure (NULL, p)
    else
      let p ←
        if u32 (allocSize + OS_MEM_NODE_HEAD_SIZE + OS_MEM_MIN_ALLOC_SIZE) ≤
            p.get allocNode .sizeAndFlag then OsMemSplitNode p allocNode allocSize
        else pure p
      let p := p.set allocNode .sizeAndFlag
        (p.get allocNode .sizeAndFlag ||| OS_MEM_NODE_USED_FLAG)
      let p := OsMemWaterUsedRecord p (OS_MEM_NODE_GET_SIZE (p.get allocNode .sizeAndFlag))
      pure (OsMemCreateUsedNode allocNode, p)

/-- `LOS_MemAlloc` on a pool (a `NULL` pool goes to the boot allocator,
which is not modelled). -/
def LOS_MemAlloc (p : Pool) (size : Nat) : Option (Nat × Pool) :=
  if size = 0 then some (NULL, p)
  else
    let size := if size < OS_MEM_MIN_ALLOC_SIZE then OS_MEM_MIN_ALLOC_SIZE else size
    if OS_MEM_NODE_GET_USED_FLAG size ≠ 0 ∨ OS_MEM_NODE_GET_ALIGNED_FLAG size ≠ 0 then
      some (NULL, p)
    else OsMemAlloc p size

/-- `LOS_MemAllocAlign`: allocate `boundary - 4` bytes more and, when the
pointer is not aligned, hand out the aligned one with the gap, flagged
aligned, in the word before it. -/
def LOS_MemAllocAlign (p : Pool) (size boundary : Nat) : Option (Nat × Pool) :=
  if size = 0 ∨ boundary = 0 ∨ !OS_MEM_IS_POW_TWO boundary ∨ !OS_MEM_IS_ALIGNED boundary 4 then
    some (NULL, p)
  else
    let size := if size < OS_MEM_MIN_ALLOC_SIZE then OS_MEM_MIN_ALLOC_SIZE else size
    if boundary - 4 > 2 ^ 32 - 1 - size then some (NULL, p)
    else
      let useSize := u32Sub (u32 (size + boundary)) 4
      if OS_MEM_NODE_GET_USED_FLAG useSize ≠ 0 ∨ OS_MEM_NODE_GET_ALIGNED_FLAG useSize ≠ 0 then
        some (NULL, p)
      else do
        let (ptr, p) ← OsMemAlloc p useSize
        let alignedPtr := OS_MEM_ALIGN ptr boundary
        if ptr = alignedPtr then pure (ptr, p)
        else
          let gapSize := u32Sub alignedPtr ptr
          let allocNode := u32Sub ptr OS_MEM_NODE_HEAD_SIZE
          let p := p.set allocNode .sizeAndFlag
            (p.get allocNode .sizeAndFlag ||| OS_MEM_NODE_ALIGNED_FLAG)
          let gapSize := gapSize ||| OS_MEM_NODE_ALIGNED_FLAG
          pure (alignedPtr, { p with mem := Function.update p.mem (u32Sub alignedPtr 4) gapSize })

-- =============================================================== checks

/-- `OsMemAddrValidCheck`: `NULL`, or an address inside the pool. -/
def OsMemAddrValidCheck (pool : Nat) (p : Pool) (addr : Nat) : Bool :=
  addr == NULL || (pool + sizeofOsMemPoolHead ≤ addr && addr < pool + p.totalSize)

/-- `OsMemIsNodeValid`. -/
def OsMemIsNodeValid (pool : Nat) (p : Pool) (node startNode endNode : Nat) : Bool :=
  if !(startNode ≤ node && node ≤ endNode) then false
  else if OS_MEM_NODE_GET_USED_FLAG (p.get node .sizeAndFlag) ≠ 0 then
    p.get node .magic == OS_MEM_NODE_MAGIC
  else OsMemAddrValidCheck pool p (p.get node .ptrPrev)

/-- `OsMemCheckUsedNode`: `node` is a used node whose neighbours link
back to it. -/
def OsMemCheckUsedNode (pool : Nat) (p : Pool) (node : Nat) : Nat :=
  let startNode := OS_MEM_FIRST_NODE pool
  let endNode := OS_MEM_END_NODE pool p.totalSize
  if !OsMemIsNodeValid pool p node startNode endNode then LOS_NOK
  else if OS_MEM_NODE_GET_USED_FLAG (p.get node .sizeAndFlag) = 0 then LOS_NOK
  else
    let nextNode := OS_MEM_NEXT_NODE p node
    if !OsMemIsNodeValid pool p nextNode startNode endNode then LOS_NOK
    else if OS_MEM_NODE_GET_LAST_FLAG (p.get nextNode .sizeAndFlag) = 0 ∧
        p.get nextNode .ptrPrev ≠ node then LOS_NOK
    else if node ≠ startNode ∧
        (!OsMemIsNodeValid pool p (p.get node .ptrPrev) startNode endNode ||
          OS_MEM_NEXT_NODE p (p.get node .ptrPrev) != node) then LOS_NOK
    else LOS_OK

-- ================================================================= free

/-- `OsMemFree`: a node that passes the check joins a free neighbour on
either side and goes on its free list. -/
def OsMemFree (pool : Nat) (p : Pool) (node : Nat) : Option (Nat × Pool) := do
  let ret := OsMemCheckUsedNode pool p node
  if ret ≠ LOS_OK then pure (ret, p)
  else
    let curUsedSize := u32Sub p.curUsedSize (OS_MEM_NODE_GET_SIZE (p.get node .sizeAndFlag))
    let p := { p with curUsedSize := curUsedSize }
    let p := p.set node .sizeAndFlag (OS_MEM_NODE_GET_SIZE (p.get node .sizeAndFlag))
    let preNode := p.get node .ptrPrev
    let (node, p) ←
      if preNode ≠ NULL ∧ OS_MEM_NODE_GET_USED_FLAG (p.get preNode .sizeAndFlag) = 0 then do
        let p ← OsMemFreeNodeDelete p preNode
        pure (preNode, OsMemMergeNode p node)
      else pure (node, p)
    let nextNode := OS_MEM_NEXT_NODE p node
    let p ←
      if nextNode ≠ NULL ∧ OS_MEM_NODE_GET_USED_FLAG (p.get nextNode .sizeAndFlag) = 0 then do
        let p ← OsMemFreeNodeDelete p nextNode
        pure (OsMemMergeNode p nextNode)
      else pure p
    let p ← OsMemFreeNodeAdd p node
    pure (ret, p)

/-- `LOS_MemFree`: the node of `ptr`, found through the gap word of an
aligned allocation. -/
def LOS_MemFree (pool : Nat) (p : Pool) (ptr : Nat) : Option (Nat × Pool) :=
  if pool = NULL ∨ ptr = NULL ∨ !OS_MEM_IS_ALIGNED pool 4 ∨ !OS_MEM_IS_ALIGNED ptr 4 then
    some (LOS_NOK, p)
  else
    let gapSize := p.mem (u32Sub ptr 4)
    if OS_MEM_NODE_GET_ALIGNED_FLAG gapSize ≠ 0 ∧ OS_MEM_NODE_GET_USED_FLAG gapSize ≠ 0 then
      some (LOS_NOK, p)
    else if OS_MEM_NODE_GET_ALIGNED_FLAG gapSize ≠ 0 then
      let gapSize := OS_MEM_NODE_GET_ALIGNED_GAPSIZE gapSize
      if gapSize &&& (OS_MEM_ALIGN_SIZE - 1) ≠ 0 ∨ gapSize > u32Sub ptr OS_MEM_NODE_HEAD_SIZE then
        some (LOS_NOK, p)
      else OsMemFree pool p (u32Sub (u32Sub ptr gapSize) OS_MEM_NODE_HEAD_SIZE)
    else OsMemFree pool p (u32Sub ptr OS_MEM_NODE_HEAD_SIZE)

-- ============================================================== realloc

/-- `OsMemReAllocSmaller`: keep the node, giving back its tail when that
is large enough for a node of its own. -/
def OsMemReAllocSmaller (p : Pool) (allocSize node nodeSize : Nat) : Option Pool := do
  let p := p.set node .sizeAndFlag nodeSize
  let p ←
    if u32 (allocSize + OS_MEM_NODE_HEAD_SIZE + OS_MEM_MIN_ALLOC_SIZE) ≤ nodeSize then do
      let p ← OsMemSplitNode p node allocSize
      let p := p.set node .sizeAndFlag (p.get node .sizeAndFlag ||| OS_MEM_NODE_USED_FLAG)
      pure { p with curUsedSize := u32Sub p.curUsedSize (nodeSize - allocSize) }
    else pure p
  pure (p.set node .sizeAndFlag (p.get node .sizeAndFlag ||| OS_MEM_NODE_USED_FLAG))

/-- `OsMemMergeNodeForReAllocBigger`: `node` takes in the free node after
it and gives back what it does not need. -/
def OsMemMergeNodeForReAllocBigger (p : Pool) (allocSize node nodeSize nextNode : Nat) :
    Option Pool := do
  let p := p.set node .sizeAndFlag nodeSize
  let p ← OsMemFreeNodeDelete p nextNode
  let p := OsMemMergeNode p nextNode
  let p ←
    if u32 (allocSize + OS_MEM_NODE_HEAD_SIZE + OS_MEM_MIN_ALLOC_SIZE) ≤ p.get node .sizeAndFlag
    then OsMemSplitNode p node allocSize
    else pure p
  let p := p.set node .sizeAndFlag (p.get node .sizeAndFlag ||| OS_MEM_NODE_USED_FLAG)
  pure (OsMemWaterUsedRecord p (u32Sub (p.get node .sizeAndFlag) nodeSize))

/-- `OsGetRealPtr`: the pointer `OsMemAlloc` returned for the user's
`ptr`, or `NULL` for a bad gap word. -/
def OsGetRealPtr (pool : Nat) (p : Pool) (ptr : Nat) : Nat :=
  let gapSize := p.mem (u32Sub ptr 4)
  if OS_MEM_NODE_GET_ALIGNED_FLAG gapSize ≠ 0 ∧ OS_MEM_NODE_GET_USED_FLAG gapSize ≠ 0 then NULL
  else if OS_MEM_NODE_GET_ALIGNED_FLAG gapSize ≠ 0 then
    let gapSize := OS_MEM_NODE_GET_ALIGNED_GAPSIZE gapSize
    if gapSize &&& (OS_MEM_ALIGN_SIZE - 1) ≠ 0 ∨
        gapSize > u32Sub (u32Sub ptr OS_MEM_NODE_HEAD_SIZE) pool then NULL
    else u32Sub ptr gapSize
  else ptr

/-- `memcpy_s` of `count` words from `src` to `dest`, word `j` after
word `j - 1`. -/
def memcpyWords (mem : Nat → Nat) (dest src : Nat) : Nat → (Nat → Nat)
  | 0 => mem
  | j + 1 =>
      let mem := memcpyWords mem dest src j
      Function.update mem (dest + 4 * j) (mem (src + 4 * j))

/-- `OsMemRealloc`: shrink in place, grow into a free next node, or move.
A `memcpy_s` that refuses (more bytes than the new block holds) also
clears the new block, whose words the model leaves, as it is freed
right after. -/
def OsMemRealloc (pool : Nat) (p : Pool) (ptr node size : Nat) : Option (Nat × Pool) := do
  let allocSize := OS_MEM_ALIGN (size + OS_MEM_NODE_HEAD_SIZE) OS_MEM_ALIGN_SIZE
  let nodeSize := OS_MEM_NODE_GET_SIZE (p.get node .sizeAndFlag)
  if nodeSize ≥ allocSize then
    let p ← OsMemReAllocSmaller p allocSize node nodeSize
    pure (ptr, p)
  else
    let nextNode := OS_MEM_NEXT_NODE p node
    if OS_MEM_NODE_GET_USED_FLAG (p.get nextNode .sizeAndFlag) = 0 ∧
        u32 (p.get nextNode .sizeAndFlag + nodeSize) ≥ allocSize then
      let p ← OsMemMergeNodeForReAllocBigger p allocSize node nodeSize nextNode
      pure (ptr, p)
    else
      let (tmpPtr, p) ← OsMemAlloc p size
      if tmpPtr = NULL then pure (tmpPtr, p)
      else if u32Sub nodeSize OS_MEM_NODE_HEAD_SIZE > size then
        let (_, p) ← LOS_MemFree pool p tmpPtr
        pure (NULL, p)
      else
        let p := { p with mem := memcpyWords p.mem tmpPtr ptr ((nodeSize - OS_MEM_NODE_HEAD_SIZE) / 4) }
        let (_, p) ← OsMemFree pool p node
        pure (tmpPtr, p)

/-- `LOS_MemRealloc`. -/
def LOS_MemRealloc (pool : Nat) (p : Pool) (ptr size : Nat) : Option (Nat × Pool) :=
  if pool = NULL ∨ OS_MEM_NODE_GET_USED_FLAG size ≠ 0 ∨ OS_MEM_NODE_GET_ALIGNED_FLAG size ≠ 0 then
    some (NULL, p)
  else
    let size := if size < OS_MEM_MIN_ALLOC_SIZE then OS_MEM_MIN_ALLOC_SIZE else size
    if ptr = NULL then LOS_MemAlloc p size
    -- unreachable: `size` is at least `OS_MEM_MIN_ALLOC_SIZE` here
    else if size = 0 then (LOS_MemFree pool p ptr).map fun r => (NULL, r.2)
    else
      let ptr := OsGetRealPtr pool p ptr
      if ptr = NULL then some (NULL, p)
      else
        let node := u32Sub ptr OS_MEM_NODE_HEAD_SIZE
        if OsMemCheckUsedNode pool p node ≠ LOS_OK then some (NULL, p)
        else OsMemRealloc pool p ptr node size

-- ========================================================== statistics

/-- The loop of `LOS_MemTotalUsedGet`: the used bytes from `tmpNode` up
to `endNode`, added to `memUsed`. -/
def LOS_MemTotalUsedGet.loop (p : Pool) (endNode : Nat) : Nat → Nat → Nat → Nat
  | 0, _, memUsed => memUsed
  | fuel + 1, tmpNode, memUsed =>
      if tmpNode < endNode then
        let memUsed :=
          if OS_MEM_NODE_GET_USED_FLAG (p.get tmpNode .sizeAndFlag) ≠ 0 then
            u32 (memUsed + OS_MEM_NODE_GET_SIZE (p.get tmpNode .sizeAndFlag))
          else memUsed
        loop p endNode fuel (OS_MEM_NEXT_NODE p tmpNode) memUsed
      else memUsed

/-- `LOS_MemTotalUsedGet`: the bytes of all used nodes. -/
def LOS_MemTotalUsedGet (pool : Nat) (p : Pool) : Nat :=
  LOS_MemTotalUsedGet.loop p (OS_MEM_END_NODE pool p.totalSize) p.totalSize
    (OS_MEM_FIRST_NODE pool) 0

end LiteOsA.Tlsf
