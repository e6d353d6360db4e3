/-
The timer virtual IDs of a process (security/vid/vid.c): the map
`timerIdMap` from the software timers' IDs (`rid`) to the IDs that
`timer_create` hands to user space (`vid`).

# What the model keeps

The map's node list `head` is kept as the list of its nodes in list
order: `AddNodeByRid` appends at the tail, `RemoveNodeByVid` takes out
the node that its search found, and the searches walk from the head.
The bitmap `bitMap` is its words in order, each a `UINT32`, with
`mapCount` beside it; bit `j` of word `i` marks the vid `32 * i + j`.

Each allocation of the kernel heap (`LOS_MemAlloc`, `LOS_MemRealloc`)
is a Boolean input of the call that makes it: `true` when it hands out
the memory, `false` when it returns `NULL`. Every sequence of outcomes
is a possible run.

# What it leaves out

The mutex `vidMapLock` (each call is one step), the `errno` that
`AddNodeByRid` sets, the memory of the nodes themselves, and
`VidMapDestroy`, after which the process has no map.
-/
import LiteOsA.Base

namespace LiteOsA.Vid

-- ============================================================ constants

/-- `INT_BIT_COUNT`: the bits of a bitmap word. -/
def INT_BIT_COUNT : Nat := 32

/-- `INT_BIT_SHIFT`. -/
def INT_BIT_SHIFT : Nat := 5

/-- `VID_MAP_MAX_NUM`: the most words the bitmap grows to. -/
def VID_MAP_MAX_NUM : Nat := 32

/-- `MAX_INVALID_TIMER_VID`: no vid. -/
def MAX_INVALID_TIMER_VID : Nat := VID_MAP_MAX_NUM * INT_BIT_COUNT

-- ============================================================ the map

/-- `TimerIdMapNode`: one pair of the map. -/
structure TimerIdMapNode where
  rid : Nat
  vid : Nat
deriving DecidableEq, Repr

/-- `TimerIdMap`, the process's `timerIdMap`. -/
structure TimerIdMap where
  head : List TimerIdMapNode
  bitMap : List Nat
  mapCount : Nat
deriving DecidableEq, Repr

/-- `VidMapListInit`, with the outcome of the bitmap's allocation:
`none` when it fails and the call returns `LOS_NOK`. -/
def VidMapListInit (allocOk : Bool) : Option TimerIdMap :=
  if allocOk then some ⟨[], [0], 1⟩ else none

/-- The walk of `FindListNodeByVid` and `FindListNodeByRid`: the first
node whose field `key` is `k`. -/
def findListNode (m : TimerIdMap) (key : TimerIdMapNode → Nat) (k : Nat) : Option TimerIdMapNode :=
  m.head.find? fun idNode => k == key idNode

/-- `FindListNodeByVid`. -/
def FindListNodeByVid (m : TimerIdMap) (vid : Nat) : Option TimerIdMapNode :=
  findListNode m TimerIdMapNode.vid vid

/-- `FindListNodeByRid`. -/
def FindListNodeByRid (m : TimerIdMap) (rid : Nat) : Option TimerIdMapNode :=
  findListNode m TimerIdMapNode.rid rid

/-- The inner loop of `GetFreeVid`: the first clear bit of the word
`num`. -/
def GetFreeVid.clearBit (num : Nat) : Option Nat :=
  (List.range INT_BIT_COUNT).find? fun j => num &&& (1 <<< j) == 0

/-- The two loops of `GetFreeVid`: the first word with a clear bit, and
that bit. -/
def GetFreeVid.scan (m : TimerIdMap) : Option (Nat × Nat) :=
  (List.range m.mapCount).findSome? fun i => (clearBit (m.bitMap.getD i 0)).map (i, ·)

/-- `GetFreeVid`, with the outcome of the allocation of a grown bitmap. -/
def GetFreeVid (m : TimerIdMap) (allocOk : Bool) : Nat × TimerIdMap :=
  match GetFreeVid.scan m with
  | some (i, j) =>
    let num := m.bitMap.getD i 0 ||| 1 <<< j
    (INT_BIT_COUNT * i + j, { m with bitMap := m.bitMap.set i num })
  | none =>
    -- every bit is taken: expand the bit map by one word
    let mapMaxNum := m.mapCount + 1
    if mapMaxNum > VID_MAP_MAX_NUM then (MAX_INVALID_TIMER_VID, m)
    else if !allocOk then (MAX_INVALID_TIMER_VID, m)
    else
      -- the old words are copied, and the new word `i = mapCount` is `1`
      (INT_BIT_COUNT * m.mapCount,
        { m with bitMap := m.bitMap.take (mapMaxNum - 1) ++ [1], mapCount := mapMaxNum })

/-- `ReleaseVid`, with the outcome of the `LOS_MemRealloc` that shrinks
the bitmap. -/
def ReleaseVid (m : TimerIdMap) (vid : Nat) (reallocOk : Bool) : TimerIdMap :=
  if vid ≥ VID_MAP_MAX_NUM * INT_BIT_COUNT then m else
  let a := vid >>> INT_BIT_SHIFT
  let b := vid &&& (INT_BIT_COUNT - 1)
  -- `~(1 << b)` as a `UINT32`
  let m := { m with bitMap := m.bitMap.set a (m.bitMap.getD a 0 &&& ((2 ^ 32 - 1) ^^^ 1 <<< b)) }
  -- shrink bit map
  if m.mapCount > 1 then
    if m.bitMap.getD (m.mapCount - 1) 0 = 0 then
      if reallocOk then { m with bitMap := m.bitMap.take (m.mapCount - 1), mapCount := m.mapCount - 1 }
      else m
    else m
  else m

/-- `AddNodeByRid`, with the outcomes of the bitmap's and the node's
allocations. -/
def AddNodeByRid (m : TimerIdMap) (rid : Nat) (mapAllocOk nodeAllocOk : Bool) : Nat × TimerIdMap :=
  match FindListNodeByRid m rid with
  | some tmp => (tmp.vid, m)
  | none =>
    let (vid, m) := GetFreeVid m mapAllocOk
    if vid = MAX_INVALID_TIMER_VID then (MAX_INVALID_TIMER_VID, m)
    -- the node's allocation failed: the vid that `GetFreeVid` marked stays marked
    else if !nodeAllocOk then (MAX_INVALID_TIMER_VID, m)
    else (vid, { m with head := m.head ++ [⟨rid, vid⟩] })

/-- `GetRidByVid`. -/
def GetRidByVid (m : TimerIdMap) (vid : Nat) : Nat :=
  match FindListNodeByVid m vid with
  | some tmp => tmp.rid
  | none => 0xffff

/-- `RemoveNodeByVid`, with the outcome of `ReleaseVid`'s reallocation. -/
def RemoveNodeByVid (m : TimerIdMap) (vid : Nat) (reallocOk : Bool) : TimerIdMap :=
  match FindListNodeByVid m vid with
  | none => m
  | some tmp => ReleaseVid { m with head := m.head.erase tmp } tmp.vid reallocOk

-- ============================================================ runs

/-- A call on the map, with the outcomes of its allocations. -/
inductive VidCall where
  | add (rid : Nat) (mapAllocOk nodeAllocOk : Bool)
  | remove (vid : Nat) (reallocOk : Bool)
  | get (vid : Nat)
deriving DecidableEq, Repr

/-- The map after a call. -/
def VidCall.apply : VidCall → TimerIdMap → TimerIdMap
  | .add rid mapAllocOk nodeAllocOk, m => (AddNodeByRid m rid mapAllocOk nodeAllocOk).2
  | .remove vid reallocOk, m => RemoveNodeByVid m vid reallocOk
  | .get _, m => m

/-- The map after a sequence of calls. -/
def runCalls (m : TimerIdMap) (cs : List VidCall) : TimerIdMap :=
  cs.foldl (fun m c => c.apply m) m

/-- The vid `v` is marked in the bitmap. -/
def vidUsed (m : TimerIdMap) (v : Nat) : Bool :=
  (m.bitMap.getD (v / INT_BIT_COUNT) 0).testBit (v % INT_BIT_COUNT)

end LiteOsA.Vid
