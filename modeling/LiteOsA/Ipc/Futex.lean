/-
The futex (kernel/base/ipc/los_futex.c): the hash of futex keys, and the
wait, wake and requeue calls as `SysFutex` makes them.

# What the model keeps

A task and its futex node are one point of `τ`: the node a task waits
on is its own `taskCB->futex` (`OsFutexInsertTaskToHash`), and the task
on a node's `pendList` is that task. A node keeps its `key`, `index`
and `pid` (`FutexSys.futex`), whether its `pendList` is not empty
(`pended`: the task still waits there), and its two list nodes:
`queueList`, which threads the waiters of one key into a ring behind
the key node, and `futexList`, which threads the key nodes of a bucket
behind the bucket's `lockList` (`FLoc`). A task has its `priority` and
`processID`. `OsSchedTaskWake` takes a task off its pend list and
appends it to `woken`; what the scheduler then does with it is the
scheduler's. The user's memory is read through `userWord` (`none`
where the copy fails) and translated by `paddr` (`LOS_PaddrQuery`, `0`
where nothing is mapped).

The links are those of los_list.h, null links included, and every
pointer the code follows is followed here. A null link that the code
dereferences stops the call with `Stop.null`; a pointer to what is not
a node (the first entry of an empty pend list taken for a task, a
bucket's `lockList` taken for a key node) stops it with `Stop.wild`. A
pointer read from a null link stops the call where it is read: in each
such place the code goes on to dereference it, so the call faults
there in any case. Every loop that follows links runs `fuel` times at
most and then stops with `Stop.fuel`.

`g_futexHash[index]` is the bucket `.lockList index`; every index the
code takes is a value of `OsFutexKeyToIndex`, below `FUTEX_INDEX_MAX`
(`OsFutexKeyToIndex_lt`), or a node's `index` that the code checks.

# What it leaves out

The bucket locks (`OsFutexLock` and `OsFutexUnlock` are taken to
succeed, so each call is one step), `OS_INT_ACTIVE` (calls come from
task context), the scheduling after a wake, the wait mask, the timeout
of a wait, and the rest of a wait after the task pends. The
`headNode` out-parameter of `OsFutexDeleteKeyNodeFromHash` is left out:
every caller in this file passes `NULL` for it.
-/
import LiteOsA.Base
import LiteOsA.Core.LosList
import LiteOsA.Vm.Region

namespace LiteOsA.Futex

-- ============================================================ constants

/-- `FUTEX_WAKE` (los_futex_pri.h). -/
def FUTEX_WAKE : Nat := 1

/-- `FUTEX_REQUEUE` (los_futex_pri.h). -/
def FUTEX_REQUEUE : Nat := 3

/-- `FUTEX_PRIVATE` (los_futex_pri.h). -/
def FUTEX_PRIVATE : Nat := 128

/-- `FUTEX_MASK` (los_futex_pri.h). -/
def FUTEX_MASK : Nat := 0x3

/-- `FUTEX_INDEX_PRIVATE_MAX`: the buckets of private futexes. -/
def FUTEX_INDEX_PRIVATE_MAX : Nat := 64

/-- `FUTEX_INDEX_SHARED_MAX`: the buckets of shared futexes. -/
def FUTEX_INDEX_SHARED_MAX : Nat := 16

/-- `FUTEX_INDEX_MAX`. -/
def FUTEX_INDEX_MAX : Nat := FUTEX_INDEX_PRIVATE_MAX + FUTEX_INDEX_SHARED_MAX

/-- `FUTEX_INDEX_SHARED_POS`: the first bucket of shared futexes. -/
def FUTEX_INDEX_SHARED_POS : Nat := FUTEX_INDEX_PRIVATE_MAX

/-- `FUTEX_HASH_PRIVATE_MASK`. -/
def FUTEX_HASH_PRIVATE_MASK : Nat := FUTEX_INDEX_PRIVATE_MAX - 1

/-- `FUTEX_HASH_SHARED_MASK`. -/
def FUTEX_HASH_SHARED_MASK : Nat := FUTEX_INDEX_SHARED_MAX - 1

/-- `OS_FUTEX_KEY_BASE`. -/
def OS_FUTEX_KEY_BASE : Nat := Vm.USER_ASPACE_BASE

/-- `OS_FUTEX_KEY_MAX`. -/
def OS_FUTEX_KEY_MAX : Nat := Vm.USER_ASPACE_BASE + Vm.USER_ASPACE_SIZE

/-- `OS_INVALID`: `(UINT32)(-1)` (los_typedef.h). -/
def OS_INVALID : Nat := 0xFFFFFFFF

/-- `OS_INVALID_VALUE` (los_typedef.h). -/
def OS_INVALID_VALUE : Nat := 0xFFFFFFFF

/-- `FNV1_32A_INIT` (los_hash.h). -/
def FNV1_32A_INIT : Nat := 0x811c9dc5

/-- `FNV_32_PRIME` (los_hash.h). -/
def FNV_32_PRIME : Nat := 0x01000193

/-- `~FUTEX_PRIVATE` as a `UINT32`. -/
def FUTEX_PRIVATE_COMPL : Nat := (2 ^ 32 - 1) ^^^ FUTEX_PRIVATE

/-- An `int` argument read as `UINT32`. -/
def toUInt32 (x : Int) : Nat := (x % 2 ^ 32).toNat

/-- An `unsigned int` argument read as `INT32`. -/
def toInt32 (x : Nat) : Int := if x < 2 ^ 31 then x else (x : Int) - 2 ^ 32

-- ============================================================ the state

/-- The key fields of a `FutexNode`. -/
structure FutexNode where
  key : Nat
  index : Nat
  pid : Nat
  deriving DecidableEq, Repr

/-- A `LOS_DL_LIST` of the futex hash: the `lockList` of a bucket, or
the `futexList` of a node. -/
inductive FLoc (τ : Type) where
  | lockList (index : Nat)
  | futexList (node : τ)
  deriving DecidableEq

/-- Why a call stops without returning. -/
inductive Stop where
  /-- a null link is dereferenced -/
  | null
  /-- a pointer to what is not a node is dereferenced -/
  | wild
  /-- a loop ran out of fuel -/
  | fuel
  deriving DecidableEq, Repr

/-- The futex hash, the futex nodes of the tasks, and what the calls
read of the tasks and of user memory. -/
structure FutexSys (τ : Type) where
  futex : τ → FutexNode
  pended : τ → Bool
  priority : τ → Nat
  processID : τ → Nat
  queueList : Links τ
  futexList : Links (FLoc τ)
  woken : List τ
  userWord : Nat → Option Nat
  paddr : Nat → Nat

variable {τ : Type} [DecidableEq τ]

/-- Follow a pointer that the code dereferences: a null one stops the
call. -/
def deref {β : Type} : Option β → Except Stop β
  | some b => .ok b
  | none => .error .null

/-- `OS_FUTEX_FROM_FUTEXLIST`: the node whose `futexList` this is. -/
def fromFutexList : FLoc τ → Except Stop τ
  | .futexList x => .ok x
  | .lockList _ => .error .wild

namespace FutexSys

/-- Write the key fields of a node. -/
def setFutex (s : FutexSys τ) (x : τ) (n : FutexNode) : FutexSys τ :=
  { s with futex := Function.update s.futex x n }

/-- Apply a list operation to the `queueList` links. -/
def editQueue (s : FutexSys τ) (e : Option (Links τ)) : Except Stop (FutexSys τ) := do
  return { s with queueList := ← deref e }

/-- Apply a list operation to the `futexList` links. -/
def editFutex (s : FutexSys τ) (e : Option (Links (FLoc τ))) : Except Stop (FutexSys τ) := do
  return { s with futexList := ← deref e }

/-- `OS_TCB_FROM_PENDLIST(LOS_DL_LIST_FIRST(&node->pendList))`: the task
waiting on the node, which is its own. -/
def pendTask (s : FutexSys τ) (node : τ) : Except Stop τ :=
  if s.pended node then .ok node else .error .wild

end FutexSys

/-- `OsSchedTaskWake` (los_sched.c), as the futex sees it: the task
leaves its pend list and is made ready. -/
def OsSchedTaskWake (s : FutexSys τ) (t : τ) : FutexSys τ :=
  { s with pended := Function.update s.pended t false, woken := s.woken ++ [t] }

-- ============================================================ keys

/-- `LOS_HashFNV32aBuf` (los_hash.h): FNV-1a over the bytes of `buf`. -/
def LOS_HashFNV32aBuf (buf : List Nat) (hval : Nat) : Nat :=
  buf.foldl (fun h b => u32 ((h ^^^ b) * FNV_32_PRIME)) hval

/-- The bytes of a `UINTPTR` in memory, lowest first. -/
def uintptrBytes (x : Nat) : List Nat :=
  [x % 2 ^ 8, x / 2 ^ 8 % 2 ^ 8, x / 2 ^ 16 % 2 ^ 8, x / 2 ^ 24 % 2 ^ 8]

/-- `OsFutexFlagsToKey`. -/
def OsFutexFlagsToKey (s : FutexSys τ) (userVaddr flags : Nat) : Nat :=
  if flags &&& FUTEX_PRIVATE ≠ 0 then userVaddr else s.paddr userVaddr

/-- `OsFutexKeyToIndex`. -/
def OsFutexKeyToIndex (futexKey flags : Nat) : Nat :=
  let index := LOS_HashFNV32aBuf (uintptrBytes futexKey) FNV1_32A_INIT
  if flags &&& FUTEX_PRIVATE ≠ 0 then index &&& FUTEX_HASH_PRIVATE_MASK
  else (index &&& FUTEX_HASH_SHARED_MASK) + FUTEX_INDEX_SHARED_POS

/-- `OsFutexSetKey`, for the node of the current task `node`. -/
def OsFutexSetKey (s : FutexSys τ) (futexKey flags : Nat) (node : τ) : FutexSys τ :=
  s.setFutex node ⟨futexKey, OsFutexKeyToIndex futexKey flags,
    if flags &&& FUTEX_PRIVATE ≠ 0 then s.processID node else OS_INVALID⟩

-- ============================================================ the hash

/-- `OsFutexDeinitFutexNode`. -/
def OsFutexDeinitFutexNode (s : FutexSys τ) (node : τ) : Except Stop (FutexSys τ) :=
  let s := s.setFutex node { s.futex node with index := OS_INVALID_VALUE, pid := 0 }
  s.editQueue (LOS_ListDelete s.queueList node)

/-- `OsFutexReplaceQueueListHeadNode`: `newHeadNode` takes the place of
`oldHeadNode` in its bucket. -/
def OsFutexReplaceQueueListHeadNode (s : FutexSys τ) (oldHeadNode newHeadNode : τ) :
    Except Stop (FutexSys τ) := do
  let futexList ← deref (s.futexList.prev (.futexList oldHeadNode))
  let s ← s.editFutex (LOS_ListDelete s.futexList (.futexList oldHeadNode))
  s.editFutex (LOS_ListHeadInsert s.futexList futexList (.futexList newHeadNode))

/-- `OsFutexDeleteKeyFromFutexList`. -/
def OsFutexDeleteKeyFromFutexList (s : FutexSys τ) (node : τ) : Except Stop (FutexSys τ) :=
  s.editFutex (LOS_ListDelete s.futexList (.futexList node))

/-- `OsFutexDeleteKeyNodeFromHash`, returning whether it set
`*queueFlags`. -/
def OsFutexDeleteKeyNodeFromHash (s : FutexSys τ) (node : τ) (isDeleteHead : Bool) :
    Except Stop (Bool × FutexSys τ) := do
  if FUTEX_INDEX_MAX ≤ (s.futex node).index then return (false, s)
  if LOS_ListEmpty s.queueList node then
    let s ← OsFutexDeleteKeyFromFutexList s node
    let s ← OsFutexDeinitFutexNode s node
    return (true, s)
  -- a key node with waiters behind it
  if (s.futexList.next (.futexList node)).isSome then
    if isDeleteHead then
      let nextNode ← deref (s.queueList.next node)
      let s ← OsFutexReplaceQueueListHeadNode s node nextNode
      let s ← OsFutexDeinitFutexNode s node
      return (false, s)
    else return (false, s)
  let s ← OsFutexDeinitFutexNode s node
  return (false, s)

/-- The loop of `OsFutexDeleteAlreadyWakeTaskAndGetNext`: `nextNode`
keeps its value from one round to the next. -/
def OsFutexDeleteAlreadyWakeTaskAndGetNext.loop (isDeleteHead : Bool) :
    Nat → FutexSys τ → τ → Option τ → Except Stop (Option τ × FutexSys τ)
  | fuel, s, tempNode, nextNode =>
    if s.pended tempNode then .ok (some tempNode, s) else
    match fuel with
    | 0 => .error .fuel
    | fuel + 1 => do
      let nextNode ← if LOS_ListEmpty s.queueList tempNode then pure nextNode
        else some <$> deref (s.queueList.next tempNode)
      let (queueFlag, s) ← OsFutexDeleteKeyNodeFromHash s tempNode isDeleteHead
      if queueFlag then return (none, s)
      let tempNode ← deref nextNode
      loop isDeleteHead fuel s tempNode nextNode

/-- `OsFutexDeleteAlreadyWakeTaskAndGetNext`: drop the nodes from `node`
on whose tasks no longer wait, and return the first one that still
waits (`none` when a lone key node went). -/
def OsFutexDeleteAlreadyWakeTaskAndGetNext (s : FutexSys τ) (node : τ) (isDeleteHead : Bool)
    (fuel : Nat) : Except Stop (Option τ × FutexSys τ) :=
  OsFutexDeleteAlreadyWakeTaskAndGetNext.loop isDeleteHead fuel s node none

/-- The search of `OsFutexInsertNewFutexKeyToHash` for the first key node
whose key is not below `node`'s. -/
def OsFutexInsertNewFutexKeyToHash.loop (node : τ) (lockList : FLoc τ) :
    Nat → FutexSys τ → FLoc τ → Except Stop (FutexSys τ)
  | fuel, s, futexList =>
    if futexList = lockList then .ok s else
    match fuel with
    | 0 => .error .fuel
    | fuel + 1 => do
      let headNode ← fromFutexList futexList
      if (s.futex node).key ≤ (s.futex headNode).key then
        s.editFutex (LOS_ListTailInsert s.futexList (.futexList headNode) (.futexList node))
      else
        loop node lockList fuel s (← deref (s.futexList.next futexList))

/-- `OsFutexInsertNewFutexKeyToHash`: `node` goes into its bucket in key
order. -/
def OsFutexInsertNewFutexKeyToHash (s : FutexSys τ) (node : τ) (fuel : Nat) :
    Except Stop (FutexSys τ) := do
  let lockList : FLoc τ := .lockList (s.futex node).index
  if LOS_ListEmpty s.futexList lockList then
    return ← s.editFutex (LOS_ListHeadInsert s.futexList lockList (.futexList node))
  let headNode ← fromFutexList (← deref (s.futexList.next lockList))
  if (s.futex node).key < (s.futex headNode).key then
    return ← s.editFutex (LOS_ListHeadInsert s.futexList lockList (.futexList node))
  let tailNode ← fromFutexList (← deref (s.futexList.prev lockList))
  if (s.futex tailNode).key < (s.futex node).key then
    return ← s.editFutex (LOS_ListTailInsert s.futexList lockList (.futexList node))
  OsFutexInsertNewFutexKeyToHash.loop node lockList fuel s (← deref (s.futexList.next lockList))

/-- The loop of `OsFutexInsertFindFormBackToFront`, from `listTail`
back towards `listHead`. -/
def OsFutexInsertFindFormBackToFront.loop (listHead runTask node : τ) (fuel : Nat) :
    Nat → FutexSys τ → τ → Except Stop (Nat × FutexSys τ)
  | n, s, listTail =>
    if listHead = listTail then .ok (LOS_NOK, s) else
    match n with
    | 0 => .error .fuel
    | n + 1 => do
      let (tempNode, s) ← OsFutexDeleteAlreadyWakeTaskAndGetNext s listTail false fuel
      let some tempNode := tempNode | return (LOS_NOK, s)
      let taskTail ← s.pendTask tempNode
      if s.priority taskTail ≤ s.priority runTask then
        let s ← s.editQueue (LOS_ListHeadInsert s.queueList tempNode node)
        return (LOS_OK, s)
      -- `runTask->priority < taskTail->priority`
      if s.queueList.prev listTail = some listHead then
        let s ← s.editQueue (LOS_ListTailInsert s.queueList tempNode node)
        return (LOS_OK, s)
      loop listHead runTask node fuel n s (← deref (s.queueList.prev listTail))

/-- `OsFutexInsertFindFormBackToFront`. -/
def OsFutexInsertFindFormBackToFront (s : FutexSys τ) (queueList runTask node : τ) (fuel : Nat) :
    Except Stop (Nat × FutexSys τ) := do
  OsFutexInsertFindFormBackToFront.loop queueList runTask node fuel fuel s
    (← deref (s.queueList.prev queueList))

/-- The loop of `OsFutexInsertFindFromFrontToBack`, from `listHead` on
towards `listTail`; both are compared as pointers, null or not. -/
def OsFutexInsertFindFromFrontToBack.loop (listTail : Option τ) (runTask node : τ) (fuel : Nat) :
    Nat → FutexSys τ → Option τ → Except Stop (Nat × FutexSys τ)
  | n, s, listHead =>
    if listHead = listTail then .ok (LOS_NOK, s) else
    match n with
    | 0 => .error .fuel
    | n + 1 => do
      let listHead ← deref listHead
      let (tempNode, s) ← OsFutexDeleteAlreadyWakeTaskAndGetNext s listHead false fuel
      let some tempNode := tempNode | return (LOS_NOK, s)
      let taskHead ← s.pendTask tempNode
      -- high priority before low, and after the others of the same priority
      if s.priority taskHead ≤ s.priority runTask then
        if s.queueList.next listHead = listTail then
          let s ← s.editQueue (LOS_ListHeadInsert s.queueList tempNode node)
          return (LOS_OK, s)
        loop listTail runTask node fuel n s (s.queueList.next listHead)
      else
        let s ← s.editQueue (LOS_ListTailInsert s.queueList tempNode node)
        return (LOS_OK, s)

/-- `OsFutexInsertFindFromFrontToBack`. -/
def OsFutexInsertFindFromFrontToBack (s : FutexSys τ) (queueList runTask node : τ) (fuel : Nat) :
    Except Stop (Nat × FutexSys τ) :=
  OsFutexInsertFindFromFrontToBack.loop (s.queueList.prev queueList) runTask node fuel fuel s
    (some queueList)

/-- `OsFutexRecycleAndFindHeadNode`, returning `*firstNode` (the call
itself always returns `LOS_OK`). -/
def OsFutexRecycleAndFindHeadNode (s : FutexSys τ) (headNode node : τ) (fuel : Nat) :
    Except Stop (Option τ × FutexSys τ) := do
  let (firstNode, s) ← OsFutexDeleteAlreadyWakeTaskAndGetNext s headNode true fuel
  -- the head node went, and it was the only node of its key
  if firstNode.isNone then
    let s ← OsFutexInsertNewFutexKeyToHash s node fuel
    return (none, { s with queueList := LOS_ListInit s.queueList node })
  return (firstNode, s)

/-- `OsFutexInsertTasktoPendList`: `node`, of the task `run`, joins the
ring of the key node `firstNode`; returns the code and `*firstNode`. -/
def OsFutexInsertTasktoPendList (s : FutexSys τ) (firstNode node run : τ) (fuel : Nat) :
    Except Stop (Nat × τ × FutexSys τ) := do
  let taskHead ← s.pendTask firstNode
  let queueList := firstNode
  if s.priority run < s.priority taskHead then
    -- the highest priority goes to the top of the queue
    let s ← s.editQueue (LOS_ListTailInsert s.queueList queueList node)
    let s ← OsFutexReplaceQueueListHeadNode s firstNode node
    return (LOS_OK, node, s)
  if LOS_ListEmpty s.queueList queueList && decide (s.priority taskHead ≤ s.priority run) then
    let s ← s.editQueue (LOS_ListHeadInsert s.queueList queueList node)
    return (LOS_OK, firstNode, s)
  let tailNode ← deref (s.queueList.prev queueList)
  let taskTail ← s.pendTask tailNode
  -- `UINT16` priorities, subtracted as `int`
  if s.priority taskTail ≤ s.priority run ∨
      (s.priority taskTail : Int) - s.priority run < (s.priority run : Int) - s.priority taskHead then
    let (ret, s) ← OsFutexInsertFindFormBackToFront s queueList run node fuel
    return (ret, firstNode, s)
  let (ret, s) ← OsFutexInsertFindFromFrontToBack s queueList run node fuel
  return (ret, firstNode, s)

/-- The loop of `OsFindFutexNode` over the key nodes of `node`'s bucket. -/
def OsFindFutexNode.loop (s : FutexSys τ) (node : FutexNode) : Nat → FLoc τ → Except Stop (Option τ)
  | n, futexList =>
    if futexList = .lockList node.index then .ok none else
    match n with
    | 0 => .error .fuel
    | n + 1 => do
      let headNode ← fromFutexList futexList
      if (s.futex headNode).key = node.key ∧ (s.futex headNode).pid = node.pid then
        return some headNode
      loop s node n (← deref (s.futexList.next futexList))

/-- `OsFindFutexNode`: the key node of `node`'s key and pid in its
bucket. -/
def OsFindFutexNode (s : FutexSys τ) (node : FutexNode) (fuel : Nat) : Except Stop (Option τ) := do
  OsFindFutexNode.loop s node fuel (← deref (s.futexList.next (.lockList node.index)))

/-- `OsFindAndInsertToHash`, for the node of the current task `node`. -/
def OsFindAndInsertToHash (s : FutexSys τ) (node : τ) (fuel : Nat) : Except Stop (Nat × FutexSys τ) := do
  let some headNode ← OsFindFutexNode s (s.futex node) fuel | do
    let s ← OsFutexInsertNewFutexKeyToHash s node fuel
    return (LOS_OK, { s with queueList := LOS_ListInit s.queueList node })
  let (firstNode, s) ← OsFutexRecycleAndFindHeadNode s headNode node fuel
  let some firstNode := firstNode | return (LOS_OK, s)
  let (ret, _, s) ← OsFutexInsertTasktoPendList s firstNode node node fuel
  return (ret, s)

-- ============================================================ wait

/-- The address check the parameter checks share: a word-aligned user
address in the futex range. -/
def vaddrInvalid (vaddr : Nat) : Bool :=
  vaddr % 4 ≠ 0 || vaddr < OS_FUTEX_KEY_BASE || OS_FUTEX_KEY_MAX ≤ vaddr

/-- `OsFutexKeyShmPermCheck`. -/
def OsFutexKeyShmPermCheck (s : FutexSys τ) (userVaddr flags : Nat) : Nat :=
  if flags &&& FUTEX_PRIVATE = 0 then
    if s.paddr userVaddr = 0 then LOS_NOK else LOS_OK
  else LOS_OK

/-- `OsFutexWaitParamCheck`. -/
def OsFutexWaitParamCheck (s : FutexSys τ) (userVaddr flags absTime : Nat) : Nat :=
  if flags &&& FUTEX_PRIVATE_COMPL ≠ 0 then LOS_EINVAL
  else if vaddrInvalid userVaddr then LOS_EINVAL
  else if flags ≠ 0 ∧ OsFutexKeyShmPermCheck s userVaddr flags ≠ LOS_OK then LOS_EINVAL
  else if absTime = 0 then LOS_EINVAL
  else LOS_OK

/-- `OsFutexInsertTaskToHash`, for the current task `run`. -/
def OsFutexInsertTaskToHash (s : FutexSys τ) (run : τ) (futexKey flags : Nat) (fuel : Nat) :
    Except Stop (Nat × FutexSys τ) := do
  let node := run
  let s := OsFutexSetKey s futexKey flags node
  let (ret, s) ← OsFindAndInsertToHash s node fuel
  if ret ≠ 0 then return (LOS_NOK, s)
  -- `LOS_ListInit(&node->pendList)`
  return (LOS_OK, { s with pended := Function.update s.pended node false })

/-- `OsFutexWaitTask` up to the point where the task pends: `none` when
it pends on its node, `some ret` when the call returns `ret`. -/
def OsFutexWaitTask (s : FutexSys τ) (run : τ) (userVaddr flags val : Nat) (fuel : Nat) :
    Except Stop (Option Nat × FutexSys τ) := do
  let futexKey := OsFutexFlagsToKey s userVaddr flags
  let some lockVal := s.userWord userVaddr | return (some LOS_EINVAL, s)
  if lockVal ≠ val then return (some LOS_EBADF, s)
  let (ret, s) ← OsFutexInsertTaskToHash s run futexKey flags fuel
  if ret ≠ 0 then return (some LOS_NOK, s)
  -- `OsSchedTaskWait(&(node->pendList), ...)`
  return (none, { s with pended := Function.update s.pended run true })

/-- `OsFutexWait`, up to the point where the task pends. -/
def OsFutexWait (s : FutexSys τ) (run : τ) (userVaddr flags val absTime : Nat) (fuel : Nat) :
    Except Stop (Option Nat × FutexSys τ) := do
  let ret := OsFutexWaitParamCheck s userVaddr flags absTime
  if ret ≠ 0 then return (some ret, s)
  OsFutexWaitTask s run userVaddr flags val fuel

-- ============================================================ wake

/-- `OsFutexWakeParamCheck`. -/
def OsFutexWakeParamCheck (s : FutexSys τ) (userVaddr flags : Nat) : Nat :=
  if flags &&& FUTEX_PRIVATE_COMPL ≠ FUTEX_WAKE then LOS_EINVAL
  else if vaddrInvalid userVaddr then LOS_EINVAL
  else if flags ≠ 0 ∧ OsFutexKeyShmPermCheck s userVaddr flags ≠ LOS_OK then LOS_EINVAL
  else LOS_OK

/-- The loop of `OsFutexCheckAndWakePendTask`, with `count` rounds left;
`*nextNode` and `*wakeAny` are carried through. -/
def OsFutexCheckAndWakePendTask.loop (headNode : τ) (fuel : Nat) :
    Nat → FutexSys τ → τ → Option τ → Bool → Except Stop (Option τ × Bool × FutexSys τ)
  | 0, s, _, nextNode, wakeAny => .ok (nextNode, wakeAny, s)
  | count + 1, s, node, _, wakeAny => do
    -- skip the nodes whose tasks no longer wait
    let (nextNode, s) ← OsFutexDeleteAlreadyWakeTaskAndGetNext s node false fuel
    let some node := nextNode | return (none, wakeAny, s)
    let taskCB ← s.pendTask node
    let s := OsSchedTaskWake s taskCB
    let nextNode ← deref (s.queueList.next node)
    let s ← if node ≠ headNode then OsFutexDeinitFutexNode s node else pure s
    -- every node of the ring has been woken
    if LOS_ListEmpty s.queueList headNode then return (none, true, s)
    loop headNode fuel count s nextNode (some nextNode) true

/-- `OsFutexCheckAndWakePendTask`: `count < wakeNumber` rounds from
`headNode`, with the caller's `*nextNode` and `*wakeAny`. -/
def OsFutexCheckAndWakePendTask (s : FutexSys τ) (headNode : τ) (wakeNumber : Int)
    (nextNode : Option τ) (wakeAny : Bool) (fuel : Nat) : Except Stop (Option τ × Bool × FutexSys τ) :=
  OsFutexCheckAndWakePendTask.loop headNode fuel wakeNumber.toNat s headNode nextNode wakeAny

/-- `OsFutexWakeTask`, called by the task `run`: the code, `*newHeadNode`
and `*wakeAny`. -/
def OsFutexWakeTask (s : FutexSys τ) (run : τ) (futexKey flags : Nat) (wakeNumber : Int)
    (newHeadNode : Option τ) (wakeAny : Bool) (fuel : Nat) :
    Except Stop (Nat × Option τ × Bool × FutexSys τ) := do
  let index := OsFutexKeyToIndex futexKey flags
  let tempNode : FutexNode :=
    ⟨futexKey, index, if flags &&& FUTEX_PRIVATE ≠ 0 then s.processID run else OS_INVALID⟩
  let some node ← OsFindFutexNode s tempNode fuel | return (LOS_EBADF, newHeadNode, wakeAny, s)
  let headNode := node
  let (newHeadNode, wakeAny, s) ← OsFutexCheckAndWakePendTask s headNode wakeNumber newHeadNode wakeAny fuel
  match newHeadNode with
  | some newHead =>
    let s ← OsFutexReplaceQueueListHeadNode s headNode newHead
    let s ← OsFutexDeinitFutexNode s headNode
    return (LOS_OK, newHeadNode, wakeAny, s)
  | none =>
    if (s.futex headNode).index < FUTEX_INDEX_MAX then
      let s ← OsFutexDeleteKeyFromFutexList s headNode
      let s ← OsFutexDeinitFutexNode s headNode
      return (LOS_OK, newHeadNode, wakeAny, s)
    return (LOS_OK, newHeadNode, wakeAny, s)

/-- `OsFutexWake`, called by the task `run`. -/
def OsFutexWake (s : FutexSys τ) (run : τ) (userVaddr flags : Nat) (wakeNumber : Int) (fuel : Nat) :
    Except Stop (Nat × FutexSys τ) := do
  if OsFutexWakeParamCheck s userVaddr flags ≠ 0 then return (LOS_EINVAL, s)
  let futexKey := OsFutexFlagsToKey s userVaddr flags
  let (ret, _, _, s) ← OsFutexWakeTask s run futexKey flags wakeNumber none false fuel
  if ret ≠ 0 then return (ret, s)
  return (LOS_OK, s)

-- ============================================================ requeue

/-- The do-while loop of `OsFutexRequeueInsertNewKey`, at most `n` more
rounds, from the node `queueList` with the new key's head node. -/
def OsFutexRequeueInsertNewKey.loop (fuel : Nat) :
    Nat → FutexSys τ → τ → τ → Except Stop (Nat × FutexSys τ)
  | 0, _, _, _ => .error .fuel
  | n + 1, s, queueList, newHeadNode => do
    let nextNode := queueList
    if !s.pended nextNode then
      let queueList ← deref (s.queueList.next queueList)
      let s ← OsFutexDeinitFutexNode s nextNode
      if (s.queueList.next queueList).isSome then loop fuel n s queueList newHeadNode
      else return (LOS_OK, s)
    else
      let task ← s.pendTask nextNode
      let queueList ← deref (s.queueList.next queueList)
      let s ← s.editQueue (LOS_ListDelete s.queueList nextNode)
      let (_, newHeadNode, s) ← OsFutexInsertTasktoPendList s newHeadNode nextNode task fuel
      if (s.queueList.next queueList).isSome then loop fuel n s queueList newHeadNode
      else return (LOS_OK, s)

/-- `OsFutexRequeueInsertNewKey`, called by the task `run`: move the
nodes from `oldHeadNode` on under the new key. -/
def OsFutexRequeueInsertNewKey (s : FutexSys τ) (run : τ) (newFutexKey newIndex : Nat)
    (oldHeadNode : τ) (fuel : Nat) : Except Stop (Nat × FutexSys τ) := do
  let newTempNode : FutexNode :=
    ⟨newFutexKey, newIndex, if newIndex < FUTEX_INDEX_SHARED_POS then s.processID run else OS_INVALID⟩
  let queueList := oldHeadNode
  let some newHeadNode ← OsFindFutexNode s newTempNode fuel | do
    let s ← OsFutexInsertNewFutexKeyToHash s oldHeadNode fuel
    return (LOS_OK, s)
  OsFutexRequeueInsertNewKey.loop fuel fuel s queueList newHeadNode

/-- The loop of `OsFutexRequeueSplitTwoLists`, with `i` rounds left:
the last `queueList`, `nextNode` and whether the ring ran out
(`isAll`). -/
def OsFutexRequeueSplitTwoLists.loop (oldHeadNode : τ) (futexKey newIndex : Nat) :
    Nat → FutexSys τ → τ → Option τ → Except Stop (τ × Option τ × Bool × FutexSys τ)
  | 0, s, queueList, nextNode => .ok (queueList, nextNode, false, s)
  | i + 1, s, queueList, _ => do
    let nextNode := queueList
    let s := s.setFutex nextNode { s.futex nextNode with key := futexKey, index := newIndex }
    if s.queueList.next queueList = some oldHeadNode then return (queueList, some nextNode, true, s)
    loop oldHeadNode futexKey newIndex i s (← deref (s.queueList.next queueList)) (some nextNode)

/-- `OsFutexRequeueSplitTwoLists`: the first `count` nodes from
`oldHeadNode` take the new key, and the rest stay under the old one. -/
def OsFutexRequeueSplitTwoLists (s : FutexSys τ) (oldHeadNode : τ) (flags futexKey : Nat) (count : Int) :
    Except Stop (FutexSys τ) := do
  let queueList := oldHeadNode
  let tailNode := s.queueList.prev queueList
  let newIndex := OsFutexKeyToIndex futexKey flags
  let (queueList, nextNode, isAll, s) ←
    OsFutexRequeueSplitTwoLists.loop oldHeadNode futexKey newIndex count.toNat s queueList none
  let futexList ← deref (s.futexList.prev (.futexList oldHeadNode))
  let s ← s.editFutex (LOS_ListDelete s.futexList (.futexList oldHeadNode))
  if isAll then return s
  let newHeadNode := queueList
  let s ← s.editFutex (LOS_ListHeadInsert s.futexList futexList (.futexList newHeadNode))
  let nextNode ← deref nextNode
  let tailNode ← deref tailNode
  -- close the moved stretch and the remaining one into two rings
  let q := s.queueList.setPrev oldHeadNode (some nextNode)
  let q := q.setNext nextNode (some oldHeadNode)
  let q := q.setPrev newHeadNode (some tailNode)
  let q := q.setNext tailNode (some newHeadNode)
  return { s with queueList := q }

/-- `OsFutexRequeueRemoveOldKeyAndGetHead`, called by the task `run`:
the head of the nodes to move, and `*wakeAny`. -/
def OsFutexRequeueRemoveOldKeyAndGetHead (s : FutexSys τ) (run : τ) (oldFutexKey flags : Nat)
    (wakeNumber : Int) (newFutexKey : Nat) (requeueCount : Int) (wakeAny : Bool) (fuel : Nat) :
    Except Stop (Option τ × Bool × FutexSys τ) := do
  let oldIndex := OsFutexKeyToIndex oldFutexKey flags
  let oldTempNode : FutexNode :=
    ⟨oldFutexKey, oldIndex, if flags &&& FUTEX_PRIVATE ≠ 0 then s.processID run else OS_INVALID⟩
  -- the two ways to the head node: the wake leaves it in `oldHeadNode`,
  -- and without a wake the head is looked up
  if 0 < wakeNumber then
    let (ret, oldHeadNode, wakeAny, s) ←
      OsFutexWakeTask s run oldFutexKey flags wakeNumber none wakeAny fuel
    if ret ≠ LOS_OK then return (none, wakeAny, s)
    let some oldHeadNode := oldHeadNode | return (none, wakeAny, s)
    if requeueCount ≤ 0 then return (none, wakeAny, s)
    let s ← OsFutexRequeueSplitTwoLists s oldHeadNode flags newFutexKey requeueCount
    return (some oldHeadNode, wakeAny, s)
  else
    if requeueCount ≤ 0 then return (none, wakeAny, s)
    let some oldHeadNode ← OsFindFutexNode s oldTempNode fuel | return (none, wakeAny, s)
    let s ← OsFutexRequeueSplitTwoLists s oldHeadNode flags newFutexKey requeueCount
    return (some oldHeadNode, wakeAny, s)

/-- `OsFutexRequeueParamCheck`. -/
def OsFutexRequeueParamCheck (oldUserVaddr flags newUserVaddr : Nat) : Nat :=
  if oldUserVaddr = newUserVaddr then LOS_EINVAL
  else if flags &&& FUTEX_PRIVATE_COMPL ≠ FUTEX_REQUEUE then LOS_EINVAL
  else if vaddrInvalid oldUserVaddr then LOS_EINVAL
  else if vaddrInvalid newUserVaddr then LOS_EINVAL
  else LOS_OK

/-- `OsFutexRequeue`, called by the task `run`. -/
def OsFutexRequeue (s : FutexSys τ) (run : τ) (userVaddr flags : Nat) (wakeNumber count : Int)
    (newUserVaddr : Nat) (fuel : Nat) : Except Stop (Nat × FutexSys τ) := do
  if OsFutexRequeueParamCheck userVaddr flags newUserVaddr ≠ 0 then return (LOS_EINVAL, s)
  let oldFutexKey := OsFutexFlagsToKey s userVaddr flags
  let newFutexKey := OsFutexFlagsToKey s newUserVaddr flags
  let newIndex := OsFutexKeyToIndex newFutexKey flags
  let (oldHeadNode, wakeAny, s) ←
    OsFutexRequeueRemoveOldKeyAndGetHead s run oldFutexKey flags wakeNumber newFutexKey count false fuel
  let some oldHeadNode := oldHeadNode | return (if wakeAny then LOS_OK else LOS_EBADF, s)
  OsFutexRequeueInsertNewKey s run newFutexKey newIndex oldHeadNode fuel

/-- `SysFutex` (process_syscall.c), called by the task `run`: `none`
when the task pends in a wait. -/
def SysFutex (s : FutexSys τ) (run : τ) (uAddr flags : Nat) (val : Int) (absTime newUserAddr : Nat)
    (fuel : Nat) : Except Stop (Option Int × FutexSys τ) := do
  if flags &&& FUTEX_MASK = FUTEX_REQUEUE then
    let (ret, s) ← OsFutexRequeue s run uAddr flags val (toInt32 absTime) newUserAddr fuel
    return (some (-(ret : Int)), s)
  if flags &&& FUTEX_MASK = FUTEX_WAKE then
    let (ret, s) ← OsFutexWake s run uAddr flags val fuel
    return (some (-(ret : Int)), s)
  let (ret, s) ← OsFutexWait s run uAddr flags (toUInt32 val) absTime fuel
  return (ret.map fun r => -(r : Int), s)

-- ============================================================ start

/-- `OsFutexInit`: every bucket empty. -/
def OsFutexInit (l : Links (FLoc τ)) : Links (FLoc τ) :=
  (List.range FUTEX_INDEX_MAX).foldl (fun l count => LOS_ListInit l (.lockList count)) l

/-- The futex state after `OsFutexInit`, before any futex call: the
task control blocks are zeroed, so no node is linked or pending. -/
def FutexSys.boot (priority processID : τ → Nat) (userWord : Nat → Option Nat) (paddr : Nat → Nat) :
    FutexSys τ where
  futex := fun _ => ⟨0, 0, 0⟩
  pended := fun _ => false
  priority := priority
  processID := processID
  queueList := ⟨fun _ => none, fun _ => none⟩
  futexList := OsFutexInit ⟨fun _ => none, fun _ => none⟩
  woken := []
  userWord := userWord
  paddr := paddr

end LiteOsA.Futex
