/-
What the LiteIPC rollbacks do to the used lists (hm_liteipc.c).

# The rollback

`HandleSpecialObjects(dstTid, node, TRUE)` runs when a later object of a
message fails in `LiteIpcWrite`, when `CheckRecievedMsg` drops a
message, and when `LiteIpcRemoveServiceHandle` drains a queue. It hands
each `OBJ_PTR` object's buffer to `LiteIpcNodeFree` and does nothing
else: `Frees s s' l` says that a call went from `s` to `s'` handing the
pairs `l` to `LiteIpcNodeFree`, with the pools, the used lists, the
queues and the messages left alone (`rollback_frees`,
`HandleSpecialObjects_rollback_frees`, `CheckRecievedMsg_frees`,
`LiteIpcRemoveServiceHandle_frees`). The death notices that
`LiteIpcRemoveServiceHandle` then sends carry no objects, and keep the
pools and the used lists (`LiteIpcWrite_keeps`, `Keeps`).

# The forward pass

`HandlePtr` with `isRollback = FALSE` puts the block it copies into on
the used list and names it in the object by its user address
(`HandlePtr_forward`); the rollback frees it by that address, which comes
back to the block (`GetIpcKernelAddr_GetIpcUserAddr`). So when a later
object fails, every block the pass put on the used list is freed and
stays on the list (`HandleSpecialObjects_stale`): a `buffToFree` naming
it later frees a block the pool no longer holds for it.
-/
import LiteOsA.Ipc.LiteIpc
import LiteOsA.Mem.Proofs.TlsfInit
import Mathlib.Data.List.Basic

namespace LiteOsA.LiteIpc

open Tlsf

-- ============================================================ frames

/-- The (process, pointer) pairs handed to `LiteIpcNodeFree`, in order. -/
def IpcSys.freed (s : IpcSys) : List (Nat × Nat) := s.freeLog.map fun e => (e.1, e.2.1)

/-- `s'` follows `s` by the frees `l` alone. -/
structure Frees (s s' : IpcSys) (l : List (Nat × Nat)) : Prop where
  pool : s'.pool = s.pool
  usedNodes : s'.usedNodes = s.usedNodes
  msgList : s'.msgList = s.msgList
  nodeMsg : s'.nodeMsg = s.nodeMsg
  freed : s'.freed = s.freed ++ l

theorem Frees.refl (s : IpcSys) : Frees s s [] := ⟨rfl, rfl, rfl, rfl, (List.append_nil _).symm⟩

theorem Frees.trans {s₁ s₂ s₃ : IpcSys} {l₁ l₂ : List (Nat × Nat)} (h₁ : Frees s₁ s₂ l₁)
    (h₂ : Frees s₂ s₃ l₂) : Frees s₁ s₃ (l₁ ++ l₂) :=
  ⟨h₂.pool.trans h₁.pool, h₂.usedNodes.trans h₁.usedNodes, h₂.msgList.trans h₁.msgList,
    h₂.nodeMsg.trans h₁.nodeMsg, by rw [h₂.freed, h₁.freed, List.append_assoc]⟩

theorem Frees.setLive {s s' : IpcSys} {l : List (Nat × Nat)} (h : Frees s s' l) (pid : Nat)
    (xs : List Nat) : Frees s (s'.setLive pid xs) l :=
  ⟨h.pool, h.usedNodes, h.msgList, h.nodeMsg, h.freed⟩

/-- `LiteIpcNodeFree` is one free. -/
theorem LiteIpcNodeFree_frees {s s' : IpcSys} {pid buf : Nat} {ret : Nat}
    (h : LiteIpcNodeFree s pid buf = some (ret, s')) : Frees s s' [(pid, buf)] := by
  simp only [LiteIpcNodeFree, Option.bind_eq_bind, Option.bind_eq_some_iff] at h
  obtain ⟨⟨r, p⟩, -, h⟩ := h
  have hlog : Frees s { s.setHeap pid p with
      freeLog := s.freeLog ++ [(pid, buf, decide (buf ∈ s.live pid))] } [(pid, buf)] :=
    ⟨rfl, rfl, rfl, rfl, by simp [IpcSys.freed]⟩
  simp only [Option.pure_def, Option.some.injEq, Prod.mk.injEq] at h
  obtain ⟨-, rfl⟩ := h
  split
  · exact hlog.setLive pid _
  · exact hlog

-- ============================================================ the rollback

/-- What the rollback of one object hands to `LiteIpcNodeFree`. -/
def rollbackFrees (s : IpcSys) (processID : Nat) : SpecialObj → List (Nat × Nat)
  | .OBJ_PTR buffSz buff =>
    if buff = NULL ∨ buffSz = 0 then [] else [(processID, GetIpcKernelAddr s processID buff)]
  | _ => []

/-- The frees depend on the pools alone. -/
theorem rollbackFrees_congr {s s' : IpcSys} (h : s'.pool = s.pool) :
    rollbackFrees s' = rollbackFrees s := by
  funext pid obj
  cases obj <;> simp [rollbackFrees, GetIpcKernelAddr, h]

theorem HandlePtr_rollback {ctx : Ctx} {s s' : IpcSys} {pid buffSz buff : Nat} {ret : Int}
    {obj : SpecialObj} (h : HandlePtr ctx s pid buffSz buff true = some (ret, obj, s')) :
    obj = .OBJ_PTR buffSz buff ∧ Frees s s' (rollbackFrees s pid (.OBJ_PTR buffSz buff)) := by
  by_cases hb : buff = NULL ∨ buffSz = 0
  · simp only [HandlePtr, hb, if_true, pure, Option.some.injEq, Prod.mk.injEq] at h
    obtain ⟨-, rfl, rfl⟩ := h
    simpa [rollbackFrees, hb] using Frees.refl s
  · simp only [HandlePtr, hb, Bool.true_eq_false, if_false, Option.bind_eq_bind,
      Option.bind_eq_some_iff] at h
    obtain ⟨⟨r, s₁⟩, hfree, h⟩ := h
    simp only [pure, Option.some.injEq, Prod.mk.injEq] at h
    obtain ⟨-, rfl, rfl⟩ := h
    simpa [rollbackFrees, hb] using LiteIpcNodeFree_frees hfree

/-- `HandleObj(dstTid, obj, TRUE)` keeps the object and only frees. -/
theorem HandleObj_rollback {ctx : Ctx} {s s' : IpcSys} {dstTid : Nat} {obj obj' : SpecialObj}
    {ret : Int} (h : HandleObj ctx s dstTid obj true = some (ret, obj', s')) :
    obj' = obj ∧ Frees s s' (rollbackFrees s (ctx.processID dstTid) obj) := by
  cases obj with
  | OBJ_PTR buffSz buff => exact HandlePtr_rollback h
  | OBJ_FD fd | OBJ_SVC handle | other type =>
    simp only [HandleObj, Option.some.injEq, Prod.mk.injEq] at h
    obtain ⟨-, rfl, rfl⟩ := h
    exact ⟨rfl, Frees.refl s⟩

/-- The rollback loop keeps the objects and frees each one's buffer, in
the order of the offsets it is given. -/
theorem rollback_frees {ctx : Ctx} {dstTid : Nat} :
    ∀ {offs : List Nat} {data data' : Nat → SpecialObj} {s s' : IpcSys},
      HandleSpecialObjects.rollback ctx dstTid offs data s = some (data', s') →
      data' = data ∧ Frees s s' (offs.flatMap fun off => rollbackFrees s (ctx.processID dstTid) (data off))
  | [], data, data', s, s', h => by
    simp only [HandleSpecialObjects.rollback, Option.some.injEq, Prod.mk.injEq] at h
    obtain ⟨rfl, rfl⟩ := h
    exact ⟨rfl, Frees.refl s⟩
  | off :: rest, data, data', s, s', h => by
    simp only [HandleSpecialObjects.rollback, Option.bind_eq_bind, Option.bind_eq_some_iff] at h
    obtain ⟨⟨r, obj, s₁⟩, hobj, h⟩ := h
    obtain ⟨rfl, hf₁⟩ := HandleObj_rollback hobj
    rw [Function.update_eq_self] at h
    obtain ⟨rfl, hf₂⟩ := rollback_frees h
    rw [rollbackFrees_congr hf₁.pool] at hf₂
    exact ⟨rfl, by simpa only [List.flatMap_cons] using hf₁.trans hf₂⟩

/-- What the rollback of the message at `node` hands to `LiteIpcNodeFree`:
its objects' buffers, last offset first. -/
def msgFrees (ctx : Ctx) (s : IpcSys) (dstTid node : Nat) : List (Nat × Nat) :=
  (s.nodeMsg node).offsets.reverse.flatMap fun off =>
    rollbackFrees s (ctx.processID dstTid) ((s.nodeMsg node).data off)

theorem msgFrees_congr {ctx : Ctx} {s s' : IpcSys} (h₁ : s'.pool = s.pool)
    (h₂ : s'.nodeMsg = s.nodeMsg) : msgFrees ctx s' = msgFrees ctx s := by
  funext dstTid node
  simp only [msgFrees, rollbackFrees_congr h₁, h₂]

/-- `HandleSpecialObjects(dstTid, node, TRUE)` only frees. -/
theorem HandleSpecialObjects_rollback_frees {ctx : Ctx} {s s' : IpcSys} {dstTid node : Nat}
    {ret : Int} (h : HandleSpecialObjects ctx s dstTid node true = some (ret, s')) :
    ret = LOS_OK ∧ Frees s s' (msgFrees ctx s dstTid node) := by
  simp only [HandleSpecialObjects, if_true, Option.bind_eq_bind, Option.bind_eq_some_iff] at h
  obtain ⟨⟨data, s₁⟩, hroll, h⟩ := h
  obtain ⟨rfl, hf⟩ := rollback_frees hroll
  simp only [pure, Option.some.injEq, Prod.mk.injEq] at h
  obtain ⟨rfl, rfl⟩ := h
  -- the message is written back as it was
  have hmsg : (s₁.setNodeMsg node { s.nodeMsg node with data := (s.nodeMsg node).data }).nodeMsg =
      s.nodeMsg := by
    simp [IpcSys.setNodeMsg, hf.nodeMsg]
  exact ⟨rfl, ⟨hf.pool, hf.usedNodes, hf.msgList, hmsg, hf.freed⟩⟩

/-- A message `CheckRecievedMsg` takes leaves the state as it is; one it
drops is rolled back and its node freed. -/
theorem CheckRecievedMsg_frees {ctx : Ctx} {s s' : IpcSys} {node : Nat}
    {content : IpcContent} {ret : Int}
    (h : CheckRecievedMsg ctx s node content = some (ret, s')) :
    (ret = LOS_OK ∧ s' = s) ∨
      (ret ≠ LOS_OK ∧ Frees s s' (msgFrees ctx s ctx.curTid node ++ [(ctx.processID ctx.curTid, node)])) := by
  unfold CheckRecievedMsg at h
  extract_lets m send unmatched r at h
  split at h
  · rename_i hret
    simp only [Option.bind_eq_bind, Option.bind_eq_some_iff] at h
    obtain ⟨⟨r₁, s₁⟩, hroll, ⟨r₂, s₂⟩, hfree, h⟩ := h
    simp only [pure, Option.some.injEq, Prod.mk.injEq] at h
    obtain ⟨rfl, rfl⟩ := h
    have hf₁ := (HandleSpecialObjects_rollback_frees hroll).2
    exact .inr ⟨hret, hf₁.trans (LiteIpcNodeFree_frees hfree)⟩
  · rename_i hret
    simp only [pure, Option.some.injEq, Prod.mk.injEq] at h
    obtain ⟨rfl, rfl⟩ := h
    exact .inl ⟨by simpa using hret, rfl⟩

/-- The drain of a queue rolls back and frees each node in turn. -/
theorem drain_frees {ctx : Ctx} {taskID pid : Nat} :
    ∀ {nodes : List Nat} {s s' : IpcSys},
      LiteIpcRemoveServiceHandle.drain ctx taskID pid nodes s = some s' →
      Frees s s' (nodes.flatMap fun node => msgFrees ctx s taskID node ++ [(pid, node)])
  | [], s, s', h => by
    simp only [LiteIpcRemoveServiceHandle.drain, Option.some.injEq] at h
    subst h
    exact Frees.refl s
  | node :: rest, s, s', h => by
    simp only [LiteIpcRemoveServiceHandle.drain, Option.bind_eq_bind, Option.bind_eq_some_iff] at h
    obtain ⟨⟨r₁, s₁⟩, hroll, ⟨r₂, s₂⟩, hfree, h⟩ := h
    have hf₁ := ((HandleSpecialObjects_rollback_frees hroll).2).trans (LiteIpcNodeFree_frees hfree)
    have hf₂ := drain_frees h
    rw [msgFrees_congr hf₁.pool hf₁.nodeMsg] at hf₂
    simpa only [List.flatMap_cons, List.append_assoc] using hf₁.trans hf₂

-- ============================================================ the forward pass

/-- The user address of a block comes back to the block, as a 32-bit
pointer. -/
theorem GetIpcKernelAddr_GetIpcUserAddr (s : IpcSys) (pid k : Nat) :
    GetIpcKernelAddr s pid (GetIpcUserAddr s pid k) = u32 k := by
  unfold GetIpcKernelAddr GetIpcUserAddr
  have hd : u32Sub (s.pool pid).uvaddr (s.pool pid).kvaddr < 2 ^ 32 := u32_lt _
  generalize u32Sub (s.pool pid).uvaddr (s.pool pid).kvaddr = d at hd ⊢
  simp only [u32Sub, u32, Nat.reducePow] at hd ⊢
  omega

/-- `s'` follows `s` by pushing `pushed` onto the used list of `pid` and
by the frees `l`. -/
structure Pushes (pid : Nat) (s s' : IpcSys) (pushed : List Nat) (l : List (Nat × Nat)) : Prop where
  pool : s'.pool = s.pool
  usedNodes : s'.usedNodes pid = pushed ++ s.usedNodes pid
  freed : s'.freed = s.freed ++ l

theorem Frees.pushes {s s' : IpcSys} {l : List (Nat × Nat)} (h : Frees s s' l) (pid : Nat) :
    Pushes pid s s' [] l :=
  ⟨h.pool, by rw [h.usedNodes, List.nil_append], h.freed⟩

theorem Pushes.trans {pid : Nat} {s₁ s₂ s₃ : IpcSys} {p₁ p₂ : List Nat} {l₁ l₂ : List (Nat × Nat)}
    (h₁ : Pushes pid s₁ s₂ p₁ l₁) (h₂ : Pushes pid s₂ s₃ p₂ l₂) : Pushes pid s₁ s₃ (p₂ ++ p₁) (l₁ ++ l₂) :=
  ⟨h₂.pool.trans h₁.pool, by rw [h₂.usedNodes, h₁.usedNodes, List.append_assoc],
    by rw [h₂.freed, h₁.freed, List.append_assoc]⟩

/-- `LiteIpcNodeAlloc` frees nothing; a block it hands out is held. -/
theorem LiteIpcNodeAlloc_frees {s s' : IpcSys} {pid size k : Nat}
    (h : LiteIpcNodeAlloc s pid size = some (k, s')) :
    Frees s s' [] ∧ (k ≠ NULL → k ∈ s'.live pid) := by
  simp only [LiteIpcNodeAlloc, Option.bind_eq_bind, Option.bind_eq_some_iff] at h
  obtain ⟨⟨ptr, p⟩, -, h⟩ := h
  simp only [pure, Option.some.injEq, Prod.mk.injEq] at h
  obtain ⟨rfl, rfl⟩ := h
  have hheap : Frees s (s.setHeap pid p) [] := ⟨rfl, rfl, rfl, rfl, (List.append_nil _).symm⟩
  split
  · exact ⟨hheap, fun hk => absurd ‹_› hk⟩
  · exact ⟨hheap.setLive pid _, fun _ => by simp [IpcSys.setLive, IpcSys.setHeap]⟩

/-- `HandlePtr(processID, obj, FALSE)`: a failure only frees; a success
puts a block it holds at the head of the used list and names the block
in the object by its user address. -/
theorem HandlePtr_forward {ctx : Ctx} {s s' : IpcSys} {pid buffSz buff : Nat} {ret : Int}
    {obj : SpecialObj} (h : HandlePtr ctx s pid buffSz buff false = some (ret, obj, s')) :
    (ret ≠ LOS_OK ∧ ∃ l, Pushes pid s s' [] l) ∨
      (ret = LOS_OK ∧ buffSz ≠ 0 ∧ ∃ k, k ∈ s'.live pid ∧
        obj = .OBJ_PTR buffSz (GetIpcUserAddr s pid k) ∧ Pushes pid s s' [k] []) := by
  have hEINVAL : -EINVAL ≠ (LOS_OK : Int) := by decide
  by_cases hb : buff = NULL ∨ buffSz = 0
  · simp only [HandlePtr, hb, if_true, pure, Option.some.injEq, Prod.mk.injEq] at h
    obtain ⟨rfl, -, rfl⟩ := h
    exact .inl ⟨hEINVAL, [], (Frees.refl s).pushes pid⟩
  simp only [HandlePtr, hb, if_false, if_true] at h
  split at h
  · simp only [pure, Option.some.injEq, Prod.mk.injEq] at h
    obtain ⟨rfl, -, rfl⟩ := h
    exact .inl ⟨hEINVAL, [], (Frees.refl s).pushes pid⟩
  simp only [Option.bind_eq_bind, Option.bind_eq_some_iff] at h
  obtain ⟨⟨k, s₁⟩, halloc, h⟩ := h
  obtain ⟨hf₁, hlive⟩ := LiteIpcNodeAlloc_frees halloc
  split at h
  · simp only [pure, Option.some.injEq, Prod.mk.injEq] at h
    obtain ⟨rfl, -, rfl⟩ := h
    exact .inl ⟨hEINVAL, [], hf₁.pushes pid⟩
  rename_i hk
  split at h
  · -- `copy_from_user` failed: the block is freed again
    rename_i hcopy
    simp only [Option.bind_eq_some_iff] at h
    obtain ⟨⟨r, s₂⟩, hfree, h⟩ := h
    simp only [pure, Option.some.injEq, Prod.mk.injEq] at h
    obtain ⟨rfl, -, rfl⟩ := h
    exact .inl ⟨by exact_mod_cast hcopy, _, (hf₁.trans (LiteIpcNodeFree_frees hfree)).pushes pid⟩
  · simp only [pure, Option.some.injEq, Prod.mk.injEq] at h
    obtain ⟨rfl, rfl, rfl⟩ := h
    refine .inr ⟨rfl, (not_or.1 hb).2, k, ?_, ?_, ?_⟩
    · simpa [EnableIpcNodeFreeByUser, IpcSys.setUsed] using hlive hk
    · simp only [GetIpcUserAddr, hf₁.pool]
    · refine ⟨hf₁.pool, ?_, hf₁.freed⟩
      simp [EnableIpcNodeFreeByUser, IpcSys.setUsed, hf₁.usedNodes]

/-- `HandleSvc` writes the access maps alone. -/
theorem HandleSvc_frees (ctx : Ctx) (s : IpcSys) (dstTid handle : Nat) (isRollback : Bool) :
    Frees s (HandleSvc ctx s dstTid handle isRollback).2 [] := by
  have hrefl : Frees s s [] := Frees.refl s
  have hadd : Frees s (AddServiceAccess ctx s dstTid handle).2 [] := by
    unfold AddServiceAccess
    split
    · exact hrefl
    · exact ⟨rfl, rfl, rfl, rfl, (List.append_nil _).symm⟩
  unfold HandleSvc
  split_ifs
  · exact hrefl
  · exact hrefl
  · split
    · split_ifs
      · exact hadd
      · exact hrefl
    · exact hrefl
  · exact hrefl

/-- `HandleObj(dstTid, obj, FALSE)`: a failure only frees; a success
leaves an object other than `OBJ_PTR` as it is, with the used lists and
the frees as they were, or is a success of `HandlePtr`. -/
theorem HandleObj_forward {ctx : Ctx} {s s' : IpcSys} {dstTid : Nat} {obj obj' : SpecialObj}
    {ret : Int} (h : HandleObj ctx s dstTid obj false = some (ret, obj', s')) :
    (ret ≠ LOS_OK ∧ ∃ l, Pushes (ctx.processID dstTid) s s' [] l) ∨
      (ret = LOS_OK ∧ obj' = obj ∧ Pushes (ctx.processID dstTid) s s' [] [] ∧
        rollbackFrees s (ctx.processID dstTid) obj = []) ∨
      (ret = LOS_OK ∧ ∃ buffSz k, buffSz ≠ 0 ∧ k ∈ s'.live (ctx.processID dstTid) ∧
        obj' = .OBJ_PTR buffSz (GetIpcUserAddr s (ctx.processID dstTid) k) ∧
        Pushes (ctx.processID dstTid) s s' [k] []) := by
  cases obj with
  | OBJ_PTR buffSz buff =>
    rcases HandlePtr_forward h with hfail | ⟨hok, hsz, k, hk, rfl, hp⟩
    · exact .inl hfail
    · exact .inr (.inr ⟨hok, buffSz, k, hsz, hk, rfl, hp⟩)
  | OBJ_FD fd =>
    simp only [HandleObj, Option.some.injEq, Prod.mk.injEq] at h
    obtain ⟨rfl, rfl, rfl⟩ := h
    exact .inr (.inl ⟨rfl, rfl, (Frees.refl s).pushes _, rfl⟩)
  | OBJ_SVC handle =>
    simp only [HandleObj, Option.some.injEq, Prod.mk.injEq] at h
    obtain ⟨rfl, rfl, rfl⟩ := h
    have hp := (HandleSvc_frees ctx s dstTid handle false).pushes (ctx.processID dstTid)
    by_cases hsvc : (HandleSvc ctx s dstTid handle false).1 = LOS_OK
    · exact .inr (.inl ⟨hsvc, rfl, hp, rfl⟩)
    · exact .inl ⟨hsvc, [], hp⟩
  | other type =>
    simp only [HandleObj, Option.some.injEq, Prod.mk.injEq] at h
    obtain ⟨rfl, rfl, rfl⟩ := h
    exact .inl ⟨by decide, [], (Frees.refl s).pushes _⟩

/-- The offset checks of `HandleSpecialObjects`, for a `dataSz` of at
least one object: an offset that passes them lies past every offset
done, so the offsets done stay strictly decreasing (last first) and in
bounds. -/
theorem loop_checks {dataSz off : Nat} {done : List Nat} (hsz : 16 ≤ dataSz) (hsz' : dataSz < 2 ^ 32)
    (hsorted : done.Pairwise (· > ·)) (hbound : ∀ d ∈ done, d + 16 ≤ dataSz)
    (h₁ : ¬off > u32Sub dataSz sizeofSpecialObj)
    (h₂ : ¬∃ prev ∈ done.head?, off < u32 (prev + sizeofSpecialObj)) :
    (off :: done).Pairwise (· > ·) ∧ ∀ d ∈ off :: done, d + 16 ≤ dataSz := by
  rw [sizeofSpecialObj, u32Sub_of_le hsz hsz'] at h₁
  refine ⟨List.pairwise_cons.2 ⟨?_, hsorted⟩, ?_⟩
  · cases done with
    | nil => simp
    | cons prev rest =>
      have hprev := hbound prev (List.mem_cons_self ..)
      simp only [List.head?_cons, Option.mem_def, Option.some.injEq, exists_eq_left', sizeofSpecialObj,
        u32_of_lt (show prev + 16 < 2 ^ 32 by omega), not_lt] at h₂
      intro d hd
      rcases List.mem_cons.1 hd with rfl | hd
      · omega
      · have := List.rel_of_pairwise_cons hsorted hd
        omega
  · intro d hd
    rcases List.mem_cons.1 hd with rfl | hd
    · omega
    · exact hbound d hd

theorem GetIpcUserAddr_congr {s s' : IpcSys} (h : s'.pool = s.pool) :
    GetIpcUserAddr s' = GetIpcUserAddr s := by
  funext pid k
  simp only [GetIpcUserAddr, h]

theorem GetIpcKernelAddr_congr {s s' : IpcSys} (h : s'.pool = s.pool) :
    GetIpcKernelAddr s' = GetIpcKernelAddr s := by
  funext pid u
  simp only [GetIpcKernelAddr, h]

/-- The frees of a rollback depend on the pools and on the objects at the
offsets rolled back alone. -/
theorem flatMap_rollbackFrees_congr {done : List Nat} {data data₁ : Nat → SpecialObj} {s s₁ : IpcSys}
    {pid : Nat} (hpool : s₁.pool = s.pool) (hdata : ∀ d ∈ done, data₁ d = data d) :
    (done.flatMap fun off => rollbackFrees s₁ pid (data₁ off)) =
      done.flatMap fun off => rollbackFrees s pid (data off) := by
  rw [rollbackFrees_congr hpool]
  exact List.flatMap_congr fun d hd => by rw [hdata d hd]

section Stale

variable (ctx : Ctx) (dstTid dataSz : Nat) (s₀ : IpcSys)

/-- What the forward loop of `HandleSpecialObjects` keeps from `s₀`: the
blocks it pushed on the used list are each freed by a rollback of the
offsets done, unless the block's user address is `NULL`; and the
offsets done are strictly decreasing and in bounds. -/
structure StaleInv (done : List Nat) (data : Nat → SpecialObj) (s : IpcSys) (pushed : List Nat)
    (l : List (Nat × Nat)) : Prop where
  pushes : Pushes (ctx.processID dstTid) s₀ s pushed l
  covered : ∀ k ∈ pushed, GetIpcUserAddr s₀ (ctx.processID dstTid) k ≠ NULL →
    (ctx.processID dstTid, u32 k) ∈
      done.flatMap fun off => rollbackFrees s (ctx.processID dstTid) (data off)
  sorted : done.Pairwise (· > ·)
  bounded : ∀ d ∈ done, d + 16 ≤ dataSz

variable {ctx dstTid dataSz s₀}

theorem StaleInv.init : StaleInv ctx dstTid dataSz s₀ [] data s₀ [] [] :=
  ⟨⟨rfl, rfl, (List.append_nil _).symm⟩, by simp, List.Pairwise.nil, by simp⟩

/-- Frees that touch neither the used list nor the objects done keep
the invariant. -/
theorem StaleInv.frame {done : List Nat} {data data₁ : Nat → SpecialObj} {s s₁ : IpcSys}
    {pushed : List Nat} {l l₁ : List (Nat × Nat)} (hi : StaleInv ctx dstTid dataSz s₀ done data s pushed l)
    (hp : Pushes (ctx.processID dstTid) s s₁ [] l₁) (hdata : ∀ d ∈ done, data₁ d = data d) :
    StaleInv ctx dstTid dataSz s₀ done data₁ s₁ pushed (l ++ l₁) := by
  refine ⟨by simpa using hi.pushes.trans hp, fun k hk hnull => ?_, hi.sorted, hi.bounded⟩
  rw [flatMap_rollbackFrees_congr hp.pool hdata]
  exact hi.covered k hk hnull

/-- The rollback of the offsets done frees every block pushed. -/
theorem StaleInv.rollback {done : List Nat} {data data' : Nat → SpecialObj} {s s' : IpcSys}
    {pushed : List Nat} {l : List (Nat × Nat)} (hi : StaleInv ctx dstTid dataSz s₀ done data s pushed l)
    (h : HandleSpecialObjects.rollback ctx dstTid done data s = some (data', s')) :
    ∃ l', Pushes (ctx.processID dstTid) s₀ s' pushed l' ∧
      ∀ k ∈ pushed, GetIpcUserAddr s₀ (ctx.processID dstTid) k ≠ NULL → (ctx.processID dstTid, u32 k) ∈ l' := by
  have hf := (rollback_frees h).2
  refine ⟨_, by simpa using hi.pushes.trans (hf.pushes _), fun k hk hnull => ?_⟩
  exact List.mem_append_right _ (hi.covered k hk hnull)

/-- An object other than `OBJ_PTR` that passes adds nothing to free. -/
theorem StaleInv.keep {off : Nat} {done : List Nat} {data : Nat → SpecialObj} {s : IpcSys}
    {pushed : List Nat} {l : List (Nat × Nat)} (hi : StaleInv ctx dstTid dataSz s₀ done data s pushed l)
    (hchk : (off :: done).Pairwise (· > ·) ∧ ∀ d ∈ off :: done, d + 16 ≤ dataSz)
    (hnil : rollbackFrees s (ctx.processID dstTid) (data off) = []) :
    StaleInv ctx dstTid dataSz s₀ (off :: done) data s pushed l := by
  refine ⟨hi.pushes, fun k hk hnull => ?_, hchk.1, hchk.2⟩
  rw [List.flatMap_cons, hnil, List.nil_append]
  exact hi.covered k hk hnull

/-- An `OBJ_PTR` object that passes pushes a block, which its rollback
frees by the user address written into the object. -/
theorem StaleInv.push {off buffSz k : Nat} {done : List Nat} {data : Nat → SpecialObj} {s s₁ : IpcSys}
    {pushed : List Nat} {l : List (Nat × Nat)} (hi : StaleInv ctx dstTid dataSz s₀ done data s pushed l)
    (hchk : (off :: done).Pairwise (· > ·) ∧ ∀ d ∈ off :: done, d + 16 ≤ dataSz)
    (hp : Pushes (ctx.processID dstTid) s s₁ [k] []) (hsz : buffSz ≠ 0) :
    StaleInv ctx dstTid dataSz s₀ (off :: done)
      (Function.update data off (.OBJ_PTR buffSz (GetIpcUserAddr s (ctx.processID dstTid) k))) s₁
      (k :: pushed) l := by
  have hpool₀ := hi.pushes.pool
  have hfresh : ∀ d ∈ done, d ≠ off := fun d hd => Nat.ne_of_lt (List.rel_of_pairwise_cons hchk.1 hd)
  refine ⟨by simpa using hi.pushes.trans hp, fun k' hk' hnull => ?_, hchk.1, hchk.2⟩
  rw [List.flatMap_cons, Function.update_self, List.mem_append]
  rcases List.mem_cons.1 hk' with rfl | hk'
  · -- the block just pushed: its user address comes back to it
    left
    rw [GetIpcUserAddr_congr hpool₀]
    simp only [rollbackFrees, hnull, hsz, or_self, if_false, GetIpcKernelAddr_congr hp.pool,
      GetIpcKernelAddr_congr hpool₀, GetIpcKernelAddr_GetIpcUserAddr, List.mem_singleton]
  · right
    rw [flatMap_rollbackFrees_congr hp.pool fun d hd => Function.update_of_ne (hfresh d hd) _ _]
    exact hi.covered k' hk' hnull

/-- A failure of the forward loop: the objects done are rolled back. -/
theorem StaleInv.fail {done : List Nat} {data data' : Nat → SpecialObj} {s s' : IpcSys}
    {pushed : List Nat} {l : List (Nat × Nat)} {r ret : Int}
    (hi : StaleInv ctx dstTid dataSz s₀ done data s pushed l)
    (h : (do
      let (data, s) ← HandleSpecialObjects.rollback ctx dstTid done data s
      return (r, data, s)) = some (ret, data', s')) :
    ∃ pushed' l', Pushes (ctx.processID dstTid) s₀ s' pushed' l' ∧
      ∀ k ∈ pushed', GetIpcUserAddr s₀ (ctx.processID dstTid) k ≠ NULL →
        (ctx.processID dstTid, u32 k) ∈ l' := by
  simp only [Option.bind_eq_bind, Option.bind_eq_some_iff, pure, Option.some.injEq,
    Prod.mk.injEq] at h
  obtain ⟨⟨data₁, s₁⟩, hroll, -, -, rfl⟩ := h
  exact ⟨pushed, hi.rollback hroll⟩

/-- The forward loop that fails: whatever it pushed on the used list
stays there and was freed by its rollback. Induction on the offsets
left, with `StaleInv` over the offsets done. -/
theorem loop_stale (hsz : 16 ≤ dataSz) (hsz' : dataSz < 2 ^ 32) :
    ∀ {offs done : List Nat} {data data' : Nat → SpecialObj} {s s' : IpcSys} {pushed : List Nat}
      {l : List (Nat × Nat)} {ret : Int}, StaleInv ctx dstTid dataSz s₀ done data s pushed l →
      HandleSpecialObjects.loop ctx dstTid dataSz offs done data s = some (ret, data', s') →
      ret ≠ LOS_OK →
      ∃ pushed' l', Pushes (ctx.processID dstTid) s₀ s' pushed' l' ∧
        ∀ k ∈ pushed', GetIpcUserAddr s₀ (ctx.processID dstTid) k ≠ NULL →
          (ctx.processID dstTid, u32 k) ∈ l'
  | [], _, _, _, _, _, _, _, _, _, h, hret => by
    simp only [HandleSpecialObjects.loop, Option.some.injEq, Prod.mk.injEq] at h
    exact absurd h.1.symm hret
  | off :: rest, done, data, data', s, s', pushed, l, ret, hi, h, hret => by
    simp only [HandleSpecialObjects.loop] at h
    split_ifs at h with h₁ h₂
    -- an offset out of bounds or out of order: the objects done are rolled back
    · exact hi.fail h
    · exact hi.fail h
    simp only [Option.bind_eq_bind, Option.bind_eq_some_iff] at h
    obtain ⟨⟨r, obj, s₁⟩, hobj, h⟩ := h
    have hchk := loop_checks hsz hsz' hi.sorted hi.bounded h₁ h₂
    have hfresh : ∀ d ∈ done, Function.update data off obj d = data d := fun d hd =>
      Function.update_of_ne (Nat.ne_of_lt (List.rel_of_pairwise_cons hchk.1 hd)) _ _
    rcases HandleObj_forward hobj with ⟨hne, l₁, hp⟩ | ⟨hok, rfl, hp, hnil⟩ | ⟨hok, buffSz, k, hsz0, -, rfl, hp⟩
    · -- the object fails: the objects done are rolled back
      rw [if_pos hne] at h
      exact (hi.frame hp hfresh).fail h
    · -- an object other than `OBJ_PTR` passes: nothing more to free
      rw [if_neg (not_not.2 hok), Function.update_eq_self] at h
      have hnil₁ : rollbackFrees s₁ (ctx.processID dstTid) (data off) = [] := by
        rwa [rollbackFrees_congr hp.pool]
      exact loop_stale hsz hsz' ((hi.frame hp fun _ _ => rfl).keep hchk hnil₁) h hret
    · rw [if_neg (not_not.2 hok)] at h
      exact loop_stale hsz hsz' (hi.push hchk hp hsz0) h hret

end Stale

/-- `HandleSpecialObjects(dstTid, node, FALSE)` that fails, on a message
of at least one object's size: every block it put on the used list of
the destination process stays there and was handed to `LiteIpcNodeFree`
(unless its user address is `NULL`, where the rollback refuses it). -/
theorem HandleSpecialObjects_stale {ctx : Ctx} {s s' : IpcSys} {dstTid node : Nat} {ret : Int}
    (hsz : 16 ≤ (s.nodeMsg node).dataSz) (hsz' : (s.nodeMsg node).dataSz < 2 ^ 32)
    (h : HandleSpecialObjects ctx s dstTid node false = some (ret, s')) (hret : ret ≠ LOS_OK) :
    ∃ pushed l, Pushes (ctx.processID dstTid) s s' pushed l ∧
      ∀ k ∈ pushed, GetIpcUserAddr s (ctx.processID dstTid) k ≠ NULL →
        (ctx.processID dstTid, u32 k) ∈ l := by
  simp only [HandleSpecialObjects, Bool.false_eq_true, if_false, Option.bind_eq_bind,
    Option.bind_eq_some_iff, pure, Option.some.injEq, Prod.mk.injEq] at h
  obtain ⟨⟨r, data, s₁⟩, hloop, rfl, rfl⟩ := h
  obtain ⟨pushed, l, hp, hcov⟩ := loop_stale hsz hsz' StaleInv.init hloop hret
  exact ⟨pushed, l, ⟨hp.pool, hp.usedNodes, hp.freed⟩, hcov⟩

-- ============================================================ the write

/-- The `switch` of `CheckPara` stamps the message, or leaves it. -/
theorem CheckPara.route_msg {ctx : Ctx} {s : IpcSys} {content : IpcContent} {msg msg' : IpcMsg} {dstTid : Nat}
    (h : CheckPara.route ctx s content msg = .ok (dstTid, msg')) :
    msg' = { msg with timestamp := msg'.timestamp } := by
  unfold CheckPara.route at h
  split at h
  · -- a request, stamped
    split_ifs at h
    split at h
    · cases h
    · cases h
      rfl
  -- a reply, as it came
  · split_ifs at h
    cases h
    rfl
  · split_ifs at h
    cases h
    rfl
  · -- a death notice, stamped
    cases h
    rfl

/-- `CheckPara` writes the timestamp of the message alone. -/
theorem CheckPara_msg {ctx : Ctx} {s : IpcSys} {content : IpcContent} {msg msg' : IpcMsg} {dstTid : Nat}
    (h : CheckPara ctx s content msg = .ok (dstTid, msg')) : msg' = { msg with timestamp := msg'.timestamp } := by
  unfold CheckPara at h
  split_ifs at h
  split at h
  · cases h
  · rename_i d m hroute
    split_ifs at h
    cases h
    exact CheckPara.route_msg hroute

/-- `CopyDataFromUser` fills in the sender, and the node holds the
message otherwise as it was sent. -/
theorem CopyDataFromUser_msg {ctx : Ctx} {msg m : IpcMsg} (h : CopyDataFromUser ctx msg = .ok m) :
    m = { msg with taskID := ctx.curTid } := by
  unfold CopyDataFromUser at h
  dsimp only at h
  -- each way to `.ok` fills in the sender alone
  split_ifs at h <;> cases h <;> rfl

/-- `LiteIpcWrite` after `CheckPara` has routed the message to `dstTid`:
without a node, or with a node the copy could not fill, it only frees;
otherwise the node holds the message as `CopyDataFromUser` wrote it, and
`HandleSpecialObjects` decides: a failure frees the node, a success
queues it. -/
theorem LiteIpcWrite_routed {ctx : Ctx} {s s' : IpcSys} {content : IpcContent} {msg msg' : IpcMsg}
    {dstTid : Nat} {ret : Int} (hroute : CheckPara ctx s content msg = .ok (dstTid, msg'))
    (h : LiteIpcWrite ctx s content msg = some (ret, s')) :
    (∃ l, Frees s s' l) ∨
      ∃ buf s₁ s₂ r, Frees s s₁ [] ∧
        HandleSpecialObjects ctx (s₁.setNodeMsg buf { msg' with taskID := ctx.curTid }) dstTid buf false =
          some (r, s₂) ∧
        ((r ≠ LOS_OK ∧ ret = r ∧ ∃ r', LiteIpcNodeFree s₂ (ctx.processID dstTid) buf = some (r', s')) ∨
          (r = LOS_OK ∧ ret = LOS_OK ∧ s' = s₂.setMsgList dstTid (s₂.msgList dstTid ++ [buf]))) := by
  simp only [LiteIpcWrite, hroute, Option.bind_eq_bind, Option.bind_eq_some_iff] at h
  obtain ⟨⟨buf, s₁⟩, halloc, h⟩ := h
  have hf₁ := (LiteIpcNodeAlloc_frees halloc).1
  split at h
  · -- no node
    simp only [pure, Option.some.injEq, Prod.mk.injEq] at h
    obtain ⟨-, rfl⟩ := h
    exact .inl ⟨[], hf₁⟩
  split at h
  · -- the copy failed: the node is freed
    simp only [Option.bind_eq_some_iff] at h
    obtain ⟨⟨r', s₂⟩, hfree, h⟩ := h
    simp only [pure, Option.some.injEq, Prod.mk.injEq] at h
    obtain ⟨-, rfl⟩ := h
    exact .inl ⟨_, hf₁.trans (LiteIpcNodeFree_frees hfree)⟩
  rename_i nodeMsg hcopy
  rw [CopyDataFromUser_msg hcopy] at h
  simp only [Option.bind_eq_some_iff] at h
  obtain ⟨⟨r, s₂⟩, hobjs, h⟩ := h
  refine .inr ⟨buf, s₁, s₂, r, hf₁, hobjs, ?_⟩
  split at h
  · rename_i hr
    simp only [Option.bind_eq_some_iff, pure, Option.some.injEq, Prod.mk.injEq] at h
    obtain ⟨⟨r', s₃⟩, hfree, rfl, rfl⟩ := h
    exact .inl ⟨hr, rfl, r', hfree⟩
  · rename_i hr
    simp only [pure, Option.some.injEq, Prod.mk.injEq] at h
    obtain ⟨rfl, rfl⟩ := h
    exact .inr ⟨not_not.mp hr, rfl, rfl⟩

/-- `LiteIpcWrite` that fails after routing the message to `dstTid`: every
block its objects put on the used list of the destination process stays
there and was handed to `LiteIpcNodeFree`, along with the node. -/
theorem LiteIpcWrite_stale {ctx : Ctx} {s s' : IpcSys} {content : IpcContent} {msg msg' : IpcMsg}
    {dstTid : Nat} {ret : Int} (hroute : CheckPara ctx s content msg = .ok (dstTid, msg'))
    (hsz : 16 ≤ msg.dataSz) (hsz' : msg.dataSz < 2 ^ 32)
    (h : LiteIpcWrite ctx s content msg = some (ret, s')) (hret : ret ≠ LOS_OK) :
    ∃ pushed l, Pushes (ctx.processID dstTid) s s' pushed l ∧
      ∀ k ∈ pushed, GetIpcUserAddr s (ctx.processID dstTid) k ≠ NULL →
        (ctx.processID dstTid, u32 k) ∈ l := by
  rcases LiteIpcWrite_routed hroute h with ⟨l, hf⟩ | ⟨buf, s₁, s₂, r, hf₁, hobjs, hend⟩
  · -- no objects were handled: nothing was pushed
    exact ⟨[], l, hf.pushes _, by simp⟩
  rcases hend with ⟨hr, rfl, r', hfree⟩ | ⟨-, rfl, -⟩
  · -- the message is written into the node before its objects are handled
    have hf₂ : Pushes (ctx.processID dstTid) s (s₁.setNodeMsg buf { msg' with taskID := ctx.curTid }) [] [] :=
      ⟨hf₁.pool, by simp [IpcSys.setNodeMsg, hf₁.usedNodes], hf₁.freed⟩
    have hmsg : ((s₁.setNodeMsg buf { msg' with taskID := ctx.curTid }).nodeMsg buf).dataSz = msg.dataSz := by
      have hsz₁ := congrArg IpcMsg.dataSz (CheckPara_msg hroute)
      simp only [IpcSys.setNodeMsg, Function.update_self]
      exact hsz₁
    obtain ⟨pushed, l, hp, hcov⟩ :=
      HandleSpecialObjects_stale (hmsg ▸ hsz) (hmsg ▸ hsz') hobjs hr
    have hp' := (hf₂.trans hp).trans ((LiteIpcNodeFree_frees hfree).pushes _)
    simp only [List.append_nil, List.nil_append] at hp'
    refine ⟨pushed, _, hp', fun k hk hnull => List.mem_append_left _ (hcov k hk ?_)⟩
    rwa [GetIpcUserAddr_congr hf₂.pool]
  · exact absurd rfl hret

-- ============================================================ the death notices

/-- `s'` follows `s` with the pools and the used lists as they were,
the log of frees only growing. -/
structure Keeps (s s' : IpcSys) : Prop where
  pool : s'.pool = s.pool
  usedNodes : s'.usedNodes = s.usedNodes
  freed : s.freed <+: s'.freed

theorem Frees.keeps {s s' : IpcSys} {l : List (Nat × Nat)} (h : Frees s s' l) : Keeps s s' :=
  ⟨h.pool, h.usedNodes, ⟨l, h.freed.symm⟩⟩

theorem Keeps.trans {s₁ s₂ s₃ : IpcSys} (h₁ : Keeps s₁ s₂) (h₂ : Keeps s₂ s₃) : Keeps s₁ s₃ :=
  ⟨h₂.pool.trans h₁.pool, h₂.usedNodes.trans h₁.usedNodes, h₁.freed.trans h₂.freed⟩

/-- A message with no objects passes `HandleSpecialObjects` as it is. -/
theorem HandleSpecialObjects_nil {ctx : Ctx} {s : IpcSys} {dstTid node : Nat}
    (hoffs : (s.nodeMsg node).offsets = []) :
    HandleSpecialObjects ctx s dstTid node false = some ((LOS_OK : Int), s.setNodeMsg node (s.nodeMsg node)) := by
  simp only [HandleSpecialObjects, Bool.false_eq_true, if_false, hoffs, HandleSpecialObjects.loop,
    Option.bind_eq_bind, Option.bind_some, pure]
  -- the message is written back as it was
  rw [← hoffs]

/-- `LiteIpcWrite` of a message with no objects keeps the pools and the
used lists: it only queues its node, or frees it. -/
theorem LiteIpcWrite_keeps {ctx : Ctx} {s s' : IpcSys} {content : IpcContent} {msg : IpcMsg} {ret : Int}
    (hoffs : msg.offsets = []) (h : LiteIpcWrite ctx s content msg = some (ret, s')) : Keeps s s' := by
  rcases hroute : CheckPara ctx s content msg with ret' | ⟨dstTid, msg'⟩
  · -- refused: nothing changes
    simp only [LiteIpcWrite, hroute, pure, Option.some.injEq, Prod.mk.injEq] at h
    obtain ⟨-, rfl⟩ := h
    exact (Frees.refl s).keeps
  rcases LiteIpcWrite_routed hroute h with ⟨l, hf⟩ | ⟨buf, s₁, s₂, r, hf₁, hobjs, hend⟩
  · exact hf.keeps
  -- the node holds no objects either: the message is queued
  have hoffs' : ((s₁.setNodeMsg buf { msg' with taskID := ctx.curTid }).nodeMsg buf).offsets = [] := by
    have hoffs₁ := congrArg IpcMsg.offsets (CheckPara_msg hroute)
    simp only [IpcSys.setNodeMsg, Function.update_self]
    exact hoffs₁.trans hoffs
  rw [HandleSpecialObjects_nil hoffs', Option.some.injEq, Prod.mk.injEq] at hobjs
  obtain ⟨rfl, rfl⟩ := hobjs
  rcases hend with ⟨hr, -⟩ | ⟨-, -, rfl⟩
  · exact absurd rfl hr
  · exact hf₁.keeps.trans ⟨rfl, rfl, List.prefix_refl _⟩

/-- A death notice carries no objects. -/
theorem SendDeathMsg_keeps {ctx : Ctx} {s s' : IpcSys} {j : Nat} {ret : Int}
    (h : SendDeathMsg ctx s j = some (ret, s')) : Keeps s s' := by
  unfold SendDeathMsg at h
  split at h
  · simp only [Option.some.injEq, Prod.mk.injEq] at h
    obtain ⟨-, rfl⟩ := h
    exact (Frees.refl s).keeps
  · exact LiteIpcWrite_keeps rfl h

/-- The death notices of a task's exit keep the pools and the used lists. -/
theorem notify_keeps {ctx : Ctx} {taskID : Nat} :
    ∀ {js : List Nat} {s s' : IpcSys}, LiteIpcRemoveServiceHandle.notify ctx taskID js s = some s' → Keeps s s'
  | [], s, s', h => by
    simp only [LiteIpcRemoveServiceHandle.notify, Option.some.injEq] at h
    subst h
    exact (Frees.refl s).keeps
  | j :: rest, s, s', h => by
    unfold LiteIpcRemoveServiceHandle.notify at h
    split_ifs at h
    · simp only [Option.bind_eq_bind, Option.bind_eq_some_iff] at h
      obtain ⟨⟨r, s₁⟩, hsend, h⟩ := h
      have hk : Keeps s (s.setAccess taskID j false) := ⟨rfl, rfl, List.prefix_refl _⟩
      exact hk.trans ((SendDeathMsg_keeps hsend).trans (notify_keeps h))
    · exact notify_keeps h

/-- `LiteIpcRemoveServiceHandle(taskCB)` first rolls back and frees
every node queued to the task, and leaves every used list and pool as
it was: the death notices it sends after carry no objects. -/
theorem LiteIpcRemoveServiceHandle_frees {ctx : Ctx} {s s' : IpcSys} {taskID : Nat}
    (h : LiteIpcRemoveServiceHandle ctx s taskID = some s') :
    s'.usedNodes = s.usedNodes ∧ s'.pool = s.pool ∧
      s.freed ++ ((s.msgList taskID).flatMap fun node =>
        msgFrees ctx s taskID node ++ [(ctx.processID taskID, node)]) <+: s'.freed := by
  simp only [LiteIpcRemoveServiceHandle, Option.bind_eq_bind, Option.bind_eq_some_iff] at h
  obtain ⟨s₁, hdrain, hnotify⟩ := h
  have hf := drain_frees hdrain
  rw [@msgFrees_congr ctx s (s.setMsgList taskID []) rfl rfl] at hf
  have hk := notify_keeps hnotify
  have hfreed : s₁.freed = s.freed ++ (s.msgList taskID).flatMap fun node =>
      msgFrees ctx s taskID node ++ [(ctx.processID taskID, node)] := hf.freed
  refine ⟨hk.usedNodes.trans hf.usedNodes, hk.pool.trans hf.pool, ?_⟩
  rw [← hfreed]
  exact hk.freed

-- ============================================================ a run

/-- Process 2's pool: `0x1000` bytes at the kernel address `0x60000000`,
mapped at `LITE_IPC_POOL_UVADDR`, with its heap as `LOS_MemInit` leaves
it; task 20 serves process 1. -/
def ipcSys : IpcSys where
  pool := fun _ => ⟨0x10000000, 0x60000000, 0x1000⟩
  heap := fun _ => ((LOS_MemInit 0x60000000 0x1000 zeroPool).getD (0, zeroPool)).2
  usedNodes := fun _ => []
  msgList := fun _ => []
  nodeMsg := fun _ => ⟨.MT_REQUEST, 0, 0, 0, 0, NULL, NULL, fun _ => .OBJ_FD 0, [], 0⟩
  accessMap := fun t p => t == 20 && p == 1
  live := fun _ => []
  freeLog := []

/-- Task `t` belongs to process `t / 10`; every task runs
(`OS_TASK_STATUS_RUNNING`) in a user process, no process has an IPC
task, the CMS task is task 1, the clock reads `0`, `copy_from_user`
copies everything, and `sizeof(IpcListNode)` is that of a build
without `LOSCFG_SECURITY_CAPABILITY`. Task 10 runs the call. -/
def ipcCtx : Ctx where
  curTid := 10
  processID := fun t => t / 10
  taskStatus := fun _ => 0x0010
  processMode := fun _ => Process.OS_USER_MODE
  ipcTaskID := fun _ => INVAILD_ID
  g_taskMaxNum := LOSCFG_BASE_CORE_TSK_LIMIT
  cmsTaskID := 1
  cmsMaxMsgSize := 0x1000
  now := 0
  copyFromUser := fun _ _ => 0
  sizeofIpcListNode := 64

/-- A request to service 20 with 32 bytes of data at the user address
`0x02000000` and two `OBJ_PTR` objects: eight bytes at the user address
`0x02000040`, then one with a `NULL` buffer. -/
def ptrThenNullMsg : IpcMsg :=
  ⟨.MT_REQUEST, 20, 0, 0, 32, 0x02000000, 0x02000100,
    fun off => if off = 0 then .OBJ_PTR 8 0x02000040 else .OBJ_PTR 0 NULL, [0, 16], 0⟩

/-- Task 10 of process 1 sends `ptrThenNullMsg` to service 20, a task of
process 2 that serves process 1. The message node goes to
`0x60000000 + 956` and the first object's copy to `0x60000000 + 1072`;
the second object fails, and the rollback frees the copy and
`ERROR_COPY` the node, so the send returns `-EINVAL` with process 2's
pool holding nothing, yet its used list still names the copy. Task 20
then frees that copy by its user address: `CheckUsedBuffer` accepts it,
and `LiteIpcNodeFree` gets a block the pool does not hold. -/
theorem liteipc_rollback_leaves_used_entry :
    (LiteIpcMsgHandle ipcCtx ipcSys ⟨SEND, some ptrThenNullMsg, NULL⟩).map
        (fun r => (r.1, r.2.usedNodes 2, r.2.live 2)) = some (-EINVAL, [0x60000000 + 1072], []) ∧
      ((LiteIpcMsgHandle ipcCtx ipcSys ⟨SEND, some ptrThenNullMsg, NULL⟩).bind fun r =>
        LiteIpcMsgHandle { ipcCtx with curTid := 20 } r.2
          ⟨BUFF_FREE, none, GetIpcUserAddr r.2 2 (0x60000000 + 1072)⟩).map
        (fun r => (r.1, r.2.freeLog.getLast?)) = some ((LOS_NOK : Int), some (2, 0x60000000 + 1072, false)) := by
  decide +kernel

end LiteOsA.LiteIpc
