/-
The descriptor slots of the POSIX message queues, and where their
bookkeeping breaks (mqueue.c).

# Filling the table

`Filled s q name k`: queue `q`, found by `name`, not unlinked and with
no reference taken, holds the first `k` descriptor slots, each with a
record of `q` that is on `q`'s list; the slots from `k` up to
`MAX_MQ_FD` are free, and no record lies at `nextAddr` or above. The
loop of `MqAllocSysFd` passes the slots whose bit the queue has
(`loop_skip`) and takes the first free one (`loop_take`). So the
`mq_open` that creates a queue takes slot `0` (`mq_open_create_Filled`),
and each `mq_open` of its name by root takes the next slot
(`mq_open_Filled`); a create and 255 opens fill the table
(`mq_open_fill`).

# Running out

With every slot taken, the loop finds nothing. `MqAllocSysFd` then
frees the new record and sets the queue's `mq_personal` to `NULL`,
which drops every record the list held, while their descriptors stay
open in `g_mqPrivBuf` (`mq_open_Filled_full`). With an empty list the
queue looks unused, and `mq_unlink` deletes it at once under the open
descriptors (`mq_open_exhausted_drops_records`).
-/
import LiteOsA.Compat.Mqueue
import LiteOsA.Lib.Run

namespace LiteOsA.Mqueue

open MqSys
open LiteOsA.Cred (User OsCreateUser)

-- ============================================================ lookups

/-- `GetMqueueCBByName` reads the names alone. -/
theorem GetMqueueCBByName_congr {s s' : MqSys} (h : ∀ j, (s'.queueTable j).mq_name = (s.queueTable j).mq_name)
    (name : String) : GetMqueueCBByName s' name = GetMqueueCBByName s name := by
  simp only [GetMqueueCBByName, h]

/-- A write of one queue that keeps its name keeps every name. -/
theorem modifyQueue_mq_name {s : MqSys} {q : Nat} {f : MqArray → MqArray} (hf : ∀ cb, (f cb).mq_name = cb.mq_name)
    (j : Nat) : ((s.modifyQueue q f).queueTable j).mq_name = (s.queueTable j).mq_name := by
  rw [modifyQueue_queueTable]
  split_ifs with hj
  · rw [hf, hj]
  · rfl

/-- A name no slot has is not found. -/
theorem GetMqueueCBByName_none {s : MqSys} {name : String}
    (h : ∀ j < LOSCFG_BASE_IPC_QUEUE_LIMIT, (s.queueTable j).mq_name ≠ some name) :
    GetMqueueCBByName s name = none := by
  apply List.find?_eq_none.2
  intro j hj
  simpa using h j (List.mem_range.1 hj)

/-- The one slot with a name is the one found. -/
theorem GetMqueueCBByName_unique {s : MqSys} {name : String} {q : Nat} (hq : q < LOSCFG_BASE_IPC_QUEUE_LIMIT)
    (hname : (s.queueTable q).mq_name = some name)
    (hother : ∀ j < LOSCFG_BASE_IPC_QUEUE_LIMIT, (s.queueTable j).mq_name = some name → j = q) :
    GetMqueueCBByName s name = some q := by
  cases h : GetMqueueCBByName s name with
  | none =>
    have hq' := List.find?_eq_none.1 h q (List.mem_range.2 hq)
    simp [hname] at hq'
  | some j =>
    have hj := List.find?_some h
    have hmem := List.mem_range.1 (List.mem_of_find?_eq_some h)
    rw [hother j hmem (by simpa using hj)]

theorem GetPermissionOfVisitor_root {s : MqSys} {user : User} (h : user.effUserID = 0) (q : Nat) :
    GetPermissionOfVisitor s user (some q) = .ok () := by
  simp [GetPermissionOfVisitor, h]

-- =========================================================== the calls

theorem mq_open_eq {s : MqSys} {env : MqEnv} {user : User} {name : String} {openFlag mode : Nat}
    {attr : Option MqAttr} (h : MqNameCheck name = .ok ()) :
    mq_open s env user name openFlag mode attr =
      mq_open.out (mq_open.personal s env user name openFlag mode attr).2
        (mq_open.personal s env user name openFlag mode attr).1 := by
  simp [mq_open, h]

/-- Without `O_CREAT`, a visitor allowed in opens the queue found. -/
theorem personal_open {s : MqSys} {env : MqEnv} {user : User} {name : String} {openFlag mode q : Nat}
    {attr : Option MqAttr} (hflag : openFlag &&& O_CREAT = 0) (hfound : GetMqueueCBByName s name = some q)
    (hperm : GetPermissionOfVisitor s user (some q) = .ok ()) :
    mq_open.personal s env user name openFlag mode attr = DoMqueueOpen s env q openFlag := by
  simp [mq_open.personal, hflag, hfound, hperm]

/-- With `O_CREAT`, a name no slot has is created, and the new queue's
owner and mode bits are set. -/
theorem personal_create {s : MqSys} {env : MqEnv} {user : User} {name : String} {openFlag mode p : Nat}
    {attr : Option MqAttr} {defaultAttr : MqAttr} (hflag : openFlag &&& O_CREAT ≠ 0)
    (hnone : GetMqueueCBByName s name = none) (hattr : GetMqueueAttr attr = .ok defaultAttr)
    (hcreate : (DoMqueueCreate s env defaultAttr name openFlag mode).1 = some p) :
    mq_open.personal s env user name openFlag mode attr =
      (some p, MqueueModeAnalysisSet (DoMqueueCreate s env defaultAttr name openFlag mode).2 user p) := by
  simp only [mq_open.personal, hflag, hnone, hattr, ne_eq, not_false_eq_true, if_true]
  rw [hcreate]

/-- `DoMqueueOpen` of a queue not unlinked, when the allocation
succeeds: the record goes to a fresh address at the head of the list. -/
theorem DoMqueueOpen_ok {s : MqSys} {env : MqEnv} {q openFlag : Nat} (hlink : (s.queueTable q).unlinkflag = false)
    (halloc : env.persAlloc = true) :
    DoMqueueOpen s env q openFlag =
      (some s.nextAddr,
        ({ s.setRecord s.nextAddr (some ⟨q, openFlag, env.staleMode, MQ_USE_MAGIC, 0⟩) with
            nextAddr := s.nextAddr + 1 } : MqSys).modifyQueue q
          fun cb => { cb with mq_personal := s.nextAddr :: cb.mq_personal }) := by
  simp [DoMqueueOpen, hlink, allocRecord, halloc]

-- ====================================================== the slot loop

/-- Slots whose bit the queue already has are passed over. -/
theorem loop_skip {q : Nat} {head : Option Nat} {s : MqSys} :
    ∀ {l : List Nat} (l' : List Nat), (∀ i ∈ l, (s.queueTable q).mq_fdset (i + MQUEUE_FD_OFFSET) = true) →
      MqAllocSysFd.loop q head (l ++ l') s = MqAllocSysFd.loop q head l' s
  | [], _, _ => rfl
  | i :: l, l', h => by
    rw [List.cons_append, MqAllocSysFd.loop, h i List.mem_cons_self]
    simp only [Bool.not_true, Bool.false_eq_true, if_false]
    exact loop_skip l' fun j hj => h j (List.mem_cons_of_mem i hj)

/-- The first slot free both in the queue's bit map and in `g_mqPrivBuf`
is taken. -/
theorem loop_take {q : Nat} {head : Option Nat} {s : MqSys} {i : Nat} (l : List Nat)
    (hbit : (s.queueTable q).mq_fdset (i + MQUEUE_FD_OFFSET) = false) (hbuf : s.g_mqPrivBuf i = none) :
    MqAllocSysFd.loop q head (i :: l) s =
      (some (i + MQUEUE_FD_OFFSET), (setFd s q (i + MQUEUE_FD_OFFSET) true).setPrivBuf i head) := by
  simp [MqAllocSysFd.loop, hbit, hbuf]

/-- The slots below `n`, cut at `k`. -/
theorem range_split {k n : Nat} (hk : k < n) :
    List.range n = List.range k ++ k :: List.range' (k + 1) (n - (k + 1)) := by
  obtain ⟨t, rfl⟩ : ∃ t, n = k + 1 + t := ⟨n - (k + 1), by omega⟩
  have h := @List.range'_append_1 0 k (t + 1)
  rw [Nat.zero_add, show k + (t + 1) = k + 1 + t by omega] at h
  rw [List.range_eq_range', List.range_eq_range', ← h, List.range'_succ, Nat.add_sub_cancel_left]

-- ====================================================== a filled prefix

/-- Queue `q`, found by `name`, not unlinked and with no reference
taken, holds the descriptor slots below `k`: each holds a record of `q`
that is on its list, and `q`'s bit map has the slot. The slots from `k`
up to `MAX_MQ_FD` are free in `g_mqPrivBuf` and in the bit map, and no
record lies at `nextAddr` or above. -/
structure Filled (s : MqSys) (q : Nat) (name : String) (k : Nat) : Prop where
  found : GetMqueueCBByName s name = some q
  linked : (s.queueTable q).unlinkflag = false
  unref : (s.queueTable q).unlink_ref = 0
  held : ∀ i < k, ∃ p record, s.g_mqPrivBuf i = some p ∧ s.heap p = some record ∧
    record.mq_posixdes = q ∧ p ∈ (s.queueTable q).mq_personal ∧
    (s.queueTable q).mq_fdset (i + MQUEUE_FD_OFFSET) = true
  free : ∀ i < MAX_MQ_FD, k ≤ i →
    s.g_mqPrivBuf i = none ∧ (s.queueTable q).mq_fdset (i + MQUEUE_FD_OFFSET) = false
  fresh : ∀ p, s.nextAddr ≤ p → s.heap p = none

/-- `s'` differs from `s` at most in what the descriptor code does not
read back: `errno`, and the owner and mode bits of the queues. -/
structure SameFds (s s' : MqSys) : Prop where
  heap : s'.heap = s.heap
  nextAddr : s'.nextAddr = s.nextAddr
  privBuf : s'.g_mqPrivBuf = s.g_mqPrivBuf
  name : ∀ j, (s'.queueTable j).mq_name = (s.queueTable j).mq_name
  unlinkflag : ∀ j, (s'.queueTable j).unlinkflag = (s.queueTable j).unlinkflag
  unlink_ref : ∀ j, (s'.queueTable j).unlink_ref = (s.queueTable j).unlink_ref
  fdset : ∀ j, (s'.queueTable j).mq_fdset = (s.queueTable j).mq_fdset
  personal : ∀ j, (s'.queueTable j).mq_personal = (s.queueTable j).mq_personal

theorem Filled.congr {s s' : MqSys} {q k : Nat} {name : String} (h : Filled s q name k) (hs : SameFds s s') :
    Filled s' q name k where
  found := by rw [GetMqueueCBByName_congr hs.name]; exact h.found
  linked := by rw [hs.unlinkflag]; exact h.linked
  unref := by rw [hs.unlink_ref]; exact h.unref
  held := by
    intro i hi
    obtain ⟨p, record, hp, hrec, hpos, hmem, hbit⟩ := h.held i hi
    exact ⟨p, record, by rw [hs.privBuf]; exact hp, by rw [hs.heap]; exact hrec, hpos,
      by rw [hs.personal]; exact hmem, by rw [hs.fdset]; exact hbit⟩
  free := by
    intro i hi hki
    rw [hs.privBuf, hs.fdset]
    exact h.free i hi hki
  fresh := by
    intro p hp
    rw [hs.heap]
    exact h.fresh p (by rw [← hs.nextAddr]; exact hp)

/-- `MqueueModeAnalysisSet` writes the owner and the mode bits only. -/
theorem MqueueModeAnalysisSet_same (s : MqSys) (user : User) (p : Nat) :
    SameFds s (MqueueModeAnalysisSet s user p) := by
  unfold MqueueModeAnalysisSet
  cases hp : s.heap p with
  | none => exact ⟨rfl, rfl, rfl, fun _ => rfl, fun _ => rfl, fun _ => rfl, fun _ => rfl, fun _ => rfl⟩
  | some record =>
    dsimp only
    refine ⟨rfl, rfl, rfl, fun j => ?_, fun j => ?_, fun j => ?_, fun j => ?_, fun j => ?_⟩ <;>
      by_cases hj : j = record.mq_posixdes <;> simp [hj]

/-- `DoMqueueCreate` of a slot with no queue, when both allocations
succeed: the slot gets the name, a list of one fresh record, and no
descriptor yet. -/
theorem DoMqueueCreate_Filled {s : MqSys} {env : MqEnv} {attr : MqAttr} {name : String} {q openFlag mode : Nat}
    (hnone : ∀ j < LOSCFG_BASE_IPC_QUEUE_LIMIT, (s.queueTable j).mq_name ≠ some name)
    (hcreate : env.queueCreate = .ok q) (hq : q < LOSCFG_BASE_IPC_QUEUE_LIMIT) (hcb : (s.queueTable q).mqcb = false)
    (hnameAlloc : env.nameAlloc = true) (halloc : env.persAlloc = true)
    (hfree : ∀ i < MAX_MQ_FD, s.g_mqPrivBuf i = none ∧ (s.queueTable q).mq_fdset (i + MQUEUE_FD_OFFSET) = false)
    (hfresh : ∀ p, s.nextAddr ≤ p → s.heap p = none) :
    (DoMqueueCreate s env attr name openFlag mode).1 = some s.nextAddr ∧
      Filled (DoMqueueCreate s env attr name openFlag mode).2 q name 0 ∧
      (DoMqueueCreate s env attr name openFlag mode).2.heap s.nextAddr =
        some ⟨q, openFlag ||| (attr.mq_flags.toNat &&& FNONBLOCK), mode, MQ_USE_MAGIC, 0⟩ ∧
      ((DoMqueueCreate s env attr name openFlag mode).2.queueTable q).mq_personal = [s.nextAddr] := by
  simp only [DoMqueueCreate, hcreate, hcb, hnameAlloc, Bool.not_true, Bool.false_eq_true, if_false,
    allocRecord, halloc, if_true, modifyQueue_nextAddr]
  refine ⟨trivial, ?_, by simp, by simp⟩
  constructor
  · apply GetMqueueCBByName_unique hq (by simp)
    intro j hj hname
    by_contra hjq
    simp only [modifyQueue_queueTable, hjq, if_false, setRecord_queueTable] at hname
    exact hnone j hj hname
  · simp
  · simp
  · intro i hi
    omega
  · intro i hi _
    simpa using hfree i hi
  · intro p hp
    simp only [modifyQueue_nextAddr, modifyQueue_heap, setRecord_heap] at hp ⊢
    rw [if_neg (by omega)]
    exact hfresh p (by omega)

/-- `DoMqueueOpen` of a filled queue puts a fresh record of it at the
head of its list, and the queue stays filled as it was. -/
theorem DoMqueueOpen_Filled {s : MqSys} {env : MqEnv} {q k openFlag : Nat} {name : String}
    (h : Filled s q name k) (halloc : env.persAlloc = true) :
    (DoMqueueOpen s env q openFlag).1 = some s.nextAddr ∧ Filled (DoMqueueOpen s env q openFlag).2 q name k ∧
      (DoMqueueOpen s env q openFlag).2.heap s.nextAddr = some ⟨q, openFlag, env.staleMode, MQ_USE_MAGIC, 0⟩ ∧
      ((DoMqueueOpen s env q openFlag).2.queueTable q).mq_personal.head? = some s.nextAddr := by
  rw [DoMqueueOpen_ok h.linked halloc]
  set a := s.nextAddr with ha
  refine ⟨rfl, ?_, by simp, by simp⟩
  have hnames : ∀ j, ((({ s.setRecord a (some ⟨q, openFlag, env.staleMode, MQ_USE_MAGIC, 0⟩) with
      nextAddr := a + 1 } : MqSys).modifyQueue q
        fun cb => { cb with mq_personal := a :: cb.mq_personal }).queueTable j).mq_name =
      (s.queueTable j).mq_name :=
    modifyQueue_mq_name fun _ => rfl
  constructor
  · rw [GetMqueueCBByName_congr hnames]
    exact h.found
  · simpa using h.linked
  · simpa using h.unref
  · -- the held slots keep their records, none at the fresh address
    intro i hi
    obtain ⟨p, record, hp, hrec, hpos, hmem, hbit⟩ := h.held i hi
    have hpa : p ≠ a := fun hpa => by
      rw [hpa, h.fresh a le_rfl] at hrec
      cases hrec
    exact ⟨p, record, by simpa using hp, by simp [hpa, hrec], hpos, by simp [hmem], by simpa using hbit⟩
  · intro i hi hki
    simpa using h.free i hi hki
  · intro p hp
    simp only [modifyQueue_nextAddr] at hp
    simp only [modifyQueue_heap, setRecord_heap, show p ≠ a by omega, if_false]
    exact h.fresh p (by omega)

/-- `MqAllocSysFd` of the record at the head of a queue that holds the
slots below `k < MAX_MQ_FD` passes them and takes slot `k`. -/
theorem MqAllocSysFd_Filled {s : MqSys} {q k p : Nat} {name : String} {r : MqPersonal} (h : Filled s q name k)
    (hk : k < MAX_MQ_FD) (hp : s.heap p = some r) (hpos : r.mq_posixdes = q)
    (hhead : (s.queueTable q).mq_personal.head? = some p) :
    MqAllocSysFd s MAX_MQ_FD p =
        (((k + MQUEUE_FD_OFFSET : Nat) : Int), (setFd s q (k + MQUEUE_FD_OFFSET) true).setPrivBuf k (some p)) ∧
      Filled ((setFd s q (k + MQUEUE_FD_OFFSET) true).setPrivBuf k (some p)) q name (k + 1) := by
  set s₃ := (setFd s q (k + MQUEUE_FD_OFFSET) true).setPrivBuf k (some p) with hs₃
  -- the loop passes the `k` slots the queue holds and takes slot `k`
  have hbits : ∀ i ∈ List.range k, (s.queueTable q).mq_fdset (i + MQUEUE_FD_OFFSET) = true := by
    intro i hi
    obtain ⟨-, -, -, -, -, -, hb⟩ := h.held i (List.mem_range.1 hi)
    exact hb
  have hfree := h.free k hk le_rfl
  have hloop : MqAllocSysFd.loop q (some p) (List.range MAX_MQ_FD) s = (some (k + MQUEUE_FD_OFFSET), s₃) := by
    rw [range_split hk, loop_skip _ hbits]
    exact loop_take _ hfree.2 hfree.1
  refine ⟨?_, ?_⟩
  · unfold MqAllocSysFd
    rw [hp]
    dsimp only
    rw [hpos, hhead, hloop]
  have hq₃ : s₃.queueTable q = { s.queueTable q with
      mq_fdset := Function.update (s.queueTable q).mq_fdset (k + MQUEUE_FD_OFFSET) true } := by
    simp [s₃, setFd]
  have hnames : ∀ j, (s₃.queueTable j).mq_name = (s.queueTable j).mq_name := by
    rw [hs₃, setPrivBuf_queueTable, setFd]
    exact modifyQueue_mq_name fun _ => rfl
  constructor
  · rw [GetMqueueCBByName_congr hnames]
    exact h.found
  · rw [hq₃]
    exact h.linked
  · rw [hq₃]
    exact h.unref
  · intro i hi
    by_cases hik : i = k
    · -- the new slot holds the record at the head
      subst hik
      refine ⟨p, r, by simp [s₃], by simpa [s₃] using hp, hpos, ?_, by rw [hq₃]; simp⟩
      rw [hq₃]
      exact List.mem_of_mem_head? hhead
    · -- an old slot keeps its record and its bit
      obtain ⟨p', record, hp', hrec, hpos', hmem, hbit⟩ := h.held i (by omega)
      refine ⟨p', record, by simp [s₃, hik, hp'], by simpa [s₃] using hrec, hpos', by rw [hq₃]; exact hmem, ?_⟩
      rw [hq₃]
      dsimp only
      rw [Function.update_of_ne (by omega)]
      exact hbit
  · intro i hi hki
    obtain ⟨hb, hf⟩ := h.free i hi (by omega)
    refine ⟨by simp [s₃, show i ≠ k by omega, hb], ?_⟩
    rw [hq₃]
    dsimp only
    rw [Function.update_of_ne (by omega)]
    exact hf
  · intro p' hp'
    exact h.fresh p' (by simpa [s₃] using hp')

/-- One `mq_open` of the name by root, without `O_CREAT`, takes the
next slot for a new record at the head of the list. -/
theorem mq_open_Filled {s : MqSys} {env : MqEnv} {user : User} {name : String} {q k mode : Nat}
    {attr : Option MqAttr} (h : Filled s q name k) (hk : k < MAX_MQ_FD) (hname : MqNameCheck name = .ok ())
    (hroot : user.effUserID = 0) (halloc : env.persAlloc = true) :
    (mq_open s env user name O_RDWR mode attr).1 = (MQUEUE_FD_OFFSET + k : Nat) ∧
      Filled (mq_open s env user name O_RDWR mode attr).2 q name (k + 1) := by
  obtain ⟨hret, h₂, hheap, hhead⟩ := @DoMqueueOpen_Filled s env q _ O_RDWR name h halloc
  obtain ⟨hfd, h₃⟩ := MqAllocSysFd_Filled h₂ hk hheap rfl hhead
  rw [mq_open_eq hname, personal_open (by decide) h.found (GetPermissionOfVisitor_root hroot q), hret]
  simp only [mq_open.out, hfd]
  have hne : ((k + MQUEUE_FD_OFFSET : Nat) : Int) ≠ -1 := by omega
  rw [if_neg hne]
  exact ⟨by rw [Nat.add_comm], h₃⟩

/-- With every slot taken, `MqAllocSysFd` finds none: it frees the
record and empties the queue's list. -/
theorem MqAllocSysFd_Filled_full {s : MqSys} {q p : Nat} {name : String} {r : MqPersonal}
    (h : Filled s q name MAX_MQ_FD) (hp : s.heap p = some r) (hpos : r.mq_posixdes = q) :
    MqAllocSysFd s MAX_MQ_FD p = (-1, (s.setRecord p none).modifyQueue q fun cb => { cb with mq_personal := [] }) := by
  -- the loop passes every slot: the queue's bit map has them all
  have hbits : ∀ i ∈ List.range MAX_MQ_FD, (s.queueTable q).mq_fdset (i + MQUEUE_FD_OFFSET) = true := by
    intro i hi
    obtain ⟨-, -, -, -, -, -, hb⟩ := h.held i (List.mem_range.1 hi)
    exact hb
  have hloop : MqAllocSysFd.loop q (s.queueTable q).mq_personal.head? (List.range MAX_MQ_FD) s = (none, s) := by
    have hskip := @loop_skip q (s.queueTable q).mq_personal.head? s (List.range MAX_MQ_FD) [] hbits
    rw [List.append_nil] at hskip
    rw [hskip]
    rfl
  unfold MqAllocSysFd
  rw [hp]
  dsimp only
  rw [hpos, hloop]

/-- With every slot taken, the open finds no slot: it frees its new
record and empties the queue's list, while every slot of
`g_mqPrivBuf` still holds a record of the queue. -/
theorem mq_open_Filled_full {s : MqSys} {env : MqEnv} {user : User} {name : String} {q mode : Nat}
    {attr : Option MqAttr} (h : Filled s q name MAX_MQ_FD) (hname : MqNameCheck name = .ok ())
    (hroot : user.effUserID = 0) (halloc : env.persAlloc = true) :
    (mq_open s env user name O_RDWR mode attr).1 = -1 ∧
      ((mq_open s env user name O_RDWR mode attr).2.queueTable q).mq_personal = [] ∧
      ((mq_open s env user name O_RDWR mode attr).2.queueTable q).unlink_ref = 0 ∧
      GetMqueueCBByName (mq_open s env user name O_RDWR mode attr).2 name = some q ∧
      ∀ i < MAX_MQ_FD, ∃ p record, (mq_open s env user name O_RDWR mode attr).2.g_mqPrivBuf i = some p ∧
        (mq_open s env user name O_RDWR mode attr).2.heap p = some record ∧ record.mq_posixdes = q := by
  obtain ⟨hret, h₂, hheap, -⟩ := @DoMqueueOpen_Filled s env q _ O_RDWR name h halloc
  rw [mq_open_eq hname, personal_open (by decide) h.found (GetPermissionOfVisitor_root hroot q), hret]
  simp only [mq_open.out, MqAllocSysFd_Filled_full h₂ hheap rfl, if_true]
  set s₂ := (DoMqueueOpen s env q O_RDWR).2
  set s₄ := (s₂.setRecord s.nextAddr none).modifyQueue q fun cb => { cb with mq_personal := [] } with hs₄
  have hq₄ : s₄.queueTable q = { s₂.queueTable q with mq_personal := [] } := by
    simp [s₄]
  have hnames : ∀ j, (s₄.queueTable j).mq_name = (s₂.queueTable j).mq_name :=
    modifyQueue_mq_name fun _ => rfl
  refine ⟨trivial, by rw [hq₄], by rw [hq₄]; exact h₂.unref, ?_, fun i hi => ?_⟩
  · show GetMqueueCBByName s₄ name = some q
    rw [GetMqueueCBByName_congr hnames]
    exact h₂.found
  · -- the slot keeps its record, which is older than the one freed
    obtain ⟨p, record, hp, hrec, hpos, -, -⟩ := h.held i hi
    have hpa : p ≠ s.nextAddr := fun hpa => by
      rw [hpa, h.fresh s.nextAddr le_rfl] at hrec
      cases hrec
    obtain ⟨p₂, record₂, hp₂, hrec₂, hpos₂, -, -⟩ := h₂.held i hi
    have hbuf : s₂.g_mqPrivBuf = s.g_mqPrivBuf := by simp [s₂, DoMqueueOpen_ok h.linked halloc]
    rw [hbuf, hp, Option.some.injEq] at hp₂
    subst hp₂
    exact ⟨p, record₂, by simpa [s₄, hbuf] using hp, by simpa [s₄, hpa] using hrec₂, hpos₂⟩

/-- The `mq_open` with `O_CREAT` of a name no slot has, when
`LOS_QueueCreate` hands back a slot `q` with no queue and both
allocations succeed, creates the queue and gives it slot `0`. -/
theorem mq_open_create_Filled {s : MqSys} {env : MqEnv} {user : User} {name : String} {q openFlag mode : Nat}
    (hname : MqNameCheck name = .ok ()) (hflag : openFlag &&& O_CREAT ≠ 0)
    (hnone : ∀ j < LOSCFG_BASE_IPC_QUEUE_LIMIT, (s.queueTable j).mq_name ≠ some name)
    (hcreate : env.queueCreate = .ok q) (hq : q < LOSCFG_BASE_IPC_QUEUE_LIMIT) (hcb : (s.queueTable q).mqcb = false)
    (hnameAlloc : env.nameAlloc = true) (halloc : env.persAlloc = true)
    (hfree : ∀ i < MAX_MQ_FD, s.g_mqPrivBuf i = none ∧ (s.queueTable q).mq_fdset (i + MQUEUE_FD_OFFSET) = false)
    (hfresh : ∀ p, s.nextAddr ≤ p → s.heap p = none) :
    (mq_open s env user name openFlag mode none).1 = (MQUEUE_FD_OFFSET : Nat) ∧
      Filled (mq_open s env user name openFlag mode none).2 q name 1 := by
  -- the queue is created with its one record, and its owner set
  obtain ⟨hret, h₁, hheap, hlist⟩ := @DoMqueueCreate_Filled s env ⟨0, MQ_MAX_MSG_NUM, MQ_MAX_MSG_LEN⟩ name q
    openFlag mode hnone hcreate hq hcb hnameAlloc halloc hfree hfresh
  have hsame := MqueueModeAnalysisSet_same
    (DoMqueueCreate s env ⟨0, MQ_MAX_MSG_NUM, MQ_MAX_MSG_LEN⟩ name openFlag mode).2 user s.nextAddr
  -- then the record takes slot `0`
  obtain ⟨hfd, h₃⟩ := MqAllocSysFd_Filled (h₁.congr hsame) (by decide) (by rw [hsame.heap]; exact hheap) rfl
    (by rw [hsame.personal, hlist]; rfl)
  rw [mq_open_eq hname, personal_create hflag (GetMqueueCBByName_none hnone) rfl hret]
  simp only [mq_open.out, hfd]
  rw [if_neg (by decide)]
  exact ⟨rfl, h₃⟩

/-- An `mq_unlink` of a queue with an empty list and no reference taken
deletes it at once. -/
theorem mq_unlink_empty {s : MqSys} {name : String} {q : Nat} (hname : MqNameCheck name = .ok ())
    (hfound : GetMqueueCBByName s name = some q) (hunref : (s.queueTable q).unlink_ref = 0)
    (hempty : (s.queueTable q).mq_personal = []) :
    mq_unlink s name = DoMqueueDelete s q := by
  simp [mq_unlink, hname, hfound, hunref, hempty]

-- ============================================================ the run

theorem step_mq_open {s : MqSys} {env : MqEnv} {user : User} {name : String} {openFlag mode : Nat}
    {attr : Option MqAttr} {ret : Int} (h : (mq_open s env user name openFlag mode attr).1 = ret) :
    Step s (.mq_open env user name openFlag mode attr ret) (mq_open s env user name openFlag mode attr).2 :=
  h ▸ Step.mq_open env user name openFlag mode attr

/-- Root, in the calls of the run below. -/
def mqRoot : User := OsCreateUser 0 0 1

/-- Every allocation succeeds, and `LOS_QueueCreate` hands back slot `0`. -/
def mqEnv : MqEnv := ⟨.ok 0, true, true, 0⟩

/-- Root creates `/q`. -/
def mqCreateCall : Call :=
  .mq_open mqEnv mqRoot "/q" (O_CREAT ||| O_RDWR) 0o666 none (MQUEUE_FD_OFFSET : Nat)

/-- Root's `k + 2`-th open of `/q`, which gets slot `k + 1`. -/
def mqOpenCall (k : Nat) : Call :=
  .mq_open mqEnv mqRoot "/q" O_RDWR 0 none (MQUEUE_FD_OFFSET + (k + 1) : Nat)

/-- From boot, root's create of `/q` and `k` opens of it hold the first
`k + 1` slots. -/
theorem mq_open_fill :
    ∀ k < MAX_MQ_FD, ∃ s, Run Step mqInit (mqCreateCall :: (List.range k).map mqOpenCall) s ∧
      Filled s 0 "/q" (k + 1)
  | 0, _ => by
    -- the create takes slot `0` of the empty table
    obtain ⟨hret, hfilled⟩ := @mq_open_create_Filled mqInit mqEnv mqRoot "/q" 0 (O_CREAT ||| O_RDWR) 0o666
      rfl (by decide) (fun j _ => by simp [mqInit]) rfl (by decide) rfl rfl rfl (fun _ _ => ⟨rfl, rfl⟩)
      (fun _ _ => rfl)
    exact ⟨_, Run.nil.snoc (step_mq_open hret), hfilled⟩
  | k + 1, hk => by
    obtain ⟨s, hrun, hfilled⟩ := mq_open_fill k (by omega)
    obtain ⟨hret, hfilled'⟩ := @mq_open_Filled s mqEnv mqRoot "/q" 0 (k + 1) 0 none hfilled hk rfl rfl rfl
    have hrun' := hrun.snoc (step_mq_open hret)
    refine ⟨_, ?_, hfilled'⟩
    rw [List.range_succ, List.map_append, List.map_singleton]
    exact hrun'

/-- From boot, root creates `/q` and opens it 255 more times, which
fills the 256 descriptor slots. Its next open returns `-1` after
emptying the queue's list, and the 256 descriptors stay open on records
of the queue that no list holds. `mq_unlink("/q")` then finds the list
empty and deletes the queue, under the open descriptors. -/
theorem mq_open_exhausted_drops_records :
    ∃ s, Run Step mqInit (mqCreateCall :: (List.range (MAX_MQ_FD - 1)).map mqOpenCall ++
        [.mq_open mqEnv mqRoot "/q" O_RDWR 0 none (-1), .mq_unlink "/q" 0]) s ∧
      (s.queueTable 0).mq_personal = [] ∧ (s.queueTable 0).mq_name = none ∧ (s.queueTable 0).mqcb = false ∧
      ∀ i < MAX_MQ_FD, ∃ p record, s.g_mqPrivBuf i = some p ∧ s.heap p = some record ∧ record.mq_posixdes = 0 := by
  obtain ⟨s, hrun, hfilled⟩ := mq_open_fill (MAX_MQ_FD - 1) (by decide)
  obtain ⟨hret, hempty, hunref, hfound, hheld⟩ :=
    @mq_open_Filled_full s mqEnv mqRoot "/q" 0 0 none hfilled rfl rfl rfl
  set s' := (mq_open s mqEnv mqRoot "/q" O_RDWR 0 none).2
  have hunlink : mq_unlink s' "/q" = DoMqueueDelete s' 0 := mq_unlink_empty rfl hfound hunref hempty
  have hstep : Step s' (.mq_unlink "/q" 0) (DoMqueueDelete s' 0).2 := by
    have h₀ := Step.mq_unlink (s := s') "/q"
    rw [hunlink] at h₀
    exact h₀
  have hrun' := (hrun.snoc (step_mq_open hret)).snoc hstep
  rw [List.append_assoc, List.singleton_append] at hrun'
  refine ⟨_, hrun', by simpa [DoMqueueDelete] using hempty, by simp [DoMqueueDelete], by simp [DoMqueueDelete],
    fun i hi => ?_⟩
  obtain ⟨p, record, hp, hrec, hpos⟩ := hheld i hi
  refine ⟨p, record, ?_, ?_, hpos⟩
  · simp only [DoMqueueDelete, modifyQueue_g_mqPrivBuf]
    exact hp
  · simp only [DoMqueueDelete, modifyQueue_heap]
    exact hrec

end LiteOsA.Mqueue
