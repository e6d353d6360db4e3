/-
The shape of a TLSF pool: the invariant the allocator keeps.

A pool's nodes are a list of `Blk` in address order. `Seg` walks them
from the first node: each starts where the one before it ends, its head
holds the magic word, the address of the node before it and its word,
and the walk ends at the end node, whose `ptr.prev` names the last
node (`EndAt`). `FreeLists` reads the pool head: list `i` is a doubly
linked list through the nodes' `next` and `prev` fields, and the bit of
list `i` in the bitmap is set exactly when the list is nonempty.
`Listed` ties the two: the lists hold exactly the free nodes, each on
the list `OsMemFreeListIndexGet` gives for its size. `Heap` is all of
it, with no two free nodes side by side.

Nodes lie back to back and each is at least 20 bytes, so two distinct
nodes never overlap (`Seg.disjoint`). Every frame argument of the proofs
is that fact.
-/
import LiteOsA.Mem.Proofs.TlsfNode
import LiteOsA.Lib.DLinkList
import Mathlib.Data.List.Chain

namespace LiteOsA.Tlsf

variable {p p' : Pool} {prev a e : Nat} {b c : Blk} {bs l₁ l₂ : List Blk}

-- ============================================================ node heads

/-- The head of node `b`, whose physical predecessor is at `prev`. -/
structure NodeAt (p : Pool) (prev : Nat) (b : Blk) : Prop where
  magic : p.get b.addr .magic = OS_MEM_NODE_MAGIC
  ptrPrev : p.get b.addr .ptrPrev = prev
  sizeAndFlag : p.get b.addr .sizeAndFlag = b.word

/-- The end node at `e`, after the node at `prev`: used and empty. -/
structure EndAt (p : Pool) (prev e : Nat) : Prop where
  magic : p.get e .magic = OS_MEM_NODE_MAGIC
  ptrPrev : p.get e .ptrPrev = prev
  sizeAndFlag : p.get e .sizeAndFlag = OS_MEM_NODE_USED_FLAG

/-- The three head words at `a` read the same in `p'` as in `p`. -/
def HeadSame (p p' : Pool) (a : Nat) : Prop :=
  p'.get a .magic = p.get a .magic ∧ p'.get a .ptrPrev = p.get a .ptrPrev ∧
    p'.get a .sizeAndFlag = p.get a .sizeAndFlag

theorem NodeAt.congr (h : NodeAt p prev b) (hs : HeadSame p p' b.addr) : NodeAt p' prev b :=
  ⟨hs.1.trans h.magic, hs.2.1.trans h.ptrPrev, hs.2.2.trans h.sizeAndFlag⟩

theorem EndAt.congr (h : EndAt p prev e) (hs : HeadSame p p' e) : EndAt p' prev e :=
  ⟨hs.1.trans h.magic, hs.2.1.trans h.ptrPrev, hs.2.2.trans h.sizeAndFlag⟩

/-- Memory that agrees on the three head words keeps them. -/
theorem headSame_of_mem (h : ∀ k < 12, p'.mem (a + k) = p.mem (a + k)) : HeadSame p p' a :=
  ⟨h 0 (by decide), h 4 (by decide), h 8 (by decide)⟩

-- ============================================================ segments

/-- The address of the last node of `bs`, `prev` when there is none. -/
def lastAddr (prev : Nat) : List Blk → Nat
  | [] => prev
  | b :: bs => lastAddr b.addr bs

@[simp] theorem lastAddr_nil : lastAddr prev [] = prev := rfl

@[simp] theorem lastAddr_cons : lastAddr prev (b :: bs) = lastAddr b.addr bs := rfl

theorem lastAddr_append : lastAddr prev (l₁ ++ l₂) = lastAddr (lastAddr prev l₁) l₂ := by
  induction l₁ generalizing prev with
  | nil => rfl
  | cons b l₁ ih => exact ih

/-- From `a`, after the node at `prev`, the nodes `bs` lie back to back
up to `e`. -/
def Seg (p : Pool) : Nat → Nat → List Blk → Nat → Prop
  | _, a, [], e => a = e
  | prev, a, b :: bs, e => b.addr = a ∧ b.Ok ∧ NodeAt p prev b ∧ Seg p a (a + b.size) bs e

@[simp] theorem seg_nil : Seg p prev a [] e ↔ a = e := Iff.rfl

@[simp] theorem seg_cons :
    Seg p prev a (b :: bs) e ↔ b.addr = a ∧ b.Ok ∧ NodeAt p prev b ∧ Seg p a (a + b.size) bs e :=
  Iff.rfl

/-- A segment splits where its list does. -/
theorem seg_append :
    Seg p prev a (l₁ ++ l₂) e ↔ ∃ m, Seg p prev a l₁ m ∧ Seg p (lastAddr prev l₁) m l₂ e := by
  induction l₁ generalizing prev a with
  | nil => simp
  | cons b l₁ ih =>
      simp only [List.cons_append, seg_cons, ih, lastAddr_cons]
      constructor
      · rintro ⟨rfl, hb, hn, m, h₁, h₂⟩
        exact ⟨m, ⟨rfl, hb, hn, h₁⟩, h₂⟩
      · rintro ⟨m, ⟨rfl, hb, hn, h₁⟩, h₂⟩
        exact ⟨rfl, hb, hn, m, h₁, h₂⟩

namespace Seg

theorem le (h : Seg p prev a bs e) : a ≤ e := by
  induction bs generalizing prev a with
  | nil => exact Nat.le_of_eq h
  | cons b bs ih =>
      obtain ⟨-, -, -, hs⟩ := h
      exact Nat.le_trans (Nat.le_add_right a b.size) (ih hs)

theorem ok (h : Seg p prev a bs e) (hb : b ∈ bs) : b.Ok := by
  induction bs generalizing prev a with
  | nil => simp at hb
  | cons c bs ih =>
      obtain ⟨-, hc, -, hs⟩ := h
      rcases List.mem_cons.1 hb with rfl | hb
      · exact hc
      · exact ih hs hb

/-- Every node lies inside the segment. -/
theorem bounds (h : Seg p prev a bs e) (hb : b ∈ bs) : a ≤ b.addr ∧ b.addr + b.size ≤ e := by
  induction bs generalizing prev a with
  | nil => simp at hb
  | cons c bs ih =>
      obtain ⟨rfl, -, -, hs⟩ := h
      rcases List.mem_cons.1 hb with rfl | hb
      · exact ⟨le_rfl, hs.le⟩
      · have := ih hs hb
        exact ⟨by omega, this.2⟩

/-- The nodes are in address order, each ending before the next starts. -/
theorem sorted (h : Seg p prev a bs e) : bs.Pairwise fun b c => b.addr + b.size ≤ c.addr := by
  induction bs generalizing prev a with
  | nil => exact List.Pairwise.nil
  | cons b bs ih =>
      obtain ⟨rfl, -, -, hs⟩ := h
      exact List.pairwise_cons.2 ⟨fun c hc => (hs.bounds hc).1, ih hs⟩

/-- The segment reads only the heads of its nodes. -/
theorem congr (h : Seg p prev a bs e) (hs : ∀ b ∈ bs, HeadSame p p' b.addr) : Seg p' prev a bs e := by
  induction bs generalizing prev a with
  | nil => exact h
  | cons b bs ih =>
      obtain ⟨rfl, hb, hn, hl⟩ := h
      exact ⟨rfl, hb, hn.congr (hs b List.mem_cons_self),
        ih hl fun c hc => hs c (List.mem_cons_of_mem _ hc)⟩

/-- The node after the last ends the segment: the last node's address. -/
theorem lastAddr_eq (h : Seg p prev a bs e) (hne : bs ≠ []) :
    ∃ b ∈ bs, lastAddr prev bs = b.addr ∧ b.addr + b.size = e := by
  induction bs generalizing prev a with
  | nil => exact absurd rfl hne
  | cons b bs ih =>
      obtain ⟨rfl, -, -, hs⟩ := h
      cases bs with
      | nil => exact ⟨b, List.mem_cons_self, rfl, hs⟩
      | cons c bs =>
          obtain ⟨d, hd, h₁, h₂⟩ := ih hs (List.cons_ne_nil c bs)
          exact ⟨d, List.mem_cons_of_mem _ hd, h₁, h₂⟩

end Seg

/-- Of two members of a pairwise-related list, one comes first. -/
private theorem pairwise_rel_or {α : Type} {R : α → α → Prop} {l : List α} (h : l.Pairwise R)
    {x y : α} (hx : x ∈ l) (hy : y ∈ l) (hxy : x ≠ y) : R x y ∨ R y x := by
  induction l with
  | nil => simp at hx
  | cons z l ih =>
      obtain ⟨hz, hl⟩ := List.pairwise_cons.1 h
      rcases List.mem_cons.1 hx with hxz | hx <;> rcases List.mem_cons.1 hy with hyz | hy
      · exact absurd (hxz.trans hyz.symm) hxy
      · exact .inl (hxz ▸ hz y hy)
      · exact .inr (hyz ▸ hz x hx)
      · exact ih hl hx hy

/-- Two distinct nodes do not overlap. -/
theorem Seg.disjoint (h : Seg p prev a bs e) (hb : b ∈ bs) (hc : c ∈ bs) (hbc : b ≠ c) :
    b.addr + b.size ≤ c.addr ∨ c.addr + c.size ≤ b.addr :=
  pairwise_rel_or h.sorted hb hc hbc

/-- A node is the only one at its address. -/
theorem Seg.eq_of_addr (h : Seg p prev a bs e) (hb : b ∈ bs) (hc : c ∈ bs)
    (he : b.addr = c.addr) : b = c := by
  by_contra hbc
  have := (h.ok hb).size_ge
  have := (h.ok hc).size_ge
  rcases h.disjoint hb hc hbc with h' | h' <;> omega

theorem Seg.magic (h : Seg p prev a bs e) (hb : b ∈ bs) : p.get b.addr .magic = OS_MEM_NODE_MAGIC := by
  induction bs generalizing prev a with
  | nil => simp at hb
  | cons c bs ih =>
      obtain ⟨-, -, hn, hs⟩ := h
      rcases List.mem_cons.1 hb with rfl | hb
      · exact hn.magic
      · exact ih hs hb

theorem Seg.word (h : Seg p prev a bs e) (hb : b ∈ bs) : p.get b.addr .sizeAndFlag = b.word := by
  induction bs generalizing prev a with
  | nil => simp at hb
  | cons c bs ih =>
      obtain ⟨-, -, hn, hs⟩ := h
      rcases List.mem_cons.1 hb with rfl | hb
      · exact hn.sizeAndFlag
      · exact ih hs hb

/-- Nodes that start on a word boundary all do. -/
theorem Seg.addr_mod (h : Seg p prev a bs e) (ha : a % 4 = 0) (hb : b ∈ bs) : b.addr % 4 = 0 := by
  induction bs generalizing prev a with
  | nil => simp at hb
  | cons c bs ih =>
      obtain ⟨rfl, hc, -, hs⟩ := h
      rcases List.mem_cons.1 hb with rfl | hb
      · exact ha
      · exact ih hs (by have := hc.size_mod; omega) hb

/-- The node at the start, or the end node when there is none, names
`prev` before it. -/
theorem Seg.ptrPrev_start (h : Seg p prev a bs e) (hend : EndAt p (lastAddr prev bs) e) :
    p.get a .ptrPrev = prev := by
  cases bs with
  | nil => rw [show a = e from h]; exact hend.ptrPrev
  | cons b bs => obtain ⟨rfl, -, hn, -⟩ := h; exact hn.ptrPrev

/-- The word of the node at the start of a segment, or of the end node:
never flagged last, and flagged used unless it is a free node. -/
theorem Seg.start_flags (h : Seg p prev a bs e) (hend : EndAt p (lastAddr prev bs) e) :
    OS_MEM_NODE_GET_LAST_FLAG (p.get a .sizeAndFlag) = 0 ∧
      (OS_MEM_NODE_GET_USED_FLAG (p.get a .sizeAndFlag) = 0 ↔ ∃ c ∈ bs.head?, c.used = false) := by
  cases bs with
  | nil =>
      rw [show a = e from h, hend.sizeAndFlag]
      exact ⟨by decide, by simp only [List.head?_nil, Option.mem_def, reduceCtorEq, false_and,
        exists_false, iff_false]; decide⟩
  | cons c bs =>
      obtain ⟨rfl, hc, hn, -⟩ := h
      rw [hn.sizeAndFlag]
      exact ⟨Blk.GET_LAST_word hc, by simp [Blk.GET_USED_word hc]⟩

/-- The last node of a nonempty list does not depend on what came before. -/
theorem lastAddr_of_ne_nil {q : Nat} (hne : bs ≠ []) : lastAddr prev bs = lastAddr q bs := by
  cases bs with
  | nil => exact absurd rfl hne
  | cons b bs => rfl

/-- The nodes around `b`. -/
theorem Seg.around (h : Seg p prev a (l₁ ++ b :: l₂) e) :
    Seg p prev a l₁ b.addr ∧ b.Ok ∧ NodeAt p (lastAddr prev l₁) b ∧
      Seg p b.addr (b.addr + b.size) l₂ e := by
  obtain ⟨m, h₁, hb, hbo, hn, h₂⟩ := seg_append.1 h
  subst hb
  exact ⟨h₁, hbo, hn, h₂⟩

/-- The segment with its first node, or the end node, naming `q` before
it, every other head as it was. -/
theorem Seg.retarget {q : Nat} (h : Seg p prev a bs e)
    (hs : ∀ d ∈ bs, a + 20 ≤ d.addr → HeadSame p p' d.addr)
    (ha : bs ≠ [] → p'.get a .magic = p.get a .magic ∧ p'.get a .ptrPrev = q ∧
      p'.get a .sizeAndFlag = p.get a .sizeAndFlag) :
    Seg p' q a bs e := by
  cases bs with
  | nil => exact h
  | cons b bs =>
      obtain ⟨rfl, hb, hn, hl⟩ := h
      obtain ⟨hm, hp, hw⟩ := ha (List.cons_ne_nil b bs)
      refine ⟨rfl, hb, ⟨hm.trans hn.magic, hp, hw.trans hn.sizeAndFlag⟩, hl.congr fun d hd => ?_⟩
      have := (hl.bounds hd).1
      have := hb.size_ge
      exact hs d (.tail _ hd) (by omega)

/-- Nodes `ms` from `m` to `m'` take the place of the nodes there: memory
changes only from `m` to `m'` and in the `ptr.prev` of the node at `m'`,
which now names the last of `ms`. -/
theorem Seg.splice {m m' q : Nat} {ms : List Blk} (h₁ : Seg p prev a l₁ m) (h₂ : Seg p q m' l₂ e)
    (hend : EndAt p (lastAddr q l₂) e) (hms : Seg p' (lastAddr prev l₁) m ms m')
    (hmem : ∀ x, x < m ∨ m' ≤ x → x ≠ m' + 4 → p'.mem x = p.mem x)
    (hrel : p'.get m' .ptrPrev = lastAddr prev (l₁ ++ ms)) :
    Seg p' prev a (l₁ ++ ms ++ l₂) e ∧ EndAt p' (lastAddr prev (l₁ ++ ms ++ l₂)) e := by
  have hmm := hms.le
  have hbefore : ∀ d ∈ l₁, HeadSame p p' d.addr := fun d hd => by
    have := h₁.bounds hd
    have := (h₁.ok hd).size_ge
    exact headSame_of_mem fun k hk => hmem _ (.inl (by omega)) (by omega)
  have hafter : ∀ x, m' ≤ x → x ≠ m' + 4 → p'.mem x = p.mem x := fun x hx hne =>
    hmem x (.inr hx) hne
  refine ⟨seg_append.2 ⟨m', seg_append.2 ⟨m, h₁.congr hbefore, hms⟩, ?_⟩, ?_⟩
  · refine h₂.retarget (fun d _ hle => ?_)
      fun _ => ⟨hafter _ (by simp) (by simp), hrel, hafter _ (by simp) (by simp)⟩
    exact headSame_of_mem fun k hk => hafter _ (by omega) (by omega)
  · by_cases hl : l₂ = []
    · subst hl
      have he : m' = e := h₂
      subst he
      rw [List.append_nil]
      exact ⟨(hafter _ (by simp) (by simp)).trans hend.magic, hrel,
        (hafter _ (by simp) (by simp)).trans hend.sizeAndFlag⟩
    · -- the end node lies past the first node after `m'`, untouched
      have hfar : m' + 20 ≤ e := by
        obtain ⟨d, l, rfl⟩ := List.exists_cons_of_ne_nil hl
        obtain ⟨rfl, hd, -, hs⟩ := h₂
        have := hs.le
        have := hd.size_ge
        omega
      rw [lastAddr_append, lastAddr_of_ne_nil hl]
      exact hend.congr (headSame_of_mem fun k hk => hafter _ (by omega) (by omega))

-- ============================================================ the lists

/-- The free lists and their bitmap: list `i` holds the nodes `fl i`,
linked both ways through `next` and `prev`; the bit of a list is set
exactly when it is nonempty; there are no lists past the last. -/
structure FreeLists (p : Pool) (fl : Nat → List Nat) : Prop where
  linked : ∀ i < OS_MEM_FREE_LIST_COUNT,
    DLinkList (p.get · .next) (p.get · .prev) NULL NULL (p.freeList i) (fl i)
  bit : ∀ i < 32 * OS_MEM_BITMAP_WORDS,
    (p.freeListBitmap (i / 32)).testBit (i % 32) = decide (fl i ≠ [])
  word_lt : ∀ w < OS_MEM_BITMAP_WORDS, p.freeListBitmap w < 2 ^ 32
  beyond : ∀ i, OS_MEM_FREE_LIST_COUNT ≤ i → fl i = []

/-- The lists read only the list heads, the bitmap and their nodes' links. -/
theorem FreeLists.congr {fl : Nat → List Nat} (h : FreeLists p fl) (hl : p'.freeList = p.freeList)
    (hb : p'.freeListBitmap = p.freeListBitmap)
    (hlink : ∀ i, ∀ y ∈ fl i, p'.get y .next = p.get y .next ∧ p'.get y .prev = p.get y .prev) :
    FreeLists p' fl where
  linked i hi := by rw [hl]; exact (h.linked i hi).congr (hlink i)
  bit i hi := by rw [hb]; exact h.bit i hi
  word_lt w hw := by rw [hb]; exact h.word_lt w hw
  beyond := h.beyond

/-- The lists hold exactly the free nodes outside `U`, each on the list
of its size. The free nodes in `U` are the ones an operation holds off
the lists while it works on them. -/
def Listed (bs : List Blk) (fl : Nat → List Nat) (U : Set Nat) : Prop :=
  ∀ i x, x ∈ fl i ↔ ∃ b ∈ bs, b.used = false ∧ b.addr = x ∧ x ∉ U ∧ OsMemFreeListIndexGet b.size = i

-- ============================================================ the heap

/-- A pool at `pool` with nodes `bs` and free lists `fl`, the free nodes
in `U` held off the lists: the shape every step of an operation keeps. -/
structure Shape (pool : Nat) (p : Pool) (bs : List Blk) (fl : Nat → List Nat) (U : Set Nat) :
    Prop where
  pool_ne : pool ≠ NULL
  pool_mod : pool % 4 = 0
  size_mod : p.totalSize % 4 = 0
  fits : pool + p.totalSize ≤ 2 ^ 32
  seg : Seg p NULL (OS_MEM_FIRST_NODE pool) bs (OS_MEM_END_NODE pool p.totalSize)
  last : EndAt p (lastAddr NULL bs) (OS_MEM_END_NODE pool p.totalSize)
  lists : FreeLists p fl
  listed : Listed bs fl U

/-- The nodes `mid` give way to `ms`: no two free nodes side by side
still, when `ms` has none and its ends meet used nodes or are used. -/
theorem isChain_splice {R : Blk → Blk → Prop} {mid ms : List Blk} (h : (l₁ ++ mid ++ l₂).IsChain R)
    (hms : ms.IsChain R) (hne : ms ≠ []) (h₁ : ∀ x ∈ l₁.getLast?, ∀ y ∈ ms.head?, R x y)
    (h₂ : ∀ x ∈ ms.getLast?, ∀ y ∈ l₂.head?, R x y) : (l₁ ++ ms ++ l₂).IsChain R := by
  refine (h.left_of_append.left_of_append.append hms h₁).append h.right_of_append ?_
  rwa [List.getLast?_append_of_ne_nil _ hne]

/-- A well-formed pool: every free node on its list, and no two free
nodes side by side. -/
structure Heap (pool : Nat) (p : Pool) (bs : List Blk) (fl : Nat → List Nat) : Prop where
  shape : Shape pool p bs fl ∅
  coalesced : bs.IsChain fun b c => b.used = true ∨ c.used = true

end LiteOsA.Tlsf
