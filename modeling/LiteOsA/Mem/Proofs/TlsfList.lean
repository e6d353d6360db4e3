/-
The free-list operations of the TLSF heap against `FreeLists`.

`OsMemListAdd` pushes a node and `OsMemListDelete` unlinks one; each
spec says what the lists become, what the bitmap becomes, and which
words of memory the call may have written (the links of the list's
nodes and the node's magic word). The specs assume only that the
lists' nodes are spread out (`Spaced`), which `Shape` gives
(`Shape.spaced`): then a write to one node's link is never a read of
another's.

`OsMemFindNextSuitableBlock` returns either `NULL` or the head of a
nonempty list, or a node of the list of its own size
(`OsMemFindNextSuitableBlock_mem`), so `OsMemFreeNodeGet` takes a node
that is on the list it names.
-/
import LiteOsA.Mem.Proofs.TlsfHeap

namespace LiteOsA.Tlsf

variable {p : Pool} {fl : Nat → List Nat} {i node : Nat}

/-- The lists are disjoint and their nodes lie at least 20 bytes apart. -/
def Spaced (fl : Nat → List Nat) : Prop :=
  ∀ i j x y, x ∈ fl i → y ∈ fl j → (i ≠ j ∨ x ≠ y) → x + 20 ≤ y ∨ y + 20 ≤ x

/-- Two nodes of the lists are one node of one list, or far apart. -/
theorem Spaced.far (hsp : Spaced fl) {j k x y : Nat} (hx : x ∈ fl j) (hy : y ∈ fl k) :
    x = y ∧ j = k ∨ x + 20 ≤ y ∨ y + 20 ≤ x := by
  by_cases h : j ≠ k ∨ x ≠ y
  · exact .inr (hsp j k x y hx hy h)
  · simp only [not_or, not_not] at h
    exact .inl ⟨h.2, h.1⟩

/-- A link read off a list node is `NULL`, or a node far from any other. -/
theorem Spaced.far_link (hsp : Spaced fl) {j k x y : Nat} (hx : x ∈ fl j)
    (hy : y = NULL ∨ y ∈ fl k) : y = NULL ∨ x = y ∧ j = k ∨ x + 20 ≤ y ∨ y + 20 ≤ x := by
  rcases hy with h0 | hy
  · exact .inl h0
  · exact .inr (hsp.far hx hy)

-- ============================================================ the bitmap

theorem shiftRight_five (i : Nat) : i >>> 5 = i / 32 := Nat.shiftRight_eq_div_pow i 5

theorem testBit_OsMemSetFreeListBit (i j : Nat) :
    ((OsMemSetFreeListBit p i).freeListBitmap (j / 32)).testBit (j % 32) =
      ((p.freeListBitmap (j / 32)).testBit (j % 32) || decide (j = i)) := by
  simp only [OsMemSetFreeListBit, shiftRight_five, Function.update_apply]
  by_cases hw : j / 32 = i / 32
  · rw [if_pos hw, testBit_LOS_BitmapSet, hw]
    congr 1
    exact decide_eq_decide.2 ⟨fun h => by omega, fun h => by omega⟩
  · rw [if_neg hw, show decide (j = i) = false by simp; omega, Bool.or_false]

theorem testBit_OsMemClearFreeListBit (i j : Nat) :
    ((OsMemClearFreeListBit p i).freeListBitmap (j / 32)).testBit (j % 32) =
      ((p.freeListBitmap (j / 32)).testBit (j % 32) && !decide (j = i)) := by
  simp only [OsMemClearFreeListBit, shiftRight_five, Function.update_apply]
  by_cases hw : j / 32 = i / 32
  · rw [if_pos hw, testBit_LOS_BitmapClr, hw,
      show decide (j % 32 < 32) = true by simp; omega, Bool.and_true]
    congr 2
    exact decide_eq_decide.2 ⟨fun h => by omega, fun h => by omega⟩
  · rw [if_neg hw, show decide (j = i) = false by simp; omega, Bool.not_false, Bool.and_true]

theorem OsMemSetFreeListBit_lt (hw : ∀ w < OS_MEM_BITMAP_WORDS, p.freeListBitmap w < 2 ^ 32)
    (hi : i < OS_MEM_FREE_LIST_COUNT) :
    ∀ w < OS_MEM_BITMAP_WORDS, (OsMemSetFreeListBit p i).freeListBitmap w < 2 ^ 32 := by
  intro w hw'
  simp only [OsMemSetFreeListBit, Function.update_apply]
  split
  · rw [OS_MEM_FREE_LIST_COUNT_eq] at hi
    exact LOS_BitmapSet_lt (hw _ (by rw [shiftRight_five, OS_MEM_BITMAP_WORDS_eq]; omega)) i
  · exact hw w hw'

theorem OsMemClearFreeListBit_lt (hw : ∀ w < OS_MEM_BITMAP_WORDS, p.freeListBitmap w < 2 ^ 32) :
    ∀ w < OS_MEM_BITMAP_WORDS, (OsMemClearFreeListBit p i).freeListBitmap w < 2 ^ 32 := by
  intro w hw'
  simp only [OsMemClearFreeListBit, Function.update_apply]
  split
  · next h => exact lt_of_le_of_lt (LOS_BitmapClr_le _ _) (h ▸ hw w hw')
  · exact hw w hw'

-- ============================================================ push

/-- What `OsMemListAdd` leaves in memory: the node's magic word and
links, and the back link of the old head. -/
theorem OsMemListAdd_mem (x : Nat) :
    (OsMemListAdd p i node).mem x =
      if x = node then OS_MEM_NODE_MAGIC
      else if x = node + 16 then p.freeList i
      else if x = node + 12 then NULL
      else if p.freeList i ≠ NULL ∧ x = p.freeList i + 12 then node
      else p.mem x := by
  unfold OsMemListAdd
  dsimp only
  by_cases hf : p.freeList i = NULL
  · rw [if_neg (not_not.2 hf)]
    simp only [OsMemSetFreeListBit, Pool.set_mem, Field.off, Function.update_apply, Nat.add_zero,
      hf, ne_eq, not_true_eq_false, false_and, if_false]
  · rw [if_pos hf]
    simp only [OsMemSetFreeListBit, Pool.set_mem, Field.off, Function.update_apply, Nat.add_zero,
      hf, ne_eq, not_false_eq_true, true_and]

@[simp] theorem OsMemListAdd_freeList :
    (OsMemListAdd p i node).freeList = Function.update p.freeList i node := by
  unfold OsMemListAdd; dsimp only; split <;> rfl

theorem OsMemListAdd_freeListBitmap :
    (OsMemListAdd p i node).freeListBitmap = (OsMemSetFreeListBit p i).freeListBitmap := by
  unfold OsMemListAdd; dsimp only; split <;> rfl

@[simp] theorem OsMemListAdd_totalSize : (OsMemListAdd p i node).totalSize = p.totalSize := by
  unfold OsMemListAdd; dsimp only; split <;> rfl

@[simp] theorem OsMemListAdd_curUsedSize :
    (OsMemListAdd p i node).curUsedSize = p.curUsedSize := by
  unfold OsMemListAdd; dsimp only; split <;> rfl

@[simp] theorem OsMemListAdd_waterLine : (OsMemListAdd p i node).waterLine = p.waterLine := by
  unfold OsMemListAdd; dsimp only; split <;> rfl

/-- `OsMemListAdd` pushes a node that is on no list and clear of all of
their nodes. -/
theorem OsMemListAdd_spec (hfl : FreeLists p fl) (hsp : Spaced fl)
    (hi : i < OS_MEM_FREE_LIST_COUNT) (hne : node ≠ NULL)
    (hfar : ∀ j y, y ∈ fl j → node + 20 ≤ y ∨ y + 20 ≤ node) :
    FreeLists (OsMemListAdd p i node) (Function.update fl i (node :: fl i)) := by
  have hL := hfl.linked i hi
  -- the old head is `NULL` or a node of the list, clear of `node`
  have hhead : p.freeList i = NULL ∨ p.freeList i ∈ fl i := by
    by_cases hf : p.freeList i = NULL
    · exact .inl hf
    · exact .inr (hL.head_mem hf)
  have hfirst : p.freeList i = NULL ∨ node + 20 ≤ p.freeList i ∨ p.freeList i + 20 ≤ node :=
    hhead.imp_right (hfar i _)
  refine ⟨fun j hj => ?_, fun j hj => ?_, ?_, fun j hj => ?_⟩
  · rw [OsMemListAdd_freeList]
    by_cases hji : j = i
    · subst hji
      rw [Function.update_self, Function.update_self]
      refine hL.push hne ?_ ?_ ?_ fun b hb => ?_
      · show (OsMemListAdd p j node).mem (node + 16) = _
        rw [OsMemListAdd_mem]; split_ifs <;> first | rfl | omega
      · show (OsMemListAdd p j node).mem (node + 12) = _
        rw [OsMemListAdd_mem]; split_ifs <;> first | rfl | omega
      · intro hf
        show (OsMemListAdd p j node).mem (p.freeList j + 12) = _
        rw [OsMemListAdd_mem]; split_ifs <;> first | rfl | omega
      · have hb₁ := hfar j b hb
        have hb₂ := hsp.far_link hb hhead
        refine ⟨?_, fun hbf => ?_⟩
        · show (OsMemListAdd p j node).mem (b + 16) = p.mem (b + 16)
          rw [OsMemListAdd_mem]; split_ifs <;> first | rfl | omega
        · show (OsMemListAdd p j node).mem (b + 12) = p.mem (b + 12)
          rw [OsMemListAdd_mem]; split_ifs <;> first | rfl | omega
    · rw [Function.update_of_ne hji, Function.update_of_ne hji]
      refine (hfl.linked j hj).congr fun b hb => ?_
      have hb₁ := hfar j b hb
      have hb₂ := hsp.far_link hb hhead
      refine ⟨?_, ?_⟩
      · show (OsMemListAdd p i node).mem (b + 16) = p.mem (b + 16)
        rw [OsMemListAdd_mem]; split_ifs <;> first | rfl | omega
      · show (OsMemListAdd p i node).mem (b + 12) = p.mem (b + 12)
        rw [OsMemListAdd_mem]; split_ifs <;> first | rfl | omega
  · rw [OsMemListAdd_freeListBitmap, testBit_OsMemSetFreeListBit, hfl.bit j hj]
    by_cases hji : j = i
    · subst hji; simp
    · simp [hji]
  · rw [OsMemListAdd_freeListBitmap]
    exact OsMemSetFreeListBit_lt hfl.word_lt hi
  · rw [Function.update_of_ne (by omega), hfl.beyond j hj]

/-- Pushing a node clear of all the lists keeps them spread out. -/
theorem Spaced.push (hsp : Spaced fl) (hfar : ∀ j y, y ∈ fl j → node + 20 ≤ y ∨ y + 20 ≤ node) :
    Spaced (Function.update fl i (node :: fl i)) := by
  -- a node of the new lists is the pushed one or a node of the old
  have hmem : ∀ {j z}, z ∈ Function.update fl i (node :: fl i) j → (j = i ∧ z = node) ∨ z ∈ fl j := by
    intro j z hz
    rw [Function.update_apply] at hz
    split_ifs at hz with h
    · subst h
      rcases List.mem_cons.1 hz with rfl | hz
      · exact .inl ⟨rfl, rfl⟩
      · exact .inr hz
    · exact .inr hz
  intro j k x y hx hy hne
  rcases hmem hx with ⟨rfl, rfl⟩ | hx' <;> rcases hmem hy with ⟨rfl, rfl⟩ | hy'
  · simp at hne
  · exact hfar k y hy'
  · have := hfar j x hx'
    omega
  · exact hsp j k x y hx' hy' hne

-- ============================================================ unlink

/-- `OsMemListDelete` of the head, with its reads of `node` taken in `p`. -/
theorem OsMemListDelete_head_eq (hh : node = p.freeList i) :
    OsMemListDelete p i node =
      (if p.get node .next = NULL then
          OsMemClearFreeListBit { p with freeList := Function.update p.freeList i (p.get node .next) } i
        else
          ({ p with freeList := Function.update p.freeList i (p.get node .next) } : Pool).set
            (p.get node .next) .prev NULL).set node .magic OS_MEM_NODE_MAGIC := by
  unfold OsMemListDelete
  dsimp only
  rw [if_pos hh]
  rfl

/-- `OsMemListDelete` of a node behind the head, with its reads of `node`
taken in `p`: the first write, to the `next` of its `prev`, moves neither
of `node`'s links. -/
theorem OsMemListDelete_mid_eq (hh : node ≠ p.freeList i) (hv : node ≠ p.get node .prev + 4) :
    OsMemListDelete p i node =
      (if p.get node .next ≠ NULL then
          (p.set (p.get node .prev) .next (p.get node .next)).set (p.get node .next) .prev
            (p.get node .prev)
        else p.set (p.get node .prev) .next (p.get node .next)).set node .magic
        OS_MEM_NODE_MAGIC := by
  have hnext : (p.set (p.get node .prev) .next (p.get node .next)).get node .next =
      p.get node .next := by
    rw [Pool.get_set]; split <;> rfl
  have hprev : (p.set (p.get node .prev) .next (p.get node .next)).get node .prev =
      p.get node .prev := by
    rw [Pool.get_set, if_neg (by simp only [Field.off]; omega)]
  unfold OsMemListDelete
  dsimp only
  rw [if_neg hh, hnext, hprev]

/-- What `OsMemListDelete` of the head leaves in memory. -/
theorem OsMemListDelete_mem_head (hh : node = p.freeList i) (x : Nat) :
    (OsMemListDelete p i node).mem x =
      if x = node then OS_MEM_NODE_MAGIC
      else if p.get node .next ≠ NULL ∧ x = p.get node .next + 12 then NULL
      else p.mem x := by
  rw [OsMemListDelete_head_eq hh]
  by_cases hn : p.get node .next = NULL
  · rw [if_pos hn]
    simp [OsMemClearFreeListBit, Function.update_apply, hn]
  · rw [if_neg hn]
    simp [Function.update_apply, hn, eq_comm]

/-- What `OsMemListDelete` of a node behind the head leaves in memory. -/
theorem OsMemListDelete_mem_mid (hh : node ≠ p.freeList i) (hv : node ≠ p.get node .prev + 4)
    (x : Nat) :
    (OsMemListDelete p i node).mem x =
      if x = node then OS_MEM_NODE_MAGIC
      else if p.get node .next ≠ NULL ∧ x = p.get node .next + 12 then p.get node .prev
      else if x = p.get node .prev + 16 then p.get node .next
      else p.mem x := by
  rw [OsMemListDelete_mid_eq hh hv]
  by_cases hn : p.get node .next = NULL
  · rw [if_neg (not_not.2 hn)]
    simp [Function.update_apply, hn, eq_comm]
  · rw [if_pos hn]
    simp only [Pool.set_mem, Field.off, Function.update_apply, Nat.add_zero, ne_eq, hn,
      not_false_eq_true, true_and]

@[simp] theorem OsMemListDelete_totalSize :
    (OsMemListDelete p i node).totalSize = p.totalSize := by
  unfold OsMemListDelete; dsimp only; split <;> (try split) <;> rfl

@[simp] theorem OsMemListDelete_curUsedSize :
    (OsMemListDelete p i node).curUsedSize = p.curUsedSize := by
  unfold OsMemListDelete; dsimp only; split <;> (try split) <;> rfl

@[simp] theorem OsMemListDelete_waterLine :
    (OsMemListDelete p i node).waterLine = p.waterLine := by
  unfold OsMemListDelete; dsimp only; split <;> (try split) <;> rfl

theorem OsMemListDelete_freeList_head (hh : node = p.freeList i) :
    (OsMemListDelete p i node).freeList = Function.update p.freeList i (p.get node .next) := by
  rw [OsMemListDelete_head_eq hh]; split <;> rfl

theorem OsMemListDelete_freeList_mid (hh : node ≠ p.freeList i) :
    (OsMemListDelete p i node).freeList = p.freeList := by
  unfold OsMemListDelete; dsimp only; rw [if_neg hh]; split <;> rfl

theorem OsMemListDelete_freeListBitmap_head (hh : node = p.freeList i) :
    (OsMemListDelete p i node).freeListBitmap =
      if p.get node .next = NULL then (OsMemClearFreeListBit p i).freeListBitmap
      else p.freeListBitmap := by
  rw [OsMemListDelete_head_eq hh]; split <;> rfl

theorem OsMemListDelete_freeListBitmap_mid (hh : node ≠ p.freeList i) :
    (OsMemListDelete p i node).freeListBitmap = p.freeListBitmap := by
  unfold OsMemListDelete; dsimp only; rw [if_neg hh]; split <;> rfl

/-- `OsMemListDelete` unlinks a node of list `i`. -/
theorem OsMemListDelete_spec (hfl : FreeLists p fl) (hsp : Spaced fl)
    (hi : i < OS_MEM_FREE_LIST_COUNT) (hn : node ∈ fl i) :
    FreeLists (OsMemListDelete p i node) (Function.update fl i ((fl i).erase node)) := by
  have hL := hfl.linked i hi
  -- the bitmap and the lists past the last are checked the same way in both cases
  have hbeyond : ∀ j, OS_MEM_FREE_LIST_COUNT ≤ j →
      Function.update fl i ((fl i).erase node) j = [] := fun j hj => by
    rw [Function.update_of_ne (by omega), hfl.beyond j hj]
  by_cases hh : node = p.freeList i
  · -- the head: the list goes on from its `next`
    obtain ⟨rest, hrest⟩ : ∃ rest, fl i = node :: rest := by
      cases hfl' : fl i with
      | nil => rw [hfl'] at hn; simp at hn
      | cons a rest => rw [hfl'] at hL; exact ⟨rest, by rw [← hL.1, ← hh]⟩
    have hnd : (node :: rest).Nodup := hrest ▸ hL.nodup
    have hrestL : DLinkList (p.get · .next) (p.get · .prev) NULL node (p.get node .next) rest := by
      rw [hrest] at hL; exact hL.2.2.2
    have hinR : ∀ {b}, b ∈ rest → b ∈ fl i := fun hb => hrest ▸ List.mem_cons_of_mem _ hb
    have hnode : node ∈ fl i := hrest ▸ List.mem_cons_self
    have herase : (fl i).erase node = rest := by rw [hrest, List.erase_cons_head]
    -- the new head, when there is one, is a node of the list
    have hnext : p.get node .next = NULL ∨ p.get node .next ∈ fl i := by
      by_cases h0 : p.get node .next = NULL
      · exact .inl h0
      · exact .inr (hinR (hrestL.head_mem h0))
    have hmem := OsMemListDelete_mem_head (p := p) hh
    refine ⟨fun j hj => ?_, fun j hj => ?_, ?_, hbeyond⟩
    · rw [OsMemListDelete_freeList_head hh]
      by_cases hji : j = i
      · subst hji
        rw [Function.update_self, Function.update_self, herase]
        refine hrestL.retarget (fun hn0 => ?_) fun b hb => ?_
        · have h₁ := hsp.far hnode (hinR (hrestL.head_mem hn0))
          show (OsMemListDelete p j node).mem (p.get node .next + 12) = NULL
          rw [hmem]; split_ifs <;> first | rfl | omega
        · have hbn : b ≠ node := fun e => (List.nodup_cons.1 hnd).1 (e ▸ hb)
          have h₁ := hsp.far (hinR hb) hnode
          have h₂ := hsp.far_link (hinR hb) hnext
          refine ⟨?_, fun hbn' => ?_⟩
          · show (OsMemListDelete p j node).mem (b + 16) = p.mem (b + 16)
            rw [hmem]; split_ifs <;> first | rfl | omega
          · show (OsMemListDelete p j node).mem (b + 12) = p.mem (b + 12)
            rw [hmem]; split_ifs <;> first | rfl | omega
      · rw [Function.update_of_ne hji, Function.update_of_ne hji]
        refine (hfl.linked j hj).congr fun b hb => ?_
        have h₁ := hsp.far hb hnode
        have h₂ := hsp.far_link hb hnext
        refine ⟨?_, ?_⟩
        · show (OsMemListDelete p i node).mem (b + 16) = p.mem (b + 16)
          rw [hmem]; split_ifs <;> first | rfl | omega
        · show (OsMemListDelete p i node).mem (b + 12) = p.mem (b + 12)
          rw [hmem]; split_ifs <;> first | rfl | omega
    · -- the bit of list `i` clears exactly when the list empties
      rw [OsMemListDelete_freeListBitmap_head hh]
      by_cases hji : j = i
      · subst hji
        rw [Function.update_self, herase]
        by_cases h0 : p.get node .next = NULL
        · rw [if_pos h0, testBit_OsMemClearFreeListBit, hrestL.toLinkList.eq_nil_iff.2 h0]
          simp
        · rw [if_neg h0, hfl.bit j hj, hrest]
          have : rest ≠ [] := fun e => h0 (hrestL.toLinkList.eq_nil_iff.1 e)
          simp [this]
      · rw [Function.update_of_ne hji, ← hfl.bit j hj]
        split
        · rw [testBit_OsMemClearFreeListBit]; simp [hji]
        · rfl
    · rw [OsMemListDelete_freeListBitmap_head hh]
      split
      · exact OsMemClearFreeListBit_lt hfl.word_lt
      · exact hfl.word_lt
  · -- behind the head: its `prev` links past it
    have hpv : p.get node .prev ∈ fl i := hL.prev_mem hn hh
    have hv : node ≠ p.get node .prev + 4 := by
      rcases hsp.far hn hpv with ⟨e, -⟩ | h <;> omega
    have hnext : p.get node .next = NULL ∨ p.get node .next ∈ fl i := hL.next_mem hn
    have hmem := OsMemListDelete_mem_mid hh hv
    -- the head stays on the list, so the list stays nonempty
    have hhead : p.freeList i ∈ (fl i).erase node := by
      have hf : p.freeList i ≠ NULL := fun h0 => by
        rw [hL.toLinkList.eq_nil_iff.2 h0] at hn; simp at hn
      exact (List.mem_erase_of_ne (Ne.symm hh)).2 (hL.head_mem hf)
    refine ⟨fun j hj => ?_, fun j hj => ?_, ?_, hbeyond⟩
    · rw [OsMemListDelete_freeList_mid hh]
      by_cases hji : j = i
      · subst hji
        rw [Function.update_self]
        have h₁ := hsp.far hn hpv
        refine hL.unlink hn hh ?_ (fun hn0 => ?_) fun b hb hbn => ⟨fun hbv => ?_, fun hbn' => ?_⟩
        · show (OsMemListDelete p j node).mem (p.get node .prev + 16) = p.get node .next
          have h₂ := hsp.far_link hpv hnext
          rw [hmem]; split_ifs <;> first | rfl | omega
        · have hm := (hnext.resolve_left hn0)
          have h₂ := hsp.far hn hm
          show (OsMemListDelete p j node).mem (p.get node .next + 12) = p.get node .prev
          rw [hmem]; split_ifs <;> first | rfl | omega
        · have h₁ := hsp.far hb hn
          have h₂ := hsp.far hb hpv
          have h₃ := hsp.far_link hb hnext
          show (OsMemListDelete p j node).mem (b + 16) = p.mem (b + 16)
          rw [hmem]; split_ifs <;> first | rfl | omega
        · have h₁ := hsp.far hb hn
          have h₂ := hsp.far hb hpv
          show (OsMemListDelete p j node).mem (b + 12) = p.mem (b + 12)
          rw [hmem]; split_ifs <;> first | rfl | omega
      · rw [Function.update_of_ne hji]
        refine (hfl.linked j hj).congr fun b hb => ?_
        have h₁ := hsp.far hb hn
        have h₂ := hsp.far hb hpv
        have h₃ := hsp.far_link hb hnext
        refine ⟨?_, ?_⟩
        · show (OsMemListDelete p i node).mem (b + 16) = p.mem (b + 16)
          rw [hmem]; split_ifs <;> first | rfl | omega
        · show (OsMemListDelete p i node).mem (b + 12) = p.mem (b + 12)
          rw [hmem]; split_ifs <;> first | rfl | omega
    · rw [OsMemListDelete_freeListBitmap_mid hh, hfl.bit j hj]
      by_cases hji : j = i
      · subst hji
        rw [Function.update_self]
        have h1 : fl j ≠ [] := fun e => by rw [e] at hn; simp at hn
        have h2 : (fl j).erase node ≠ [] := fun e => by rw [e] at hhead; simp at hhead
        simp [h1, h2]
      · rw [Function.update_of_ne hji]
    · rw [OsMemListDelete_freeListBitmap_mid hh]
      exact hfl.word_lt

/-- Unlinking a node keeps the lists spread out. -/
theorem Spaced.erase (hsp : Spaced fl) : Spaced (Function.update fl i ((fl i).erase node)) := by
  have hmem : ∀ {j z}, z ∈ Function.update fl i ((fl i).erase node) j → z ∈ fl j := by
    intro j z hz
    rw [Function.update_apply] at hz
    split_ifs at hz with h
    · subst h; exact List.mem_of_mem_erase hz
    · exact hz
  intro j k x y hx hy hne
  exact hsp j k x y (hmem hx) (hmem hy) hne

/-- `OsMemListDelete` writes only the unlinked node's magic word and the
links of its list. -/
theorem OsMemListDelete_frame (hfl : FreeLists p fl) (hsp : Spaced fl)
    (hi : i < OS_MEM_FREE_LIST_COUNT) (hn : node ∈ fl i) {x : Nat} (hx : x ≠ node)
    (hlink : ∀ y ∈ fl i, x ≠ y + 12 ∧ x ≠ y + 16) :
    (OsMemListDelete p i node).mem x = p.mem x := by
  have hL := hfl.linked i hi
  have hnext : p.get node .next ≠ NULL → p.get node .next ∈ fl i := fun h0 =>
    (hL.next_mem hn).resolve_left h0
  by_cases hh : node = p.freeList i
  · rw [OsMemListDelete_mem_head hh, if_neg hx, if_neg]
    rintro ⟨h0, rfl⟩
    exact (hlink _ (hnext h0)).1 rfl
  · have hpv := hL.prev_mem hn hh
    have hv : node ≠ p.get node .prev + 4 := by
      rcases hsp.far hn hpv with ⟨e, -⟩ | h <;> omega
    rw [OsMemListDelete_mem_mid hh hv, if_neg hx, if_neg, if_neg (hlink _ hpv).2]
    rintro ⟨h0, rfl⟩
    exact (hlink _ (hnext h0)).1 rfl

theorem OsMemListDelete_magic :
    (OsMemListDelete p i node).get node .magic = OS_MEM_NODE_MAGIC := by
  unfold OsMemListDelete; simp

-- ============================================================ search

/-- A set bit of a bitmap word marks a nonempty list. -/
theorem FreeLists.nonempty_of_testBit (hfl : FreeLists p fl) {w k : Nat}
    (hw : w < OS_MEM_BITMAP_WORDS) (hk : k < 32) (hbit : (p.freeListBitmap w).testBit k = true) :
    fl (w * 32 + k) ≠ [] := by
  have h := hfl.bit (w * 32 + k) (by rw [OS_MEM_BITMAP_WORDS_eq] at hw ⊢; omega)
  rw [show (w * 32 + k) / 32 = w by omega, show (w * 32 + k) % 32 = k by omega, hbit] at h
  simpa using h.symm

/-- `OsMemNotEmptyIndexGet` finds a nonempty list at `index` or above. -/
theorem OsMemNotEmptyIndexGet_spec (hfl : FreeLists p fl) {index : Nat}
    (hi : index < OS_MEM_FREE_LIST_COUNT) (h : OsMemNotEmptyIndexGet p index ≠ OS_MEM_FREE_LIST_COUNT) :
    index ≤ OsMemNotEmptyIndexGet p index ∧ fl (OsMemNotEmptyIndexGet p index) ≠ [] := by
  rw [OS_MEM_FREE_LIST_COUNT_eq] at hi
  have hw : index >>> 5 < OS_MEM_BITMAP_WORDS := by
    rw [shiftRight_five, OS_MEM_BITMAP_WORDS_eq]; omega
  have hm : index &&& OS_MEM_BITMAP_MASK = index % 32 := Nat.and_two_pow_sub_one_eq_mod index 5
  have hbase : index &&& ((2 ^ 32 - 1) ^^^ OS_MEM_BITMAP_MASK) = index / 32 * 32 :=
    @and_not_low_bits index 5 (by omega) (by decide)
  unfold OsMemNotEmptyIndexGet at h ⊢
  dsimp only at h ⊢
  rw [hm, Nat.one_shiftLeft] at h ⊢
  split at h
  · next hmask =>
    rw [if_pos hmask, hbase]
    obtain ⟨hk, hbit⟩ := OsMemFFS_spec hmask
      (lt_of_le_of_lt Nat.and_le_left (hfl.word_lt _ hw))
    set k := OsMemFFS (p.freeListBitmap (index >>> 5) &&& ((2 ^ 32 - 1) ^^^ (2 ^ (index % 32) - 1)))
    -- the found bit is a bit of the word, at or above the bit of `index`
    rw [Nat.testBit_and, Nat.testBit_xor, Nat.testBit_two_pow_sub_one,
      Nat.testBit_two_pow_sub_one, Bool.and_eq_true] at hbit
    obtain ⟨hword, hhigh⟩ := hbit
    have hge : index % 32 ≤ k := by
      by_contra hlt
      rw [decide_eq_true hk, decide_eq_true (by omega : k < index % 32)] at hhigh
      exact absurd hhigh (by decide)
    refine ⟨by omega, ?_⟩
    have := hfl.nonempty_of_testBit hw hk hword
    rwa [shiftRight_five, Nat.add_comm] at this
  · exact absurd rfl h

/-- The scan over whole bitmap words finds a nonempty list at or above
the first list of its starting word. -/
theorem OsMemFindNextSuitableBlock.scan_spec (hfl : FreeLists p fl) :
    ∀ fuel index j, index % 32 = 0 → OsMemFindNextSuitableBlock.scan p fuel index = some j →
      index ≤ j ∧ fl j ≠ [] := by
  intro fuel
  induction fuel with
  | zero => intro index j _ h; simp [OsMemFindNextSuitableBlock.scan] at h
  | succ fuel ih =>
      intro index j h32 h
      unfold OsMemFindNextSuitableBlock.scan at h
      split at h
      · next hi =>
        dsimp only at h
        split at h
        · next hmask =>
          rw [OS_MEM_FREE_LIST_COUNT_eq] at hi
          have hw : index >>> 5 < OS_MEM_BITMAP_WORDS := by
            rw [shiftRight_five, OS_MEM_BITMAP_WORDS_eq]; omega
          obtain ⟨hk, hbit⟩ := OsMemFFS_spec hmask (hfl.word_lt _ hw)
          have := hfl.nonempty_of_testBit hw hk hbit
          rw [shiftRight_five, show index / 32 * 32 = index by omega, Nat.add_comm] at this
          cases h
          rw [shiftRight_five]
          exact ⟨by omega, this⟩
        · have := ih (index + 32) j (by omega) h
          exact ⟨by omega, this.2⟩
      · cases h

/-- The walk of `OsMemFindCurSuitableBlock` returns `NULL` or a node of
the list it walks whose word is at least `size`. -/
theorem OsMemFindCurSuitableBlock.loop_spec {size : Nat} :
    ∀ fuel {x : Nat} {l : List Nat}, LinkList (p.get · .next) NULL x l →
      OsMemFindCurSuitableBlock.loop p size fuel x ≠ NULL →
      OsMemFindCurSuitableBlock.loop p size fuel x ∈ l ∧
        size ≤ p.get (OsMemFindCurSuitableBlock.loop p size fuel x) .sizeAndFlag := by
  intro fuel
  induction fuel with
  | zero => intro x l _ h; exact absurd rfl h
  | succ fuel ih =>
      intro x l hl h
      unfold OsMemFindCurSuitableBlock.loop at h ⊢
      by_cases hx : x = NULL
      · simp [hx] at h
      · cases l with
        | nil => exact absurd hl hx
        | cons a l =>
            obtain ⟨rfl, -, hl'⟩ := hl
            rw [if_neg hx] at h ⊢
            by_cases hs : p.get x .sizeAndFlag ≥ size
            · rw [if_pos hs]
              exact ⟨List.mem_cons_self, hs⟩
            · rw [if_neg hs] at h ⊢
              obtain ⟨hm, hle⟩ := ih hl' h
              exact ⟨List.mem_cons_of_mem _ hm, hle⟩

/-- Only a list below the last can be nonempty. -/
theorem FreeLists.lt_of_ne_nil (hfl : FreeLists p fl) {j : Nat} (hj : fl j ≠ []) :
    j < OS_MEM_FREE_LIST_COUNT := by
  by_contra h
  exact hj (hfl.beyond j (Nat.le_of_not_lt h))

/-- The head of a nonempty list is one of its nodes. -/
theorem FreeLists.head_mem (hfl : FreeLists p fl) {j : Nat} (hj : fl j ≠ []) :
    p.freeList j ∈ fl j ∧ p.freeList j ≠ NULL := by
  have hL := hfl.linked j (hfl.lt_of_ne_nil hj)
  have hne : p.freeList j ≠ NULL := fun h0 => hj (hL.toLinkList.eq_nil_iff.2 h0)
  exact ⟨hL.head_mem hne, hne⟩

/-- A nonempty list at `index` or above in the bitmap word of `index`
makes `OsMemNotEmptyIndexGet` find a list. -/
theorem OsMemNotEmptyIndexGet_complete (hfl : FreeLists p fl) {index j : Nat}
    (hi : index < OS_MEM_FREE_LIST_COUNT) (hj : index ≤ j) (hw : j / 32 = index / 32)
    (hne : fl j ≠ []) : OsMemNotEmptyIndexGet p index ≠ OS_MEM_FREE_LIST_COUNT := by
  rw [OS_MEM_FREE_LIST_COUNT_eq] at hi
  have hwd : index >>> 5 < OS_MEM_BITMAP_WORDS := by
    rw [shiftRight_five, OS_MEM_BITMAP_WORDS_eq]; omega
  have hm : index &&& OS_MEM_BITMAP_MASK = index % 32 := Nat.and_two_pow_sub_one_eq_mod index 5
  have hbase : index &&& ((2 ^ 32 - 1) ^^^ OS_MEM_BITMAP_MASK) = index / 32 * 32 :=
    @and_not_low_bits index 5 (by omega) (by decide)
  -- the bit of `j` is set in its word and survives the mask
  have hbit : (p.freeListBitmap (index >>> 5) &&&
      ((2 ^ 32 - 1) ^^^ (2 ^ (index % 32) - 1))).testBit (j % 32) = true := by
    have h := hfl.bit j (by rw [OS_MEM_BITMAP_WORDS_eq]; omega)
    rw [decide_eq_true hne, hw] at h
    rw [Nat.testBit_and, Nat.testBit_xor, Nat.testBit_two_pow_sub_one,
      Nat.testBit_two_pow_sub_one, shiftRight_five, h]
    simp only [Bool.true_and, decide_eq_true (Nat.mod_lt j (by decide : 32 > 0))]
    simp only [Bool.true_bne, Bool.not_eq_eq_eq_not, Bool.not_true, decide_eq_false_iff_not]
    omega
  unfold OsMemNotEmptyIndexGet
  dsimp only
  rw [hm, Nat.one_shiftLeft]
  split
  · next hmask =>
    rw [hbase]
    -- the list found is nonempty, so it is no list past the last
    obtain ⟨hk, hfound⟩ := OsMemFFS_spec hmask
      (lt_of_le_of_lt Nat.and_le_left (hfl.word_lt _ hwd))
    rw [Nat.testBit_and, Bool.and_eq_true] at hfound
    have hlt := hfl.lt_of_ne_nil (hfl.nonempty_of_testBit hwd hk hfound.1)
    have hsh := shiftRight_five index
    rw [OS_MEM_FREE_LIST_COUNT_eq] at hlt ⊢
    omega
  · next hmask =>
    exact absurd (fun h0 => by rw [h0, Nat.zero_testBit] at hbit; exact Bool.false_ne_true hbit)
      hmask

/-- When the scan over whole words finds nothing, every list from its
start on, for as many words as its fuel, is empty. -/
theorem OsMemFindNextSuitableBlock.scan_none (hfl : FreeLists p fl) :
    ∀ fuel index, index % 32 = 0 → OsMemFindNextSuitableBlock.scan p fuel index = none →
      ∀ j, index ≤ j → j < index + 32 * fuel → fl j = [] := by
  intro fuel
  induction fuel with
  | zero => intro index _ _ j hj hj'; omega
  | succ fuel ih =>
      intro index h32 h j hj hj'
      unfold OsMemFindNextSuitableBlock.scan at h
      split at h
      · next hi =>
        dsimp only at h
        split at h
        · cases h
        · next hmask =>
          by_cases hjw : j < index + 32
          · -- a clear word: each of its lists is empty
            rw [OS_MEM_FREE_LIST_COUNT_eq] at hi
            have hb := hfl.bit j (by rw [OS_MEM_BITMAP_WORDS_eq]; omega)
            rw [show j / 32 = index >>> 5 by rw [shiftRight_five]; omega, not_not.1 hmask,
              Nat.zero_testBit] at hb
            simpa using hb.symm
          · exact ih (index + 32) (by omega) h j (by omega) (by omega)
      · next hi => exact hfl.beyond j (by omega)

/-- The lists `OsMemFindNextSuitableBlock` starts from: the first one it
scans, and the one it walks when nothing above is free
(`OS_MEM_FREE_LIST_COUNT` for a small size: it walks none). -/
def searchStart (size : Nat) : Nat × Nat :=
  if size < OS_MEM_SMALL_BUCKET_MAX_SIZE then (OsMemFlGet size, OS_MEM_FREE_LIST_COUNT)
  else
    let curIndex :=
      u32 (u32 (u32Sub (OsMemFlGet size) OS_MEM_LARGE_START_BUCKET <<< OS_MEM_SLI) +
        OsMemSlGet size (OsMemFlGet size) + OS_MEM_SMALL_BUCKET_COUNT)
    (u32 (curIndex + 1), curIndex)

/-- The search of `OsMemFindNextSuitableBlock` from the lists it starts
from. -/
def searchFrom (p : Pool) (size index curIndex : Nat) : Nat × Nat :=
  let tmp := OsMemNotEmptyIndexGet p index
  if tmp ≠ OS_MEM_FREE_LIST_COUNT then (p.freeList tmp, tmp)
  else
    match OsMemFindNextSuitableBlock.scan p OS_MEM_BITMAP_WORDS (LOS_Align (index + 1) 32) with
    | some index => (p.freeList index, index)
    | none =>
        if curIndex = OS_MEM_FREE_LIST_COUNT then (NULL, curIndex)
        else (OsMemFindCurSuitableBlock p curIndex size, curIndex)

theorem OsMemFindNextSuitableBlock_eq (p : Pool) (size : Nat) :
    OsMemFindNextSuitableBlock p size =
      searchFrom p size (searchStart size).1 (searchStart size).2 := rfl

/-- Below `2 ^ 31` the search starts on a list, and walks none or a list. -/
theorem searchStart_lt {size : Nat} (h4 : 4 ≤ size) (hs : size < 2 ^ 31) :
    (searchStart size).1 < OS_MEM_FREE_LIST_COUNT ∧
      ((searchStart size).2 = OS_MEM_FREE_LIST_COUNT ∨
        (searchStart size).2 < OS_MEM_FREE_LIST_COUNT) := by
  unfold searchStart
  by_cases hsmall : size < OS_MEM_SMALL_BUCKET_MAX_SIZE
  · rw [if_pos hsmall, OsMemFlGet_small h4 hsmall, OS_MEM_FREE_LIST_COUNT_eq]
    unfold OS_MEM_SMALL_BUCKET_MAX_SIZE at hsmall
    exact ⟨by dsimp only; omega, .inl rfl⟩
  · have hlt := curIndex_lt (Nat.le_of_not_lt hsmall) hs
    rw [if_neg hsmall, OS_MEM_FREE_LIST_COUNT_eq]
    dsimp only
    rw [u32_of_lt (by omega)]
    omega

/-- A small size starts on its own list and walks none. -/
theorem searchStart_small {s : Nat} (h4 : 4 ≤ s) (hs : s < OS_MEM_SMALL_BUCKET_MAX_SIZE) :
    searchStart s = (OsMemFreeListIndexGet s, OS_MEM_FREE_LIST_COUNT) := by
  rw [searchStart, if_pos hs, OsMemFreeListIndexGet_small h4 hs, OsMemFlGet_small h4 hs]

/-- A large size below `2 ^ 29` starts on the list above its own and
walks its own. -/
theorem searchStart_large {s : Nat} (hs : OS_MEM_SMALL_BUCKET_MAX_SIZE ≤ s) (hs' : s < 2 ^ 29) :
    searchStart s = (OsMemFreeListIndexGet s + 1, OsMemFreeListIndexGet s) := by
  have hlt := OsMemFreeListIndexGet_lt (by unfold OS_MEM_SMALL_BUCKET_MAX_SIZE at hs; omega) hs'
  rw [searchStart, if_neg (Nat.not_lt.2 hs)]
  dsimp only
  rw [curIndex_eq hs hs', u32_of_lt (by rw [OS_MEM_FREE_LIST_COUNT_eq] at hlt; omega)]

/-- What the search does on well-formed lists: it returns the head of a
nonempty list from `index` on; or every list from `index` on is empty
and it walks `curIndex`, if that is a list. -/
theorem searchFrom_cases (hfl : FreeLists p fl) (size : Nat) {index : Nat} (curIndex : Nat)
    (hi : index < OS_MEM_FREE_LIST_COUNT) :
    (∃ j, index ≤ j ∧ fl j ≠ [] ∧ searchFrom p size index curIndex = (p.freeList j, j)) ∨
      ((∀ j, index ≤ j → fl j = []) ∧
        searchFrom p size index curIndex =
          if curIndex = OS_MEM_FREE_LIST_COUNT then (NULL, curIndex)
          else (OsMemFindCurSuitableBlock p curIndex size, curIndex)) := by
  have hstart : LOS_Align (index + 1) 32 = (index / 32 + 1) * 32 := by
    rw [LOS_Align_32 (by rw [OS_MEM_FREE_LIST_COUNT_eq] at hi; omega)]; omega
  unfold searchFrom
  dsimp only
  split
  · -- the rest of the word of `index`
    next htmp =>
    obtain ⟨hle, hne⟩ := OsMemNotEmptyIndexGet_spec hfl hi htmp
    exact .inl ⟨_, hle, hne, rfl⟩
  · next htmp =>
    split
    · -- a later word
      next j hj =>
      obtain ⟨hle, hne⟩ := OsMemFindNextSuitableBlock.scan_spec hfl _ _ j (by omega) hj
      exact .inl ⟨j, by omega, hne, rfl⟩
    · -- nothing from `index` on
      next hnone =>
      refine .inr ⟨fun j hj => ?_, rfl⟩
      by_cases hw : j / 32 = index / 32
      · by_contra hne
        exact htmp (OsMemNotEmptyIndexGet_complete hfl hi hj hw hne)
      · by_cases hjl : j < OS_MEM_FREE_LIST_COUNT
        · rw [OS_MEM_FREE_LIST_COUNT_eq] at hjl
          exact OsMemFindNextSuitableBlock.scan_none hfl _ _ (by omega) hnone j (by omega)
            (by rw [OS_MEM_BITMAP_WORDS_eq]; omega)
        · exact hfl.beyond j (Nat.le_of_not_lt hjl)

/-- `OsMemFindNextSuitableBlock` returns `NULL` or a node of the list it
names. -/
theorem OsMemFindNextSuitableBlock_mem (hfl : FreeLists p fl) {size : Nat} (h4 : 4 ≤ size)
    (hs : size < 2 ^ 31) (hne : (OsMemFindNextSuitableBlock p size).1 ≠ NULL) :
    (OsMemFindNextSuitableBlock p size).2 < OS_MEM_FREE_LIST_COUNT ∧
      (OsMemFindNextSuitableBlock p size).1 ∈ fl (OsMemFindNextSuitableBlock p size).2 := by
  obtain ⟨hidx, hcur⟩ := searchStart_lt h4 hs
  rw [OsMemFindNextSuitableBlock_eq] at hne ⊢
  rcases searchFrom_cases hfl size (searchStart size).2 hidx with
    ⟨j, -, hj, heq⟩ | ⟨-, heq⟩
  · rw [heq]
    exact ⟨hfl.lt_of_ne_nil hj, (hfl.head_mem hj).1⟩
  · rw [heq] at hne ⊢
    rcases hcur with hc | hc
    · rw [if_pos hc] at hne; exact absurd rfl hne
    · rw [if_neg (Nat.ne_of_lt hc)] at hne ⊢
      exact ⟨hc, (OsMemFindCurSuitableBlock.loop_spec _ (hfl.linked _ hc).toLinkList hne).1⟩

/-- `OsMemFreeNodeGet` takes a node off the list it was found on. -/
theorem OsMemFreeNodeGet_spec (hfl : FreeLists p fl) {size : Nat} (h4 : 4 ≤ size)
    (hs : size < 2 ^ 31) (hne : (OsMemFreeNodeGet p size).1 ≠ NULL) :
    ∃ i < OS_MEM_FREE_LIST_COUNT, (OsMemFreeNodeGet p size).1 ∈ fl i ∧
      (OsMemFreeNodeGet p size).2 = OsMemListDelete p i (OsMemFreeNodeGet p size).1 := by
  unfold OsMemFreeNodeGet at hne ⊢
  by_cases h0 : (OsMemFindNextSuitableBlock p size).1 = NULL
  · simp [h0] at hne
  · obtain ⟨hi, hm⟩ := OsMemFindNextSuitableBlock_mem hfl h4 hs h0
    simp only [h0, if_false]
    exact ⟨_, hi, hm, rfl⟩

/-- When no node is found, nothing changes. -/
theorem OsMemFreeNodeGet_null {size : Nat} (h : (OsMemFreeNodeGet p size).1 = NULL) :
    OsMemFreeNodeGet p size = (NULL, p) := by
  unfold OsMemFreeNodeGet at h ⊢
  by_cases h0 : (OsMemFindNextSuitableBlock p size).1 = NULL
  · simp [h0]
  · simp [h0] at h

-- ============================================================ by size

/-- A node whose size has a list goes on that list. -/
theorem OsMemFreeNodeAdd_eq (h4 : 4 ≤ p.get node .sizeAndFlag)
    (hs : p.get node .sizeAndFlag < 2 ^ 29) :
    OsMemFreeNodeAdd p node =
      some (OsMemListAdd p (OsMemFreeListIndexGet (p.get node .sizeAndFlag)) node) := by
  unfold OsMemFreeNodeAdd
  rw [if_neg (Nat.not_le.2 (OsMemFreeListIndexGet_lt h4 hs))]

/-- A node whose size has a list comes off that list. -/
theorem OsMemFreeNodeDelete_eq (h4 : 4 ≤ p.get node .sizeAndFlag)
    (hs : p.get node .sizeAndFlag < 2 ^ 29) :
    OsMemFreeNodeDelete p node =
      some (OsMemListDelete p (OsMemFreeListIndexGet (p.get node .sizeAndFlag)) node) := by
  unfold OsMemFreeNodeDelete
  rw [if_neg (Nat.not_le.2 (OsMemFreeListIndexGet_lt h4 hs))]

end LiteOsA.Tlsf
