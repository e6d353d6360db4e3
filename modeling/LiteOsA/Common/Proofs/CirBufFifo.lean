/-
The circular buffer refines a bounded byte FIFO.

`Fifo cap` is what the buffer is for: a sequence of at most `cap`
bytes, where a write appends as many of its bytes as there is room for
and a read takes the first bytes asked for, each returning the count.

`CirBufOk cb Q` says that `cb` holds the sequence `Q`: both indices lie
in the fifo, `remain` counts the cells not in `Q`, `endIdx` is
`|Q|` cells round the ring from `startIdx`, and the fifo holds `Q`
from `startIdx` on (`RingHolds`). In that state the used bytes either
run from `startIdx` to `endIdx` or wrap past the end of the fifo
(`end_cases`), which is what picks a call's path.

Each path is one lemma, built from one lemma per `memcpy_s`
(`append` for a copy into the free cells, `drop` and `ring_bytes` for a
copy out of the used ones): the linear and the loop write, the linear
and the loop read. `cirbuf_fifo` puts them together by `Run.simulate`:
every run from `LOS_CirBufInit` is matched by a run of `Fifo` through
the same events.
-/
import LiteOsA.Common.CirBuf

namespace LiteOsA.CirBuf

-- ============================================================ the abstract FIFO

/-- A bounded FIFO of at most `cap` bytes. -/
inductive Fifo (cap : Nat) : List UInt8 → Event → List UInt8 → Prop where
  | write (Q bytes : List UInt8) :
      Fifo cap Q (.write bytes (min bytes.length (cap - Q.length)))
        (Q ++ bytes.take (cap - Q.length))
  | read (Q : List UInt8) (size : Nat) :
      Fifo cap Q (.read size (min size Q.length) (Q.take size)) (Q.drop size)

-- ============================================================ caller bytes

section bytes

variable {m : Nat → UInt8} {buf : Nat}

@[simp] theorem bytesAt_length (m : Nat → UInt8) (buf k : Nat) : (bytesAt m buf k).length = k := by
  simp [bytesAt]

@[simp] theorem bytesAt_zero (m : Nat → UInt8) (buf : Nat) : bytesAt m buf 0 = [] := rfl

theorem bytesAt_add (a b : Nat) : bytesAt m buf (a + b) = bytesAt m buf a ++ bytesAt m (buf + a) b := by
  simp [bytesAt, List.range_add, Nat.add_assoc]

theorem bytesAt_take (k n : Nat) : (bytesAt m buf n).take k = bytesAt m buf (min k n) := by
  simp only [bytesAt, ← List.map_take, List.take_range]

theorem bytesAt_congr {m' : Nat → UInt8} {k : Nat} (h : ∀ j, j < k → m' (buf + j) = m (buf + j)) :
    bytesAt m' buf k = bytesAt m buf k :=
  List.map_congr_left fun j hj => h j (List.mem_range.1 hj)

theorem bytesAt_copyBlock (sm : Nat → UInt8) (src k : Nat) :
    bytesAt (copyBlock m buf sm src k) buf k = bytesAt sm src k :=
  List.map_congr_left fun _ hj => copyBlock_add (List.mem_range.1 hj)

end bytes

-- ============================================================ the relation

/-- `cb` holds the byte sequence `Q`. -/
structure CirBufOk (cb : CirBuf) (Q : List UInt8) : Prop where
  size_pos : 0 < cb.size
  start_lt : cb.startIdx < cb.size
  end_lt : cb.endIdx < cb.size
  remain : Q.length + cb.remain = cb.size
  end_eq : (cb.startIdx + Q.length) % cb.size = cb.endIdx
  holds : RingHolds cb.fifo cb.size cb.startIdx Q

variable {cb : CirBuf} {Q : List UInt8}

theorem CirBufOk.init {fifo : Nat → UInt8} {size : Nat} (hsize : 0 < size) :
    CirBufOk (LOS_CirBufInit fifo size).2 [] :=
  ⟨hsize, hsize, hsize, by simp [LOS_CirBufInit], by simp [LOS_CirBufInit], RingHolds.nil⟩

/-- The used bytes run from `startIdx` to `endIdx`, or wrap past the end. -/
theorem CirBufOk.end_cases (h : CirBufOk cb Q) :
    cb.startIdx + Q.length = cb.endIdx ∨ cb.startIdx + Q.length = cb.endIdx + cb.size := by
  have hlt : cb.startIdx + Q.length < cb.size + cb.size := by
    have := h.remain
    have := h.start_lt
    omega
  rw [← h.end_eq]
  by_cases hs : cb.startIdx + Q.length < cb.size
  · exact .inl (Nat.mod_eq_of_lt hs).symm
  · right
    rw [Nat.mod_eq_sub_mod (by omega), Nat.mod_eq_of_lt (by omega)]
    omega

/-- The claim's form of `end_eq`, in integers. -/
theorem CirBufOk.sub_emod (h : CirBufOk cb Q) :
    ((cb.endIdx : Int) - cb.startIdx) % cb.size = Q.length % cb.size := by
  rcases h.end_cases with hQ | hQ
  · rw [show (cb.endIdx : Int) - cb.startIdx = Q.length by omega]
  · rw [show (cb.endIdx : Int) - cb.startIdx = Q.length - cb.size by omega, Int.sub_emod_right]

/-- One copy of `k` bytes into the free cells from `endIdx`, not past
the end of the fifo, appends them; `endIdx` moves on round the ring. -/
theorem CirBufOk.append (h : CirBufOk cb Q) {k : Nat} (hk : k ≤ cb.remain)
    (hend : cb.endIdx + k ≤ cb.size) (m : Nat → UInt8) (buf : Nat) {e : Nat}
    (he : e = (cb.endIdx + k) % cb.size) :
    CirBufOk ⟨cb.startIdx, e, cb.size, cb.remain - k, copyBlock cb.fifo cb.endIdx m buf k⟩
      (Q ++ bytesAt m buf k) := by
  have hrem := h.remain
  refine ⟨h.size_pos, h.start_lt, he ▸ Nat.mod_lt _ h.size_pos, ?_, ?_, ?_⟩
  · simp only [List.length_append, bytesAt_length]
    omega
  · -- `k` cells on from `endIdx`, which is `|Q|` cells on from `startIdx`
    simp only [List.length_append, bytesAt_length, he, ← h.end_eq, Nat.mod_add_mod,
      Nat.add_assoc]
  · have hblock : RingHolds (copyBlock cb.fifo ((cb.startIdx + Q.length) % cb.size) m buf k)
        cb.size cb.startIdx (Q ++ bytesAt m buf k) :=
      h.holds.append_block (by omega) (by rw [h.end_eq]; exact hend) m buf
    rwa [h.end_eq] at hblock

/-- Reading `k` bytes from the front moves `startIdx` on round the ring. -/
theorem CirBufOk.drop (h : CirBufOk cb Q) {k : Nat} (hk : k ≤ Q.length) {st : Nat}
    (hst : st = (cb.startIdx + k) % cb.size) :
    CirBufOk ⟨st, cb.endIdx, cb.size, cb.remain + k, cb.fifo⟩ (Q.drop k) := by
  have hrem := h.remain
  refine ⟨h.size_pos, hst ▸ Nat.mod_lt _ h.size_pos, h.end_lt, ?_, ?_, ?_⟩
  · simp only [List.length_drop]
    omega
  · simp only [List.length_drop, hst, Nat.mod_add_mod, ← h.end_eq]
    congr 1
    omega
  · exact hst ▸ (h.holds.drop k).mod_start

/-- The `k` bytes from `startIdx`, not past the end of the fifo, are the
first `k` of `Q`. -/
theorem CirBufOk.ring_bytes (h : CirBufOk cb Q) {k : Nat} (hk : k ≤ Q.length)
    (hend : cb.startIdx + k ≤ cb.size) : bytesAt cb.fifo cb.startIdx k = Q.take k := by
  apply List.ext_getElem (by simp; omega)
  intro j hj _
  simp only [bytesAt, List.getElem_map, List.getElem_range, List.getElem_take]
  simp only [bytesAt_length] at hj
  have hcell := h.holds j (by omega)
  rwa [Nat.mod_eq_of_lt (by omega)] at hcell

-- ============================================================ writes

variable (m : Nat → UInt8) (buf : Nat)

/-- A linear write into a free run that ends before the end of the fifo. -/
theorem CirBufOk.writeLinear (h : CirBufOk cb Q) (hrun : cb.endIdx + cb.remain < cb.size)
    (size : Nat) :
    (OsCirBufWriteLinear cb m buf size).1 = min size cb.remain ∧
      (OsCirBufWriteLinear cb m buf size).2.size = cb.size ∧
      CirBufOk (OsCirBufWriteLinear cb m buf size).2 (Q ++ bytesAt m buf (min size cb.remain)) := by
  have hcp : (if cb.remain < size then cb.remain else size) = min size cb.remain := by
    split <;> omega
  dsimp only [OsCirBufWriteLinear]
  rw [hcp]
  by_cases h0 : min size cb.remain = 0
  · simpa [h0] using h
  · rw [if_neg h0, memcpy_s_ok (by omega) (Nat.min_le_right _ _)]
    refine ⟨rfl, rfl, h.append (Nat.min_le_right _ _) (by omega) m buf ?_⟩
    exact (Nat.mod_eq_of_lt (by omega)).symm

/-- A loop write, from a buffer that is not full and whose used bytes do
not wrap: fill up to the end of the fifo, then linearly from cell 0. -/
theorem CirBufOk.writeLoop (h : CirBufOk cb Q) (hle : cb.startIdx ≤ cb.endIdx)
    (hfree : 0 < cb.remain) (size : Nat) :
    (OsCirBufWriteLoop cb m buf size).1 = min size cb.remain ∧
      (OsCirBufWriteLoop cb m buf size).2.size = cb.size ∧
      CirBufOk (OsCirBufWriteLoop cb m buf size).2 (Q ++ bytesAt m buf (min size cb.remain)) := by
  have hrem := h.remain
  have hQ : cb.startIdx + Q.length = cb.endIdx := by
    rcases h.end_cases with hQ | hQ
    · exact hQ
    · omega
  have hend := h.end_lt
  dsimp only [OsCirBufWriteLoop]
  rw [memcpy_s_ok (by omega) (by split <;> omega)]
  simp only [ne_eq, not_true_eq_false, if_false]
  -- `k`, the first copy: up to the end of the fifo, or all of `size`
  generalize hk : (if cb.size - cb.endIdx < size then cb.size - cb.endIdx else size) = k
  have hk' : k = min size (cb.size - cb.endIdx) := by
    rw [← hk]
    split <;> omega
  have hwrap : (if cb.endIdx + k = cb.size then 0 else cb.endIdx + k) =
      (cb.endIdx + k) % cb.size := by
    split
    · rename_i hw
      rw [hw, Nat.mod_self]
    · rw [Nat.mod_eq_of_lt (by omega)]
  by_cases hall : k = size
  · -- everything fitted before the end
    have hmin : min size cb.remain = size := by omega
    rw [if_pos hall, hmin]
    refine ⟨rfl, by split <;> rfl, ?_⟩
    rw [← hall]
    split
    · exact h.append (by omega) (by omega) m buf (by rw [← hwrap, if_pos ‹_›])
    · exact h.append (by omega) (by omega) m buf (by rw [← hwrap, if_neg ‹_›])
  · -- the copy reached the end: `endIdx` wraps to 0 and the rest goes linearly
    have hw : cb.endIdx + k = cb.size := by omega
    rw [if_neg hall]
    simp only [hw, if_true]
    have h₁ := h.append (show k ≤ cb.remain by omega) (by omega) m buf
      (show 0 = _ by rw [hw, Nat.mod_self])
    obtain ⟨hret, hsz, hok⟩ := h₁.writeLinear m (buf + k)
      (show 0 + (cb.remain - k) < cb.size by omega) (size - k)
    have hmin : min size cb.remain = k + min (size - k) (cb.remain - k) := by omega
    refine ⟨by rw [hret, hmin], hsz, ?_⟩
    rw [hmin, bytesAt_add, ← List.append_assoc]
    exact hok

/-- `LOS_CirBufWrite` appends the first `min size remain` bytes. -/
theorem CirBufOk.write (h : CirBufOk cb Q) (size : Nat) :
    (LOS_CirBufWrite cb m buf size).1 = min size cb.remain ∧
      (LOS_CirBufWrite cb m buf size).2.size = cb.size ∧
      CirBufOk (LOS_CirBufWrite cb m buf size).2 (Q ++ bytesAt m buf (min size cb.remain)) := by
  unfold LOS_CirBufWrite
  by_cases h0 : size = 0
  · simpa [h0] using h
  by_cases hfull : cb.remain = 0
  · simpa [h0, hfull] using h
  simp only [h0, hfull, if_false]
  split
  · exact h.writeLoop m buf ‹_› (by omega) size
  · -- the free bytes are the one run from `endIdx` to `startIdx`
    have hrem := h.remain
    have hQ : cb.startIdx + Q.length = cb.endIdx + cb.size := by
      rcases h.end_cases with hQ | hQ
      · omega
      · exact hQ
    exact h.writeLinear m buf (by have := h.start_lt; omega) size

-- ============================================================ reads

/-- A linear read of used bytes that do not wrap; the caller's memory
changes at the bytes read only. -/
theorem CirBufOk.readLinear (h : CirBufOk cb Q) (hQ : cb.startIdx + Q.length = cb.endIdx)
    (size : Nat) :
    let r := OsCirBufReadLinear cb m buf size
    r.1 = min size Q.length ∧ r.2.1.size = cb.size ∧ CirBufOk r.2.1 (Q.drop r.1) ∧
      bytesAt r.2.2 buf r.1 = Q.take r.1 ∧ ∀ a, a < buf ∨ buf + r.1 ≤ a → r.2.2 a = m a := by
  have hcp : (if cb.endIdx - cb.startIdx < size then cb.endIdx - cb.startIdx else size) =
      min size Q.length := by
    split <;> omega
  have hend := h.end_lt
  dsimp only [OsCirBufReadLinear]
  rw [hcp]
  by_cases h0 : min size Q.length = 0
  · simpa [h0] using h
  · rw [if_neg h0, memcpy_s_ok (by omega) (Nat.min_le_left _ _)]
    refine ⟨rfl, rfl, h.drop (Nat.min_le_right _ _) (Nat.mod_eq_of_lt (by omega)).symm, ?_, ?_⟩
    · show bytesAt (copyBlock m buf cb.fifo cb.startIdx (min size Q.length)) buf
        (min size Q.length) = _
      rw [bytesAt_copyBlock]
      exact h.ring_bytes (Nat.min_le_right _ _) (by omega)
    · show ∀ a, _ → copyBlock m buf cb.fifo cb.startIdx (min size Q.length) a = m a
      rintro a (ha | ha)
      · exact copyBlock_of_lt ha
      · exact copyBlock_of_le ha

/-- A loop read, from a buffer that is not empty and whose used bytes
wrap or fill it: read up to the end of the fifo, then linearly from
cell 0. -/
theorem CirBufOk.readLoop (h : CirBufOk cb Q) (hge : cb.endIdx ≤ cb.startIdx)
    (hne : 0 < Q.length) {size : Nat} (hsize : 0 < size) :
    let r := OsCirBufReadLoop cb m buf size
    r.1 = min size Q.length ∧ r.2.1.size = cb.size ∧ CirBufOk r.2.1 (Q.drop r.1) ∧
      bytesAt r.2.2 buf r.1 = Q.take r.1 := by
  have hrem := h.remain
  have hQ : cb.startIdx + Q.length = cb.endIdx + cb.size := by
    rcases h.end_cases with hQ | hQ
    · omega
    · exact hQ
  have hstart := h.start_lt
  dsimp only [OsCirBufReadLoop]
  rw [memcpy_s_ok hsize (by split <;> omega)]
  simp only [ne_eq, not_true_eq_false, if_false]
  -- `k`, the first copy: up to the end of the fifo, or all of `size`
  generalize hk : (if cb.size - cb.startIdx < size then cb.size - cb.startIdx else size) = k
  have hk' : k = min size (cb.size - cb.startIdx) := by
    rw [← hk]
    split <;> omega
  have hbytes₁ : bytesAt (copyBlock m buf cb.fifo cb.startIdx k) buf k = Q.take k := by
    rw [bytesAt_copyBlock]
    exact h.ring_bytes (by omega) (by omega)
  by_cases hpart : k < size
  · -- the copy reached the end: `startIdx` wraps to 0 and the rest is read linearly
    have hw : cb.startIdx + k = cb.size := by omega
    simp only [hw, if_true, if_pos hpart]
    have h₁ := h.drop (show k ≤ Q.length by omega) (show 0 = _ by rw [hw, Nat.mod_self])
    obtain ⟨hret, hsz, hok, hbytes, hframe⟩ := h₁.readLinear
      (copyBlock m buf cb.fifo cb.startIdx k) (buf + k)
      (show 0 + (Q.drop k).length = cb.endIdx by simp only [List.length_drop]; omega) (size - k)
    simp only [List.length_drop] at hret
    have hmin : min size Q.length = k + min (size - k) (Q.length - k) := by omega
    refine ⟨by rw [hret, hmin], hsz, by rw [← List.drop_drop]; exact hok, ?_⟩
    rw [hret, bytesAt_add, ← hret, hbytes, List.take_add, ← hbytes₁]
    congr 1
    exact bytesAt_congr fun j hj => hframe _ (.inl (by omega))
  · -- everything asked for was before the end
    have hall : k = size := by omega
    have hmin : min size Q.length = size := by omega
    rw [if_neg hpart]
    refine ⟨by rw [hall, hmin], by split <;> rfl, ?_, hbytes₁⟩
    split
    · exact h.drop (by omega) (by rw [‹cb.startIdx + k = cb.size›, Nat.mod_self])
    · exact h.drop (by omega) (Nat.mod_eq_of_lt (by omega)).symm

/-- `LOS_CirBufRead` takes the first `min size |Q|` bytes and copies
them out. -/
theorem CirBufOk.read (h : CirBufOk cb Q) (size : Nat) :
    let r := LOS_CirBufRead cb m buf size
    r.1 = min size Q.length ∧ r.2.1.size = cb.size ∧ CirBufOk r.2.1 (Q.drop r.1) ∧
      bytesAt r.2.2 buf r.1 = Q.take r.1 := by
  have hrem := h.remain
  unfold LOS_CirBufRead
  by_cases h0 : size = 0
  · simpa [h0] using h
  by_cases hempty : cb.remain = cb.size
  · have hQ : Q.length = 0 := by omega
    simpa [h0, hempty, hQ] using h
  simp only [h0, hempty, if_false]
  split
  · exact h.readLoop m buf ‹_› (by omega) (by omega)
  · -- the used bytes are the one run from `startIdx` to `endIdx`
    have hQ : cb.startIdx + Q.length = cb.endIdx := by
      rcases h.end_cases with hQ | hQ
      · exact hQ
      · have := h.start_lt
        omega
    obtain ⟨hret, hsz, hok, hbytes, -⟩ := h.readLinear m buf hQ size
    exact ⟨hret, hsz, hok, hbytes⟩

-- ============================================================ runs

/-- A call from a state holding `Q` is a step of `Fifo`. -/
theorem CirBufOk.step {e : Event} {cb' : CirBuf} (h : CirBufOk cb Q) (hs : Step cb e cb') :
    ∃ Q', CirBufOk cb' Q' ∧ cb'.size = cb.size ∧ Fifo cb.size Q e Q' := by
  cases hs with
  | write m buf size =>
    obtain ⟨hret, hsz, hok⟩ := h.write m buf size
    refine ⟨_, hok, hsz, ?_⟩
    have hfree : cb.size - Q.length = cb.remain := by have := h.remain; omega
    have hfifo : Fifo cb.size Q _ _ := Fifo.write Q (bytesAt m buf size)
    rw [hret]
    rwa [bytesAt_length, hfree, bytesAt_take, Nat.min_comm cb.remain] at hfifo
  | read m buf size =>
    obtain ⟨hret, hsz, hok, hbytes⟩ := h.read m buf size
    refine ⟨_, hok, hsz, ?_⟩
    rw [hbytes, hret]
    -- taking `min size |Q|` bytes is taking `size` of them
    have htake : Q.take (min size Q.length) = Q.take size := by
      rw [List.take_eq_take_iff]
      omega
    have hdrop : Q.drop (min size Q.length) = Q.drop size := by
      by_cases hle : size ≤ Q.length
      · rw [Nat.min_eq_left hle]
      · rw [Nat.min_eq_right (by omega), List.drop_length, List.drop_eq_nil_of_le (by omega)]
    rw [htake, hdrop]
    exact Fifo.read Q size

/-- The circular buffer refines a bounded byte FIFO: along every run of
writes and reads from `LOS_CirBufInit` with a positive size, the buffer
holds a byte sequence `Q` of `size - remain` bytes, laid out in the fifo
from `startIdx`, with both indices in the fifo and `endIdx - startIdx`
congruent to `|Q|`, and the calls' returns and bytes are those of the
same run of `Fifo size`. -/
theorem cirbuf_fifo {fifo : Nat → UInt8} {size : Nat} {evs : List Event} {cb : CirBuf}
    (hsize : 0 < size) (hrun : Run Step (LOS_CirBufInit fifo size).2 evs cb) :
    ∃ Q : List UInt8, Run (Fifo size) [] evs Q ∧
      Q.length = cb.size - cb.remain ∧ Q.length ≤ cb.size ∧ cb.size = size ∧
      cb.startIdx < cb.size ∧ cb.endIdx < cb.size ∧
      ((cb.endIdx : Int) - cb.startIdx) % cb.size = Q.length % cb.size ∧
      RingHolds cb.fifo cb.size cb.startIdx Q := by
  obtain ⟨Q, ⟨hok, hsz⟩, hfifo⟩ := hrun.simulate (fun _ => True)
    (fun cb Q => CirBufOk cb Q ∧ cb.size = size) (fun _ _ _ _ _ => trivial)
    (fun _ _ _ Q _ ⟨hok, hsz⟩ hs => by
      obtain ⟨Q', hok', hsz', hstep⟩ := hok.step hs
      exact ⟨Q', ⟨hok', hsz'.trans hsz⟩, hsz ▸ hstep⟩)
    trivial ⟨CirBufOk.init hsize, rfl⟩
  have hrem := hok.remain
  exact ⟨Q, hfifo, by omega, by omega, hsz, hok.start_lt, hok.end_lt, hok.sub_emod, hok.holds⟩

/-- A buffer of 4 bytes takes 3, gives back 2 and takes 3 more, the last
two round the end of the fifo: it then holds the 4 bytes left, in order. -/
theorem cirbuf_fifo_wrap :
    let m : Nat → UInt8 := fun a => a.toUInt8
    let evs := [Event.write [1, 2, 3] 3, .read 2 2 [1, 2], .write [4, 5, 6] 3]
    ∃ cb, Run Step (LOS_CirBufInit (fun _ => 0) 4).2 evs cb ∧
      ∃ Q : List UInt8, Run (Fifo 4) [] evs Q ∧ Q.length = cb.size - cb.remain ∧
        cb.startIdx < cb.size ∧ cb.endIdx < cb.size ∧ RingHolds cb.fifo cb.size cb.startIdx Q := by
  intro m evs
  -- the run: the first write from address 1 of `m`, the read into address 0, the second
  -- write from address 4
  let s₀ := (LOS_CirBufInit (fun _ => 0) 4).2
  let s₁ := (LOS_CirBufWrite s₀ m 1 3).2
  have r₀ : Run Step s₀ [] s₀ := .nil
  have r₁ : Run Step s₀ (evs.take 1) s₁ :=
    r₀.snoc (Step.write_ret (show bytesAt m 1 3 = [1, 2, 3] by decide) (by decide))
  have r₂ : Run Step s₀ (evs.take 2) _ :=
    r₁.snoc (Step.read_ret (show (LOS_CirBufRead s₁ m 0 2).1 = 2 by decide) (by decide))
  have r₃ : Run Step s₀ evs _ :=
    r₂.snoc (Step.write_ret (show bytesAt m 4 3 = [4, 5, 6] by decide) (by decide))
  obtain ⟨Q, hfifo, hlen, -, -, hstart, hend, -, hholds⟩ := cirbuf_fifo (by decide) r₃
  exact ⟨_, r₃, Q, hfifo, hlen, hstart, hend, hholds⟩

end LiteOsA.CirBuf
