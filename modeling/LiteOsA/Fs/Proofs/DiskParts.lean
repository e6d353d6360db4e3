/-
What the partition parsers write, and the EBR walk that does not end.

# The table

Each parser writes `info->part` at an index it bounds: the MBR pass at
its entry's index, below `MAX_PRIMARY_PART_PER_DISK`; the EBR walk at
`MAX_PRIMARY_PART_PER_DISK + ebrCount` while `mbrCount + ebrCount` is
below `MAX_DIVIDE_PART_PER_DISK`; the GPT at `partitionCount` below
`MAX_DIVIDE_PART_PER_DISK`. So `DiskPartitionRecognition` writes only
the entries of the C array (`DiskPartitionRecognition_part`): one lemma
per pass, and the loops by induction on their lists or fuel.

# The walk

The EBR loop goes on while the second entry of the EBR it read has a
type, and counts only EBRs whose first entry has one. An EBR inside
the disk whose first entry is empty and whose second entry has a type
and points back to it is a pass that returns to its own state
(`body_self_loop`), and then no fuel is enough (`loop_cycle`). A disk
of two sectors, an MBR with one extended partition at sector 1 and
such an EBR there, makes `DiskPartitionRecognition` loop for ever
(`ebr_self_loop_never_returns`).
-/
import LiteOsA.Fs.Disk

namespace LiteOsA.Disk

variable {d : BlockDrv} {info : DiskDivideInfo} {i : Nat}

@[simp]
theorem setPart_part_of_ne {j : Nat} {p : PartitionInfo} (h : i ≠ j) :
    (info.setPart j p).part i = info.part i :=
  Function.update_of_ne h _ _

@[simp]
theorem setPart_sector_count {j : Nat} {p : PartitionInfo} :
    (info.setPart j p).sector_count = info.sector_count := rfl

/-- What a parser returned, read back from the option it is in. -/
theorem snd_eq_of_some_eq {α β : Type} {x : α × β} {a : α} {b : β} (h : some x = some (a, b)) :
    x.2 = b :=
  congrArg Prod.snd (Option.some.inj h)

-- =========================================================== the MBR

/-- One entry of the MBR writes only its own index. -/
theorem entry_part {mbr : Nat → UInt8} {acc : Primary} {k : Nat} (hk : i ≠ k) :
    (OsPrimaryPartitionRecognition.entry mbr acc k).info.part i = acc.info.part i := by
  dsimp only [OsPrimaryPartitionRecognition.entry]
  split_ifs <;> simp [hk]

/-- The MBR pass writes only the four primary entries. -/
theorem OsPrimaryPartitionRecognition_part {mbr : Nat → UInt8} (hi : MAX_PRIMARY_PART_PER_DISK ≤ i) :
    (OsPrimaryPartitionRecognition mbr info).info.part i = info.part i := by
  -- the fold over the entries, each of an index below `i`
  unfold OsPrimaryPartitionRecognition
  refine List.foldlRecOn (motive := fun acc : Primary => acc.info.part i = info.part i) _ _ rfl ?_
  intro acc hacc k hk
  have hki : i ≠ k := by
    have := List.mem_range.mp hk
    omega
  rw [entry_part hki, hacc]

-- =========================================================== the EBRs

/-- The table a pass of the EBR loop leaves. -/
def EbrStep.divideInfo : EbrStep → DiskDivideInfo
  | .done _ info => info
  | .more _ _ info => info

@[simp]
theorem next_divideInfo {ebr : Nat → UInt8} {mbrCount ebrCount : Nat} :
    (OsLogicalPartitionRecognition.next ebr mbrCount ebrCount info).divideInfo = info := by
  unfold OsLogicalPartitionRecognition.next
  split_ifs <;> rfl

/-- A pass writes only below the end of the C array: the logical
entries start after the primary ones, and are counted with them. -/
theorem body_part {ea mbrCount off ebrCount : Nat}
    (hi : MAX_DIVIDE_PART_PER_DISK + MAX_PRIMARY_PART_PER_DISK ≤ i) :
    (OsLogicalPartitionRecognition.body d ea mbrCount off ebrCount info).divideInfo.part i = info.part i := by
  unfold OsLogicalPartitionRecognition.body
  split_ifs with hout
  · rfl
  · cases d.read (u32 (ea + off)) with
    | none => rfl
    | some ebr =>
      dsimp only
      split_ifs with hrec
      · rw [next_divideInfo, setPart_part_of_ne (by omega)]
      · rw [next_divideInfo]

/-- The EBR loop writes only below the end of the C array. -/
theorem loop_part {ea mbrCount : Nat} (hi : MAX_DIVIDE_PART_PER_DISK + MAX_PRIMARY_PART_PER_DISK ≤ i) :
    ∀ (fuel off ebrCount : Nat) (info info' : DiskDivideInfo) (ret : Int),
      OsLogicalPartitionRecognition.loop d ea mbrCount fuel off ebrCount info = some (ret, info') →
        info'.part i = info.part i := by
  intro fuel
  induction fuel with
  | zero => intro _ _ _ _ _ h; cases h
  | succ n ih =>
    intro off ebrCount info info' ret h
    have hpart : (OsLogicalPartitionRecognition.body d ea mbrCount off ebrCount info).divideInfo.part i =
        info.part i := body_part hi
    unfold OsLogicalPartitionRecognition.loop at h
    cases hb : OsLogicalPartitionRecognition.body d ea mbrCount off ebrCount info with
    | done r info₁ =>
      rw [hb] at h hpart
      cases h
      exact hpart
    | more off₁ cnt₁ info₁ =>
      rw [hb] at h hpart
      rw [ih _ _ _ _ _ h]
      exact hpart

/-- A pass that reads an EBR inside the disk whose first entry is empty
and whose second entry has a type and points back to it returns to
the state it started from. -/
theorem body_self_loop {ea mbrCount off ebrCount : Nat} {ebr : Nat → UInt8}
    (hin : ea + off < info.sector_count) (hread : d.read (u32 (ea + off)) = some ebr)
    (hfirst : ebr (PAR_OFFSET + PAR_TYPE_OFFSET) = 0)
    (hsecond : ebr (PAR_OFFSET + PAR_TYPE_OFFSET + PAR_TABLE_SIZE) ≠ 0)
    (hback : LD_DWORD_DISK ebr (PAR_OFFSET + PAR_START_OFFSET + PAR_TABLE_SIZE) = off)
    (hroom : mbrCount + ebrCount < MAX_DIVIDE_PART_PER_DISK) :
    OsLogicalPartitionRecognition.body d ea mbrCount off ebrCount info = .more off ebrCount info := by
  unfold OsLogicalPartitionRecognition.body
  rw [if_neg (by omega), hread]
  dsimp only
  rw [if_neg (fun h => h.1 hfirst), OsLogicalPartitionRecognition.next, if_pos ⟨hsecond, hroom⟩, hback]

/-- A pass that returns to its own state: the loop never leaves it, on
any fuel. -/
theorem loop_cycle {ea mbrCount off ebrCount : Nat}
    (h : OsLogicalPartitionRecognition.body d ea mbrCount off ebrCount info = .more off ebrCount info) :
    ∀ fuel, OsLogicalPartitionRecognition.loop d ea mbrCount fuel off ebrCount info = none := by
  intro fuel
  induction fuel with
  | zero => rfl
  | succ n ih =>
    unfold OsLogicalPartitionRecognition.loop
    rw [h]
    exact ih

-- =========================================================== the GPT

/-- A GPT partition is recorded below `MAX_DIVIDE_PART_PER_DISK`. -/
theorem OsGPTPartitionRecognitionSub_part {buf : Nat → UInt8} {cnt s e : Nat}
    (hi : MAX_DIVIDE_PART_PER_DISK ≤ i) :
    (OsGPTPartitionRecognitionSub info buf cnt s e).2.2.part i = info.part i := by
  dsimp only [OsGPTPartitionRecognitionSub]
  split_ifs with hfs htype hfull
  · rfl
  · exact setPart_part_of_ne (by omega)
  · rfl
  · rfl

/-- One sector of the GPT writes only below `MAX_DIVIDE_PART_PER_DISK`. -/
theorem OsGPTPartitionRecognition_loop_part {gpt : Nat → UInt8} (hi : MAX_DIVIDE_PART_PER_DISK ≤ i) :
    ∀ (js : List Nat) (ret : Int) (cnt : Nat) (info : DiskDivideInfo),
      (OsGPTPartitionRecognition.loop d gpt js ret cnt info).2.2.part i = info.part i := by
  intro js
  induction js with
  | nil => intro _ _ _; rfl
  | cons j js ih =>
    intro ret cnt info
    unfold OsGPTPartitionRecognition.loop
    dsimp only
    -- skipped, invalid, out of range, unread: nothing written
    split_ifs
    · exact ih _ _ _
    · rfl
    · rfl
    · split
      · rfl
      · next buf _ =>
        have hsub : (OsGPTPartitionRecognitionSub info buf cnt
            (LD_QWORD_DISK gpt (j * TABLE_SIZE + GPT_PAR_START_OFFSET))
            (LD_QWORD_DISK gpt (j * TABLE_SIZE + GPT_PAR_END_OFFSET))).2.2.part i = info.part i :=
          OsGPTPartitionRecognitionSub_part hi
        generalize OsGPTPartitionRecognitionSub info buf cnt
          (LD_QWORD_DISK gpt (j * TABLE_SIZE + GPT_PAR_START_OFFSET))
          (LD_QWORD_DISK gpt (j * TABLE_SIZE + GPT_PAR_END_OFFSET)) = res at hsub ⊢
        obtain ⟨r, c, info₁⟩ := res
        dsimp only at hsub ⊢
        split_ifs
        · exact hsub
        · rw [ih]
          exact hsub

/-- The GPT writes only below `MAX_DIVIDE_PART_PER_DISK`. -/
theorem DiskGPTPartitionRecognition_part (hi : MAX_DIVIDE_PART_PER_DISK ≤ i) :
    (DiskGPTPartitionRecognition d info).2.part i = info.part i := by
  -- the loop over the sectors of the table
  have hloop : ∀ (is : List Nat) (cnt : Nat) (info : DiskDivideInfo),
      (DiskGPTPartitionRecognition.loop d is cnt info).2.part i = info.part i := by
    intro is
    induction is with
    | nil => intro _ _; rfl
    | cons k ks ih =>
      intro cnt info
      unfold DiskGPTPartitionRecognition.loop
      split
      · rfl
      · next gpt _ =>
        have hsec : (OsGPTPartitionRecognition.loop d gpt (List.range PAR_ENTRY_NUM_PER_SECTOR) VFS_ERROR
            cnt info).2.2.part i = info.part i := OsGPTPartitionRecognition_loop_part hi _ _ _ _
        unfold OsGPTPartitionRecognition
        generalize OsGPTPartitionRecognition.loop d gpt (List.range PAR_ENTRY_NUM_PER_SECTOR)
          VFS_ERROR cnt info = res at hsec ⊢
        obtain ⟨r, c, info₁⟩ := res
        dsimp only at hsec ⊢
        split_ifs
        · exact hsec
        · exact hsec
        · rw [ih]
          exact hsec
  unfold DiskGPTPartitionRecognition
  split
  · rfl
  · exact hloop _ _ _

-- =========================================================== the disk

/-- `DiskPartitionRecognition` writes only the entries of the C array,
`MAX_DIVIDE_PART_PER_DISK + MAX_PRIMARY_PART_PER_DISK` of them, on
every disk. -/
theorem DiskPartitionRecognition_part {fuel : Nat} {ret : Int} {info' : DiskDivideInfo}
    (hi : MAX_DIVIDE_PART_PER_DISK + MAX_PRIMARY_PART_PER_DISK ≤ i)
    (h : DiskPartitionRecognition fuel d info = some (ret, info')) :
    info'.part i = info.part i := by
  have hprim : MAX_PRIMARY_PART_PER_DISK ≤ i := le_trans (Nat.le_add_left _ _) hi
  have hgpt : MAX_DIVIDE_PART_PER_DISK ≤ i := le_trans (Nat.le_add_right _ _) hi
  unfold DiskPartitionRecognition at h
  split at h
  · cases h
    rfl
  · next mbr _ =>
    dsimp only at h
    split_ifs at h with hgptMode hnone hext
    · rw [← snd_eq_of_some_eq h]
      exact DiskGPTPartitionRecognition_part hgpt
    · cases h
      rfl
    · -- the EBR walk, on the table the MBR pass left
      split at h
      · cases h
      · next r info₁ hl =>
        have hwalk := loop_part hi _ _ _ _ _ _ hl
        split_ifs at h <;>
        · cases h
          rw [hwalk, OsPrimaryPartitionRecognition_part hprim]
    · cases h
      exact OsPrimaryPartitionRecognition_part hprim

/-- A disk of four sectors whose MBR has one FAT partition, of sectors
1 and 2. -/
def onePrimary : LosDisk where
  dev := {
    sector_count := 4
    sector_size := 512
    data := fun s o =>
      if s = 0 then
        if o = PARTION_MODE_BTYE then BS_FS_TYPE_FAT
        else if o = PAR_OFFSET + PAR_START_OFFSET then 1
        else if o = PAR_OFFSET + PAR_COUNT_OFFSET then 2
        else if o = BS_SIG55AA then 0x55
        else if o = BS_SIG55AA + 1 then 0xAA
        else 0
      else 0 }
  parts := []

theorem one_primary_part_untouched :
    DiskPartitionRecognition 1 onePrimary.dev ⟨4, 512, fun _ => ⟨0, 0, 0⟩⟩ =
        some (1, (OsPrimaryPartitionRecognition (onePrimary.dev.data 0) ⟨4, 512, fun _ => ⟨0, 0, 0⟩⟩).info) ∧
      (OsPrimaryPartitionRecognition (onePrimary.dev.data 0) ⟨4, 512, fun _ => ⟨0, 0, 0⟩⟩).info.part 20 =
        (⟨4, 512, fun _ => ⟨0, 0, 0⟩⟩ : DiskDivideInfo).part 20 :=
  have h : DiskPartitionRecognition 1 onePrimary.dev ⟨4, 512, fun _ => ⟨0, 0, 0⟩⟩ =
      some (1, (OsPrimaryPartitionRecognition (onePrimary.dev.data 0) ⟨4, 512, fun _ => ⟨0, 0, 0⟩⟩).info) := rfl
  ⟨h, DiskPartitionRecognition_part (le_refl _) h⟩

-- =========================================================== a disk

/-- A disk of two sectors of 512 bytes. Sector 0 is an MBR whose first
entry is an extended partition at sector 1; sector 1 is an EBR whose
first entry is empty and whose second entry has a type and points to
offset 0, to itself. -/
def ebrSelfLoop : BlockDrv where
  sector_count := 2
  sector_size := 512
  data := fun s o =>
    if s = 0 then
      if o = PARTION_MODE_BTYE then EXTENDED_8G
      else if o = PAR_OFFSET + PAR_START_OFFSET then 1
      else if o = BS_SIG55AA then 0x55
      else if o = BS_SIG55AA + 1 then 0xAA
      else 0
    else if o = PAR_OFFSET + PAR_TYPE_OFFSET + PAR_TABLE_SIZE then EXTENDED_8G
    else 0

theorem ebr_self_loop_never_returns (fuel : Nat) :
    DiskPartitionRecognition fuel ebrSelfLoop
      ⟨ebrSelfLoop.sector_count, ebrSelfLoop.sector_size, fun _ => ⟨0, 0, 0⟩⟩ = none := by
  -- sector 0 is an MBR, neither a GPT nor a boot sector
  have hmbr : OsMBRInfoGet ebrSelfLoop = .ok (ebrSelfLoop.data 0) := rfl
  have hmode : ¬ebrSelfLoop.data 0 PARTION_MODE_BTYE = PARTION_MODE_GPT := by decide
  have hebr : ¬OsEBRInfoGet ebrSelfLoop ⟨ebrSelfLoop.sector_count, ebrSelfLoop.sector_size, fun _ => ⟨0, 0, 0⟩⟩
      (ebrSelfLoop.data 0) < 0 := by decide
  -- its one entry is the extended partition at sector 1, and nothing is counted
  have hprim : OsPrimaryPartitionRecognition (ebrSelfLoop.data 0)
      ⟨ebrSelfLoop.sector_count, ebrSelfLoop.sector_size, fun _ => ⟨0, 0, 0⟩⟩ =
      ⟨true, 0, 0, (OsPrimaryPartitionRecognition (ebrSelfLoop.data 0)
        ⟨ebrSelfLoop.sector_count, ebrSelfLoop.sector_size, fun _ => ⟨0, 0, 0⟩⟩).info⟩ := rfl
  have haddr : LD_DWORD_DISK (ebrSelfLoop.data 0) (PAR_OFFSET + PAR_START_OFFSET + 0 * PAR_TABLE_SIZE) = 1 := by
    decide
  -- and the EBR there points back to itself
  have hread : ebrSelfLoop.read (u32 (1 + 0)) = some (ebrSelfLoop.data 1) := rfl
  have hloop : OsLogicalPartitionRecognition.body ebrSelfLoop 1 0 0 0
      (OsPrimaryPartitionRecognition (ebrSelfLoop.data 0)
        ⟨ebrSelfLoop.sector_count, ebrSelfLoop.sector_size, fun _ => ⟨0, 0, 0⟩⟩).info =
      .more 0 0 (OsPrimaryPartitionRecognition (ebrSelfLoop.data 0)
        ⟨ebrSelfLoop.sector_count, ebrSelfLoop.sector_size, fun _ => ⟨0, 0, 0⟩⟩).info :=
    body_self_loop (by decide) hread (by decide) (by decide) (by decide) (by decide)
  unfold DiskPartitionRecognition
  rw [hmbr]
  dsimp only
  rw [if_neg hmode, if_neg hebr, hprim]
  dsimp only
  rw [if_pos rfl, haddr, OsLogicalPartitionRecognition, loop_cycle hloop]

end LiteOsA.Disk
