/-
Bounds that the ELF loader's checks give (los_load_elf.c).

Every sum the loader compares is a `UINT32` sum, and each check is only
as good as that sum is the true one. The limits make it so: a file is
at most `FILE_LENGTH_MAX` long, a table has at most `ELF_PHDR_NUM_MAX`
entries, a segment's offset and sizes are at most `FILE_LENGTH_MAX` and
`MEM_SIZE_MAX`, and an address below `USER_STACK_TOP_MAX`; no sum of
those reaches `2 ^ 32`.

`OsReadEhdr` and `OsReadPhdrs` then leave a table that lies inside the
file (`OsReadPhdrs_table_within`); an accepted `PT_INTERP` entry has its
name inside the file with a NUL as its last byte
(`OsReadInterpInfo_name`). `OsGetAllocSize` scans the program headers
for the least start of a `PT_LOAD` segment, with its offset, and the
greatest end; `LoopSpec` says what the scan has seen, and a non-zero
size is the exact difference of the rounded bounds plus the rounded
offset, whose window from the rounded least start holds every segment
(`OsGetAllocSize_window`).
-/
import LiteOsA.Dynload.LoadElf

namespace LiteOsA.Elf

open Vm

-- ======================================================= page rounding

theorem ROUNDDOWN_page {a : Nat} (ha : a < 2 ^ 32) : ROUNDDOWN a PAGE_SIZE = a / PAGE_SIZE * PAGE_SIZE :=
  @and_not_low_bits a 12 ha (by decide)

theorem ROUNDDOWN_page_le {a : Nat} (ha : a < 2 ^ 32) : ROUNDDOWN a PAGE_SIZE ≤ a := by
  rw [ROUNDDOWN_page ha]
  exact Nat.div_mul_le_self a PAGE_SIZE

/-- Below the top page of `UINT32`, `ROUNDUP` is the next multiple of
the page at or above. -/
theorem ROUNDUP_page {a : Nat} (ha : a + (PAGE_SIZE - 1) < 2 ^ 32) :
    ROUNDUP a PAGE_SIZE = (a + (PAGE_SIZE - 1)) / PAGE_SIZE * PAGE_SIZE := by
  unfold ROUNDUP
  rw [u32_of_lt ha]
  exact @and_not_low_bits _ 12 ha (by decide)

theorem ROUNDUP_page_bounds {a : Nat} (ha : a + (PAGE_SIZE - 1) < 2 ^ 32) :
    a ≤ ROUNDUP a PAGE_SIZE ∧ ROUNDUP a PAGE_SIZE ≤ a + (PAGE_SIZE - 1) := by
  rw [ROUNDUP_page ha]
  simp only [PAGE_SIZE]
  omega

-- ============================================================ checks

theorem OsVerifyELFEhdr_eq_ok {ehdr : LD_ELF_EHDR} {fileLen : Nat} :
    OsVerifyELFEhdr ehdr fileLen = LOS_OK ↔
      ehdr.elfIdent.take LD_SELFMAG = LD_ELFMAG ∧ (ehdr.elfType = LD_ET_EXEC ∨ ehdr.elfType = LD_ET_DYN) ∧
        ehdr.elfMachine = LD_EM_ARM ∧ ehdr.elfPhNum ≤ ELF_PHDR_NUM_MAX ∧ ehdr.elfPhoff ≤ fileLen ∧
        ehdr.elfEntry < USER_STACK_TOP_MAX := by
  unfold OsVerifyELFEhdr OsIsBadUserAddress
  split_ifs <;> simp_all [LOS_OK, LOS_NOK]
  omega

theorem OsVerifyELFPhdr_eq_ok {phdr : LD_ELF_PHDR} :
    OsVerifyELFPhdr phdr = LOS_OK ↔
      phdr.fileSize ≤ FILE_LENGTH_MAX ∧ phdr.offset ≤ FILE_LENGTH_MAX ∧ phdr.memSize ≤ MEM_SIZE_MAX ∧
        phdr.vAddr < USER_STACK_TOP_MAX := by
  unfold OsVerifyELFPhdr OsIsBadUserAddress
  split_ifs <;> simp_all [LOS_OK, LOS_NOK]
  omega

/-- The limits leave room: a user address, a file offset and a page
more stay below `2 ^ 32`. -/
theorem limits_fit : USER_STACK_TOP_MAX + FILE_LENGTH_MAX + PAGE_SIZE < 2 ^ 32 := by decide

/-- A segment that passes `OsVerifyELFPhdr` ends below `2 ^ 32`. -/
theorem OsVerifyELFPhdr_end_lt {phdr : LD_ELF_PHDR} (hv : OsVerifyELFPhdr phdr = LOS_OK) :
    phdr.vAddr + phdr.memSize < 2 ^ 32 := by
  obtain ⟨-, -, hm, ha⟩ := OsVerifyELFPhdr_eq_ok.mp hv
  have := limits_fit
  simp only [MEM_SIZE_MAX, FILE_LENGTH_MAX] at hm this ⊢
  omega

theorem OsGetFileLength_le {f : ElfFile} {fileLen : Nat} (h : OsGetFileLength f = some fileLen) :
    fileLen ≤ FILE_LENGTH_MAX := by
  unfold OsGetFileLength at h
  split_ifs at h with h₁ h₂ h₃
  cases h
  rw [u32_of_lt (by simp only [FILE_LENGTH_MAX] at h₃; omega)]
  exact Nat.le_of_not_lt h₃

-- ======================================================= the headers

/-- What a header that `OsReadEhdr` accepts satisfies. -/
theorem OsReadEhdr_ok {f : ElfFile} {isExecFile : Bool} {info : ELFInfo}
    (h : OsReadEhdr f isExecFile = .ok info) :
    info.fileLen ≤ FILE_LENGTH_MAX ∧ OsVerifyELFEhdr info.elfEhdr info.fileLen = LOS_OK := by
  simp only [OsReadEhdr, bind, Except.bind, pure, Except.pure] at h
  split at h
  · rename_i fileLen hlen
    split_ifs at h
    split at h
    · split_ifs at h with hv
      cases h
      exact ⟨OsGetFileLength_le hlen, not_not.mp hv⟩
    · cases h
  · cases h

/-- `OsReadPhdrs` keeps the length and the header, and what it accepts
passes its `UINT32` comparison. -/
theorem OsReadPhdrs_ok {f : ElfFile} {info info' : ELFInfo} {allocOk isExecFile : Bool}
    (h : OsReadPhdrs f info allocOk isExecFile = .ok info') :
    info'.fileLen = info.fileLen ∧ info'.elfEhdr = info.elfEhdr ∧
      u32 (info.elfEhdr.elfPhoff + u32 (LD_ELF_PHDR_SIZE * info.elfEhdr.elfPhNum)) ≤ info.fileLen := by
  simp only [OsReadPhdrs, bind, Except.bind, pure, Except.pure] at h
  split_ifs at h with h₁ h₂ h₃
  split at h
  · cases h
    exact ⟨rfl, rfl, Nat.le_of_not_lt h₃⟩
  · cases h

/-- The table that `OsReadEhdr` and `OsReadPhdrs` accept lies inside the
file, as numbers: neither `UINT32` sum of the check can wrap. -/
theorem OsReadPhdrs_table_within {f : ElfFile} {info info' : ELFInfo} {allocOk isExecFile : Bool}
    (he : OsReadEhdr f isExecFile = .ok info) (hp : OsReadPhdrs f info allocOk isExecFile = .ok info') :
    info'.elfEhdr.elfPhoff + info'.elfEhdr.elfPhNum * LD_ELF_PHDR_SIZE ≤ info'.fileLen := by
  obtain ⟨hlen, hv⟩ := OsReadEhdr_ok he
  obtain ⟨hfl, heh, hsum⟩ := OsReadPhdrs_ok hp
  obtain ⟨-, -, -, hnum, hoff, -⟩ := OsVerifyELFEhdr_eq_ok.mp hv
  simp only [ELF_PHDR_NUM_MAX, FILE_LENGTH_MAX, LD_ELF_PHDR_SIZE] at hlen hnum hsum ⊢
  have hsize : 32 * info.elfEhdr.elfPhNum < 2 ^ 32 := by omega
  rw [u32_of_lt hsize, u32_of_lt (by omega)] at hsum
  rw [hfl, heh]
  omega

/-- A `PT_INTERP` entry that `OsReadInterpInfo` takes lies inside the
file, as numbers, and its name ends in a NUL inside the entry. -/
theorem OsReadInterpInfo_name {execInfo interpInfo : ELFInfo} {nameAllocOk interpAllocOk : Bool}
    {nameRead : LD_ELF_PHDR → Option (Nat → Nat)} {interp : ElfFile}
    (h : OsReadInterpInfo execInfo nameAllocOk nameRead interp interpAllocOk = .ok (some interpInfo)) :
    ∃ elfPhdr name, execInfo.elfPhdr.find? (fun phdr => phdr.type == LD_PT_INTERP) = some elfPhdr ∧
      elfPhdr.offset + elfPhdr.fileSize ≤ execInfo.fileLen ∧
      FILE_PATH_MIN ≤ elfPhdr.fileSize ∧ elfPhdr.fileSize ≤ FILE_PATH_MAX ∧
      nameRead elfPhdr = some name ∧ name (elfPhdr.fileSize - 1) = 0 := by
  simp only [OsReadInterpInfo, bind, Except.bind, pure, Except.pure] at h
  split at h
  · rename_i elfPhdr hfind
    split_ifs at h with hv hsize
    split at h
    · rename_i name hname
      split_ifs at h with hnul
      obtain ⟨-, hoff, -, -⟩ := OsVerifyELFPhdr_eq_ok.mp (not_not.mp hv)
      simp only [not_or, not_lt, FILE_PATH_MAX, FILE_PATH_MIN, Fs.PATH_MAX] at hsize
      simp only [FILE_LENGTH_MAX] at hoff
      -- the offset and the name's size are small: their `UINT32` sum is the sum
      rw [u32_of_lt (by omega)] at hsize
      exact ⟨elfPhdr, name, hfind, hsize.2.2, hsize.2.1, hsize.1, hname, not_not.mp hnul⟩
    · cases h
  · cases h

-- ======================================================= the load size

/-- What the scan of `OsGetAllocSize` has seen of the entries `l`, from
the bounds `a`, `e` and offset `o`, when it ends at `r`: `r.1` is at most
`a` and at most every `PT_LOAD` start, and it is `a` or the start of a
`PT_LOAD` entry whose offset is `r.2.2`; `r.2.1` is at least `e` and at
least every `PT_LOAD` end; and every `PT_LOAD` entry passed its check. -/
structure LoopSpec (l : List LD_ELF_PHDR) (a e o : Nat) (r : Nat × Nat × Nat) : Prop where
  min_le : r.1 ≤ a
  le_max : e ≤ r.2.1
  covers : ∀ p ∈ l, p.type = LD_PT_LOAD →
    OsVerifyELFPhdr p = LOS_OK ∧ r.1 ≤ p.vAddr ∧ p.vAddr + p.memSize ≤ r.2.1
  least : (r.1 = a ∧ r.2.2 = o) ∨ ∃ q ∈ l, q.type = LD_PT_LOAD ∧ q.vAddr = r.1 ∧ q.offset = r.2.2

theorem LoopSpec.nil {a e o : Nat} : LoopSpec [] a e o (a, e, o) :=
  ⟨le_rfl, le_rfl, by simp, Or.inl ⟨rfl, rfl⟩⟩

theorem LoopSpec.skip {p : LD_ELF_PHDR} {l : List LD_ELF_PHDR} {a e o : Nat} {r : Nat × Nat × Nat}
    (hp : p.type ≠ LD_PT_LOAD) (h : LoopSpec l a e o r) : LoopSpec (p :: l) a e o r where
  min_le := h.min_le
  le_max := h.le_max
  covers q hq hload := by
    rcases List.mem_cons.mp hq with rfl | hq
    · exact absurd hload hp
    · exact h.covers q hq hload
  least := by
    rcases h.least with h' | ⟨q, hq, h'⟩
    · exact Or.inl h'
    · exact Or.inr ⟨q, List.mem_cons_of_mem p hq, h'⟩

theorem LoopSpec.load {p : LD_ELF_PHDR} {l : List LD_ELF_PHDR} {a e o : Nat} {r : Nat × Nat × Nat}
    (hp : p.type = LD_PT_LOAD) (hv : OsVerifyELFPhdr p = LOS_OK)
    (h : LoopSpec l (if p.vAddr < a then p.vAddr else a) (max e (p.vAddr + p.memSize))
      (if p.vAddr < a then p.offset else o) r) : LoopSpec (p :: l) a e o r where
  min_le := le_trans h.min_le (by split_ifs <;> omega)
  le_max := le_trans (le_max_left _ _) h.le_max
  covers q hq hload := by
    rcases List.mem_cons.mp hq with rfl | hq
    · refine ⟨hv, le_trans h.min_le (by split_ifs <;> omega), le_trans (le_max_right _ _) h.le_max⟩
    · exact h.covers q hq hload
  least := by
    rcases h.least with ⟨h₁, h₂⟩ | ⟨q, hq, h'⟩
    · -- the bounds came in with `p`, or were there before it
      by_cases hlt : p.vAddr < a
      · simp only [hlt, if_true] at h₁ h₂
        exact Or.inr ⟨p, List.mem_cons_self, hp, h₁.symm, h₂.symm⟩
      · simp only [hlt, if_false] at h₁ h₂
        exact Or.inl ⟨h₁, h₂⟩
    · exact Or.inr ⟨q, List.mem_cons_of_mem p hq, h'⟩

theorem OsGetAllocSize.loop_skip {p : LD_ELF_PHDR} {l : List LD_ELF_PHDR} {a e o : Nat}
    (hp : p.type ≠ LD_PT_LOAD) : OsGetAllocSize.loop (p :: l) a e o = OsGetAllocSize.loop l a e o := by
  simp [OsGetAllocSize.loop, hp]

/-- A `PT_LOAD` entry that passes its check moves the bounds, its end
taken without wrap. -/
theorem OsGetAllocSize.loop_load {p : LD_ELF_PHDR} {l : List LD_ELF_PHDR} {a e o : Nat}
    (hp : p.type = LD_PT_LOAD) (hv : OsVerifyELFPhdr p = LOS_OK) :
    OsGetAllocSize.loop (p :: l) a e o =
      OsGetAllocSize.loop l (if p.vAddr < a then p.vAddr else a) (max e (p.vAddr + p.memSize))
        (if p.vAddr < a then p.offset else o) := by
  rw [OsGetAllocSize.loop]
  simp only [hp, hv, ne_eq, not_true, if_false, u32_of_lt (OsVerifyELFPhdr_end_lt hv)]
  have hmax : (if p.vAddr + p.memSize > e then p.vAddr + p.memSize else e) = max e (p.vAddr + p.memSize) := by
    split_ifs <;> omega
  rw [hmax]
  split_ifs <;> rfl

theorem OsGetAllocSize.loop_spec :
    ∀ {l : List LD_ELF_PHDR} {a e o : Nat} {r : Nat × Nat × Nat},
      OsGetAllocSize.loop l a e o = some r → LoopSpec l a e o r
  | [], a, e, o, r, h => by
    cases h
    exact LoopSpec.nil
  | p :: l, a, e, o, r, h => by
    by_cases hp : p.type = LD_PT_LOAD
    · by_cases hv : OsVerifyELFPhdr p = LOS_OK
      · rw [OsGetAllocSize.loop_load hp hv] at h
        exact (OsGetAllocSize.loop_spec h).load hp hv
      · simp [OsGetAllocSize.loop, hp, hv] at h
    · rw [OsGetAllocSize.loop_skip hp] at h
      exact (OsGetAllocSize.loop_spec h).skip hp

/-- A non-zero size comes from a scan that found a start and an end in
the user space, the start not after the end. -/
theorem OsGetAllocSize_ne_zero {elfPhdr : List LD_ELF_PHDR} {phdrNum : Nat}
    (hS : OsGetAllocSize elfPhdr phdrNum ≠ 0) :
    ∃ a e o, OsGetAllocSize.loop (elfPhdr.take phdrNum) SIZE_MAX 0 0 = some (a, e, o) ∧
      a < USER_STACK_TOP_MAX ∧ e < USER_STACK_TOP_MAX ∧ a ≤ e ∧
      OsGetAllocSize elfPhdr phdrNum =
        u32 (u32Sub (ROUNDUP e PAGE_SIZE) (ROUNDDOWN a PAGE_SIZE) + ROUNDDOWN o PAGE_SIZE) := by
  cases hl : OsGetAllocSize.loop (elfPhdr.take phdrNum) SIZE_MAX 0 0 with
  | none => simp [OsGetAllocSize, hl] at hS
  | some r =>
    obtain ⟨a, e, o⟩ := r
    simp only [OsGetAllocSize, hl] at hS ⊢
    split_ifs at hS ⊢ with hbad hbig
    · exact absurd rfl hS
    · exact absurd rfl hS
    · simp only [OsIsBadUserAddress, Bool.or_eq_true, decide_eq_true_eq, not_or, not_le] at hbad
      exact ⟨a, e, o, rfl, hbad.1.2, hbad.1.1, Nat.le_of_not_lt hbad.2, rfl⟩

/-- A non-zero size of `OsGetAllocSize` is, as a number, the rounded end
less the rounded least start plus the rounded offset of the entry at
that start; the window of that size from the rounded least start holds
every `PT_LOAD` segment, and every segment ends in the user space. -/
theorem OsGetAllocSize_window {elfPhdr : List LD_ELF_PHDR} {phdrNum : Nat}
    (hS : OsGetAllocSize elfPhdr phdrNum ≠ 0) :
    ∃ q ∈ elfPhdr.take phdrNum, q.type = LD_PT_LOAD ∧
      (∀ p ∈ elfPhdr.take phdrNum, p.type = LD_PT_LOAD → q.vAddr ≤ p.vAddr) ∧
      ∃ addrMax < USER_STACK_TOP_MAX,
        ROUNDDOWN q.vAddr PAGE_SIZE ≤ ROUNDUP addrMax PAGE_SIZE ∧
        OsGetAllocSize elfPhdr phdrNum =
          ROUNDUP addrMax PAGE_SIZE - ROUNDDOWN q.vAddr PAGE_SIZE + ROUNDDOWN q.offset PAGE_SIZE ∧
        ∀ p ∈ elfPhdr.take phdrNum, p.type = LD_PT_LOAD →
          ROUNDDOWN q.vAddr PAGE_SIZE ≤ p.vAddr ∧ p.vAddr + p.memSize ≤ addrMax ∧
          p.vAddr + p.memSize ≤ ROUNDDOWN q.vAddr PAGE_SIZE + OsGetAllocSize elfPhdr phdrNum := by
  obtain ⟨a, e, o, hl, ha, he, hae, hsize⟩ := OsGetAllocSize_ne_zero hS
  have hspec := OsGetAllocSize.loop_spec hl
  -- the least start is a `PT_LOAD` entry's, since `SIZE_MAX` is no user address
  obtain ⟨q, hq, hload, rfl, rfl⟩ :
      ∃ q ∈ elfPhdr.take phdrNum, q.type = LD_PT_LOAD ∧ q.vAddr = a ∧ q.offset = o := by
    rcases hspec.least with ⟨h₁, -⟩ | h
    · have h₁ : a = SIZE_MAX := h₁
      exact absurd ha (by rw [h₁]; decide)
    · exact h
  obtain ⟨-, hoff, -, -⟩ := OsVerifyELFPhdr_eq_ok.mp (hspec.covers q hq hload).1
  have hfit := limits_fit
  have hdown := ROUNDDOWN_page_le (show q.vAddr < 2 ^ 32 by omega)
  have hup := ROUNDUP_page_bounds (show e + (PAGE_SIZE - 1) < 2 ^ 32 by omega)
  have hoff' := ROUNDDOWN_page_le (show q.offset < 2 ^ 32 by omega)
  -- no step of the size's `UINTPTR` arithmetic wraps
  rw [u32Sub_of_le (by omega) (by omega), u32_of_lt (by omega)] at hsize
  refine ⟨q, hq, hload, fun p hp hpl => (hspec.covers p hp hpl).2.1, e, he, by omega, hsize,
    fun p hp hpl => ?_⟩
  obtain ⟨-, h₁, h₂⟩ := hspec.covers p hp hpl
  dsimp only at h₁ h₂
  exact ⟨by omega, h₂, by omega⟩

-- ======================================================= the loader's bounds

theorem elf_checks_bound_accesses :
    (∀ (f : ElfFile) (allocOk isExecFile : Bool) (info info' : ELFInfo),
      OsReadEhdr f isExecFile = .ok info → OsReadPhdrs f info allocOk isExecFile = .ok info' →
        info'.elfEhdr.elfPhoff + info'.elfEhdr.elfPhNum * LD_ELF_PHDR_SIZE ≤ info'.fileLen) ∧
    (∀ (execInfo interpInfo : ELFInfo) (nameAllocOk interpAllocOk : Bool)
      (nameRead : LD_ELF_PHDR → Option (Nat → Nat)) (interp : ElfFile),
      OsReadInterpInfo execInfo nameAllocOk nameRead interp interpAllocOk = .ok (some interpInfo) →
        ∃ elfPhdr name, execInfo.elfPhdr.find? (fun phdr => phdr.type == LD_PT_INTERP) = some elfPhdr ∧
          elfPhdr.offset + elfPhdr.fileSize ≤ execInfo.fileLen ∧
          FILE_PATH_MIN ≤ elfPhdr.fileSize ∧ elfPhdr.fileSize ≤ FILE_PATH_MAX ∧
          nameRead elfPhdr = some name ∧ name (elfPhdr.fileSize - 1) = 0) ∧
    (∀ (elfPhdr : List LD_ELF_PHDR) (phdrNum : Nat), OsGetAllocSize elfPhdr phdrNum ≠ 0 →
      ∃ q ∈ elfPhdr.take phdrNum, q.type = LD_PT_LOAD ∧
        (∀ p ∈ elfPhdr.take phdrNum, p.type = LD_PT_LOAD → q.vAddr ≤ p.vAddr) ∧
        ∃ addrMax < USER_STACK_TOP_MAX,
          ROUNDDOWN q.vAddr PAGE_SIZE ≤ ROUNDUP addrMax PAGE_SIZE ∧
          OsGetAllocSize elfPhdr phdrNum =
            ROUNDUP addrMax PAGE_SIZE - ROUNDDOWN q.vAddr PAGE_SIZE + ROUNDDOWN q.offset PAGE_SIZE ∧
          ∀ p ∈ elfPhdr.take phdrNum, p.type = LD_PT_LOAD →
            ROUNDDOWN q.vAddr PAGE_SIZE ≤ p.vAddr ∧ p.vAddr + p.memSize ≤ addrMax ∧
            p.vAddr + p.memSize ≤ ROUNDDOWN q.vAddr PAGE_SIZE + OsGetAllocSize elfPhdr phdrNum) :=
  ⟨fun _ _ _ _ _ he hp => OsReadPhdrs_table_within he hp,
    fun _ _ _ _ _ _ h => OsReadInterpInfo_name h,
    fun _ _ hS => OsGetAllocSize_window hS⟩

/-- A program of two program headers, a `PT_INTERP` entry naming
`/lib/libc.so` and one `PT_LOAD` segment of three pages. -/
def sampleExec : ElfFile where
  statOk := true
  isReg := true
  st_size := 0x2000
  openRet := 3
  ehdrRead := some ⟨[0x7f, 0x45, 0x4c, 0x46, 1, 1, 1], LD_ET_DYN, LD_EM_ARM, 0x100, 52, 32, 2⟩
  phdrRead := some fun i => if i = 0 then ⟨LD_PT_INTERP, 116, 0, 13, 13⟩ else ⟨LD_PT_LOAD, 0, 0, 0x2000, 0x3000⟩

/-- The interpreter: one `PT_LOAD` segment of a page. -/
def sampleInterp : ElfFile where
  statOk := true
  isReg := true
  st_size := 0x1000
  openRet := 4
  ehdrRead := some ⟨[0x7f, 0x45, 0x4c, 0x46, 1, 1, 1], LD_ET_DYN, LD_EM_ARM, 0x200, 52, 32, 1⟩
  phdrRead := some fun _ => ⟨LD_PT_LOAD, 0, 0, 0x1000, 0x1000⟩

theorem elf_checks_bound_accesses_libc :
    ∃ info info' interpInfo, OsReadEhdr sampleExec true = .ok info ∧
      OsReadPhdrs sampleExec info true true = .ok info' ∧
      info'.elfEhdr.elfPhoff + info'.elfEhdr.elfPhNum * LD_ELF_PHDR_SIZE ≤ info'.fileLen ∧
      OsReadInterpInfo info' true (fun _ => some fun i => if i = 12 then 0 else 0x61) sampleInterp true =
        .ok (some interpInfo) ∧
      OsGetAllocSize info'.elfPhdr 2 = 0x3000 := by
  refine ⟨_, _, _, rfl, rfl, elf_checks_bound_accesses.1 sampleExec true true _ _ rfl rfl, rfl, ?_⟩
  decide

end LiteOsA.Elf
