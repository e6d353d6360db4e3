/-
The checks of the ELF loader (kernel/extended/dynload/src/los_load_elf.c)
on the headers it reads, for the 32-bit ARM build.

# What the model keeps

A header and a program header keep the fields the checks and the size
computation read, as the `UINT16` and `UINT32` values the file gives;
every sum the code forms of them is taken in `UINT32` (`u32`). The file
system is what an `ElfFile` says of one file: whether `stat` succeeds
and what it reports, what `open` returns, and what each read leaves in
its buffer (`none` when it fails). A read that succeeds may be short
(`OsReadELFInfo` fails only on a read of no bytes), and what it leaves
unread is as `LOS_MemAlloc` gave it, so each buffer is any contents:
a header, a table indexed by entry, a name indexed by byte. Each kernel
allocation is a Boolean input, `true` when it succeeds.

# What it leaves out

The fields no check reads (`elfVersion`, the section header fields,
`phyAddr`, `flags`, `align`), the file snapshot of `OsLoadInit`, the
`PRINT_ERR` messages, and the file descriptors' bookkeeping.
-/
import LiteOsA.Vm.Map
import LiteOsA.Fs.FullPath

namespace LiteOsA.Elf

open Vm

-- ============================================================ constants

/-- `LD_SELFMAG`: the bytes of the magic number. -/
def LD_SELFMAG : Nat := 4

/-- `LD_ELFMAG`, `"\177ELF"`. -/
def LD_ELFMAG : List Nat := [0x7f, 0x45, 0x4c, 0x46]

/-- `LD_ET_EXEC`. -/
def LD_ET_EXEC : Nat := 2

/-- `LD_ET_DYN`. -/
def LD_ET_DYN : Nat := 3

/-- `LD_EM_ARM`. -/
def LD_EM_ARM : Nat := 40

/-- `LD_PT_LOAD`. -/
def LD_PT_LOAD : Nat := 1

/-- `LD_PT_INTERP`. -/
def LD_PT_INTERP : Nat := 3

/-- `ELF_PHDR_NUM_MAX` (los_load_elf.h). -/
def ELF_PHDR_NUM_MAX : Nat := 128

/-- `FILE_LENGTH_MAX` (los_load_elf.h). -/
def FILE_LENGTH_MAX : Nat := 0x1000000

/-- `MEM_SIZE_MAX` (los_load_elf.h). -/
def MEM_SIZE_MAX : Nat := 0x1000000

/-- `FILE_PATH_MAX` (los_load_elf.h). -/
def FILE_PATH_MAX : Nat := Fs.PATH_MAX

/-- `FILE_PATH_MIN` (los_load_elf.h). -/
def FILE_PATH_MIN : Nat := 2

/-- `USER_STACK_TOP_MAX` (los_load_elf.h). -/
def USER_STACK_TOP_MAX : Nat := USER_ASPACE_TOP_MAX

/-- `SIZE_MAX` of a 32-bit `size_t`. -/
def SIZE_MAX : Nat := 0xFFFFFFFF

/-- `UINT_MAX`. -/
def UINT_MAX : Nat := 0xFFFFFFFF

/-- `sizeof(LD_ELF_PHDR)`: eight `UINT32` fields. -/
def LD_ELF_PHDR_SIZE : Nat := 32

/-- `ENOENT` (errno.h). -/
def ENOENT : Nat := 2

/-- `EIO` (errno.h). -/
def EIO : Nat := 5

/-- `ENOEXEC` (errno.h). -/
def ENOEXEC : Nat := 8

/-- `ELIBBAD` (errno.h). -/
def ELIBBAD : Nat := 80

-- ============================================================ headers

/-- `LD_ELF_EHDR` (`LDElf32Ehdr`), the fields the loader reads. -/
structure LD_ELF_EHDR where
  elfIdent : List Nat
  elfType : Nat
  elfMachine : Nat
  elfEntry : Nat
  elfPhoff : Nat
  elfPhEntSize : Nat
  elfPhNum : Nat
deriving DecidableEq, Repr

/-- `LD_ELF_PHDR` (`LDElf32Phdr`), the fields the loader reads. -/
structure LD_ELF_PHDR where
  type : Nat
  offset : Nat
  vAddr : Nat
  fileSize : Nat
  memSize : Nat
deriving DecidableEq, Repr

/-- `ELFInfo`: the file's length, its header and its program headers. -/
structure ELFInfo where
  fileLen : Nat
  elfEhdr : LD_ELF_EHDR
  elfPhdr : List LD_ELF_PHDR
deriving DecidableEq, Repr

/-- What the file system gives for one file. -/
structure ElfFile where
  statOk : Bool
  isReg : Bool
  st_size : Nat
  openRet : Int
  ehdrRead : Option LD_ELF_EHDR
  phdrRead : Option (Nat → LD_ELF_PHDR)

-- ============================================================ checks

/-- `OsIsBadUserAddress` (los_load_elf.h). -/
def OsIsBadUserAddress (vaddr : Nat) : Bool := vaddr ≥ USER_STACK_TOP_MAX

/-- `OsGetFileLength`: `none` where it returns `LOS_NOK`. -/
def OsGetFileLength (f : ElfFile) : Option Nat :=
  if !f.statOk then none
  else if !f.isReg then none
  else if f.st_size > FILE_LENGTH_MAX then none
  else some (u32 f.st_size)

/-- `OsVerifyELFEhdr`. -/
def OsVerifyELFEhdr (ehdr : LD_ELF_EHDR) (fileLen : Nat) : Nat :=
  if ehdr.elfIdent.take LD_SELFMAG ≠ LD_ELFMAG then LOS_NOK
  else if ehdr.elfType ≠ LD_ET_EXEC ∧ ehdr.elfType ≠ LD_ET_DYN then LOS_NOK
  else if ehdr.elfMachine ≠ LD_EM_ARM then LOS_NOK
  else if ehdr.elfPhNum > ELF_PHDR_NUM_MAX then LOS_NOK
  else if ehdr.elfPhoff > fileLen then LOS_NOK
  else if OsIsBadUserAddress ehdr.elfEntry then LOS_NOK
  else LOS_OK

/-- `OsVerifyELFPhdr`. -/
def OsVerifyELFPhdr (phdr : LD_ELF_PHDR) : Nat :=
  if phdr.fileSize > FILE_LENGTH_MAX ∨ phdr.offset > FILE_LENGTH_MAX then LOS_NOK
  else if phdr.memSize > MEM_SIZE_MAX then LOS_NOK
  else if OsIsBadUserAddress phdr.vAddr then LOS_NOK
  else LOS_OK

/-- The error of a bad header: `-ENOEXEC` for the program, `-ELIBBAD`
for the interpreter. -/
def badElf (isExecFile : Bool) : Int := if isExecFile then -(ENOEXEC : Int) else -(ELIBBAD : Int)

/-- `OsReadEhdr`. -/
def OsReadEhdr (f : ElfFile) (isExecFile : Bool) : Except Int ELFInfo := do
  let some fileLen := OsGetFileLength f | .error (-(ENOENT : Int))
  if f.openRet < 0 then .error f.openRet
  let some ehdr := f.ehdrRead | .error (-( EIO : Int))
  if OsVerifyELFEhdr ehdr fileLen ≠ LOS_OK then .error (badElf isExecFile)
  return ⟨fileLen, ehdr, []⟩

/-- `OsReadPhdrs`, with the outcome of the table's allocation; the table
holds the `elfPhNum` entries of the buffer the read leaves. -/
def OsReadPhdrs (f : ElfFile) (info : ELFInfo) (allocOk isExecFile : Bool) : Except Int ELFInfo := do
  let elfEhdr := info.elfEhdr
  if elfEhdr.elfPhNum < 1 then .error (badElf isExecFile)
  if elfEhdr.elfPhEntSize ≠ LD_ELF_PHDR_SIZE then .error (badElf isExecFile)
  let size := u32 (LD_ELF_PHDR_SIZE * elfEhdr.elfPhNum)
  if u32 (elfEhdr.elfPhoff + size) > info.fileLen then .error (badElf isExecFile)
  if !allocOk then .error (-(ENOMEM : Int))
  let some table := f.phdrRead | .error (-( EIO : Int))
  return { info with elfPhdr := (List.range elfEhdr.elfPhNum).map table }

/-- `OsReadInterpInfo`, with the outcome of the name's allocation, the
buffer the read of a name leaves (`none` when it fails), and the
interpreter's file: the interpreter's `ELFInfo` when a `PT_INTERP` entry
is taken, `none` when there is none. -/
def OsReadInterpInfo (execInfo : ELFInfo) (nameAllocOk : Bool) (nameRead : LD_ELF_PHDR → Option (Nat → Nat))
    (interp : ElfFile) (interpAllocOk : Bool) : Except Int (Option ELFInfo) := do
  -- the first `PT_INTERP` entry is taken, or the call fails on it
  let some elfPhdr := execInfo.elfPhdr.find? (fun phdr => phdr.type == LD_PT_INTERP) | return none
  if OsVerifyELFPhdr elfPhdr ≠ LOS_OK then .error (-(ENOEXEC : Int))
  if elfPhdr.fileSize > FILE_PATH_MAX ∨ elfPhdr.fileSize < FILE_PATH_MIN ∨
      u32 (elfPhdr.offset + elfPhdr.fileSize) > execInfo.fileLen then .error (-(ENOEXEC : Int))
  if !nameAllocOk then .error (-(ENOMEM : Int))
  let some elfInterpName := nameRead elfPhdr | .error (-( EIO : Int))
  if elfInterpName (elfPhdr.fileSize - 1) ≠ 0 then .error (-(ENOEXEC : Int))
  let interpInfo ← OsReadEhdr interp false
  let interpInfo ← OsReadPhdrs interp interpInfo interpAllocOk false
  return some interpInfo

/-- The loop of `OsGetAllocSize` over the program headers: the least
`vAddr` of a `PT_LOAD` entry with its `offset`, and the greatest end;
`none` where a `PT_LOAD` entry fails its check and the call returns 0. -/
def OsGetAllocSize.loop : List LD_ELF_PHDR → Nat → Nat → Nat → Option (Nat × Nat × Nat)
  | [], addrMin, addrMax, offStart => some (addrMin, addrMax, offStart)
  | elfPhdrTemp :: rest, addrMin, addrMax, offStart =>
    if elfPhdrTemp.type ≠ LD_PT_LOAD then loop rest addrMin addrMax offStart
    else if OsVerifyELFPhdr elfPhdrTemp ≠ LOS_OK then none
    else
      let (addrMin, offStart) :=
        if elfPhdrTemp.vAddr < addrMin then (elfPhdrTemp.vAddr, elfPhdrTemp.offset) else (addrMin, offStart)
      let addrMax := if u32 (elfPhdrTemp.vAddr + elfPhdrTemp.memSize) > addrMax
        then u32 (elfPhdrTemp.vAddr + elfPhdrTemp.memSize) else addrMax
      loop rest addrMin addrMax offStart

/-- `OsGetAllocSize`. -/
def OsGetAllocSize (elfPhdr : List LD_ELF_PHDR) (phdrNum : Nat) : Nat :=
  match OsGetAllocSize.loop (elfPhdr.take phdrNum) SIZE_MAX 0 0 with
  | none => 0
  | some (addrMin, addrMax, offStart) =>
    if OsIsBadUserAddress addrMax || OsIsBadUserAddress addrMin || addrMax < addrMin then 0
    else
      -- `UINTPTR` arithmetic, widened to `UINT64` after
      let size := u32 (u32Sub (ROUNDUP addrMax PAGE_SIZE) (ROUNDDOWN addrMin PAGE_SIZE) +
        ROUNDDOWN offStart PAGE_SIZE)
      if size > UINT_MAX then 0 else size

end LiteOsA.Elf
