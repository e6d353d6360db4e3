/-
Partition tables (fs/vfs/disk/disk.c): `DiskPartitionRecognition`,
which reads the MBR and the EBR chain or the GPT of a disk into a
`disk_divide_info`, and `DiskPartitionRegister`, which adds a partition
to the disk for each entry found.

# What the model keeps

A disk image is its sector count and size and the bytes of every
sector, and the block driver's read returns a sector of the image, or
fails past its end (`BlockDrv.read`). A buffer is the bytes it holds
(`Nat → UInt8`): the code clears a buffer before each read and reads
whole sectors, so what a parser sees is the sector last read. The
fields of the tables are read as the macros of disk.h read them, little
endian, and the `CHAR` type bytes are compared as the bytes they are.

The loop of `OsLogicalPartitionRecognition` follows pointers on the
disk and has no bound of its own, so it is run on fuel: `none` means
the fuel ran out, and a run that returns on some fuel is the C loop's.

# What it leaves out

The allocation of the buffers (it succeeds), the checks of `blkDrv` and
its operations (they are set), and of a disk what `DiskAddPart` does
besides its range check: the device node it registers for a partition
and the `los_part` it fills in. A partition of the disk is its range.
-/
import LiteOsA.Base

namespace LiteOsA.Disk

-- ============================================================ constants

/-- `MAX_DIVIDE_PART_PER_DISK`. -/
def MAX_DIVIDE_PART_PER_DISK : Nat := 16

/-- `MAX_PRIMARY_PART_PER_DISK`. -/
def MAX_PRIMARY_PART_PER_DISK : Nat := 4

/-- `PAR_OFFSET`: the MBR's partition table. -/
def PAR_OFFSET : Nat := 446

/-- `BS_SIG55AA`. -/
def BS_SIG55AA : Nat := 510

/-- `BS_FILSYSTEMTYPE32`. -/
def BS_FILSYSTEMTYPE32 : Nat := 82

/-- `BS_JMPBOOT`. -/
def BS_JMPBOOT : Nat := 0

/-- `BS_FILSYSTYPE`. -/
def BS_FILSYSTYPE : Nat := 0x36

/-- `BS_SIG55AA_VALUE`. -/
def BS_SIG55AA_VALUE : Nat := 0xAA55

/-- `PAR_TYPE_OFFSET`. -/
def PAR_TYPE_OFFSET : Nat := 4

/-- `PAR_START_OFFSET`. -/
def PAR_START_OFFSET : Nat := 8

/-- `PAR_COUNT_OFFSET`. -/
def PAR_COUNT_OFFSET : Nat := 12

/-- `PAR_TABLE_SIZE`. -/
def PAR_TABLE_SIZE : Nat := 16

/-- `EXTENDED_PAR`. -/
def EXTENDED_PAR : UInt8 := 0x0F

/-- `EXTENDED_8G`. -/
def EXTENDED_8G : UInt8 := 0x05

/-- `BS_FS_TYPE_MASK`. -/
def BS_FS_TYPE_MASK : Nat := 0xFFFFFF

/-- `BS_FS_TYPE_VALUE`: "FAT". -/
def BS_FS_TYPE_VALUE : Nat := 0x544146

/-- `BS_FS_TYPE_FAT`. -/
def BS_FS_TYPE_FAT : UInt8 := 0x0B

/-- `BS_FS_TYPE_NTFS`. -/
def BS_FS_TYPE_NTFS : UInt8 := 0x07

/-- `PARTION_MODE_BTYE`: the first entry's type byte. -/
def PARTION_MODE_BTYE : Nat := PAR_OFFSET + PAR_TYPE_OFFSET

/-- `PARTION_MODE_GPT`. -/
def PARTION_MODE_GPT : UInt8 := 0xEE

/-- `SIGNATURE_OFFSET`. -/
def SIGNATURE_OFFSET : Nat := 0

/-- `HEADER_SIZE_OFFSET`. -/
def HEADER_SIZE_OFFSET : Nat := 12

/-- `TABLE_NUM_OFFSET`. -/
def TABLE_NUM_OFFSET : Nat := 80

/-- `TABLE_START_SECTOR`. -/
def TABLE_START_SECTOR : Nat := 2

/-- `TABLE_MAX_NUM`. -/
def TABLE_MAX_NUM : Nat := 128

/-- `TABLE_SIZE`: the size of a GPT entry. -/
def TABLE_SIZE : Nat := 128

/-- `GPT_PAR_START_OFFSET`. -/
def GPT_PAR_START_OFFSET : Nat := 32

/-- `GPT_PAR_END_OFFSET`. -/
def GPT_PAR_END_OFFSET : Nat := 40

/-- `PAR_ENTRY_NUM_PER_SECTOR`. -/
def PAR_ENTRY_NUM_PER_SECTOR : Nat := 4

/-- `HEADER_SIZE_MASK`. -/
def HEADER_SIZE_MASK : Nat := 0xFFFFFFFF

/-- `HEADER_SIZE`. -/
def HEADER_SIZE : Nat := 0x5C

/-- `HARD_DISK_GUID_OFFSET`. -/
def HARD_DISK_GUID_OFFSET : Nat := 56

/-- `HARD_DISK_GUID_FOR_ESP`. -/
def HARD_DISK_GUID_FOR_ESP : Nat := 0x0020004900460045

/-- `HARD_DISK_GUID_FOR_MSP`. -/
def HARD_DISK_GUID_FOR_MSP : Nat := 0x007200630069004D

/-- `ENOERR`. -/
def ENOERR : Int := 0

/-- `VFS_ERROR`. -/
def VFS_ERROR : Int := -1

/-- `EIO`. -/
def EIO : Int := 5

-- ================================================================ bytes

/-- `LD_WORD_DISK(&b[o])`. -/
def LD_WORD_DISK (b : Nat → UInt8) (o : Nat) : Nat :=
  (b (o + 1)).toNat <<< 8 ||| (b o).toNat

/-- `LD_DWORD_DISK(&b[o])`. -/
def LD_DWORD_DISK (b : Nat → UInt8) (o : Nat) : Nat :=
  (b (o + 3)).toNat <<< 24 ||| (b (o + 2)).toNat <<< 16 ||| (b (o + 1)).toNat <<< 8 ||| (b o).toNat

/-- `LD_QWORD_DISK(&b[o])`. -/
def LD_QWORD_DISK (b : Nat → UInt8) (o : Nat) : Nat :=
  LD_DWORD_DISK b (o + 4) <<< 32 ||| LD_DWORD_DISK b o

/-- `strncmp(&b[o], s, strlen(s)) == 0`, for a string `s` without a
zero byte. -/
def strncmp_eq (b : Nat → UInt8) (o : Nat) : List UInt8 → Bool
  | [] => true
  | c :: cs => b o == c && strncmp_eq b (o + 1) cs

/-- "FAT". -/
def fatString : List UInt8 := [0x46, 0x41, 0x54]

/-- "\xEB\x52\x90" "NTFS    ", the NTFS boot entry. -/
def ntfsString : List UInt8 := [0xEB, 0x52, 0x90, 0x4E, 0x54, 0x46, 0x53, 0x20, 0x20, 0x20, 0x20]

/-- "EFI PART". -/
def gptSignature : List UInt8 := [0x45, 0x46, 0x49, 0x20, 0x50, 0x41, 0x52, 0x54]

/-- `VERIFY_FS`: a FAT or NTFS boot sector. -/
def VERIFY_FS (b : Nat → UInt8) : Bool :=
  LD_DWORD_DISK b BS_FILSYSTEMTYPE32 &&& BS_FS_TYPE_MASK == BS_FS_TYPE_VALUE ||
    strncmp_eq b BS_FILSYSTYPE fatString || strncmp_eq b BS_JMPBOOT ntfsString

/-- `VERIFY_GPT`: the GPT header. -/
def VERIFY_GPT (b : Nat → UInt8) : Bool :=
  strncmp_eq b SIGNATURE_OFFSET gptSignature &&
    LD_DWORD_DISK b HEADER_SIZE_OFFSET &&& HEADER_SIZE_MASK == HEADER_SIZE

/-- `VERITY_PAR_VALID(&b[o])`: the four words of the type GUID do not
add up to zero, on `UINT32`s. -/
def VERITY_PAR_VALID (b : Nat → UInt8) (o : Nat) : Bool :=
  u32 (LD_DWORD_DISK b o + LD_DWORD_DISK b (o + 4) + LD_DWORD_DISK b (o + 8) + LD_DWORD_DISK b (o + 12)) != 0

/-- `VERITY_AVAILABLE_PAR(&b[o])`: neither an EFI system nor a
Microsoft reserved partition. -/
def VERITY_AVAILABLE_PAR (b : Nat → UInt8) (o : Nat) : Bool :=
  LD_QWORD_DISK b (o + HARD_DISK_GUID_OFFSET) != HARD_DISK_GUID_FOR_ESP &&
    LD_QWORD_DISK b (o + HARD_DISK_GUID_OFFSET) != HARD_DISK_GUID_FOR_MSP

/-- `GPTPartitionTypeRecognition`. -/
def GPTPartitionTypeRecognition (b : Nat → UInt8) : UInt8 :=
  if LD_DWORD_DISK b BS_FILSYSTEMTYPE32 &&& BS_FS_TYPE_MASK == BS_FS_TYPE_VALUE ||
      strncmp_eq b BS_FILSYSTYPE fatString then BS_FS_TYPE_FAT
  else if strncmp_eq b BS_JMPBOOT ntfsString then BS_FS_TYPE_NTFS
  else 0

-- ======================================================= disk and table

/-- A disk image behind a block driver. -/
structure BlockDrv where
  sector_count : Nat
  sector_size : Nat
  data : Nat → Nat → UInt8

/-- `bops->read(blkDrv, buf, start, 1)`: one sector, or a failure past
the end of the disk. -/
def BlockDrv.read (d : BlockDrv) (start : Nat) : Option (Nat → UInt8) :=
  if start < d.sector_count then some (d.data start) else none

/-- `struct partition_info`. -/
structure PartitionInfo where
  type : UInt8
  sector_start : Nat
  sector_count : Nat
  deriving DecidableEq, Repr

/-- `struct disk_divide_info`, with `part` over every index: the C array
has `MAX_DIVIDE_PART_PER_DISK + MAX_PRIMARY_PART_PER_DISK` entries. -/
structure DiskDivideInfo where
  sector_count : Nat
  sector_size : Nat
  part : Nat → PartitionInfo

/-- `info->part[i] = p`. -/
def DiskDivideInfo.setPart (info : DiskDivideInfo) (i : Nat) (p : PartitionInfo) : DiskDivideInfo :=
  { info with part := Function.update info.part i p }

-- ================================================================= MBR

/-- `OsMBRInfoGet`: sector 0, with the boot signature. -/
def OsMBRInfoGet (d : BlockDrv) : Except Int (Nat → UInt8) :=
  match d.read 0 with
  | none => .error (- EIO)
  | some mbr => if LD_WORD_DISK mbr BS_SIG55AA ≠ BS_SIG55AA_VALUE then .error VFS_ERROR else .ok mbr

/-- `OsEBRInfoGet`: a sector 0 that is a boot sector (no partition
table) needs a boot sector where its first entry points. -/
def OsEBRInfoGet (d : BlockDrv) (info : DiskDivideInfo) (mbr : Nat → UInt8) : Int :=
  if VERIFY_FS mbr then
    if info.sector_count ≤ LD_DWORD_DISK mbr (PAR_OFFSET + PAR_START_OFFSET) then VFS_ERROR
    else
      match d.read (LD_DWORD_DISK mbr (PAR_OFFSET + PAR_START_OFFSET)) with
      | none => - EIO
      | some ebr => if !VERIFY_FS ebr then - EIO else ENOERR
  else ENOERR

/-- What `OsPrimaryPartitionRecognition` leaves: its result, the
`extendedPos` and `mbrCount` it writes back, and the table. -/
structure Primary where
  extendedFlag : Bool
  extendedPos : Nat
  mbrCount : Nat
  info : DiskDivideInfo

/-- Entry `i` of the MBR's table: recorded if its type is not zero, and
counted unless it is an extended partition. -/
def OsPrimaryPartitionRecognition.entry (mbr : Nat → UInt8) (acc : Primary) (i : Nat) : Primary :=
  let mbrPartitionType := mbr (PAR_OFFSET + PAR_TYPE_OFFSET + i * PAR_TABLE_SIZE)
  if mbrPartitionType ≠ 0 then
    let info := acc.info.setPart i
      ⟨mbrPartitionType, LD_DWORD_DISK mbr (PAR_OFFSET + PAR_START_OFFSET + i * PAR_TABLE_SIZE),
        LD_DWORD_DISK mbr (PAR_OFFSET + PAR_COUNT_OFFSET + i * PAR_TABLE_SIZE)⟩
    if mbrPartitionType = EXTENDED_PAR ∨ mbrPartitionType = EXTENDED_8G then
      { acc with extendedFlag := true, extendedPos := i, info := info }
    else { acc with mbrCount := acc.mbrCount + 1, info := info }
  else acc

/-- `OsPrimaryPartitionRecognition`, with the caller's `extendedPos = 0`. -/
def OsPrimaryPartitionRecognition (mbr : Nat → UInt8) (info : DiskDivideInfo) : Primary :=
  (List.range MAX_PRIMARY_PART_PER_DISK).foldl (OsPrimaryPartitionRecognition.entry mbr)
    ⟨false, 0, 0, info⟩

-- ================================================================= EBR

/-- Where one pass of the EBR loop leads: out of the loop with a result,
or on to the next EBR with the offset and count it read. -/
inductive EbrStep where
  | done (ret : Int) (info : DiskDivideInfo)
  | more (extendedOffset ebrCount : Nat) (info : DiskDivideInfo)

/-- The end of a pass of the EBR loop: on to the EBR the second entry
points to while that entry has a type and there is room. -/
def OsLogicalPartitionRecognition.next (ebr : Nat → UInt8) (mbrCount ebrCount : Nat)
    (info : DiskDivideInfo) : EbrStep :=
  if ebr (PAR_OFFSET + PAR_TYPE_OFFSET + PAR_TABLE_SIZE) ≠ 0 ∧ mbrCount + ebrCount < MAX_DIVIDE_PART_PER_DISK then
    .more (LD_DWORD_DISK ebr (PAR_OFFSET + PAR_START_OFFSET + PAR_TABLE_SIZE)) ebrCount info
  else .done ebrCount info

/-- One pass of the loop of `OsLogicalPartitionRecognition`. The range
check adds on `UINT64`s, the read and the recorded start on `UINT32`s. -/
def OsLogicalPartitionRecognition.body (d : BlockDrv) (extendedAddress mbrCount : Nat)
    (extendedOffset ebrCount : Nat) (info : DiskDivideInfo) : EbrStep :=
  if extendedAddress + extendedOffset ≥ info.sector_count then .done ebrCount info
  else
    match d.read (u32 (extendedAddress + extendedOffset)) with
    | none => .done (- EIO) info
    | some ebr =>
      let ebrPartitionType := ebr (PAR_OFFSET + PAR_TYPE_OFFSET)
      if ebrPartitionType ≠ 0 ∧ mbrCount + ebrCount < MAX_DIVIDE_PART_PER_DISK then
        OsLogicalPartitionRecognition.next ebr mbrCount (ebrCount + 1)
          (info.setPart (MAX_PRIMARY_PART_PER_DISK + ebrCount)
            ⟨ebrPartitionType,
              u32 (extendedAddress + extendedOffset + LD_DWORD_DISK ebr (PAR_OFFSET + PAR_START_OFFSET)),
              LD_DWORD_DISK ebr (PAR_OFFSET + PAR_COUNT_OFFSET)⟩)
      else OsLogicalPartitionRecognition.next ebr mbrCount ebrCount info

/-- The loop of `OsLogicalPartitionRecognition`, on fuel. -/
def OsLogicalPartitionRecognition.loop (d : BlockDrv) (extendedAddress mbrCount : Nat) :
    Nat → Nat → Nat → DiskDivideInfo → Option (Int × DiskDivideInfo)
  | 0, _, _, _ => none
  | fuel + 1, extendedOffset, ebrCount, info =>
    match OsLogicalPartitionRecognition.body d extendedAddress mbrCount extendedOffset ebrCount info with
    | .done ret info => some (ret, info)
    | .more extendedOffset ebrCount info => loop d extendedAddress mbrCount fuel extendedOffset ebrCount info

/-- `OsLogicalPartitionRecognition`: the number of logical partitions,
or `-EIO`. -/
def OsLogicalPartitionRecognition (fuel : Nat) (d : BlockDrv) (info : DiskDivideInfo)
    (extendedAddress mbrCount : Nat) : Option (Int × DiskDivideInfo) :=
  OsLogicalPartitionRecognition.loop d extendedAddress mbrCount fuel 0 0 info

-- ================================================================= GPT

/-- `GPTInfoGet`: the header in sector 1. -/
def GPTInfoGet (d : BlockDrv) : Except Int (Nat → UInt8) :=
  match d.read 1 with
  | none => .error (- EIO)
  | some gpt => if !VERIFY_GPT gpt then .error VFS_ERROR else .ok gpt

/-- `OsGPTPartitionRecognitionSub`: a partition with a FAT or NTFS boot
sector is recorded, while there is room. -/
def OsGPTPartitionRecognitionSub (info : DiskDivideInfo) (partitionBuf : Nat → UInt8)
    (partitionCount partitionStart partitionEnd : Nat) : Int × Nat × DiskDivideInfo :=
  if VERIFY_FS partitionBuf then
    let partitionType := GPTPartitionTypeRecognition partitionBuf
    if partitionType ≠ 0 then
      if partitionCount ≥ MAX_DIVIDE_PART_PER_DISK then (VFS_ERROR, partitionCount, info)
      else
        (ENOERR, partitionCount + 1, info.setPart partitionCount
          ⟨partitionType, partitionStart, (partitionEnd - partitionStart + 1) % 2 ^ 64⟩)
    else (ENOERR, partitionCount, info)
  else (ENOERR, partitionCount, info)

/-- The loop of `OsGPTPartitionRecognition` over the entries `js` of
one sector of the table, with its `ret`. -/
def OsGPTPartitionRecognition.loop (d : BlockDrv) (gptBuf : Nat → UInt8) :
    List Nat → Int → Nat → DiskDivideInfo → Int × Nat × DiskDivideInfo
  | [], ret, partitionCount, info => (ret, partitionCount, info)
  | j :: js, ret, partitionCount, info =>
    -- an EFI system or reserved partition is skipped
    if !VERITY_AVAILABLE_PAR gptBuf (j * TABLE_SIZE) then loop d gptBuf js ret partitionCount info
    else if !VERITY_PAR_VALID gptBuf (j * TABLE_SIZE) then (VFS_ERROR, partitionCount, info)
    else
      let partitionStart := LD_QWORD_DISK gptBuf (j * TABLE_SIZE + GPT_PAR_START_OFFSET)
      let partitionEnd := LD_QWORD_DISK gptBuf (j * TABLE_SIZE + GPT_PAR_END_OFFSET)
      if partitionStart ≥ partitionEnd ∨ partitionEnd > info.sector_count then
        (VFS_ERROR, partitionCount, info)
      else
        match d.read partitionStart with
        | none => (- EIO, partitionCount, info)
        | some partitionBuf =>
          match OsGPTPartitionRecognitionSub info partitionBuf partitionCount partitionStart partitionEnd with
          | (ret, partitionCount, info) =>
            if ret ≠ ENOERR then (VFS_ERROR, partitionCount, info)
            else loop d gptBuf js ret partitionCount info

/-- `OsGPTPartitionRecognition`: the four entries of one sector; `ret`
starts at `VFS_ERROR`. -/
def OsGPTPartitionRecognition (d : BlockDrv) (info : DiskDivideInfo) (gptBuf : Nat → UInt8)
    (partitionCount : Nat) : Int × Nat × DiskDivideInfo :=
  OsGPTPartitionRecognition.loop d gptBuf (List.range PAR_ENTRY_NUM_PER_SECTOR) VFS_ERROR partitionCount info

/-- The loop of `DiskGPTPartitionRecognition` over the sectors `is` of
the table. -/
def DiskGPTPartitionRecognition.loop (d : BlockDrv) :
    List Nat → Nat → DiskDivideInfo → Int × DiskDivideInfo
  | [], partitionCount, info => (partitionCount, info)
  | i :: is, partitionCount, info =>
    match d.read (TABLE_START_SECTOR + i) with
    | none => (- EIO, info)
    | some gptBuf =>
      match OsGPTPartitionRecognition d info gptBuf partitionCount with
      | (ret, partitionCount, info) =>
        if ret < 0 then (if ret = VFS_ERROR then partitionCount else ret, info)
        else loop d is partitionCount info

/-- `DiskGPTPartitionRecognition`: at most `TABLE_MAX_NUM` entries, four
to a sector. -/
def DiskGPTPartitionRecognition (d : BlockDrv) (info : DiskDivideInfo) : Int × DiskDivideInfo :=
  match GPTInfoGet d with
  | .error ret => (ret, info)
  | .ok gptBuf =>
    let tableNum := min (LD_DWORD_DISK gptBuf TABLE_NUM_OFFSET) TABLE_MAX_NUM
    let index := if tableNum % PAR_ENTRY_NUM_PER_SECTOR ≠ 0 then tableNum / PAR_ENTRY_NUM_PER_SECTOR + 1
      else tableNum / PAR_ENTRY_NUM_PER_SECTOR
    DiskGPTPartitionRecognition.loop d (List.range index) 0 info

-- ======================================================== the disk

/-- `DiskPartitionRecognition`: the number of partitions, or an error;
`none` when the EBR loop runs out of fuel. -/
def DiskPartitionRecognition (fuel : Nat) (d : BlockDrv) (info : DiskDivideInfo) :
    Option (Int × DiskDivideInfo) :=
  match OsMBRInfoGet d with
  | .error ret => some (ret, info)
  | .ok mbrBuf =>
    if mbrBuf PARTION_MODE_BTYE = PARTION_MODE_GPT then some (DiskGPTPartitionRecognition d info)
    -- no partition table
    else if OsEBRInfoGet d info mbrBuf < 0 then some (0, info)
    else
      let p := OsPrimaryPartitionRecognition mbrBuf info
      if p.extendedFlag then
        let extendedAddress := LD_DWORD_DISK mbrBuf (PAR_OFFSET + PAR_START_OFFSET + p.extendedPos * PAR_TABLE_SIZE)
        match OsLogicalPartitionRecognition fuel d p.info extendedAddress p.mbrCount with
        | none => none
        | some (ret, info) => if ret ≤ 0 then some (ret, info) else some (ret + p.mbrCount, info)
      else some (p.mbrCount, p.info)

/-- A partition added to a disk: its range. -/
structure LosPart where
  sector_start : Nat
  sector_count : Nat
  deriving DecidableEq, Repr

/-- A `los_disk`: its device and its partitions, in the order added. -/
structure LosDisk where
  dev : BlockDrv
  parts : List LosPart

/-- `DiskAddPart`: a partition must lie inside the disk. -/
def DiskAddPart (disk : LosDisk) (sectorStart sectorCount : Nat) : Except Int LosDisk :=
  if sectorCount > disk.dev.sector_count ∨ disk.dev.sector_count - sectorCount < sectorStart then .error VFS_ERROR
  else .ok { disk with parts := disk.parts ++ [⟨sectorStart, sectorCount⟩] }

/-- The loop of `DiskPartitionRegister` over the entries `is` of the
table: every entry with a type that is not an extended partition. -/
def DiskPartitionRegister.loop (parInfo : DiskDivideInfo) : List Nat → LosDisk → Int × LosDisk
  | [], disk => (ENOERR, disk)
  | i :: is, disk =>
    let p := parInfo.part i
    if p.type ≠ 0 ∧ p.type ≠ EXTENDED_PAR ∧ p.type ≠ EXTENDED_8G then
      match DiskAddPart disk p.sector_start p.sector_count with
      | .error _ => (VFS_ERROR, disk)
      | .ok disk => loop parInfo is disk
    else loop parInfo is disk

/-- The whole disk as one partition, for a disk without a table. -/
def DiskPartitionRegister.whole (disk : LosDisk) : Int × LosDisk :=
  match DiskAddPart disk 0 disk.dev.sector_count with
  | .error _ => (VFS_ERROR, disk)
  | .ok disk => (ENOERR, disk)

/-- `DiskPartitionRegister`, on the table `DiskPartitionRecognition`
fills from zeroed entries. -/
def DiskPartitionRegister (fuel : Nat) (disk : LosDisk) : Option (Int × LosDisk) :=
  let parInfo : DiskDivideInfo := ⟨disk.dev.sector_count, disk.dev.sector_size, fun _ => ⟨0, 0, 0⟩⟩
  match DiskPartitionRecognition fuel disk.dev parInfo with
  | none => none
  | some (count, parInfo) =>
    if count = VFS_ERROR then some (DiskPartitionRegister.whole disk)
    else if count < 0 then some (VFS_ERROR, disk)
    else if count = 0 then some (DiskPartitionRegister.whole disk)
    else some (DiskPartitionRegister.loop parInfo
      (List.range (MAX_DIVIDE_PART_PER_DISK + MAX_PRIMARY_PART_PER_DISK)) disk)

end LiteOsA.Disk
