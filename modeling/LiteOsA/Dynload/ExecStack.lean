/-
The argument stack that exec builds for the new program
(kernel/extended/dynload/src/los_load_elf.c): `OsSetArgParams` copies
the file name and the strings of `envp` and `argv` to the top of the
new stack, and `OsMakeArgsStack` writes below them `argc`, the pointers
of the strings with a zero after each array, and the auxiliary vector.

# What the model keeps

Memory is plain bytes (`LiteOsA.Lib.ByteMem`): `src` is what the caller
sees, kernel memory and the old user space, from which the pointer
arrays and the strings are read; `newSpace` is the new user space. The
user-copy primitives (`LOS_GetUser`, `LOS_PutUser`,
`LOS_ArchCopyFromUser`, `LOS_ArchCopyToUser`) are plain reads and
writes of these memories, and the kernel mapping `kvaddr` of the
parameter page writes `newSpace` at the user address it maps. Addresses
and sizes are `UINT32`, with `u32Sub` where the code subtracts.

`OsSetArgParams` runs in the old space and `OsMakeArgsStack` after
`OsFlushAspace` has switched to the new one, so the strings that
`OsPutUserArgv` measures are the copies in `newSpace`.

# What it leaves out

`OsGetStackProt`: `stackProt` is the value it leaves. The random offset
is the value read from `/dev/urandom` (`LOSCFG_ASLR`; without it, `0`),
and the `vDSO` entry of the auxiliary vector is there when its load
address is not `0` (`LOSCFG_KERNEL_VDSO`; without it, `0`). The
outcomes of `LOS_UserSpaceVmAlloc` and of the `LOS_MMap` of the rest
of the stack are Boolean inputs.
-/
import LiteOsA.Dynload.LoadElf
import LiteOsA.Lib.ByteMem

namespace LiteOsA.Elf

open Vm

-- ============================================================ constants

/-- `STRINGS_COUNT_MAX` (los_load_elf.h). -/
def STRINGS_COUNT_MAX : Nat := 256

/-- `USER_STACK_SIZE` (los_load_elf.h). -/
def USER_STACK_SIZE : Nat := 0x100000

/-- `USER_PARAM_BYTE_MAX` (los_load_elf.h): the parameter page. -/
def USER_PARAM_BYTE_MAX : Nat := 0x1000

/-- `STACK_ALIGN_SIZE` (los_load_elf.h). -/
def STACK_ALIGN_SIZE : Nat := 0x10

/-- `GB` (los_vm_common.h). -/
def GB : Nat := 1024 * 1024 * 1024

/-- `RANDOM_MASK` (los_load_elf.h), in `UINT32`. -/
def RANDOM_MASK : Nat := (((USER_ASPACE_TOP_MAX + GB - 1) &&& (2 ^ 32 - GB)) >>> 3) - 1

/-- `KERNEL_ASPACE_SIZE` (los_vm_zone.h): the board's `DDR_MEM_SIZE`,
taken here as the whole address space above `KERNEL_ASPACE_BASE`. -/
def KERNEL_ASPACE_SIZE : Nat := 2 ^ 32 - KERNEL_ASPACE_BASE

/-- `E2BIG` (errno.h). -/
def E2BIG : Nat := 7

/-- `EFAULT` (errno.h). -/
def EFAULT : Nat := 14

/-- `AUX_NULL` (los_elf_auxvec_pri.h). -/
def AUX_NULL : Nat := 0
/-- `AUX_PHDR`. -/
def AUX_PHDR : Nat := 3
/-- `AUX_PHENT`. -/
def AUX_PHENT : Nat := 4
/-- `AUX_PHNUM`. -/
def AUX_PHNUM : Nat := 5
/-- `AUX_PAGESZ`. -/
def AUX_PAGESZ : Nat := 6
/-- `AUX_BASE`. -/
def AUX_BASE : Nat := 7
/-- `AUX_FLAGS`. -/
def AUX_FLAGS : Nat := 8
/-- `AUX_ENTRY`. -/
def AUX_ENTRY : Nat := 9
/-- `AUX_UID`. -/
def AUX_UID : Nat := 11
/-- `AUX_EUID`. -/
def AUX_EUID : Nat := 12
/-- `AUX_GID`. -/
def AUX_GID : Nat := 13
/-- `AUX_EGID`. -/
def AUX_EGID : Nat := 14
/-- `AUX_HWCAP`. -/
def AUX_HWCAP : Nat := 16
/-- `AUX_CLKTCK`. -/
def AUX_CLKTCK : Nat := 17
/-- `AUX_SECURE`. -/
def AUX_SECURE : Nat := 23
/-- `AUX_RANDOM`. -/
def AUX_RANDOM : Nat := 25
/-- `AUX_EXECFN`. -/
def AUX_EXECFN : Nat := 31
/-- `AUX_SYSINFO_EHDR`. -/
def AUX_SYSINFO_EHDR : Nat := 33

-- ============================================================ the load info

/-- `ELFLoadInfo`, the fields the argument stack reads and writes, with
the new space's memory. -/
structure ELFLoadInfo where
  execInfo : ELFInfo
  newSpace : Nat → Nat
  stackTopMax : Nat
  stackBase : Nat
  stackSize : Nat
  stackParamBase : Nat
  topOfMem : Nat
  stackTop : Nat
  argc : Nat
  envc : Nat
  execName : Nat
  stackProt : Nat
  loadAddr : Nat

-- ============================================================ strings

/-- `LOS_IsKernelAddress` (los_vm_map.h). -/
def LOS_IsKernelAddress (vaddr : Nat) : Bool :=
  KERNEL_ASPACE_BASE ≤ vaddr && vaddr ≤ KERNEL_ASPACE_BASE + (KERNEL_ASPACE_SIZE - 1)

/-- `OsGetParamPtr`: the `index`th pointer of the array at `ptr`, read
from kernel memory or by `LOS_GetUser` from user memory. -/
def OsGetParamPtr (mem : Nat → Nat) (ptr index : Nat) : Nat := loadWord mem (ptr + 4 * index)

/-- `strlen` of a kernel string: its NUL is looked for up to the top of
the address space. -/
def strlen (mem : Nat → Nat) (p : Nat) : Nat := (firstZero mem p (2 ^ 32 - p)).getD (2 ^ 32 - p)

/-- `LOS_StrnlenUser` (strnlen_user.c): the length of the user string at
`src` with its NUL, `count + 1` when there is none in the `count` bytes
it reads, and `0` for an address that is not a user one. -/
def LOS_StrnlenUser (mem : Nat → Nat) (src count : Nat) : Nat :=
  if !LOS_IsUserAddress src || count == 0 then 0
  else
    -- only the characters inside the user space are read
    let maxCount := if LOS_IsUserAddressRange src count then count else USER_ASPACE_TOP_MAX - src
    match firstZero mem src maxCount with
    | some k => k + 1
    | none => count + 1

/-- The loop of `OsGetParamNum` from the index `count`, with the rounds
that `STRINGS_COUNT_MAX` leaves it. -/
def OsGetParamNum.loop (mem : Nat → Nat) (argv : Nat) : Nat → Nat → Nat
  | 0, count => count
  | fuel + 1, count =>
    let argPtr := OsGetParamPtr mem argv count
    if argPtr = NULL then count
    else
      let ret := LOS_StrnlenUser mem argPtr Fs.PATH_MAX
      if ret = 0 ∨ ret > Fs.PATH_MAX then count
      else if count + 1 ≥ STRINGS_COUNT_MAX then count + 1
      else loop mem argv fuel (count + 1)

/-- `OsGetParamNum`: the strings of `argv` before its `NULL`, before a
bad string, and at most `STRINGS_COUNT_MAX`. -/
def OsGetParamNum (mem : Nat → Nat) (argv : Nat) : Nat :=
  if argv = NULL then 0 else OsGetParamNum.loop mem argv STRINGS_COUNT_MAX 0

-- ============================================================ the copies

/-- One round of `OsCopyParams` at the index `i`: the string's length
with its NUL, and its copy just below `topOfMem`, written through the
kernel mapping of the parameter page. -/
def OsCopyParams.step (src : Nat → Nat) (argv i : Nat) (loadInfo : ELFLoadInfo) : Except Int ELFLoadInfo :=
  let strPtr := OsGetParamPtr src argv i
  let strLen := if LOS_IsKernelAddress strPtr then u32 (strlen src strPtr + 1)
    else LOS_StrnlenUser src strPtr Fs.PATH_MAX
  if strLen < 1 then .ok loadInfo
  else
    let offset := u32Sub loadInfo.topOfMem loadInfo.stackParamBase
    if offset < strLen then .error (-(E2BIG : Int))
    else
      let topOfMem := u32Sub loadInfo.topOfMem strLen
      .ok { loadInfo with topOfMem := topOfMem,
                          newSpace := copyBlock loadInfo.newSpace topOfMem src strPtr strLen }

/-- The loop of `OsCopyParams`, from the index `i - 1` down to `0`. -/
def OsCopyParams.loop (src : Nat → Nat) (argv : Nat) : Nat → ELFLoadInfo → Except Int ELFLoadInfo
  | 0, loadInfo => .ok loadInfo
  | i + 1, loadInfo => do
    let loadInfo ← OsCopyParams.step src argv i loadInfo
    OsCopyParams.loop src argv i loadInfo

/-- `OsCopyParams`: the strings of the array `argv`, the last first,
each below the one before. -/
def OsCopyParams (src : Nat → Nat) (loadInfo : ELFLoadInfo) (argc argv : Nat) : Except Int ELFLoadInfo :=
  if argc > 0 ∧ argv = NULL then .error (-(EINVAL : Int))
  else OsCopyParams.loop src argv argc loadInfo

/-- `OsGetRndOffset` of the value read from `/dev/urandom`. -/
def OsGetRndOffset (randomValue : Nat) : Nat := ROUNDDOWN (randomValue &&& RANDOM_MASK) PAGE_SIZE

/-- `OsSetArgParams`, from the address `fileNameField` of
`loadInfo->fileName` (which `src` holds), with the random value and the
outcome of `LOS_UserSpaceVmAlloc`. -/
def OsSetArgParams (src : Nat → Nat) (loadInfo : ELFLoadInfo) (fileNameField argv envp randomValue : Nat)
    (vmAllocOk : Bool) : Except Int ELFLoadInfo := do
  if loadInfo.stackProt &&& (PROT_READ ||| PROT_WRITE) ≠ PROT_READ ||| PROT_WRITE then
    .error (-(ENOEXEC : Int))
  let stackTopMax := u32Sub USER_STACK_TOP_MAX (OsGetRndOffset randomValue)
  let loadInfo := { loadInfo with
    stackTopMax := stackTopMax
    stackBase := u32Sub stackTopMax USER_STACK_SIZE
    stackSize := USER_STACK_SIZE
    stackParamBase := u32Sub stackTopMax USER_PARAM_BYTE_MAX }
  if !vmAllocOk then .error (-(ENOMEM : Int))
  let loadInfo := { loadInfo with
    topOfMem := u32Sub stackTopMax 4
    argc := OsGetParamNum src argv
    envc := OsGetParamNum src envp }
  let loadInfo ← OsCopyParams src loadInfo 1 fileNameField
  let loadInfo := { loadInfo with execName := loadInfo.topOfMem }
  let loadInfo ← OsCopyParams src loadInfo loadInfo.envc envp
  OsCopyParams src loadInfo loadInfo.argc argv

-- ============================================================ the words

/-- `OsPutUserArg`: `none` where it fails. -/
def OsPutUserArg (mem : Nat → Nat) (val sp : Nat) : Option (Nat → Nat) :=
  if sp = NULL then none else some (storeWord mem sp val)

/-- `OsPutUserArgv`: from the word at `sp`, the addresses of `count`
strings laid one after another from `strPtr`, each measured by
`LOS_StrnlenUser`, and a zero; the string pointer and the word pointer
after them, or `none` where it returns `LOS_NOK`. -/
def OsPutUserArgv (mem : Nat → Nat) (strPtr sp : Nat) : Nat → Option (Nat × Nat × (Nat → Nat))
  | 0 => do
    -- put zero to end of argv
    let mem ← OsPutUserArg mem 0 sp
    return (strPtr, sp + 4, mem)
  | count + 1 => do
    let mem ← OsPutUserArg mem strPtr sp
    let len := LOS_StrnlenUser mem strPtr Fs.PATH_MAX
    if len = 0 then none
    OsPutUserArgv mem (strPtr + len) (sp + 4) count

/-- `OsPutParamToStack`, with the auxiliary vector as its words and the
outcome of the `LOS_MMap` of the rest of the stack. -/
def OsPutParamToStack (loadInfo : ELFLoadInfo) (auxVecInfo : List Nat) (stackMapOk : Bool) :
    Except Int ELFLoadInfo := do
  let vecIndex := auxVecInfo.length
  let argStart := loadInfo.topOfMem
  let topMem := ROUNDDOWN loadInfo.topOfMem 4
  let items := (loadInfo.argc + 1) + (loadInfo.envc + 1) + 1
  -- `topMem - vecIndex - items` in words
  let topOfMem := ROUNDDOWN (u32Sub topMem (4 * (vecIndex + items))) STACK_ALIGN_SIZE
  let loadInfo := { loadInfo with topOfMem := topOfMem, stackTop := topOfMem }
  if u32Sub loadInfo.stackTopMax loadInfo.stackTop > USER_PARAM_BYTE_MAX then .error (-(E2BIG : Int))
  let some mem := OsPutUserArg loadInfo.newSpace loadInfo.argc loadInfo.stackTop | .error (-(EFAULT : Int))
  let some (argStart, argsPtr, mem) := OsPutUserArgv mem argStart (loadInfo.stackTop + 4) loadInfo.argc
    | .error (-(EFAULT : Int))
  let some (_, argsPtr, mem) := OsPutUserArgv mem argStart argsPtr loadInfo.envc
    | .error (-(EFAULT : Int))
  let mem := storeWords mem argsPtr auxVecInfo
  if u32Sub loadInfo.stackSize USER_PARAM_BYTE_MAX > 0 ∧ !stackMapOk then .error (-(ENOMEM : Int))
  return { loadInfo with newSpace := mem }

/-- The auxiliary vector of `OsMakeArgsStack`, as the pairs of words
`AUX_VEC_ENTRY` writes. -/
def OsMakeArgsStack.auxVector (loadInfo : ELFLoadInfo) (interpMapBase vdsoLoadAddr : Nat) : List Nat :=
  [AUX_PHDR, u32 (loadInfo.loadAddr + loadInfo.execInfo.elfEhdr.elfPhoff),
    AUX_PHENT, LD_ELF_PHDR_SIZE,
    AUX_PHNUM, loadInfo.execInfo.elfEhdr.elfPhNum,
    AUX_PAGESZ, PAGE_SIZE,
    AUX_BASE, interpMapBase,
    AUX_FLAGS, 0,
    AUX_ENTRY, loadInfo.execInfo.elfEhdr.elfEntry,
    AUX_UID, 0, AUX_EUID, 0, AUX_GID, 0, AUX_EGID, 0,
    AUX_HWCAP, 0, AUX_CLKTCK, 0, AUX_SECURE, 0, AUX_RANDOM, 0,
    AUX_EXECFN, loadInfo.execName] ++
  (if vdsoLoadAddr ≠ 0 then [AUX_SYSINFO_EHDR, vdsoLoadAddr] else []) ++
  [AUX_NULL, 0]

/-- `OsMakeArgsStack`. -/
def OsMakeArgsStack (loadInfo : ELFLoadInfo) (interpMapBase vdsoLoadAddr : Nat) (stackMapOk : Bool) :
    Except Int ELFLoadInfo :=
  OsPutParamToStack loadInfo (OsMakeArgsStack.auxVector loadInfo interpMapBase vdsoLoadAddr) stackMapOk

end LiteOsA.Elf
