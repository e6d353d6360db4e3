/-
`mprotect` (`LOS_DoMprotect`, los_vm_syscall.c).

The call finds the region at `vaddr`, checks the arguments, splits the
region so that the range starts and ends at region boundaries
(`OsVmRegionAdjust`), and writes new flags into the region it then
finds at `vaddr`: the permission bits of `prot`, plus
`VM_MAP_REGION_FLAG_SHARED` when the region it first found had it.

The model has no open files, so no region is of the file type and
`OsProtMprotectPermCheck` is never reached. The page table's permission
bits are not kept (see `LiteOsA.Vm.Map`), so `LOS_ArchMmuChangeProt` is
taken to succeed and to change nothing the model holds.
-/
import LiteOsA.Vm.Shm

namespace LiteOsA.Vm

/-- `VM_MAP_REGION_FLAG_VDSO` (los_vm_map.h). -/
def VM_MAP_REGION_FLAG_VDSO : Nat := 1 <<< 14

/-- `LOS_DoMprotect(vaddr, len, prot)` by process `cur`: `0`, or
`-errno`. -/
def LOS_DoMprotect (s : VmSys) (cur vaddr len prot : Nat) : Int × VmSys :=
  match LOS_RegionFind (s.spaces cur) vaddr with
  | none => (-(EINVAL : Int), s)
  | some region =>
    if !IS_ALIGNED vaddr PAGE_SIZE ∨ vaddr > u32 (vaddr + len) then (-(EINVAL : Int), s)
    else if prot &&& ((2 ^ 32 - 1) ^^^ (PROT_READ ||| PROT_WRITE ||| PROT_EXEC)) ≠ 0 then
      (-(EINVAL : Int), s)
    else if region.regionFlags &&& VM_MAP_REGION_FLAG_VDSO ≠ 0 ∨
        region.regionFlags &&& VM_MAP_REGION_FLAG_HEAP ≠ 0 then (-(EPERM : Int), s)
    else
      let len := LOS_Align len PAGE_SIZE
      -- the range may not run past the region
      if u32 (region.base + region.size) < u32 (vaddr + len) then (-(EINVAL : Int), s)
      else
        let s₁ :=
          if region.size > len then (OsVmRegionAdjustWith (LOS_UnMMapN unmapDepth) s cur cur vaddr len).2
          else s
        let vmFlags := OsCvtProtFlagsToRegionFlags prot 0 |||
          (if region.regionFlags &&& VM_MAP_REGION_FLAG_SHARED ≠ 0 then VM_MAP_REGION_FLAG_SHARED else 0)
        match LOS_RegionFind (s₁.spaces cur) vaddr with
        | none => (-(ENOMEM : Int), s₁)
        | some r => (0, s₁.setSpace cur (setRegion (s₁.spaces cur) { r with regionFlags := vmFlags }))

end LiteOsA.Vm
