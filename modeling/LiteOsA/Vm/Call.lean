/-
The VM system as a machine: the calls that processes make on their
address spaces and on the shared-memory segments, each one step, in
any order and by any processes.

Each call runs under its locks from start to end (`regionMux` of the
space, `g_sysvShmMux`), so a step is one whole call: the step relation
is the call's function, with the value it returns in the event. A fork
gives the child a new space (`OsCreateUserVmSapce`) and copies the
parent's into it; an exit frees the space. The caller's credentials
are arbitrary, part of each shared-memory event.

`ShmInit` sets up the segment table; `vmInit pages` is the system after
it, with every space empty and the physical pages `pages` free.
-/
import LiteOsA.Vm.Shm

namespace LiteOsA.Vm

open LiteOsA.Cred (User)

/-- `ShmInit`: every segment free, with `seq` one more than its index. -/
def ShmInit (s : VmSys) : VmSys :=
  { s with segs := fun i => ⟨⟨⟨0, 0, 0, 0, 0, 0, i + 1⟩, 0, 0, 0, 0⟩, SHM_SEG_FREE, []⟩,
           shmUsedPageCount := 0 }

/-- The system after `ShmInit`, with the physical pages `pages` free. -/
def vmInit (pages : List Nat) : VmSys :=
  ShmInit ⟨fun _ => OsUserVmSpaceInit, 1, pages, fun _ => 0, fun _ => false,
    fun _ => ⟨⟨⟨0, 0, 0, 0, 0, 0, 0⟩, 0, 0, 0, 0⟩, 0, []⟩, 0⟩

/-- The calls, with what each returns. -/
inductive Event where
  | mmap (pid vaddr len prot flags pgoff : Nat) (ret : Int)
  | munmap (pid addr size : Nat) (ret : Int)
  | brk (pid addr : Nat) (ret : Int)
  | shmget (pid : Nat) (user : User) (key : Int) (size shmflg : Nat) (ret : Int)
  | shmat (pid : Nat) (user : User) (shmid : Int) (shmaddr shmflg : Nat) (ret : Int)
  | shmctl (pid : Nat) (user : User) (shmid : Int) (cmd : Nat) (buf : ShmBuf) (ret : Int)
  | shmdt (pid shmaddr : Nat) (ret : Int)
  | fork (parent child : Nat) (ret : Int)
  | exit (pid : Nat)

/-- One call. -/
inductive Step : VmSys → Event → VmSys → Prop where
  | mmap {s pid vaddr len prot flags pgoff} :
      Step s (.mmap pid vaddr len prot flags pgoff (LOS_MMap s pid vaddr len prot flags pgoff).1)
        (LOS_MMap s pid vaddr len prot flags pgoff).2
  | munmap {s pid addr size} :
      Step s (.munmap pid addr size (LOS_UnMMap s pid addr size).1) (LOS_UnMMap s pid addr size).2
  | brk {s pid addr} :
      Step s (.brk pid addr (LOS_DoBrk s pid addr).1) (LOS_DoBrk s pid addr).2
  | shmget {s s' pid user key size shmflg ret} :
      ShmGet s pid user key size shmflg = some (ret, s') →
      Step s (.shmget pid user key size shmflg ret) s'
  | shmat {s pid user shmid shmaddr shmflg} :
      Step s (.shmat pid user shmid shmaddr shmflg (ShmAt s pid user shmid shmaddr shmflg).1)
        (ShmAt s pid user shmid shmaddr shmflg).2
  | shmctl {s pid user shmid cmd buf} :
      Step s (.shmctl pid user shmid cmd buf (ShmCtl s user shmid cmd buf).1) (ShmCtl s user shmid cmd buf).2
  | shmdt {s pid shmaddr} :
      Step s (.shmdt pid shmaddr (ShmDt s pid shmaddr).1) (ShmDt s pid shmaddr).2
  | fork {s parent child} :
      (s.spaces child).regions = [] →
      Step s (.fork parent child (LOS_VmSpaceClone (s.setSpace child OsUserVmSpaceInit) parent parent child).1)
        (LOS_VmSpaceClone (s.setSpace child OsUserVmSpaceInit) parent parent child).2
  | exit {s pid} : Step s (.exit pid) (LOS_VmSpaceFree s pid pid)

namespace Step

-- The calls with the value they return given, for runs written out event by event.

theorem mmap_ret {s : VmSys} {pid vaddr len prot flags pgoff : Nat} {ret : Int}
    (h : (LOS_MMap s pid vaddr len prot flags pgoff).1 = ret) :
    Step s (.mmap pid vaddr len prot flags pgoff ret) (LOS_MMap s pid vaddr len prot flags pgoff).2 :=
  h ▸ mmap

theorem munmap_ret {s : VmSys} {pid addr size : Nat} {ret : Int} (h : (LOS_UnMMap s pid addr size).1 = ret) :
    Step s (.munmap pid addr size ret) (LOS_UnMMap s pid addr size).2 :=
  h ▸ munmap

theorem brk_ret {s : VmSys} {pid addr : Nat} {ret : Int} (h : (LOS_DoBrk s pid addr).1 = ret) :
    Step s (.brk pid addr ret) (LOS_DoBrk s pid addr).2 :=
  h ▸ brk

theorem shmat_ret {s : VmSys} {pid : Nat} {user : User} {shmid : Int} {shmaddr shmflg : Nat} {ret : Int}
    (h : (ShmAt s pid user shmid shmaddr shmflg).1 = ret) :
    Step s (.shmat pid user shmid shmaddr shmflg ret) (ShmAt s pid user shmid shmaddr shmflg).2 :=
  h ▸ shmat

theorem shmctl_ret {s : VmSys} {pid : Nat} {user : User} {shmid : Int} {cmd : Nat} {buf : ShmBuf} {ret : Int}
    (h : (ShmCtl s user shmid cmd buf).1 = ret) :
    Step s (.shmctl pid user shmid cmd buf ret) (ShmCtl s user shmid cmd buf).2 :=
  h ▸ shmctl

theorem shmdt_ret {s : VmSys} {pid shmaddr : Nat} {ret : Int} (h : (ShmDt s pid shmaddr).1 = ret) :
    Step s (.shmdt pid shmaddr ret) (ShmDt s pid shmaddr).2 :=
  h ▸ shmdt

end Step

end LiteOsA.Vm
