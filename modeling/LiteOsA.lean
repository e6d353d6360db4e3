import LiteOsA.Base
import LiteOsA.Lib.Reach
import LiteOsA.Lib.LinkList
import LiteOsA.Lib.DLinkList
import LiteOsA.Lib.Enumerates
import LiteOsA.Lib.Run
import LiteOsA.Lib.Ring
import LiteOsA.Core.Bitmap
import LiteOsA.Mem.Membox
import LiteOsA.Mem.Proofs.Membox
import LiteOsA.Mem.Tlsf
import LiteOsA.Mem.Proofs.TlsfNode
import LiteOsA.Mem.Proofs.TlsfHeap
import LiteOsA.Mem.Proofs.TlsfList
import LiteOsA.Mem.Proofs.TlsfShape
import LiteOsA.Mem.Proofs.TlsfInit
import LiteOsA.Mem.Proofs.TlsfAlloc
import LiteOsA.Mem.Proofs.TlsfFree
import LiteOsA.Mem.Proofs.TlsfRun
import LiteOsA.Mem.Proofs.TlsfSearch
import LiteOsA.Ipc.Mux
import LiteOsA.Ipc.Proofs.MuxPriority
import LiteOsA.Ipc.Proofs.MuxOwner
import LiteOsA.Ipc.Proofs.PendOrder
import LiteOsA.Ipc.Sem
import LiteOsA.Ipc.Proofs.SemCount
import LiteOsA.Ipc.Queue
import LiteOsA.Ipc.Proofs.QueueFifo
import LiteOsA.Ipc.Rwlock
import LiteOsA.Ipc.Proofs.RwlockHold
import LiteOsA.Common.CirBuf
import LiteOsA.Common.Proofs.CirBufFifo
import LiteOsA.Core.SortLink
import LiteOsA.Core.Proofs.SortLinkOrder
import LiteOsA.Core.Swtmr
import LiteOsA.Core.Proofs.SwtmrRace
import LiteOsA.Syscall.Cred
import LiteOsA.Syscall.Proofs.CredCaps
import LiteOsA.Vm.Region
import LiteOsA.Vm.ShmSeg
import LiteOsA.Vm.Map
import LiteOsA.Vm.Shm
import LiteOsA.Vm.Call
import LiteOsA.Vm.Proofs.Frame
import LiteOsA.Vm.Proofs.ShmAttach
import LiteOsA.Vm.Proofs.BrkHeap
import LiteOsA.Fs.FullPath
import LiteOsA.Fs.Proofs.PathNormal
import LiteOsA.Vm.Proofs.AllocRange
import LiteOsA.Mem.Proofs.TlsfAlign
import LiteOsA.Lib.TreeZipper
import LiteOsA.Libscrew.RbTree
import LiteOsA.Libscrew.Proofs.RbLookup
import LiteOsA.Lib.RedBlack
import LiteOsA.Libscrew.RbInsert
import LiteOsA.Libscrew.Proofs.RbInsert
import LiteOsA.Libscrew.RbDelete
import LiteOsA.Libscrew.Proofs.RbDelete
import LiteOsA.Libscrew.Proofs.RbRun
import LiteOsA.Vm.Proofs.Split
import LiteOsA.Vm.Proofs.RegionsRemove
import LiteOsA.Lib.FirstSome
import LiteOsA.Sched.Sched
import LiteOsA.Sched.Proofs.TopTask
import LiteOsA.Lib.CircList
import LiteOsA.Core.LosList
import LiteOsA.Ipc.Futex
import LiteOsA.Ipc.Proofs.FutexHash
import LiteOsA.Ipc.Proofs.FutexWake
import LiteOsA.Ipc.Proofs.FutexRequeue
import LiteOsA.Security.Vid
import LiteOsA.Security.Proofs.VidMap
import LiteOsA.Compat.TimeTick
import LiteOsA.Dynload.LoadElf
import LiteOsA.Dynload.Proofs.ElfBounds
import LiteOsA.Lib.ByteMem
import LiteOsA.Dynload.ExecStack
import LiteOsA.Dynload.Proofs.ArgsStack
import LiteOsA.Shell.CmdParse
import LiteOsA.Shell.Proofs.CmdLine
import LiteOsA.Core.ProcessGroup
import LiteOsA.Core.Proofs.GroupFree
import LiteOsA.Core.Proofs.SwtmrId
import LiteOsA.Ipc.Proofs.SignalSend
import LiteOsA.Ipc.Signal
import LiteOsA.Ipc.LiteIpc
import LiteOsA.Ipc.Proofs.IpcBuffers
import LiteOsA.Ipc.Event
import LiteOsA.Ipc.Proofs.EventWait
import LiteOsA.Compat.Mqueue
import LiteOsA.Compat.Proofs.MqFd
import LiteOsA.Vm.Proofs.ShmKey
import LiteOsA.Vm.Proofs.HeapFree
import LiteOsA.Vm.Mprotect
import LiteOsA.Vm.Proofs.Mprotect
import LiteOsA.Fs.Bcache
import LiteOsA.Fs.Proofs.BcacheRead
import LiteOsA.Fs.Disk
import LiteOsA.Fs.Proofs.DiskParts
import LiteOsA.Core.TaskJoin
import LiteOsA.Core.Proofs.TaskJoinWake
import LiteOsA.Vm.Phys
import LiteOsA.Vm.Proofs.PhysFree
import LiteOsA.Lib.Buddy
import LiteOsA.Vm.Buddy
import LiteOsA.Vm.Proofs.BuddyLists
import LiteOsA.Vm.Proofs.BuddyFree
import LiteOsA.Vm.Proofs.BuddyAlloc
import LiteOsA.Vm.Proofs.BuddyRun
import LiteOsA.Vm.Proofs.BuddyPages
