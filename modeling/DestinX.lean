import DestinX.Heap.BuddyGrowth
import DestinX.Paging.Isolation
import DestinX.Sched.RingRuns
import DestinX.Drivers.AhciRuns
import DestinX.Drivers.Time
import DestinX.Pmm.Preemption
import DestinX.Syscall.Return
import DestinX.Sched.ProcessThreads
import DestinX.Sched.Vector
import DestinX.Vm.HeapPages
import DestinX.Vm.StackGuards
import DestinX.Sched.ThreadMemory
import DestinX.Fs.Transparent
import DestinX.Fs.ConcurrentSync
import DestinX.Heap.HeapRestored
import DestinX.Vm.Vmalloc
import DestinX.Vm.OwnLists
import DestinX.Syscall.MappedFiles
import DestinX.Sched.RoundRobin
import DestinX.Vm.FreshPages
import DestinX.Terminal.Read
import DestinX.Vm.Elf
import DestinX.Sched.Context
import DestinX.Terminal.Lines
import DestinX.Drivers.AhciOutcomes
import DestinX.Syscall.FilePaths
import DestinX.Syscall.Clipping
import DestinX.Fs.FailedLookup
import DestinX.Fs.FailedLoads
import DestinX.Heap.KmallocReturns
import DestinX.Paging.Exhaustion
import DestinX.Pmm.FirstFit
import DestinX.Paging.DirectMap
import DestinX.Paging.GetPaddr
import DestinX.Pmm.Init
import DestinX.Drivers.Lfb
import DestinX.Drivers.Virtio
