import Bfdriver.Common
import Bfdriver.Cpus
import Bfdriver.Lifecycle
import Bfdriver.Vmcall
import Bfdriver.TestPlatform
import Bfdriver.Uefi.Platform
import Bfdriver.Uefi.PrepareProcessor
import Bfdriver.Linux.Entry
import Bfdriver.Linux.Platform
import Bfdriver.Windows.Queue
import Bfdriver.Windows.Driver
import Bfdriver.Windows.Platform
import Bfdriver.Theorems.Calls
import Bfdriver.Theorems.Load
import Bfdriver.Theorems.Protocol
import Bfdriver.Theorems.Status
import Bfdriver.Theorems.Coupling
import Bfdriver.Theorems.Releases
import Bfdriver.Theorems.Entries
import Bfdriver.Theorems.Teardown
import Bfdriver.Theorems.Finalise
import Bfdriver.Theorems.Files
import Bfdriver.Theorems.Buffers
import Bfdriver.Theorems.Residue
import Bfdriver.Theorems.Tls
import Bfdriver.Theorems.Registry
import Bfdriver.Theorems.Placement
import Bfdriver.Theorems.Orphans
import Bfdriver.Theorems.Agreement
import Bfdriver.Theorems.Clients
import Bfdriver.Theorems.Signs
import Bfdriver.Theorems.Registration
import Bfdriver.Theorems.Coverage
import Bfdriver.Theorems.Exclusive
import Bfdriver.Theorems.Mirror
import Bfdriver.Theorems.Rollback
import Bfdriver.Theorems.FailedLoad
import Bfdriver.Theorems.FailedStop
import Bfdriver.Theorems.Affinity
import Bfdriver.Theorems.StackLayout
import Bfdriver.Theorems.Atomic
import Bfdriver.Theorems.Gdt
import Bfdriver.Theorems.TssDescriptor
import Bfdriver.Theorems.Preemption
import Bfdriver.Theorems.DriverHeap
import Bfdriver.Theorems.DriverReleases
import Bfdriver.Theorems.VmcallStubs
import Bfdriver.Theorems.Reports
import Bfdriver.Theorems.Refinement
import Bfdriver.Theorems.FilePaths
import Bfdriver.Theorems.OwnTables
import Bfdriver.Theorems.Handover
import Bfdriver.Theorems.Services
import Bfdriver.Theorems.Recovery
import Bfdriver.Theorems.Writes
import Bfdriver.Theorems.LeakCheck
