import Bfdriver.Lib.EventLog
import Bfdriver.Lib.BlockHeap

/-! # The data model of the common driver code

The globals of `common.c`, the requests and calls that leave the driver, and the two views of a trace
of such calls that the results are about: the heap it leaves behind and the signals that passed
between the driver and the VMM. -/

namespace Bfdriver
open BlockHeap

/-! ### Constants of the SDK -/

/-- `BF_SUCCESS`, which is also `BFELF_SUCCESS` and `MEMORY_MANAGER_SUCCESS`. -/
abbrev bfSuccess : Int := 0

/-- The error codes that the driver returns by name (`BF_ERROR_*` and `ENTRY_ERROR_*`). -/
inductive ErrorCode where
  | unknown | invalidArg | outOfMemory | noModulesAdded | maxModulesReached
  | vmmInvalidState | vmmCorrupted | vmmStartFailed | vmmStopFailed
  deriving Repr, DecidableEq

/-- The constants that the driver takes from the SDK headers. -/
structure Sdk where
  code : ErrorCode → Int
  stackSize : UInt64
  threadLocalStorageSize : UInt64
  threadContextSize : UInt64
  maxPageSize : UInt64
  maxNumModules : Nat
  memoryTypeR : UInt64
  memoryTypeW : UInt64
  memoryTypeE : UInt64
  bfpfX : UInt64
  /-- `sizeof(struct debug_ring_resources_t)` -/
  drrSize : Nat
  /-- `BF_IOCTL_FAILURE`; `BF_IOCTL_SUCCESS` is zero -/
  ioctlFailure : Int
  code_neg : ∀ e, code e < 0
  ioctlFailure_ne : ioctlFailure ≠ 0

inductive VmmStatus where
  | unloaded | loaded | running | corrupt
  deriving Repr, DecidableEq

/-! ### Modules -/

/-- The fields of `struct bfelf_load_instr` that the driver reads. -/
structure LoadInstr where
  perm : UInt64
  memOffset : UInt64
  memsz : UInt64
  deriving Repr, DecidableEq

/-- `struct bfelf_binary_t`; `ef` holds the load instructions of the parsed file. -/
structure Binary where
  file : UInt64 := 0
  fileSize : UInt64 := 0
  exec : UInt64 := 0
  execSize : UInt64 := 0
  ef : List LoadInstr := []
  deriving Repr, DecidableEq, Inhabited

/-! ### Calls that leave the driver -/

/-- `struct memory_descriptor` -/
structure MemoryDescriptor where
  virt : UInt64
  phys : UInt64
  type : UInt64
  deriving Repr, DecidableEq

/-- A request to the VMM with the arguments it carries (`BF_REQUEST_*`). -/
inductive Request where
  | init
  | fini
  | addMdl (md : MemoryDescriptor)
  | vmmInit (cpuid : Int)
  | vmmFini (cpuid : Int)
  | getDrr (vcpuid drr : UInt64)
  deriving Repr, DecidableEq

/-- `VMCALL_START` and `VMCALL_STOP` -/
inductive VmcallOp where
  | start | stop
  deriving Repr, DecidableEq

/-- `platform_alloc_rw` and `platform_free_rw`, or `platform_alloc_rwe` and `platform_free_rwe` -/
inductive MemKind where
  | rw | rwe
  deriving Repr, DecidableEq

/-- What an allocation is made for. -/
inductive AllocSite where
  | stack | tls | exec | file
  deriving Repr, DecidableEq

def AllocSite.kind : AllocSite → MemKind
  | .stack | .tls | .file => .rw
  | .exec => .rwe

structure Block where
  site : AllocSite
  len : UInt64
  deriving Repr, DecidableEq

/-- The memory that the driver's globals name when it enters the VMM. -/
structure Resources where
  stack : UInt64
  stackSize : UInt64
  stackTop : UInt64
  tls : UInt64
  tlsSize : UInt64
  modules : List Binary
  deriving Repr, DecidableEq

/-- `struct thread_context_t`, with the address at which the driver writes it -/
structure ThreadContext where
  addr : UInt64
  cpuid : Int64
  tlsptr : UInt64
  deriving Repr, DecidableEq

/-- What a copy from the user fills: a buffer at an address, or a global of the driver. -/
inductive CopyTarget where
  | buffer (addr : UInt64)
  | moduleLength
  | vcpuid
  deriving Repr, DecidableEq

/-- What the driver hands to the user: memory at an address, or the status of the VMM. -/
inductive CopySource where
  | memory (addr : UInt64)
  | status (status : VmmStatus)
  deriving Repr, DecidableEq

/-- A call that leaves the driver, with its arguments and its result. Entries to the VMM also keep the
    memory that the globals named at that moment, a vmcall the CPU the driver placed itself on, and accesses
    to the buffers of a device-control request the bytes or the size of the buffer. -/
inductive Event where
  | alloc (site : AllocSite) (len addr : UInt64)
  | free (kind : MemKind) (addr len : UInt64)
  | memset (ptr num : UInt64)
  | numCpus (n : Int64)
  | currentCpuNum (n : Int64)
  | setAffinity (cpuid ret : Int)
  | restoreAffinity (affinity : Int)
  | platformStart
  | platformStop
  | restorePreemption
  | virtToPhys (virt phys : UInt64)
  | bfelfLoad (files : List (UInt64 × UInt64)) (ret : Int)
  | setIntegerArgs (req : Request) (ret : Int)
  | getLoadInstr (s : Nat) (ret : Int)
  | threadContext (res : Resources) (tc : ThreadContext)
  | enter (res : Resources) (req : Request) (sp : UInt64) (ret : Int)
  | vmcall (op : VmcallOp) (cpuid : Int) (r01 : UInt64)
  | copyFromUser (target : CopyTarget) (src len : UInt64) (ret : Int)
  | copyToUser (dst : UInt64) (source : CopySource) (len : UInt64) (ret : Int)
  | readInput (target : CopyTarget) (bytes : List UInt8) (off len : Nat)
  | writeOutput (size off len : Nat) (source : CopySource)
  deriving Repr, DecidableEq

/-- The calls made so far, newest first. -/
abbrev Trace := List Event

/-! ### The heap of a trace -/

/-- What a call does to memory; a null result allocates nothing. -/
def memOp? : Event → Option (MemOp UInt64 Block)
  | .alloc site len addr => if addr = 0 then none else some (.alloc addr ⟨site, len⟩)
  | .free _ addr _ => some (.free addr)
  | _ => none

/-- The live allocations after a trace, by address. -/
def heap (t : Trace) : UInt64 → Option Block := heapOf (t.filterMap memOp?)

/-! ### The signals of a trace -/

/-- What the VMM has seen of the driver: a request that `call_vmm` reported as successful, or a vmcall
    and whether it was accepted. -/
inductive Signal where
  | accepted (res : Resources) (req : Request)
  | vmcall (op : VmcallOp) (cpuid : Int) (ok : Bool)
  deriving Repr, DecidableEq

def signal? : Event → Option Signal
  | .enter res req _ ret => if ret = bfSuccess then some (.accepted res req) else none
  | .vmcall op cpuid r01 => some (.vmcall op cpuid (r01 = 0))
  | _ => none

def signals (t : Trace) : List Signal := t.filterMap signal?

/-! ### The state -/

/-- `struct crt_info_t`: the integer arguments and what the loader left for the CRT. -/
structure CrtInfo where
  args : Option Request := none
  sections : List UInt64 := []
  deriving Repr, DecidableEq

/-- The globals of `common.c`, and the trace of the calls made so far. -/
structure State where
  numModules : Nat
  modules : List Binary
  start : UInt64
  info : CrtInfo
  loader : List UInt64
  numCpusStarted : Int
  vmmStatus : VmmStatus
  tls : UInt64
  stack : UInt64
  tlsSize : UInt64
  stackSize : UInt64
  stackTop : UInt64
  trace : Trace
  deriving Repr, DecidableEq

namespace State

def emit (s : State) (e : Event) : State := { s with trace := e :: s.trace }

/-- The modules that were added. -/
def added (s : State) : List Binary := s.modules.take s.numModules

def resources (s : State) : Resources :=
  { stack := s.stack, stackSize := s.stackSize, stackTop := s.stackTop, tls := s.tls, tlsSize := s.tlsSize,
    modules := s.added }

/-- The static initialisation of the globals. -/
def initial (k : Sdk) : State :=
  { numModules := 0, modules := List.replicate k.maxNumModules {}, start := 0, info := {}, loader := [],
    numCpusStarted := 0, vmmStatus := .unloaded, tls := 0, stack := 0, tlsSize := 0, stackSize := 0,
    stackTop := 0, trace := [] }

end State

/-! ### The environment -/

/-- What `bfelf_load` finds in one module file. -/
structure Image where
  size : UInt64
  instrs : List LoadInstr
  deriving Repr, DecidableEq

/-- How a call of `bfelf_load` goes: the image of each module it gets to, its result, and what it
    writes through its other arguments. -/
structure LoadPlan where
  images : List (Option Image)
  ret : Int
  entry : UInt64
  sections : List UInt64
  loader : List UInt64
  deriving Repr, DecidableEq

/-- Everything outside the driver: the platform, the ELF loader and the VMM. Each answer may depend on
    all calls made before, so an environment is one way in which all external calls of a run go. -/
structure Env where
  sdk : Sdk
  alloc : Trace → MemKind → UInt64 → UInt64
  numCpus : Trace → Int64
  currentCpuNum : Trace → Int64
  setAffinity : Trace → Int → Int
  virtToPhys : Trace → UInt64 → UInt64
  bfelfLoad : Trace → List Binary → LoadPlan
  setIntegerArgs : Trace → Request → Int
  getLoadInstr : Trace → Binary → Nat → Int
  enter : Trace → Request → Int
  /-- the address of the variable `drr` of `ioctl_dump_vmm` -/
  drrAddr : UInt64
  /-- the pointer the VMM leaves in that variable -/
  drr : Trace → UInt64
  vmcall : Trace → VmcallOp → UInt64
  copyFromUser : Trace → UInt64 → UInt64 → Int
  copyToUser : Trace → UInt64 → UInt64 → Int
  /-- the value a 64-bit user copy leaves in its destination -/
  userWord : Trace → UInt64 → UInt64
  /-- the bytes a user copy of some length leaves in a buffer -/
  userBytes : Trace → UInt64 → UInt64 → List UInt8
  drrAddr_ne : drrAddr ≠ 0
  /-- the allocator never hands out memory that is in use -/
  alloc_fresh : ∀ t kind len, alloc t kind len ≠ 0 → heap t (alloc t kind len) = none

end Bfdriver
