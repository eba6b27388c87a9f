import Bfdriver.Types

/-! # The common driver code

The functions of `common.c`. Each takes the environment and the state, and returns the function's
result with the new state. The page loops take fuel, since nothing bounds them when a region ends in
the last page of the address space: the result `none` means that the loop is still going. -/

namespace Bfdriver

/-! ### Helpers -/

/-- The top of the stack that `setup_stack` computes for an allocation of `size` bytes at `stack`. -/
def stackTopOf (k : Sdk) (stack size : UInt64) : UInt64 :=
  ((stack + size) &&& ~~~(k.stackSize - 1)) - 1

def setupStack (E : Env) (s : State) : Int × State :=
  let s : State := { s with stackSize := E.sdk.stackSize * 2 }
  let stack := E.alloc s.trace .rw s.stackSize
  let s : State := { s.emit (.alloc .stack s.stackSize stack) with stack := stack }
  if s.stack = 0 then (E.sdk.code .outOfMemory, s) else
  let s : State := { s with stackTop := stackTopOf E.sdk s.stack s.stackSize }
  (bfSuccess, s.emit (.memset s.stack s.stackSize))

def setupTls (E : Env) (s : State) : Int × State :=
  let n := E.numCpus s.trace
  let s : State := { s.emit (.numCpus n) with tlsSize := E.sdk.threadLocalStorageSize * n.toUInt64 }
  let tls := E.alloc s.trace .rw s.tlsSize
  let s : State := { s.emit (.alloc .tls s.tlsSize tls) with tls := tls }
  if s.tls = 0 then (E.sdk.code .outOfMemory, s) else
  (bfSuccess, s.emit (.memset s.tls s.tlsSize))

/-- The thread context that `call_vmm` writes below the top of the stack. -/
def threadContextOf (k : Sdk) (s : State) (cpuid : Int64) : ThreadContext :=
  { addr := s.stackTop - k.threadContextSize
    cpuid := cpuid
    tlsptr := s.tls + k.threadLocalStorageSize * cpuid.toUInt64 }

def writeThreadContext (E : Env) (s : State) : State :=
  let cpuid := E.currentCpuNum s.trace
  let s := s.emit (.currentCpuNum cpuid)
  s.emit (.threadContext s.resources (threadContextOf E.sdk s cpuid))

/-- The call of `_start` in `call_vmm`. -/
def enterVmm (E : Env) (req : Request) (s : State) : Int × State :=
  if s.start ≠ 0 then
    let ret := E.enter s.trace req
    (ret, s.emit (.enter s.resources req (s.stackTop - E.sdk.threadContextSize - 1) ret))
  else (E.sdk.code .unknown, s)

def callVmm (E : Env) (req : Request) (s : State) : Int × State :=
  let ret := E.setIntegerArgs s.trace req
  let s := s.emit (.setIntegerArgs req ret)
  if ret ≠ bfSuccess then (ret, s) else
  let s : State := { s with info := { s.info with args := some req } }
  let r := enterVmm E req (writeThreadContext E s)
  (r.1, r.2.emit .restorePreemption)

def addRawMdToMemoryManager (E : Env) (virt type : UInt64) (s : State) : Int × State :=
  let phys := E.virtToPhys s.trace virt
  let s := s.emit (.virtToPhys virt phys)
  let r := callVmm E (.addMdl ⟨virt, phys, type⟩) s
  if r.1 ≠ bfSuccess then r else (bfSuccess, r.2)

/-- The loop over the pages from `page` to `last` that `add_md_to_memory_manager` runs for a segment and
    `common_load_vmm` for the TLS. -/
def pageLoop (E : Env) (type last : UInt64) : Nat → UInt64 → State → Option Int × State
  | 0, _, s => (none, s)
  | fuel + 1, page, s =>
    if page ≤ last then
      let r := addRawMdToMemoryManager E page type s
      if r.1 ≠ bfSuccess then (some r.1, r.2)
      else pageLoop E type last fuel (page + E.sdk.maxPageSize) r.2
    else (some bfSuccess, s)

def pageMask (k : Sdk) (addr : UInt64) : UInt64 := addr &&& ~~~(k.maxPageSize - 1)

/-- The memory type that a load instruction is registered with. -/
def LoadInstr.memoryType (k : Sdk) (instr : LoadInstr) : UInt64 :=
  if instr.perm &&& k.bfpfX ≠ 0 then k.memoryTypeR ||| k.memoryTypeE else k.memoryTypeR ||| k.memoryTypeW

/-- The body of the loop over the load instructions of a module. -/
def addSegment (E : Env) (fuel : Nat) (module : Binary) (instr : LoadInstr) (s : State) : Option Int × State :=
  let execS := pageMask E.sdk (module.exec + instr.memOffset)
  let execE := pageMask E.sdk (module.exec + instr.memOffset + instr.memsz)
  pageLoop E (instr.memoryType E.sdk) execE fuel execS s

def segmentLoop (E : Env) (fuel : Nat) (module : Binary) : List LoadInstr → Nat → State → Option Int × State
  | [], _, s => (some bfSuccess, s)
  | instr :: instrs, i, s =>
    let ret := E.getLoadInstr s.trace module i
    let s := s.emit (.getLoadInstr i ret)
    if ret ≠ bfSuccess then (some ret, s) else
    let r := addSegment E fuel module instr s
    if r.1 ≠ some bfSuccess then r else segmentLoop E fuel module instrs (i + 1) r.2

def addMdToMemoryManager (E : Env) (fuel : Nat) (module : Option Binary) (s : State) : Option Int × State :=
  match module with
  | none => (some (E.sdk.code .invalidArg), s)
  | some m => segmentLoop E fuel m m.ef 0 s

/-! ### The ELF loader -/

/-- What `bfelf_load` does to the module table: for each module it gets to, it allocates the memory of
    the image and overwrites `exec`, `exec_size` and the parsed file. -/
def loadImages (E : Env) : List Binary → List (Option Image) → State → List Binary × State
  | m :: ms, some image :: images, s =>
    let exec := E.alloc s.trace .rwe image.size
    let s := s.emit (.alloc .exec image.size exec)
    let r := loadImages E ms images s
    ({ m with exec := exec, execSize := image.size, ef := image.instrs } :: r.1, r.2)
  | m :: ms, none :: images, s =>
    let r := loadImages E ms images s
    (m :: r.1, r.2)
  | ms, _, s => (ms, s)

def bfelfLoad (E : Env) (s : State) : Int × State :=
  let plan := E.bfelfLoad s.trace s.added
  let files := s.added.map fun m => (m.file, m.fileSize)
  let r := loadImages E s.added plan.images s
  let s : State := { r.2 with
    modules := r.1 ++ s.modules.drop s.numModules
    start := plan.entry
    info := { s.info with sections := plan.sections }
    loader := plan.loader }
  (plan.ret, s.emit (.bfelfLoad files plan.ret))

/-! ### Reset -/

/-- The loop of `common_reset` over the modules. -/
def freeExecs : List Binary → State → State
  | [], s => s
  | m :: ms, s => freeExecs ms (if m.exec ≠ 0 then s.emit (.free .rwe m.exec m.execSize) else s)

def commonReset (E : Env) (s : State) : Int × State :=
  let s := freeExecs s.added s
  let s : State := { s with modules := List.replicate E.sdk.maxNumModules {}, loader := [], info := {} }
  let s : State := { s with start := 0, numModules := 0, numCpusStarted := 0, vmmStatus := .unloaded }
  let s := if s.tls ≠ 0 then s.emit (.free .rw s.tls s.tlsSize) else s
  let s := if s.stack ≠ 0 then s.emit (.free .rw s.stack s.stackSize) else s
  (bfSuccess, { s with tls := 0, stack := 0, stackTop := 0 })

def commonInit (E : Env) (s : State) : Int × State := commonReset E s

/-! ### Adding, loading and unloading -/

def commonAddModule (E : Env) (file fsize : UInt64) (s : State) : Int × State :=
  if file = 0 ∨ fsize = 0 then (E.sdk.code .invalidArg, s) else
  match s.vmmStatus with
  | .corrupt => (E.sdk.code .vmmCorrupted, s)
  | .loaded => (E.sdk.code .vmmInvalidState, s)
  | .running => (E.sdk.code .vmmInvalidState, s)
  | .unloaded =>
    if s.numModules ≥ E.sdk.maxNumModules then (E.sdk.code .maxModulesReached, s) else
    let m := s.modules.getD s.numModules {}
    let s : State := { s with modules := s.modules.set s.numModules { m with file := file, fileSize := fsize } }
    (bfSuccess, { s with numModules := s.numModules + 1 })

def commonUnloadVmm (E : Env) (s : State) : Int × State :=
  match s.vmmStatus with
  | .corrupt => (E.sdk.code .vmmCorrupted, { s with vmmStatus := .corrupt })
  | .running => (E.sdk.code .vmmInvalidState, s)
  | .unloaded => (bfSuccess, { (commonReset E s).2 with vmmStatus := .unloaded })
  | .loaded =>
    let r := callVmm E .fini s
    if r.1 ≠ bfSuccess then (E.sdk.code .vmmCorrupted, { r.2 with vmmStatus := .corrupt })
    else (bfSuccess, { (commonReset E r.2).2 with vmmStatus := .unloaded })

/-- The `failure` label of `common_load_vmm`. -/
def loadFailure (E : Env) (r : Option Int × State) : Option Int × State :=
  match r.1 with
  | none => r
  | some ret => (some ret, (commonUnloadVmm E r.2).2)

/-- The loop of `common_load_vmm` over the modules. -/
def moduleLoop (E : Env) (fuel : Nat) : List Binary → State → Option Int × State
  | [], s => (some bfSuccess, s)
  | m :: ms, s =>
    let r := addMdToMemoryManager E fuel (some m) s
    if r.1 ≠ some bfSuccess then r else moduleLoop E fuel ms r.2

/-- The loop of `common_load_vmm` over the pages of the TLS. -/
def tlsLoop (E : Env) (fuel : Nat) (s : State) : Option Int × State :=
  pageLoop E (E.sdk.memoryTypeR ||| E.sdk.memoryTypeW) (s.tls + s.tlsSize) fuel s.tls s

def commonLoadVmm (E : Env) (fuel : Nat) (s : State) : Option Int × State :=
  match s.vmmStatus with
  | .corrupt => (some (E.sdk.code .vmmCorrupted), s)
  | .loaded => (some bfSuccess, s)
  | .running => (some (E.sdk.code .vmmInvalidState), s)
  | .unloaded =>
    if s.numModules = 0 then (some (E.sdk.code .noModulesAdded), s) else
    let r := setupStack E s
    if r.1 ≠ bfSuccess then loadFailure E (some r.1, r.2) else
    let r := setupTls E r.2
    if r.1 ≠ bfSuccess then loadFailure E (some r.1, r.2) else
    let r := bfelfLoad E r.2
    if r.1 ≠ bfSuccess then loadFailure E (some r.1, r.2) else
    let r := callVmm E .init r.2
    if r.1 ≠ bfSuccess then loadFailure E (some r.1, r.2) else
    let r := moduleLoop E fuel r.2.added r.2
    if r.1 ≠ some bfSuccess then loadFailure E r else
    let r := tlsLoop E fuel r.2
    -- A page of the TLS that is refused leaves without going through `failure`.
    if r.1 ≠ some bfSuccess then r else
    (some bfSuccess, { r.2 with vmmStatus := .loaded })

/-! ### Starting and stopping -/

/-- How one round of a loop over the CPUs ends: with the next round, at the label `failure` or
    `corrupted`, or with a `return`. -/
inductive Exit where
  | next
  | fail (ret : Int)
  | ret (ret : Int)
  deriving Repr, DecidableEq

/-- The body of the loop of `common_stop_vmm`. -/
def stopCpu (E : Env) (cpuid : Int) (s : State) : Exit × State :=
  let affinity := E.setAffinity s.trace cpuid
  let s := s.emit (.setAffinity cpuid affinity)
  if affinity < 0 then (.fail affinity, s) else
  let r01 := E.vmcall s.trace .stop
  let s := s.emit (.vmcall .stop cpuid r01)
  if r01 ≠ 0 then (.ret (E.sdk.code .vmmStopFailed), s) else
  let r := callVmm E (.vmmFini cpuid) s
  if r.1 ≠ bfSuccess then (.fail r.1, r.2) else
  let s : State := { r.2 with numCpusStarted := r.2.numCpusStarted - 1 }
  (.next, (s.emit .platformStop).emit (.restoreAffinity affinity))

/-- The loop of `common_stop_vmm` over the CPUs below `n`, downward. -/
def stopLoop (E : Env) : Nat → State → Exit × State
  | 0, s => (.next, s)
  | n + 1, s =>
    let r := stopCpu E n s
    match r.1 with
    | .next => stopLoop E n r.2
    | _ => r

/-- What follows the loop of `common_stop_vmm`, with its label `corrupted`. -/
def stopExit (r : Exit × State) : Int × State :=
  match r.1 with
  | .next => (bfSuccess, { r.2 with vmmStatus := .loaded })
  | .fail ret => (ret, { r.2 with vmmStatus := .corrupt })
  | .ret ret => (ret, r.2)

def commonStopVmm (E : Env) (s : State) : Int × State :=
  match s.vmmStatus with
  | .corrupt => (E.sdk.code .vmmCorrupted, s)
  | .loaded => (bfSuccess, s)
  | .unloaded => (E.sdk.code .vmmInvalidState, s)
  | .running => stopExit (stopLoop E s.numCpusStarted.toNat s)

/-- The body of the loop of `common_start_vmm`. -/
def startCpu (E : Env) (cpuid : Int) (s : State) : Exit × State :=
  let affinity := E.setAffinity s.trace cpuid
  let s := s.emit (.setAffinity cpuid affinity)
  if affinity < 0 then (.fail affinity, s) else
  let r := callVmm E (.vmmInit cpuid) s
  if r.1 ≠ bfSuccess then (.fail r.1, r.2) else
  let s : State := { r.2 with numCpusStarted := r.2.numCpusStarted + 1 }
  let r01 := E.vmcall s.trace .start
  let s := s.emit (.vmcall .start cpuid r01)
  if r01 ≠ 0 then (.ret (E.sdk.code .vmmStartFailed), s) else
  let s := (s.emit .platformStart).emit (.restoreAffinity affinity)
  (.next, { s with vmmStatus := .running })

/-- The number of values that the loop variable of `common_start_vmm` can take. -/
def maxCpus : Nat := 0x8000000000000000

/-- The loop of `common_start_vmm` from `cpuid` on, with `rounds` values of the loop variable left. It
    asks for the number of CPUs before every round. With no value left the test fails, since no
    `int64_t` is above `cpuid` then. -/
def startLoop (E : Env) : Nat → Int → State → Exit × State
  | 0, _, s => (.next, s.emit (.numCpus (E.numCpus s.trace)))
  | rounds + 1, cpuid, s =>
    let n := E.numCpus s.trace
    let s := s.emit (.numCpus n)
    if cpuid < n.toInt then
      let r := startCpu E cpuid s
      match r.1 with
      | .next => startLoop E rounds (cpuid + 1) r.2
      | _ => r
    else (.next, s)

/-- What follows the loop of `common_start_vmm`, with its label `failure`. -/
def startExit (E : Env) (r : Exit × State) : Int × State :=
  match r.1 with
  | .next => (bfSuccess, r.2)
  | .fail ret => (ret, (commonStopVmm E r.2).2)
  | .ret ret => (ret, r.2)

def commonStartVmm (E : Env) (s : State) : Int × State :=
  match s.vmmStatus with
  | .corrupt => (E.sdk.code .vmmCorrupted, s)
  | .running => (bfSuccess, s)
  | .unloaded => (E.sdk.code .vmmInvalidState, s)
  | .loaded =>
    startExit E (startLoop E maxCpus 0 { s with numCpusStarted := 0 })

/-! ### Dumping and finalising -/

def commonDumpVmm (E : Env) (drr vcpuid : UInt64) (s : State) : Int × State :=
  if drr = 0 then (E.sdk.code .invalidArg, s) else
  if s.vmmStatus = .unloaded then (E.sdk.code .vmmInvalidState, s) else
  let r := callVmm E (.getDrr vcpuid drr) s
  if r.1 ≠ bfSuccess then r else (bfSuccess, r.2)

/-- The first step of `common_fini`: a running VMM is stopped. -/
def finiStop (E : Env) (s : State) : State :=
  if s.vmmStatus = .running then (commonStopVmm E s).2 else s

/-- The second step of `common_fini`: a loaded VMM is unloaded. -/
def finiUnload (E : Env) (s : State) : State :=
  if s.vmmStatus = .loaded then (commonUnloadVmm E s).2 else s

def commonFini (E : Env) (s : State) : Int × State :=
  let s := finiUnload E (finiStop E s)
  if s.vmmStatus = .corrupt then (E.sdk.code .vmmCorrupted, s) else
  if s.vmmStatus = .unloaded ∧ 0 < s.numModules then (bfSuccess, (commonReset E s).2)
  else (bfSuccess, s)

/-! ### Runs -/

/-- The operations that the entry points of the driver call after `common_init`. -/
inductive Op where
  | addModule (file fsize : UInt64)
  | loadVmm
  | unloadVmm
  | startVmm
  | stopVmm
  | dumpVmm (drr vcpuid : UInt64)
  | fini
  deriving Repr, DecidableEq

/-- One operation. The result `none` means that it is still in a page loop when the fuel is used up. -/
def exec (E : Env) (fuel : Nat) : Op → State → Option Int × State
  | .addModule file fsize, s => let r := commonAddModule E file fsize s; (some r.1, r.2)
  | .loadVmm, s => commonLoadVmm E fuel s
  | .unloadVmm, s => let r := commonUnloadVmm E s; (some r.1, r.2)
  | .startVmm, s => let r := commonStartVmm E s; (some r.1, r.2)
  | .stopVmm, s => let r := commonStopVmm E s; (some r.1, r.2)
  | .dumpVmm drr vcpuid, s => let r := commonDumpVmm E drr vcpuid s; (some r.1, r.2)
  | .fini, s => let r := commonFini E s; (some r.1, r.2)

/-- The states between the operations of a run in which every operation is invoked in a state that
    satisfies `P`. -/
inductive ReachableBy (E : Env) (P : State → Op → Prop) : State → Prop where
  | init : ReachableBy E P (commonInit E (.initial E.sdk)).2
  | step {s t : State} {ret : Int} (fuel : Nat) (op : Op) (before : ReachableBy E P s) (allowed : P s op)
      (returned : exec E fuel op s = (some ret, t)) : ReachableBy E P t

/-- What `common_init` establishes and every allowed operation that returns keeps holds throughout a run. -/
theorem ReachableBy.invariant {E : Env} {P : State → Op → Prop} {I : State → Prop} {s : State} (h : ReachableBy E P s)
    (init : I (commonInit E (.initial E.sdk)).2)
    (step : ∀ s fuel op, ReachableBy E P s → P s op → (exec E fuel op s).1.isSome → I s → I (exec E fuel op s).2) :
    I s := by
  induction h with
  | init => exact init
  | step fuel op before allowed returned ih =>
    have kept := step _ fuel op before allowed (by rw [returned]; rfl) ih
    rwa [returned] at kept

/-- The states between the operations of a run. -/
abbrev Reachable (E : Env) : State → Prop := ReachableBy E fun _ _ => True

end Bfdriver
