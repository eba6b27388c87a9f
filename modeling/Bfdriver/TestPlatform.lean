import Bfdriver.Common
import Bfdriver.Lib.Runs

/-! # The test platform

The platform of `src/arch/test` with a VMM and an ELF loader that a test may make fail, and runs that are
given as lists of operations. -/

namespace Bfdriver
open Runs

/-! ### The environment of the tests -/

/-- Constants of the size that the SDK headers use. -/
def testSdk : Sdk where
  code
    | .unknown => -1
    | .invalidArg => -2
    | .outOfMemory => -3
    | .noModulesAdded => -4
    | .maxModulesReached => -5
    | .vmmInvalidState => -6
    | .vmmCorrupted => -7
    | .vmmStartFailed => -8
    | .vmmStopFailed => -9
  stackSize := 0x8000
  threadLocalStorageSize := 0x1000
  threadContextSize := 0x18
  maxPageSize := 0x1000
  maxNumModules := 25
  memoryTypeR := 1
  memoryTypeW := 2
  memoryTypeE := 4
  bfpfX := 1
  drrSize := 0x10000
  ioctlFailure := -1
  code_neg e := by cases e <;> decide
  ioctlFailure_ne := by decide

/-- The answers that a test may replace. -/
structure Mocks where
  numCpus : Int64 := 1
  setAffinity : Trace → Int → Int := fun _ _ => 0
  enter : Trace → Request → Int := fun _ _ => bfSuccess
  vmcall : Trace → VmcallOp → UInt64 := fun _ _ => 0
  getLoadInstr : Trace → Nat → Int := fun _ _ => bfSuccess
  drr : UInt64 := 0
  userWord : UInt64 := 0

/-- A page-aligned address that depends on the number of calls made before, if nothing lives there. -/
def testAlloc (t : Trace) : UInt64 :=
  let addr := 0x100000 * UInt64.ofNat (t.length + 1)
  if heap t addr = none then addr else 0

/-- Whether the next `n` allocations of a page of code all succeed. -/
def allocsSucceed : Nat → Trace → Bool
  | 0, _ => true
  | n + 1, t => testAlloc t ≠ 0 ∧ allocsSucceed n (.alloc .exec 0x1000 (testAlloc t) :: t)

def testImage : Image := ⟨0x1000, [⟨1, 0, 0x800⟩]⟩

/-- The test platform with a loader that gives each module one page of code. -/
def testEnv (mocks : Mocks) : Env where
  sdk := testSdk
  alloc t _ _ := testAlloc t
  numCpus _ := mocks.numCpus
  currentCpuNum _ := 0
  setAffinity := mocks.setAffinity
  virtToPhys _ virt := virt
  bfelfLoad t modules :=
    { images := modules.map fun _ => some testImage
      ret := if allocsSucceed modules.length t then bfSuccess else -1
      entry := 0x1000, sections := [], loader := [] }
  setIntegerArgs _ _ := bfSuccess
  getLoadInstr t _ i := mocks.getLoadInstr t i
  enter := mocks.enter
  drrAddr := 0x8000
  drr _ := mocks.drr
  vmcall := mocks.vmcall
  copyFromUser _ _ _ := 0
  copyToUser _ _ _ := 0
  userWord _ _ := mocks.userWord
  userBytes _ _ len := List.replicate len.toNat 0
  drrAddr_ne := by decide
  alloc_fresh t kind len h := by
    unfold testAlloc at h ⊢
    dsimp only at h ⊢
    split at h
    · rename_i hfree
      rwa [if_pos hfree]
    · contradiction

/-! ### Runs of a list of operations -/

/-- The state after `common_init` and the operations of a list. -/
def after (E : Env) (fuel : Nat) (ops : List Op) : State :=
  runFrom (exec E fuel) ops (commonInit E (.initial E.sdk)).2

/-- The operations that add, load and start one module. -/
def startOps : List Op := [.addModule 0x5000 100, .loadVmm, .startVmm]

section Runs
variable {E : Env} {fuel : Nat} {P : State → Op → Prop} {ops : List Op}

theorem reachableBy_after (hc : Completes (exec E fuel) P ops (commonInit E (.initial E.sdk)).2) :
    ReachableBy E P (after E fuel ops) :=
  hc.preserves (fun _ _ op _ before allowed returned => before.step fuel op allowed returned) .init

theorem reachable_after (hc : Completes (exec E fuel) (fun _ _ => True) ops (commonInit E (.initial E.sdk)).2) :
    Reachable E (after E fuel ops) := reachableBy_after hc

end Runs

end Bfdriver
