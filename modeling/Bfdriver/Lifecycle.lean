import Bfdriver.Common

/-! # The lifecycle of the VMM

What the driver is for, without memory and without failures. Modules are collected, the VMM is loaded from them,
started on every CPU, stopped and unloaded again, and each operation is refused outside its phases. The machine
remembers what it told the VMM to do. -/

namespace Bfdriver

/-! ### Refusals -/

/-- The error with which an operation is refused in a status and with so many modules held. -/
def Op.refusal (k : Sdk) (status : VmmStatus) (held : Nat) : Op → Option ErrorCode
  | .addModule file fsize =>
    if file = 0 ∨ fsize = 0 then some .invalidArg else
    match status with
    | .unloaded => if k.maxNumModules ≤ held then some .maxModulesReached else none
    | .loaded | .running => some .vmmInvalidState
    | .corrupt => some .vmmCorrupted
  | .loadVmm =>
    match status with
    | .unloaded => if held = 0 then some .noModulesAdded else none
    | .loaded => none
    | .running => some .vmmInvalidState
    | .corrupt => some .vmmCorrupted
  | .unloadVmm =>
    match status with
    | .unloaded | .loaded => none
    | .running => some .vmmInvalidState
    | .corrupt => some .vmmCorrupted
  | .startVmm | .stopVmm =>
    match status with
    | .unloaded => some .vmmInvalidState
    | .loaded | .running => none
    | .corrupt => some .vmmCorrupted
  | .dumpVmm drr _ => if drr = 0 then some .invalidArg else if status = .unloaded then some .vmmInvalidState else none
  | .fini => if status = .corrupt then some .vmmCorrupted else none

section Refusal
variable {k : Sdk} {v : VmmStatus} {held : Nat}

@[simp] theorem Op.refusal_addModule {file fsize : UInt64} : (Op.addModule file fsize).refusal k v held = none ↔
    ¬(file = 0 ∨ fsize = 0) ∧ v = .unloaded ∧ held < k.maxNumModules := by
  simp only [Op.refusal]
  split
  · rename_i invalid
    exact iff_of_false nofun fun h => h.1 invalid
  · rename_i valid
    cases v <;> simp [valid]

@[simp] theorem Op.refusal_loadVmm :
    Op.loadVmm.refusal k v held = none ↔ v = .unloaded ∧ held ≠ 0 ∨ v = .loaded := by
  cases v <;> simp [Op.refusal]

@[simp] theorem Op.refusal_unloadVmm : Op.unloadVmm.refusal k v held = none ↔ v = .unloaded ∨ v = .loaded := by
  cases v <;> simp [Op.refusal]

@[simp] theorem Op.refusal_startVmm : Op.startVmm.refusal k v held = none ↔ v = .loaded ∨ v = .running := by
  cases v <;> simp [Op.refusal]

@[simp] theorem Op.refusal_stopVmm : Op.stopVmm.refusal k v held = none ↔ v = .loaded ∨ v = .running := by
  cases v <;> simp [Op.refusal]

@[simp] theorem Op.refusal_dumpVmm {drr vcpuid : UInt64} :
    (Op.dumpVmm drr vcpuid).refusal k v held = none ↔ drr ≠ 0 ∧ v ≠ .unloaded := by
  simp only [Op.refusal]
  split <;> cases v <;> simp [*]

@[simp] theorem Op.refusal_fini : Op.fini.refusal k v held = none ↔ v ≠ .corrupt := by
  cases v <;> simp [Op.refusal]

end Refusal

/-! ### The machine -/

/-- What the VMM is told to do, apart from what it is told of memory and asked for its log. -/
inductive Command where
  | init
  | fini
  | vmmInit (cpuid : Int)
  | vmmFini (cpuid : Int)
  | vmcall (op : VmcallOp) (cpuid : Int)
  deriving Repr, DecidableEq

inductive Phase where
  | unloaded | loaded | running
  deriving Repr, DecidableEq

def Phase.status : Phase → VmmStatus
  | .unloaded => .unloaded
  | .loaded => .loaded
  | .running => .running

/-- The phase, the modules that are held, and the commands so far, newest first. -/
structure Lifecycle where
  phase : Phase := .unloaded
  files : List (UInt64 × UInt64) := []
  commands : List Command := []
  deriving Repr, DecidableEq

/-- The commands that start the VMM on CPUs 0 to `n - 1`, newest first. -/
def startCommands (n : Nat) : List Command :=
  (List.range n).reverse.flatMap fun c : Nat => [.vmcall .start c, .vmmInit c]

/-- The commands that stop the VMM on CPUs `n - 1` to 0, newest first. -/
def stopCommands (n : Nat) : List Command :=
  (List.range n).flatMap fun c : Nat => [.vmmFini c, .vmcall .stop c]

namespace Lifecycle
variable (cpus : Nat) (l : Lifecycle)

def load : Lifecycle :=
  if l.phase = .unloaded then { l with phase := .loaded, commands := .init :: l.commands } else l

def unload : Lifecycle :=
  { commands := if l.phase = .loaded then .fini :: l.commands else l.commands }

/-- Without CPUs there is nothing to start. -/
def start : Lifecycle :=
  if l.phase = .loaded ∧ cpus ≠ 0 then { l with phase := .running, commands := startCommands cpus ++ l.commands } else l

def stop : Lifecycle :=
  if l.phase = .running then { l with phase := .loaded, commands := stopCommands cpus ++ l.commands } else l

def next : Op → Lifecycle
  | .addModule file fsize => { l with files := l.files ++ [(file, fsize)] }
  | .loadVmm => l.load
  | .unloadVmm => l.unload
  | .startVmm => l.start cpus
  | .stopVmm => l.stop cpus
  | .dumpVmm .. => l
  | .fini => (l.stop cpus).unload

/-- An operation that is not refused succeeds. -/
def exec (k : Sdk) (op : Op) : Option Int × Lifecycle :=
  match op.refusal k l.phase.status l.files.length with
  | some code => (some (k.code code), l)
  | none => (some bfSuccess, l.next cpus op)

end Lifecycle

end Bfdriver
