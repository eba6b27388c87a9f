import Bfdriver.Ioctl

/-! # The Windows driver

The device-control requests of `arch/windows/queue.c`. The handlers read the input buffer and write the
output buffer of a request directly; each access is an event with the size of the buffer. -/

namespace Bfdriver.Windows

/-- The codes of `bareflankEvtIoDeviceControl` (`IOCTL_*`). -/
inductive IoControlCode where
  | addModule | loadVmm | unloadVmm | startVmm | stopVmm | dumpVmm | vmmStatus | setVcpuid | other
  deriving Repr, DecidableEq

/-- A device-control request. The buffers are what `WdfRequestRetrieveInputBuffer` and
    `WdfRequestRetrieveOutputBuffer` return, if they succeed: the bytes of the one, the size of the other. -/
structure DeviceControl where
  code : IoControlCode
  inputBufferLength : Nat
  outputBufferLength : Nat
  input : Option (List UInt8)
  output : Option Nat
  input_size : ∀ bytes, input = some bytes → inputBufferLength ≤ bytes.length
  output_size : ∀ size, output = some size → outputBufferLength ≤ size

/-- A request with buffers of exactly the lengths that it names. -/
def DeviceControl.exact (code : IoControlCode) (input : List UInt8) (outputBufferLength : Nat) : DeviceControl where
  code := code
  inputBufferLength := input.length
  outputBufferLength := outputBufferLength
  input := some input
  output := some outputBufferLength
  input_size _ h := by cases h; exact Nat.le_refl _
  output_size _ h := by cases h; exact Nat.le_refl _

inductive NtStatus where
  | success | accessDenied
  deriving Repr, DecidableEq

/-- How a request is completed, with the argument of `WdfRequestSetInformation`. -/
structure Completion where
  status : NtStatus
  information : Nat := 0
  deriving Repr, DecidableEq

/-- The 64-bit word at the start of a buffer; what lies past the buffer is read as zero. -/
def wordAt (bytes : List UInt8) : UInt64 :=
  (bytes.take 8).foldr (fun byte word => word <<< 8 ||| byte.toUInt64) 0

section Handlers
variable (E : Env)

/-- `platform_memcpy` from the input buffer, which may be null, to the buffer at `dst`. -/
def memcpyFromInput (dst : UInt64) (file : Option (List UInt8)) (len : UInt64) (s : State) : State :=
  match file with
  | none => s
  | some bytes => s.emit (.readInput (.buffer dst) bytes 0 len.toNat)

/-- `platform_memcpy` of `num` bytes from `src` to the output buffer, both of which may be null. -/
def memcpyToOutput (out : Option Nat) (src : UInt64) (num : Nat) (s : State) : State :=
  match out with
  | none => s
  | some size => if src = 0 then s else s.emit (.writeOutput size 0 num (.memory src))

def ioctlAddModule (file : Option (List UInt8)) (len : UInt64) (d : Driver) : Int × Driver :=
  ioctlAddModuleWith E (fun buf s => (0, memcpyFromInput buf file len s)) len d

def ioctlUnloadVmm (d : Driver) : Int × Driver := ioctlUnloadVmmWith E .rwe d

def ioctlLoadVmm (fuel : Nat) (d : Driver) : Option Int × Driver := ioctlLoadVmmWith E .rwe fuel d

def ioctlDumpVmm (userDrr : Option Nat) (d : Driver) : Int × Driver :=
  ioctlDumpVmmWith E (fun drr s => (0, memcpyToOutput userDrr drr E.sdk.drrSize s)) d

def ioctlVmmStatus (status : Option Nat) (d : Driver) : Int × Driver :=
  match status with
  | none => (E.sdk.ioctlFailure, d)
  | some size =>
    (bfIoctlSuccess, { d with common := d.common.emit (.writeOutput size 0 8 (.status d.common.vmmStatus)) })

def ioctlSetVcpuid (vcpuid : Option (List UInt8)) (d : Driver) : Int × Driver :=
  match vcpuid with
  | none => (E.sdk.ioctlFailure, d)
  | some bytes =>
    (bfIoctlSuccess, { d with common := d.common.emit (.readInput .vcpuid bytes 0 8), vcpuid := wordAt bytes })

/-- The retrieval of a buffer: not attempted when the length is zero, which leaves a null pointer. -/
def retrieveBuffer {α : Type} (length : Nat) (buffer : Option α) : Option (Option α) :=
  if length ≠ 0 then buffer.map some else some none

/-- The switch of `bareflankEvtIoDeviceControl`; a code of no handler returns `none`. -/
def dispatch (fuel : Nat) (code : IoControlCode) (input : Option (List UInt8)) (output : Option Nat) (d : Driver) :
    Option (Option Int × Driver) :=
  let returns (r : Int × Driver) : Option (Option Int × Driver) := some (some r.1, r.2)
  match code with
  | .addModule => returns (ioctlAddModule E input (UInt64.ofNat (input.elim 0 List.length)) d)
  | .loadVmm => some (ioctlLoadVmm E fuel d)
  | .unloadVmm => returns (ioctlUnloadVmm E d)
  | .startVmm => returns (ioctlStartVmm E d)
  | .stopVmm => returns (ioctlStopVmm E d)
  | .dumpVmm => returns (ioctlDumpVmm E output d)
  | .vmmStatus => returns (ioctlVmmStatus E output d)
  | .setVcpuid => returns (ioctlSetVcpuid E input d)
  | .other => none

/-- The result `none` means that the request is still in a page loop when the fuel is used up. -/
def bareflankEvtIoDeviceControl (fuel : Nat) (q : DeviceControl) (d : Driver) : Option Completion × Driver :=
  match retrieveBuffer q.inputBufferLength q.input with
  | none => (some { status := .accessDenied }, d)
  | some input =>
    match retrieveBuffer q.outputBufferLength q.output with
    | none => (some { status := .accessDenied }, d)
    | some output =>
      match dispatch E fuel q.code input output d with
      | none => (some { status := .accessDenied }, d)
      | some (none, d) => (none, d)
      | some (some ret, d) =>
        let information := output.elim 0 id
        if ret ≠ bfIoctlSuccess then (some ⟨.accessDenied, information⟩, d) else (some ⟨.success, information⟩, d)

/-- `bareflankQueueInitialize` -/
def bareflankQueueInitialize : Driver := Driver.initial E.sdk (commonInit E (.initial E.sdk)).2

end Handlers

/-- The states between the requests of a run in which every request is invoked in a state that satisfies
    `P`. -/
inductive ReachableBy (E : Env) (P : Driver → IoControlCode → Prop) : Driver → Prop where
  | init : ReachableBy E P (bareflankQueueInitialize E)
  | step {d e : Driver} {c : Completion} (fuel : Nat) (q : DeviceControl) (before : ReachableBy E P d)
      (allowed : P d q.code) (returned : bareflankEvtIoDeviceControl E fuel q d = (some c, e)) : ReachableBy E P e

end Bfdriver.Windows
