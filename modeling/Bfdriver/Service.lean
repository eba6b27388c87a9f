import Bfdriver.Lifecycle
import Bfdriver.Linux.Entry
import Bfdriver.Windows.Driver

/-! # The service of the drivers

What the drivers of Linux and Windows are for. A call asks for an operation of the lifecycle, sets a parameter or asks
for the status, and succeeds or fails. Which modules fit is also a matter of the buffers that a driver holds: unloading
gives them back, whatever becomes of it, finalising does not. -/

namespace Bfdriver

/-! ### The machine -/

/-- What a call asks of a driver. -/
inductive Service where
  | operation (op : Op)
  | parameter
  | status
  | unknown
  deriving Repr, DecidableEq

/-- The lifecycle, the number of buffers that are held, and the statuses that were shown, newest first. -/
structure Session extends Lifecycle where
  buffers : Nat := 0
  shown : List VmmStatus := []
  deriving Repr, DecidableEq

/-- A module needs a buffer. -/
def Op.HasRoom (k : Sdk) (buffers : Nat) : Op → Prop
  | .addModule .. => buffers < k.maxNumModules
  | _ => True

instance (k : Sdk) (buffers : Nat) : DecidablePred (Op.HasRoom k buffers) := fun op => by
  cases op <;> unfold Op.HasRoom <;> infer_instance

/-- The buffers that are held after an operation that succeeds or not. -/
def Op.buffersAfter (succeeds : Bool) (buffers : Nat) : Op → Nat
  | .addModule .. => if succeeds then buffers + 1 else buffers
  | .loadVmm => if succeeds then buffers else 0
  | .unloadVmm => 0
  | .startVmm | .stopVmm | .dumpVmm .. | .fini => buffers

namespace Session
variable (cpus : Nat) (k : Sdk)

/-- An operation for which there is room is that of the lifecycle. -/
def perform (op : Op) (l : Session) : Option Bool × Session :=
  if ¬op.HasRoom k l.buffers then (some false, l) else
  let r := l.toLifecycle.exec cpus k op
  let succeeds : Bool := r.1 = some bfSuccess
  (some succeeds, { l with toLifecycle := r.2, buffers := op.buffersAfter succeeds l.buffers })

/-- Whether the call succeeds, and the new session. -/
def serve : Service → Session → Option Bool × Session
  | .operation op, l => l.perform cpus k op
  | .parameter, l => (some true, l)
  | .status, l => (some true, { l with shown := l.phase.status :: l.shown })
  | .unknown, l => (some false, l)

end Session

/-! ### The drivers -/

/-- The module that a driver asks the common code to add when it is given a file of `len` bytes. -/
def Driver.newModule (E : Env) (len : UInt64) (d : Driver) : Op := .addModule (E.alloc d.common.trace .rw len) len

/-- A result is `BF_IOCTL_SUCCESS`. -/
def isSuccess (ret : Int) : Bool := ret = bfIoctlSuccess

namespace Linux
variable (E : Env)

/-- What a call of the kernel asks for. -/
def asks : EntryPoint → Device → Service
  | .ioctl cmd arg, d =>
    match cmd with
    | .addModule => .operation (d.newModule E d.moduleLength)
    | .loadVmm => .operation .loadVmm
    | .unloadVmm => .operation .unloadVmm
    | .startVmm => .operation .startVmm
    | .stopVmm => .operation .stopVmm
    | .dumpVmm => .operation (.dumpVmm E.drrAddr d.vcpuid)
    | .addModuleLength | .setVcpuid => if arg = 0 then .unknown else .parameter
    | .vmmStatus => if arg = 0 then .unknown else .status
    | .other => .unknown
  | .reboot, _ | .exit, _ => .operation .fini

/-- Whether a call of the kernel succeeds, and the new state. -/
def answer (fuel : Nat) (p : EntryPoint) (d : Device) : Option Bool × Device :=
  let r := enter E fuel p d
  (r.1.map isSuccess, r.2)

end Linux

namespace Windows
variable (E : Env)

/-- What a request asks for, by the buffers that it comes with. -/
def asksOf (code : IoControlCode) (input : Option (List UInt8)) (output : Option Nat) (d : Driver) : Service :=
  match code with
  | .addModule => .operation (d.newModule E (UInt64.ofNat (input.elim 0 List.length)))
  | .loadVmm => .operation .loadVmm
  | .unloadVmm => .operation .unloadVmm
  | .startVmm => .operation .startVmm
  | .stopVmm => .operation .stopVmm
  | .dumpVmm => .operation (.dumpVmm E.drrAddr d.vcpuid)
  | .vmmStatus => if output.isNone then .unknown else .status
  | .setVcpuid => if input.isNone then .unknown else .parameter
  | .other => .unknown

/-- What a call of the framework asks for. -/
def asks : EntryPoint → Driver → Service
  | .deviceControl q, d =>
    match retrieveBuffer q.inputBufferLength q.input, retrieveBuffer q.outputBufferLength q.output with
    | some input, some output => asksOf E q.code input output d
    | _, _ => .unknown
  | .d0Exit, _ | .contextCleanup, _ => .operation .fini

/-- Whether a call of the framework succeeds, and the new state. -/
def answer (fuel : Nat) (p : EntryPoint) (d : Driver) : Option Bool × Driver :=
  let r := enter E fuel p d
  (r.1.map fun c => decide (c.status = .success), r.2)

end Windows

end Bfdriver
