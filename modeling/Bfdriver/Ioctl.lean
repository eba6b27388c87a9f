import Bfdriver.Common

/-! # The ioctl layer

The module table that the drivers of Linux and Windows keep beside that of the common code, and the
handlers of their ioctls. The two drivers differ in how they copy from and to user memory and in the
function that frees a module, which are parameters here. -/

namespace Bfdriver

/-- `struct pmodule_t` -/
structure Pmodule where
  data : UInt64 := 0
  size : UInt64 := 0
  deriving Repr, DecidableEq, Inhabited

/-- The globals of a driver around those of the common code. -/
structure Driver where
  common : State
  vcpuid : UInt64
  numPmodules : Nat
  pmodules : List Pmodule
  deriving Repr, DecidableEq

/-- The buffers that the driver holds. -/
def Driver.held (d : Driver) : List Pmodule := d.pmodules.take d.numPmodules

def Driver.initial (k : Sdk) (s : State) : Driver :=
  { common := s, vcpuid := 0, numPmodules := 0, pmodules := List.replicate k.maxNumModules {} }

/-- `BF_IOCTL_SUCCESS` -/
abbrev bfIoctlSuccess : Int := 0

section Handlers
variable (E : Env)

/-- `ioctl_add_module` of a file of `len` bytes that `copy` copies to a buffer. -/
def ioctlAddModuleWith (copy : UInt64 → State → Int × State) (len : UInt64) (d : Driver) : Int × Driver :=
  if d.numPmodules ≥ E.sdk.maxNumModules then (E.sdk.ioctlFailure, d) else
  let buf := E.alloc d.common.trace .rw len
  let s := d.common.emit (.alloc .file len buf)
  if buf = 0 then (E.sdk.ioctlFailure, { d with common := s }) else
  let failed (s : State) : Int × Driver := (E.sdk.ioctlFailure, { d with common := s.emit (.free .rw buf len) })
  let r := copy buf s
  if r.1 ≠ 0 then failed r.2 else
  let r := commonAddModule E buf len r.2
  if r.1 ≠ bfSuccess then failed r.2 else
  (bfIoctlSuccess,
    { d with common := r.2, numPmodules := d.numPmodules + 1, pmodules := d.pmodules.set d.numPmodules ⟨buf, len⟩ })

/-- The loop of `ioctl_unload_vmm` over the buffers. -/
def freePmodules (kind : MemKind) : List Pmodule → State → State
  | [], s => s
  | p :: ps, s => freePmodules kind ps (s.emit (.free kind p.data p.size))

/-- `ioctl_unload_vmm` with the function that frees a buffer. -/
def ioctlUnloadVmmWith (kind : MemKind) (d : Driver) : Int × Driver :=
  let r := commonUnloadVmm E d.common
  let status := if r.1 ≠ bfSuccess then E.sdk.ioctlFailure else bfIoctlSuccess
  (status,
    { d with
      common := freePmodules kind d.held r.2
      numPmodules := 0
      pmodules := List.replicate E.sdk.maxNumModules {} })

/-- `ioctl_load_vmm` with the function that frees a buffer. -/
def ioctlLoadVmmWith (kind : MemKind) (fuel : Nat) (d : Driver) : Option Int × Driver :=
  let r := commonLoadVmm E fuel d.common
  let d := { d with common := r.2 }
  match r.1 with
  | none => (none, d)
  | some ret =>
    if ret ≠ bfSuccess then (some E.sdk.ioctlFailure, (ioctlUnloadVmmWith E kind d).2)
    else (some bfIoctlSuccess, d)

/-- `ioctl_stop_vmm` -/
def ioctlStopVmm (d : Driver) : Int × Driver :=
  let r := commonStopVmm E d.common
  (if r.1 ≠ bfSuccess then E.sdk.ioctlFailure else bfIoctlSuccess, { d with common := r.2 })

/-- `ioctl_start_vmm` -/
def ioctlStartVmm (d : Driver) : Int × Driver :=
  let r := commonStartVmm E d.common
  let d := { d with common := r.2 }
  if r.1 ≠ bfSuccess then (E.sdk.ioctlFailure, (ioctlStopVmm E d).2) else (bfIoctlSuccess, d)

/-- `ioctl_dump_vmm`; `copy` copies the debug ring at an address to the user. -/
def ioctlDumpVmmWith (copy : UInt64 → State → Int × State) (d : Driver) : Int × Driver :=
  let r := commonDumpVmm E E.drrAddr d.vcpuid d.common
  if r.1 ≠ bfSuccess then (E.sdk.ioctlFailure, { d with common := r.2 }) else
  let r := copy (E.drr r.2.trace) r.2
  (if r.1 ≠ 0 then E.sdk.ioctlFailure else bfIoctlSuccess, { d with common := r.2 })

end Handlers

end Bfdriver
