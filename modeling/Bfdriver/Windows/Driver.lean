import Bfdriver.Windows.Queue

/-! # The callbacks of the Windows driver

The callbacks of `arch/windows/driver.c` that finalise the common code, beside the requests. -/

namespace Bfdriver.Windows

section Callbacks
variable (E : Env)

def bareflankEvtDeviceD0Exit (d : Driver) : Driver := { d with common := (commonFini E d.common).2 }

def bareflankEvtDriverContextCleanup (d : Driver) : Driver := { d with common := (commonFini E d.common).2 }

end Callbacks

/-- The functions that the framework calls after `bareflankQueueInitialize`. -/
inductive EntryPoint where
  | deviceControl (q : DeviceControl)
  | d0Exit
  | contextCleanup

/-- One call of the framework; a callback is given as completed with success. -/
def enter (E : Env) (fuel : Nat) : EntryPoint → Driver → Option Completion × Driver
  | .deviceControl q, d => bareflankEvtIoDeviceControl E fuel q d
  | .d0Exit, d => (some { status := .success }, bareflankEvtDeviceD0Exit E d)
  | .contextCleanup, d => (some { status := .success }, bareflankEvtDriverContextCleanup E d)

end Bfdriver.Windows
