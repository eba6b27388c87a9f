import Bfdriver.Common
import Bfdriver.Uefi.FileAccess
import Bfdriver.Uefi.PrepareProcessor

/-! # The boot of the UEFI driver

`UefiMain` of `arch/uefi/Driver.c` prepares every processor, adds the modules that were compiled into the driver, starts
the VMM and then the operating system. -/

namespace Bfdriver.Uefi
open DevicePath

/-! ### The processors -/

/-- The registers that each processor has for itself. -/
structure Registers where
  gdtr : Kdescriptor
  tr : UInt16
  eflags : UInt64
  deriving Repr, DecidableEq

/-- The machine with all of its processors. Other code may set their registers while the driver does not run. -/
structure Board where
  memory : ByteMemory.Memory
  inUse : List ByteMemory.Extent
  calls : List FirmwareCall
  processors : UInt64 → Registers

namespace Board

/-- The machine as a processor sees it. -/
def machine (b : Board) (p : UInt64) : Machine :=
  { memory := b.memory, inUse := b.inUse, calls := b.calls
    gdtr := (b.processors p).gdtr, tr := (b.processors p).tr, eflags := (b.processors p).eflags }

/-- The board after a processor has left the machine as `m`. -/
def leave (b : Board) (p : UInt64) (m : Machine) : Board :=
  { memory := m.memory, inUse := m.inUse, calls := m.calls
    processors := fun q => if q = p then ⟨m.gdtr, m.tr, m.eflags⟩ else b.processors q }

/-- The calls of the firmware after those of `b`. -/
def callsSince (b' b : Board) : List FirmwareCall := b'.calls.take (b'.calls.length - b.calls.length)

def prepareProcessor (F : Firmware) (p : UInt64) (b : Board) : EfiStatus × Board :=
  let r := Uefi.prepareProcessor F (b.machine p)
  (r.1, b.leave p r.2)

end Board

/-- What `CheckProcessor` prints. -/
structure ProcessorCheck where
  baseMiddle : BitVec 8
  type : BitVec 5
  present : BitVec 1
  tr : UInt16
  deriving Repr, DecidableEq

open Kgdtentry64 in
/-- `CheckProcessor`, which always succeeds -/
def checkProcessor (m : Machine) : ProcessorCheck × Machine :=
  let m : Machine := { m with eflags := m.eflags &&& ~~~((1 : UInt64) <<< 18) }
  let tssEntry := m.entryAt (m.gdtr.base + UInt64.ofNat kgdt64SysTss)
  (⟨baseMiddle.get tssEntry, type.get tssEntry, present.get tssEntry, m.tr⟩, m)

def Board.checkProcessor (p : UInt64) (b : Board) : ProcessorCheck × Board :=
  let r := Uefi.checkProcessor (b.machine p)
  (r.1, b.leave p r.2)

/-! ### The boot -/

/-- What the driver gets from the firmware, with the modules of `modules.list`. -/
structure BootServices where
  mp : MpServices
  pools : Firmware
  files : FileServices
  locateProtocol : UInt64
  getProcessorInfo : Trace → Nat → UInt64
  loadImage : UInt64
  startImage : UInt64
  modules : List (UInt64 × UInt64)
  /-- the memory that other code leaves behind, which has no business with the pools of the driver -/
  elapse : Trace → Board → ByteMemory.Memory
  elapse_inUse : ∀ t (b : Board), ∀ r ∈ b.inUse, ∀ a ∈ r, elapse t b a = b.memory a
  /-- the registers of the processors after `SwitchBSP`, which swaps some of them and resets others, or after the VMM
      has run -/
  registers : Trace → Board → UInt64 → Registers

/-- What the boot does besides the calls of the driver. A processor that prepares or checks itself is the boot
    processor, and has the GDTR that is given then. A preparation comes with the calls of the firmware that it made. -/
inductive BootEvent where
  | prepareProcessor (p : UInt64) (status : EfiStatus) (calls : List FirmwareCall) (gdtr : Kdescriptor)
  | checkProcessor (p : UInt64) (gdtr : Kdescriptor) (check : ProcessorCheck)
  /-- the firmware or the VMM has set the registers of the processors -/
  | settle
  /-- the start of the image that was loaded from a device path -/
  | startImage (dp : Option (List UInt8))
  deriving Repr, DecidableEq

/-- The driver, the processors, and what the boot has done so far, newest first. -/
structure Boot where
  common : State
  board : Board
  log : List BootEvent := []

namespace Boot

/-- The boot when the registers of the processors are set by other code. -/
def settle (B : BootServices) (b : Boot) : Boot :=
  { b with board := { b.board with processors := B.registers b.common.trace b.board }, log := .settle :: b.log }

def platformSetAffinity (B : BootServices) (E : Env) (affinity : Nat) (b : Boot) : Boot :=
  let t := b.common.trace
  let b := { b with common := b.common.emit (.setAffinity affinity (E.setAffinity t affinity)) }
  if B.mp.Switches t (B.mp.bsp t) (UInt64.ofInt affinity) then b.settle B else b

/-- The boot when the driver gets to use the memory again. -/
def elapse (B : BootServices) (b : Boot) : Boot :=
  { b with board := { b.board with memory := B.elapse b.common.trace b.board } }

def prepareProcessor (B : BootServices) (b : Boot) : Boot :=
  let b := b.elapse B
  let p := B.mp.bsp b.common.trace
  let r := b.board.prepareProcessor B.pools p
  { b with board := r.2, log := .prepareProcessor p r.1 (r.2.callsSince b.board) (r.2.machine p).gdtr :: b.log }

def checkProcessor (B : BootServices) (b : Boot) : Boot :=
  let b := b.elapse B
  let p := B.mp.bsp b.common.trace
  let r := b.board.checkProcessor p
  { b with board := r.2, log := .checkProcessor p (b.board.machine p).gdtr r.1 :: b.log }

end Boot

/-- The loops of `UefiMain` over the processors, for `n` processors from `i` on, with the last status. -/
def processorLoop (B : BootServices) (E : Env) (body : Boot → Boot) : Nat → Nat → UInt64 → Boot → UInt64 × Boot
  | 0, _, status, b => (status, b)
  | n + 1, i, _, b =>
    let b := b.platformSetAffinity B E i
    let status := B.getProcessorInfo b.common.trace i
    if efiError status then (status, b) else
    processorLoop B E body n (i + 1) status (body b)

/-- The first loop prepares each processor. -/
def prepareLoop (B : BootServices) (E : Env) : Nat → Nat → UInt64 → Boot → UInt64 × Boot :=
  processorLoop B E fun b => (b.prepareProcessor B).checkProcessor B

/-- The second loop prints what the first one did. -/
def checkLoop (B : BootServices) (E : Env) : Nat → Nat → UInt64 → Boot → UInt64 × Boot :=
  processorLoop B E fun b => b.checkProcessor B

/-- `add_hypervisor_modules`, which stops at the first module that is refused -/
def addHypervisorModules (E : Env) : List (UInt64 × UInt64) → State → State
  | [], s => s
  | (mod, modLen) :: mods, s =>
    let r := commonAddModule E mod modLen s
    if r.1 < 0 then r.2 else addHypervisorModules E mods r.2

/-- The path of the next boot step. -/
def nativeEfi : WideString where
  chars := "\\EFI\\Boot\\native.efi".toList.map fun c => UInt16.ofNat c.toNat
  no_nul := by decide

/-- What `UefiMain` does when the VMM was started. -/
def bootNative (B : BootServices) (b : Boot) : UInt64 × Boot :=
  let dp := generateFileDP B.files nativeEfi
  if efiError dp.1 then (dp.1, b) else
  if efiError B.loadImage then (B.loadImage, b) else
  (B.startImage, { b with log := .startImage dp.2 :: b.log })

/-- What `UefiMain` does when the processors are prepared, with the last status. -/
def bootVmm (B : BootServices) (E : Env) (fuel : Nat) (status : UInt64) (b : Boot) : Option UInt64 × Boot :=
  let b := { b with common := addHypervisorModules E B.modules b.common }
  let r := commonLoadVmm E fuel b.common
  let b := { b with common := r.2 }.settle B
  match r.1 with
  | none => (none, b)
  | some ret =>
    if ret < 0 then (some status, b) else
    let b := b.prepareProcessor B
    let r := commonStartVmm E b.common
    let b := { b with common := r.2 }.settle B
    if r.1 < 0 then (some status, b) else
    let r := bootNative B b
    (some r.1, r.2)

/-- `UefiMain`, with the status that it returns, should the load of the VMM come to an end. -/
def uefiMain (B : BootServices) (W : Env) (fuel : Nat) (board : Board) : Option UInt64 × Boot :=
  let E := B.mp.env W
  let b : Boot := { common := (commonInit E (.initial E.sdk)).2, board := board }
  if efiError B.locateProtocol then (some B.locateProtocol, b) else
  let status := B.mp.getNumberOfProcessors b.common.trace
  if efiError status then (some status, b) else
  let cpus := B.mp.numberOfProcessors.toNat
  let r := prepareLoop B E cpus 0 status b
  if efiError r.1 then (some r.1, r.2) else
  let r := checkLoop B E cpus 0 r.1 r.2
  if efiError r.1 then (some r.1, r.2) else
  bootVmm B E fuel r.1 (r.2.platformSetAffinity B E 0)

end Bfdriver.Uefi
