import Bfdriver.Types

/-! # The processors of the UEFI platform

The functions of `arch/uefi/Platform.c` that use the multi-processor services. The driver runs on the boot processor,
and gets to another one by making that the boot processor. -/

namespace Bfdriver.Uefi

def efiSuccess : UInt64 := 0

/-- `EFI_ERROR` -/
def efiError (status : UInt64) : Prop := status.toInt64 < 0

instance (status : UInt64) : Decidable (efiError status) := inferInstanceAs (Decidable (_ < _))

/-- The multi-processor services: the processors, and the status that each call returns. `WhoAmI` tells the boot
    processor if it succeeds, and the processor of a `SwitchBSP` that succeeds is the boot processor after it. -/
structure MpServices where
  numberOfProcessors : UInt64
  /-- the boot processor when the driver is loaded -/
  home : UInt64
  getNumberOfProcessors : Trace → UInt64
  whoAmI : Trace → UInt64
  enableDisableAp : Trace → UInt64 → UInt64
  switchBsp : Trace → UInt64 → UInt64

namespace MpServices
variable (M : MpServices)

/-- `platform_set_affinity` on a boot processor: its result, and the boot processor after it. -/
def platformSetAffinity (t : Trace) (bsp affinity : UInt64) : Int64 × UInt64 :=
  if M.whoAmI t ≠ efiSuccess then (-1, bsp) else
  let ret := bsp
  if ret = affinity then (ret.toInt64, bsp) else
  if M.enableDisableAp t affinity ≠ efiSuccess then (-1, bsp) else
  if M.switchBsp t affinity ≠ efiSuccess then (-1, bsp) else
  (ret.toInt64, affinity)

/-- `platform_set_affinity` gets to the call of `SwitchBSP`. -/
def Switches (t : Trace) (bsp affinity : UInt64) : Prop :=
  M.whoAmI t = efiSuccess ∧ bsp ≠ affinity ∧ M.enableDisableAp t affinity = efiSuccess

instance (t : Trace) (bsp affinity : UInt64) : Decidable (M.Switches t bsp affinity) :=
  inferInstanceAs (Decidable (_ ∧ _ ∧ _))

/-- The boot processor after a trace. `platform_restore_affinity` ignores the result of `platform_set_affinity`. -/
def bsp : Trace → UInt64
  | [] => M.home
  | .setAffinity cpuid _ :: t => (M.platformSetAffinity t (bsp t) (UInt64.ofInt cpuid)).2
  | .restoreAffinity affinity :: t => (M.platformSetAffinity t (bsp t) (UInt64.ofInt affinity)).2
  | _ :: t => bsp t

def platformNumCpus (t : Trace) : Int64 :=
  if efiError (M.getNumberOfProcessors t) then 0 else M.numberOfProcessors.toInt64

def platformGetCurrentCpuNum (t : Trace) : Int64 := if efiError (M.whoAmI t) then -1 else (M.bsp t).toInt64

/-- The driver on UEFI: `W` has the answers of the allocator, the VMM and the ELF loader. -/
def env (W : Env) : Env :=
  { W with
    numCpus := M.platformNumCpus
    currentCpuNum := M.platformGetCurrentCpuNum
    setAffinity := fun t cpuid => (M.platformSetAffinity t (M.bsp t) (UInt64.ofInt cpuid)).1.toInt
    virtToPhys := fun _ virt => virt }

end MpServices

end Bfdriver.Uefi
