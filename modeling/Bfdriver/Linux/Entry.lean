import Bfdriver.Ioctl

/-! # The Linux driver

The ioctls of `arch/linux/entry.c`. Every access to user memory goes through `copy_from_user` and
`copy_to_user`. -/

namespace Bfdriver.Linux

/-- The globals of `entry.c` and of the common code. -/
structure Device extends Driver where
  moduleLength : UInt64
  deriving Repr, DecidableEq

/-- The commands of `dev_unlocked_ioctl` (`IOCTL_*`). -/
inductive Cmd where
  | addModule | addModuleLength | loadVmm | unloadVmm | startVmm | stopVmm | dumpVmm | vmmStatus | setVcpuid
  | other
  deriving Repr, DecidableEq

/-- `-EINVAL` -/
def einval : Int := -22

section Handlers
variable (E : Env)

def copyFromUser (target : CopyTarget) (src len : UInt64) (s : State) : Int × State :=
  let ret := E.copyFromUser s.trace src len
  (ret, s.emit (.copyFromUser target src len ret))

def copyToUser (dst : UInt64) (source : CopySource) (len : UInt64) (s : State) : Int × State :=
  let ret := E.copyToUser s.trace dst len
  (ret, s.emit (.copyToUser dst source len ret))

def ioctlAddModule (file : UInt64) (d : Device) : Int × Device :=
  let r := ioctlAddModuleWith E (fun buf => copyFromUser E (.buffer buf) file d.moduleLength) d.moduleLength d.toDriver
  (r.1, { d with toDriver := r.2 })

/-- A copy that fails leaves the global with whatever it has written. -/
def ioctlAddModuleLength (len : UInt64) (d : Device) : Int × Device :=
  if len = 0 then (E.sdk.ioctlFailure, d) else
  let r := copyFromUser E .moduleLength len 8 d.common
  let d := { d with common := r.2, moduleLength := E.userWord r.2.trace len }
  (if r.1 ≠ 0 then E.sdk.ioctlFailure else bfIoctlSuccess, d)

def ioctlUnloadVmm (d : Device) : Int × Device :=
  let r := ioctlUnloadVmmWith E .rw d.toDriver
  (r.1, { d with toDriver := r.2 })

def ioctlLoadVmm (fuel : Nat) (d : Device) : Option Int × Device :=
  let r := ioctlLoadVmmWith E .rw fuel d.toDriver
  (r.1, { d with toDriver := r.2 })

def ioctlDumpVmm (userDrr : UInt64) (d : Device) : Int × Device :=
  let r := ioctlDumpVmmWith E (fun drr => copyToUser E userDrr (.memory drr) (UInt64.ofNat E.sdk.drrSize)) d.toDriver
  (r.1, { d with toDriver := r.2 })

def ioctlVmmStatus (status : UInt64) (d : Device) : Int × Device :=
  if status = 0 then (E.sdk.ioctlFailure, d) else
  let r := copyToUser E status (.status d.common.vmmStatus) 8 d.common
  (if r.1 ≠ 0 then E.sdk.ioctlFailure else bfIoctlSuccess, { d with common := r.2 })

/-- A copy that fails leaves the global with whatever it has written. -/
def ioctlSetVcpuid (vcpuid : UInt64) (d : Device) : Int × Device :=
  if vcpuid = 0 then (E.sdk.ioctlFailure, d) else
  let r := copyFromUser E .vcpuid vcpuid 8 d.common
  let d := { d with common := r.2, vcpuid := E.userWord r.2.trace vcpuid }
  (if r.1 ≠ 0 then E.sdk.ioctlFailure else bfIoctlSuccess, d)

/-- The result `none` means that the ioctl is still in a page loop when the fuel is used up. -/
def devUnlockedIoctl (fuel : Nat) (cmd : Cmd) (arg : UInt64) (d : Device) : Option Int × Device :=
  let returns (r : Int × Device) : Option Int × Device := (some r.1, r.2)
  let driver (r : Int × Driver) : Option Int × Device := (some r.1, { d with toDriver := r.2 })
  match cmd with
  | .addModule => returns (ioctlAddModule E arg d)
  | .addModuleLength => returns (ioctlAddModuleLength E arg d)
  | .loadVmm => ioctlLoadVmm E fuel d
  | .unloadVmm => returns (ioctlUnloadVmm E d)
  | .startVmm => driver (ioctlStartVmm E d.toDriver)
  | .stopVmm => driver (ioctlStopVmm E d.toDriver)
  | .dumpVmm => returns (ioctlDumpVmm E arg d)
  | .vmmStatus => returns (ioctlVmmStatus E arg d)
  | .setVcpuid => returns (ioctlSetVcpuid E arg d)
  | .other => (some einval, d)

/-- `dev_init` -/
def devInit : Device :=
  { Driver.initial E.sdk (commonInit E (.initial E.sdk)).2 with moduleLength := 0 }

/-- `dev_reboot`, the notifier of a reboot -/
def devReboot (d : Device) : Device := { d with common := (commonFini E d.common).2 }

/-- `dev_exit` -/
def devExit (d : Device) : Device := { d with common := (commonFini E d.common).2 }

end Handlers

/-- The states between the ioctls of a run in which every ioctl is invoked in a state that satisfies `P`. -/
inductive ReachableBy (E : Env) (P : Device → Cmd → Prop) : Device → Prop where
  | init : ReachableBy E P (devInit E)
  | step {d e : Device} {ret : Int} (fuel : Nat) (cmd : Cmd) (arg : UInt64) (before : ReachableBy E P d)
      (allowed : P d cmd) (returned : devUnlockedIoctl E fuel cmd arg d = (some ret, e)) : ReachableBy E P e

/-- The functions that the kernel calls after `dev_init`. -/
inductive EntryPoint where
  | ioctl (cmd : Cmd) (arg : UInt64)
  | reboot
  | exit
  deriving Repr, DecidableEq

/-- `NOTIFY_DONE` -/
def notifyDone : Int := 0

/-- One call of the kernel; `dev_exit` has no result, which is given as zero. -/
def enter (E : Env) (fuel : Nat) : EntryPoint → Device → Option Int × Device
  | .ioctl cmd arg, d => devUnlockedIoctl E fuel cmd arg d
  | .reboot, d => (some notifyDone, devReboot E d)
  | .exit, d => (some 0, devExit E d)

/-! ### The words of the user -/

/-- The word that the user passes with a pointer: what a copy from there leaves in a global, after the calls of `t`. -/
def wordAt (E : Env) (target : CopyTarget) (src : UInt64) (t : Trace) : UInt64 :=
  E.userWord (.copyFromUser target src 8 (E.copyFromUser t src 8) :: t) src

theorem ioctlAddModuleLength_moduleLength {E : Env} {d : Device} {len : UInt64} (nonnull : len ≠ 0) :
    (ioctlAddModuleLength E len d).2.moduleLength = wordAt E .moduleLength len d.common.trace := by
  rw [ioctlAddModuleLength, if_neg nonnull]
  rfl

theorem ioctlSetVcpuid_vcpuid {E : Env} {d : Device} {vcpuid : UInt64} (nonnull : vcpuid ≠ 0) :
    (ioctlSetVcpuid E vcpuid d).2.vcpuid = wordAt E .vcpuid vcpuid d.common.trace := by
  rw [ioctlSetVcpuid, if_neg nonnull]
  rfl

end Bfdriver.Linux
