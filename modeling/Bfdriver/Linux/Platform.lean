import Bfdriver.Lib.Scheduling
import Bfdriver.Types

/-! # The platform of Linux

The functions of `arch/linux/platform.c`, over what the kernel answers. A thread that asks for its CPU is not
preempted until `platform_restore_preemption`, and stays bound to the last CPU that it was placed on. -/

namespace Bfdriver.Linux
open Scheduling

/-- The answers of the kernel. -/
structure Kernel where
  kallsymsLookupName : Trace → UInt64
  /-- the result of `sched_setaffinity` for the calling thread and one CPU -/
  schedSetaffinity : Trace → Int → Int
  numOnlineCpus : Trace → UInt32
  /-- `vmalloc`, or `__vmalloc` of executable pages -/
  vmalloc : Trace → MemKind → UInt64 → UInt64
  vmalloc_fresh : ∀ t kind len, vmalloc t kind len ≠ 0 → heap t (vmalloc t kind len) = none

namespace Kernel
variable (K : Kernel)

/-- `platform_alloc_rw` and `platform_alloc_rwe` -/
def platformAlloc (t : Trace) (kind : MemKind) (len : UInt64) : UInt64 := if len = 0 then 0 else K.vmalloc t kind len

def platformNumCpus (t : Trace) : Int64 :=
  let numCpus : Int64 := (K.numOnlineCpus t).toUInt64.toInt64
  if numCpus < 0 then 0 else numCpus

/-- The global `set_cpu_affinity` after a trace: the address of `sched_setaffinity` once it was found. -/
def setCpuAffinity : Trace → UInt64
  | [] => 0
  | .setAffinity .. :: t => if setCpuAffinity t = 0 then K.kallsymsLookupName t else setCpuAffinity t
  | _ :: t => setCpuAffinity t

/-- The function that `platform_set_affinity` calls, looked up the first time. -/
def affinityFunction (t : Trace) : UInt64 := if K.setCpuAffinity t = 0 then K.kallsymsLookupName t else K.setCpuAffinity t

def platformSetAffinity (k : Sdk) (t : Trace) (affinity : Int) : Int :=
  if K.affinityFunction t = 0 then k.code .unknown else
  if K.schedSetaffinity t affinity ≠ 0 then k.code .unknown else affinity

/-- The CPU that a call binds the thread to. -/
def binds (t : Trace) : Event → Option Int
  | .setAffinity cpuid _ =>
    if K.affinityFunction t ≠ 0 ∧ K.schedSetaffinity t cpuid = 0 then some cpuid else none
  | _ => none

end Kernel

/-- `get_cpu` in `platform_get_current_cpu_num` -/
def getCpu : Event → Bool
  | .currentCpuNum _ => true
  | _ => false

/-- `put_cpu` in `platform_restore_preemption` -/
def putCpu : Event → Bool
  | .restorePreemption => true
  | _ => false

/-- The preemption count of the thread after a trace. -/
abbrev preemptCount : Trace → Int := depth getCpu putCpu

/-- What may decide where a thread runs that makes the calls of the driver. -/
abbrev LinuxScheduler (K : Kernel) := Scheduler getCpu putCpu K.binds

/-- The driver on Linux: `W` has the answers of the VMM, the ELF loader and the users. -/
def Kernel.env (K : Kernel) (S : LinuxScheduler K) (W : Env) : Env where
  sdk := W.sdk
  alloc := K.platformAlloc
  numCpus := K.platformNumCpus
  currentCpuNum t := Int64.ofInt (S.cpu t)
  setAffinity := K.platformSetAffinity W.sdk
  virtToPhys := W.virtToPhys
  bfelfLoad := W.bfelfLoad
  setIntegerArgs := W.setIntegerArgs
  getLoadInstr := W.getLoadInstr
  enter := W.enter
  drrAddr := W.drrAddr
  drr := W.drr
  vmcall := W.vmcall
  copyFromUser := W.copyFromUser
  copyToUser := W.copyToUser
  userWord := W.userWord
  userBytes := W.userBytes
  drrAddr_ne := W.drrAddr_ne
  alloc_fresh t kind len h := by
    unfold platformAlloc at h ⊢
    split at h
    · exact absurd rfl h
    · rename_i hlen
      rw [if_neg hlen]
      exact K.vmalloc_fresh t kind len h

end Bfdriver.Linux
