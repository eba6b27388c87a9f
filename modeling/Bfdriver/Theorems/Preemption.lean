import Bfdriver.Linux.Platform
import Bfdriver.Theorems.Entries
import Bfdriver.Theorems.Files
import Bfdriver.Theorems.Tls
import Bfdriver.Theorems.Turns

/-! # Preemption and migration on Linux

`call_vmm` asks for its CPU with preemption disabled and enables it again when the VMM has returned. So the driver
never sleeps with preemption disabled, and however the scheduler moves the thread, each request to a CPU and each
vmcall is made on that CPU, with the thread context of the CPU that the thread runs on. -/

namespace Bfdriver.Linux
open EventLog Scheduling

/-! ### Sleeping -/

/-- A call that may put the thread to sleep: it maps or unmaps memory, copies from or to a user, or moves the thread. -/
def MaySleep : Event → Prop
  | .alloc .. | .free .. | .copyFromUser .. | .copyToUser .. | .setAffinity .. | .bfelfLoad .. => True
  | _ => False

/-- The thread sleeps only with preemption enabled, and enters the VMM with preemption disabled once. -/
def Preemptible (past : Trace) (e : Event) : Prop :=
  (MaySleep e → preemptCount past = 0) ∧ (Enters e → preemptCount past = 1)

/-- A call that neither changes the preemption count nor enters the VMM. -/
def KeepsCount (e : Event) : Prop := getCpu e = false ∧ putCpu e = false ∧ ¬Enters e

/-- So far preemption was disabled in the right places, and it is enabled. -/
structure PreemptInv (t : Trace) : Prop where
  calls : AtEach Preemptible t
  count : preemptCount t = 0

/-! ### The preemption count -/

theorem keepsCount_of_outside {e : Event} (h : OutsideVmm e) : KeepsCount e := by
  cases e <;> first | exact ⟨rfl, rfl, id⟩ | exact h.elim

namespace PreemptInv
variable {E : Env} {s t : State} {l : Trace}

theorem cons (h : PreemptInv l) {e : Event} (he : KeepsCount e) : PreemptInv (e :: l) := by
  obtain ⟨get, put, inside⟩ := he
  refine ⟨h.calls.cons ⟨fun _ => h.count, fun enters => absurd enters inside⟩, ?_⟩
  exact (depth_cons get put).trans h.count

/-- A thread that asked for its CPU with preemption enabled writes its context with preemption disabled. -/
theorem written (h : PreemptInv l) (n : Int64) (res : Resources) (tc : ThreadContext) :
    AtEach Preemptible (.threadContext res tc :: .currentCpuNum n :: l) ∧
      preemptCount (.threadContext res tc :: .currentCpuNum n :: l) = 1 := by
  have counted : preemptCount (.currentCpuNum n :: l) = 1 := by
    simp [preemptCount, depth, getCpu, putCpu, show depth getCpu putCpu l = 0 from h.count]
  exact ⟨(h.calls.cons (e := .currentCpuNum n) ⟨False.elim, False.elim⟩).cons ⟨False.elim, fun _ => counted⟩, (depth_cons rfl rfl).trans counted⟩

theorem enabled (calls : AtEach Preemptible l) (count : preemptCount l = 1) :
    PreemptInv (.restorePreemption :: l) :=
  ⟨calls.cons ⟨False.elim, False.elim⟩, by simp [preemptCount, depth, getCpu, putCpu, show depth getCpu putCpu l = 1 from count]⟩

theorem call (h : PreemptInv s.trace) (req : Request) : PreemptInv (callVmm E req s).2.trace := by
  have asked : ∀ ret, PreemptInv (.setIntegerArgs req ret :: s.trace) := fun ret =>
    h.cons ⟨rfl, rfl, id⟩
  have calls := callVmm_callTrace E req s
  generalize (callVmm E req s).2.trace = l at calls ⊢
  cases calls with
  | argsRefused ret => exact asked ret
  | noEntry ret res tc cpuid => exact enabled ((asked ret).written _ _ _).1 ((asked ret).written _ _ _).2
  | entered ret ret' res res' tc sp cpuid =>
    obtain ⟨before, count⟩ := (asked ret).written tc.cpuid res tc
    exact enabled (before.cons ⟨False.elim, fun _ => count⟩) ((depth_cons rfl rfl).trans count)

/-- It does not matter on which CPU a call is made. -/
theorem rules (E : Env) : RoundRules E PreemptInv fun _ _ => True where
  outside := fun he h => h.cons (keepsCount_of_outside he)
  placed := fun _ => trivial
  call := fun h _ => h.call _
  stays := fun _ _ => trivial
  vmcall := fun _ _ h _ => ⟨h.cons ⟨rfl, rfl, id⟩, trivial⟩

end PreemptInv

/-- In every run of the driver, also within a call that has not returned, the thread sleeps only with preemption
    enabled and enters the VMM with preemption disabled once, and every call leaves preemption enabled. -/
theorem never_sleeps_atomic {E : Env} {d : Device} (h : Entered E d) (fuel : Nat) (p : EntryPoint) :
    AtEach Preemptible (enter E fuel p d).2.common.trace ∧ preemptCount (enter E fuel p d).2.common.trace = 0 := by
  have inv : PreemptInv (enter E fuel p d).2.common.trace :=
    h.keeps (I := fun s => PreemptInv s.trace) ⟨.nil, rfl⟩ (fun _ _ step before => (PreemptInv.rules E).driverTurn before step) fuel p
  exact ⟨inv.calls, inv.count⟩

/-- The calls of the kernel for the ioctls that add, load and start a module. -/
def startEntries : List (Nat × EntryPoint) := startIoctls.map fun i => (8, .ioctl i.1 i.2)

theorem never_sleeps_atomic_at_exit :
    let E := testEnv { userWord := 16 }
    let d := Runs.runFrom (fun i => enter E i.1 i.2) startEntries (devInit E)
    AtEach Preemptible (enter E 8 .exit d).2.common.trace ∧ preemptCount (enter E 8 .exit d).2.common.trace = 0 :=
  never_sleeps_atomic (Runs.Completes.reaches (by decide +kernel)) 8 .exit

/-! ### Migration -/

/-- The thread context names the CPU that the thread runs on, also when the VMM is entered, and what is meant for a CPU
    is done on that CPU. -/
def OnItsCpu (cpu : Trace → Int) (past : Trace) : Event → Prop
  | .threadContext _ tc => tc.cpuid = Int64.ofInt (cpu past)
  | .enter _ req _ _ => (∃ tc ∈ writtenContext past, tc.cpuid = Int64.ofInt (cpu past)) ∧ ∀ c ∈ req.cpu, cpu past = c
  | .vmcall _ c _ => cpu past = c
  | _ => True

theorem onItsCpu_of_outside {cpu : Trace → Int} {past : Trace} {e : Event} (h : OutsideVmm e) :
    OnItsCpu cpu past e := by
  cases e <;> first | exact h.elim | trivial

/-- With a negative answer the thread may be where it was, with another one it is bound to the CPU. -/
theorem binds_of_placed {K : Kernel} {k : Sdk} {t : Trace} {c : Int} (r : Int)
    (placed : ¬K.platformSetAffinity k t c < 0) : K.binds t (.setAffinity c r) = some c := by
  have failed := k.code_neg .unknown
  unfold Kernel.platformSetAffinity at placed
  split at placed
  · exact absurd failed placed
  · rename_i found
    split at placed
    · exact absurd failed placed
    · rename_i moved
      exact if_pos ⟨found, not_not.mp moved⟩

section Migration
variable {K : Kernel} {S : LinuxScheduler K} {W : Env} {s t : State} {c : Int}

/-- So far everything was done on its CPU. -/
structure CpuInv (S : LinuxScheduler K) (t : Trace) : Prop where
  preempt : PreemptInv t
  calls : AtEach (OnItsCpu S.cpu) t

namespace CpuInv

/-- What a call other than `platform_set_affinity` leaves the thread bound to. -/
theorem bound_call (E : Env) (req : Request) (s : State) :
    bound K.binds (callVmm E req s).2.trace = bound K.binds s.trace :=
  bound_grew (callVmm_carries E req s) fun _ e he => by cases e <;> first | rfl | exact he.elim

theorem call (h : CpuInv S s.trace) (req : Request) (bound : ∀ c ∈ req.cpu, bound K.binds s.trace = some c) :
    CpuInv S (callVmm (K.env S W) req s).2.trace := by
  refine ⟨h.preempt.call req, ?_⟩
  have asked : ∀ ret, AtEach (OnItsCpu S.cpu) (.setIntegerArgs req ret :: s.trace) := fun _ => h.calls.cons trivial
  -- The thread stays where it was when it asked for its CPU.
  have written : ∀ ret res (tc : ThreadContext), tc.cpuid = Int64.ofInt (S.cpu (.setIntegerArgs req ret :: s.trace)) →
      AtEach (OnItsCpu S.cpu) (.threadContext res tc :: .currentCpuNum tc.cpuid :: .setIntegerArgs req ret :: s.trace) ∧
        tc.cpuid = Int64.ofInt
          (S.cpu (.threadContext res tc :: .currentCpuNum tc.cpuid :: .setIntegerArgs req ret :: s.trace)) := by
    intro ret res tc cpuid
    have preempt : PreemptInv (.setIntegerArgs req ret :: s.trace) :=
      h.preempt.cons ⟨rfl, rfl, id⟩
    have disabled := (preempt.written tc.cpuid res tc).2
    have counted : 0 < preemptCount (.currentCpuNum tc.cpuid :: .setIntegerArgs req ret :: s.trace) := by
      rw [← show preemptCount (.threadContext res tc :: _) = preemptCount _ from depth_cons rfl rfl, disabled]
      exact Int.one_pos
    have first := S.stays _ (.currentCpuNum tc.cpuid) counted rfl
    have second := S.stays _ (.threadContext res tc) (disabled ▸ Int.one_pos) rfl
    refine ⟨((asked ret).cons trivial).cons ?_, ?_⟩
    · show tc.cpuid = _
      rw [first, cpuid]
    · rw [second, first, cpuid]
  have calls := callVmm_callTrace (K.env S W) req s
  generalize (callVmm (K.env S W) req s).2.trace = l at calls ⊢
  cases calls with
  | argsRefused ret => exact asked ret
  | noEntry ret res tc cpuid => exact (written ret res tc cpuid).1.cons trivial
  | entered ret ret' res res' tc sp cpuid =>
    obtain ⟨before, same⟩ := written ret res tc cpuid
    refine (before.cons ⟨⟨tc, rfl, same⟩, fun c hc => S.follows _ c ?_⟩).cons trivial
    exact bound c hc

end CpuInv

/-- A thread is on a CPU that it is bound to. -/
theorem CpuInv.rules (S : LinuxScheduler K) (W : Env) :
    RoundRules (K.env S W) (CpuInv S) fun c t => bound K.binds t = some c where
  outside := fun he h => ⟨h.preempt.cons (keepsCount_of_outside he), h.calls.cons (onItsCpu_of_outside he)⟩
  placed := fun nonneg => by simp [bound, binds_of_placed _ nonneg]
  call := fun h there => h.call _ there
  stays := fun req there => (bound_call _ req _).trans there
  vmcall := fun _ _ h there => ⟨⟨h.preempt.cons ⟨rfl, rfl, id⟩, h.calls.cons (S.follows _ _ there)⟩, there⟩

end Migration

/-- However the scheduler moves the thread between the calls of a run, every request for a CPU and every vmcall is made
    on that CPU, and the thread context of every entry to the VMM is that of the CPU that enters it. -/
theorem calls_on_their_cpu {K : Kernel} (S : LinuxScheduler K) (W : Env) {d : Device} (h : Entered (K.env S W) d)
    (fuel : Nat) (p : EntryPoint) : AtEach (OnItsCpu S.cpu) (enter (K.env S W) fuel p d).2.common.trace :=
  (h.keeps (I := fun s => CpuInv S s.trace) ⟨⟨.nil, rfl⟩, .nil⟩ (fun _ _ step before => (CpuInv.rules S W).driverTurn before step)
    fuel p).calls

/-- A kernel with two CPUs that grants everything. -/
def testKernel : Kernel where
  kallsymsLookupName _ := 1
  schedSetaffinity _ _ := 0
  numOnlineCpus _ := 2
  vmalloc t _ _ := testAlloc t
  vmalloc_fresh := (testEnv {}).alloc_fresh

theorem calls_on_their_cpu_of_two_cpus :
    let S : LinuxScheduler testKernel := .lazy getCpu putCpu testKernel.binds 1
    let E := testKernel.env S (testEnv { userWord := 16 })
    let d := Runs.runFrom (fun i => enter E i.1 i.2) startEntries (devInit E)
    AtEach (OnItsCpu S.cpu) (enter E 8 (.ioctl .stopVmm 0) d).2.common.trace :=
  calls_on_their_cpu (.lazy getCpu putCpu testKernel.binds 1) (testEnv { userWord := 16 })
    (Runs.Completes.reaches (by decide +kernel)) 8 (.ioctl .stopVmm 0)

end Bfdriver.Linux
