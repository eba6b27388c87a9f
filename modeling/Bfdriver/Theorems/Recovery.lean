import Bfdriver.Theorems.FailedStop
import Bfdriver.Theorems.Services

/-! # Recovery

Calls fail, and what is left of a start or a load then depends on where it failed. A driver that is not corrupt is as
good as new all the same once it was stopped and unloaded: what it does from then on is the service of a new session. -/

namespace Bfdriver
open EventLog Runs

/-- A new session of a driver that already told the VMM and showed the user something. -/
def Driver.newSession (d : Driver) : Session := { commands := commands d.common.trace, shown := shown d.common.trace }

section Handlers
variable {E : Env} {n : Int64} {fuel : Nat} {kind : MemKind} {d e : Driver} {r : Option Bool}

theorem Handling.hasEntry {b : Bool} (h : Handling E fuel kind d b e) (entry : HasEntry d.common) : HasEntry e.common :=
  h.keeps (fun op s before => (exec_effect E fuel op s).hasEntry before) (fun _ _ before => before) entry

theorem Handling.corrupt {b : Bool} (h : Handling E fuel kind d b e) (corrupt : d.common.vmmStatus = .corrupt) :
    e.common.vmmStatus = .corrupt :=
  h.keeps (I := fun s => s.vmmStatus = .corrupt) (fun op _ before => exec_corrupt before fuel op) (fun _ _ before => before)
    corrupt

theorem Serving.of_stopVmm (h : Serving E fuel kind d (.operation .stopVmm) r e) : r.isSome ∧ e = (ioctlStopVmm E d).2 := by
  generalize asked : Service.operation .stopVmm = q at h
  cases h <;> first | exact ⟨rfl, rfl⟩ | cases asked

theorem Serving.of_unloadVmm (h : Serving E fuel kind d (.operation .unloadVmm) r e) :
    r.isSome ∧ e = (ioctlUnloadVmmWith E kind d).2 := by
  generalize asked : Service.operation .unloadVmm = q at h
  cases h <;> first | exact ⟨rfl, rfl⟩ | cases asked

/-- Whatever a start has left behind, a stop in which no call fails leaves nothing running. -/
theorem ioctlStopVmm_settles (steady : Steady E n fuel) (entry : HasEntry d.common)
    (well : WellServed E (.operation .stopVmm) d (ioctlStopVmm E d).2) (active : d.common.vmmStatus ≠ .corrupt) :
    (ioctlStopVmm E d).2.common.vmmStatus = .unloaded ∨ (ioctlStopVmm E d).2.common.vmmStatus = .loaded := by
  show (commonStopVmm E d.common).2.vmmStatus = _ ∨ (commonStopVmm E d.common).2.vmmStatus = _
  rcases status : d.common.vmmStatus with _ | _ | _ | _
  · rw [commonStopVmm_refused E (by simp [status])]
    exact .inl status
  · rw [commonStopVmm_refused E (by simp [status])]
    exact .inr status
  · have answered : WellAnswered E fuel d.common .stopVmm := well.wellAnswered (List.suffix_refl _)
    have ok := answered.succeeds steady.pages steady.enough steady.entry entry (Op.refusal_stopVmm.mpr (.inr status))
    exact .inr ((commonStopVmm_success_iff status).mp (Option.some.inj ok.1))
  · exact absurd status active

/-- After an unload in which no call fails a new session begins. -/
theorem ioctlUnloadVmmWith_renews (steady : Steady E n fuel) (entry : HasEntry d.common)
    (well : WellServed E (.operation .unloadVmm) d (ioctlUnloadVmmWith E kind d).2)
    (settled : d.common.vmmStatus = .unloaded ∨ d.common.vmmStatus = .loaded) :
    Serves n.toInt.toNat (ioctlUnloadVmmWith E kind d).2 (ioctlUnloadVmmWith E kind d).2.newSession := by
  have freed := freePmodules_unnoticed kind d.held (commonUnloadVmm E d.common).2
  have answered : WellAnswered E fuel d.common .unloadVmm := well.wellAnswered freed.suffix
  have ok := answered.succeeds steady.pages steady.enough steady.entry entry (Op.refusal_unloadVmm.mpr settled)
  obtain ⟨u, reset⟩ := commonUnloadVmm_success (Option.some.inj ok.1)
  have shows : Shows n.toInt.toNat (commonUnloadVmm E d.common).2
      { commands := commands (commonUnloadVmm E d.common).2.trace } := by
    rw [reset]
    exact .reset (commands_commonReset E u).symm
  have renewed := shows.unnoticed freed
  rw [← freed.told] at renewed
  exact ⟨renewed, fun active => absurd renewed.phase active, rfl, rfl⟩

end Handlers

/-! ### Both drivers -/

section Drivers
variable {E : Env} {n : Int64} {fuel : Nat} {kind : MemKind} {ι δ : Type} {driver : δ → Driver} {asks : ι → δ → Service}
  {answer : ι → δ → Option Bool × δ}

/-- From a state on, every run of well-served calls looks like the run of the machine from the session `l`. -/
def Provides (E : Env) (cpus : Nat) (driver : δ → Driver) (asks : ι → δ → Service) (answer : ι → δ → Option Bool × δ) (d : δ)
    (l : Session) : Prop :=
  ∀ ps, WellRun E driver asks answer ps d →
    observe answer (fun d => (driver d).view) ps d =
      observe (Session.serve cpus E.sdk) Session.view (meanings answer asks ps d) l

/-- A driver that is not corrupt serves a new session once it was stopped and unloaded without a failure, and no calls
    help a corrupt one. -/
structure Recovers (E : Env) (cpus : Nat) (driver : δ → Driver) (asks : ι → δ → Service) (answer : ι → δ → Option Bool × δ)
    (d : δ) : Prop where
  renewed : (driver d).common.vmmStatus ≠ .corrupt → ∀ stop unload, asks stop d = .operation .stopVmm →
    asks unload (answer stop d).2 = .operation .unloadVmm → WellRun E driver asks answer [stop, unload] d →
      let e := runFrom answer [stop, unload] d
      Provides E cpus driver asks answer e (driver e).newSession
  lost : (driver d).common.vmmStatus = .corrupt → ∀ ps, (driver (runFrom answer ps d)).common.vmmStatus = .corrupt

/-- A corrupt driver stays corrupt, whatever it is called for. -/
theorem Implements.corrupt (impl : Implements E fuel kind driver asks answer) (ps : List ι) {d : δ}
    (corrupt : (driver d).common.vmmStatus = .corrupt) : (driver (runFrom answer ps d)).common.vmmStatus = .corrupt := by
  induction ps generalizing d with
  | nil => exact corrupt
  | cons p ps ih => exact ih ((impl.handling p d).corrupt corrupt)

theorem Implements.recovers (impl : Implements E fuel kind driver asks answer) (steady : Steady E n fuel) {d : δ}
    (inv : HeapInv E (driver d)) (entry : HasEntry (driver d).common) :
    Recovers E n.toInt.toNat driver asks answer d where
  renewed := by
    intro active stop unload stops unloads well e ps rest
    obtain ⟨wellStopped, wellUnloaded, -⟩ := well
    have stopping := impl.handling stop d
    have unloading := impl.handling unload (answer stop d).2
    have stopped := impl.serving stop d
    have unloaded := impl.serving unload (answer stop d).2
    rw [stops] at wellStopped stopped
    rw [unloads] at wellUnloaded unloaded
    obtain ⟨returned, stop⟩ := stopped.of_stopVmm
    obtain ⟨returned', unload⟩ := unloaded.of_unloadVmm
    rw [returned] at stopping
    rw [returned'] at unloading
    rw [stop] at wellStopped
    rw [unload] at wellUnloaded
    have settled := stop ▸ ioctlStopVmm_settles steady entry wellStopped active
    have renewed := ioctlUnloadVmmWith_renews steady (stopping.hasEntry entry) wellUnloaded settled
    rw [← unload] at renewed
    exact impl.refines steady rest (unloading.heapInv (stopping.heapInv inv)) renewed
  lost corrupt ps := impl.corrupt ps corrupt

end Drivers

theorem Linux.Entered.hasEntry {E : Env} {d : Linux.Device} (h : Linux.Entered E d) : HasEntry d.common :=
  h.invariant (I := fun d => HasEntry d.common) (commonReset_hasEntry E _) fun _ i _ _ before =>
    (Linux.enter_handled i.2).hasEntry before

theorem Windows.Entered.hasEntry {E : Env} {d : Driver} (h : Windows.Entered E d) : HasEntry d.common :=
  h.invariant (I := fun d => HasEntry d.common) (commonReset_hasEntry E _) fun _ i _ _ before =>
    (Windows.enter_handled i.2).hasEntry before

/-- Whatever failed in a run of the drivers before: unless it made the driver corrupt, a stop and an unload in which no
    call fails leave a driver that serves a new session, in a steady environment. -/
theorem drivers_recover {E : Env} {n : Int64} {fuel : Nat} (steady : Steady E n fuel) :
    (∀ d, Linux.Entered E d →
        Recovers E n.toInt.toNat Linux.Device.toDriver (Linux.asks E) (Linux.answer E fuel) d) ∧
      ∀ d, Windows.Entered E d → Recovers E n.toInt.toNat id (Windows.asks E) (Windows.answer E fuel) d :=
  ⟨fun _ entered => (Linux.implements E fuel).recovers steady entered.heapInv entered.hasEntry,
    fun _ entered => (Windows.implements E fuel).recovers steady entered.heapInv entered.hasEntry⟩

/-- The VMM refuses the fourth vmcall, which is the stop of the first of two CPUs. -/
def refusesStop : Mocks where
  numCpus := 2
  vmcall t _ := if (signals t).countP (· matches .vmcall ..) = 3 then 1 else 0
  userWord := 16

/-- A VMM that was stopped on one CPU only starts again, and one that refused to be finalised is lost. -/
theorem drivers_recover_after_refused_stop :
    (let E := testEnv refusesStop
     let ioctls : List (Linux.Cmd × UInt64) := Linux.startIoctls ++ [(.stopVmm, 0)]
     let d := runFrom (fun i => Linux.enter E i.1 i.2) (ioctls.map fun i => (8, .ioctl i.1 i.2)) (Linux.devInit E)
     let e := runFrom (Linux.answer E UInt64.size) [.ioctl .stopVmm 0, .ioctl .unloadVmm 0] d
     let ps := Linux.startIoctls.map fun i => Linux.EntryPoint.ioctl i.1 i.2
     d.common.vmmStatus = .running ∧ d.common.numCpusStarted = 1 ∧
       observe (Linux.answer E UInt64.size) (fun d => d.view) ps e =
         observe (Session.serve 2 E.sdk) Session.view (meanings (Linux.answer E UInt64.size) (Linux.asks E) ps e)
           e.newSession) ∧
      let E := testEnv { enter := fun _ req => if req = .fini then -1 else bfSuccess }
      let d := runFrom (fun i => Windows.enter E i.1 i.2) Windows.unloadCalls (Windows.bareflankQueueInitialize E)
      ∀ ps, (runFrom (Windows.answer E UInt64.size) ps d).common.vmmStatus = .corrupt := by
  have entry (mocks : Mocks) : LeavesEntry (testEnv mocks) := fun _ _ _ => (by decide : (0x1000 : UInt64) ≠ 0)
  constructor
  · intro E ioctls d e ps
    have steady : Steady E 2 UInt64.size := ⟨fun _ => rfl, entry _, ⟨12, rfl⟩, Nat.le_refl _⟩
    have entered : Linux.Entered E d := Completes.reaches (by decide +kernel)
    have recovers := (drivers_recover steady).1 d entered
    refine ⟨by decide +kernel, by decide +kernel, recovers.renewed (by decide +kernel) _ _ rfl rfl ?_ ps ?_⟩
    · exact ⟨⟨by decide +kernel, fun load => by cases load⟩, ⟨by decide +kernel, fun load => by cases load⟩, trivial⟩
    · exact ⟨⟨by decide +kernel, fun load => by cases load⟩, ⟨by decide +kernel, fun load => by cases load⟩,
        ⟨by decide +kernel, fun _ _ => by decide +kernel⟩, ⟨by decide +kernel, fun load => by cases load⟩, trivial⟩
  · intro E d
    have steady : Steady E 1 UInt64.size := ⟨fun _ => rfl, entry _, ⟨12, rfl⟩, Nat.le_refl _⟩
    have entered : Windows.Entered E d := Completes.reaches (by decide +kernel)
    exact ((drivers_recover steady).2 d entered).lost (by decide +kernel)

end Bfdriver
