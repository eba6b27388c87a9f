import Bfdriver.Theorems.Turns
import Bfdriver.Uefi.Driver

/-! # Calls on the processors of UEFI

`platform_set_affinity` makes a processor the boot processor, or fails and leaves the driver where it is. What the
driver does between two placements it does on one processor. -/

namespace Bfdriver.Uefi
open EventLog

/-! ### The boot processor -/

/-- The thread context names the processor that the driver runs on, or none if the firmware does not tell, the VMM is
    entered right after the context was written, and what is meant for a processor is done on that processor. -/
def OnItsProcessor (M : MpServices) (past : Trace) : Event → Prop
  | .threadContext _ tc => ∃ t, past = .currentCpuNum tc.cpuid :: t ∧
      tc.cpuid = if efiError (M.whoAmI t) then -1 else (M.bsp past).toInt64
  | .enter _ req _ _ => (∃ res tc t, past = .threadContext res tc :: t) ∧ ∀ c ∈ req.cpu, M.bsp past = UInt64.ofInt c
  | .vmcall _ c _ => M.bsp past = UInt64.ofInt c
  | _ => True

section Processors
variable {M : MpServices} {W : Env} {s : State} {t : Trace} {c : Int}

theorem onItsProcessor_of_outside {e : Event} (h : OutsideVmm e) : OnItsProcessor M t e := by
  cases e <;> first | exact h.elim | trivial

/-- A placement with a result that is not negative has led to the processor. -/
theorem bsp_of_placed (nonneg : ¬(M.platformSetAffinity t (M.bsp t) (UInt64.ofInt c)).1.toInt < 0) (ret : Int) :
    M.bsp (.setAffinity c ret :: t) = UInt64.ofInt c := by
  have failed : (-1 : Int64).toInt < 0 := by decide
  show (M.platformSetAffinity t (M.bsp t) (UInt64.ofInt c)).2 = UInt64.ofInt c
  unfold MpServices.platformSetAffinity at nonneg ⊢
  dsimp only at nonneg ⊢
  split at nonneg
  · exact absurd failed nonneg
  · rename_i known
    rw [if_neg known]
    split at nonneg
    · rename_i there
      rw [if_pos there]
      exact there
    · rename_i elsewhere
      rw [if_neg elsewhere]
      split at nonneg
      · exact absurd failed nonneg
      · rename_i enabled
        rw [if_neg enabled]
        split at nonneg
        · exact absurd failed nonneg
        · rename_i switched
          rw [if_neg switched]

/-- A call of the VMM leaves the driver on its processor. -/
theorem bsp_callVmm (E : Env) (req : Request) (s : State) : M.bsp (callVmm E req s).2.trace = M.bsp s.trace :=
  (callVmm_carries E req s).preserves (I := fun t => M.bsp t = M.bsp s.trace)
    (fun t e he same => by cases e <;> first | exact same | exact he.elim) rfl

theorem onItsProcessor_callVmm {req : Request} (h : AtEach (OnItsProcessor M) s.trace)
    (there : ∀ c ∈ req.cpu, M.bsp s.trace = UInt64.ofInt c) :
    AtEach (OnItsProcessor M) (callVmm (M.env W) req s).2.trace := by
  have calls := callVmm_callTrace (M.env W) req s
  generalize (callVmm (M.env W) req s).2.trace = l at calls ⊢
  have written : ∀ ret res (tc : ThreadContext), tc.cpuid = (M.env W).currentCpuNum (.setIntegerArgs req ret :: s.trace) →
      AtEach (OnItsProcessor M) (.threadContext res tc :: .currentCpuNum tc.cpuid :: .setIntegerArgs req ret :: s.trace) :=
    fun _ _ _ cpuid => ((h.cons trivial).cons trivial).cons ⟨_, rfl, cpuid⟩
  cases calls with
  | argsRefused ret => exact h.cons trivial
  | noEntry ret res tc cpuid => exact (written ret res tc cpuid).cons trivial
  | entered ret ret' res res' tc sp cpuid =>
    exact ((written ret res tc cpuid).cons ⟨⟨res, tc, _, rfl⟩, there⟩).cons trivial

theorem processorRules (M : MpServices) (W : Env) :
    RoundRules (M.env W) (AtEach (OnItsProcessor M)) fun c t => M.bsp t = UInt64.ofInt c where
  outside := fun he h => h.cons (onItsProcessor_of_outside he)
  placed := fun nonneg => bsp_of_placed nonneg _
  call := onItsProcessor_callVmm
  stays := fun req there => (bsp_callVmm _ req _).trans there
  vmcall := fun _ _ h there => ⟨h.cons there, there⟩

end Processors

/-! ### The boot -/

/-- What has to be shown of an invariant of a boot: it is kept by each of its steps. -/
structure BootRules (B : BootServices) (E : Env) (J : Boot → Prop) : Prop where
  place : ∀ {b : Boot} (i : Nat), J b →
    J { b with common := b.common.emit (.setAffinity i (E.setAffinity b.common.trace i)) }
  settle : ∀ {b}, J b → J (b.settle B)
  prepare : ∀ {b}, J b → J (b.prepareProcessor B)
  check : ∀ {b}, J b → J (b.checkProcessor B)
  common : ∀ {b : Boot} {s}, Turns E b.common s → J b → J { b with common := s }
  startImage : ∀ {b : Boot} (dp), J b → J { b with log := .startImage dp :: b.log }

theorem platformSetAffinity_common (B : BootServices) (E : Env) (i : Nat) (b : Boot) :
    (b.platformSetAffinity B E i).common = b.common.emit (.setAffinity i (E.setAffinity b.common.trace i)) := by
  unfold Boot.platformSetAffinity
  dsimp only
  split <;> rfl

theorem addHypervisorModules_turns (E : Env) (mods : List (UInt64 × UInt64)) (s : State) :
    Turns E s (addHypervisorModules E mods s) := by
  induction mods generalizing s with
  | nil => exact .refl
  | cons m mods ih =>
    have added := commonAddModule_turns E s m.1 m.2
    unfold addHypervisorModules
    dsimp only
    split
    · exact added
    · exact added.trans (ih _)

/-- What the switch to a processor and the body of a loop keep is kept by the loop. -/
theorem processorLoop_keeps {B : BootServices} {E : Env} {J : Boot → Prop} {body : Boot → Boot} {b : Boot}
    (place : ∀ b (i : Nat), J b → J (b.platformSetAffinity B E i)) (hbody : ∀ b, J b → J (body b)) (n i : Nat)
    (status : UInt64) (h : J b) : J (processorLoop B E body n i status b).2 := by
  induction n generalizing i status b with
  | zero => exact h
  | succ n ih =>
    have placed := place b i h
    unfold processorLoop
    dsimp only
    split
    · exact placed
    · exact ih _ _ (hbody _ placed)

namespace BootRules
variable {B : BootServices} {E : Env} {J : Boot → Prop} {b : Boot}

/-- A switch to a processor goes to it, and may change the registers. -/
theorem platformSetAffinity (rules : BootRules B E J) (i : Nat) (h : J b) : J (b.platformSetAffinity B E i) := by
  have placed := rules.place i h
  unfold Boot.platformSetAffinity
  dsimp only
  split
  · exact rules.settle placed
  · exact placed

theorem prepareLoop (rules : BootRules B E J) (n i : Nat) (status : UInt64) (h : J b) :
    J (prepareLoop B E n i status b).2 :=
  processorLoop_keeps (J := J) (fun _ _ => rules.platformSetAffinity _) (fun _ before => rules.check (rules.prepare before)) n i status h

theorem checkLoop (rules : BootRules B E J) (n i : Nat) (status : UInt64) (h : J b) :
    J (checkLoop B E n i status b).2 :=
  processorLoop_keeps (J := J) (fun _ _ => rules.platformSetAffinity _) (fun _ => rules.check) n i status h

theorem bootNative (rules : BootRules B E J) (h : J b) : J (bootNative B b).2 := by
  unfold Uefi.bootNative
  dsimp only
  split
  · exact h
  · split
    · exact h
    · exact rules.startImage _ h

theorem bootVmm (rules : BootRules B E J) (fuel : Nat) (status : UInt64) (h : J b) : J (bootVmm B E fuel status b).2 := by
  have added := rules.common (addHypervisorModules_turns E B.modules b.common) h
  have loaded := rules.settle (rules.common (commonLoadVmm_turns E _ fuel) added)
  have started := rules.settle (rules.common (commonStartVmm_turns E _) (rules.prepare loaded))
  unfold Uefi.bootVmm
  dsimp only
  split
  · exact loaded
  · split
    · exact loaded
    · split
      · exact started
      · exact rules.bootNative started

/-- What every step of a boot keeps holds throughout it. -/
theorem uefiMain {W : Env} (rules : BootRules B (B.mp.env W) J) {board : Board}
    (init : J { common := (commonInit (B.mp.env W) (.initial W.sdk)).2, board := board }) (fuel : Nat) :
    J (uefiMain B W fuel board).2 := by
  have prepared (status : UInt64) := rules.prepareLoop B.mp.numberOfProcessors.toNat 0 status init
  unfold Uefi.uefiMain
  dsimp only
  split
  · exact init
  · split
    · exact init
    · split
      · exact prepared _
      · split
        · exact rules.checkLoop _ _ _ (prepared _)
        · exact rules.bootVmm fuel _ (rules.platformSetAffinity 0 (rules.checkLoop _ _ _ (prepared _)))

/-- Rules for the calls of the driver are rules for a boot. -/
theorem of_rounds {I : Trace → Prop} {On : Int → Trace → Prop} (rules : RoundRules E I On) :
    BootRules B E fun b => I b.common.trace where
  place := fun _ h => rules.outside trivial h
  settle := id
  prepare := id
  check := id
  common := fun steps h => rules.turns h steps
  startImage := fun _ => id

end BootRules

/-- In every boot the driver makes each request to a processor and each vmcall on that processor, whatever processors
    the firmware refuses to switch to, and the context of each entry to the VMM names the processor that enters it. -/
theorem boot_calls_on_their_processor (B : BootServices) (W : Env) (fuel : Nat) (board : Board) :
    AtEach (OnItsProcessor B.mp) (uefiMain B W fuel board).2.common.trace :=
  (BootRules.of_rounds (processorRules B.mp W)).uefiMain (J := fun b => AtEach (OnItsProcessor B.mp) b.common.trace) .nil fuel

end Bfdriver.Uefi
