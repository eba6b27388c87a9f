import Bfdriver.Theorems.Coupling
import Bfdriver.Theorems.Finalise

/-! # A stop that fails

A stop that cannot place itself on a CPU, or whose `BF_REQUEST_VMM_FINI` fails, leaves by the label `corrupted`, and a
corrupt driver refuses everything from then on. A refused `VMCALL_STOP` returns at once, with the VMM still running. -/

namespace Bfdriver
open Runs

/-! ### Corruption -/

/-- The operations that a corrupt driver refuses as such. -/
def Op.switches : Op → Bool
  | .addModule .. | .dumpVmm .. => false
  | _ => true

/-- The driver is corrupt, and after any operations it still is and refuses to load, unload, start, stop and
    finalise. -/
def CorruptForGood (E : Env) (s : State) : Prop := ∀ fuel ops,
  (runFrom (exec E fuel) ops s).vmmStatus = .corrupt ∧
    ∀ op : Op, op.switches → (exec E fuel op (runFrom (exec E fuel) ops s)).1 = some (E.sdk.code .vmmCorrupted)

section Corruption
variable {E : Env} {s : State}

theorem exec_corrupt (corrupt : s.vmmStatus = .corrupt) (fuel : Nat) (op : Op) :
    (exec E fuel op s).2.vmmStatus = .corrupt := by
  rcases exec_moves E fuel op s with same | edge
  · exact same.trans corrupt
  · exact absurd corrupt edge.not_corrupt

theorem exec_switches (corrupt : s.vmmStatus = .corrupt) (fuel : Nat) {op : Op} (switches : op.switches) :
    (exec E fuel op s).1 = some (E.sdk.code .vmmCorrupted) := by
  cases op with
  | addModule => cases switches
  | dumpVmm => cases switches
  | loadVmm => simp [exec, commonLoadVmm, corrupt]
  | unloadVmm => simp [exec, commonUnloadVmm, corrupt]
  | startVmm => simp [exec, commonStartVmm, corrupt]
  | stopVmm => simp [exec, commonStopVmm, corrupt]
  | fini => simp [exec, commonFini, finiStop, finiUnload, corrupt]

theorem corruptForGood (corrupt : s.vmmStatus = .corrupt) : CorruptForGood E s := by
  intro fuel ops
  have still : (runFrom (exec E fuel) ops s).vmmStatus = .corrupt := by
    induction ops generalizing s with
    | nil => exact corrupt
    | cons op ops ih => exact ih (exec_corrupt corrupt fuel op)
  exact ⟨still, fun op => exec_switches still fuel⟩

theorem CorruptForGood.status (h : CorruptForGood E s) : s.vmmStatus = .corrupt := (h 0 []).1

end Corruption

/-! ### Failures of a stop -/

section Stop
variable {E : Env}

/-- The loop of a stop returns from within a round exactly if some `VMCALL_STOP` that it gets to is refused. -/
theorem stopsAccepted_iff : ∀ (n : Nat) (s : State), StopsAccepted E n s ↔ ∀ ret, (stopLoop E n s).1 ≠ .ret ret
  | 0, s => iff_of_true trivial (by simp [stopLoop])
  | n + 1, s => by
    have accepted := stopAccepted_iff E n s
    unfold StopsAccepted stopLoop
    dsimp only
    rcases hx : (stopCpu E n s).1 with _ | ret | ret
    · rw [hx] at accepted
      have here : StopAccepted E n s := accepted.mpr (by simp)
      rw [← stopsAccepted_iff n (stopCpu E n s).2]
      exact ⟨fun h => h.2 rfl, fun h => ⟨here, fun _ => h⟩⟩
    · rw [hx] at accepted
      exact iff_of_true ⟨accepted.mpr (by simp), by simp⟩ (by simp [hx])
    · rw [hx] at accepted
      exact iff_of_false (fun h => accepted.mp h.1 ret rfl) (by simp [hx])

/-- The driver gets to CPU `c`, and the VMM accepts to be stopped there. -/
def StopGranted (E : Env) (c : Int) (s : State) : Prop :=
  let placed := s.emit (.setAffinity c (E.setAffinity s.trace c))
  0 ≤ E.setAffinity s.trace c ∧ E.vmcall placed.trace .stop = 0 ∧
    (callVmm E (.vmmFini c) (placed.emit (.vmcall .stop c 0))).1 = bfSuccess

/-- The driver gets to all CPUs below `n`, and the VMM accepts to be stopped on each. -/
def StopsGranted (E : Env) : Nat → State → Prop
  | 0, _ => True
  | n + 1, s => StopGranted E n s ∧ StopsGranted E n (stopCpu E n s).2

instance (E : Env) (c : Int) (s : State) : Decidable (StopGranted E c s) := inferInstanceAs (Decidable (_ ∧ _ ∧ _))

instance StopsGranted.decidable (E : Env) : ∀ (n : Nat) (s : State), Decidable (StopsGranted E n s)
  | 0, _ => inferInstanceAs (Decidable True)
  | n + 1, s =>
    have := StopsGranted.decidable E n (stopCpu E n s).2
    inferInstanceAs (Decidable (StopGranted E n s ∧ _))

theorem stopGranted_iff (c : Int) (s : State) : StopGranted E c s ↔ (stopCpu E c s).1 = .next := by
  unfold StopGranted stopCpu
  dsimp only
  split
  · rename_i neg
    exact iff_of_false (fun h => absurd h.1 (Int.not_le.mpr neg)) (by simp)
  · rename_i placed
    split
    · rename_i refused
      exact iff_of_false (fun h => refused h.2.1) (by simp)
    · rename_i accepted
      rw [not_not.mp accepted]
      split
      · rename_i failed
        exact iff_of_false (fun h => failed h.2.2) (by simp)
      · rename_i called
        exact iff_of_true ⟨Int.not_lt.mp placed, rfl, not_not.mp called⟩ rfl

/-- The loop of a stop gets to its end exactly if it is granted all of its calls. -/
theorem stopsGranted_iff : ∀ (n : Nat) (s : State), StopsGranted E n s ↔ (stopLoop E n s).1 = .next
  | 0, _ => iff_of_true trivial rfl
  | n + 1, s => by
    have granted := stopGranted_iff (E := E) n s
    unfold StopsGranted stopLoop
    dsimp only
    rcases hx : (stopCpu E n s).1 with _ | ret | ret
    · rw [hx] at granted
      rw [← stopsGranted_iff n (stopCpu E n s).2]
      exact and_iff_right (granted.mpr rfl)
    · rw [hx] at granted
      exact iff_of_false (fun h => by simpa using granted.mp h.1) (by simp [hx])
    · rw [hx] at granted
      exact iff_of_false (fun h => by simpa using granted.mp h.1) (by simp [hx])

end Stop

/-- A stop of a running VMM that fails leaves it corrupt for good exactly if no `VMCALL_STOP` is refused. -/
theorem failed_stop_corrupts_iff {E : Env} {s : State} (running : s.vmmStatus = .running) :
    ((commonStopVmm E s).1 ≠ bfSuccess → CorruptForGood E (commonStopVmm E s).2) ↔
      StopsAccepted E s.numCpusStarted.toNat s := by
  have status := stopLoop_status E s.numCpusStarted.toNat s
  have fails := stopLoop_fails E s.numCpusStarted.toNat s
  rw [commonStopVmm_of_running E running, stopsAccepted_iff]
  revert status fails
  rcases stopLoop E s.numCpusStarted.toNat s with ⟨x, t⟩
  intro status fails
  cases x with
  | next => exact iff_of_true (fun ne => absurd rfl ne) (by simp)
  | fail ret => exact iff_of_true (fun _ => corruptForGood rfl) (by simp)
  | ret ret =>
    refine iff_of_false (fun corrupts => ?_) (by simp)
    cases (status.trans running).symm.trans (corrupts fails).status

/-- `BF_REQUEST_VMM_FINI` fails on the only CPU. -/
theorem failed_stop_corrupts_of_fini :
    let E := testEnv { enter := fun _ req => if req = .vmmFini 0 then -1 else bfSuccess }
    let s := after E 8 startOps
    (commonStopVmm E s).1 = -1 ∧ CorruptForGood E (commonStopVmm E s).2 := by
  intro E s
  have failed : (commonStopVmm E s).1 = -1 := by decide +kernel
  refine ⟨failed, (failed_stop_corrupts_iff (by decide +kernel)).mpr (by decide +kernel) ?_⟩
  rw [failed]
  decide

/-- A refused `VMCALL_STOP` leaves a VMM that counts as running. -/
theorem not_corrupt_of_refused_stop :
    let E := testEnv { vmcall := fun _ op => if op = .stop then 1 else 0 }
    let s := after E 8 startOps
    s.vmmStatus = .running ∧ (commonStopVmm E s).1 = E.sdk.code .vmmStopFailed ∧
      (commonStartVmm E (commonStopVmm E s).2).1 = bfSuccess ∧ ¬CorruptForGood E (commonStopVmm E s).2 := by
  intro E s
  have running : (commonStopVmm E s).2.vmmStatus = .running := by decide +kernel
  refine ⟨by decide +kernel, by decide +kernel, by decide +kernel, fun corrupt => ?_⟩
  have still := corrupt.status
  rw [running] at still
  cases still

end Bfdriver
