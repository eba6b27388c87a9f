import Bfdriver.Common

/-! # The operations by status

Most operations of `common.c` begin with a switch on the status. Here the switches are taken apart, once
for each operation: what it does in the status that admits it, and that it leaves the state alone in
those that do not. -/

namespace Bfdriver

theorem Sdk.code_ne (k : Sdk) (e : ErrorCode) : k.code e ≠ bfSuccess := Int.ne_of_lt (k.code_neg e)

/-- The state with one more module. -/
def State.withModule (s : State) (file fsize : UInt64) : State :=
  { s with
    modules := s.modules.set s.numModules { s.modules.getD s.numModules {} with file := file, fileSize := fsize }
    numModules := s.numModules + 1 }

section Operations
variable (E : Env) (fuel : Nat) {s : State}

/-- A module is refused, or added to an unloaded driver that has room for it. -/
theorem commonAddModule_cases (file fsize : UInt64) (s : State) :
    (commonAddModule E file fsize s).1 ≠ bfSuccess ∧ (commonAddModule E file fsize s).2 = s ∨
      (commonAddModule E file fsize s).1 = bfSuccess ∧ s.vmmStatus = .unloaded ∧
        s.numModules < E.sdk.maxNumModules ∧ (commonAddModule E file fsize s).2 = s.withModule file fsize := by
  unfold commonAddModule
  split
  · exact .inl ⟨E.sdk.code_ne _, rfl⟩
  · split
    · exact .inl ⟨E.sdk.code_ne _, rfl⟩
    · exact .inl ⟨E.sdk.code_ne _, rfl⟩
    · exact .inl ⟨E.sdk.code_ne _, rfl⟩
    · rename_i unloaded
      split
      · exact .inl ⟨E.sdk.code_ne _, rfl⟩
      · rename_i room
        exact .inr ⟨rfl, unloaded, Nat.lt_of_not_le room, rfl⟩

theorem commonLoadVmm_of_loaded (h : s.vmmStatus = .loaded) : commonLoadVmm E fuel s = (some bfSuccess, s) := by
  unfold commonLoadVmm
  rw [h]

theorem commonLoadVmm_of_empty (h : s.vmmStatus = .unloaded) (hm : s.numModules = 0) :
    commonLoadVmm E fuel s = (some (E.sdk.code .noModulesAdded), s) := by
  unfold commonLoadVmm
  rw [h]
  exact if_pos hm

theorem commonLoadVmm_refused (h : ¬(s.vmmStatus = .unloaded ∧ s.numModules ≠ 0)) :
    (commonLoadVmm E fuel s).2 = s := by
  rcases hst : s.vmmStatus with _ | _ | _ | _
  · rw [commonLoadVmm_of_empty E fuel hst (not_not.mp fun hm => h ⟨hst, hm⟩)]
  · rw [commonLoadVmm_of_loaded E fuel hst]
  · unfold commonLoadVmm
    rw [hst]
  · unfold commonLoadVmm
    rw [hst]

/-- A reset leaves nothing to do for the assignment of the status after it. -/
theorem commonReset_unloaded (s : State) :
    { (commonReset E s).2 with vmmStatus := .unloaded } = (commonReset E s).2 := by
  unfold commonReset
  dsimp only
  split <;> split <;> rfl

theorem commonUnloadVmm_of_unloaded (h : s.vmmStatus = .unloaded) :
    commonUnloadVmm E s = (bfSuccess, (commonReset E s).2) := by
  unfold commonUnloadVmm
  rw [h]
  dsimp only
  rw [commonReset_unloaded]

theorem commonUnloadVmm_of_loaded (h : s.vmmStatus = .loaded) : commonUnloadVmm E s =
    if (callVmm E .fini s).1 ≠ bfSuccess then
      (E.sdk.code .vmmCorrupted, { (callVmm E .fini s).2 with vmmStatus := .corrupt })
    else (bfSuccess, (commonReset E (callVmm E .fini s).2).2) := by
  unfold commonUnloadVmm
  rw [h]
  dsimp only
  rw [commonReset_unloaded]

theorem commonUnloadVmm_refused (h : s.vmmStatus = .corrupt ∨ s.vmmStatus = .running) :
    (commonUnloadVmm E s).2 = s := by
  unfold commonUnloadVmm
  rcases h with h | h
  · rw [h]
    dsimp only
    rw [← h]
  · rw [h]

theorem commonStartVmm_of_loaded (h : s.vmmStatus = .loaded) :
    commonStartVmm E s = startExit E (startLoop E maxCpus 0 { s with numCpusStarted := 0 }) := by
  unfold commonStartVmm
  split <;> first | rfl | simp_all

theorem commonStartVmm_refused (h : s.vmmStatus ≠ .loaded) : (commonStartVmm E s).2 = s := by
  unfold commonStartVmm
  split <;> first | rfl | contradiction

theorem commonStopVmm_of_running (h : s.vmmStatus = .running) :
    commonStopVmm E s = stopExit (stopLoop E s.numCpusStarted.toNat s) := by
  unfold commonStopVmm
  rw [h]

theorem commonStopVmm_refused (h : s.vmmStatus ≠ .running) : (commonStopVmm E s).2 = s := by
  unfold commonStopVmm
  split <;> first | rfl | contradiction

/-- A dump of a loaded VMM is a call of it. -/
theorem commonDumpVmm_eq {drr : UInt64} (hdrr : drr ≠ 0) (vcpuid : UInt64) (s : State) :
    commonDumpVmm E drr vcpuid s =
      if s.vmmStatus = .unloaded then (E.sdk.code .vmmInvalidState, s) else callVmm E (.getDrr vcpuid drr) s := by
  unfold commonDumpVmm
  rw [if_neg hdrr]
  split
  · rfl
  · dsimp only
    split
    · rfl
    · rename_i accepted
      exact Prod.ext (not_not.mp accepted).symm rfl

theorem commonDumpVmm_cases (drr vcpuid : UInt64) (s : State) : (commonDumpVmm E drr vcpuid s).2 = s ∨
    s.vmmStatus ≠ .unloaded ∧ (commonDumpVmm E drr vcpuid s).2 = (callVmm E (.getDrr vcpuid drr) s).2 := by
  by_cases hdrr : drr = 0
  · unfold commonDumpVmm
    rw [if_pos hdrr]
    exact .inl rfl
  · rw [commonDumpVmm_eq E hdrr]
    split
    · exact .inl rfl
    · rename_i active
      exact .inr ⟨active, rfl⟩

end Operations

/-! ### Operations out of turn -/

/-- The statuses that do not admit an operation. -/
def Op.refusedIn : Op → VmmStatus → Bool
  | .addModule .., v => v ≠ .unloaded
  | .loadVmm, v => v ≠ .unloaded
  | .unloadVmm, v => v = .corrupt ∨ v = .running
  | .startVmm, v => v ≠ .loaded
  | .stopVmm, v => v ≠ .running
  | .dumpVmm .., v => v = .unloaded
  | .fini, v => v = .corrupt

/-- An operation in a status that does not admit it leaves every global alone and makes no call. -/
theorem exec_of_refused (E : Env) (fuel : Nat) (op : Op) {s : State} (h : op.refusedIn s.vmmStatus = true) :
    (exec E fuel op s).2 = s := by
  cases op with
  | addModule file fsize =>
    have hst : s.vmmStatus ≠ .unloaded := by simpa [Op.refusedIn] using h
    rcases commonAddModule_cases E file fsize s with ⟨-, same⟩ | ⟨-, unloaded, -⟩
    · exact same
    · exact absurd unloaded hst
  | loadVmm =>
    have hst : s.vmmStatus ≠ .unloaded := by simpa [Op.refusedIn] using h
    exact commonLoadVmm_refused E fuel fun admitted => hst admitted.1
  | unloadVmm => exact commonUnloadVmm_refused E (by simpa [Op.refusedIn] using h)
  | startVmm => exact commonStartVmm_refused E (by simpa [Op.refusedIn] using h)
  | stopVmm => exact commonStopVmm_refused E (by simpa [Op.refusedIn] using h)
  | dumpVmm drr vcpuid =>
    have hst : s.vmmStatus = .unloaded := by simpa [Op.refusedIn] using h
    rcases commonDumpVmm_cases E drr vcpuid s with same | ⟨active, -⟩
    · exact same
    · exact absurd hst active
  | fini =>
    have hst : s.vmmStatus = .corrupt := by simpa [Op.refusedIn] using h
    show (commonFini E s).2 = s
    simp [commonFini, finiStop, finiUnload, hst]

end Bfdriver
