import Bfdriver.Theorems.Protocol

/-! # The status machine

How each operation moves `g_vmm_status`, and in which statuses it does nothing at all. Nothing here
depends on how the state came about. -/

namespace Bfdriver

/-- The edges of the status machine, by operation. -/
inductive Edge : Op → VmmStatus → VmmStatus → Prop where
  | load : Edge .loadVmm .unloaded .loaded
  | unload : Edge .unloadVmm .loaded .unloaded
  | unloadCorrupt : Edge .unloadVmm .loaded .corrupt
  | start : Edge .startVmm .loaded .running
  | startCorrupt : Edge .startVmm .loaded .corrupt
  | stop : Edge .stopVmm .running .loaded
  | stopCorrupt : Edge .stopVmm .running .corrupt
  | finiLoaded : Edge .fini .loaded .unloaded
  | finiLoadedCorrupt : Edge .fini .loaded .corrupt
  | finiRunning : Edge .fini .running .unloaded
  | finiRunningCorrupt : Edge .fini .running .corrupt

/-- The operation stays in a status or takes one of its edges. -/
def Moves (op : Op) (v w : VmmStatus) : Prop := w = v ∨ Edge op v w

theorem Edge.not_corrupt {op : Op} {v w : VmmStatus} (h : Edge op v w) : v ≠ .corrupt := by
  cases h <;> simp

/-! ### The loops over the CPUs -/

section Loops
variable (E : Env)

theorem stopCpu_status (c : Int) (s : State) : (stopCpu E c s).2.vmmStatus = s.vmmStatus := by
  have round := stopCpu_round E c s
  revert round
  rcases stopCpu E c s with ⟨x, t⟩
  intro round
  cases round with
  | notPlaced neg view => exact congrArg CpuView.status view
  | refused view => exact congrArg CpuView.status view
  | finiRefused ne view => exact congrArg CpuView.status view
  | done res view => exact congrArg CpuView.status view

theorem stopLoop_status : ∀ (n : Nat) (s : State), (stopLoop E n s).2.vmmStatus = s.vmmStatus
  | 0, _ => rfl
  | n + 1, s => by
    unfold stopLoop
    dsimp only
    split
    · exact (stopLoop_status n _).trans (stopCpu_status E n s)
    · exact stopCpu_status E n s

theorem startCpu_status (c : Int) (s : State) :
    (startCpu E c s).2.vmmStatus = s.vmmStatus ∨ (startCpu E c s).2.vmmStatus = .running := by
  have round := startCpu_round E c s
  revert round
  rcases startCpu E c s with ⟨x, t⟩
  intro round
  cases round with
  | notPlaced neg view => exact .inl (congrArg CpuView.status view)
  | initRefused ne view => exact .inl (congrArg CpuView.status view)
  | refused res view => exact .inl (congrArg CpuView.status view)
  | done res view => exact .inr (congrArg CpuView.status view)

theorem startLoop_status : ∀ (rounds : Nat) (c : Int) (s : State),
    (startLoop E rounds c s).2.vmmStatus = s.vmmStatus ∨ (startLoop E rounds c s).2.vmmStatus = .running
  | 0, _, _ => .inl rfl
  | rounds + 1, c, s => by
    unfold startLoop
    dsimp only
    split
    · have round := startCpu_status E c (s.emit (.numCpus (E.numCpus s.trace)))
      split
      · rcases startLoop_status rounds (c + 1) (startCpu E c (s.emit (.numCpus (E.numCpus s.trace)))).2 with h | h
        · exact round.imp h.trans h.trans
        · exact .inr h
      · exact round
    · exact .inl rfl

end Loops

/-! ### The operations -/

section Operations
variable (E : Env) (s : State)

theorem commonReset_status : (commonReset E s).2.vmmStatus = .unloaded :=
  congrArg CpuView.status (commonReset_view E s)

/-- A stop leaves the VMM loaded, running or corrupt. -/
theorem commonStopVmm_status : (commonStopVmm E s).2.vmmStatus = s.vmmStatus ∨ s.vmmStatus = .running ∧
    ((commonStopVmm E s).2.vmmStatus = .loaded ∨ (commonStopVmm E s).2.vmmStatus = .corrupt) := by
  by_cases hrun : s.vmmStatus = .running
  · have loop := stopLoop_status E s.numCpusStarted.toNat s
    rw [commonStopVmm_of_running E hrun]
    unfold stopExit
    split
    · exact .inr ⟨hrun, .inl rfl⟩
    · exact .inr ⟨hrun, .inr rfl⟩
    · exact .inl loop
  · rw [commonStopVmm_refused E hrun]
    exact .inl rfl

/-- An unload of a loaded VMM leaves it unloaded or corrupt. -/
theorem commonUnloadVmm_status :
    s.vmmStatus ≠ .loaded ∧ (commonUnloadVmm E s).2.vmmStatus = s.vmmStatus ∨ s.vmmStatus = .loaded ∧
      ((commonUnloadVmm E s).2.vmmStatus = .unloaded ∨ (commonUnloadVmm E s).2.vmmStatus = .corrupt) := by
  rcases hst : s.vmmStatus with _ | _ | _ | _
  · rw [commonUnloadVmm_of_unloaded E hst]
    exact .inl ⟨by simp, commonReset_status E s⟩
  · rw [commonUnloadVmm_of_loaded E hst]
    split
    · exact .inr ⟨rfl, .inr rfl⟩
    · exact .inr ⟨rfl, .inl (commonReset_status E _)⟩
  · rw [commonUnloadVmm_refused E (.inr hst)]
    exact .inl ⟨by simp, hst⟩
  · rw [commonUnloadVmm_refused E (.inl hst)]
    exact .inl ⟨by simp, hst⟩

theorem commonStartVmm_status : (commonStartVmm E s).2.vmmStatus = s.vmmStatus ∨ s.vmmStatus = .loaded ∧
    ((commonStartVmm E s).2.vmmStatus = .running ∨ (commonStartVmm E s).2.vmmStatus = .corrupt) := by
  by_cases hst : s.vmmStatus = .loaded
  · have loop := startLoop_status E maxCpus 0 { s with numCpusStarted := 0 }
    have ready : ∀ w : VmmStatus, w = s.vmmStatus ∨ w = .running →
        w = s.vmmStatus ∨ s.vmmStatus = .loaded ∧ (w = .running ∨ w = .corrupt) :=
      fun w hw => hw.imp_right fun h => ⟨hst, .inl h⟩
    rw [commonStartVmm_of_loaded E hst]
    unfold startExit
    split
    · exact ready _ loop
    · -- The rollback stops what was started, or finds the VMM still loaded.
      rcases commonStopVmm_status E (startLoop E maxCpus 0 { s with numCpusStarted := 0 }).2 with h | ⟨-, h | h⟩
      · exact ready _ (loop.imp h.trans h.trans)
      · exact .inl (h.trans hst.symm)
      · exact .inr ⟨hst, .inr h⟩
    · exact ready _ loop
  · rw [commonStartVmm_refused E hst]
    exact .inl rfl

theorem commonLoadVmm_status (fuel : Nat) : (commonLoadVmm E fuel s).2.vmmStatus = s.vmmStatus ∨
    s.vmmStatus = .unloaded ∧ (commonLoadVmm E fuel s).2.vmmStatus = .loaded := by
  by_cases h : s.vmmStatus = .unloaded ∧ s.numModules ≠ 0
  · obtain ⟨h, hm⟩ := h
    have run := commonLoadVmm_run E fuel s h hm
    revert run
    generalize commonLoadVmm E fuel s = r
    intro run
    rw [h]
    cases run with
    | stackFailed => exact .inl (commonReset_status E _)
    | tlsFailed => exact .inl (commonReset_status E _)
    | elfFailed => exact .inl (commonReset_status E _)
    | initRefused => exact .inl (commonReset_status E _)
    | modulesFailed => exact .inl (commonReset_status E _)
    | modulesPending => exact .inl ((loadModules_status E fuel s).trans h)
    | pagesFailed => exact .inl ((loadPages_status E fuel s).trans h)
    | loaded => exact .inr ⟨rfl, rfl⟩
  · rw [commonLoadVmm_refused E fuel h]
    exact .inl rfl

theorem commonDumpVmm_status (drr vcpuid : UInt64) : (commonDumpVmm E drr vcpuid s).2.vmmStatus = s.vmmStatus := by
  rcases commonDumpVmm_cases E drr vcpuid s with same | ⟨-, called⟩
  · rw [same]
  · rw [called]
    exact (callVmm_called E _ s).status

theorem commonFini_moves : Moves .fini s.vmmStatus (commonFini E s).2.vmmStatus := by
  have stopped : (finiStop E s).vmmStatus = s.vmmStatus ∨ s.vmmStatus = .running ∧
      ((finiStop E s).vmmStatus = .loaded ∨ (finiStop E s).vmmStatus = .corrupt) := by
    unfold finiStop
    split
    · exact commonStopVmm_status E s
    · exact .inl rfl
  have unloaded : Moves .fini s.vmmStatus (finiUnload E (finiStop E s)).vmmStatus := by
    unfold finiUnload
    split
    · rename_i hloaded
      have unload := commonUnloadVmm_status E (finiStop E s)
      rw [hloaded] at stopped unload
      rcases stopped with h | ⟨h, -⟩ <;> rcases unload with ⟨hne, -⟩ | ⟨-, h' | h'⟩
      · exact absurd rfl hne
      · exact h ▸ h'.symm ▸ .inr .finiLoaded
      · exact h ▸ h'.symm ▸ .inr .finiLoadedCorrupt
      · exact absurd rfl hne
      · exact h ▸ h'.symm ▸ .inr .finiRunning
      · exact h ▸ h'.symm ▸ .inr .finiRunningCorrupt
    · rename_i hne
      rcases stopped with h | ⟨h, h' | h'⟩
      · exact .inl h
      · exact absurd h' hne
      · rw [h, h']
        exact .inr .finiRunningCorrupt
  unfold commonFini
  dsimp only
  split
  · exact unloaded
  · split
    · rename_i hst
      rw [commonReset_status, ← hst.1]
      exact unloaded
    · exact unloaded

end Operations

theorem exec_moves (E : Env) (fuel : Nat) (op : Op) (s : State) :
    Moves op s.vmmStatus (exec E fuel op s).2.vmmStatus := by
  cases op with
  | addModule file fsize => exact .inl (congrArg CpuView.status (commonAddModule_view E file fsize s))
  | loadVmm =>
    rcases commonLoadVmm_status E s fuel with h | ⟨h, h'⟩
    · exact .inl h
    · exact .inr (h ▸ h'.symm ▸ .load)
  | unloadVmm =>
    rcases commonUnloadVmm_status E s with ⟨-, h⟩ | ⟨h, h' | h'⟩
    · exact .inl h
    · exact .inr (h ▸ h'.symm ▸ .unload)
    · exact .inr (h ▸ h'.symm ▸ .unloadCorrupt)
  | startVmm =>
    rcases commonStartVmm_status E s with h | ⟨h, h' | h'⟩
    · exact .inl h
    · exact .inr (h ▸ h'.symm ▸ .start)
    · exact .inr (h ▸ h'.symm ▸ .startCorrupt)
  | stopVmm =>
    rcases commonStopVmm_status E s with h | ⟨h, h' | h'⟩
    · exact .inl h
    · exact .inr (h ▸ h'.symm ▸ .stop)
    · exact .inr (h ▸ h'.symm ▸ .stopCorrupt)
  | dumpVmm drr vcpuid => exact .inl (commonDumpVmm_status E s drr vcpuid)
  | fini => exact commonFini_moves E s

/-- In every state an operation takes an edge of the status machine or stays where it is, so that a corrupt
    driver stays corrupt, and one that the status does not admit changes nothing and makes no call. -/
theorem exec_legal (E : Env) (fuel : Nat) (op : Op) (s : State) :
    Moves op s.vmmStatus (exec E fuel op s).2.vmmStatus ∧
      (s.vmmStatus = .corrupt → (exec E fuel op s).2.vmmStatus = .corrupt) ∧
        (op.refusedIn s.vmmStatus = true → (exec E fuel op s).2 = s) := by
  have moves := exec_moves E fuel op s
  refine ⟨moves, fun corrupt => ?_, exec_of_refused E fuel op⟩
  rcases moves with same | edge
  · exact same.trans corrupt
  · exact absurd corrupt edge.not_corrupt

end Bfdriver
