import Bfdriver.TestPlatform
import Bfdriver.Theorems.Ownership

/-! # Finalising the driver

What `common_fini` leaves behind when it reports success, and exactly when its report can be trusted. -/

namespace Bfdriver
open EventLog BlockHeap

/-! ### Refused stops -/

/-- The VMM accepts `VMCALL_STOP` on CPU `c`, should the driver get there. -/
def StopAccepted (E : Env) (c : Int) (s : State) : Prop :=
  0 ≤ E.setAffinity s.trace c → E.vmcall (.setAffinity c (E.setAffinity s.trace c) :: s.trace) .stop = 0

/-- The VMM accepts every `VMCALL_STOP` that a stop of the CPUs below `n` gets to. -/
def StopsAccepted (E : Env) : Nat → State → Prop
  | 0, _ => True
  | n + 1, s => StopAccepted E n s ∧ ((stopCpu E n s).1 = .next → StopsAccepted E n (stopCpu E n s).2)

instance (E : Env) (c : Int) (s : State) : Decidable (StopAccepted E c s) := inferInstanceAs (Decidable (_ → _))

instance StopsAccepted.decidable (E : Env) : ∀ (n : Nat) (s : State), Decidable (StopsAccepted E n s)
  | 0, _ => inferInstanceAs (Decidable True)
  | n + 1, s =>
    have := StopsAccepted.decidable E n (stopCpu E n s).2
    inferInstanceAs (Decidable (StopAccepted E n s ∧ (_ → _)))

/-- Only a refusal leaves the loop of `common_stop_vmm` by its `return`. -/
theorem stopAccepted_iff (E : Env) (c : Int) (s : State) :
    StopAccepted E c s ↔ ∀ ret, (stopCpu E c s).1 ≠ .ret ret := by
  unfold StopAccepted stopCpu
  dsimp only [State.emit]
  split
  · rename_i neg
    exact iff_of_true (fun h => absurd h (Int.not_le.mpr neg)) (by simp)
  · rename_i placed
    have placed := Int.not_lt.mp placed
    split
    · rename_i refused
      exact iff_of_false (fun h => refused (h placed)) fun h => h _ rfl
    · rename_i accepted
      refine iff_of_true (fun _ => not_not.mp accepted) ?_
      split <;> simp

/-- How the loop of `common_stop_vmm` ends when it covers all outstanding CPUs. -/
inductive StopRun (E : Env) (n : Nat) (s : State) : Exit → State → Prop where
  | stopped {t : State} (none : ∀ c, ¬Outstanding c (signals t.trace)) (accepted : StopsAccepted E n s) :
      StopRun E n s .next t
  | failed {t : State} {ret : Int} (accepted : StopsAccepted E n s) : StopRun E n s (.fail ret) t
  | refused {t : State} {ret : Int} (refused : ¬StopsAccepted E n s) : StopRun E n s (.ret ret) t

theorem stopLoop_run (E : Env) : ∀ (n : Nat) (s : State),
    (∀ c, Outstanding c (signals s.trace) ↔ 0 ≤ c ∧ c < n) → StopRun E n s (stopLoop E n s).1 (stopLoop E n s).2
  | 0, s, hout => .stopped (fun c hc => by have := (hout c).mp hc; omega) trivial
  | n + 1, s, hout => by
    have round := stopCpu_round E n s
    have accepted := stopAccepted_iff E n s
    have stops : StopsAccepted E (n + 1) s ↔
        StopAccepted E n s ∧ ((stopCpu E n s).1 = .next → StopsAccepted E n (stopCpu E n s).2) := Iff.rfl
    unfold stopLoop
    revert round accepted stops
    rcases stopCpu E n s with ⟨x, t⟩
    intro round accepted stops
    cases round with
    | notPlaced neg view => exact .failed (stops.mpr ⟨accepted.mpr (by simp), by simp⟩)
    | refused view => exact .refused fun h => accepted.mp (stops.mp h).1 _ rfl
    | finiRefused ne view => exact .failed (stops.mpr ⟨accepted.mpr (by simp), by simp⟩)
    | done res view =>
      have sig : signals t.trace = .accepted res (.vmmFini n) :: .vmcall .stop n true :: signals s.trace :=
        congrArg CpuView.signals view
      have below : ∀ c, Outstanding c (signals t.trace) ↔ 0 ≤ c ∧ c < n := fun c => by
        rw [sig, outstanding_vmmFini, outstanding_vmcall, hout]
        omega
      have stops : StopsAccepted E (n + 1) s ↔ StopsAccepted E n t :=
        ⟨fun h => (stops.mp h).2 rfl, fun h => stops.mpr ⟨accepted.mpr (by simp), fun _ => h⟩⟩
      have rest := stopLoop_run E n t below
      dsimp only
      revert rest
      rcases stopLoop E n t with ⟨y, u⟩
      intro rest
      cases rest with
      | stopped none accepted => exact .stopped none (stops.mpr accepted)
      | failed accepted => exact .failed (stops.mpr accepted)
      | refused refused => exact .refused (mt stops.mp refused)

/-! ### What a reset releases -/

theorem heap_releases_none (ps : Pointers) {t : Trace} {a : UInt64} (h : heap t a = none) :
    heap (releases ps t) a = none := by
  induction ps generalizing t with
  | nil => exact h
  | cons p ps ih =>
    refine ih ?_
    rw [heap_free, Function.update_apply]
    split
    · rfl
    · exact h

theorem heap_releases_mem {ps : Pointers} {t : Trace} {p : UInt64 × Block} (h : p ∈ ps) :
    heap (releases ps t) p.1 = none := by
  induction ps generalizing t with
  | nil => cases h
  | cons q ps ih =>
    rcases List.mem_cons.mp h with rfl | h
    · refine heap_releases_none ps ?_
      rw [heap_free, Function.update_self]
    · exact ih h

/-! ### Complete or reported -/

/-- `t` is what a complete finalisation leaves of `s`. -/
structure Finalised (s t : State) : Prop where
  status : t.vmmStatus = .unloaded
  modules : t.numModules = 0
  cpus : ∀ c, ¬Outstanding c (signals t.trace)
  pointers : t.stack = 0 ∧ t.tls = 0
  freed : ∀ p ∈ s.pointers, heap t.trace p.1 = none

/-- The result of `common_fini`: success means that the finalisation is complete, and otherwise the VMM is
    reported as corrupt. -/
structure CompleteOrReported (E : Env) (s : State) (r : Int × State) : Prop where
  complete : r.1 = bfSuccess → Finalised s r.2
  reported : r.1 ≠ bfSuccess → r.1 = E.sdk.code .vmmCorrupted ∧ r.2.vmmStatus = .corrupt

/-- No CPU is left outstanding below a running VMM, unless `BF_REQUEST_FINI` is refused, and the stop of a
    running VMM is not refused a `VMCALL_STOP`. -/
structure FinalisesWhole (E : Env) (s : State) : Prop where
  unloaded : s.vmmStatus = .unloaded → ∀ c, ¬Outstanding c (signals s.trace)
  loaded : s.vmmStatus = .loaded → (callVmm E .fini s).1 = bfSuccess → ∀ c, ¬Outstanding c (signals s.trace)
  running : s.vmmStatus = .running → StopsAccepted E s.numCpusStarted.toNat s

section Complete
variable {E : Env} {s u : State}

theorem finalised_reset (hp : u.pointers = s.pointers) (hc : ∀ c, ¬Outstanding c (signals u.trace)) :
    Finalised s (commonReset E u).2 := by
  rw [commonReset_eq]
  refine ⟨rfl, rfl, ?_, ⟨rfl, rfl⟩, fun p hm => heap_releases_mem (hp.symm ▸ hm)⟩
  rwa [signals_releases]

theorem callVmm_fini_outstanding (h : (callVmm E .fini u).1 = bfSuccess) (c : Int) :
    Outstanding c (signals (callVmm E .fini u).2.trace) ↔ Outstanding c (signals u.trace) := by
  rw [callVmm_signals, if_pos h]
  exact outstanding_request rfl

/-- A loaded VMM is finalised whole or reported if no CPU is outstanding. -/
theorem completeOrReported_of_loaded (hst : u.vmmStatus = .loaded) (hp : u.pointers = s.pointers)
    (hc : (callVmm E .fini u).1 = bfSuccess → ∀ c, ¬Outstanding c (signals u.trace)) :
    CompleteOrReported E s (commonFini E u) := by
  have called := (callVmm_called E .fini u).toKept
  rw [commonFini_of_loaded hst, commonUnloadVmm_of_loaded E hst]
  split
  · exact ⟨fun h => absurd h (E.sdk.code_ne _), fun _ => ⟨rfl, rfl⟩⟩
  · rename_i hret
    have hret := not_not.mp hret
    refine ⟨fun _ => finalised_reset (called.pointers.trans hp) fun c => ?_, fun hne => absurd rfl hne⟩
    rw [callVmm_fini_outstanding hret]
    exact hc hret c

theorem completeOrReported_of_corrupt (hst : u.vmmStatus = .corrupt) :
    CompleteOrReported E s (commonFini E u) := by
  rw [commonFini_of_corrupt hst]
  exact ⟨fun h => absurd h (E.sdk.code_ne _), fun _ => ⟨rfl, hst⟩⟩

theorem commonFini_unloaded_iff (settled : Settled s) (hst : s.vmmStatus = .unloaded) :
    CompleteOrReported E s (commonFini E s) ↔ ∀ c, ¬Outstanding c (signals s.trace) := by
  rw [commonFini_of_unloaded hst]
  by_cases hm : 0 < s.numModules
  · rw [if_pos hm]
    refine ⟨fun h => ?_, fun hc => ⟨fun _ => finalised_reset rfl hc, fun hne => absurd rfl hne⟩⟩
    have cpus := (h.complete rfl).cpus
    rw [commonReset_eq] at cpus
    simpa using cpus
  · rw [if_neg hm]
    have none : s.numModules = 0 := Nat.eq_zero_of_not_pos hm
    have empty := settled.empty (settled.idle none)
    refine ⟨fun h => (h.complete rfl).cpus, fun hc => ⟨fun _ => ?_, fun hne => absurd rfl hne⟩⟩
    refine ⟨hst, none, hc, ⟨settled.idle none, (State.pointers_eq_nil.mp empty).2.1⟩, fun p hp => ?_⟩
    rw [empty] at hp
    cases hp

theorem commonFini_loaded_iff (hst : s.vmmStatus = .loaded) : CompleteOrReported E s (commonFini E s) ↔
    ((callVmm E .fini s).1 = bfSuccess → ∀ c, ¬Outstanding c (signals s.trace)) := by
  refine ⟨fun h hret c => ?_, completeOrReported_of_loaded hst rfl⟩
  rw [commonFini_of_loaded hst, commonUnloadVmm_of_loaded E hst, if_neg (not_not.mpr hret)] at h
  have cpus := (h.complete rfl).cpus c
  rw [commonReset_eq] at cpus
  simpa [callVmm_fini_outstanding hret] using cpus

theorem commonFini_running_iff (coupled : Coupled s.view) (hst : s.vmmStatus = .running) :
    CompleteOrReported E s (commonFini E s) ↔ StopsAccepted E s.numCpusStarted.toNat s := by
  obtain ⟨hpos, hout⟩ := coupled.running hst
  have counted : s.view.started = (s.numCpusStarted.toNat : Int) := by
    have : 1 ≤ s.numCpusStarted := hpos
    exact (Int.toNat_of_nonneg (by omega)).symm
  rw [counted] at hout
  have kept := commonStopVmm_kept E s
  have stop := commonStopVmm_of_running E hst
  have status := stopLoop_status E s.numCpusStarted.toNat s
  have run := stopLoop_run E s.numCpusStarted.toNat s hout
  revert stop run status
  rcases stopLoop E s.numCpusStarted.toNat s with ⟨x, t⟩
  intro stop status run
  cases run with
  | stopped none accepted =>
    have loaded : (commonStopVmm E s).2.vmmStatus = .loaded := congrArg (fun r => r.2.vmmStatus) stop
    have trace : (commonStopVmm E s).2.trace = t.trace := congrArg (fun r => r.2.trace) stop
    rw [commonFini_of_stopped hst (by simp [loaded])]
    exact iff_of_true (completeOrReported_of_loaded loaded kept.pointers fun _ => trace ▸ none) accepted
  | failed accepted =>
    have corrupt : (commonStopVmm E s).2.vmmStatus = .corrupt := congrArg (fun r => r.2.vmmStatus) stop
    rw [commonFini_of_stopped hst (by simp [corrupt])]
    exact iff_of_true (completeOrReported_of_corrupt corrupt) accepted
  | refused refused =>
    have running : (commonStopVmm E s).2.vmmStatus = .running :=
      (congrArg (fun r => r.2.vmmStatus) stop).trans (status.trans hst)
    rw [commonFini_of_running hst running]
    refine iff_of_false (fun h => ?_) refused
    have unloaded := (h.complete rfl).status
    rw [running] at unloaded
    cases unloaded

end Complete

/-- `common_fini` completes the finalisation or reports a corrupt VMM exactly where no CPU was left behind
    and the stop of a running VMM is not refused. -/
theorem commonFini_complete_iff {E : Env} {s : State} (h : Reachable E s) :
    CompleteOrReported E s (commonFini E s) ↔ FinalisesWhole E s := by
  rcases hst : s.vmmStatus with _ | _ | _ | _
  · rw [commonFini_unloaded_iff h.settled hst]
    exact ⟨fun hc => ⟨fun _ => hc, by simp [hst], by simp [hst]⟩, fun hw => hw.unloaded hst⟩
  · rw [commonFini_loaded_iff hst]
    exact ⟨fun hc => ⟨by simp [hst], fun _ => hc, by simp [hst]⟩, fun hw => hw.loaded hst⟩
  · rw [commonFini_running_iff h.coupled hst]
    exact ⟨fun hc => ⟨by simp [hst], by simp [hst], fun _ => hc⟩, fun hw => hw.running hst⟩
  · exact iff_of_true (completeOrReported_of_corrupt hst) ⟨by simp [hst], by simp [hst], by simp [hst]⟩

theorem commonFini_complete_after_start :
    CompleteOrReported (testEnv {}) (after (testEnv {}) 8 startOps)
      (commonFini (testEnv {}) (after (testEnv {}) 8 startOps)) := by
  have running : (after (testEnv {}) 8 startOps).vmmStatus = .running := by decide +kernel
  exact (commonFini_complete_iff (reachable_after (by decide +kernel))).mpr
    ⟨by simp [running], by simp [running], fun _ => by decide +kernel⟩

/-- `common_fini` reports success when the stop of a running VMM is refused. -/
theorem not_completeOrReported_of_refusal : ¬∀ (E : Env) (s : State), Reachable E s →
    CompleteOrReported E s (commonFini E s) := by
  intro all
  let E := testEnv { vmcall := fun _ op => if op = .stop then 1 else 0 }
  have result := all E (after E 8 startOps) (reachable_after (by decide +kernel))
  have unloaded := (result.complete (by decide +kernel)).status
  have running : (commonFini E (after E 8 startOps)).2.vmmStatus = .running := by decide +kernel
  rw [running] at unloaded
  cases unloaded

end Bfdriver
