import Bfdriver.TestPlatform
import Bfdriver.Theorems.Protocol

/-! # The status, the counter and the CPUs

What the status says about the CPUs between the operations, and what the success of a start says. Both
are read off the invariants of the CPU protocol. -/

namespace Bfdriver

/-- The status, the counter of started CPUs and the outstanding CPUs say the same. -/
structure StatusCpuCoupling (s : State) : Prop where
  running : s.vmmStatus = .running →
    1 ≤ s.numCpusStarted ∧ ∀ c, Outstanding c (signals s.trace) ↔ 0 ≤ c ∧ c < s.numCpusStarted
  idle : s.vmmStatus = .loaded ∨ s.vmmStatus = .unloaded →
    s.numCpusStarted = 0 ∧ ∀ c, ¬Outstanding c (signals s.trace)

/-- In a run in which `VMCALL_START` is not refused on CPU 0, the status and the CPUs are coupled. -/
theorem statusCpuCoupling_of_noFirstRefusal {E : Env} {s : State} (h : Reachable E s)
    (hno : NoFirstRefusal (signals s.trace)) : StatusCpuCoupling s where
  running := h.coupled.running
  idle hst := h.coupled.clean hst hno

theorem statusCpuCoupling_after_start : StatusCpuCoupling (after (testEnv {}) 8 startOps) :=
  statusCpuCoupling_of_noFirstRefusal (reachable_after (by decide +kernel)) (by
    unfold NoFirstRefusal
    decide +kernel)

/-- `common_start_vmm` returns from a refused `VMCALL_START` without its rollback. -/
theorem not_statusCpuCoupling_of_refusal : ¬∀ (E : Env) (s : State), Reachable E s → StatusCpuCoupling s := by
  intro all
  let E := testEnv { vmcall := fun _ op => if op = .start then 1 else 0 }
  have coupled := all E (after E 8 startOps) (reachable_after (by decide +kernel))
  have loaded : (after E 8 startOps).vmmStatus = .loaded := by decide +kernel
  have outstanding : Outstanding 0 (signals (after E 8 startOps).trace) := by decide +kernel
  exact (coupled.idle (.inl loaded)).2 0 outstanding

/-! ### What the success of a start means -/

theorem ReachableBy.launchInv {E : Env} {P : State → Op → Prop} {s : State} (h : ReachableBy E P s) :
    LaunchInv (CpuRange E) s.view := by
  refine h.invariant (I := fun s => LaunchInv (CpuRange E) s.view) ?_ fun s fuel op before _ _ ih => ?_
  · rw [commonInit_view]
    exact LaunchInv.initial
  · exact ih.steps (exec_steps E fuel op s fun hrun => (before.coupled.running hrun).1)

/-- A loop that ends early does not report success. -/
def Exit.Fails : Exit → Prop
  | .next => True
  | .fail r => r ≠ bfSuccess
  | .ret r => r ≠ bfSuccess

theorem startCpu_fails (E : Env) (c : Int) (s : State) : (startCpu E c s).1.Fails := by
  have round := startCpu_round E c s
  revert round
  rcases startCpu E c s with ⟨x, t⟩
  intro round
  cases round with
  | notPlaced neg => exact Int.ne_of_lt neg
  | initRefused ne => exact ne
  | refused => exact E.sdk.code_ne _
  | done => trivial

theorem stopCpu_fails (E : Env) (c : Int) (s : State) : (stopCpu E c s).1.Fails := by
  have round := stopCpu_round E c s
  revert round
  rcases stopCpu E c s with ⟨x, t⟩
  intro round
  cases round with
  | notPlaced neg => exact Int.ne_of_lt neg
  | refused => exact E.sdk.code_ne _
  | finiRefused ne => exact ne
  | done => trivial

theorem stopLoop_fails (E : Env) : ∀ (n : Nat) (s : State), (stopLoop E n s).1.Fails
  | 0, _ => trivial
  | n + 1, s => by
    unfold stopLoop
    dsimp only
    split
    · exact stopLoop_fails E n _
    · exact stopCpu_fails E n s

theorem startLoop_fails (E : Env) : ∀ (rounds : Nat) (c : Int) (s : State), (startLoop E rounds c s).1.Fails
  | 0, _, _ => trivial
  | rounds + 1, c, s => by
    unfold startLoop
    dsimp only
    split
    · split
      · exact startLoop_fails E rounds _ _
      · exact startCpu_fails E c _
    · trivial

/-- A loop that goes through to the end has started every CPU that the platform counts. -/
theorem startLoop_next {E : Env} {n : Int64} (hn : ∀ t, E.numCpus t = n) : ∀ (rounds : Nat) (c : Int) (s : State),
    s.numCpusStarted = c → s.view.ReadyFor → n.toInt ≤ c + rounds → (startLoop E rounds c s).1 = .next →
    (startLoop E rounds c s).2.view.ReadyFor ∧ n.toInt ≤ (startLoop E rounds c s).2.numCpusStarted
  | 0, c, s, hstarted, hready, hle, _ => by
    have view : (startLoop E 0 c s).2.view = s.view := view_emit rfl
    have started : (startLoop E 0 c s).2.numCpusStarted = c := hstarted
    rw [view, started]
    exact ⟨hready, by omega⟩
  | rounds + 1, c, s, hstarted, hready, hle, hnext => by
    unfold startLoop at hnext ⊢
    dsimp only at hnext ⊢
    set asked := s.emit (.numCpus (E.numCpus s.trace))
    have asked_started : asked.numCpusStarted = c := hstarted
    split at hnext
    · rename_i hlt
      rw [if_pos hlt]
      have round := startCpu_round E c asked
      revert round hnext
      rcases startCpu E c asked with ⟨x, t⟩
      intro hnext round
      cases round with
      | notPlaced neg view => cases hnext
      | initRefused ne view => cases hnext
      | refused res view => cases hnext
      | done res view =>
        rw [asked_started] at view
        have next : t.view.ReadyFor := by
          rw [view]
          exact .inr ⟨rfl, by simp [CpuView.push]⟩
        exact startLoop_next hn rounds (c + 1) t (congrArg CpuView.started view) next (by omega) hnext
    · rename_i hge
      rw [if_neg hge]
      rw [hn] at hge
      have view : asked.view = s.view := view_emit rfl
      rw [view, asked_started]
      exact ⟨hready, by omega⟩

theorem lastStart_of_head {l : List Signal} {c : Int} {ok : Bool} (h : l.head? = some (.vmcall .start c ok)) :
    lastStart l = some (c, ok) := by
  obtain ⟨t, rfl⟩ := List.head?_eq_some_iff.mp h
  rfl

theorem lastStart_of_mem {l : List Signal} {c : Int} {ok : Bool} (h : .vmcall .start c ok ∈ l) :
    ∃ d ok', lastStart l = some (d, ok') ∧ .vmcall .start d ok' ∈ l := by
  induction l with
  | nil => cases h
  | cons x l ih =>
    have rest : .vmcall .start c ok ∈ l → ∃ d ok', lastStart l = some (d, ok') ∧
        .vmcall .start d ok' ∈ x :: l := fun h => by
      obtain ⟨d, ok', hlast, hm⟩ := ih h
      exact ⟨d, ok', hlast, List.mem_cons_of_mem x hm⟩
    match x, h with
    | .vmcall .start d ok', _ => exact ⟨d, ok', rfl, List.mem_cons_self⟩
    | .vmcall .stop d ok', h => exact rest (by simpa using h)
    | .accepted res req, h => exact rest (by simpa using h)

/-- Every CPU below `n` runs under the VMM, which is running. -/
def AllLaunched (n : Int64) (s : State) : Prop :=
  s.vmmStatus = .running ∧ ∀ c : Int, 0 ≤ c → c < n.toInt → Launched c (signals s.trace)

/-- There are CPUs to start, and none that an earlier start or stop left behind: when the VMM already
    runs, as many CPUs were started as there are, and the last `VMCALL_START` was accepted. -/
structure StartsAll (n : Int64) (s : State) : Prop where
  loaded : s.vmmStatus = .loaded → 0 < n.toInt
  running : s.vmmStatus = .running →
    s.numCpusStarted = n.toInt ∧ ∃ c, lastStart (signals s.trace) = some (c, true)

/-- While the VMM runs, all CPUs are launched exactly when none was left behind. -/
theorem allLaunched_iff {E : Env} {n : Int64} (hn : ∀ t, E.numCpus t = n) {s : State} (h : Reachable E s)
    (hrun : s.vmmStatus = .running) : AllLaunched n s ↔
      s.numCpusStarted = n.toInt ∧ ∃ c, lastStart (signals s.trace) = some (c, true) := by
  have inv := h.launchInv
  have hstarted : 1 ≤ s.numCpusStarted := (h.coupled.running hrun).1
  have below_n : ∀ c ok, .vmcall .start c ok ∈ signals s.trace → 0 ≤ c ∧ c < n.toInt := fun c ok hm => by
    obtain ⟨h0, t, hlt⟩ := inv.inRange c ok hm
    exact ⟨h0, by rwa [hn] at hlt⟩
  constructor
  · rintro ⟨-, all⟩
    have le : n.toInt ≤ s.numCpusStarted := by
      by_contra hlt
      have last := inv.below hrun s.numCpusStarted (all s.numCpusStarted (by omega) (by omega)).2
      exact absurd last.2 (Int.lt_irrefl _)
    obtain ⟨ok, tried⟩ := inv.tried hrun (s.numCpusStarted - 1) (by omega) (Int.sub_one_lt_of_le (Int.le_refl _))
    have ge := (below_n _ ok tried).2
    obtain ⟨d, ok', hlast, hm⟩ := lastStart_of_mem tried
    obtain ⟨h0, hd⟩ := below_n d ok' hm
    refine ⟨by omega, d, ?_⟩
    cases ok' with
    | true => exact hlast
    | false => exact absurd (all d h0 hd).2 (inv.refused d hlast)
  · rintro ⟨heq, d, hlast⟩
    exact ⟨hrun, fun c h0 hc => inv.launched hrun d hlast c h0 (Int.lt_of_lt_of_le hc (Int.le_of_eq heq.symm))⟩

section Start
variable {E : Env} {n : Int64} {s : State}

/-- Without CPUs a start succeeds at once. -/
theorem commonStartVmm_of_no_cpus (hn : ∀ t, E.numCpus t = n) (hst : s.vmmStatus = .loaded) (hle : n.toInt ≤ 0) :
    commonStartVmm E s = (bfSuccess, State.emit { s with numCpusStarted := 0 } (.numCpus n)) := by
  have more : maxCpus = (maxCpus - 1) + 1 := rfl
  have stops : ¬(0 : Int) < n.toInt := by omega
  rw [commonStartVmm_of_loaded E hst, more, startLoop, hn, if_neg stops]
  rfl

/-- A start of a loaded VMM that succeeds has started every CPU. -/
theorem allLaunched_of_start (hn : ∀ t, E.numCpus t = n) (h : Reachable E s) (hst : s.vmmStatus = .loaded)
    (hpos : 0 < n.toInt) (hret : (commonStartVmm E s).1 = bfSuccess) : AllLaunched n (commonStartVmm E s).2 := by
  have after : Reachable E (commonStartVmm E s).2 := h.step 0 .startVmm trivial rfl
  have bounded : n.toInt ≤ 0 + (maxCpus : Int) := by
    have := n.toInt_lt
    simp only [maxCpus]
    omega
  have fails := startLoop_fails E maxCpus 0 { s with numCpusStarted := 0 }
  have goes := startLoop_next hn maxCpus 0 { s with numCpusStarted := 0 } rfl (.inl ⟨hst, rfl⟩) bounded
  rw [commonStartVmm_of_loaded E hst] at after hret ⊢
  revert after hret fails goes
  rcases startLoop E maxCpus 0 { s with numCpusStarted := 0 } with ⟨x, t⟩
  intro hret after fails goes
  cases x with
  | fail ret => exact absurd hret fails
  | ret ret => exact absurd hret fails
  | next =>
    obtain ⟨hready, hle⟩ := goes rfl
    have hle : n.toInt ≤ t.numCpusStarted := hle
    rcases hready with ⟨-, h0⟩ | ⟨hrun, hhead⟩
    · have h0 : t.numCpusStarted = 0 := h0
      omega
    · have launched := after.launchInv.launched hrun _ (lastStart_of_head hhead)
      exact ⟨hrun, fun c h0 hc => launched c h0 (Int.lt_of_lt_of_le hc hle)⟩

end Start

/-- `common_start_vmm` keeps the meaning of its success exactly where it has CPUs to start and none was
    left behind by an earlier start or stop. -/
theorem commonStartVmm_success_iff {E : Env} {n : Int64} (hn : ∀ t, E.numCpus t = n) {s : State}
    (h : Reachable E s) :
    ((commonStartVmm E s).1 = bfSuccess → AllLaunched n (commonStartVmm E s).2) ↔ StartsAll n s := by
  rcases hst : s.vmmStatus with _ | _ | _ | _
  · have refused : (commonStartVmm E s).1 = E.sdk.code .vmmInvalidState := by simp [commonStartVmm, hst]
    exact ⟨fun _ => ⟨by simp [hst], by simp [hst]⟩, fun _ hret => absurd (refused.symm.trans hret) (E.sdk.code_ne _)⟩
  · refine ⟨fun launched => ⟨fun _ => ?_, by simp [hst]⟩, fun starts => allLaunched_of_start hn h hst (starts.loaded hst)⟩
    by_contra hpos
    rw [commonStartVmm_of_no_cpus hn hst (by omega)] at launched
    have running : s.vmmStatus = .running := (launched rfl).1
    rw [hst] at running
    cases running
  · have same : commonStartVmm E s = (bfSuccess, s) := by simp [commonStartVmm, hst]
    rw [same]
    constructor
    · exact fun launched => ⟨by simp [hst], fun _ => (allLaunched_iff hn h hst).mp (launched rfl)⟩
    · exact fun starts _ => (allLaunched_iff hn h hst).mpr (starts.running hst)
  · have refused : (commonStartVmm E s).1 = E.sdk.code .vmmCorrupted := by simp [commonStartVmm, hst]
    exact ⟨fun _ => ⟨by simp [hst], by simp [hst]⟩, fun _ hret => absurd (refused.symm.trans hret) (E.sdk.code_ne _)⟩

theorem commonStartVmm_success_two_cpus :
    AllLaunched 2 (commonStartVmm (testEnv { numCpus := 2 }) (after (testEnv { numCpus := 2 }) 8 startOps)).2 :=
  (commonStartVmm_success_iff (n := 2) (fun _ => rfl) (reachable_after (by decide +kernel))).mpr
    ⟨by decide +kernel, fun _ => ⟨by decide +kernel, 1, by decide +kernel⟩⟩ (by decide +kernel)

/-- A second start reports success although `VMCALL_START` was refused on CPU 1 during the first. -/
theorem not_allLaunched_of_restart : ¬∀ (E : Env) (n : Int64) (s : State), (∀ t, E.numCpus t = n) →
    Reachable E s → (commonStartVmm E s).1 = bfSuccess → AllLaunched n (commonStartVmm E s).2 := by
  intro all
  let E := testEnv
    { numCpus := 2
      vmcall := fun t op => if op = .start ∧ .vmcall .start 0 true ∈ signals t then 1 else 0 }
  have launched := all E 2 (after E 8 startOps) (fun _ => rfl) (reachable_after (by decide +kernel))
    (by decide +kernel)
  have idle : ¬Launched 1 (signals (commonStartVmm E (after E 8 startOps)).2.trace) := by decide +kernel
  exact idle (launched.2 1 (by decide) (by decide))

end Bfdriver
