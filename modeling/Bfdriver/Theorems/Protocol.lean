import Bfdriver.Cpus
import Bfdriver.Theorems.Load

/-! # `common.c` follows the CPU protocol

Every operation is a run of the CPU protocol on the view of the state. One lemma for each loop body says
how a round can end; the loops follow by induction, and the operations from the loops. -/

namespace Bfdriver
open EventLog

/-- The CPUs that the platform ever counts. -/
def CpuRange (E : Env) (c : Int) : Prop := 0 ≤ c ∧ ∃ t, c < (E.numCpus t).toInt

def State.view (s : State) : CpuView := ⟨s.vmmStatus, s.numCpusStarted, signals s.trace⟩

section View
variable {s t : State}

theorem view_emit {e : Event} (h : signal? e = none) : (s.emit e).view = s.view := by
  simp [State.view, State.emit, h]

theorem view_emit_signal {e : Event} {x : Signal} (h : signal? e = some x) : (s.emit e).view = s.view.push x := by
  simp [State.view, State.emit, CpuView.push, h]

theorem signal?_vmcall_of_ne {op : VmcallOp} {c : Int} {r01 : UInt64} (h : r01 ≠ 0) :
    signal? (.vmcall op c r01) = some (.vmcall op c false) := by
  simp [signal?, h]

theorem signal?_vmcall_of_eq {op : VmcallOp} {c : Int} {r01 : UInt64} (h : r01 = 0) :
    signal? (.vmcall op c r01) = some (.vmcall op c true) := by
  simp [signal?, h]

/-- Registering memory is a run of requests. -/
theorem Registered.steps {R : Int → Prop} (h : Registered s t) : CpuSteps R s.view t.view := by
  obtain ⟨es, hes, all⟩ := h.mdls
  have run : ∀ l : List Signal, (∀ x ∈ l, x.IsMdl) → ∀ w : CpuView,
      CpuSteps R w ⟨w.status, w.started, l ++ w.signals⟩ := by
    intro l
    induction l with
    | nil => exact fun _ w => .refl
    | cons x l ih =>
      intro hl w
      have before := ih (fun y hy => hl y (List.mem_cons_of_mem x hy)) w
      obtain ⟨res, md, rfl⟩ : ∃ res md, x = .accepted res (.addMdl md) := by
        have hx := hl x List.mem_cons_self
        match x, hx with
        | .accepted res (.addMdl md), _ => exact ⟨res, md, rfl⟩
      exact before.tail (.request res _ rfl)
  have hview : t.view = ⟨s.view.status, s.view.started, es ++ s.view.signals⟩ := by
    unfold State.view
    rw [h.status, h.started, hes]
  rw [hview]
  exact run es all s.view

end View

section Calls
variable (E : Env) (req : Request) (s : State)

theorem callVmm_view_of_ne (h : (callVmm E req s).1 ≠ bfSuccess) : (callVmm E req s).2.view = s.view := by
  have called := callVmm_called E req s
  unfold State.view
  rw [called.status, called.started, callVmm_signals, if_neg h]

theorem callVmm_view_of_eq (h : (callVmm E req s).1 = bfSuccess) :
    (callVmm E req s).2.view = s.view.push (.accepted s.resources req) := by
  have called := callVmm_called E req s
  unfold State.view CpuView.push
  rw [called.status, called.started, callVmm_signals, if_pos h]

theorem callVmm_steps (h : req.global = true) : CpuSteps (CpuRange E) s.view (callVmm E req s).2.view := by
  by_cases hret : (callVmm E req s).1 = bfSuccess
  · rw [callVmm_view_of_eq E req s hret]
    exact .single (.request _ _ h)
  · rw [callVmm_view_of_ne E req s hret]

end Calls

/-! ### Stopping -/

/-- How a round of the loop of `common_stop_vmm` on CPU `c` ends. -/
inductive StopRound (k : Sdk) (c : Int) (s : State) : Exit → State → Prop where
  | notPlaced {t : State} {ret : Int} (neg : ret < 0) (view : t.view = s.view) : StopRound k c s (.fail ret) t
  | refused {t : State} (view : t.view = s.view.push (.vmcall .stop c false)) :
      StopRound k c s (.ret (k.code .vmmStopFailed)) t
  | finiRefused {t : State} {ret : Int} (ne : ret ≠ bfSuccess)
      (view : t.view = s.view.push (.vmcall .stop c true)) : StopRound k c s (.fail ret) t
  | done {t : State} (res : Resources)
      (view : t.view = { (s.view.push (.vmcall .stop c true)).push (.accepted res (.vmmFini c)) with
        started := s.numCpusStarted - 1 }) : StopRound k c s .next t

theorem stopCpu_round (E : Env) (c : Int) (s : State) :
    StopRound E.sdk c s (stopCpu E c s).1 (stopCpu E c s).2 := by
  unfold stopCpu
  dsimp only
  set placed := s.emit (.setAffinity c (E.setAffinity s.trace c)) with hplaced
  have placed_view : placed.view = s.view := view_emit rfl
  split
  · rename_i hneg
    exact .notPlaced hneg placed_view
  · set stopped := placed.emit (.vmcall .stop c (E.vmcall placed.trace .stop)) with hstopped
    split
    · rename_i hr01
      refine .refused ?_
      rw [hstopped, view_emit_signal (signal?_vmcall_of_ne hr01), placed_view]
    · rename_i hr01
      have stopped_view : stopped.view = s.view.push (.vmcall .stop c true) := by
        rw [hstopped, view_emit_signal (signal?_vmcall_of_eq (not_not.mp hr01)), placed_view]
      have called := callVmm_called E (.vmmFini c) stopped
      split
      · rename_i hret
        refine .finiRefused hret ?_
        rw [callVmm_view_of_ne E _ _ hret, stopped_view]
      · rename_i hret
        have hview := callVmm_view_of_eq E _ _ (not_not.mp hret)
        refine .done stopped.resources ?_
        rw [view_emit rfl, view_emit rfl, called.started]
        show { (callVmm E (.vmmFini c) stopped).2.view with started := stopped.numCpusStarted - 1 } = _
        rw [hview, stopped_view]
        rfl

theorem stopLoop_steps (E : Env) : ∀ (n : Nat) (s : State), s.vmmStatus = .running → s.numCpusStarted = n + 1 →
    CpuSteps (CpuRange E) s.view (stopExit (stopLoop E (n + 1) s)).2.view
  | n, s, hrun, hstarted => by
    have hview : s.view = ⟨.running, n + 1, signals s.trace⟩ := by
      unfold State.view
      rw [hrun, hstarted]
    have round := stopCpu_round E n s
    unfold stopLoop
    revert round
    rcases stopCpu E n s with ⟨x, t⟩
    intro round
    cases round with
    | notPlaced neg view =>
      show CpuSteps (CpuRange E) s.view { t.view with status := .corrupt }
      rw [view, hview]
      exact .single (.corrupt (.inr rfl))
    | refused view =>
      show CpuSteps (CpuRange E) s.view t.view
      rw [view, hview]
      exact .single (.stopRefused (by omega))
    | finiRefused ne view =>
      show CpuSteps (CpuRange E) s.view { t.view with status := .corrupt }
      rw [view, hview]
      exact .single (.finiRefused (by omega))
    | done res view =>
      rw [hview] at view ⊢
      cases n with
      | zero =>
        show CpuSteps (CpuRange E) _ { t.view with status := .loaded }
        rw [view, hstarted]
        exact .single (.retireLast res)
      | succ n =>
        have ht : t.vmmStatus = .running ∧ t.numCpusStarted = n + 1 := by
          have hst := congrArg CpuView.status view
          have hk := congrArg CpuView.started view
          simp only [State.view, CpuView.push] at hst hk
          exact ⟨hst, by omega⟩
        refine .head ?_ (stopLoop_steps E n t ht.1 ht.2)
        rw [view, hstarted]
        have retire := CpuStep.retire (R := CpuRange E) (k := n + 1) (l := signals s.trace) res (by omega)
        simpa [CpuView.push] using retire

theorem commonStopVmm_steps (E : Env) (s : State) (h : s.vmmStatus = .running → 1 ≤ s.numCpusStarted) :
    CpuSteps (CpuRange E) s.view (commonStopVmm E s).2.view := by
  by_cases hrun : s.vmmStatus = .running
  · obtain ⟨n, hn⟩ : ∃ n : Nat, s.numCpusStarted = n + 1 :=
      ⟨(s.numCpusStarted - 1).toNat, by have := h hrun; omega⟩
    have hnat : s.numCpusStarted.toNat = n + 1 := by omega
    rw [commonStopVmm_of_running E hrun, hnat]
    exact stopLoop_steps E n s hrun hn
  · rw [commonStopVmm_refused E hrun]

/-! ### Starting -/

/-- How a round of the loop of `common_start_vmm` on CPU `c` ends. -/
inductive StartRound (k : Sdk) (c : Int) (s : State) : Exit → State → Prop where
  | notPlaced {t : State} {ret : Int} (neg : ret < 0) (view : t.view = s.view) : StartRound k c s (.fail ret) t
  | initRefused {t : State} {ret : Int} (ne : ret ≠ bfSuccess) (view : t.view = s.view) :
      StartRound k c s (.fail ret) t
  | refused {t : State} (res : Resources)
      (view : t.view = { (s.view.push (.accepted res (.vmmInit c))).push (.vmcall .start c false) with
        started := s.numCpusStarted + 1 }) : StartRound k c s (.ret (k.code .vmmStartFailed)) t
  | done {t : State} (res : Resources)
      (view : t.view = { (s.view.push (.accepted res (.vmmInit c))).push (.vmcall .start c true) with
        started := s.numCpusStarted + 1, status := .running }) : StartRound k c s .next t

theorem startCpu_round (E : Env) (c : Int) (s : State) :
    StartRound E.sdk c s (startCpu E c s).1 (startCpu E c s).2 := by
  unfold startCpu
  dsimp only
  set placed := s.emit (.setAffinity c (E.setAffinity s.trace c))
  have placed_view : placed.view = s.view := view_emit rfl
  split
  · rename_i hneg
    exact .notPlaced hneg placed_view
  · have called := callVmm_called E (.vmmInit c) placed
    split
    · rename_i hret
      exact .initRefused hret ((callVmm_view_of_ne E _ _ hret).trans placed_view)
    · rename_i hret
      have hview := callVmm_view_of_eq E _ _ (not_not.mp hret)
      set inited := { (callVmm E (.vmmInit c) placed).2 with
        numCpusStarted := (callVmm E (.vmmInit c) placed).2.numCpusStarted + 1 } with hinited
      have inited_view : inited.view =
          { s.view.push (.accepted placed.resources (.vmmInit c)) with started := s.numCpusStarted + 1 } := by
        rw [hinited, called.started]
        show { (callVmm E (.vmmInit c) placed).2.view with started := placed.numCpusStarted + 1 } = _
        rw [hview, placed_view]
        rfl
      split
      · rename_i hr01
        refine .refused placed.resources ?_
        rw [view_emit_signal (signal?_vmcall_of_ne hr01), inited_view]
        rfl
      · rename_i hr01
        refine .done placed.resources ?_
        show { (((inited.emit _).emit _).emit _).view with status := .running } = _
        rw [view_emit rfl, view_emit rfl, view_emit_signal (signal?_vmcall_of_eq (not_not.mp hr01)), inited_view]
        rfl

theorem startLoop_steps (E : Env) : ∀ (rounds : Nat) (c : Int) (s : State), s.numCpusStarted = c → 0 ≤ c →
    (s.vmmStatus = .running → 1 ≤ c) → s.view.ReadyFor →
    CpuSteps (CpuRange E) s.view (startExit E (startLoop E rounds c s)).2.view
  | 0, _, s, _, _, _, _ => by
    show CpuSteps (CpuRange E) s.view (s.emit _).view
    rw [view_emit rfl]
  | rounds + 1, c, s, hstarted, hc, hpos, hready => by
    unfold startLoop
    dsimp only
    set asked := s.emit (.numCpus (E.numCpus s.trace))
    have asked_view : asked.view = s.view := view_emit rfl
    have asked_started : asked.numCpusStarted = c := hstarted
    have hview : s.view = ⟨s.vmmStatus, c, signals s.trace⟩ := by
      unfold State.view
      rw [hstarted]
    rw [hview] at hready
    split
    · rename_i hlt
      have inRange : CpuRange E c := ⟨hc, s.trace, hlt⟩
      have round := startCpu_round E c asked
      revert round
      rcases startCpu E c asked with ⟨x, t⟩
      intro round
      -- A failure leaves the view alone, so the rollback starts where the loop stands.
      have rollback : t.view = asked.view → CpuSteps (CpuRange E) s.view (commonStopVmm E t).2.view := fun view => by
        have hst : t.vmmStatus = s.vmmStatus := congrArg CpuView.status (view.trans asked_view)
        have hk : t.numCpusStarted = c := (congrArg CpuView.started (view.trans asked_view)).trans hstarted
        rw [← asked_view, ← view]
        exact commonStopVmm_steps E t fun hrun => hk ▸ hpos (hst ▸ hrun)
      cases round with
      | notPlaced neg view => exact rollback view
      | initRefused ne view => exact rollback view
      | refused res view =>
        show CpuSteps (CpuRange E) s.view t.view
        rw [view, asked_view, asked_started, hview]
        exact .single (.startRefused res hready inRange)
      | done res view =>
        rw [asked_view, asked_started, hview] at view
        have hst : t.vmmStatus = .running := congrArg CpuView.status view
        have hk : t.numCpusStarted = c + 1 := congrArg CpuView.started view
        have next : t.view.ReadyFor := by
          rw [view]
          exact .inr ⟨rfl, by simp [CpuView.push]⟩
        refine .head ?_ (startLoop_steps E rounds (c + 1) t hk (by omega) (fun _ => by omega) next)
        rw [view, hview]
        exact .launch res hready inRange
    · show CpuSteps (CpuRange E) s.view asked.view
      rw [asked_view]

theorem commonStartVmm_steps (E : Env) (s : State) : CpuSteps (CpuRange E) s.view (commonStartVmm E s).2.view := by
  by_cases hloaded : s.vmmStatus = .loaded
  · have hview : s.view = ⟨.loaded, s.numCpusStarted, signals s.trace⟩ := by
      unfold State.view
      rw [hloaded]
    rw [commonStartVmm_of_loaded E hloaded]
    refine .head ?_ (startLoop_steps E maxCpus 0 { s with numCpusStarted := 0 } rfl (by omega)
      (fun hrun => by cases hloaded.symm.trans hrun) (.inl ⟨hloaded, rfl⟩))
    rw [hview]
    show CpuStep (CpuRange E) _ ⟨s.vmmStatus, 0, signals s.trace⟩
    rw [hloaded]
    exact .begin
  · rw [commonStartVmm_refused E hloaded]

/-! ### Loading and unloading -/

theorem commonReset_view (E : Env) (s : State) : (commonReset E s).2.view = ⟨.unloaded, 0, signals s.trace⟩ := by
  rw [commonReset_eq]
  unfold State.view
  rw [signals_releases]
  rfl

theorem commonReset_steps (E : Env) (s : State) (h : s.vmmStatus = .unloaded ∨ s.vmmStatus = .loaded) :
    CpuSteps (CpuRange E) s.view (commonReset E s).2.view := by
  rw [commonReset_view]
  exact .single (.reset h)

theorem setupStack_view (E : Env) (s : State) : (setupStack E s).2.view = s.view := by
  unfold setupStack
  dsimp only
  split <;> rfl

theorem setupTls_view (E : Env) (s : State) : (setupTls E s).2.view = s.view := by
  unfold setupTls
  dsimp only
  split <;> rfl

theorem loadImages_signals (E : Env) (ms : List Binary) (images : List (Option Image)) (s : State) :
    signals (loadImages E ms images s).2.trace = signals s.trace := by
  induction ms, images, s using loadImages.induct E with
  | case1 m ms image images s exec t ih =>
    rw [loadImages]
    exact ih
  | case2 m ms images s ih =>
    rw [loadImages]
    exact ih
  | case3 => rw [loadImages] <;> assumption

theorem bfelfLoad_view (E : Env) (s : State) : (bfelfLoad E s).2.view = s.view := by
  have sig := loadImages_signals E s.added (E.bfelfLoad s.trace s.added).images s
  unfold bfelfLoad
  dsimp only
  rw [view_emit rfl, loadImages_frame]
  unfold State.view
  rw [sig]

section Load
variable (E : Env) (fuel : Nat) (s : State)

theorem loadElf_view : (loadElf E s).2.view = s.view := by
  rw [bfelfLoad_view, setupTls_view, setupStack_view]

theorem loadInit_steps : CpuSteps (CpuRange E) s.view (loadInit E s).2.view := by
  have called := callVmm_steps E .init (loadElf E s).2 rfl
  rwa [loadElf_view] at called

theorem loadModules_steps : CpuSteps (CpuRange E) s.view (loadModules E fuel s).2.view :=
  (loadInit_steps E s).trans (moduleLoop_registered E fuel _ _).steps

theorem loadPages_steps : CpuSteps (CpuRange E) s.view (loadPages E fuel s).2.view :=
  (loadModules_steps E fuel s).trans (tlsLoop_registered E fuel _).steps

theorem commonLoadVmm_steps : CpuSteps (CpuRange E) s.view (commonLoadVmm E fuel s).2.view := by
  by_cases h : s.vmmStatus = .unloaded ∧ s.numModules ≠ 0
  · obtain ⟨h, hm⟩ := h
    have status : ∀ t : State, t.view = s.view → CpuSteps (CpuRange E) s.view (commonReset E t).2.view := fun t ht => by
      rw [← ht]
      exact commonReset_steps E t (.inl ((congrArg CpuView.status ht).trans h))
    have run := commonLoadVmm_run E fuel s h hm
    revert run
    generalize commonLoadVmm E fuel s = r
    intro run
    cases run with
    | stackFailed ne => exact status _ (setupStack_view E s)
    | tlsFailed stack ne => exact status _ ((setupTls_view E _).trans (setupStack_view E s))
    | elfFailed stack tls ne => exact status _ (loadElf_view E s)
    | initRefused stack tls elf ne => exact status _ ((callVmm_view_of_ne E _ _ ne).trans (loadElf_view E s))
    | modulesFailed inited' stopped ne =>
      exact (loadModules_steps E fuel s).trans
        (commonReset_steps E _ (.inl ((loadModules_status E fuel s).trans h)))
    | modulesPending => exact loadModules_steps E fuel s
    | pagesFailed => exact loadPages_steps E fuel s
    | loaded =>
      have hst : (loadPages E fuel s).2.vmmStatus = .unloaded := (loadPages_status E fuel s).trans h
      refine (loadPages_steps E fuel s).tail ?_
      show CpuStep (CpuRange E) ⟨_, _, _⟩ ⟨.loaded, _, _⟩
      rw [hst]
      exact .load
  · rw [commonLoadVmm_refused E fuel h]

end Load

theorem commonUnloadVmm_steps (E : Env) (s : State) : CpuSteps (CpuRange E) s.view (commonUnloadVmm E s).2.view := by
  rcases hst : s.vmmStatus with _ | _ | _ | _
  · rw [commonUnloadVmm_of_unloaded E hst]
    exact commonReset_steps E s (.inl hst)
  · have status : (callVmm E .fini s).2.vmmStatus = .loaded := (callVmm_called E .fini s).status.trans hst
    have called := callVmm_steps E .fini s rfl
    rw [commonUnloadVmm_of_loaded E hst]
    split
    · refine called.tail ?_
      show CpuStep (CpuRange E) _ { (callVmm E .fini s).2.view with status := .corrupt }
      exact .corrupt (.inl status)
    · exact called.trans (commonReset_steps E _ (.inr status))
  · rw [commonUnloadVmm_refused E (.inr hst)]
  · rw [commonUnloadVmm_refused E (.inl hst)]

/-! ### The other operations, and runs -/

theorem commonDumpVmm_steps (E : Env) (drr vcpuid : UInt64) (s : State) :
    CpuSteps (CpuRange E) s.view (commonDumpVmm E drr vcpuid s).2.view := by
  rcases commonDumpVmm_cases E drr vcpuid s with same | ⟨-, called⟩
  · rw [same]
  · rw [called]
    exact callVmm_steps E (.getDrr vcpuid drr) s rfl

theorem commonAddModule_view (E : Env) (file fsize : UInt64) (s : State) :
    (commonAddModule E file fsize s).2.view = s.view := by
  rcases commonAddModule_cases E file fsize s with ⟨-, same⟩ | ⟨-, -, -, more⟩
  · rw [same]
  · rw [more]
    rfl

theorem finiStop_steps (E : Env) (s : State) (h : s.vmmStatus = .running → 1 ≤ s.numCpusStarted) :
    CpuSteps (CpuRange E) s.view (finiStop E s).view := by
  unfold finiStop
  split
  · exact commonStopVmm_steps E s h
  · exact .refl

theorem finiUnload_steps (E : Env) (s : State) : CpuSteps (CpuRange E) s.view (finiUnload E s).view := by
  unfold finiUnload
  split
  · exact commonUnloadVmm_steps E s
  · exact .refl

theorem commonFini_steps (E : Env) (s : State) (h : s.vmmStatus = .running → 1 ≤ s.numCpusStarted) :
    CpuSteps (CpuRange E) s.view (commonFini E s).2.view := by
  have unloaded := (finiStop_steps E s h).trans (finiUnload_steps E _)
  unfold commonFini
  dsimp only
  split
  · exact unloaded
  · split
    · rename_i hst
      exact unloaded.trans (commonReset_steps E _ (.inl hst.1))
    · exact unloaded

theorem exec_steps (E : Env) (fuel : Nat) (op : Op) (s : State)
    (h : s.vmmStatus = .running → 1 ≤ s.numCpusStarted) : CpuSteps (CpuRange E) s.view (exec E fuel op s).2.view := by
  cases op with
  | addModule file fsize =>
    show CpuSteps (CpuRange E) s.view (commonAddModule E file fsize s).2.view
    rw [commonAddModule_view]
  | loadVmm => exact commonLoadVmm_steps E fuel s
  | unloadVmm => exact commonUnloadVmm_steps E s
  | startVmm => exact commonStartVmm_steps E s
  | stopVmm => exact commonStopVmm_steps E s h
  | dumpVmm drr vcpuid => exact commonDumpVmm_steps E drr vcpuid s
  | fini => exact commonFini_steps E s h

theorem commonInit_view (E : Env) : (commonInit E (.initial E.sdk)).2.view = ⟨.unloaded, 0, []⟩ := by
  unfold commonInit
  rw [commonReset_view]
  rfl

/-- In every run of the operations the status, the counter and the CPUs are coupled. -/
theorem ReachableBy.coupled {E : Env} {P : State → Op → Prop} {s : State} (h : ReachableBy E P s) :
    Coupled s.view := by
  refine h.invariant (I := fun s => Coupled s.view) ?_ fun s fuel op _ _ _ ih => ?_
  · rw [commonInit_view]
    exact Coupled.initial
  · exact ih.steps (exec_steps E fuel op s fun hrun => (ih.running hrun).1)

end Bfdriver
