import Bfdriver.Theorems.Load

/-! # Runs in environments that agree

Two environments agree along a relation of traces if they give the same answers after related traces.
The common code then does the same in both: from states that differ in their traces only, every operation
returns the same and makes the same calls. -/

namespace Bfdriver

/-- The environments have the same constants and give the same answers after traces in the relation `T`,
    which the same event on both sides keeps. -/
structure Agree (T : Trace → Trace → Prop) (E E' : Env) : Prop where
  emit : ∀ {t t'} (e : Event), T t t' → T (e :: t) (e :: t')
  sdk : E'.sdk = E.sdk
  alloc : ∀ {t t'}, T t t' → E'.alloc t' = E.alloc t
  numCpus : ∀ {t t'}, T t t' → E'.numCpus t' = E.numCpus t
  currentCpuNum : ∀ {t t'}, T t t' → E'.currentCpuNum t' = E.currentCpuNum t
  setAffinity : ∀ {t t'}, T t t' → E'.setAffinity t' = E.setAffinity t
  virtToPhys : ∀ {t t'}, T t t' → E'.virtToPhys t' = E.virtToPhys t
  bfelfLoad : ∀ {t t'}, T t t' → E'.bfelfLoad t' = E.bfelfLoad t
  setIntegerArgs : ∀ {t t'}, T t t' → E'.setIntegerArgs t' = E.setIntegerArgs t
  getLoadInstr : ∀ {t t'}, T t t' → E'.getLoadInstr t' = E.getLoadInstr t
  enter : ∀ {t t'}, T t t' → E'.enter t' = E.enter t
  vmcall : ∀ {t t'}, T t t' → E'.vmcall t' = E.vmcall t

/-- The states differ in their traces only, and these are related. -/
inductive Sim (T : Trace → Trace → Prop) (s : State) : State → Prop where
  | intro {t : Trace} (trace : T s.trace t) : Sim T s { s with trace := t }

/-- The results are the same, and the states differ in related traces only. -/
structure Agrees (T : Trace → Trace → Prop) {ρ : Type} (r r' : ρ × State) : Prop where
  result : r'.1 = r.1
  states : Sim T r.2 r'.2

section Simulation
variable {T : Trace → Trace → Prop} {E E' : Env} (A : Agree T E E') {s s' : State} (h : Sim T s s')
include A h

theorem Sim.emit (e : Event) : Sim T (s.emit e) (s'.emit e) := by
  obtain ⟨trace⟩ := h
  exact .intro (A.emit e trace)

omit A in
theorem Sim.of_status (v : VmmStatus) : Sim T { s with vmmStatus := v } { s' with vmmStatus := v } := by
  obtain ⟨trace⟩ := h
  exact .intro trace

omit A in
theorem Sim.of_started (f : Int → Int) :
    Sim T { s with numCpusStarted := f s.numCpusStarted } { s' with numCpusStarted := f s'.numCpusStarted } := by
  obtain ⟨trace⟩ := h
  exact .intro trace

omit A in
theorem Sim.trace : T s.trace s'.trace := by
  obtain ⟨trace⟩ := h
  exact trace

omit A in
theorem Sim.added : s'.added = s.added := by
  cases h
  rfl

/-! ### Resetting -/

omit h in
theorem Agree.releases (ps : Pointers) {t t' : Trace} (trace : T t t') : T (releases ps t) (releases ps t') := by
  induction ps generalizing t t' with
  | nil => exact trace
  | cons p ps ih => exact ih (A.emit _ trace)

theorem commonReset_sim : Agrees T (commonReset E s) (commonReset E' s') := by
  obtain ⟨trace⟩ := h
  refine ⟨rfl, ?_⟩
  rw [commonReset_eq, commonReset_eq, A.sdk]
  exact .intro (A.releases s.pointers trace)

/-! ### Calling the VMM -/

theorem writeThreadContext_sim : Sim T (writeThreadContext E s) (writeThreadContext E' s') := by
  obtain ⟨trace⟩ := h
  unfold writeThreadContext
  rw [A.currentCpuNum trace, A.sdk]
  exact .intro (A.emit _ (A.emit _ trace))

theorem enterVmm_sim (req : Request) : Agrees T (enterVmm E req s) (enterVmm E' req s') := by
  obtain ⟨trace⟩ := h
  unfold enterVmm
  rw [A.enter trace, A.sdk]
  dsimp only
  split
  · exact ⟨rfl, .intro (A.emit _ trace)⟩
  · exact ⟨rfl, .intro trace⟩

theorem callVmm_sim (req : Request) : Agrees T (callVmm E req s) (callVmm E' req s') := by
  obtain ⟨trace⟩ := h
  unfold callVmm
  rw [A.setIntegerArgs trace]
  dsimp only
  split
  · exact ⟨rfl, .intro (A.emit _ trace)⟩
  · have prepared : Sim T { s.emit (.setIntegerArgs req (E.setIntegerArgs s.trace req)) with
        info := { s.info with args := some req } } _ := .intro (A.emit _ trace)
    have entered := enterVmm_sim A (writeThreadContext_sim A prepared) req
    exact ⟨entered.result, entered.states.emit A _⟩

/-! ### Loading -/

theorem setupStack_sim : Agrees T (setupStack E s) (setupStack E' s') := by
  obtain ⟨trace⟩ := h
  unfold setupStack
  rw [A.sdk]
  dsimp only
  rw [A.alloc trace]
  split
  · exact ⟨rfl, .intro (A.emit _ trace)⟩
  · exact ⟨rfl, .intro (A.emit _ (A.emit _ trace))⟩

theorem setupTls_sim : Agrees T (setupTls E s) (setupTls E' s') := by
  obtain ⟨trace⟩ := h
  unfold setupTls
  rw [A.sdk]
  dsimp only [State.emit]
  rw [A.numCpus trace, A.alloc (A.emit _ trace)]
  split
  · exact ⟨rfl, .intro (A.emit _ (A.emit _ trace))⟩
  · exact ⟨rfl, .intro (A.emit _ (A.emit _ (A.emit _ trace)))⟩

omit h in
theorem loadImages_sim : ∀ (ms : List Binary) (images : List (Option Image)) {s s' : State}, Sim T s s' →
    Agrees T (loadImages E ms images s) (loadImages E' ms images s')
  | m :: ms, some image :: images, s, _, h => by
    have rest := loadImages_sim ms images (h.emit A (.alloc .exec image.size (E.alloc s.trace .rwe image.size)))
    obtain ⟨trace⟩ := h
    rw [loadImages, loadImages, A.alloc trace]
    exact ⟨congrArg (List.cons _) rest.result, rest.states⟩
  | m :: ms, none :: images, _, _, h =>
    have rest := loadImages_sim ms images h
    ⟨congrArg (List.cons m) rest.result, rest.states⟩
  | [], _, _, _, h => ⟨rfl, h⟩
  | _ :: _, [], _, _, h => ⟨rfl, h⟩

theorem bfelfLoad_sim : Agrees T (bfelfLoad E s) (bfelfLoad E' s') := by
  have loaded := loadImages_sim A s.added (E.bfelfLoad s.trace s.added).images h
  obtain ⟨trace⟩ := h
  have plan : E'.bfelfLoad _ = E.bfelfLoad s.trace := A.bfelfLoad trace
  have sim : ∀ {r r' : List Binary × State} (plan : LoadPlan), Agrees T r r' →
      Sim T { r.2 with
        modules := r.1 ++ s.modules.drop s.numModules
        start := plan.entry
        info := { s.info with sections := plan.sections }
        loader := plan.loader } { r'.2 with
        modules := r'.1 ++ s.modules.drop s.numModules
        start := plan.entry
        info := { s.info with sections := plan.sections }
        loader := plan.loader } := fun {r r'} plan ⟨result, states⟩ => by
    rcases r' with ⟨modules, t⟩
    obtain ⟨trace⟩ := states
    rw [result]
    exact .intro trace
  unfold bfelfLoad
  dsimp only
  rw [plan]
  exact ⟨rfl, (sim _ loaded).emit A _⟩

/-! ### Registering memory -/

theorem addRawMdToMemoryManager_sim (virt type : UInt64) :
    Agrees T (addRawMdToMemoryManager E virt type s) (addRawMdToMemoryManager E' virt type s') := by
  have called := callVmm_sim A (h.emit A (.virtToPhys virt (E.virtToPhys s.trace virt)))
    (.addMdl ⟨virt, E.virtToPhys s.trace virt, type⟩)
  unfold addRawMdToMemoryManager
  rw [A.virtToPhys h.trace]
  dsimp only
  rw [called.result]
  split
  · exact called
  · exact ⟨rfl, called.states⟩

theorem pageLoop_sim (type last : UInt64) (fuel : Nat) (page : UInt64) :
    Agrees T (pageLoop E type last fuel page s) (pageLoop E' type last fuel page s') := by
  induction fuel generalizing page s s' with
  | zero => exact ⟨rfl, h⟩
  | succ fuel ih =>
    have round := addRawMdToMemoryManager_sim A h page type
    unfold pageLoop
    split
    · dsimp only
      rw [round.result, A.sdk]
      split
      · exact ⟨rfl, round.states⟩
      · exact ih round.states _
    · exact ⟨rfl, h⟩

theorem segmentLoop_sim (fuel : Nat) (m : Binary) (instrs : List LoadInstr) (i : Nat) :
    Agrees T (segmentLoop E fuel m instrs i s) (segmentLoop E' fuel m instrs i s') := by
  induction instrs generalizing i s s' with
  | nil => exact ⟨rfl, h⟩
  | cons instr instrs ih =>
    have asked := h.emit A (.getLoadInstr i (E.getLoadInstr s.trace m i))
    have pages := pageLoop_sim A asked (instr.memoryType E.sdk)
      (pageMask E.sdk (m.exec + instr.memOffset + instr.memsz)) fuel (pageMask E.sdk (m.exec + instr.memOffset))
    unfold segmentLoop addSegment
    rw [A.getLoadInstr h.trace, A.sdk]
    dsimp only
    split
    · exact ⟨rfl, asked⟩
    · rw [pages.result]
      split
      · exact pages
      · exact ih pages.states (i + 1)

theorem addMdToMemoryManager_sim (fuel : Nat) (m : Option Binary) :
    Agrees T (addMdToMemoryManager E fuel m s) (addMdToMemoryManager E' fuel m s') := by
  cases m with
  | none => exact ⟨congrArg (fun k : Sdk => some (k.code .invalidArg)) A.sdk, h⟩
  | some m => exact segmentLoop_sim A h fuel m m.ef 0

theorem moduleLoop_sim (fuel : Nat) (ms : List Binary) :
    Agrees T (moduleLoop E fuel ms s) (moduleLoop E' fuel ms s') := by
  induction ms generalizing s s' with
  | nil => exact ⟨rfl, h⟩
  | cons m ms ih =>
    have round := addMdToMemoryManager_sim A h fuel (some m)
    unfold moduleLoop
    dsimp only
    rw [round.result]
    split
    · exact round
    · exact ih round.states

theorem tlsLoop_sim (fuel : Nat) : Agrees T (tlsLoop E fuel s) (tlsLoop E' fuel s') := by
  have pages := pageLoop_sim A h (E.sdk.memoryTypeR ||| E.sdk.memoryTypeW) (s.tls + s.tlsSize) fuel s.tls
  obtain ⟨trace⟩ := h
  unfold tlsLoop
  rw [A.sdk]
  exact pages

/-! ### The operations -/

omit A in
theorem Sim.vmmStatus : s'.vmmStatus = s.vmmStatus := by
  cases h
  rfl

omit A in
theorem Sim.numModules : s'.numModules = s.numModules := by
  cases h
  rfl

theorem commonAddModule_sim (file fsize : UInt64) :
    Agrees T (commonAddModule E file fsize s) (commonAddModule E' file fsize s') := by
  unfold commonAddModule
  rw [A.sdk, h.vmmStatus, h.numModules]
  split
  · exact ⟨rfl, h⟩
  · split
    · exact ⟨rfl, h⟩
    · exact ⟨rfl, h⟩
    · exact ⟨rfl, h⟩
    · split
      · exact ⟨rfl, h⟩
      · obtain ⟨trace⟩ := h
        exact ⟨rfl, .intro trace⟩

theorem commonUnloadVmm_sim : Agrees T (commonUnloadVmm E s) (commonUnloadVmm E' s') := by
  have called := callVmm_sim A h .fini
  unfold commonUnloadVmm
  rw [A.sdk, h.vmmStatus]
  split
  · exact ⟨rfl, h.of_status .corrupt⟩
  · exact ⟨rfl, h⟩
  · exact ⟨rfl, (commonReset_sim A h).states.of_status .unloaded⟩
  · dsimp only
    rw [called.result]
    split
    · exact ⟨rfl, called.states.of_status .corrupt⟩
    · exact ⟨rfl, (commonReset_sim A called.states).states.of_status .unloaded⟩

omit h in
theorem loadFailure_sim {r r' : Option Int × State} (h : Agrees T r r') :
    Agrees T (loadFailure E r) (loadFailure E' r') := by
  unfold loadFailure
  rw [h.result]
  split
  · exact h
  · exact ⟨rfl, (commonUnloadVmm_sim A h.states).states⟩

theorem commonLoadVmm_sim (fuel : Nat) : Agrees T (commonLoadVmm E fuel s) (commonLoadVmm E' fuel s') := by
  have stack := setupStack_sim A h
  have tls := setupTls_sim A stack.states
  have elf := bfelfLoad_sim A tls.states
  have init := callVmm_sim A elf.states .init
  have modules := moduleLoop_sim A init.states fuel (loadInit E s).2.added
  have pages := tlsLoop_sim A modules.states fuel
  have added : (loadInit E' s').2.added = (loadInit E s).2.added := init.states.added
  unfold commonLoadVmm
  rw [A.sdk, h.vmmStatus, h.numModules]
  split
  · exact ⟨rfl, h⟩
  · exact ⟨rfl, h⟩
  · exact ⟨rfl, h⟩
  · split
    · exact ⟨rfl, h⟩
    · dsimp only
      rw [stack.result, tls.result, elf.result, init.result, added, modules.result, pages.result]
      split
      · exact loadFailure_sim A ⟨rfl, stack.states⟩
      · split
        · exact loadFailure_sim A ⟨rfl, tls.states⟩
        · split
          · exact loadFailure_sim A ⟨rfl, elf.states⟩
          · split
            · exact loadFailure_sim A ⟨rfl, init.states⟩
            · split
              · exact loadFailure_sim A modules
              · split
                · exact pages
                · exact ⟨rfl, pages.states.of_status .loaded⟩

/-! ### Starting and stopping -/

theorem stopCpu_sim (c : Int) : Agrees T (stopCpu E c s) (stopCpu E' c s') := by
  have affinity := A.setAffinity h.trace
  have placed := h.emit A (.setAffinity c (E.setAffinity s.trace c))
  have answer := A.vmcall placed.trace
  have stopped := placed.emit A (.vmcall .stop c (E.vmcall (s.emit (.setAffinity c (E.setAffinity s.trace c))).trace .stop))
  have called := callVmm_sim A stopped (.vmmFini c)
  unfold stopCpu
  rw [affinity, A.sdk]
  dsimp only
  rw [answer, called.result]
  split
  · exact ⟨rfl, placed⟩
  · split
    · exact ⟨rfl, stopped⟩
    · split
      · exact ⟨rfl, called.states⟩
      · exact ⟨rfl, ((called.states.of_started fun n => n - 1).emit A _).emit A _⟩

theorem stopLoop_sim (n : Nat) : Agrees T (stopLoop E n s) (stopLoop E' n s') := by
  induction n generalizing s s' with
  | zero => exact ⟨rfl, h⟩
  | succ n ih =>
    have round := stopCpu_sim A h n
    unfold stopLoop
    dsimp only
    rw [round.result]
    split
    · exact ih round.states
    · exact round

theorem commonStopVmm_sim : Agrees T (commonStopVmm E s) (commonStopVmm E' s') := by
  have loop := stopLoop_sim A h s.numCpusStarted.toNat
  have started : s'.numCpusStarted = s.numCpusStarted := by
    cases h
    rfl
  unfold commonStopVmm
  rw [A.sdk, h.vmmStatus, started]
  split
  · exact ⟨rfl, h⟩
  · exact ⟨rfl, h⟩
  · exact ⟨rfl, h⟩
  · unfold stopExit
    rw [loop.result]
    split
    · exact ⟨rfl, loop.states.of_status .loaded⟩
    · exact ⟨rfl, loop.states.of_status .corrupt⟩
    · exact ⟨rfl, loop.states⟩

theorem startCpu_sim (c : Int) : Agrees T (startCpu E c s) (startCpu E' c s') := by
  have affinity := A.setAffinity h.trace
  have placed := h.emit A (.setAffinity c (E.setAffinity s.trace c))
  have called := callVmm_sim A placed (.vmmInit c)
  unfold startCpu
  rw [affinity, A.sdk]
  dsimp only
  rw [called.result]
  split
  · exact ⟨rfl, placed⟩
  · split
    · exact ⟨rfl, called.states⟩
    · have counted := called.states.of_started fun n => n + 1
      generalize (callVmm E (.vmmInit c) _).2 = t at counted ⊢
      generalize (callVmm E' (.vmmInit c) _).2 = t' at counted ⊢
      have answer : E'.vmcall t'.trace = E.vmcall t.trace := A.vmcall counted.trace
      have started := counted.emit A (.vmcall .start c (E.vmcall t.trace .start))
      rw [answer]
      split
      · exact ⟨rfl, started⟩
      · exact ⟨rfl, ((started.emit A _).emit A _).of_status .running⟩

theorem startLoop_sim (rounds : Nat) (c : Int) : Agrees T (startLoop E rounds c s) (startLoop E' rounds c s') := by
  induction rounds generalizing c s s' with
  | zero =>
    refine ⟨rfl, ?_⟩
    unfold startLoop
    rw [A.numCpus h.trace]
    exact h.emit A _
  | succ rounds ih =>
    have asked := h.emit A (.numCpus (E.numCpus s.trace))
    have round := startCpu_sim A asked c
    unfold startLoop
    rw [A.numCpus h.trace]
    dsimp only
    rw [round.result]
    split
    · split
      · exact ih round.states (c + 1)
      · exact round
    · exact ⟨rfl, asked⟩

theorem commonStartVmm_sim : Agrees T (commonStartVmm E s) (commonStartVmm E' s') := by
  by_cases hst : s.vmmStatus = .loaded
  · have loop := startLoop_sim A (h.of_started fun _ => 0) maxCpus 0
    rw [commonStartVmm_of_loaded E hst, commonStartVmm_of_loaded E' (h.vmmStatus.trans hst)]
    unfold startExit
    rw [loop.result]
    split
    · exact ⟨rfl, loop.states⟩
    · exact ⟨rfl, (commonStopVmm_sim A loop.states).states⟩
    · exact ⟨rfl, loop.states⟩
  · unfold commonStartVmm
    rw [A.sdk, h.vmmStatus]
    split
    · exact ⟨rfl, h⟩
    · exact ⟨rfl, h⟩
    · exact ⟨rfl, h⟩
    · contradiction

/-! ### Dumping and finalising -/

theorem commonDumpVmm_sim (drr vcpuid : UInt64) :
    Agrees T (commonDumpVmm E drr vcpuid s) (commonDumpVmm E' drr vcpuid s') := by
  have called := callVmm_sim A h (.getDrr vcpuid drr)
  unfold commonDumpVmm
  rw [A.sdk, h.vmmStatus]
  split
  · exact ⟨rfl, h⟩
  · split
    · exact ⟨rfl, h⟩
    · dsimp only
      rw [called.result]
      split
      · exact called
      · exact ⟨rfl, called.states⟩

theorem commonFini_sim : Agrees T (commonFini E s) (commonFini E' s') := by
  have stopped : Sim T (finiStop E s) (finiStop E' s') := by
    unfold finiStop
    rw [h.vmmStatus]
    split
    · exact (commonStopVmm_sim A h).states
    · exact h
  have unloaded : Sim T (finiUnload E (finiStop E s)) (finiUnload E' (finiStop E' s')) := by
    unfold finiUnload
    rw [stopped.vmmStatus]
    split
    · exact (commonUnloadVmm_sim A stopped).states
    · exact stopped
  unfold commonFini
  dsimp only
  rw [A.sdk, unloaded.vmmStatus, unloaded.numModules]
  split
  · exact ⟨rfl, unloaded⟩
  · split
    · exact ⟨rfl, (commonReset_sim A unloaded).states⟩
    · exact ⟨rfl, unloaded⟩

/-- From states that differ in related traces only, an operation returns the same and makes the same calls. -/
theorem exec_sim (fuel : Nat) (op : Op) : Agrees T (exec E fuel op s) (exec E' fuel op s') := by
  have returns : ∀ {r r' : Int × State}, Agrees T r r' → Agrees T (some r.1, r.2) (some r'.1, r'.2) :=
    fun h => ⟨congrArg some h.result, h.states⟩
  cases op with
  | addModule file fsize => exact returns (commonAddModule_sim A h file fsize)
  | loadVmm => exact commonLoadVmm_sim A h fuel
  | unloadVmm => exact returns (commonUnloadVmm_sim A h)
  | startVmm => exact returns (commonStartVmm_sim A h)
  | stopVmm => exact returns (commonStopVmm_sim A h)
  | dumpVmm drr vcpuid => exact returns (commonDumpVmm_sim A h drr vcpuid)
  | fini => exact returns (commonFini_sim A h)

end Simulation

end Bfdriver
