import Bfdriver.Theorems.Setup
import Bfdriver.TestPlatform

/-! # The signs of results

A result of the driver is zero or a negative code, unless it hands on an answer of the loader or of the VMM
that is positive. Here is which answers each operation hands on. -/

namespace Bfdriver
open EventLog

/-! ### The answers that are handed on -/

/-- The requests whose answers become the result of an operation if they are not a success. -/
def Op.asks : Op → Request → Prop
  | .loadVmm, .init => True
  | .loadVmm, .addMdl _ => True
  | .startVmm, .vmmInit _ => True
  | .stopVmm, .vmmFini _ => True
  | .dumpVmm .., .getDrr .. => True
  | _, _ => False

/-- A positive answer that the operation hands on. -/
def HandedOn (op : Op) : Event → Prop
  | .setIntegerArgs req ret => op.asks req ∧ 0 < ret
  | .enter _ req _ ret => op.asks req ∧ 0 < ret
  | .bfelfLoad _ ret => op = .loadVmm ∧ 0 < ret
  | .getLoadInstr _ ret => op = .loadVmm ∧ 0 < ret
  | _ => False

/-- The operation is done, and its result is positive. -/
def Positive (result : Option Int) : Prop := ∃ ret ∈ result, 0 < ret

@[simp] theorem positive_some {ret : Int} : Positive (some ret) ↔ 0 < ret := by simp [Positive]

@[simp] theorem not_positive_none : ¬Positive none := by simp [Positive]

theorem Sdk.code_not_pos (k : Sdk) (e : ErrorCode) : ¬0 < k.code e := Int.not_lt.mpr (Int.le_of_lt (k.code_neg e))

/-- Between `s` and `t` an answer was handed on exactly if `q`. -/
abbrev Hands (op : Op) (q : Prop) (s t : State) : Prop := Tells (HandedOn op) q s.trace t.trace

/-! ### Calls of the VMM -/

section Calls
variable (E : Env) {op : Op} (s : State)

theorem writeThreadContext_hands : Hands op False s (writeThreadContext E s) :=
  ((Tells.refl s.trace).cons (e := .currentCpuNum (E.currentCpuNum s.trace)) id).cons id

theorem enterVmm_hands {req : Request} (asks : op.asks req) :
    Hands op (0 < (enterVmm E req s).1) s (enterVmm E req s).2 := by
  have told : ∀ res sp ret, HandedOn op (.enter res req sp ret) ↔ 0 < ret := fun _ _ _ => and_iff_right asks
  unfold enterVmm
  split
  · exact (Tells.single ..).congr (told ..)
  · exact (Tells.refl _).congr (iff_of_false id (E.sdk.code_not_pos .unknown))

theorem callVmm_hands {req : Request} (asks : op.asks req) :
    Hands op (0 < (callVmm E req s).1) s (callVmm E req s).2 := by
  have asked : Hands op (0 < E.setIntegerArgs s.trace req) s (s.emit (.setIntegerArgs req (E.setIntegerArgs s.trace req))) :=
    (Tells.single ..).congr (and_iff_right asks)
  unfold callVmm
  dsimp only
  split
  · exact asked
  · rename_i ok
    have silent : ¬0 < E.setIntegerArgs s.trace req := by simp [not_not.mp ok]
    have prepared : Hands op False s { s.emit (.setIntegerArgs req (E.setIntegerArgs s.trace req)) with
        info := { s.info with args := some req } } := asked.congr (iff_of_false silent id)
    exact ((prepared.after id (writeThreadContext_hands E _)).after id (enterVmm_hands E _ asks)).cons id

/-! ### Registering memory -/

theorem addRawMdToMemoryManager_hands (virt type : UInt64) :
    Hands .loadVmm (0 < (addRawMdToMemoryManager E virt type s).1) s (addRawMdToMemoryManager E virt type s).2 := by
  have looked : Hands .loadVmm False s (s.emit (.virtToPhys virt (E.virtToPhys s.trace virt))) := (Tells.refl _).cons id
  have asks : Op.loadVmm.asks (.addMdl ⟨virt, E.virtToPhys s.trace virt, type⟩) := trivial
  have called := looked.after id (callVmm_hands E _ asks)
  unfold addRawMdToMemoryManager
  dsimp only
  split
  · exact called
  · rename_i ok
    rw [not_not.mp ok] at called
    exact called

theorem pageLoop_hands (type last : UInt64) (fuel : Nat) (page : UInt64) :
    Hands .loadVmm (Positive (pageLoop E type last fuel page s).1) s (pageLoop E type last fuel page s).2 := by
  induction fuel generalizing page s with
  | zero => exact (Tells.refl _).congr (by simp [pageLoop])
  | succ fuel ih =>
    have round := addRawMdToMemoryManager_hands E s page type
    unfold pageLoop
    split
    · dsimp only
      split
      · exact round.congr positive_some.symm
      · rename_i ok
        exact round.after (by simp [not_not.mp ok]) (ih _ _)
    · exact (Tells.refl _).congr (by simp)

theorem segmentLoop_hands (fuel : Nat) (m : Binary) (instrs : List LoadInstr) (i : Nat) :
    Hands .loadVmm (Positive (segmentLoop E fuel m instrs i s).1) s (segmentLoop E fuel m instrs i s).2 := by
  induction instrs generalizing i s with
  | nil => exact (Tells.refl _).congr (by simp [segmentLoop])
  | cons instr instrs ih =>
    have asked : Hands .loadVmm (0 < E.getLoadInstr s.trace m i) s (s.emit (.getLoadInstr i (E.getLoadInstr s.trace m i))) :=
      (Tells.single ..).congr (and_iff_right rfl)
    unfold segmentLoop
    dsimp only
    split
    · exact asked.congr positive_some.symm
    · rename_i ok
      have pages := asked.after (by simp [not_not.mp ok]) (pageLoop_hands E _ (instr.memoryType E.sdk)
        (pageMask E.sdk (m.exec + instr.memOffset + instr.memsz)) fuel (pageMask E.sdk (m.exec + instr.memOffset)))
      split
      · exact pages
      · rename_i done
        have done : (addSegment E fuel m instr _).1 = some bfSuccess := not_not.mp done
        exact pages.after (by rw [addSegment] at done; simp [done]) (ih _ _)

theorem moduleLoop_hands (fuel : Nat) (ms : List Binary) :
    Hands .loadVmm (Positive (moduleLoop E fuel ms s).1) s (moduleLoop E fuel ms s).2 := by
  induction ms generalizing s with
  | nil => exact (Tells.refl _).congr (by simp [moduleLoop])
  | cons m ms ih =>
    have round : Hands .loadVmm (Positive (addMdToMemoryManager E fuel (some m) s).1) s
        (addMdToMemoryManager E fuel (some m) s).2 := segmentLoop_hands E s fuel m m.ef 0
    unfold moduleLoop
    dsimp only
    split
    · exact round
    · rename_i done
      exact round.after (by simp [not_not.mp done]) (ih _)

end Calls

/-! ### Loading -/

section Loading
variable {E : Env} {fuel : Nat} {s : State}

theorem setupStack_hands (E : Env) (s : State) :
    Hands .loadVmm (0 < (setupStack E s).1) s (setupStack E s).2 := by
  unfold setupStack
  dsimp only
  split
  · exact ((Tells.refl _).cons id).congr (iff_of_false id (E.sdk.code_not_pos .outOfMemory))
  · exact (((Tells.refl _).cons id).cons id).congr (iff_of_false id (by simp))

theorem setupTls_hands (E : Env) (s : State) : Hands .loadVmm (0 < (setupTls E s).1) s (setupTls E s).2 := by
  unfold setupTls
  dsimp only
  split
  · exact (((Tells.refl _).cons id).cons id).congr (iff_of_false id (E.sdk.code_not_pos .outOfMemory))
  · exact ((((Tells.refl _).cons id).cons id).cons id).congr (iff_of_false id (by simp))

theorem bfelfLoad_hands (E : Env) (s : State) : Hands .loadVmm (0 < (bfelfLoad E s).1) s (bfelfLoad E s).2 := by
  have images : Hands .loadVmm False s (loadImages E s.added (E.bfelfLoad s.trace s.added).images s).2 :=
    .of_grew ((loadImages_grew E s _ _).mono fun e he => by cases e <;> first | exact id | exact he.elim)
  exact images.after id ((Tells.single ..).congr (and_iff_right rfl))

theorem commonReset_silent {op : Op} (E : Env) (s : State) :
    Grew (fun e => ¬HandedOn op e) s.trace (commonReset E s).2.trace :=
  (commonReset_grew E s).mono fun e he => by cases e <;> first | exact id | exact he.elim

/-- A result that is a success is not positive. -/
theorem not_pos_of_success {ret : Int} (h : ret = bfSuccess) : ¬0 < ret := by simp [h]

theorem not_positive_of_success {result : Option Int} (h : result = some bfSuccess) : ¬Positive result := by simp [h]

theorem LoadRun.hands {r : Option Int × State} (run : LoadRun E fuel s r) : Hands .loadVmm (Positive r.1) s r.2 := by
  have stack := setupStack_hands E s
  have tls (h : (loadStack E s).1 = bfSuccess) : Hands .loadVmm (0 < (loadTls E s).1) s (loadTls E s).2 :=
    stack.after (not_pos_of_success h) (setupTls_hands E _)
  have elf (h₁ : (loadStack E s).1 = bfSuccess) (h₂ : (loadTls E s).1 = bfSuccess) :
      Hands .loadVmm (0 < (loadElf E s).1) s (loadElf E s).2 :=
    (tls h₁).after (not_pos_of_success h₂) (bfelfLoad_hands E _)
  have init (h₁ : (loadStack E s).1 = bfSuccess) (h₂ : (loadTls E s).1 = bfSuccess) (h₃ : (loadElf E s).1 = bfSuccess) :
      Hands .loadVmm (0 < (loadInit E s).1) s (loadInit E s).2 :=
    (elf h₁ h₂).after (not_pos_of_success h₃) (callVmm_hands E _ trivial)
  have modules (h : Initialised E s) : Hands .loadVmm (Positive (loadModules E fuel s).1) s (loadModules E fuel s).2 :=
    (init h.stack h.tls h.elf).after (not_pos_of_success h.init) (moduleLoop_hands E _ fuel _)
  have pages (h : Initialised E s) (done : (loadModules E fuel s).1 = some bfSuccess) :
      Hands .loadVmm (Positive (loadPages E fuel s).1) s (loadPages E fuel s).2 :=
    (modules h).after (not_positive_of_success done) (pageLoop_hands E _ _ _ fuel _)
  cases run with
  | stackFailed => exact (stack.grew (commonReset_silent E _)).congr positive_some.symm
  | tlsFailed h₁ => exact ((tls h₁).grew (commonReset_silent E _)).congr positive_some.symm
  | elfFailed h₁ h₂ => exact ((elf h₁ h₂).grew (commonReset_silent E _)).congr positive_some.symm
  | initRefused h₁ h₂ h₃ => exact ((init h₁ h₂ h₃).grew (commonReset_silent E _)).congr positive_some.symm
  | modulesFailed inited stopped => exact stopped ▸ (modules inited).grew (commonReset_silent E _)
  | modulesPending inited pending => exact pending ▸ modules inited
  | pagesFailed inited done => exact pages inited done
  | loaded inited done ok => exact ok ▸ pages inited done

theorem commonLoadVmm_hands (E : Env) (fuel : Nat) (s : State) :
    Hands .loadVmm (Positive (commonLoadVmm E fuel s).1) s (commonLoadVmm E fuel s).2 := by
  by_cases hload : s.vmmStatus = .unloaded ∧ s.numModules ≠ 0
  · exact (commonLoadVmm_run E fuel s hload.1 hload.2).hands
  · have refused : ¬Positive (commonLoadVmm E fuel s).1 ∧ (commonLoadVmm E fuel s).2 = s := by
      rcases hst : s.vmmStatus with _ | _ | _ | _
      · rw [commonLoadVmm_of_empty E fuel hst (by simpa [hst] using hload)]
        exact ⟨by simpa using Int.le_of_lt (E.sdk.code_neg _), rfl⟩
      · rw [commonLoadVmm_of_loaded E fuel hst]
        exact ⟨by simp, rfl⟩
      all_goals exact ⟨by simpa [commonLoadVmm, hst] using Int.le_of_lt (E.sdk.code_neg _), by simp [commonLoadVmm, hst]⟩
    rw [refused.2]
    exact (Tells.refl _).congr (iff_of_false id refused.1)

end Loading

/-! ### Starting and stopping -/

/-- A round of a loop over the CPUs ends with a positive result. -/
def Exit.Positive : Exit → Prop
  | .next => False
  | .fail answer | .ret answer => 0 < answer

section Cpus
variable (E : Env) (s : State)

theorem stopCpu_hands (c : Int) : Hands .stopVmm (stopCpu E c s).1.Positive s (stopCpu E c s).2 := by
  have placed : Hands .stopVmm False s (s.emit (.setAffinity c (E.setAffinity s.trace c))) := (Tells.refl _).cons id
  unfold stopCpu
  dsimp only
  split
  · rename_i hneg
    exact placed.congr (iff_of_false id (Int.not_lt.mpr (Int.le_of_lt hneg)))
  · have stopped := placed.cons
      (e := .vmcall .stop c (E.vmcall (s.emit (.setAffinity c (E.setAffinity s.trace c))).trace .stop)) id
    split
    · exact stopped.congr (iff_of_false id (E.sdk.code_not_pos .vmmStopFailed))
    · have asks : Op.stopVmm.asks (.vmmFini c) := trivial
      have called := stopped.after id (callVmm_hands E (State.emit _ _) asks)
      split
      · exact called
      · rename_i ok
        exact ((called.congr (iff_of_false (not_pos_of_success (not_not.mp ok)) id)).cons id).cons id

theorem stopLoop_hands : ∀ (n : Nat) (s : State), Hands .stopVmm (stopLoop E n s).1.Positive s (stopLoop E n s).2
  | 0, s => .refl _
  | n + 1, s => by
    have round := stopCpu_hands E s n
    unfold stopLoop
    dsimp only
    split
    · rename_i next
      exact round.after (by simp [next, Exit.Positive]) (stopLoop_hands n _)
    · exact round

theorem commonStopVmm_hands : Hands .stopVmm (0 < (commonStopVmm E s).1) s (commonStopVmm E s).2 := by
  by_cases hrun : s.vmmStatus = .running
  · have loop := stopLoop_hands E s.numCpusStarted.toNat s
    rw [commonStopVmm_of_running E hrun]
    unfold stopExit
    split
    · rename_i next
      exact loop.congr (by simp [next, Exit.Positive])
    · rename_i answer failed
      exact loop.congr (by simp [failed, Exit.Positive])
    · rename_i answer refused
      exact loop.congr (by simp [refused, Exit.Positive])
  · rw [commonStopVmm_refused E hrun]
    refine (Tells.refl _).congr (iff_of_false id ?_)
    unfold commonStopVmm
    split <;> first | exact E.sdk.code_not_pos _ | contradiction | simp

/-- The calls hand nothing on in a start. -/
abbrev Silent (s t : State) : Prop := Grew (fun e => ¬HandedOn .startVmm e) s.trace t.trace

theorem callVmm_silent (c : Int) : Silent s (callVmm E (.vmmFini c) s).2 :=
  (callVmm_asks E (.vmmFini c) s).mono fun e asks => by
    cases e <;> simp_all [Asks, HandedOn, Op.asks]

theorem stopCpu_silent (c : Int) : Silent s (stopCpu E c s).2 := by
  have placed : Silent s (s.emit (.setAffinity c (E.setAffinity s.trace c))) := (Grew.refl _).cons id
  unfold stopCpu
  dsimp only
  split
  · exact placed
  · have stopped := placed.cons
      (e := .vmcall .stop c (E.vmcall (s.emit (.setAffinity c (E.setAffinity s.trace c))).trace .stop)) id
    split
    · exact stopped
    · have called := stopped.trans (callVmm_silent E (State.emit _ _) c)
      split
      · exact called
      · exact (called.cons (e := .platformStop) id).cons (e := .restoreAffinity _) id

theorem stopLoop_silent : ∀ (n : Nat) (s : State), Silent s (stopLoop E n s).2
  | 0, s => .refl _
  | n + 1, s => by
    unfold stopLoop
    dsimp only
    split
    · exact (stopCpu_silent E s n).trans (stopLoop_silent n _)
    · exact stopCpu_silent E s n

theorem commonStopVmm_silent : Silent s (commonStopVmm E s).2 := by
  by_cases hrun : s.vmmStatus = .running
  · have loop := stopLoop_silent E s.numCpusStarted.toNat s
    rw [commonStopVmm_of_running E hrun]
    unfold stopExit
    split <;> exact loop
  · rw [commonStopVmm_refused E hrun]
    exact .refl _

theorem startCpu_hands (c : Int) : Hands .startVmm (startCpu E c s).1.Positive s (startCpu E c s).2 := by
  have placed : Hands .startVmm False s (s.emit (.setAffinity c (E.setAffinity s.trace c))) := (Tells.refl _).cons id
  unfold startCpu
  dsimp only
  split
  · rename_i hneg
    exact placed.congr (iff_of_false id (Int.not_lt.mpr (Int.le_of_lt hneg)))
  · have asks : Op.startVmm.asks (.vmmInit c) := trivial
    have called := placed.after id (callVmm_hands E (State.emit _ _) asks)
    split
    · exact called
    · rename_i ok
      have accepted := called.congr (iff_of_false (not_pos_of_success (not_not.mp ok)) id)
      generalize (callVmm E (.vmmInit c) (s.emit (.setAffinity c (E.setAffinity s.trace c)))).2 = t at accepted ⊢
      have launched := accepted.cons (e := .vmcall .start c (E.vmcall t.trace .start)) id
      split
      · exact launched.congr (iff_of_false id (E.sdk.code_not_pos .vmmStartFailed))
      · exact (launched.cons (e := .platformStart) id).cons (e := .restoreAffinity _) id

theorem startLoop_hands : ∀ (rounds : Nat) (c : Int) (s : State),
    Hands .startVmm (startLoop E rounds c s).1.Positive s (startLoop E rounds c s).2
  | 0, _, s => (Tells.refl _).cons id
  | rounds + 1, c, s => by
    have asked : Hands .startVmm False s (s.emit (.numCpus (E.numCpus s.trace))) := (Tells.refl _).cons id
    unfold startLoop
    dsimp only
    split
    · have round := asked.after id (startCpu_hands E _ c)
      split
      · rename_i next
        exact round.after (by simp [next, Exit.Positive]) (startLoop_hands rounds (c + 1) _)
      · exact round
    · exact asked

theorem commonStartVmm_hands : Hands .startVmm (0 < (commonStartVmm E s).1) s (commonStartVmm E s).2 := by
  by_cases hst : s.vmmStatus = .loaded
  · have loop := startLoop_hands E maxCpus 0 { s with numCpusStarted := 0 }
    rw [commonStartVmm_of_loaded E hst]
    unfold startExit
    split
    · rename_i next
      exact loop.congr (by simp [next, Exit.Positive])
    · rename_i answer failed
      exact (loop.grew (commonStopVmm_silent E _)).congr (by simp [failed, Exit.Positive])
    · rename_i answer refused
      exact loop.congr (by simp [refused, Exit.Positive])
  · rw [commonStartVmm_refused E hst]
    refine (Tells.refl _).congr (iff_of_false id ?_)
    unfold commonStartVmm
    split <;> first | exact E.sdk.code_not_pos _ | contradiction | simp

theorem commonDumpVmm_hands (drr vcpuid : UInt64) :
    Hands (.dumpVmm drr vcpuid) (0 < (commonDumpVmm E drr vcpuid s).1) s (commonDumpVmm E drr vcpuid s).2 := by
  unfold commonDumpVmm
  split
  · exact (Tells.refl _).congr (iff_of_false id (E.sdk.code_not_pos .invalidArg))
  · split
    · exact (Tells.refl _).congr (iff_of_false id (E.sdk.code_not_pos .vmmInvalidState))
    · have asks : (Op.dumpVmm drr vcpuid).asks (.getDrr vcpuid drr) := trivial
      have called := callVmm_hands E s asks
      dsimp only
      split
      · exact called
      · rename_i ok
        exact called.congr (iff_of_false (not_pos_of_success (not_not.mp ok)) (by simp))

end Cpus

/-! ### Every operation -/

section Operations
variable (E : Env) (s : State)

theorem commonAddModule_not_pos (file fsize : UInt64) : ¬0 < (commonAddModule E file fsize s).1 := by
  unfold commonAddModule
  split
  · exact E.sdk.code_not_pos _
  · split
    · exact E.sdk.code_not_pos _
    · exact E.sdk.code_not_pos _
    · exact E.sdk.code_not_pos _
    · split
      · exact E.sdk.code_not_pos _
      · simp

theorem commonUnloadVmm_not_pos : ¬0 < (commonUnloadVmm E s).1 := by
  unfold commonUnloadVmm
  split
  · exact E.sdk.code_not_pos _
  · exact E.sdk.code_not_pos _
  · simp
  · dsimp only
    split
    · exact E.sdk.code_not_pos _
    · simp

theorem commonFini_not_pos : ¬0 < (commonFini E s).1 := by
  have run := commonFini_run E s
  generalize commonFini E s = r at run
  cases run with
  | refused => exact E.sdk.code_not_pos _
  | _ => simp

/-- An operation that hands nothing on has no positive result. -/
theorem hands_of_quiet {op : Op} {result : Int} {t : State} (calls : Calls s t) (quiet : ∀ e, ¬HandedOn op e)
    (answer : ¬0 < result) : Hands op (Positive (some result)) s t :=
  (Tells.of_grew (calls.mono fun e _ => quiet e)).congr (iff_of_false id fun h => answer (positive_some.mp h))

/-- An operation has a positive result exactly if it hands on a positive answer. -/
theorem exec_hands (fuel : Nat) (op : Op) : Hands op (Positive (exec E fuel op s).1) s (exec E fuel op s).2 := by
  have calls := (exec_effect E fuel op s).calls
  cases op with
  | addModule file fsize =>
    exact hands_of_quiet s calls (fun e => by cases e <;> simp [HandedOn, Op.asks]) (commonAddModule_not_pos E s file fsize)
  | loadVmm => exact commonLoadVmm_hands E fuel s
  | unloadVmm =>
    exact hands_of_quiet s calls (fun e => by cases e <;> simp [HandedOn, Op.asks]) (commonUnloadVmm_not_pos E s)
  | startVmm => exact (commonStartVmm_hands E s).congr positive_some.symm
  | stopVmm => exact (commonStopVmm_hands E s).congr positive_some.symm
  | dumpVmm drr vcpuid => exact (commonDumpVmm_hands E s drr vcpuid).congr positive_some.symm
  | fini => exact hands_of_quiet s calls (fun e => by cases e <;> simp [HandedOn, Op.asks]) (commonFini_not_pos E s)

/-- The result is a success or a negative code: the two tests that callers make of it agree. -/
def Signed (result : Option Int) : Prop := ∀ ret ∈ result, ret = bfSuccess ∨ ret < 0

theorem signed_iff {result : Option Int} : Signed result ↔ ¬Positive result := by
  unfold Signed Positive
  simp only [not_exists, not_and, Int.not_lt]
  refine forall₂_congr fun ret _ => ?_
  show ret = 0 ∨ ret < 0 ↔ ret ≤ 0
  omega

/-- An operation returns a success or a negative code exactly if none of its calls has a positive answer that it
    hands on. -/
theorem exec_signed_iff (fuel : Nat) (op : Op) : ∃ es, (exec E fuel op s).2.trace = es ++ s.trace ∧
    (Signed (exec E fuel op s).1 ↔ ∀ e ∈ es, ¬HandedOn op e) := by
  obtain ⟨es, trace, tells⟩ := exec_hands E s fuel op
  refine ⟨es, trace, ?_⟩
  rw [signed_iff, ← tells]
  simp only [not_exists, not_and]

end Operations

/-- A VMM that answers its first request with a positive value makes a load return it. -/
theorem not_signed_of_positive_answer : ¬∀ (E : Env) (s : State) (fuel : Nat) (op : Op), Reachable E s →
    Signed (exec E fuel op s).1 := by
  intro all
  let E := testEnv { enter := fun _ req => if req = .init then 1 else bfSuccess }
  have signed := all E (after E 8 [.addModule 0x5000 100]) 8 .loadVmm (reachable_after (by decide +kernel))
  have handed : (exec E 8 .loadVmm (after E 8 [.addModule 0x5000 100])).1 = some 1 := by decide +kernel
  rcases signed 1 handed with h | h <;> cases h

end Bfdriver
