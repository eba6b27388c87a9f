import Bfdriver.Theorems.Effects
import Mathlib.Logic.Relation

/-! # The steps of an operation

Every operation is a sequence of elementary steps: the stages of a load, calls of the VMM, resets, other
calls, and assignments to the status and the counter of started CPUs. What each step keeps holds in every
state that a run passes, also within an operation. -/

namespace Bfdriver
open Relation

/-- A call that leaves the driver without reaching the VMM by a request, the loader or the heap. -/
def Aside : Event → Prop
  | .numCpus _ | .setAffinity .. | .restoreAffinity _ | .platformStart | .platformStop | .virtToPhys ..
  | .getLoadInstr .. | .vmcall .. => True
  | _ => False

/-- An elementary step of the common code. -/
inductive Elementary (E : Env) (s : State) : State → Prop where
  | aside (e : Event) (h : Aside e) : Elementary E s (s.emit e)
  | status (v : VmmStatus) : Elementary E s { s with vmmStatus := v }
  | started (n : Int) : Elementary E s { s with numCpusStarted := n }
  | added (file fsize : UInt64) : Elementary E s (s.withModule file fsize)
  | stack : Elementary E s (setupStack E s).2
  | tls : Elementary E s (setupTls E s).2
  | elf : Elementary E s (bfelfLoad E s).2
  | call (req : Request) : Elementary E s (callVmm E req s).2
  | reset : Elementary E s (commonReset E s).2

/-- Some elementary steps, one after the other. -/
abbrev Passes (E : Env) : State → State → Prop := ReflTransGen (Elementary E)

/-- What every elementary step keeps is kept by a sequence of them. -/
theorem Passes.invariant {E : Env} {I : State → Prop} (step : ∀ s t, Elementary E s t → I s → I t) {s t : State}
    (h : Passes E s t) (hs : I s) : I t := by
  induction h with
  | refl => exact hs
  | tail _ last ih => exact step _ _ last ih

section Passes
variable (E : Env) (s : State)

/-! ### Registering memory -/

theorem addRawMdToMemoryManager_passes (virt type : UInt64) : Passes E s (addRawMdToMemoryManager E virt type s).2 := by
  have looked : Passes E s (s.emit (.virtToPhys virt (E.virtToPhys s.trace virt))) := .single (.aside _ trivial)
  unfold addRawMdToMemoryManager
  dsimp only
  split <;> exact looked.tail (.call _)

theorem pageLoop_passes (type last : UInt64) (fuel : Nat) (page : UInt64) :
    Passes E s (pageLoop E type last fuel page s).2 := by
  induction fuel generalizing page s with
  | zero => exact .refl
  | succ fuel ih =>
    have round := addRawMdToMemoryManager_passes E s page type
    unfold pageLoop
    split
    · dsimp only
      split
      · exact round
      · exact round.trans (ih _ _)
    · exact .refl

theorem segmentLoop_passes (fuel : Nat) (m : Binary) (instrs : List LoadInstr) (i : Nat) :
    Passes E s (segmentLoop E fuel m instrs i s).2 := by
  induction instrs generalizing i s with
  | nil => exact .refl
  | cons instr instrs ih =>
    have asked : Passes E s (s.emit (.getLoadInstr i (E.getLoadInstr s.trace m i))) := .single (.aside _ trivial)
    unfold segmentLoop
    dsimp only
    split
    · exact asked
    · have pages := asked.trans (pageLoop_passes E _ (instr.memoryType E.sdk)
        (pageMask E.sdk (m.exec + instr.memOffset + instr.memsz)) fuel (pageMask E.sdk (m.exec + instr.memOffset)))
      split
      · exact pages
      · exact pages.trans (ih _ _)

theorem moduleLoop_passes (fuel : Nat) (ms : List Binary) : Passes E s (moduleLoop E fuel ms s).2 := by
  induction ms generalizing s with
  | nil => exact .refl
  | cons m ms ih =>
    have round : Passes E s (addMdToMemoryManager E fuel (some m) s).2 := segmentLoop_passes E s fuel m m.ef 0
    unfold moduleLoop
    dsimp only
    split
    · exact round
    · exact round.trans (ih _)

/-! ### Loading and unloading -/

theorem commonUnloadVmm_passes : Passes E s (commonUnloadVmm E s).2 := by
  unfold commonUnloadVmm
  split
  · exact .single (.status _)
  · exact .refl
  · exact (ReflTransGen.single .reset).tail (.status _)
  · have called : Passes E s (callVmm E .fini s).2 := .single (.call _)
    dsimp only
    split
    · exact called.tail (.status _)
    · exact (called.tail .reset).tail (.status _)

theorem commonLoadVmm_passes (fuel : Nat) : Passes E s (commonLoadVmm E fuel s).2 := by
  by_cases h : s.vmmStatus = .unloaded ∧ s.numModules ≠ 0
  · have stack : Passes E s (loadStack E s).2 := .single .stack
    have tls := stack.tail (.tls (E := E))
    have elf := tls.tail (.elf (E := E))
    have init := elf.tail (.call (E := E) .init)
    have modules := init.trans (moduleLoop_passes E (loadInit E s).2 fuel (loadInit E s).2.added)
    have pages : Passes E s (loadPages E fuel s).2 := modules.trans (pageLoop_passes E (loadModules E fuel s).2 ..)
    have run := commonLoadVmm_run E fuel s h.1 h.2
    generalize commonLoadVmm E fuel s = r at run
    cases run with
    | stackFailed => exact stack.tail .reset
    | tlsFailed => exact tls.tail .reset
    | elfFailed => exact elf.tail .reset
    | initRefused => exact init.tail .reset
    | modulesFailed => exact modules.tail .reset
    | modulesPending => exact modules
    | pagesFailed => exact pages
    | loaded => exact pages.tail (.status _)
  · rw [commonLoadVmm_refused E fuel h]

/-! ### Starting and stopping -/

theorem stopCpu_passes (c : Int) : Passes E s (stopCpu E c s).2 := by
  have placed : Passes E s (s.emit (.setAffinity c (E.setAffinity s.trace c))) := .single (.aside _ trivial)
  unfold stopCpu
  dsimp only
  split
  · exact placed
  · have stopped := placed.tail (.aside (E := E)
      (.vmcall .stop c (E.vmcall (s.emit (.setAffinity c (E.setAffinity s.trace c))).trace .stop)) trivial)
    split
    · exact stopped
    · have called := stopped.tail (.call (E := E) (.vmmFini c))
      split
      · exact called
      · exact ((called.tail (.started _)).tail (.aside .platformStop trivial)).tail (.aside _ trivial)

theorem stopLoop_passes (n : Nat) : Passes E s (stopLoop E n s).2 := by
  induction n generalizing s with
  | zero => exact .refl
  | succ n ih =>
    unfold stopLoop
    dsimp only
    split
    · exact (stopCpu_passes E s n).trans (ih _)
    · exact stopCpu_passes E s n

theorem commonStopVmm_passes : Passes E s (commonStopVmm E s).2 := by
  by_cases hrun : s.vmmStatus = .running
  · have loop := stopLoop_passes E s s.numCpusStarted.toNat
    rw [commonStopVmm_of_running E hrun]
    unfold stopExit
    split
    · exact loop.tail (.status _)
    · exact loop.tail (.status _)
    · exact loop
  · rw [commonStopVmm_refused E hrun]

theorem startCpu_passes (c : Int) : Passes E s (startCpu E c s).2 := by
  have placed : Passes E s (s.emit (.setAffinity c (E.setAffinity s.trace c))) := .single (.aside _ trivial)
  unfold startCpu
  dsimp only
  split
  · exact placed
  · have called := placed.tail (.call (E := E) (.vmmInit c))
    split
    · exact called
    · generalize (callVmm E (.vmmInit c) (s.emit (.setAffinity c (E.setAffinity s.trace c)))).2 = t at called ⊢
      have started := (called.tail (.started (t.numCpusStarted + 1))).tail
        (.aside (.vmcall .start c (E.vmcall t.trace .start)) trivial)
      split
      · exact started
      · have restored := (started.tail (.aside .platformStart trivial)).tail
          (.aside (.restoreAffinity (E.setAffinity s.trace c)) trivial)
        exact restored.tail (.status .running)

theorem startLoop_passes (rounds : Nat) (c : Int) : Passes E s (startLoop E rounds c s).2 := by
  have asked : Passes E s (s.emit (.numCpus (E.numCpus s.trace))) := .single (.aside _ trivial)
  induction rounds generalizing c s with
  | zero => exact asked
  | succ rounds ih =>
    unfold startLoop
    dsimp only
    split
    · have round := asked.trans (startCpu_passes E _ c)
      split
      · exact round.trans (ih _ _ (.single (.aside _ trivial)))
      · exact round
    · exact asked

theorem commonStartVmm_passes : Passes E s (commonStartVmm E s).2 := by
  by_cases hst : s.vmmStatus = .loaded
  · have loop := (ReflTransGen.single (.started (E := E) 0)).trans (startLoop_passes E { s with numCpusStarted := 0 } maxCpus 0)
    rw [commonStartVmm_of_loaded E hst]
    unfold startExit
    split
    · exact loop
    · exact loop.trans (commonStopVmm_passes E _)
    · exact loop
  · rw [commonStartVmm_refused E hst]

/-! ### The operations -/

theorem commonFini_passes : Passes E s (commonFini E s).2 := by
  have stopped : Passes E s (finiStop E s) := by
    unfold finiStop
    split
    · exact commonStopVmm_passes E s
    · exact .refl
  have unloaded : Passes E s (finiUnload E (finiStop E s)) := by
    refine stopped.trans ?_
    unfold finiUnload
    split
    · exact commonUnloadVmm_passes E _
    · exact .refl
  unfold commonFini
  dsimp only
  split
  · exact unloaded
  · split
    · exact unloaded.tail .reset
    · exact unloaded

theorem exec_passes (fuel : Nat) (op : Op) : Passes E s (exec E fuel op s).2 := by
  cases op with
  | addModule file fsize =>
    show Passes E s (commonAddModule E file fsize s).2
    rcases commonAddModule_cases E file fsize s with ⟨-, same⟩ | ⟨-, -, -, more⟩
    · rw [same]
    · rw [more]
      exact .single (.added file fsize)
  | loadVmm => exact commonLoadVmm_passes E s fuel
  | unloadVmm => exact commonUnloadVmm_passes E s
  | startVmm => exact commonStartVmm_passes E s
  | stopVmm => exact commonStopVmm_passes E s
  | dumpVmm drr vcpuid =>
    show Passes E s (commonDumpVmm E drr vcpuid s).2
    rcases commonDumpVmm_cases E drr vcpuid s with same | ⟨-, called⟩
    · rw [same]
    · rw [called]
      exact .single (.call _)
  | fini => exact commonFini_passes E s

end Passes

/-- What the static initialisation has and every elementary step keeps holds in every state of a run. -/
theorem ReachableBy.passes {E : Env} {P : State → Op → Prop} {s : State} (h : ReachableBy E P s) :
    Passes E (.initial E.sdk) s :=
  h.invariant (.single .reset) fun s fuel op _ _ _ before => before.trans (exec_passes E s fuel op)

end Bfdriver
