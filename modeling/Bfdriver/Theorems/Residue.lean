import Bfdriver.TestPlatform
import Bfdriver.Theorems.Simulation
import Bfdriver.Theorems.Setup

/-! # What a reset leaves behind

A reset keeps the sizes of the stack and of the TLS. No later operation reads them before it writes them,
so that what follows a successful unload cannot be told from what follows a fresh `common_init`. -/

namespace Bfdriver
open BlockHeap Runs

/-! ### The environment after some calls -/

/-- The environment that answers from the start on as `E` does after the calls of `t₀`. -/
def Env.after (E : Env) (t₀ : Trace) : Env where
  sdk := E.sdk
  alloc t := E.alloc (t ++ t₀)
  numCpus t := E.numCpus (t ++ t₀)
  currentCpuNum t := E.currentCpuNum (t ++ t₀)
  setAffinity t := E.setAffinity (t ++ t₀)
  virtToPhys t := E.virtToPhys (t ++ t₀)
  bfelfLoad t := E.bfelfLoad (t ++ t₀)
  setIntegerArgs t := E.setIntegerArgs (t ++ t₀)
  getLoadInstr t := E.getLoadInstr (t ++ t₀)
  enter t := E.enter (t ++ t₀)
  drrAddr := E.drrAddr
  drr t := E.drr (t ++ t₀)
  vmcall t := E.vmcall (t ++ t₀)
  copyFromUser t := E.copyFromUser (t ++ t₀)
  copyToUser t := E.copyToUser (t ++ t₀)
  userWord t := E.userWord (t ++ t₀)
  userBytes t := E.userBytes (t ++ t₀)
  drrAddr_ne := E.drrAddr_ne
  alloc_fresh t kind len h := by
    have fresh := E.alloc_fresh (t ++ t₀) kind len h
    unfold heap at fresh
    rw [List.filterMap_append] at fresh
    exact heapOf_append_eq_none fresh

/-- The trace `t` is `t'` after the calls of `t₀`. -/
def Continues (t₀ t t' : Trace) : Prop := t = t' ++ t₀

theorem agree_after (E : Env) (t₀ : Trace) : Agree (Continues t₀) E (E.after t₀) where
  emit e h := congrArg (List.cons e) h
  sdk := rfl
  alloc h := by rw [h]; rfl
  numCpus h := by rw [h]; rfl
  currentCpuNum h := by rw [h]; rfl
  setAffinity h := by rw [h]; rfl
  virtToPhys h := by rw [h]; rfl
  bfelfLoad h := by rw [h]; rfl
  setIntegerArgs h := by rw [h]; rfl
  getLoadInstr h := by rw [h]; rfl
  enter h := by rw [h]; rfl
  vmcall h := by rw [h]; rfl

/-! ### States that differ in stale sizes -/

/-- The states are the same but for the sizes of memory that an unloaded driver does not have. -/
structure Alike (s t : State) : Prop where
  globals : t = { s with tlsSize := t.tlsSize, stackSize := t.stackSize }
  tlsSize : s.tls ≠ 0 → t.tlsSize = s.tlsSize
  stackSize : s.stack ≠ 0 → t.stackSize = s.stackSize
  active : s.vmmStatus ≠ .unloaded → t = s

theorem Alike.refl (s : State) : Alike s s := ⟨rfl, fun _ => rfl, fun _ => rfl, fun _ => rfl⟩

/-- The results are the same, and the states differ in stale sizes only. -/
structure AlikeResults {ρ : Type} (r r' : ρ × State) : Prop where
  result : r'.1 = r.1
  states : Alike r.2 r'.2

section Alike
variable {s t : State} (h : Alike s t)
include h

theorem Alike.pointers : t.pointers = s.pointers := by
  have added : t.added = s.added := by rw [h.globals]; rfl
  have tls : t.tls = s.tls := by rw [h.globals]
  have stack : t.stack = s.stack := by rw [h.globals]
  unfold State.pointers pointerAt
  rw [added, tls, stack]
  congr 2
  · split
    · rename_i hne
      rw [h.tlsSize hne]
    · rfl
  · split
    · rename_i hne
      rw [h.stackSize hne]
    · rfl

theorem Alike.reset (E : Env) : Alike (commonReset E s).2 (commonReset E t).2 := by
  have trace : t.trace = s.trace := by rw [h.globals]
  rw [commonReset_eq, commonReset_eq, h.pointers, trace]
  exact ⟨rfl, fun hne => absurd rfl hne, fun hne => absurd rfl hne, fun hne => absurd rfl hne⟩

/-- The first stage of a load writes the size of the stack. -/
theorem setupStack_alike (E : Env) :
    setupStack E t = ((setupStack E s).1, { (setupStack E s).2 with tlsSize := t.tlsSize }) := by
  rw [h.globals]
  unfold setupStack
  dsimp only
  split <;> rfl

theorem Alike.stack (E : Env) : Alike (setupStack E s).2 (setupStack E t).2 := by
  by_cases hst : s.vmmStatus = .unloaded
  · rw [setupStack_alike h E]
    refine ⟨rfl, fun hne => ?_, fun _ => rfl, fun hne => absurd ((setupStack_status E s).trans hst) hne⟩
    have size : (setupStack E s).2.tlsSize = s.tlsSize := by
      unfold setupStack
      dsimp only
      split <;> rfl
    rw [setupStack_tls] at hne
    exact (h.tlsSize hne).trans size.symm
  · rw [h.active hst]
    exact .refl _

/-- The second stage of a load writes the size of the TLS. -/
theorem setupTls_alike (E : Env) : setupTls E (setupStack E t).2 = setupTls E (setupStack E s).2 := by
  rw [setupStack_alike h E]
  rfl

/-! ### The operations -/

theorem commonLoadVmm_alike (E : Env) (fuel : Nat) :
    AlikeResults (commonLoadVmm E fuel s) (commonLoadVmm E fuel t) := by
  have status : t.vmmStatus = s.vmmStatus := by rw [h.globals]
  have modules : t.numModules = s.numModules := by rw [h.globals]
  have result : (setupStack E t).1 = (setupStack E s).1 := by rw [setupStack_alike h E]
  unfold commonLoadVmm
  rw [status, modules]
  split
  · exact ⟨rfl, h⟩
  · exact ⟨rfl, h⟩
  · exact ⟨rfl, h⟩
  · rename_i unloaded
    split
    · exact ⟨rfl, h⟩
    · dsimp only
      rw [result, setupTls_alike h E]
      split
      · unfold loadFailure
        dsimp only
        rw [commonUnloadVmm_of_unloaded E ((setupStack_status E s).trans unloaded),
          commonUnloadVmm_of_unloaded E ((setupStack_status E t).trans (status.trans unloaded))]
        exact ⟨rfl, (h.stack E).reset E⟩
      · exact ⟨rfl, .refl _⟩

theorem commonAddModule_alike (E : Env) (file fsize : UInt64) :
    AlikeResults (commonAddModule E file fsize s) (commonAddModule E file fsize t) := by
  obtain ⟨a, b, rfl⟩ : ∃ a b, t = { s with tlsSize := a, stackSize := b } := ⟨_, _, h.globals⟩
  unfold commonAddModule
  dsimp only
  split
  · exact ⟨rfl, h⟩
  · split
    · exact ⟨rfl, h⟩
    · exact ⟨rfl, h⟩
    · exact ⟨rfl, h⟩
    · rename_i unloaded
      split
      · exact ⟨rfl, h⟩
      · exact ⟨rfl, rfl, h.tlsSize, h.stackSize, fun active => absurd unloaded active⟩

theorem exec_alike (E : Env) (fuel : Nat) (op : Op) : AlikeResults (exec E fuel op s) (exec E fuel op t) := by
  have status : t.vmmStatus = s.vmmStatus := by rw [h.globals]
  have modules : t.numModules = s.numModules := by rw [h.globals]
  have returns : ∀ {r r' : Int × State}, AlikeResults r r' → AlikeResults (some r.1, r.2) (some r'.1, r'.2) :=
    fun h => ⟨congrArg some h.result, h.states⟩
  by_cases hst : s.vmmStatus = .unloaded
  · have hst' := status.trans hst
    cases op with
    | addModule file fsize => exact returns (commonAddModule_alike h E file fsize)
    | loadVmm => exact commonLoadVmm_alike h E fuel
    | unloadVmm =>
      refine returns ?_
      rw [commonUnloadVmm_of_unloaded E hst, commonUnloadVmm_of_unloaded E hst']
      exact ⟨rfl, h.reset E⟩
    | startVmm =>
      refine returns ?_
      unfold commonStartVmm
      rw [hst, hst']
      exact ⟨rfl, h⟩
    | stopVmm =>
      refine returns ?_
      unfold commonStopVmm
      rw [hst, hst']
      exact ⟨rfl, h⟩
    | dumpVmm drr vcpuid =>
      refine returns ?_
      unfold commonDumpVmm
      rw [hst, hst']
      split <;> exact ⟨rfl, h⟩
    | fini =>
      refine returns ?_
      rw [commonFini_of_unloaded hst, commonFini_of_unloaded hst', modules]
      refine ⟨rfl, ?_⟩
      dsimp only
      split
      · exact h.reset E
      · exact h
  · rw [h.active hst]
    exact ⟨rfl, .refl _⟩

end Alike

/-! ### Runs after a reset -/

/-- A call of a function that `common.h` declares. -/
inductive Invocation where
  | op (fuel : Nat) (op : Op)
  | reset
  | init
  deriving Repr, DecidableEq

def invoke (E : Env) : Invocation → State → Option Int × State
  | .op fuel op, s => exec E fuel op s
  | .reset, s => let r := commonReset E s; (some r.1, r.2)
  | .init, s => let r := commonInit E s; (some r.1, r.2)

/-- But for stale sizes, `s` is `s'` after the calls of `t₀`. -/
def Resumes (t₀ : Trace) (s s' : State) : Prop := ∃ u, Alike s u ∧ Sim (Continues t₀) u s'

theorem Resumes.invoke {E : Env} {t₀ : Trace} {s s' : State} (a : Invocation) (h : Resumes t₀ s s') :
    (invoke (E.after t₀) a s').1 = (invoke E a s).1 ∧ Resumes t₀ (invoke E a s).2 (invoke (E.after t₀) a s').2 := by
  obtain ⟨u, alike, sim⟩ := h
  have agree := agree_after E t₀
  have reset : Resumes t₀ (commonReset E s).2 (commonReset (E.after t₀) s').2 :=
    ⟨_, alike.reset E, (commonReset_sim agree sim).states⟩
  cases a with
  | op fuel op =>
    have same := exec_alike alike E fuel op
    have agrees := exec_sim agree sim fuel op
    exact ⟨agrees.result.trans same.result, _, same.states, agrees.states⟩
  | reset => exact ⟨rfl, reset⟩
  | init => exact ⟨rfl, reset⟩

/-- The status of a state and the calls made so far, which started after those of `t₀`. -/
def seenAfter (t₀ : Trace) (s : State) : VmmStatus × Trace := (s.vmmStatus, s.trace ++ t₀)

theorem resumes_bisimulation (E : Env) (t₀ : Trace) :
    Bisimulation (invoke E) (invoke (E.after t₀)) (seenAfter []) (seenAfter t₀) (Resumes t₀) where
  looks h := by
    obtain ⟨u, alike, sim⟩ := h
    have trace : u.trace = _ := sim.trace
    unfold seenAfter
    rw [List.append_nil, sim.vmmStatus, ← trace, alike.globals]
  result a h := (h.invoke a).1
  next a h := (h.invoke a).2

/-- A state that was just reset continues a fresh `common_init`. -/
theorem resumes_of_reset (E : Env) (u : State) : Resumes (commonReset E u).2.trace (commonReset E u).2
    (commonInit (E.after (commonReset E u).2.trace) (.initial E.sdk)).2 := by
  have fresh : (commonInit (E.after (commonReset E u).2.trace) (.initial E.sdk)).2 = .initial E.sdk := by
    rw [commonInit, commonReset_eq]
    rfl
  rw [fresh]
  refine ⟨{ State.initial E.sdk with trace := (commonReset E u).2.trace }, ?_, .intro rfl⟩
  rw [commonReset_eq]
  exact ⟨rfl, fun hne => absurd rfl hne, fun hne => absurd rfl hne, fun hne => absurd rfl hne⟩

end Bfdriver
