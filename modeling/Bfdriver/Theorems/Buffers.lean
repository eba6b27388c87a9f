import Bfdriver.Theorems.Setup
import Bfdriver.TestPlatform
import Bfdriver.Windows.Queue

/-! # The buffers of a device-control request

The handlers of the Windows driver test a buffer for null only. Here is which requests access their
buffers within bounds. -/

namespace Bfdriver
open EventLog

/-- An access to a buffer of a request stays within the buffer. -/
def InBounds : Event → Prop
  | .readInput _ bytes off len => off + len ≤ bytes.length
  | .writeOutput size off len _ => off + len ≤ size
  | _ => True

/-! ### The common code has no access to the buffers -/

/-- The accesses between `s` and `t` stay within bounds. -/
abbrev Accesses (s t : State) : Prop := Grew InBounds s.trace t.trace

theorem Accesses.of_calls {s t : State} (h : Calls s t) : Accesses s t :=
  h.mono fun e he => by cases e <;> trivial

theorem freePmodules_calls (kind : MemKind) (ps : List Pmodule) (s : State) : Calls s (freePmodules kind ps s) := by
  induction ps generalizing s with
  | nil => exact .refl _
  | cons p ps ih => exact ((Grew.refl s.trace).cons trivial).trans (ih _)

/-! ### The handlers without a buffer -/

section Handlers
variable (E : Env) (kind : MemKind) (fuel : Nat) (d : Driver)

theorem ioctlUnloadVmmWith_accesses : Accesses d.common (ioctlUnloadVmmWith E kind d).2.common :=
  .of_calls ((commonUnloadVmm_effect E 0 .unloadVmm d.common).calls.trans (freePmodules_calls kind d.held _))

theorem ioctlLoadVmmWith_accesses : Accesses d.common (ioctlLoadVmmWith E kind fuel d).2.common := by
  have loaded := Accesses.of_calls (commonLoadVmm_effect E fuel d.common).calls
  unfold ioctlLoadVmmWith
  dsimp only
  split
  · exact loaded
  · split
    · exact loaded.trans (ioctlUnloadVmmWith_accesses E kind _)
    · exact loaded

theorem ioctlStopVmm_accesses : Accesses d.common (ioctlStopVmm E d).2.common :=
  .of_calls (commonStopVmm_kept E d.common).calls

theorem ioctlStartVmm_accesses : Accesses d.common (ioctlStartVmm E d).2.common := by
  have started := Accesses.of_calls (commonStartVmm_kept E d.common).calls
  unfold ioctlStartVmm
  dsimp only
  split
  · exact started.trans (ioctlStopVmm_accesses E _)
  · exact started

end Handlers

namespace Windows
variable {E : Env} {fuel : Nat} {d : Driver} {q : DeviceControl}

/-! ### The handlers with a buffer -/

/-- A module is read up to the size of the buffer. -/
theorem memcpyFromInput_accesses (dst : UInt64) (file : Option (List UInt8)) (s : State) :
    Accesses s (memcpyFromInput dst file (UInt64.ofNat (file.elim 0 List.length)) s) := by
  cases file with
  | none => exact .refl _
  | some bytes =>
    refine (Grew.refl s.trace).cons ?_
    show 0 + (UInt64.ofNat bytes.length).toNat ≤ bytes.length
    rw [Nat.zero_add, UInt64.toNat_ofNat']
    exact Nat.mod_le _ _

theorem ioctlAddModule_accesses (file : Option (List UInt8)) :
    Accesses d.common (ioctlAddModule E file (UInt64.ofNat (file.elim 0 List.length)) d).2.common := by
  have copy := fun dst => memcpyFromInput_accesses dst file
  unfold ioctlAddModule ioctlAddModuleWith
  generalize UInt64.ofNat (file.elim 0 List.length) = len at copy ⊢
  dsimp only
  split
  · exact .refl _
  · generalize E.alloc d.common.trace .rw len = buf
    have allocated : Accesses d.common (d.common.emit (.alloc .file len buf)) := (Grew.refl _).cons trivial
    split
    · exact allocated
    · rw [if_neg (not_not.mpr rfl)]
      have copied := allocated.trans (copy buf _)
      have added := copied.trans (Accesses.of_calls (commonAddModule_effect E 0 .loadVmm buf len _).calls)
      split
      · exact added.cons trivial
      · exact added

/-- Nothing is written to a null buffer or from a null pointer. -/
theorem memcpyToOutput_accesses_iff {s t : State} (h : Accesses s t) (output : Option Nat) (src : UInt64) (num : Nat) :
    Accesses s (memcpyToOutput output src num t) ↔ (src ≠ 0 → ∀ size ∈ output, num ≤ size) := by
  unfold memcpyToOutput
  split
  · exact iff_of_true h (by simp)
  · split
    · rename_i null
      exact iff_of_true h fun hne => absurd null hne
    · rename_i hne
      exact h.cons_iff.trans (by simp [InBounds, hne])

/-- The VMM answers a dump with a debug ring that is not null. -/
def AnswersDump (E : Env) (d : Driver) : Prop :=
  d.common.vmmStatus ≠ .unloaded ∧ (callVmm E (.getDrr d.vcpuid E.drrAddr) d.common).1 = bfSuccess ∧
    E.drr (callVmm E (.getDrr d.vcpuid E.drrAddr) d.common).2.trace ≠ 0

/-- The whole debug ring is written, whatever the size of the buffer. -/
theorem ioctlDumpVmm_accesses_iff (output : Option Nat) :
    Accesses d.common (ioctlDumpVmm E output d).2.common ↔
      (AnswersDump E d → ∀ size ∈ output, E.sdk.drrSize ≤ size) := by
  have called : Accesses d.common (callVmm E (.getDrr d.vcpuid E.drrAddr) d.common).2 :=
    .of_calls (callVmm_called E _ _).calls
  unfold ioctlDumpVmm ioctlDumpVmmWith AnswersDump
  rw [commonDumpVmm_eq E E.drrAddr_ne]
  by_cases hst : d.common.vmmStatus = .unloaded
  · rw [if_pos hst, if_pos (E.sdk.code_ne _)]
    exact iff_of_true (.refl _) fun h => absurd hst h.1
  · rw [if_neg hst]
    generalize callVmm E (.getDrr d.vcpuid E.drrAddr) d.common = r at called ⊢
    by_cases accepted : r.1 = bfSuccess
    · rw [if_neg (not_not.mpr accepted)]
      refine (memcpyToOutput_accesses_iff called output _ _).trans ?_
      simp [hst, accepted]
    · rw [if_pos accepted]
      exact iff_of_true called fun h => absurd h.2.1 accepted

theorem ioctlVmmStatus_accesses_iff (output : Option Nat) :
    Accesses d.common (ioctlVmmStatus E output d).2.common ↔ ∀ size ∈ output, 8 ≤ size := by
  cases output with
  | none => exact iff_of_true (.refl _) (by simp)
  | some size => exact (Grew.refl _).cons_iff.trans (by simp [InBounds])

theorem ioctlSetVcpuid_accesses_iff (input : Option (List UInt8)) :
    Accesses d.common (ioctlSetVcpuid E input d).2.common ↔ ∀ bytes ∈ input, 8 ≤ bytes.length := by
  cases input with
  | none => exact iff_of_true (.refl _) (by simp)
  | some bytes => exact (Grew.refl _).cons_iff.trans (by simp [InBounds])

/-! ### Requests -/

/-- The buffers that a handler is given are null or as long as it takes for granted. -/
def Suffices (E : Env) (d : Driver) (input : Option (List UInt8)) (output : Option Nat) : IoControlCode → Prop
  | .vmmStatus => ∀ size ∈ output, 8 ≤ size
  | .setVcpuid => ∀ bytes ∈ input, 8 ≤ bytes.length
  | .dumpVmm => AnswersDump E d → ∀ size ∈ output, E.sdk.drrSize ≤ size
  | _ => True

theorem dispatch_accesses_iff {input : Option (List UInt8)} {output : Option Nat} {code : IoControlCode}
    {r : Option Int × Driver} (handled : dispatch E fuel code input output d = some r) :
    Accesses d.common r.2.common ↔ Suffices E d input output code := by
  cases code with
  | addModule =>
    cases handled
    exact iff_of_true (ioctlAddModule_accesses input) trivial
  | loadVmm =>
    cases handled
    exact iff_of_true (ioctlLoadVmmWith_accesses E .rwe fuel d) trivial
  | unloadVmm =>
    cases handled
    exact iff_of_true (ioctlUnloadVmmWith_accesses E .rwe d) trivial
  | startVmm =>
    cases handled
    exact iff_of_true (ioctlStartVmm_accesses E d) trivial
  | stopVmm =>
    cases handled
    exact iff_of_true (ioctlStopVmm_accesses E d) trivial
  | dumpVmm =>
    cases handled
    exact ioctlDumpVmm_accesses_iff output
  | vmmStatus =>
    cases handled
    exact ioctlVmmStatus_accesses_iff output
  | setVcpuid =>
    cases handled
    exact ioctlSetVcpuid_accesses_iff input
  | other => cases handled

/-- A request accesses its buffers within bounds exactly if they suffice for its handler, should it get to
    one. -/
theorem deviceControl_accesses_iff (E : Env) (fuel : Nat) (q : DeviceControl) (d : Driver) :
    Accesses d.common (bareflankEvtIoDeviceControl E fuel q d).2.common ↔
      ∀ input ∈ retrieveBuffer q.inputBufferLength q.input,
        ∀ output ∈ retrieveBuffer q.outputBufferLength q.output, Suffices E d input output q.code := by
  unfold bareflankEvtIoDeviceControl
  cases retrieveBuffer q.inputBufferLength q.input with
  | none => exact iff_of_true (.refl _) (by simp)
  | some input =>
    cases retrieveBuffer q.outputBufferLength q.output with
    | none => exact iff_of_true (.refl _) (by simp)
    | some output =>
      have both : (∀ i ∈ some input, ∀ o ∈ some output, Suffices E d i o q.code) ↔ Suffices E d input output q.code := by
        simp
      rw [both]
      dsimp only
      cases handled : dispatch E fuel q.code input output d with
      | none =>
        have other : q.code = .other := by
          cases hcode : q.code <;> simp [hcode, dispatch] at handled
          rfl
        rw [other]
        exact iff_of_true (.refl _) trivial
      | some r =>
        have within := dispatch_accesses_iff handled
        rcases r with ⟨ret | ret, e⟩
        · exact within
        · dsimp only
          split <;> exact within

/-- The status is written as eight bytes to an output buffer of four. -/
theorem not_accesses_of_shortStatus : ¬∀ (E : Env) (fuel : Nat) (q : DeviceControl) (d : Driver),
    Accesses d.common (bareflankEvtIoDeviceControl E fuel q d).2.common := by
  intro all
  have within := all (testEnv {}) 0 (.exact .vmmStatus [] 4) (bareflankQueueInitialize (testEnv {}))
  have short : InBounds (.writeOutput 4 0 8 (.status .unloaded)) := (Grew.refl _).cons_iff.mp within
  exact absurd (show 8 ≤ 4 from short) (by decide)

end Windows

end Bfdriver
