import Bfdriver.Theorems.Calls
import Bfdriver.Theorems.Operations

/-! # Resetting and loading

`common_reset` puts the globals back to their static initialisation, but for the two sizes, after it
released every pointer they held. `LoadRun` lists the ways in which `common_load_vmm` can go. -/

namespace Bfdriver
open EventLog BlockHeap

/-! ### The pointers of a state -/

/-- Pointers with the blocks they should be. -/
abbrev Pointers := List (UInt64 × Block)

/-- The executable memory of the modules in a list, with the blocks it should be. -/
def execPointers (ms : List Binary) : Pointers :=
  (ms.filter fun m => m.exec ≠ 0).map fun m => (m.exec, ⟨.exec, m.execSize⟩)

def pointerAt (site : AllocSite) (a len : UInt64) : Pointers :=
  if a ≠ 0 then [(a, ⟨site, len⟩)] else []

/-- The pointers that `common_reset` releases, in its order. -/
def State.pointers (s : State) : Pointers :=
  execPointers s.added ++ (pointerAt .tls s.tls s.tlsSize ++ pointerAt .stack s.stack s.stackSize)

@[simp] theorem pointerAt_zero (site : AllocSite) (len : UInt64) : pointerAt site 0 len = [] := rfl

theorem execPointers_eq_nil {ms : List Binary} : execPointers ms = [] ↔ ∀ m ∈ ms, m.exec = 0 := by
  simp [execPointers]

theorem State.pointers_eq_nil {s : State} :
    s.pointers = [] ↔ (∀ m ∈ s.added, m.exec = 0) ∧ s.tls = 0 ∧ s.stack = 0 := by
  simp [State.pointers, execPointers_eq_nil, pointerAt]

/-- The trace after the release of some pointers. -/
def releases : Pointers → Trace → Trace
  | [], t => t
  | p :: ps, t => releases ps (.free p.2.site.kind p.1 p.2.len :: t)

theorem releases_append (ps qs : Pointers) (t : Trace) :
    releases (ps ++ qs) t = releases qs (releases ps t) := by
  induction ps generalizing t with
  | nil => rfl
  | cons p ps ih => exact ih _

theorem releases_pointerAt (site : AllocSite) (a len : UInt64) (t : Trace) :
    releases (pointerAt site a len) t = if a ≠ 0 then .free site.kind a len :: t else t := by
  unfold pointerAt
  split <;> rfl

/-- A release of memory. -/
def IsFree : Event → Prop
  | .free .. => True
  | _ => False

theorem releases_grew (ps : Pointers) (t : Trace) : Grew IsFree t (releases ps t) := by
  induction ps generalizing t with
  | nil => exact .refl t
  | cons p ps ih => exact ((Grew.refl t).cons (e := .free p.2.site.kind p.1 p.2.len) trivial).trans (ih _)

@[simp] theorem signals_releases (ps : Pointers) (t : Trace) :
    signals (releases ps t) = signals t := by
  induction ps generalizing t with
  | nil => rfl
  | cons p ps ih =>
    rw [releases, ih]
    rfl

theorem execPointers_cons (m : Binary) (ms : List Binary) :
    execPointers (m :: ms) = pointerAt .exec m.exec m.execSize ++ execPointers ms := by
  unfold execPointers pointerAt
  by_cases h : m.exec = 0 <;> simp [h]

theorem pointers_resources_eq (s t : State) (ha : t.added = s.added) (ht : t.tls = s.tls)
    (hs : t.stack = s.stack) (hts : t.tlsSize = s.tlsSize) (hss : t.stackSize = s.stackSize) :
    t.pointers = s.pointers := by
  unfold State.pointers
  rw [ha, ht, hs, hts, hss]

theorem Kept.pointers {s t : State} (h : Kept s t) : t.pointers = s.pointers :=
  pointers_resources_eq s t h.added h.tls h.stack h.tlsSize h.stackSize

/-! ### Reset -/

theorem freeExecs_eq (ms : List Binary) (s : State) :
    freeExecs ms s = { s with trace := releases (execPointers ms) s.trace } := by
  induction ms generalizing s with
  | nil => rfl
  | cons m ms ih =>
    rw [freeExecs, ih, execPointers_cons, releases_append, releases_pointerAt]
    split <;> rfl

theorem commonReset_eq (E : Env) (s : State) : (commonReset E s).2 =
    { State.initial E.sdk with
      tlsSize := s.tlsSize, stackSize := s.stackSize, trace := releases s.pointers s.trace } := by
  unfold commonReset State.pointers
  rw [freeExecs_eq, releases_append, releases_append, releases_pointerAt, releases_pointerAt]
  dsimp only
  by_cases ht : s.tls = 0 <;> by_cases hs : s.stack = 0 <;>
    simp [ht, hs, State.emit, State.initial, AllocSite.kind]

theorem commonReset_grew (E : Env) (s : State) : Grew IsFree s.trace (commonReset E s).2.trace := by
  rw [commonReset_eq]
  exact releases_grew s.pointers s.trace

/-! ### Loading -/

section Stages
variable (E : Env) (fuel : Nat) (s : State)

/-! The stages of `common_load_vmm`, each from the state that the one before it leaves. -/

abbrev loadStack := setupStack E s
abbrev loadTls := setupTls E (loadStack E s).2
abbrev loadElf := bfelfLoad E (loadTls E s).2
abbrev loadInit := callVmm E .init (loadElf E s).2
abbrev loadModules := moduleLoop E fuel (loadInit E s).2.added (loadInit E s).2
abbrev loadPages := tlsLoop E fuel (loadModules E fuel s).2

/-- The memory of the VMM is set up and the VMM has accepted its first request. -/
structure Initialised : Prop where
  stack : (loadStack E s).1 = bfSuccess
  tls : (loadTls E s).1 = bfSuccess
  elf : (loadElf E s).1 = bfSuccess
  init : (loadInit E s).1 = bfSuccess

/-- The ways in which a load of added modules goes. -/
inductive LoadRun : Option Int × State → Prop where
  | stackFailed (ne : (loadStack E s).1 ≠ bfSuccess) :
      LoadRun (some (loadStack E s).1, (commonReset E (loadStack E s).2).2)
  | tlsFailed (stack : (loadStack E s).1 = bfSuccess) (ne : (loadTls E s).1 ≠ bfSuccess) :
      LoadRun (some (loadTls E s).1, (commonReset E (loadTls E s).2).2)
  | elfFailed (stack : (loadStack E s).1 = bfSuccess) (tls : (loadTls E s).1 = bfSuccess)
      (ne : (loadElf E s).1 ≠ bfSuccess) : LoadRun (some (loadElf E s).1, (commonReset E (loadElf E s).2).2)
  | initRefused (stack : (loadStack E s).1 = bfSuccess) (tls : (loadTls E s).1 = bfSuccess)
      (elf : (loadElf E s).1 = bfSuccess) (ne : (loadInit E s).1 ≠ bfSuccess) :
      LoadRun (some (loadInit E s).1, (commonReset E (loadInit E s).2).2)
  | modulesFailed {ret : Int} (inited : Initialised E s) (stopped : (loadModules E fuel s).1 = some ret)
      (ne : ret ≠ bfSuccess) : LoadRun (some ret, (commonReset E (loadModules E fuel s).2).2)
  | modulesPending (inited : Initialised E s) (pending : (loadModules E fuel s).1 = none) :
      LoadRun (none, (loadModules E fuel s).2)
  | pagesFailed (inited : Initialised E s) (modules : (loadModules E fuel s).1 = some bfSuccess)
      (ne : (loadPages E fuel s).1 ≠ some bfSuccess) : LoadRun (loadPages E fuel s)
  | loaded (inited : Initialised E s) (modules : (loadModules E fuel s).1 = some bfSuccess)
      (pages : (loadPages E fuel s).1 = some bfSuccess) :
      LoadRun (some bfSuccess, { (loadPages E fuel s).2 with vmmStatus := .loaded })

theorem loadInit_kept : Kept (loadElf E s).2 (loadInit E s).2 := (callVmm_called E .init _).toKept

theorem loadModules_kept : Kept (loadElf E s).2 (loadModules E fuel s).2 :=
  (loadInit_kept E s).trans (moduleLoop_registered E fuel _ _).toKept

theorem loadPages_kept : Kept (loadElf E s).2 (loadPages E fuel s).2 :=
  (loadModules_kept E fuel s).trans (tlsLoop_registered E fuel _).toKept

/-- What the stages that set memory up establish, and calls and a reset keep, holds however a load goes. -/
theorem LoadRun.of_stages {E : Env} {fuel : Nat} {s : State} {r : Option Int × State} {Q : State → Prop}
    (run : LoadRun E fuel s r) (stack : Q (loadStack E s).2) (tls : Q (loadTls E s).2) (elf : Q (loadElf E s).2)
    (kept : ∀ u v, Q u → Kept u v → Q v) (reset : ∀ u, Q u → Q (commonReset E u).2) : Q r.2 := by
  have called : ∀ u, Kept (loadElf E s).2 u → Q u := fun u hk => kept _ u elf hk
  cases run with
  | stackFailed => exact reset _ stack
  | tlsFailed => exact reset _ tls
  | elfFailed => exact reset _ elf
  | initRefused => exact reset _ (called _ (loadInit_kept E s))
  | modulesFailed => exact reset _ (called _ (loadModules_kept E fuel s))
  | modulesPending => exact called _ (loadModules_kept E fuel s)
  | pagesFailed => exact called _ (loadPages_kept E fuel s)
  | loaded => exact called _ ((loadPages_kept E fuel s).of_status .loaded)

end Stages

section Load
variable (E : Env) (fuel : Nat) (s : State)

theorem setupStack_status : (setupStack E s).2.vmmStatus = s.vmmStatus := by
  unfold setupStack
  dsimp only
  split <;> rfl

theorem setupTls_status : (setupTls E s).2.vmmStatus = s.vmmStatus := by
  unfold setupTls
  dsimp only
  split <;> rfl

/-- What `bfelf_load` leaves alone: everything but what it is given pointers to. -/
theorem loadImages_frame (ms : List Binary) (images : List (Option Image)) :
    (loadImages E ms images s).2 = { s with trace := (loadImages E ms images s).2.trace } := by
  induction ms, images, s using loadImages.induct E with
  | case1 m ms image images s exec t ih =>
    rw [loadImages, ih]
    rfl
  | case2 m ms images s ih =>
    rw [loadImages]
    exact ih
  | case3 => rw [loadImages] <;> first | rfl | assumption

theorem bfelfLoad_status : (bfelfLoad E s).2.vmmStatus = s.vmmStatus := by
  unfold bfelfLoad
  dsimp only [State.emit]
  rw [loadImages_frame]

theorem loadElf_status : (loadElf E s).2.vmmStatus = s.vmmStatus :=
  (bfelfLoad_status E _).trans ((setupTls_status E _).trans (setupStack_status E s))

theorem loadInit_status : (loadInit E s).2.vmmStatus = s.vmmStatus :=
  (callVmm_called E .init _).status.trans (loadElf_status E s)

theorem loadModules_status : (loadModules E fuel s).2.vmmStatus = s.vmmStatus :=
  (moduleLoop_registered E fuel _ _).status.trans (loadInit_status E s)

theorem loadPages_status : (loadPages E fuel s).2.vmmStatus = s.vmmStatus :=
  (tlsLoop_registered E fuel _).status.trans (loadModules_status E fuel s)

/-- A load that fails in an unloaded driver resets it. -/
theorem loadFailure_of_unloaded {t : State} (ret : Int) (h : t.vmmStatus = .unloaded) :
    loadFailure E (some ret, t) = (some ret, (commonReset E t).2) := by
  unfold loadFailure
  dsimp only
  rw [commonUnloadVmm_of_unloaded E h]

theorem commonLoadVmm_run (h : s.vmmStatus = .unloaded) (hm : s.numModules ≠ 0) :
    LoadRun E fuel s (commonLoadVmm E fuel s) := by
  have h₁ : (loadStack E s).2.vmmStatus = .unloaded := (setupStack_status E s).trans h
  have h₂ : (loadTls E s).2.vmmStatus = .unloaded := (setupTls_status E _).trans h₁
  have h₃ : (loadElf E s).2.vmmStatus = .unloaded := (loadElf_status E s).trans h
  have h₄ : (loadInit E s).2.vmmStatus = .unloaded := (loadInit_status E s).trans h
  have h₅ : (loadModules E fuel s).2.vmmStatus = .unloaded := (loadModules_status E fuel s).trans h
  unfold commonLoadVmm
  rw [h]
  dsimp only
  rw [if_neg hm]
  split
  · rename_i ne
    rw [loadFailure_of_unloaded E _ h₁]
    exact .stackFailed ne
  rename_i stack
  split
  · rename_i ne
    rw [loadFailure_of_unloaded E _ h₂]
    exact .tlsFailed (not_not.mp stack) ne
  rename_i tls
  split
  · rename_i ne
    rw [loadFailure_of_unloaded E _ h₃]
    exact .elfFailed (not_not.mp stack) (not_not.mp tls) ne
  rename_i elf
  split
  · rename_i ne
    rw [loadFailure_of_unloaded E _ h₄]
    exact .initRefused (not_not.mp stack) (not_not.mp tls) (not_not.mp elf) ne
  rename_i init
  have inited : Initialised E s := ⟨not_not.mp stack, not_not.mp tls, not_not.mp elf, not_not.mp init⟩
  split
  · rename_i ne
    rcases hret : (loadModules E fuel s).1 with _ | ret
    · have pending := LoadRun.modulesPending inited hret
      rw [← hret] at pending
      rw [loadFailure, hret]
      exact pending
    · have hne : ret ≠ bfSuccess := fun he => ne (hret.trans (congrArg some he))
      have failed : loadFailure E (loadModules E fuel s) = (some ret, (commonReset E (loadModules E fuel s).2).2) := by
        rw [← loadFailure_of_unloaded E ret h₅, ← hret]
      show LoadRun E fuel s (loadFailure E (loadModules E fuel s))
      rw [failed]
      exact .modulesFailed inited hret hne
  rename_i modules
  split
  · rename_i ne
    exact .pagesFailed inited (not_not.mp modules) ne
  · rename_i pages
    exact .loaded inited (not_not.mp modules) (not_not.mp pages)

end Load

section Success
variable {E : Env} {fuel : Nat} {s : State}

/-- A load of added modules that reports success went through all stages. -/
theorem LoadRun.of_success {r : Option Int × State} (run : LoadRun E fuel s r) (ok : r.1 = some bfSuccess) :
    Initialised E s ∧ r.2 = { (loadPages E fuel s).2 with vmmStatus := .loaded } := by
  cases run with
  | stackFailed ne => exact absurd (Option.some.inj ok) ne
  | tlsFailed _ ne => exact absurd (Option.some.inj ok) ne
  | elfFailed _ _ ne => exact absurd (Option.some.inj ok) ne
  | initRefused _ _ _ ne => exact absurd (Option.some.inj ok) ne
  | modulesFailed _ _ ne => exact absurd (Option.some.inj ok) ne
  | modulesPending => cases ok
  | pagesFailed _ _ ne => exact absurd ok ne
  | loaded inited => exact ⟨inited, rfl⟩

/-- A load that reports success leaves the VMM loaded. -/
theorem commonLoadVmm_success (ok : (commonLoadVmm E fuel s).1 = some bfSuccess) :
    (commonLoadVmm E fuel s).2.vmmStatus = .loaded := by
  by_cases h : s.vmmStatus = .unloaded ∧ s.numModules ≠ 0
  · rw [((commonLoadVmm_run E fuel s h.1 h.2).of_success ok).2]
  · rw [commonLoadVmm_refused E fuel h]
    unfold commonLoadVmm at ok
    split at ok
    · exact absurd (Option.some.inj ok) (E.sdk.code_ne _)
    · assumption
    · exact absurd (Option.some.inj ok) (E.sdk.code_ne _)
    · rename_i unloaded
      have none : s.numModules = 0 := not_not.mp fun some => h ⟨unloaded, some⟩
      rw [if_pos none] at ok
      exact absurd (Option.some.inj ok) (E.sdk.code_ne _)

end Success

end Bfdriver
