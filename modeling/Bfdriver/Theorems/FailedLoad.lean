import Bfdriver.Theorems.Finalise
import Bfdriver.Theorems.Setup

/-! # What a load that fails leaves

All stages of a load but the last leave by the label `failure`, which resets the driver: the allocations of the load
are the pointers that the reset releases. A page of the TLS that is refused leaves at once, with everything in place. -/

namespace Bfdriver
open EventLog

/-! ### The allocations of a load -/

/-- An allocation that succeeds gives one of the pointers of a list. -/
def AllocatesIn (ps : Pointers) : Event → Prop
  | .alloc _ _ a => a ≠ 0 → ∃ p ∈ ps, p.1 = a
  | _ => True

theorem AllocatesIn.mono {ps qs : Pointers} {e : Event} (h : AllocatesIn ps e) (sub : ps ⊆ qs) : AllocatesIn qs e := by
  cases e with
  | alloc site len a =>
    intro ne
    obtain ⟨p, hp, same⟩ := h ne
    exact ⟨p, sub hp, same⟩
  | _ => trivial

theorem allocatesIn_pointerAt (site : AllocSite) (len a : UInt64) :
    AllocatesIn (pointerAt site a len) (.alloc site len a) := by
  intro ne
  refine ⟨(a, ⟨site, len⟩), ?_, rfl⟩
  rw [pointerAt, if_pos ne]
  exact List.mem_singleton_self _

section Stages
variable (E : Env) (s : State)

theorem setupStack_allocates : Grew (AllocatesIn (pointerAt .stack (setupStack E s).2.stack (setupStack E s).2.stackSize))
    s.trace (setupStack E s).2.trace := by
  have allocated := (Grew.refl s.trace).cons
    (allocatesIn_pointerAt .stack (E.sdk.stackSize * 2) (E.alloc s.trace .rw (E.sdk.stackSize * 2)))
  unfold setupStack
  dsimp only
  split
  · exact allocated
  · exact allocated.cons (e := .memset _ _) trivial

theorem setupTls_allocates : Grew (AllocatesIn (pointerAt .tls (setupTls E s).2.tls (setupTls E s).2.tlsSize))
    s.trace (setupTls E s).2.trace := by
  have allocated := ((Grew.refl s.trace).cons (e := .numCpus (E.numCpus s.trace)) trivial).cons
    (allocatesIn_pointerAt .tls (newTlsSize E s) (newTls E s))
  unfold setupTls
  dsimp only
  split
  · exact allocated
  · exact allocated.cons (e := .memset _ _) trivial

theorem loadImages_allocates (ms : List Binary) (images : List (Option Image)) :
    Grew (AllocatesIn (execPointers (loadImages E ms images s).1)) s.trace (loadImages E ms images s).2.trace := by
  induction ms, images, s using loadImages.induct E with
  | case1 m ms image images s exec t ih =>
    rw [loadImages]
    dsimp only
    rw [execPointers_cons]
    have first : Grew (AllocatesIn (pointerAt .exec exec image.size)) s.trace t.trace :=
      (Grew.refl _).cons (allocatesIn_pointerAt .exec image.size exec)
    exact (first.mono fun e he => he.mono (List.subset_append_left _ _)).trans
      (ih.mono fun e he => he.mono (List.subset_append_right _ _))
  | case2 m ms images s ih =>
    rw [loadImages]
    dsimp only
    rw [execPointers_cons]
    exact ih.mono fun e he => he.mono (List.subset_append_right _ _)
  | case3 => rw [loadImages] <;> first | exact Grew.refl _ | assumption

/-- The allocations of the stages that set memory up are pointers of the state that each of them leaves. -/
theorem loadStack_allocates : Grew (AllocatesIn (loadStack E s).2.pointers) s.trace (loadStack E s).2.trace :=
  (setupStack_allocates E s).mono fun _ he => he.mono fun _ hp => List.mem_append_right _ (List.mem_append_right _ hp)

theorem loadTls_allocates : Grew (AllocatesIn (loadTls E s).2.pointers) s.trace (loadTls E s).2.trace := by
  have same := setupTls_sameStack E (loadStack E s).2
  have stack := setupStack_allocates E s
  rw [← same.stack, ← same.stackSize] at stack
  exact (stack.mono fun e he => he.mono fun p hp => List.mem_append_right _ (List.mem_append_right _ hp)).trans
    ((setupTls_allocates E _).mono fun e he => he.mono fun p hp =>
      List.mem_append_right _ (List.mem_append_left _ hp))

theorem loadElf_allocates : Grew (AllocatesIn (loadElf E s).2.pointers) s.trace (loadElf E s).2.trace := by
  have stack := setupStack_allocates E s
  have tls := setupTls_allocates E (loadStack E s).2
  have same := setupTls_sameStack E (loadStack E s).2
  rw [← same.stack, ← same.stackSize] at stack
  have images := loadImages_allocates E (loadTls E s).2 (loadTls E s).2.added
    (E.bfelfLoad (loadTls E s).2.trace (loadTls E s).2.added).images
  have all : Grew (AllocatesIn (loadElf E s).2.pointers) s.trace
      (loadImages E (loadTls E s).2.added (E.bfelfLoad (loadTls E s).2.trace (loadTls E s).2.added).images
        (loadTls E s).2).2.trace := by
    rw [bfelfLoad_pointers]
    exact ((stack.mono fun e he => he.mono fun p hp => List.mem_append_right _ (List.mem_append_right _ hp)).trans
      (tls.mono fun e he => he.mono fun p hp => List.mem_append_right _ (List.mem_append_left _ hp))).trans
      (images.mono fun e he => he.mono fun p hp => List.mem_append_left _ hp)
  exact all.cons (e := .bfelfLoad _ _) trivial

end Stages

theorem Kept.allocates {t : Trace} {u v : State} (h : Kept u v) (before : Grew (AllocatesIn u.pointers) t u.trace) :
    Grew (AllocatesIn v.pointers) t v.trace := by
  rw [h.pointers]
  exact before.trans (h.grew.mono fun e he => by cases e <;> trivial)

/-! ### Clean failures -/

/-- Nothing is left of an allocation. -/
def FreedBy (t : Trace) : Event → Prop
  | .alloc _ _ a => a ≠ 0 → heap t a = none
  | _ => True

/-- The driver is unloaded, without modules and without a VMM, and the allocations since `s` were released. -/
structure CleanlyUnloaded (s t : State) : Prop where
  status : t.vmmStatus = .unloaded
  numModules : t.numModules = 0
  start : t.start = 0
  stack : t.stack = 0
  tls : t.tls = 0
  loader : t.loader = []
  info : t.info = {}
  freed : Grew (FreedBy t.trace) s.trace t.trace

/-- The load has gone through all stages but the last, so that only a page of the TLS can still be refused. -/
structure GetsToTls (E : Env) (fuel : Nat) (s : State) : Prop where
  inited : Initialised E s
  modules : (loadModules E fuel s).1 = some bfSuccess

section Failure
variable {E : Env} {fuel : Nat} {s u : State} {ret : Int}

theorem cleanlyUnloaded_reset (allocates : Grew (AllocatesIn u.pointers) s.trace u.trace) :
    CleanlyUnloaded s (commonReset E u).2 := by
  rw [commonReset_eq]
  refine ⟨rfl, rfl, rfl, rfl, rfl, rfl, rfl, (allocates.mono fun e he => ?_).trans ?_⟩
  · cases e with
    | alloc site len a =>
      intro ne
      obtain ⟨p, hp, rfl⟩ := he ne
      exact heap_releases_mem hp
    | _ => trivial
  · exact (releases_grew u.pointers u.trace).mono fun e he => by cases e <;> trivial

/-- A load that fails before the pages of the TLS is cleaned up. -/
theorem LoadRun.cleanlyUnloaded {r : Option Int × State} (run : LoadRun E fuel s r) (failed : r.1 = some ret)
    (ne : ret ≠ bfSuccess) (early : ¬GetsToTls E fuel s) : CleanlyUnloaded s r.2 := by
  have elf := loadElf_allocates E s
  cases run with
  | stackFailed => exact cleanlyUnloaded_reset (loadStack_allocates E s)
  | tlsFailed => exact cleanlyUnloaded_reset (loadTls_allocates E s)
  | elfFailed => exact cleanlyUnloaded_reset elf
  | initRefused => exact cleanlyUnloaded_reset ((loadInit_kept E s).allocates elf)
  | modulesFailed => exact cleanlyUnloaded_reset ((loadModules_kept E fuel s).allocates elf)
  | modulesPending => cases failed
  | pagesFailed inited modules => exact absurd ⟨inited, modules⟩ early
  | loaded => exact absurd (Option.some.inj failed).symm ne

theorem loadPages_numModules (E : Env) (fuel : Nat) (s : State) : (loadPages E fuel s).2.numModules = s.numModules := by
  rw [(loadPages_kept E fuel s).numModules, (bfelfLoad_frame E _).2.2, (setupTls_modules E _).2,
    (setupStack_modules E s).2]

/-- A load that a page of the TLS fails keeps its modules. -/
theorem LoadRun.keepsModules {r : Option Int × State} (run : LoadRun E fuel s r) (failed : r.1 = some ret)
    (ne : ret ≠ bfSuccess) (late : GetsToTls E fuel s) : r.2.numModules = s.numModules := by
  cases run with
  | stackFailed ne => exact absurd late.inited.stack ne
  | tlsFailed stack ne => exact absurd late.inited.tls ne
  | elfFailed stack tls ne => exact absurd late.inited.elf ne
  | initRefused stack tls elf ne => exact absurd late.inited.init ne
  | modulesFailed inited stopped ne => exact absurd (Option.some.inj (stopped.symm.trans late.modules)) ne
  | modulesPending => cases failed
  | pagesFailed => exact loadPages_numModules E fuel s
  | loaded => exact absurd (Option.some.inj failed).symm ne

end Failure

/-- A load of at least one module that fails leaves the driver cleanly unloaded exactly if it does not fail on a page of
    the TLS. -/
theorem failed_load_clean_iff {E : Env} {fuel : Nat} {s : State} {ret : Int} (unloaded : s.vmmStatus = .unloaded)
    (some : s.numModules ≠ 0) (failed : (commonLoadVmm E fuel s).1 = .some ret) (ne : ret ≠ bfSuccess) :
    CleanlyUnloaded s (commonLoadVmm E fuel s).2 ↔ ¬GetsToTls E fuel s := by
  have run := commonLoadVmm_run E fuel s unloaded some
  refine ⟨fun clean late => some ?_, run.cleanlyUnloaded failed ne⟩
  rw [← run.keepsModules failed ne late]
  exact clean.numModules

/-- The VMM refuses `BF_REQUEST_INIT`. -/
theorem failed_load_clean_of_init :
    let E := testEnv { enter := fun _ _ => -1 }
    let s := after E 8 [.addModule 0x5000 100]
    CleanlyUnloaded s (commonLoadVmm E 8 s).2 := by
  intro E s
  have init : (loadInit E s).1 ≠ bfSuccess := by decide +kernel
  have failed : (commonLoadVmm E 8 s).1 = some (-1) := by decide +kernel
  exact (failed_load_clean_iff (by decide +kernel) (by decide +kernel) failed (by decide)).mpr
    fun late => init late.inited.init

/-- The VMM refuses the first page of the TLS, and the driver keeps its module, its stack and its entry point. -/
theorem not_clean_of_refused_tls :
    let E := testEnv { enter := fun t _ => if (signals t).length = 2 then -1 else bfSuccess }
    let s := after E 8 [.addModule 0x5000 100]
    (commonLoadVmm E 8 s).1 = some (-1) ∧ ¬CleanlyUnloaded s (commonLoadVmm E 8 s).2 := by
  intro E s
  have kept : (commonLoadVmm E 8 s).2.numModules = 1 := by decide +kernel
  refine ⟨by decide +kernel, fun clean => ?_⟩
  rw [clean.numModules] at kept
  cases kept

end Bfdriver
