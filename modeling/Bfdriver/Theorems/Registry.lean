import Bfdriver.Theorems.Files

/-! # The module table as a list

What the module table with its counter is for: a list to which a successful `common_add_module` appends
and which `common_reset` empties. In every run the table holds that list, and `bfelf_load` gets it. -/

namespace Bfdriver
open EventLog Runs

/-! ### The list -/

/-- The operation, should it return, gets to a call of `common_reset`: an unload that succeeds, a load that fails
    before it gets to the pages of the TLS, a finalisation that unloads or that finds modules in an unloaded driver. -/
def Resets (E : Env) (fuel : Nat) (s : State) : Op → Prop
  | .unloadVmm => (commonUnloadVmm E s).1 = bfSuccess
  | .loadVmm => s.vmmStatus = .unloaded ∧ s.numModules ≠ 0 ∧
      ¬(Initialised E s ∧ (loadModules E fuel s).1 = some bfSuccess)
  | .fini => (finiStop E s).vmmStatus = .loaded ∧ (commonUnloadVmm E (finiStop E s)).1 = bfSuccess ∨
      (finiUnload E (finiStop E s)).vmmStatus = .unloaded ∧ 0 < (finiUnload E (finiStop E s)).numModules
  | _ => False

/-- The runs with the files that were added since the last reset, in their order. -/
inductive Registry (E : Env) : List (UInt64 × UInt64) → State → Prop where
  | init : Registry E [] (commonInit E (.initial E.sdk)).2
  | added {s t : State} {files : List (UInt64 × UInt64)} (file fsize : UInt64) (before : Registry E files s)
      (returned : commonAddModule E file fsize s = (bfSuccess, t)) : Registry E (files ++ [(file, fsize)]) t
  | reset {s t : State} {files : List (UInt64 × UInt64)} {ret : Int} (fuel : Nat) (op : Op)
      (before : Registry E files s) (returned : exec E fuel op s = (some ret, t)) (resets : Resets E fuel s op) :
      Registry E [] t
  | other {s t : State} {files : List (UInt64 × UInt64)} {ret : Int} (fuel : Nat) (op : Op)
      (before : Registry E files s) (returned : exec E fuel op s = (some ret, t)) (resets : ¬Resets E fuel s op)
      (refused : ∀ file fsize, op = .addModule file fsize → ret ≠ bfSuccess) : Registry E files t

section Registry
variable {E : Env} {files : List (UInt64 × UInt64)} {s t : State}

theorem Registry.reachable (h : Registry E files s) : Reachable E s := by
  induction h with
  | init => exact .init
  | added file fsize before returned ih =>
    exact ih.step 0 (.addModule file fsize) trivial (by simp only [exec, returned]; rfl)
  | reset fuel op before returned resets ih => exact ih.step fuel op trivial returned
  | other fuel op before returned resets refused ih => exact ih.step fuel op trivial returned

/-- Every run has such a list. -/
theorem ReachableBy.registry {P : State → Op → Prop} (h : ReachableBy E P s) : ∃ files, Registry E files s := by
  induction h with
  | init => exact ⟨[], .init⟩
  | @step s t ret fuel op before allowed returned ih =>
    obtain ⟨files, ih⟩ := ih
    by_cases resets : Resets E fuel s op
    · exact ⟨[], ih.reset fuel op returned resets⟩
    · by_cases added : ∃ file fsize, op = .addModule file fsize ∧ ret = bfSuccess
      · obtain ⟨file, fsize, rfl, rfl⟩ := added
        refine ⟨files ++ [(file, fsize)], ih.added file fsize ?_⟩
        simp only [exec, Prod.mk.injEq, Option.some.injEq] at returned
        exact Prod.ext returned.1 returned.2
      · exact ⟨files, ih.other fuel op returned resets fun file fsize hop hret => added ⟨file, fsize, hop, hret⟩⟩

/-! ### Resets and files -/

theorem commonReset_files (E : Env) (s : State) : (commonReset E s).2.files = [] :=
  files_of_numModules (commonReset_numModules E s)

theorem commonUnloadVmm_files_of_success (h : (commonUnloadVmm E s).1 = bfSuccess) :
    (commonUnloadVmm E s).2.files = [] := by
  obtain ⟨u, reset⟩ := commonUnloadVmm_success h
  rw [reset]
  exact commonReset_files E u

theorem commonUnloadVmm_files_of_failure (h : (commonUnloadVmm E s).1 ≠ bfSuccess) :
    (commonUnloadVmm E s).2.files = s.files := by
  rcases hst : s.vmmStatus with _ | _ | _ | _
  · rw [commonUnloadVmm_of_unloaded E hst] at h
    exact absurd rfl h
  · rw [commonUnloadVmm_of_loaded E hst] at h ⊢
    split at h
    · rename_i refused
      rw [if_pos refused]
      exact ((callVmm_called E .fini s).toKept.of_status .corrupt).files
    · exact absurd rfl h
  · rw [commonUnloadVmm_refused E (.inr hst)]
  · rw [commonUnloadVmm_refused E (.inl hst)]

/-- What `common_fini` does after the unload is a reset of a driver that has modules, or nothing. -/
theorem commonFini_files :
    (commonFini E s).2.files =
      if (finiUnload E (finiStop E s)).vmmStatus = .unloaded ∧ 0 < (finiUnload E (finiStop E s)).numModules then []
      else (finiUnload E (finiStop E s)).files := by
  unfold commonFini
  dsimp only
  split
  · rename_i corrupt
    simp [corrupt]
  · split
    · exact commonReset_files E _
    · rfl

theorem finiStop_files : (finiStop E s).files = s.files := by
  unfold finiStop
  split
  · exact (commonStopVmm_kept E s).files
  · rfl

/-- The modules of a load are those of the state it starts from until it is reset. -/
theorem loadElf_files : (loadElf E s).2.files = s.files :=
  (bfelfLoad_files E _).trans (files_of_added ((setupTls_added E _).trans (setupStack_added E s)))

theorem exec_files_of_resets {fuel : Nat} {op : Op} (resets : Resets E fuel s op)
    (returned : (exec E fuel op s).1.isSome) : (exec E fuel op s).2.files = [] := by
  cases op with
  | unloadVmm => exact commonUnloadVmm_files_of_success resets
  | loadVmm =>
    obtain ⟨unloaded, some, failed⟩ := resets
    have run := commonLoadVmm_run E fuel s unloaded some
    change (commonLoadVmm E fuel s).1.isSome at returned
    show (commonLoadVmm E fuel s).2.files = []
    generalize commonLoadVmm E fuel s = r at run returned
    cases run with
    | modulesPending => cases returned
    | pagesFailed inited modules => exact absurd ⟨inited, modules⟩ failed
    | loaded inited modules => exact absurd ⟨inited, modules⟩ failed
    | _ => exact commonReset_files E _
  | fini =>
    show (commonFini E s).2.files = []
    rw [commonFini_files]
    split
    · rfl
    · rename_i kept
      rcases resets with ⟨loaded, success⟩ | reset
      · unfold finiUnload
        rw [if_pos loaded]
        exact commonUnloadVmm_files_of_success success
      · exact absurd reset kept
  | _ => exact resets.elim

theorem exec_files_of_not_resets {fuel : Nat} {op : Op} (resets : ¬Resets E fuel s op)
    (refused : ∀ file fsize, op = .addModule file fsize → (commonAddModule E file fsize s).1 ≠ bfSuccess) :
    (exec E fuel op s).2.files = s.files := by
  cases op with
  | addModule file fsize =>
    show (commonAddModule E file fsize s).2.files = s.files
    rcases commonAddModule_cases E file fsize s with ⟨-, same⟩ | ⟨success, -⟩
    · rw [same]
    · exact absurd success (refused file fsize rfl)
  | loadVmm =>
    show (commonLoadVmm E fuel s).2.files = s.files
    by_cases h : s.vmmStatus = .unloaded ∧ s.numModules ≠ 0
    · obtain ⟨inited, modules⟩ : Initialised E s ∧ (loadModules E fuel s).1 = some bfSuccess :=
        not_not.mp fun failed => resets ⟨h.1, h.2, failed⟩
      have kept : (loadPages E fuel s).2.files = s.files := (loadPages_kept E fuel s).files.trans loadElf_files
      have run := commonLoadVmm_run E fuel s h.1 h.2
      generalize commonLoadVmm E fuel s = r at run
      cases run with
      | stackFailed ne => exact absurd inited.stack ne
      | tlsFailed _ ne => exact absurd inited.tls ne
      | elfFailed _ _ ne => exact absurd inited.elf ne
      | initRefused _ _ _ ne => exact absurd inited.init ne
      | modulesFailed _ stopped ne => exact absurd (Option.some.inj (stopped.symm.trans modules)) ne
      | modulesPending _ pending => cases pending.symm.trans modules
      | pagesFailed => exact kept
      | loaded => exact kept
    · rw [commonLoadVmm_refused E fuel h]
  | unloadVmm => exact commonUnloadVmm_files_of_failure resets
  | startVmm => exact (commonStartVmm_kept E s).files
  | stopVmm => exact (commonStopVmm_kept E s).files
  | dumpVmm drr vcpuid => exact (commonDumpVmm_kept E s drr vcpuid).files
  | fini =>
    show (commonFini E s).2.files = s.files
    rw [commonFini_files, if_neg fun reset => resets (.inr reset)]
    unfold finiUnload
    split
    · rename_i loaded
      exact (commonUnloadVmm_files_of_failure fun success => resets (.inl ⟨loaded, success⟩)).trans finiStop_files
    · exact finiStop_files

/-! ### What the loader gets -/

/-- A call of `bfelf_load` gets the files of a list. -/
def LoadsFiles (files : List (UInt64 × UInt64)) : Event → Prop
  | .bfelfLoad given _ => given = files
  | _ => True

theorem Kept.loadsFiles (h : Kept s t) (files : List (UInt64 × UInt64)) : Grew (LoadsFiles files) s.trace t.trace :=
  h.grew.mono fun e he => by cases e <;> trivial

theorem commonReset_loadsFiles (s : State) (files : List (UInt64 × UInt64)) :
    Grew (LoadsFiles files) s.trace (commonReset E s).2.trace :=
  (commonReset_grew E s).mono fun e he => by cases e <;> trivial

theorem loadsFiles_of_prepares (files : List (UInt64 × UInt64)) {e : Event} (h : Prepares e) : LoadsFiles files e := by
  cases e <;> trivial

theorem bfelfLoad_loadsFiles (s : State) : Grew (LoadsFiles s.files) s.trace (bfelfLoad E s).2.trace := by
  unfold bfelfLoad
  exact ((loadImages_grew E s _ _).mono fun _ he => loadsFiles_of_prepares s.files he.prepares).cons rfl

theorem Effect.loadsFiles {fuel : Nat} {op : Op} (effect : Effect E fuel op s t) :
    Grew (LoadsFiles s.files) s.trace t.trace := by
  cases effect with
  | kept kept => exact kept.loadsFiles _
  | added => exact .refl _
  | reset kept => exact (kept.loadsFiles _).trans (commonReset_loadsFiles _ _)
  | load isLoad unloaded some run =>
    have files : (loadTls E s).2.files = s.files :=
      files_of_added ((setupTls_added E _).trans (setupStack_added E s))
    have stack := (setupStack_prepares E s).mono fun _ => loadsFiles_of_prepares s.files
    have tls := stack.trans ((setupTls_prepares E _).mono fun _ => loadsFiles_of_prepares s.files)
    have elf := tls.trans (files ▸ bfelfLoad_loadsFiles (E := E) (loadTls E s).2)
    exact run.of_stages (Q := fun u => Grew (LoadsFiles s.files) s.trace u.trace) stack tls elf
      (fun _ _ hu hk => hu.trans (hk.loadsFiles _)) fun _ hu => hu.trans (commonReset_loadsFiles _ _)

end Registry

/-! ### The table refines the list -/

/-- The table has its slots, and the files in those that are used are the ones of the list. -/
structure Holds (k : Sdk) (s : State) (files : List (UInt64 × UInt64)) : Prop where
  slots : s.modules.length = k.maxNumModules
  bound : s.numModules ≤ k.maxNumModules
  count : s.numModules = files.length
  files : s.files = files

theorem Registry.files {E : Env} {files : List (UInt64 × UInt64)} {s : State} (h : Registry E files s) :
    s.files = files := by
  induction h with
  | init => exact commonReset_files E _
  | @added s t files file fsize before returned ih =>
    rcases commonAddModule_cases E file fsize s with ⟨refused, -⟩ | ⟨-, -, room, more⟩
    · exact absurd (congrArg Prod.fst returned) refused
    · rw [returned] at more
      obtain rfl : t = s.withModule file fsize := more
      rw [withModule_files before.reachable.memoryInv.slots room, ih]
  | reset fuel op before returned resets ih =>
    have empty := exec_files_of_resets resets (by rw [returned]; rfl)
    rwa [returned] at empty
  | other fuel op before returned resets refused ih =>
    have same := exec_files_of_not_resets resets fun file fsize hop hret => by
      subst hop
      exact refused file fsize rfl (Option.some.inj ((congrArg Prod.fst returned).symm.trans (congrArg some hret)))
    rw [returned] at same
    exact same.trans ih

theorem Registry.holds {E : Env} {files : List (UInt64 × UInt64)} {s : State} (h : Registry E files s) :
    Holds E.sdk s files := by
  have slots := h.reachable.memoryInv.slots
  refine ⟨slots.length, slots.le, ?_, h.files⟩
  have length := congrArg List.length h.files
  rw [State.files, List.length_map, State.added, List.length_take, slots.length] at length
  have := slots.le
  omega

/-- In every run the table holds the list of the files that were added since the last reset, an addition that fails
    changes nothing, one that succeeds writes a slot inside the table, and the loader gets exactly the list. -/
theorem registry_refines {E : Env} {files : List (UInt64 × UInt64)} {s : State} (h : Registry E files s) :
    Holds E.sdk s files ∧
      (∀ file fsize, (commonAddModule E file fsize s).1 ≠ bfSuccess → (commonAddModule E file fsize s).2 = s) ∧
      (∀ file fsize, (commonAddModule E file fsize s).1 = bfSuccess →
        s.numModules < E.sdk.maxNumModules ∧ (commonAddModule E file fsize s).2 = s.withModule file fsize) ∧
      ∀ fuel op, Grew (LoadsFiles files) s.trace (exec E fuel op s).2.trace := by
  refine ⟨h.holds, fun file fsize refused => ?_, fun file fsize success => ?_, fun fuel op => ?_⟩
  · rcases commonAddModule_cases E file fsize s with ⟨-, same⟩ | ⟨success, -⟩
    · exact same
    · exact absurd success refused
  · rcases commonAddModule_cases E file fsize s with ⟨refused, -⟩ | ⟨-, -, room, more⟩
    · exact absurd success refused
    · exact ⟨room, more⟩
  · rw [← h.files]
    exact (exec_effect E fuel op s).loadsFiles

/-- A load that the VMM refuses between two additions leaves the second in the list. -/
theorem registry_refines_after_failure :
    let E := testEnv { enter := fun _ req => if req = .init then -1 else bfSuccess }
    let s := after E 8 [.addModule 0x5000 100, .loadVmm, .addModule 0x7000 8]
    Holds E.sdk s [(0x7000, 8)] ∧ Grew (LoadsFiles [(0x7000, 8)]) s.trace (exec E 8 .loadVmm s).2.trace := by
  intro E s
  have added : Registry E [(0x5000, 100)] (after E 8 [.addModule 0x5000 100]) :=
    Registry.init.added 0x5000 100 (by decide +kernel)
  have failed : Registry E [] (after E 8 [.addModule 0x5000 100, .loadVmm]) := by
    have returned : exec E 8 .loadVmm (after E 8 [.addModule 0x5000 100]) =
        (some (-1), after E 8 [.addModule 0x5000 100, .loadVmm]) := by decide +kernel
    refine added.reset 8 .loadVmm returned ⟨by decide +kernel, by decide +kernel, fun loaded => ?_⟩
    exact absurd loaded.1.init (by decide +kernel)
  have again : Registry E [(0x7000, 8)] s := failed.added 0x7000 8 (by decide +kernel)
  exact ⟨(registry_refines again).1, (registry_refines again).2.2.2 8 .loadVmm⟩

end Bfdriver
