import Bfdriver.Theorems.Status

/-! # What an operation does to memory

Each operation leaves the memory that the globals name as it is, adds a module, resets the globals, or
loads. An unloaded VMM is not entered but by a load. -/

namespace Bfdriver

/-! ### The loops over the CPUs keep memory -/

section Kept
variable (E : Env) (s : State)

theorem stopCpu_kept (c : Int) : Kept s (stopCpu E c s).2 := by
  unfold stopCpu
  dsimp only
  have placed := (Kept.refl s).emit (e := .setAffinity c (E.setAffinity s.trace c)) trivial
  split
  · exact placed
  · have stopped := placed.emit
      (e := .vmcall .stop c (E.vmcall (s.emit (.setAffinity c (E.setAffinity s.trace c))).trace .stop)) trivial
    split
    · exact stopped
    · have called := stopped.trans (callVmm_called E (.vmmFini c) _).toKept
      split
      · exact called
      · exact ((called.of_started _).emit (e := .platformStop) trivial).emit trivial

theorem stopLoop_kept : ∀ (n : Nat) (s : State), Kept s (stopLoop E n s).2
  | 0, s => .refl s
  | n + 1, s => by
    unfold stopLoop
    dsimp only
    split
    · exact (stopCpu_kept E s n).trans (stopLoop_kept n _)
    · exact stopCpu_kept E s n

theorem commonStopVmm_kept : Kept s (commonStopVmm E s).2 := by
  by_cases hrun : s.vmmStatus = .running
  · have loop := stopLoop_kept E s.numCpusStarted.toNat s
    rw [commonStopVmm_of_running E hrun]
    unfold stopExit
    split
    · exact loop.of_status _
    · exact loop.of_status _
    · exact loop
  · rw [commonStopVmm_refused E hrun]
    exact .refl s

theorem startCpu_kept (c : Int) : Kept s (startCpu E c s).2 := by
  unfold startCpu
  dsimp only
  have placed := (Kept.refl s).emit (e := .setAffinity c (E.setAffinity s.trace c)) trivial
  split
  · exact placed
  · have called := placed.trans (callVmm_called E (.vmmInit c) _).toKept
    split
    · exact called
    · generalize (callVmm E (.vmmInit c) (s.emit (.setAffinity c (E.setAffinity s.trace c)))).2 = t at called ⊢
      have started := (called.of_started (t.numCpusStarted + 1)).emit
        (e := .vmcall .start c (E.vmcall t.trace .start)) trivial
      split
      · exact started
      · have restored := (started.emit (e := .platformStart) trivial).emit
          (e := .restoreAffinity (E.setAffinity s.trace c)) trivial
        exact restored.of_status .running

theorem startLoop_kept : ∀ (rounds : Nat) (c : Int) (s : State), Kept s (startLoop E rounds c s).2
  | 0, _, s => (Kept.refl s).emit trivial
  | rounds + 1, c, s => by
    have asked := (Kept.refl s).emit (e := .numCpus (E.numCpus s.trace)) trivial
    unfold startLoop
    dsimp only
    split
    · have round := asked.trans (startCpu_kept E _ c)
      split
      · exact round.trans (startLoop_kept rounds (c + 1) _)
      · exact round
    · exact asked

theorem commonStartVmm_kept : Kept s (commonStartVmm E s).2 := by
  by_cases hst : s.vmmStatus = .loaded
  · have loop := ((Kept.refl s).of_started 0).trans (startLoop_kept E maxCpus 0 _)
    rw [commonStartVmm_of_loaded E hst]
    unfold startExit
    split
    · exact loop
    · exact loop.trans (commonStopVmm_kept E _)
    · exact loop
  · rw [commonStartVmm_refused E hst]
    exact .refl s

theorem commonDumpVmm_kept (drr vcpuid : UInt64) : Kept s (commonDumpVmm E drr vcpuid s).2 := by
  rcases commonDumpVmm_cases E drr vcpuid s with same | ⟨-, called⟩
  · rw [same]
    exact .refl s
  · rw [called]
    exact (callVmm_called E _ s).toKept

end Kept

/-! ### The effects of an operation -/

/-- How an operation changes the memory that the globals name. -/
inductive Effect (E : Env) (fuel : Nat) (op : Op) (s : State) : State → Prop where
  | kept {t : State} (kept : Kept s t)
      (active : t = s ∨ s.vmmStatus ≠ .unloaded ∧ t.vmmStatus ≠ .unloaded) : Effect E fuel op s t
  | added (file fsize : UInt64) (unloaded : s.vmmStatus = .unloaded) (room : s.numModules < E.sdk.maxNumModules) :
      Effect E fuel op s (s.withModule file fsize)
  | reset {u : State} (kept : Kept s u) (finalised : s.vmmStatus = .unloaded ∧ u = s ∨
      s.vmmStatus ≠ .unloaded ∧ ∃ res l, signals u.trace = .accepted res .fini :: l) :
      Effect E fuel op s (commonReset E u).2
  | load (isLoad : op = .loadVmm) (unloaded : s.vmmStatus = .unloaded) (some : s.numModules ≠ 0)
      (run : LoadRun E fuel s (commonLoadVmm E fuel s)) : Effect E fuel op s (commonLoadVmm E fuel s).2

section Effects
variable {E : Env} {fuel : Nat} {op : Op} {s t u : State}

theorem Effect.refl (E : Env) (fuel : Nat) (op : Op) (s : State) : Effect E fuel op s s := .kept (.refl s) (.inl rfl)

/-- What follows calls in an active state has the effect of the whole. -/
theorem Effect.of_kept (h : Kept s t) (hs : s.vmmStatus ≠ .unloaded) (ht : t.vmmStatus ≠ .unloaded)
    (next : Effect E fuel op t u) : Effect E fuel op s u := by
  cases next with
  | kept kept active =>
    rcases active with rfl | ⟨-, active⟩
    · exact .kept h (.inr ⟨hs, ht⟩)
    · exact .kept (h.trans kept) (.inr ⟨hs, active⟩)
  | added file fsize unloaded room => exact absurd unloaded ht
  | reset kept finalised =>
    rcases finalised with ⟨unloaded, -⟩ | ⟨-, finalised⟩
    · exact absurd unloaded ht
    · exact .reset (h.trans kept) (.inr ⟨hs, finalised⟩)
  | load isLoad unloaded some run => exact absurd unloaded ht

theorem commonAddModule_effect (E : Env) (fuel : Nat) (op : Op) (file fsize : UInt64) (s : State) :
    Effect E fuel op s (commonAddModule E file fsize s).2 := by
  rcases commonAddModule_cases E file fsize s with ⟨-, same⟩ | ⟨-, unloaded, room, more⟩
  · rw [same]
    exact .refl E fuel op s
  · rw [more]
    exact .added file fsize unloaded room

theorem commonLoadVmm_effect (E : Env) (fuel : Nat) (s : State) :
    Effect E fuel .loadVmm s (commonLoadVmm E fuel s).2 := by
  by_cases h : s.vmmStatus = .unloaded ∧ s.numModules ≠ 0
  · exact .load rfl h.1 h.2 (commonLoadVmm_run E fuel s h.1 h.2)
  · rw [commonLoadVmm_refused E fuel h]
    exact .refl E fuel _ s

theorem commonReset_numModules (E : Env) (s : State) : (commonReset E s).2.numModules = 0 := by
  rw [commonReset_eq]
  rfl

theorem commonUnloadVmm_effect (E : Env) (fuel : Nat) (op : Op) (s : State) :
    Effect E fuel op s (commonUnloadVmm E s).2 := by
  rcases hst : s.vmmStatus with _ | _ | _ | _
  · rw [commonUnloadVmm_of_unloaded E hst]
    exact .reset (.refl s) (.inl ⟨hst, rfl⟩)
  · have active : s.vmmStatus ≠ .unloaded := by simp [hst]
    have called := (callVmm_called E .fini s).toKept
    rw [commonUnloadVmm_of_loaded E hst]
    split
    · exact .kept (called.of_status _) (.inr ⟨active, by simp⟩)
    · rename_i hret
      refine .reset called (.inr ⟨active, s.resources, signals s.trace, ?_⟩)
      rw [callVmm_signals, if_pos (not_not.mp hret)]
  · rw [commonUnloadVmm_refused E (.inr hst)]
    exact .refl E fuel op s
  · rw [commonUnloadVmm_refused E (.inl hst)]
    exact .refl E fuel op s

theorem commonStopVmm_effect (E : Env) (fuel : Nat) (op : Op) (s : State) :
    Effect E fuel op s (commonStopVmm E s).2 := by
  refine .kept (commonStopVmm_kept E s) ?_
  by_cases hst : s.vmmStatus = .unloaded
  · exact .inl (exec_of_refused E fuel .stopVmm (by simp [Op.refusedIn, hst]))
  · rcases commonStopVmm_status E s with h | ⟨-, h | h⟩
    · exact .inr ⟨hst, h ▸ hst⟩
    · exact .inr ⟨hst, by simp [h]⟩
    · exact .inr ⟨hst, by simp [h]⟩

theorem commonStartVmm_effect (E : Env) (fuel : Nat) (op : Op) (s : State) :
    Effect E fuel op s (commonStartVmm E s).2 := by
  refine .kept (commonStartVmm_kept E s) ?_
  by_cases hst : s.vmmStatus = .unloaded
  · exact .inl (exec_of_refused E fuel .startVmm (by simp [Op.refusedIn, hst]))
  · rcases commonStartVmm_status E s with h | ⟨-, h | h⟩
    · exact .inr ⟨hst, h ▸ hst⟩
    · exact .inr ⟨hst, by simp [h]⟩
    · exact .inr ⟨hst, by simp [h]⟩

theorem commonDumpVmm_effect (E : Env) (fuel : Nat) (op : Op) (drr vcpuid : UInt64) (s : State) :
    Effect E fuel op s (commonDumpVmm E drr vcpuid s).2 := by
  refine .kept (commonDumpVmm_kept E s drr vcpuid) ?_
  by_cases hst : s.vmmStatus = .unloaded
  · exact .inl (exec_of_refused E fuel (.dumpVmm drr vcpuid) (by simp [Op.refusedIn, hst]))
  · exact .inr ⟨hst, (commonDumpVmm_status E s drr vcpuid).symm ▸ hst⟩

/-- What `common_fini` does once a running VMM was stopped. -/
theorem finiUnload_effect (E : Env) (fuel : Nat) (op : Op) (s : State) :
    Effect E fuel op s (finiUnload E s) := by
  unfold finiUnload
  split
  · exact commonUnloadVmm_effect E fuel op s
  · exact .refl E fuel op s

/-- An unload that succeeds ends with a reset. -/
theorem commonUnloadVmm_success (h : (commonUnloadVmm E s).1 = bfSuccess) :
    ∃ u, (commonUnloadVmm E s).2 = (commonReset E u).2 := by
  rcases hst : s.vmmStatus with _ | _ | _ | _
  · rw [commonUnloadVmm_of_unloaded E hst]
    exact ⟨s, rfl⟩
  · rw [commonUnloadVmm_of_loaded E hst] at h ⊢
    split at h
    · exact absurd h (E.sdk.code_ne _)
    · rename_i accepted
      rw [if_neg accepted]
      exact ⟨_, rfl⟩
  · unfold commonUnloadVmm at h
    rw [hst] at h
    exact absurd h (E.sdk.code_ne _)
  · unfold commonUnloadVmm at h
    rw [hst] at h
    exact absurd h (E.sdk.code_ne _)

theorem commonUnloadVmm_numModules (h : (commonUnloadVmm E s).2.vmmStatus = .unloaded) :
    (commonUnloadVmm E s).2.numModules = 0 := by
  rcases hst : s.vmmStatus with _ | _ | _ | _
  · rw [commonUnloadVmm_of_unloaded E hst]
    exact commonReset_numModules E s
  · rw [commonUnloadVmm_of_loaded E hst] at h ⊢
    split at h
    · cases h
    · rename_i hret
      rw [if_neg hret]
      exact commonReset_numModules E _
  · rw [commonUnloadVmm_refused E (.inr hst), hst] at h
    cases h
  · rw [commonUnloadVmm_refused E (.inl hst), hst] at h
    cases h

/-- Modules are left to `common_fini` only if there was nothing to stop and to unload. -/
theorem finiUnload_of_modules (h : (finiUnload E (finiStop E s)).vmmStatus = .unloaded)
    (hm : 0 < (finiUnload E (finiStop E s)).numModules) : s.vmmStatus = .unloaded ∧ finiUnload E (finiStop E s) = s := by
  by_cases hst : s.vmmStatus = .unloaded
  · exact ⟨hst, by simp [finiUnload, finiStop, hst]⟩
  · have active : (finiStop E s).vmmStatus ≠ .unloaded := by
      unfold finiStop
      split
      · rename_i hrun
        rcases commonStopVmm_status E s with h | ⟨-, h | h⟩ <;> simp [h, hrun]
      · exact hst
    unfold finiUnload at h hm
    split at h
    · rename_i hloaded
      rw [if_pos hloaded, commonUnloadVmm_numModules h] at hm
      exact absurd hm (Nat.lt_irrefl 0)
    · exact absurd h active

theorem commonFini_effect (E : Env) (fuel : Nat) (op : Op) (s : State) :
    Effect E fuel op s (commonFini E s).2 := by
  have unloaded : Effect E fuel op s (finiUnload E (finiStop E s)) := by
    unfold finiStop
    split
    · rename_i hrun
      have active : (commonStopVmm E s).2.vmmStatus ≠ .unloaded := by
        rcases commonStopVmm_status E s with h | ⟨-, h | h⟩ <;> simp [h, hrun]
      exact .of_kept (commonStopVmm_kept E s) (by simp [hrun]) active (finiUnload_effect E fuel op _)
    · exact finiUnload_effect E fuel op s
  unfold commonFini
  dsimp only
  split
  · exact unloaded
  · split
    · rename_i hst
      obtain ⟨hunloaded, same⟩ := finiUnload_of_modules hst.1 hst.2
      rw [same]
      exact .reset (.refl s) (.inl ⟨hunloaded, rfl⟩)
    · exact unloaded

theorem exec_effect (E : Env) (fuel : Nat) (op : Op) (s : State) : Effect E fuel op s (exec E fuel op s).2 := by
  cases op with
  | addModule file fsize => exact commonAddModule_effect E fuel _ file fsize s
  | loadVmm => exact commonLoadVmm_effect E fuel s
  | unloadVmm => exact commonUnloadVmm_effect E fuel _ s
  | startVmm => exact commonStartVmm_effect E fuel _ s
  | stopVmm => exact commonStopVmm_effect E fuel _ s
  | dumpVmm drr vcpuid => exact commonDumpVmm_effect E fuel _ drr vcpuid s
  | fini => exact commonFini_effect E fuel _ s

end Effects

/-! ### The steps of `common_fini` -/

section Steps
variable {E : Env} {s : State}

theorem commonFini_of_corrupt (h : s.vmmStatus = .corrupt) : commonFini E s = (E.sdk.code .vmmCorrupted, s) := by
  simp [commonFini, finiStop, finiUnload, h]

theorem commonFini_of_unloaded (h : s.vmmStatus = .unloaded) :
    commonFini E s = (bfSuccess, if 0 < s.numModules then (commonReset E s).2 else s) := by
  by_cases hm : 0 < s.numModules <;> simp [commonFini, finiStop, finiUnload, h, hm]

theorem commonFini_of_loaded (h : s.vmmStatus = .loaded) : commonFini E s = commonUnloadVmm E s := by
  have unload : finiUnload E (finiStop E s) = (commonUnloadVmm E s).2 := by simp [finiUnload, finiStop, h]
  unfold commonFini
  rw [unload, commonUnloadVmm_of_loaded E h]
  split
  · simp
  · simp [commonReset_status, commonReset_numModules]

/-- After a stop that did not leave the VMM running, `common_fini` goes on as from the state it left. -/
theorem commonFini_of_stopped (h : s.vmmStatus = .running) (hs : (commonStopVmm E s).2.vmmStatus ≠ .running) :
    commonFini E s = commonFini E (commonStopVmm E s).2 := by
  have first : finiStop E s = (commonStopVmm E s).2 := by simp [finiStop, h]
  have again : finiStop E (commonStopVmm E s).2 = (commonStopVmm E s).2 := by simp [finiStop, hs]
  unfold commonFini
  rw [first, again]

theorem commonFini_of_running (h : s.vmmStatus = .running) (hs : (commonStopVmm E s).2.vmmStatus = .running) :
    commonFini E s = (bfSuccess, (commonStopVmm E s).2) := by
  simp [commonFini, finiStop, finiUnload, h, hs]

end Steps

/-- The VMM is corrupt, or refuses to be finalised. -/
def Refuses (E : Env) (s : State) : Prop :=
  s.vmmStatus = .corrupt ∨ s.vmmStatus = .loaded ∧ (callVmm E .fini s).1 ≠ bfSuccess

/-- The ways in which a finalisation goes, by the state that its first step leaves. -/
inductive FiniRun (E : Env) (s : State) : Int × State → Prop where
  | reset {u : State} (settles : ¬Refuses E (finiStop E s) ∧ (finiStop E s).vmmStatus ≠ .running) :
      FiniRun E s (bfSuccess, (commonReset E u).2)
  | idle (unloaded : s.vmmStatus = .unloaded) (none : s.numModules = 0) : FiniRun E s (bfSuccess, s)
  | refused {t : State} (refuses : Refuses E (finiStop E s)) (kept : Kept s t) (active : s.vmmStatus ≠ .unloaded)
      (still : t.vmmStatus ≠ .unloaded) : FiniRun E s (E.sdk.code .vmmCorrupted, t)
  | running {t : State} (running : (finiStop E s).vmmStatus = .running) (kept : Kept s t)
      (active : s.vmmStatus ≠ .unloaded) (still : t.vmmStatus ≠ .unloaded) : FiniRun E s (bfSuccess, t)

section Finalisation
variable {E : Env} {s : State}

theorem commonFini_run_of_not_running (h : s.vmmStatus ≠ .running) : FiniRun E s (commonFini E s) := by
  have stop : finiStop E s = s := if_neg h
  rcases hst : s.vmmStatus with _ | _ | _ | _
  · rw [commonFini_of_unloaded hst]
    split
    · exact .reset (by simp [stop, Refuses, hst])
    · exact .idle hst (by omega)
  · rw [commonFini_of_loaded hst, commonUnloadVmm_of_loaded E hst]
    have active : s.vmmStatus ≠ .unloaded := by simp [hst]
    split
    · rename_i refused
      refine .refused ?_ ((callVmm_called E .fini s).toKept.of_status .corrupt) active (by simp)
      rw [stop]
      exact .inr ⟨hst, refused⟩
    · rename_i accepted
      refine .reset ?_
      simp [stop, Refuses, hst, not_not.mp accepted]
  · exact absurd hst h
  · rw [commonFini_of_corrupt hst]
    refine .refused ?_ (.refl s) (by simp [hst]) (by simp [hst])
    rw [stop]
    exact .inl hst

theorem commonFini_run (E : Env) (s : State) : FiniRun E s (commonFini E s) := by
  by_cases hrun : s.vmmStatus = .running
  · have stop : finiStop E s = (commonStopVmm E s).2 := if_pos hrun
    have active : s.vmmStatus ≠ .unloaded := by simp [hrun]
    have kept := commonStopVmm_kept E s
    by_cases hs : (commonStopVmm E s).2.vmmStatus = .running
    · rw [commonFini_of_running hrun hs]
      exact .running (stop ▸ hs) kept active (by simp [hs])
    · -- The rest goes as from the state that the stop left, which is not unloaded.
      have again : finiStop E (commonStopVmm E s).2 = finiStop E s := (if_neg hs).trans stop.symm
      have stopped : (commonStopVmm E s).2.vmmStatus ≠ .unloaded := by
        rcases commonStopVmm_status E s with h | ⟨-, h | h⟩ <;> simp [h, hrun]
      rw [commonFini_of_stopped hrun hs]
      have run := commonFini_run_of_not_running (E := E) hs
      generalize commonFini E (commonStopVmm E s).2 = r at run
      cases run with
      | reset settles => exact .reset (again ▸ settles)
      | idle unloaded => exact absurd unloaded stopped
      | refused refuses rest _ still => exact .refused (again ▸ refuses) (kept.trans rest) active still
      | running running =>
        rw [again, stop] at running
        exact absurd running hs
  · exact commonFini_run_of_not_running hrun

end Finalisation

/-! ### The entry point -/

/-- A driver that is not unloaded has an entry point of the VMM. -/
def HasEntry (s : State) : Prop := s.vmmStatus ≠ .unloaded → s.start ≠ 0

theorem commonReset_hasEntry (E : Env) (s : State) : HasEntry (commonReset E s).2 :=
  fun active => absurd (commonReset_status E s) active

theorem LoadRun.hasEntry {E : Env} {fuel : Nat} {s : State} {r : Option Int × State} (hst : s.vmmStatus = .unloaded)
    (run : LoadRun E fuel s r) : HasEntry r.2 := by
  cases run with
  | modulesPending => exact fun active => absurd ((loadModules_status E fuel s).trans hst) active
  | pagesFailed => exact fun active => absurd ((loadPages_status E fuel s).trans hst) active
  | loaded inited =>
    have start := start_ne_zero_of_callVmm E _ _ inited.init
    exact fun _ => (loadPages_kept E fuel s).start ▸ start
  | _ => exact commonReset_hasEntry E _

theorem Effect.hasEntry {E : Env} {fuel : Nat} {op : Op} {s t : State} (effect : Effect E fuel op s t) (h : HasEntry s) :
    HasEntry t := by
  cases effect with
  | kept kept active =>
    rcases active with rfl | ⟨active, -⟩
    · exact h
    · exact fun _ => kept.start ▸ h active
  | added file fsize unloaded room => exact fun active => absurd unloaded active
  | reset kept => exact commonReset_hasEntry E _
  | load isLoad unloaded some run => exact run.hasEntry unloaded

theorem ReachableBy.hasEntry {E : Env} {P : State → Op → Prop} {s : State} (h : ReachableBy E P s) : HasEntry s :=
  h.invariant (commonReset_hasEntry E _) fun s fuel op _ _ _ ih => (exec_effect E fuel op s).hasEntry ih

end Bfdriver
