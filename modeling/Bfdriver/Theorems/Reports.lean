import Bfdriver.Lifecycle
import Bfdriver.Theorems.Coupling
import Bfdriver.Theorems.Setup

/-! # Failures are reported

An operation that is not refused returns an error exactly if one of the calls it made failed. Only `common_fini` keeps
a failure to itself: that of a CPU that refuses to stop. -/

namespace Bfdriver
open EventLog

/-! ### Calls that fail -/

/-- The call failed. An allocation for a module is made by the loader, which answers for it. -/
def Event.Fails : Event → Prop
  | .alloc site _ addr => site ≠ .exec ∧ addr = 0
  | .setAffinity _ ret => ret < 0
  | .bfelfLoad _ ret | .setIntegerArgs _ ret | .getLoadInstr _ ret | .enter _ _ _ ret => ret ≠ bfSuccess
  | .vmcall _ _ r01 => r01 ≠ 0
  | _ => False

instance : DecidablePred Event.Fails := fun e => by cases e <;> unfold Event.Fails <;> infer_instance

/-- The operation is done, and its result is an error. -/
def Errs (result : Option Int) : Prop := ∃ ret ∈ result, ret ≠ bfSuccess

@[simp] theorem errs_some {ret : Int} : Errs (some ret) ↔ ret ≠ bfSuccess := by simp [Errs]

@[simp] theorem not_errs_none : ¬Errs none := by simp [Errs]

/-- A loader that succeeds leaves an entry point. -/
def LeavesEntry (E : Env) : Prop := ∀ t ms, (E.bfelfLoad t ms).ret = bfSuccess → (E.bfelfLoad t ms).entry ≠ 0

/-- Between `s` and `t` a call failed exactly if `q`. -/
abbrev Reports (q : Prop) (s t : State) : Prop := Tells Event.Fails q s.trace t.trace

/-! ### Calls of the VMM -/

section Calls
variable (E : Env) {s : State}

theorem writeThreadContext_reports (s : State) : Reports False s (writeThreadContext E s) :=
  ((Tells.refl s.trace).cons (e := .currentCpuNum (E.currentCpuNum s.trace)) id).cons id

theorem enterVmm_reports (req : Request) (start : s.start ≠ 0) :
    Reports ((enterVmm E req s).1 ≠ bfSuccess) s (enterVmm E req s).2 := by
  unfold enterVmm
  rw [if_pos start]
  exact .single ..

theorem callVmm_reports (req : Request) (start : s.start ≠ 0) :
    Reports ((callVmm E req s).1 ≠ bfSuccess) s (callVmm E req s).2 := by
  have asked : Reports (E.setIntegerArgs s.trace req ≠ bfSuccess) s
      (s.emit (.setIntegerArgs req (E.setIntegerArgs s.trace req))) := .single ..
  unfold callVmm
  dsimp only
  split
  · exact asked
  · rename_i ok
    have prepared : Reports False s { s.emit (.setIntegerArgs req (E.setIntegerArgs s.trace req)) with
        info := { s.info with args := some req } } := asked.congr (iff_of_false ok id)
    exact ((prepared.after id (writeThreadContext_reports E _)).after id (enterVmm_reports E req start)).cons id

theorem addRawMdToMemoryManager_reports (virt type : UInt64) (start : s.start ≠ 0) :
    Reports ((addRawMdToMemoryManager E virt type s).1 ≠ bfSuccess) s (addRawMdToMemoryManager E virt type s).2 := by
  have looked : Reports False s (s.emit (.virtToPhys virt (E.virtToPhys s.trace virt))) := (Tells.refl _).cons id
  have called := looked.after id (callVmm_reports E (.addMdl ⟨virt, E.virtToPhys s.trace virt, type⟩) start)
  unfold addRawMdToMemoryManager
  dsimp only
  split
  · exact called
  · rename_i ok
    exact called.congr (iff_of_false ok (not_not.mpr rfl))

theorem pageLoop_reports (type last : UInt64) (fuel : Nat) (page : UInt64) (start : s.start ≠ 0) :
    Reports (Errs (pageLoop E type last fuel page s).1) s (pageLoop E type last fuel page s).2 := by
  induction fuel generalizing page s with
  | zero => exact (Tells.refl _).congr (by simp [pageLoop])
  | succ fuel ih =>
    have round := addRawMdToMemoryManager_reports E page type start
    have kept := (addRawMdToMemoryManager_registered E page type s).start
    unfold pageLoop
    split
    · dsimp only
      split
      · exact round.congr errs_some.symm
      · rename_i ok
        exact round.after ok (ih _ (kept ▸ start))
    · exact (Tells.refl _).congr (by simp)

theorem segmentLoop_reports (fuel : Nat) (m : Binary) (instrs : List LoadInstr) (i : Nat) (start : s.start ≠ 0) :
    Reports (Errs (segmentLoop E fuel m instrs i s).1) s (segmentLoop E fuel m instrs i s).2 := by
  induction instrs generalizing i s with
  | nil => exact (Tells.refl _).congr (by simp [segmentLoop])
  | cons instr instrs ih =>
    have asked : Reports (E.getLoadInstr s.trace m i ≠ bfSuccess) s
        (s.emit (.getLoadInstr i (E.getLoadInstr s.trace m i))) := .single ..
    unfold segmentLoop
    dsimp only
    split
    · exact asked.congr errs_some.symm
    · rename_i ok
      have pages := asked.after ok (pageLoop_reports E (instr.memoryType E.sdk)
        (pageMask E.sdk (m.exec + instr.memOffset + instr.memsz)) fuel (pageMask E.sdk (m.exec + instr.memOffset)) start)
      split
      · exact pages
      · rename_i done
        have kept : (addSegment E fuel m instr (s.emit (.getLoadInstr i (E.getLoadInstr s.trace m i)))).2.start = s.start :=
          (pageLoop_registered E ..).start
        have done : (addSegment E fuel m instr _).1 = some bfSuccess := not_not.mp done
        exact pages.after (by rw [addSegment] at done; simp [done]) (ih _ (kept ▸ start))

theorem moduleLoop_reports (fuel : Nat) (ms : List Binary) (start : s.start ≠ 0) :
    Reports (Errs (moduleLoop E fuel ms s).1) s (moduleLoop E fuel ms s).2 := by
  induction ms generalizing s with
  | nil => exact (Tells.refl _).congr (by simp [moduleLoop])
  | cons m ms ih =>
    have round : Reports (Errs (addMdToMemoryManager E fuel (some m) s).1) s (addMdToMemoryManager E fuel (some m) s).2 :=
      segmentLoop_reports E fuel m m.ef 0 start
    have kept := (addMdToMemoryManager_registered E fuel (some m) s).start
    unfold moduleLoop
    dsimp only
    split
    · exact round
    · rename_i done
      exact round.after (by simp [not_not.mp done]) (ih (kept ▸ start))

end Calls

/-! ### Loading -/

section Loading
variable {E : Env} {fuel : Nat} {s : State}

theorem setupStack_reports (E : Env) (s : State) : Reports ((setupStack E s).1 ≠ bfSuccess) s (setupStack E s).2 := by
  have stack : (AllocSite.stack ≠ .exec) := nofun
  unfold setupStack
  dsimp only
  split
  · rename_i null
    exact (Tells.single ..).congr (iff_of_true ⟨stack, null⟩ (E.sdk.code_ne _))
  · rename_i some
    have granted : ¬Event.Fails (.alloc .stack (E.sdk.stackSize * 2) (newStack E s)) := fun h => some h.2
    exact (((Tells.refl _).cons granted).cons id).congr (iff_of_false id (not_not.mpr rfl))

theorem setupTls_reports (E : Env) (s : State) : Reports ((setupTls E s).1 ≠ bfSuccess) s (setupTls E s).2 := by
  have counted : Reports False s (s.emit (.numCpus (E.numCpus s.trace))) := (Tells.refl _).cons id
  have tls : (AllocSite.tls ≠ .exec) := nofun
  unfold setupTls
  dsimp only
  split
  · rename_i null
    exact counted.after id ((Tells.single ..).congr (iff_of_true ⟨tls, null⟩ (E.sdk.code_ne _)))
  · rename_i some
    have granted : ¬Event.Fails (.alloc .tls (newTlsSize E s) (newTls E s)) := fun h => some h.2
    exact ((counted.cons granted).cons id).congr (iff_of_false id (not_not.mpr rfl))

theorem bfelfLoad_reports (E : Env) (s : State) : Reports ((bfelfLoad E s).1 ≠ bfSuccess) s (bfelfLoad E s).2 := by
  have images : Reports False s (loadImages E s.added (E.bfelfLoad s.trace s.added).images s).2 :=
    .of_grew ((loadImages_grew E s _ _).mono fun e he => by
      cases e with
      | alloc site => cases site <;> first | exact fun h => h.1 rfl | exact he.elim
      | _ => exact he.elim)
  exact images.after id (.single ..)

theorem bfelfLoad_start (entry : LeavesEntry E) (ok : (bfelfLoad E s).1 = bfSuccess) : (bfelfLoad E s).2.start ≠ 0 :=
  entry s.trace s.added ok

theorem commonReset_reports (E : Env) (s : State) : Grew (fun e => ¬e.Fails) s.trace (commonReset E s).2.trace :=
  (commonReset_grew E s).mono fun e he => by cases e <;> first | exact id | exact he.elim

theorem not_errs_of_success {result : Option Int} (h : result = some bfSuccess) : ¬Errs result := by simp [h]

theorem LoadRun.reports {r : Option Int × State} (entry : LeavesEntry E) (run : LoadRun E fuel s r) :
    Reports (Errs r.1) s r.2 := by
  have stack := setupStack_reports E s
  have tls (h : (loadStack E s).1 = bfSuccess) : Reports ((loadTls E s).1 ≠ bfSuccess) s (loadTls E s).2 :=
    stack.after (not_not.mpr h) (setupTls_reports E _)
  have elf (h₁ : (loadStack E s).1 = bfSuccess) (h₂ : (loadTls E s).1 = bfSuccess) :
      Reports ((loadElf E s).1 ≠ bfSuccess) s (loadElf E s).2 :=
    (tls h₁).after (not_not.mpr h₂) (bfelfLoad_reports E _)
  have init (h₁ : (loadStack E s).1 = bfSuccess) (h₂ : (loadTls E s).1 = bfSuccess) (h₃ : (loadElf E s).1 = bfSuccess) :
      Reports ((loadInit E s).1 ≠ bfSuccess) s (loadInit E s).2 :=
    (elf h₁ h₂).after (not_not.mpr h₃) (callVmm_reports E _ (bfelfLoad_start entry h₃))
  have start (h : Initialised E s) : (loadElf E s).2.start ≠ 0 := bfelfLoad_start entry h.elf
  have modules (h : Initialised E s) : Reports (Errs (loadModules E fuel s).1) s (loadModules E fuel s).2 :=
    (init h.stack h.tls h.elf).after (not_not.mpr h.init)
      (moduleLoop_reports E fuel _ ((loadInit_kept E s).start ▸ start h))
  have pages (h : Initialised E s) (done : (loadModules E fuel s).1 = some bfSuccess) :
      Reports (Errs (loadPages E fuel s).1) s (loadPages E fuel s).2 :=
    (modules h).after (not_errs_of_success done) (pageLoop_reports E _ _ fuel _ ((loadModules_kept E fuel s).start ▸ start h))
  cases run with
  | stackFailed => exact (stack.grew (commonReset_reports E _)).congr errs_some.symm
  | tlsFailed h₁ => exact ((tls h₁).grew (commonReset_reports E _)).congr errs_some.symm
  | elfFailed h₁ h₂ => exact ((elf h₁ h₂).grew (commonReset_reports E _)).congr errs_some.symm
  | initRefused h₁ h₂ h₃ => exact ((init h₁ h₂ h₃).grew (commonReset_reports E _)).congr errs_some.symm
  | modulesFailed inited stopped => exact stopped ▸ (modules inited).grew (commonReset_reports E _)
  | modulesPending inited pending => exact pending ▸ modules inited
  | pagesFailed inited done => exact pages inited done
  | loaded inited done ok => exact ok ▸ pages inited done

end Loading

/-! ### Starting and stopping -/

/-- A round of a loop over the CPUs ends the loop with an error. -/
def Exit.Errs : Exit → Prop
  | .next => False
  | .fail answer | .ret answer => answer ≠ bfSuccess

section Cpus
variable (E : Env) {s : State}

theorem stopCpu_reports (c : Int) (start : s.start ≠ 0) : Reports (stopCpu E c s).1.Errs s (stopCpu E c s).2 := by
  have placed : Reports (E.setAffinity s.trace c < 0) s (s.emit (.setAffinity c (E.setAffinity s.trace c))) := .single ..
  unfold stopCpu
  dsimp only
  split
  · rename_i neg
    exact placed.congr (iff_of_true neg (Int.ne_of_lt neg))
  · rename_i nonneg
    have stopped := placed.after nonneg (.single (.vmcall .stop c (E.vmcall
      (s.emit (.setAffinity c (E.setAffinity s.trace c))).trace .stop)) _)
    split
    · rename_i refused
      exact stopped.congr (iff_of_true refused (E.sdk.code_ne _))
    · rename_i accepted
      have called := stopped.after accepted (callVmm_reports E (.vmmFini c) (s := State.emit _ _) start)
      split
      · exact called
      · rename_i ok
        exact ((called.congr (iff_of_false ok id)).cons id).cons id

theorem stopLoop_reports : ∀ (n : Nat) (s : State), s.start ≠ 0 → Reports (stopLoop E n s).1.Errs s (stopLoop E n s).2
  | 0, s, _ => .refl _
  | n + 1, s, start => by
    have round := stopCpu_reports E n start
    unfold stopLoop
    dsimp only
    split
    · rename_i next
      exact round.after (by simp [next, Exit.Errs]) (stopLoop_reports n _ ((stopCpu_kept E s n).start ▸ start))
    · exact round

/-- What follows the loop of a stop hands its error on. -/
theorem stopExit_errs (r : Exit × State) : (stopExit r).1 ≠ bfSuccess ↔ r.1.Errs := by
  rcases r with ⟨_ | ret | ret, t⟩ <;> simp [stopExit, Exit.Errs]

theorem stopExit_trace (r : Exit × State) : (stopExit r).2.trace = r.2.trace := by
  rcases r with ⟨_ | ret | ret, t⟩ <;> rfl

theorem commonStopVmm_reports (start : s.vmmStatus = .running → s.start ≠ 0) (ready : s.vmmStatus = .loaded ∨ s.vmmStatus = .running) :
    Reports ((commonStopVmm E s).1 ≠ bfSuccess) s (commonStopVmm E s).2 := by
  rcases ready with loaded | running
  · have idle : commonStopVmm E s = (bfSuccess, s) := by
      unfold commonStopVmm
      rw [loaded]
    rw [idle]
    exact (Tells.refl _).congr (iff_of_false id (not_not.mpr rfl))
  · have loop := stopLoop_reports E s.numCpusStarted.toNat s (start running)
    rw [commonStopVmm_of_running E running]
    unfold Reports
    rw [stopExit_trace]
    exact loop.congr (stopExit_errs _).symm

theorem startCpu_reports (c : Int) (start : s.start ≠ 0) : Reports (startCpu E c s).1.Errs s (startCpu E c s).2 := by
  have placed : Reports (E.setAffinity s.trace c < 0) s (s.emit (.setAffinity c (E.setAffinity s.trace c))) := .single ..
  unfold startCpu
  dsimp only
  split
  · rename_i neg
    exact placed.congr (iff_of_true neg (Int.ne_of_lt neg))
  · rename_i nonneg
    have called := placed.after nonneg (callVmm_reports E (.vmmInit c) (s := State.emit _ _) start)
    split
    · exact called
    · rename_i ok
      have accepted := called.congr (iff_of_false ok id)
      generalize (callVmm E (.vmmInit c) (s.emit (.setAffinity c (E.setAffinity s.trace c)))).2 = t at accepted ⊢
      have launched := accepted.after id (.single (.vmcall .start c (E.vmcall t.trace .start)) t.trace)
      split
      · rename_i refused
        exact launched.congr (iff_of_true refused (E.sdk.code_ne _))
      · rename_i accepts
        exact ((launched.congr (iff_of_false accepts id)).cons id).cons id

theorem startLoop_reports : ∀ (rounds : Nat) (c : Int) (s : State), s.start ≠ 0 →
    Reports (startLoop E rounds c s).1.Errs s (startLoop E rounds c s).2
  | 0, _, s, _ => (Tells.refl _).cons id
  | rounds + 1, c, s, start => by
    have asked : Reports False s (s.emit (.numCpus (E.numCpus s.trace))) := (Tells.refl _).cons id
    unfold startLoop
    dsimp only
    split
    · have round := asked.after id (startCpu_reports E c (s := State.emit _ _) start)
      split
      · rename_i next
        have kept := (startCpu_kept E (s.emit (.numCpus (E.numCpus s.trace))) c).start
        exact round.after (by simp [next, Exit.Errs]) (startLoop_reports rounds (c + 1) _ (kept ▸ start))
      · exact round
    · exact asked

/-- A start that fails has reported that, whatever becomes of its rollback. -/
theorem commonStartVmm_reports (hstart : s.vmmStatus = .loaded → s.start ≠ 0)
    (ready : s.vmmStatus = .loaded ∨ s.vmmStatus = .running) :
    Reports ((commonStartVmm E s).1 ≠ bfSuccess) s (commonStartVmm E s).2 := by
  rcases ready with loaded | running
  · have loop := startLoop_reports E maxCpus 0 { s with numCpusStarted := 0 } (hstart loaded)
    rw [commonStartVmm_of_loaded E loaded]
    unfold startExit
    split
    · rename_i next
      exact loop.congr (by simp [next, Exit.Errs])
    · rename_i answer failed
      have err : Exit.Errs (.fail answer) :=
        Eq.mp (congrArg Exit.Fails failed) (startLoop_fails E maxCpus 0 { s with numCpusStarted := 0 })
      rw [failed] at loop
      obtain ⟨es, trace, -⟩ := (commonStopVmm_kept E (startLoop E maxCpus 0 { s with numCpusStarted := 0 }).2).grew
      have rolled : Tells Event.Fails (∃ e ∈ es, e.Fails) _ _ := ⟨es, trace, Iff.rfl⟩
      exact (loop.trans rolled).congr (iff_of_true (.inl err) err)
    · rename_i answer refused
      exact loop.congr (by simp [refused, Exit.Errs])
  · have idle : commonStartVmm E s = (bfSuccess, s) := by
      unfold commonStartVmm
      rw [running]
    rw [idle]
    exact (Tells.refl _).congr (iff_of_false id (not_not.mpr rfl))

end Cpus

/-! ### Every operation -/

section Operations
variable {E : Env} {s : State}

/-- An operation that is refused makes no call. -/
theorem exec_refused (E : Env) (fuel : Nat) (op : Op) {code : ErrorCode}
    (h : op.refusal E.sdk s.vmmStatus s.numModules = some code) : exec E fuel op s = (some (E.sdk.code code), s) := by
  cases op with
  | addModule file fsize =>
    have refused : commonAddModule E file fsize s = (E.sdk.code code, s) := by
      simp only [Op.refusal] at h
      unfold commonAddModule
      split at h
      · rename_i invalid
        cases h
        exact if_pos invalid
      · rename_i valid
        rw [if_neg valid]
        split at h
        · rename_i unloaded
          split at h
          · rename_i full
            cases h
            rw [unloaded]
            exact if_pos full
          · cases h
        all_goals cases h; simp [*]
    rw [exec, refused]
  | loadVmm =>
    simp only [Op.refusal] at h
    split at h
    · rename_i unloaded
      split at h <;> cases h
      rename_i empty
      exact commonLoadVmm_of_empty E fuel unloaded empty
    all_goals cases h <;> simp [exec, commonLoadVmm, *]
  | unloadVmm =>
    simp only [Op.refusal] at h
    split at h <;> cases h
    · rename_i running
      simp [exec, commonUnloadVmm, running]
    · rename_i corrupt
      have same : { s with vmmStatus := .corrupt } = s := corrupt ▸ rfl
      simp [exec, commonUnloadVmm, corrupt, same]
  | startVmm =>
    simp only [Op.refusal] at h
    split at h <;> cases h <;> simp [exec, commonStartVmm, *]
  | stopVmm =>
    simp only [Op.refusal] at h
    split at h <;> cases h <;> simp [exec, commonStopVmm, *]
  | dumpVmm drr vcpuid =>
    simp only [Op.refusal] at h
    split at h
    · cases h
      simp [exec, commonDumpVmm, *]
    · split at h <;> cases h
      simp [exec, commonDumpVmm, *]
  | fini =>
    simp only [Op.refusal] at h
    split at h <;> cases h
    rename_i corrupt
    simp [exec, commonFini_of_corrupt corrupt]

theorem commonAddModule_of_admitted (E : Env) {file fsize : UInt64}
    (admitted : (Op.addModule file fsize).refusal E.sdk s.vmmStatus s.numModules = none) :
    commonAddModule E file fsize s = (bfSuccess, s.withModule file fsize) := by
  obtain ⟨valid, unloaded, room⟩ := Op.refusal_addModule.mp admitted
  unfold commonAddModule
  rw [if_neg valid]
  split
  · rename_i corrupt
    exact nomatch unloaded.symm.trans corrupt
  · rename_i loaded
    exact nomatch unloaded.symm.trans loaded
  · rename_i running
    exact nomatch unloaded.symm.trans running
  · exact if_neg (Nat.not_le_of_lt room)

theorem commonUnloadVmm_reports (start : s.vmmStatus = .loaded → s.start ≠ 0)
    (ready : s.vmmStatus = .unloaded ∨ s.vmmStatus = .loaded) :
    Reports ((commonUnloadVmm E s).1 ≠ bfSuccess) s (commonUnloadVmm E s).2 := by
  rcases ready with unloaded | loaded
  · rw [commonUnloadVmm_of_unloaded E unloaded]
    exact (Tells.of_grew (commonReset_reports E s)).congr (iff_of_false id (not_not.mpr rfl))
  · have called := callVmm_reports E .fini (start loaded)
    rw [commonUnloadVmm_of_loaded E loaded]
    split
    · rename_i refused
      exact called.congr (iff_of_true refused (E.sdk.code_ne _))
    · rename_i accepted
      exact (called.grew (commonReset_reports E _)).congr (iff_of_false accepted (not_not.mpr rfl))

/-- A running VMM is loaded after a stop exactly if the stop succeeds. -/
theorem commonStopVmm_success_iff (running : s.vmmStatus = .running) :
    (commonStopVmm E s).1 = bfSuccess ↔ (commonStopVmm E s).2.vmmStatus = .loaded := by
  have fails := stopLoop_fails E s.numCpusStarted.toNat s
  have status := stopLoop_status E s.numCpusStarted.toNat s
  rw [commonStopVmm_of_running E running]
  revert fails status
  rcases stopLoop E s.numCpusStarted.toNat s with ⟨_ | answer | answer, t⟩
  · exact fun _ _ => iff_of_true rfl rfl
  · exact fun fails _ => iff_of_false fails nofun
  · intro fails (status : t.vmmStatus = s.vmmStatus)
    refine iff_of_false fails fun (loaded : t.vmmStatus = .loaded) => ?_
    exact nomatch (running.symm.trans status.symm).trans loaded

/-- The only failure that `common_fini` does not report is that of a stop that leaves the VMM running. -/
theorem commonFini_reports (start : HasEntry s) (active : s.vmmStatus ≠ .corrupt) :
    Reports ((commonFini E s).1 ≠ bfSuccess ∨ (commonFini E s).2.vmmStatus = .running) s (commonFini E s).2 := by
  have unload (u : State) (start : u.start ≠ 0) (loaded : u.vmmStatus = .loaded) :
      Reports ((commonFini E u).1 ≠ bfSuccess ∨ (commonFini E u).2.vmmStatus = .running) u (commonFini E u).2 := by
    have reports := commonUnloadVmm_reports (E := E) (s := u) (fun _ => start) (.inr loaded)
    rw [commonFini_of_loaded loaded]
    refine reports.congr (or_iff_left_of_imp fun running => ?_).symm
    rcases commonUnloadVmm_status E u with ⟨ne, -⟩ | ⟨-, unloaded | corrupt⟩
    · exact absurd loaded ne
    · exact nomatch unloaded.symm.trans running
    · exact nomatch corrupt.symm.trans running
  rcases status : s.vmmStatus with _ | _ | _ | _
  · -- An unloaded driver is reset at most.
    rw [commonFini_of_unloaded status]
    dsimp only
    split
    · refine (Tells.of_grew (commonReset_reports E s)).congr (iff_of_false id ?_)
      simp [commonReset_status]
    · exact (Tells.refl _).congr (iff_of_false id (by simp [status]))
  · exact unload s (start (by simp [status])) status
  · have entry := start (by simp [status])
    have stop := commonStopVmm_reports E (s := s) (fun _ => entry) (.inr status)
    have success := commonStopVmm_success_iff (E := E) status
    have kept := (commonStopVmm_kept E s).start
    rcases commonStopVmm_status E s with same | ⟨-, loaded | corrupt⟩
    · have running := same.trans status
      rw [commonFini_of_running status running]
      refine stop.congr (iff_of_true (fun ok => ?_) (.inr running))
      exact nomatch running.symm.trans (success.mp ok)
    · rw [commonFini_of_stopped status (by simp [loaded])]
      exact stop.after (not_not.mpr (success.mpr loaded)) (unload _ (kept ▸ entry) loaded)
    · rw [commonFini_of_stopped status (by simp [corrupt]), commonFini_of_corrupt corrupt]
      refine stop.congr (iff_of_true (fun ok => ?_) (.inl (E.sdk.code_ne _)))
      exact nomatch corrupt.symm.trans (success.mp ok)
  · exact absurd status active

/-- What `op` does not report of its calls in a state it leaves. -/
def Op.Conceals (op : Op) (t : State) : Prop := op = .fini ∧ t.vmmStatus = .running

theorem exec_reports (entry : LeavesEntry E) (start : HasEntry s) (fuel : Nat) (op : Op)
    (admitted : op.refusal E.sdk s.vmmStatus s.numModules = none) :
    Reports (Errs (exec E fuel op s).1 ∨ op.Conceals (exec E fuel op s).2) s (exec E fuel op s).2 := by
  have told {q : Prop} {t : State} (other : op ≠ .fini) (h : Reports q s t) : Reports (q ∨ op.Conceals t) s t :=
    h.congr (or_iff_left fun conceals => other conceals.1).symm
  cases op with
  | addModule file fsize =>
    have added := commonAddModule_of_admitted E admitted
    refine told nofun ?_
    rw [exec, added]
    exact (Tells.refl _).congr (iff_of_false id (by simp))
  | loadVmm =>
    refine told nofun ?_
    rcases Op.refusal_loadVmm.mp admitted with ⟨unloaded, some⟩ | loaded
    · exact (commonLoadVmm_run E fuel s unloaded some).reports entry
    · rw [exec, commonLoadVmm_of_loaded E fuel loaded]
      exact (Tells.refl _).congr (iff_of_false id (by simp))
  | unloadVmm =>
    have unload := commonUnloadVmm_reports (E := E) (fun loaded => start (by simp [loaded])) (Op.refusal_unloadVmm.mp admitted)
    exact told nofun (unload.congr errs_some.symm)
  | startVmm =>
    have started := commonStartVmm_reports E (fun loaded => start (by simp [loaded])) (Op.refusal_startVmm.mp admitted)
    exact told nofun (started.congr errs_some.symm)
  | stopVmm =>
    have stopped := commonStopVmm_reports E (fun running => start (by simp [running])) (Op.refusal_stopVmm.mp admitted)
    exact told nofun (stopped.congr errs_some.symm)
  | dumpVmm drr vcpuid =>
    obtain ⟨hdrr, active⟩ := Op.refusal_dumpVmm.mp admitted
    refine told nofun ?_
    rw [exec, commonDumpVmm_eq E hdrr, if_neg active]
    exact (callVmm_reports E _ (start active)).congr errs_some.symm
  | fini =>
    refine (commonFini_reports start (Op.refusal_fini.mp admitted)).congr (or_congr errs_some.symm ?_)
    exact (and_iff_right rfl).symm

end Operations

/-- In every run an operation that its status does not admit returns the error for that and does nothing. One that is
    admitted makes a call that fails exactly if it returns an error, or if it is `common_fini` and the VMM still runs
    after it. -/
theorem failures_reported {E : Env} (entry : LeavesEntry E) {s : State} (h : Reachable E s) (fuel : Nat) (op : Op) :
    (∀ code, op.refusal E.sdk s.vmmStatus s.numModules = some code → exec E fuel op s = (some (E.sdk.code code), s)) ∧
      (op.refusal E.sdk s.vmmStatus s.numModules = none → ∃ es, (exec E fuel op s).2.trace = es ++ s.trace ∧
        ((∃ e ∈ es, e.Fails) ↔ Errs (exec E fuel op s).1 ∨ op = .fini ∧ (exec E fuel op s).2.vmmStatus = .running)) :=
  ⟨fun _ => exec_refused E fuel op, exec_reports entry h.hasEntry fuel op⟩

/-- A VMM that does not let its CPU go: `common_fini` succeeds, though a call failed. -/
theorem failures_reported_but_a_refused_stop :
    let E := testEnv { vmcall := fun _ op => if op = .stop then 1 else 0 }
    let s := after E 8 startOps
    (exec E 8 .fini s).1 = some bfSuccess ∧ ∃ es, (exec E 8 .fini s).2.trace = es ++ s.trace ∧ ∃ e ∈ es, e.Fails := by
  intro E s
  have entry : LeavesEntry E := fun _ _ _ => (by decide : (0x1000 : UInt64) ≠ 0)
  obtain ⟨es, trace, told⟩ :=
    (failures_reported entry (s := s) (reachable_after (by decide +kernel)) 8 .fini).2 (by decide +kernel)
  exact ⟨by decide +kernel, es, trace, told.mpr (.inr ⟨rfl, by decide +kernel⟩)⟩

end Bfdriver
