import Bfdriver.Theorems.Coupling
import Bfdriver.Theorems.FilePaths
import Bfdriver.Theorems.OwnTables
import Bfdriver.Theorems.Rounds
import Bfdriver.Theorems.Signs

/-! # The hand-over to the operating system

`UefiMain` stops at the first error of the firmware or the driver. So the operating system is started only when the
processors were gone through and the VMM runs on them, unless the VMM gave a positive answer to a start, which counts as
no error, or the firmware no longer told how many processors there are. -/

namespace Bfdriver.Uefi
open EventLog

/-! ### A start that succeeds -/

section Start
variable {E : Env} {s t : State} {m : Nat}

/-- A loop over the CPUs that succeeds ends with a number of CPUs that were all started. -/
theorem startLoop_ends {E : Env} {s : State} : ∀ {rounds m : Nat} {t : State}, Started E s m t →
    (startLoop E rounds m t).1 = .next → ∃ k u, Started E s k u ∧ (startLoop E rounds m t).2 = counted E u ∧
      ((E.numCpus u.trace).toInt ≤ k ∨ k = m + rounds)
  | 0, m, t, h, _ => ⟨m, t, h, rfl, .inr rfl⟩
  | rounds + 1, m, t, h, next => by
    unfold startLoop at next ⊢
    dsimp only at next ⊢
    by_cases more : (m : Int) < (E.numCpus t.trace).toInt
    · rw [if_pos more] at next ⊢
      rcases hx : (startCpu E m (counted E t)).1 with _ | _ | _
      · rw [hx] at next
        obtain ⟨k, u, started, same, ends⟩ := startLoop_ends (h.next more hx) next
        exact ⟨k, u, started, same, ends.imp_right fun last => by omega⟩
      · rw [hx] at next
        exact absurd (hx.symm.trans next) (by simp)
      · rw [hx] at next
        exact absurd (hx.symm.trans next) (by simp)
    · rw [if_neg more]
      exact ⟨m, t, h, rfl, .inl (Int.not_lt.mp more)⟩

/-- The CPUs that were started run under the VMM. -/
theorem launched_of_started (h : Started E s m t) : ∀ c : Int, 0 ≤ c → c < m → Launched c (signals t.trace) := by
  induction h with
  | none => exact fun c h0 hc => absurd hc (Int.not_lt.mpr h0)
  | @next m t before more done ih =>
    obtain ⟨affinity, cpuid, -, -, after⟩ := startCpu_next done
    have told : signals (startCpu E m (counted E t)).2.trace =
        .vmcall .start m true :: .accepted (counted E t).resources (.vmmInit m) :: signals t.trace := by
      rw [after]
      rfl
    intro c h0 hc
    rw [told]
    rcases Int.lt_or_eq_of_le (Int.lt_add_one_iff.mp (Int.natCast_succ m ▸ hc)) with below | rfl
    · have earlier := ih c h0 below
      exact ⟨by simp [earlier.1], by simp [earlier.2]⟩
    · exact ⟨by simp, by simp⟩

/-- After a start without an error all processors run under the VMM, unless it handed on a positive answer of the VMM or
    was in the end not told the number of processors. -/
theorem vmm_of_start {M : MpServices} {W : Env} {s : State} (loaded : s.vmmStatus = .loaded)
    (ok : ¬(commonStartVmm (M.env W) s).1 < 0) :
    AllLaunched M.numberOfProcessors.toInt64 (commonStartVmm (M.env W) s).2 ∨
      (∃ n : Int64, n.toInt ≤ 0 ∧ (commonStartVmm (M.env W) s).2.trace.head? = some (.numCpus n)) ∨
      ∃ e ∈ (commonStartVmm (M.env W) s).2.trace, HandedOn .startVmm e := by
  have count (t : Trace) : (M.platformNumCpus t).toInt ≤ 0 ∨ M.platformNumCpus t = M.numberOfProcessors.toInt64 := by
    unfold MpServices.platformNumCpus
    split
    · exact .inl (Int.le_refl 0)
    · exact .inr rfl
  have hands := commonStartVmm_hands (E := M.env W) (s := s)
  rcases Int.lt_or_eq_of_le (Int.not_lt.mp ok) with positive | success
  · obtain ⟨es, trace, told⟩ := hands
    obtain ⟨e, he, handed⟩ := told.mpr positive
    exact .inr (.inr ⟨e, trace ▸ List.mem_append_left _ he, handed⟩)
  · have fails := startLoop_fails (M.env W) maxCpus 0 { s with numCpusStarted := 0 }
    have ends : (startLoop (M.env W) maxCpus (0 : Nat) { s with numCpusStarted := 0 }).1 = .next → _ := startLoop_ends .none
    rw [Int.natCast_zero] at ends
    rw [commonStartVmm_of_loaded _ loaded] at success ⊢
    revert success fails ends
    rcases startLoop (M.env W) maxCpus 0 { s with numCpusStarted := 0 } with ⟨x, t⟩
    intro success fails ends
    cases x with
    | fail ret => exact absurd success.symm fails
    | ret ret => exact absurd success.symm fails
    | next =>
      obtain ⟨k, u, started, last, enough⟩ := ends rfl
      obtain rfl : t = counted (M.env W) u := last
      have asked : (M.env W).numCpus u.trace = M.platformNumCpus u.trace := rfl
      by_cases more : 0 < (M.platformNumCpus u.trace).toInt
      · have told := (count u.trace).resolve_left (Int.not_le.mpr more)
        rw [asked, told] at enough
        rw [told] at more
        have bound := M.numberOfProcessors.toInt64.toInt_lt
        have all : M.numberOfProcessors.toInt64.toInt ≤ k := by
          simp only [maxCpus] at enough
          omega
        obtain ⟨args, up, -, rfl⟩ := started.state
        refine .inl ⟨?_, fun c h0 hc => launched_of_started started c h0 (Int.lt_of_lt_of_le hc all)⟩
        exact if_neg (by omega)
      · exact .inr (.inl ⟨_, Int.not_lt.mp more, rfl⟩)

end Start

/-! ### The loops over the processors -/

/-- A call that was made stays in the trace. -/
theorem madeRules (E : Env) (e : Event) : RoundRules E (e ∈ ·) fun _ _ => True where
  outside := fun _ h => List.mem_cons_of_mem _ h
  placed := fun _ => trivial
  call := fun {s req} h _ => (callVmm_carries E req s).mem_of_mem h
  stays := fun _ _ => trivial
  vmcall := fun _ _ h _ => ⟨List.mem_cons_of_mem _ h, trivial⟩

/-- The first loop went through the processor: it was prepared, or the firmware refused the memory to prepare it with, or
    the driver could not get to it, and `UefiMain` ignores the last two. -/
def Passed (i : Nat) (b : Boot) : Prop :=
  (∃ calls gdtr, .prepareProcessor (UInt64.ofInt i) .success calls gdtr ∈ b.log) ∨
  (∃ calls gdtr len, .prepareProcessor (UInt64.ofInt i) .outOfResources calls gdtr ∈ b.log ∧ .allocatePool len 0 ∈ calls) ∨
  ∃ ret < 0, .setAffinity i ret ∈ b.common.trace

section Loops
variable {B : BootServices} {W : Env} {b b' : Boot} {i : Nat}

/-- What was passed stays so. -/
theorem Passed.later (h : Passed i b) (log : b.log ⊆ b'.log) (trace : b.common.trace ⊆ b'.common.trace) : Passed i b' := by
  rcases h with ⟨calls, gdtr, prepared⟩ | ⟨calls, gdtr, len, refused, none⟩ | ⟨ret, neg, made⟩
  · exact .inl ⟨calls, gdtr, log prepared⟩
  · exact .inr (.inl ⟨calls, gdtr, len, log refused, none⟩)
  · exact .inr (.inr ⟨ret, neg, trace made⟩)

theorem passedRules (B : BootServices) (E : Env) (i : Nat) : BootRules B E (Passed i) where
  place := fun _ h => h.later (fun _ => id) (List.subset_cons_self ..)
  settle := fun h => h.later (List.subset_cons_self ..) fun _ => id
  prepare := fun h => h.later (List.subset_cons_self ..) fun _ => id
  check := fun h => h.later (List.subset_cons_self ..) fun _ => id
  common := fun steps h => h.later (fun _ => id) fun e he => (madeRules E e).turns he steps
  startImage := fun _ h => h.later (List.subset_cons_self ..) fun _ => id

/-- A preparation of the processor that the driver runs on. -/
theorem passed_of_prepare (there : B.mp.bsp b.common.trace = UInt64.ofInt i) : Passed i (b.prepareProcessor B) := by
  rw [Passed, ← there]
  rcases prepares : (b.elapse B).board.prepareProcessor B.pools (B.mp.bsp b.common.trace) with ⟨_ | _, board⟩
  · rw [prepareProcessor_eq prepares]
    exact .inl ⟨_, _, List.mem_cons_self⟩
  · rw [prepareProcessor_eq prepares]
    obtain ⟨calls, len, grown, refused⟩ : ∃ calls len, board.calls = calls ++ b.board.calls ∧ .allocatePool len 0 ∈ calls := by
      obtain ⟨status, rfl⟩ := Prod.mk.inj prepares
      exact refused_of_failure (Prod.ext status rfl)
    refine .inr (.inl ⟨_, _, len, List.mem_cons_self, ?_⟩)
    rwa [Board.callsSince, grown, take_append]

/-- A round of the first loop that gets to its end. -/
theorem passed_of_round : Passed i (((b.platformSetAffinity B (B.mp.env W) i).prepareProcessor B).checkProcessor B) := by
  refine (passedRules B (B.mp.env W) i).check ?_
  have common : (b.platformSetAffinity B (B.mp.env W) i).common =
      b.common.emit (.setAffinity i ((B.mp.env W).setAffinity b.common.trace i)) := platformSetAffinity_common ..
  by_cases failed : ((B.mp.env W).setAffinity b.common.trace i) < 0
  · refine .inr (.inr ⟨_, failed, ?_⟩)
    show _ ∈ (b.platformSetAffinity B (B.mp.env W) i).common.trace
    rw [common]
    exact List.mem_cons_self
  · have there : B.mp.bsp (b.platformSetAffinity B (B.mp.env W) i).common.trace = UInt64.ofInt i := by
      rw [common]
      exact bsp_of_placed failed _
    exact passed_of_prepare there

theorem prepareLoop_passes {j : Nat} (n i : Nat) (status : UInt64) (b : Boot)
    (ok : ¬efiError (prepareLoop B (B.mp.env W) n i status b).1) (above : i ≤ j) (below : j < i + n) :
    Passed j (prepareLoop B (B.mp.env W) n i status b).2 := by
  induction n generalizing i status b with
  | zero => omega
  | succ n ih =>
    unfold prepareLoop processorLoop at ok ⊢
    dsimp only at ok ⊢
    split at ok
    · contradiction
    · rename_i fine
      rw [if_neg fine]
      rcases Nat.eq_or_lt_of_le above with rfl | later
      · exact (passedRules B _ _).prepareLoop n (i + 1) _ passed_of_round
      · exact ih (i + 1) _ _ ok later (by omega)

end Loops

/-! ### The boot -/

/-- Nothing was loaded or started so far. -/
structure Fresh (b : Boot) : Prop where
  unloaded : b.common.vmmStatus = .unloaded
  quiet : ∀ dp, .startImage dp ∉ b.log

section Boot
variable {B : BootServices} {E : Env} {b : Boot} {fuel : Nat} {status : UInt64}

theorem Fresh.settle (h : Fresh b) : Fresh (b.settle B) :=
  ⟨h.unloaded, fun dp => List.not_mem_cons_of_ne_of_not_mem (by simp) (h.quiet dp)⟩

theorem Fresh.place (h : Fresh b) (i : Nat) : Fresh (b.platformSetAffinity B E i) := by
  have placed : Fresh { b with common := b.common.emit (.setAffinity i (E.setAffinity b.common.trace i)) } :=
    ⟨h.unloaded, h.quiet⟩
  unfold Boot.platformSetAffinity
  dsimp only
  split
  · exact placed.settle
  · exact placed

theorem Fresh.prepare (h : Fresh b) : Fresh (b.prepareProcessor B) :=
  ⟨h.unloaded, fun dp => List.not_mem_cons_of_ne_of_not_mem (by simp) (h.quiet dp)⟩

theorem Fresh.check (h : Fresh b) : Fresh (b.checkProcessor B) :=
  ⟨h.unloaded, fun dp => List.not_mem_cons_of_ne_of_not_mem (by simp) (h.quiet dp)⟩

theorem Fresh.prepareLoop (h : Fresh b) (n i : Nat) (status : UInt64) : Fresh (prepareLoop B E n i status b).2 :=
  processorLoop_keeps (fun _ _ h => h.place _) (fun _ h => h.prepare.check) n i status h

theorem Fresh.checkLoop (h : Fresh b) (n i : Nat) (status : UInt64) : Fresh (checkLoop B E n i status b).2 :=
  processorLoop_keeps (fun _ _ h => h.place _) (fun _ h => h.check) n i status h

theorem addHypervisorModules_status (mods : List (UInt64 × UInt64)) {s : State} (unloaded : s.vmmStatus = .unloaded) :
    (addHypervisorModules E mods s).vmmStatus = .unloaded := by
  induction mods generalizing s with
  | nil => exact unloaded
  | cons m mods ih =>
    have kept : (commonAddModule E m.1 m.2 s).2.vmmStatus = .unloaded := by
      rcases commonAddModule_cases E m.1 m.2 s with ⟨-, same⟩ | ⟨-, -, -, more⟩
      · rw [same]
        exact unloaded
      · rw [more]
        exact unloaded
    unfold addHypervisorModules
    dsimp only
    split
    · exact kept
    · exact ih kept

/-- A start without an error is one of a loaded VMM. -/
theorem loaded_of_start {s : State} (idle : s.vmmStatus = .unloaded ∨ s.vmmStatus = .loaded)
    (ok : ¬(commonStartVmm E s).1 < 0) : s.vmmStatus = .loaded := by
  refine idle.resolve_left fun unloaded => ok ?_
  rw [commonStartVmm, unloaded]
  exact E.sdk.code_neg _

theorem bootNative_common (B : BootServices) (b : Boot) : (bootNative B b).2.common = b.common := by
  unfold bootNative
  dsimp only
  split
  · rfl
  · split <;> rfl

theorem bootNative_startImage {dp : Option (List UInt8)} (h : .startImage dp ∈ (bootNative B b).2.log)
    (quiet : .startImage dp ∉ b.log) :
    ¬efiError (generateFileDP B.files nativeEfi).1 ∧ dp = (generateFileDP B.files nativeEfi).2 := by
  unfold bootNative at h
  dsimp only at h
  split at h
  · contradiction
  · rename_i path
    split at h
    · contradiction
    · exact ⟨path, BootEvent.startImage.inj ((List.mem_cons.mp h).resolve_right quiet)⟩

/-- The image is started after a start of the VMM without an error. -/
theorem bootVmm_startImage (fresh : Fresh b) {dp : Option (List UInt8)}
    (h : .startImage dp ∈ (bootVmm B E fuel status b).2.log) : ∃ s, s.vmmStatus = .loaded ∧
      ¬(commonStartVmm E s).1 < 0 ∧ (bootVmm B E fuel status b).2.common = (commonStartVmm E s).2 ∧
      ¬efiError (generateFileDP B.files nativeEfi).1 ∧ dp = (generateFileDP B.files nativeEfi).2 := by
  have added := addHypervisorModules_status (E := E) B.modules fresh.unloaded
  have idle := (commonLoadVmm_status E (addHypervisorModules E B.modules b.common) fuel).imp (fun same => same.trans added) And.right
  -- Only the log of the boot matters here, and it has the second preparation of the boot processor at most.
  have loads (t : State) : .startImage dp ∉ (Boot.settle B { b with common := t }).log :=
    List.not_mem_cons_of_ne_of_not_mem (by simp) (fresh.quiet dp)
  have starts (t : State) {b' : Boot} (quiet : .startImage dp ∉ b'.log) :
      .startImage dp ∉ (Boot.settle B { b'.prepareProcessor B with common := t }).log :=
    List.not_mem_cons_of_ne_of_not_mem (by simp) (List.not_mem_cons_of_ne_of_not_mem (by simp) quiet)
  unfold bootVmm at h ⊢
  dsimp only at h ⊢
  split at h
  · exact absurd h (loads _)
  · split at h
    · exact absurd h (loads _)
    · rename_i fine
      split at h
      · exact absurd h (starts _ (loads _))
      · rename_i ok
        rw [if_neg fine, if_neg ok]
        refine ⟨_, loaded_of_start idle ok, ok, bootNative_common B _, ?_⟩
        exact bootNative_startImage h (starts _ (loads _))

/-- A boot that starts the image has gone through the loops. -/
theorem uefiMain_startImage {W : Env} {board : Board} {dp : Option (List UInt8)}
    (h : .startImage dp ∈ (uefiMain B W fuel board).2.log) : ∃ status b, Fresh b ∧
      (∀ i < B.mp.numberOfProcessors.toNat, Passed i b) ∧
      (uefiMain B W fuel board).2 = (bootVmm B (B.mp.env W) fuel status b).2 := by
  have start : Fresh { common := (commonInit (B.mp.env W) (.initial W.sdk)).2, board := board } := ⟨rfl, by simp⟩
  unfold uefiMain at h ⊢
  dsimp only at h ⊢
  split at h
  · exact absurd h (start.quiet dp)
  · rename_i located
    rw [if_neg located]
    split at h
    · exact absurd h (start.quiet dp)
    · rename_i counted
      rw [if_neg counted]
      split at h
      · exact absurd h ((start.prepareLoop _ _ _).quiet dp)
      · rename_i prepared
        rw [if_neg prepared]
        split at h
        · exact absurd h (((start.prepareLoop _ _ _).checkLoop _ _ _).quiet dp)
        · rename_i checked
          rw [if_neg checked]
          refine ⟨_, _, ((start.prepareLoop _ _ _).checkLoop _ _ _).place 0, fun i hi => ?_, rfl⟩
          have passed := prepareLoop_passes _ 0 _ _ prepared (Nat.zero_le i) (by rwa [Nat.zero_add])
          exact (passedRules B _ i).platformSetAffinity 0 ((passedRules B _ i).checkLoop _ _ _ passed)

/-- The operating system is started from the path of the next boot step, by a boot in which every processor was prepared
    or could not be reached, and only while all processors run under the VMM, unless the start of the VMM handed on a
    positive answer or was in the end not told the number of processors. -/
theorem native_starts_over_vmm {W : Env} {board : Board} {dp : Option (List UInt8)}
    (h : .startImage dp ∈ (uefiMain B W fuel board).2.log) :
    (AllLaunched B.mp.numberOfProcessors.toInt64 (uefiMain B W fuel board).2.common ∨
      (∃ n : Int64, n.toInt ≤ 0 ∧ (uefiMain B W fuel board).2.common.trace.head? = some (.numCpus n)) ∨
      ∃ e ∈ (uefiMain B W fuel board).2.common.trace, HandedOn .startVmm e) ∧
    (∀ i < B.mp.numberOfProcessors.toNat, Passed i (uefiMain B W fuel board).2) ∧
    ¬efiError (generateFileDP B.files nativeEfi).1 ∧ dp = (generateFileDP B.files nativeEfi).2 := by
  obtain ⟨status, b, fresh, passed, same⟩ := uefiMain_startImage h
  rw [same] at h ⊢
  obtain ⟨s, loaded, ok, common, path⟩ := bootVmm_startImage fresh h
  refine ⟨?_, fun i hi => (passedRules B _ i).bootVmm fuel status (passed i hi), path⟩
  rw [common]
  exact vmm_of_start loaded ok

end Boot

/-! ### Examples -/

/-- Two processors, and a firmware that grants everything. -/
def testBoot : BootServices where
  mp := { numberOfProcessors := 2, home := 0, getNumberOfProcessors := fun _ => 0, whoAmI := fun _ => 0
          enableDisableAp := fun _ _ => 0, switchBsp := fun _ _ => 0 }
  pools := testFirmware
  files := testFiles
  locateProtocol := 0
  getProcessorInfo _ _ := 0
  loadImage := 0
  startImage := 0
  modules := [(0x5000, 100)]
  elapse _ b := b.memory
  elapse_inUse _ _ _ _ _ _ := rfl
  registers _ b := b.processors

/-- Processors that share a table of zeros. -/
def testBoard : Board where
  memory _ := 0
  inUse := [⟨0x1000, 0x71⟩]
  calls := []
  processors _ := { gdtr := { limit := 0x70, base := 0x1000 }, tr := 0, eflags := 0 }

theorem native_starts_over_two_processors :
    let b := (uefiMain testBoot (testEnv {}) 8 testBoard).2
    (AllLaunched 2 b.common ∨ ∃ e ∈ b.common.trace, HandedOn .startVmm e) ∧ ∀ i < 2, Passed i b := by
  intro b
  have started : b.log.head? = some (.startImage (generateFileDP testFiles nativeEfi).2) := by decide +kernel
  have counted : b.common.trace.head? = some (.numCpus 2) := by decide +kernel
  obtain ⟨vmm, passed, -⟩ := native_starts_over_vmm (List.mem_of_mem_head? started)
  refine ⟨vmm.imp_right fun other => other.resolve_left ?_, passed⟩
  rintro ⟨n, none, last⟩
  cases counted.symm.trans last
  exact absurd none (by decide)

end Bfdriver.Uefi
