import Bfdriver.Theorems.Coupling
import Bfdriver.Theorems.Placement
import Bfdriver.Theorems.Rounds
import Bfdriver.Windows.Platform

/-! # False failures of the affinity on Windows

On Windows the answer of `platform_set_affinity` is the mask that the thread had before, read as a signed number, and the
loops over the CPUs take a negative answer for a failure. The mask of CPU 63 is negative. The thread has it only if it
was left on that CPU by a request or a vmcall that failed there. -/

namespace Bfdriver.Windows
open EventLog Runs

/-! ### Masks -/

/-- The bit of a CPU is the sign bit exactly if the CPU is number 63. -/
theorem bit_neg_iff {c : Int} (lo : 0 ≤ c) (hi : c < 64) (mask : UInt64) :
    (platformSetAffinity (Int64.ofInt c) mask).2.toInt64.toInt < 0 ↔ c = 63 := by
  have all : ∀ i : Fin 64, ((1 : UInt64) <<< (Int64.ofInt (i : Nat)).toUInt64).toInt64.toInt < 0 ↔ (i : Nat) = 63 := by
    decide +kernel
  obtain ⟨i, rfl⟩ := Int.eq_ofNat_of_zero_le lo
  have one : ((1 : UInt64) <<< (Int64.ofInt i).toUInt64).toInt64.toInt < 0 ↔ i = 63 := all ⟨i, by omega⟩
  have cast : ((i : Nat) : Int) = 63 ↔ i = 63 := by omega
  exact one.trans cast.symm

/-- What a thread gets back is the mask that it had. -/
theorem restored_eq (t : Trace) (c : Int) :
    platformRestoreAffinity (Int64.ofInt (affinityAnswer t c)) = systemAffinity t := by
  simp [platformRestoreAffinity, keRevertToUserAffinityThreadEx, affinityAnswer, platformSetAffinity,
    keSetSystemAffinityThreadEx]

/-! ### Disciplined traces -/

/-- A call that changes the mask of the thread. -/
def Places : Event → Prop
  | .setAffinity .. | .restoreAffinity .. => True
  | _ => False

/-- The calls for rounds on CPUs below `n`. In a round on a CPU the affinity of the thread is kept for its end; a round
    ends when the thread is put back, or when a request or a vmcall on its CPU fails. -/
inductive Disciplined (n : Int) : Trace → Option (Int × Int) → Prop where
  | nil : Disciplined n [] none
  | other {t : Trace} {round : Option (Int × Int)} {e : Event} (before : Disciplined n t round) (stays : ¬Places e)
      (accepted : refusedOn e = none) : Disciplined n (e :: t) round
  | failed {t : Trace} {c : Int} (before : Disciplined n t none) (lo : 0 ≤ c) (hi : c < n)
      (neg : affinityAnswer t c < 0) : Disciplined n (.setAffinity c (affinityAnswer t c) :: t) none
  | placed {t : Trace} {c : Int} (before : Disciplined n t none) (lo : 0 ≤ c) (hi : c < n)
      (nonneg : 0 ≤ affinityAnswer t c) :
      Disciplined n (.setAffinity c (affinityAnswer t c) :: t) (some (c, affinityAnswer t c))
  | refused {t : Trace} {c affinity : Int} {e : Event} (before : Disciplined n t (some (c, affinity)))
      (on : refusedOn e = some c) : Disciplined n (e :: t) none
  | restored {t : Trace} {c affinity : Int} (before : Disciplined n t (some (c, affinity))) :
      Disciplined n (.restoreAffinity affinity :: t) none

/-- No answer of `platform_set_affinity` is taken for a failure. -/
def NeverFails (t : Trace) : Prop := ∀ c ret, .setAffinity c ret ∈ t → 0 ≤ ret

/-- A request or a vmcall on CPU 63 failed. -/
def Refused63 (t : Trace) : Prop := ∃ e ∈ t, refusedOn e = some 63

/-- No call of `platform_set_affinity` comes after a request or a vmcall that failed on CPU 63. -/
def NoneAfterRefusal (t : Trace) : Prop :=
  AtEach (fun past e => (∃ c ret, e = .setAffinity c ret) → ¬Refused63 past) t

section Discipline
variable {n : Int} {t : Trace} {e : Event} {round : Option (Int × Int)}

theorem systemAffinity_cons (h : ¬Places e) : systemAffinity (e :: t) = systemAffinity t := by
  cases e <;> first | rfl | exact absurd trivial h

theorem not_places_of_refused {c : Int} (h : refusedOn e = some c) : ¬Places e := by
  cases e <;> first | exact id | cases h

theorem refused63_cons : Refused63 (e :: t) ↔ refusedOn e = some 63 ∨ Refused63 t := by
  simp [Refused63]

theorem neverFails_cons (h : ∀ c ret, e ≠ .setAffinity c ret) : NeverFails (e :: t) ↔ NeverFails t := by
  unfold NeverFails
  refine ⟨fun all c ret hm => all c ret (List.mem_cons_of_mem _ hm), fun all c ret hm => ?_⟩
  rcases List.mem_cons.mp hm with same | hm
  · exact absurd same.symm (h c ret)
  · exact all c ret hm

theorem neverFails_set {c ret : Int} : NeverFails (.setAffinity c ret :: t) ↔ 0 ≤ ret ∧ NeverFails t := by
  unfold NeverFails
  simp only [List.mem_cons, Event.setAffinity.injEq]
  refine ⟨fun all => ⟨all c ret (.inl ⟨rfl, rfl⟩), fun d r hm => all d r (.inr hm)⟩, fun all d r hm => ?_⟩
  rcases hm with ⟨rfl, rfl⟩ | hm
  · exact all.1
  · exact all.2 d r hm

theorem noneAfterRefusal_cons (h : ∀ c ret, e ≠ .setAffinity c ret) :
    NoneAfterRefusal (e :: t) ↔ NoneAfterRefusal t := by
  refine ⟨fun all => ?_, fun all => .cons (fun ⟨c, ret, same⟩ => absurd same (h c ret)) all⟩
  cases all with
  | cons here past => exact past

theorem noneAfterRefusal_set {c ret : Int} :
    NoneAfterRefusal (.setAffinity c ret :: t) ↔ ¬Refused63 t ∧ NoneAfterRefusal t := by
  refine ⟨fun all => ?_, fun all => .cons (fun _ => all.1) all.2⟩
  cases all with
  | cons here past => exact ⟨here ⟨c, ret, rfl⟩, past⟩

theorem noneAfterRefusal_of_not_refused (never : ¬Refused63 t) : NoneAfterRefusal t := by
  induction t with
  | nil => exact .nil
  | cons e t ih =>
    rw [refused63_cons, not_or] at never
    exact .cons (fun _ => never.2) (ih never.2)

/-- While no answer was negative, the mask outside of the rounds is negative if CPU 63 has refused, and in a round the
    mask is the one of the CPU, and CPU 63 has not refused. -/
def MaskInv (t : Trace) : Option (Int × Int) → Prop
  | none => (systemAffinity t).toInt64.toInt < 0 ↔ Refused63 t
  | some (c, affinity) => ((systemAffinity t).toInt64.toInt < 0 ↔ c = 63) ∧ 0 ≤ affinity ∧
      (platformRestoreAffinity (Int64.ofInt affinity)).toInt64.toInt = affinity ∧ ¬Refused63 t

theorem Disciplined.mask (h : Disciplined n t round) (bound : n ≤ 64) :
    (NeverFails t ↔ NoneAfterRefusal t) ∧ (NeverFails t → MaskInv t round) := by
  induction h with
  | nil => exact ⟨iff_of_true (by simp [NeverFails]) .nil, fun _ => iff_of_false (by decide) (by simp [Refused63])⟩
  | @other t round e before stays accepted ih =>
    have noSet : ∀ c ret, e ≠ .setAffinity c ret := fun c ret same => stays (same ▸ trivial)
    have same : Refused63 (e :: t) ↔ Refused63 t := by simp [refused63_cons, accepted]
    rw [neverFails_cons noSet, noneAfterRefusal_cons noSet]
    refine ⟨ih.1, fun never => ?_⟩
    have inv := ih.2 never
    rcases round with _ | ⟨c, affinity⟩ <;> simpa only [MaskInv, systemAffinity_cons stays, same] using inv
  | @failed t c before lo hi neg ih =>
    rw [neverFails_set, noneAfterRefusal_set, ← ih.1]
    have negative (never : NeverFails t) : Refused63 t := (ih.2 never).mp neg
    exact ⟨iff_of_false (fun h => absurd neg (Int.not_lt.mpr h.1)) fun h => h.1 (negative h.2),
      fun h => absurd neg (Int.not_lt.mpr h.1)⟩
  | @placed t c before lo hi nonneg ih =>
    rw [neverFails_set, noneAfterRefusal_set, ← ih.1]
    have accepted (never : NeverFails t) : ¬Refused63 t := fun refused =>
      absurd ((ih.2 never).mpr refused) (Int.not_lt.mpr nonneg)
    refine ⟨⟨fun h => ⟨accepted h.2, h.2⟩, fun h => ⟨nonneg, h.2⟩⟩, fun h => ⟨?_, nonneg, ?_, ?_⟩⟩
    · exact bit_neg_iff lo (by omega) _
    · rw [restored_eq]
      rfl
    · rw [refused63_cons]
      exact fun h' => h'.elim (by simp [refusedOn]) (accepted h.2)
  | @refused t c affinity e before on ih =>
    have stays := not_places_of_refused on
    have noSet : ∀ c ret, e ≠ .setAffinity c ret := fun c ret same => stays (same ▸ trivial)
    rw [neverFails_cons noSet, noneAfterRefusal_cons noSet]
    refine ⟨ih.1, fun never => ?_⟩
    obtain ⟨sign, -, -, accepted⟩ := ih.2 never
    simp only [MaskInv, systemAffinity_cons stays, refused63_cons, accepted, or_false, on, Option.some.injEq, sign]
  | @restored t c affinity before ih =>
    have noSet : ∀ c ret, Event.restoreAffinity affinity ≠ .setAffinity c ret := by simp
    rw [neverFails_cons noSet, noneAfterRefusal_cons noSet]
    refine ⟨ih.1, fun never => ?_⟩
    obtain ⟨-, nonneg, back, accepted⟩ := ih.2 never
    refine iff_of_false ?_ ?_
    · show ¬(platformRestoreAffinity (Int64.ofInt affinity)).toInt64.toInt < 0
      rw [back]
      exact Int.not_lt.mpr nonneg
    · rw [refused63_cons]
      exact fun h => h.elim (by simp [refusedOn]) accepted

/-- Below CPU 63 no round is on that CPU. -/
theorem Disciplined.not_refused63 (h : Disciplined n t round) (bound : n ≤ 63) :
    ¬Refused63 t ∧ ∀ c affinity, round = some (c, affinity) → c < n := by
  induction h with
  | nil => exact ⟨by simp [Refused63], by simp⟩
  | other before stays accepted ih => exact ⟨by simp [refused63_cons, accepted, ih.1], ih.2⟩
  | failed before lo hi neg ih => exact ⟨by simp [refused63_cons, refusedOn, ih.1], by simp⟩
  | placed before lo hi nonneg ih =>
    refine ⟨by simp [refused63_cons, refusedOn, ih.1], fun d affinity same => ?_⟩
    cases same
    exact hi
  | @refused t c affinity e before on ih =>
    have below := ih.2 c affinity rfl
    have other : c ≠ 63 := by omega
    exact ⟨by simp [refused63_cons, on, ih.1, other], by simp⟩
  | restored before ih => exact ⟨by simp [refused63_cons, refusedOn, ih.1], by simp⟩

end Discipline

/-! ### The loops over the CPUs -/

/-- From the trace `t₀` on the platform is that of Windows, for a thread without a mask. -/
def OnWindows (E : Env) (t₀ : Trace) : Prop := ∀ es c, E.setAffinity (es ++ t₀) c = affinityAnswer es c

/-- The calls from the trace `t₀` to the state `s` are disciplined. -/
def Spot (n : Int) (t₀ : Trace) (round : Option (Int × Int)) (s : State) : Prop :=
  ∃ es, s.trace = es ++ t₀ ∧ Disciplined n es round

namespace Spot
variable {n : Int} {t₀ : Trace} {round : Option (Int × Int)} {E : Env} {c affinity : Int} {s t : State}

theorem congr (h : Spot n t₀ round s) (trace : t.trace = s.trace) : Spot n t₀ round t := by
  obtain ⟨es, before, disciplined⟩ := h
  exact ⟨es, trace.trans before, disciplined⟩

theorem other (h : Spot n t₀ round s) {e : Event} (stays : ¬Places e) (accepted : refusedOn e = none) :
    Spot n t₀ round (s.emit e) := by
  obtain ⟨es, before, disciplined⟩ := h
  exact ⟨e :: es, congrArg (List.cons e) before, .other disciplined stays accepted⟩

theorem refused (h : Spot n t₀ (some (c, affinity)) s) {e : Event} (on : refusedOn e = some c) :
    Spot n t₀ none (s.emit e) := by
  obtain ⟨es, before, disciplined⟩ := h
  exact ⟨e :: es, congrArg (List.cons e) before, .refused disciplined on⟩

theorem restored (h : Spot n t₀ (some (c, affinity)) s) : Spot n t₀ none (s.emit (.restoreAffinity affinity)) := by
  obtain ⟨es, before, disciplined⟩ := h
  exact ⟨_ :: es, congrArg (List.cons _) before, .restored disciplined⟩

/-- A call of `platform_set_affinity` begins a round, unless its answer is negative. -/
theorem setAffinity (h : Spot n t₀ none s) (platform : OnWindows E t₀) (lo : 0 ≤ c) (hi : c < n) :
    (E.setAffinity s.trace c < 0 → Spot n t₀ none (s.emit (.setAffinity c (E.setAffinity s.trace c)))) ∧
    (0 ≤ E.setAffinity s.trace c →
      Spot n t₀ (some (c, E.setAffinity s.trace c)) (s.emit (.setAffinity c (E.setAffinity s.trace c)))) := by
  obtain ⟨es, before, disciplined⟩ := h
  have answer : E.setAffinity s.trace c = affinityAnswer es c := by rw [before, platform]
  rw [answer]
  exact ⟨fun neg => ⟨_ :: es, congrArg (List.cons _) before, .failed disciplined lo hi neg⟩,
    fun nonneg => ⟨_ :: es, congrArg (List.cons _) before, .placed disciplined lo hi nonneg⟩⟩

/-- A request for the CPU of a round goes on with it if it succeeds, and ends it otherwise. -/
theorem call (E : Env) (req : Request) (h : Spot n t₀ (some (c, affinity)) s) (start : s.start ≠ 0)
    (hreq : req.cpu = some c) :
    Spot n t₀ (if (callVmm E req s).1 = bfSuccess then some (c, affinity) else none) (callVmm E req s).2 := by
  obtain ⟨es, before, disciplined⟩ := h
  obtain ⟨args, calls, shape, called⟩ := callVmm_answered E req start
  rw [called]
  refine ⟨calls ++ es, by rw [State.advance_trace, before, List.append_assoc], ?_⟩
  -- The answer is that of the only call of the request that may fail.
  have answered {e : Event} {ret : Int} {l : Trace} (earlier : Disciplined n l (some (c, affinity)))
      (stays : ¬Places e) (on : refusedOn e = if ret = bfSuccess then none else some c) :
      Disciplined n (e :: l) (if ret = bfSuccess then some (c, affinity) else none) := by
    split
    · rename_i success
      exact .other earlier stays (on.trans (if_pos success))
    · rename_i ne
      exact .refused earlier (on.trans (if_neg ne))
  rcases shape with rfl | ⟨cpuid, rfl⟩
  · exact answered disciplined id (by rw [refusedOn, hreq])
  · have entered := ((disciplined.other (e := .setIntegerArgs req bfSuccess) id rfl).other
      (e := .currentCpuNum cpuid) id rfl).other (e := .threadContext s.resources (threadContextOf E.sdk s cpuid)) id rfl
    exact (answered entered (e := .enter s.resources req (s.stackTop - E.sdk.threadContextSize - 1) _) id
      (by rw [refusedOn, hreq])).other id rfl

end Spot

theorem startCpu_counter (E : Env) (c : Int) (s : State) : (startCpu E c s).2.numCpusStarted ≤ s.numCpusStarted + 1 := by
  have round := startCpu_round E c s
  revert round
  rcases startCpu E c s with ⟨x, t⟩
  intro round
  have started : t.numCpusStarted = s.numCpusStarted ∨ t.numCpusStarted = s.numCpusStarted + 1 := by
    cases round with
    | notPlaced neg view => exact .inl (congrArg CpuView.started view)
    | initRefused ne view => exact .inl (congrArg CpuView.started view)
    | refused res view => exact .inr (congrArg CpuView.started view)
    | done res view => exact .inr (congrArg CpuView.started view)
  show t.numCpusStarted ≤ _
  omega

/-- A start counts no more CPUs than there are, and none without CPUs. -/
theorem startLoop_counter {E : Env} {n : Int} (counts : ∀ t, (E.numCpus t).toInt = n) (rounds : Nat) {s : State} {c : Int}
    (counter : s.numCpusStarted ≤ c) : (startLoop E rounds c s).2.numCpusStarted ≤ max c n := by
  induction rounds generalizing s c with
  | zero => exact Int.le_trans counter (Int.le_max_left c n)
  | succ rounds ih =>
    unfold startLoop
    dsimp only
    split
    · rename_i more
      rw [counts] at more
      have round := startCpu_counter E c (s.emit (.numCpus (E.numCpus s.trace)))
      have same : (s.emit (.numCpus (E.numCpus s.trace))).numCpusStarted = s.numCpusStarted := rfl
      split
      · have later := ih (s := (startCpu E c (s.emit (.numCpus (E.numCpus s.trace)))).2) (c := c + 1) (by omega)
        omega
      · omega
    · exact Int.le_trans counter (Int.le_max_left c n)

section Loops
variable {n : Int} {t₀ : Trace} {E : Env} (platform : OnWindows E t₀)
include platform

theorem startCpu_spot {s : State} {c : Int} (h : Spot n t₀ none s) (start : s.start ≠ 0) (lo : 0 ≤ c) (hi : c < n) :
    Spot n t₀ none (startCpu E c s).2 := by
  obtain ⟨failed, placed⟩ := h.setAffinity platform lo hi
  unfold startCpu
  dsimp only
  split
  · rename_i neg
    exact failed neg
  · rename_i nonneg
    have called := (placed (Int.not_lt.mp nonneg)).call E (.vmmInit c) start rfl
    split
    · rename_i ne
      rwa [if_neg ne] at called
    · rename_i success
      rw [if_pos (not_not.mp success)] at called
      split
      · rename_i ne
        exact (called.congr rfl).refused (if_neg ne)
      · rename_i accepted
        have started := (called.congr (t := { (callVmm E (.vmmInit c) _).2 with numCpusStarted := _ }) rfl).other
          (e := .vmcall .start c _) id (if_pos (not_not.mp accepted))
        exact ((started.other (e := .platformStart) id rfl).restored).congr rfl

theorem stopCpu_spot {s : State} {c : Int} (h : Spot n t₀ none s) (start : s.start ≠ 0) (lo : 0 ≤ c) (hi : c < n) :
    Spot n t₀ none (stopCpu E c s).2 := by
  obtain ⟨failed, placed⟩ := h.setAffinity platform lo hi
  unfold stopCpu
  dsimp only
  split
  · rename_i neg
    exact failed neg
  · rename_i nonneg
    have placed := placed (Int.not_lt.mp nonneg)
    split
    · rename_i ne
      exact placed.refused (if_neg ne)
    · rename_i accepted
      have stopped := placed.other (e := .vmcall .stop c _) id (if_pos (not_not.mp accepted))
      have called := stopped.call E (.vmmFini c) start rfl
      split
      · rename_i ne
        rwa [if_neg ne] at called
      · rename_i success
        rw [if_pos (not_not.mp success)] at called
        exact ((called.congr (t := { (callVmm E (.vmmFini c) _).2 with numCpusStarted := _ }) rfl).other
          (e := .platformStop) id rfl).restored

theorem stopLoop_spot {m : Nat} (bound : m ≤ n.toNat) {s : State} (h : Spot n t₀ none s) (start : s.start ≠ 0) :
    Spot n t₀ none (stopLoop E m s).2 := by
  induction m generalizing s with
  | zero => exact h
  | succ m ih =>
    have round := stopCpu_spot platform h start (Int.natCast_nonneg m) (by omega)
    unfold stopLoop
    dsimp only
    split
    · exact ih (by omega) round ((stopCpu_kept E s m).start ▸ start)
    · exact round

theorem startLoop_spot (counts : ∀ t, (E.numCpus t).toInt = n) (rounds : Nat) {s : State} {c : Int}
    (h : Spot n t₀ none s) (start : s.start ≠ 0) (lo : 0 ≤ c) : Spot n t₀ none (startLoop E rounds c s).2 := by
  induction rounds generalizing s c with
  | zero => exact h.other id rfl
  | succ rounds ih =>
    have asked : Spot n t₀ none (s.emit (.numCpus (E.numCpus s.trace))) := h.other id rfl
    unfold startLoop
    dsimp only
    split
    · rename_i more
      rw [counts] at more
      have round := startCpu_spot platform asked start lo more
      have kept := (startCpu_kept E (s.emit (.numCpus (E.numCpus s.trace))) c).start
      split
      · exact ih round (kept ▸ start) (by omega)
      · exact round
    · exact asked

theorem commonStopVmm_spot {s : State} (h : Spot n t₀ none s) (start : s.vmmStatus = .running → s.start ≠ 0)
    (counter : s.vmmStatus = .running → s.numCpusStarted.toNat ≤ n.toNat) : Spot n t₀ none (commonStopVmm E s).2 := by
  by_cases running : s.vmmStatus = .running
  · have loop := stopLoop_spot platform (counter running) h (start running)
    rw [commonStopVmm_of_running E running]
    unfold stopExit
    split <;> exact loop.congr rfl
  · rwa [commonStopVmm_refused E running]

theorem commonStartVmm_spot (counts : ∀ t, (E.numCpus t).toInt = n) {s : State} (h : Spot n t₀ none s)
    (entry : HasEntry s) : Spot n t₀ none (commonStartVmm E s).2 := by
  by_cases loaded : s.vmmStatus = .loaded
  · have start : s.start ≠ 0 := entry (by simp [loaded])
    have begun : Spot n t₀ none { s with numCpusStarted := 0 } := h.congr rfl
    have loop := startLoop_spot platform counts maxCpus begun start (Int.le_refl 0)
    have still := (startLoop_kept E maxCpus 0 { s with numCpusStarted := 0 }).start ▸ start
    have zero : { s with numCpusStarted := 0 }.numCpusStarted ≤ 0 := Int.le_refl 0
    have counter := startLoop_counter counts maxCpus zero
    rw [commonStartVmm_of_loaded E loaded]
    unfold startExit
    split
    · exact loop
    · exact commonStopVmm_spot platform loop (fun _ => still) fun _ => by omega
    · exact loop
  · rwa [commonStartVmm_refused E loaded]

end Loops

/-! ### Runs -/

section Runs
variable {E : Env} {n : Int64} {s : State}

/-- A running VMM was started on no more CPUs than there are. -/
theorem started_le (counts : ∀ t, E.numCpus t = n) (h : Reachable E s) (running : s.vmmStatus = .running) :
    s.numCpusStarted ≤ n.toInt := by
  have some : 1 ≤ s.numCpusStarted := (h.coupled.running running).1
  obtain ⟨ok, tried⟩ := h.launchInv.tried running (s.numCpusStarted - 1) (by omega)
    (Int.sub_one_lt_of_le (Int.le_refl _))
  obtain ⟨-, t, below⟩ := h.launchInv.inRange _ ok tried
  rw [counts] at below
  exact Int.le_of_sub_one_lt below

theorem runFrom_spot (counts : ∀ t, E.numCpus t = n) {t₀ : Trace} (platform : OnWindows E t₀) (fuel : Nat)
    {ops : List Op} (calls : ∀ op ∈ ops, op = .startVmm ∨ op = .stopVmm) (h : Reachable E s)
    (spot : Spot n.toInt t₀ none s) : Spot n.toInt t₀ none (runFrom (exec E fuel) ops s) := by
  induction ops generalizing s with
  | nil => exact spot
  | cons op ops ih =>
    obtain ⟨here, later⟩ := List.forall_mem_cons.mp calls
    rcases here with rfl | rfl
    · exact ih later (h.step fuel .startVmm trivial rfl)
        (commonStartVmm_spot platform (fun t => congrArg _ (counts t)) spot h.hasEntry)
    · refine ih later (h.step fuel .stopVmm trivial rfl) (commonStopVmm_spot platform spot (fun running => ?_) ?_)
      · exact h.hasEntry (by simp [running])
      · intro running
        have := started_le counts h running
        omega

end Runs

/-- In every run of starts and stops by a thread that has no mask, on at most 64 CPUs, no answer of
    `platform_set_affinity` is taken for a failure exactly if none is asked for after a request or a vmcall that failed on
    CPU 63. In particular none is if nothing fails on that CPU, and nothing does on at most 63 CPUs. -/
theorem no_false_failures_iff {E : Env} {n : Int64} (counts : ∀ t, E.numCpus t = n) (bound : n.toInt ≤ 64) {s : State}
    (h : Reachable E s) (platform : OnWindows E s.trace) {ops : List Op}
    (calls : ∀ op ∈ ops, op = .startVmm ∨ op = .stopVmm) (fuel : Nat) :
    ∃ es, (runFrom (exec E fuel) ops s).trace = es ++ s.trace ∧ (NeverFails es ↔ NoneAfterRefusal es) ∧
      (¬Refused63 es → NeverFails es) ∧ (n.toInt ≤ 63 → ¬Refused63 es) := by
  have spot : Spot n.toInt s.trace none s := ⟨[], rfl, .nil⟩
  obtain ⟨es, trace, disciplined⟩ := runFrom_spot counts platform fuel calls h spot
  have iff := (disciplined.mask bound).1
  exact ⟨es, trace, iff, fun none => iff.mpr (noneAfterRefusal_of_not_refused none),
    fun few => (disciplined.not_refused63 few).1⟩

/-! ### Examples -/

/-- The test platform with the affinity of Windows, for a thread that makes all calls. -/
def windowsEnv (mocks : Mocks) : Env := testEnv { mocks with setAffinity := affinityAnswer }

theorem onWindows_of_unplaced (mocks : Mocks) {t₀ : Trace} (unplaced : systemAffinity t₀ = 0) :
    OnWindows (windowsEnv mocks) t₀ := by
  have same : ∀ es, systemAffinity (es ++ t₀) = systemAffinity es := fun es => by
    induction es with
    | nil => exact unplaced
    | cons e es ih =>
      cases e <;> first | rfl | exact ih
  intro es c
  show affinityAnswer (es ++ t₀) c = affinityAnswer es c
  rw [affinityAnswer, same]
  rfl

/-- Two CPUs that are started and stopped. -/
theorem no_false_failures_of_two_cpus :
    let E := windowsEnv { numCpus := 2 }
    let s := after E 8 [.addModule 0x5000 100, .loadVmm]
    ∃ es, (runFrom (exec E 8) [.startVmm, .stopVmm] s).trace = es ++ s.trace ∧ NeverFails es := by
  intro E s
  have reachable : Reachable E s := reachable_after (by decide +kernel)
  have platform : OnWindows E s.trace := onWindows_of_unplaced _ (by decide +kernel)
  have calls : ∀ op ∈ [Op.startVmm, .stopVmm], op = .startVmm ∨ op = .stopVmm := by simp
  obtain ⟨es, trace, -, never, few⟩ := no_false_failures_iff (fun _ => rfl) (by decide) reachable platform calls 8
  exact ⟨es, trace, never (few (by decide))⟩

/-- The VMM refuses the last of 64 CPUs, and the rollback takes the mask of that CPU for a failure. -/
theorem false_failure_of_refusal :
    let E := windowsEnv { numCpus := 64, enter := fun _ req => if req = .vmmInit 63 then -1 else bfSuccess }
    let s := after E 128 [.addModule 0x5000 100, .loadVmm]
    OnWindows E s.trace ∧ s.vmmStatus = .loaded ∧
      .setAffinity 62 (-9223372036854775808) ∈ (commonStartVmm E s).2.trace ∧
      (commonStartVmm E s).2.vmmStatus = .corrupt := by
  intro E s
  refine ⟨onWindows_of_unplaced _ (by decide +kernel), ?_⟩
  decide +kernel

end Bfdriver.Windows
