import Bfdriver.Theorems.Coupling
import Bfdriver.Theorems.Rounds

/-! # A start that fails is rolled back

A start that cannot place itself on a CPU, or whose `BF_REQUEST_VMM_INIT` fails there, stops the CPUs that it has
started, from the last one down. It does so through `common_stop_vmm`, which has nothing to do while the VMM is still
loaded, and which may itself fail on any of the CPUs. -/

namespace Bfdriver
open EventLog

/-! ### How a stop goes -/

/-- The calls of a round of a stop that fails on CPU `c`, newest first, with the status that it leaves. -/
inductive FailedStop (k : Sdk) (s : State) (c : Int) : Trace → VmmStatus → Prop where
  | notPlaced {affinity : Int} (neg : affinity < 0) : FailedStop k s c [.setAffinity c affinity] .corrupt
  | refused {affinity : Int} {r01 : UInt64} (placed : 0 ≤ affinity) (ne : r01 ≠ 0) :
      FailedStop k s c [.vmcall .stop c r01, .setAffinity c affinity] .running
  | argsRefused {affinity ret : Int} (placed : 0 ≤ affinity) (ne : ret ≠ bfSuccess) :
      FailedStop k s c [.setIntegerArgs (.vmmFini c) ret, .vmcall .stop c 0, .setAffinity c affinity] .corrupt
  | finiRefused {affinity ret : Int} {cpuid : Int64} (placed : 0 ≤ affinity) (ne : ret ≠ bfSuccess) :
      FailedStop k s c (requestCalls k s (.vmmFini c) cpuid ret ++ [.vmcall .stop c 0, .setAffinity c affinity]) .corrupt

/-- How a stop of the CPUs below `m` leaves the state `s`: it has stopped all of them, or those above a CPU on which
    it failed. -/
inductive RolledBack (E : Env) (s : State) (m : Nat) : State → Prop where
  | whole {args : Option Request} {down : Trace} (blocks : Blocks (StopsOn E s) (List.range m) down) :
      RolledBack E s m (s.advance args 0 .loaded down)
  | failed {args : Option Request} {i : Nat} {calls down : Trace} {status : VmmStatus} (below : i < m)
      (blocks : Blocks (StopsOn E s) (List.range' (i + 1) (m - (i + 1))) down)
      (last : FailedStop E.sdk s i calls status) : RolledBack E s m (s.advance args (i + 1 : Nat) status (calls ++ down))

/-- A rollback that leaves the VMM loaded has stopped every CPU. -/
theorem RolledBack.counter {E : Env} {s t : State} {m : Nat} (h : RolledBack E s m t) (status : t.vmmStatus = .loaded) :
    t.numCpusStarted = 0 := by
  cases h with
  | whole => rfl
  | failed below blocks last => cases last <;> cases status

section Stop
variable {E : Env} {m : Nat} {s : State} {c : Int}

theorem stopCpu_failed (start : s.start ≠ 0) (running : s.vmmStatus = .running) (h : (stopCpu E c s).1 ≠ .next) :
    ∃ args calls status, FailedStop E.sdk s c calls status ∧
      (stopExit (stopCpu E c s)).2 = s.advance args s.numCpusStarted status calls := by
  unfold stopCpu at h ⊢
  dsimp only at h ⊢
  set placed := s.emit (.setAffinity c (E.setAffinity s.trace c)) with hplaced
  split
  · rename_i neg
    exact ⟨s.info.args, _, _, .notPlaced neg, rfl⟩
  · rename_i nonneg
    rw [if_neg nonneg] at h
    have nonneg := Int.not_lt.mp nonneg
    split
    · rename_i ne
      exact ⟨s.info.args, _, _, .refused nonneg ne, by rw [← running]; rfl⟩
    · rename_i accepted
      rw [if_neg accepted] at h
      rw [not_not.mp accepted] at h ⊢
      split
      · rename_i ne
        have stopped : (placed.emit (.vmcall .stop c 0)).start ≠ 0 := start
        obtain ⟨args, calls, shape, called⟩ := callVmm_answered E (.vmmFini c) stopped
        refine ⟨args, calls ++ [.vmcall .stop c 0, .setAffinity c (E.setAffinity s.trace c)], .corrupt, ?_, ?_⟩
        · rcases shape with rfl | ⟨cpuid, rfl⟩
          · exact .argsRefused nonneg ne
          · exact .finiRefused nonneg ne
        · show { (callVmm E (.vmmFini c) (placed.emit (.vmcall .stop c 0))).2 with vmmStatus := .corrupt } = _
          rw [called]
          simp [hplaced, State.advance, State.emit]
      · rename_i succeeded
        rw [if_neg succeeded] at h
        exact absurd rfl h

/-- A stop of a running VMM stops its CPUs from the last one down, as far as it succeeds. -/
theorem commonStopVmm_rolledBack (start : s.start ≠ 0) (running : s.vmmStatus = .running)
    (counter : s.numCpusStarted = (m : Nat)) : RolledBack E s m (commonStopVmm E s).2 := by
  rw [commonStopVmm_of_running E running, counter, Int.toNat_natCast]
  rcases stopLoop_stopped E m s .none with ⟨u, run, loop⟩ | ⟨i, u, below, run, failed, loop⟩
  · obtain ⟨-, args, down, downs, rfl⟩ := run.state
    rw [Nat.sub_zero, ← List.range_eq_range'] at downs
    have all : s.numCpusStarted - (m - 0 : Nat) = 0 := by omega
    rw [loop, all]
    exact .whole downs
  · obtain ⟨-, args, down, downs, rfl⟩ := run.state
    obtain ⟨args', calls, status, last, after⟩ :=
      stopCpu_failed (s := s.advance args (s.numCpusStarted - (m - (i + 1) : Nat)) s.vmmStatus down) start running failed
    have left : s.numCpusStarted - (m - (i + 1) : Nat) = (i + 1 : Nat) := by omega
    rw [loop, after, State.advance_advance, State.advance_numCpusStarted, left]
    have last : FailedStop E.sdk s i calls status := by
      cases last with
      | notPlaced neg => exact .notPlaced neg
      | refused placed ne => exact .refused placed ne
      | argsRefused placed ne => exact .argsRefused placed ne
      | finiRefused placed ne => exact .finiRefused placed ne
    exact .failed below downs last

end Stop

/-! ### How a start fails -/

/-- The loop of a start fails on CPU `c` with the code `ret`, and leaves the state `v`. -/
inductive FailedInit (E : Env) (c : Int) (u : State) : Int → State → Prop where
  | notPlaced (neg : E.setAffinity u.trace c < 0) :
      FailedInit E c u (E.setAffinity u.trace c) (u.emit (.setAffinity c (E.setAffinity u.trace c)))
  | initRefused (placed : 0 ≤ E.setAffinity u.trace c)
      (ne : (callVmm E (.vmmInit c) (u.emit (.setAffinity c (E.setAffinity u.trace c)))).1 ≠ bfSuccess) :
      FailedInit E c u (callVmm E (.vmmInit c) (u.emit (.setAffinity c (E.setAffinity u.trace c)))).1
        (callVmm E (.vmmInit c) (u.emit (.setAffinity c (E.setAffinity u.trace c)))).2

/-- A call that stops a CPU. -/
def IsStop : Event → Prop
  | .vmcall .stop .. | .setIntegerArgs (.vmmFini _) _ | .enter _ (.vmmFini _) .. => True
  | _ => False

section Start
variable {E : Env} {k : Nat} {ret : Int} {s u v : State}

theorem FailedInit.startCpu {c : Int} (h : FailedInit E c u ret v) : startCpu E c u = (.fail ret, v) := by
  unfold Bfdriver.startCpu
  cases h with
  | notPlaced neg => exact if_pos neg
  | initRefused placed ne =>
    dsimp only
    rw [if_neg (Int.not_lt.mpr placed), if_pos ne]

theorem FailedInit.called {c : Int} (h : FailedInit E c u ret v) : Called u v := by
  have placed : Called u (u.emit (.setAffinity c (E.setAffinity u.trace c))) := (Called.refl u).emit trivial
  cases h with
  | notPlaced neg => exact placed
  | initRefused => exact placed.trans (callVmm_called E _ _)

theorem callVmm_stops_nothing {req : Request} (h : ∀ c, req ≠ .vmmFini c) (s : State) :
    Grew (fun e => ¬IsStop e) s.trace (callVmm E req s).2.trace :=
  (callVmm_carries E req s).mono fun e he => by
    cases e with
    | setIntegerArgs req' => cases he; cases req <;> first | exact id | exact absurd rfl (h _)
    | enter res req' => cases he; cases req <;> first | exact id | exact absurd rfl (h _)
    | _ => first | exact id | exact he.elim

theorem startCpu_stops_nothing (E : Env) (c : Int) (s : State) :
    Grew (fun e => ¬IsStop e) s.trace (Bfdriver.startCpu E c s).2.trace := by
  have placed : Grew (fun e => ¬IsStop e) s.trace (s.emit (.setAffinity c (E.setAffinity s.trace c))).trace :=
    (Grew.refl _).cons id
  unfold Bfdriver.startCpu
  dsimp only
  split
  · exact placed
  · have other : ∀ d, Request.vmmInit c ≠ .vmmFini d := by simp
    have called := placed.trans (callVmm_stops_nothing (E := E) other _)
    split
    · exact called
    · split
      · exact called.cons id
      · exact ((called.cons id).cons id).cons id

theorem Started.stops_nothing (h : Started E s k u) : Grew (fun e => ¬IsStop e) s.trace u.trace := by
  induction h with
  | none => exact .refl _
  | @next m t before more done ih =>
    have asked : Grew (fun e => ¬IsStop e) s.trace (counted E t).trace := ih.cons id
    exact asked.trans (startCpu_stops_nothing E m _)

/-- Once a CPU is started the VMM has an entry point. -/
theorem Started.start_ne_zero (h : Started E s k u) (some : 0 < k) : u.start ≠ 0 := by
  cases h with
  | none => exact absurd some (Nat.lt_irrefl 0)
  | @next m t before more done =>
    intro none
    have kept := startCpu_kept E (counted E t) m
    rw [kept.start] at none
    have failed : (callVmm E (.vmmInit m)
        ((counted E t).emit (.setAffinity m (E.setAffinity (counted E t).trace m)))).1 ≠ bfSuccess := fun success =>
      start_ne_zero_of_callVmm E _ _ success none
    unfold Bfdriver.startCpu at done
    dsimp only at done
    split at done
    · cases done
    · cases done

/-- The stop behind a start that fails on CPU `k`: there is nothing to do for the first CPU, and the VMM is running for
    the others. -/
theorem Started.rolledBack (loaded : s.vmmStatus = .loaded) (started : Started E { s with numCpusStarted := 0 } k u)
    (fails : FailedInit E k (counted E u) ret v) : RolledBack E v k (commonStopVmm E v).2 := by
  have called : Called (counted E u) v := fails.called
  obtain ⟨args, up, -, hu⟩ := started.state
  have counter : v.numCpusStarted = (k : Nat) := by
    rw [called.started, counted, hu]
    exact Int.zero_add _
  rcases Nat.eq_zero_or_pos k with rfl | some
  · have status : v.vmmStatus = .loaded := by
      rw [called.status, counted, hu]
      exact loaded
    rw [commonStopVmm_refused E (by simp [status])]
    have same : v = v.advance v.info.args 0 .loaded [] := by
      rw [← status, ← show v.numCpusStarted = 0 from counter]
      rfl
    nth_rewrite 2 [same]
    exact .whole .nil
  · have status : v.vmmStatus = .running := by
      rw [called.status, counted, hu]
      exact if_neg (Nat.ne_of_gt some)
    exact commonStopVmm_rolledBack (called.start ▸ started.start_ne_zero some) status counter

end Start

/-- A start that fails on CPU `k` returns the code of that failure, has stopped nothing until then, and then stops the
    CPUs below `k`, from the last one down, as far as that succeeds. If all of it succeeds the next start begins afresh,
    and if it fails on account of the platform or of `BF_REQUEST_VMM_FINI` the VMM is corrupt. -/
theorem start_rolls_back {E : Env} {s u v : State} {k : Nat} {ret : Int} (loaded : s.vmmStatus = .loaded)
    (started : Started E { s with numCpusStarted := 0 } k u) (more : (k : Int) < (E.numCpus u.trace).toInt)
    (fails : FailedInit E k (counted E u) ret v) :
    (commonStartVmm E s).1 = ret ∧ Grew (fun e => ¬IsStop e) s.trace v.trace ∧
      RolledBack E v k (commonStartVmm E s).2 ∧
      ((commonStartVmm E s).2.vmmStatus = .loaded → (commonStartVmm E s).2.numCpusStarted = 0 ∧
        commonStartVmm E (commonStartVmm E s).2 = startExit E (startLoop E maxCpus 0 (commonStartVmm E s).2)) := by
  have room : k < maxCpus := by
    have := (E.numCpus u.trace).toInt_lt
    simp only [maxCpus]
    omega
  have rounds : maxCpus = k + (maxCpus - k - 1 + 1) := by omega
  have exit : commonStartVmm E s = (ret, (commonStopVmm E v).2) := by
    rw [commonStartVmm_of_loaded E loaded, rounds, started.loop, startLoop]
    dsimp only
    rw [if_pos more, fails.startCpu]
    rfl
  have rolled := started.rolledBack loaded fails
  rw [exit]
  refine ⟨rfl, ?_, rolled, fun status => ?_⟩
  · have before : Grew (fun e => ¬IsStop e) s.trace (counted E u).trace := started.stops_nothing.cons id
    have last := startCpu_stops_nothing E k (counted E u)
    rw [fails.startCpu] at last
    exact before.trans last
  · have zero := rolled.counter status
    refine ⟨zero, ?_⟩
    rw [commonStartVmm_of_loaded E status]
    congr 2
    rw [← zero]

/-- The second of two CPUs cannot be placed on. -/
theorem start_rolls_back_from_second_cpu :
    let E := testEnv { numCpus := 2, setAffinity := fun _ c => if c = 1 then -1 else 0 }
    let s := after E 8 [.addModule 0x5000 100, .loadVmm]
    (commonStartVmm E s).1 = -1 ∧ ∃ v, RolledBack E v 1 (commonStartVmm E s).2 := by
  intro E s
  have first : Started E { s with numCpusStarted := 0 } 1 (startCpu E 0 (counted E { s with numCpusStarted := 0 })).2 :=
    .next .none (by decide +kernel) (by decide +kernel)
  have second := start_rolls_back (s := s) (by decide +kernel) first (by decide +kernel) (.notPlaced (by decide +kernel))
  exact ⟨second.1.trans (by decide +kernel), _, second.2.2.1⟩

end Bfdriver
