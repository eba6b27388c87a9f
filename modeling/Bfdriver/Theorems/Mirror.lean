import Bfdriver.Theorems.Coupling
import Bfdriver.Theorems.Rounds

/-! # A stop undoes a start

A start that succeeds starts every CPU, from the first to the last, and the stop after it that succeeds stops them
in the opposite order. Both loops meet in the counter of started CPUs, and nothing else is left behind. -/

namespace Bfdriver
open EventLog

/-! ### The last rounds -/

section Ends
variable {E : Env} {n : Int64} {m : Nat} {s : State}

/-- A start that succeeds has made a round on every CPU. -/
theorem commonStartVmm_started (hn : ∀ t, E.numCpus t = n) (loaded : s.vmmStatus = .loaded)
    (success : (commonStartVmm E s).1 = bfSuccess) :
    ∃ args up, Blocks (StartsOn E s) (List.range n.toInt.toNat).reverse up ∧ (commonStartVmm E s).2 =
      s.advance args n.toInt.toNat (if n.toInt.toNat = 0 then .loaded else .running) (.numCpus n :: up) := by
  have bounded : n.toInt ≤ ((0 : Nat) : Int) + maxCpus := by
    have := n.toInt_lt
    simp only [maxCpus]
    omega
  have fails := startLoop_fails E maxCpus 0 { s with numCpusStarted := 0 }
  have reached := startLoop_started hn (s := { s with numCpusStarted := 0 }) .none (Nat.zero_le _) bounded
  rw [Int.natCast_zero] at reached
  rw [commonStartVmm_of_loaded E loaded] at success ⊢
  revert success fails reached
  rcases startLoop E maxCpus 0 { s with numCpusStarted := 0 } with ⟨x, t⟩
  intro success fails reached
  cases x with
  | fail ret => exact absurd success fails
  | ret ret => exact absurd success fails
  | next =>
    obtain ⟨u, run, last⟩ := reached rfl
    obtain ⟨args, up, ups, rfl⟩ := run.state
    have last : t = _ := last
    refine ⟨args, up, ups, ?_⟩
    show t = _
    rw [last, State.emit_advance, Int.zero_add, loaded]
    rfl

/-- A stop of a running VMM that succeeds has made a round on every started CPU. -/
theorem commonStopVmm_stopped (running : s.vmmStatus = .running) (counter : s.numCpusStarted = (m : Nat))
    (success : (commonStopVmm E s).1 = bfSuccess) :
    ∃ args down, Blocks (StopsOn E s) (List.range m) down ∧ (commonStopVmm E s).2 = s.advance args 0 .loaded down := by
  rw [commonStopVmm_of_running E running, counter, Int.toNat_natCast] at success ⊢
  rcases stopLoop_stopped E m s .none with ⟨u, run, loop⟩ | ⟨i, u, -, -, failed, loop⟩
  · obtain ⟨-, args, down, downs, rfl⟩ := run.state
    rw [Nat.sub_zero, ← List.range_eq_range'] at downs
    refine ⟨args, down, downs, ?_⟩
    rw [loop, Nat.sub_zero, counter, Int.sub_self]
    rfl
  · have fails := stopCpu_fails E i u
    rw [loop, stopExit] at success
    rcases hx : (stopCpu E i u).1 with _ | ret | ret
    · exact absurd hx failed
    · rw [hx] at success fails
      exact absurd success fails
    · rw [hx] at success fails
      exact absurd success fails

end Ends

/-! ### The mirror image -/

/-- The thread context of CPU `c`. -/
def contextOn (k : Sdk) (s : State) (c : Nat) : ThreadContext where
  addr := s.stackTop - k.threadContextSize
  cpuid := Int64.ofInt c
  tlsptr := s.tls + k.threadLocalStorageSize * (Int64.ofInt c).toUInt64

/-- A request that the VMM accepted with the thread context of CPU `c`, newest call first. -/
def acceptedOn (k : Sdk) (s : State) (c : Nat) (req : Request) : Trace :=
  [.restorePreemption, .enter s.resources req (s.stackTop - k.threadContextSize - 1) 0,
    .threadContext s.resources (contextOn k s c), .currentCpuNum (Int64.ofInt c), .setIntegerArgs req 0]

/-- A successful round of a start on CPU `c` with the thread on that CPU. -/
def StartedOn (k : Sdk) (n : Int64) (s : State) (c : Nat) (l : Trace) : Prop :=
  ∃ affinity, 0 ≤ affinity ∧ l =
    .restoreAffinity affinity :: .platformStart :: .vmcall .start c 0 :: acceptedOn k s c (.vmmInit c) ++
      [.setAffinity c affinity, .numCpus n]

/-- A successful round of a stop on CPU `c` with the thread on that CPU. -/
def StoppedOn (k : Sdk) (s : State) (c : Nat) (l : Trace) : Prop :=
  ∃ affinity, 0 ≤ affinity ∧ l =
    .restoreAffinity affinity :: .platformStop :: acceptedOn k s c (.vmmFini c) ++
      [.vmcall .stop c 0, .setAffinity c affinity]

/-- A start and the stop after it, both of which succeed, make a round of calls on each CPU, from the first to the last
    and back, and change nothing but the counter and the integer arguments. -/
theorem stop_undoes_start {E : Env} {n : Int64} (hn : ∀ t, E.numCpus t = n)
    (pins : ∀ t c, pinned t = some c → E.currentCpuNum t = Int64.ofInt c) {s : State} (loaded : s.vmmStatus = .loaded)
    (started : (commonStartVmm E s).1 = bfSuccess) (stopped : (commonStopVmm E (commonStartVmm E s).2).1 = bfSuccess) :
    ∃ args up down,
      Blocks (StartedOn E.sdk n s) (List.range n.toInt.toNat).reverse up ∧
      Blocks (StoppedOn E.sdk s) (List.range n.toInt.toNat) down ∧
      (commonStopVmm E (commonStartVmm E s).2).2 =
        { s with info := { s.info with args := args }
                 numCpusStarted := 0
                 vmmStatus := .loaded
                 trace := down ++ .numCpus n :: (up ++ s.trace) } := by
  have exact {c : Int} {cpuid : Int64} (h : CountsAs E c cpuid) : cpuid = Int64.ofInt c := by
    obtain ⟨t, pin, rfl⟩ := h
    exact pins t c pin
  obtain ⟨args, up, ups, after⟩ := commonStartVmm_started hn loaded started
  have ups : Blocks (StartedOn E.sdk n s) (List.range n.toInt.toNat).reverse up := ups.mono fun c l h => by
    obtain ⟨past, affinity, cpuid, -, nonneg, counts, rfl⟩ := h
    refine ⟨affinity, nonneg, ?_⟩
    rw [exact counts, hn]
    rfl
  rw [after] at stopped ⊢
  rcases Nat.eq_zero_or_pos n.toInt.toNat with none | some
  · -- Without CPUs the VMM stays loaded, and there is nothing to stop.
    refine ⟨args, up, [], ups, by rw [none]; exact .nil, ?_⟩
    rw [if_pos none, commonStopVmm_refused E (by simp), none]
    rfl
  · rw [if_neg (Nat.ne_of_gt some)] at stopped ⊢
    obtain ⟨args', down, downs, after⟩ := commonStopVmm_stopped rfl rfl stopped
    refine ⟨args', up, down, ups, downs.mono fun c l h => ?_, ?_⟩
    · obtain ⟨affinity, cpuid, nonneg, counts, rfl⟩ := h
      refine ⟨affinity, nonneg, ?_⟩
      rw [exact counts]
      rfl
    · rw [after, State.advance_advance, State.advance, List.append_assoc]
      rfl

/-- The test platform with the thread counted as running where it was placed. -/
def pinnedEnv (mocks : Mocks) : Env :=
  { testEnv mocks with currentCpuNum := fun t => (pinned t).elim 0 Int64.ofInt }

theorem stop_undoes_start_of_two_cpus :
    let E := pinnedEnv { numCpus := 2 }
    let s := after E 8 [.addModule 0x5000 100, .loadVmm]
    ∃ args up down, Blocks (StartedOn E.sdk 2 s) [1, 0] up ∧ Blocks (StoppedOn E.sdk s) [0, 1] down ∧
      (commonStopVmm E (commonStartVmm E s).2).2 =
        { s with info := { s.info with args := args }
                 numCpusStarted := 0
                 vmmStatus := .loaded
                 trace := down ++ .numCpus 2 :: (up ++ s.trace) } := by
  intro E s
  have counts : ∀ t, E.numCpus t = 2 := fun _ => rfl
  have pins : ∀ t c, pinned t = some c → E.currentCpuNum t = Int64.ofInt c := fun t c pin => by
    show (pinned t).elim 0 Int64.ofInt = _
    rw [pin]
    rfl
  exact stop_undoes_start counts pins (by decide +kernel) (by decide +kernel) (by decide +kernel)

end Bfdriver
