import Bfdriver.TestPlatform
import Bfdriver.Theorems.Effects

/-! # Rounds of the loops over the CPUs

The exact calls of a round of `common_start_vmm` and of `common_stop_vmm` on one CPU, and the states that the two
loops go through while their rounds succeed. -/

namespace Bfdriver
open EventLog

/-! ### States with more calls -/

/-- The state after more calls, with other arguments, another counter and another status. -/
def State.advance (s : State) (args : Option Request) (started : Int) (status : VmmStatus) (calls : Trace) : State :=
  { s with info := { s.info with args := args }, numCpusStarted := started, vmmStatus := status
           trace := calls ++ s.trace }

namespace State
variable (s : State) (args args' : Option Request) (n n' : Int) (v v' : VmmStatus) (l l' : Trace)

@[simp] theorem advance_advance : (s.advance args n v l).advance args' n' v' l' = s.advance args' n' v' (l' ++ l) := by
  unfold advance
  rw [List.append_assoc]

@[simp] theorem advance_nil : s.advance s.info.args s.numCpusStarted s.vmmStatus [] = s := rfl

theorem emit_advance (e : Event) : (s.advance args n v l).emit e = s.advance args n v (e :: l) := rfl

@[simp] theorem advance_trace : (s.advance args n v l).trace = l ++ s.trace := rfl

@[simp] theorem advance_vmmStatus : (s.advance args n v l).vmmStatus = v := rfl

@[simp] theorem advance_numCpusStarted : (s.advance args n v l).numCpusStarted = n := rfl

end State

/-! ### Requests -/

/-- The calls of `call_vmm` for a request that gets to the VMM, which answers `ret`, newest first. -/
def requestCalls (k : Sdk) (s : State) (req : Request) (cpuid : Int64) (ret : Int) : Trace :=
  [.restorePreemption, .enter s.resources req (s.stackTop - k.threadContextSize - 1) ret,
    .threadContext s.resources (threadContextOf k s cpuid), .currentCpuNum cpuid, .setIntegerArgs req bfSuccess]

/-- The current CPU, as `call_vmm` learns it. -/
abbrev cpuAt (E : Env) (req : Request) (s : State) : Int64 := E.currentCpuNum (.setIntegerArgs req bfSuccess :: s.trace)

section Requests
variable {E : Env} {req : Request} {s t : State}

theorem callVmm_of_args (start : s.start ≠ 0) (args : E.setIntegerArgs s.trace req = bfSuccess) :
    (callVmm E req s).2 = s.advance (some req) s.numCpusStarted s.vmmStatus
      (requestCalls E.sdk s req (cpuAt E req s) (callVmm E req s).1) := by
  have go : ¬(s.start = 0) := start
  simp [State.advance, callVmm, enterVmm, writeThreadContext, requestCalls, args, go, State.emit, State.resources, State.added,
    threadContextOf]

/-- A request that succeeds got to the VMM. -/
theorem callVmm_succeeded (h : (callVmm E req s).1 = bfSuccess) : (callVmm E req s).2 =
    s.advance (some req) s.numCpusStarted s.vmmStatus (requestCalls E.sdk s req (cpuAt E req s) bfSuccess) := by
  have args : E.setIntegerArgs s.trace req = bfSuccess := by
    by_contra ne
    unfold callVmm at h
    dsimp only at h
    rw [if_pos ne] at h
    exact ne h
  rw [callVmm_of_args (start_ne_zero_of_callVmm E req s h) args, h]

/-- A request was refused its arguments, or it got to the VMM. -/
theorem callVmm_answered (E : Env) (req : Request) (start : s.start ≠ 0) : ∃ args calls,
    (calls = [.setIntegerArgs req (callVmm E req s).1] ∨
      ∃ cpuid, calls = requestCalls E.sdk s req cpuid (callVmm E req s).1) ∧
    (callVmm E req s).2 = s.advance args s.numCpusStarted s.vmmStatus calls := by
  by_cases args : E.setIntegerArgs s.trace req = bfSuccess
  · exact ⟨_, _, .inr ⟨_, rfl⟩, callVmm_of_args start args⟩
  · have refused : callVmm E req s = (E.setIntegerArgs s.trace req,
        s.emit (.setIntegerArgs req (E.setIntegerArgs s.trace req))) := if_pos args
    rw [refused]
    exact ⟨s.info.args, _, .inl rfl, rfl⟩

end Requests

/-! ### Placement -/

/-- The CPU that the thread was placed on and not taken from since. -/
def pinned : Trace → Option Int
  | [] => none
  | .setAffinity cpuid ret :: t => if ret < 0 then pinned t else some cpuid
  | .restoreAffinity _ :: _ => none
  | _ :: t => pinned t

/-- The platform may have given this number for the current CPU while the thread was placed on `c`. -/
def CountsAs (E : Env) (c : Int) (cpuid : Int64) : Prop := ∃ t, pinned t = some c ∧ cpuid = E.currentCpuNum t

/-! ### Rounds that succeed -/

/-- The calls of a round of `common_start_vmm` that succeeds, newest first. -/
def startCalls (k : Sdk) (s : State) (c affinity : Int) (cpuid : Int64) : Trace :=
  .restoreAffinity affinity :: .platformStart :: .vmcall .start c 0 ::
    (requestCalls k s (.vmmInit c) cpuid bfSuccess ++ [.setAffinity c affinity])

/-- The calls of a round of `common_stop_vmm` that succeeds, newest first. -/
def stopCalls (k : Sdk) (s : State) (c affinity : Int) (cpuid : Int64) : Trace :=
  .restoreAffinity affinity :: .platformStop ::
    (requestCalls k s (.vmmFini c) cpuid bfSuccess ++ [.vmcall .stop c 0, .setAffinity c affinity])

section Next
variable {E : Env} {s t : State} {c : Int}

theorem startCpu_next (h : (startCpu E c s).1 = .next) :
    ∃ affinity cpuid, 0 ≤ affinity ∧ CountsAs E c cpuid ∧ (startCpu E c s).2 =
      s.advance (some (.vmmInit c)) (s.numCpusStarted + 1) .running (startCalls E.sdk s c affinity cpuid) := by
  unfold startCpu at h ⊢
  dsimp only at h ⊢
  set placed := s.emit (.setAffinity c (E.setAffinity s.trace c)) with hplaced
  split at h
  · cases h
  · rename_i nonneg
    rw [if_neg nonneg]
    split at h
    · cases h
    · rename_i called
      rw [if_neg called]
      have pin : pinned (.setIntegerArgs (.vmmInit c) bfSuccess :: placed.trace) = some c := if_neg nonneg
      rw [callVmm_succeeded (not_not.mp called)] at h ⊢
      split at h
      · cases h
      · rename_i accepted
        rw [if_neg accepted, not_not.mp accepted]
        refine ⟨_, _, Int.not_lt.mp nonneg, ⟨_, pin, rfl⟩, ?_⟩
        simp [hplaced, State.advance, State.emit, startCalls, requestCalls, State.resources, State.added, threadContextOf]

theorem stopCpu_next (h : (stopCpu E c s).1 = .next) :
    ∃ affinity cpuid, 0 ≤ affinity ∧ CountsAs E c cpuid ∧ (stopCpu E c s).2 =
      s.advance (some (.vmmFini c)) (s.numCpusStarted - 1) s.vmmStatus (stopCalls E.sdk s c affinity cpuid) := by
  unfold stopCpu at h ⊢
  dsimp only at h ⊢
  set placed := s.emit (.setAffinity c (E.setAffinity s.trace c)) with hplaced
  split at h
  · cases h
  · rename_i nonneg
    rw [if_neg nonneg]
    split at h
    · cases h
    · rename_i accepted
      rw [if_neg accepted]
      rw [not_not.mp accepted] at h ⊢
      split at h
      · cases h
      · rename_i called
        have pin : pinned (.setIntegerArgs (.vmmFini c) bfSuccess :: .vmcall .stop c 0 :: placed.trace) = some c :=
          if_neg nonneg
        rw [if_neg called, callVmm_succeeded (not_not.mp called)]
        refine ⟨_, _, Int.not_lt.mp nonneg, ⟨_, pin, rfl⟩, ?_⟩
        simp [hplaced, State.advance, State.emit, stopCalls, requestCalls, State.resources, State.added, threadContextOf]

end Next

/-! ### The states between rounds -/

/-- The state in which the loop of `common_start_vmm` has learnt the number of CPUs. -/
abbrev counted (E : Env) (s : State) : State := s.emit (.numCpus (E.numCpus s.trace))

/-- `t` is `s` after CPUs 0 to `m - 1` were started. -/
inductive Started (E : Env) (s : State) : Nat → State → Prop where
  | none : Started E s 0 s
  | next {m : Nat} {t : State} (before : Started E s m t) (more : (m : Int) < (E.numCpus t.trace).toInt)
      (done : (startCpu E m (counted E t)).1 = .next) : Started E s (m + 1) (startCpu E m (counted E t)).2

/-- `t` is `s` after CPUs `n - 1` down to `j` were stopped. -/
inductive Stopped (E : Env) (n : Nat) (s : State) : Nat → State → Prop where
  | none : Stopped E n s n s
  | next {j : Nat} {t : State} (before : Stopped E n s (j + 1) t) (done : (stopCpu E j t).1 = .next) :
      Stopped E n s j (stopCpu E j t).2

section Between
variable {E : Env} {n m j : Nat} {s t : State}

/-- The loop of a start goes on from each of its states. -/
theorem Started.loop (h : Started E s m t) (rounds : Nat) :
    startLoop E (m + rounds) 0 s = startLoop E rounds m t := by
  induction h generalizing rounds with
  | none => rw [Nat.zero_add]; rfl
  | @next m t before more done ih =>
    rw [Nat.add_assoc, Nat.add_comm 1, ih (rounds + 1), startLoop]
    dsimp only
    rw [if_pos more, done]
    rfl

/-- A loop over the CPUs that succeeds ends in a state in which every CPU that the platform counts is started. -/
theorem startLoop_started {E : Env} {n : Int64} (hn : ∀ t, E.numCpus t = n) {s : State} : ∀ {rounds m : Nat} {t : State},
    Started E s m t → m ≤ n.toInt.toNat → n.toInt ≤ m + rounds → (startLoop E rounds m t).1 = .next →
    ∃ u, Started E s n.toInt.toNat u ∧ (startLoop E rounds m t).2 = u.emit (.numCpus n)
  | 0, m, t, h, le, enough, _ => by
    obtain rfl : m = n.toInt.toNat := by omega
    exact ⟨t, h, by rw [startLoop, hn]⟩
  | rounds + 1, m, t, h, le, enough, next => by
    unfold startLoop at next ⊢
    dsimp only at next ⊢
    by_cases more : (m : Int) < (E.numCpus t.trace).toInt
    · rw [if_pos more] at next ⊢
      rcases hx : (startCpu E m (counted E t)).1 with _ | _ | _
      · have started : Started E s (m + 1) (startCpu E m (counted E t)).2 := h.next more hx
        rw [hn] at more
        have le : m + 1 ≤ n.toInt.toNat := by omega
        have enough : n.toInt ≤ ((m + 1 : Nat) : Int) + rounds := by omega
        rw [hx] at next
        exact startLoop_started hn started le enough next
      · rw [hx] at next
        exact absurd (hx.symm.trans next) (by simp)
      · rw [hx] at next
        exact absurd (hx.symm.trans next) (by simp)
    · rw [if_neg more]
      rw [hn] at more
      obtain rfl : m = n.toInt.toNat := by omega
      exact ⟨t, h, by rw [hn]⟩

/-- The loop of a stop goes on from each of its states. -/
theorem Stopped.loop (h : Stopped E n s j t) : stopLoop E n s = stopLoop E j t := by
  induction h with
  | none => rfl
  | @next j t before done ih =>
    rw [ih, stopLoop, done]

/-- A stop gets to the end of its loop, or to a CPU on which it fails. -/
theorem stopLoop_stopped (E : Env) (n : Nat) (s : State) : ∀ {j : Nat} {t : State}, Stopped E n s j t →
    (∃ u, Stopped E n s 0 u ∧ stopLoop E n s = (.next, u)) ∨
    ∃ i u, i < n ∧ Stopped E n s (i + 1) u ∧ (stopCpu E i u).1 ≠ .next ∧ stopLoop E n s = stopCpu E i u
  | 0, t, h => .inl ⟨t, h, h.loop⟩
  | j + 1, t, h => by
    by_cases done : (stopCpu E j t).1 = .next
    · exact stopLoop_stopped E n s (h.next done)
    · have below : ∀ {j u}, Stopped E n s j u → j ≤ n := fun h => by
        induction h with
        | none => exact Nat.le_refl n
        | next _ _ ih => exact Nat.le_of_succ_le ih
      refine .inr ⟨j, t, below h, h, done, ?_⟩
      rw [h.loop, stopLoop]
      split
      · contradiction
      · rfl

/-- The calls of a round of a start that succeeds on CPU `c`, with the query for the number of CPUs before it. -/
def StartsOn (E : Env) (s : State) (c : Nat) (l : Trace) : Prop :=
  ∃ past affinity cpuid, (c : Int) < (E.numCpus past).toInt ∧ 0 ≤ affinity ∧ CountsAs E c cpuid ∧
    l = startCalls E.sdk s c affinity cpuid ++ [.numCpus (E.numCpus past)]

/-- The calls of a round of a stop that succeeds on CPU `c`. -/
def StopsOn (E : Env) (s : State) (c : Nat) (l : Trace) : Prop :=
  ∃ affinity cpuid, 0 ≤ affinity ∧ CountsAs E c cpuid ∧ l = stopCalls E.sdk s c affinity cpuid

/-- Starting CPUs makes the calls of their rounds, and changes the counter, the status and the arguments. -/
theorem Started.state (h : Started E s m t) : ∃ args up, Blocks (StartsOn E s) (List.range m).reverse up ∧
    t = s.advance args (s.numCpusStarted + m) (if m = 0 then s.vmmStatus else .running) up := by
  induction h with
  | none => exact ⟨s.info.args, [], .nil, by simp⟩
  | @next m t before more done ih =>
    obtain ⟨args, up, blocks, rfl⟩ := ih
    obtain ⟨affinity, cpuid, nonneg, counts, after⟩ := startCpu_next done
    refine ⟨some (.vmmInit m), startCalls E.sdk s m affinity cpuid ++ [.numCpus (E.numCpus (up ++ s.trace))] ++ up, ?_, ?_⟩
    · rw [List.range_succ, List.reverse_append]
      exact blocks.cons ⟨_, affinity, cpuid, more, nonneg, counts, rfl⟩
    · rw [after, counted, State.emit_advance, State.advance_advance, if_neg (Nat.succ_ne_zero m), List.append_assoc,
        State.advance_numCpusStarted, Int.natCast_succ, Int.add_assoc]
      rfl

/-- Stopping CPUs makes the calls of their rounds, and changes the counter and the arguments. -/
theorem Stopped.state (h : Stopped E n s j t) : j ≤ n ∧
    ∃ args down, Blocks (StopsOn E s) (List.range' j (n - j)) down ∧
      t = s.advance args (s.numCpusStarted - (n - j : Nat)) s.vmmStatus down := by
  induction h with
  | none => exact ⟨Nat.le_refl n, s.info.args, [], by rw [Nat.sub_self]; exact .nil, by simp⟩
  | @next j t before done ih =>
    obtain ⟨le, args, down, blocks, rfl⟩ := ih
    obtain ⟨affinity, cpuid, nonneg, counts, after⟩ := stopCpu_next done
    have more : n - j = n - (j + 1) + 1 := by omega
    refine ⟨Nat.le_of_succ_le le, some (.vmmFini j), stopCalls E.sdk s j affinity cpuid ++ down, ?_, ?_⟩
    · rw [more, List.range'_succ]
      exact blocks.cons ⟨affinity, cpuid, nonneg, counts, rfl⟩
    · rw [after, State.advance_advance, more, State.advance_numCpusStarted, Int.natCast_succ, ← Int.sub_sub]
      rfl

end Between

end Bfdriver
