import Bfdriver.TestPlatform
import Bfdriver.Theorems.Effects

/-! # Where the calling thread runs

The loops over the CPUs place the calling thread on each CPU and put it back. Here is where a start or a
stop leaves the thread: where it was, or on the CPU that refused last. -/

namespace Bfdriver

/-! ### Placement -/

/-- The placement of the thread after an event. -/
def placed : Event → Int → Int
  | .setAffinity cpuid ret, p => if ret < 0 then p else cpuid
  | .restoreAffinity affinity, _ => affinity
  | _, p => p

/-- The placement after a trace of a thread that started out on `p`. -/
def placement (p : Int) : Trace → Int
  | [] => p
  | e :: t => placed e (placement p t)

/-- `platform_set_affinity` returns the previous placement, should it succeed. -/
def ReturnsPlacement (E : Env) (p : Int) : Prop := ∀ t c, 0 ≤ E.setAffinity t c → E.setAffinity t c = placement p t

/-! ### Refusals -/

/-- The CPU that a request is for. -/
def Request.cpu : Request → Option Int
  | .vmmInit cpuid => some cpuid
  | .vmmFini cpuid => some cpuid
  | _ => none

/-- The CPU of a request or a vmcall that failed. -/
def refusedOn : Event → Option Int
  | .setIntegerArgs req ret => if ret = bfSuccess then none else req.cpu
  | .enter _ req _ ret => if ret = bfSuccess then none else req.cpu
  | .vmcall _ cpuid r01 => if r01 = 0 then none else some cpuid
  | _ => none

/-- The CPU on which a request or a vmcall failed last. -/
def lastRefused (es : Trace) : Option Int := (es.filterMap refusedOn).head?

/-! ### Trails -/

/-- The calls between `s` and `t` leave the thread on `q`, and `refused` is the CPU that refused last. -/
def Trail (p : Int) (s t : State) (q : Int) (refused : Option Int) : Prop :=
  ∃ es, t.trace = es ++ s.trace ∧ placement p t.trace = q ∧ lastRefused es = refused

namespace Trail
variable {p q q' : Int} {r r' : Option Int} {s t u : State}

theorem refl (p : Int) (s : State) : Trail p s s (placement p s.trace) none := ⟨[], rfl, rfl, rfl⟩

theorem trans (h₁ : Trail p s t q r) (h₂ : Trail p t u q' r') : Trail p s u q' (r'.or r) := by
  obtain ⟨es₁, trace₁, -, rfl⟩ := h₁
  obtain ⟨es₂, trace₂, hq, rfl⟩ := h₂
  refine ⟨es₂ ++ es₁, by rw [trace₂, trace₁, List.append_assoc], hq, ?_⟩
  unfold lastRefused
  rw [List.filterMap_append, List.head?_append]

theorem emit (h : Trail p s t q r) (e : Event) : Trail p s (t.emit e) (placed e q) ((refusedOn e).or r) := by
  obtain ⟨es, trace, rfl, rfl⟩ := h
  refine ⟨e :: es, congrArg (List.cons e) trace, rfl, ?_⟩
  unfold lastRefused
  cases hr : refusedOn e <;> simp [hr]

theorem quiet (h : Trail p s t q r) {e : Event} (stays : placed e q = q) (accepted : refusedOn e = none) :
    Trail p s (t.emit e) q r := by
  have more := h.emit e
  rwa [stays, accepted] at more

/-- The thread stays on `q` when a request or a vmcall on CPU `c` fails. -/
theorem refusal (h : Trail p s t q r) {e : Event} {c : Int} (stays : placed e q = q) (refused : refusedOn e = some c) :
    Trail p s (t.emit e) q (some c) := by
  have more := h.emit e
  rwa [stays, refused] at more

/-- Only the traces matter. -/
theorem congr (h : Trail p s t q r) (trace : u.trace = t.trace) : Trail p s u q r := by
  unfold Trail at h ⊢
  rwa [trace]

section Call
variable {E : Env} {req : Request} {c : Int} (h : Trail p s t q r) (start : t.start ≠ 0) (hreq : req.cpu = some c)
include h start hreq

theorem enter : Trail p s (enterVmm E req t).2 q (if (enterVmm E req t).1 = bfSuccess then r else some c) := by
  unfold enterVmm
  rw [if_pos start]
  dsimp only
  split
  · rename_i accepted
    exact h.quiet rfl (if_pos accepted)
  · rename_i refused
    exact h.refusal rfl ((if_neg refused).trans hreq)

/-- A request for a CPU leaves the thread where it is. -/
theorem call : Trail p s (callVmm E req t).2 q (if (callVmm E req t).1 = bfSuccess then r else some c) := by
  by_cases args : E.setIntegerArgs t.trace req = bfSuccess
  · have asked : Trail p s (t.emit (.setIntegerArgs req (E.setIntegerArgs t.trace req))) q r := h.quiet rfl (if_pos args)
    have prepared : Trail p s { t.emit (.setIntegerArgs req (E.setIntegerArgs t.trace req)) with
        info := { t.info with args := some req } } q r := asked.congr rfl
    have written : Trail p s (writeThreadContext E { t.emit (.setIntegerArgs req (E.setIntegerArgs t.trace req)) with
        info := { t.info with args := some req } }) q r := (prepared.quiet rfl rfl).quiet rfl rfl
    unfold callVmm
    dsimp only
    rw [if_neg (not_not.mpr args)]
    exact (written.enter start hreq).quiet rfl rfl
  · have refused : Trail p s (t.emit (.setIntegerArgs req (E.setIntegerArgs t.trace req))) q (some c) :=
      h.refusal rfl ((if_neg args).trans hreq)
    unfold callVmm
    dsimp only
    rw [if_pos args, if_neg args]
    exact refused

end Call

end Trail

/-! ### The loops over the CPUs -/

/-- The calls between `s` and `t` leave the thread on the CPU that refused last, or else where it was. -/
def Strands (p : Int) (s t : State) : Prop := ∃ r, Trail p s t (r.getD (placement p s.trace)) r

namespace Strands
variable {p : Int} {s t u : State}

theorem refl (p : Int) (s : State) : Strands p s s := ⟨none, .refl p s⟩

theorem trans (h₁ : Strands p s t) (h₂ : Strands p t u) : Strands p s u := by
  obtain ⟨r₁, h₁⟩ := h₁
  obtain ⟨r₂, h₂⟩ := h₂
  have placed : placement p t.trace = r₁.getD (placement p s.trace) := by
    obtain ⟨es, -, placed, -⟩ := h₁
    exact placed
  refine ⟨r₂.or r₁, ?_⟩
  have both := h₁.trans h₂
  rw [placed] at both
  cases r₂ <;> exact both

theorem congr (h : Strands p s t) (trace : u.trace = t.trace) : Strands p s u := by
  obtain ⟨r, h⟩ := h
  exact ⟨r, h.congr trace⟩

end Strands

section Affinity
variable (E : Env) (p c : Int) (s : State)

theorem setAffinity_fails (neg : E.setAffinity s.trace c < 0) :
    Strands p s (s.emit (.setAffinity c (E.setAffinity s.trace c))) :=
  ⟨none, (Trail.refl p s).quiet (if_pos neg) rfl⟩

theorem setAffinity_moves (nonneg : ¬E.setAffinity s.trace c < 0) :
    Trail p s (s.emit (.setAffinity c (E.setAffinity s.trace c))) c none := by
  have moved := (Trail.refl p s).emit (.setAffinity c (E.setAffinity s.trace c))
  rwa [placed, if_neg nonneg] at moved

end Affinity

section Loops
variable {E : Env} {p : Int} (contract : ReturnsPlacement E p)
include contract

theorem stopCpu_strands {s : State} (start : s.start ≠ 0) (c : Int) : Strands p s (stopCpu E c s).2 := by
  unfold stopCpu
  dsimp only
  split
  · rename_i neg
    exact setAffinity_fails E p c s neg
  · rename_i nonneg
    have back : E.setAffinity s.trace c = placement p s.trace := contract s.trace c (Int.not_lt.mp nonneg)
    have arrived := setAffinity_moves E p c s nonneg
    have start : (s.emit (.setAffinity c (E.setAffinity s.trace c))).start ≠ 0 := start
    generalize s.emit (.setAffinity c (E.setAffinity s.trace c)) = t at arrived start ⊢
    split
    · rename_i refused
      exact ⟨some c, arrived.refusal rfl (if_neg refused)⟩
    · rename_i accepted
      have stopped : Trail p s (t.emit (.vmcall .stop c (E.vmcall t.trace .stop))) c none :=
        arrived.quiet rfl (if_pos (not_not.mp accepted))
      have cpu : (Request.vmmFini c).cpu = some c := rfl
      have called := stopped.call (E := E) start cpu
      split
      · rename_i refused
        rw [if_neg refused] at called
        exact ⟨some c, called⟩
      · rename_i finished
        rw [if_pos (not_not.mp finished)] at called
        refine ⟨none, ?_⟩
        have restored := (called.emit .platformStop).emit (.restoreAffinity (E.setAffinity s.trace c))
        rw [← back]
        exact restored.congr rfl

theorem stopLoop_strands {s : State} (start : s.start ≠ 0) (n : Nat) : Strands p s (stopLoop E n s).2 := by
  induction n generalizing s with
  | zero => exact .refl p s
  | succ n ih =>
    have round := stopCpu_strands contract start n
    unfold stopLoop
    dsimp only
    split
    · exact round.trans (ih ((stopCpu_kept E s n).start ▸ start))
    · exact round

theorem commonStopVmm_strands {s : State} (start : HasEntry s) : Strands p s (commonStopVmm E s).2 := by
  by_cases hrun : s.vmmStatus = .running
  · have loop := stopLoop_strands contract (start (by simp [hrun])) s.numCpusStarted.toNat
    rw [commonStopVmm_of_running E hrun]
    unfold stopExit
    split <;> exact loop.congr rfl
  · rw [commonStopVmm_refused E hrun]
    exact .refl p s

theorem startCpu_strands {s : State} (start : s.start ≠ 0) (c : Int) : Strands p s (startCpu E c s).2 := by
  unfold startCpu
  dsimp only
  split
  · rename_i neg
    exact setAffinity_fails E p c s neg
  · rename_i nonneg
    have back : E.setAffinity s.trace c = placement p s.trace := contract s.trace c (Int.not_lt.mp nonneg)
    have arrived := setAffinity_moves E p c s nonneg
    have start : (s.emit (.setAffinity c (E.setAffinity s.trace c))).start ≠ 0 := start
    generalize s.emit (.setAffinity c (E.setAffinity s.trace c)) = t at arrived start ⊢
    have cpu : (Request.vmmInit c).cpu = some c := rfl
    have called := arrived.call (E := E) start cpu
    split
    · rename_i refused
      rw [if_neg refused] at called
      exact ⟨some c, called⟩
    · rename_i inited
      rw [if_pos (not_not.mp inited)] at called
      generalize (callVmm E (.vmmInit c) t).2 = u at called ⊢
      split
      · rename_i refused
        have stranded : Trail p s (u.emit (.vmcall .start c (E.vmcall u.trace .start))) c (some c) :=
          called.refusal rfl (if_neg refused)
        exact ⟨some c, stranded.congr rfl⟩
      · rename_i accepted
        have started : Trail p s (u.emit (.vmcall .start c (E.vmcall u.trace .start))) c none :=
          called.quiet rfl (if_pos (not_not.mp accepted))
        refine ⟨none, ?_⟩
        have restored := (started.emit .platformStart).emit (.restoreAffinity (E.setAffinity s.trace c))
        rw [← back]
        exact restored.congr rfl

theorem startLoop_strands {s : State} (start : s.start ≠ 0) (rounds : Nat) (c : Int) :
    Strands p s (startLoop E rounds c s).2 := by
  have asked : Strands p s (s.emit (.numCpus (E.numCpus s.trace))) := ⟨none, (Trail.refl p s).quiet rfl rfl⟩
  induction rounds generalizing c s with
  | zero => exact asked
  | succ rounds ih =>
    unfold startLoop
    dsimp only
    split
    · have round := startCpu_strands contract (s := s.emit (.numCpus (E.numCpus s.trace))) start c
      split
      · have start := (startCpu_kept E (s.emit (.numCpus (E.numCpus s.trace))) c).start ▸ start
        exact (asked.trans round).trans (ih start (c + 1) ⟨none, (Trail.refl p _).quiet rfl rfl⟩)
      · exact asked.trans round
    · exact asked

theorem commonStartVmm_strands {s : State} (start : HasEntry s) : Strands p s (commonStartVmm E s).2 := by
  by_cases hst : s.vmmStatus = .loaded
  · have begun : Strands p s { s with numCpusStarted := 0 } := (Strands.refl p s).congr rfl
    have entry : s.start ≠ 0 := start (by simp [hst])
    have loop := begun.trans (startLoop_strands contract (s := { s with numCpusStarted := 0 }) entry maxCpus 0)
    have stillEntry : (startLoop E maxCpus 0 { s with numCpusStarted := 0 }).2.start ≠ 0 := by
      rw [(startLoop_kept E maxCpus 0 _).start]
      exact entry
    rw [commonStartVmm_of_loaded E hst]
    unfold startExit
    split
    · exact loop
    · exact loop.trans (commonStopVmm_strands contract fun _ => stillEntry)
    · exact loop
  · rw [commonStartVmm_refused E hst]
    exact .refl p s

end Loops

/-! ### Starts and stops -/

/-- `t` comes from `s` by calls that put the thread back where it was exactly if no request or vmcall failed in
    between, or the last one that failed did so on the CPU where the thread was. -/
def RestoresUnlessRefused (p : Int) (s t : State) : Prop :=
  ∃ es, t.trace = es ++ s.trace ∧
    (placement p t.trace = placement p s.trace ↔ ∀ c ∈ lastRefused es, c = placement p s.trace)

theorem Strands.restores {p : Int} {s t : State} (h : Strands p s t) : RestoresUnlessRefused p s t := by
  obtain ⟨r, es, trace, at_, refused⟩ := h
  refine ⟨es, trace, ?_⟩
  rw [at_, refused]
  cases r <;> simp

/-- Starting and stopping put the calling thread back where it was exactly if no request or vmcall on a CPU fails,
    or the last one that does is for the CPU where the thread was. -/
theorem placement_restored_iff {E : Env} {p : Int} (contract : ReturnsPlacement E p) {s : State} (h : Reachable E s) :
    RestoresUnlessRefused p s (commonStartVmm E s).2 ∧ RestoresUnlessRefused p s (commonStopVmm E s).2 :=
  ⟨(commonStartVmm_strands contract h.hasEntry).restores, (commonStopVmm_strands contract h.hasEntry).restores⟩

/-- Two CPUs, and the thread on the second. -/
theorem placement_restored_two_cpus :
    let E := testEnv { numCpus := 2, setAffinity := fun t _ => placement 1 t }
    let s := after E 8 [.addModule 0x5000 100, .loadVmm]
    RestoresUnlessRefused 1 s (commonStartVmm E s).2 ∧ RestoresUnlessRefused 1 s (commonStopVmm E s).2 :=
  placement_restored_iff (fun _ _ _ => rfl) (reachable_after (by decide +kernel))

/-- The thread is left on the second of two CPUs when `VMCALL_START` is refused there. -/
theorem not_placement_restored_of_refusal : ¬∀ (E : Env) (p : Int) (s : State), ReturnsPlacement E p → Reachable E s →
    placement p (commonStartVmm E s).2.trace = placement p s.trace ∧
      placement p (commonStopVmm E s).2.trace = placement p s.trace := by
  intro all
  let E := testEnv
    { numCpus := 2
      setAffinity := fun t _ => placement 0 t
      vmcall := fun t op => if op = .start ∧ .vmcall .start 0 true ∈ signals t then 1 else 0 }
  have restored := all E 0 (after E 8 [.addModule 0x5000 100, .loadVmm]) (fun _ _ _ => rfl)
    (reachable_after (by decide +kernel))
  exact absurd restored.1 (by decide +kernel)

end Bfdriver
