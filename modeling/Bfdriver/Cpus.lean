import Mathlib.Logic.Relation
import Bfdriver.Types

/-! # The CPU protocol

What the driver means to do with the CPUs, without memory, affinity or loops: a status, a counter of
started CPUs and the signals exchanged with the VMM, changed by the steps of `CpuStep`. A CPU is
outstanding while the VMM has initialised it and not finalised it, and launched while it also runs under
the VMM. The invariants here hold of every run of the protocol; `Bfdriver.Theorems.Protocol` shows
that `common.c` follows it. -/

namespace Bfdriver
open EventLog

/-- The signal is a success of `call_vmm` with the request `req`. -/
def Signal.accepts (req : Request) : Signal → Bool
  | .accepted _ r => r = req
  | _ => false

/-- The VMM has initialised CPU `c`, and has not finalised it since. -/
def Outstanding (c : Int) (l : List Signal) : Prop :=
  opened (Signal.accepts (.vmmInit c)) (Signal.accepts (.vmmFini c)) l = true

/-- The signal is a success of `VMCALL_STOP` or of `BF_REQUEST_VMM_FINI` on CPU `c`. -/
def Signal.ends (c : Int) (x : Signal) : Bool := x == .vmcall .stop c true || x.accepts (.vmmFini c)

/-- `VMCALL_START` has succeeded on CPU `c`, with no success of `VMCALL_STOP` or
    `BF_REQUEST_VMM_FINI` on it since. -/
def StartOpen (c : Int) (l : List Signal) : Prop := opened (· == .vmcall .start c true) (Signal.ends c) l = true

/-- `BF_REQUEST_VMM_INIT` has succeeded on CPU `c`, with no success of `VMCALL_STOP` or
    `BF_REQUEST_VMM_FINI` on it since. -/
def InitOpen (c : Int) (l : List Signal) : Prop :=
  opened (Signal.accepts (.vmmInit c)) (Signal.ends c) l = true

/-- CPU `c` runs under the VMM. -/
def Launched (c : Int) (l : List Signal) : Prop := InitOpen c l ∧ StartOpen c l

instance (c : Int) (l : List Signal) : Decidable (Outstanding c l) := inferInstanceAs (Decidable (_ = true))
instance (c : Int) (l : List Signal) : Decidable (StartOpen c l) := inferInstanceAs (Decidable (_ = true))
instance (c : Int) (l : List Signal) : Decidable (InitOpen c l) := inferInstanceAs (Decidable (_ = true))
instance (c : Int) (l : List Signal) : Decidable (Launched c l) := inferInstanceAs (Decidable (_ ∧ _))

/-- The request is about the VMM as a whole, not about one CPU. -/
def Request.global : Request → Bool
  | .vmmInit _ | .vmmFini _ => false
  | _ => true

/-- The part of the state that the protocol is about. -/
structure CpuView where
  status : VmmStatus
  started : Int
  signals : List Signal

def CpuView.push (v : CpuView) (x : Signal) : CpuView := { v with signals := x :: v.signals }

/-- A CPU can be started: none has been, or the last signal is the start of the CPU before it. -/
def CpuView.ReadyFor (v : CpuView) : Prop :=
  (v.status = .loaded ∧ v.started = 0) ∨
    (v.status = .running ∧ v.signals.head? = some (.vmcall .start (v.started - 1) true))

/-- The steps of the protocol on the CPUs that satisfy `R`. Starting goes upward from CPU 0 and stopping
    downward from the last CPU started, so the CPU of a step is read off the counter. -/
inductive CpuStep (R : Int → Prop) : CpuView → CpuView → Prop where
  | request {v k l} (res : Resources) (req : Request) (global : req.global = true) :
      CpuStep R ⟨v, k, l⟩ ⟨v, k, .accepted res req :: l⟩
  | load {k l} : CpuStep R ⟨.unloaded, k, l⟩ ⟨.loaded, k, l⟩
  | reset {v k l} (idle : v = .unloaded ∨ v = .loaded) : CpuStep R ⟨v, k, l⟩ ⟨.unloaded, 0, l⟩
  | corrupt {v k l} (active : v = .loaded ∨ v = .running) : CpuStep R ⟨v, k, l⟩ ⟨.corrupt, k, l⟩
  | begin {k l} : CpuStep R ⟨.loaded, k, l⟩ ⟨.loaded, 0, l⟩
  | launch {v k l} (res : Resources) (ready : CpuView.ReadyFor ⟨v, k, l⟩) (inRange : R k) :
      CpuStep R ⟨v, k, l⟩ ⟨.running, k + 1, .vmcall .start k true :: .accepted res (.vmmInit k) :: l⟩
  | startRefused {v k l} (res : Resources) (ready : CpuView.ReadyFor ⟨v, k, l⟩) (inRange : R k) :
      CpuStep R ⟨v, k, l⟩ ⟨v, k + 1, .vmcall .start k false :: .accepted res (.vmmInit k) :: l⟩
  | retire {k l} (res : Resources) (more : 1 ≤ k) :
      CpuStep R ⟨.running, k + 1, l⟩ ⟨.running, k, .accepted res (.vmmFini k) :: .vmcall .stop k true :: l⟩
  | retireLast {l} (res : Resources) :
      CpuStep R ⟨.running, 1, l⟩ ⟨.loaded, 0, .accepted res (.vmmFini 0) :: .vmcall .stop 0 true :: l⟩
  | stopRefused {k l} (some : 0 ≤ k) :
      CpuStep R ⟨.running, k + 1, l⟩ ⟨.running, k + 1, .vmcall .stop k false :: l⟩
  | finiRefused {k l} (some : 0 ≤ k) :
      CpuStep R ⟨.running, k + 1, l⟩ ⟨.corrupt, k + 1, .vmcall .stop k true :: l⟩

/-- A run of the protocol. -/
abbrev CpuSteps (R : Int → Prop) : CpuView → CpuView → Prop := Relation.ReflTransGen (CpuStep R)

/-! ### Signals and brackets -/

section Signals
variable {c d : Int} {l : List Signal} {res : Resources} {op : VmcallOp} {ok : Bool} {req : Request}

@[simp] theorem not_outstanding_nil : ¬Outstanding c [] := by simp [Outstanding]

@[simp] theorem outstanding_vmcall : Outstanding c (.vmcall op d ok :: l) ↔ Outstanding c l := by
  simp [Outstanding, Signal.accepts]

@[simp] theorem outstanding_vmmInit :
    Outstanding c (.accepted res (.vmmInit d) :: l) ↔ c = d ∨ Outstanding c l := by
  simp [Outstanding, Signal.accepts, @eq_comm _ c d]

@[simp] theorem outstanding_vmmFini :
    Outstanding c (.accepted res (.vmmFini d) :: l) ↔ c ≠ d ∧ Outstanding c l := by
  simp [Outstanding, Signal.accepts, @eq_comm _ c d]

@[simp] theorem not_startOpen_nil : ¬StartOpen c [] := by simp [StartOpen]

@[simp] theorem startOpen_start : StartOpen c (.vmcall .start d ok :: l) ↔ (ok = true ∧ c = d) ∨ StartOpen c l := by
  simp [StartOpen, Signal.ends, Signal.accepts, @eq_comm _ c d, and_comm]

@[simp] theorem startOpen_stop :
    StartOpen c (.vmcall .stop d ok :: l) ↔ ¬(ok = true ∧ c = d) ∧ StartOpen c l := by
  cases ok <;> simp [StartOpen, Signal.ends, Signal.accepts, @eq_comm _ c d]

@[simp] theorem startOpen_vmmInit : StartOpen c (.accepted res (.vmmInit d) :: l) ↔ StartOpen c l := by
  simp [StartOpen, Signal.ends, Signal.accepts]

@[simp] theorem startOpen_vmmFini : StartOpen c (.accepted res (.vmmFini d) :: l) ↔ c ≠ d ∧ StartOpen c l := by
  simp [StartOpen, Signal.ends, Signal.accepts, @eq_comm _ c d]

@[simp] theorem initOpen_start : InitOpen c (.vmcall .start d ok :: l) ↔ InitOpen c l := by
  simp [InitOpen, Signal.ends, Signal.accepts]

@[simp] theorem initOpen_stop : InitOpen c (.vmcall .stop d ok :: l) ↔ ¬(ok = true ∧ c = d) ∧ InitOpen c l := by
  cases ok <;> simp [InitOpen, Signal.ends, Signal.accepts, @eq_comm _ c d]

@[simp] theorem initOpen_vmmInit : InitOpen c (.accepted res (.vmmInit d) :: l) ↔ c = d ∨ InitOpen c l := by
  simp [InitOpen, Signal.ends, Signal.accepts, @eq_comm _ c d]

@[simp] theorem initOpen_vmmFini : InitOpen c (.accepted res (.vmmFini d) :: l) ↔ c ≠ d ∧ InitOpen c l := by
  simp [InitOpen, Signal.ends, Signal.accepts, @eq_comm _ c d]

theorem startOpen_request (h : req.global = true) : StartOpen c (.accepted res req :: l) ↔ StartOpen c l := by
  cases req <;> simp_all [StartOpen, Signal.ends, Signal.accepts, Request.global]

theorem initOpen_request (h : req.global = true) : InitOpen c (.accepted res req :: l) ↔ InitOpen c l := by
  cases req <;> simp_all [InitOpen, Signal.ends, Signal.accepts, Request.global]

theorem outstanding_request (h : req.global = true) : Outstanding c (.accepted res req :: l) ↔ Outstanding c l := by
  cases req <;> simp_all [Outstanding, Signal.accepts, Request.global]

/-- What an attempt to start CPU `d` adds to the starts on record. -/
theorem mem_attempt {ok' : Bool} :
    .vmcall .start c ok' ∈ .vmcall .start d ok :: .accepted res (.vmmInit d) :: l ↔
      c = d ∧ ok' = ok ∨ .vmcall .start c ok' ∈ l := by
  simp

theorem startOpen_retired :
    StartOpen c (.accepted res (.vmmFini d) :: .vmcall .stop d true :: l) ↔ c ≠ d ∧ StartOpen c l := by
  simp

theorem initOpen_retired :
    InitOpen c (.accepted res (.vmmFini d) :: .vmcall .stop d true :: l) ↔ c ≠ d ∧ InitOpen c l := by
  simp

end Signals

/-! ### Coupling of the status, the counter and the CPUs -/

/-- No `VMCALL_START` was refused on CPU 0. -/
def NoFirstRefusal (l : List Signal) : Prop := Signal.vmcall .start 0 false ∉ l

/-- While the VMM runs, the outstanding CPUs are those below the counter. Otherwise at most CPU 0 is
    outstanding, and none at all unless `VMCALL_START` was refused on it. -/
structure Coupled (v : CpuView) : Prop where
  running : v.status = .running → 1 ≤ v.started ∧ ∀ c, Outstanding c v.signals ↔ 0 ≤ c ∧ c < v.started
  idle : v.status = .loaded ∨ v.status = .unloaded → ∀ c, Outstanding c v.signals → c = 0
  clean : v.status = .loaded ∨ v.status = .unloaded → NoFirstRefusal v.signals →
    v.started = 0 ∧ ∀ c, ¬Outstanding c v.signals

theorem Coupled.initial : Coupled ⟨.unloaded, 0, []⟩ where
  running h := by cases h
  idle _ c h := absurd h not_outstanding_nil
  clean _ _ := ⟨rfl, fun _ => not_outstanding_nil⟩

theorem Coupled.step {R : Int → Prop} {v w : CpuView} (h : Coupled v) (hs : CpuStep R v w) : Coupled w := by
  obtain ⟨running, idle, clean⟩ := h
  cases hs with
  | request res req global =>
    refine ⟨fun h => ?_, fun h => ?_, fun h hno => ?_⟩
    · simpa only [outstanding_request global] using running h
    · simpa only [outstanding_request global] using idle h
    · have hno' : NoFirstRefusal _ := fun hm => hno (List.mem_cons_of_mem _ hm)
      simpa only [outstanding_request global] using clean h hno'
  | load => exact ⟨by simp, fun _ => idle (.inr rfl), fun _ => clean (.inr rfl)⟩
  | reset hidle =>
    exact ⟨by simp, fun _ => idle hidle.symm, fun _ hno => ⟨rfl, (clean hidle.symm hno).2⟩⟩
  | corrupt => exact ⟨by simp, by simp, by simp⟩
  | begin => exact ⟨by simp, fun _ => idle (.inl rfl), fun _ hno => ⟨rfl, (clean (.inl rfl) hno).2⟩⟩
  | @launch v k l res ready inRange =>
    refine ⟨fun _ => ?_, by simp, by simp⟩
    simp only [outstanding_vmcall, outstanding_vmmInit]
    obtain ⟨rfl, rfl⟩ | ⟨rfl, -⟩ := ready
    · refine ⟨by omega, fun c => ⟨?_, fun hc => Or.inl (by omega)⟩⟩
      rintro (rfl | hc)
      · omega
      · have := idle (.inl rfl) c hc
        omega
    · obtain ⟨hk, hout⟩ := running rfl
      simp only at hk hout
      exact ⟨by omega, fun c => by rw [hout]; omega⟩
  | @startRefused v k l res ready inRange =>
    obtain ⟨rfl, rfl⟩ | ⟨rfl, -⟩ := ready
    · refine ⟨by simp, fun _ c hc => ?_, fun _ hno => absurd List.mem_cons_self hno⟩
      simp only [outstanding_vmcall, outstanding_vmmInit] at hc
      exact hc.elim id (idle (.inl rfl) c)
    · obtain ⟨hk, hout⟩ := running rfl
      simp only at hk hout
      refine ⟨fun _ => ?_, by simp, by simp⟩
      simp only [outstanding_vmcall, outstanding_vmmInit]
      exact ⟨by omega, fun c => by rw [hout]; omega⟩
  | @retire k l res more =>
    obtain ⟨hk, hout⟩ := running rfl
    simp only at hk hout
    refine ⟨fun _ => ?_, by simp, by simp⟩
    simp only [outstanding_vmcall, outstanding_vmmFini]
    exact ⟨more, fun c => by rw [hout]; omega⟩
  | @retireLast l res =>
    obtain ⟨-, hout⟩ := running rfl
    simp only at hout
    have none : ∀ c, ¬Outstanding c (.accepted res (.vmmFini 0) :: .vmcall .stop 0 true :: l) := fun c => by
      rw [outstanding_vmmFini, outstanding_vmcall, hout]
      omega
    exact ⟨by simp, fun _ c hc => absurd hc (none c), fun _ _ => ⟨rfl, none⟩⟩
  | stopRefused => exact ⟨fun h => by simpa using running h, by simp, by simp⟩
  | finiRefused => exact ⟨by simp, by simp, by simp⟩

theorem Coupled.steps {R : Int → Prop} {v w : CpuView} (h : Coupled v) (hs : CpuSteps R v w) : Coupled w := by
  induction hs with
  | refl => exact h
  | tail _ hs ih => exact ih.step hs

/-! ### Which CPUs are launched -/

/-- The CPU of the last `VMCALL_START`, and whether it was accepted. -/
def lastStart : List Signal → Option (Int × Bool)
  | [] => none
  | .vmcall .start c ok :: _ => some (c, ok)
  | _ :: l => lastStart l

/-- While the VMM runs, every launched CPU is below the counter, and all those below it are launched as
    long as the last start was accepted. A CPU whose start was the last one and was refused is not. -/
structure LaunchInv (R : Int → Prop) (v : CpuView) : Prop where
  inRange : ∀ c ok, .vmcall .start c ok ∈ v.signals → R c
  idle : v.status = .loaded ∨ v.status = .unloaded → ∀ c, ¬StartOpen c v.signals
  below : v.status = .running → ∀ c, StartOpen c v.signals → 0 ≤ c ∧ c < v.started
  tried : v.status = .running → ∀ c, 0 ≤ c → c < v.started → ∃ ok, .vmcall .start c ok ∈ v.signals
  launched : v.status = .running → ∀ d, lastStart v.signals = some (d, true) →
    ∀ c, 0 ≤ c → c < v.started → Launched c v.signals
  refused : ∀ d, lastStart v.signals = some (d, false) → ¬StartOpen d v.signals

namespace LaunchInv
variable {R : Int → Prop} {v w : CpuView}

theorem initial : LaunchInv R ⟨.unloaded, 0, []⟩ where
  inRange _ _ h := by cases h
  idle _ _ := not_startOpen_nil
  below h := by cases h
  tried h := by cases h
  launched h := by cases h
  refused _ _ := not_startOpen_nil

/-- A step that keeps the signals and does not start the VMM keeps the invariant. -/
theorem of_status {v : VmmStatus} {k k' : Int} {l : List Signal} (h : LaunchInv R ⟨v, k, l⟩) {v' : VmmStatus}
    (hrun : v' ≠ .running) (hidle : v' = .loaded ∨ v' = .unloaded → v = .loaded ∨ v = .unloaded) :
    LaunchInv R ⟨v', k', l⟩ where
  inRange := h.inRange
  idle hv := h.idle (hidle hv)
  below hv := absurd hv hrun
  tried hv := absurd hv hrun
  launched hv := absurd hv hrun
  refused := h.refused

/-- Before a start, the CPUs below the counter are the launched ones. -/
theorem of_ready {v : VmmStatus} {k : Int} {l : List Signal} (h : LaunchInv R ⟨v, k, l⟩)
    (ready : CpuView.ReadyFor ⟨v, k, l⟩) : 0 ≤ k ∧ (∀ c, StartOpen c l → 0 ≤ c ∧ c < k) ∧
      ∀ c, 0 ≤ c → c < k → Launched c l ∧ ∃ ok, .vmcall .start c ok ∈ l := by
  rcases ready with ⟨hv, hk⟩ | ⟨hv, hhead⟩
  · refine ⟨by simp only at hk; omega, fun c hc => absurd hc (h.idle (.inl hv) c), fun c h0 hck => ?_⟩
    simp only at hk
    omega
  · obtain ⟨l, rfl⟩ : ∃ t, l = .vmcall .start (k - 1) true :: t := List.head?_eq_some_iff.mp hhead
    have hlast : StartOpen (k - 1) (.vmcall .start (k - 1) true :: l) := startOpen_start.mpr (.inl ⟨rfl, rfl⟩)
    have hk := (h.below hv (k - 1) hlast).1
    exact ⟨by omega, h.below hv,
      fun c h0 hck => ⟨h.launched hv (k - 1) rfl c h0 hck, h.tried hv c h0 hck⟩⟩

section Steps
variable {v : VmmStatus} {k : Int} {l : List Signal} (res : Resources)

/-- An attempt to start the next CPU is in range, and the CPUs up to that one are tried then. -/
theorem of_attempt (h : LaunchInv R ⟨v, k, l⟩) (ready : CpuView.ReadyFor ⟨v, k, l⟩) (inRange : R k) (ok : Bool) :
    (∀ c ok', .vmcall .start c ok' ∈ .vmcall .start k ok :: .accepted res (.vmmInit k) :: l → R c) ∧
      ∀ c, 0 ≤ c → c < k + 1 → ∃ ok', .vmcall .start c ok' ∈ .vmcall .start k ok :: .accepted res (.vmmInit k) :: l := by
  refine ⟨fun c ok' hm => ?_, fun c h0 hck => ?_⟩
  · rcases mem_attempt.mp hm with ⟨rfl, -⟩ | hm
    · exact inRange
    · exact h.inRange c ok' hm
  · by_cases hc : c = k
    · exact ⟨ok, mem_attempt.mpr (.inl ⟨hc, rfl⟩)⟩
    · obtain ⟨-, ok', hm⟩ := (h.of_ready ready).2.2 c h0 (by omega)
      exact ⟨ok', mem_attempt.mpr (.inr hm)⟩

theorem launch (h : LaunchInv R ⟨v, k, l⟩) (ready : CpuView.ReadyFor ⟨v, k, l⟩) (inRange : R k) :
    LaunchInv R ⟨.running, k + 1, .vmcall .start k true :: .accepted res (.vmmInit k) :: l⟩ := by
  obtain ⟨hk, hbelow, hlaunched⟩ := h.of_ready ready
  obtain ⟨range, tried⟩ := h.of_attempt res ready inRange true
  refine ⟨range, by simp, fun _ c hc => ?_, fun _ => tried, fun _ d _ c h0 hck => ?_, ?_⟩
  · simp only [startOpen_start, startOpen_vmmInit, true_and] at hc
    rcases hc with rfl | hc
    · exact ⟨hk, Int.lt_succ c⟩
    · have := hbelow c hc
      exact ⟨this.1, by simp only; omega⟩
  · simp only [Launched, initOpen_start, initOpen_vmmInit, startOpen_start, startOpen_vmmInit, true_and]
    by_cases hc : c = k
    · exact ⟨.inl hc, .inl hc⟩
    · obtain ⟨⟨hinit, hstart⟩, -⟩ := hlaunched c h0 (by simp only at hck; omega)
      exact ⟨.inr hinit, .inr hstart⟩
  · intro d hd
    cases hd

theorem startRefused (h : LaunchInv R ⟨v, k, l⟩) (ready : CpuView.ReadyFor ⟨v, k, l⟩) (inRange : R k) :
    LaunchInv R ⟨v, k + 1, .vmcall .start k false :: .accepted res (.vmmInit k) :: l⟩ := by
  obtain ⟨hk, hbelow, -⟩ := h.of_ready ready
  obtain ⟨range, tried⟩ := h.of_attempt res ready inRange false
  have same : ∀ c, StartOpen c (.vmcall .start k false :: .accepted res (.vmmInit k) :: l) ↔ StartOpen c l := by
    simp
  refine ⟨range, fun hv c hc => ?_, fun hv c hc => ?_, fun _ => tried, fun _ d hd => ?_, ?_⟩
  · exact h.idle hv c ((same c).mp hc)
  · have := hbelow c ((same c).mp hc)
    exact ⟨this.1, by simp only; omega⟩
  · cases hd
  · intro d hd hopen
    obtain rfl : k = d := congrArg Prod.fst (Option.some.inj hd)
    exact absurd (hbelow k ((same k).mp hopen)).2 (Int.lt_irrefl k)

theorem retire (h : LaunchInv R ⟨.running, k + 1, l⟩) :
    LaunchInv R ⟨.running, k, .accepted res (.vmmFini k) :: .vmcall .stop k true :: l⟩ := by
  refine ⟨fun c ok hm => ?_, by simp, fun _ c hc => ?_, fun _ c h0 hck => ?_, fun _ d hd c h0 hck => ?_, ?_⟩
  · exact h.inRange c ok (by simpa using hm)
  · obtain ⟨hne, hc⟩ := startOpen_retired.mp hc
    have := h.below rfl c hc
    simp only at this ⊢
    omega
  · simp only at hck
    obtain ⟨ok, hm⟩ := h.tried rfl c h0 (by simp only; omega)
    exact ⟨ok, List.mem_cons_of_mem _ (List.mem_cons_of_mem _ hm)⟩
  · simp only at hck
    have hne : c ≠ k := by omega
    obtain ⟨hi, hs⟩ := h.launched rfl d hd c h0 (by simp only; omega)
    exact ⟨initOpen_retired.mpr ⟨hne, hi⟩, startOpen_retired.mpr ⟨hne, hs⟩⟩
  · exact fun d hd hc => h.refused d hd (startOpen_retired.mp hc).2

theorem stopRefused (h : LaunchInv R ⟨.running, k + 1, l⟩) :
    LaunchInv R ⟨.running, k + 1, .vmcall .stop k false :: l⟩ := by
  have hopen : ∀ c, StartOpen c (.vmcall .stop k false :: l) ↔ StartOpen c l := by simp
  have hinit : ∀ c, InitOpen c (.vmcall .stop k false :: l) ↔ InitOpen c l := by simp
  refine ⟨fun c ok hm => h.inRange c ok (by simpa using hm), by simp, fun _ c hc => ?_, fun _ c h0 hck => ?_,
    fun _ d hd c h0 hck => ?_, ?_⟩
  · exact h.below rfl c ((hopen c).mp hc)
  · obtain ⟨ok, hm⟩ := h.tried rfl c h0 hck
    exact ⟨ok, List.mem_cons_of_mem _ hm⟩
  · obtain ⟨hi, hs⟩ := h.launched rfl d hd c h0 hck
    exact ⟨(hinit c).mpr hi, (hopen c).mpr hs⟩
  · exact fun d hd hc => h.refused d hd ((hopen d).mp hc)

end Steps

theorem step (h : LaunchInv R v) (hs : CpuStep R v w) : LaunchInv R w := by
  cases hs with
  | request res req global =>
    have inRange : ∀ c ok l, Signal.vmcall .start c ok ∈ .accepted res req :: l ↔ .vmcall .start c ok ∈ l := by simp
    have last : ∀ l, lastStart (.accepted res req :: l) = lastStart l := fun _ => rfl
    refine ⟨?_, ?_, ?_, ?_, ?_, ?_⟩ <;>
      simp only [inRange, last, Launched, startOpen_request global, initOpen_request global]
    exacts [h.inRange, h.idle, h.below, h.tried, h.launched, h.refused]
  | load => exact h.of_status (by simp) (by simp)
  | reset idle => exact h.of_status (by simp) (by simp [idle.symm])
  | corrupt => exact h.of_status (by simp) (by simp)
  | begin => exact h.of_status (by simp) (by simp)
  | launch res ready inRange => exact h.launch res ready inRange
  | startRefused res ready inRange => exact h.startRefused res ready inRange
  | retire res more => exact h.retire res
  | @retireLast l res =>
    refine ⟨fun c ok hm => ?_, fun _ c hc => ?_, by simp, by simp, by simp, ?_⟩
    · exact h.inRange c ok (by simpa using hm)
    · obtain ⟨hne, hc⟩ := startOpen_retired.mp hc
      have := h.below rfl c hc
      simp only at this
      omega
    · exact fun d hd hc => h.refused d hd (startOpen_retired.mp hc).2
  | stopRefused some => exact h.stopRefused
  | @finiRefused k l some =>
    refine ⟨fun c ok hm => h.inRange c ok (by simpa using hm), by simp, by simp, by simp, by simp, ?_⟩
    exact fun d hd hc => h.refused d hd (startOpen_stop.mp hc).2

theorem steps (h : LaunchInv R v) (hs : CpuSteps R v w) : LaunchInv R w := by
  induction hs with
  | refl => exact h
  | tail _ hs ih => exact ih.step hs

end LaunchInv

end Bfdriver
