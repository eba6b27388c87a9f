import Bfdriver.Common

/-! # What a call of the VMM keeps

`call_vmm` and everything built from it alone (the registration of memory, a dump, the loops over the
CPUs) leave the memory that the globals name as it is, and enter the VMM with exactly that memory
(`Kept`). A call and a registration also keep the status and the counter of started CPUs (`Called`);
what the VMM accepted is read off the signals. -/

namespace Bfdriver
open EventLog BlockHeap

/-! ### Events that leave memory alone -/

/-- The event neither allocates nor releases memory nor reaches user memory, and enters the VMM, if at all,
    with the memory `r`. -/
def LeavesMemory (r : Resources) : Event → Prop
  | .alloc .. | .free .. | .memset .. | .bfelfLoad .. => False
  | .copyFromUser .. | .copyToUser .. | .readInput .. | .writeOutput .. => False
  | .threadContext r' _ => r' = r
  | .enter r' _ _ _ => r' = r
  | _ => True

theorem LeavesMemory.memOp?_eq_none {r : Resources} {e : Event} (h : LeavesMemory r e) : memOp? e = none := by
  cases e <;> first | rfl | exact h.elim

theorem heap_grew {r : Resources} {t t' : Trace} (g : Grew (LeavesMemory r) t t') : heap t' = heap t := by
  unfold heap
  rw [g.filterMap_eq fun _ he => he.memOp?_eq_none]

/-! ### Signals -/

@[simp] theorem signals_cons (e : Event) (t : Trace) :
    signals (e :: t) = (signal? e).toList ++ signals t := by
  unfold signals
  cases h : signal? e <;> simp [h]

/-- The signal of a registered memory descriptor. -/
def Signal.IsMdl : Signal → Prop
  | .accepted _ (.addMdl _) => True
  | _ => False

/-! ### States that name the same memory -/

/-- The globals of `t` name the same memory as those of `s`, and the calls in between left it alone. -/
structure Kept (s t : State) : Prop where
  numModules : t.numModules = s.numModules
  modules : t.modules = s.modules
  start : t.start = s.start
  loader : t.loader = s.loader
  tls : t.tls = s.tls
  stack : t.stack = s.stack
  tlsSize : t.tlsSize = s.tlsSize
  stackSize : t.stackSize = s.stackSize
  stackTop : t.stackTop = s.stackTop
  grew : Grew (LeavesMemory s.resources) s.trace t.trace

namespace Kept
variable {s t u : State}

theorem refl (s : State) : Kept s s := ⟨rfl, rfl, rfl, rfl, rfl, rfl, rfl, rfl, rfl, Grew.refl _⟩

theorem added (h : Kept s t) : t.added = s.added := by
  unfold State.added
  rw [h.modules, h.numModules]

theorem resources (h : Kept s t) : t.resources = s.resources := by
  unfold State.resources
  rw [h.stack, h.stackSize, h.stackTop, h.tls, h.tlsSize, h.added]

theorem heap (h : Kept s t) : heap t.trace = heap s.trace := heap_grew h.grew

theorem trans (h₁ : Kept s t) (h₂ : Kept t u) : Kept s u where
  numModules := h₂.numModules.trans h₁.numModules
  modules := h₂.modules.trans h₁.modules
  start := h₂.start.trans h₁.start
  loader := h₂.loader.trans h₁.loader
  tls := h₂.tls.trans h₁.tls
  stack := h₂.stack.trans h₁.stack
  tlsSize := h₂.tlsSize.trans h₁.tlsSize
  stackSize := h₂.stackSize.trans h₁.stackSize
  stackTop := h₂.stackTop.trans h₁.stackTop
  grew := h₁.grew.trans (h₁.resources ▸ h₂.grew)

theorem emit (h : Kept s t) {e : Event} (he : LeavesMemory t.resources e) : Kept s (t.emit e) :=
  { h with grew := h.grew.cons (h.resources ▸ he) }

theorem of_status (h : Kept s t) (v : VmmStatus) : Kept s { t with vmmStatus := v } := { h with }

theorem of_started (h : Kept s t) (n : Int) : Kept s { t with numCpusStarted := n } := { h with }

end Kept

/-- `t` is `s` after calls that kept the status and the number of started CPUs as well. -/
structure Called (s t : State) : Prop extends Kept s t where
  status : t.vmmStatus = s.vmmStatus
  started : t.numCpusStarted = s.numCpusStarted

namespace Called
variable {s t u : State}

theorem refl (s : State) : Called s s := ⟨.refl s, rfl, rfl⟩

theorem trans (h₁ : Called s t) (h₂ : Called t u) : Called s u :=
  ⟨h₁.toKept.trans h₂.toKept, h₂.status.trans h₁.status, h₂.started.trans h₁.started⟩

theorem emit (h : Called s t) {e : Event} (he : LeavesMemory t.resources e) : Called s (t.emit e) :=
  ⟨h.toKept.emit he, h.status, h.started⟩

end Called

/-! ### `call_vmm` -/

section CallVmm
variable (E : Env) (req : Request) (s : State)

theorem writeThreadContext_called : Called s (writeThreadContext E s) :=
  ((Called.refl s).emit (e := .currentCpuNum (E.currentCpuNum s.trace)) trivial).emit rfl

theorem enterVmm_called : Called s (enterVmm E req s).2 := by
  unfold enterVmm
  split
  · exact (Called.refl s).emit rfl
  · exact .refl s

theorem callVmm_called : Called s (callVmm E req s).2 := by
  have args : Called s (s.emit (.setIntegerArgs req (E.setIntegerArgs s.trace req))) :=
    (Called.refl s).emit trivial
  unfold callVmm
  dsimp only
  split
  · exact args
  · have written : Called s { s.emit (.setIntegerArgs req (E.setIntegerArgs s.trace req)) with
        info := { s.info with args := some req } } := { args with }
    exact ((written.trans (writeThreadContext_called E _)).trans (enterVmm_called E req _)).emit trivial

/-- The requests that reach the VMM by the event are of the kind. -/
def Asks (kind : Request → Prop) : Event → Prop
  | .setIntegerArgs req _ => kind req
  | .enter _ req _ _ => kind req
  | _ => True

/-- A call that `call_vmm` makes for a request. -/
def Carries (req : Request) : Event → Prop
  | .setIntegerArgs req' _ => req' = req
  | .enter _ req' _ _ => req' = req
  | .currentCpuNum .. | .threadContext .. | .restorePreemption => True
  | _ => False

theorem callVmm_carries : Grew (Carries req) s.trace (callVmm E req s).2.trace := by
  have asked := (Grew.refl s.trace (P := Carries req)).cons
    (e := .setIntegerArgs req (E.setIntegerArgs s.trace req)) rfl
  unfold callVmm enterVmm writeThreadContext
  dsimp only
  split
  · exact asked
  · split
    · exact (((asked.cons (e := .currentCpuNum _) trivial).cons (e := .threadContext _ _) trivial).cons
        (e := .enter _ req _ _) rfl).cons trivial
    · exact ((asked.cons (e := .currentCpuNum _) trivial).cons (e := .threadContext _ _) trivial).cons trivial

theorem callVmm_asks : Grew (Asks (· = req)) s.trace (callVmm E req s).2.trace :=
  (callVmm_carries E req s).mono fun e he => by cases e <;> first | exact he | trivial

theorem enterVmm_signals : signals (enterVmm E req s).2.trace =
    if (enterVmm E req s).1 = bfSuccess then .accepted s.resources req :: signals s.trace
    else signals s.trace := by
  unfold enterVmm
  split
  · dsimp only [State.emit]
    rw [signals_cons, signal?]
    split <;> rfl
  · have neg := E.sdk.code_neg .unknown
    rw [if_neg (Int.ne_of_lt neg)]

/-- The VMM sees a request exactly when `call_vmm` reports success. -/
theorem callVmm_signals : signals (callVmm E req s).2.trace =
    if (callVmm E req s).1 = bfSuccess then .accepted s.resources req :: signals s.trace
    else signals s.trace := by
  unfold callVmm
  dsimp only
  split
  · rfl
  · exact enterVmm_signals E req (writeThreadContext E _)

theorem start_ne_zero_of_enterVmm (h : (enterVmm E req s).1 = bfSuccess) : s.start ≠ 0 := by
  have neg := E.sdk.code_neg .unknown
  unfold enterVmm at h
  split at h
  · assumption
  · exact absurd h (Int.ne_of_lt neg)

theorem start_ne_zero_of_callVmm (h : (callVmm E req s).1 = bfSuccess) : s.start ≠ 0 := by
  unfold callVmm at h
  dsimp only at h
  split at h
  · contradiction
  · have entered := start_ne_zero_of_enterVmm E req (writeThreadContext E _) h
    exact entered

end CallVmm

/-! ### Registration of memory -/

/-- `t` is `s` after some pages were registered. -/
structure Registered (s t : State) : Prop extends Called s t where
  mdls : Grew Signal.IsMdl (signals s.trace) (signals t.trace)

namespace Registered
variable {s t u : State}

theorem refl (s : State) : Registered s s := ⟨.refl s, Grew.refl _⟩

theorem trans (h₁ : Registered s t) (h₂ : Registered t u) : Registered s u :=
  ⟨h₁.toCalled.trans h₂.toCalled, h₁.mdls.trans h₂.mdls⟩

theorem emit (h : Registered s t) {e : Event} (he : LeavesMemory t.resources e) (hs : signal? e = none) :
    Registered s (t.emit e) :=
  ⟨h.toCalled.emit he, by simpa [State.emit, hs] using h.mdls⟩

end Registered

section Registration
variable (E : Env)

theorem addRawMdToMemoryManager_registered (virt type : UInt64) (s : State) :
    Registered s (addRawMdToMemoryManager E virt type s).2 := by
  have called : ∀ md u, Registered u (callVmm E (.addMdl md) u).2 := fun md u => by
    refine ⟨callVmm_called E _ u, ?_⟩
    rw [callVmm_signals]
    split
    · exact (Grew.refl _).cons trivial
    · exact Grew.refl _
  unfold addRawMdToMemoryManager
  dsimp only
  have looked := (Registered.refl s).emit (e := .virtToPhys virt (E.virtToPhys s.trace virt)) trivial rfl
  split <;> exact looked.trans (called _ _)

theorem pageLoop_registered (type last : UInt64) : ∀ (fuel : Nat) (page : UInt64) (s : State),
    Registered s (pageLoop E type last fuel page s).2
  | 0, _, s => .refl s
  | fuel + 1, page, s => by
    have round := addRawMdToMemoryManager_registered E page type s
    unfold pageLoop
    split
    · dsimp only
      split
      · exact round
      · exact round.trans (pageLoop_registered type last fuel _ _)
    · exact .refl s

theorem segmentLoop_registered (fuel : Nat) (m : Binary) : ∀ (instrs : List LoadInstr) (i : Nat) (s : State),
    Registered s (segmentLoop E fuel m instrs i s).2
  | [], _, s => .refl s
  | instr :: instrs, i, s => by
    have asked := (Registered.refl s).emit (e := .getLoadInstr i (E.getLoadInstr s.trace m i)) trivial rfl
    unfold segmentLoop
    dsimp only
    split
    · exact asked
    · have pages := asked.trans (pageLoop_registered E (instr.memoryType E.sdk)
        (pageMask E.sdk (m.exec + instr.memOffset + instr.memsz)) fuel (pageMask E.sdk (m.exec + instr.memOffset)) _)
      split
      · exact pages
      · exact pages.trans (segmentLoop_registered fuel m instrs (i + 1) _)

theorem addMdToMemoryManager_registered (fuel : Nat) (m : Option Binary) (s : State) :
    Registered s (addMdToMemoryManager E fuel m s).2 := by
  cases m with
  | none => exact .refl s
  | some m => exact segmentLoop_registered E fuel m m.ef 0 s

theorem moduleLoop_registered (fuel : Nat) : ∀ (ms : List Binary) (s : State),
    Registered s (moduleLoop E fuel ms s).2
  | [], s => .refl s
  | m :: ms, s => by
    have round := addMdToMemoryManager_registered E fuel (some m) s
    unfold moduleLoop
    dsimp only
    split
    · exact round
    · exact round.trans (moduleLoop_registered fuel ms _)

theorem tlsLoop_registered (fuel : Nat) (s : State) : Registered s (tlsLoop E fuel s).2 :=
  pageLoop_registered E _ _ fuel s.tls s

end Registration

end Bfdriver
