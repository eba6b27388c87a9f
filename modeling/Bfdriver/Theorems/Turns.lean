import Bfdriver.Theorems.Elementary
import Bfdriver.Theorems.Ownership
import Bfdriver.Theorems.Placement
import Bfdriver.Theorems.Setup
import Bfdriver.Linux.Entry
import Bfdriver.Windows.Driver

/-! # The turns of an entry point

A coarser view of the steps of an operation, in which a round over a CPU is one turn, and the same for the entry
points of the drivers, with the calls of the ioctl layer in between. -/

namespace Bfdriver
open EventLog Relation

/-- A call that only asks the platform or the ELF loader something. -/
def Inquires : Event → Prop
  | .numCpus _ | .virtToPhys .. | .getLoadInstr .. => True
  | _ => False

/-- A turn of the common code. -/
inductive Turn (E : Env) (s : State) : State → Prop where
  | inquiry (e : Event) (h : Inquires e) : Turn E s (s.emit e)
  | assign {t : State} (trace : t.trace = s.trace) : Turn E s t
  | stack : Turn E s (setupStack E s).2
  | tls : Turn E s (setupTls E s).2
  | elf : Turn E s (bfelfLoad E s).2
  | call (req : Request) (global : req.cpu = none) : Turn E s (callVmm E req s).2
  | start (c : Int) : Turn E s (startCpu E c s).2
  | stop (c : Int) : Turn E s (stopCpu E c s).2
  | reset : Turn E s (commonReset E s).2

abbrev Turns (E : Env) : State → State → Prop := ReflTransGen (Turn E)

/-- What every step of a relation keeps is kept by a sequence of them. -/
theorem keeps_of_steps {α : Type} {R : α → α → Prop} {I : α → Prop} (step : ∀ s t, R s t → I s → I t) {s t : α}
    (h : ReflTransGen R s t) (hs : I s) : I t := by
  induction h with
  | refl => exact hs
  | tail _ last ih => exact step _ _ last ih

section Turns
variable (E : Env) (s : State)

theorem pageLoop_turns (type last : UInt64) (fuel : Nat) (page : UInt64) :
    Turns E s (pageLoop E type last fuel page s).2 := by
  induction fuel generalizing page s with
  | zero => exact .refl
  | succ fuel ih =>
    have looked : Turns E s (s.emit (.virtToPhys page (E.virtToPhys s.trace page))) := .single (.inquiry _ trivial)
    have round : Turns E s (addRawMdToMemoryManager E page type s).2 := by
      unfold addRawMdToMemoryManager
      dsimp only
      split <;> exact looked.tail (.call _ rfl)
    unfold pageLoop
    split
    · dsimp only
      split
      · exact round
      · exact round.trans (ih _ _)
    · exact .refl

theorem segmentLoop_turns (fuel : Nat) (m : Binary) (instrs : List LoadInstr) (i : Nat) :
    Turns E s (segmentLoop E fuel m instrs i s).2 := by
  induction instrs generalizing i s with
  | nil => exact .refl
  | cons instr instrs ih =>
    have asked : Turns E s (s.emit (.getLoadInstr i (E.getLoadInstr s.trace m i))) := .single (.inquiry _ trivial)
    unfold segmentLoop
    dsimp only
    split
    · exact asked
    · have pages := asked.trans (pageLoop_turns E _ (instr.memoryType E.sdk)
        (pageMask E.sdk (m.exec + instr.memOffset + instr.memsz)) fuel (pageMask E.sdk (m.exec + instr.memOffset)))
      split
      · exact pages
      · exact pages.trans (ih _ _)

theorem moduleLoop_turns (fuel : Nat) (ms : List Binary) : Turns E s (moduleLoop E fuel ms s).2 := by
  induction ms generalizing s with
  | nil => exact .refl
  | cons m ms ih =>
    have round : Turns E s (addMdToMemoryManager E fuel (some m) s).2 := segmentLoop_turns E s fuel m m.ef 0
    unfold moduleLoop
    dsimp only
    split
    · exact round
    · exact round.trans (ih _)

theorem commonUnloadVmm_turns : Turns E s (commonUnloadVmm E s).2 := by
  unfold commonUnloadVmm
  split
  · exact .single (.assign rfl)
  · exact .refl
  · have reset : Turns E s (commonReset E s).2 := .single .reset
    exact reset.tail (.assign rfl)
  · have called : Turns E s (callVmm E .fini s).2 := .single (.call _ rfl)
    dsimp only
    split
    · exact called.tail (.assign rfl)
    · exact (called.tail .reset).tail (.assign rfl)

theorem commonLoadVmm_turns (fuel : Nat) : Turns E s (commonLoadVmm E fuel s).2 := by
  by_cases h : s.vmmStatus = .unloaded ∧ s.numModules ≠ 0
  · have stack : Turns E s (loadStack E s).2 := .single .stack
    have tls := stack.tail (.tls (E := E))
    have elf := tls.tail (.elf (E := E))
    have init := elf.tail (.call (E := E) .init rfl)
    have modules := init.trans (moduleLoop_turns E (loadInit E s).2 fuel (loadInit E s).2.added)
    have pages : Turns E s (loadPages E fuel s).2 := modules.trans (pageLoop_turns E (loadModules E fuel s).2 ..)
    have run := commonLoadVmm_run E fuel s h.1 h.2
    generalize commonLoadVmm E fuel s = r at run
    cases run with
    | stackFailed => exact stack.tail .reset
    | tlsFailed => exact tls.tail .reset
    | elfFailed => exact elf.tail .reset
    | initRefused => exact init.tail .reset
    | modulesFailed => exact modules.tail .reset
    | modulesPending => exact modules
    | pagesFailed => exact pages
    | loaded => exact pages.tail (.assign rfl)
  · rw [commonLoadVmm_refused E fuel h]

theorem stopLoop_turns (n : Nat) : Turns E s (stopLoop E n s).2 := by
  induction n generalizing s with
  | zero => exact .refl
  | succ n ih =>
    have round : Turns E s (stopCpu E n s).2 := .single (.stop _)
    unfold stopLoop
    dsimp only
    split
    · exact round.trans (ih _)
    · exact round

theorem commonStopVmm_turns : Turns E s (commonStopVmm E s).2 := by
  by_cases hrun : s.vmmStatus = .running
  · have loop := stopLoop_turns E s s.numCpusStarted.toNat
    rw [commonStopVmm_of_running E hrun]
    unfold stopExit
    split
    · exact loop.tail (.assign rfl)
    · exact loop.tail (.assign rfl)
    · exact loop
  · rw [commonStopVmm_refused E hrun]

theorem startLoop_turns (rounds : Nat) (c : Int) : Turns E s (startLoop E rounds c s).2 := by
  have asked : ∀ s : State, Turns E s (s.emit (.numCpus (E.numCpus s.trace))) := fun _ => .single (.inquiry _ trivial)
  induction rounds generalizing c s with
  | zero => exact asked s
  | succ rounds ih =>
    have round : Turns E s (startCpu E c (s.emit (.numCpus (E.numCpus s.trace)))).2 := (asked s).tail (.start c)
    unfold startLoop
    dsimp only
    split
    · split
      · exact round.trans (ih _ _)
      · exact round
    · exact asked s

theorem commonStartVmm_turns : Turns E s (commonStartVmm E s).2 := by
  by_cases hst : s.vmmStatus = .loaded
  · have begun : Turns E s { s with numCpusStarted := 0 } := .single (.assign rfl)
    have loop := begun.trans (startLoop_turns E { s with numCpusStarted := 0 } maxCpus 0)
    rw [commonStartVmm_of_loaded E hst]
    unfold startExit
    split
    · exact loop
    · exact loop.trans (commonStopVmm_turns E _)
    · exact loop
  · rw [commonStartVmm_refused E hst]

theorem commonFini_turns : Turns E s (commonFini E s).2 := by
  have stopped : Turns E s (finiStop E s) := by
    unfold finiStop
    split
    · exact commonStopVmm_turns E s
    · exact .refl
  have unloaded : Turns E s (finiUnload E (finiStop E s)) := by
    refine stopped.trans ?_
    unfold finiUnload
    split
    · exact commonUnloadVmm_turns E _
    · exact .refl
  unfold commonFini
  dsimp only
  split
  · exact unloaded
  · split
    · exact unloaded.tail .reset
    · exact unloaded

theorem commonAddModule_turns (file fsize : UInt64) : Turns E s (commonAddModule E file fsize s).2 := by
  rcases commonAddModule_cases E file fsize s with ⟨-, same⟩ | ⟨-, -, -, more⟩
  · rw [same]
  · rw [more]
    exact .single (.assign rfl)

theorem commonDumpVmm_turns (drr vcpuid : UInt64) : Turns E s (commonDumpVmm E drr vcpuid s).2 := by
  rcases commonDumpVmm_cases E drr vcpuid s with same | ⟨-, called⟩
  · rw [same]
  · rw [called]
    exact .single (.call _ rfl)

end Turns

/-- What the elementary steps and the assignments keep is kept by a turn. -/
theorem Turn.keeps {E : Env} {I : State → Prop} (elementary : ∀ s t, Elementary E s t → I s → I t)
    (assign : ∀ s t : State, t.trace = s.trace → I s → I t) {s t : State} (h : Turn E s t) (hs : I s) : I t := by
  cases h with
  | inquiry e he => exact elementary _ _ (.aside e (by cases e <;> trivial)) hs
  | assign trace => exact assign _ _ trace hs
  | stack => exact elementary _ _ .stack hs
  | tls => exact elementary _ _ .tls hs
  | elf => exact elementary _ _ .elf hs
  | call req => exact elementary _ _ (.call req) hs
  | start c => exact (startCpu_passes E s c).invariant elementary hs
  | stop c => exact (stopCpu_passes E s c).invariant elementary hs
  | reset => exact elementary _ _ .reset hs

/-! ### Rules for the calls on a CPU -/

/-- The calls after a `call_vmm` in the light of those before. -/
inductive CallTrace (E : Env) (req : Request) (l : Trace) : Trace → Prop where
  | argsRefused (ret : Int) : CallTrace E req l (.setIntegerArgs req ret :: l)
  | noEntry (ret : Int) (res : Resources) (tc : ThreadContext)
      (cpuid : tc.cpuid = E.currentCpuNum (.setIntegerArgs req ret :: l)) :
      CallTrace E req l
        (.restorePreemption :: .threadContext res tc :: .currentCpuNum tc.cpuid :: .setIntegerArgs req ret :: l)
  | entered (ret ret' : Int) (res res' : Resources) (tc : ThreadContext) (sp : UInt64)
      (cpuid : tc.cpuid = E.currentCpuNum (.setIntegerArgs req ret :: l)) :
      CallTrace E req l (.restorePreemption :: .enter res' req sp ret' :: .threadContext res tc ::
        .currentCpuNum tc.cpuid :: .setIntegerArgs req ret :: l)

theorem callVmm_callTrace (E : Env) (req : Request) (s : State) : CallTrace E req s.trace (callVmm E req s).2.trace := by
  unfold callVmm
  dsimp only
  split
  · exact .argsRefused _
  · unfold enterVmm
    split
    · exact .entered _ _ _ _ _ _ rfl
    · exact .noEntry _ _ _ rfl

/-- The loader allocates the memory of the modules. -/
theorem bfelfLoad_grew_of {P : Event → Prop} {E : Env} (s : State) (allocs : ∀ e, AllocatesExec e → P e)
    (loads : ∀ files ret, P (.bfelfLoad files ret)) : Grew P s.trace (bfelfLoad E s).2.trace :=
  ((loadImages_grew E s s.added (E.bfelfLoad s.trace s.added).images).mono allocs).cons (loads _ _)

/-- A call that is neither a vmcall nor one of `call_vmm`. -/
def OutsideVmm : Event → Prop
  | .setIntegerArgs .. | .currentCpuNum _ | .threadContext .. | .enter .. | .restorePreemption | .vmcall .. => False
  | _ => True

/-- What has to be shown of an invariant `I` of the calls: it is kept by what goes on outside of the VMM, and by a call
    for a CPU in a place `On` that CPU, which is where a placement leads that succeeds. -/
structure RoundRules (E : Env) (I : Trace → Prop) (On : Int → Trace → Prop) : Prop where
  outside : ∀ {t} {e : Event}, OutsideVmm e → I t → I (e :: t)
  placed : ∀ {t c}, ¬E.setAffinity t c < 0 → On c (.setAffinity c (E.setAffinity t c) :: t)
  call : ∀ {s : State} {req : Request}, I s.trace → (∀ c ∈ req.cpu, On c s.trace) → I (callVmm E req s).2.trace
  stays : ∀ {s : State} {c} (req : Request), On c s.trace → On c (callVmm E req s).2.trace
  vmcall : ∀ {t c} (op : VmcallOp) (r01 : UInt64), I t → On c t → I (.vmcall op c r01 :: t) ∧ On c (.vmcall op c r01 :: t)

namespace RoundRules
variable {E : Env} {I : Trace → Prop} {On : Int → Trace → Prop} {s t : State}

theorem startCpu (rules : RoundRules E I On) (h : I s.trace) (c : Int) : I (startCpu E c s).2.trace := by
  have before : I (s.emit (.setAffinity c (E.setAffinity s.trace c))).trace := rules.outside trivial h
  unfold Bfdriver.startCpu
  dsimp only
  split
  · exact before
  · rename_i nonneg
    have there : On c (s.emit (.setAffinity c (E.setAffinity s.trace c))).trace := rules.placed nonneg
    generalize s.emit (.setAffinity c (E.setAffinity s.trace c)) = t at before there ⊢
    have called : I (callVmm E (.vmmInit c) t).2.trace := rules.call before fun d hd => by cases hd; exact there
    have stays := rules.stays (.vmmInit c) there
    split
    · exact called
    · generalize (callVmm E (.vmmInit c) t).2 = u at called stays ⊢
      have started : I (u.emit (.vmcall .start c (E.vmcall u.trace .start))).trace := (rules.vmcall _ _ called stays).1
      split
      · exact started
      · have ended : I (.platformStart :: .vmcall .start c (E.vmcall u.trace .start) :: u.trace) :=
          rules.outside trivial started
        exact rules.outside trivial ended

theorem stopCpu (rules : RoundRules E I On) (h : I s.trace) (c : Int) : I (stopCpu E c s).2.trace := by
  have before : I (s.emit (.setAffinity c (E.setAffinity s.trace c))).trace := rules.outside trivial h
  unfold Bfdriver.stopCpu
  dsimp only
  split
  · exact before
  · rename_i nonneg
    have there : On c (s.emit (.setAffinity c (E.setAffinity s.trace c))).trace := rules.placed nonneg
    generalize s.emit (.setAffinity c (E.setAffinity s.trace c)) = t at before there ⊢
    have stopped : I (t.emit (.vmcall .stop c (E.vmcall t.trace .stop))).trace := (rules.vmcall _ _ before there).1
    have stays : On c (t.emit (.vmcall .stop c (E.vmcall t.trace .stop))).trace := (rules.vmcall _ _ before there).2
    split
    · exact stopped
    · generalize t.emit (.vmcall .stop c (E.vmcall t.trace .stop)) = u at stopped stays ⊢
      have called : I (callVmm E (.vmmFini c) u).2.trace := rules.call stopped fun d hd => by cases hd; exact stays
      split
      · exact called
      · have ended : I (.platformStop :: (callVmm E (.vmmFini c) u).2.trace) := rules.outside trivial called
        exact rules.outside trivial ended

theorem turn (rules : RoundRules E I On) (h : I s.trace) (step : Turn E s t) : I t.trace := by
  have grew : ∀ {P : Event → Prop}, (∀ e, P e → OutsideVmm e) → Grew P s.trace t.trace → I t.trace := fun all g =>
    g.preserves (fun _ _ he before => rules.outside (all _ he) before) h
  have preparing : ∀ e, Prepares e → OutsideVmm e := fun e he => by cases e <;> trivial
  cases step with
  | inquiry e he => exact rules.outside (by cases e <;> trivial) h
  | assign trace => rwa [trace]
  | stack => exact grew preparing (setupStack_prepares _ s)
  | tls => exact grew preparing (setupTls_prepares _ s)
  | elf =>
    have allocs : ∀ e, AllocatesExec e → OutsideVmm e := fun e he => by cases e <;> trivial
    exact grew (fun _ => id) (bfelfLoad_grew_of s allocs fun _ _ => trivial)
  | call req global => exact rules.call h (by simp [global])
  | start c => exact rules.startCpu h c
  | stop c => exact rules.stopCpu h c
  | reset => exact grew (fun e he => by cases e <;> trivial) (commonReset_grew _ s)

theorem turns (rules : RoundRules E I On) (h : I s.trace) (steps : Turns E s t) : I t.trace :=
  keeps_of_steps (I := fun s => I s.trace) (fun _ _ step before => rules.turn before step) steps h

end RoundRules

/-! ### The entry points of the drivers -/

/-- A call that leaves the ioctl layer. -/
def OfIoctl : Event → Prop
  | .alloc site .. => site = .file
  | .free .. | .copyFromUser .. | .copyToUser .. | .readInput .. | .writeOutput .. => True
  | _ => False

/-- A copy to a buffer fills a live block of a module, as a whole. -/
def Fills (past : Trace) : Event → Prop
  | .copyFromUser (.buffer a) _ len _ => heap past a = some ⟨.file, len⟩
  | .readInput (.buffer a) _ _ len => ∃ size, heap past a = some ⟨.file, size⟩ ∧ len = size.toNat
  | _ => True

/-- A turn of a driver. -/
inductive DriverTurn (E : Env) (s : State) : State → Prop where
  | common {t : State} (turn : Turn E s t) : DriverTurn E s t
  | ioctl (e : Event) (h : OfIoctl e) (fills : Fills s.trace e) : DriverTurn E s (s.emit e)

abbrev DriverTurns (E : Env) : State → State → Prop := ReflTransGen (DriverTurn E)

theorem RoundRules.driverTurn {E : Env} {I : Trace → Prop} {On : Int → Trace → Prop} {s t : State}
    (rules : RoundRules E I On) (h : I s.trace) (step : DriverTurn E s t) : I t.trace := by
  cases step with
  | common turn => exact rules.turn h turn
  | ioctl e he => exact rules.outside (by cases e <;> trivial) h

section Drivers
variable {E : Env} {s t : State} {d : Driver} {fuel : Nat}

theorem Turns.driver (h : Turns E s t) : DriverTurns E s t :=
  keeps_of_steps (I := DriverTurns E s) (fun _ _ turn before => before.tail (.common turn)) h .refl

theorem freePmodules_turns (kind : MemKind) (ps : List Pmodule) (s : State) :
    DriverTurns E s (freePmodules kind ps s) := by
  induction ps generalizing s with
  | nil => exact .refl
  | cons p ps ih =>
    have freed : DriverTurns E s (s.emit (.free kind p.data p.size)) := .single (.ioctl _ trivial trivial)
    exact freed.trans (ih _)

theorem ioctlAddModuleWith_turns {copy : UInt64 → State → Int × State} {len : UInt64}
    (hcopy : ∀ a s, heap s.trace a = some ⟨.file, len⟩ → DriverTurns E s (copy a s).2) :
    DriverTurns E d.common (ioctlAddModuleWith E copy len d).2.common := by
  unfold ioctlAddModuleWith
  dsimp only
  split
  · exact .refl
  · have allocated : DriverTurns E d.common
        (d.common.emit (.alloc .file len (E.alloc d.common.trace .rw len))) := .single (.ioctl _ rfl trivial)
    split
    · exact allocated
    · rename_i nonnull
      have live : heap (.alloc .file len (E.alloc d.common.trace .rw len) :: d.common.trace)
          (E.alloc d.common.trace .rw len) = some ⟨.file, len⟩ := by
        rw [heap_alloc nonnull, Function.update_self]
      have copied := allocated.trans (hcopy (E.alloc d.common.trace .rw len) _ live)
      split
      · exact copied.tail (.ioctl _ trivial trivial)
      · have added := copied.trans (Turns.driver (commonAddModule_turns E _ (E.alloc d.common.trace .rw len) len))
        split
        · exact added.tail (.ioctl _ trivial trivial)
        · exact added

theorem ioctlUnloadVmmWith_turns (kind : MemKind) : DriverTurns E d.common (ioctlUnloadVmmWith E kind d).2.common :=
  (Turns.driver (commonUnloadVmm_turns E d.common)).trans (freePmodules_turns kind d.held _)

theorem ioctlLoadVmmWith_turns (kind : MemKind) : DriverTurns E d.common (ioctlLoadVmmWith E kind fuel d).2.common := by
  have loaded := Turns.driver (commonLoadVmm_turns E d.common fuel)
  unfold ioctlLoadVmmWith
  dsimp only
  split
  · exact loaded
  · split
    · exact loaded.trans (ioctlUnloadVmmWith_turns (d := { d with common := _ }) kind)
    · exact loaded

theorem ioctlStopVmm_turns : DriverTurns E d.common (ioctlStopVmm E d).2.common :=
  Turns.driver (commonStopVmm_turns E d.common)

theorem ioctlStartVmm_turns : DriverTurns E d.common (ioctlStartVmm E d).2.common := by
  have started := Turns.driver (commonStartVmm_turns E d.common)
  unfold ioctlStartVmm
  dsimp only
  split
  · exact started.trans (ioctlStopVmm_turns (d := { d with common := _ }))
  · exact started

theorem ioctlDumpVmmWith_turns {copy : UInt64 → State → Int × State} (hcopy : ∀ a s, DriverTurns E s (copy a s).2) :
    DriverTurns E d.common (ioctlDumpVmmWith E copy d).2.common := by
  have dumped := Turns.driver (commonDumpVmm_turns E d.common E.drrAddr d.vcpuid)
  unfold ioctlDumpVmmWith
  dsimp only
  split
  · exact dumped
  · exact dumped.trans (hcopy _ _)

end Drivers

namespace Linux
variable {E : Env} {d : Device} {fuel : Nat}

theorem copyFromUser_turns {target : CopyTarget} {src len : UInt64} {s : State}
    (fills : Fills s.trace (.copyFromUser target src len (E.copyFromUser s.trace src len))) :
    DriverTurns E s (copyFromUser E target src len s).2 := .single (.ioctl _ trivial fills)

theorem copyToUser_turns (dst : UInt64) (source : CopySource) (len : UInt64) (s : State) :
    DriverTurns E s (copyToUser E dst source len s).2 := .single (.ioctl _ trivial trivial)

theorem enter_turns (p : EntryPoint) : DriverTurns E d.common (enter E fuel p d).2.common := by
  cases p with
  | reboot => exact Turns.driver (commonFini_turns E d.common)
  | exit => exact Turns.driver (commonFini_turns E d.common)
  | ioctl cmd arg =>
    cases cmd with
    | addModule => exact ioctlAddModuleWith_turns fun _ _ live => copyFromUser_turns live
    | addModuleLength =>
      show DriverTurns E d.common (ioctlAddModuleLength E arg d).2.common
      unfold ioctlAddModuleLength
      split
      · exact .refl
      · exact copyFromUser_turns trivial
    | loadVmm => exact ioctlLoadVmmWith_turns .rw
    | unloadVmm => exact ioctlUnloadVmmWith_turns .rw
    | startVmm => exact ioctlStartVmm_turns
    | stopVmm => exact ioctlStopVmm_turns
    | dumpVmm => exact ioctlDumpVmmWith_turns fun _ => copyToUser_turns _ _ _
    | vmmStatus =>
      show DriverTurns E d.common (ioctlVmmStatus E arg d).2.common
      unfold ioctlVmmStatus
      split
      · exact .refl
      · exact copyToUser_turns _ _ _ _
    | setVcpuid =>
      show DriverTurns E d.common (ioctlSetVcpuid E arg d).2.common
      unfold ioctlSetVcpuid
      split
      · exact .refl
      · exact copyFromUser_turns trivial
    | other => exact .refl

/-- The states between the calls of the kernel. -/
abbrev Entered (E : Env) : Device → Prop :=
  Runs.ReachesBy (fun (i : Nat × EntryPoint) => enter E i.1 i.2) (fun _ _ => True) (devInit E)

/-- What the static initialisation has and every turn keeps holds throughout a run, also within a call. -/
theorem Entered.keeps {I : State → Prop} (h : Entered E d) (init : I (.initial E.sdk))
    (turn : ∀ s t, DriverTurn E s t → I s → I t) (fuel : Nat) (p : EntryPoint) : I (enter E fuel p d).2.common := by
  have before : I d.common := h.invariant (I := fun d => I d.common) (turn _ _ (.common .reset) init)
    fun _ i _ _ held => keeps_of_steps turn (enter_turns i.2) held
  exact keeps_of_steps turn (enter_turns p) before

end Linux

namespace Windows
variable {E : Env} {d : Driver} {fuel : Nat}

theorem memcpyFromInput_turns {dst : UInt64} {file : Option (List UInt8)} {len : UInt64} {s : State}
    (live : heap s.trace dst = some ⟨.file, len⟩) : DriverTurns E s (memcpyFromInput dst file len s) := by
  cases file with
  | none => exact .refl
  | some bytes => exact .single (.ioctl _ trivial ⟨len, live, rfl⟩)

theorem memcpyToOutput_turns (out : Option Nat) (src : UInt64) (num : Nat) (s : State) :
    DriverTurns E s (memcpyToOutput out src num s) := by
  unfold memcpyToOutput
  split
  · exact .refl
  · split
    · exact .refl
    · exact .single (.ioctl _ trivial trivial)

theorem dispatch_turns {code : IoControlCode} {input : Option (List UInt8)} {output : Option Nat}
    {r : Option Int × Driver} (handled : dispatch E fuel code input output d = some r) :
    DriverTurns E d.common r.2.common := by
  cases code with
  | other => cases handled
  | addModule =>
    cases handled
    exact ioctlAddModuleWith_turns fun _ _ live => memcpyFromInput_turns live
  | loadVmm =>
    cases handled
    exact ioctlLoadVmmWith_turns .rwe
  | unloadVmm =>
    cases handled
    exact ioctlUnloadVmmWith_turns .rwe
  | startVmm =>
    cases handled
    exact ioctlStartVmm_turns
  | stopVmm =>
    cases handled
    exact ioctlStopVmm_turns
  | dumpVmm =>
    cases handled
    exact ioctlDumpVmmWith_turns fun _ _ => memcpyToOutput_turns ..
  | vmmStatus =>
    cases handled
    cases output with
    | none => exact .refl
    | some size => exact .single (.ioctl _ trivial trivial)
  | setVcpuid =>
    cases handled
    cases input with
    | none => exact .refl
    | some bytes => exact .single (.ioctl _ trivial trivial)

theorem enter_turns (p : EntryPoint) : DriverTurns E d.common (enter E fuel p d).2.common := by
  cases p with
  | d0Exit => exact Turns.driver (commonFini_turns E d.common)
  | contextCleanup => exact Turns.driver (commonFini_turns E d.common)
  | deviceControl q =>
    show DriverTurns E d.common (bareflankEvtIoDeviceControl E fuel q d).2.common
    unfold bareflankEvtIoDeviceControl
    split
    · exact .refl
    · split
      · exact .refl
      · split
        · exact .refl
        · rename_i handled
          exact dispatch_turns handled
        · rename_i handled
          have run := dispatch_turns handled
          dsimp only
          split <;> exact run

end Windows

end Bfdriver
