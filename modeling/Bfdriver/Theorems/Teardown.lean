import Bfdriver.TestPlatform
import Bfdriver.Theorems.Setup

/-! # Tearing the VMM down

The VMM is initialised from a successful `BF_REQUEST_INIT` to the next successful `BF_REQUEST_FINI`. No
memory is released under an initialised VMM as long as every registration of memory is accepted. -/

namespace Bfdriver
open EventLog BlockHeap

/-! ### The initialised VMM -/

/-- `BF_REQUEST_INIT` has succeeded, with no success of `BF_REQUEST_FINI` since. -/
def VmmInitialised (l : List Signal) : Prop := opened (Signal.accepts .init) (Signal.accepts .fini) l = true

/-- The address is one of the memory that the VMM was entered with. -/
def Resources.holds (r : Resources) (a : UInt64) : Bool :=
  a = r.stack ∨ a = r.tls ∨ r.modules.any (·.exec = a)

/-- The signal is a success of `BF_REQUEST_INIT` into the memory at `a`. -/
def Signal.initsInto (a : UInt64) : Signal → Bool
  | .accepted r .init => r.holds a
  | _ => false

/-- `BF_REQUEST_INIT` has succeeded into the memory at `a`, with no success of `BF_REQUEST_FINI` since. -/
def InitialisedIn (a : UInt64) (l : List Signal) : Prop :=
  opened (Signal.initsInto a) (Signal.accepts .fini) l = true

instance (a : UInt64) (l : List Signal) : Decidable (InitialisedIn a l) := inferInstanceAs (Decidable (_ = true))

/-- A release is not one of memory that the VMM is initialised in. -/
def FreesFinalised (past : Trace) : Event → Prop
  | .free _ a _ => ¬InitialisedIn a (signals past)
  | _ => True

theorem InitialisedIn.initialised {a : UInt64} {l : List Signal} (h : InitialisedIn a l) : VmmInitialised l := by
  refine opened_mono (fun x hx => ?_) h
  cases x with
  | vmcall => cases hx
  | accepted r req => cases req <;> first | rfl | cases hx

theorem not_vmmInitialised_fini {res : Resources} {l : List Signal} :
    ¬VmmInitialised (.accepted res .fini :: l) := by
  simp [VmmInitialised, Signal.accepts]

/-- The releases of a reset find the VMM as it was before them. -/
theorem freesFinalised_releases (ps : Pointers) (t : Trace) (hi : ¬VmmInitialised (signals t))
    (h : AtEach FreesFinalised t) : AtEach FreesFinalised (releases ps t) := by
  induction ps generalizing t with
  | nil => exact h
  | cons p ps ih => exact ih _ hi (h.cons fun hin => hi hin.initialised)

theorem freesFinalised_of_setsUp {t : Trace} {e : Event} (h : SetsUp e) : FreesFinalised t e := by
  cases e <;> trivial

theorem freesFinalised_of_leavesMemory {r : Resources} {t : Trace} {e : Event} (h : LeavesMemory r e) :
    FreesFinalised t e := by
  cases e <;> trivial

/-! ### Refused registrations -/

/-- A call that registers memory with the VMM, or looks up what to register, fails. -/
def registrationRefused : Event → Bool
  | .setIntegerArgs (.addMdl _) ret => ret ≠ bfSuccess
  | .enter _ (.addMdl _) _ ret => ret ≠ bfSuccess
  | .getLoadInstr _ ret => ret ≠ bfSuccess
  | _ => false

/-- Some registration of the run was refused. -/
def Refused (s : State) : Prop := ∃ e ∈ s.trace, registrationRefused e = true

instance (s : State) : Decidable (Refused s) := inferInstanceAs (Decidable (∃ e ∈ s.trace, _))

section Refusals
variable {E : Env} {s : State}

theorem callVmm_refused {md : MemoryDescriptor} (hs : s.start ≠ 0) (h : (callVmm E (.addMdl md) s).1 ≠ bfSuccess) :
    Refused (callVmm E (.addMdl md) s).2 := by
  unfold callVmm at h ⊢
  dsimp only at h ⊢
  split
  · rename_i hargs
    exact ⟨_, List.mem_cons_self, decide_eq_true hargs⟩
  · rename_i hargs
    rw [if_neg hargs] at h
    unfold enterVmm at h ⊢
    split
    · rename_i hstart
      rw [if_pos hstart] at h
      exact ⟨_, List.mem_cons_of_mem _ List.mem_cons_self, decide_eq_true h⟩
    · rename_i hstart
      exact absurd hs hstart

theorem addRaw_refused {virt type : UInt64} (hs : s.start ≠ 0)
    (h : (addRawMdToMemoryManager E virt type s).1 ≠ bfSuccess) :
    Refused (addRawMdToMemoryManager E virt type s).2 := by
  unfold addRawMdToMemoryManager at h ⊢
  dsimp only at h ⊢
  split
  · rename_i hret
    exact callVmm_refused hs hret
  · rename_i hret
    rw [if_neg hret] at h
    exact absurd rfl h

theorem pageLoop_refused {type last : UInt64} {ret : Int} (hne : ret ≠ bfSuccess) :
    ∀ (fuel : Nat) (page : UInt64) (s : State), s.start ≠ 0 →
      (pageLoop E type last fuel page s).1 = some ret → Refused (pageLoop E type last fuel page s).2
  | 0, _, _, _, h => by cases h
  | fuel + 1, page, s, hs, h => by
    have start := (addRawMdToMemoryManager_registered E page type s).start
    unfold pageLoop at h ⊢
    split
    · rename_i hle
      rw [if_pos hle] at h
      dsimp only at h ⊢
      split
      · rename_i hret
        exact addRaw_refused hs hret
      · rename_i hret
        rw [if_neg hret] at h
        exact pageLoop_refused hne fuel _ _ (start ▸ hs) h
    · rename_i hle
      rw [if_neg hle] at h
      exact absurd (Option.some.inj h).symm hne

theorem segmentLoop_refused {fuel : Nat} {m : Binary} {ret : Int} (hne : ret ≠ bfSuccess) :
    ∀ (instrs : List LoadInstr) (i : Nat) (s : State), s.start ≠ 0 →
      (segmentLoop E fuel m instrs i s).1 = some ret → Refused (segmentLoop E fuel m instrs i s).2
  | [], _, _, _, h => absurd (Option.some.inj h).symm hne
  | instr :: instrs, i, s, hs, h => by
    unfold segmentLoop at h ⊢
    dsimp only at h ⊢
    split
    · rename_i hret
      exact ⟨_, List.mem_cons_self, decide_eq_true hret⟩
    · rename_i hret
      rw [if_neg hret] at h
      set asked := s.emit (.getLoadInstr i (E.getLoadInstr s.trace m i))
      have start := (pageLoop_registered E (instr.memoryType E.sdk)
        (pageMask E.sdk (m.exec + instr.memOffset + instr.memsz)) fuel
        (pageMask E.sdk (m.exec + instr.memOffset)) asked).start
      split
      · rename_i hpages
        rw [if_pos hpages] at h
        exact pageLoop_refused hne fuel _ asked hs h
      · rename_i hpages
        rw [if_neg hpages] at h
        exact segmentLoop_refused hne instrs (i + 1) _ (start ▸ hs) h

theorem moduleLoop_refused {fuel : Nat} {ret : Int} (hne : ret ≠ bfSuccess) :
    ∀ (ms : List Binary) (s : State), s.start ≠ 0 → (moduleLoop E fuel ms s).1 = some ret →
      Refused (moduleLoop E fuel ms s).2
  | [], _, _, h => absurd (Option.some.inj h).symm hne
  | m :: ms, s, hs, h => by
    have start := (addMdToMemoryManager_registered E fuel (some m) s).start
    unfold moduleLoop at h ⊢
    dsimp only at h ⊢
    split
    · rename_i hret
      rw [if_pos hret] at h
      exact segmentLoop_refused hne m.ef 0 s hs h
    · rename_i hret
      rw [if_neg hret] at h
      exact moduleLoop_refused hne ms _ (start ▸ hs) h

theorem Refused.reset (h : Refused s) : Refused (commonReset E s).2 := by
  obtain ⟨e, hm, he⟩ := h
  exact ⟨e, (commonReset_calls E _).mem_of_mem hm, he⟩

end Refusals

/-! ### The invariant -/

/-- No memory was released under an initialised VMM, and an unloaded driver has none. -/
structure TeardownInv (s : State) : Prop where
  frees : AtEach FreesFinalised s.trace
  idle : s.vmmStatus = .unloaded → ¬VmmInitialised (signals s.trace)

namespace TeardownInv
variable {E : Env} {fuel : Nat} {op : Op} {s t : State}

theorem reset (h : AtEach FreesFinalised s.trace) (hi : ¬VmmInitialised (signals s.trace)) :
    TeardownInv (commonReset E s).2 where
  frees := by
    rw [commonReset_eq]
    exact freesFinalised_releases s.pointers s.trace hi h
  idle _ := by
    rw [commonReset_eq]
    exact (signals_releases s.pointers s.trace).symm ▸ hi

theorem returned (h : TeardownInv s) {P : Prop} : AtEach FreesFinalised s.trace ∧
    (P → s.vmmStatus = .unloaded → ¬VmmInitialised (signals s.trace)) := ⟨h.frees, fun _ => h.idle⟩

/-- Without refused registrations a load keeps the invariant once it has returned, and releases nothing
    under the VMM before. -/
theorem loadRun (h : AtEach FreesFinalised s.trace) (hi : ¬VmmInitialised (signals s.trace))
    {r : Option Int × State} (hr : ¬Refused r.2) (run : LoadRun E fuel s r) :
    AtEach FreesFinalised r.2.trace ∧ (r.1.isSome → r.2.vmmStatus = .unloaded → ¬VmmInitialised (signals r.2.trace)) := by
  have stack : AtEach FreesFinalised (loadStack E s).2.trace :=
    h.grew (setupStack_grew E s) fun _ _ _ he => freesFinalised_of_setsUp he
  have tls : AtEach FreesFinalised (loadTls E s).2.trace :=
    stack.grew (setupTls_grew E _) fun _ _ _ he => freesFinalised_of_setsUp he
  have elf : AtEach FreesFinalised (loadElf E s).2.trace :=
    tls.grew (bfelfLoad_grew E _) fun _ _ _ he => freesFinalised_of_setsUp he
  have init := loadInit_kept E s
  have modules := loadModules_kept E fuel s
  have pages := loadPages_kept E fuel s
  have called : ∀ u, Kept (loadElf E s).2 u → AtEach FreesFinalised u.trace := fun u hk =>
    elf.grew hk.grew fun _ _ _ he => freesFinalised_of_leavesMemory he
  have kept : ∀ u : State, u.view = s.view → ¬VmmInitialised (signals u.trace) := fun u hu => by
    have hsig : signals u.trace = signals s.trace := congrArg CpuView.signals hu
    rwa [hsig]
  -- A load that got as far as the registrations fails only by a refusal.
  have start : Initialised E s → (loadInit E s).2.start ≠ 0 := fun inited =>
    init.start ▸ start_ne_zero_of_callVmm E _ _ inited.init
  cases run with
  | stackFailed => exact (reset stack (kept _ (setupStack_view E s))).returned
  | tlsFailed => exact (reset tls (kept _ ((setupTls_view E _).trans (setupStack_view E s)))).returned
  | elfFailed => exact (reset elf (kept _ (loadElf_view E s))).returned
  | initRefused hstack htls helf ne =>
    exact (reset (called _ init) (kept _ ((callVmm_view_of_ne E _ _ ne).trans (loadElf_view E s)))).returned
  | modulesFailed inited stopped ne =>
    exact absurd (moduleLoop_refused ne _ _ (start inited) stopped).reset hr
  | modulesPending inited => exact ⟨called _ modules, fun h => by cases h⟩
  | pagesFailed inited hmodules ne =>
    refine ⟨called _ pages, fun hret => ?_⟩
    obtain ⟨ret, hret⟩ := Option.isSome_iff_exists.mp hret
    have hne : ret ≠ bfSuccess := fun he => ne (he ▸ hret)
    have loopStart : (loadModules E fuel s).2.start ≠ 0 :=
      (moduleLoop_registered E fuel (loadInit E s).2.added (loadInit E s).2).start ▸ start inited
    exact absurd (pageLoop_refused hne fuel _ _ loopStart hret) hr
  | loaded => exact ⟨called _ (pages.of_status _), fun _ hst => by cases hst⟩

/-- Every operation keeps the invariant once it has returned, and releases nothing under the VMM before. -/
theorem exec (h : TeardownInv s) (fuel : Nat) (op : Op) (hr : ¬Refused (Bfdriver.exec E fuel op s).2) :
    AtEach FreesFinalised (Bfdriver.exec E fuel op s).2.trace ∧ ((Bfdriver.exec E fuel op s).1.isSome →
      (Bfdriver.exec E fuel op s).2.vmmStatus = .unloaded →
        ¬VmmInitialised (signals (Bfdriver.exec E fuel op s).2.trace)) := by
  have effect := exec_effect E fuel op s
  have called : ∀ u, Kept s u → AtEach FreesFinalised u.trace := fun u hk =>
    h.frees.grew hk.grew fun _ _ _ he => freesFinalised_of_leavesMemory he
  generalize hres : Bfdriver.exec E fuel op s = r at hr effect ⊢
  obtain ⟨ret, t⟩ := r
  cases effect with
  | kept kept active =>
    refine ⟨called _ kept, fun _ hst => ?_⟩
    rcases active with rfl | ⟨-, hactive⟩
    · exact h.idle hst
    · exact absurd hst hactive
  | added file fsize unloaded room => exact ⟨h.frees, fun _ _ => h.idle unloaded⟩
  | @reset u kept finalised =>
    refine (reset (called u kept) ?_).returned
    rcases finalised with ⟨unloaded, rfl⟩ | ⟨-, res, l, hsig⟩
    · exact h.idle unloaded
    · rw [hsig]
      exact not_vmmInitialised_fini
  | load isLoad unloaded some run =>
    subst isLoad
    have hret : (commonLoadVmm E fuel s).1 = ret := congrArg Prod.fst hres
    rw [← hret]
    exact loadRun h.frees (h.idle unloaded) hr run

end TeardownInv

theorem Refused.mono {s : State} (h : Refused s) (E : Env) (fuel : Nat) (op : Op) :
    Refused (exec E fuel op s).2 := by
  obtain ⟨e, hm, he⟩ := h
  exact ⟨e, (exec_effect E fuel op s).calls.mem_of_mem hm, he⟩

theorem ReachableBy.teardownInv {E : Env} {P : State → Op → Prop} {s : State} (h : ReachableBy E P s)
    (hr : ¬Refused s) : TeardownInv s := by
  refine h.invariant (I := fun s => ¬Refused s → TeardownInv s) ?_ (fun s fuel op _ _ returned ih hr => ?_) hr
  · refine fun _ => .reset AtEach.nil ?_
    simp [VmmInitialised, signals, State.initial]
  · have inv := (ih fun earlier => hr (earlier.mono E fuel op)).exec fuel op hr
    exact ⟨inv.1, inv.2 returned⟩

/-- In a run in which no registration of memory is refused, no memory is released while the VMM is
    initialised in it. -/
theorem freesFinalised_of_noRefusal {E : Env} {s : State} (h : Reachable E s) (fuel : Nat) (op : Op)
    (hr : ¬Refused (exec E fuel op s).2) : AtEach FreesFinalised (exec E fuel op s).2.trace :=
  ((h.teardownInv fun hs => hr (hs.mono E fuel op)).exec fuel op hr).1

theorem freesFinalised_at_fini :
    AtEach FreesFinalised (exec (testEnv {}) 8 .fini (after (testEnv {}) 8 startOps)).2.trace :=
  freesFinalised_of_noRefusal (reachable_after (by decide +kernel)) 8 .fini (by decide +kernel)

/-- A load that is refused a page of a module releases the memory of the VMM without `BF_REQUEST_FINI`. -/
theorem not_freesFinalised_of_refusal : ¬∀ (E : Env) (s : State), Reachable E s → ∀ (fuel : Nat) (op : Op),
    AtEach FreesFinalised (exec E fuel op s).2.trace := by
  intro all
  -- The VMM refuses every page, the first one being the page of the module's code.
  let E := testEnv { enter := fun _ req => if req = .init then bfSuccess else -1 }
  let s := after E 8 [.addModule 0x5000 100]
  have frees := all E s (reachable_after (by decide +kernel)) 8 .loadVmm
  -- The last call of the load is the release of the stack, which the VMM was entered with.
  have last : (exec E 8 .loadVmm s).2.trace =
      .free .rw 0x100000 0x10000 :: (exec E 8 .loadVmm s).2.trace.tail := by decide +kernel
  have initialised : InitialisedIn 0x100000 (signals (exec E 8 .loadVmm s).2.trace.tail) := by decide +kernel
  rw [last] at frees
  exact frees.here initialised

end Bfdriver
