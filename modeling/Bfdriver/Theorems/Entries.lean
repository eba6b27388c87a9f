import Bfdriver.TestPlatform
import Bfdriver.Theorems.Ownership

/-! # Entering the VMM

Whenever `call_vmm` writes the thread context or calls `_start`, the stack, the TLS and the memory of every
module are live. While the driver is not unloaded the globals name such memory. -/

namespace Bfdriver
open EventLog BlockHeap

/-- The memory that the VMM is entered with is live, and the top of the stack is that of the stack. -/
structure ResourcesLive (k : Sdk) (h : UInt64 → Option Block) (r : Resources) : Prop where
  stack : h r.stack = some ⟨.stack, r.stackSize⟩
  stackSize : r.stackSize = k.stackSize * 2
  stackTop : r.stackTop = stackTopOf k r.stack r.stackSize
  tls : h r.tls = some ⟨.tls, r.tlsSize⟩
  modules : ∀ m ∈ r.modules, h m.exec = some ⟨.exec, m.execSize⟩

/-- A write of the thread context or an entry to the VMM has live memory. -/
def EntersLive (k : Sdk) (past : Trace) : Event → Prop
  | .threadContext r _ => ResourcesLive k (heap past) r
  | .enter r _ _ _ => ResourcesLive k (heap past) r
  | _ => True

/-- A load that the ELF loader reports as successful has memory for every module. -/
def LoaderAllocates (E : Env) : Prop :=
  ∀ s : State, (bfelfLoad E s).1 = bfSuccess → ∀ m ∈ (bfelfLoad E s).2.added, m.exec ≠ 0

/-- The globals name a stack. -/
structure Stacked (k : Sdk) (s : State) : Prop where
  stack : s.stack ≠ 0
  stackSize : s.stackSize = k.stackSize * 2
  stackTop : s.stackTop = stackTopOf k s.stack (k.stackSize * 2)

namespace Stacked
variable {E : Env} {k : Sdk} {outer : Pointers} {s t : State}

theorem kept (h : Stacked k s) (hk : Kept s t) : Stacked k t where
  stack := hk.stack ▸ h.stack
  stackSize := hk.stackSize.trans h.stackSize
  stackTop := by rw [hk.stackTop, hk.stack, h.stackTop]

theorem calls (h : Stacked k s) (l : Trace) : Stacked k { s with trace := l } := ⟨h.stack, h.stackSize, h.stackTop⟩

theorem live (h : Stacked k s) (ho : Owned (heap s.trace) (s.pointers ++ outer)) :
    heap s.trace s.stack = some ⟨.stack, k.stackSize * 2⟩ := by
  rw [← h.stackSize]
  refine ho.live (s.stack, ⟨.stack, s.stackSize⟩) (List.mem_append_left _ ?_)
  simp [State.pointers, pointerAt, h.stack]

theorem of_stages (stack : (loadStack E s).1 = bfSuccess) : Stacked E.sdk (loadElf E s).2 := by
  obtain ⟨ne, size, top⟩ := setupStack_success E s stack
  have sameTls := setupTls_sameStack E (loadStack E s).2
  have sameElf := bfelfLoad_sameStack E (loadTls E s).2
  have same : (loadElf E s).2.stack = (loadStack E s).2.stack := sameElf.stack.trans sameTls.stack
  refine ⟨same ▸ ne, (sameElf.stackSize.trans sameTls.stackSize).trans size, ?_⟩
  rw [same, sameElf.stackTop, sameTls.stackTop]
  exact top

end Stacked

/-- The globals name the memory that the VMM runs on. -/
structure Armed (k : Sdk) (s : State) : Prop where
  stack : s.stack ≠ 0
  stackSize : s.stackSize = k.stackSize * 2
  stackTop : s.stackTop = stackTopOf k s.stack s.stackSize
  tls : s.tls ≠ 0
  execs : ∀ m ∈ s.added, m.exec ≠ 0
  modules : s.numModules ≠ 0

namespace Armed
variable {E : Env} {k : Sdk} {outer : Pointers} {fuel : Nat} {s t : State}

theorem kept (h : Armed k s) (hk : Kept s t) : Armed k t where
  stack := hk.stack ▸ h.stack
  stackSize := hk.stackSize.trans h.stackSize
  stackTop := by rw [hk.stackTop, hk.stack, hk.stackSize, h.stackTop]
  tls := hk.tls ▸ h.tls
  execs := hk.added ▸ h.execs
  modules := hk.numModules ▸ h.modules

theorem stacked (h : Armed k s) : Stacked k s := ⟨h.stack, h.stackSize, by rw [h.stackTop, h.stackSize]⟩

/-- Owned memory that the globals name is live. -/
theorem live (h : Armed k s) (ho : Owned (heap s.trace) (s.pointers ++ outer)) :
    ResourcesLive k (heap s.trace) s.resources where
  stack := by
    rw [show s.resources.stackSize = k.stackSize * 2 from h.stackSize]
    exact h.stacked.live ho
  stackSize := h.stackSize
  stackTop := h.stackTop
  tls := by
    refine ho.live (s.tls, ⟨.tls, s.tlsSize⟩) (List.mem_append_left _ ?_)
    simp [State.pointers, pointerAt, h.tls]
  modules m hm := by
    have mem : (m.exec, ⟨.exec, m.execSize⟩) ∈ execPointers s.added :=
      List.mem_map.mpr ⟨m, List.mem_filter.mpr ⟨hm, by simpa using h.execs m hm⟩, rfl⟩
    exact ho.live (m.exec, ⟨.exec, m.execSize⟩) (List.mem_append_left _ (List.mem_append_left _ mem))

/-- Calls from a state whose globals name live memory enter the VMM with live memory. -/
theorem entries (h : Armed k s) (ho : Owned (heap s.trace) (s.pointers ++ outer)) (hk : Kept s t)
    (entries : AtEach (EntersLive k) s.trace) : AtEach (EntersLive k) t.trace := by
  have live := h.live ho
  refine entries.grew hk.grew fun past e before he => ?_
  have live : ResourcesLive k (heap past) s.resources := (heap_grew before).symm ▸ live
  cases e with
  | threadContext r tc =>
    obtain rfl : r = s.resources := he
    exact live
  | enter r req sp ret =>
    obtain rfl : r = s.resources := he
    exact live
  | _ => trivial

/-- The stages of a load that set memory up leave the globals naming all of it. -/
theorem of_stages (hl : LoaderAllocates E) (hm : s.numModules ≠ 0) (hstack : (loadStack E s).1 = bfSuccess)
    (htls : (loadTls E s).1 = bfSuccess) (helf : (loadElf E s).1 = bfSuccess) : Armed E.sdk (loadElf E s).2 := by
  have stacked := Stacked.of_stages hstack
  obtain ⟨tls, -, modules⟩ := bfelfLoad_frame E (loadTls E s).2
  refine ⟨stacked.stack, stacked.stackSize, ?_, tls ▸ setupTls_success E _ htls, hl _ helf, ?_⟩
  · rw [stacked.stackSize]
    exact stacked.stackTop
  · rw [modules, (setupTls_modules E _).2, (setupStack_modules E s).2]
    exact hm

end Armed

/-- The event writes the thread context or calls `_start`. -/
def Enters : Event → Prop
  | .threadContext .. | .enter .. => True
  | _ => False

theorem entersLive_of_not_enters {k : Sdk} {t : Trace} {e : Event} (h : ¬Enters e) : EntersLive k t e := by
  cases e <;> first | trivial | exact absurd trivial h

theorem SetsUp.not_enters {e : Event} (h : SetsUp e) : ¬Enters e := by
  cases e <;> first | exact id | exact fun _ => h

theorem commonReset_not_enters (E : Env) (s : State) : Grew (fun e => ¬Enters e) s.trace (commonReset E s).2.trace :=
  (commonReset_grew E s).mono fun e he => by cases e <;> first | exact id | exact he.elim

section Entries
variable {E : Env} {fuel : Nat} {op : Op} {s t : State} {P : Trace → Event → Prop} {Ready : State → Prop}
  (others : ∀ past e, ¬Enters e → P past e)
  (calls : ∀ {u v : State}, Ready u → Kept u v → AtEach P u.trace → AtEach P v.trace ∧ Ready v)
include others calls

/-- A load whose stages make the driver ready enters the VMM only once it is. -/
theorem LoadRun.entries (before : AtEach P s.trace)
    (stages : (loadStack E s).1 = bfSuccess → (loadTls E s).1 = bfSuccess → (loadElf E s).1 = bfSuccess →
      Ready (loadElf E s).2) {r : Option Int × State} (run : LoadRun E fuel s r) :
    AtEach P r.2.trace ∧ (r.2.vmmStatus ≠ .unloaded → Ready r.2) := by
  have quiet {u v : State} (h : AtEach P u.trace) (g : Grew (fun e => ¬Enters e) u.trace v.trace) : AtEach P v.trace :=
    h.grew g fun past e _ he => others past e he
  have reset {u : State} (h : AtEach P u.trace) :
      AtEach P (commonReset E u).2.trace ∧ ((commonReset E u).2.vmmStatus ≠ .unloaded → Ready (commonReset E u).2) :=
    ⟨quiet h (commonReset_not_enters E u), fun ne => absurd (commonReset_status E u) ne⟩
  have stack : AtEach P (loadStack E s).2.trace := quiet before ((setupStack_grew E s).mono fun _ => SetsUp.not_enters)
  have tls : AtEach P (loadTls E s).2.trace := quiet stack ((setupTls_grew E _).mono fun _ => SetsUp.not_enters)
  have elf : AtEach P (loadElf E s).2.trace := quiet tls ((bfelfLoad_grew E _).mono fun _ => SetsUp.not_enters)
  have modules (inited : Initialised E s) :=
    calls (stages inited.stack inited.tls inited.elf) (loadModules_kept E fuel s) elf
  have pages (inited : Initialised E s) :=
    calls (stages inited.stack inited.tls inited.elf) (loadPages_kept E fuel s) elf
  cases run with
  | stackFailed => exact reset stack
  | tlsFailed => exact reset tls
  | elfFailed => exact reset elf
  | initRefused hstack htls helf => exact reset (calls (stages hstack htls helf) (loadInit_kept E s) elf).1
  | modulesFailed inited => exact reset (modules inited).1
  | modulesPending inited => exact ⟨(modules inited).1, fun _ => (modules inited).2⟩
  | pagesFailed inited => exact ⟨(pages inited).1, fun _ => (pages inited).2⟩
  | loaded inited =>
    have loaded := calls (stages inited.stack inited.tls inited.elf) ((loadPages_kept E fuel s).of_status .loaded) elf
    exact ⟨loaded.1, fun _ => loaded.2⟩

/-- Entries are made by a driver that is ready, which it is while it is not unloaded and once a load has set it up. -/
theorem Effect.entries (before : AtEach P s.trace) (ready : s.vmmStatus ≠ .unloaded → Ready s)
    (stages : s.numModules ≠ 0 → (loadStack E s).1 = bfSuccess → (loadTls E s).1 = bfSuccess →
      (loadElf E s).1 = bfSuccess → Ready (loadElf E s).2) (effect : Effect E fuel op s t) :
    AtEach P t.trace ∧ (t.vmmStatus ≠ .unloaded → Ready t) := by
  cases effect with
  | kept kept active =>
    rcases active with rfl | ⟨active, -⟩
    · exact ⟨before, ready⟩
    · have called := calls (ready active) kept before
      exact ⟨called.1, fun _ => called.2⟩
  | added file fsize unloaded => exact ⟨before, fun ne => absurd unloaded ne⟩
  | @reset u kept finalised =>
    have called : AtEach P u.trace := by
      rcases finalised with ⟨-, rfl⟩ | ⟨active, -⟩
      · exact before
      · exact (calls (ready active) kept before).1
    exact ⟨called.grew (commonReset_not_enters E u) fun past e _ he => others past e he,
      fun ne => absurd (commonReset_status E u) ne⟩
  | load isLoad unloaded some run => exact run.entries others calls before (stages some)

end Entries

/-- Every entry was made with live memory, and while the driver is not unloaded it can be entered. -/
structure EntryInv (E : Env) (s : State) : Prop where
  entries : AtEach (EntersLive E.sdk) s.trace
  armed : s.vmmStatus ≠ .unloaded → Armed E.sdk s

namespace EntryInv
variable {E : Env} {outer : Pointers} {fuel : Nat} {op : Op} {s t : State}

theorem reset (h : AtEach (EntersLive E.sdk) s.trace) : EntryInv E (commonReset E s).2 where
  entries := h.grew (commonReset_not_enters E s) fun _ _ _ he => entersLive_of_not_enters he
  armed hne := absurd (commonReset_status E s) hne

theorem effect (hl : LoaderAllocates E) (hs : MemoryInv E outer s) (h : EntryInv E s) (e : Effect E fuel op s t) :
    EntryInv E t := by
  have calls {u v : State} (ready : Armed E.sdk u ∧ Owned (heap u.trace) (u.pointers ++ outer)) (kept : Kept u v)
      (before : AtEach (EntersLive E.sdk) u.trace) :
      AtEach (EntersLive E.sdk) v.trace ∧ Armed E.sdk v ∧ Owned (heap v.trace) (v.pointers ++ outer) := by
    refine ⟨ready.1.entries ready.2 kept before, ready.1.kept kept, ?_⟩
    rw [kept.heap, kept.pointers]
    exact ready.2
  have after := e.entries (fun _ _ => entersLive_of_not_enters) calls h.entries (fun active => ⟨h.armed active, hs.owned⟩)
    fun some stack tls elf => ⟨.of_stages hl some stack tls elf, hs.stack.tls.elf.owned⟩
  exact ⟨after.1, fun active => (after.2 active).1⟩

end EntryInv

theorem ReachableBy.entryInv {E : Env} {P : State → Op → Prop} (hl : LoaderAllocates E) {s : State}
    (h : ReachableBy E P s) : EntryInv E s :=
  h.invariant (.reset AtEach.nil) fun s fuel op before _ _ ih => ih.effect hl before.memoryInv (exec_effect E fuel op s)

/-- Every entry of a run, also of a load that has not returned, is made with live memory. Between the
    operations a driver that is not unloaded has an entry point, modules and live memory. -/
theorem entries_live {E : Env} (hl : LoaderAllocates E) {s : State} (h : Reachable E s) :
    (∀ fuel op, AtEach (EntersLive E.sdk) (exec E fuel op s).2.trace) ∧
      (s.vmmStatus = .loaded ∨ s.vmmStatus = .running ∨ s.vmmStatus = .corrupt →
        s.start ≠ 0 ∧ 0 < s.numModules ∧ ResourcesLive E.sdk (heap s.trace) s.resources) := by
  have inv := h.entryInv hl
  refine ⟨fun fuel op => (inv.effect hl h.memoryInv (exec_effect E fuel op s)).entries, fun hst => ?_⟩
  have active : s.vmmStatus ≠ .unloaded := by rcases hst with h | h | h <;> simp [h]
  have armed := inv.armed active
  exact ⟨h.hasEntry active, Nat.pos_of_ne_zero armed.modules, armed.live h.memoryInv.owned⟩

/-! ### The loader of the tests -/

theorem loadImages_execs (mocks : Mocks) (ms : List Binary) (s : State) (h : allocsSucceed ms.length s.trace = true) :
    ∀ m ∈ (loadImages (testEnv mocks) ms (ms.map fun _ => some testImage) s).1, m.exec ≠ 0 := by
  induction ms generalizing s with
  | nil => simp [loadImages]
  | cons m ms ih =>
    simp only [List.length_cons, allocsSucceed, decide_eq_true_eq] at h
    rw [List.map_cons, loadImages]
    exact List.forall_mem_cons.mpr ⟨h.1, ih _ h.2⟩

theorem testEnv_loaderAllocates (mocks : Mocks) : LoaderAllocates (testEnv mocks) := by
  intro s hret
  rw [bfelfLoad_added]
  refine loadImages_execs mocks s.added s ?_
  change (if allocsSucceed s.added.length s.trace then bfSuccess else (-1 : Int)) = bfSuccess at hret
  split at hret
  · assumption
  · cases hret

theorem entries_live_after_start :
    (∀ fuel op, AtEach (EntersLive testSdk) (exec (testEnv {}) fuel op (after (testEnv {}) 8 startOps)).2.trace) ∧
      ((after (testEnv {}) 8 startOps).start ≠ 0 ∧ 0 < (after (testEnv {}) 8 startOps).numModules ∧
        ResourcesLive testSdk (heap (after (testEnv {}) 8 startOps).trace) (after (testEnv {}) 8 startOps).resources) :=
  have reachable : Reachable (testEnv {}) (after (testEnv {}) 8 startOps) := reachable_after (by decide +kernel)
  have live := entries_live (testEnv_loaderAllocates {}) reachable
  ⟨live.1, live.2 (by decide +kernel)⟩

end Bfdriver
