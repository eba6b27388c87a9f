import Bfdriver.Lib.ByteMemory
import Bfdriver.Theorems.DriverReleases
import Bfdriver.Theorems.StackLayout

/-! # Writes

The driver writes to the memory that it allocates in three ways: it clears the stack and the TLS, it puts the thread
context on top of the stack before it enters the VMM, and it copies the modules of the user to their buffers. All of these
bytes lie in live memory that was allocated for them. What it writes to its globals and to the output buffers of requests
is not counted here. -/

namespace Bfdriver
open EventLog BlockHeap ByteMemory Pages Runs

/-- The bytes that the driver writes by a call, other than to its globals and to what a request has for the answer. -/
def bytesWritten (k : Sdk) : Event → Option Extent
  | .memset ptr num => some ⟨ptr, num.toNat⟩
  | .threadContext _ tc => some ⟨tc.addr, k.threadContextSize.toNat⟩
  | .copyFromUser (.buffer a) _ len _ => some ⟨a, len.toNat⟩
  | .readInput (.buffer a) _ _ len => some ⟨a, len⟩
  | _ => none

/-- The memory that a call may write to: the bytes of the user reach the buffers of the modules only, and nothing is
    written to executable memory. -/
def MayWrite : Event → AllocSite → Prop
  | .memset .., site => site = .stack ∨ site = .tls
  | .threadContext .., site => site = .stack
  | .copyFromUser .., site => site = .file
  | .readInput .., site => site = .file
  | _, _ => False

/-- What is counted of the writes of a call lies in one live block that was allocated for it. -/
def WritesLive (k : Sdk) (past : Trace) (e : Event) : Prop :=
  ∀ r ∈ bytesWritten k e, ∃ a b, heap past a = some b ∧ MayWrite e b.site ∧ r.Inside ⟨a, b.len.toNat⟩

/-! ### The place of a write -/

/-- What is cleared or filled is a live block as a whole, and the thread context ends at the top of the stack. -/
def WritesAt (k : Sdk) (past : Trace) : Event → Prop
  | .memset a n => ∃ site, (site = .stack ∨ site = .tls) ∧ heap past a = some ⟨site, n⟩
  | .threadContext res tc => tc.addr = res.stackTop - k.threadContextSize
  | e => Fills past e

section Steps
variable {E : Env} {s t : State}

theorem setupStack_writesAt (h : AtEach (WritesAt E.sdk) s.trace) : AtEach (WritesAt E.sdk) (setupStack E s).2.trace := by
  have allocated := h.cons (e := .alloc .stack (E.sdk.stackSize * 2) (newStack E s)) trivial
  unfold setupStack
  dsimp only
  split
  · exact allocated
  · rename_i nonnull
    have live : heap (.alloc .stack (E.sdk.stackSize * 2) (newStack E s) :: s.trace) (newStack E s) =
        some ⟨.stack, E.sdk.stackSize * 2⟩ := by
      rw [heap_alloc nonnull, Function.update_self]
    exact allocated.cons ⟨.stack, .inl rfl, live⟩

theorem setupTls_writesAt (h : AtEach (WritesAt E.sdk) s.trace) : AtEach (WritesAt E.sdk) (setupTls E s).2.trace := by
  have counted := h.cons (e := .numCpus (E.numCpus s.trace)) trivial
  have allocated := counted.cons (e := .alloc .tls (newTlsSize E s) (newTls E s)) trivial
  unfold setupTls
  dsimp only
  split
  · exact allocated
  · rename_i nonnull
    have live : heap (.alloc .tls (newTlsSize E s) (newTls E s) :: .numCpus (E.numCpus s.trace) :: s.trace)
        (newTls E s) = some ⟨.tls, newTlsSize E s⟩ := by
      rw [heap_alloc (show newTls E s ≠ 0 from nonnull), Function.update_self]
    exact allocated.cons ⟨.tls, .inr rfl, live⟩

theorem enterVmm_writesAt (h : AtEach (WritesAt E.sdk) s.trace) (req : Request) :
    AtEach (WritesAt E.sdk) (enterVmm E req (writeThreadContext E s)).2.trace := by
  have named := h.cons (e := .currentCpuNum (E.currentCpuNum s.trace)) trivial
  have placed : AtEach (WritesAt E.sdk) (writeThreadContext E s).trace := named.cons rfl
  unfold enterVmm
  split
  · exact placed.cons trivial
  · exact placed

theorem callVmm_writesAt (h : AtEach (WritesAt E.sdk) s.trace) (req : Request) :
    AtEach (WritesAt E.sdk) (callVmm E req s).2.trace := by
  have asked : AtEach (WritesAt E.sdk) { s.emit (.setIntegerArgs req (E.setIntegerArgs s.trace req)) with
      info := { s.info with args := some req } }.trace := h.cons trivial
  unfold callVmm
  dsimp only
  split
  · exact asked
  · exact (enterVmm_writesAt asked req).cons trivial

theorem Elementary.writesAt (step : Elementary E s t) (h : AtEach (WritesAt E.sdk) s.trace) :
    AtEach (WritesAt E.sdk) t.trace := by
  have quiet {P : Event → Prop} {u : State} (g : Grew P s.trace u.trace) (hP : ∀ past e, P e → WritesAt E.sdk past e) :
      AtEach (WritesAt E.sdk) u.trace := h.grew g fun past e _ => hP past e
  cases step with
  | aside e he => exact h.cons (by cases e <;> trivial)
  | status => exact h
  | started => exact h
  | added => exact h
  | stack => exact setupStack_writesAt h
  | tls => exact setupTls_writesAt h
  | elf =>
    refine quiet (bfelfLoad_grew_of (P := fun e => ∀ past, WritesAt E.sdk past e) s ?_ fun _ _ _ => trivial)
      fun past _ he => he past
    exact fun e he past => by cases e <;> trivial
  | call req => exact callVmm_writesAt h req
  | reset => exact quiet (commonReset_grew E s) fun past e he => by cases e <;> trivial

theorem DriverTurn.writesAt (step : DriverTurn E s t) (h : AtEach (WritesAt E.sdk) s.trace) :
    AtEach (WritesAt E.sdk) t.trace := by
  cases step with
  | common turn =>
    refine turn.keeps (I := fun s => AtEach (WritesAt E.sdk) s.trace) (fun _ _ step => step.writesAt) ?_ h
    intro s t same before
    rw [same]
    exact before
  | ioctl e he fills => exact h.cons (by cases e <;> first | exact fills | exact he.elim)

end Steps

/-! ### The stack under the thread context -/

/-- The thread context is written on a live stack. -/
def ContextLive (k : Sdk) (past : Trace) : Event → Prop
  | .threadContext res _ =>
    heap past res.stack = some ⟨.stack, k.stackSize * 2⟩ ∧ res.stackTop = stackTopOf k res.stack (k.stackSize * 2)
  | _ => True

theorem contextLive_of_not_enters {k : Sdk} {t : Trace} {e : Event} (h : ¬Enters e) : ContextLive k t e := by
  cases e <;> first | trivial | exact absurd trivial h

theorem Stacked.contexts {k : Sdk} {outer : Pointers} {s t : State} (h : Stacked k s)
    (ho : Owned (heap s.trace) (s.pointers ++ outer)) (hk : Kept s t) (before : AtEach (ContextLive k) s.trace) :
    AtEach (ContextLive k) t.trace := by
  refine before.grew hk.grew fun past e earlier he => ?_
  cases e with
  | threadContext res tc =>
    obtain rfl : res = s.resources := he
    exact ⟨(congrFun (heap_grew earlier) s.stack).trans (h.live ho), h.stackTop⟩
  | _ => trivial

/-- The thread contexts so far were written on live stacks, and so will the next one be. -/
structure StackedInv (E : Env) (outer : Pointers) (s : State) : Prop extends MemoryInv E outer s where
  contexts : AtEach (ContextLive E.sdk) s.trace
  stacked : s.vmmStatus ≠ .unloaded → Stacked E.sdk s

namespace StackedInv
variable {E : Env} {outer : Pointers} {fuel : Nat} {op : Op} {s t : State}

theorem effect (h : StackedInv E outer s) (e : Effect E fuel op s t) : StackedInv E outer t := by
  have calls {u v : State} (ready : Stacked E.sdk u ∧ Owned (heap u.trace) (u.pointers ++ outer)) (kept : Kept u v)
      (before : AtEach (ContextLive E.sdk) u.trace) :
      AtEach (ContextLive E.sdk) v.trace ∧ Stacked E.sdk v ∧ Owned (heap v.trace) (v.pointers ++ outer) := by
    refine ⟨ready.1.contexts ready.2 kept before, ready.1.kept kept, ?_⟩
    rw [kept.heap, kept.pointers]
    exact ready.2
  have memory := h.toMemoryInv
  obtain ⟨contexts, ready⟩ := e.entries (fun _ _ => contextLive_of_not_enters) calls h.contexts
    (fun active => ⟨h.stacked active, memory.owned⟩) fun _ stack _ _ => ⟨.of_stages stack, memory.stack.tls.elf.owned⟩
  exact ⟨memory.effect e, contexts, fun active => (ready active).1⟩

/-- After calls that neither write a thread context nor enter the VMM, whatever they do to the frame. -/
theorem outside {outer' : Pointers} (h : StackedInv E outer s) (memory : MemoryInv E outer' t)
    (globals : t = { s with trace := t.trace }) (g : Grew (fun e => ¬Enters e) s.trace t.trace) :
    StackedInv E outer' t := by
  refine ⟨memory, h.contexts.grew g fun _ _ _ => contextLive_of_not_enters, ?_⟩
  rw [globals]
  exact fun active => (h.stacked active).calls t.trace

theorem rules (kind : MemKind) (E : Env) : FrameRules E kind (StackedInv E) where
  effect h e := h.effect e
  copied h copies := h.outside (h.toMemoryInv.untouched copies.untouched) copies.globals
    (copies.grew.mono fun e he => by cases e <;> first | exact id | exact he.elim)
  refused len h := h.outside (h.toMemoryInv.untouched (.emit _ rfl)) rfl ((Grew.refl _).cons id)
  allocated len h nonnull := h.outside (h.toMemoryInv.file len nonnull) rfl ((Grew.refl _).cons id)
  released {outer s k a len} _ h :=
    h.outside (freePmodules_memory k [⟨a, len⟩] s h.toMemoryInv) rfl ((Grew.refl _).cons id)
  reframe h memory := ⟨memory, h.contexts, h.stacked⟩

theorem initial (E : Env) : StackedInv E [] (commonInit E (.initial E.sdk)).2 :=
  ⟨commonInit_memoryInv E, .nil, fun active => absurd rfl active⟩

end StackedInv

theorem Handling.contexts {E : Env} {fuel : Nat} {kind : MemKind} {d e : Driver} {r : Bool} (h : Handling E fuel kind d r e)
    (before : StackedInv E (fileBlocks d.held) d.common) : AtEach (ContextLive E.sdk) e.common.trace := by
  obtain ⟨outer, inv⟩ := (StackedInv.rules kind E).handling h before
  exact inv.contexts

/-! ### The bytes of the thread context -/

section Bytes
variable {k : Sdk} (power : k.stackSize.toNat.isPowerOfTwo) (room : k.threadContextSize ≤ k.stackSize)
  (double : 2 * k.stackSize.toNat < UInt64.size)
include power room double

/-- Wherever a stack of two windows lies, the thread context lies in it, even if the stack wraps around the end of the
    address space. -/
theorem threadContext_inside (stack : UInt64) :
    Extent.Inside ⟨stackTopOf k stack (k.stackSize * 2) - k.threadContextSize, k.threadContextSize.toNat⟩
      ⟨stack, (k.stackSize * 2).toNat⟩ := by
  have low := lt_start_add power (stack + k.stackSize * 2)
  have high := start_le power (stack + k.stackSize * 2)
  have top : stackTopOf k stack (k.stackSize * 2) = start k.stackSize (stack + k.stackSize * 2) - 1 := rfl
  rw [Extent.Inside, top]
  generalize start k.stackSize (stack + k.stackSize * 2) = limit at low high ⊢
  have whole : (k.stackSize * 2).toNat = 2 * k.stackSize.toNat := by
    rw [UInt64.toNat_mul, Nat.mul_comm]
    exact Nat.mod_eq_of_lt double
  have cut : (stack + k.stackSize * 2 - limit).toNat = (stack + k.stackSize * 2).toNat - limit.toNat := toNat_sub high
  -- Counted from the stack, the thread context lies below what the alignment cuts off.
  have offset : limit - 1 - k.threadContextSize - stack =
      k.stackSize * 2 - (stack + k.stackSize * 2 - limit) - 1 - k.threadContextSize := by grind
  have small : k.threadContextSize.toNat ≤ k.stackSize.toNat := room
  have one : (1 : UInt64).toNat = 1 := rfl
  have first : (k.stackSize * 2 - (stack + k.stackSize * 2 - limit)).toNat =
      2 * k.stackSize.toNat - ((stack + k.stackSize * 2).toNat - limit.toNat) := by
    rw [toNat_sub (by omega), whole, cut]
  have second := toNat_sub (a := k.stackSize * 2 - (stack + k.stackSize * 2 - limit)) (b := 1) (by omega)
  rw [offset, toNat_sub (by omega), second, first, whole]
  dsimp only
  omega

theorem WritesAt.live {past : Trace} {e : Event} (place : WritesAt k past e) (context : ContextLive k past e) :
    WritesLive k past e := by
  have whole {a : UInt64} {b : Block} (live : heap past a = some b) (may : MayWrite e b.site) :
      ∃ base b', heap past base = some b' ∧ MayWrite e b'.site ∧ Extent.Inside ⟨a, b.len.toNat⟩ ⟨base, b'.len.toNat⟩ :=
    ⟨a, b, live, may, by simp [Extent.Inside]⟩
  intro r written
  cases e with
  | memset a n =>
    cases written
    obtain ⟨site, cleared, live⟩ := place
    exact whole live cleared
  | threadContext res tc =>
    cases written
    obtain ⟨live, top⟩ := context
    refine ⟨_, _, live, rfl, ?_⟩
    rw [show tc.addr = res.stackTop - k.threadContextSize from place, top]
    exact threadContext_inside power room double res.stack
  | copyFromUser target src len ret =>
    cases target with
    | buffer a =>
      cases written
      exact whole place rfl
    | _ => cases written
  | readInput target bytes off len =>
    cases target with
    | buffer a =>
      cases written
      obtain ⟨size, live, rfl⟩ := place
      exact whole live rfl
    | _ => cases written
  | _ => cases written

theorem writesLive_of_places {l : Trace} (places : AtEach (WritesAt k) l) (contexts : AtEach (ContextLive k) l) :
    AtEach (WritesLive k) l :=
  (places.and contexts).imp fun _ _ both => both.1.live power room double both.2

end Bytes

/-! ### The runs -/

/-- What the static initialisation has and every turn keeps holds throughout a run, also within a call. -/
theorem Windows.Entered.keeps {E : Env} {d : Driver} {I : State → Prop} (h : Windows.Entered E d) (init : I (.initial E.sdk))
    (turn : ∀ s t, DriverTurn E s t → I s → I t) (fuel : Nat) (p : Windows.EntryPoint) :
    I (Windows.enter E fuel p d).2.common := by
  have before : I d.common := h.invariant (I := fun d => I d.common) (turn _ _ (.common .reset) init)
    fun _ i _ _ held => keeps_of_steps turn (Windows.enter_turns i.2) held
  exact keeps_of_steps turn (Windows.enter_turns p) before

/-- In every run of the common code and of both drivers, also within a call that has not returned, every byte that the
    driver clears, writes of a thread context or copies from the user lies in a live block that was allocated for it. -/
theorem writes_live {E : Env} (power : E.sdk.stackSize.toNat.isPowerOfTwo)
    (room : E.sdk.threadContextSize ≤ E.sdk.stackSize) (double : 2 * E.sdk.stackSize.toNat < UInt64.size) :
    (∀ s, Reachable E s → ∀ fuel op, AtEach (WritesLive E.sdk) (exec E fuel op s).2.trace) ∧
      (∀ d, Linux.Entered E d → ∀ fuel p, AtEach (WritesLive E.sdk) (Linux.enter E fuel p d).2.common.trace) ∧
      ∀ d, Windows.Entered E d → ∀ fuel p, AtEach (WritesLive E.sdk) (Windows.enter E fuel p d).2.common.trace := by
  refine ⟨?_, ?_, ?_⟩
  · intro s h fuel op
    have places : AtEach (WritesAt E.sdk) (exec E fuel op s).2.trace :=
      Passes.invariant (fun _ _ step => step.writesAt) (h.passes.trans (exec_passes E s fuel op)) .nil
    have inv := h.invariant (StackedInv.initial E) fun s fuel op _ _ _ before => before.effect (exec_effect E fuel op s)
    have contexts := (inv.effect (exec_effect E fuel op s)).contexts
    exact writesLive_of_places power room double places contexts
  · intro d h fuel p
    have places := h.keeps (I := fun s => AtEach (WritesAt E.sdk) s.trace) .nil (fun _ _ turn => turn.writesAt) fuel p
    have contexts : AtEach (ContextLive E.sdk) (Linux.enter E fuel p d).2.common.trace :=
      (Linux.enter_handled p).contexts ((StackedInv.rules .rw E).linux (.initial E) h)
    exact writesLive_of_places power room double places contexts
  · intro d h fuel p
    have places := h.keeps (I := fun s => AtEach (WritesAt E.sdk) s.trace) .nil (fun _ _ turn => turn.writesAt) fuel p
    have contexts : AtEach (ContextLive E.sdk) (Windows.enter E fuel p d).2.common.trace :=
      (Windows.enter_handled p).contexts ((StackedInv.rules .rwe E).windows (.initial E) h)
    exact writesLive_of_places power room double places contexts

/-- A run that starts the VMM and finalises, and drivers that have loaded and unloaded a module. -/
theorem writes_live_at_cleanup :
    AtEach (WritesLive testSdk) (exec (testEnv {}) 8 .fini (Bfdriver.after (testEnv {}) 8 startOps)).2.trace ∧
      (let E := testEnv { userWord := 16 }
       let d := runFrom (fun i => Linux.enter E i.1 i.2) Linux.unloadCalls (Linux.devInit E)
       AtEach (WritesLive testSdk) (Linux.enter E 8 .exit d).2.common.trace) ∧
      let E := testEnv {}
      let d := runFrom (fun i => Windows.enter E i.1 i.2) Windows.unloadCalls (Windows.bareflankQueueInitialize E)
      AtEach (WritesLive testSdk) (Windows.enter E 8 .contextCleanup d).2.common.trace :=
  have linux := (writes_live (E := testEnv { userWord := 16 }) ⟨15, rfl⟩ (by decide) (by decide)).2.1
  have common := writes_live (E := testEnv {}) ⟨15, rfl⟩ (by decide) (by decide)
  ⟨common.1 _ (reachable_after (by decide +kernel)) 8 .fini, linux _ (Completes.reaches (by decide +kernel)) 8 .exit,
    common.2.2 _ (Completes.reaches (by decide +kernel)) 8 .contextCleanup⟩

end Bfdriver
