import Bfdriver.Lib.Pages
import Bfdriver.Theorems.Entries
import Bfdriver.Theorems.Tls

/-! # The layout of the stack

The VMM finds its thread context from any stack pointer, by rounding it down to a multiple of the stack size. The
driver allocates twice that size, at any address, and here is that the stack it enters the VMM with always lies in the
allocation, as a whole, and has the thread context at its top. -/

namespace Bfdriver
open EventLog Pages

/-! ### The layout -/

/-- The window of the stack pointer lies in the stack, the thread context lies in the window above the stack pointer,
    and from every address of the window up to the stack pointer the VMM finds the thread context. -/
structure StackLayout (k : Sdk) (stack sp context : UInt64) : Prop where
  bottom : stack.toNat ≤ (start k.stackSize sp).toNat
  top : (start k.stackSize sp).toNat + k.stackSize.toNat ≤ stack.toNat + 2 * k.stackSize.toNat
  above : sp.toNat < context.toNat
  inside : context.toNat + k.threadContextSize.toNat < (start k.stackSize sp).toNat + k.stackSize.toNat
  found : ∀ a, start k.stackSize sp ≤ a → a ≤ sp → start k.stackSize a + k.stackSize - 1 - k.threadContextSize = context

/-- The layout below an aligned limit of which one window is left in the stack. -/
theorem stackLayout_of_limit {k : Sdk} (power : k.stackSize.toNat.isPowerOfTwo)
    (room : k.threadContextSize.toNat + 2 < k.stackSize.toNat) {stack limit : UInt64}
    (aligned : k.stackSize.toNat ∣ limit.toNat) (low : stack.toNat + k.stackSize.toNat ≤ limit.toNat)
    (high : limit.toNat ≤ stack.toNat + 2 * k.stackSize.toNat) :
    StackLayout k stack (limit - 1 - k.threadContextSize - 1) (limit - 1 - k.threadContextSize) := by
  have one : (1 : UInt64).toNat = 1 := rfl
  have top : (limit - 1).toNat = limit.toNat - 1 := toNat_sub (by omega)
  have context : (limit - 1 - k.threadContextSize).toNat = limit.toNat - 1 - k.threadContextSize.toNat := by
    rw [toNat_sub (by omega), top]
  have sp : (limit - 1 - k.threadContextSize - 1).toNat = limit.toNat - 2 - k.threadContextSize.toNat := by
    rw [toNat_sub (by omega), context]
    omega
  have bottom : (limit - k.stackSize).toNat = limit.toNat - k.stackSize.toNat := toNat_sub (by omega)
  -- All of these addresses lie in the window below the limit.
  have window {a : UInt64} (lo : limit.toNat - k.stackSize.toNat ≤ a.toNat) (hi : a.toNat < limit.toNat) :
      start k.stackSize a = limit - k.stackSize := by
    refine start_eq_of_within power ?_ (by omega) (by omega)
    rw [bottom]
    exact Nat.dvd_sub aligned (Nat.dvd_refl _)
  have own := window (a := limit - 1 - k.threadContextSize - 1) (by omega) (by omega)
  refine ⟨?_, ?_, ?_, ?_, fun a lo hi => ?_⟩
  · rw [own]
    omega
  · rw [own]
    omega
  · omega
  · rw [own]
    omega
  · rw [own, UInt64.le_iff_toNat_le] at lo
    rw [UInt64.le_iff_toNat_le] at hi
    rw [window (by omega) (by omega), UInt64.sub_add_cancel]

/-- The stack pointer and the thread context of a stack of two windows at any address. -/
theorem stackLayout_of_top {k : Sdk} (power : k.stackSize.toNat.isPowerOfTwo)
    (room : k.threadContextSize.toNat + 2 < k.stackSize.toNat) {stack : UInt64}
    (fits : stack.toNat + 2 * k.stackSize.toNat < UInt64.size) :
    StackLayout k stack (stackTopOf k stack (k.stackSize * 2) - k.threadContextSize - 1)
      (stackTopOf k stack (k.stackSize * 2) - k.threadContextSize) := by
  have double : (k.stackSize * 2).toNat = 2 * k.stackSize.toNat := by
    have small : 2 * k.stackSize.toNat < UInt64.size := by omega
    rw [UInt64.toNat_mul, Nat.mul_comm]
    exact Nat.mod_eq_of_lt small
  have stackEnd : (stack + k.stackSize * 2).toNat = stack.toNat + 2 * k.stackSize.toNat := by
    rw [toNat_step (by omega), double]
  have low := lt_start_add power (stack + k.stackSize * 2)
  have high := start_le power (stack + k.stackSize * 2)
  have aligned := dvd_start power (stack + k.stackSize * 2)
  have top : stackTopOf k stack (k.stackSize * 2) = start k.stackSize (stack + k.stackSize * 2) - 1 := rfl
  rw [top]
  exact stackLayout_of_limit power room aligned (by omega) (by omega)

/-! ### Entries -/

/-- The stack is one that `setup_stack` has allocated, with its top. -/
structure OnStack (k : Sdk) (t : Trace) (stack top : UInt64) : Prop where
  ne : stack ≠ 0
  allocated : .alloc .stack (k.stackSize * 2) stack ∈ t
  top : top = stackTopOf k stack (k.stackSize * 2)

/-- The VMM is entered below the thread context that was written last. -/
def EntersBelow (k : Sdk) (past : Trace) : Event → Prop
  | .enter res _ sp _ => ∃ tc, writtenContext past = some tc ∧ tc.addr = res.stackTop - k.threadContextSize ∧
      sp = res.stackTop - k.threadContextSize - 1
  | _ => True

/-- The VMM is entered on a stack that was allocated. -/
def EntersOn (k : Sdk) (past : Trace) : Event → Prop
  | .enter res _ _ _ => OnStack k past res.stack res.stackTop
  | _ => True

/-- The VMM is entered on an allocated stack with its layout, unless the stack reaches the end of the address space. -/
def EntersInLayout (k : Sdk) (past : Trace) : Event → Prop
  | .enter res _ sp _ => res.stack ≠ 0 ∧ .alloc .stack (k.stackSize * 2) res.stack ∈ past ∧
      ∃ tc, writtenContext past = some tc ∧
        (res.stack.toNat + 2 * k.stackSize.toNat < UInt64.size → StackLayout k res.stack sp tc.addr)
  | _ => True

section Entries
variable {E : Env} {s t : State} {fuel : Nat} {op : Op}

theorem enterVmm_entersBelow (h : AtEach (EntersBelow E.sdk) s.trace) (req : Request) :
    AtEach (EntersBelow E.sdk) (enterVmm E req (writeThreadContext E s)).2.trace := by
  have named := h.cons (e := .currentCpuNum (E.currentCpuNum s.trace)) trivial
  have written : AtEach (EntersBelow E.sdk) (writeThreadContext E s).trace := named.cons trivial
  unfold enterVmm
  split
  · exact written.cons ⟨_, rfl, rfl, rfl⟩
  · exact written

theorem callVmm_entersBelow (h : AtEach (EntersBelow E.sdk) s.trace) (req : Request) :
    AtEach (EntersBelow E.sdk) (callVmm E req s).2.trace := by
  have asked : AtEach (EntersBelow E.sdk) { s.emit (.setIntegerArgs req (E.setIntegerArgs s.trace req)) with
      info := { s.info with args := some req } }.trace := h.cons trivial
  unfold callVmm
  dsimp only
  split
  · exact asked
  · exact (enterVmm_entersBelow asked req).cons trivial

theorem Elementary.entersBelow (step : Elementary E s t) (h : AtEach (EntersBelow E.sdk) s.trace) :
    AtEach (EntersBelow E.sdk) t.trace := by
  have others {P : Event → Prop} {u : State} (g : Grew P s.trace u.trace) (hP : ∀ e, P e → ¬Enters e) :
      AtEach (EntersBelow E.sdk) u.trace :=
    h.grew g fun _ e _ he => by cases e <;> first | trivial | exact absurd trivial (hP _ he)
  cases step with
  | aside e he => exact h.cons (by cases e <;> trivial)
  | status => exact h
  | started => exact h
  | added => exact h
  | stack => exact others (setupStack_grew E s) fun _ => SetsUp.not_enters
  | tls => exact others (setupTls_grew E s) fun _ => SetsUp.not_enters
  | elf => exact others (bfelfLoad_grew E s) fun _ => SetsUp.not_enters
  | call req => exact callVmm_entersBelow h req
  | reset => exact others (commonReset_not_enters E s) fun _ => id

theorem OnStack.of_stages (stack : (loadStack E s).1 = bfSuccess) :
    OnStack E.sdk (loadElf E s).2.trace (loadElf E s).2.stack (loadElf E s).2.stackTop := by
  have stacked := Stacked.of_stages stack
  have same : (loadElf E s).2.stack = (loadStack E s).2.stack :=
    (bfelfLoad_sameStack E _).stack.trans (setupTls_sameStack E _).stack
  have later := (setupTls_grew E (loadStack E s).2).trans (bfelfLoad_grew E (loadTls E s).2)
  refine ⟨stacked.stack, ?_, stacked.stackTop⟩
  rw [same]
  exact later.mem_of_mem (setupStack_mem_trace E s)

/-- Every entry is made on an allocated stack, and a driver that is not unloaded has one. -/
structure StackInv (k : Sdk) (s : State) : Prop where
  entries : AtEach (EntersOn k) s.trace
  stacked : s.vmmStatus ≠ .unloaded → OnStack k s.trace s.stack s.stackTop

theorem StackInv.effect (h : StackInv E.sdk s) (effect : Effect E fuel op s t) : StackInv E.sdk t := by
  have calls {u v : State} (ready : OnStack E.sdk u.trace u.stack u.stackTop) (kept : Kept u v)
      (before : AtEach (EntersOn E.sdk) u.trace) :
      AtEach (EntersOn E.sdk) v.trace ∧ OnStack E.sdk v.trace v.stack v.stackTop := by
    refine ⟨before.grew kept.grew fun past e earlier he => ?_, ?_⟩
    · cases e with
      | enter res req sp ret =>
        obtain rfl : res = u.resources := he
        exact ⟨ready.ne, earlier.mem_of_mem ready.allocated, ready.top⟩
      | _ => trivial
    · rw [kept.stack, kept.stackTop]
      exact ⟨ready.ne, kept.grew.mem_of_mem ready.allocated, ready.top⟩
  have others : ∀ past e, ¬Enters e → EntersOn E.sdk past e := fun past e he => by
    cases e <;> first | trivial | exact absurd trivial he
  have after := effect.entries others calls h.entries h.stacked fun _ stack _ _ => .of_stages stack
  exact ⟨after.1, after.2⟩

end Entries

/-- In every run the VMM is entered on an allocated stack. Should that not reach the end of the address space, the
    window of the stack pointer lies in it, the thread context was written in the same window above the stack pointer,
    and every stack pointer of the window below leads to that thread context. -/
theorem entries_in_layout {E : Env} (power : E.sdk.stackSize.toNat.isPowerOfTwo)
    (room : E.sdk.threadContextSize.toNat + 2 < E.sdk.stackSize.toNat) {s : State} (h : Reachable E s) (fuel : Nat)
    (op : Op) : AtEach (EntersInLayout E.sdk) (exec E fuel op s).2.trace := by
  have below : AtEach (EntersBelow E.sdk) (exec E fuel op s).2.trace :=
    Passes.invariant (fun _ _ step => step.entersBelow) (h.passes.trans (exec_passes E s fuel op)) .nil
  have start : StackInv E.sdk (commonInit E (.initial E.sdk)).2 := ⟨.nil, fun ne => absurd rfl ne⟩
  have inv := h.invariant start fun s fuel op _ _ _ ih => ih.effect (exec_effect E fuel op s)
  have on := (inv.effect (exec_effect E fuel op s)).entries
  refine (below.and on).imp fun past e both => ?_
  cases e with
  | enter res req sp ret =>
    obtain ⟨⟨tc, written, addr, hsp⟩, on⟩ := both
    refine ⟨on.ne, on.allocated, tc, written, fun fits => ?_⟩
    rw [addr, hsp, on.top]
    exact stackLayout_of_top power room fits
  | _ => trivial

/-- A VMM that is loaded, started on one CPU and stopped. -/
theorem entries_in_layout_of_stop :
    AtEach (EntersInLayout testSdk) (exec (testEnv {}) 8 .stopVmm (after (testEnv {}) 8 startOps)).2.trace :=
  entries_in_layout (E := testEnv {}) ⟨15, rfl⟩ (by decide) (reachable_after (by decide +kernel)) 8 .stopVmm

end Bfdriver
