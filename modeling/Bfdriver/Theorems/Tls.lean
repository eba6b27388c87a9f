import Bfdriver.TestPlatform
import Bfdriver.Theorems.Elementary
import Bfdriver.Theorems.Setup

/-! # The thread-local storage of an entry

The TLS is sized for the CPUs that the platform counts when a load sets it up, `call_vmm` picks the block
of the CPU that it is told to run on. Here is when the block lies in the TLS. -/

namespace Bfdriver
open EventLog

/-! ### Blocks and slots -/

/-- The `n` bytes at `a` are among the `m` bytes at `b`. -/
def Within (a n b m : UInt64) : Prop := (a - b).toNat + n.toNat ≤ m.toNat

instance (a n b m : UInt64) : Decidable (Within a n b m) := inferInstanceAs (Decidable (_ ≤ _))

/-- The memory that an entry to the VMM is made with. -/
def enteredWith : Event → Option Resources
  | .enter res _ _ _ => some res
  | _ => none

/-- The thread context that the last call wrote. -/
def writtenContext : Trace → Option ThreadContext
  | .threadContext _ tc :: _ => some tc
  | _ => none

/-- The CPU that the platform named for the thread context written last. -/
def namedCpu : Trace → Option Int64
  | .threadContext .. :: .currentCpuNum c :: _ => some c
  | _ => none

/-- An entry to the VMM follows a write of the thread context, whose block lies in the TLS. -/
def TlsInBounds (k : Sdk) (past : Trace) (e : Event) : Prop :=
  ∀ res ∈ enteredWith e, ∃ tc ∈ writtenContext past, Within tc.tlsptr k.threadLocalStorageSize res.tls res.tlsSize

instance (k : Sdk) (past : Trace) (e : Event) : Decidable (TlsInBounds k past e) :=
  inferInstanceAs (Decidable (∀ _ ∈ _, ∃ _ ∈ _, _))

/-- CPU `c` has a slot in the TLS that `setup_tls` makes for `n` CPUs. -/
def HasSlot (k : Sdk) (n c : Int64) : Prop :=
  (k.threadLocalStorageSize * c.toUInt64).toNat + k.threadLocalStorageSize.toNat ≤
    (k.threadLocalStorageSize * n.toUInt64).toNat

instance (k : Sdk) (n c : Int64) : Decidable (HasSlot k n c) := inferInstanceAs (Decidable (_ ≤ _))

/-- The number of CPUs that the platform counted for the last TLS. -/
def tlsCpus : Trace → Int64
  | .alloc .tls _ _ :: .numCpus n :: _ => n
  | _ :: t => tlsCpus t
  | [] => 0

/-- The CPU that the platform named for an entry has a slot in the TLS. -/
def EntersOwnSlot (k : Sdk) (past : Trace) (e : Event) : Prop :=
  ∀ res ∈ enteredWith e, ∃ c ∈ namedCpu past, HasSlot k (tlsCpus past) c

theorem toUInt64_of_nonneg {x : Int64} (h : 0 ≤ x.toInt) : x.toUInt64.toNat = x.toInt.natAbs := by
  have signed : x.toInt = if 2 * x.toUInt64.toNat < 2 ^ 64 then (x.toUInt64.toNat : Int) else
      x.toUInt64.toNat - (2 ^ 64 : Nat) := BitVec.toInt_eq_toNat_cond x.toBitVec
  have bound := x.toUInt64.toNat_lt
  split at signed <;> omega

theorem toUInt64_of_neg {x : Int64} (h : x.toInt < 0) :
    x.toUInt64.toNat + x.toInt.natAbs = 0x10000000000000000 := by
  have signed : x.toInt = if 2 * x.toUInt64.toNat < 2 ^ 64 then (x.toUInt64.toNat : Int) else
      x.toUInt64.toNat - (2 ^ 64 : Nat) := BitVec.toInt_eq_toNat_cond x.toBitVec
  split at signed <;> omega

/-- Without overflow the CPUs with a slot are those below the number that was counted. -/
theorem hasSlot_iff {k : Sdk} {n c : Int64} (hpos : 0 < k.threadLocalStorageSize.toNat) (hn : 0 ≤ n.toInt)
    (hsize : k.threadLocalStorageSize.toNat * n.toInt.natAbs ≤ 0x8000000000000000)
    (hoffset : k.threadLocalStorageSize.toNat * c.toInt.natAbs ≤ 0x8000000000000000) :
    HasSlot k n c ↔ 0 ≤ c.toInt ∧ c.toInt < n.toInt := by
  unfold HasSlot
  rw [UInt64.toNat_mul, UInt64.toNat_mul, toUInt64_of_nonneg hn]
  generalize k.threadLocalStorageSize.toNat = size at *
  rw [Nat.mod_eq_of_lt (a := size * n.toInt.natAbs) (by omega)]
  by_cases hc : 0 ≤ c.toInt
  · rw [toUInt64_of_nonneg hc, Nat.mod_eq_of_lt (by omega)]
    have slots : size * c.toInt.natAbs + size ≤ size * n.toInt.natAbs ↔ c.toInt.natAbs + 1 ≤ n.toInt.natAbs := by
      rw [← Nat.mul_succ]
      exact Nat.mul_le_mul_left_iff hpos
    rw [slots]
    omega
  · -- The offset wraps to just below the end of the address space.
    refine iff_of_false (fun fits => ?_) fun h => hc h.1
    have wrapped := toUInt64_of_neg (Int.not_le.mp hc)
    have some : 0 < size * c.toInt.natAbs := Nat.mul_pos hpos (by omega)
    have total : size * c.toUInt64.toNat + size * c.toInt.natAbs = size * 0x10000000000000000 := by
      rw [← Nat.mul_add, wrapped]
    have offset : size * c.toUInt64.toNat % 2 ^ 64 = 0x10000000000000000 - size * c.toInt.natAbs := by
      have split : size * c.toUInt64.toNat =
          (0x10000000000000000 - size * c.toInt.natAbs) + 2 ^ 64 * (size - 1) := by omega
      rw [split, Nat.add_mul_mod_self_left, Nat.mod_eq_of_lt (by omega)]
    omega

/-! ### Every entry of a run -/

/-- The event is no entry to the VMM and no allocation of a TLS. -/
def LeavesTls : Event → Prop
  | .enter .. | .alloc .tls .. => False
  | _ => True

theorem tlsCpus_cons {e : Event} (h : LeavesTls e) (t : Trace) : tlsCpus (e :: t) = tlsCpus t := by
  rw [tlsCpus]
  rintro len addr n t rfl rfl
  exact h

theorem tlsCpus_grew {t t' : Trace} (g : Grew LeavesTls t t') : tlsCpus t' = tlsCpus t := by
  obtain ⟨es, rfl, all⟩ := g
  induction es with
  | nil => rfl
  | cons e es ih =>
    rw [List.cons_append, tlsCpus_cons (all e List.mem_cons_self), ih fun x hx => all x (List.mem_cons_of_mem e hx)]

/-- An entry is within the TLS exactly if its CPU has a slot. -/
def SlotDecides (k : Sdk) (past : Trace) (e : Event) : Prop := TlsInBounds k past e ↔ EntersOwnSlot k past e

theorem slotDecides_of_none {k : Sdk} {past : Trace} {e : Event} (h : enteredWith e = none) : SlotDecides k past e := by
  unfold SlotDecides TlsInBounds EntersOwnSlot
  rw [h]
  simp

theorem LeavesTls.enteredWith_eq_none {e : Event} (h : LeavesTls e) : enteredWith e = none := by
  cases e <;> first | rfl | exact h.elim

/-- The size of the TLS is that of the CPUs counted for it. -/
structure TlsInv (k : Sdk) (s : State) : Prop where
  size : s.tlsSize = k.threadLocalStorageSize * (tlsCpus s.trace).toUInt64
  entries : AtEach (SlotDecides k) s.trace

namespace TlsInv
variable {E : Env} {s t : State}

theorem grew (h : TlsInv E.sdk s) (g : Grew LeavesTls s.trace t.trace) (size : t.tlsSize = s.tlsSize) : TlsInv E.sdk t where
  size := by rw [size, tlsCpus_grew g, h.size]
  entries := h.entries.grew g fun _ _ _ he => slotDecides_of_none he.enteredWith_eq_none

/-- The two calls that `setup_tls` starts with name the number that the size is for. -/
theorem tls (h : TlsInv E.sdk s) : TlsInv E.sdk (setupTls E s).2 := by
  have counted : AtEach (SlotDecides E.sdk)
      (.alloc .tls (newTlsSize E s) (newTls E s) :: .numCpus (E.numCpus s.trace) :: s.trace) :=
    (h.entries.cons (slotDecides_of_none rfl)).cons (slotDecides_of_none rfl)
  unfold setupTls
  dsimp only
  split
  · exact ⟨rfl, counted⟩
  · exact ⟨rfl, counted.cons (slotDecides_of_none rfl)⟩

/-- The block that `call_vmm` picks lies in a TLS of the right size exactly if the CPU has a slot. -/
theorem within_iff (h : TlsInv E.sdk s) (c : Int64) :
    Within (s.tls + E.sdk.threadLocalStorageSize * c.toUInt64) E.sdk.threadLocalStorageSize s.tls s.tlsSize ↔
      HasSlot E.sdk (tlsCpus s.trace) c := by
  unfold Within HasSlot
  rw [h.size, UInt64.add_comm, UInt64.add_sub_cancel]

theorem enter (h : TlsInv E.sdk s) (req : Request) : TlsInv E.sdk (enterVmm E req (writeThreadContext E s)).2 := by
  have written : TlsInv E.sdk (writeThreadContext E s) := h.grew (((Grew.refl _).cons trivial).cons trivial) rfl
  unfold enterVmm
  split
  · refine ⟨written.size, written.entries.cons ?_⟩
    have block := h.within_iff (E.currentCpuNum s.trace)
    unfold SlotDecides TlsInBounds EntersOwnSlot
    simpa [enteredWith, writtenContext, namedCpu, writeThreadContext, State.emit, State.resources, threadContextOf,
      tlsCpus] using block
  · exact written

theorem call (h : TlsInv E.sdk s) (req : Request) : TlsInv E.sdk (callVmm E req s).2 := by
  have asked : TlsInv E.sdk { s.emit (.setIntegerArgs req (E.setIntegerArgs s.trace req)) with
      info := { s.info with args := some req } } := h.grew ((Grew.refl _).cons trivial) rfl
  unfold callVmm
  dsimp only
  split
  · exact ⟨asked.size, asked.entries⟩
  · exact (asked.enter req).grew ((Grew.refl _).cons trivial) rfl

theorem elementary (h : TlsInv E.sdk s) (step : Elementary E s t) : TlsInv E.sdk t := by
  cases step with
  | aside e he =>
    have leaves : LeavesTls e := by cases e <;> trivial
    exact h.grew ((Grew.refl _).cons leaves) rfl
  | status v => exact ⟨h.size, h.entries⟩
  | started n => exact ⟨h.size, h.entries⟩
  | added file fsize => exact ⟨h.size, h.entries⟩
  | stack =>
    unfold setupStack
    dsimp only
    split
    · exact h.grew ((Grew.refl _).cons trivial) rfl
    · exact h.grew (((Grew.refl _).cons trivial).cons trivial) rfl
  | tls => exact h.tls
  | elf =>
    have images : ∀ e, AllocatesExec e → LeavesTls e := fun e he => by
      cases e with
      | alloc site len addr => cases site <;> trivial
      | _ => trivial
    exact h.grew (((loadImages_grew E s _ _).mono images).cons trivial) (bfelfLoad_frame E s).2.1
  | call req => exact h.call req
  | reset =>
    refine h.grew ((commonReset_grew E s).mono fun e he => by cases e <;> trivial) ?_
    rw [commonReset_eq]

end TlsInv

/-- In every run an entry to the VMM, also one of an operation that has not returned, finds its block in the TLS
    exactly if the CPU that the platform names has a slot in it. -/
theorem tlsInBounds_iff {E : Env} {s : State} (h : Reachable E s) (fuel : Nat) (op : Op) :
    AtEach (TlsInBounds E.sdk) (exec E fuel op s).2.trace ↔ AtEach (EntersOwnSlot E.sdk) (exec E fuel op s).2.trace := by
  have start : TlsInv E.sdk (.initial E.sdk) := ⟨UInt64.mul_zero.symm, .nil⟩
  have run := Passes.invariant (fun _ _ step inv => TlsInv.elementary inv step)
    (h.passes.trans (exec_passes E s fuel op)) start
  exact run.entries.iff

theorem tlsInBounds_iff_last_cpu :
    let E : Env := { testEnv { numCpus := 4 } with currentCpuNum := fun _ => 3 }
    AtEach (TlsInBounds E.sdk) (exec E 8 .stopVmm (after E 8 startOps)).2.trace ↔
      AtEach (EntersOwnSlot E.sdk) (exec E 8 .stopVmm (after E 8 startOps)).2.trace :=
  tlsInBounds_iff (reachable_after (by decide +kernel)) 8 .stopVmm

/-- A platform that cannot tell the CPU answers -1, and the VMM is given a block below the TLS. -/
theorem not_tlsInBounds_of_unknownCpu : ¬∀ (E : Env) (s : State), Reachable E s → ∀ fuel op,
    AtEach (TlsInBounds E.sdk) (exec E fuel op s).2.trace := by
  intro all
  let E : Env := { testEnv {} with currentCpuNum := fun _ => -1 }
  have within := all E (after E 8 [.addModule 0x5000 100]) (reachable_after (by decide +kernel)) 8 .loadVmm
  exact absurd within (by decide +kernel)

end Bfdriver
