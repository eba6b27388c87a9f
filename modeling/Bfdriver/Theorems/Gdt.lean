import Bfdriver.Lib.EventLog
import Bfdriver.Uefi.PrepareProcessor

/-! # The GDT of a prepared processor

Each call of `PrepareProcessor` takes the table that the GDTR describes as its input. The new limit is that of a table
with one byte behind the slot of the TSS, whatever the old one was: a smaller table is left with a limit behind its end,
which the next call reads, and a larger one loses its last entries. -/

namespace Bfdriver.Uefi
open ByteMemory

/-! ### The stages of a call -/

theorem allocateRuntimeZeroPool_fst (F : Firmware) (len : Nat) (m : Machine) :
    (m.allocateRuntimeZeroPool F len).1 = F.allocate m len := by
  unfold Machine.allocateRuntimeZeroPool
  dsimp only
  split <;> rfl

theorem allocateRuntimeZeroPool_snd {F : Firmware} {len : Nat} {m : Machine} (h : F.allocate m len ≠ 0) :
    (m.allocateRuntimeZeroPool F len).2 = { m with
      calls := .allocatePool len (F.allocate m len) :: m.calls
      memory := m.memory.fill ⟨F.allocate m len, len⟩ 0
      inUse := ⟨F.allocate m len, len⟩ :: m.inUse } := by
  unfold Machine.allocateRuntimeZeroPool
  dsimp only
  rw [if_neg h]

@[simp] theorem ltr_gdtr (selector : Nat) (m : Machine) : (m.ltr selector).gdtr = m.gdtr := rfl

@[simp] theorem ltr_calls (selector : Nat) (m : Machine) : (m.ltr selector).calls = m.calls := rfl

@[simp] theorem ltr_inUse (selector : Nat) (m : Machine) : (m.ltr selector).inUse = m.inUse := rfl

section Stages
variable (F : Firmware) (u : Machine)

/-- The machine without alignment checks. -/
abbrev unchecked : Machine := { u with eflags := u.eflags &&& ~~~((1 : UInt64) <<< 18) }

/-- The length of the new table. -/
abbrev gdtLen : Nat := max (u.gdtr.limit.toNat + 1) (kgdt64SysTss + sizeofKgdtentry64)

abbrev newGdt : UInt64 := F.allocate (unchecked u) (gdtLen u)

/-- The machine after `CopyMem`. -/
abbrev copied : Machine :=
  ((unchecked u).allocateRuntimeZeroPool F (gdtLen u)).2.copyMem (newGdt F u) u.gdtr.base (u.gdtr.limit.toNat + 1)

abbrev newTss : UInt64 := F.allocate (copied F u) (sizeofKtss64 * 2)

abbrev allocated : Machine := ((copied F u).allocateRuntimeZeroPool F (sizeofKtss64 * 2)).2

abbrev newSlot : UInt64 := newGdt F u + UInt64.ofNat kgdt64SysTss

/-- The machine when `_ltr` is called. -/
def written : Machine :=
  { (allocated F u).setEntry (newSlot F u) (setTssEntry (newTss F u) ((allocated F u).entryAt (newSlot F u))) with
    gdtr := { base := newGdt F u, limit := UInt16.ofNat (kgdt64SysTss + sizeofKgdtentry64) } }

theorem prepareProcessor_success {v : Machine} (h : prepareProcessor F u = (.success, v)) :
    newGdt F u ≠ 0 ∧ newTss F u ≠ 0 ∧ v = (written F u).ltr kgdt64SysTss := by
  unfold prepareProcessor at h
  dsimp only at h
  split at h
  · cases h
  · rename_i gdt
    split at h
    · cases h
    · rename_i tss
      rw [allocateRuntimeZeroPool_fst] at gdt tss h
      rw [allocateRuntimeZeroPool_fst] at h
      have same := (Prod.mk.inj h).2
      refine ⟨gdt, ?_, same.symm⟩
      rwa [allocateRuntimeZeroPool_fst] at tss

end Stages

/-! ### What a call does -/

/-- The offset lies in the slot of the TSS. -/
def InSlot (i : Nat) : Prop := kgdt64SysTss ≤ i ∧ i < kgdt64SysTss + sizeofKgdtentry64

instance (i : Nat) : Decidable (InSlot i) := inferInstanceAs (Decidable (_ ∧ _))

section Success
variable {F : Firmware} {u : Machine}

theorem gdtLen_lt (u : Machine) : gdtLen u < UInt64.size := by
  have limit : u.gdtr.limit.toNat < 65536 := u.gdtr.limit.toNat_lt
  have size : (65537 : Nat) < UInt64.size := by decide
  unfold gdtLen kgdt64SysTss sizeofKgdtentry64
  omega

theorem mem_table {i : Nat} (h : i ≤ u.gdtr.limit.toNat) : u.gdtr.base + UInt64.ofNat i ∈ u.gdtr.table := by
  have small : i < UInt64.size := Nat.lt_of_le_of_lt (Nat.le_trans h (Nat.le_of_lt u.gdtr.limit.toNat_lt)) (by decide)
  exact (Extent.offset_mem small).mpr (Nat.lt_succ_of_le h)

theorem written_gdtr : (written F u).gdtr = { base := newGdt F u, limit := 0x70 } := rfl

/-- Outside of its slot the new table stays as it was copied. -/
theorem ltr_memory {i : Nat} (small : i < UInt64.size) (outside : ¬InSlot i) :
    ((written F u).ltr kgdt64SysTss).memory (newGdt F u + UInt64.ofNat i) =
      (allocated F u).memory (newGdt F u + UInt64.ofNat i) := by
  have other : newGdt F u + UInt64.ofNat i ∉ Extent.mk (newSlot F u) sizeofKgdtentry64 := by
    rw [Extent.offset_mem_offset small (by decide) (by decide)]
    exact outside
  show Memory.store _ (newSlot F u) _ _ = _
  rw [Memory.store_of_not_mem other]
  exact Memory.store_of_not_mem other

theorem allocated_eq (tss : newTss F u ≠ 0) : allocated F u = { copied F u with
    calls := .allocatePool (sizeofKtss64 * 2) (newTss F u) :: (copied F u).calls
    memory := (copied F u).memory.fill ⟨newTss F u, sizeofKtss64 * 2⟩ 0
    inUse := ⟨newTss F u, sizeofKtss64 * 2⟩ :: (copied F u).inUse } :=
  allocateRuntimeZeroPool_snd tss

variable (gdt : newGdt F u ≠ 0)
include gdt

/-- The new table has no byte of the memory that was in use. -/
theorem newGdt_apart {r : Extent} (h : r ∈ u.inUse) : r.Apart ⟨newGdt F u, gdtLen u⟩ := F.apart (unchecked u) _ gdt r h

theorem copied_eq : copied F u = { u with
    eflags := (unchecked u).eflags
    memory := (u.memory.fill ⟨newGdt F u, gdtLen u⟩ 0).copy (newGdt F u) u.gdtr.base (u.gdtr.limit.toNat + 1)
    inUse := ⟨newGdt F u, gdtLen u⟩ :: u.inUse
    calls := .copyMem (newGdt F u) u.gdtr.base (u.gdtr.limit.toNat + 1) :: .allocatePool (gdtLen u) (newGdt F u) ::
      u.calls } := by
  unfold copied
  rw [allocateRuntimeZeroPool_snd gdt]
  rfl

variable (tss : newTss F u ≠ 0)
include tss

theorem newTss_apart : Extent.Apart ⟨newGdt F u, gdtLen u⟩ ⟨newTss F u, sizeofKtss64 * 2⟩ := by
  refine F.apart (copied F u) _ tss _ ?_
  rw [copied_eq gdt]
  exact List.mem_cons_self

/-- Before its slot is written, the new table has the bytes of the old one that were in use, and zeros behind. -/
theorem allocated_memory {i : Nat} (inside : i < gdtLen u)
    (live : i ≤ u.gdtr.limit.toNat → ∃ r ∈ u.inUse, u.gdtr.base + UInt64.ofNat i ∈ r) :
    (allocated F u).memory (newGdt F u + UInt64.ofNat i) =
      if i ≤ u.gdtr.limit.toNat then u.memory (u.gdtr.base + UInt64.ofNat i) else 0 := by
  have small : i < UInt64.size := Nat.lt_trans inside (gdtLen_lt u)
  have own : newGdt F u + UInt64.ofNat i ∈ Extent.mk (newGdt F u) (gdtLen u) := (Extent.offset_mem small).mpr inside
  rw [allocated_eq tss, copied_eq gdt]
  dsimp only
  rw [Memory.fill_of_not_mem ((newTss_apart gdt tss).not_mem own)]
  split
  · rename_i old
    obtain ⟨r, hr, byte⟩ := live old
    rw [Memory.copy_offset (Nat.lt_succ_of_le old) small, Memory.fill_of_not_mem ((newGdt_apart gdt hr).not_mem byte)]
  · rename_i behind
    have outside : newGdt F u + UInt64.ofNat i ∉ Extent.mk (newGdt F u) (u.gdtr.limit.toNat + 1) := by
      rw [Extent.offset_mem small]
      omega
    rw [Memory.copy_of_not_mem outside, Memory.fill_of_mem own]

theorem written_calls : (written F u).calls = [.allocatePool (sizeofKtss64 * 2) (newTss F u),
    .copyMem (newGdt F u) u.gdtr.base (u.gdtr.limit.toNat + 1), .allocatePool (gdtLen u) (newGdt F u)] ++ u.calls := by
  show (allocated F u).calls = _
  rw [allocated_eq tss, copied_eq gdt]
  rfl

theorem written_inUse : (written F u).inUse =
    ⟨newTss F u, sizeofKtss64 * 2⟩ :: ⟨newGdt F u, gdtLen u⟩ :: u.inUse := by
  show (allocated F u).inUse = _
  rw [allocated_eq tss, copied_eq gdt]

end Success

/-! ### Safe calls -/

/-- The calls of the firmware after those of `u`. -/
def Machine.callsSince (v u : Machine) : List FirmwareCall := v.calls.take (v.calls.length - u.calls.length)

/-- A call of `PrepareProcessor` from `u` to `v` is safe: `CopyMem` reads only bytes of the old table, which were
    described and allocated, the bytes that are described now were allocated for the new table, and the old table is
    there as before, but for the slot of the TSS. -/
structure SafeCall (u v : Machine) : Prop where
  reads : ∀ dst src len, .copyMem dst src len ∈ v.callsSince u → Extent.Inside ⟨src, len⟩ u.gdtr.table ∧
    ∃ r ∈ u.inUse, r.base = u.gdtr.base ∧ Extent.Inside ⟨src, len⟩ r
  described : ∃ len, .allocatePool len v.gdtr.base ∈ v.callsSince u ∧ v.gdtr.table.Inside ⟨v.gdtr.base, len⟩
  kept : ∀ i, i ≤ u.gdtr.limit.toNat → ¬InSlot i → i ≤ v.gdtr.limit.toNat ∧
    v.memory (v.gdtr.base + UInt64.ofNat i) = u.memory (u.gdtr.base + UInt64.ofNat i)

/-- The table of the GDTR is in use as a whole, and has one byte behind the slot of the TSS. -/
structure Exact (u : Machine) : Prop where
  limit : u.gdtr.limit = 0x70
  table : ∃ r ∈ u.inUse, r.base = u.gdtr.base ∧ u.gdtr.table.Inside r

section Call
variable {F : Firmware} {u v : Machine} (success : prepareProcessor F u = (.success, v))
include success

theorem callsSince_eq : v.callsSince u = [.allocatePool (sizeofKtss64 * 2) (newTss F u),
    .copyMem (newGdt F u) u.gdtr.base (u.gdtr.limit.toNat + 1), .allocatePool (gdtLen u) (newGdt F u)] := by
  obtain ⟨gdt, tss, rfl⟩ := prepareProcessor_success F u success
  unfold Machine.callsSince
  rw [ltr_calls, written_calls gdt tss, EventLog.take_append]

/-- A safe call starts with a table of one byte behind the slot. -/
theorem SafeCall.limit (safe : SafeCall u v) : u.gdtr.limit = 0x70 := by
  obtain ⟨len, allocation, inside⟩ := safe.described
  rw [callsSince_eq success] at allocation
  obtain ⟨gdt, tss, rfl⟩ := prepareProcessor_success F u success
  rw [ltr_gdtr, written_gdtr] at allocation inside
  have long : 0x70 + 1 ≤ len := Extent.inside_of_base.mp inside
  have whole : len = gdtLen u := by
    simp only [List.mem_cons, FirmwareCall.allocatePool.injEq, reduceCtorEq, List.not_mem_nil, or_false, false_or] at allocation
    rcases allocation with ⟨-, same⟩ | ⟨same, -⟩
    · refine absurd (newTss_apart gdt tss) ?_
      rw [← same]
      exact Extent.not_apart_of_base (Nat.lt_of_lt_of_le (Nat.succ_pos _) (Nat.le_max_left ..))
    · exact same
  have atMost : u.gdtr.limit.toNat ≤ 0x70 := by
    by_contra above
    have last := (safe.kept _ (Nat.le_refl _) (fun slot => above (Nat.le_of_lt slot.2))).1
    rw [ltr_gdtr, written_gdtr] at last
    exact above last
  refine UInt16.toNat_inj.mp ?_
  show u.gdtr.limit.toNat = 0x70
  unfold gdtLen kgdt64SysTss sizeofKgdtentry64 at whole
  omega

/-- A call with such a table is safe and leaves such a table. -/
theorem Exact.call (exact : Exact u) : SafeCall u v ∧ Exact v := by
  obtain ⟨limit, r, hr, base, inside⟩ := exact
  have calls := callsSince_eq success
  obtain ⟨gdt, tss, rfl⟩ := prepareProcessor_success F u success
  have last : u.gdtr.limit.toNat = 0x70 := congrArg UInt16.toNat limit
  have len : gdtLen u = 0x71 := by
    unfold gdtLen
    rw [last]
    rfl
  refine ⟨⟨fun dst src n copies => ?_, ⟨gdtLen u, ?_, ?_⟩, fun i hi other => ⟨?_, ?_⟩⟩, rfl, ?_⟩
  · rw [calls] at copies
    obtain ⟨rfl, rfl, rfl⟩ : dst = newGdt F u ∧ src = u.gdtr.base ∧ n = u.gdtr.limit.toNat + 1 := by simpa using copies
    exact ⟨Extent.inside_of_base.mpr (Nat.le_refl _), r, hr, base, inside⟩
  · rw [calls]
    exact List.mem_cons_of_mem _ (List.mem_cons_of_mem _ List.mem_cons_self)
  · rw [len]
    exact Extent.inside_of_base.mpr (Nat.le_refl _)
  · rwa [last] at hi
  · have small : i < gdtLen u := by omega
    have old : ∃ r ∈ u.inUse, u.gdtr.base + UInt64.ofNat i ∈ r := ⟨r, hr, inside.mem (mem_table hi)⟩
    have copy := allocated_memory gdt tss small fun _ => old
    rw [if_pos hi] at copy
    exact (ltr_memory (Nat.lt_trans small (gdtLen_lt u)) other).trans copy
  · refine ⟨⟨newGdt F u, gdtLen u⟩, ?_, rfl, ?_⟩
    · rw [ltr_inUse, written_inUse gdt tss]
      exact List.mem_cons_of_mem _ List.mem_cons_self
    · rw [len]
      exact Extent.inside_of_base.mpr (Nat.le_refl _)

end Call

/-! ### Runs -/

/-- What goes on between two calls on a CPU leaves its GDTR alone and its table in use. -/
structure Between (m u : Machine) : Prop where
  gdtr : u.gdtr = m.gdtr
  table : ∀ r ∈ m.inUse, r.base = m.gdtr.base → r ∈ u.inUse

theorem Between.refl (m : Machine) : Between m m := ⟨rfl, fun _ hr _ => hr⟩

theorem Exact.between {m u : Machine} (exact : Exact m) (between : Between m u) : Exact u := by
  obtain ⟨limit, r, hr, base, inside⟩ := exact
  refine ⟨between.gdtr ▸ limit, r, between.table r hr base, ?_, ?_⟩
  · rw [between.gdtr, base]
  · rw [between.gdtr]
    exact inside

/-- Successful calls on a CPU, newest first, each with the machine before and after it. -/
inductive Replaces (F : Firmware) (m₀ : Machine) : List (Machine × Machine) → Machine → Prop where
  | nil : Replaces F m₀ [] m₀
  | cons {calls : List (Machine × Machine)} {m u v : Machine} (before : Replaces F m₀ calls m) (between : Between m u)
      (success : prepareProcessor F u = (.success, v)) : Replaces F m₀ ((u, v) :: calls) v

section Run
variable {F : Firmware} {m₀ m : Machine} {calls : List (Machine × Machine)}

/-- A call right after the last one. -/
theorem Replaces.again (run : Replaces F m₀ calls m) (h : (prepareProcessor F m).1 = .success) :
    Replaces F m₀ ((m, (prepareProcessor F m).2) :: calls) (prepareProcessor F m).2 :=
  .cons run (.refl m) (Prod.ext h rfl)

theorem Replaces.exact (run : Replaces F m₀ calls m) (start : Exact m₀) :
    Exact m ∧ ∀ c ∈ calls, SafeCall c.1 c.2 := by
  induction run with
  | nil => exact ⟨start, by simp⟩
  | cons before between success ih =>
    obtain ⟨safe, after⟩ := (ih.1.between between).call success
    exact ⟨after, List.forall_mem_cons.mpr ⟨safe, ih.2⟩⟩

/-- The first call decides. -/
theorem Replaces.limit (run : Replaces F m₀ calls m) (safe : ∀ c ∈ calls, SafeCall c.1 c.2) (some : calls ≠ []) :
    m₀.gdtr.limit = 0x70 := by
  induction run with
  | nil => exact absurd rfl some
  | @cons earlier m u v before between success ih =>
    obtain ⟨last, rest⟩ := List.forall_mem_cons.mp safe
    cases before with
    | nil => exact between.gdtr ▸ last.limit success
    | cons => exact ih rest (by simp)

/-- All of any number of successive calls on a CPU are safe, for an initial table at any base whose bytes are in use,
    exactly if there are none or the initial table has one byte behind the slot of the TSS. -/
theorem all_safe_iff (table : m₀.gdtr.table ∈ m₀.inUse) (run : Replaces F m₀ calls m) :
    (∀ c ∈ calls, SafeCall c.1 c.2) ↔ calls = [] ∨ m₀.gdtr.limit = 0x70 := by
  constructor
  · intro safe
    by_cases none : calls = []
    · exact .inl none
    · exact .inr (run.limit safe none)
  · rintro (rfl | limit)
    · simp
    · exact (run.exact ⟨limit, m₀.gdtr.table, table, rfl, Extent.inside_of_base.mpr (Nat.le_refl _)⟩).2

end Run

/-! ### Examples -/

/-- A firmware that gives every pool its own megabyte, if nothing is there. -/
def testFirmware : Firmware where
  allocate m len :=
    let addr := 0x100000 * UInt64.ofNat (m.calls.length + 1)
    if ∀ r ∈ m.inUse, r.Apart ⟨addr, len⟩ then addr else 0
  apart m len h := by
    dsimp only at h ⊢
    split
    · assumption
    · rename_i taken
      exact absurd (if_neg taken) h

/-- A CPU with a table of zeros. -/
def testMachine (limit : UInt16) : Machine :=
  { memory := fun _ => 0, inUse := [⟨0x1000, limit.toNat + 1⟩], gdtr := ⟨limit, 0x1000⟩, tr := 0, eflags := 0, calls := [] }

/-- Two calls from a table of the one size that is kept. -/
theorem all_safe_of_one_byte_behind :
    let u := testMachine 0x70
    let v := (prepareProcessor testFirmware u).2
    SafeCall u v ∧ SafeCall v (prepareProcessor testFirmware v).2 := by
  intro u v
  have table : u.gdtr.table ∈ u.inUse := by decide
  have first : (prepareProcessor testFirmware u).1 = .success := by decide +kernel
  have second : (prepareProcessor testFirmware v).1 = .success := by decide +kernel
  have once : Replaces testFirmware u [(u, v)] v := .again .nil first
  have run := once.again second
  have limit : u.gdtr.limit = 0x70 := rfl
  clear_value v u
  have safe := (all_safe_iff table run).mpr (.inr limit)
  obtain ⟨later, earlier⟩ := List.forall_mem_cons.mp safe
  exact ⟨earlier (u, v) List.mem_cons_self, later⟩

/-- The limit of a table that ends with the slot of the TSS is set behind its end. -/
theorem not_safe_of_exact_table : ¬∀ (F : Firmware) (m₀ m : Machine) (calls : List (Machine × Machine)),
    m₀.gdtr.table ∈ m₀.inUse → Replaces F m₀ calls m → ∀ c ∈ calls, SafeCall c.1 c.2 := by
  intro all
  have success : (prepareProcessor testFirmware (testMachine 0x6f)).1 = .success := by decide +kernel
  have safe := all testFirmware (testMachine 0x6f) _ _ (by decide) (Replaces.nil.again success) _ List.mem_cons_self
  exact absurd (safe.limit (Prod.ext success rfl)) (by decide)

-- The next call reads the byte behind that table.
example :
    let v := (prepareProcessor testFirmware (testMachine 0x6f)).2
    let w := (prepareProcessor testFirmware v).2
    .allocatePool 0x70 v.gdtr.base ∈ v.calls ∧ .copyMem w.gdtr.base v.gdtr.base 0x71 ∈ w.calls := by
  decide +kernel

end Bfdriver.Uefi
