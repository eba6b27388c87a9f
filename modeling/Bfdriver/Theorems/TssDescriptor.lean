import Bfdriver.Theorems.Gdt

/-! # The descriptor of the TSS

`PrepareProcessor` sets the fields of the descriptor on top of the bytes that the old table had in the slot. It leaves
out the upper bits of the limit, so that these are still the old ones. -/

namespace Bfdriver.Uefi
open ByteMemory BitField

/-! ### System descriptors -/

/-- What a system descriptor of 16 bytes says. The type includes the bit that tells system descriptors from others. -/
structure SystemDescriptor where
  base : BitVec 64
  limit : BitVec 20
  type : BitVec 5
  dpl : BitVec 2
  present : BitVec 1
  granularity : BitVec 1
  reserved : BitVec 32
  deriving Repr, DecidableEq

namespace SystemDescriptor

/-- A present TSS of the kernel at an address, with a limit in bytes, that is available. -/
def availableTss (tss : UInt64) : SystemDescriptor where
  base := tss.toBitVec
  limit := BitVec.ofNat 20 (sizeofKtss64 - 1)
  type := 9
  dpl := 0
  present := 1
  granularity := 0
  reserved := 0

/-- The descriptor with its task marked as busy. -/
def busy (d : SystemDescriptor) : SystemDescriptor := { d with type := d.type ||| 2 }

end SystemDescriptor

open Kgdtentry64 in
/-- The layout of `KGDTENTRY64`. -/
def descriptor (e : Kgdtentry64) : SystemDescriptor where
  base := baseUpper.get e ++ baseHigh.get e ++ baseMiddle.get e ++ baseLow.get e
  limit := limitHigh.get e ++ limitLow.get e
  type := type.get e
  dpl := dpl.get e
  present := present.get e
  granularity := granularity.get e
  reserved := mustBeZero.get e

/-- The descriptor in the slot of the TSS. -/
def Machine.tssDescriptor (m : Machine) : SystemDescriptor :=
  descriptor (m.entryAt (m.gdtr.base + UInt64.ofNat kgdt64SysTss))

/-- An address is put together again from the parts of its descriptor. -/
theorem base_of_parts (tss : UInt64) : (tss >>> 32).toBitVec.setWidth 32 ++ (tss >>> 24 &&& 0xff).toBitVec.setWidth 8 ++
    (tss >>> 16 &&& 0xff).toBitVec.setWidth 8 ++ (tss &&& 0xffff).toBitVec.setWidth 16 = tss.toBitVec := by
  have upper : (tss >>> 32).toBitVec.setWidth 32 = tss.toBitVec.extractLsb' 32 32 := by
    refine BitVec.eq_of_toNat_eq ?_
    simp [BitVec.extractLsb'_toNat]
  have high : (tss >>> 24 &&& 0xff).toBitVec.setWidth 8 = tss.toBitVec.extractLsb' 24 8 := by
    refine BitVec.eq_of_toNat_eq ?_
    simp [BitVec.extractLsb'_toNat, Nat.and_two_pow_sub_one_eq_mod _ 8]
  have middle : (tss >>> 16 &&& 0xff).toBitVec.setWidth 8 = tss.toBitVec.extractLsb' 16 8 := by
    refine BitVec.eq_of_toNat_eq ?_
    simp [BitVec.extractLsb'_toNat, Nat.and_two_pow_sub_one_eq_mod _ 8]
  have low : (tss &&& 0xffff).toBitVec.setWidth 16 = tss.toBitVec.extractLsb' 0 16 := by
    refine BitVec.eq_of_toNat_eq ?_
    simp [BitVec.extractLsb'_toNat, Nat.and_two_pow_sub_one_eq_mod _ 16]
  rw [upper, high, middle, low, BitVec.extractLsb'_append_extractLsb'_eq_extractLsb' (show 32 = 24 + 8 by rfl),
    BitVec.extractLsb'_append_extractLsb'_eq_extractLsb' (show 24 = 16 + 8 by rfl),
    BitVec.extractLsb'_append_extractLsb'_eq_extractLsb' (show 16 = 0 + 16 by rfl)]
  exact BitVec.extractLsb'_eq_self

open Kgdtentry64 in
/-- The assignments give all of the descriptor but the upper bits of its limit. -/
theorem descriptor_setTssEntry (tss : UInt64) (e : Kgdtentry64) : descriptor (setTssEntry tss e) =
    { SystemDescriptor.availableTss tss with limit := limitHigh.get e ++ BitVec.ofNat 16 (sizeofKtss64 - 1) } := by
  unfold descriptor setTssEntry
  dsimp only
  simp (disch := decide) only [get_set, get_set_of_apart]
  rw [base_of_parts]
  rfl

open Kgdtentry64 in
/-- A CPU that marks a task as busy changes nothing else. -/
theorem descriptor_busy (e : Kgdtentry64) : descriptor (type.set (type.get e ||| 2) e) = (descriptor e).busy := by
  unfold descriptor SystemDescriptor.busy
  simp (disch := decide) only [get_set, get_set_of_apart]

/-- The limit is that of a TSS if its upper bits are not set. -/
theorem limit_eq_iff (upper : BitVec 4) :
    upper ++ BitVec.ofNat 16 (sizeofKtss64 - 1) = BitVec.ofNat 20 (sizeofKtss64 - 1) ↔ upper = 0 := by
  revert upper
  decide

theorem availableTss_iff {tss : UInt64} {limit : BitVec 20} :
    { SystemDescriptor.availableTss tss with limit := limit } = SystemDescriptor.availableTss tss ↔
      limit = BitVec.ofNat 20 (sizeofKtss64 - 1) :=
  ⟨congrArg SystemDescriptor.limit, fun h => h ▸ rfl⟩

/-! ### The slot -/

section Slot
variable {F : Firmware} {u v : Machine}

theorem ltr_tssDescriptor (m : Machine) : (m.ltr kgdt64SysTss).tssDescriptor = m.tssDescriptor.busy := by
  unfold Machine.tssDescriptor
  rw [← descriptor_busy]
  exact congrArg descriptor (Memory.load_store (by decide))

theorem written_tssDescriptor : (written F u).tssDescriptor =
    { SystemDescriptor.availableTss (newTss F u) with
      limit := Kgdtentry64.limitHigh.get ((allocated F u).entryAt (newSlot F u)) ++ BitVec.ofNat 16 (sizeofKtss64 - 1) } := by
  rw [← descriptor_setTssEntry]
  exact congrArg descriptor (Memory.load_store (by decide))

/-- The offset of the byte of the table that holds the upper bits of the limit. -/
def limitHighByte : Nat := kgdt64SysTss + 6

/-- The upper bits of the limit are those of the old table, if that had the byte. -/
theorem allocated_limitHigh (gdt : newGdt F u ≠ 0) (tss : newTss F u ≠ 0)
    (live : limitHighByte ≤ u.gdtr.limit.toNat → ∃ r ∈ u.inUse, u.gdtr.base + UInt64.ofNat limitHighByte ∈ r) :
    Kgdtentry64.limitHigh.get ((allocated F u).entryAt (newSlot F u)) =
      if limitHighByte ≤ u.gdtr.limit.toNat then (u.memory (u.gdtr.base + UInt64.ofNat limitHighByte)).extractLsb' 0 4
      else 0 := by
  have bits : Kgdtentry64.limitHigh.get ((allocated F u).entryAt (newSlot F u)) =
      ((allocated F u).memory (newSlot F u + UInt64.ofNat 6)).extractLsb' 0 4 :=
    Memory.extractLsb'_load (i := 6) (n := sizeofKgdtentry64) 0 4 (by decide) (by decide)
  have addr : newSlot F u + UInt64.ofNat 6 = newGdt F u + UInt64.ofNat limitHighByte := by
    unfold newSlot
    rw [UInt64.add_assoc]
    rfl
  have inside : limitHighByte < gdtLen u := Nat.lt_of_lt_of_le (by decide) (Nat.le_max_right ..)
  rw [bits, addr, allocated_memory gdt tss inside live]
  split <;> rfl

end Slot

/-- In a call that succeeds, the descriptor that `_ltr` loads is that of an available TSS at the address the firmware
    returned, exactly if the old table has no upper bits of a limit in its slot. The CPU then marks it as busy. -/
theorem tssDescriptor_iff {F : Firmware} {u v : Machine}
    (readable : ∀ i, i ≤ u.gdtr.limit.toNat → InSlot i → ∃ r ∈ u.inUse, u.gdtr.base + UInt64.ofNat i ∈ r)
    (success : prepareProcessor F u = (.success, v)) :
    .allocatePool (sizeofKtss64 * 2) (newTss F u) ∈ v.callsSince u ∧
    v = (written F u).ltr kgdt64SysTss ∧ v.tssDescriptor = (written F u).tssDescriptor.busy ∧
    ((written F u).tssDescriptor = .availableTss (newTss F u) ↔ (limitHighByte ≤ u.gdtr.limit.toNat →
      (u.memory (u.gdtr.base + UInt64.ofNat limitHighByte)).extractLsb' 0 4 = 0)) := by
  have calls := callsSince_eq success
  obtain ⟨gdt, tss, rfl⟩ := prepareProcessor_success F u success
  refine ⟨calls ▸ List.mem_cons_self, rfl, ltr_tssDescriptor _, ?_⟩
  have upper := allocated_limitHigh gdt tss fun old => readable limitHighByte old (by decide)
  rw [written_tssDescriptor, availableTss_iff, limit_eq_iff, upper]
  split
  · rename_i old
    exact ⟨fun zero _ => zero, fun zero => zero old⟩
  · rename_i behind
    exact iff_of_true rfl fun old => absurd old behind

/-- A table that ends with the slot and has a descriptor of eight bytes there. -/
def slotMachine (entry : BitVec (8 * 8)) : Machine :=
  { testMachine 0x6f with memory := (testMachine 0x6f).memory.store 0x1060 entry }

/-- The slot of the old table has a segment with a limit of sixteen bits. -/
theorem tssDescriptor_of_small_segment :
    let u := slotMachine 0x12c0f3345678ffff
    (written testFirmware u).tssDescriptor = .availableTss (newTss testFirmware u) := by
  intro u
  have success : (prepareProcessor testFirmware u).1 = .success := by decide +kernel
  have table : u.gdtr.table ∈ u.inUse := List.mem_cons_self
  have upper : (u.memory (u.gdtr.base + UInt64.ofNat limitHighByte)).extractLsb' 0 4 = 0 := by decide +kernel
  clear_value u
  exact (tssDescriptor_iff (fun i hi _ => ⟨_, table, mem_table hi⟩) (Prod.ext success rfl)).2.2.2.mpr fun _ => upper

/-- A table with a segment of four gigabytes in the slot. -/
def flatMachine : Machine := slotMachine 0x00cf93000000ffff

/-- The upper bits of the limit of that segment are left in the descriptor of the TSS. -/
theorem limit_of_flat_segment : (prepareProcessor testFirmware flatMachine).1 = .success ∧
    (prepareProcessor testFirmware flatMachine).2.tssDescriptor.limit = 0xf0067 ∧
    (written testFirmware flatMachine).tssDescriptor ≠ .availableTss (newTss testFirmware flatMachine) := by
  decide +kernel

end Bfdriver.Uefi
