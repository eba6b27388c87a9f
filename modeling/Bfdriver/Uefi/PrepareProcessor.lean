import Bfdriver.Lib.BitFields
import Bfdriver.Lib.ByteMemory

/-! # Preparing a processor under UEFI

`PrepareProcessor` of `arch/uefi/PrepareProcessor.c` replaces the GDT of a CPU by a copy with a descriptor of a new
TSS. The firmware hands out memory, and the instructions that `x86_64.nasm` wraps act on the registers of the CPU. -/

namespace Bfdriver.Uefi
open ByteMemory

/-! ### Descriptors -/

/-- `sizeof(KGDTENTRY64)` -/
def sizeofKgdtentry64 : Nat := 16

/-- `KGDTENTRY64` -/
abbrev Kgdtentry64 := BitVec (8 * sizeofKgdtentry64)

namespace Kgdtentry64

abbrev limitLow : BitField := ⟨0, 16⟩
abbrev baseLow : BitField := ⟨16, 16⟩
abbrev baseMiddle : BitField := ⟨32, 8⟩
abbrev type : BitField := ⟨40, 5⟩
abbrev dpl : BitField := ⟨45, 2⟩
abbrev present : BitField := ⟨47, 1⟩
abbrev limitHigh : BitField := ⟨48, 4⟩
abbrev system : BitField := ⟨52, 1⟩
abbrev longMode : BitField := ⟨53, 1⟩
abbrev defaultBig : BitField := ⟨54, 1⟩
abbrev granularity : BitField := ⟨55, 1⟩
abbrev baseHigh : BitField := ⟨56, 8⟩
abbrev baseUpper : BitField := ⟨64, 32⟩
abbrev mustBeZero : BitField := ⟨96, 32⟩

end Kgdtentry64

/-- `sizeof(KTSS64)`; its members are packed to four bytes. -/
def sizeofKtss64 : Nat := 4 + 8 + 8 + 8 + 8 * 8 + 8 + 2 + 2

/-- `KGDT64_SYS_TSS` -/
def kgdt64SysTss : Nat := 0x60

/-- `AMD64_TSS` -/
def amd64Tss : BitVec 5 := 9

open Kgdtentry64 in
/-- The assignments to `*TssEntry`. -/
def setTssEntry (tss : UInt64) (e : Kgdtentry64) : Kgdtentry64 :=
  let e := baseLow.set ((tss &&& 0xffff).toBitVec.setWidth 16) e
  let e := baseMiddle.set ((tss >>> 16 &&& 0xff).toBitVec.setWidth 8) e
  let e := baseHigh.set ((tss >>> 24 &&& 0xff).toBitVec.setWidth 8) e
  let e := baseUpper.set ((tss >>> 32).toBitVec.setWidth 32) e
  let e := limitLow.set (BitVec.ofNat 16 (sizeofKtss64 - 1)) e
  let e := type.set amd64Tss e
  let e := dpl.set 0 e
  let e := present.set 1 e
  let e := system.set 0 e
  let e := longMode.set 0 e
  let e := defaultBig.set 0 e
  let e := granularity.set 0 e
  mustBeZero.set 0 e

/-! ### The machine -/

/-- `KDESCRIPTOR` without its padding, the contents of the GDTR. The limit is the offset of the last byte. -/
structure Kdescriptor where
  limit : UInt16
  base : UInt64
  deriving Repr, DecidableEq

/-- The bytes that the GDTR describes. -/
def Kdescriptor.table (gdtr : Kdescriptor) : Extent := ⟨gdtr.base, gdtr.limit.toNat + 1⟩

/-- A call of the firmware. `allocatePool` keeps the address it returned, null if it failed. -/
inductive FirmwareCall where
  | allocatePool (len : Nat) (addr : UInt64)
  | copyMem (dst src : UInt64) (len : Nat)
  | freePool (addr : UInt64)
  deriving Repr, DecidableEq

/-- The memory with the extents that are in use, the registers of a CPU, and the calls of the firmware so far, newest
    first. -/
structure Machine where
  memory : Memory
  inUse : List Extent
  gdtr : Kdescriptor
  tr : UInt16
  eflags : UInt64
  calls : List FirmwareCall

/-- The allocator of the firmware never hands out memory that is in use; null means that it has none. -/
structure Firmware where
  allocate : Machine → Nat → UInt64
  apart : ∀ m len, allocate m len ≠ 0 → ∀ r ∈ m.inUse, r.Apart ⟨allocate m len, len⟩

namespace Machine

def allocateRuntimeZeroPool (F : Firmware) (len : Nat) (m : Machine) : UInt64 × Machine :=
  let addr := F.allocate m len
  let m := { m with calls := .allocatePool len addr :: m.calls }
  if addr = 0 then (addr, m) else
  (addr, { m with memory := m.memory.fill ⟨addr, len⟩ 0, inUse := ⟨addr, len⟩ :: m.inUse })

def copyMem (dst src : UInt64) (len : Nat) (m : Machine) : Machine :=
  { m with memory := m.memory.copy dst src len, calls := .copyMem dst src len :: m.calls }

def freePool (addr : UInt64) (m : Machine) : Machine :=
  { m with inUse := m.inUse.filter (·.base ≠ addr), calls := .freePool addr :: m.calls }

/-- The entry of a table at an address. -/
def entryAt (m : Machine) (addr : UInt64) : Kgdtentry64 := m.memory.load addr sizeofKgdtentry64

def setEntry (addr : UInt64) (e : Kgdtentry64) (m : Machine) : Machine := { m with memory := m.memory.store addr e }

/-- `_ltr`: the CPU marks the descriptor of the task as busy, by the second bit of its type. -/
def ltr (selector : Nat) (m : Machine) : Machine :=
  let addr := m.gdtr.base + UInt64.ofNat selector
  let e := m.entryAt addr
  { m.setEntry addr (Kgdtentry64.type.set (Kgdtentry64.type.get e ||| 2) e) with tr := UInt16.ofNat selector }

end Machine

inductive EfiStatus where
  | success | outOfResources
  deriving Repr, DecidableEq

/-- `PrepareProcessor` -/
def prepareProcessor (F : Firmware) (m : Machine) : EfiStatus × Machine :=
  let m : Machine := { m with eflags := m.eflags &&& ~~~((1 : UInt64) <<< 18) }
  let gdtr := m.gdtr
  let r := m.allocateRuntimeZeroPool F (max (gdtr.limit.toNat + 1) (kgdt64SysTss + sizeofKgdtentry64))
  let newGdt := r.1
  if newGdt = 0 then (.outOfResources, r.2) else
  let m := r.2.copyMem newGdt gdtr.base (gdtr.limit.toNat + 1)
  let r := m.allocateRuntimeZeroPool F (sizeofKtss64 * 2)
  let tss := r.1
  if tss = 0 then (.outOfResources, r.2.freePool newGdt) else
  let tssEntry := newGdt + UInt64.ofNat kgdt64SysTss
  let m := r.2.setEntry tssEntry (setTssEntry tss (r.2.entryAt tssEntry))
  let m := { m with gdtr := { base := newGdt, limit := UInt16.ofNat (kgdt64SysTss + sizeofKgdtentry64) } }
  (.success, m.ltr kgdt64SysTss)

end Bfdriver.Uefi
