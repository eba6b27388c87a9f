import Bfdriver.Vmcall

/-! # What the vmcall routines promise

The routines have one shape: they save some registers, load words of the structure, make the vmcall, store registers to
the structure and restore what they saved. So the VMM sees the words of the structure, the caller sees what the VMM
left, and everything else is as the VMM left it or as the caller had it. -/

namespace Bfdriver
open ByteMemory X64

/-- The size of the part of `struct vmcall_registers_t` that the routines access. -/
def sizeofVmcallRegisters : Nat := 0x68

/-- The parameters of a vmcall routine. -/
structure Stub where
  argument : Reg
  saved : List Reg
  reads : List Slot
  writes : List Slot
  argument_ne : argument ≠ .rsp
  saved_rsp : .rsp ∉ saved
  saved_room : 8 * saved.length + 8 ≤ UInt64.size
  reads_rdi : .rdi ∉ reads.map Prod.snd
  reads_rsp : .rsp ∉ reads.map Prod.snd
  reads_nodup : (reads.map Prod.snd).Nodup
  writes_apart : writes.Pairwise Slot.Apart
  inside : ∀ p ∈ reads ++ writes, p.1 + 8 ≤ sizeofVmcallRegisters

namespace Stub
variable (b : Stub) (vmm : Machine → Machine) (s : Machine)

/-- The address of the structure moves to `rdi`. -/
def moves : List Instr := if b.argument = .rdi then [] else [.mov .rdi b.argument]

def code : List Instr :=
  b.saved.map .push ++ b.moves ++ loads .rdi b.reads ++ [.vmcall] ++ stores .rdi b.writes ++
    b.saved.reverse.map .pop ++ [.ret]

/-- The structure that the caller passes. -/
def registers : Extent := ⟨s.reg b.argument, sizeofVmcallRegisters⟩

/-- The stack that a routine uses, with the return address. -/
def stack : Extent := ⟨s.reg .rsp - UInt64.ofNat (8 * b.saved.length), 8 * b.saved.length + 8⟩

abbrev pushed : Machine := X64.run vmm (b.saved.map .push) s
abbrev moved : Machine := X64.run vmm b.moves (b.pushed vmm s)
/-- The state in which the VMM is called. -/
abbrev called : Machine := X64.run vmm (loads .rdi b.reads) (b.moved vmm s)
/-- The state in which the VMM returns. -/
abbrev returned : Machine := vmm (b.called vmm s)
abbrev stored : Machine := X64.run vmm (stores .rdi b.writes) (b.returned vmm s)
abbrev popped : Machine := X64.run vmm (b.saved.reverse.map .pop) (b.stored vmm s)

theorem run_code : X64.run vmm b.code s = step vmm (b.popped vmm s) .ret := by
  simp only [code, run_append, run_cons, run_nil]
  rfl

/-- The VMM leaves the stack of the routine, the stack pointer and the address of the structure alone, and the caller
    did not put the structure on that stack. -/
structure Undisturbed : Prop where
  apart : (b.registers s).Apart (b.stack s)
  rsp : (b.returned vmm s).reg .rsp = (b.called vmm s).reg .rsp
  rdi : (b.returned vmm s).reg .rdi = (b.called vmm s).reg .rdi
  stack : ∀ a ∈ b.stack s, (b.returned vmm s).memory a = (b.called vmm s).memory a

variable {b vmm s}

/-! ### Up to the vmcall -/

theorem moved_frame : (b.moved vmm s).memory = (b.pushed vmm s).memory ∧ (b.moved vmm s).rip = (b.pushed vmm s).rip := by
  unfold moved moves
  split <;> exact ⟨rfl, rfl⟩

theorem moved_reg {r : Reg} (h : r ≠ .rdi) : (b.moved vmm s).reg r = (b.pushed vmm s).reg r := by
  unfold moved moves
  split
  · rfl
  · exact Function.update_of_ne h ..

theorem moved_rdi : (b.moved vmm s).reg .rdi = s.reg b.argument := by
  have argument : (b.pushed vmm s).reg b.argument = s.reg b.argument := run_push_reg vmm b.argument_ne
  unfold moved moves
  split
  · rename_i h
    rw [← argument, h]
    rfl
  · rw [run_cons, run_nil]
    simp only [step, Function.update_self]
    exact argument

theorem called_memory : (b.called vmm s).memory = (b.pushed vmm s).memory :=
  (run_loads_frame vmm).1.trans moved_frame.1

theorem called_rsp : (b.called vmm s).reg .rsp = (b.pushed vmm s).reg .rsp :=
  (run_loads_of_not_mem vmm b.reads_rsp).trans (moved_reg (by decide))

theorem called_rdi : (b.called vmm s).reg .rdi = s.reg b.argument :=
  (run_loads_of_not_mem vmm b.reads_rdi).trans moved_rdi

/-! ### Extents -/

theorem mem_stack_of_frame {a : UInt64} (h : a ∈ frame s b.saved.length) : a ∈ b.stack s := by
  rw [frame, Extent.mem_def] at h
  rw [stack, Extent.mem_def]
  dsimp only at h ⊢
  omega

/-- The return address is on the stack of the routine, above the saved registers. -/
theorem mem_stack_of_return {a : UInt64} (h : a ∈ Extent.mk (s.reg .rsp) 8) :
    a ∈ b.stack s ∧ a ∉ frame s b.saved.length := by
  have top : s.reg .rsp = s.reg .rsp - UInt64.ofNat (8 * b.saved.length) + UInt64.ofNat (8 * b.saved.length) := by grind
  rw [top, Extent.mem_offset b.saved_room (by omega)] at h
  rw [stack, frame, Extent.mem_def, Extent.mem_def]
  dsimp only
  omega

theorem mem_registers {a : UInt64} {p : Slot} (hp : p ∈ b.reads ++ b.writes)
    (ha : a ∈ Extent.mk (s.reg b.argument + UInt64.ofNat p.1) 8) : a ∈ b.registers s := by
  have room := b.inside p hp
  have small : sizeofVmcallRegisters ≤ UInt64.size := by decide
  rw [Extent.mem_offset (by omega) (by omega)] at ha
  rw [registers, Extent.mem_def]
  dsimp only
  omega

namespace Undisturbed
variable (h : b.Undisturbed vmm s)
include h

/-- The words of the structure are where the caller put them. -/
theorem called_reg {p : Slot} (hp : p ∈ b.reads) :
    (b.called vmm s).reg p.2 = word s.memory (s.reg b.argument + UInt64.ofNat p.1) := by
  have loaded : (b.called vmm s).reg p.2 = word (b.moved vmm s).memory ((b.moved vmm s).reg .rdi + UInt64.ofNat p.1) :=
    run_loads_of_mem vmm b.reads_nodup b.reads_rdi hp
  rw [loaded, moved_rdi, moved_frame.1]
  refine word_congr fun a ha => run_push_memory vmm (by have := b.saved_room; omega) fun hf => ?_
  exact h.apart.not_mem (mem_registers (List.mem_append_left _ hp) ha) (mem_stack_of_frame hf)

/-! ### After the vmcall -/

theorem returned_rdi : (b.returned vmm s).reg .rdi = s.reg b.argument := h.rdi.trans called_rdi

/-- The stores leave everything but their words alone. -/
theorem stored_of_not_mem {a : UInt64}
    (ha : ∀ p ∈ b.writes, a ∉ Extent.mk (s.reg b.argument + UInt64.ofNat p.1) 8) :
    (b.stored vmm s).memory a = (b.returned vmm s).memory a := by
  refine run_stores_of_not_mem vmm fun p hp => ?_
  rw [h.returned_rdi]
  exact ha p hp

theorem stored_of_stack {a : UInt64} (ha : a ∈ b.stack s) : (b.stored vmm s).memory a = (b.pushed vmm s).memory a := by
  have left : (b.stored vmm s).memory a = (b.returned vmm s).memory a :=
    h.stored_of_not_mem fun p hp hin => h.apart.not_mem (mem_registers (List.mem_append_right _ hp) hin) ha
  rw [left, h.stack a ha, called_memory]

theorem stored_word {p : Slot} (hp : p ∈ b.writes) :
    word (b.stored vmm s).memory (s.reg b.argument + UInt64.ofNat p.1) = (b.returned vmm s).reg p.2 := by
  have small : sizeofVmcallRegisters ≤ UInt64.size := by decide
  rw [← h.returned_rdi]
  refine run_stores_of_mem vmm b.writes_apart (fun q hq => ?_) hp
  exact Nat.le_trans (b.inside q (List.mem_append_right _ hq)) small

theorem popped_eq : b.popped vmm s = { b.stored vmm s with
    reg := fun r => if r ∈ b.saved ∨ r = .rsp then s.reg r else (b.returned vmm s).reg r } := by
  have regs : (b.stored vmm s).reg = (b.returned vmm s).reg := (run_stores_frame vmm).1
  have room := b.saved_room
  have sp : (b.stored vmm s).reg .rsp = (b.pushed vmm s).reg .rsp := by
    rw [regs, h.rsp, called_rsp]
  rw [← regs]
  exact run_pop vmm b.saved_rsp (by omega) sp fun a ha => h.stored_of_stack (mem_stack_of_frame ha)

end Undisturbed

/-! ### The whole routine -/

/-- What a routine does with the machine, given what the VMM does. -/
structure Passes (b : Stub) (vmm : Machine → Machine) (s t : Machine) : Prop where
  received : ∀ p ∈ b.reads, (b.called vmm s).reg p.2 = word s.memory (s.reg b.argument + UInt64.ofNat p.1)
  sent : ∀ p ∈ b.writes, word t.memory (s.reg b.argument + UInt64.ofNat p.1) = (b.returned vmm s).reg p.2
  elsewhere : ∀ a, (∀ p ∈ b.writes, a ∉ Extent.mk (s.reg b.argument + UInt64.ofNat p.1) 8) →
    t.memory a = (b.returned vmm s).memory a
  rip : t.rip = word s.memory (s.reg .rsp)
  rsp : t.reg .rsp = s.reg .rsp + 8
  saved : ∀ r ∈ b.saved, t.reg r = s.reg r
  others : ∀ r, r ∉ b.saved → r ≠ .rsp → t.reg r = (b.returned vmm s).reg r

theorem Undisturbed.passes (h : b.Undisturbed vmm s) : b.Passes vmm s (X64.run vmm b.code s) := by
  have room := b.saved_room
  have address : word (b.stored vmm s).memory (s.reg .rsp) = word s.memory (s.reg .rsp) := word_congr fun a ha => by
    obtain ⟨inside, above⟩ := mem_stack_of_return (b := b) ha
    rw [h.stored_of_stack inside]
    exact run_push_memory vmm (by omega) above
  rw [run_code, h.popped_eq]
  refine ⟨fun p hp => h.called_reg hp, fun p hp => h.stored_word hp, fun a ha => h.stored_of_not_mem ha, ?_, ?_,
    fun r hr => ?_, fun r hr hsp => ?_⟩
  · simpa [step] using address
  · simp [step]
  · have ne : r ≠ .rsp := fun e => b.saved_rsp (e ▸ hr)
    simp [step, Function.update_of_ne ne, hr]
  · simp [step, hr, hsp]

end Stub

/-! ### The routines of the repository -/

/-- The words of `struct vmcall_registers_t` that the VMM is called with. -/
def vmcallReads : List Slot :=
  [(0x00, .rax), (0x08, .rdx), (0x10, .rcx), (0x18, .rbx), (0x20, .rsi), (0x28, .r8), (0x30, .r9), (0x38, .r10),
    (0x40, .r11), (0x48, .r12), (0x50, .r13), (0x58, .r14), (0x60, .r15)]

/-- The words that Linux and Windows take back, all but the first. -/
def vmcallWrites : List Slot :=
  [(0x60, .r15), (0x58, .r14), (0x50, .r13), (0x48, .r12), (0x40, .r11), (0x38, .r10), (0x30, .r9), (0x28, .r8),
    (0x20, .rsi), (0x18, .rbx), (0x10, .rcx), (0x08, .rdx)]

namespace VmcallRoutine

def saved : VmcallRoutine → List Reg
  | .linux | .uefi => [.rbx, .r12, .r13, .r14, .r15]
  | .windows => [.rbx, .rdi, .rsi, .r12, .r13, .r14, .r15]
  | .windowsEvent => [.rdi]

def reads : VmcallRoutine → List Slot
  | .linux | .uefi | .windows => vmcallReads
  | .windowsEvent => vmcallReads.take 3

def writes : VmcallRoutine → List Slot
  | .linux | .windows => vmcallWrites
  | .uefi => vmcallWrites ++ [(0x00, .rax)]
  | .windowsEvent => [(0x08, .rdx)]

def stub (r : VmcallRoutine) : Stub where
  argument := r.argument
  saved := r.saved
  reads := r.reads
  writes := r.writes
  argument_ne := by cases r <;> decide
  saved_rsp := by cases r <;> decide
  saved_room := by cases r <;> decide
  reads_rdi := by cases r <;> decide
  reads_rsp := by cases r <;> decide
  reads_nodup := by cases r <;> decide
  writes_apart := by cases r <;> decide
  inside := by cases r <;> decide

theorem code_eq (r : VmcallRoutine) : r.code = r.stub.code := by cases r <;> rfl

/-- The registers that the routine keeps for its caller: all that it has to keep but `rbp`, which no routine touches;
    the event routine saves `rdi` only. -/
theorem saved_of_calleeSaved {r : VmcallRoutine} (h : r ≠ .windowsEvent) : ∀ q ∈ r.calleeSaved, q ∈ r.saved ∨ q = .rbp := by
  cases r <;> first | decide | exact absurd rfl h

theorem passes {r : VmcallRoutine} {vmm : Machine → Machine} {s : Machine} (h : r.stub.Undisturbed vmm s) :
    r.stub.Passes vmm s (r.run vmm s) := by
  unfold VmcallRoutine.run
  rw [r.code_eq]
  exact h.passes

theorem request_reads (r : VmcallRoutine) (op magic : UInt64) (s : Machine) :
    word (r.request op magic s).memory (s.reg r.argument) = op ∧
      word (r.request op magic s).memory (s.reg r.argument + 8) = magic := by
  refine ⟨?_, word_setWord⟩
  have first : word (r.request op magic s).memory (s.reg r.argument) =
      word (setWord s.memory (s.reg r.argument) op) (s.reg r.argument) := word_congr fun a ha => by
    refine setWord_of_not_mem fun behind => ?_
    have above := (Extent.mem_offset (k := 8) (by decide) (by decide)).mp behind
    rw [Extent.mem_def] at ha
    dsimp only at ha
    omega
  exact first.trans word_setWord

/-- The operation and the magic number are the first two words, and the answer is the second. -/
theorem slots (r : VmcallRoutine) : (0, .rax) ∈ r.reads ∧ (8, .rdx) ∈ r.reads ∧ (8, .rdx) ∈ r.writes := by
  cases r <;> decide

end VmcallRoutine

/-- Whatever the VMM does, as long as it leaves the stack of the routine, `rsp` and `rdi` alone, and the registers
    structure lies outside of that stack: it is called with the operation and the magic number, the answer that the driver
    reads is what it leaves in `rdx`, and the routine returns to the driver with every register that it saves. The three
    routines for vmcalls save all that they have to keep but `rbp`; the one for events saves `rdi` only. -/
theorem issue_passes (r : VmcallRoutine) (vmm : Machine → Machine) (op magic : UInt64) (s : Machine)
    (h : r.stub.Undisturbed vmm (r.request op magic s)) :
    (r.stub.called vmm (r.request op magic s)).reg .rax = op ∧
      (r.stub.called vmm (r.request op magic s)).reg .rdx = magic ∧
      (r.issue vmm op magic s).1 = (r.stub.returned vmm (r.request op magic s)).reg .rdx ∧
      r.stub.Passes vmm (r.request op magic s) (r.issue vmm op magic s).2 ∧
      (r ≠ .windowsEvent → ∀ q ∈ r.calleeSaved, q = .rbp ∨ (r.issue vmm op magic s).2.reg q = s.reg q) := by
  have passes := VmcallRoutine.passes h
  obtain ⟨first, second⟩ := r.request_reads op magic s
  obtain ⟨rax, rdx, answer⟩ := r.slots
  refine ⟨?_, ?_, passes.sent (8, .rdx) answer, passes, fun ne q hq => ?_⟩
  · have base : s.reg r.argument + UInt64.ofNat 0 = s.reg r.argument := UInt64.add_zero _
    have received := passes.received (0, .rax) rax
    exact received.trans ((congrArg (word _) base).trans first)
  · exact (passes.received (8, .rdx) rdx).trans second
  · rcases VmcallRoutine.saved_of_calleeSaved ne q hq with saved | rbp
    · exact .inr (passes.saved q saved)
    · exact .inl rbp

/-- A VMM that accepts every vmcall and uses the other registers that it is handed. -/
def acceptingVmm (s : Machine) : Machine :=
  { s with reg := Function.update (Function.update (Function.update s.reg .rdx 0) .rbx 1) .r12 2 }

/-- A caller with the structure above the stack of the routine. -/
def vmcallCaller : Machine := { reg := fun r => if r = .rsp then 0x8000 else 0x9000, rip := 0, memory := fun _ => 0 }

theorem issue_passes_of_accepting :
    let s := VmcallRoutine.linux.request 3 5 vmcallCaller
    (VmcallRoutine.linux.stub.called acceptingVmm s).reg .rax = 3 ∧
      (VmcallRoutine.linux.stub.called acceptingVmm s).reg .rdx = 5 ∧
      (VmcallRoutine.linux.issue acceptingVmm 3 5 vmcallCaller).1 = (VmcallRoutine.linux.stub.returned acceptingVmm s).reg .rdx ∧
      VmcallRoutine.linux.stub.Passes acceptingVmm s (VmcallRoutine.linux.issue acceptingVmm 3 5 vmcallCaller).2 ∧
      (VmcallRoutine.linux ≠ .windowsEvent → ∀ q ∈ VmcallRoutine.linux.calleeSaved,
        q = .rbp ∨ (VmcallRoutine.linux.issue acceptingVmm 3 5 vmcallCaller).2.reg q = s.reg q) :=
  issue_passes .linux acceptingVmm 3 5 vmcallCaller
    { apart := by decide, rsp := rfl, rdi := rfl, stack := fun _ _ => rfl }

end Bfdriver
