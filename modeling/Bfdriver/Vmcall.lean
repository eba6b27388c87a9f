import Bfdriver.Lib.X64

/-! # The vmcall routines

The assembly of `arch/linux/vmcall.asm`, `arch/uefi/vmcall.nasm` and `arch/windows/vmcall.asm`. Each routine takes the
address of a `struct vmcall_registers_t`, whose words it hands to the VMM in registers. -/

namespace Bfdriver
open X64

/-- `vmcall` of `vmcall.asm` -/
def Linux.vmcall : List Instr := [
  .push .rbx,
  .push .r12,
  .push .r13,
  .push .r14,
  .push .r15,
  .load .rax .rdi 0x00,
  .load .rdx .rdi 0x08,
  .load .rcx .rdi 0x10,
  .load .rbx .rdi 0x18,
  .load .rsi .rdi 0x20,
  .load .r8 .rdi 0x28,
  .load .r9 .rdi 0x30,
  .load .r10 .rdi 0x38,
  .load .r11 .rdi 0x40,
  .load .r12 .rdi 0x48,
  .load .r13 .rdi 0x50,
  .load .r14 .rdi 0x58,
  .load .r15 .rdi 0x60,
  .vmcall,
  .store .rdi 0x60 .r15,
  .store .rdi 0x58 .r14,
  .store .rdi 0x50 .r13,
  .store .rdi 0x48 .r12,
  .store .rdi 0x40 .r11,
  .store .rdi 0x38 .r10,
  .store .rdi 0x30 .r9,
  .store .rdi 0x28 .r8,
  .store .rdi 0x20 .rsi,
  .store .rdi 0x18 .rbx,
  .store .rdi 0x10 .rcx,
  .store .rdi 0x08 .rdx,
  .pop .r15,
  .pop .r14,
  .pop .r13,
  .pop .r12,
  .pop .rbx,
  .ret]

/-- `vmcall` of `vmcall.nasm` -/
def Uefi.vmcall : List Instr := [
  .push .rbx,
  .push .r12,
  .push .r13,
  .push .r14,
  .push .r15,
  .load .rax .rdi 0x00,
  .load .rdx .rdi 0x08,
  .load .rcx .rdi 0x10,
  .load .rbx .rdi 0x18,
  .load .rsi .rdi 0x20,
  .load .r8 .rdi 0x28,
  .load .r9 .rdi 0x30,
  .load .r10 .rdi 0x38,
  .load .r11 .rdi 0x40,
  .load .r12 .rdi 0x48,
  .load .r13 .rdi 0x50,
  .load .r14 .rdi 0x58,
  .load .r15 .rdi 0x60,
  .vmcall,
  .store .rdi 0x60 .r15,
  .store .rdi 0x58 .r14,
  .store .rdi 0x50 .r13,
  .store .rdi 0x48 .r12,
  .store .rdi 0x40 .r11,
  .store .rdi 0x38 .r10,
  .store .rdi 0x30 .r9,
  .store .rdi 0x28 .r8,
  .store .rdi 0x20 .rsi,
  .store .rdi 0x18 .rbx,
  .store .rdi 0x10 .rcx,
  .store .rdi 0x08 .rdx,
  .store .rdi 0x00 .rax,
  .pop .r15,
  .pop .r14,
  .pop .r13,
  .pop .r12,
  .pop .rbx,
  .ret]

/-- `platform_vmcall` -/
def Windows.platformVmcall : List Instr := [
  .push .rbx,
  .push .rdi,
  .push .rsi,
  .push .r12,
  .push .r13,
  .push .r14,
  .push .r15,
  .mov .rdi .rcx,
  .load .rax .rdi 0x00,
  .load .rdx .rdi 0x08,
  .load .rcx .rdi 0x10,
  .load .rbx .rdi 0x18,
  .load .rsi .rdi 0x20,
  .load .r8 .rdi 0x28,
  .load .r9 .rdi 0x30,
  .load .r10 .rdi 0x38,
  .load .r11 .rdi 0x40,
  .load .r12 .rdi 0x48,
  .load .r13 .rdi 0x50,
  .load .r14 .rdi 0x58,
  .load .r15 .rdi 0x60,
  .vmcall,
  .store .rdi 0x60 .r15,
  .store .rdi 0x58 .r14,
  .store .rdi 0x50 .r13,
  .store .rdi 0x48 .r12,
  .store .rdi 0x40 .r11,
  .store .rdi 0x38 .r10,
  .store .rdi 0x30 .r9,
  .store .rdi 0x28 .r8,
  .store .rdi 0x20 .rsi,
  .store .rdi 0x18 .rbx,
  .store .rdi 0x10 .rcx,
  .store .rdi 0x08 .rdx,
  .pop .r15,
  .pop .r14,
  .pop .r13,
  .pop .r12,
  .pop .rsi,
  .pop .rdi,
  .pop .rbx,
  .ret]

/-- `platform_vmcall_event` -/
def Windows.platformVmcallEvent : List Instr := [
  .push .rdi,
  .mov .rdi .rcx,
  .load .rax .rdi 0x00,
  .load .rdx .rdi 0x08,
  .load .rcx .rdi 0x10,
  .vmcall,
  .store .rdi 0x08 .rdx,
  .pop .rdi,
  .ret]

/-- The routines by platform. -/
inductive VmcallRoutine where
  | linux | uefi | windows | windowsEvent
  deriving Repr, DecidableEq

namespace VmcallRoutine

def code : VmcallRoutine → List Instr
  | .linux => Linux.vmcall
  | .uefi => Uefi.vmcall
  | .windows => Windows.platformVmcall
  | .windowsEvent => Windows.platformVmcallEvent

/-- The register of the first argument of a function. -/
def argument : VmcallRoutine → Reg
  | .linux | .uefi => .rdi
  | .windows | .windowsEvent => .rcx

/-- The registers that a function has to leave as they were, but for the stack pointer. -/
def calleeSaved : VmcallRoutine → List Reg
  | .linux | .uefi => [.rbx, .rbp, .r12, .r13, .r14, .r15]
  | .windows | .windowsEvent => [.rbx, .rbp, .rdi, .rsi, .r12, .r13, .r14, .r15]

/-- The state that a routine leaves. -/
def run (r : VmcallRoutine) (vmm : Machine → Machine) (s : Machine) : Machine := X64.run vmm r.code s

/-- `regs.r00` and `regs.r01` as `common_start_vmm` and `common_stop_vmm` set them; they leave the other words as they
    found them on their stack. -/
def request (r : VmcallRoutine) (op magic : UInt64) (s : Machine) : Machine :=
  let regs := s.reg r.argument
  { s with memory := setWord (setWord s.memory regs op) (regs + 8) magic }

/-- What the two do with a routine: the `regs.r01` that they read after it, and the state that it leaves. -/
def issue (r : VmcallRoutine) (vmm : Machine → Machine) (op magic : UInt64) (s : Machine) : UInt64 × Machine :=
  let t := r.run vmm (r.request op magic s)
  (word t.memory (s.reg r.argument + 8), t)

end VmcallRoutine

end Bfdriver
