import Bfdriver.Lib.ByteMemory
import Mathlib.Logic.Function.Basic

/-! # Straight-line x86-64 code

The instructions of small assembly routines that save registers on the stack, move words between registers and a
structure, and call a hypervisor. What the hypervisor does with the machine is a parameter. -/

namespace X64
open ByteMemory

/-! ### Words -/

/-- The word at an address. -/
def word (m : Memory) (a : UInt64) : UInt64 := ⟨m.load a 8⟩

def setWord (m : Memory) (a x : UInt64) : Memory := m.store (n := 8) a x.toBitVec

section Words
variable {m m' : Memory} {a b x : UInt64}

theorem word_setWord : word (setWord m a x) a = x := by
  unfold word setWord
  rw [Memory.load_store (by decide)]

/-- A word is made of the bytes of its extent. -/
theorem word_congr (h : ∀ b ∈ Extent.mk a 8, m b = m' b) : word m a = word m' a := by
  unfold word
  rw [Memory.load_congr (by decide) h]

theorem setWord_of_not_mem (h : b ∉ Extent.mk a 8) : setWord m a x b = m b := Memory.store_of_not_mem h

end Words

/-! ### The machine -/

inductive Reg where
  | rax | rbx | rcx | rdx | rsi | rdi | rbp | rsp | r8 | r9 | r10 | r11 | r12 | r13 | r14 | r15
  deriving Repr, DecidableEq

open Reg

/-- The registers and memory; `rip` is where the routine has returned to. -/
structure Machine where
  reg : Reg → UInt64
  rip : UInt64
  memory : Memory

inductive Instr where
  | push (r : Reg)
  | pop (r : Reg)
  | mov (dst src : Reg)
  /-- `mov dst, [base + disp]` -/
  | load (dst base : Reg) (disp : Nat)
  /-- `mov [base + disp], src` -/
  | store (base : Reg) (disp : Nat) (src : Reg)
  | vmcall
  | ret
  deriving Repr, DecidableEq

/-- One instruction; `vmm` is what the hypervisor does on `vmcall`. -/
def step (vmm : Machine → Machine) (s : Machine) : Instr → Machine
  | .push r =>
    let sp := s.reg rsp - 8
    { s with reg := Function.update s.reg rsp sp, memory := setWord s.memory sp (s.reg r) }
  | .pop r =>
    let x := word s.memory (s.reg rsp)
    { s with reg := Function.update (Function.update s.reg rsp (s.reg rsp + 8)) r x }
  | .mov dst src => { s with reg := Function.update s.reg dst (s.reg src) }
  | .load dst base disp =>
    { s with reg := Function.update s.reg dst (word s.memory (s.reg base + UInt64.ofNat disp)) }
  | .store base disp src => { s with memory := setWord s.memory (s.reg base + UInt64.ofNat disp) (s.reg src) }
  | .vmcall => vmm s
  | .ret => { s with rip := word s.memory (s.reg rsp), reg := Function.update s.reg rsp (s.reg rsp + 8) }

def run (vmm : Machine → Machine) (is : List Instr) (s : Machine) : Machine := is.foldl (step vmm) s

section Run
variable (vmm : Machine → Machine) {is js : List Instr} {s : Machine} {i : Instr}

@[simp] theorem run_nil : run vmm [] s = s := rfl

@[simp] theorem run_cons : run vmm (i :: is) s = run vmm is (step vmm s i) := rfl

theorem run_append : run vmm (is ++ js) s = run vmm js (run vmm is s) := List.foldl_append

end Run

/-! ### Saved registers -/

/-- The `n` words below the stack pointer. -/
def frame (s : Machine) (n : Nat) : Extent := ⟨s.reg rsp - UInt64.ofNat (8 * n), 8 * n⟩

section Frames
variable (vmm : Machine → Machine) {s : Machine} {r : Reg} {rs : List Reg} {n : Nat} {a : UInt64}

/-- A frame with room for one more word consists of the frame below that word and the word. -/
theorem mem_frame_succ (small : 8 * (n + 1) ≤ UInt64.size) :
    a ∈ frame s (n + 1) ↔ a ∈ frame (step vmm s (.push r)) n ∨ a ∈ Extent.mk (s.reg rsp - 8) 8 := by
  have base : s.reg rsp - 8 = s.reg rsp - UInt64.ofNat (8 * (n + 1)) + UInt64.ofNat (8 * n) := by
    rw [Nat.mul_add, UInt64.ofNat_add]
    grind
  have below : frame (step vmm s (.push r)) n = ⟨s.reg rsp - UInt64.ofNat (8 * (n + 1)), 8 * n⟩ := by
    simp only [frame, step, Function.update_self, Nat.mul_add, UInt64.ofNat_add]
    congr 1
    grind
  rw [below, base, Extent.mem_offset (by omega) (by omega), frame, Extent.mem_def, Extent.mem_def]
  dsimp only
  omega

/-- The pushed word is not part of the frame below it. -/
theorem not_mem_frame_push (small : 8 * (n + 1) ≤ UInt64.size) (h : a ∈ Extent.mk (s.reg rsp - 8) 8) :
    a ∉ frame (step vmm s (.push r)) n := by
  have base : s.reg rsp - 8 = s.reg rsp - UInt64.ofNat (8 * (n + 1)) + UInt64.ofNat (8 * n) := by
    rw [Nat.mul_add, UInt64.ofNat_add]
    grind
  have below : frame (step vmm s (.push r)) n = ⟨s.reg rsp - UInt64.ofNat (8 * (n + 1)), 8 * n⟩ := by
    simp only [frame, step, Function.update_self, Nat.mul_add, UInt64.ofNat_add]
    congr 1
    grind
  rw [base, Extent.mem_offset (by omega) (by omega)] at h
  rw [below, Extent.mem_def]
  dsimp only
  omega

theorem run_push_reg (h : r ≠ rsp) : (run vmm (rs.map .push) s).reg r = s.reg r := by
  induction rs generalizing s with
  | nil => rfl
  | cons q rs ih =>
    rw [List.map_cons, run_cons, ih]
    exact Function.update_of_ne h ..

/-- Pushing registers writes to their frame only. -/
theorem run_push_memory (small : 8 * rs.length ≤ UInt64.size) (h : a ∉ frame s rs.length) :
    (run vmm (rs.map .push) s).memory a = s.memory a := by
  induction rs generalizing s with
  | nil => rfl
  | cons q rs ih =>
    rw [List.length_cons] at small h
    rw [mem_frame_succ vmm (r := q) small, not_or] at h
    rw [List.map_cons, run_cons, ih (by omega) h.1]
    exact setWord_of_not_mem h.2

/-- What runs between the pushes and the pops of some registers, and leaves the stack pointer and the frame as they
    are, leaves these registers as they are. -/
theorem run_pop (hrs : rsp ∉ rs) (small : 8 * rs.length ≤ UInt64.size) {out : Machine}
    (sp : out.reg rsp = (run vmm (rs.map .push) s).reg rsp)
    (kept : ∀ a ∈ frame s rs.length, out.memory a = (run vmm (rs.map .push) s).memory a) :
    run vmm (rs.reverse.map .pop) out = { out with reg := fun r => if r ∈ rs ∨ r = rsp then s.reg r else out.reg r } := by
  induction rs generalizing s with
  | nil =>
    have same : out.reg rsp = s.reg rsp := sp
    have regs : out.reg = fun r => if r ∈ ([] : List Reg) ∨ r = rsp then s.reg r else out.reg r := by
      funext r
      split
      · rename_i h
        rcases h with h | rfl
        · cases h
        · exact same
      · rfl
    rw [← regs]
    rfl
  | cons q rs ih =>
    obtain ⟨hq, hrs⟩ := List.ne_and_not_mem_of_not_mem_cons hrs
    rw [List.length_cons] at small kept
    have inner := ih (s := step vmm s (.push q)) hrs (by omega) sp fun a ha =>
      kept a ((mem_frame_succ vmm small).mpr (.inl ha))
    -- The word of the outer register is above the frame of the others.
    have saved : word out.memory (s.reg rsp - 8) = s.reg q := by
      have above : word out.memory (s.reg rsp - 8) = word (step vmm s (.push q)).memory (s.reg rsp - 8) :=
        word_congr fun a ha => by
          rw [kept a ((mem_frame_succ vmm (r := q) small).mpr (.inr ha))]
          exact run_push_memory vmm (by omega) (not_mem_frame_push vmm small ha)
      exact above.trans word_setWord
    rw [List.reverse_cons, List.map_append, run_append, inner, List.map_singleton, run_cons, run_nil]
    simp only [step, or_true, if_true, Function.update_self, saved]
    congr 1
    funext r
    by_cases hr : r = q
    · subst hr
      simp
    · rw [Function.update_of_ne hr]
      by_cases hsp : r = rsp
      · subst hsp
        simp
      · rw [Function.update_of_ne hsp, Function.update_of_ne hsp]
        simp [hr, hsp]

end Frames

/-! ### Words of a structure -/

/-- The word at an offset belongs in a register. -/
abbrev Slot := Nat × Reg

section Slots
variable (vmm : Machine → Machine) {s : Machine} {base r : Reg} {slots : List Slot} {p : Slot} {a : UInt64} {len : Nat}

def loads (base : Reg) (slots : List Slot) : List Instr := slots.map fun p => .load p.2 base p.1

def stores (base : Reg) (slots : List Slot) : List Instr := slots.map fun p => .store base p.1 p.2

theorem run_loads_frame : (run vmm (loads base slots) s).memory = s.memory ∧ (run vmm (loads base slots) s).rip = s.rip := by
  induction slots generalizing s with
  | nil => exact ⟨rfl, rfl⟩
  | cons p ps ih => exact ih

theorem run_loads_of_not_mem (h : r ∉ slots.map Prod.snd) : (run vmm (loads base slots) s).reg r = s.reg r := by
  induction slots generalizing s with
  | nil => rfl
  | cons p ps ih =>
    obtain ⟨hp, hps⟩ := List.ne_and_not_mem_of_not_mem_cons h
    refine (ih hps).trans ?_
    exact Function.update_of_ne hp ..

/-- Loading words into distinct registers other than the base gives each register its word. -/
theorem run_loads_of_mem (nodup : (slots.map Prod.snd).Nodup) (hbase : base ∉ slots.map Prod.snd) (hp : p ∈ slots) :
    (run vmm (loads base slots) s).reg p.2 = word s.memory (s.reg base + UInt64.ofNat p.1) := by
  induction slots generalizing s with
  | nil => cases hp
  | cons q qs ih =>
    obtain ⟨hq, hqs⟩ := List.ne_and_not_mem_of_not_mem_cons hbase
    obtain ⟨fresh, nodup⟩ := List.nodup_cons.mp nodup
    rcases List.mem_cons.mp hp with rfl | hp
    · refine (run_loads_of_not_mem vmm fresh).trans ?_
      exact Function.update_self ..
    · refine (ih nodup hqs hp).trans ?_
      have same : (step vmm s (.load q.2 base q.1)).reg base = s.reg base := Function.update_of_ne hq ..
      rw [same]
      rfl

theorem run_stores_frame : (run vmm (stores base slots) s).reg = s.reg ∧ (run vmm (stores base slots) s).rip = s.rip := by
  induction slots generalizing s with
  | nil => exact ⟨rfl, rfl⟩
  | cons p ps ih => exact ih

/-- Storing words leaves every other byte alone. -/
theorem run_stores_of_not_mem (h : ∀ p ∈ slots, a ∉ Extent.mk (s.reg base + UInt64.ofNat p.1) 8) :
    (run vmm (stores base slots) s).memory a = s.memory a := by
  induction slots generalizing s with
  | nil => rfl
  | cons p ps ih =>
    refine (ih (s := step vmm s (.store base p.1 p.2)) fun q hq => h q (List.mem_cons_of_mem p hq)).trans ?_
    exact setWord_of_not_mem (h p List.mem_cons_self)

/-- The words of two slots have no byte in common. -/
def Slot.Apart (p q : Slot) : Prop := p.1 + 8 ≤ q.1 ∨ q.1 + 8 ≤ p.1

instance (p q : Slot) : Decidable (p.Apart q) := inferInstanceAs (Decidable (_ ∨ _))

/-- Storing registers to slots that are apart gives each slot the word of its register. -/
theorem run_stores_of_mem (apart : slots.Pairwise Slot.Apart) (inside : ∀ q ∈ slots, q.1 + 8 ≤ UInt64.size) (hp : p ∈ slots) :
    word (run vmm (stores base slots) s).memory (s.reg base + UInt64.ofNat p.1) = s.reg p.2 := by
  induction slots generalizing s with
  | nil => cases hp
  | cons q qs ih =>
    obtain ⟨others, apart⟩ := List.pairwise_cons.mp apart
    have room : ∀ x ∈ qs, x.1 + 8 ≤ UInt64.size := fun x hx => inside x (List.mem_cons_of_mem q hx)
    rcases List.mem_cons.mp hp with rfl | hp
    · have rest : word (run vmm (stores base qs) (step vmm s (.store base p.1 p.2))).memory (s.reg base + UInt64.ofNat p.1) =
          word (step vmm s (.store base p.1 p.2)).memory (s.reg base + UInt64.ofNat p.1) := by
        refine word_congr fun a ha => run_stores_of_not_mem vmm fun x hx hax => ?_
        have first := (Extent.mem_offset (inside p List.mem_cons_self) (by omega)).mp ha
        have other := (Extent.mem_offset (room x hx) (by omega)).mp hax
        have far := others x hx
        unfold Slot.Apart at far
        have same : (step vmm s (.store base p.1 p.2)).reg base = s.reg base := rfl
        rw [same] at other
        omega
      exact rest.trans word_setWord
    · exact ih (s := step vmm s (.store base q.1 q.2)) apart room hp

end Slots

end X64
