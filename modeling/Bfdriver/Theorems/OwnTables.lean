import Bfdriver.Theorems.Processors
import Bfdriver.Theorems.TssDescriptor

/-! # The tables of the processors

A boot prepares one processor after the other, the boot processor more than once, and other code runs in between, which
gives the processors other registers. Each preparation that succeeds makes a GDT and a TSS that no other one has, and
whenever `CheckProcessor` finds such a GDT it prints a task that is busy. -/

namespace Bfdriver.Uefi
open EventLog ByteMemory

/-! ### What a preparation writes -/

theorem mem_of_mem_slot {a base : UInt64} {len : Nat} (long : kgdt64SysTss + sizeofKgdtentry64 ≤ len)
    (h : a ∈ Extent.mk (base + UInt64.ofNat kgdt64SysTss) sizeofKgdtentry64) : a ∈ Extent.mk base len := by
  have bounds := (Extent.mem_offset (by decide) (by decide)).mp h
  exact Nat.lt_of_lt_of_le bounds.2 long

section Writes
variable {F : Firmware} {u v : Machine}

/-- A preparation that succeeds writes to the new table and to the new TSS. -/
theorem memory_of_success (success : prepareProcessor F u = (.success, v)) {a : UInt64}
    (table : a ∉ Extent.mk (newGdt F u) (gdtLen u)) (task : a ∉ Extent.mk (newTss F u) (sizeofKtss64 * 2)) :
    v.memory a = u.memory a := by
  obtain ⟨gdt, tss, rfl⟩ := prepareProcessor_success F u success
  have slot : a ∉ Extent.mk (newSlot F u) sizeofKgdtentry64 := mt (mem_of_mem_slot (Nat.le_max_right ..)) table
  have old : a ∉ Extent.mk (newGdt F u) (u.gdtr.limit.toNat + 1) :=
    fun inside => table (Nat.lt_of_lt_of_le inside (Nat.le_max_left ..))
  calc ((written F u).ltr kgdt64SysTss).memory a
      = (written F u).memory a := Memory.store_of_not_mem slot
    _ = (allocated F u).memory a := Memory.store_of_not_mem slot
    _ = u.memory a := by
      rw [allocated_eq tss, copied_eq gdt]
      dsimp only
      rw [Memory.fill_of_not_mem task, Memory.copy_of_not_mem old, Memory.fill_of_not_mem table]

theorem allocateRuntimeZeroPool_failed {len : Nat} (h : F.allocate u len = 0) :
    (u.allocateRuntimeZeroPool F len).2 = { u with calls := .allocatePool len 0 :: u.calls } := by
  unfold Machine.allocateRuntimeZeroPool
  dsimp only
  rw [if_pos h, h]

/-- A preparation fails if the firmware refuses the memory for the table, or for the TSS; the table is then given back. -/
theorem prepareProcessor_outOfResources (failure : prepareProcessor F u = (.outOfResources, v)) :
    v = { unchecked u with calls := .allocatePool (gdtLen u) 0 :: u.calls } ∨
      newGdt F u ≠ 0 ∧ v = ({ copied F u with
        calls := .allocatePool (sizeofKtss64 * 2) 0 :: (copied F u).calls } : Machine).freePool (newGdt F u) := by
  unfold prepareProcessor at failure
  simp only [allocateRuntimeZeroPool_fst] at failure
  split at failure
  · rename_i gdt
    have last := (Prod.mk.inj failure).2
    rw [allocateRuntimeZeroPool_failed gdt] at last
    exact .inl last.symm
  · rename_i gdt
    split at failure
    · rename_i tss
      have last := (Prod.mk.inj failure).2
      rw [allocateRuntimeZeroPool_failed tss] at last
      exact .inr ⟨gdt, last.symm⟩
    · cases failure

/-- A preparation that fails leaves the memory in use as it was. -/
theorem prepareProcessor_failure (failure : prepareProcessor F u = (.outOfResources, v)) :
    (∀ r ∈ u.inUse, r ∈ v.inUse) ∧ ∀ r ∈ u.inUse, ∀ a ∈ r, v.memory a = u.memory a := by
  rcases prepareProcessor_outOfResources failure with rfl | ⟨gdt, rfl⟩
  · exact ⟨fun _ hr => hr, fun _ _ _ _ => rfl⟩
  · -- Nothing else has the address of the table.
    have other : ∀ r ∈ u.inUse, r.base ≠ newGdt F u := fun r hr same =>
      Extent.not_apart_of_base (Nat.lt_of_lt_of_le (Nat.succ_pos _) (Nat.le_max_left ..)) (same ▸ (newGdt_apart gdt hr).symm)
    rw [copied_eq gdt]
    refine ⟨fun r hr => ?_, fun r hr a ha => ?_⟩
    · exact List.mem_filter.mpr ⟨List.mem_cons_of_mem _ hr, by simpa using other r hr⟩
    · have table := (newGdt_apart gdt hr).not_mem ha
      have old : a ∉ Extent.mk (newGdt F u) (u.gdtr.limit.toNat + 1) :=
        fun inside => table (Nat.lt_of_lt_of_le inside (Nat.le_max_left ..))
      show Memory.copy _ _ _ _ a = _
      rw [Memory.copy_of_not_mem old, Memory.fill_of_not_mem table]

/-- The firmware has refused one of the allocations of a preparation that failed. -/
theorem refused_of_failure (failure : prepareProcessor F u = (.outOfResources, v)) :
    ∃ calls len, v.calls = calls ++ u.calls ∧ .allocatePool len 0 ∈ calls := by
  rcases prepareProcessor_outOfResources failure with rfl | ⟨gdt, rfl⟩
  · exact ⟨[.allocatePool (gdtLen u) 0], gdtLen u, rfl, List.mem_singleton_self _⟩
  · rw [copied_eq gdt]
    exact ⟨[.freePool (newGdt F u), .allocatePool (sizeofKtss64 * 2) 0,
      .copyMem (newGdt F u) u.gdtr.base (u.gdtr.limit.toNat + 1), .allocatePool (gdtLen u) (newGdt F u)],
      sizeofKtss64 * 2, rfl, by simp⟩

end Writes

/-! ### Tables -/

/-- A GDT and the TSS that its slot is for. -/
structure Tables where
  gdt : Extent
  tss : Extent

/-- The contents of the GDTR of a processor that uses the tables. -/
def Tables.gdtr (t : Tables) : Kdescriptor := { base := t.gdt.base, limit := 0x70 }

/-- The tables of two preparations have no byte in common. -/
def Tables.Apart (t u : Tables) : Prop :=
  t.gdt.Apart u.gdt ∧ t.gdt.Apart u.tss ∧ t.tss.Apart u.gdt ∧ t.tss.Apart u.tss

/-- The descriptor of sixteen bytes at offset 0x60 of a table. -/
def Board.tssDescriptor (b : Board) (gdt : UInt64) : SystemDescriptor := descriptor (b.memory.load (gdt + 0x60) 16)

/-- The tables are in use, and the descriptor in the slot of the GDT is that of a busy task with the TSS. -/
structure HasTables (b : Board) (t : Tables) : Prop where
  task : ∃ limit, b.tssDescriptor t.gdt.base = { (SystemDescriptor.availableTss t.tss.base).busy with limit := limit }
  gdt_inUse : t.gdt ∈ b.inUse
  tss_inUse : t.tss ∈ b.inUse
  gdt_len : 0x70 ≤ t.gdt.len
  tss_len : t.tss.len = sizeofKtss64 * 2
  apart : t.gdt.Apart t.tss

/-- What is in use stays so, and keeps its bytes. -/
structure KeepsInUse (b b' : Board) : Prop where
  inUse : ∀ r ∈ b.inUse, r ∈ b'.inUse
  memory : ∀ r ∈ b.inUse, ∀ a ∈ r, b'.memory a = b.memory a

section Tables
variable {F : Firmware} {b b' : Board} {p : UInt64} {t : Tables}

theorem HasTables.keep (h : HasTables b t) (keeps : KeepsInUse b b') : HasTables b' t := by
  have slot : b'.tssDescriptor t.gdt.base = b.tssDescriptor t.gdt.base := by
    refine congrArg descriptor (Memory.load_congr (by decide) fun a ha => ?_)
    exact keeps.memory t.gdt h.gdt_inUse a (mem_of_mem_slot h.gdt_len ha)
  obtain ⟨limit, task⟩ := h.task
  exact ⟨⟨limit, slot.trans task⟩, keeps.inUse _ h.gdt_inUse, keeps.inUse _ h.tss_inUse, h.gdt_len, h.tss_len, h.apart⟩

/-- A preparation that succeeds makes new tables, apart from all that was in use, and leaves the processor with them. -/
theorem prepareProcessor_tables (success : b.prepareProcessor F p = (.success, b')) : ∃ t, HasTables b' t ∧
    (b'.processors p).gdtr = t.gdtr ∧ (b'.processors p).tr = 0x60 ∧
    (∀ r ∈ b.inUse, t.gdt.Apart r ∧ t.tss.Apart r) ∧ KeepsInUse b b' := by
  obtain ⟨v, machine, rfl⟩ : ∃ v, prepareProcessor F (b.machine p) = (.success, v) ∧ b' = b.leave p v :=
    ⟨_, Prod.ext (Prod.mk.inj success).1 rfl, (Prod.mk.inj success).2.symm⟩
  have writes := fun a => memory_of_success (a := a) machine
  obtain ⟨gdt, tss, rfl⟩ := prepareProcessor_success F _ machine
  have old : ∀ r ∈ b.inUse, r.Apart ⟨newGdt F (b.machine p), gdtLen (b.machine p)⟩ ∧
      r.Apart ⟨newTss F (b.machine p), sizeofKtss64 * 2⟩ := fun r hr => by
    refine ⟨newGdt_apart gdt hr, F.apart (copied F _) _ tss r ?_⟩
    rw [copied_eq gdt]
    exact List.mem_cons_of_mem _ hr
  have inUse : (b.leave p ((written F (b.machine p)).ltr kgdt64SysTss)).inUse =
      ⟨newTss F (b.machine p), sizeofKtss64 * 2⟩ :: ⟨newGdt F (b.machine p), gdtLen (b.machine p)⟩ :: b.inUse :=
    written_inUse gdt tss
  refine ⟨⟨⟨newGdt F (b.machine p), gdtLen (b.machine p)⟩, ⟨newTss F (b.machine p), sizeofKtss64 * 2⟩⟩, ?_, ?_, ?_,
    fun r hr => ⟨(old r hr).1.symm, (old r hr).2.symm⟩, fun r hr => ?_, fun r hr a ha => ?_⟩
  · refine ⟨?_, ?_, ?_, Nat.le_max_right .., rfl, newTss_apart gdt tss⟩
    · have task : ((written F (b.machine p)).ltr kgdt64SysTss).tssDescriptor = _ :=
        (ltr_tssDescriptor _).trans (congrArg SystemDescriptor.busy written_tssDescriptor)
      exact ⟨_, task⟩
    · exact inUse ▸ List.mem_cons_of_mem _ List.mem_cons_self
    · exact inUse ▸ List.mem_cons_self
  · simp [Board.leave, written_gdtr, Tables.gdtr]
  · simp [Board.leave, Machine.ltr, kgdt64SysTss]
  · exact inUse ▸ List.mem_cons_of_mem _ (List.mem_cons_of_mem _ hr)
  · exact writes a ((old r hr).1.not_mem ha) ((old r hr).2.not_mem ha)

/-- A preparation that fails leaves all tables alone. -/
theorem prepareProcessor_keeps (failure : b.prepareProcessor F p = (.outOfResources, b')) : KeepsInUse b b' := by
  obtain ⟨v, machine, rfl⟩ : ∃ v, prepareProcessor F (b.machine p) = (.outOfResources, v) ∧ b' = b.leave p v :=
    ⟨_, Prod.ext (Prod.mk.inj failure).1 rfl, (Prod.mk.inj failure).2.symm⟩
  obtain ⟨inUse, memory⟩ := prepareProcessor_failure machine
  exact ⟨inUse, memory⟩

/-- What `CheckProcessor` prints on a processor that uses the tables. -/
theorem HasTables.check (h : HasTables b t) (uses : (b.processors p).gdtr = t.gdtr) :
    (b.checkProcessor p).1.type = 11 ∧ (b.checkProcessor p).1.present = 1 := by
  obtain ⟨limit, task⟩ := h.task
  have slot : (b.machine p).tssDescriptor = b.tssDescriptor t.gdt.base :=
    congrArg b.tssDescriptor (congrArg Kdescriptor.base uses)
  have printed := slot.trans task
  have busy : (9 ||| 2 : BitVec 5) = 11 := by decide
  exact ⟨(congrArg SystemDescriptor.type printed).trans busy, congrArg SystemDescriptor.present printed⟩

end Tables

/-! ### Boots -/

/-- The GDTRs that the preparations which succeeded have set, newest first. -/
def gdtrs (l : List BootEvent) : List Kdescriptor :=
  l.filterMap fun
    | .prepareProcessor _ .success _ gdtr => some gdtr
    | _ => none

/-- Each preparation that succeeded has made tables of its own. -/
structure OwnTables (b : Boot) (tables : List Tables) : Prop where
  made : tables.map Tables.gdtr = gdtrs b.log
  has : ∀ t ∈ tables, HasTables b.board t
  clear : tables.Pairwise Tables.Apart

/-- A processor that was prepared just before is found with the GDTR and the task of its preparation, and whoever is
    found with the GDTR of a preparation has a busy 64-bit TSS, which is type 11, in its slot. -/
def FindsTask (past : List BootEvent) : BootEvent → Prop
  | .checkProcessor p gdtr check =>
    (∀ calls made, past.head? = some (.prepareProcessor p .success calls made) → gdtr = made ∧ check.tr = 0x60) ∧
    (gdtr ∈ gdtrs past → check.type = 11 ∧ check.present = 1)
  | _ => True

/-- A processor that was prepared just before has the registers that its preparation has set. -/
def JustPrepared (b : Boot) : Prop := ∀ p calls made, b.log.head? = some (.prepareProcessor p .success calls made) →
  (b.board.processors p).gdtr = made ∧ (b.board.processors p).tr = 0x60

/-- So far every preparation that succeeded has made its own tables, and they were found. -/
structure TablesInv (b : Boot) : Prop where
  own : ∃ tables, OwnTables b tables
  just : JustPrepared b
  finds : AtEach FindsTask b.log

section Boots
variable {B : BootServices} {E : Env} {b b' : Boot} {tables : List Tables}

theorem OwnTables.keep (h : OwnTables b tables) (keeps : KeepsInUse b.board b'.board) (log : gdtrs b'.log = gdtrs b.log) :
    OwnTables b' tables where
  made := h.made.trans log.symm
  has := fun t ht => (h.has t ht).keep keeps
  clear := h.clear

theorem OwnTables.elapse (h : OwnTables b tables) : OwnTables (b.elapse B) tables :=
  h.keep ⟨fun _ hr => hr, B.elapse_inUse _ _⟩ rfl

theorem prepareProcessor_eq {status : EfiStatus} {board : Board}
    (prepares : (b.elapse B).board.prepareProcessor B.pools (B.mp.bsp b.common.trace) = (status, board)) :
    b.prepareProcessor B = { b with
      board := board
      log := .prepareProcessor (B.mp.bsp b.common.trace) status (board.callsSince b.board)
        (board.machine (B.mp.bsp b.common.trace)).gdtr :: b.log } := by
  unfold Boot.prepareProcessor
  dsimp only
  rw [show (b.elapse B).common.trace = b.common.trace from rfl, prepares]
  rfl

theorem OwnTables.prepare (h : OwnTables b tables) : ∃ tables, OwnTables (b.prepareProcessor B) tables := by
  have before := h.elapse (B := B)
  rcases prepares : (b.elapse B).board.prepareProcessor B.pools (B.mp.bsp b.common.trace) with ⟨_ | _, board⟩
  · rw [prepareProcessor_eq prepares]
    -- The new tables are apart from those that were made before, which are in use.
    obtain ⟨t, new, gdtr, -, apart, keeps⟩ := prepareProcessor_tables prepares
    refine ⟨t :: tables, ?_, ?_, List.pairwise_cons.mpr ⟨fun u hu => ?_, before.clear⟩⟩
    · exact congrArg₂ List.cons gdtr.symm before.made
    · exact List.forall_mem_cons.mpr ⟨new, fun u hu => (before.has u hu).keep keeps⟩
    · have old := before.has u hu
      have from_gdt := apart _ old.gdt_inUse
      have from_tss := apart _ old.tss_inUse
      exact ⟨from_gdt.1, from_tss.1, from_gdt.2, from_tss.2⟩
  · rw [prepareProcessor_eq prepares]
    exact ⟨tables, before.keep (prepareProcessor_keeps prepares) rfl⟩

theorem OwnTables.check (h : OwnTables b tables) : OwnTables (b.checkProcessor B) tables :=
  h.elapse.keep ⟨fun _ hr => hr, fun _ _ _ _ => rfl⟩ rfl

/-- What is not a preparation leaves nothing to show. -/
theorem justPrepared_of_head {e : BootEvent} (other : ∀ p calls made, e ≠ .prepareProcessor p .success calls made)
    {l : List BootEvent} (log : b.log = e :: l) : JustPrepared b := fun p calls made last => by
  rw [log] at last
  exact absurd (Option.some.inj last) (other p calls made)

theorem justPrepared_prepare : JustPrepared (b.prepareProcessor B) := by
  rcases prepares : (b.elapse B).board.prepareProcessor B.pools (B.mp.bsp b.common.trace) with ⟨_ | _, board⟩
  · rw [prepareProcessor_eq prepares]
    obtain ⟨t, -, -, tr, -⟩ := prepareProcessor_tables prepares
    intro q calls made last
    cases last
    exact ⟨rfl, tr⟩
  · rw [prepareProcessor_eq prepares]
    exact justPrepared_of_head (by simp) rfl

/-- A check finds what the preparations have made. -/
theorem TablesInv.findsTask (h : TablesInv b) : AtEach FindsTask (b.checkProcessor B).log := by
  obtain ⟨tables, own⟩ := h.own
  refine h.finds.cons ⟨fun _ made last => h.just _ _ made last, fun made => ?_⟩
  obtain ⟨t, ht, uses⟩ := List.mem_map.mp (own.made ▸ made)
  exact (own.elapse.has t ht).check uses.symm

theorem tablesRules (B : BootServices) (E : Env) : BootRules B E TablesInv where
  place := fun _ h => by
    obtain ⟨tables, own⟩ := h.own
    exact ⟨⟨tables, own.made, own.has, own.clear⟩, h.just, h.finds⟩
  settle := fun {b} h => by
    obtain ⟨tables, own⟩ := h.own
    have finds : AtEach FindsTask (.settle :: b.log) := h.finds.cons trivial
    exact ⟨⟨tables, own.keep ⟨fun _ hr => hr, fun _ _ _ _ => rfl⟩ rfl⟩, justPrepared_of_head (by simp) rfl, finds⟩
  prepare := fun h => by
    obtain ⟨tables, own⟩ := h.own
    exact ⟨own.prepare, justPrepared_prepare, h.finds.cons trivial⟩
  check := fun h => by
    obtain ⟨tables, own⟩ := h.own
    exact ⟨⟨tables, own.check⟩, justPrepared_of_head (by simp) rfl, h.findsTask⟩
  common := fun _ h => by
    obtain ⟨tables, own⟩ := h.own
    exact ⟨⟨tables, own.made, own.has, own.clear⟩, h.just, h.finds⟩
  startImage := fun _ h => by
    obtain ⟨tables, own⟩ := h.own
    exact ⟨⟨tables, own.made, own.has, own.clear⟩, justPrepared_of_head (by simp) rfl, h.finds.cons trivial⟩

/-- In every boot, for any tables to begin with, any registers that a switch of the boot processor or the VMM leaves and
    any other code that runs in between, each preparation that succeeds makes a GDT and a TSS of its own, which describe
    a busy task from then on and are found when the processor is checked. -/
theorem boot_gives_own_tables (B : BootServices) (W : Env) (fuel : Nat) (board : Board) :
    (∃ tables, OwnTables (uefiMain B W fuel board).2 tables) ∧ AtEach FindsTask (uefiMain B W fuel board).2.log := by
  have init : TablesInv { common := (commonInit (B.mp.env W) (.initial W.sdk)).2, board := board } :=
    ⟨⟨[], rfl, by simp, .nil⟩, fun _ _ _ last => by simp at last, .nil⟩
  have inv := (tablesRules B (B.mp.env W)).uefiMain init fuel
  exact ⟨inv.own, inv.finds⟩

end Boots

end Bfdriver.Uefi
