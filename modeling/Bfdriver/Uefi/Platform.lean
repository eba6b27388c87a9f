import Bfdriver.Types

/-! # The memory of the UEFI platform

The allocator of `arch/uefi/Platform.c`: pages of the boot services, counted by the length in bytes. -/

namespace Bfdriver.Uefi
open BlockHeap

inductive EfiMemoryType where
  | loaderData | loaderCode
  deriving Repr, DecidableEq

/-- `EFI_PAGE_SIZE` -/
def efiPageSize : UInt64 := 4096

/-- A call of the boot services. `allocatePages` keeps the address it left behind, null if it failed. -/
inductive BootCall where
  | allocatePages (type : EfiMemoryType) (pages addr : UInt64)
  | freePages (addr pages : UInt64)
  deriving Repr, DecidableEq

/-- The calls by which the functions of the platform allocate and free `len` bytes at `addr`. -/
def platformAllocRw (len addr : UInt64) : BootCall := .allocatePages .loaderData (len / efiPageSize + 1) addr

def platformAllocRwe (len addr : UInt64) : BootCall := .allocatePages .loaderCode (len / efiPageSize + 1) addr

def platformFreeRw (addr len : UInt64) : BootCall := .freePages addr (len / efiPageSize + 1)

def platformFreeRwe (addr len : UInt64) : BootCall := .freePages addr (len / efiPageSize + 1)

/-- The call of the boot services behind a call of the common code. -/
def bootCall? : Event → Option BootCall
  | .alloc site len addr =>
    match site.kind with
    | .rw => some (platformAllocRw len addr)
    | .rwe => some (platformAllocRwe len addr)
  | .free .rw addr len => some (platformFreeRw addr len)
  | .free .rwe addr len => some (platformFreeRwe addr len)
  | _ => none

def bootOp? : BootCall → Option (MemOp UInt64 UInt64)
  | .allocatePages _ pages addr => if addr = 0 then none else some (.alloc addr pages)
  | .freePages addr _ => some (.free addr)

/-- The number of pages of each allocation that is live after a trace. -/
def pagesHeld (t : Trace) : UInt64 → Option UInt64 := heapOf ((t.filterMap bootCall?).filterMap bootOp?)

/-- A release of pages names a live allocation of as many pages. -/
def FreesSamePages (past : Trace) (e : Event) : Prop :=
  ∀ addr pages, bootCall? e = some (.freePages addr pages) → pagesHeld past addr = some pages

/-- The boot services see each allocation and release of the common code, with the length in pages. -/
theorem bootOp?_bootCall? (e : Event) :
    (bootCall? e).bind bootOp? = (memOp? e).map (MemOp.map fun b : Block => b.len / efiPageSize + 1) := by
  cases e with
  | alloc site len addr => by_cases h : addr = 0 <;> cases site <;> simp [bootCall?, bootOp?, memOp?, h,
      AllocSite.kind, platformAllocRw, platformAllocRwe, MemOp.map]
  | free kind addr len => cases kind <;> rfl
  | _ => rfl

/-- The pages of a live block are those of its length. -/
theorem pagesHeld_eq (t : Trace) (a : UInt64) :
    pagesHeld t a = (heap t a).map fun b => b.len / efiPageSize + 1 := by
  have ops : (t.filterMap bootCall?).filterMap bootOp? =
      (t.filterMap memOp?).map (MemOp.map fun b => b.len / efiPageSize + 1) := by
    rw [List.filterMap_filterMap, List.map_filterMap]
    exact List.filterMap_congr fun e _ => bootOp?_bootCall? e
  unfold pagesHeld heap
  rw [ops, heapOf_map]

end Bfdriver.Uefi
