import Bfdriver.Types

/-! # The platform of Windows

The affinity of threads and the memory of `arch/windows/platform.c`, over the functions of the kernel that it calls. A
thread has a mask of the CPUs that it was bound to, zero if it was not. -/

namespace Bfdriver.Windows
open BlockHeap

/-! ### Affinity -/

/-- `KeSetSystemAffinityThreadEx`: the mask of the thread before, and its new one. -/
def keSetSystemAffinityThreadEx (affinity mask : UInt64) : UInt64 × UInt64 := (mask, affinity)

/-- `KeRevertToUserAffinityThreadEx`: the new mask of the thread. -/
def keRevertToUserAffinityThreadEx (affinity : UInt64) : UInt64 := affinity

/-- The result, and the new mask of a thread with the mask `mask`. -/
def platformSetAffinity (affinity : Int64) (mask : UInt64) : Int64 × UInt64 :=
  let newAffinity := 1 <<< affinity.toUInt64
  let r := keSetSystemAffinityThreadEx newAffinity mask
  (r.1.toInt64, r.2)

/-- The new mask of the thread. -/
def platformRestoreAffinity (affinity : Int64) : UInt64 := keRevertToUserAffinityThreadEx affinity.toUInt64

/-- The mask after a trace of a thread that had none before. -/
def systemAffinity : Trace → UInt64
  | [] => 0
  | .setAffinity cpuid _ :: t => (platformSetAffinity (Int64.ofInt cpuid) (systemAffinity t)).2
  | .restoreAffinity affinity :: _ => platformRestoreAffinity (Int64.ofInt affinity)
  | _ :: t => systemAffinity t

/-- The answer of `platform_set_affinity` to such a thread. -/
def affinityAnswer (t : Trace) (cpuid : Int) : Int :=
  (platformSetAffinity (Int64.ofInt cpuid) (systemAffinity t)).1.toInt

/-! ### The pool -/

inductive PoolType where
  | nonPagedPool | nonPagedPoolExecute
  deriving Repr, DecidableEq

/-- `BF_TAG` -/
def bfTag : UInt32 := 0x42464C4B

/-- The pool that the memory of a kind is taken from. -/
def poolType : MemKind → PoolType
  | .rw => .nonPagedPool
  | .rwe => .nonPagedPoolExecute

/-- The answers of the pool allocator. -/
structure Pool where
  exAllocatePoolWithTag : Trace → PoolType → UInt64 → UInt32 → UInt64
  fresh : ∀ t type len tag, exAllocatePoolWithTag t type len tag ≠ 0 → heap t (exAllocatePoolWithTag t type len tag) = none

/-- `platform_alloc_rw` and `platform_alloc_rwe` -/
def Pool.platformAlloc (P : Pool) (t : Trace) (kind : MemKind) (len : UInt64) : UInt64 :=
  if len = 0 then 0 else P.exAllocatePoolWithTag t (poolType kind) len bfTag

/-- The environment `W` with the memory of this pool. -/
def Pool.env (P : Pool) (W : Env) : Env where
  __ := W
  alloc := P.platformAlloc
  alloc_fresh t kind len h := by
    unfold platformAlloc at h ⊢
    split at h
    · exact absurd rfl h
    · rename_i hlen
      rw [if_neg hlen]
      exact P.fresh t (poolType kind) len bfTag h

/-- A call of the pool allocator. `exAllocatePoolWithTag` keeps the address that it returned. -/
inductive PoolCall where
  | exAllocatePoolWithTag (type : PoolType) (numberOfBytes : UInt64) (tag : UInt32) (addr : UInt64)
  | exFreePoolWithTag (addr : UInt64) (tag : UInt32)
  deriving Repr, DecidableEq

/-- `platform_free_rw` and `platform_free_rwe` -/
def platformFree (_kind : MemKind) (addr _len : UInt64) : Option PoolCall :=
  if addr = 0 then none else some (.exFreePoolWithTag addr bfTag)

/-- The call of the pool allocator behind a call of the driver. -/
def poolCall? : Event → Option PoolCall
  | .alloc site len addr =>
    if len = 0 then none else some (.exAllocatePoolWithTag (poolType site.kind) len bfTag addr)
  | .free kind addr len => platformFree kind addr len
  | _ => none

structure PoolBlock where
  type : PoolType
  numberOfBytes : UInt64
  tag : UInt32
  deriving Repr, DecidableEq

def poolOp? : PoolCall → Option (MemOp UInt64 PoolBlock)
  | .exAllocatePoolWithTag type numberOfBytes tag addr =>
    if addr = 0 then none else some (.alloc addr ⟨type, numberOfBytes, tag⟩)
  | .exFreePoolWithTag addr _ => some (.free addr)

/-- The blocks of the pool that are live after a trace. -/
def pool (t : Trace) : UInt64 → Option PoolBlock := heapOf ((t.filterMap poolCall?).filterMap poolOp?)

/-- A call of `ExFreePoolWithTag` names a live block that was allocated with the same tag. -/
def FreesPool (past : Trace) (e : Event) : Prop :=
  ∀ addr tag, poolCall? e = some (.exFreePoolWithTag addr tag) → ∃ b, pool past addr = some b ∧ b.tag = tag

end Bfdriver.Windows
