import Bfdriver.Types

/-! # The platform of the unit tests

The functions of `arch/test/platform.c` that allocate, over what the C library answers, and the counters with which the
tests look for leaks. -/

namespace Bfdriver.Test

/-- The answers of the C library, and the variables with which a test makes calls fail. -/
structure Libc where
  gMallocFails : Trace → UInt64
  gSetAfinityFails : Trace → UInt64
  gVmcall : Trace → UInt64
  malloc : Trace → UInt64 → UInt64
  /-- `posix_memalign`: the address that it stores, unless it fails -/
  posixMemalign : Trace → UInt64 → UInt64 → Option UInt64
  mprotect : Trace → UInt64 → UInt64 → Int
  malloc_fresh : ∀ t len, malloc t len ≠ 0 → heap t (malloc t len) = none
  posixMemalign_fresh : ∀ t alignment len addr, posixMemalign t alignment len = some addr → addr ≠ 0 → heap t addr = none

/-- `alloc_count_rw` and `alloc_count_rwe` -/
structure Counts where
  allocCountRw : Int := 0
  allocCountRwe : Int := 0
  deriving Repr, DecidableEq

/-- The counter of a kind of memory. -/
def Counts.of (c : Counts) : MemKind → Int
  | .rw => c.allocCountRw
  | .rwe => c.allocCountRwe

def verifyNoMemLeaks (c : Counts) : Bool := c.allocCountRw = 0 ∧ c.allocCountRwe = 0

/-- `PAGE_ROUND_UP` -/
def pageRoundUp (k : Sdk) (x : UInt64) : UInt64 := (x + k.maxPageSize - 1) &&& ~~~(k.maxPageSize - 1)

def platformFreeRw (c : Counts) : Counts := { c with allocCountRw := c.allocCountRw - 1 }

def platformFreeRwe (c : Counts) : Counts := { c with allocCountRwe := c.allocCountRwe - 1 }

namespace Libc
variable (L : Libc) (k : Sdk)

def platformAllocRw (t : Trace) (len : UInt64) (c : Counts) : UInt64 × Counts :=
  if L.gMallocFails t = len then (0, c) else
  let c := { c with allocCountRw := c.allocCountRw + 1 }
  (L.malloc t len, c)

def platformAllocRwe (t : Trace) (len : UInt64) (c : Counts) : UInt64 × Counts :=
  if L.gMallocFails t = len then (0, c) else
  let len := pageRoundUp k len
  match L.posixMemalign t k.maxPageSize len with
  | none => (0, c)
  | some addr =>
    if L.mprotect t addr len = -1 then (0, platformFreeRw c) else
    let c := { c with allocCountRwe := c.allocCountRwe + 1 }
    (addr, c)

/-- `platform_alloc_rw` or `platform_alloc_rwe` -/
def platformAlloc (t : Trace) (kind : MemKind) (len : UInt64) (c : Counts) : UInt64 × Counts :=
  match kind with
  | .rw => L.platformAllocRw t len c
  | .rwe => L.platformAllocRwe k t len c

/-- `platform_free_rw` or `platform_free_rwe` -/
def platformFree (kind : MemKind) (c : Counts) : Counts :=
  match kind with
  | .rw => platformFreeRw c
  | .rwe => platformFreeRwe c

/-- The counters after a trace. -/
def counts : Trace → Counts
  | [] => {}
  | .alloc site len _ :: t => (L.platformAlloc k t site.kind len (counts t)).2
  | .free kind .. :: t => platformFree kind (counts t)
  | _ :: t => counts t

def platformSetAffinity (t : Trace) (_affinity : Int) : Int := if L.gSetAfinityFails t ≠ 0 then -1 else 0

theorem platformAlloc_fresh (t : Trace) (kind : MemKind) (len : UInt64) (c : Counts)
    (some : (L.platformAlloc k t kind len c).1 ≠ 0) : heap t (L.platformAlloc k t kind len c).1 = none := by
  cases kind with
  | rw =>
    unfold platformAlloc platformAllocRw at some ⊢
    dsimp only at some ⊢
    split at some
    · exact absurd rfl some
    · rename_i succeeds
      rw [if_neg succeeds]
      exact L.malloc_fresh t len some
  | rwe =>
    unfold platformAlloc platformAllocRwe at some ⊢
    dsimp only at some ⊢
    split at some
    · exact absurd rfl some
    · rename_i succeeds
      rw [if_neg succeeds]
      split at some
      · exact absurd rfl some
      · rename_i addr stored
        split at some
        · exact absurd rfl some
        · rename_i protects
          rw [if_neg protects]
          exact L.posixMemalign_fresh t _ _ addr stored some

/-- The common code on the platform of the tests: `W` has the answers of the VMM and of the ELF loader. -/
def env (W : Env) : Env where
  __ := W
  alloc t kind len := (L.platformAlloc W.sdk t kind len (L.counts W.sdk t)).1
  numCpus _ := 1
  setAffinity := L.platformSetAffinity
  virtToPhys _ virt := virt
  vmcall t _ := L.gVmcall t
  alloc_fresh t kind len := L.platformAlloc_fresh W.sdk t kind len _

end Libc

end Bfdriver.Test
