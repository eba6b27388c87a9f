import Bfdriver.Theorems.Orphans

/-! # Adding a module to both tables

The ioctl layer and the common code count their modules separately and each checks its own table. A module is added to
both or to none of them, whatever the two counters are, and a buffer that was allocated for a module that is refused is
given back. -/

namespace Bfdriver
open BlockHeap

/-! ### Tables -/

/-- A table of `size` slots, of which the first `n` are used, has got one more entry. -/
structure Grows {α : Type} (size : Nat) (entry : α) (l : List α) (n : Nat) (l' : List α) (n' : Nat) : Prop where
  length : l.length = size
  room : n < size
  count : n' = n + 1
  entry : l'[n]? = some entry
  others : ∀ i, i ≠ n → l'[i]? = l[i]?

theorem grows_set {α : Type} {size : Nat} (entry : α) {l : List α} {n : Nat} (length : l.length = size)
    (room : n < size) : Grows size entry l n (l.set n entry) (n + 1) where
  length := length
  room := room
  count := rfl
  entry := List.getElem?_set_self (length ▸ room)
  others _ other := List.getElem?_set_ne (Ne.symm other)

/-- The tables and the live allocations are the same. -/
structure Unchanged (d d' : Driver) : Prop where
  numModules : d'.common.numModules = d.common.numModules
  modules : d'.common.modules = d.common.modules
  numPmodules : d'.numPmodules = d.numPmodules
  pmodules : d'.pmodules = d.pmodules
  heap : heap d'.common.trace = heap d.common.trace

/-- Both tables have got an entry for the same new buffer, which is the only new allocation. -/
structure AddsBuffer (k : Sdk) (len : UInt64) (d d' : Driver) (buf : UInt64) : Prop where
  nonnull : buf ≠ 0
  fresh : heap d.common.trace buf = none
  heap : heap d'.common.trace = Function.update (heap d.common.trace) buf (some ⟨.file, len⟩)
  modules : Grows k.maxNumModules { file := buf, fileSize := len } d.common.modules d.common.numModules d'.common.modules
    d'.common.numModules
  pmodules : Grows k.maxNumModules ⟨buf, len⟩ d.pmodules d.numPmodules d'.pmodules d'.numPmodules

/-! ### The handlers -/

/-- A failure changes nothing, a success adds a buffer to both tables. -/
def AddsAtomically (k : Sdk) (len : UInt64) (d : Driver) (r : Int × Driver) : Prop :=
  (r.1 ≠ bfIoctlSuccess → Unchanged d r.2) ∧ (r.1 = bfIoctlSuccess → ∃ buf, AddsBuffer k len d r.2 buf)

theorem ioctlAddModuleWith_atomic {E : Env} {copy : UInt64 → State → Int × State}
    (hcopy : ∀ a s, Untouched s (copy a s).2) (len : UInt64) {d : Driver} (slots : Slots E.sdk d.common)
    (length : d.pmodules.length = E.sdk.maxNumModules) :
    AddsAtomically E.sdk len d (ioctlAddModuleWith E copy len d) := by
  have run := ioctlAddModuleWith_run (E := E) hcopy len d
  generalize ioctlAddModuleWith E copy len d = r at run
  cases run with
  | @failed t untouched =>
    obtain ⟨globals, heap⟩ := untouched
    refine ⟨fun _ => ⟨?_, ?_, rfl, rfl, heap⟩, fun success => absurd success E.sdk.ioctlFailure_ne⟩
    · show t.numModules = _
      rw [globals]
    · show t.modules = _
      rw [globals]
  | @added t buf allocated nonnull copies copied unloaded room slot =>
    have fresh : heap d.common.trace buf = none := allocated ▸ E.alloc_fresh _ _ _ (allocated ▸ nonnull)
    have numModules : t.numModules = d.common.numModules := by
      rw [copied.globals]
      rfl
    have modules : t.modules = d.common.modules := by
      rw [copied.globals]
      rfl
    refine ⟨fun failure => absurd rfl failure, fun _ => ⟨buf, nonnull, fresh, ?_, ?_, grows_set _ length room⟩⟩
    · exact copied.heap.trans (heap_alloc nonnull)
    · show Grows _ _ _ _ (t.withModule buf len).modules (t.numModules + 1)
      rw [withModule_modules (slots.congr modules numModules) slot, modules, numModules]
      exact grows_set _ slots.length (numModules ▸ slot)

namespace Linux

theorem ReachableBy.bufferInv {E : Env} {P : Device → Cmd → Prop} {d : Device} (h : ReachableBy E P d) :
    BufferInv E d.toDriver := by
  induction h with
  | init => exact .initial E
  | @step d _ _ fuel cmd arg before allowed returned ih =>
    have terminates : (devUnlockedIoctl E fuel cmd arg d).1.isSome := by
      rw [returned]
      rfl
    have step := devUnlockedIoctl_bufferInv arg ih terminates
    rwa [returned] at step

/-- In every state between ioctls, for a module of any length: an ioctl that fails to add it leaves both tables and the
    live allocations alone, and one that succeeds has put a new buffer into a free slot of each table and changed no other
    slot. -/
theorem ioctlAddModule_atomic {E : Env} {d : Device} (h : ReachableBy E (fun _ _ => True) d) (len file : UInt64) :
    AddsAtomically E.sdk len d.toDriver ((ioctlAddModule E file { d with moduleLength := len }).1,
      (ioctlAddModule E file { d with moduleLength := len }).2.toDriver) :=
  ioctlAddModuleWith_atomic (fun _ s => copyFromUser_untouched _ _ _ s) len h.bufferInv.memory.slots h.bufferInv.length

/-- After an unload that the VMM refuses, the counters differ and a module is refused. -/
theorem ioctlAddModule_atomic_of_counters :
    let E := testEnv { userWord := 16, enter := fun _ req => if req = .fini then -1 else bfSuccess }
    let d := after E 8 [(.addModuleLength, 0x6000), (.addModule, 0x5000), (.loadVmm, 0), (.unloadVmm, 0)]
    d.numPmodules ≠ d.common.numModules ∧
      Unchanged d.toDriver (ioctlAddModule E 0x5000 { d with moduleLength := 16 }).2.toDriver := by
  intro E d
  have reachable : ReachableBy E (fun _ _ => True) d := reachableBy_after (by decide +kernel)
  have refused : (ioctlAddModule E 0x5000 { d with moduleLength := 16 }).1 ≠ bfIoctlSuccess := by decide +kernel
  have counters : d.numPmodules ≠ d.common.numModules := by decide +kernel
  obtain ⟨unchanged, -⟩ := ioctlAddModule_atomic reachable 16 0x5000
  clear_value d
  exact ⟨counters, unchanged refused⟩

end Linux
end Bfdriver
