import Bfdriver.Theorems.Orphans
import Bfdriver.Theorems.Releases
import Bfdriver.Theorems.Turns
import Bfdriver.Windows.Platform

/-! # The heap of a whole driver

A load whose TLS is refused leaves the common code unloaded with memory that the next load would lose. The ioctl layer
unloads after every load that fails, so in the drivers of Linux and Windows the live memory is always exactly what the
globals of both layers name. -/

namespace Bfdriver
open EventLog BlockHeap Runs

/-! ### What an entry point does -/

/-- An access to user memory. -/
def IsCopy : Event → Prop
  | .copyFromUser .. | .copyToUser .. | .readInput .. | .writeOutput .. => True
  | _ => False

/-- `t` is `s` after accesses to user memory. -/
structure Copied (s t : State) : Prop where
  globals : t = { s with trace := t.trace }
  grew : Grew IsCopy s.trace t.trace

theorem Copied.refl (s : State) : Copied s s := ⟨rfl, .refl _⟩

theorem Copied.emit (s : State) {e : Event} (h : IsCopy e) : Copied s (s.emit e) := ⟨rfl, (Grew.refl _).cons h⟩

theorem Copied.untouched {s t : State} (h : Copied s t) : Untouched s t where
  globals := h.globals
  heap := h.grew.preserves (I := fun k => heap k = heap s.trace)
    (fun _ e he same => (heap_of_none (by cases e <;> first | rfl | exact he.elim)).trans same) rfl

/-- What a call of the driver `d` may do, with whether it returns: accesses to user memory, one of the handlers of the
    ioctls, or `common_fini`. -/
inductive Handling (E : Env) (fuel : Nat) (kind : MemKind) (d : Driver) : Bool → Driver → Prop where
  | copied {t : State} (copies : Copied d.common t) (vcpuid : UInt64) :
      Handling E fuel kind d true { d with common := t, vcpuid := vcpuid }
  | addModule {copy : UInt64 → State → Int × State} (copies : ∀ a s, Copied s (copy a s).2) (len : UInt64) :
      Handling E fuel kind d true (ioctlAddModuleWith E copy len d).2
  | loadVmm : Handling E fuel kind d (ioctlLoadVmmWith E kind fuel d).1.isSome (ioctlLoadVmmWith E kind fuel d).2
  | unloadVmm : Handling E fuel kind d true (ioctlUnloadVmmWith E kind d).2
  | startVmm : Handling E fuel kind d true (ioctlStartVmm E d).2
  | stopVmm : Handling E fuel kind d true (ioctlStopVmm E d).2
  | dumpVmm {copy : UInt64 → State → Int × State} (copies : ∀ a s, Copied s (copy a s).2) :
      Handling E fuel kind d true (ioctlDumpVmmWith E copy d).2
  | fini : Handling E fuel kind d true { d with common := (commonFini E d.common).2 }

theorem Handling.same {E : Env} {fuel : Nat} {kind : MemKind} (d : Driver) : Handling E fuel kind d true d :=
  .copied (.refl d.common) d.vcpuid

/-- What every operation keeps, whatever was called before, is kept by a call of the driver. -/
theorem Handling.keeps {E : Env} {fuel : Nat} {kind : MemKind} {d e : Driver} {r : Bool} {I : State → Prop}
    (h : Handling E fuel kind d r e) (operations : ∀ op s, I s → I (exec E fuel op s).2)
    (calls : ∀ s l, I s → I { s with trace := l }) (before : I d.common) : I e.common := by
  have copied {s t : State} (copies : Copied s t) (before : I s) : I t := by
    rw [copies.globals]
    exact calls s _ before
  have unloaded (d : Driver) (before : I d.common) : I (ioctlUnloadVmmWith E kind d).2.common := by
    show I (freePmodules kind d.held (commonUnloadVmm E d.common).2)
    rw [freePmodules_globals]
    exact calls _ _ (operations .unloadVmm d.common before)
  have stopped (d : Driver) (before : I d.common) : I (ioctlStopVmm E d).2.common := operations .stopVmm d.common before
  cases h with
  | copied copies => exact copied copies before
  | addModule copies len =>
    unfold ioctlAddModuleWith
    dsimp only
    split
    · exact before
    · generalize E.alloc d.common.trace .rw len = buf
      have allocated : I (d.common.emit (.alloc .file len buf)) := calls d.common _ before
      split
      · exact allocated
      · have filled := copied (copies buf _) allocated
        split
        · exact calls _ _ filled
        · have added := operations (.addModule buf len) _ filled
          split
          · exact calls _ _ added
          · exact added
  | loadVmm =>
    have loaded := operations .loadVmm d.common before
    unfold ioctlLoadVmmWith
    dsimp only
    split
    · exact loaded
    · split
      · exact unloaded { d with common := _ } loaded
      · exact loaded
  | unloadVmm => exact unloaded d before
  | startVmm =>
    have started := operations .startVmm d.common before
    unfold ioctlStartVmm
    dsimp only
    split
    · exact stopped { d with common := _ } started
    · exact started
  | stopVmm => exact stopped d before
  | dumpVmm copies =>
    have dumped := operations (.dumpVmm E.drrAddr d.vcpuid) d.common before
    unfold ioctlDumpVmmWith
    dsimp only
    split
    · exact dumped
    · exact copied (copies _ _) dumped
  | fini => exact operations .fini d.common before

namespace Linux
variable {E : Env} {d : Device} {fuel : Nat}

theorem copyFromUser_copied (target : CopyTarget) (src len : UInt64) (s : State) :
    Copied s (copyFromUser E target src len s).2 := .emit s trivial

theorem copyToUser_copied (dst : UInt64) (source : CopySource) (len : UInt64) (s : State) :
    Copied s (copyToUser E dst source len s).2 := .emit s trivial

theorem enter_handled (p : EntryPoint) :
    Handling E fuel .rw d.toDriver (enter E fuel p d).1.isSome (enter E fuel p d).2.toDriver := by
  cases p with
  | reboot => exact .fini
  | exit => exact .fini
  | ioctl cmd arg =>
    cases cmd with
    | addModule => exact .addModule (fun _ s => copyFromUser_copied _ _ _ s) d.moduleLength
    | addModuleLength =>
      show Handling E fuel .rw d.toDriver true (ioctlAddModuleLength E arg d).2.toDriver
      unfold ioctlAddModuleLength
      split
      · exact .same d.toDriver
      · exact .copied (copyFromUser_copied _ _ _ _) d.vcpuid
    | loadVmm => exact .loadVmm
    | unloadVmm => exact .unloadVmm
    | startVmm => exact .startVmm
    | stopVmm => exact .stopVmm
    | dumpVmm => exact .dumpVmm fun _ s => copyToUser_copied _ _ _ s
    | vmmStatus =>
      show Handling E fuel .rw d.toDriver true (ioctlVmmStatus E arg d).2.toDriver
      unfold ioctlVmmStatus
      split
      · exact .same d.toDriver
      · exact .copied (copyToUser_copied _ _ _ _) d.vcpuid
    | setVcpuid =>
      show Handling E fuel .rw d.toDriver true (ioctlSetVcpuid E arg d).2.toDriver
      unfold ioctlSetVcpuid
      split
      · exact .same d.toDriver
      · exact .copied (copyFromUser_copied _ _ _ _) _
    | other => exact .same d.toDriver

end Linux

namespace Windows
variable {E : Env} {d : Driver} {fuel : Nat}

theorem memcpyFromInput_copied (dst : UInt64) (file : Option (List UInt8)) (len : UInt64) (s : State) :
    Copied s (memcpyFromInput dst file len s) := by
  cases file with
  | none => exact .refl s
  | some bytes => exact .emit s trivial

theorem memcpyToOutput_copied (out : Option Nat) (src : UInt64) (num : Nat) (s : State) :
    Copied s (memcpyToOutput out src num s) := by
  unfold memcpyToOutput
  split
  · exact .refl s
  · split
    · exact .refl s
    · exact .emit s trivial

theorem dispatch_handled {code : IoControlCode} {input : Option (List UInt8)} {output : Option Nat}
    {r : Option Int × Driver} (handled : dispatch E fuel code input output d = some r) :
    Handling E fuel .rwe d r.1.isSome r.2 := by
  cases code with
  | other => cases handled
  | addModule =>
    cases handled
    exact .addModule (fun _ s => memcpyFromInput_copied _ _ _ s) _
  | loadVmm =>
    cases handled
    exact .loadVmm
  | unloadVmm =>
    cases handled
    exact .unloadVmm
  | startVmm =>
    cases handled
    exact .startVmm
  | stopVmm =>
    cases handled
    exact .stopVmm
  | dumpVmm =>
    cases handled
    exact .dumpVmm fun _ s => memcpyToOutput_copied _ _ _ s
  | vmmStatus =>
    cases handled
    cases output with
    | none => exact .same d
    | some size => exact .copied (.emit d.common (e := .writeOutput size 0 8 (.status d.common.vmmStatus)) trivial) d.vcpuid
  | setVcpuid =>
    cases handled
    cases input with
    | none => exact .same d
    | some bytes => exact .copied (.emit d.common (e := .readInput .vcpuid bytes 0 8) trivial) _

theorem enter_handled (p : EntryPoint) :
    Handling E fuel .rwe d (enter E fuel p d).1.isSome (enter E fuel p d).2 := by
  cases p with
  | d0Exit => exact .fini
  | contextCleanup => exact .fini
  | deviceControl q =>
    show Handling E fuel .rwe d (bareflankEvtIoDeviceControl E fuel q d).1.isSome (bareflankEvtIoDeviceControl E fuel q d).2
    unfold bareflankEvtIoDeviceControl
    split
    · exact .same d
    · split
      · exact .same d
      · split
        · exact .same d
        · rename_i handled
          exact dispatch_handled handled
        · rename_i handled
          have run := dispatch_handled handled
          dsimp only
          split <;> exact run

/-- The states between the calls of the framework. -/
abbrev Entered (E : Env) : Driver → Prop :=
  ReachesBy (fun (i : Nat × EntryPoint) => enter E i.1 i.2) (fun _ _ => True) (bareflankQueueInitialize E)

end Windows

/-! ### The live memory -/

/-- The memory that the globals of both layers name. -/
def Driver.pointers (d : Driver) : Pointers := d.common.pointers ++ fileBlocks d.held

/-- The globals name distinct live blocks, and no other block is live. -/
structure HeapExact (d : Driver) : Prop where
  owned : Owned (heap d.common.trace) d.pointers
  covers : Covers (heap d.common.trace) d.pointers

/-- The live memory is what the globals name, and an unloaded driver names no memory but the buffers. -/
structure HeapInv (E : Env) (d : Driver) : Prop where
  memory : MemoryInv E (fileBlocks d.held) d.common
  accounted : Accounted (fileBlocks d.held) d.common
  settled : Settled d.common
  clean : d.common.vmmStatus = .unloaded → d.common.stack = 0
  length : d.pmodules.length = E.sdk.maxNumModules

theorem HeapInv.exact {E : Env} {d : Driver} (h : HeapInv E d) : HeapExact d := ⟨h.memory.owned, h.accounted⟩

theorem Accounted.untouched {outer : Pointers} {s t : State} (h : Accounted outer s) (hu : Untouched s t) :
    Accounted outer t := by
  obtain ⟨globals, hheap⟩ := hu
  rw [globals]
  show Covers (heap t.trace) (s.pointers ++ outer)
  rw [hheap]
  exact h

theorem Settled.untouched {s t : State} (h : Settled s) (hu : Untouched s t) : Settled t := by
  rw [hu.globals]
  exact ⟨h.empty, h.idle⟩

theorem freePmodules_accounted {outer : Pointers} (kind : MemKind) (ps : List Pmodule) (s : State)
    (h : Accounted (fileBlocks ps ++ outer) s) : Accounted outer (freePmodules kind ps s) := by
  induction ps generalizing s with
  | nil => exact h
  | cons p ps ih =>
    refine ih _ ?_
    show Covers (heap (.free kind p.data p.size :: s.trace)) (s.pointers ++ (fileBlocks ps ++ outer))
    rw [heap_free]
    exact (h.perm List.perm_middle).free (b := ⟨.file, p.size⟩)

namespace HeapInv
variable {E : Env} {d : Driver} {fuel : Nat} {t : State}

theorem initial (E : Env) : HeapInv E (.initial E.sdk (commonInit E (.initial E.sdk)).2) where
  memory := commonInit_memoryInv E
  accounted := commonInit_accounted E
  settled := .reset
  clean _ := by
    show (commonReset E (.initial E.sdk)).2.stack = 0
    rw [commonReset_eq]
    rfl
  length := List.length_replicate

theorem untouched (h : HeapInv E d) (hu : Untouched d.common t) (vcpuid : UInt64) :
    HeapInv E { d with common := t, vcpuid := vcpuid } where
  memory := h.memory.untouched hu
  accounted := h.accounted.untouched hu
  settled := h.settled.untouched hu
  clean := by
    show t.vmmStatus = .unloaded → t.stack = 0
    rw [hu.globals]
    exact h.clean
  length := h.length

/-- Calls that leave the status, or leave the driver loaded, keep the heap. -/
theorem kept (h : HeapInv E d) (hk : Kept d.common t) (status : t.vmmStatus = .unloaded → d.common.vmmStatus = .unloaded) :
    HeapInv E { d with common := t } where
  memory := h.memory.kept hk
  accounted := h.accounted.kept hk
  settled := h.settled.kept hk
  clean unloaded := hk.stack.trans (h.clean (status unloaded))
  length := h.length

/-- After an operation that empties the module table if it leaves the driver unloaded. -/
theorem effect {op : Op} (h : HeapInv E d) (hop : op ≠ .loadVmm) (e : Effect E fuel op d.common t)
    (empty : t.vmmStatus = .unloaded → t.numModules = 0) : HeapInv E { d with common := t } where
  memory := h.memory.effect e
  accounted := h.accounted.effect h.memory.slots h.settled (fun load => absurd load hop) e
  settled := h.settled.effect h.memory.slots e
  clean unloaded := (h.settled.effect h.memory.slots e).idle (empty unloaded)
  length := h.length

end HeapInv

section Handlers
variable {E : Env} {d : Driver} {fuel : Nat} {kind : MemKind}

/-- What an unload needs of the state before it, which a failed load leaves as well. -/
theorem ioctlUnloadVmmWith_heapInv (kind : MemKind) (memory : MemoryInv E (fileBlocks d.held) d.common)
    (accounted : Accounted (fileBlocks d.held) d.common) (settled : Settled d.common) :
    HeapInv E (ioctlUnloadVmmWith E kind d).2 := by
  have effect := commonUnloadVmm_effect E 0 .unloadVmm d.common
  have unloaded : Accounted (fileBlocks d.held ++ []) (commonUnloadVmm E d.common).2 := by
    rw [List.append_nil]
    exact accounted.effect memory.slots settled (fun load => by cases load) effect
  have still := settled.effect memory.slots effect
  refine ⟨ioctlUnloadVmmWith_memory kind memory, freePmodules_accounted kind d.held _ unloaded, ?_, ?_,
    List.length_replicate⟩
  · show Settled (freePmodules kind d.held (commonUnloadVmm E d.common).2)
    rw [freePmodules_globals]
    exact ⟨still.empty, still.idle⟩
  · show (freePmodules kind d.held (commonUnloadVmm E d.common).2).vmmStatus = .unloaded →
      (freePmodules kind d.held (commonUnloadVmm E d.common).2).stack = 0
    rw [freePmodules_globals]
    exact fun idle => still.idle (commonUnloadVmm_numModules idle)

theorem ioctlLoadVmmWith_heapInv (kind : MemKind) (h : HeapInv E d)
    (returned : (ioctlLoadVmmWith E kind fuel d).1.isSome) : HeapInv E (ioctlLoadVmmWith E kind fuel d).2 := by
  have effect := commonLoadVmm_effect E fuel d.common
  have memory := h.memory.effect effect
  have accounted := h.accounted.effect h.memory.slots h.settled (fun _ unloaded _ => h.clean unloaded) effect
  have settled := h.settled.effect h.memory.slots effect
  have loaded : (commonLoadVmm E fuel d.common).1 = some bfSuccess →
      (commonLoadVmm E fuel d.common).2.vmmStatus = .loaded := commonLoadVmm_success
  unfold ioctlLoadVmmWith at returned ⊢
  dsimp only at returned ⊢
  generalize commonLoadVmm E fuel d.common = r at memory accounted settled loaded returned ⊢
  rcases r with ⟨ret | ret, t⟩
  · cases returned
  · dsimp only at memory accounted settled loaded ⊢
    by_cases ok : ret = bfSuccess
    · rw [if_neg (not_not.mpr ok)]
      have active : t.vmmStatus ≠ .unloaded := by simp [loaded (congrArg some ok)]
      exact ⟨memory, accounted, settled, fun unloaded => absurd unloaded active, h.length⟩
    · rw [if_pos ok]
      exact ioctlUnloadVmmWith_heapInv (d := { d with common := t }) kind memory accounted settled

theorem ioctlStopVmm_heapInv (h : HeapInv E d) : HeapInv E (ioctlStopVmm E d).2 := by
  refine h.kept (commonStopVmm_kept E d.common) fun unloaded => ?_
  rcases commonStopVmm_status E d.common with same | ⟨-, stopped | stopped⟩
  · exact same ▸ unloaded
  · cases stopped.symm.trans unloaded
  · cases stopped.symm.trans unloaded

theorem ioctlStartVmm_heapInv (h : HeapInv E d) : HeapInv E (ioctlStartVmm E d).2 := by
  have started : HeapInv E { d with common := (commonStartVmm E d.common).2 } := by
    refine h.kept (commonStartVmm_kept E d.common) fun unloaded => ?_
    rcases commonStartVmm_status E d.common with same | ⟨-, started | started⟩
    · exact same ▸ unloaded
    · cases started.symm.trans unloaded
    · cases started.symm.trans unloaded
  unfold ioctlStartVmm
  dsimp only
  split
  · exact ioctlStopVmm_heapInv started
  · exact started

theorem ioctlDumpVmmWith_heapInv {copy : UInt64 → State → Int × State} (copies : ∀ a s, Copied s (copy a s).2)
    (h : HeapInv E d) : HeapInv E (ioctlDumpVmmWith E copy d).2 := by
  have dumped : HeapInv E { d with common := (commonDumpVmm E E.drrAddr d.vcpuid d.common).2 } :=
    h.kept (commonDumpVmm_kept E d.common E.drrAddr d.vcpuid) fun unloaded =>
      commonDumpVmm_status E d.common E.drrAddr d.vcpuid ▸ unloaded
  unfold ioctlDumpVmmWith
  dsimp only
  split
  · exact dumped
  · exact dumped.untouched (copies _ _).untouched d.vcpuid

/-- A module that is added brings a block of its own. -/
theorem HeapInv.added (h : HeapInv E d) {t : State} {buf len : UInt64} (allocated : E.alloc d.common.trace .rw len = buf)
    (nonnull : buf ≠ 0) (copied : Untouched (d.common.emit (.alloc .file len buf)) t)
    (unloaded : d.common.vmmStatus = .unloaded) (room : d.numPmodules < E.sdk.maxNumModules)
    (slot : t.numModules < E.sdk.maxNumModules) :
    HeapInv E { d with
      common := t.withModule buf len
      numPmodules := d.numPmodules + 1
      pmodules := d.pmodules.set d.numPmodules ⟨buf, len⟩ } := by
  have file := (h.memory.file len (allocated ▸ nonnull)).untouched (allocated.symm ▸ copied)
  rw [allocated] at file
  have named := withModule_pointers file.slots slot buf len
  have same : t.pointers = d.common.pointers := by
    rw [copied.globals]
    rfl
  have grown : heap t.trace = Function.update (heap d.common.trace) buf (some ⟨.file, len⟩) :=
    copied.heap.trans (heap_alloc nonnull)
  have covers : Covers (heap t.trace) (d.common.pointers ++ (buf, ⟨.file, len⟩) :: fileBlocks d.held) := by
    rw [grown]
    exact (Covers.alloc h.accounted).perm List.perm_middle.symm
  -- The new buffer is the last one of the table.
  have order : ((buf, ⟨.file, len⟩) :: fileBlocks d.held).Perm
      (fileBlocks ((d.pmodules.set d.numPmodules ⟨buf, len⟩).take (d.numPmodules + 1))) := by
    rw [d.held_added (h.length ▸ room) ⟨buf, len⟩, fileBlocks, fileBlocks, List.map_append]
    exact (List.perm_append_singleton _ _).symm
  have stack : t.stack = 0 := by
    rw [copied.globals]
    exact h.clean unloaded
  refine ⟨⟨(file.added slot buf len).slots, (file.added slot buf len).owned.perm (order.append_left _)⟩, ?_, ?_,
    fun _ => stack, List.length_set.trans h.length⟩
  · show Covers (heap t.trace) ((t.withModule buf len).pointers ++ _)
    rw [named, same]
    exact covers.perm (order.append_left _)
  · refine ⟨fun _ => ?_, fun none => absurd none (Nat.succ_ne_zero _)⟩
    show (t.withModule buf len).pointers = []
    rw [named, same]
    exact h.settled.empty (h.clean unloaded)

theorem ioctlAddModuleWith_heapInv {copy : UInt64 → State → Int × State} (copies : ∀ a s, Copied s (copy a s).2)
    (len : UInt64) (h : HeapInv E d) : HeapInv E (ioctlAddModuleWith E copy len d).2 := by
  have run := ioctlAddModuleWith_run (E := E) (fun a s => (copies a s).untouched) len d
  generalize ioctlAddModuleWith E copy len d = r at run
  cases run with
  | failed untouched => exact h.untouched untouched d.vcpuid
  | added allocated nonnull _ copied unloaded room slot => exact h.added allocated nonnull copied unloaded room slot

/-- Every call that returns keeps the heap. -/
theorem Handling.heapInv {e : Driver} (h : Handling E fuel kind d true e) (inv : HeapInv E d) : HeapInv E e := by
  generalize returned : true = r at h
  cases h with
  | copied copies vcpuid => exact inv.untouched copies.untouched vcpuid
  | addModule copies len => exact ioctlAddModuleWith_heapInv copies len inv
  | loadVmm => exact ioctlLoadVmmWith_heapInv kind inv returned.symm
  | unloadVmm => exact ioctlUnloadVmmWith_heapInv kind inv.memory inv.accounted inv.settled
  | startVmm => exact ioctlStartVmm_heapInv inv
  | stopVmm => exact ioctlStopVmm_heapInv inv
  | dumpVmm copies => exact ioctlDumpVmmWith_heapInv copies inv
  | fini =>
    have effect : Effect E 0 .fini _ _ := commonFini_effect E 0 .fini d.common
    have notLoad : Op.fini ≠ .loadVmm := nofun
    refine inv.effect notLoad effect fun unloaded => ?_
    have empty : (exec E 0 .fini d.common).2.numModules = 0 := numModules_of_unloaded (.inr rfl) unloaded
    exact empty

/-- An unload that succeeds leaves no memory at all. -/
theorem ioctlUnloadVmmWith_empty (inv : HeapInv E d) (ok : (ioctlUnloadVmmWith E kind d).1 = bfIoctlSuccess) (a : UInt64) :
    heap (ioctlUnloadVmmWith E kind d).2.common.trace a = none := by
  have unloaded : (commonUnloadVmm E d.common).1 = bfSuccess := by
    by_contra failed
    unfold ioctlUnloadVmmWith at ok
    dsimp only at ok
    rw [if_pos failed] at ok
    exact E.sdk.ioctlFailure_ne ok
  obtain ⟨u, reset⟩ := commonUnloadVmm_success unloaded
  have after := ioctlUnloadVmmWith_heapInv kind inv.memory inv.accounted inv.settled
  have named : (ioctlUnloadVmmWith E kind d).2.common.pointers = [] := by
    show (freePmodules kind d.held (commonUnloadVmm E d.common).2).pointers = []
    rw [freePmodules_globals, reset]
    exact commonReset_pointers E u
  have covers := after.accounted
  unfold Accounted at covers
  rw [named] at covers
  exact covers.empty a

end Handlers

/-! ### Both drivers -/

theorem Linux.Entered.heapInv {E : Env} {d : Linux.Device} (h : Linux.Entered E d) : HeapInv E d.toDriver :=
  h.invariant (I := fun d => HeapInv E d.toDriver) (.initial E) fun _ i _ returned inv =>
    Handling.heapInv (returned ▸ Linux.enter_handled i.2) inv

theorem Windows.Entered.heapInv {E : Env} {d : Driver} (h : Windows.Entered E d) : HeapInv E d :=
  h.invariant (I := HeapInv E) (.initial E) fun _ i _ returned inv =>
    Handling.heapInv (returned ▸ Windows.enter_handled i.2) inv

/-- A request to unload that is completed with success has unloaded. -/
theorem Windows.bareflankEvtIoDeviceControl_unloaded {E : Env} {fuel : Nat} {d : Driver} {q : Windows.DeviceControl}
    (code : q.code = .unloadVmm)
    (ok : (Windows.bareflankEvtIoDeviceControl E fuel q d).1.map Windows.Completion.status = some .success) :
    (ioctlUnloadVmmWith E .rwe d).1 = bfIoctlSuccess ∧
      (Windows.bareflankEvtIoDeviceControl E fuel q d).2 = (ioctlUnloadVmmWith E .rwe d).2 := by
  unfold Windows.bareflankEvtIoDeviceControl at ok ⊢
  rw [code] at ok ⊢
  split at ok
  · cases ok
  · split at ok
    · cases ok
    · dsimp only [Windows.dispatch, Windows.ioctlUnloadVmm] at ok ⊢
      split at ok
      · cases ok
      · rename_i succeeds
        rw [if_neg succeeds]
        exact ⟨not_not.mp succeeds, rfl⟩

/-- After every call of every run the live memory is what the globals of the driver name, each block once, and an unload
    that reports success leaves none. -/
theorem heap_exact (E : Env) :
    (∀ d, Linux.Entered E d → HeapExact d.toDriver ∧
      ∀ fuel arg, (Linux.enter E fuel (.ioctl .unloadVmm arg) d).1 = some bfIoctlSuccess →
        ∀ a, heap (Linux.enter E fuel (.ioctl .unloadVmm arg) d).2.common.trace a = none) ∧
      ∀ d, Windows.Entered E d → HeapExact d ∧
        ∀ fuel q, q.code = .unloadVmm →
          (Windows.enter E fuel (.deviceControl q) d).1.map Windows.Completion.status = some .success →
            ∀ a, heap (Windows.enter E fuel (.deviceControl q) d).2.common.trace a = none := by
  constructor
  · intro d h
    exact ⟨h.heapInv.exact, fun _ _ ok => ioctlUnloadVmmWith_empty h.heapInv (Option.some.inj ok)⟩
  · intro d h
    refine ⟨h.heapInv.exact, fun fuel q code ok => ?_⟩
    obtain ⟨unloads, same⟩ := Windows.bareflankEvtIoDeviceControl_unloaded code ok
    intro a
    show heap (Windows.bareflankEvtIoDeviceControl E fuel q d).2.common.trace a = none
    rw [same]
    exact ioctlUnloadVmmWith_empty h.heapInv unloads a

/-- The VMM refuses the first page of the TLS in the first load. -/
def refusesTls : Mocks := { enter := fun t _ => if (signals t).length = 2 then -1 else bfSuccess, userWord := 16 }

theorem heap_exact_after_failed_load :
    let E := testEnv refusesTls
    let loaded := runFrom (fun i => Linux.enter E i.1 i.2) (Linux.unloadCalls.take 3) (Linux.devInit E)
    let again := runFrom (fun i => Windows.enter E i.1 i.2) (Windows.unloadCalls.take 2 ++ Windows.unloadCalls.take 2)
      (Windows.bareflankQueueInitialize E)
    (HeapExact loaded.toDriver ∧ heap (Linux.enter E 8 (.ioctl .unloadVmm 0) loaded).2.common.trace 0x300000 = none) ∧
      HeapExact again ∧ heap (Windows.enter E 8 (.deviceControl (.exact .unloadVmm [] 0)) again).2.common.trace 0x200000 = none :=
  have linux := (heap_exact (testEnv refusesTls)).1 _ (Completes.reaches (by decide +kernel))
  have windows := (heap_exact (testEnv refusesTls)).2 _ (Completes.reaches (by decide +kernel))
  ⟨⟨linux.1, linux.2 8 0 (by decide +kernel) _⟩, windows.1, windows.2 8 _ rfl (by decide +kernel) _⟩

end Bfdriver
