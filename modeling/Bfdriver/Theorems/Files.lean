import Bfdriver.Linux.Entry
import Bfdriver.TestPlatform
import Bfdriver.Theorems.Ownership
import Bfdriver.Windows.Queue

/-! # The module files behind the ioctls

The ioctl layer owns the buffers of the module files, the common code only points to them. Both drivers
keep the two tables in step as long as they do not free the buffers after an unload that failed. -/

namespace Bfdriver
open EventLog BlockHeap Runs

/-! ### Files and buffers -/

/-- The files of the added modules with their sizes. -/
def State.files (s : State) : List (UInt64 × UInt64) := s.added.map fun m => (m.file, m.fileSize)

/-- Every added module has its file in a live buffer of its size. -/
def FilesLive (s : State) : Prop := ∀ m ∈ s.added, heap s.trace m.file = some ⟨.file, m.fileSize⟩

instance (s : State) : Decidable (FilesLive s) := inferInstanceAs (Decidable (∀ m ∈ s.added, _))

def fileBlocks (ps : List Pmodule) : Pointers := ps.map fun p => (p.data, ⟨.file, p.size⟩)

/-- The two tables name the same files, and each is a live buffer that nothing else names. -/
structure FileInv (E : Env) (d : Driver) : Prop where
  memory : MemoryInv E (fileBlocks d.held) d.common
  table : d.common.files = d.held.map fun p => (p.data, p.size)
  length : d.pmodules.length = E.sdk.maxNumModules

theorem FileInv.filesLive {E : Env} {d : Driver} (h : FileInv E d) : FilesLive d.common := by
  intro m hm
  have named : (m.file, m.fileSize) ∈ d.held.map fun p => (p.data, p.size) :=
    h.table ▸ List.mem_map.mpr ⟨m, hm, rfl⟩
  obtain ⟨p, hp, hpm⟩ := List.mem_map.mp named
  obtain ⟨hfile, hsize⟩ := Prod.mk.inj hpm
  rw [← hfile, ← hsize]
  exact h.memory.owned.live (p.data, ⟨.file, p.size⟩) (List.mem_append_right _ (List.mem_map.mpr ⟨p, hp, rfl⟩))

/-! ### What the common code does to the files -/

section Common
variable {E : Env} {fuel : Nat} {s t : State}

theorem files_of_added (h : t.added = s.added) : t.files = s.files := by
  unfold State.files
  rw [h]

theorem Kept.files (h : Kept s t) : t.files = s.files := files_of_added h.added

theorem withModule_files {k : Sdk} {s : State} (h : Slots k s) (room : s.numModules < k.maxNumModules)
    (file fsize : UInt64) : (s.withModule file fsize).files = s.files ++ [(file, fsize)] := by
  unfold State.files
  rw [withModule_added h room, List.map_append]
  rfl

theorem bfelfLoad_files (E : Env) (s : State) : (bfelfLoad E s).2.files = s.files := by
  unfold State.files
  rw [bfelfLoad_added, loadImages_files]

theorem files_of_numModules (h : s.numModules = 0) : s.files = [] := by
  simp [State.files, State.added, h]

/-- A load keeps the files if it succeeds, and leaves the driver unloaded if it does not. -/
theorem LoadRun.files {r : Option Int × State} (hst : s.vmmStatus = .unloaded) (run : LoadRun E fuel s r) :
    r.1 = some bfSuccess ∧ r.2.files = s.files ∨ r.1 ≠ some bfSuccess ∧ r.2.vmmStatus = .unloaded := by
  have failed : ∀ {ret : Int}, ret ≠ bfSuccess → some ret ≠ some bfSuccess := fun hne he => hne (Option.some.inj he)
  cases run with
  | stackFailed ne => exact .inr ⟨failed ne, commonReset_status E _⟩
  | tlsFailed _ ne => exact .inr ⟨failed ne, commonReset_status E _⟩
  | elfFailed _ _ ne => exact .inr ⟨failed ne, commonReset_status E _⟩
  | initRefused _ _ _ ne => exact .inr ⟨failed ne, commonReset_status E _⟩
  | modulesFailed _ _ ne => exact .inr ⟨failed ne, commonReset_status E _⟩
  | modulesPending inited pending => exact .inr ⟨by simp, (loadModules_status E fuel s).trans hst⟩
  | pagesFailed inited _ ne => exact .inr ⟨ne, (loadPages_status E fuel s).trans hst⟩
  | loaded inited =>
    have kept : (loadPages E fuel s).2.files = (loadElf E s).2.files := (loadPages_kept E fuel s).files
    have stages : (loadTls E s).2.files = s.files :=
      files_of_added ((setupTls_added E _).trans (setupStack_added E s))
    exact .inl ⟨rfl, kept.trans ((bfelfLoad_files E _).trans stages)⟩

theorem commonLoadVmm_files (E : Env) (fuel : Nat) (hst : s.vmmStatus = .unloaded ∨ s.vmmStatus = .loaded) :
    (commonLoadVmm E fuel s).1 = some bfSuccess ∧ (commonLoadVmm E fuel s).2.files = s.files ∨
      (commonLoadVmm E fuel s).1 ≠ some bfSuccess ∧ (commonLoadVmm E fuel s).2.vmmStatus = .unloaded := by
  rcases hst with hst | hst
  · by_cases hm : s.numModules = 0
    · rw [commonLoadVmm_of_empty E fuel hst hm]
      exact .inr ⟨fun he => E.sdk.code_ne _ (Option.some.inj he), hst⟩
    · exact (commonLoadVmm_run E fuel s hst hm).files hst
  · rw [commonLoadVmm_of_loaded E fuel hst]
    exact .inl ⟨rfl, rfl⟩

end Common

/-! ### The handlers -/

/-- `t` is `s` after accesses to user memory. -/
structure Untouched (s t : State) : Prop where
  globals : t = { s with trace := t.trace }
  heap : heap t.trace = heap s.trace

theorem Untouched.refl (s : State) : Untouched s s := ⟨rfl, rfl⟩

theorem Untouched.emit (s : State) {e : Event} (h : memOp? e = none) : Untouched s (s.emit e) :=
  ⟨rfl, heap_of_none h⟩

theorem MemoryInv.untouched {E : Env} {outer : Pointers} {s t : State} (h : MemoryInv E outer s) (u : Untouched s t) :
    MemoryInv E outer t := by
  obtain ⟨globals, hheap⟩ := u
  rw [globals]
  refine ⟨h.slots.congr rfl rfl, ?_⟩
  show Owned (Bfdriver.heap t.trace) (s.pointers ++ outer)
  rw [hheap]
  exact h.owned

section Handlers
variable {E : Env} {d : Driver} {fuel : Nat}

/-- Calls that keep memory, and accesses to user memory, keep the tables in step. -/
theorem FileInv.same (h : FileInv E d) {t : State} (memory : MemoryInv E (fileBlocks d.held) t)
    (files : t.files = d.common.files) : FileInv E { d with common := t } where
  memory := memory
  table := files.trans h.table
  length := h.length

theorem FileInv.vcpuid (h : FileInv E d) (vcpuid : UInt64) : FileInv E { d with vcpuid := vcpuid } :=
  ⟨h.memory, h.table, h.length⟩

theorem FileInv.kept (h : FileInv E d) {t : State} (hk : Kept d.common t) : FileInv E { d with common := t } :=
  h.same (h.memory.kept hk) hk.files

theorem FileInv.untouched (h : FileInv E d) {t : State} (hu : Untouched d.common t) :
    FileInv E { d with common := t } := by
  refine h.same (h.memory.untouched hu) ?_
  rw [hu.globals]
  rfl

theorem FileInv.initial (E : Env) : FileInv E (.initial E.sdk (commonInit E (.initial E.sdk)).2) where
  memory := commonInit_memoryInv E
  table := files_of_numModules (commonReset_numModules E _)
  length := List.length_replicate

/-- Freeing the buffers of a table leaves everything else owned. -/
theorem freePmodules_memory {outer : Pointers} (kind : MemKind) (ps : List Pmodule) (s : State)
    (h : MemoryInv E (fileBlocks ps ++ outer) s) : MemoryInv E outer (freePmodules kind ps s) := by
  induction ps generalizing s with
  | nil => exact h
  | cons p ps ih =>
    refine ih _ ⟨h.slots.congr rfl rfl, ?_⟩
    show Owned (heap (.free kind p.data p.size :: s.trace)) (s.pointers ++ (fileBlocks ps ++ outer))
    rw [heap_free]
    exact (h.owned.perm (List.perm_middle)).free

theorem freePmodules_globals (kind : MemKind) (ps : List Pmodule) (s : State) :
    freePmodules kind ps s = { s with trace := (freePmodules kind ps s).trace } := by
  induction ps generalizing s with
  | nil => rfl
  | cons p ps ih =>
    rw [freePmodules, ih]
    rfl

theorem ioctlUnloadVmmWith_memory (kind : MemKind) (h : MemoryInv E (fileBlocks d.held) d.common) :
    MemoryInv E [] (ioctlUnloadVmmWith E kind d).2.common := by
  have unloaded := h.effect (commonUnloadVmm_effect E 0 .unloadVmm d.common)
  rw [← List.append_nil (fileBlocks d.held)] at unloaded
  exact freePmodules_memory kind d.held _ unloaded

/-- After an unload that leaves the driver unloaded both tables are empty. -/
theorem ioctlUnloadVmmWith_fileInv (kind : MemKind) (h : MemoryInv E (fileBlocks d.held) d.common)
    (hu : (commonUnloadVmm E d.common).2.vmmStatus = .unloaded) : FileInv E (ioctlUnloadVmmWith E kind d).2 where
  memory := ioctlUnloadVmmWith_memory kind h
  table := by
    have none : (freePmodules kind d.held (commonUnloadVmm E d.common).2).numModules = 0 := by
      rw [freePmodules_globals]
      exact commonUnloadVmm_numModules hu
    exact files_of_numModules none
  length := List.length_replicate

theorem ioctlLoadVmmWith_fileInv (kind : MemKind) (h : FileInv E d)
    (hst : d.common.vmmStatus = .unloaded ∨ d.common.vmmStatus = .loaded)
    (hret : (ioctlLoadVmmWith E kind fuel d).1.isSome) : FileInv E (ioctlLoadVmmWith E kind fuel d).2 := by
  have memory := h.memory.effect (commonLoadVmm_effect E fuel d.common)
  have files := commonLoadVmm_files E fuel hst
  unfold ioctlLoadVmmWith at hret ⊢
  dsimp only at hret ⊢
  revert memory files hret
  rcases commonLoadVmm E fuel d.common with ⟨ret | ret, t⟩
  · intro hret memory files
    cases hret
  · intro hret memory files
    dsimp only at memory files ⊢
    rcases files with ⟨hok, files⟩ | ⟨hne, unloaded⟩
    · rw [if_neg (by simpa using hok)]
      exact h.same memory files
    · rw [if_pos (fun he => hne (congrArg some he))]
      refine ioctlUnloadVmmWith_fileInv (d := { d with common := t }) kind memory ?_
      show (commonUnloadVmm E t).2.vmmStatus = .unloaded
      rw [commonUnloadVmm_of_unloaded E unloaded]
      exact commonReset_status E t

theorem ioctlStopVmm_fileInv (h : FileInv E d) : FileInv E (ioctlStopVmm E d).2 :=
  h.kept (commonStopVmm_kept E d.common)

theorem ioctlStartVmm_fileInv (h : FileInv E d) : FileInv E (ioctlStartVmm E d).2 := by
  have started := h.kept (commonStartVmm_kept E d.common)
  unfold ioctlStartVmm
  dsimp only
  split
  · exact ioctlStopVmm_fileInv started
  · exact started

theorem ioctlDumpVmmWith_fileInv {copy : UInt64 → State → Int × State} (hcopy : ∀ a s, Untouched s (copy a s).2)
    (h : FileInv E d) : FileInv E (ioctlDumpVmmWith E copy d).2 := by
  have dumped := h.kept (commonDumpVmm_kept E d.common E.drrAddr d.vcpuid)
  unfold ioctlDumpVmmWith
  dsimp only
  split
  · exact dumped
  · exact dumped.untouched (hcopy _ _)

/-- A buffer that was allocated for a file belongs to the frame. -/
theorem MemoryInv.file {outer : Pointers} {s : State} (h : MemoryInv E outer s) (len : UInt64)
    (hbuf : E.alloc s.trace .rw len ≠ 0) :
    MemoryInv E ((E.alloc s.trace .rw len, ⟨.file, len⟩) :: outer)
      (s.emit (.alloc .file len (E.alloc s.trace .rw len))) where
  slots := h.slots.congr rfl rfl
  owned := by
    have fresh := h.owned.alloc (b := ⟨.file, len⟩) (E.alloc_fresh s.trace .rw len hbuf)
    rw [← heap_alloc hbuf] at fresh
    exact fresh.perm List.perm_middle.symm

theorem Driver.held_added (inside : d.numPmodules < d.pmodules.length) (p : Pmodule) :
    (d.pmodules.set d.numPmodules p).take (d.numPmodules + 1) = d.held ++ [p] := by
  rw [List.take_add_one, List.take_set_of_le (Nat.le_refl _), List.getElem?_set_self inside]
  rfl

/-- The ways in which a module is added: a failure leaves the heap as it was, a success brings a module with its own
    buffer. -/
inductive AddRun (E : Env) (copy : UInt64 → State → Int × State) (len : UInt64) (d : Driver) : Int × Driver → Prop where
  | failed {t : State} (untouched : Untouched d.common t) :
      AddRun E copy len d (E.sdk.ioctlFailure, { d with common := t })
  | added {t : State} {buf : UInt64} (allocated : E.alloc d.common.trace .rw len = buf) (nonnull : buf ≠ 0)
      (copies : copy buf (d.common.emit (.alloc .file len buf)) = (0, t))
      (copied : Untouched (d.common.emit (.alloc .file len buf)) t) (unloaded : d.common.vmmStatus = .unloaded)
      (room : d.numPmodules < E.sdk.maxNumModules) (slot : t.numModules < E.sdk.maxNumModules) :
      AddRun E copy len d (bfIoctlSuccess, { d with
        common := t.withModule buf len
        numPmodules := d.numPmodules + 1
        pmodules := d.pmodules.set d.numPmodules ⟨buf, len⟩ })

/-- A buffer that is given back leaves the heap as it was. -/
theorem Untouched.freed {s t : State} {buf len : UInt64} (copied : Untouched (s.emit (.alloc .file len buf)) t)
    (nonnull : buf ≠ 0) (fresh : Bfdriver.heap s.trace buf = none) : Untouched s (t.emit (.free .rw buf len)) where
  globals := by
    rw [copied.globals]
    rfl
  heap := by
    have given : Bfdriver.heap t.trace = Function.update (Bfdriver.heap s.trace) buf (some ⟨.file, len⟩) :=
      copied.heap.trans (heap_alloc nonnull)
    show Bfdriver.heap (.free .rw buf len :: t.trace) = _
    rw [heap_free, given, Function.update_idem, ← fresh, Function.update_eq_self]

theorem ioctlAddModuleWith_run {copy : UInt64 → State → Int × State} (hcopy : ∀ a s, Untouched s (copy a s).2)
    (len : UInt64) (d : Driver) : AddRun E copy len d (ioctlAddModuleWith E copy len d) := by
  unfold ioctlAddModuleWith
  dsimp only
  split
  · exact .failed (.refl _)
  · rename_i room
    split
    · rename_i hbuf
      exact .failed (.emit _ (by simp [memOp?, hbuf]))
    · rename_i hbuf
      have fresh := E.alloc_fresh d.common.trace .rw len hbuf
      generalize allocated : E.alloc d.common.trace .rw len = buf at hbuf fresh ⊢
      have copied := hcopy buf (d.common.emit (.alloc .file len buf))
      generalize copies : copy buf (d.common.emit (.alloc .file len buf)) = r at copied ⊢
      split
      · exact .failed (copied.freed hbuf fresh)
      · rename_i succeeds
        rcases commonAddModule_cases E buf len r.2 with ⟨refused, same⟩ | ⟨ok, unloaded, slot, more⟩
        · rw [if_pos refused, same]
          exact .failed (copied.freed hbuf fresh)
        · rw [if_neg (not_not.mpr ok), more]
          have before : d.common.vmmStatus = .unloaded := by
            rw [copied.globals] at unloaded
            exact unloaded
          exact .added allocated hbuf (copies.trans (Prod.ext (not_not.mp succeeds) rfl)) copied before (Nat.lt_of_not_le room) slot

/-- A module that is added keeps the tables in step. -/
theorem FileInv.added (h : FileInv E d) {t : State} {buf len : UInt64} (allocated : E.alloc d.common.trace .rw len = buf)
    (nonnull : buf ≠ 0) (copied : Untouched (d.common.emit (.alloc .file len buf)) t)
    (room : d.numPmodules < E.sdk.maxNumModules) (slot : t.numModules < E.sdk.maxNumModules) :
    FileInv E { d with
      common := t.withModule buf len
      numPmodules := d.numPmodules + 1
      pmodules := d.pmodules.set d.numPmodules ⟨buf, len⟩ } := by
  subst allocated
  have memory := (h.memory.file len nonnull).untouched copied
  generalize E.alloc d.common.trace .rw len = buf at memory copied ⊢
  have held := d.held_added (h.length ▸ room) ⟨buf, len⟩
  refine ⟨?_, ?_, List.length_set.trans h.length⟩
  · show MemoryInv E (fileBlocks (List.take _ _)) _
    rw [held]
    have added := memory.added slot buf len
    refine ⟨added.slots, added.owned.perm (List.Perm.append_left _ ?_)⟩
    unfold fileBlocks
    rw [List.map_append]
    exact (List.perm_append_singleton _ _).symm
  · show (t.withModule buf len).files = (List.take _ _).map _
    have files : t.files = d.common.files := by
      rw [copied.globals]
      rfl
    rw [held, List.map_append, ← h.table, ← files]
    exact withModule_files memory.slots slot buf len

theorem ioctlAddModuleWith_fileInv {copy : UInt64 → State → Int × State} (hcopy : ∀ a s, Untouched s (copy a s).2)
    (len : UInt64) (h : FileInv E d) : FileInv E (ioctlAddModuleWith E copy len d).2 := by
  have run := ioctlAddModuleWith_run (E := E) hcopy len d
  generalize ioctlAddModuleWith E copy len d = r at run
  cases run with
  | failed untouched => exact h.untouched untouched
  | added allocated nonnull _ copied _ room slot => exact h.added allocated nonnull copied room slot

/-- The states in which unloading succeeds: nothing is loaded, or the VMM agrees to be finalised. -/
def Unloadable (E : Env) (s : State) : Prop :=
  s.vmmStatus = .unloaded ∨ s.vmmStatus = .loaded ∧ (callVmm E .fini s).1 = bfSuccess

/-- The states in which loading is not refused. -/
def Loadable (s : State) : Prop := s.vmmStatus = .unloaded ∨ s.vmmStatus = .loaded

instance (E : Env) (s : State) : Decidable (Unloadable E s) := inferInstanceAs (Decidable (_ ∨ _ ∧ _))
instance (s : State) : Decidable (Loadable s) := inferInstanceAs (Decidable (_ ∨ _))

theorem Unloadable.status {s : State} (h : Unloadable E s) : (commonUnloadVmm E s).2.vmmStatus = .unloaded := by
  rcases h with unloaded | ⟨loaded, accepted⟩
  · rw [commonUnloadVmm_of_unloaded E unloaded]
    exact commonReset_status E s
  · rw [commonUnloadVmm_of_loaded E loaded, if_neg (not_not.mpr accepted)]
    exact commonReset_status E _

/-- Every handler keeps a property of the driver, a load and an unload under a condition each. -/
structure HandlersKeep (E : Env) (fuel : Nat) (kind : MemKind) (load unload : Prop) (I : Driver → Prop) (d : Driver) :
    Prop where
  untouched : ∀ t, Untouched d.common t → I { d with common := t }
  vcpuid : ∀ t vcpuid, Untouched d.common t → I { d with common := t, vcpuid := vcpuid }
  addModule : ∀ copy len, (∀ a s, Untouched s (copy a s).2) → I (ioctlAddModuleWith E copy len d).2
  loadVmm : load → (ioctlLoadVmmWith E kind fuel d).1.isSome → I (ioctlLoadVmmWith E kind fuel d).2
  unloadVmm : unload → I (ioctlUnloadVmmWith E kind d).2
  startVmm : I (ioctlStartVmm E d).2
  stopVmm : I (ioctlStopVmm E d).2
  dumpVmm : ∀ copy, (∀ a s, Untouched s (copy a s).2) → I (ioctlDumpVmmWith E copy d).2

theorem FileInv.handlers (h : FileInv E d) (kind : MemKind) :
    HandlersKeep E fuel kind (Loadable d.common) (Unloadable E d.common) (FileInv E) d where
  untouched _ := h.untouched
  vcpuid _ vcpuid hu := (h.untouched hu).vcpuid vcpuid
  addModule _ len hcopy := ioctlAddModuleWith_fileInv hcopy len h
  loadVmm := ioctlLoadVmmWith_fileInv kind h
  unloadVmm unloadable := ioctlUnloadVmmWith_fileInv kind h.memory unloadable.status
  startVmm := ioctlStartVmm_fileInv h
  stopVmm := ioctlStopVmm_fileInv h
  dumpVmm _ hcopy := ioctlDumpVmmWith_fileInv hcopy h

end Handlers

/-! ### The Linux driver -/

namespace Linux
variable {E : Env} {d : Device} {fuel : Nat} {cmd : Cmd} {arg : UInt64}

/-- No command but a refused load or unload frees the files of modules that stay in the table. -/
def KeepsFiles (E : Env) (d : Device) : Cmd → Prop
  | .unloadVmm => Unloadable E d.common
  | .loadVmm => Loadable d.common
  | _ => True

instance (d : Device) : (cmd : Cmd) → Decidable (KeepsFiles E d cmd)
  | .unloadVmm => inferInstanceAs (Decidable (Unloadable ..))
  | .loadVmm => inferInstanceAs (Decidable (Loadable _))
  | .addModule | .addModuleLength | .startVmm | .stopVmm | .dumpVmm | .vmmStatus | .setVcpuid | .other =>
    inferInstanceAs (Decidable True)

theorem copyFromUser_untouched (target : CopyTarget) (src len : UInt64) (s : State) :
    Untouched s (copyFromUser E target src len s).2 := .emit s rfl

theorem copyToUser_untouched (dst : UInt64) (source : CopySource) (len : UInt64) (s : State) :
    Untouched s (copyToUser E dst source len s).2 := .emit s rfl

/-- What every handler keeps is kept by an ioctl. -/
theorem devUnlockedIoctl_keeps {load unload : Prop} {I : Driver → Prop}
    (h : HandlersKeep E fuel .rw load unload I d.toDriver) (hload : cmd = .loadVmm → load)
    (hunload : cmd = .unloadVmm → unload) (returned : (devUnlockedIoctl E fuel cmd arg d).1.isSome) :
    I (devUnlockedIoctl E fuel cmd arg d).2.toDriver := by
  have same : I d.toDriver := h.untouched _ (.refl _)
  cases cmd with
  | addModule => exact h.addModule _ _ fun _ s => copyFromUser_untouched _ _ _ s
  | addModuleLength =>
    show I (ioctlAddModuleLength E arg d).2.toDriver
    unfold ioctlAddModuleLength
    split
    · exact same
    · exact h.untouched _ (copyFromUser_untouched _ _ _ _)
  | loadVmm => exact h.loadVmm (hload rfl) returned
  | unloadVmm => exact h.unloadVmm (hunload rfl)
  | startVmm => exact h.startVmm
  | stopVmm => exact h.stopVmm
  | dumpVmm => exact h.dumpVmm _ fun _ s => copyToUser_untouched _ _ _ s
  | vmmStatus =>
    show I (ioctlVmmStatus E arg d).2.toDriver
    unfold ioctlVmmStatus
    split
    · exact same
    · exact h.untouched _ (copyToUser_untouched _ _ _ _)
  | setVcpuid =>
    show I (ioctlSetVcpuid E arg d).2.toDriver
    unfold ioctlSetVcpuid
    split
    · exact same
    · exact h.vcpuid _ _ (copyFromUser_untouched _ _ _ _)
  | other => exact same

theorem devUnlockedIoctl_fileInv (h : FileInv E d.toDriver) (allowed : KeepsFiles E d cmd)
    (returned : (devUnlockedIoctl E fuel cmd arg d).1.isSome) :
    FileInv E (devUnlockedIoctl E fuel cmd arg d).2.toDriver :=
  devUnlockedIoctl_keeps (h.handlers .rw) (fun load => by subst load; exact allowed)
    (fun unload => by subst unload; exact allowed) returned

theorem ReachableBy.fileInv (h : ReachableBy E (KeepsFiles E) d) : FileInv E d.toDriver := by
  induction h with
  | init => exact .initial E
  | step fuel cmd arg before allowed returned ih =>
    have step := devUnlockedIoctl_fileInv ih allowed (by rw [returned]; rfl)
    rwa [returned] at step

/-- The state after `dev_init` and the ioctls of a list. -/
def after (E : Env) (fuel : Nat) (ioctls : List (Cmd × UInt64)) : Device :=
  runFrom (fun i => devUnlockedIoctl E fuel i.1 i.2) ioctls (devInit E)

theorem reachableBy_after {P : Device → Cmd → Prop} {ioctls : List (Cmd × UInt64)}
    (hc : Completes (fun i => devUnlockedIoctl E fuel i.1 i.2) (fun d i => P d i.1) ioctls (devInit E)) :
    ReachableBy E P (after E fuel ioctls) :=
  hc.preserves (fun _ _ i _ before allowed returned => before.step fuel i.1 i.2 allowed returned) .init

end Linux

/-! ### The Windows driver -/

namespace Windows
variable {E : Env} {d : Driver} {fuel : Nat} {q : DeviceControl}

/-- No request but a refused load or unload frees the files of modules that stay in the table. -/
def KeepsFiles (E : Env) (d : Driver) : IoControlCode → Prop
  | .unloadVmm => Unloadable E d.common
  | .loadVmm => Loadable d.common
  | _ => True

instance (d : Driver) : (code : IoControlCode) → Decidable (KeepsFiles E d code)
  | .unloadVmm => inferInstanceAs (Decidable (Unloadable ..))
  | .loadVmm => inferInstanceAs (Decidable (Loadable _))
  | .addModule | .startVmm | .stopVmm | .dumpVmm | .vmmStatus | .setVcpuid | .other =>
    inferInstanceAs (Decidable True)

theorem memcpyFromInput_untouched (dst : UInt64) (file : Option (List UInt8)) (len : UInt64) (s : State) :
    Untouched s (memcpyFromInput dst file len s) := by
  cases file with
  | none => exact .refl s
  | some bytes => exact .emit s rfl

theorem memcpyToOutput_untouched (out : Option Nat) (src : UInt64) (num : Nat) (s : State) :
    Untouched s (memcpyToOutput out src num s) := by
  unfold memcpyToOutput
  split
  · exact .refl s
  · split
    · exact .refl s
    · exact .emit s rfl

theorem dispatch_keeps {load unload : Prop} {I : Driver → Prop} {input : Option (List UInt8)} {output : Option Nat}
    {code : IoControlCode} {r : Option Int × Driver} (h : HandlersKeep E fuel .rwe load unload I d)
    (hload : code = .loadVmm → load) (hunload : code = .unloadVmm → unload)
    (handled : dispatch E fuel code input output d = some r) (returned : r.1.isSome) : I r.2 := by
  have same : I d := h.untouched _ (.refl _)
  cases code with
  | addModule =>
    cases handled
    exact h.addModule _ _ fun _ s => memcpyFromInput_untouched _ _ _ s
  | loadVmm =>
    cases handled
    exact h.loadVmm (hload rfl) returned
  | unloadVmm =>
    cases handled
    exact h.unloadVmm (hunload rfl)
  | startVmm =>
    cases handled
    exact h.startVmm
  | stopVmm =>
    cases handled
    exact h.stopVmm
  | dumpVmm =>
    cases handled
    exact h.dumpVmm _ fun _ s => memcpyToOutput_untouched _ _ _ s
  | vmmStatus =>
    cases handled
    cases output with
    | none => exact same
    | some size => exact h.untouched _ (.emit _ rfl)
  | setVcpuid =>
    cases handled
    cases input with
    | none => exact same
    | some bytes => exact h.vcpuid _ _ (.emit _ rfl)
  | other => cases handled

/-- What every handler keeps is kept by a request. -/
theorem bareflankEvtIoDeviceControl_keeps {load unload : Prop} {I : Driver → Prop}
    (h : HandlersKeep E fuel .rwe load unload I d) (hload : q.code = .loadVmm → load)
    (hunload : q.code = .unloadVmm → unload) (returned : (bareflankEvtIoDeviceControl E fuel q d).1.isSome) :
    I (bareflankEvtIoDeviceControl E fuel q d).2 := by
  have same : I d := h.untouched _ (.refl _)
  unfold bareflankEvtIoDeviceControl at returned ⊢
  split
  · exact same
  · split
    · exact same
    · split
      · exact same
      · simp_all
      · rename_i handled
        have kept := dispatch_keeps h hload hunload handled rfl
        dsimp only
        split <;> exact kept

theorem bareflankEvtIoDeviceControl_fileInv (h : FileInv E d) (allowed : KeepsFiles E d q.code)
    (returned : (bareflankEvtIoDeviceControl E fuel q d).1.isSome) :
    FileInv E (bareflankEvtIoDeviceControl E fuel q d).2 := by
  refine bareflankEvtIoDeviceControl_keeps (h.handlers .rwe) (fun load => ?_) (fun unload => ?_) returned
  · rw [load] at allowed
    exact allowed
  · rw [unload] at allowed
    exact allowed

theorem ReachableBy.fileInv (h : ReachableBy E (KeepsFiles E) d) : FileInv E d := by
  induction h with
  | init => exact .initial E
  | step fuel q before allowed returned ih =>
    have step := bareflankEvtIoDeviceControl_fileInv ih allowed (by rw [returned]; rfl)
    rwa [returned] at step

/-- The state after `bareflankQueueInitialize` and the requests of a list. -/
def after (E : Env) (fuel : Nat) (requests : List DeviceControl) : Driver :=
  runFrom (bareflankEvtIoDeviceControl E fuel) requests (bareflankQueueInitialize E)

theorem reachableBy_after {P : Driver → IoControlCode → Prop} {requests : List DeviceControl}
    (hc : Completes (bareflankEvtIoDeviceControl E fuel) (fun d q => P d q.code) requests
      (bareflankQueueInitialize E)) : ReachableBy E P (after E fuel requests) :=
  hc.preserves (fun _ _ q _ before allowed returned => before.step fuel q allowed returned) .init

end Windows

/-! ### Both drivers -/

/-- In runs without a refused load or unload, every added module has its file in memory. -/
theorem filesLive_of_keepsFiles (E : Env) :
    (∀ d, Linux.ReachableBy E (Linux.KeepsFiles E) d → FilesLive d.common) ∧
      ∀ d, Windows.ReachableBy E (Windows.KeepsFiles E) d → FilesLive d.common :=
  ⟨fun _ h => h.fileInv.filesLive, fun _ h => h.fileInv.filesLive⟩

/-- The ioctls that add, load and start a module of 16 bytes. -/
def Linux.startIoctls : List (Linux.Cmd × UInt64) :=
  [(.addModuleLength, 0x6000), (.addModule, 0x5000), (.loadVmm, 0), (.startVmm, 0)]

def Windows.startRequests : List Windows.DeviceControl :=
  [.exact .addModule (List.replicate 16 0) 0, .exact .loadVmm [] 0, .exact .startVmm [] 0]

theorem filesLive_after_start :
    FilesLive (Linux.after (testEnv { userWord := 16 }) 8 Linux.startIoctls).common ∧
      FilesLive (Windows.after (testEnv {}) 8 Windows.startRequests).common :=
  ⟨(filesLive_of_keepsFiles (testEnv { userWord := 16 })).1 _ (Linux.reachableBy_after (by decide +kernel)),
    (filesLive_of_keepsFiles (testEnv {})).2 _ (Windows.reachableBy_after (by decide +kernel))⟩

/-- Unloading a running VMM is refused but frees the files of its modules, in both drivers. -/
theorem not_filesLive_of_refusedUnload :
    (¬∀ (E : Env) (d : Linux.Device), Linux.ReachableBy E (fun _ _ => True) d → FilesLive d.common) ∧
      ¬∀ (E : Env) (d : Driver), Windows.ReachableBy E (fun _ _ => True) d → FilesLive d.common := by
  constructor
  · intro all
    have live := all _ (Linux.after (testEnv { userWord := 16 }) 8 (Linux.startIoctls ++ [(.unloadVmm, 0)]))
      (Linux.reachableBy_after (by decide +kernel))
    exact absurd live (by decide +kernel)
  · intro all
    have live := all _ (Windows.after (testEnv {}) 8 (Windows.startRequests ++ [.exact .unloadVmm [] 0]))
      (Windows.reachableBy_after (by decide +kernel))
    exact absurd live (by decide +kernel)

end Bfdriver
