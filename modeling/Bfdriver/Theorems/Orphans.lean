import Bfdriver.Theorems.Elementary
import Bfdriver.Theorems.FailedStop
import Bfdriver.Theorems.Files
import Bfdriver.Windows.Driver

/-! # Module buffers without a module

The ioctl layer frees the buffers of the modules in `ioctl_unload_vmm` only, the common code forgets the
modules at every reset. Here is when an entry point leaves a buffer behind that no module names. -/

namespace Bfdriver
open BlockHeap Relation Runs

/-! ### Buffers on the heap -/

/-- Every buffer of a module file that is live is one of `ps`. -/
def FilesIn (t : Trace) (ps : Pointers) : Prop := ∀ a b, heap t a = some b → b.site = .file → (a, b) ∈ ps

/-- No buffer of a module file is live that was not live before. -/
def NoNewFiles (t t' : Trace) : Prop := ∀ a b, heap t' a = some b → b.site = .file → heap t a = some b

theorem NoNewFiles.refl (t : Trace) : NoNewFiles t t := fun _ _ h _ => h

theorem NoNewFiles.trans {t t' t'' : Trace} (h₁ : NoNewFiles t t') (h₂ : NoNewFiles t' t'') : NoNewFiles t t'' :=
  fun a b h hb => h₁ a b (h₂ a b h hb) hb

theorem NoNewFiles.filesIn {t t' : Trace} {ps : Pointers} (h : NoNewFiles t t') (hf : FilesIn t ps) : FilesIn t' ps :=
  fun a b hb hs => hf a b (h a b hb hs) hs

theorem noNewFiles_of_heap {t t' : Trace} (h : heap t' = heap t) : NoNewFiles t t' := fun _ _ hb _ => h ▸ hb

theorem noNewFiles_alloc {t : Trace} {site : AllocSite} (hs : site ≠ .file) (len addr : UInt64) :
    NoNewFiles t (.alloc site len addr :: t) := by
  intro a b hb hsite
  by_cases ha : addr = 0
  · rwa [heap_of_none (by simp [memOp?, ha])] at hb
  · rw [heap_alloc ha, Function.update_apply] at hb
    split at hb
    · cases hb
      exact absurd hsite hs
    · exact hb

theorem noNewFiles_free {t : Trace} (kind : MemKind) (addr len : UInt64) : NoNewFiles t (.free kind addr len :: t) := by
  intro a b hb _
  rw [heap_free, Function.update_apply] at hb
  split at hb
  · cases hb
  · exact hb

theorem noNewFiles_grew {P : Event → Prop} {t t' : Trace} (g : EventLog.Grew P t t')
    (step : ∀ t e, P e → NoNewFiles t (e :: t)) : NoNewFiles t t' :=
  g.preserves (fun k e he before => before.trans (step k e he)) (.refl t)

/-- The common code allocates no buffers for module files. -/
theorem Passes.noNewFiles {E : Env} {s t : State} (h : Passes E s t) : NoNewFiles s.trace t.trace := by
  refine Passes.invariant (I := fun u => NoNewFiles s.trace u.trace) (fun u v step before => before.trans ?_) h (.refl _)
  cases step with
  | aside e he => exact noNewFiles_of_heap (heap_of_none (by cases e <;> trivial))
  | status v => exact .refl _
  | started n => exact .refl _
  | added file fsize => exact .refl _
  | stack =>
    have site : AllocSite.stack ≠ .file := by simp
    have allocated := noNewFiles_alloc (t := u.trace) site (E.sdk.stackSize * 2) (newStack E u)
    exact allocated.trans (noNewFiles_of_heap (setupStack_heap E u))
  | tls =>
    have counted : NoNewFiles u.trace (.numCpus (E.numCpus u.trace) :: u.trace) := noNewFiles_of_heap (heap_of_none rfl)
    have site : AllocSite.tls ≠ .file := by simp
    have allocated := noNewFiles_alloc (t := .numCpus (E.numCpus u.trace) :: u.trace) site (newTlsSize E u) (newTls E u)
    exact (counted.trans allocated).trans (noNewFiles_of_heap (setupTls_heap E u))
  | elf =>
    refine NoNewFiles.trans ?_ (noNewFiles_of_heap (bfelfLoad_heap E u))
    exact noNewFiles_grew (loadImages_grew E u _ _) fun t e he => by
      cases e with
      | alloc site len addr => cases site <;> first | exact False.elim he | exact noNewFiles_alloc (by simp) len addr
      | _ => exact he.elim
  | call req => exact noNewFiles_of_heap (callVmm_called E req u).heap
  | reset =>
    exact noNewFiles_grew (commonReset_grew E u) fun t e he => by
      cases e with
      | free kind addr len => exact noNewFiles_free kind addr len
      | _ => exact he.elim

/-! ### The buffers that the ioctl layer frees -/

theorem freePmodules_heap (kind : MemKind) (ps : List Pmodule) (s : State) (a : UInt64) :
    heap (freePmodules kind ps s).trace a = if a ∈ ps.map Pmodule.data then none else heap s.trace a := by
  induction ps generalizing s with
  | nil => simp [freePmodules]
  | cons p ps ih =>
    rw [freePmodules, ih]
    dsimp only [State.emit]
    rw [heap_free, Function.update_apply, List.map_cons]
    by_cases hp : a = p.data <;> by_cases hps : a ∈ ps.map Pmodule.data <;> simp [hp, hps]

/-- With all its buffers freed the driver leaves none. -/
theorem FilesIn.freePmodules {s : State} {ps : List Pmodule} (h : FilesIn s.trace (fileBlocks ps)) (kind : MemKind) :
    FilesIn (freePmodules kind ps s).trace [] := by
  intro a b hb hs
  rw [freePmodules_heap] at hb
  split at hb
  · cases hb
  · rename_i hfree
    obtain ⟨p, hp, hpa⟩ := List.mem_map.mp (h a b hb hs)
    exact absurd (List.mem_map.mpr ⟨p, hp, congrArg Prod.fst hpa⟩) hfree

/-! ### Both tables -/

/-- The driver holds every module buffer that is live. The tables are in step, or the driver holds no buffer while
    the modules of an earlier one are still loaded. -/
structure BufferInv (E : Env) (d : Driver) : Prop where
  memory : MemoryInv E (fileBlocks d.held) d.common
  covers : FilesIn d.common.trace (fileBlocks d.held)
  table : d.common.files = d.held.map (fun p => (p.data, p.size)) ∨
    d.numPmodules = 0 ∧ d.common.vmmStatus ≠ .unloaded
  length : d.pmodules.length = E.sdk.maxNumModules
  bound : d.numPmodules ≤ E.sdk.maxNumModules

namespace BufferInv
variable {E : Env} {d : Driver} {fuel : Nat} {t : State}

theorem initial (E : Env) : BufferInv E (.initial E.sdk (commonInit E (.initial E.sdk)).2) where
  memory := commonInit_memoryInv E
  covers := by
    have reset : Passes E (.initial E.sdk) (commonInit E (.initial E.sdk)).2 := .single .reset
    exact reset.noNewFiles.filesIn fun a b hb _ => absurd hb (by simp [heap, heapOf, State.initial])
  table := .inl (files_of_numModules (commonReset_numModules E _))
  length := List.length_replicate
  bound := Nat.zero_le _

/-- What keeps the files, the buffers and the status of an unloaded driver keeps the tables as they are. -/
theorem same (h : BufferInv E d) (memory : MemoryInv E (fileBlocks d.held) t) (buffers : NoNewFiles d.common.trace t.trace)
    (files : t.files = d.common.files) (active : d.common.vmmStatus ≠ .unloaded → t.vmmStatus ≠ .unloaded) :
    BufferInv E { d with common := t } where
  memory := memory
  covers := buffers.filesIn h.covers
  table := h.table.imp files.trans fun ⟨empty, loaded⟩ => ⟨empty, active loaded⟩
  length := h.length
  bound := h.bound

theorem kept (h : BufferInv E d) (hk : Kept d.common t) (active : d.common.vmmStatus ≠ .unloaded → t.vmmStatus ≠ .unloaded) :
    BufferInv E { d with common := t } :=
  h.same (h.memory.kept hk) (noNewFiles_of_heap hk.heap) hk.files active

theorem untouched (h : BufferInv E d) (hu : Untouched d.common t) : BufferInv E { d with common := t } := by
  refine h.same (h.memory.untouched hu) (noNewFiles_of_heap hu.heap) ?_ fun active => ?_
  · rw [hu.globals]
    rfl
  · rw [hu.globals]
    exact active

theorem vcpuid (h : BufferInv E d) (vcpuid : UInt64) : BufferInv E { d with vcpuid := vcpuid } :=
  ⟨h.memory, h.covers, h.table, h.length, h.bound⟩

/-- The tables are in step while nothing is loaded. -/
theorem fileInv (h : BufferInv E d) (unloaded : d.common.vmmStatus = .unloaded) : FileInv E d where
  memory := h.memory
  table := h.table.resolve_right fun ⟨_, loaded⟩ => loaded unloaded
  length := h.length

end BufferInv

/-! ### The handlers keep both tables -/

section Handlers
variable {E : Env} {d : Driver} {fuel : Nat}

/-- An unload empties the table of the driver, whether or not the common code forgets its modules. -/
theorem ioctlUnloadVmmWith_bufferInv (kind : MemKind) (memory : MemoryInv E (fileBlocks d.held) d.common)
    (covers : FilesIn d.common.trace (fileBlocks d.held)) : BufferInv E (ioctlUnloadVmmWith E kind d).2 where
  memory := ioctlUnloadVmmWith_memory kind memory
  covers := ((commonUnloadVmm_passes E d.common).noNewFiles.filesIn covers).freePmodules kind
  table := by
    by_cases unloaded : (commonUnloadVmm E d.common).2.vmmStatus = .unloaded
    · exact .inl (ioctlUnloadVmmWith_fileInv kind memory unloaded).table
    · refine .inr ⟨rfl, ?_⟩
      show (freePmodules kind d.held (commonUnloadVmm E d.common).2).vmmStatus ≠ .unloaded
      rw [freePmodules_globals]
      exact unloaded
  length := List.length_replicate
  bound := Nat.zero_le _

theorem ioctlLoadVmmWith_bufferInv (kind : MemKind) (h : BufferInv E d)
    (hret : (ioctlLoadVmmWith E kind fuel d).1.isSome) : BufferInv E (ioctlLoadVmmWith E kind fuel d).2 := by
  have memory := h.memory.effect (commonLoadVmm_effect E fuel d.common)
  have buffers := (commonLoadVmm_passes E d.common fuel).noNewFiles
  have loaded : (commonLoadVmm E fuel d.common).1 = some bfSuccess →
      BufferInv E { d with common := (commonLoadVmm E fuel d.common).2 } := fun ok => by
    rcases hst : d.common.vmmStatus with _ | _ | _ | _
    · have files := (commonLoadVmm_files E fuel (.inl hst)).resolve_right fun failed => failed.1 ok
      exact h.same memory buffers files.2 fun active => absurd hst active
    · rw [commonLoadVmm_of_loaded E fuel hst]
      exact h
    · simp [commonLoadVmm, hst, E.sdk.code_ne] at ok
    · simp [commonLoadVmm, hst, E.sdk.code_ne] at ok
  unfold ioctlLoadVmmWith at hret ⊢
  dsimp only at hret ⊢
  generalize commonLoadVmm E fuel d.common = r at memory buffers loaded hret ⊢
  rcases r with ⟨ret | ret, t⟩
  · cases hret
  · dsimp only at memory buffers loaded ⊢
    by_cases ok : ret = bfSuccess
    · rw [if_neg (not_not.mpr ok)]
      exact loaded (congrArg some ok)
    · rw [if_pos ok]
      exact ioctlUnloadVmmWith_bufferInv (d := { d with common := t }) kind memory (buffers.filesIn h.covers)

theorem ioctlStopVmm_bufferInv (h : BufferInv E d) : BufferInv E (ioctlStopVmm E d).2 := by
  refine h.kept (commonStopVmm_kept E d.common) fun active => ?_
  rcases commonStopVmm_status E d.common with same | ⟨-, stopped | stopped⟩
  · rwa [same]
  all_goals simp [stopped]

theorem ioctlStartVmm_bufferInv (h : BufferInv E d) : BufferInv E (ioctlStartVmm E d).2 := by
  have started : BufferInv E { d with common := (commonStartVmm E d.common).2 } := by
    refine h.kept (commonStartVmm_kept E d.common) fun active => ?_
    rcases commonStartVmm_status E d.common with same | ⟨-, started | started⟩
    · rwa [same]
    all_goals simp [started]
  unfold ioctlStartVmm
  dsimp only
  split
  · exact ioctlStopVmm_bufferInv started
  · exact started

theorem ioctlDumpVmmWith_bufferInv {copy : UInt64 → State → Int × State} (hcopy : ∀ a s, Untouched s (copy a s).2)
    (h : BufferInv E d) : BufferInv E (ioctlDumpVmmWith E copy d).2 := by
  have dumped : BufferInv E { d with common := (commonDumpVmm E E.drrAddr d.vcpuid d.common).2 } := by
    refine h.kept (commonDumpVmm_kept E d.common E.drrAddr d.vcpuid) fun active => ?_
    rcases commonDumpVmm_cases E E.drrAddr d.vcpuid d.common with same | ⟨-, called⟩
    · rwa [same]
    · rw [called, (callVmm_called E _ d.common).status]
      exact active
  unfold ioctlDumpVmmWith
  dsimp only
  split
  · exact dumped
  · exact dumped.untouched (hcopy _ _)

theorem ioctlAddModuleWith_bufferInv {copy : UInt64 → State → Int × State} (hcopy : ∀ a s, Untouched s (copy a s).2)
    (len : UInt64) (h : BufferInv E d) : BufferInv E (ioctlAddModuleWith E copy len d).2 := by
  have run := ioctlAddModuleWith_run (E := E) hcopy len d
  generalize ioctlAddModuleWith E copy len d = r at run
  cases run with
  | failed untouched => exact h.untouched untouched
  | @added t buf allocated nonnull _ copied unloaded room slot =>
    have inv := (h.fileInv unloaded).added allocated nonnull copied room slot
    refine ⟨inv.memory, fun a b hb hs => ?_, .inl inv.table, inv.length, room⟩
    have grown : heap t.trace = Function.update (heap d.common.trace) buf (some ⟨.file, len⟩) :=
      copied.heap.trans (heap_alloc nonnull)
    have held := d.held_added (h.length ▸ room) ⟨buf, len⟩
    show (a, b) ∈ fileBlocks (List.take _ _)
    rw [held, fileBlocks, List.map_append]
    have hb : heap t.trace a = some b := hb
    rw [grown, Function.update_apply] at hb
    split at hb
    · rename_i here
      cases hb
      exact List.mem_append_right _ (by simp [here])
    · exact List.mem_append_left _ (h.covers a b hb hs)

theorem BufferInv.handlers (h : BufferInv E d) (kind : MemKind) :
    HandlersKeep E fuel kind True True (BufferInv E) d where
  untouched _ := h.untouched
  vcpuid _ vcpuid hu := (h.untouched hu).vcpuid vcpuid
  addModule _ len hcopy := ioctlAddModuleWith_bufferInv hcopy len h
  loadVmm _ := ioctlLoadVmmWith_bufferInv kind h
  unloadVmm _ := ioctlUnloadVmmWith_bufferInv kind h.memory h.covers
  startVmm := ioctlStartVmm_bufferInv h
  stopVmm := ioctlStopVmm_bufferInv h
  dumpVmm _ hcopy := ioctlDumpVmmWith_bufferInv hcopy h

/-- A finalisation that does not reset the common code, or finds no buffer to lose, keeps both tables. -/
theorem commonFini_bufferInv (h : BufferInv E d)
    (allowed : d.numPmodules = 0 ∨ Refuses E (finiStop E d.common) ∨ (finiStop E d.common).vmmStatus = .running) :
    BufferInv E { d with common := (commonFini E d.common).2 } := by
  have memory := h.memory.effect (commonFini_effect E 0 .fini d.common)
  have buffers := (commonFini_passes E d.common).noNewFiles
  have run := commonFini_run E d.common
  generalize commonFini E d.common = r at memory buffers run ⊢
  cases run with
  | @reset u settles =>
    have empty : d.numPmodules = 0 := allowed.resolve_right fun still => still.elim settles.1 settles.2
    have held : d.held = [] := by simp [Driver.held, empty]
    refine ⟨memory, buffers.filesIn h.covers, .inl ?_, h.length, h.bound⟩
    show (commonReset E u).2.files = d.held.map _
    rw [held]
    exact files_of_numModules (commonReset_numModules E u)
  | idle => exact h
  | refused _ kept _ still => exact h.kept kept fun _ => still
  | running _ kept _ still => exact h.kept kept fun _ => still

end Handlers

/-! ### No buffer without a module -/

/-- Every live buffer of a module file is the file of an added module. -/
def NoOrphans (s : State) : Prop := ∀ a b, heap s.trace a = some b → b.site = .file → ∃ m ∈ s.added, m.file = a

/-- No buffer of a module file is left. -/
def NoFiles (s : State) : Prop := ∀ a b, heap s.trace a = some b → b.site ≠ .file

/-- Every buffer has its module, and the table of the driver is full only if that of the common code is. -/
structure Tidy (k : Sdk) (d : Driver) : Prop where
  named : NoOrphans d.common
  full : d.numPmodules ≥ k.maxNumModules → d.common.numModules = k.maxNumModules

/-- A finalisation is reported to fail: the VMM is corrupt, or does not accept `BF_REQUEST_FINI`, or becomes corrupt since
    it cannot be stopped on some CPU. -/
def FiniFails (E : Env) (s : State) : Prop :=
  s.vmmStatus = .corrupt ∨ s.vmmStatus = .loaded ∧ (callVmm E .fini s).1 ≠ bfSuccess ∨
    s.vmmStatus = .running ∧ StopsAccepted E s.numCpusStarted.toNat s ∧
      (StopsGranted E s.numCpusStarted.toNat s → (callVmm E .fini (commonStopVmm E s).2).1 ≠ bfSuccess)

/-- A reboot, a power-down or an unload of the driver does not reset the common code: the finalisation fails, or the VMM
    refuses a `VMCALL_STOP` and goes on running. -/
def StaysUp (E : Env) (s : State) : Prop :=
  FiniFails E s ∨ s.vmmStatus = .running ∧ ¬StopsAccepted E s.numCpusStarted.toNat s

instance (E : Env) (s : State) : Decidable (FiniFails E s) :=
  inferInstanceAs (Decidable (_ ∨ _ ∧ _ ∨ _ ∧ _ ∧ (_ → _)))

instance (E : Env) (s : State) : Decidable (StaysUp E s) := inferInstanceAs (Decidable (_ ∨ _ ∧ _))

section Answers
variable {E : Env} {s : State}

/-- What the answers say of the state that the first step of a finalisation leaves. -/
theorem finiStop_answers (E : Env) (s : State) : (Refuses E (finiStop E s) ↔ FiniFails E s) ∧
    ((finiStop E s).vmmStatus = .running ↔ s.vmmStatus = .running ∧ ¬StopsAccepted E s.numCpusStarted.toNat s) := by
  unfold finiStop FiniFails
  rcases hst : s.vmmStatus with _ | _ | _ | _
  · simp [Refuses, hst]
  · simp [Refuses, hst]
  · have accepted := stopsAccepted_iff (E := E) s.numCpusStarted.toNat s
    have granted := stopsGranted_iff (E := E) s.numCpusStarted.toNat s
    have status := stopLoop_status E s.numCpusStarted.toNat s
    have stop := commonStopVmm_of_running E hst
    rw [if_pos rfl]
    revert accepted granted status stop
    rcases stopLoop E s.numCpusStarted.toNat s with ⟨x, t⟩
    intro accepted granted status stop
    cases x with
    | next =>
      have loaded : (commonStopVmm E s).2.vmmStatus = .loaded := congrArg (fun r => r.2.vmmStatus) stop
      simp [Refuses, loaded, accepted, granted]
    | fail ret =>
      have corrupt : (commonStopVmm E s).2.vmmStatus = .corrupt := congrArg (fun r => r.2.vmmStatus) stop
      simp [Refuses, corrupt, accepted, granted]
    | ret ret =>
      have running : (commonStopVmm E s).2.vmmStatus = .running :=
        (congrArg (fun r => r.2.vmmStatus) stop).trans (status.trans hst)
      simp [Refuses, running, accepted]
  · simp [Refuses, hst]

theorem finiFails_iff : FiniFails E s ↔ Refuses E (finiStop E s) := (finiStop_answers E s).1.symm

theorem staysUp_iff : StaysUp E s ↔ Refuses E (finiStop E s) ∨ (finiStop E s).vmmStatus = .running :=
  or_congr finiFails_iff (finiStop_answers E s).2.symm

end Answers

section Tidy
variable {E : Env} {d : Driver}

theorem BufferInv.noFiles (h : BufferInv E d) (empty : d.numPmodules = 0) : NoFiles d.common := by
  intro a b hb hs
  have named := h.covers a b hb hs
  simp [fileBlocks, Driver.held, empty] at named

theorem BufferInv.tidy (h : BufferInv E d) : Tidy E.sdk d where
  named a b hb hs := by
    rcases h.table with table | ⟨empty, -⟩
    · obtain ⟨p, hp, hpa⟩ := List.mem_map.mp (h.covers a b hb hs)
      have named : (p.data, p.size) ∈ d.common.files := table ▸ List.mem_map.mpr ⟨p, hp, rfl⟩
      obtain ⟨m, hm, hmp⟩ := List.mem_map.mp named
      exact ⟨m, hm, (congrArg Prod.fst hmp).trans (congrArg Prod.fst hpa)⟩
    · exact absurd hs (h.noFiles empty a b hb)
  full hfull := by
    have le := h.memory.slots.le
    rcases h.table with table | ⟨empty, -⟩
    · have lengths := congrArg List.length table
      have slots := h.memory.slots.length
      have bound := h.bound
      have length := h.length
      simp only [State.files, State.added, Driver.held, List.length_map, List.length_take] at lengths
      omega
    · omega

/-- The buffers that a driver holds are live after a finalisation, whatever becomes of the modules. -/
theorem BufferInv.live_of_fini (h : BufferInv E d) (some : d.numPmodules ≠ 0) : ¬NoFiles (commonFini E d.common).2 := by
  have memory := h.memory.effect (commonFini_effect E 0 .fini d.common)
  obtain ⟨p, hp⟩ : ∃ p, p ∈ d.held := by
    refine List.exists_mem_of_length_pos ?_
    have bound := h.bound
    rw [Driver.held, List.length_take, h.length]
    omega
  have live := memory.owned.live (p.data, ⟨.file, p.size⟩) (List.mem_append_right _ (List.mem_map.mpr ⟨p, hp, rfl⟩))
  exact fun none => none _ _ live rfl

/-- A finalisation that is allowed to empty the table of the common code keeps both tables. -/
theorem BufferInv.fini (h : BufferInv E d) (allowed : d.numPmodules = 0 ∨ StaysUp E d.common) :
    BufferInv E { d with common := (commonFini E d.common).2 } :=
  commonFini_bufferInv h (allowed.imp_right staysUp_iff.mp)

theorem commonFini_numModules_of_settles (h : ¬StaysUp E d.common) : (commonFini E d.common).2.numModules = 0 := by
  have run := commonFini_run E d.common
  generalize commonFini E d.common = r at run
  cases run with
  | @reset u => exact commonReset_numModules E u
  | idle _ empty => exact empty
  | refused refuses => exact absurd (staysUp_iff.mpr (.inl refuses)) h
  | running running => exact absurd (staysUp_iff.mpr (.inr running)) h

/-- A finalisation that empties the table of the common code leaves orphans exactly if the driver holds buffers. -/
theorem BufferInv.noOrphans_fini_iff (h : BufferInv E d) :
    NoOrphans (commonFini E d.common).2 ↔ d.numPmodules = 0 ∨ StaysUp E d.common := by
  refine ⟨fun named => ?_, fun allowed => (h.fini allowed).tidy.named⟩
  by_contra hne
  obtain ⟨some, settles⟩ := not_or.mp hne
  have empty := commonFini_numModules_of_settles settles
  refine h.live_of_fini some fun a b hb hs => ?_
  obtain ⟨m, hm, -⟩ := named a b hb hs
  simp [State.added, empty] at hm

theorem BufferInv.tidy_fini_iff (h : BufferInv E d) :
    Tidy E.sdk { d with common := (commonFini E d.common).2 } ↔ d.numPmodules = 0 ∨ StaysUp E d.common :=
  ⟨fun tidy => h.noOrphans_fini_iff.mp tidy.named, fun allowed => (h.fini allowed).tidy⟩

theorem commonFini_of_refuses {s : State} (h : Refuses E (finiStop E s)) : (commonFini E s).1 ≠ bfSuccess := by
  have run := commonFini_run E s
  generalize commonFini E s = r at run
  cases run with
  | reset settles => exact absurd h settles.1
  | idle unloaded =>
    rw [finiStop, if_neg (by simp [unloaded])] at h
    simp [Refuses, unloaded] at h
  | refused => exact E.sdk.code_ne _
  | running running => simp [Refuses, running] at h

/-- With success reported no buffer is left exactly if the driver held none. -/
theorem BufferInv.noFiles_fini_iff (h : BufferInv E d) (allowed : d.numPmodules = 0 ∨ StaysUp E d.common) :
    ((commonFini E d.common).1 = bfSuccess → NoFiles (commonFini E d.common).2) ↔
      d.numPmodules = 0 ∨ FiniFails E d.common := by
  constructor
  · intro none
    by_contra hne
    obtain ⟨some, accepts⟩ := not_or.mp hne
    have run := commonFini_run E d.common
    have live := h.live_of_fini some
    generalize commonFini E d.common = r at run none live
    cases run with
    | refused refuses => exact accepts (finiFails_iff.mpr refuses)
    | _ => exact live (none rfl)
  · rintro (empty | refuses) ok
    · exact (h.fini allowed).noFiles empty
    · exact absurd ok (commonFini_of_refuses (finiFails_iff.mp refuses))

end Tidy

/-! ### The Linux driver -/

namespace Linux
variable {E : Env} {d : Device} {fuel : Nat}

/-- The driver holds no buffers, or the common code stays up; an exit that reports success has to free them. -/
def KeepsBuffers (E : Env) (d : Device) : EntryPoint → Prop
  | .ioctl .. => True
  | .reboot => d.numPmodules = 0 ∨ StaysUp E d.common
  | .exit => d.numPmodules = 0 ∨ FiniFails E d.common

instance (d : Device) : (p : EntryPoint) → Decidable (KeepsBuffers E d p)
  | .ioctl .. => inferInstanceAs (Decidable True)
  | .reboot | .exit => inferInstanceAs (Decidable (_ ∨ _))

/-- What an entry point leaves is tidy, and no buffer is left by an exit after a finalisation that succeeded. -/
def LeavesTidy (E : Env) (fuel : Nat) (p : EntryPoint) (d : Device) : Prop :=
  Tidy E.sdk (enter E fuel p d).2.toDriver ∧
    (p = .exit → (commonFini E d.common).1 = bfSuccess → NoFiles (enter E fuel p d).2.common)

theorem devUnlockedIoctl_bufferInv {cmd : Cmd} (arg : UInt64) (h : BufferInv E d.toDriver)
    (returned : (devUnlockedIoctl E fuel cmd arg d).1.isSome) :
    BufferInv E (devUnlockedIoctl E fuel cmd arg d).2.toDriver :=
  devUnlockedIoctl_keeps (h.handlers .rw) (fun _ => trivial) (fun _ => trivial) returned

theorem enter_bufferInv (p : EntryPoint) (h : BufferInv E d.toDriver) (allowed : KeepsBuffers E d p)
    (returned : (enter E fuel p d).1.isSome) : BufferInv E (enter E fuel p d).2.toDriver := by
  cases p with
  | ioctl cmd arg => exact devUnlockedIoctl_bufferInv arg h returned
  | reboot => exact h.fini allowed
  | exit => exact h.fini (allowed.imp_right .inl)

theorem leavesTidy_iff (p : EntryPoint) (h : BufferInv E d.toDriver) (returned : (enter E fuel p d).1.isSome) :
    LeavesTidy E fuel p d ↔ KeepsBuffers E d p := by
  cases p with
  | ioctl cmd arg => exact iff_of_true ⟨(devUnlockedIoctl_bufferInv arg h returned).tidy, nofun⟩ trivial
  | reboot => exact ⟨fun tidy => h.tidy_fini_iff.mp tidy.1, fun allowed => ⟨h.tidy_fini_iff.mpr allowed, nofun⟩⟩
  | exit =>
    constructor
    · intro tidy
      exact (h.noFiles_fini_iff (h.tidy_fini_iff.mp tidy.1)).mp (tidy.2 rfl)
    · intro allowed
      have stays : d.numPmodules = 0 ∨ StaysUp E d.common := allowed.imp_right .inl
      exact ⟨h.tidy_fini_iff.mpr stays, fun _ => (h.noFiles_fini_iff stays).mpr allowed⟩

/-- The states between the calls of the kernel in a run whose calls all keep the buffers. -/
abbrev KeptBy (E : Env) : Device → Prop :=
  ReachesBy (fun (i : Nat × EntryPoint) => enter E i.1 i.2) (fun d i => KeepsBuffers E d i.2) (devInit E)

theorem KeptBy.bufferInv (h : KeptBy E d) : BufferInv E d.toDriver :=
  h.invariant (.initial E) fun _ i allowed returned inv => enter_bufferInv i.2 inv allowed returned

end Linux

/-! ### The Windows driver -/

namespace Windows
variable {E : Env} {d : Driver} {fuel : Nat}

/-- The driver holds no buffers, or the common code stays up. -/
def KeepsBuffers (E : Env) (d : Driver) : EntryPoint → Prop
  | .deviceControl _ => True
  | .d0Exit | .contextCleanup => d.numPmodules = 0 ∨ StaysUp E d.common

instance (d : Driver) : (p : EntryPoint) → Decidable (KeepsBuffers E d p)
  | .deviceControl _ => inferInstanceAs (Decidable True)
  | .d0Exit | .contextCleanup => inferInstanceAs (Decidable (_ ∨ _))

theorem bareflankEvtIoDeviceControl_bufferInv (q : DeviceControl) (h : BufferInv E d)
    (returned : (bareflankEvtIoDeviceControl E fuel q d).1.isSome) :
    BufferInv E (bareflankEvtIoDeviceControl E fuel q d).2 :=
  bareflankEvtIoDeviceControl_keeps (h.handlers .rwe) (fun _ => trivial) (fun _ => trivial) returned

theorem enter_bufferInv (p : EntryPoint) (h : BufferInv E d) (allowed : KeepsBuffers E d p)
    (returned : (enter E fuel p d).1.isSome) : BufferInv E (enter E fuel p d).2 := by
  cases p with
  | deviceControl q => exact bareflankEvtIoDeviceControl_bufferInv q h returned
  | d0Exit => exact h.fini allowed
  | contextCleanup => exact h.fini allowed

theorem tidy_iff (p : EntryPoint) (h : BufferInv E d) (returned : (enter E fuel p d).1.isSome) :
    Tidy E.sdk (enter E fuel p d).2 ↔ KeepsBuffers E d p := by
  cases p with
  | deviceControl q => exact iff_of_true (bareflankEvtIoDeviceControl_bufferInv q h returned).tidy trivial
  | d0Exit => exact h.tidy_fini_iff
  | contextCleanup => exact h.tidy_fini_iff

/-- The states between the calls of the framework in a run whose calls all keep the buffers. -/
abbrev KeptBy (E : Env) : Driver → Prop :=
  ReachesBy (fun (i : Nat × EntryPoint) => enter E i.1 i.2) (fun d i => KeepsBuffers E d i.2)
    (bareflankQueueInitialize E)

theorem KeptBy.bufferInv (h : KeptBy E d) : BufferInv E d :=
  h.invariant (.initial E) fun _ i allowed returned inv => enter_bufferInv i.2 inv allowed returned

end Windows

/-! ### Both drivers -/

/-- In a run whose calls keep the buffers, a call leaves the driver tidy exactly if it keeps the buffers as well. -/
theorem tidy_iff_keepsBuffers (E : Env) :
    (∀ d, Linux.KeptBy E d → ∀ fuel p, (Linux.enter E fuel p d).1.isSome →
      (Linux.LeavesTidy E fuel p d ↔ Linux.KeepsBuffers E d p)) ∧
      ∀ d, Windows.KeptBy E d → ∀ fuel p, (Windows.enter E fuel p d).1.isSome →
        (Tidy E.sdk (Windows.enter E fuel p d).2 ↔ Windows.KeepsBuffers E d p) :=
  ⟨fun _ h _ p returned => Linux.leavesTidy_iff p h.bufferInv returned,
    fun _ h _ p returned => Windows.tidy_iff p h.bufferInv returned⟩

/-- The calls that add and load a module and unload it again. -/
def Linux.unloadCalls : List (Nat × Linux.EntryPoint) :=
  [(8, .ioctl .addModuleLength 0x6000), (8, .ioctl .addModule 0x5000), (8, .ioctl .loadVmm 0), (8, .ioctl .unloadVmm 0)]

def Windows.unloadCalls : List (Nat × Windows.EntryPoint) :=
  [(8, .deviceControl (.exact .addModule (List.replicate 16 0) 0)), (8, .deviceControl (.exact .loadVmm [] 0)),
    (8, .deviceControl (.exact .unloadVmm [] 0))]

theorem tidy_after_unload :
    (let E := testEnv { userWord := 16 }
     Linux.LeavesTidy E 8 .exit (runFrom (fun i => Linux.enter E i.1 i.2) Linux.unloadCalls (Linux.devInit E))) ∧
      let E := testEnv {}
      Tidy testSdk (Windows.enter E 8 .contextCleanup
        (runFrom (fun i => Windows.enter E i.1 i.2) Windows.unloadCalls (Windows.bareflankQueueInitialize E))).2 :=
  ⟨((tidy_iff_keepsBuffers (testEnv { userWord := 16 })).1 _ (Completes.reaches (by decide +kernel)) 8 .exit rfl).mpr
      (by decide +kernel),
    ((tidy_iff_keepsBuffers (testEnv {})).2 _ (Completes.reaches (by decide +kernel)) 8 .contextCleanup rfl).mpr
      (by decide +kernel)⟩

/-- A reboot or a power-down after a module was added resets the common code and leaves the buffer behind. -/
theorem not_noOrphans_of_reset :
    (¬∀ (E : Env) (d : Linux.Device), ReachesBy (fun (i : Nat × Linux.EntryPoint) => Linux.enter E i.1 i.2)
      (fun _ _ => True) (Linux.devInit E) d → NoOrphans d.common) ∧
      ¬∀ (E : Env) (d : Driver), ReachesBy (fun (i : Nat × Windows.EntryPoint) => Windows.enter E i.1 i.2)
        (fun _ _ => True) (Windows.bareflankQueueInitialize E) d → NoOrphans d.common := by
  constructor
  · intro all
    let E := testEnv { userWord := 16 }
    let calls : List (Nat × Linux.EntryPoint) :=
      [(8, .ioctl .addModuleLength 0x6000), (8, .ioctl .addModule 0x5000), (8, .reboot)]
    have named := all E (runFrom (fun i => Linux.enter E i.1 i.2) calls (Linux.devInit E))
      (Completes.reaches (by decide +kernel))
    have forgotten := named 0x200000 ⟨.file, 16⟩ (by decide +kernel) rfl
    exact absurd forgotten (by decide +kernel)
  · intro all
    let E := testEnv {}
    let calls : List (Nat × Windows.EntryPoint) :=
      [(8, .deviceControl (.exact .addModule (List.replicate 16 0) 0)), (8, .d0Exit)]
    have named := all E (runFrom (fun i => Windows.enter E i.1 i.2) calls (Windows.bareflankQueueInitialize E))
      (Completes.reaches (by decide +kernel))
    have forgotten := named 0x100000 ⟨.file, 16⟩ (by decide +kernel) rfl
    exact absurd forgotten (by decide +kernel)

end Bfdriver
