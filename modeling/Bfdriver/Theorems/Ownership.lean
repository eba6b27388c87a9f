import Bfdriver.Theorems.Setup

/-! # Who owns the memory

The pointers of the state are distinct and each names a live allocation of the recorded kind and size.
The invariant carries a frame: pointers of the code around the common layer, which no operation
touches. -/

namespace Bfdriver
open EventLog BlockHeap

/-! ### The heap of one more event -/

section Heap
variable {t : Trace} {ps : Pointers} {e : Event} {site : AllocSite} {kind : MemKind} {a len : UInt64} {b : Block}

theorem heap_of_none (h : memOp? e = none) : heap (e :: t) = heap t := by
  simp [heap, h]

theorem heap_alloc (h : a ≠ 0) :
    heap (.alloc site len a :: t) = Function.update (heap t) a (some ⟨site, len⟩) := by
  simp [heap, memOp?, h]

theorem heap_free : heap (.free kind a len :: t) = Function.update (heap t) a none := rfl

/-- What an allocation returns is owned, if anything. -/
theorem owned_alloc (site : AllocSite) (len : UInt64) (h : Owned (heap t) ps) (fresh : a ≠ 0 → heap t a = none) :
    Owned (heap (.alloc site len a :: t)) (pointerAt site a len ++ ps) := by
  unfold pointerAt
  by_cases ha : a = 0
  · rw [heap_of_none (by simp [memOp?, ha]), if_neg (by simpa using ha)]
    exact h
  · rw [heap_alloc ha, if_pos ha]
    exact h.alloc (fresh ha)

theorem covers_alloc (site : AllocSite) (len : UInt64) (h : Covers (heap t) ps) :
    Covers (heap (.alloc site len a :: t)) (pointerAt site a len ++ ps) := by
  unfold pointerAt
  by_cases ha : a = 0
  · rw [heap_of_none (by simp [memOp?, ha]), if_neg (by simpa using ha)]
    exact h
  · rw [heap_alloc ha, if_pos ha]
    exact h.alloc

/-- Releasing owned pointers leaves the others owned. -/
theorem owned_releases (ps qs : Pointers) (t : Trace) (h : Owned (heap t) (ps ++ qs)) :
    Owned (heap (releases ps t)) qs := by
  induction ps generalizing t with
  | nil => exact h
  | cons p ps ih => exact ih _ h.free

theorem covers_releases (ps qs : Pointers) (t : Trace) (h : Covers (heap t) (ps ++ qs)) :
    Covers (heap (releases ps t)) qs := by
  induction ps generalizing t with
  | nil => exact h
  | cons p ps ih => exact ih _ (h.free (b := p.2))

end Heap

/-! ### The ELF loader -/

section Loader
variable (E : Env) (s : State)

theorem loadImages_owned (ms : List Binary) (images : List (Option Image)) (rest : Pointers)
    (h : Owned (heap s.trace) (execPointers ms ++ rest)) :
    Owned (heap (loadImages E ms images s).2.trace) (execPointers (loadImages E ms images s).1 ++ rest) := by
  induction ms, images, s using loadImages.induct E generalizing rest with
  | case1 m ms image images s exec t ih =>
    rw [execPointers_cons, List.append_assoc] at h
    have others : Owned (heap s.trace) (execPointers ms ++ rest) := h.sublist (List.sublist_append_right ..)
    have fresh := owned_alloc .exec image.size others (E.alloc_fresh s.trace .rwe image.size)
    rw [loadImages, execPointers_cons, List.append_assoc]
    exact (ih _ (fresh.perm (List.perm_append_comm_assoc ..))).perm (List.perm_append_comm_assoc ..)
  | case2 m ms images s ih =>
    rw [execPointers_cons, List.append_assoc] at h
    rw [loadImages, execPointers_cons, List.append_assoc]
    exact (ih _ (h.perm (List.perm_append_comm_assoc ..))).perm (List.perm_append_comm_assoc ..)
  | case3 => rw [loadImages] <;> assumption

theorem loadImages_covers (ms : List Binary) (images : List (Option Image)) (rest : Pointers)
    (hz : ∀ m ∈ ms, m.exec = 0) (h : Covers (heap s.trace) rest) :
    Covers (heap (loadImages E ms images s).2.trace) (execPointers (loadImages E ms images s).1 ++ rest) := by
  induction ms, images, s using loadImages.induct E generalizing rest with
  | case1 m ms image images s exec t ih =>
    have fresh := covers_alloc .exec image.size (a := exec) h
    rw [loadImages, execPointers_cons, List.append_assoc]
    exact (ih _ (fun x hx => hz x (List.mem_cons_of_mem m hx)) fresh).perm (List.perm_append_comm_assoc ..)
  | case2 m ms images s ih =>
    rw [loadImages, execPointers_cons, hz m List.mem_cons_self]
    exact ih rest (fun x hx => hz x (List.mem_cons_of_mem m hx)) h
  | case3 => rw [loadImages, execPointers_eq_nil.mpr hz] <;> assumption

end Loader


/-! ### The invariant -/

/-- The slots of the module table behind the added modules are as `common_reset` left them. -/
structure Slots (k : Sdk) (s : State) : Prop where
  length : s.modules.length = k.maxNumModules
  le : s.numModules ≤ k.maxNumModules
  unused : ∀ m ∈ s.modules.drop s.numModules, m = {}

/-- The pointers of the state and those of its frame are distinct and name live allocations of the
    recorded sizes. -/
structure MemoryInv (E : Env) (outer : Pointers) (s : State) : Prop where
  slots : Slots E.sdk s
  owned : Owned (heap s.trace) (s.pointers ++ outer)

theorem Slots.congr {k : Sdk} {s t : State} (h : Slots k s) (hm : t.modules = s.modules)
    (hn : t.numModules = s.numModules) : Slots k t where
  length := hm ▸ h.length
  le := hn ▸ h.le
  unused := by
    rw [hm, hn]
    exact h.unused

theorem withModule_slots {k : Sdk} {s : State} (h : Slots k s) (room : s.numModules < k.maxNumModules)
    (file fsize : UInt64) : Slots k (s.withModule file fsize) where
  length := by
    rw [← h.length]
    exact List.length_set
  le := room
  unused := fun m hm => by
    have behind : m ∈ s.modules.drop (s.numModules + 1) := by
      simpa [State.withModule, List.drop_set] using hm
    refine h.unused m ?_
    rw [List.drop_eq_getElem_cons (h.length ▸ room)]
    exact List.mem_cons_of_mem _ behind

/-- The slot of a module that is added holds nothing but its file. -/
theorem withModule_modules {k : Sdk} {s : State} (h : Slots k s) (room : s.numModules < k.maxNumModules)
    (file fsize : UInt64) :
    (s.withModule file fsize).modules = s.modules.set s.numModules { file := file, fileSize := fsize } := by
  have inside : s.numModules < s.modules.length := h.length ▸ room
  have empty : s.modules.getD s.numModules {} = {} := by
    rw [List.getD_eq_getElem?_getD, List.getElem?_eq_getElem inside]
    refine h.unused _ ?_
    rw [Option.getD_some]
    rw [List.drop_eq_getElem_cons inside]
    exact List.mem_cons_self
  unfold State.withModule
  rw [empty]

/-- The module that was added last has the file it was added with and no memory yet. -/
theorem withModule_added {k : Sdk} {s : State} (h : Slots k s) (room : s.numModules < k.maxNumModules)
    (file fsize : UInt64) :
    (s.withModule file fsize).added = s.added ++ [{ file := file, fileSize := fsize }] := by
  have inside : s.numModules < s.modules.length := h.length ▸ room
  unfold State.added
  rw [withModule_modules h room]
  show (s.modules.set s.numModules _).take (s.numModules + 1) = _
  rw [List.take_add_one, List.take_set_of_le (Nat.le_refl _), List.getElem?_set_self inside]
  rfl

theorem withModule_pointers {k : Sdk} {s : State} (h : Slots k s) (room : s.numModules < k.maxNumModules)
    (file fsize : UInt64) : (s.withModule file fsize).pointers = s.pointers := by
  have execs : execPointers (s.withModule file fsize).added = execPointers s.added := by
    rw [withModule_added h room]
    simp [execPointers]
  unfold State.pointers
  rw [execs]
  rfl

theorem commonReset_pointers (E : Env) (s : State) : (commonReset E s).2.pointers = [] := by
  rw [commonReset_eq]
  simp [State.pointers, State.initial, State.added, execPointers, pointerAt]

theorem commonReset_slots (E : Env) (s : State) : Slots E.sdk (commonReset E s).2 := by
  rw [commonReset_eq]
  refine ⟨List.length_replicate, Nat.zero_le _, fun m hm => ?_⟩
  exact List.eq_of_mem_replicate hm

namespace MemoryInv
variable {E : Env} {outer : Pointers} {s t : State}

theorem kept (h : MemoryInv E outer s) (k : Kept s t) : MemoryInv E outer t where
  slots := h.slots.congr k.modules k.numModules
  owned := by
    rw [k.heap, k.pointers]
    exact h.owned

/-- Resetting releases the pointers of the state and leaves those of the frame. -/
theorem reset (h : MemoryInv E outer s) : MemoryInv E outer (commonReset E s).2 where
  slots := commonReset_slots E s
  owned := by
    rw [commonReset_pointers, commonReset_eq]
    exact owned_releases s.pointers outer s.trace h.owned

theorem stack (h : MemoryInv E outer s) : MemoryInv E outer (setupStack E s).2 where
  slots := h.slots.congr (setupStack_modules E s).1 (setupStack_modules E s).2
  owned := by
    have others : Owned (heap s.trace) (execPointers s.added ++ (pointerAt .tls s.tls s.tlsSize ++ outer)) := by
      refine h.owned.sublist ?_
      unfold State.pointers
      rw [List.append_assoc, List.append_assoc]
      exact ((List.sublist_append_right ..).append_left _).append_left _
    have fresh := owned_alloc .stack (E.sdk.stackSize * 2) others
      (E.alloc_fresh s.trace .rw (E.sdk.stackSize * 2))
    rw [setupStack_heap, setupStack_pointers, List.append_assoc, List.append_assoc]
    exact fresh.perm ((List.perm_append_comm_assoc ..).trans
      ((List.perm_append_comm_assoc ..).append_left _))

theorem tls (h : MemoryInv E outer s) : MemoryInv E outer (setupTls E s).2 where
  slots := h.slots.congr (setupTls_modules E s).1 (setupTls_modules E s).2
  owned := by
    have others : Owned (heap s.trace) (execPointers s.added ++ (pointerAt .stack s.stack s.stackSize ++ outer)) := by
      refine h.owned.sublist ?_
      unfold State.pointers
      rw [List.append_assoc, List.append_assoc]
      exact (List.sublist_append_right ..).append_left _
    have fresh := owned_alloc (t := .numCpus (E.numCpus s.trace) :: s.trace) .tls
      (newTlsSize E s) others (E.alloc_fresh _ .rw (newTlsSize E s))
    rw [setupTls_heap, setupTls_pointers, List.append_assoc, List.append_assoc]
    exact fresh.perm (List.perm_append_comm_assoc ..)

theorem elf (h : MemoryInv E outer s) : MemoryInv E outer (bfelfLoad E s).2 where
  slots := by
    have length := loadImages_length E s s.added (E.bfelfLoad s.trace s.added).images
    have counted : s.added.length = s.numModules := by
      have := h.slots.length
      have := h.slots.le
      simp only [State.added, List.length_take]
      omega
    unfold bfelfLoad
    dsimp only [State.emit]
    rw [loadImages_frame]
    refine ⟨?_, h.slots.le, ?_⟩
    · have := h.slots.length
      have := h.slots.le
      simp only [List.length_append, List.length_drop, length, counted]
      omega
    · rw [List.drop_left' (length.trans counted)]
      exact h.slots.unused
  owned := by
    have h' := h.owned
    unfold State.pointers at h'
    rw [List.append_assoc] at h'
    rw [bfelfLoad_pointers, bfelfLoad_heap, List.append_assoc]
    exact loadImages_owned E s s.added _ _ h'

theorem added (h : MemoryInv E outer s) (room : s.numModules < E.sdk.maxNumModules) (file fsize : UInt64) :
    MemoryInv E outer (s.withModule file fsize) where
  slots := withModule_slots h.slots room file fsize
  owned := by
    rw [withModule_pointers h.slots room]
    exact h.owned

theorem effect {fuel : Nat} {op : Op} (h : MemoryInv E outer s) (e : Effect E fuel op s t) : MemoryInv E outer t := by
  cases e with
  | kept kept => exact h.kept kept
  | added file fsize unloaded room => exact h.added room file fsize
  | reset kept => exact (h.kept kept).reset
  | load isLoad unloaded some run =>
    exact run.of_stages h.stack h.stack.tls h.stack.tls.elf (fun _ _ hu hk => hu.kept hk) fun _ hu => hu.reset

end MemoryInv

/-! ### States without memory -/

/-- A state without a stack names no memory at all, and one without modules has no stack. -/
structure Settled (s : State) : Prop where
  empty : s.stack = 0 → s.pointers = []
  idle : s.numModules = 0 → s.stack = 0

namespace Settled
variable {E : Env} {fuel : Nat} {op : Op} {s t : State}

theorem reset : Settled (commonReset E s).2 where
  empty _ := commonReset_pointers E s
  idle _ := by rw [commonReset_eq]; rfl

theorem kept (h : Settled s) (k : Kept s t) : Settled t where
  empty hs := k.pointers.trans (h.empty (k.stack.symm.trans hs))
  idle hm := k.stack.trans (h.idle (k.numModules.symm.trans hm))

/-- A load that set its stack up keeps the stack and the modules as long as it is not reset. -/
theorem of_stages (hm : s.numModules ≠ 0) (hstack : (loadStack E s).1 = bfSuccess) (k : Kept (loadElf E s).2 t) :
    Settled t := by
  have stack : (loadElf E s).2.stack = (loadStack E s).2.stack :=
    (bfelfLoad_sameStack E _).stack.trans (setupTls_sameStack E _).stack
  have modules : (loadElf E s).2.numModules = s.numModules :=
    (bfelfLoad_frame E _).2.2.trans ((setupTls_modules E _).2.trans (setupStack_modules E s).2)
  refine ⟨fun h0 => ?_, fun h0 => ?_⟩
  · rw [k.stack, stack] at h0
    exact absurd h0 (setupStack_success E s hstack).1
  · rw [k.numModules, modules] at h0
    exact absurd h0 hm

theorem effect (hs : Slots E.sdk s) (h : Settled s) (e : Effect E fuel op s t) : Settled t := by
  cases e with
  | kept kept => exact h.kept kept
  | added file fsize unloaded room =>
    refine ⟨fun h0 => ?_, fun h0 => by cases h0⟩
    rw [withModule_pointers hs room]
    exact h.empty h0
  | reset kept => exact .reset
  | load isLoad unloaded some run =>
    generalize commonLoadVmm E fuel s = r at run
    cases run with
    | modulesPending inited => exact of_stages some inited.stack (loadModules_kept E fuel s)
    | pagesFailed inited => exact of_stages some inited.stack (loadPages_kept E fuel s)
    | loaded inited => exact of_stages some inited.stack ((loadPages_kept E fuel s).of_status .loaded)
    | _ => exact .reset

end Settled

theorem commonInit_memoryInv (E : Env) : MemoryInv E [] (commonInit E (.initial E.sdk)).2 where
  slots := commonReset_slots E _
  owned := by
    rw [commonInit, commonReset_pointers]
    exact Owned.nil _

theorem ReachableBy.memoryInv {E : Env} {P : State → Op → Prop} {s : State} (h : ReachableBy E P s) :
    MemoryInv E [] s :=
  h.invariant (commonInit_memoryInv E) fun s fuel op _ _ _ ih => ih.effect (exec_effect E fuel op s)

theorem ReachableBy.settled {E : Env} {P : State → Op → Prop} {s : State} (h : ReachableBy E P s) : Settled s :=
  h.invariant .reset fun s fuel op before _ _ ih => ih.effect before.memoryInv.slots (exec_effect E fuel op s)

end Bfdriver
