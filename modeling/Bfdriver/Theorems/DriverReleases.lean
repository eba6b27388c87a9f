import Bfdriver.Theorems.DriverHeap

/-! # The releases of a whole driver

On Linux every release of the driver, also of the ioctl layer, names a live block of its kind and length. On Windows the
buffers of the modules are allocated as `rw` and released as `rwe` by an unload, which the pool allocator does not mind,
since both kinds have the same tag. -/

namespace Bfdriver
open EventLog BlockHeap Runs

/-! ### The addresses of allocations -/

/-- An allocation has the address that the platform answers with. -/
def Answers (E : Env) (past : Trace) : Event → Prop
  | .alloc site len addr => addr = E.alloc past site.kind len
  | _ => True

/-- A call that allocates nothing. -/
def NoAlloc : Event → Prop
  | .alloc .. => False
  | _ => True

theorem answers_of_noAlloc {E : Env} {past : Trace} {e : Event} (h : NoAlloc e) : Answers E past e := by
  cases e <;> first | exact h.elim | trivial

section Answers
variable {E : Env} {s t : State}

theorem answers_grew {l l' : Trace} (h : AtEach (Answers E) l) (g : Grew NoAlloc l l') : AtEach (Answers E) l' :=
  h.grew g fun _ _ _ he => answers_of_noAlloc he

theorem loadImages_answers (ms : List Binary) (images : List (Option Image)) (h : AtEach (Answers E) s.trace) :
    AtEach (Answers E) (loadImages E ms images s).2.trace := by
  induction ms, images, s using loadImages.induct E with
  | case1 m ms image images s exec t ih =>
    rw [loadImages]
    exact ih (h.cons rfl)
  | case2 m ms images s ih =>
    rw [loadImages]
    exact ih h
  | case3 => rw [loadImages] <;> assumption

theorem setupStack_answers (h : AtEach (Answers E) s.trace) : AtEach (Answers E) (setupStack E s).2.trace := by
  have allocated := h.cons (e := .alloc .stack (E.sdk.stackSize * 2) (newStack E s)) rfl
  unfold setupStack
  dsimp only
  split
  · exact allocated
  · exact allocated.cons trivial

theorem setupTls_answers (h : AtEach (Answers E) s.trace) : AtEach (Answers E) (setupTls E s).2.trace := by
  have counted := h.cons (e := .numCpus (E.numCpus s.trace)) trivial
  have allocated := counted.cons (e := .alloc .tls (newTlsSize E s) (newTls E s)) rfl
  unfold setupTls
  dsimp only
  split
  · exact allocated
  · exact allocated.cons trivial

theorem Elementary.answers (step : Elementary E s t) (h : AtEach (Answers E) s.trace) : AtEach (Answers E) t.trace := by
  cases step with
  | aside e he => exact h.cons (by cases e <;> first | exact he.elim | trivial)
  | status v => exact h
  | started n => exact h
  | added file fsize => exact h
  | stack => exact setupStack_answers h
  | tls => exact setupTls_answers h
  | elf => exact (loadImages_answers s.added _ h).cons trivial
  | call req => exact answers_grew h ((callVmm_carries E req s).mono fun e he => by cases e <;> first | exact he.elim | trivial)
  | reset => exact answers_grew h ((commonReset_grew E s).mono fun e he => by cases e <;> first | exact he.elim | trivial)

theorem Passes.answers (h : Passes E s t) (before : AtEach (Answers E) s.trace) : AtEach (Answers E) t.trace :=
  h.invariant (I := fun u => AtEach (Answers E) u.trace) (fun _ _ step => step.answers) before

theorem freePmodules_answers (kind : MemKind) (ps : List Pmodule) (h : AtEach (Answers E) s.trace) :
    AtEach (Answers E) (freePmodules kind ps s).trace := by
  induction ps generalizing s with
  | nil => exact h
  | cons p ps ih => exact ih (s := s.emit (.free kind p.data p.size)) (h.cons trivial)

theorem Copied.answers (h : Copied s t) (before : AtEach (Answers E) s.trace) : AtEach (Answers E) t.trace :=
  answers_grew before (h.grew.mono fun e he => by cases e <;> first | exact he.elim | trivial)

theorem ioctlAddModuleWith_answers {copy : UInt64 → State → Int × State} (copies : ∀ a s, Copied s (copy a s).2)
    (len : UInt64) {d : Driver} (h : AtEach (Answers E) d.common.trace) :
    AtEach (Answers E) (ioctlAddModuleWith E copy len d).2.common.trace := by
  unfold ioctlAddModuleWith
  dsimp only
  split
  · exact h
  · have allocated := h.cons (e := .alloc .file len (E.alloc d.common.trace .rw len)) rfl
    split
    · exact allocated
    · have copied := (copies (E.alloc d.common.trace .rw len) (d.common.emit (.alloc .file len _))).answers allocated
      split
      · exact copied.cons trivial
      · have added := (exec_passes E _ 0 (.addModule (E.alloc d.common.trace .rw len) len)).answers copied
        split
        · exact added.cons trivial
        · exact added

theorem Handling.answers {fuel : Nat} {kind : MemKind} {d e : Driver} {r : Bool} (h : Handling E fuel kind d r e)
    (before : AtEach (Answers E) d.common.trace) : AtEach (Answers E) e.common.trace := by
  have unloaded : ∀ d : Driver, AtEach (Answers E) d.common.trace →
      AtEach (Answers E) (ioctlUnloadVmmWith E kind d).2.common.trace := fun d h =>
    freePmodules_answers kind d.held ((commonUnloadVmm_passes E d.common).answers h)
  have stopped : ∀ d : Driver, AtEach (Answers E) d.common.trace →
      AtEach (Answers E) (ioctlStopVmm E d).2.common.trace := fun d h => (commonStopVmm_passes E d.common).answers h
  cases h with
  | copied copies vcpuid => exact copies.answers before
  | addModule copies len => exact ioctlAddModuleWith_answers copies len before
  | loadVmm =>
    have loaded := (commonLoadVmm_passes E d.common fuel).answers before
    unfold ioctlLoadVmmWith
    dsimp only
    split
    · exact loaded
    · split
      · exact unloaded { d with common := _ } loaded
      · exact loaded
  | unloadVmm => exact unloaded d before
  | startVmm =>
    have started := (commonStartVmm_passes E d.common).answers before
    unfold ioctlStartVmm
    dsimp only
    split
    · exact stopped { d with common := _ } started
    · exact started
  | stopVmm => exact stopped d before
  | dumpVmm copies =>
    have dumped := (exec_passes E d.common 0 (.dumpVmm E.drrAddr d.vcpuid)).answers before
    unfold ioctlDumpVmmWith
    dsimp only
    split
    · exact dumped
    · exact (copies _ _).answers dumped
  | fini => exact (commonFini_passes E d.common).answers before

end Answers

/-! ### Invariants that frame the buffers -/

/-- An invariant of the common code with the buffers of the modules in its frame: the operations keep it, and so do the
    calls of the ioctl layer, which add a buffer to the frame or take one out of it. -/
structure FrameRules (E : Env) (kind : MemKind) (I : Pointers → State → Prop) : Prop where
  effect : ∀ {outer fuel op s t}, I outer s → Effect E fuel op s t → I outer t
  copied : ∀ {outer s t}, I outer s → Copied s t → I outer t
  refused : ∀ {outer s} len, I outer s → I outer (s.emit (.alloc .file len 0))
  allocated : ∀ {outer s} len, I outer s → E.alloc s.trace .rw len ≠ 0 →
    I ((E.alloc s.trace .rw len, ⟨.file, len⟩) :: outer) (s.emit (.alloc .file len (E.alloc s.trace .rw len)))
  released : ∀ {outer s k a len}, k = .rw ∨ k = kind → I ((a, ⟨.file, len⟩) :: outer) s →
    I outer (s.emit (.free k a len))
  reframe : ∀ {outer outer' s}, I outer s → MemoryInv E outer' s → I outer' s

namespace FrameRules
variable {kind : MemKind} {E : Env} {fuel : Nat} {I : Pointers → State → Prop} {outer : Pointers} {s : State}
  {d e : Driver}

/-- The buffers of a table are released one by one. -/
theorem freePmodules (rules : FrameRules E kind I) (ps : List Pmodule) (h : I (fileBlocks ps ++ outer) s) :
    I outer (freePmodules kind ps s) := by
  induction ps generalizing s with
  | nil => exact h
  | cons p ps ih => exact ih (rules.released (.inr rfl) h)

theorem unloadVmm (rules : FrameRules E kind I) (h : I (fileBlocks d.held) d.common) :
    I [] (ioctlUnloadVmmWith E kind d).2.common := by
  have unloaded := rules.effect h (commonUnloadVmm_effect E 0 .unloadVmm d.common)
  rw [← List.append_nil (fileBlocks d.held)] at unloaded
  exact rules.freePmodules d.held unloaded

/-- A buffer that is given back was allocated right before. -/
theorem addModule (rules : FrameRules E kind I) {copy : UInt64 → State → Int × State}
    (copies : ∀ a s, Copied s (copy a s).2) (len : UInt64) (h : I outer d.common) :
    ∃ outer', I outer' (ioctlAddModuleWith E copy len d).2.common := by
  unfold ioctlAddModuleWith
  dsimp only
  split
  · exact ⟨outer, h⟩
  · split
    · rename_i null
      rw [null]
      exact ⟨outer, rules.refused len h⟩
    · rename_i nonnull
      have file := rules.allocated len h nonnull
      have copied := rules.copied file (copies (E.alloc d.common.trace .rw len) _)
      split
      · exact ⟨outer, rules.released (.inl rfl) copied⟩
      · have added := rules.effect copied
          (commonAddModule_effect E 0 (.addModule (E.alloc d.common.trace .rw len) len) (E.alloc d.common.trace .rw len) len _)
        split
        · exact ⟨outer, rules.released (.inl rfl) added⟩
        · exact ⟨_, added⟩

/-- Every call keeps such an invariant, whether or not it returns. -/
theorem handling (rules : FrameRules E kind I) {r : Bool} (h : Handling E fuel kind d r e)
    (inv : I (fileBlocks d.held) d.common) : ∃ outer, I outer e.common := by
  cases h with
  | copied copies vcpuid => exact ⟨_, rules.copied inv copies⟩
  | addModule copies len => exact rules.addModule copies len inv
  | loadVmm =>
    have loaded := rules.effect inv (commonLoadVmm_effect E fuel d.common)
    unfold ioctlLoadVmmWith
    dsimp only
    split
    · exact ⟨_, loaded⟩
    · split
      · exact ⟨_, rules.unloadVmm (d := { d with common := _ }) loaded⟩
      · exact ⟨_, loaded⟩
  | unloadVmm => exact ⟨_, rules.unloadVmm inv⟩
  | startVmm =>
    have started := rules.effect inv (exec_effect E 0 .startVmm d.common)
    unfold ioctlStartVmm
    dsimp only
    split
    · exact ⟨_, rules.effect started (exec_effect E 0 .stopVmm _)⟩
    · exact ⟨_, started⟩
  | stopVmm => exact ⟨_, rules.effect inv (exec_effect E 0 .stopVmm d.common)⟩
  | dumpVmm copies =>
    have dumped := rules.effect inv (exec_effect E 0 (.dumpVmm E.drrAddr d.vcpuid) d.common)
    unfold ioctlDumpVmmWith
    dsimp only
    split
    · exact ⟨_, dumped⟩
    · exact ⟨_, rules.copied dumped (copies _ _)⟩
  | fini => exact ⟨_, rules.effect inv (exec_effect E 0 .fini d.common)⟩

/-- After a call that returns, the frame is that of the buffers which the driver then has. -/
theorem call (rules : FrameRules E kind I) (h : Handling E fuel kind d true e)
    (before : HeapInv E d ∧ I (fileBlocks d.held) d.common) : HeapInv E e ∧ I (fileBlocks e.held) e.common := by
  obtain ⟨outer, inv⟩ := rules.handling h before.2
  have heapInv := h.heapInv before.1
  exact ⟨heapInv, rules.reframe inv heapInv.memory⟩

theorem linux (rules : FrameRules E .rw I) (init : I [] (commonInit E (.initial E.sdk)).2) {d : Linux.Device}
    (h : Linux.Entered E d) : I (fileBlocks d.held) d.common := by
  have inv : HeapInv E d.toDriver ∧ I (fileBlocks d.held) d.common :=
    h.invariant (I := fun d : Linux.Device => HeapInv E d.toDriver ∧ I (fileBlocks d.held) d.common) ⟨.initial E, init⟩
      fun _ i _ returned inv => rules.call (returned ▸ Linux.enter_handled i.2) inv
  exact inv.2

theorem windows (rules : FrameRules E .rwe I) (init : I [] (commonInit E (.initial E.sdk)).2) (h : Windows.Entered E d) :
    I (fileBlocks d.held) d.common := by
  have inv : HeapInv E d ∧ I (fileBlocks d.held) d.common :=
    h.invariant (I := fun d : Driver => HeapInv E d ∧ I (fileBlocks d.held) d.common) ⟨.initial E, init⟩
      fun _ i _ returned inv => rules.call (returned ▸ Windows.enter_handled i.2) inv
  exact inv.2

end FrameRules

/-! ### Releases -/

/-- A release names a live block of its length that was allocated as memory of its kind, or a buffer that a driver
    allocates as `rw` and releases as `kind`. -/
def FreesAs (kind : MemKind) (past : Trace) : Event → Prop
  | .free k a len => ∃ b, heap past a = some b ∧ b.len = len ∧ (b.site.kind = k ∨ b.site = .file ∧ k = kind)
  | _ => True

theorem FreesLive.freesAs {kind : MemKind} {past : Trace} {e : Event} (h : FreesLive past e) : FreesAs kind past e := by
  cases e with
  | free k a len =>
    obtain ⟨b, live, same, size⟩ := h
    exact ⟨b, live, size, .inl same⟩
  | _ => trivial

/-- On Linux the buffers are released as what they were allocated. -/
theorem FreesAs.freesLive {past : Trace} {e : Event} (h : FreesAs .rw past e) : FreesLive past e := by
  cases e with
  | free k a len =>
    obtain ⟨b, live, size, same⟩ := h
    refine ⟨b, live, same.elim id fun file => ?_, size⟩
    rw [file.1, file.2]
    rfl
  | _ => trivial

/-- A call that releases nothing. -/
def NoFree : Event → Prop
  | .free .. => False
  | _ => True

theorem freesAs_of_noFree {kind : MemKind} {past : Trace} {e : Event} (h : NoFree e) : FreesAs kind past e := by
  cases e <;> first | exact h.elim | trivial

theorem freesAs_releases {kind : MemKind} (ps qs : Pointers) (t : Trace) (h : Owned (heap t) (ps ++ qs))
    (hf : AtEach (FreesAs kind) t) : AtEach (FreesAs kind) (releases ps t) := by
  induction ps generalizing t with
  | nil => exact hf
  | cons p ps ih => exact ih _ h.free (hf.cons (freesLive_of_owned h).freesAs)

/-- The releases so far named live blocks, and so will the next reset. -/
structure FreesInv (kind : MemKind) (E : Env) (outer : Pointers) (s : State) : Prop extends MemoryInv E outer s where
  frees : AtEach (FreesAs kind) s.trace

namespace FreesInv
variable {kind : MemKind} {E : Env} {outer : Pointers} {fuel : Nat} {op : Op} {s t : State}

theorem grew {P : Event → Prop} (h : FreesInv kind E outer s) (inv : MemoryInv E outer t) (g : Grew P s.trace t.trace)
    (none : ∀ e, P e → NoFree e) : FreesInv kind E outer t :=
  ⟨inv, h.frees.grew g fun _ _ _ he => freesAs_of_noFree (none _ he)⟩

theorem setsUp (h : FreesInv kind E outer s) (inv : MemoryInv E outer t) (g : Grew SetsUp s.trace t.trace) :
    FreesInv kind E outer t := h.grew inv g fun e he => by cases e <;> first | exact he.elim | trivial

theorem kept (h : FreesInv kind E outer s) (k : Kept s t) : FreesInv kind E outer t :=
  h.grew (h.toMemoryInv.kept k) k.grew fun e he => by cases e <;> first | exact he.elim | trivial

theorem copied (h : FreesInv kind E outer s) (copies : Copied s t) : FreesInv kind E outer t :=
  h.grew (h.toMemoryInv.untouched copies.untouched) copies.grew fun e he => by
    cases e <;> first | exact he.elim | trivial

theorem reset (h : FreesInv kind E outer s) : FreesInv kind E outer (commonReset E s).2 := by
  refine ⟨h.toMemoryInv.reset, ?_⟩
  rw [commonReset_eq]
  exact freesAs_releases s.pointers outer s.trace h.owned h.frees

theorem effect (h : FreesInv kind E outer s) (e : Effect E fuel op s t) : FreesInv kind E outer t := by
  cases e with
  | kept kept => exact h.kept kept
  | added file fsize unloaded room => exact ⟨h.toMemoryInv.added room file fsize, h.frees⟩
  | reset kept => exact (h.kept kept).reset
  | load isLoad unloaded some run =>
    have stack := h.setsUp h.toMemoryInv.stack (setupStack_grew E s)
    have tls := stack.setsUp stack.toMemoryInv.tls (setupTls_grew E _)
    have elf := tls.setsUp tls.toMemoryInv.elf (bfelfLoad_grew E _)
    exact run.of_stages stack tls elf (fun _ _ hu hk => hu.kept hk) fun _ hu => hu.reset

theorem rules (kind : MemKind) (E : Env) : FrameRules E kind (FreesInv kind E) where
  effect h e := h.effect e
  copied h copies := h.copied copies
  refused len h := ⟨h.toMemoryInv.untouched (.emit _ rfl), h.frees.cons trivial⟩
  allocated len h nonnull := ⟨h.toMemoryInv.file len nonnull, h.frees.cons trivial⟩
  released {outer s k a len} same h := by
    have live := h.owned.live (a, ⟨.file, len⟩) (by simp)
    refine ⟨freePmodules_memory k [⟨a, len⟩] s h.toMemoryInv, h.frees.cons ⟨_, live, rfl, ?_⟩⟩
    exact same.imp Eq.symm fun same => ⟨rfl, same⟩
  reframe h memory := ⟨memory, h.frees⟩

theorem initial (kind : MemKind) (E : Env) : FreesInv kind E [] (commonInit E (.initial E.sdk)).2 :=
  ⟨commonInit_memoryInv E, .nil⟩

end FreesInv

/-- Every call releases live blocks only, whether or not it returns. -/
theorem Handling.frees {kind : MemKind} {E : Env} {fuel : Nat} {d e : Driver} {r : Bool} (h : Handling E fuel kind d r e)
    (before : FreesInv kind E (fileBlocks d.held) d.common) : AtEach (FreesAs kind) e.common.trace := by
  obtain ⟨outer, inv⟩ := (FreesInv.rules kind E).handling h before
  exact inv.frees

/-! ### The pool of Windows -/

namespace Windows

/-- The pool block behind a block of the driver. -/
def poolBlock (b : Block) : PoolBlock := ⟨poolType b.site.kind, b.len, bfTag⟩

theorem heap_null (t : Trace) : heap t 0 = none := by
  induction t with
  | nil => rfl
  | cons e t ih =>
    cases e with
    | alloc site len addr =>
      by_cases h : addr = 0
      · rw [heap_of_none (by simp [memOp?, h])]
        exact ih
      · rw [heap_alloc h, Function.update_of_ne (Ne.symm h)]
        exact ih
    | free kind addr len =>
      rw [heap_free, Function.update_apply]
      split
      · rfl
      · exact ih
    | _ => exact ih

/-- What is live for the driver is live in the pool, with the tag of the driver. -/
theorem pool_eq {P : Pool} {W : Env} {t : Trace} (h : AtEach (Answers (P.env W)) t) (a : UInt64) :
    pool t a = (heap t a).map poolBlock := by
  induction h with
  | nil => rfl
  | @cons e t here past ih =>
    cases e with
    | alloc site len addr =>
      have answer : addr = P.platformAlloc t site.kind len := here
      by_cases hlen : len = 0
      · have null : addr = 0 := by simp [answer, Pool.platformAlloc, hlen]
        rw [heap_of_none (by simp [memOp?, null])]
        simpa [pool, poolCall?, hlen] using ih
      · by_cases null : addr = 0
        · rw [heap_of_none (by simp [memOp?, null])]
          simpa [pool, poolCall?, poolOp?, hlen, null] using ih
        · rw [heap_alloc null, Function.update_apply]
          have grown : pool (.alloc site len addr :: t) a =
              Function.update (pool t) addr (some (poolBlock ⟨site, len⟩)) a := by
            simp [pool, poolCall?, poolOp?, hlen, null, poolBlock]
          rw [grown, Function.update_apply, ih]
          split <;> rfl
    | free kind addr len =>
      by_cases null : addr = 0
      · have same : heap (.free kind addr len :: t) a = heap t a := by
          rw [heap_free, Function.update_apply, null]
          split
          · rename_i here
            rw [here, heap_null]
          · rfl
        rw [same]
        simpa [pool, poolCall?, platformFree, null] using ih
      · have freed : pool (.free kind addr len :: t) a = Function.update (pool t) addr none a := by
          simp [pool, poolCall?, platformFree, poolOp?, null]
        rw [freed, heap_free, Function.update_apply, Function.update_apply, ih]
        split <;> rfl
    | _ => exact ih

/-- Whatever kind the driver releases a block as, the pool gets the tag that it was allocated with. -/
theorem FreesAs.freesPool {kind : MemKind} {P : Pool} {W : Env} {past : Trace} {e : Event}
    (answers : AtEach (Answers (P.env W)) past) (h : FreesAs kind past e) : FreesPool past e := by
  intro addr tag call
  cases e with
  | free k a len =>
    obtain ⟨b, live, -, -⟩ := h
    have named : addr = a ∧ tag = bfTag := by
      by_cases null : a = 0 <;> simp_all [poolCall?, platformFree]
    refine ⟨poolBlock b, ?_, named.2.symm⟩
    rw [named.1, pool_eq answers, live]
    rfl
  | alloc site len a => by_cases null : len = 0 <;> simp [poolCall?, null] at call
  | _ => simp [poolCall?] at call

theorem freesPool_of_freesAs {kind : MemKind} {P : Pool} {W : Env} {t : Trace} (answers : AtEach (Answers (P.env W)) t)
    (frees : AtEach (FreesAs kind) t) : AtEach FreesPool t := by
  induction frees with
  | nil => exact .nil
  | cons here past ih =>
    cases answers with
    | cons _ before => exact (ih before).cons (FreesAs.freesPool before here)

end Windows

/-! ### Both drivers -/

theorem Windows.Entered.answers {E : Env} {d : Driver} (h : Windows.Entered E d) : AtEach (Answers E) d.common.trace :=
  h.invariant (I := fun d => AtEach (Answers E) d.common.trace) .nil fun _ i _ _ before =>
    have handled : Handling E i.1 .rwe _ _ _ := Windows.enter_handled i.2
    handled.answers before

/-- In every run, also within a load that has not returned, Linux releases live blocks as what they were allocated, and
    Windows releases live blocks of the pool with their tag, though buffers of the other kind. -/
theorem releases_live :
    (∀ (E : Env) d, Linux.Entered E d → ∀ fuel p, AtEach FreesLive (Linux.enter E fuel p d).2.common.trace) ∧
      ∀ (P : Windows.Pool) (W : Env) d, Windows.Entered (P.env W) d → ∀ fuel p,
        AtEach (FreesAs .rwe) (Windows.enter (P.env W) fuel p d).2.common.trace ∧
          AtEach Windows.FreesPool (Windows.enter (P.env W) fuel p d).2.common.trace := by
  constructor
  · intro E d h fuel p
    have inv := (FreesInv.rules .rw E).linux (.initial .rw E) h
    exact ((Linux.enter_handled p).frees inv).imp fun _ _ => FreesAs.freesLive
  · intro P W d h fuel p
    have handled : Handling (P.env W) fuel .rwe d _ _ := Windows.enter_handled p
    have inv := (FreesInv.rules .rwe (P.env W)).windows (.initial .rwe (P.env W)) h
    have frees := handled.frees inv
    exact ⟨frees, Windows.freesPool_of_freesAs ((Windows.enter_handled p).answers h.answers) frees⟩

/-- A pool that always has memory. -/
def Windows.testPool : Windows.Pool where
  exAllocatePoolWithTag t _ _ _ := testAlloc t
  fresh t _ len _ := (testEnv {}).alloc_fresh t .rw len

theorem releases_live_at_cleanup :
    (let E := testEnv { userWord := 16 }
     let d := runFrom (fun i => Linux.enter E i.1 i.2) Linux.unloadCalls (Linux.devInit E)
     AtEach FreesLive (Linux.enter E 8 .exit d).2.common.trace) ∧
      let E := Windows.testPool.env (testEnv {})
      let d := runFrom (fun i => Windows.enter E i.1 i.2) Windows.unloadCalls (Windows.bareflankQueueInitialize E)
      AtEach (FreesAs .rwe) (Windows.enter E 8 .contextCleanup d).2.common.trace ∧
        AtEach Windows.FreesPool (Windows.enter E 8 .contextCleanup d).2.common.trace :=
  ⟨releases_live.1 (testEnv { userWord := 16 }) _ (Completes.reaches (by decide +kernel)) 8 .exit,
    releases_live.2 Windows.testPool (testEnv {}) _ (Completes.reaches (by decide +kernel)) 8 .contextCleanup⟩

end Bfdriver
