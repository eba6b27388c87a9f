import Bfdriver.Theorems.Effects

/-! # Setting memory up

The first three stages of a load allocate the stack, the TLS and the memory of the modules. They release
nothing and do not reach the VMM. Here is what each leaves in the globals and on the heap. -/

namespace Bfdriver
open EventLog BlockHeap

/-- The event neither releases memory nor reaches the VMM or user memory. -/
def SetsUp : Event → Prop
  | .free .. | .threadContext .. | .enter .. | .vmcall .. => False
  | .copyFromUser .. | .copyToUser .. | .readInput .. | .writeOutput .. => False
  | _ => True

/-- The event counts the CPUs, allocates memory or clears it. -/
def Prepares : Event → Prop
  | .alloc .. | .memset .. | .numCpus .. => True
  | _ => False

theorem Prepares.setsUp {e : Event} (h : Prepares e) : SetsUp e := by
  cases e <;> first | exact h | trivial

section Stages
variable (E : Env) (s : State)

abbrev newStack := E.alloc s.trace .rw (E.sdk.stackSize * 2)

theorem setupStack_prepares : Grew Prepares s.trace (setupStack E s).2.trace := by
  unfold setupStack
  dsimp only
  split
  · exact (Grew.refl _).cons trivial
  · exact ((Grew.refl _).cons trivial).cons trivial

theorem setupStack_grew : Grew SetsUp s.trace (setupStack E s).2.trace :=
  (setupStack_prepares E s).mono fun _ => Prepares.setsUp

theorem setupStack_mem_trace :
    .alloc .stack (E.sdk.stackSize * 2) (setupStack E s).2.stack ∈ (setupStack E s).2.trace := by
  unfold setupStack
  dsimp only
  split <;> simp [State.emit]

theorem setupStack_heap :
    heap (setupStack E s).2.trace = heap (.alloc .stack (E.sdk.stackSize * 2) (newStack E s) :: s.trace) := by
  unfold setupStack
  dsimp only
  split <;> rfl

theorem setupStack_pointers : (setupStack E s).2.pointers = execPointers s.added ++
    (pointerAt .tls s.tls s.tlsSize ++ pointerAt .stack (newStack E s) (E.sdk.stackSize * 2)) := by
  unfold setupStack
  dsimp only
  split <;> rfl

theorem setupStack_modules :
    (setupStack E s).2.modules = s.modules ∧ (setupStack E s).2.numModules = s.numModules := by
  unfold setupStack
  dsimp only
  split <;> exact ⟨rfl, rfl⟩

theorem setupStack_tls : (setupStack E s).2.tls = s.tls := by
  unfold setupStack
  dsimp only
  split <;> rfl

theorem setupStack_added : (setupStack E s).2.added = s.added := by
  unfold State.added
  rw [(setupStack_modules E s).1, (setupStack_modules E s).2]

/-- The size that `setup_tls` asks for. -/
abbrev newTlsSize := E.sdk.threadLocalStorageSize * (E.numCpus s.trace).toUInt64

abbrev newTls := E.alloc (.numCpus (E.numCpus s.trace) :: s.trace) .rw (newTlsSize E s)

theorem setupTls_prepares : Grew Prepares s.trace (setupTls E s).2.trace := by
  unfold setupTls
  dsimp only
  split
  · exact ((Grew.refl _).cons trivial).cons trivial
  · exact (((Grew.refl _).cons trivial).cons trivial).cons trivial

theorem setupTls_grew : Grew SetsUp s.trace (setupTls E s).2.trace :=
  (setupTls_prepares E s).mono fun _ => Prepares.setsUp

theorem setupTls_heap : heap (setupTls E s).2.trace =
    heap (.alloc .tls (newTlsSize E s) (newTls E s) :: .numCpus (E.numCpus s.trace) :: s.trace) := by
  unfold setupTls
  dsimp only
  split <;> rfl

theorem setupTls_pointers : (setupTls E s).2.pointers = execPointers s.added ++
    (pointerAt .tls (newTls E s) (newTlsSize E s) ++ pointerAt .stack s.stack s.stackSize) := by
  unfold setupTls
  dsimp only
  split <;> rfl

theorem setupTls_modules :
    (setupTls E s).2.modules = s.modules ∧ (setupTls E s).2.numModules = s.numModules := by
  unfold setupTls
  dsimp only
  split <;> exact ⟨rfl, rfl⟩

theorem setupTls_added : (setupTls E s).2.added = s.added := by
  unfold State.added
  rw [(setupTls_modules E s).1, (setupTls_modules E s).2]

/-- An allocation of executable memory. -/
def AllocatesExec : Event → Prop
  | .alloc .exec _ _ => True
  | _ => False

theorem loadImages_grew (ms : List Binary) (images : List (Option Image)) :
    Grew AllocatesExec s.trace (loadImages E ms images s).2.trace := by
  induction ms, images, s using loadImages.induct E with
  | case1 m ms image images s exec t ih =>
    rw [loadImages]
    exact ((Grew.refl s.trace).cons (e := .alloc .exec image.size exec) trivial).trans ih
  | case2 m ms images s ih =>
    rw [loadImages]
    exact ih
  | case3 => rw [loadImages] <;> first | exact Grew.refl _ | assumption

/-- The loader keeps the files of the modules. -/
theorem loadImages_files (ms : List Binary) (images : List (Option Image)) :
    (loadImages E ms images s).1.map (fun m => (m.file, m.fileSize)) = ms.map fun m => (m.file, m.fileSize) := by
  induction ms, images, s using loadImages.induct E with
  | case1 m ms image images s exec t ih =>
    rw [loadImages, List.map_cons, List.map_cons, ih]
  | case2 m ms images s ih => rw [loadImages, List.map_cons, List.map_cons, ih]
  | case3 => rw [loadImages] <;> assumption

theorem loadImages_length (ms : List Binary) (images : List (Option Image)) :
    (loadImages E ms images s).1.length = ms.length := by
  have files := congrArg List.length (loadImages_files E s ms images)
  rwa [List.length_map, List.length_map] at files

theorem AllocatesExec.prepares {e : Event} (h : AllocatesExec e) : Prepares e := by
  cases e <;> first | exact h | trivial

theorem bfelfLoad_grew : Grew SetsUp s.trace (bfelfLoad E s).2.trace := by
  have images := (loadImages_grew E s s.added (E.bfelfLoad s.trace s.added).images).mono fun _ he => he.prepares.setsUp
  unfold bfelfLoad
  exact images.cons trivial

/-- The stages that set memory up prepare memory, and in between the loader is called. -/
theorem loadElf_grew {P : Event → Prop} (prepares : ∀ e, Prepares e → P e)
    (loads : ∀ files ret, P (.bfelfLoad files ret)) : Grew P s.trace (loadElf E s).2.trace := by
  have stages := (setupStack_prepares E s).trans (setupTls_prepares E (loadStack E s).2)
  have images := (loadImages_grew E (loadTls E s).2 (loadTls E s).2.added
    (E.bfelfLoad (loadTls E s).2.trace (loadTls E s).2.added).images).mono fun _ => AllocatesExec.prepares
  unfold loadElf bfelfLoad
  exact ((stages.trans images).mono prepares).cons (loads _ _)

theorem bfelfLoad_heap : heap (bfelfLoad E s).2.trace =
    heap (loadImages E s.added (E.bfelfLoad s.trace s.added).images s).2.trace := rfl

theorem bfelfLoad_added : (bfelfLoad E s).2.added =
    (loadImages E s.added (E.bfelfLoad s.trace s.added).images s).1 := by
  have length := loadImages_length E s s.added (E.bfelfLoad s.trace s.added).images
  have counted : s.added.length = min s.numModules s.modules.length := List.length_take
  unfold bfelfLoad
  dsimp only [State.emit]
  rw [loadImages_frame, State.added]
  dsimp only
  rcases Nat.le_total s.numModules s.modules.length with hle | hle
  · exact List.take_left' (length.trans (counted.trans (Nat.min_eq_left hle)))
  · rw [List.drop_eq_nil_of_le hle, List.append_nil]
    exact List.take_of_length_le (by omega)

theorem bfelfLoad_pointers : (bfelfLoad E s).2.pointers =
    execPointers (loadImages E s.added (E.bfelfLoad s.trace s.added).images s).1 ++
      (pointerAt .tls s.tls s.tlsSize ++ pointerAt .stack s.stack s.stackSize) := by
  have frame : (bfelfLoad E s).2.tls = s.tls ∧ (bfelfLoad E s).2.tlsSize = s.tlsSize ∧
      (bfelfLoad E s).2.stack = s.stack ∧ (bfelfLoad E s).2.stackSize = s.stackSize := by
    unfold bfelfLoad
    dsimp only [State.emit]
    rw [loadImages_frame]
    exact ⟨rfl, rfl, rfl, rfl⟩
  unfold State.pointers
  rw [bfelfLoad_added, frame.1, frame.2.1, frame.2.2.1, frame.2.2.2]

/-! ### What a stage that succeeds leaves -/

theorem setupStack_success (h : (setupStack E s).1 = bfSuccess) :
    (setupStack E s).2.stack ≠ 0 ∧ (setupStack E s).2.stackSize = E.sdk.stackSize * 2 ∧
      (setupStack E s).2.stackTop = stackTopOf E.sdk (setupStack E s).2.stack (E.sdk.stackSize * 2) := by
  unfold setupStack at h ⊢
  dsimp only at h ⊢
  split
  · rename_i hz
    rw [if_pos hz] at h
    exact absurd h (E.sdk.code_ne _)
  · rename_i hne
    exact ⟨hne, rfl, rfl⟩

theorem setupTls_success (h : (setupTls E s).1 = bfSuccess) : (setupTls E s).2.tls ≠ 0 := by
  unfold setupTls at h ⊢
  dsimp only at h ⊢
  split
  · rename_i hz
    rw [if_pos hz] at h
    exact absurd h (E.sdk.code_ne _)
  · rename_i hne
    exact hne

/-- The globals of the stack are the same. -/
structure SameStack (s t : State) : Prop where
  stack : t.stack = s.stack
  stackSize : t.stackSize = s.stackSize
  stackTop : t.stackTop = s.stackTop

theorem setupTls_sameStack : SameStack s (setupTls E s).2 := by
  unfold setupTls
  dsimp only
  split <;> exact ⟨rfl, rfl, rfl⟩

theorem bfelfLoad_sameStack : SameStack s (bfelfLoad E s).2 := by
  unfold bfelfLoad
  dsimp only [State.emit]
  rw [loadImages_frame]
  exact ⟨rfl, rfl, rfl⟩

theorem bfelfLoad_frame : (bfelfLoad E s).2.tls = s.tls ∧ (bfelfLoad E s).2.tlsSize = s.tlsSize ∧
    (bfelfLoad E s).2.numModules = s.numModules := by
  unfold bfelfLoad
  dsimp only [State.emit]
  rw [loadImages_frame]
  exact ⟨rfl, rfl, rfl⟩

end Stages

/-! ### The trace only grows -/

/-- The event is no access to user memory or to the buffers of a request. -/
def Inside : Event → Prop
  | .copyFromUser .. | .copyToUser .. | .readInput .. | .writeOutput .. => False
  | _ => True

/-- Between `s` and `t` the common code made calls. -/
abbrev Calls (s t : State) : Prop := Grew Inside s.trace t.trace

section Grew
variable {E : Env} {fuel : Nat} {op : Op} {s t : State}

theorem Kept.calls (h : Kept s t) : Calls s t := h.grew.mono fun e he => by cases e <;> trivial

theorem calls_of_setsUp {t t' : Trace} (h : Grew SetsUp t t') : Grew Inside t t' :=
  h.mono fun e he => by cases e <;> trivial

theorem commonReset_calls (E : Env) (s : State) : Calls s (commonReset E s).2 :=
  (commonReset_grew E s).mono fun e he => by cases e <;> trivial

theorem LoadRun.calls {r : Option Int × State} (run : LoadRun E fuel s r) : Calls s r.2 := by
  have stack : Calls s (loadStack E s).2 := calls_of_setsUp (setupStack_grew E s)
  have tls : Calls s (loadTls E s).2 := stack.trans (calls_of_setsUp (setupTls_grew E _))
  have elf : Calls s (loadElf E s).2 := tls.trans (calls_of_setsUp (bfelfLoad_grew E _))
  exact run.of_stages (Q := Calls s) stack tls elf (fun _ _ hu hk => hu.trans hk.calls)
    fun _ hu => hu.trans (commonReset_calls E _)

theorem Effect.calls (effect : Effect E fuel op s t) : Calls s t := by
  cases effect with
  | kept kept => exact kept.calls
  | added => exact .refl _
  | reset kept => exact kept.calls.trans (commonReset_calls E _)
  | load isLoad unloaded some run => exact run.calls

end Grew

end Bfdriver
