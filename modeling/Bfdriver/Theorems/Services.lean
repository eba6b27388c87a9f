import Bfdriver.Service
import Bfdriver.Theorems.DriverHeap
import Bfdriver.Theorems.Refinement

/-! # The drivers refine their service

As long as no call fails, the drivers of Linux and Windows answer every call as the machine of their service does: the
handlers add nothing to the lifecycle but the buffers, although a load that is refused unloads and a start that is
refused stops, and although both give back the buffers of a VMM that is still running. -/

namespace Bfdriver
open EventLog Runs

/-! ### What the user was shown -/

/-- The result of an access to user memory, zero for any other call. -/
def Event.copyResult : Event → Int
  | .copyFromUser _ _ _ ret | .copyToUser _ _ _ ret => ret
  | _ => 0

/-- An access to user memory failed. -/
def Event.CopyFails (e : Event) : Prop := e.copyResult ≠ 0

instance : DecidablePred Event.CopyFails := fun e => inferInstanceAs (Decidable (e.copyResult ≠ 0))

def shown? : Event → Option VmmStatus
  | .copyToUser _ (.status v) _ ret => if ret = 0 then some v else none
  | .writeOutput _ _ _ (.status v) => some v
  | _ => none

/-- The statuses that the user was shown, newest first. -/
def shown (t : Trace) : List VmmStatus := t.filterMap shown?

theorem shown_of_calls {s t : State} (h : Calls s t) : shown t.trace = shown s.trace :=
  h.filterMap_eq fun e he => by cases e <;> first | rfl | exact he.elim

/-- `t` is `s` after calls that neither tell the VMM nor show the user anything. -/
structure Unnoticed (s t : State) : Prop where
  globals : t = { s with trace := t.trace }
  told : commands t.trace = commands s.trace
  shown : shown t.trace = shown s.trace
  suffix : s.trace <:+ t.trace

namespace Unnoticed
variable {s t u : State}

theorem refl (s : State) : Unnoticed s s := ⟨rfl, rfl, rfl, List.suffix_refl _⟩

theorem trans (h : Unnoticed s t) (h' : Unnoticed t u) : Unnoticed s u where
  globals := by
    rw [h'.globals, h.globals]
  told := h'.told.trans h.told
  shown := h'.shown.trans h.shown
  suffix := h.suffix.trans h'.suffix

theorem emit (s : State) {e : Event} (told : signal? e = none) (shows : shown? e = none) : Unnoticed s (s.emit e) where
  globals := rfl
  told := by
    refine commands_of_signals ?_
    exact List.filterMap_cons_none told
  shown := List.filterMap_cons_none shows
  suffix := List.suffix_cons ..

theorem slots {k : Sdk} (h : Unnoticed s t) (slots : Slots k s) : Slots k t := by
  rw [h.globals]
  exact slots.congr rfl rfl

end Unnoticed

/-- A copy that shows the user no status and does not fail without an event that says so. -/
structure Copies (copy : State → Int × State) (s : State) : Prop where
  unnoticed : Unnoticed s (copy s).2
  answers : Grew (fun e => ¬e.CopyFails) s.trace (copy s).2.trace → (copy s).1 = 0

theorem freePmodules_unnoticed (kind : MemKind) (ps : List Pmodule) (s : State) : Unnoticed s (freePmodules kind ps s) := by
  induction ps generalizing s with
  | nil => exact .refl s
  | cons p ps ih => exact (Unnoticed.emit s rfl rfl).trans (ih _)

/-! ### The relation -/

/-- The driver shows what the machine does: its common code that of the lifecycle, and the ioctl layer the rest. -/
structure Serves (cpus : Nat) (d : Driver) (l : Session) : Prop where
  shows : Shows cpus d.common l.toLifecycle
  entry : HasEntry d.common
  buffers : d.numPmodules = l.buffers
  shown : Bfdriver.shown d.common.trace = l.shown

theorem Shows.unnoticed {cpus : Nat} {s t : State} {l : Lifecycle} (h : Shows cpus s l) (q : Unnoticed s t) :
    Shows cpus t l := by
  obtain ⟨globals, told, -, -⟩ := q
  rw [globals]
  exact ⟨h.phase, h.files, told.trans h.told, h.started⟩

theorem Serves.unnoticed {cpus : Nat} {d : Driver} {l : Session} {t : State} (h : Serves cpus d l)
    (q : Unnoticed d.common t) (vcpuid : UInt64) : Serves cpus { d with common := t, vcpuid := vcpuid } l where
  shows := h.shows.unnoticed q
  entry := by
    show HasEntry t
    rw [q.globals]
    exact h.entry
  buffers := h.buffers
  shown := q.shown.trans h.shown

/-- No call fails while the request is answered, and a load finds its regions below the last page. -/
structure WellServed (E : Env) (q : Service) (d e : Driver) : Prop where
  calls : Grew (fun x => ¬x.Fails ∧ ¬x.CopyFails) d.common.trace e.common.trace
  fits : q = .operation .loadVmm → Initialised E d.common → ∀ region ∈ (loadElf E d.common).2.regions, region.Fits E.sdk

/-- What the results of this file assume of the environment of a driver with `n` CPUs: the number stays the same, a loader
    that succeeds leaves an entry point, and the fuel is enough for every loop over pages. -/
structure Steady (E : Env) (n : Int64) (fuel : Nat) : Prop where
  cpus : ∀ t, E.numCpus t = n
  entry : LeavesEntry E
  pages : E.sdk.maxPageSize.toNat.isPowerOfTwo
  enough : UInt64.size ≤ fuel

/-! ### The machine -/

section Machine
variable {cpus : Nat} {k : Sdk} {l : Session} {op : Op}

/-- The machine does with an operation for which there is room what the lifecycle does. -/
theorem Session.serve_of_exec (room : op.HasRoom k l.buffers) {ret : Int}
    (result : (l.toLifecycle.exec cpus k op).1 = some ret) :
    l.serve cpus k (.operation op) = (some (decide (ret = bfSuccess)), { l with
      toLifecycle := (l.toLifecycle.exec cpus k op).2
      buffers := op.buffersAfter (decide (ret = bfSuccess)) l.buffers }) := by
  have same : decide ((l.toLifecycle.exec cpus k op).1 = some bfSuccess) = decide (ret = bfSuccess) := by
    simp [result]
  rw [Session.serve, Session.perform, if_neg (not_not.mpr room)]
  dsimp only
  rw [same]

theorem Session.serve_of_refused {code : ErrorCode} (refused : op.refusal k l.phase.status l.files.length = some code)
    (room : op.HasRoom k l.buffers) :
    l.serve cpus k (.operation op) = (some false, { l with buffers := op.buffersAfter false l.buffers }) := by
  have fails : l.toLifecycle.exec cpus k op = (some (k.code code), l.toLifecycle) := by
    rw [Lifecycle.exec, refused]
  rw [Session.serve_of_exec room (congrArg Prod.fst fails), decide_eq_false (k.code_ne code), fails]

theorem Lifecycle.unload_of_refused {l : Lifecycle} {code : ErrorCode}
    (refused : Op.loadVmm.refusal k l.phase.status l.files.length = some code) : (l.exec cpus k .unloadVmm).2 = l := by
  unfold Lifecycle.exec
  rcases phase : l.phase with _ | _ | _
  · have empty : l.files = [] := by
      by_contra some
      have admitted : Op.loadVmm.refusal k l.phase.status l.files.length = none :=
        Op.refusal_loadVmm.mpr (.inl ⟨congrArg Phase.status phase, mt List.length_eq_zero_iff.mp some⟩)
      exact nomatch admitted.symm.trans refused
    cases l
    cases phase
    cases empty
    rfl
  · rw [phase] at refused
    cases refused
  · rfl

/-- A load that is refused is followed by an unload that gives back the buffers and changes nothing else. -/
theorem Session.unload_of_refused {code : ErrorCode}
    (refused : Op.loadVmm.refusal k l.phase.status l.files.length = some code) :
    (l.serve cpus k (.operation .unloadVmm)).2 = { l with buffers := 0 } := by
  have room : Op.unloadVmm.HasRoom k l.buffers := trivial
  rw [Session.serve, Session.perform, if_neg (not_not.mpr room)]
  dsimp only
  rw [Lifecycle.unload_of_refused refused]
  rfl

end Machine

/-! ### The operations behind the handlers -/

section Handlers
variable {E : Env} {n : Int64} {fuel : Nat} {kind : MemKind} {d : Driver} {l : Session} {op : Op}

theorem WellServed.wellAnswered {e : Driver} (well : WellServed E (.operation op) d e)
    (within : (exec E fuel op d.common).2.trace <:+ e.common.trace) : WellAnswered E fuel d.common op where
  calls := (well.calls.within (List.suffix_refl _) (exec_effect E fuel op d.common).calls.suffix within).mono fun _ => And.left
  fits load := well.fits (congrArg Service.operation load)

/-- The common code takes a well-answered operation as the lifecycle does, and shows nothing. -/
theorem Serves.exec (steady : Steady E n fuel) (slots : Slots E.sdk d.common) (well : WellAnswered E fuel d.common op)
    (h : Serves n.toInt.toNat d l) {m : Nat} {d' : Driver} (common : d'.common = (exec E fuel op d.common).2)
    (buffers : d'.numPmodules = m) :
    (l.toLifecycle.exec n.toInt.toNat E.sdk op).1 = (Bfdriver.exec E fuel op d.common).1 ∧
      Serves n.toInt.toNat d' { l with toLifecycle := (l.toLifecycle.exec n.toInt.toNat E.sdk op).2, buffers := m } := by
  obtain ⟨result, shows⟩ := h.shows.exec steady.cpus steady.entry steady.pages steady.enough well slots h.entry
  have effect := exec_effect E fuel op d.common
  refine ⟨result, common ▸ shows, common ▸ effect.hasEntry h.entry, buffers, ?_⟩
  rw [common]
  exact (shown_of_calls effect.calls).trans h.shown

theorem isSuccess_failure (k : Sdk) : isSuccess k.ioctlFailure = false := decide_eq_false k.ioctlFailure_ne

theorem isSuccess_of (ret : Int) :
    isSuccess (if ret ≠ bfSuccess then E.sdk.ioctlFailure else bfIoctlSuccess) = decide (ret = bfSuccess) := by
  unfold isSuccess
  split
  · rename_i failed
    rw [decide_eq_false E.sdk.ioctlFailure_ne, decide_eq_false failed]
  · rename_i ok
    rw [decide_eq_true rfl, decide_eq_true (not_not.mp ok)]

/-- What a handler has to show: it answers as the machine does, and leaves a driver that serves as the machine does. -/
abbrev Meets (cpus : Nat) (k : Sdk) (q : Service) (l : Session) (r : Option Bool) (d : Driver) : Prop :=
  (l.serve cpus k q).1 = r ∧ Serves cpus d (l.serve cpus k q).2

/-- A handler that does nothing but run an operation. -/
theorem Serves.run (op : Op) (steady : Steady E n fuel) (slots : Slots E.sdk d.common) (h : Serves n.toInt.toNat d l)
    {d' : Driver}
    (well : WellServed E (.operation op) d d') (common : d'.common = (Bfdriver.exec E fuel op d.common).2)
    (room : op.HasRoom E.sdk l.buffers) {ret : Int} (result : (Bfdriver.exec E fuel op d.common).1 = some ret)
    (buffers : d'.numPmodules = op.buffersAfter (decide (ret = bfSuccess)) l.buffers) :
    Meets n.toInt.toNat E.sdk (.operation op) l (some (decide (ret = bfSuccess))) d' := by
  have answered : WellAnswered E fuel d.common op := well.wellAnswered (common ▸ List.suffix_refl _)
  obtain ⟨same, serves⟩ := h.exec steady slots answered common buffers
  rw [Meets, Session.serve_of_exec room (same.trans result)]
  exact ⟨rfl, serves⟩

theorem Serves.unloadVmm (steady : Steady E n fuel) (slots : Slots E.sdk d.common) (h : Serves n.toInt.toNat d l)
    (well : WellServed E (.operation .unloadVmm) d (ioctlUnloadVmmWith E kind d).2) :
    Meets n.toInt.toNat E.sdk (.operation .unloadVmm) l (some (isSuccess (ioctlUnloadVmmWith E kind d).1))
      (ioctlUnloadVmmWith E kind d).2 := by
  have freed := freePmodules_unnoticed kind d.held (commonUnloadVmm E d.common).2
  have unloaded : WellServed E (.operation .unloadVmm) d
      { d with common := (commonUnloadVmm E d.common).2, numPmodules := 0 } :=
    ⟨well.calls.within (List.suffix_refl _) (commonUnloadVmm_effect E fuel .unloadVmm d.common).calls.suffix freed.suffix, nofun⟩
  obtain ⟨result, serves⟩ := h.run .unloadVmm steady slots unloaded rfl trivial rfl rfl
  have answer := isSuccess_of (E := E) (commonUnloadVmm E d.common).1
  have after := serves.unnoticed freed d.vcpuid
  exact ⟨result.trans (congrArg some answer.symm), after.shows, after.entry, after.buffers, after.shown⟩

theorem Serves.held (h : Serves n.toInt.toNat d l) (slots : Slots E.sdk d.common) :
    d.common.numModules = l.files.length := by
  rw [← h.shows.files, State.files, List.length_map, State.added, List.length_take, slots.length, Nat.min_eq_left slots.le]

/-- An operation that is well answered and fails was refused, so that it did nothing. -/
theorem Serves.refused (steady : Steady E n fuel) (slots : Slots E.sdk d.common) (h : Serves n.toInt.toNat d l)
    (well : WellAnswered E fuel d.common op) {ret : Int} (result : (Bfdriver.exec E fuel op d.common).1 = some ret)
    (failed : ret ≠ bfSuccess) : ∃ code, op.refusal E.sdk l.phase.status l.files.length = some code ∧
      Bfdriver.exec E fuel op d.common = (some (E.sdk.code code), d.common) := by
  rcases admitted : op.refusal E.sdk d.common.vmmStatus d.common.numModules with _ | code
  · have ok := (well.succeeds steady.pages steady.enough steady.entry h.entry admitted).1
    exact absurd (Option.some.inj (result.symm.trans ok)) failed
  · rw [h.shows.phase, h.held slots] at admitted
    refine ⟨code, admitted, exec_refused E fuel op ?_⟩
    rw [h.shows.phase, h.held slots]
    exact admitted

theorem Serves.loadVmm (steady : Steady E n fuel) (slots : Slots E.sdk d.common) (h : Serves n.toInt.toNat d l)
    (well : WellServed E (.operation .loadVmm) d (ioctlLoadVmmWith E kind fuel d).2) :
    Meets n.toInt.toNat E.sdk (.operation .loadVmm) l ((ioctlLoadVmmWith E kind fuel d).1.map isSuccess)
      (ioctlLoadVmmWith E kind fuel d).2 := by
  have within : (Bfdriver.exec E fuel .loadVmm d.common).2.trace <:+ (ioctlLoadVmmWith E kind fuel d).2.common.trace := by
    show (commonLoadVmm E fuel d.common).2.trace <:+ _
    unfold ioctlLoadVmmWith
    dsimp only
    split
    · exact List.suffix_refl _
    · split
      · exact (commonUnloadVmm_effect E fuel .loadVmm _).calls.suffix.trans (freePmodules_unnoticed kind _ _).suffix
      · exact List.suffix_refl _
  have answered := well.wellAnswered within
  obtain ⟨ret, result⟩ := answered.returns steady.pages steady.enough
  have loads : (commonLoadVmm E fuel d.common).1 = some ret := result
  by_cases ok : ret = bfSuccess
  · have run : ioctlLoadVmmWith E kind fuel d =
        (some bfIoctlSuccess, { d with common := (commonLoadVmm E fuel d.common).2 }) := by
      unfold ioctlLoadVmmWith
      dsimp only
      rw [loads]
      exact if_neg (not_not.mpr ok)
    rw [run] at well ⊢
    subst ok
    exact h.run .loadVmm steady slots well rfl trivial result h.buffers
  · obtain ⟨code, refused, same⟩ := h.refused steady slots answered result ok
    have run : ioctlLoadVmmWith E kind fuel d = (some E.sdk.ioctlFailure, (ioctlUnloadVmmWith E kind d).2) := by
      have load : commonLoadVmm E fuel d.common = (some (E.sdk.code code), d.common) := same
      unfold ioctlLoadVmmWith
      dsimp only
      rw [load]
      exact if_pos (E.sdk.code_ne code)
    rw [run] at well ⊢
    have unloaded := (h.unloadVmm steady slots ⟨well.calls, by simp⟩).2
    rw [Session.unload_of_refused refused] at unloaded
    rw [Meets, Session.serve_of_refused refused trivial]
    exact ⟨congrArg some (isSuccess_failure E.sdk).symm, unloaded⟩

theorem Serves.stopVmm (steady : Steady E n fuel) (slots : Slots E.sdk d.common) (h : Serves n.toInt.toNat d l)
    (well : WellServed E (.operation .stopVmm) d (ioctlStopVmm E d).2) :
    Meets n.toInt.toNat E.sdk (.operation .stopVmm) l (some (isSuccess (ioctlStopVmm E d).1)) (ioctlStopVmm E d).2 := by
  have answer : isSuccess (ioctlStopVmm E d).1 = decide ((commonStopVmm E d.common).1 = bfSuccess) := isSuccess_of _
  rw [answer]
  exact h.run .stopVmm steady slots well rfl trivial rfl h.buffers

/-- A start that is refused is followed by a stop that is refused as well. -/
theorem Serves.startVmm (steady : Steady E n fuel) (slots : Slots E.sdk d.common) (h : Serves n.toInt.toNat d l)
    (well : WellServed E (.operation .startVmm) d (ioctlStartVmm E d).2) :
    Meets n.toInt.toNat E.sdk (.operation .startVmm) l (some (isSuccess (ioctlStartVmm E d).1)) (ioctlStartVmm E d).2 := by
  have within : (Bfdriver.exec E fuel .startVmm d.common).2.trace <:+ (ioctlStartVmm E d).2.common.trace := by
    show (commonStartVmm E d.common).2.trace <:+ _
    unfold ioctlStartVmm
    dsimp only
    split
    · exact (commonStopVmm_kept E _).calls.suffix
    · exact List.suffix_refl _
  have answered := well.wellAnswered within
  by_cases ok : (commonStartVmm E d.common).1 = bfSuccess
  · have run : ioctlStartVmm E d = (bfIoctlSuccess, { d with common := (commonStartVmm E d.common).2 }) :=
      if_neg (not_not.mpr ok)
    rw [run] at well ⊢
    have same : isSuccess bfIoctlSuccess = decide ((commonStartVmm E d.common).1 = bfSuccess) := by
      rw [ok]
      rfl
    rw [same]
    exact h.run .startVmm steady slots well rfl trivial rfl h.buffers
  · obtain ⟨code, refused, same⟩ := h.refused steady slots answered rfl ok
    have start : (commonStartVmm E d.common).2 = d.common := congrArg Prod.snd same
    have stop : (commonStopVmm E d.common).2 = d.common := by
      refine commonStopVmm_refused E fun running => ?_
      have idle : commonStartVmm E d.common = (bfSuccess, d.common) := by rw [commonStartVmm, running]
      exact ok (congrArg Prod.fst idle)
    have run : ioctlStartVmm E d = (E.sdk.ioctlFailure, d) := by
      have stopped : (ioctlStopVmm E { d with common := (commonStartVmm E d.common).2 }).2 = d := by
        rw [start]
        show { d with common := (commonStopVmm E d.common).2 } = d
        rw [stop]
      unfold ioctlStartVmm
      dsimp only
      rw [if_pos ok, stopped]
    rw [Meets, run, isSuccess_failure, Session.serve_of_refused refused trivial]
    exact ⟨rfl, h⟩

theorem Serves.dumpVmm (steady : Steady E n fuel) (slots : Slots E.sdk d.common) (h : Serves n.toInt.toNat d l)
    {copy : UInt64 → State → Int × State} (copies : ∀ a s, Copies (copy a) s)
    (well : WellServed E (.operation (.dumpVmm E.drrAddr d.vcpuid)) d (ioctlDumpVmmWith E copy d).2) :
    Meets n.toInt.toNat E.sdk (.operation (.dumpVmm E.drrAddr d.vcpuid)) l (some (isSuccess (ioctlDumpVmmWith E copy d).1))
      (ioctlDumpVmmWith E copy d).2 := by
  have grown := (commonDumpVmm_kept E d.common E.drrAddr d.vcpuid).calls.suffix
  have dumped (calls : Grew (fun x => ¬x.Fails ∧ ¬x.CopyFails) d.common.trace
      (commonDumpVmm E E.drrAddr d.vcpuid d.common).2.trace) :
      Meets n.toInt.toNat E.sdk (.operation (.dumpVmm E.drrAddr d.vcpuid)) l
        (some (decide ((commonDumpVmm E E.drrAddr d.vcpuid d.common).1 = bfSuccess)))
        { d with common := (commonDumpVmm E E.drrAddr d.vcpuid d.common).2 } :=
    h.run (.dumpVmm ..) steady slots ⟨calls, fun load => by cases load⟩ rfl trivial rfl h.buffers
  unfold ioctlDumpVmmWith at well ⊢
  dsimp only at well ⊢
  generalize commonDumpVmm E E.drrAddr d.vcpuid d.common = r at grown dumped well ⊢
  split at well
  · rename_i failed
    have answer : isSuccess E.sdk.ioctlFailure = decide (r.1 = bfSuccess) := by
      rw [decide_eq_false failed, isSuccess_failure]
    rw [if_pos failed, answer]
    exact dumped well.calls
  · rename_i ok
    have copied := copies (E.drr r.2.trace) r.2
    have copies : (copy (E.drr r.2.trace) r.2).1 = 0 :=
      copied.answers ((well.calls.within grown copied.unnoticed.suffix (List.suffix_refl _)).mono fun _ => And.right)
    obtain ⟨answers, serves⟩ := dumped (well.calls.within (List.suffix_refl _) grown copied.unnoticed.suffix)
    rw [if_neg ok, if_neg (not_not.mpr copies)]
    rw [decide_eq_true (not_not.mp ok)] at answers
    exact ⟨answers, serves.unnoticed copied.unnoticed d.vcpuid⟩

/-- The common code is asked to add a module while there is room for its buffer. -/
theorem Serves.commonAddModule (steady : Steady E n fuel) (slots : Slots E.sdk d.common) (h : Serves n.toInt.toNat d l)
    (room : d.numPmodules < E.sdk.maxNumModules) {buf len : UInt64} (d' : Driver)
    (common : d'.common = (commonAddModule E buf len d.common).2)
    (calls : Grew (fun x => ¬x.Fails ∧ ¬x.CopyFails) d.common.trace d'.common.trace)
    (buffers : d'.numPmodules =
      (Op.addModule buf len).buffersAfter (decide ((Bfdriver.commonAddModule E buf len d.common).1 = bfSuccess)) l.buffers) :
    Meets n.toInt.toNat E.sdk (.operation (.addModule buf len)) l
      (some (decide ((Bfdriver.commonAddModule E buf len d.common).1 = bfSuccess))) d' :=
  h.run (.addModule buf len) steady slots ⟨calls, fun load => by cases load⟩ common (h.buffers ▸ room) rfl buffers

/-- A module is added after a buffer was allocated and filled, and the buffer is given back if it is not. -/
theorem Serves.addModule (steady : Steady E n fuel) (slots : Slots E.sdk d.common) (h : Serves n.toInt.toNat d l)
    {copy : UInt64 → State → Int × State} (copies : ∀ a s, Copies (copy a) s) (len : UInt64)
    (well : WellServed E (.operation (d.newModule E len)) d (ioctlAddModuleWith E copy len d).2) :
    Meets n.toInt.toNat E.sdk (.operation (d.newModule E len)) l (some (isSuccess (ioctlAddModuleWith E copy len d).1))
      (ioctlAddModuleWith E copy len d).2 := by
  unfold ioctlAddModuleWith Driver.newModule at *
  dsimp only at well ⊢
  split at well
  · rename_i full
    have none : ¬(Op.addModule (E.alloc d.common.trace .rw len) len).HasRoom E.sdk l.buffers := by
      rw [← h.buffers]
      exact Nat.not_lt_of_ge full
    rw [Meets, if_pos full, Session.serve, Session.perform, if_pos none]
    exact ⟨congrArg some (isSuccess_failure E.sdk).symm, h⟩
  · rename_i room
    rw [if_neg room]
    generalize E.alloc d.common.trace .rw len = buf at well ⊢
    have allocated : Unnoticed d.common (d.common.emit (.alloc .file len buf)) := .emit _ rfl rfl
    split at well
    · rename_i null
      have fails : (Event.alloc .file len buf).Fails := ⟨nofun, null⟩
      exact absurd fails ((Grew.refl _).cons_iff.mp well.calls).1
    · rename_i nonnull
      rw [if_neg nonnull]
      obtain ⟨unnoticed, answers⟩ := copies buf (d.common.emit (.alloc .file len buf))
      generalize copy buf (d.common.emit (.alloc .file len buf)) = r at unnoticed answers well ⊢
      have before := h.unnoticed (allocated.trans unnoticed) d.vcpuid
      have slots := (allocated.trans unnoticed).slots slots
      split at well
      · rename_i failed
        have copies := well.calls.within allocated.suffix unnoticed.suffix (List.suffix_cons ..)
        exact absurd (answers (copies.mono fun _ => And.right)) failed
      · rename_i ok
        rw [if_neg ok]
        have added {m : Nat} {ps : List Pmodule} :=
          before.commonAddModule steady slots (Nat.lt_of_not_le room)
            ⟨(Bfdriver.commonAddModule E buf len r.2).2, d.vcpuid, m, ps⟩ rfl
        dsimp only at added
        have grown := (commonAddModule_effect E fuel .fini buf len r.2).calls.suffix
        generalize Bfdriver.commonAddModule E buf len r.2 = r' at added grown well ⊢
        split at well
        · rename_i failed
          rw [decide_eq_false failed] at added
          have calls := well.calls.within (allocated.trans unnoticed).suffix grown (List.suffix_cons ..)
          obtain ⟨result, serves⟩ := added calls h.buffers
          rw [if_pos failed, isSuccess_failure]
          exact ⟨result, serves.unnoticed (.emit _ rfl rfl) d.vcpuid⟩
        · rename_i succeeds
          rw [decide_eq_true (not_not.mp succeeds)] at added
          rw [if_neg succeeds]
          have calls := well.calls.within (allocated.trans unnoticed).suffix grown (List.suffix_refl _)
          exact added calls (congrArg (· + 1) h.buffers)

theorem Serves.fini (steady : Steady E n fuel) (slots : Slots E.sdk d.common) (h : Serves n.toInt.toNat d l)
    (well : WellServed E (.operation .fini) d { d with common := (commonFini E d.common).2 }) :
    Meets n.toInt.toNat E.sdk (.operation .fini) l (some true) { d with common := (commonFini E d.common).2 } := by
  have answered : WellAnswered E fuel d.common .fini := well.wellAnswered (List.suffix_refl _)
  have ok : (commonFini E d.common).1 = bfSuccess := by
    by_contra failed
    obtain ⟨code, refused, -⟩ := h.refused steady slots answered rfl failed
    rcases phase : l.phase with _ | _ | _ <;> rw [phase] at refused <;> cases refused
  have run := h.run .fini steady slots well rfl trivial rfl h.buffers
  have succeeds : decide ((commonFini E d.common).1 = bfSuccess) = true := decide_eq_true ok
  exact succeeds ▸ run

end Handlers

/-! ### The entry points -/

/-- What a call of the driver `d` does, with what it asks for and its answer: it has nothing to do, it accesses user
    memory, or it runs one of the handlers or `common_fini`. -/
inductive Serving (E : Env) (fuel : Nat) (kind : MemKind) (d : Driver) : Service → Option Bool → Driver → Prop where
  | unknown : Serving E fuel kind d .unknown (some false) d
  | parameter {copy : State → Int × State} (copies : Copies copy d.common) (vcpuid : UInt64) :
      Serving E fuel kind d .parameter (some (decide ((copy d.common).1 = 0)))
        { d with common := (copy d.common).2, vcpuid := vcpuid }
  | status {e : Event} (told : signal? e = none) (shows : ¬e.CopyFails → shown? e = some d.common.vmmStatus) :
      Serving E fuel kind d .status (some (decide ¬e.CopyFails)) { d with common := d.common.emit e }
  | addModule {copy : UInt64 → State → Int × State} (copies : ∀ a s, Copies (copy a) s) (len : UInt64) :
      Serving E fuel kind d (.operation (d.newModule E len)) (some (isSuccess (ioctlAddModuleWith E copy len d).1))
        (ioctlAddModuleWith E copy len d).2
  | loadVmm : Serving E fuel kind d (.operation .loadVmm) ((ioctlLoadVmmWith E kind fuel d).1.map isSuccess)
      (ioctlLoadVmmWith E kind fuel d).2
  | unloadVmm : Serving E fuel kind d (.operation .unloadVmm) (some (isSuccess (ioctlUnloadVmmWith E kind d).1))
      (ioctlUnloadVmmWith E kind d).2
  | startVmm : Serving E fuel kind d (.operation .startVmm) (some (isSuccess (ioctlStartVmm E d).1)) (ioctlStartVmm E d).2
  | stopVmm : Serving E fuel kind d (.operation .stopVmm) (some (isSuccess (ioctlStopVmm E d).1)) (ioctlStopVmm E d).2
  | dumpVmm {copy : UInt64 → State → Int × State} (copies : ∀ a s, Copies (copy a) s) :
      Serving E fuel kind d (.operation (.dumpVmm E.drrAddr d.vcpuid)) (some (isSuccess (ioctlDumpVmmWith E copy d).1))
        (ioctlDumpVmmWith E copy d).2
  | fini : Serving E fuel kind d (.operation .fini) (some true) { d with common := (commonFini E d.common).2 }

/-- A call in which nothing fails is answered as the machine answers it. -/
theorem Serving.answers {E : Env} {n : Int64} {fuel : Nat} {kind : MemKind} {d e : Driver} {q : Service} {r : Option Bool}
    {l : Session} (serving : Serving E fuel kind d q r e) (steady : Steady E n fuel) (slots : Slots E.sdk d.common)
    (h : Serves n.toInt.toNat d l) (well : WellServed E q d e) : Meets n.toInt.toNat E.sdk q l r e := by
  cases serving with
  | unknown => exact ⟨rfl, h⟩
  | parameter copies vcpuid =>
    have ok := copies.answers (well.calls.mono fun _ => And.right)
    rw [decide_eq_true ok]
    exact ⟨rfl, h.unnoticed copies.unnoticed vcpuid⟩
  | status told shows =>
    rename_i e
    have ok : ¬e.CopyFails := ((Grew.refl _).cons_iff.mp well.calls).2
    have heard : commands (e :: d.common.trace) = l.commands := by
      have unheard : signals (e :: d.common.trace) = signals d.common.trace := List.filterMap_cons_none told
      exact (commands_of_signals unheard).trans h.shows.told
    have seen : shown (e :: d.common.trace) = l.phase.status :: l.shown := by
      rw [← h.shows.phase, ← h.shown]
      exact List.filterMap_cons_some (shows ok)
    rw [decide_eq_true ok]
    exact ⟨rfl, ⟨h.shows.phase, h.shows.files, heard, h.shows.started⟩, h.entry, h.buffers, seen⟩
  | addModule copies len => exact h.addModule steady slots copies len well
  | loadVmm => exact h.loadVmm steady slots well
  | unloadVmm => exact h.unloadVmm steady slots well
  | startVmm => exact h.startVmm steady slots well
  | stopVmm => exact h.stopVmm steady slots well
  | dumpVmm copies => exact h.dumpVmm steady slots copies well
  | fini => exact h.fini steady slots well

theorem Session.serve_answers (cpus : Nat) (k : Sdk) (q : Service) (l : Session) : ((l.serve cpus k q).1).isSome := by
  cases q with
  | operation op =>
    rw [Session.serve, Session.perform]
    split <;> rfl
  | _ => rfl

/-- Such a call keeps the driver and the machine together. -/
theorem Serving.next {E : Env} {n : Int64} {fuel : Nat} {kind : MemKind} {d e : Driver} {q : Service} {r : Option Bool}
    {l : Session} (serving : Serving E fuel kind d q r e) (handling : Handling E fuel kind d r.isSome e)
    (steady : Steady E n fuel) (well : WellServed E q d e) (inv : HeapInv E d) (h : Serves n.toInt.toNat d l) :
    (l.serve n.toInt.toNat E.sdk q).1 = r ∧ HeapInv E e ∧ Serves n.toInt.toNat e (l.serve n.toInt.toNat E.sdk q).2 := by
  obtain ⟨result, serves⟩ := serving.answers steady inv.memory.slots h well
  have returns : r.isSome = true := result ▸ l.serve_answers n.toInt.toNat E.sdk q
  rw [returns] at handling
  exact ⟨result, handling.heapInv inv, serves⟩

theorem Serves.initial (cpus : Nat) (E : Env) : Serves cpus (.initial E.sdk (commonInit E (.initial E.sdk)).2) {} where
  shows := .reset rfl
  entry := commonReset_hasEntry E _
  buffers := rfl
  shown := shown_of_calls (commonReset_calls E (.initial E.sdk))

namespace Linux
variable {E : Env} {d : Device} {fuel : Nat}

theorem copyFromUser_copies (target : CopyTarget) (src len : UInt64) (s : State) :
    Copies (copyFromUser E target src len) s where
  unnoticed := .emit s rfl rfl
  answers ok := by
    have fine : ¬Event.CopyFails _ := (Grew.refl s.trace).cons_iff.mp ok
    exact not_not.mp fine

theorem copyToUser_copies (dst addr len : UInt64) (s : State) : Copies (copyToUser E dst (.memory addr) len) s where
  unnoticed := .emit s rfl rfl
  answers ok := by
    have fine : ¬Event.CopyFails _ := (Grew.refl s.trace).cons_iff.mp ok
    exact not_not.mp fine

theorem isSuccess_copy (ret : Int) :
    isSuccess (if ret ≠ 0 then E.sdk.ioctlFailure else bfIoctlSuccess) = decide (ret = 0) := isSuccess_of ret

theorem ioctlAddModuleLength_serving (len : UInt64) :
    Serving E fuel .rw d.toDriver (if len = 0 then .unknown else .parameter)
      (some (isSuccess (ioctlAddModuleLength E len d).1)) (ioctlAddModuleLength E len d).2.toDriver := by
  unfold ioctlAddModuleLength
  split
  · rw [isSuccess_failure]
    exact .unknown
  · dsimp only
    rw [isSuccess_copy]
    exact .parameter (copyFromUser_copies .moduleLength len 8 d.common) d.vcpuid

theorem ioctlSetVcpuid_serving (vcpuid : UInt64) :
    Serving E fuel .rw d.toDriver (if vcpuid = 0 then .unknown else .parameter)
      (some (isSuccess (ioctlSetVcpuid E vcpuid d).1)) (ioctlSetVcpuid E vcpuid d).2.toDriver := by
  unfold ioctlSetVcpuid
  split
  · rw [isSuccess_failure]
    exact .unknown
  · dsimp only
    rw [isSuccess_copy]
    exact .parameter (copyFromUser_copies .vcpuid vcpuid 8 d.common) _

theorem ioctlVmmStatus_serving (status : UInt64) :
    Serving E fuel .rw d.toDriver (if status = 0 then .unknown else .status)
      (some (isSuccess (ioctlVmmStatus E status d).1)) (ioctlVmmStatus E status d).2.toDriver := by
  unfold ioctlVmmStatus
  split
  · rw [isSuccess_failure]
    exact .unknown
  · dsimp only
    rw [isSuccess_copy]
    have serving (ret : Int) : Serving E fuel .rw d.toDriver .status
        (some (decide ¬(Event.copyToUser status (.status d.common.vmmStatus) 8 ret).CopyFails))
        { d.toDriver with common := d.common.emit (.copyToUser status (.status d.common.vmmStatus) 8 ret) } :=
      .status rfl fun ok => if_pos (not_not.mp ok)
    have same (ret : Int) : decide (ret = 0) =
        decide ¬(Event.copyToUser status (.status d.common.vmmStatus) 8 ret).CopyFails :=
      decide_eq_decide.mpr not_not.symm
    have result : (copyToUser E status (.status d.common.vmmStatus) 8 d.common).1 =
        E.copyToUser d.common.trace status 8 := rfl
    rw [result, same]
    exact serving _

theorem enter_serving (p : EntryPoint) :
    Serving E fuel .rw d.toDriver (asks E p d) (answer E fuel p d).1 (answer E fuel p d).2.toDriver := by
  cases p with
  | reboot => exact .fini
  | exit => exact .fini
  | ioctl cmd arg =>
    cases cmd with
    | addModule => exact .addModule (fun _ s => copyFromUser_copies _ _ _ s) d.moduleLength
    | addModuleLength => exact ioctlAddModuleLength_serving arg
    | loadVmm => exact .loadVmm
    | unloadVmm => exact .unloadVmm
    | startVmm => exact .startVmm
    | stopVmm => exact .stopVmm
    | dumpVmm => exact .dumpVmm fun _ s => copyToUser_copies _ _ _ s
    | vmmStatus => exact ioctlVmmStatus_serving arg
    | setVcpuid => exact ioctlSetVcpuid_serving arg
    | other => exact .unknown

end Linux

namespace Windows
variable {E : Env} {d : Driver} {fuel : Nat}

theorem memcpyFromInput_copies (dst : UInt64) (file : Option (List UInt8)) (len : UInt64) (s : State) :
    Copies (fun s => (0, memcpyFromInput dst file len s)) s where
  unnoticed := by
    cases file with
    | none => exact .refl s
    | some bytes => exact .emit s rfl rfl
  answers _ := rfl

theorem memcpyToOutput_copies (out : Option Nat) (src : UInt64) (num : Nat) (s : State) :
    Copies (fun s => (0, memcpyToOutput out src num s)) s where
  unnoticed := by
    show Unnoticed s (memcpyToOutput out src num s)
    unfold memcpyToOutput
    split
    · exact .refl s
    · split
      · exact .refl s
      · exact .emit s rfl rfl
  answers _ := rfl

theorem dispatch_serving {code : IoControlCode} {input : Option (List UInt8)} {output : Option Nat}
    {r : Option Int × Driver} (handled : dispatch E fuel code input output d = some r) :
    Serving E fuel .rwe d (asksOf E code input output d) (r.1.map isSuccess) r.2 := by
  cases code with
  | other => cases handled
  | addModule =>
    cases handled
    exact .addModule (fun _ s => memcpyFromInput_copies _ _ _ s) _
  | loadVmm =>
    cases handled
    exact .loadVmm
  | unloadVmm =>
    cases handled
    exact .unloadVmm
  | startVmm =>
    cases handled
    exact .startVmm
  | stopVmm =>
    cases handled
    exact .stopVmm
  | dumpVmm =>
    cases handled
    exact .dumpVmm fun _ s => memcpyToOutput_copies _ _ _ s
  | vmmStatus =>
    cases handled
    cases output with
    | none =>
      show Serving E fuel .rwe d .unknown (some (isSuccess E.sdk.ioctlFailure)) d
      rw [isSuccess_failure]
      exact .unknown
    | some size =>
      exact .status (e := .writeOutput size 0 8 (.status d.common.vmmStatus)) rfl fun _ => rfl
  | setVcpuid =>
    cases handled
    cases input with
    | none =>
      show Serving E fuel .rwe d .unknown (some (isSuccess E.sdk.ioctlFailure)) d
      rw [isSuccess_failure]
      exact .unknown
    | some bytes =>
      have copies : Copies (fun s => ((0 : Int), s.emit (.readInput .vcpuid bytes 0 8))) d.common :=
        ⟨.emit _ rfl rfl, fun _ => rfl⟩
      exact .parameter copies _

theorem asksOf_of_unhandled {code : IoControlCode} {input : Option (List UInt8)} {output : Option Nat}
    (unhandled : dispatch E fuel code input output d = none) : asksOf E code input output d = .unknown := by
  cases code <;> first | rfl | cases unhandled

theorem enter_serving (p : EntryPoint) :
    Serving E fuel .rwe d (asks E p d) (answer E fuel p d).1 (answer E fuel p d).2 := by
  cases p with
  | d0Exit => exact .fini
  | contextCleanup => exact .fini
  | deviceControl q =>
    unfold answer asks enter bareflankEvtIoDeviceControl
    dsimp only
    rcases retrieveBuffer q.inputBufferLength q.input with _ | input
    · exact .unknown
    · dsimp only
      rcases retrieveBuffer q.outputBufferLength q.output with _ | output
      · exact .unknown
      · dsimp only
        rcases handled : dispatch E fuel q.code input output d with _ | ⟨_ | ret, e⟩
        · rw [asksOf_of_unhandled handled]
          exact .unknown
        · exact dispatch_serving handled
        · have serving := dispatch_serving handled
          dsimp only
          split
          · rename_i failed
            have answer : isSuccess ret = false := decide_eq_false failed
            rw [Option.map_some, answer] at serving
            exact serving
          · rename_i ok
            have answer : isSuccess ret = true := decide_eq_true (not_not.mp ok)
            rw [Option.map_some, answer] at serving
            exact serving

end Windows

/-! ### Both drivers -/

/-- What is seen of a driver: the status, the modules, the number of buffers, what the VMM was told and what the user was
    shown. -/
def Driver.view (d : Driver) : VmmStatus × List (UInt64 × UInt64) × Nat × List Command × List VmmStatus :=
  (d.common.vmmStatus, d.common.files, d.numPmodules, commands d.common.trace, shown d.common.trace)

def Session.view (l : Session) : VmmStatus × List (UInt64 × UInt64) × Nat × List Command × List VmmStatus :=
  (l.phase.status, l.files, l.buffers, l.commands, l.shown)

theorem Serves.looks {cpus : Nat} {d : Driver} {l : Session} (h : Serves cpus d l) : l.view = d.view := by
  unfold Session.view Driver.view
  rw [h.shows.phase, h.shows.files, h.shows.told, h.buffers, h.shown]

/-- The calls of a driver do what they ask for with one of the handlers. The ioctl layers of the systems keep a `Driver`
    each, which `driver` takes out of their state. -/
structure Implements (E : Env) (fuel : Nat) (kind : MemKind) {ι δ : Type} (driver : δ → Driver) (asks : ι → δ → Service)
    (answer : ι → δ → Option Bool × δ) : Prop where
  serving : ∀ p d, Serving E fuel kind (driver d) (asks p d) (answer p d).1 (driver (answer p d).2)
  handling : ∀ p d, Handling E fuel kind (driver d) (answer p d).1.isSome (driver (answer p d).2)

theorem Linux.implements (E : Env) (fuel : Nat) :
    Implements E fuel .rw Device.toDriver (Linux.asks E) (Linux.answer E fuel) where
  serving p _ := enter_serving p
  handling p d := by
    rw [answer, Option.isSome_map]
    exact enter_handled p

theorem Windows.implements (E : Env) (fuel : Nat) : Implements E fuel .rwe id (Windows.asks E) (Windows.answer E fuel) where
  serving p _ := enter_serving p
  handling p d := by
    rw [answer, Option.isSome_map]
    exact enter_handled p

/-- Every call of the list is well served. -/
abbrev WellRun {ι δ : Type} (E : Env) (driver : δ → Driver) (asks : ι → δ → Service) (answer : ι → δ → Option Bool × δ) :
    List ι → δ → Prop :=
  Along answer fun d p => WellServed E (asks p d) (driver d) (driver (answer p d).2)

/-- A run of well-served calls looks like the run of the machine from the session that the driver shows. -/
theorem Implements.refines {E : Env} {n : Int64} {fuel : Nat} {kind : MemKind} {ι δ : Type} {driver : δ → Driver}
    {asks : ι → δ → Service} {answer : ι → δ → Option Bool × δ} (impl : Implements E fuel kind driver asks answer)
    (steady : Steady E n fuel) {ps : List ι} {d : δ} {l : Session} (well : WellRun E driver asks answer ps d)
    (inv : HeapInv E (driver d)) (serves : Serves n.toInt.toNat (driver d) l) :
    observe answer (fun d => (driver d).view) ps d =
      observe (Session.serve n.toInt.toNat E.sdk) Session.view (meanings answer asks ps d) l := by
  symm
  refine well.observe_meanings_eq (R := fun d l => HeapInv E (driver d) ∧ Serves n.toInt.toNat (driver d) l)
    (fun d l related => related.2.looks) (fun d l p served related => ?_) ⟨inv, serves⟩
  exact (impl.serving p d).next (impl.handling p d) steady served related.1 related.2

/-- In a steady environment, in every run in which no call fails, the drivers answer as the machine of their service
    answers to what is asked of them, and between the calls they look like it. -/
theorem service_refined {E : Env} {n : Int64} {fuel : Nat} (steady : Steady E n fuel) :
    (∀ ps, Along (Linux.answer E fuel)
        (fun d p => WellServed E (Linux.asks E p d) d.toDriver (Linux.answer E fuel p d).2.toDriver) ps (Linux.devInit E) →
      observe (Linux.answer E fuel) (fun d => d.view) ps (Linux.devInit E) =
        observe (Session.serve n.toInt.toNat E.sdk) Session.view
          (meanings (Linux.answer E fuel) (Linux.asks E) ps (Linux.devInit E)) {}) ∧
      ∀ ps, Along (Windows.answer E fuel) (fun d p => WellServed E (Windows.asks E p d) d (Windows.answer E fuel p d).2) ps
          (Windows.bareflankQueueInitialize E) →
        observe (Windows.answer E fuel) Driver.view ps (Windows.bareflankQueueInitialize E) =
          observe (Session.serve n.toInt.toNat E.sdk) Session.view
            (meanings (Windows.answer E fuel) (Windows.asks E) ps (Windows.bareflankQueueInitialize E)) {} := by
  have inv := HeapInv.initial E
  have serves := Serves.initial n.toInt.toNat E
  exact ⟨fun _ well => (Linux.implements E fuel).refines steady well inv serves,
    fun _ well => (Windows.implements E fuel).refines steady well inv serves⟩

/-- A load while the VMM runs gives back its buffers and changes nothing else. -/
theorem service_refined_of_two_cpus :
    let E := testEnv { numCpus := 2, userWord := 16 }
    let ps := [Linux.EntryPoint.ioctl .addModuleLength 1, .ioctl .addModule 1, .ioctl .loadVmm 0, .ioctl .startVmm 0,
      .ioctl .loadVmm 0, .ioctl .vmmStatus 1, .reboot, .ioctl .startVmm 0]
    let qs := [Windows.EntryPoint.deviceControl (.exact .addModule (List.replicate 16 0) 0),
      .deviceControl (.exact .loadVmm [] 0), .deviceControl (.exact .dumpVmm [] 8), .d0Exit]
    (observe (Linux.answer E UInt64.size) (fun d => d.view) ps (Linux.devInit E) =
      observe (Session.serve 2 E.sdk) Session.view
        (meanings (Linux.answer E UInt64.size) (Linux.asks E) ps (Linux.devInit E)) {}) ∧
      observe (Windows.answer E UInt64.size) Driver.view qs (Windows.bareflankQueueInitialize E) =
        observe (Session.serve 2 E.sdk) Session.view
          (meanings (Windows.answer E UInt64.size) (Windows.asks E) qs (Windows.bareflankQueueInitialize E)) {} := by
  intro E ps qs
  have entry : LeavesEntry E := fun _ _ _ => (by decide : (0x1000 : UInt64) ≠ 0)
  have refined := service_refined (n := 2) ⟨fun _ => rfl, entry, ⟨12, rfl⟩, Nat.le_refl UInt64.size⟩
  refine ⟨refined.1 ps ?_, refined.2 qs ?_⟩
  · exact ⟨⟨by decide +kernel, fun load => by cases load⟩, ⟨by decide +kernel, fun load => by cases load⟩,
      ⟨by decide +kernel, fun _ _ => by decide +kernel⟩, ⟨by decide +kernel, fun load => by cases load⟩,
      ⟨by decide +kernel, fun _ _ => by decide +kernel⟩, ⟨by decide +kernel, fun load => by cases load⟩,
      ⟨by decide +kernel, fun load => by cases load⟩, ⟨by decide +kernel, fun load => by cases load⟩, trivial⟩
  · exact ⟨⟨by decide +kernel, fun load => by cases load⟩, ⟨by decide +kernel, fun _ _ => by decide +kernel⟩,
      ⟨by decide +kernel, fun load => by cases load⟩, ⟨by decide +kernel, fun load => by cases load⟩, trivial⟩

end Bfdriver
