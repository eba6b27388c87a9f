import Bfdriver.Theorems.Coverage
import Bfdriver.Theorems.Mirror
import Bfdriver.Theorems.Registry
import Bfdriver.Theorems.Reports

/-! # The driver refines the lifecycle

As long as the platform, the loader and the VMM do what they are asked to, an operation of `common.c` gives the
answer of the lifecycle machine, tells the VMM the same, and holds the same modules. Every load comes to its end then. -/

namespace Bfdriver
open EventLog Runs

/-! ### What the VMM was told -/

def Signal.command? : Signal → Option Command
  | .accepted _ .init => some .init
  | .accepted _ .fini => some .fini
  | .accepted _ (.vmmInit c) => some (.vmmInit c)
  | .accepted _ (.vmmFini c) => some (.vmmFini c)
  | .accepted _ (.addMdl _) | .accepted _ (.getDrr ..) => none
  | .vmcall op c ok => if ok then some (.vmcall op c) else none

/-- The commands that the VMM accepted, newest first. -/
def commands (t : Trace) : List Command := (signals t).filterMap Signal.command?

section Commands
variable {E : Env} {s t : State}

theorem commands_append (l t : Trace) : commands (l ++ t) = commands l ++ commands t := by
  unfold commands signals
  rw [List.filterMap_append, List.filterMap_append]

theorem commands_of_signals {l l' : Trace} (h : signals l' = signals l) : commands l' = commands l := by
  unfold commands
  rw [h]

theorem commands_blocks {is : List Nat} {R : Nat → Trace → Prop} {l : Trace} {g : Nat → List Command}
    (h : Blocks R is l) (told : ∀ c b, R c b → commands b = g c) : commands l = is.flatMap g := by
  have both (b : Trace) : commands b = b.filterMap fun e => (signal? e).bind Signal.command? := List.filterMap_filterMap
  rw [both]
  exact h.filterMap_eq fun c b hb => (both b).symm.trans (told c b hb)

theorem commands_startsOn {c : Nat} {l : Trace} (h : StartsOn E s c l) :
    commands l = [.vmcall .start c, .vmmInit c] := by
  obtain ⟨past, affinity, cpuid, -, -, -, rfl⟩ := h
  rfl

theorem commands_stopsOn {c : Nat} {l : Trace} (h : StopsOn E s c l) : commands l = [.vmmFini c, .vmcall .stop c] := by
  obtain ⟨affinity, cpuid, -, -, rfl⟩ := h
  rfl

/-- A request that succeeds is a command, if it is one. -/
theorem commands_callVmm {req : Request} (ok : (callVmm E req s).1 = bfSuccess) :
    commands (callVmm E req s).2.trace = (Signal.command? (.accepted s.resources req)).toList ++ commands s.trace := by
  unfold commands
  rw [callVmm_signals, if_pos ok, List.filterMap_cons]
  cases Signal.command? (.accepted s.resources req) <;> rfl

theorem commands_registered (h : Registered s t) : commands t.trace = commands s.trace :=
  h.mdls.filterMap_eq fun x mdl => by
    cases x with
    | accepted res req => cases req <;> first | rfl | exact mdl.elim
    | vmcall => exact mdl.elim

theorem commands_commonReset (E : Env) (s : State) : commands (commonReset E s).2.trace = commands s.trace := by
  rw [commonReset_eq]
  exact commands_of_signals (signals_releases _ _)

end Commands

/-! ### The relation -/

/-- The driver shows what the machine does: its status, the modules it holds and what it told the VMM. -/
structure Shows (cpus : Nat) (s : State) (l : Lifecycle) : Prop where
  phase : s.vmmStatus = l.phase.status
  files : s.files = l.files
  told : commands s.trace = l.commands
  started : l.phase = .running → s.numCpusStarted = cpus

namespace Shows
variable {E : Env} {cpus fuel : Nat} {s t : State} {l : Lifecycle}

theorem unloaded_iff (h : Shows cpus s l) : s.vmmStatus = .unloaded ↔ l.phase = .unloaded := by
  rw [h.phase]
  cases l.phase <;> simp [Phase.status]

theorem loaded_iff (h : Shows cpus s l) : s.vmmStatus = .loaded ↔ l.phase = .loaded := by
  rw [h.phase]
  cases l.phase <;> simp [Phase.status]

theorem running_iff (h : Shows cpus s l) : s.vmmStatus = .running ↔ l.phase = .running := by
  rw [h.phase]
  cases l.phase <;> simp [Phase.status]

theorem reset {told : List Command} (heard : commands t.trace = told) :
    Shows cpus (commonReset E t).2 { commands := told } where
  phase := commonReset_status E t
  files := commonReset_files E t
  told := (commands_commonReset E t).trans heard
  started := nofun

theorem addModule (h : Shows cpus s l) (slots : Slots E.sdk s) (room : s.numModules < E.sdk.maxNumModules)
    (file fsize : UInt64) : Shows cpus (s.withModule file fsize) { l with files := l.files ++ [(file, fsize)] } where
  phase := h.phase
  files := (withModule_files slots room file fsize).trans (congrArg (· ++ [(file, fsize)]) h.files)
  told := h.told
  started := h.started

theorem load (h : Shows cpus s l) (ok : (commonLoadVmm E fuel s).1 = some bfSuccess) :
    Shows cpus (commonLoadVmm E fuel s).2 l.load := by
  have loaded := commonLoadVmm_success ok
  rcases phase : l.phase with _ | _ | _
  · have unloaded := h.unloaded_iff.mpr phase
    have some : s.numModules ≠ 0 := fun none => by
      rw [commonLoadVmm_of_empty E fuel unloaded none] at ok
      exact E.sdk.code_ne _ (Option.some.inj ok)
    obtain ⟨inited, after⟩ := (commonLoadVmm_run E fuel s unloaded some).of_success ok
    have files : (commonLoadVmm E fuel s).2.files = s.files := by
      rcases commonLoadVmm_files E fuel (.inl unloaded) with ⟨-, same⟩ | ⟨failed, -⟩
      · exact same
      · exact absurd ok failed
    have begun : commands (loadInit E s).2.trace = .init :: commands s.trace := by
      have before : commands (loadElf E s).2.trace = commands s.trace :=
        commands_of_signals (congrArg CpuView.signals (loadElf_view E s))
      exact (commands_callVmm inited.init).trans (congrArg (Command.init :: ·) before)
    have pages := (moduleLoop_registered E fuel _ _).trans (tlsLoop_registered E fuel (loadModules E fuel s).2)
    rw [Lifecycle.load, if_pos phase]
    refine ⟨loaded, files.trans h.files, ?_, nofun⟩
    rw [after]
    exact (commands_registered pages).trans (begun.trans (congrArg (Command.init :: ·) h.told))
  · have idle : l.load = l := if_neg (by simp [phase])
    rw [idle, commonLoadVmm_of_loaded E fuel (h.loaded_iff.mpr phase)]
    exact h
  · have running := h.running_iff.mpr phase
    rw [commonLoadVmm_refused E fuel (by simp [running])] at loaded
    exact nomatch running.symm.trans loaded

theorem unload (h : Shows cpus s l) (ok : (commonUnloadVmm E s).1 = bfSuccess) :
    Shows cpus (commonUnloadVmm E s).2 l.unload := by
  rcases phase : l.phase with _ | _ | _
  · rw [commonUnloadVmm_of_unloaded E (h.unloaded_iff.mpr phase), Lifecycle.unload, if_neg (by simp [phase])]
    exact reset h.told
  · rw [commonUnloadVmm_of_loaded E (h.loaded_iff.mpr phase)] at ok ⊢
    rw [Lifecycle.unload, if_pos phase]
    split at ok
    · exact absurd ok (E.sdk.code_ne _)
    · rename_i accepted
      rw [if_neg accepted]
      have told : commands (callVmm E .fini s).2.trace = .fini :: commands s.trace := commands_callVmm (not_not.mp accepted)
      exact reset (told.trans (congrArg (Command.fini :: ·) h.told))
  · have running := h.running_iff.mpr phase
    rw [commonUnloadVmm, running] at ok
    exact absurd ok (E.sdk.code_ne _)

theorem start {n : Int64} (hn : ∀ t, E.numCpus t = n) (h : Shows n.toInt.toNat s l)
    (ok : (commonStartVmm E s).1 = bfSuccess) : Shows n.toInt.toNat (commonStartVmm E s).2 (l.start n.toInt.toNat) := by
  rcases phase : l.phase with _ | _ | _
  · have unloaded := h.unloaded_iff.mpr phase
    rw [commonStartVmm, unloaded] at ok
    exact absurd ok (E.sdk.code_ne _)
  · have loaded := h.loaded_iff.mpr phase
    obtain ⟨args, up, ups, after⟩ := commonStartVmm_started hn loaded ok
    have told : commands up = startCommands n.toInt.toNat := commands_blocks ups fun _ _ => commands_startsOn
    have heard : commands (.numCpus n :: (up ++ s.trace)) = startCommands n.toInt.toNat ++ l.commands := by
      show commands (up ++ s.trace) = _
      rw [commands_append, told, h.told]
    rw [after]
    by_cases none : n.toInt.toNat = 0
    · have idle : l.start n.toInt.toNat = l := if_neg fun some => some.2 none
      rw [idle, if_pos none]
      rw [none] at heard
      exact ⟨loaded.symm.trans h.phase, h.files, heard, fun running => by simp [phase] at running⟩
    · rw [if_neg none, Lifecycle.start, if_pos ⟨phase, none⟩]
      exact ⟨rfl, h.files, heard, fun _ => rfl⟩
  · have idle : l.start n.toInt.toNat = l := if_neg (by simp [phase])
    have running : commonStartVmm E s = (bfSuccess, s) := by rw [commonStartVmm, h.running_iff.mpr phase]
    rw [idle, running]
    exact h

theorem stop (h : Shows cpus s l) (ok : (commonStopVmm E s).1 = bfSuccess) :
    Shows cpus (commonStopVmm E s).2 (l.stop cpus) := by
  by_cases phase : l.phase = .running
  · obtain ⟨args, down, downs, after⟩ := commonStopVmm_stopped (h.running_iff.mpr phase) (h.started phase) ok
    have told : commands down = stopCommands cpus := commands_blocks downs fun _ _ => commands_stopsOn
    rw [after, Lifecycle.stop, if_pos phase]
    refine ⟨rfl, h.files, ?_, nofun⟩
    show commands (down ++ s.trace) = _
    rw [commands_append, told, h.told]
  · rw [Lifecycle.stop, if_neg phase, commonStopVmm_refused E fun running => phase (h.running_iff.mp running)]
    exact h

theorem call (h : Shows cpus s l) (vcpuid drr : UInt64) : Shows cpus (callVmm E (.getDrr vcpuid drr) s).2 l where
  phase := (callVmm_called E _ s).status.trans h.phase
  files := (callVmm_called E _ s).toKept.files.trans h.files
  told := by
    refine Eq.trans ?_ h.told
    unfold commands
    rw [callVmm_signals]
    split <;> rfl
  started running := (callVmm_called E _ s).started.trans (h.started running)

theorem fini (h : Shows cpus s l) (ok : (commonFini E s).1 = bfSuccess)
    (ends : (commonFini E s).2.vmmStatus ≠ .running) : Shows cpus (commonFini E s).2 (l.stop cpus).unload := by
  rcases phase : l.phase with _ | _ | _
  · have idle : l.stop cpus = l := if_neg (by simp [phase])
    have unloaded := h.unloaded_iff.mpr phase
    have kept : l.unload = { commands := l.commands } := by simp [Lifecycle.unload, phase]
    rw [idle, kept, commonFini_of_unloaded unloaded]
    dsimp only
    split
    · exact reset h.told
    · rename_i none
      exact ⟨unloaded, files_of_numModules (Nat.eq_zero_of_not_pos none), h.told, nofun⟩
  · have idle : l.stop cpus = l := if_neg (by simp [phase])
    rw [commonFini_of_loaded (h.loaded_iff.mpr phase)] at ok ⊢
    rw [idle]
    exact h.unload ok
  · have running := h.running_iff.mpr phase
    rcases commonStopVmm_status E s with same | ⟨-, loaded | corrupt⟩
    · rw [commonFini_of_running running (same.trans running)] at ends
      exact absurd (same.trans running) ends
    · have stopped := h.stop ((commonStopVmm_success_iff running).mpr loaded)
      rw [commonFini_of_stopped running (by simp [loaded]), commonFini_of_loaded loaded] at ok ⊢
      exact stopped.unload ok
    · rw [commonFini_of_stopped running (by simp [corrupt]), commonFini_of_corrupt corrupt] at ok
      exact absurd ok (E.sdk.code_ne _)

/-- An operation that succeeds does what the machine does. -/
theorem next {n : Int64} (hn : ∀ t, E.numCpus t = n) (h : Shows n.toInt.toNat s l) (slots : Slots E.sdk s) (op : Op)
    (admitted : op.refusal E.sdk s.vmmStatus s.numModules = none) (ok : (exec E fuel op s).1 = some bfSuccess)
    (ends : ¬op.Conceals (exec E fuel op s).2) : Shows n.toInt.toNat (exec E fuel op s).2 (l.next n.toInt.toNat op) := by
  cases op with
  | addModule file fsize =>
    have room := (Op.refusal_addModule.mp admitted).2.2
    rw [exec, commonAddModule_of_admitted E admitted]
    exact h.addModule slots room file fsize
  | loadVmm => exact h.load ok
  | unloadVmm => exact h.unload (Option.some.inj ok)
  | startVmm => exact h.start hn (Option.some.inj ok)
  | stopVmm => exact h.stop (Option.some.inj ok)
  | dumpVmm drr vcpuid =>
    obtain ⟨hdrr, active⟩ := Op.refusal_dumpVmm.mp admitted
    rw [exec, commonDumpVmm_eq E hdrr, if_neg active]
    exact h.call vcpuid drr
  | fini => exact h.fini (Option.some.inj ok) fun running => ends ⟨rfl, running⟩

end Shows

/-! ### Runs without failures -/

/-- No call of the operation fails, and a load finds its regions below the last page of the address space. -/
structure WellAnswered (E : Env) (fuel : Nat) (s : State) (op : Op) : Prop where
  calls : Grew (fun e => ¬e.Fails) s.trace (exec E fuel op s).2.trace
  fits : op = .loadVmm → Initialised E s → ∀ region ∈ (loadElf E s).2.regions, region.Fits E.sdk

section Runs
variable {E : Env} {n : Int64} {fuel : Nat} {s : State} {op : Op}

theorem WellAnswered.returns (well : WellAnswered E fuel s op) (hk : E.sdk.maxPageSize.toNat.isPowerOfTwo)
    (enough : UInt64.size ≤ fuel) : ∃ ret, (exec E fuel op s).1 = some ret := by
  cases op with
  | loadVmm =>
    have fits := well.fits rfl
    exact Option.isSome_iff_exists.mp
      (commonLoadVmm_returns fun inited region hr => (fits inited region hr).ends hk enough)
  | _ => exact ⟨_, rfl⟩

/-- An operation that is admitted and well answered succeeds. -/
theorem WellAnswered.succeeds (well : WellAnswered E fuel s op) (hk : E.sdk.maxPageSize.toNat.isPowerOfTwo)
    (enough : UInt64.size ≤ fuel) (entry : LeavesEntry E) (start : HasEntry s)
    (admitted : op.refusal E.sdk s.vmmStatus s.numModules = none) :
    (exec E fuel op s).1 = some bfSuccess ∧ ¬op.Conceals (exec E fuel op s).2 := by
  obtain ⟨es, trace, told⟩ := exec_reports entry start fuel op admitted
  obtain ⟨es', trace', silent⟩ := well.calls
  obtain rfl : es = es' := List.append_cancel_right (trace.symm.trans trace')
  have silent : ¬∃ e ∈ es, e.Fails := fun ⟨e, he, fails⟩ => silent e he fails
  have fine := not_or.mp (mt told.mpr silent)
  obtain ⟨ret, returned⟩ := well.returns hk enough
  rw [returned, errs_some, not_not] at fine
  exact ⟨returned.trans (congrArg some fine.1), fine.2⟩

/-- The driver and the machine take a well-answered operation the same way. -/
theorem Shows.exec {l : Lifecycle} (hn : ∀ t, E.numCpus t = n) (entry : LeavesEntry E)
    (hk : E.sdk.maxPageSize.toNat.isPowerOfTwo) (enough : UInt64.size ≤ fuel) (well : WellAnswered E fuel s op)
    (slots : Slots E.sdk s) (start : HasEntry s) (h : Shows n.toInt.toNat s l) :
    (l.exec n.toInt.toNat E.sdk op).1 = (Bfdriver.exec E fuel op s).1 ∧
      Shows n.toInt.toNat (Bfdriver.exec E fuel op s).2 (l.exec n.toInt.toNat E.sdk op).2 := by
  have held : s.numModules = l.files.length := by
    rw [← h.files, State.files, List.length_map, State.added, List.length_take, slots.length, Nat.min_eq_left slots.le]
  unfold Lifecycle.exec
  rw [← h.phase, ← held]
  rcases admitted : op.refusal E.sdk s.vmmStatus s.numModules with _ | code
  · obtain ⟨ok, ends⟩ := well.succeeds hk enough entry start admitted
    exact ⟨ok.symm, h.next hn slots op admitted ok ends⟩
  · rw [exec_refused E fuel op admitted]
    exact ⟨rfl, h⟩

end Runs

/-- With a fixed number of CPUs and a loader that leaves an entry point, in every run in which no call fails and no region
    reaches the last page of the address space, the driver gives the answers of the lifecycle machine, and between
    operations it is in the phase, holds the modules and has told the VMM the commands of the machine. -/
theorem lifecycle_refined {E : Env} {n : Int64} (hn : ∀ t, E.numCpus t = n) (entry : LeavesEntry E)
    (hk : E.sdk.maxPageSize.toNat.isPowerOfTwo) {fuel : Nat} (enough : UInt64.size ≤ fuel) {ops : List Op}
    (well : Along (exec E fuel) (WellAnswered E fuel) ops (commonInit E (.initial E.sdk)).2) :
    observe (exec E fuel) (fun s => (s.vmmStatus, s.files, commands s.trace)) ops (commonInit E (.initial E.sdk)).2 =
      observe (fun op l => l.exec n.toInt.toNat E.sdk op) (fun l => (l.phase.status, l.files, l.commands)) ops
        ({} : Lifecycle) := by
  have initial : Shows n.toInt.toNat (commonInit E (.initial E.sdk)).2 {} := .reset rfl
  symm
  refine well.observe_eq (R := fun s l => Reachable E s ∧ Shows n.toInt.toNat s l) (fun s l related => ?_)
    (fun s l op answered related => ?_) ⟨.init, initial⟩
  · rw [related.2.phase, related.2.files, related.2.told]
  · obtain ⟨reached, shows⟩ := related
    obtain ⟨ret, returned⟩ := answered.returns hk enough
    obtain ⟨result, next⟩ := shows.exec hn entry hk enough answered reached.memoryInv.slots reached.hasEntry
    exact ⟨result, reached.step fuel op trivial (Prod.ext returned rfl), next⟩

theorem lifecycle_refined_of_two_cpus :
    let E := testEnv { numCpus := 2 }
    let ops := [.loadVmm, .addModule 0x5000 100, .loadVmm, .startVmm, .loadVmm, .fini]
    observe (exec E UInt64.size) (fun s => (s.vmmStatus, s.files, commands s.trace)) ops (commonInit E (.initial E.sdk)).2 =
      observe (fun op l => l.exec 2 E.sdk op) (fun l => (l.phase.status, l.files, l.commands)) ops ({} : Lifecycle) := by
  intro E ops
  have entry : LeavesEntry E := fun _ _ _ => (by decide : (0x1000 : UInt64) ≠ 0)
  have well : Along (exec E UInt64.size) (WellAnswered E UInt64.size) ops (commonInit E (.initial E.sdk)).2 :=
    ⟨⟨by decide +kernel, fun _ _ => by decide +kernel⟩, ⟨by decide +kernel, nofun⟩,
      ⟨by decide +kernel, fun _ _ => by decide +kernel⟩, ⟨by decide +kernel, nofun⟩,
      ⟨by decide +kernel, fun _ _ => by decide +kernel⟩, ⟨by decide +kernel, nofun⟩, trivial⟩
  exact lifecycle_refined (n := 2) (fun _ => rfl) entry ⟨12, rfl⟩ (Nat.le_refl _) well

end Bfdriver
