import Bfdriver.Theorems.Buffers
import Bfdriver.Theorems.Files
import Bfdriver.Theorems.Simulation

/-! # The two ioctl layers

The drivers of Linux and Windows have the same handlers written twice. With the same answers from outside
they stay in step through every sequence of requests, whatever the way in which each copies from and to the
user and frees its buffers. -/

namespace Bfdriver
open EventLog Runs

/-! ### What both drivers have in common -/

/-- A call as both drivers make it: without accesses to the user, and whichever function frees a buffer. -/
def shared? : Event → Option Event
  | .copyFromUser .. | .copyToUser .. | .readInput .. | .writeOutput .. => none
  | .free _ addr len => some (.free .rw addr len)
  | e => some e

def shared (t : Trace) : Trace := t.filterMap shared?

/-- The drivers made the same calls. -/
def SameCalls (t t' : Trace) : Prop := shared t' = shared t

/-- The contents of the buffer at an address: what the last copy to it left there. -/
def contents (E : Env) : Trace → UInt64 → List UInt8
  | [], _ => []
  | .copyFromUser (.buffer buf) src len _ :: t, a => if buf = a then E.userBytes t src len else contents E t a
  | .readInput (.buffer buf) bytes off len :: t, a => if buf = a then (bytes.drop off).take len else contents E t a
  | _ :: t, a => contents E t a

theorem contents_cons (E : Env) {e : Event} (h : Inside e) (t : Trace) : contents E (e :: t) = contents E t := by
  cases e <;> first | rfl | exact False.elim h

theorem contents_copyFromUser (E : Env) (buf src len : UInt64) (ret : Int) (t : Trace) :
    contents E (.copyFromUser (.buffer buf) src len ret :: t) =
      Function.update (contents E t) buf (E.userBytes t src len) := by
  funext a
  rw [contents, Function.update_apply]
  exact if_congr eq_comm rfl rfl

theorem contents_readInput (E : Env) (buf : UInt64) (bytes : List UInt8) (off len : Nat) (t : Trace) :
    contents E (.readInput (.buffer buf) bytes off len :: t) =
      Function.update (contents E t) buf ((bytes.drop off).take len) := by
  funext a
  rw [contents, Function.update_apply]
  exact if_congr eq_comm rfl rfl

theorem contents_of_calls (E : Env) {s t : State} (h : Calls s t) : contents E t.trace = contents E s.trace :=
  h.preserves (I := fun t => contents E t = contents E s.trace)
    (fun k _ inside same => (contents_cons E inside k).trans same) rfl

theorem shared_cons_of_none {e : Event} (h : shared? e = none) (t : Trace) : shared (e :: t) = shared t :=
  List.filterMap_cons_none h

/-- What a call does to memory does not depend on the function that frees a buffer. -/
theorem heap_shared (t : Trace) : heap (shared t) = heap t := by
  unfold heap shared
  rw [List.filterMap_filterMap]
  congr 2
  funext e
  cases e <;> rfl

theorem SameCalls.heap {t t' : Trace} (h : SameCalls t t') : heap t' = heap t := by
  rw [← heap_shared t', ← heap_shared t, h]

/-- The platform, the loader and the VMM give both drivers the same answers, and the variable that the VMM writes
    has the same address. -/
structure SameAnswers (EL EW : Env) : Prop extends Agree SameCalls EL EW where
  drrAddr : EW.drrAddr = EL.drrAddr

/-- Between `s` and `t` there were only accesses to the user. -/
structure Unseen (s t : State) : Prop where
  globals : t = { s with trace := t.trace }
  calls : SameCalls s.trace t.trace

theorem Unseen.refl (s : State) : Unseen s s := ⟨rfl, rfl⟩

theorem Unseen.emit (s : State) {e : Event} (h : shared? e = none) : Unseen s (s.emit e) :=
  ⟨rfl, shared_cons_of_none h s.trace⟩

theorem Sim.unseen {s t s' t' : State} (h : Sim SameCalls s t) (left : Unseen s s') (right : Unseen t t') :
    Sim SameCalls s' t' := by
  obtain ⟨trace⟩ := h
  rw [left.globals, right.globals]
  exact .intro ((right.calls.trans trace).trans left.calls.symm)

/-- The drivers are in step: the common code is in the same state after the same calls, and the tables name the same
    buffers with the same contents. -/
structure InStep (EL EW : Env) (d e : Driver) : Prop where
  states : Sim SameCalls d.common e.common
  contents : contents EW e.common.trace = contents EL d.common.trace
  numPmodules : e.numPmodules = d.numPmodules
  pmodules : e.pmodules = d.pmodules
  vcpuid : e.vcpuid = d.vcpuid

namespace InStep
variable {EL EW : Env} {d e : Driver} {s t : State}

/-- The drivers differ in the trace of the common code only. -/
theorem eq (h : InStep EL EW d e) : ∃ t, e = { d with common := t } := by
  obtain ⟨-, -, numPmodules, pmodules, vcpuid⟩ := h
  exact ⟨e.common, by rw [← numPmodules, ← pmodules, ← vcpuid]⟩

theorem held (h : InStep EL EW d e) : e.held = d.held := by
  unfold Driver.held
  rw [h.numPmodules, h.pmodules]

/-- What the common code does in both keeps them in step. -/
theorem common (h : InStep EL EW d e) (states : Sim SameCalls s t) (left : Calls d.common s) (right : Calls e.common t) :
    InStep EL EW { d with common := s } { e with common := t } where
  states := states
  contents := by
    rw [contents_of_calls EL left, contents_of_calls EW right]
    exact h.contents
  numPmodules := h.numPmodules
  pmodules := h.pmodules
  vcpuid := h.vcpuid

/-- Accesses to the user that leave the same in the buffers keep them in step. -/
theorem unseen (h : InStep EL EW d e) (left : Unseen d.common s) (right : Unseen e.common t)
    (buffers : Bfdriver.contents EW t.trace = Bfdriver.contents EL s.trace) :
    InStep EL EW { d with common := s } { e with common := t } where
  states := h.states.unseen left right
  contents := buffers
  numPmodules := h.numPmodules
  pmodules := h.pmodules
  vcpuid := h.vcpuid

theorem withVcpuid (h : InStep EL EW d e) (vcpuid : UInt64) :
    InStep EL EW { d with vcpuid := vcpuid } { e with vcpuid := vcpuid } :=
  ⟨h.states, h.contents, h.numPmodules, h.pmodules, rfl⟩

end InStep

/-! ### The handlers -/

/-- The answers are the same, and the drivers are in step. -/
structure AnswersInStep (EL EW : Env) {ρ : Type} (r r' : ρ × Driver) : Prop where
  answer : r'.1 = r.1
  inStep : InStep EL EW r.2 r'.2

theorem freePmodules_sim {T : Trace → Trace → Prop} (free : ∀ {t t'} kind kind' (addr len : UInt64), T t t' →
    T (.free kind addr len :: t) (.free kind' addr len :: t')) (kind kind' : MemKind) (ps : List Pmodule) {s t : State}
    (h : Sim T s t) : Sim T (freePmodules kind ps s) (freePmodules kind' ps t) := by
  induction ps generalizing s t with
  | nil => exact h
  | cons p ps ih =>
    obtain ⟨trace⟩ := h
    exact ih (.intro (free kind kind' p.data p.size trace))

section Handlers
variable {EL EW : Env} {d e : Driver} (same : SameAnswers EL EW) (h : InStep EL EW d e)
include same h

theorem ioctlUnloadVmmWith_agree (kind kind' : MemKind) :
    AnswersInStep EL EW (ioctlUnloadVmmWith EL kind d) (ioctlUnloadVmmWith EW kind' e) := by
  have unloaded := commonUnloadVmm_sim same.toAgree h.states
  have left := (commonUnloadVmm_effect EL 0 .unloadVmm d.common).calls
  have right := (commonUnloadVmm_effect EW 0 .unloadVmm e.common).calls
  unfold ioctlUnloadVmmWith
  dsimp only
  rw [same.sdk, unloaded.result, h.held]
  have freed := freePmodules_sim (T := SameCalls) (fun _ _ _ _ trace => congrArg (List.cons _) trace) kind kind' d.held
    unloaded.states
  have step := h.common freed (left.trans (freePmodules_calls kind d.held _)) (right.trans (freePmodules_calls kind' d.held _))
  exact ⟨rfl, step.states, step.contents, rfl, rfl, h.vcpuid⟩

theorem ioctlLoadVmmWith_agree (kind kind' : MemKind) (fuel : Nat) :
    AnswersInStep EL EW (ioctlLoadVmmWith EL kind fuel d) (ioctlLoadVmmWith EW kind' fuel e) := by
  have loaded := commonLoadVmm_sim same.toAgree h.states fuel
  have left := (commonLoadVmm_effect EL fuel d.common).calls
  have right := (commonLoadVmm_effect EW fuel e.common).calls
  have step := h.common loaded.states left right
  unfold ioctlLoadVmmWith
  dsimp only
  rw [same.sdk, loaded.result]
  cases (commonLoadVmm EL fuel d.common).1 with
  | none => exact ⟨rfl, step⟩
  | some ret =>
    dsimp only
    split
    · exact ⟨rfl, (ioctlUnloadVmmWith_agree same step kind kind').inStep⟩
    · exact ⟨rfl, step⟩

theorem ioctlStopVmm_agree : AnswersInStep EL EW (ioctlStopVmm EL d) (ioctlStopVmm EW e) := by
  have stopped := commonStopVmm_sim same.toAgree h.states
  have step := h.common stopped.states (commonStopVmm_kept EL d.common).calls (commonStopVmm_kept EW e.common).calls
  unfold ioctlStopVmm
  dsimp only
  rw [same.sdk, stopped.result]
  exact ⟨rfl, step⟩

theorem ioctlStartVmm_agree : AnswersInStep EL EW (ioctlStartVmm EL d) (ioctlStartVmm EW e) := by
  have started := commonStartVmm_sim same.toAgree h.states
  have step := h.common started.states (commonStartVmm_kept EL d.common).calls (commonStartVmm_kept EW e.common).calls
  unfold ioctlStartVmm
  dsimp only
  rw [same.sdk, started.result]
  split
  · exact ⟨rfl, (ioctlStopVmm_agree same step).inStep⟩
  · exact ⟨rfl, step⟩

/-- Copying to the user succeeds, and leaves the buffers alone. -/
structure CopiesOut (E : Env) (copy : State → Int × State) : Prop where
  succeeds : ∀ s, (copy s).1 = 0
  unseen : ∀ s, Unseen s (copy s).2
  contents : ∀ s, contents E (copy s).2.trace = contents E s.trace

theorem ioctlDumpVmmWith_agree {copy copy' : UInt64 → State → Int × State} (left : ∀ drr, CopiesOut EL (copy drr))
    (right : ∀ drr, CopiesOut EW (copy' drr)) :
    AnswersInStep EL EW (ioctlDumpVmmWith EL copy d) (ioctlDumpVmmWith EW copy' e) := by
  have dumped : Agrees SameCalls (commonDumpVmm EL EL.drrAddr d.vcpuid d.common)
      (commonDumpVmm EW EW.drrAddr e.vcpuid e.common) := by
    rw [same.drrAddr, h.vcpuid]
    exact commonDumpVmm_sim same.toAgree h.states EL.drrAddr d.vcpuid
  have step := h.common dumped.states (commonDumpVmm_kept EL d.common EL.drrAddr d.vcpuid).calls
    (commonDumpVmm_kept EW e.common EW.drrAddr e.vcpuid).calls
  unfold ioctlDumpVmmWith
  dsimp only
  rw [same.sdk, dumped.result]
  split
  · exact ⟨rfl, step⟩
  · have out := left (EL.drr (commonDumpVmm EL EL.drrAddr d.vcpuid d.common).2.trace)
    have out' := right (EW.drr (commonDumpVmm EW EW.drrAddr e.vcpuid e.common).2.trace)
    rw [out.succeeds, out'.succeeds]
    exact ⟨rfl, step.unseen (out.unseen _) (out'.unseen _)
      ((out'.contents _).trans (step.contents.trans (out.contents _).symm))⟩

/-- Copying the file from the user to the buffer succeeds, in the state `s`. -/
structure CopiesIn (E : Env) (copy : State → Int × State) (s : State) (buf : UInt64) (file : List UInt8) : Prop where
  succeeds : (copy s).1 = 0
  unseen : Unseen s (copy s).2
  contents : contents E (copy s).2.trace = Function.update (contents E s.trace) buf file

theorem ioctlAddModuleWith_agree {copy copy' : UInt64 → State → Int × State} {len : UInt64} {file : List UInt8}
    (left : ∀ buf, buf = EL.alloc d.common.trace .rw len →
      CopiesIn EL (copy buf) (d.common.emit (.alloc .file len buf)) buf file)
    (right : ∀ buf s, CopiesIn EW (copy' buf) s buf file) :
    AnswersInStep EL EW (ioctlAddModuleWith EL copy len d) (ioctlAddModuleWith EW copy' len e) := by
  obtain ⟨t, rfl⟩ := h.eq
  have alloc : EW.alloc t.trace .rw len = EL.alloc d.common.trace .rw len := by rw [same.alloc h.states.trace]
  unfold ioctlAddModuleWith
  dsimp only
  rw [same.sdk, alloc]
  split
  · exact ⟨rfl, h⟩
  · generalize hbuf : EL.alloc d.common.trace .rw len = buf
    have allocated := h.common (h.states.emit same.toAgree (.alloc .file len buf)) ((Grew.refl _).cons trivial)
      ((Grew.refl _).cons trivial)
    split
    · exact ⟨rfl, allocated⟩
    · have into := left buf hbuf.symm
      have into' := right buf (t.emit (.alloc .file len buf))
      have copied := allocated.unseen into.unseen into'.unseen
        (into'.contents.trans (allocated.contents ▸ into.contents.symm))
      rw [into.succeeds, into'.succeeds]
      generalize (copy buf _).2 = s at copied ⊢
      generalize (copy' buf _).2 = t at copied ⊢
      have added := commonAddModule_sim same.toAgree copied.states buf len
      have step := copied.common added.states (commonAddModule_effect EL 0 .loadVmm buf len s).calls
        (commonAddModule_effect EW 0 .loadVmm buf len t).calls
      rw [if_neg (not_not.mpr rfl), if_neg (not_not.mpr rfl), added.result]
      split
      · have freed := step.common (step.states.emit same.toAgree (.free .rw buf len)) ((Grew.refl _).cons trivial)
          ((Grew.refl _).cons trivial)
        exact ⟨rfl, freed⟩
      · exact ⟨rfl, step.states, step.contents, rfl, rfl, rfl⟩

end Handlers

/-! ### Requests -/

/-- Copies from and to the user succeed. -/
structure CopiesSucceed (E : Env) : Prop where
  fromUser : ∀ t src len, E.copyFromUser t src len = 0
  toUser : ∀ t dst len, E.copyToUser t dst len = 0

namespace Linux

/-- What a client of the driver does for one request: adding a module takes two ioctls. -/
inductive Client where
  | addModule (len file : UInt64)
  | ioctl (cmd : Cmd) (arg : UInt64)
  deriving Repr, DecidableEq

/-- The second ioctl is not made if the first fails. -/
def serve (E : Env) (fuel : Nat) : Client → Device → Option Int × Device
  | .addModule len file, d =>
    let r := devUnlockedIoctl E fuel .addModuleLength len d
    if r.1 ≠ some bfIoctlSuccess then r else devUnlockedIoctl E fuel .addModule file r.2
  | .ioctl cmd arg, d => devUnlockedIoctl E fuel cmd arg d

/-- The bytes that the user passes with a pointer to a file and one to its length: what a copy of so many bytes from the
    file leaves in a buffer, once the length was read, after the calls of `t`. -/
def fileAt (E : Env) (len file : UInt64) (t : Trace) : List UInt8 :=
  let size := wordAt E .moduleLength len t
  let t := .copyFromUser .moduleLength len 8 (E.copyFromUser t len 8) :: t
  E.userBytes (.alloc .file size (E.alloc t .rw size) :: t) file size

def succeeded (answer : Option Int) : Option Bool := answer.map (· = bfIoctlSuccess)

end Linux

namespace Windows

/-- The request brings a buffer with these bytes. -/
def DeviceControl.Brings (q : DeviceControl) (bytes : List UInt8) : Prop :=
  q.inputBufferLength ≠ 0 ∧ q.input = some bytes

/-- The request has a buffer for an answer of `len` bytes. -/
def DeviceControl.Takes (q : DeviceControl) (len : Nat) : Prop :=
  q.outputBufferLength ≠ 0 ∧ ∃ size, q.output = some size ∧ len ≤ size

/-- The buffers that the request names can be retrieved. -/
structure DeviceControl.Retrieves (q : DeviceControl) : Prop where
  input : (retrieveBuffer q.inputBufferLength q.input).isSome
  output : (retrieveBuffer q.outputBufferLength q.output).isSome

def succeeded (completion : Option Completion) : Option Bool := completion.map (·.status = .success)

end Windows

/-- The ioctls of a client and a device-control request ask the same: the user has the same words and bytes for both,
    those of the client at its pointers after the calls of `t`. -/
inductive SameRequest (E : Env) (t : Trace) : Linux.Client → Windows.DeviceControl → Prop where
  | addModule {q : Windows.DeviceControl} {len file : UInt64} (code : q.code = .addModule) (buffers : q.Retrieves)
      (input : q.Brings (Linux.fileAt E len file t)) (nonempty : Linux.fileAt E len file t ≠ []) (nonnull : len ≠ 0)
      (length : (Linux.wordAt E .moduleLength len t).toNat = (Linux.fileAt E len file t).length) :
      SameRequest E t (.addModule len file) q
  | loadVmm {q : Windows.DeviceControl} (arg : UInt64) (code : q.code = .loadVmm) (buffers : q.Retrieves) :
      SameRequest E t (.ioctl .loadVmm arg) q
  | unloadVmm {q : Windows.DeviceControl} (arg : UInt64) (code : q.code = .unloadVmm) (buffers : q.Retrieves) :
      SameRequest E t (.ioctl .unloadVmm arg) q
  | startVmm {q : Windows.DeviceControl} (arg : UInt64) (code : q.code = .startVmm) (buffers : q.Retrieves) :
      SameRequest E t (.ioctl .startVmm arg) q
  | stopVmm {q : Windows.DeviceControl} (arg : UInt64) (code : q.code = .stopVmm) (buffers : q.Retrieves) :
      SameRequest E t (.ioctl .stopVmm arg) q
  | dumpVmm {q : Windows.DeviceControl} {arg : UInt64} (code : q.code = .dumpVmm) (buffers : q.Retrieves)
      (output : q.Takes E.sdk.drrSize) (nonnull : arg ≠ 0) : SameRequest E t (.ioctl .dumpVmm arg) q
  | vmmStatus {q : Windows.DeviceControl} {arg : UInt64} (code : q.code = .vmmStatus) (buffers : q.Retrieves)
      (output : q.Takes 8) (nonnull : arg ≠ 0) : SameRequest E t (.ioctl .vmmStatus arg) q
  | setVcpuid {q : Windows.DeviceControl} {arg : UInt64} {bytes : List UInt8} (code : q.code = .setVcpuid)
      (buffers : q.Retrieves) (input : q.Brings bytes) (sized : 8 ≤ bytes.length) (nonnull : arg ≠ 0)
      (word : Linux.wordAt E .vcpuid arg t = Windows.wordAt bytes) : SameRequest E t (.ioctl .setVcpuid arg) q

/-- What a handler does when it succeeds or fails, its request is completed with, in step with the ioctl. -/
structure RequestsInStep (EL EW : Env) (r : Option Int × Linux.Device) (r' : Option Windows.Completion × Driver) : Prop where
  answer : Windows.succeeded r'.1 = Linux.succeeded r.1
  inStep : InStep EL EW r.2.toDriver r'.2

section Requests
variable {EL EW : Env} {d : Linux.Device} {e : Driver} {q : Windows.DeviceControl} {fuel : Nat}

/-- A request that retrieves its buffers is completed as its handler answers. -/
theorem requestsInStep_of_handler {input : Option (List UInt8)} {output : Option Nat} {r : Option Int × Linux.Device}
    {r' : Option Int × Driver} (hinput : Windows.retrieveBuffer q.inputBufferLength q.input = some input)
    (houtput : Windows.retrieveBuffer q.outputBufferLength q.output = some output)
    (handled : Windows.dispatch EW fuel q.code input output e = some r') (answer : r'.1 = r.1)
    (inStep : InStep EL EW r.2.toDriver r'.2) :
    RequestsInStep EL EW r (Windows.bareflankEvtIoDeviceControl EW fuel q e) := by
  unfold Windows.bareflankEvtIoDeviceControl
  rw [hinput]
  dsimp only
  rw [houtput]
  dsimp only
  rw [handled]
  rcases r' with ⟨ret | ret, t⟩
  · refine ⟨?_, inStep⟩
    rw [← answer]
    rfl
  · dsimp only at answer inStep ⊢
    split
    · rename_i failed
      refine ⟨?_, inStep⟩
      rw [← answer]
      simp [Windows.succeeded, Linux.succeeded, failed]
    · rename_i ok
      refine ⟨?_, inStep⟩
      rw [← answer]
      simp [Windows.succeeded, Linux.succeeded, not_not.mp ok]

theorem Windows.DeviceControl.Brings.retrieved {bytes : List UInt8} (h : q.Brings bytes) :
    Windows.retrieveBuffer q.inputBufferLength q.input = some (some bytes) := by
  rw [Windows.retrieveBuffer, if_pos h.1, h.2]
  rfl

theorem Windows.DeviceControl.Takes.retrieved {len : Nat} (h : q.Takes len) :
    ∃ size, Windows.retrieveBuffer q.outputBufferLength q.output = some (some size) := by
  obtain ⟨nonzero, size, output, -⟩ := h
  refine ⟨size, ?_⟩
  rw [Windows.retrieveBuffer, if_pos nonzero, output]
  rfl

theorem memcpyToOutput_copiesOut (size : Nat) (drr : UInt64) :
    CopiesOut EW fun s => (0, Windows.memcpyToOutput (some size) drr EW.sdk.drrSize s) := by
  unfold Windows.memcpyToOutput
  dsimp only
  split
  · exact ⟨fun s => rfl, fun s => .refl s, fun s => rfl⟩
  · exact ⟨fun s => rfl, fun s => .emit s rfl, fun s => rfl⟩

/-- A module is added by two ioctls as by one request. -/
theorem addModule_inStep (fuel : Nat) (same : SameAnswers EL EW) (copies : CopiesSucceed EL)
    (h : InStep EL EW d.toDriver e) {len file : UInt64} (nonnull : len ≠ 0)
    (length : (Linux.wordAt EL .moduleLength len d.common.trace).toNat = (Linux.fileAt EL len file d.common.trace).length) :
    let bytes := Linux.fileAt EL len file d.common.trace
    let r' := Windows.ioctlAddModule EW (some bytes) (UInt64.ofNat bytes.length) e
    (Linux.serve EL fuel (.addModule len file) d).1 = some r'.1 ∧
      InStep EL EW (Linux.serve EL fuel (.addModule len file) d).2.toDriver r'.2 := by
  dsimp only
  have first : Linux.devUnlockedIoctl EL fuel .addModuleLength len d =
      (some bfIoctlSuccess, (Linux.ioctlAddModuleLength EL len d).2) := by
    show (some (Linux.ioctlAddModuleLength EL len d).1, (Linux.ioctlAddModuleLength EL len d).2) = _
    unfold Linux.ioctlAddModuleLength Linux.copyFromUser
    rw [if_neg nonnull, copies.fromUser]
    rfl
  -- The first ioctl only copies the length, and that is the one which the user has.
  have stored : (Linux.ioctlAddModuleLength EL len d).2.moduleLength = Linux.wordAt EL .moduleLength len d.common.trace :=
    Linux.ioctlAddModuleLength_moduleLength nonnull
  have called : (Linux.ioctlAddModuleLength EL len d).2.common.trace =
      .copyFromUser .moduleLength len 8 (EL.copyFromUser d.common.trace len 8) :: d.common.trace := by
    unfold Linux.ioctlAddModuleLength
    rw [if_neg nonnull]
    rfl
  have told : InStep EL EW (Linux.ioctlAddModuleLength EL len d).2.toDriver e := by
    have copied := h.unseen (.emit d.common (e := .copyFromUser .moduleLength len 8 (EL.copyFromUser d.common.trace len 8)) rfl)
      (.refl e.common) h.contents
    unfold Linux.ioctlAddModuleLength
    rw [if_neg nonnull]
    exact copied
  unfold Linux.serve
  dsimp only
  rw [first, if_neg (not_not.mpr rfl)]
  unfold Linux.fileAt at length ⊢
  dsimp only at length ⊢
  rw [← stored, ← called] at length ⊢
  generalize (Linux.ioctlAddModuleLength EL len d).2 = d₁ at length told ⊢
  generalize hbytes : EL.userBytes _ file d₁.moduleLength = bytes at length ⊢
  have size : UInt64.ofNat bytes.length = d₁.moduleLength := by rw [← length, UInt64.ofNat_toNat]
  rw [size]
  have left : ∀ buf, buf = EL.alloc d₁.common.trace .rw d₁.moduleLength →
      CopiesIn EL (Linux.copyFromUser EL (.buffer buf) file d₁.moduleLength)
        (d₁.common.emit (.alloc .file d₁.moduleLength buf)) buf bytes := by
    rintro buf rfl
    refine ⟨copies.fromUser _ _ _, .emit _ rfl, ?_⟩
    rw [← hbytes]
    exact contents_copyFromUser ..
  have right : ∀ buf s, CopiesIn EW (fun s => (0, Windows.memcpyFromInput buf (some bytes) d₁.moduleLength s)) s buf bytes := by
    intro buf s
    refine ⟨rfl, .emit s rfl, (contents_readInput ..).trans ?_⟩
    rw [length, List.drop_zero, List.take_length]
  have added := ioctlAddModuleWith_agree same told left right
  exact ⟨congrArg some added.answer.symm, added.inStep⟩

theorem ioctlVmmStatus_agree (copies : CopiesSucceed EL) (h : InStep EL EW d.toDriver e) {arg : UInt64} (nonnull : arg ≠ 0)
    (size : Nat) : AnswersInStep EL EW
      ((Linux.ioctlVmmStatus EL arg d).1, (Linux.ioctlVmmStatus EL arg d).2.toDriver)
      (Windows.ioctlVmmStatus EW (some size) e) := by
  have step := h.unseen
    (.emit d.common (e := .copyToUser arg (.status d.common.vmmStatus) 8 (EL.copyToUser d.common.trace arg 8)) rfl)
    (.emit e.common (e := .writeOutput size 0 8 (.status e.common.vmmStatus)) rfl) h.contents
  have answered : Linux.ioctlVmmStatus EL arg d = (bfIoctlSuccess, { d with
      common := d.common.emit (.copyToUser arg (.status d.common.vmmStatus) 8 (EL.copyToUser d.common.trace arg 8)) }) := by
    unfold Linux.ioctlVmmStatus Linux.copyToUser
    rw [if_neg nonnull, copies.toUser]
    rfl
  rw [answered]
  exact ⟨rfl, step⟩

theorem ioctlSetVcpuid_agree (copies : CopiesSucceed EL) (h : InStep EL EW d.toDriver e) {arg : UInt64} (nonnull : arg ≠ 0)
    {bytes : List UInt8} (word : Linux.wordAt EL .vcpuid arg d.common.trace = Windows.wordAt bytes) :
    AnswersInStep EL EW ((Linux.ioctlSetVcpuid EL arg d).1, (Linux.ioctlSetVcpuid EL arg d).2.toDriver)
      (Windows.ioctlSetVcpuid EW (some bytes) e) := by
  have step := (h.unseen
    (.emit d.common (e := .copyFromUser .vcpuid arg 8 (EL.copyFromUser d.common.trace arg 8)) rfl)
    (.emit e.common (e := .readInput .vcpuid bytes 0 8) rfl) h.contents).withVcpuid (Windows.wordAt bytes)
  have answered : Linux.ioctlSetVcpuid EL arg d = (bfIoctlSuccess, { d with
      common := d.common.emit (.copyFromUser .vcpuid arg 8 (EL.copyFromUser d.common.trace arg 8))
      vcpuid := Windows.wordAt bytes }) := by
    rw [← word]
    unfold Linux.ioctlSetVcpuid Linux.copyFromUser Linux.wordAt
    rw [if_neg nonnull, copies.fromUser]
    rfl
  rw [answered]
  exact ⟨rfl, step⟩

/-- The same request keeps the drivers in step. -/
theorem serve_inStep (same : SameAnswers EL EW) (copies : CopiesSucceed EL) (h : InStep EL EW d.toDriver e)
    {c : Linux.Client} (request : SameRequest EL d.common.trace c q) :
    RequestsInStep EL EW (Linux.serve EL fuel c d) (Windows.bareflankEvtIoDeviceControl EW fuel q e) := by
  have buffers : q.Retrieves := by cases request <;> assumption
  obtain ⟨input, hinput⟩ := Option.isSome_iff_exists.mp buffers.input
  obtain ⟨output, houtput⟩ := Option.isSome_iff_exists.mp buffers.output
  cases request with
  | @addModule _ len file code _ brings _ nonnull length =>
    have step := addModule_inStep fuel same copies h nonnull length
    dsimp only at step
    have handled : ∀ bytes, Windows.dispatch EW fuel q.code (some bytes) output e =
        some (some (Windows.ioctlAddModule EW (some bytes) (UInt64.ofNat bytes.length) e).1,
          (Windows.ioctlAddModule EW (some bytes) (UInt64.ofNat bytes.length) e).2) := fun bytes => by rw [code]; rfl
    exact requestsInStep_of_handler brings.retrieved houtput (handled _) step.1.symm step.2
  | loadVmm arg code =>
    have step := ioctlLoadVmmWith_agree same h .rw .rwe fuel
    exact requestsInStep_of_handler hinput houtput (by rw [code]; rfl) step.answer step.inStep
  | unloadVmm arg code =>
    have step := ioctlUnloadVmmWith_agree same h .rw .rwe
    have handled : Windows.dispatch EW fuel q.code input output e =
      some (some (ioctlUnloadVmmWith EW .rwe e).1, (ioctlUnloadVmmWith EW .rwe e).2) := by rw [code]; rfl
    exact requestsInStep_of_handler hinput houtput handled (congrArg some step.answer) step.inStep
  | startVmm arg code =>
    have step := ioctlStartVmm_agree same h
    have handled : Windows.dispatch EW fuel q.code input output e =
      some (some (ioctlStartVmm EW e).1, (ioctlStartVmm EW e).2) := by rw [code]; rfl
    exact requestsInStep_of_handler hinput houtput handled (congrArg some step.answer) step.inStep
  | stopVmm arg code =>
    have step := ioctlStopVmm_agree same h
    have handled : Windows.dispatch EW fuel q.code input output e =
      some (some (ioctlStopVmm EW e).1, (ioctlStopVmm EW e).2) := by rw [code]; rfl
    exact requestsInStep_of_handler hinput houtput handled (congrArg some step.answer) step.inStep
  | @dumpVmm _ arg code _ takes =>
    obtain ⟨size, hsize⟩ := takes.retrieved
    have left : ∀ drr, CopiesOut EL (Linux.copyToUser EL arg (.memory drr) (UInt64.ofNat EL.sdk.drrSize)) :=
      fun drr => ⟨fun s => copies.toUser .., fun s => .emit s rfl, fun s => rfl⟩
    have step := ioctlDumpVmmWith_agree same h left (memcpyToOutput_copiesOut size)
    have handled : Windows.dispatch EW fuel q.code input (some size) e =
      some (some (Windows.ioctlDumpVmm EW (some size) e).1, (Windows.ioctlDumpVmm EW (some size) e).2) := by rw [code]; rfl
    exact requestsInStep_of_handler hinput hsize handled (congrArg some step.answer) step.inStep
  | @vmmStatus _ arg code _ takes nonnull =>
    obtain ⟨size, hsize⟩ := takes.retrieved
    have step := ioctlVmmStatus_agree copies h nonnull size
    have handled : Windows.dispatch EW fuel q.code input (some size) e =
      some (some (Windows.ioctlVmmStatus EW (some size) e).1, (Windows.ioctlVmmStatus EW (some size) e).2) := by rw [code]; rfl
    exact requestsInStep_of_handler hinput hsize handled (congrArg some step.answer) step.inStep
  | @setVcpuid _ arg bytes code _ brings sized nonnull word =>
    have step := ioctlSetVcpuid_agree copies h nonnull word
    have handled : Windows.dispatch EW fuel q.code (some bytes) output e = some
        (some (Windows.ioctlSetVcpuid EW (some bytes) e).1, (Windows.ioctlSetVcpuid EW (some bytes) e).2) := by rw [code]; rfl
    exact requestsInStep_of_handler brings.retrieved houtput handled (congrArg some step.answer) step.inStep

/-! ### Runs of both drivers -/

theorem InStep.initial (same : SameAnswers EL EW) :
    InStep EL EW (Linux.devInit EL).toDriver (Windows.bareflankQueueInitialize EW) := by
  have reset := commonReset_sim same.toAgree (s := .initial EL.sdk) (.intro rfl)
  have calls := (commonReset_calls EL (.initial EL.sdk))
  have calls' := (commonReset_calls EW (.initial EL.sdk))
  unfold Linux.devInit Windows.bareflankQueueInitialize
  rw [same.sdk]
  exact ⟨reset.states, (contents_of_calls EW calls').trans (contents_of_calls EL calls).symm, rfl, rfl, rfl⟩

end Requests

/-- The drivers side by side, with a request to each. -/
abbrev bothDrivers (EL EW : Env) (fuel : Nat) :=
  both (Linux.serve EL fuel) (Windows.bareflankEvtIoDeviceControl EW fuel)

/-- With the same answers from outside the drivers stay in step through the same requests and answer them alike, and
    the same module buffers are live. -/
theorem drivers_agree {EL EW : Env} (same : SameAnswers EL EW) (copies : CopiesSucceed EL) (fuel : Nat)
    {d : Linux.Device} {e : Driver}
    (h : ReachesBy (bothDrivers EL EW fuel) (fun s i => SameRequest EL s.1.common.trace i.1 i.2)
      (Linux.devInit EL, Windows.bareflankQueueInitialize EW) (d, e)) :
    (InStep EL EW d.toDriver e ∧ heap e.common.trace = heap d.common.trace) ∧
      ∀ c q, SameRequest EL d.common.trace c q → Windows.succeeded (Windows.bareflankEvtIoDeviceControl EW fuel q e).1 =
        Linux.succeeded (Linux.serve EL fuel c d).1 := by
  have inStep : InStep EL EW d.toDriver e :=
    h.lockstep (R := fun d e => InStep EL EW d.toDriver e) (.initial same)
      fun _ _ _ _ request inStep => (serve_inStep same copies inStep request).inStep
  exact ⟨⟨inStep, inStep.states.trace.heap⟩, fun c q request => (serve_inStep same copies inStep request).answer⟩

/-- The environment that answers after some calls as `E` does after the calls that both drivers make. -/
def Env.ofShared (E : Env) : Env where
  sdk := E.sdk
  alloc t := E.alloc (shared t)
  numCpus t := E.numCpus (shared t)
  currentCpuNum t := E.currentCpuNum (shared t)
  setAffinity t := E.setAffinity (shared t)
  virtToPhys t := E.virtToPhys (shared t)
  bfelfLoad t := E.bfelfLoad (shared t)
  setIntegerArgs t := E.setIntegerArgs (shared t)
  getLoadInstr t := E.getLoadInstr (shared t)
  enter t := E.enter (shared t)
  drrAddr := E.drrAddr
  drr t := E.drr (shared t)
  vmcall t := E.vmcall (shared t)
  copyFromUser t := E.copyFromUser (shared t)
  copyToUser t := E.copyToUser (shared t)
  userWord t := E.userWord (shared t)
  userBytes t := E.userBytes (shared t)
  drrAddr_ne := E.drrAddr_ne
  alloc_fresh t kind len h := heap_shared t ▸ E.alloc_fresh (shared t) kind len h

theorem sameAnswers_ofShared (E : Env) : SameAnswers E.ofShared E.ofShared where
  emit e h := by
    unfold SameCalls shared at h ⊢
    rw [List.filterMap_cons, List.filterMap_cons, h]
  sdk := rfl
  alloc h := congrArg E.alloc h
  numCpus h := congrArg E.numCpus h
  currentCpuNum h := congrArg E.currentCpuNum h
  setAffinity h := congrArg E.setAffinity h
  virtToPhys h := congrArg E.virtToPhys h
  bfelfLoad h := congrArg E.bfelfLoad h
  setIntegerArgs h := congrArg E.setIntegerArgs h
  getLoadInstr h := congrArg E.getLoadInstr h
  enter h := congrArg E.enter h
  vmcall h := congrArg E.vmcall h
  drrAddr := rfl

/-- Adding a module of 16 bytes and loading it. -/
def loadRequests : List (Linux.Client × Windows.DeviceControl) :=
  [(.addModule 0x6000 0x5000, .exact .addModule (List.replicate 16 0) 0), (.ioctl .loadVmm 0, .exact .loadVmm [] 0)]

theorem drivers_agree_after_load :
    let E := (testEnv { userWord := 16 }).ofShared
    let s := runFrom (bothDrivers E E 8) loadRequests (Linux.devInit E, Windows.bareflankQueueInitialize E)
    (InStep E E s.1.toDriver s.2 ∧ heap s.2.common.trace = heap s.1.common.trace) ∧
      ∀ c q, SameRequest E s.1.common.trace c q → Windows.succeeded (Windows.bareflankEvtIoDeviceControl E 8 q s.2).1 =
        Linux.succeeded (Linux.serve E 8 c s.1).1 :=
  drivers_agree (sameAnswers_ofShared _) ⟨fun _ _ _ => rfl, fun _ _ _ => rfl⟩ 8
    (Completes.reaches ⟨⟨.addModule rfl ⟨rfl, rfl⟩ ⟨by decide, rfl⟩ (by decide) (by decide) rfl, rfl⟩,
      ⟨.loadVmm 0 rfl ⟨rfl, rfl⟩, rfl⟩, trivial⟩)

end Bfdriver
