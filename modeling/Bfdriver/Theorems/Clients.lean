import Bfdriver.Theorems.Orphans

/-! # The clients of the Linux driver

A module and a dump are each asked for with two ioctls, which communicate through a global of the driver. The
global is the same for all clients: an ioctl uses the word that the last client passed. -/

namespace Bfdriver
open EventLog Runs

namespace Linux

/-! ### The words that clients pass -/

/-- An ioctl that a client makes. -/
structure Turn (ι : Type) where
  client : ι
  cmd : Cmd
  arg : UInt64
  deriving Repr, DecidableEq

/-- The words that the clients have passed for `g_module_length` and for `g_vcpuid`, newest first. -/
structure Left (ι : Type) where
  lengths : List (ι × UInt64) := []
  vcpuids : List (ι × UInt64) := []
  deriving Repr, DecidableEq

/-- The words so far with the one that a client passes by an ioctl after the calls of `t`. An ioctl with a null pointer
    passes none. -/
def Left.record {ι : Type} (E : Env) (l : Left ι) (i : Turn ι) (t : Trace) : Left ι :=
  if i.arg = 0 then l else
  match i.cmd with
  | .addModuleLength => { l with lengths := (i.client, wordAt E .moduleLength i.arg t) :: l.lengths }
  | .setVcpuid => { l with vcpuids := (i.client, wordAt E .vcpuid i.arg t) :: l.vcpuids }
  | _ => l

/-- The ioctl of a client, with a record of what it passes. -/
def takeTurn {ι : Type} (E : Env) (i : Nat × Turn ι) (s : Device × Left ι) : Option Int × (Device × Left ι) :=
  let r := devUnlockedIoctl E i.1 i.2.cmd i.2.arg s.1
  (r.1, (r.2, s.2.record E i.2 s.1.common.trace))

/-- The last word that any client passed. -/
def latest {ι : Type} (values : List (ι × UInt64)) : UInt64 := values.head?.elim 0 Prod.snd

/-- The last word that a client passed itself. -/
def ownLast {ι : Type} [DecidableEq ι] (c : ι) (values : List (ι × UInt64)) : Option UInt64 :=
  (values.find? fun v => v.1 = c).map Prod.snd

/-- No other client has passed a word since. -/
def Undisturbed {ι : Type} (c : ι) (values : List (ι × UInt64)) : Prop := ∀ v ∈ values.head?, v.1 = c

theorem Undisturbed.latest {ι : Type} [DecidableEq ι] {c : ι} {values : List (ι × UInt64)} {v : UInt64}
    (h : Undisturbed c values) (own : ownLast c values = some v) : latest values = v := by
  cases values with
  | nil => cases own
  | cons w values =>
    have mine : w.1 = c := h w rfl
    rw [ownLast, List.find?_cons_of_pos (by simp [mine])] at own
    exact Option.some.inj own

/-! ### What an ioctl uses -/

/-- The file at an address is registered with a length: so many bytes of it are copied to a new buffer, and the buffer
    is added to the modules. -/
def Registers (file len : UInt64) (d d' : Device) : Prop :=
  ∃ buf, d'.common.trace = .copyFromUser (.buffer buf) file len 0 :: .alloc .file len buf :: d.common.trace ∧
    d'.common.files = d.common.files ++ [(buf, len)]

/-- Every request between `d` and `d'` is for the debug ring of the CPU. -/
abbrev Queries (vcpuid : UInt64) (d d' : Device) : Prop :=
  Grew (Asks fun req => ∃ drr, req = .getDrr vcpuid drr) d.common.trace d'.common.trace

section Ioctls
variable {E : Env} {d : Device}

theorem ioctlAddModule_registers (slots : Slots E.sdk d.common) (file : UInt64)
    (h : (ioctlAddModule E file d).1 = bfIoctlSuccess) : Registers file d.moduleLength d (ioctlAddModule E file d).2 := by
  have untouched : ∀ buf s, Untouched s (copyFromUser E (.buffer buf) file d.moduleLength s).2 :=
    fun buf s => copyFromUser_untouched (.buffer buf) file d.moduleLength s
  have run := ioctlAddModuleWith_run (E := E) untouched d.moduleLength d.toDriver
  unfold ioctlAddModule at h ⊢
  generalize ioctlAddModuleWith E _ d.moduleLength d.toDriver = r at run h ⊢
  cases run with
  | failed => exact absurd h E.sdk.ioctlFailure_ne
  | @added t buf _ _ copies copied _ _ slot =>
    obtain ⟨ret, rfl⟩ := Prod.mk.inj copies
    refine ⟨buf, ?_, ?_⟩
    · show Event.copyFromUser (.buffer buf) file d.moduleLength _ :: _ = _
      rw [ret]
      rfl
    · exact withModule_files (slots.congr rfl rfl) slot buf d.moduleLength

theorem ioctlDumpVmm_queries (out : UInt64) : Queries d.vcpuid d (ioctlDumpVmm E out d).2 := by
  have dumped : Grew (Asks fun req => ∃ drr, req = .getDrr d.vcpuid drr) d.common.trace
      (commonDumpVmm E E.drrAddr d.vcpuid d.common).2.trace := by
    rcases commonDumpVmm_cases E E.drrAddr d.vcpuid d.common with same | ⟨-, called⟩
    · rw [same]
      exact .refl _
    · rw [called]
      exact (callVmm_asks E _ d.common).mono fun e he => by
        cases e <;> first | trivial | exact ⟨E.drrAddr, he⟩
  unfold ioctlDumpVmm ioctlDumpVmmWith
  dsimp only
  split
  · exact dumped
  · exact dumped.cons trivial

/-! ### The globals -/

theorem devUnlockedIoctl_moduleLength {fuel : Nat} {cmd : Cmd} {arg : UInt64} (h : cmd = .addModuleLength → arg = 0) :
    (devUnlockedIoctl E fuel cmd arg d).2.moduleLength = d.moduleLength := by
  cases cmd with
  | addModuleLength =>
    show (ioctlAddModuleLength E arg d).2.moduleLength = _
    rw [ioctlAddModuleLength, if_pos (h rfl)]
  | vmmStatus =>
    show (ioctlVmmStatus E arg d).2.moduleLength = _
    unfold ioctlVmmStatus
    split <;> rfl
  | setVcpuid =>
    show (ioctlSetVcpuid E arg d).2.moduleLength = _
    unfold ioctlSetVcpuid
    split <;> rfl
  | _ => rfl

end Ioctls

section Globals
variable {E : Env} {d : Driver}

theorem ioctlAddModuleWith_vcpuid (copy : UInt64 → State → Int × State) (len : UInt64) :
    (ioctlAddModuleWith E copy len d).2.vcpuid = d.vcpuid := by
  unfold ioctlAddModuleWith
  dsimp only
  split
  · rfl
  · split
    · rfl
    · split
      · rfl
      · split <;> rfl

theorem ioctlLoadVmmWith_vcpuid (kind : MemKind) (fuel : Nat) : (ioctlLoadVmmWith E kind fuel d).2.vcpuid = d.vcpuid := by
  unfold ioctlLoadVmmWith
  dsimp only
  split
  · rfl
  · split <;> rfl

theorem ioctlStartVmm_vcpuid : (ioctlStartVmm E d).2.vcpuid = d.vcpuid := by
  unfold ioctlStartVmm
  dsimp only
  split <;> rfl

theorem ioctlDumpVmmWith_vcpuid (copy : UInt64 → State → Int × State) :
    (ioctlDumpVmmWith E copy d).2.vcpuid = d.vcpuid := by
  unfold ioctlDumpVmmWith
  dsimp only
  split <;> rfl

theorem devUnlockedIoctl_vcpuid {d : Device} {fuel : Nat} {cmd : Cmd} {arg : UInt64} (h : cmd = .setVcpuid → arg = 0) :
    (devUnlockedIoctl E fuel cmd arg d).2.vcpuid = d.vcpuid := by
  cases cmd with
  | addModule => exact ioctlAddModuleWith_vcpuid _ _
  | addModuleLength =>
    show (ioctlAddModuleLength E arg d).2.vcpuid = _
    unfold ioctlAddModuleLength
    split <;> rfl
  | loadVmm => exact ioctlLoadVmmWith_vcpuid .rw fuel
  | startVmm => exact ioctlStartVmm_vcpuid
  | dumpVmm => exact ioctlDumpVmmWith_vcpuid _
  | vmmStatus =>
    show (ioctlVmmStatus E arg d).2.vcpuid = _
    unfold ioctlVmmStatus
    split <;> rfl
  | setVcpuid =>
    show (ioctlSetVcpuid E arg d).2.vcpuid = _
    rw [ioctlSetVcpuid, if_pos (h rfl)]
  | _ => rfl

end Globals

/-! ### All clients -/

section Clients
variable {E : Env} {ι : Type} {d : Device} {l : Left ι}

/-- The globals hold what was passed for them last, and the tables are in order. -/
structure LeftInv (E : Env) (d : Device) (l : Left ι) : Prop where
  buffers : BufferInv E d.toDriver
  length : d.moduleLength = latest l.lengths
  vcpuid : d.vcpuid = latest l.vcpuids

theorem LeftInv.initial (E : Env) : LeftInv (ι := ι) E (devInit E) {} := ⟨.initial E, rfl, rfl⟩

theorem LeftInv.turn (h : LeftInv E d l) (i : Nat × Turn ι) (returned : (takeTurn E i (d, l)).1.isSome) :
    LeftInv E (takeTurn E i (d, l)).2.1 (takeTurn E i (d, l)).2.2 := by
  obtain ⟨fuel, c, cmd, arg⟩ := i
  refine ⟨devUnlockedIoctl_bufferInv arg h.buffers returned, ?_, ?_⟩
  · show (devUnlockedIoctl E fuel cmd arg d).2.moduleLength = latest (Left.record E l ⟨c, cmd, arg⟩ _).lengths
    unfold Left.record
    dsimp only
    split
    · rename_i null
      rw [devUnlockedIoctl_moduleLength fun _ => null, h.length]
    · rename_i nonnull
      cases cmd with
      | addModuleLength => exact ioctlAddModuleLength_moduleLength nonnull
      | _ => exact (devUnlockedIoctl_moduleLength (by simp)).trans h.length
  · show (devUnlockedIoctl E fuel cmd arg d).2.vcpuid = latest (Left.record E l ⟨c, cmd, arg⟩ _).vcpuids
    unfold Left.record
    dsimp only
    split
    · rename_i null
      rw [devUnlockedIoctl_vcpuid fun _ => null, h.vcpuid]
    · rename_i nonnull
      cases cmd with
      | setVcpuid => exact ioctlSetVcpuid_vcpuid nonnull
      | _ => exact (devUnlockedIoctl_vcpuid (by simp)).trans h.vcpuid

/-- The states between the ioctls of clients in any order. -/
abbrev Interleaved (E : Env) (d : Device) (l : Left ι) : Prop :=
  ReachesBy (takeTurn E) (fun _ _ => True) (devInit E, ({} : Left ι)) (d, l)

theorem Interleaved.inv (h : Interleaved E d l) : LeftInv E d l :=
  h.invariant (I := fun s => LeftInv E s.1 s.2) (.initial E) fun _ i _ returned inv => inv.turn i returned

end Clients

end Linux

/-- The test platform with two users: the one at `0x6000` has the word 16, the other the word 32. -/
def twoUsers : Env := { testEnv {} with userWord := fun _ src => if src = 0x6000 then 16 else 32 }

/-- Two clients add a module each, one after the other. -/
def inTurn : List (Nat × Linux.Turn Bool) :=
  [(8, ⟨true, .addModuleLength, 0x6000⟩), (8, ⟨true, .addModule, 0x5000⟩), (8, ⟨false, .addModuleLength, 0x7000⟩)]

end Bfdriver
