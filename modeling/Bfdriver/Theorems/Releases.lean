import Bfdriver.Theorems.Coupling
import Bfdriver.Theorems.Ownership
import Bfdriver.Uefi.Platform

/-! # Releases and leaks

Every release of a run names a live allocation, and an unloaded driver holds no memory unless a load
overwrote the pointers of an earlier one. -/

namespace Bfdriver
open EventLog BlockHeap

/-! ### Releases of live allocations -/

/-- A release names a live allocation of its kind and length. -/
def FreesLive (past : Trace) : Event → Prop
  | .free kind a len => ∃ b, heap past a = some b ∧ b.site.kind = kind ∧ b.len = len
  | _ => True

theorem freesLive_of_owned {t : Trace} {ps : Pointers} {a : UInt64} {b : Block}
    (h : Owned (heap t) ((a, b) :: ps)) : FreesLive t (.free b.site.kind a b.len) :=
  ⟨b, h.live (a, b) List.mem_cons_self, rfl, rfl⟩

theorem freesLive_releases (ps qs : Pointers) (t : Trace) (h : Owned (heap t) (ps ++ qs))
    (hf : AtEach FreesLive t) : AtEach FreesLive (releases ps t) := by
  induction ps generalizing t with
  | nil => exact hf
  | cons p ps ih => exact ih _ h.free (hf.cons (freesLive_of_owned h))

theorem freesLive_of_setsUp {t : Trace} {e : Event} (h : SetsUp e) : FreesLive t e := by
  cases e <;> trivial

theorem freesLive_of_leavesMemory {r : Resources} {t : Trace} {e : Event} (h : LeavesMemory r e) :
    FreesLive t e := by
  cases e <;> trivial

section Operations
variable {E : Env} {outer : Pointers} {fuel : Nat} {op : Op} {s t : State}

/-- The releases so far named live allocations, and so will the next reset. -/
structure ReleaseInv (E : Env) (outer : Pointers) (s : State) : Prop extends MemoryInv E outer s where
  frees : AtEach FreesLive s.trace

namespace ReleaseInv

theorem setsUp (h : ReleaseInv E outer s) (inv : MemoryInv E outer t) (g : Grew SetsUp s.trace t.trace) :
    ReleaseInv E outer t := ⟨inv, h.frees.grew g fun _ _ _ he => freesLive_of_setsUp he⟩

theorem kept (h : ReleaseInv E outer s) (k : Kept s t) : ReleaseInv E outer t :=
  ⟨h.toMemoryInv.kept k, h.frees.grew k.grew fun _ _ _ he => freesLive_of_leavesMemory he⟩

theorem reset (h : ReleaseInv E outer s) : ReleaseInv E outer (commonReset E s).2 := by
  refine ⟨h.toMemoryInv.reset, ?_⟩
  rw [commonReset_eq]
  exact freesLive_releases s.pointers outer s.trace h.owned h.frees

theorem effect (h : ReleaseInv E outer s) (e : Effect E fuel op s t) : ReleaseInv E outer t := by
  cases e with
  | kept kept => exact h.kept kept
  | added file fsize unloaded room => exact ⟨h.toMemoryInv.added room file fsize, h.frees⟩
  | reset kept => exact (h.kept kept).reset
  | load isLoad unloaded some run =>
    have stack := h.setsUp h.toMemoryInv.stack (setupStack_grew E s)
    have tls := stack.setsUp stack.toMemoryInv.tls (setupTls_grew E _)
    have elf := tls.setsUp tls.toMemoryInv.elf (bfelfLoad_grew E _)
    exact run.of_stages stack tls elf (fun _ _ hu hk => hu.kept hk) fun _ hu => hu.reset

end ReleaseInv

end Operations

theorem ReachableBy.releaseInv {E : Env} {P : State → Op → Prop} {s : State} (h : ReachableBy E P s) :
    ReleaseInv E [] s := by
  refine h.invariant ⟨commonInit_memoryInv E, ?_⟩ fun s fuel op _ _ _ ih => ih.effect (exec_effect E fuel op s)
  have none : (State.initial E.sdk).pointers = [] := by
    simp [State.pointers, State.initial, State.added, execPointers, pointerAt]
  rw [commonInit, commonReset_eq, none]
  exact AtEach.nil

/-- A release of a live block gives back as many pages as its allocation took. -/
theorem FreesLive.samePages {t : Trace} {e : Event} (h : FreesLive t e) : Uefi.FreesSamePages t e := by
  intro addr pages hcall
  cases e with
  | alloc site len a => cases site <;> cases hcall
  | free kind a len =>
    obtain ⟨b, hb, -, hlen⟩ := h
    have held : Uefi.pagesHeld t a = some (len / Uefi.efiPageSize + 1) := by
      rw [Uefi.pagesHeld_eq, hb, Option.map_some, hlen]
    cases kind <;> cases hcall <;> exact held
  | _ => cases hcall

/-- Every release of a run, also of a load that has not returned, names a live allocation of its kind and
    length, and on UEFI gives back as many pages as its allocation took. -/
theorem frees_disciplined {E : Env} {s : State} (h : Reachable E s) (fuel : Nat) (op : Op) :
    AtEach FreesLive (exec E fuel op s).2.trace ∧ AtEach Uefi.FreesSamePages (exec E fuel op s).2.trace := by
  have frees := (h.releaseInv.effect (exec_effect E fuel op s)).frees
  exact ⟨frees, frees.imp fun _ _ => FreesLive.samePages⟩

theorem frees_disciplined_at_fini :
    AtEach FreesLive (exec (testEnv {}) 8 .fini (after (testEnv {}) 8 startOps)).2.trace ∧
      AtEach Uefi.FreesSamePages (exec (testEnv {}) 8 .fini (after (testEnv {}) 8 startOps)).2.trace :=
  frees_disciplined (reachable_after (by decide +kernel)) 8 .fini

/-! ### Leaks -/

/-- A load does not find memory that an earlier load left behind. -/
def LoadsClean (s : State) (op : Op) : Prop :=
  op = .loadVmm → s.vmmStatus = .unloaded → s.numModules ≠ 0 → s.stack = 0

instance (s : State) (op : Op) : Decidable (LoadsClean s op) := inferInstanceAs (Decidable (_ → _))

/-- Every live allocation is named by a pointer of the state or of its frame. -/
def Accounted (outer : Pointers) (s : State) : Prop := Covers (heap s.trace) (s.pointers ++ outer)

namespace Accounted
variable {E : Env} {outer : Pointers} {fuel : Nat} {s t : State}

theorem kept (h : Accounted outer s) (k : Kept s t) : Accounted outer t := by
  unfold Accounted
  rwa [k.heap, k.pointers]

theorem reset (h : Accounted outer s) : Accounted outer (commonReset E s).2 := by
  unfold Accounted
  rw [commonReset_pointers, commonReset_eq]
  exact covers_releases s.pointers outer s.trace h

theorem stack (h : Covers (heap s.trace) outer) (hp : s.pointers = []) :
    Accounted outer (loadStack E s).2 := by
  unfold Accounted
  obtain ⟨hexec, htls, -⟩ := State.pointers_eq_nil.mp hp
  rw [setupStack_heap, setupStack_pointers, execPointers_eq_nil.mpr hexec, htls, pointerAt_zero]
  exact covers_alloc _ _ h

theorem tls (h : Covers (heap s.trace) outer) (hp : s.pointers = []) :
    Accounted outer (loadTls E s).2 := by
  obtain ⟨hexec, htls, -⟩ := State.pointers_eq_nil.mp hp
  have stack := stack (E := E) h hp
  unfold Accounted State.pointers at stack
  rw [setupStack_added, execPointers_eq_nil.mpr hexec, setupStack_tls, htls, pointerAt_zero] at stack
  unfold Accounted
  rw [setupTls_heap, setupTls_pointers, setupStack_added, execPointers_eq_nil.mpr hexec, List.nil_append,
    List.append_assoc]
  exact covers_alloc _ _ stack

theorem elf (h : Covers (heap s.trace) outer) (hp : s.pointers = []) :
    Accounted outer (loadElf E s).2 := by
  obtain ⟨hexec, -, -⟩ := State.pointers_eq_nil.mp hp
  have added : (loadTls E s).2.added = s.added := (setupTls_added E _).trans (setupStack_added E s)
  have tls := tls (E := E) h hp
  unfold Accounted State.pointers at tls
  rw [added, execPointers_eq_nil.mpr hexec, List.nil_append] at tls
  unfold Accounted
  rw [bfelfLoad_pointers, bfelfLoad_heap, List.append_assoc]
  exact loadImages_covers E _ _ _ _ (added ▸ hexec) tls

theorem effect {op : Op} (h : Accounted outer s) (hs : Slots E.sdk s) (settled : Settled s) (clean : LoadsClean s op)
    (e : Effect E fuel op s t) : Accounted outer t := by
  cases e with
  | kept kept => exact h.kept kept
  | added file fsize unloaded room =>
    unfold Accounted
    rw [withModule_pointers hs room]
    exact h
  | reset kept => exact (h.kept kept).reset
  | load isLoad unloaded some run =>
    have hp := settled.empty (clean isLoad unloaded some)
    have free : Covers (heap s.trace) outer := by
      unfold Accounted at h
      rwa [hp] at h
    exact run.of_stages (stack free hp) (tls free hp) (elf free hp) (fun _ _ hu hk => hu.kept hk) fun _ hu => hu.reset

end Accounted

theorem commonInit_accounted (E : Env) : Accounted [] (commonInit E (.initial E.sdk)).2 := by
  refine Accounted.reset fun a ha => ?_
  exact absurd rfl ha

theorem ReachableBy.accounted {E : Env} {s : State} (h : ReachableBy E LoadsClean s) : Accounted [] s :=
  h.invariant (commonInit_accounted E) fun s fuel op before clean _ ih =>
    ih.effect before.memoryInv.slots before.settled clean (exec_effect E fuel op s)

/-- An unload or a finalisation that leaves the driver unloaded leaves it without modules. -/
theorem numModules_of_unloaded {E : Env} {fuel : Nat} {op : Op} {s : State} (hop : op = .unloadVmm ∨ op = .fini)
    (h : (exec E fuel op s).2.vmmStatus = .unloaded) : (exec E fuel op s).2.numModules = 0 := by
  rcases hop with rfl | rfl
  · exact commonUnloadVmm_numModules h
  · change (commonFini E s).2.vmmStatus = .unloaded at h
    show (commonFini E s).2.numModules = 0
    unfold commonFini at h ⊢
    dsimp only at h ⊢
    split at h
    · rename_i hcorrupt
      exact absurd (hcorrupt.symm.trans h) (by simp)
    · rename_i hne
      rw [if_neg hne]
      split at h
      · rename_i hm
        rw [if_pos hm]
        exact commonReset_numModules E _
      · rename_i hm
        rw [if_neg hm]
        have none : ¬0 < (finiUnload E (finiStop E s)).numModules := fun h0 => hm ⟨h, h0⟩
        exact Nat.eq_zero_of_not_pos none

/-- When every load started clean, an unloaded driver holds no memory. -/
theorem no_leak {E : Env} {s : State} (h : ReachableBy E LoadsClean s) (fuel : Nat) {op : Op}
    (hop : op = .unloadVmm ∨ op = .fini) (hst : (exec E fuel op s).2.vmmStatus = .unloaded) (a : UInt64) :
    heap (exec E fuel op s).2.trace a = none := by
  have clean : LoadsClean s op := by rcases hop with rfl | rfl <;> intro h <;> cases h
  have effect := exec_effect E fuel op s
  have settled := h.settled.effect h.memoryInv.slots effect
  have covered := h.accounted.effect h.memoryInv.slots h.settled clean effect
  unfold Accounted at covered
  rw [settled.empty (settled.idle (numModules_of_unloaded hop hst))] at covered
  exact covered.empty a

theorem no_leak_after_fini :
    heap (exec (testEnv {}) 8 .fini (after (testEnv {}) 8 startOps)).2.trace 0x100000 = none :=
  no_leak (reachableBy_after (by decide +kernel)) 8 (.inr rfl) (by decide +kernel) 0x100000

/-- A load after one whose TLS was refused overwrites the pointers to the memory of the first. -/
theorem leak_after_reload : ¬∀ (E : Env) (s : State), Reachable E s → ∀ (fuel : Nat) (op : Op),
    (op = .unloadVmm ∨ op = .fini) → (exec E fuel op s).1 = some bfSuccess →
      (exec E fuel op s).2.vmmStatus = .unloaded → ∀ a, heap (exec E fuel op s).2.trace a = none := by
  intro all
  -- The VMM refuses the first page of the TLS, which is the third request of the first load, and nothing else.
  let E := testEnv { enter := fun t _ => if t.count .restorePreemption = 2 then -1 else bfSuccess }
  let s := after E 8 [.addModule 0x5000 100, .loadVmm, .loadVmm]
  have empty := all E s (reachable_after (by decide +kernel)) 8 .unloadVmm (.inl rfl) (by decide +kernel)
    (by decide +kernel)
  have live : heap (exec E 8 .unloadVmm s).2.trace 0x100000 ≠ none := by decide +kernel
  exact live (empty 0x100000)

end Bfdriver
