import Bfdriver.Test.Platform
import Bfdriver.Theorems.DriverReleases

/-! # The leak check of the unit tests

The counters of the test platform hold the number of live blocks of each kind, but for allocations that are counted and
return null: a `malloc` that fails counts one up, and pages that cannot be protected count one down, in the counter of
the other kind. Where none of these happens, the check finds every leak and reports no other. -/

namespace Bfdriver.Test
open EventLog BlockHeap

/-- The number of live blocks of a kind. -/
noncomputable abbrev live (t : Trace) (q : MemKind) : Nat := population (heap t) fun b => b.site.kind = q

instance finiteUInt64 : Finite UInt64 := Finite.of_injective UInt64.toFin fun _ _ => UInt64.toFin_inj.mp

namespace Libc
variable (L : Libc) (k : Sdk)

/-- The counters if only the allocations that return null were counted. -/
def slips : Trace → Counts
  | [] => {}
  | .alloc site len _ :: t =>
    let r := L.platformAlloc k t site.kind len (slips t)
    if r.1 = 0 then r.2 else slips t
  | _ :: t => slips t

/-- The address of an allocation does not depend on the counters, all counters change alike, and by one block of the kind
    unless the address is null. -/
theorem platformAlloc_adds (t : Trace) (kind : MemKind) (len : UInt64) :
    ∃ (addr : UInt64) (delta : MemKind → Int), (addr ≠ 0 → ∀ q, delta q = if kind = q then 1 else 0) ∧
      ∀ c, (L.platformAlloc k t kind len c).1 = addr ∧ ∀ q, (L.platformAlloc k t kind len c).2.of q = c.of q + delta q := by
  have refused (c : Counts) : ((0 : UInt64), c).1 = 0 ∧ ∀ q, ((0 : UInt64), c).2.of q = c.of q + 0 :=
    ⟨rfl, fun q => (add_zero _).symm⟩
  cases kind with
  | rw =>
    unfold platformAlloc platformAllocRw
    dsimp only
    split
    · exact ⟨0, fun _ => 0, fun some => absurd rfl some, refused⟩
    · refine ⟨L.malloc t len, fun q => if .rw = q then 1 else 0, fun _ _ => rfl, fun c => ⟨rfl, fun q => ?_⟩⟩
      cases q <;> simp [Counts.of]
  | rwe =>
    unfold platformAlloc platformAllocRwe
    dsimp only
    split
    · exact ⟨0, fun _ => 0, fun some => absurd rfl some, refused⟩
    · rcases L.posixMemalign t k.maxPageSize (pageRoundUp k len) with _ | addr
      · exact ⟨0, fun _ => 0, fun some => absurd rfl some, refused⟩
      · dsimp only
        split
        · refine ⟨0, fun q => if .rw = q then -1 else 0, fun some => absurd rfl some, fun c => ⟨rfl, fun q => ?_⟩⟩
          cases q <;> simp [Counts.of, platformFreeRw, Int.sub_eq_add_neg]
        · refine ⟨addr, fun q => if .rwe = q then 1 else 0, fun _ _ => rfl, fun c => ⟨rfl, fun q => ?_⟩⟩
          cases q <;> simp [Counts.of]

theorem platformFree_of (kind q : MemKind) (c : Counts) :
    (platformFree kind c).of q = c.of q - if kind = q then 1 else 0 := by
  cases kind <;> cases q <;> simp [platformFree, platformFreeRw, platformFreeRwe, Counts.of]

/-- The counters count the live blocks, and the slips. -/
theorem counts_eq {W : Env} {t : Trace} (answers : AtEach (Answers (L.env W)) t) (frees : AtEach FreesLive t) (q : MemKind) :
    (L.counts W.sdk t).of q = live t q + (L.slips W.sdk t).of q := by
  induction t with
  | nil =>
    have none : live [] q = 0 := population_empty _
    rw [none]
    cases q <;> rfl
  | cons e t ih =>
    cases answers with
    | cons here answers =>
      cases frees with
      | cons frees before =>
        have ih := ih answers before
        cases e with
        | alloc site len addr =>
          obtain ⟨a, delta, block, alike⟩ := L.platformAlloc_adds W.sdk t site.kind len
          have same : addr = a := here.trans (alike _).1
          have counted : (L.counts W.sdk (.alloc site len addr :: t)).of q = (L.counts W.sdk t).of q + delta q := (alike _).2 q
          have slipped : (L.slips W.sdk (.alloc site len addr :: t)).of q =
              (L.slips W.sdk t).of q + if addr = 0 then delta q else 0 := by
            rw [slips, (alike _).1, same]
            split
            · exact (alike _).2 q
            · exact (add_zero _).symm
          rw [counted, slipped, ih]
          by_cases null : addr = 0
          · have unchanged : live (.alloc site len addr :: t) q = live t q := by
              unfold live
              rw [heap_of_none (by simp [memOp?, null])]
            rw [unchanged, if_pos null]
            exact add_assoc ..
          · have fresh : heap t addr = none := by
              have free := (L.env W).alloc_fresh t site.kind len
              rw [← here] at free
              exact free null
            have more : live (.alloc site len addr :: t) q = live t q + if site.kind = q then 1 else 0 := by
              unfold live
              rw [heap_alloc null]
              exact population_alloc fresh
            rw [more, if_neg null, block (same ▸ null) q]
            split <;> omega
        | free kind addr len =>
          obtain ⟨b, held, rightKind, -⟩ := frees
          have fewer : live t q = live (.free kind addr len :: t) q + if b.site.kind = q then 1 else 0 := population_free held
          have counted : (L.counts W.sdk (.free kind addr len :: t)).of q = _ := platformFree_of kind q (L.counts W.sdk t)
          have slipped : L.slips W.sdk (.free kind addr len :: t) = L.slips W.sdk t := rfl
          rw [counted, slipped, ih, fewer, rightKind]
          split <;> omega
        | _ => exact ih

/-- Counters that count the live blocks are zero exactly if there are none. -/
theorem verifyNoMemLeaks_iff {t : Trace} (exact : ∀ q, (L.counts k t).of q = live t q) :
    verifyNoMemLeaks (L.counts k t) ↔ ∀ a, heap t a = none := by
  have rw := exact .rw
  have rwe := exact .rwe
  unfold verifyNoMemLeaks
  rw [decide_eq_true_iff]
  constructor
  · rintro ⟨noRw, noRwe⟩ a
    by_contra some
    obtain ⟨b, live⟩ := Option.ne_none_iff_exists'.mp some
    rcases kind : b.site.kind with _ | _
    · exact population_eq_zero (Int.natCast_eq_zero.mp (rw.symm.trans noRw)) a b live kind
    · exact population_eq_zero (Int.natCast_eq_zero.mp (rwe.symm.trans noRwe)) a b live kind
  · intro empty
    have none (q : MemKind) : live t q = 0 := by
      have free : heap t = fun _ => Option.none := funext empty
      unfold live
      rw [free]
      exact population_empty _
    rw [none] at rw rwe
    exact ⟨rw, rwe⟩

/-- The memory of a run of the tests. -/
theorem counts_of_run {W : Env} {s : State} (h : Reachable (L.env W) s) (fuel : Nat) (op : Op) (q : MemKind) :
    (L.counts W.sdk (exec (L.env W) fuel op s).2.trace).of q =
      live (exec (L.env W) fuel op s).2.trace q + (L.slips W.sdk (exec (L.env W) fuel op s).2.trace).of q := by
  have frees := (h.releaseInv.effect (exec_effect (L.env W) fuel op s)).frees
  have answers := Passes.answers (h.passes.trans (exec_passes (L.env W) s fuel op)) .nil
  exact L.counts_eq answers frees q

end Libc

/-- A C library that never fails while addresses are left. -/
def testLibc : Libc where
  gMallocFails _ := 0
  gSetAfinityFails _ := 0
  gVmcall _ := 0
  malloc t _ := testAlloc t
  posixMemalign t _ _ := some (testAlloc t)
  mprotect _ _ _ := 0
  malloc_fresh t len := (testEnv {}).alloc_fresh t .rw len
  posixMemalign_fresh t _ len addr stored := by
    cases stored
    exact (testEnv {}).alloc_fresh t .rwe len

end Bfdriver.Test
