import Bfdriver.Theorems.Coverage

/-! # Code and data apart

A page that is registered as code should not be registered as data. Each page has the type of the region it is
registered for, so that this is a matter of which pages the loops over two regions have in common. They have none
in common with their bytes in different pages, unless one of them gets to the page behind its region. -/

namespace Bfdriver
open EventLog Pages

/-! ### Pages of regions -/

namespace Region
variable {k : Sdk} {fuel : Nat} {region x w : Region} {page p : UInt64}

/-- The region is registered as code. -/
def Executable (k : Sdk) : Region → Prop
  | segment _ instr => instr.perm &&& k.bfpfX ≠ 0
  | tls .. => False

instance : Decidable (region.Executable k) :=
  match region with
  | segment _ instr => inferInstanceAs (Decidable (instr.perm &&& k.bfpfX ≠ 0))
  | tls .. => inferInstanceAs (Decidable False)

/-- A byte of the region lies in the page. -/
def Occupies (k : Sdk) (region : Region) (page : UInt64) : Prop :=
  ∃ a, Within region.base region.len a ∧ pageMask k a = page

/-- The page of the address at which the region ends, the one behind its last byte. -/
def endPage (k : Sdk) (region : Region) : UInt64 := pageMask k (region.base + region.len)

/-- The page is the end page of a segment or has a byte of it, or it has an address that is some page sizes, at most the
    size of the TLS, behind the start of the TLS. -/
def Touches (k : Sdk) : Region → UInt64 → Prop
  | segment m instr, page => (segment m instr).Occupies k page ∨ page = (segment m instr).endPage k
  | tls addr size, page => ∃ a i, a.toNat = addr.toNat + i * k.maxPageSize.toNat ∧
      i * k.maxPageSize.toNat ≤ size.toNat ∧ pageMask k a = page

/-- The region does not run over the end of the address space. -/
abbrev Whole (region : Region) : Prop := region.base.toNat + region.len.toNat < UInt64.size

theorem type_of_executable (h : region.Executable k) : region.type k = k.memoryTypeR ||| k.memoryTypeE := by
  cases region with
  | tls => exact h.elim
  | segment m instr => exact if_pos h

theorem type_of_not_executable (h : ¬region.Executable k) : region.type k = k.memoryTypeR ||| k.memoryTypeW := by
  cases region with
  | tls => rfl
  | segment m instr => exact if_neg h

theorem type_eq_code (ne : k.memoryTypeR ||| k.memoryTypeE ≠ k.memoryTypeR ||| k.memoryTypeW) :
    region.type k = k.memoryTypeR ||| k.memoryTypeE ↔ region.Executable k := by
  refine ⟨fun code => ?_, type_of_executable⟩
  by_contra data
  exact ne (code.symm.trans (type_of_not_executable data))

theorem type_eq_data (ne : k.memoryTypeR ||| k.memoryTypeE ≠ k.memoryTypeR ||| k.memoryTypeW) :
    region.type k = k.memoryTypeR ||| k.memoryTypeW ↔ ¬region.Executable k :=
  ⟨fun data code => ne ((type_of_executable code).symm.trans data), type_of_not_executable⟩

section
variable (hk : k.maxPageSize.toNat.isPowerOfTwo)
include hk

theorem pageMask_pageMask (a : UInt64) : pageMask k (pageMask k a) = pageMask k a := start_eq_self hk (dvd_start hk a)

/-- A page from that of the first byte of a region on that lies before its end page has a byte of the region. -/
theorem occupies_of_lt (whole : region.Whole) (aligned : k.maxPageSize.toNat ∣ p.toNat)
    (behind : (pageMask k region.base).toNat ≤ p.toNat) (before : p.toNat < (region.endPage k).toNat) :
    region.Occupies k p := by
  have below : (region.endPage k).toNat ≤ (region.base + region.len).toNat := start_le hk _
  rw [toNat_step whole] at below
  rcases Nat.le_total region.base.toNat p.toNat with le | le
  · exact ⟨p, ⟨le, by omega⟩, start_eq_self hk aligned⟩
  · -- The page that the region starts in.
    have first : pageMask k region.base = p := by
      have mono := start_mono hk le
      rw [start_eq_self hk aligned] at mono
      exact UInt64.toNat_inj.mp (Nat.le_antisymm behind mono)
    refine ⟨region.base, ⟨Nat.le_refl _, ?_⟩, first⟩
    by_contra empty
    have none : region.len = 0 := UInt64.toNat_inj.mp (by rw [UInt64.toNat_zero]; omega)
    rw [endPage, none, UInt64.add_zero, first] at before
    exact Nat.lt_irrefl _ before

/-- The loop over a region gets to pages that the region touches only. -/
theorem touches_of_visited (whole : region.Whole) (room : Room k.maxPageSize (region.last k) (region.first k))
    (visited : p ∈ walk k.maxPageSize (region.last k) fuel (region.first k)) : region.Touches k (pageMask k p) := by
  obtain ⟨i, hi, le⟩ := room.of_mem_walk visited
  cases region with
  | tls addr size =>
    have last : ((tls addr size).last k).toNat = addr.toNat + size.toNat := toNat_step whole
    refine ⟨p, i, hi, ?_, rfl⟩
    rw [last, hi] at le
    exact Nat.le_of_add_le_add_left le
  | segment m instr =>
    have aligned : k.maxPageSize.toNat ∣ p.toNat := by
      rw [hi]
      exact Nat.dvd_add (dvd_start hk _) (Nat.dvd_mul_left ..)
    have self : pageMask k p = p := start_eq_self hk aligned
    rw [self]
    rcases Nat.lt_or_eq_of_le le with before | atEnd
    · exact .inl (occupies_of_lt hk whole aligned (hi ▸ Nat.le_add_right ..) before)
    · exact .inr (UInt64.toNat_inj.mp atEnd)

/-- A loop that comes to its end has got to every page that its region touches. -/
theorem visited_of_touches (whole : region.Whole) (ends : region.Ends k fuel) (touches : region.Touches k page) :
    ∃ p ∈ walk k.maxPageSize (region.last k) fuel (region.first k), pageMask k p = page := by
  cases region with
  | tls addr size =>
    obtain ⟨a, i, ha, le, rfl⟩ := touches
    have last : ((tls addr size).last k).toNat = addr.toNat + size.toNat := toNat_step whole
    exact ⟨a, Pages.Ends.mem_walk ends ha (by omega), rfl⟩
  | segment m instr =>
    have covered (a : UInt64) (lo : (segment m instr).base.toNat ≤ a.toNat)
        (hi : a.toNat ≤ (segment m instr).base.toNat + (segment m instr).len.toNat) :
        ∃ p ∈ walk k.maxPageSize ((segment m instr).last k) fuel ((segment m instr).first k),
          pageMask k p = pageMask k a :=
      ⟨pageMask k a, Pages.Ends.covers hk ends (dvd_start hk _) (Nat.le_trans (first_le hk _) lo)
        (start_le_last hk whole hi), pageMask_pageMask hk a⟩
    rcases touches with ⟨a, ha, rfl⟩ | rfl
    · exact covered a ha.1 (Nat.le_of_lt ha.2)
    · have atEnd := toNat_step whole
      exact covered _ (by omega) (Nat.le_of_eq atEnd)

/-- A region occupies the pages that it has an address in common with. -/
theorem occupies_iff : region.Occupies k page ↔
    pageMask k page = page ∧ Meets page k.maxPageSize region.base region.len := by
  constructor
  · rintro ⟨a, ha, rfl⟩
    exact ⟨pageMask_pageMask hk a, a, ⟨start_le hk a, lt_start_add hk a⟩, ha⟩
  · rintro ⟨self, a, ⟨lo, hi⟩, ha⟩
    refine ⟨a, ha, UInt64.toNat_inj.mp ?_⟩
    have mono : (pageMask k page).toNat ≤ (pageMask k a).toNat := start_mono hk lo
    obtain ⟨i, hi'⟩ : k.maxPageSize.toNat ∣ (pageMask k a).toNat := dvd_start hk a
    obtain ⟨j, hj⟩ : k.maxPageSize.toNat ∣ (pageMask k page).toNat := dvd_start hk page
    have below : (pageMask k a).toNat ≤ a.toNat := start_le hk a
    rw [self] at mono hj
    rw [hi', hj] at mono ⊢
    have near : k.maxPageSize.toNat * i < k.maxPageSize.toNat * (j + 1) := by
      rw [Nat.mul_succ]
      omega
    have le := Nat.le_of_lt_succ (Nat.lt_of_mul_lt_mul_left near)
    exact Nat.le_antisymm (Nat.mul_le_mul_left _ le) mono

/-- The pages that a region touches lie between the page it starts in and its end. -/
theorem touches_bounds (whole : region.Whole) (touches : region.Touches k page) :
    (pageMask k region.base).toNat ≤ page.toNat ∧ page.toNat ≤ region.base.toNat + region.len.toNat := by
  have bounds (a : UInt64) (lo : region.base.toNat ≤ a.toNat) (hi : a.toNat ≤ region.base.toNat + region.len.toNat) :
      (pageMask k region.base).toNat ≤ (pageMask k a).toNat ∧
        (pageMask k a).toNat ≤ region.base.toNat + region.len.toNat :=
    ⟨start_mono hk lo, Nat.le_trans (start_le hk a) hi⟩
  cases region with
  | tls addr size =>
    obtain ⟨a, i, ha, le, rfl⟩ := touches
    exact bounds a (ha ▸ Nat.le_add_right ..) (ha ▸ Nat.add_le_add_left le _)
  | segment m instr =>
    rcases touches with ⟨a, ⟨lo, hi⟩, rfl⟩ | rfl
    · exact bounds a lo (Nat.le_of_lt hi)
    · have atEnd := toNat_step whole
      exact bounds _ (by omega) (Nat.le_of_eq atEnd)

/-- A region that ends before the page another one starts in occupies no page of it. -/
theorem not_occupies_of_le (before : x.base.toNat + x.len.toNat ≤ (pageMask k w.base).toNat)
    (hx : x.Occupies k page) : ¬w.Occupies k page := by
  obtain ⟨a, ⟨-, ha⟩, rfl⟩ := hx
  rintro ⟨b, ⟨hb, -⟩, same⟩
  have mono : (pageMask k w.base).toNat ≤ (pageMask k b).toNat := start_mono hk hb
  have below : (pageMask k a).toNat ≤ a.toNat := start_le hk a
  rw [same] at mono
  omega

end
end Region

/-! ### What is registered -/

/-- The page that a signal registers. -/
def mapping? : Signal → Option MemoryDescriptor
  | .accepted _ (.addMdl md) => some md
  | _ => none

/-- The pages that the VMM was told of and accepted, newest first. -/
def mappings (t : Trace) : List MemoryDescriptor := (signals t).filterMap mapping?

/-- No page is registered both as code and as data between two traces. -/
def WriteXorExecute (k : Sdk) (t t' : Trace) : Prop :=
  ∀ mds, mappings t' = mds ++ mappings t → ∀ x ∈ mds, ∀ w ∈ mds, x.type = k.memoryTypeR ||| k.memoryTypeE →
    w.type = k.memoryTypeR ||| k.memoryTypeW → pageMask k x.virt ≠ pageMask k w.virt

section Mappings
variable {E : Env} {Q : Int → Prop} {l : Plan} {fuel : Nat} {s t : State}

theorem mappings_of_quiet {t t' : Trace} (h : Quiet t t') : mappings t' = mappings t := by
  unfold mappings signals
  rw [List.filterMap_filterMap, List.filterMap_filterMap]
  refine h.filterMap_eq fun e he => ?_
  cases e with
  | enter res req sp ret =>
    by_cases accepted : ret = bfSuccess
    · rw [signal?, if_pos accepted]
      cases req <;> first | rfl | cases he
    · rw [signal?, if_neg accepted]
      rfl
  | _ => rfl

theorem addRawMdToMemoryManager_mappings (E : Env) (page type : UInt64) (s : State) :
    mappings (addRawMdToMemoryManager E page type s).2.trace =
      if (addRawMdToMemoryManager E page type s).1 = bfSuccess then descriptorOf E s page type :: mappings s.trace
      else mappings s.trace := by
  split
  · rename_i accepted
    unfold mappings
    rw [(addRawMdToMemoryManager_accepted accepted).1]
    rfl
  · rename_i refused
    unfold addRawMdToMemoryManager at refused ⊢
    dsimp only at refused ⊢
    split at refused
    · rename_i ne
      unfold mappings
      rw [if_pos ne, callVmm_signals, if_neg ne]
      rfl
    · contradiction

/-- The pages registered while some are sent are among these, with the types of their regions, and they are all of these
    if all are accepted. -/
theorem Sends.mappings (h : Sends E Q l s t) : ∃ mds, mappings t.trace = mds ++ mappings s.trace ∧
    (∀ md ∈ mds, ∃ p ∈ l, md.virt = p.2 ∧ md.type = p.1.type E.sdk) ∧
    ((∀ ret, Q ret → ret = bfSuccess) → ∀ p ∈ l, ∃ md ∈ mds, md.virt = p.2 ∧ md.type = p.1.type E.sdk) := by
  induction h with
  | done s => exact ⟨[], rfl, by simp, by simp⟩
  | @instr l s t i ret rest ih => exact ih
  | @page l s t region page answer rest ih =>
    obtain ⟨mds, registered, among, whole⟩ := ih
    rw [addRawMdToMemoryManager_mappings] at registered
    have later (md) (hmd : md ∈ mds) : ∃ p ∈ (region, page) :: l, md.virt = p.2 ∧ md.type = p.1.type E.sdk := by
      obtain ⟨p, hp, same⟩ := among md hmd
      exact ⟨p, List.mem_cons_of_mem _ hp, same⟩
    split at registered
    · refine ⟨mds ++ [descriptorOf E s page (region.type E.sdk)], by rw [registered, List.append_assoc]; rfl,
        fun md hmd => ?_, fun all => List.forall_mem_cons.mpr ⟨?_, fun p hp => ?_⟩⟩
      · rcases List.mem_append.mp hmd with hmd | hmd
        · exact later md hmd
        · obtain rfl := List.mem_singleton.mp hmd
          exact ⟨_, List.mem_cons_self, rfl, rfl⟩
      · exact ⟨_, List.mem_append_right _ (List.mem_singleton_self _), rfl, rfl⟩
      · obtain ⟨md, hmd, same⟩ := whole all p hp
        exact ⟨md, List.mem_append_left _ hmd, same⟩
    · rename_i refused
      exact ⟨mds, registered, later, fun all => absurd (all _ answer) refused⟩

end Mappings

/-! ### Separation -/

/-- The segments of code and those of data have their bytes in different pages. -/
def SegmentsApart (k : Sdk) (u : State) : Prop :=
  ∀ x ∈ segments u.added, ∀ w ∈ segments u.added, x.Executable k → ¬w.Executable k →
    ∀ page, x.Occupies k page → ¬w.Occupies k page

/-- No region reaches the last page of the address space, no segment of one kind ends in a page that one of the other
    kind ends in or has a byte in, and no segment of code touches a page that the TLS touches. -/
structure EndsApart (k : Sdk) (u : State) : Prop where
  room : ∀ region ∈ u.regions, Room k.maxPageSize (region.last k) (region.first k)
  ends : ∀ x ∈ segments u.added, ∀ w ∈ segments u.added, x.Executable k → ¬w.Executable k →
    ¬w.Occupies k (x.endPage k) ∧ ¬x.Occupies k (w.endPage k) ∧ x.endPage k ≠ w.endPage k
  tls : ∀ x ∈ segments u.added, x.Executable k → ∀ page, x.Touches k page → ¬(Region.tls u.tls u.tlsSize).Touches k page

section Separation
variable {k : Sdk} {u : State} {x w : Region}

theorem mem_segments_of_executable (h : x ∈ u.regions) (executable : x.Executable k) : x ∈ segments u.added := by
  rcases List.mem_append.mp h with h | h
  · exact h
  · obtain rfl := List.mem_singleton.mp h
    exact executable.elim

theorem Region.touches_of_mem_segments {page : UInt64} (h : x ∈ segments u.added) :
    x.Touches k page ↔ x.Occupies k page ∨ page = x.endPage k := by
  obtain ⟨m, -, hx⟩ := List.mem_flatMap.mp h
  obtain ⟨instr, -, rfl⟩ := List.mem_map.mp hx
  rfl

/-- Regions of two kinds touch no page in common exactly if their ends are apart. -/
theorem untouched_iff (apart : SegmentsApart k u)
    (room : ∀ region ∈ u.regions, Room k.maxPageSize (region.last k) (region.first k)) :
    (∀ x ∈ u.regions, ∀ w ∈ u.regions, x.Executable k → ¬w.Executable k → ∀ page, x.Touches k page →
      ¬w.Touches k page) ↔ EndsApart k u := by
  constructor
  · intro untouched
    have segment {r : Region} (hr : r ∈ segments u.added) : r ∈ u.regions := List.mem_append_left _ hr
    refine ⟨room, fun x hx w hw code data => ?_, fun x hx code page => ?_⟩
    · have pair (page) := untouched x (segment hx) w (segment hw) code data page
      simp only [Region.touches_of_mem_segments hx, Region.touches_of_mem_segments hw] at pair
      exact ⟨fun h => pair _ (.inr rfl) (.inl h), fun h => pair _ (.inl h) (.inr rfl),
        fun h => pair _ (.inr rfl) (.inr h)⟩
    · exact untouched x (segment hx) _ (List.mem_append_right _ (List.mem_singleton_self _)) code id page
  · intro ends x hx w hw code data page touched
    have hx := mem_segments_of_executable hx code
    rcases List.mem_append.mp hw with hw | hw
    · obtain ⟨before, behind, both⟩ := ends.ends x hx w hw code data
      rw [Region.touches_of_mem_segments hx] at touched
      rw [Region.touches_of_mem_segments hw]
      rintro (h | rfl)
      · rcases touched with h' | rfl
        · exact apart x hx w hw code data page h' h
        · exact before h
      · rcases touched with h' | same
        · exact behind h'
        · exact both same.symm
    · obtain rfl := List.mem_singleton.mp hw
      exact ends.tls x hx code page touched

end Separation

section Load
variable {E : Env} {fuel : Nat} {s : State}

/-- What a load registers is the pages of a first part of its plan, and all of them if it succeeds. -/
theorem commonLoadVmm_mappings (E : Env) (fuel : Nat) (s : State) :
    ∃ l mds, l <+: planOf E.sdk fuel (loadElf E s).2.regions ∧ (l ≠ [] → Initialised E s) ∧
      mappings (commonLoadVmm E fuel s).2.trace = mds ++ mappings s.trace ∧
      ∀ md ∈ mds, ∃ p ∈ l, md.virt = p.2 ∧ md.type = p.1.type E.sdk := by
  obtain ⟨l, u, v, hl, some, before, sent, behind⟩ := commonLoadVmm_sends E fuel s
  obtain ⟨mds, registered, among, -⟩ := sent.mappings
  refine ⟨l, mds, hl, some, ?_, among⟩
  rw [mappings_of_quiet behind, registered, mappings_of_quiet before]

theorem commonLoadVmm_mappings_of_loads (unloaded : s.vmmStatus = .unloaded)
    (loads : (commonLoadVmm E fuel s).2.vmmStatus = .loaded) :
    (∀ region ∈ (loadElf E s).2.regions, region.Ends E.sdk fuel) ∧
    ∃ mds, mappings (commonLoadVmm E fuel s).2.trace = mds ++ mappings s.trace ∧
      ∀ p ∈ planOf E.sdk fuel (loadElf E s).2.regions, ∃ md ∈ mds, md.virt = p.2 ∧ md.type = p.1.type E.sdk := by
  obtain ⟨-, success, loaded⟩ := commonLoadVmm_of_loads unloaded loads
  obtain ⟨ends, sent⟩ := (loadRegistration_follows E fuel s).complete success
  obtain ⟨mds, registered, -, whole⟩ := sent.mappings
  refine ⟨ends, mds, ?_, whole fun _ h => h⟩
  rw [loaded]
  exact registered.trans (congrArg _ (mappings_of_quiet (loadInit_quiet E s)))

theorem writeXorExecute_of_endsApart (hk : E.sdk.maxPageSize.toNat.isPowerOfTwo)
    (ne : E.sdk.memoryTypeR ||| E.sdk.memoryTypeE ≠ E.sdk.memoryTypeR ||| E.sdk.memoryTypeW)
    (whole : Initialised E s → ∀ region ∈ (loadElf E s).2.regions, region.Whole)
    (apart : Initialised E s → SegmentsApart E.sdk (loadElf E s).2)
    (ends : Initialised E s → EndsApart E.sdk (loadElf E s).2) :
    WriteXorExecute E.sdk s.trace (commonLoadVmm E fuel s).2.trace := by
  obtain ⟨l, new, hl, some, registered, among⟩ := commonLoadVmm_mappings E fuel s
  intro mds hmds x hx w hw code data same
  obtain rfl : new = mds := List.append_cancel_right (registered.symm.trans hmds)
  obtain ⟨p, hp, virt, type⟩ := among x hx
  obtain ⟨q, hq, virt', type'⟩ := among w hw
  have inited := some (List.ne_nil_of_mem hp)
  obtain ⟨hpr, visited⟩ := mem_planOf.mp (hl.subset hp)
  obtain ⟨hqr, visited'⟩ := mem_planOf.mp (hl.subset hq)
  have room := (ends inited).room
  have touched := Region.touches_of_visited hk (whole inited _ hpr) (room _ hpr) visited
  have touched' := Region.touches_of_visited hk (whole inited _ hqr) (room _ hqr) visited'
  rw [← virt', ← same, virt] at touched'
  exact (untouched_iff (apart inited) room).mpr (ends inited) _ hpr _ hqr ((Region.type_eq_code ne).mp (type ▸ code))
    ((Region.type_eq_data ne).mp (type' ▸ data)) _ touched touched'

theorem endsApart_of_writeXorExecute (hk : E.sdk.maxPageSize.toNat.isPowerOfTwo)
    (whole : Initialised E s → ∀ region ∈ (loadElf E s).2.regions, region.Whole)
    (apart : Initialised E s → SegmentsApart E.sdk (loadElf E s).2) (unloaded : s.vmmStatus = .unloaded)
    (loads : (commonLoadVmm E fuel s).2.vmmStatus = .loaded)
    (exclusive : WriteXorExecute E.sdk s.trace (commonLoadVmm E fuel s).2.trace) :
    EndsApart E.sdk (loadElf E s).2 := by
  have inited := (commonLoadVmm_of_loads unloaded loads).1
  obtain ⟨ends, mds, registered, all⟩ := commonLoadVmm_mappings_of_loads unloaded loads
  refine (untouched_iff (apart inited) fun region hr => Pages.Ends.room hk (ends region hr)).mp ?_
  intro x hx w hw code data page touched touched'
  obtain ⟨p, visited, samePage⟩ := Region.visited_of_touches hk (whole inited x hx) (ends x hx) touched
  obtain ⟨q, visited', samePage'⟩ := Region.visited_of_touches hk (whole inited w hw) (ends w hw) touched'
  obtain ⟨md, hmd, virt, type⟩ := all (x, p) (mem_planOf.mpr ⟨hx, visited⟩)
  obtain ⟨md', hmd', virt', type'⟩ := all (w, q) (mem_planOf.mpr ⟨hw, visited'⟩)
  refine exclusive mds registered md hmd md' hmd' (type.trans (Region.type_of_executable code))
    (type'.trans (Region.type_of_not_executable data)) ?_
  rw [virt, virt', samePage, samePage']

end Load

/-- With code and data in different pages no load registers a page as both should the ends be apart, whatever the VMM
    answers, and a load that succeeds does not only if they are. -/
theorem registration_exclusive_iff (E : Env) (s : State) (hk : E.sdk.maxPageSize.toNat.isPowerOfTwo)
    (ne : E.sdk.memoryTypeR ||| E.sdk.memoryTypeE ≠ E.sdk.memoryTypeR ||| E.sdk.memoryTypeW)
    (whole : Initialised E s → ∀ region ∈ (loadElf E s).2.regions, region.Whole)
    (apart : Initialised E s → SegmentsApart E.sdk (loadElf E s).2) :
    ((Initialised E s → EndsApart E.sdk (loadElf E s).2) →
      ∀ fuel, WriteXorExecute E.sdk s.trace (commonLoadVmm E fuel s).2.trace) ∧
    ∀ fuel, s.vmmStatus = .unloaded → (commonLoadVmm E fuel s).2.vmmStatus = .loaded →
      (WriteXorExecute E.sdk s.trace (commonLoadVmm E fuel s).2.trace ↔ EndsApart E.sdk (loadElf E s).2) := by
  refine ⟨fun ends fuel => writeXorExecute_of_endsApart hk ne whole apart ends, fun fuel unloaded loads => ⟨?_, ?_⟩⟩
  · exact endsApart_of_writeXorExecute hk whole apart unloaded loads
  · exact fun ends => writeXorExecute_of_endsApart hk ne whole apart fun _ => ends

/-- A loader that gives each module a segment of code and one of data. -/
def twoSegments (code data : LoadInstr) : Env :=
  { testEnv {} with
    bfelfLoad := fun t modules =>
      { images := modules.map fun _ => some ⟨0x3000, [code, data]⟩
        ret := if allocsSucceed modules.length t then bfSuccess else -1
        entry := 0x1000, sections := [], loader := [] } }

/-- Half a page of code, and half a page of data two pages behind it. -/
theorem registration_exclusive_of_gap :
    let E := twoSegments ⟨1, 0, 0x800⟩ ⟨2, 0x2000, 0x800⟩
    let s := after E 8 [.addModule 0x5000 100]
    WriteXorExecute E.sdk s.trace (commonLoadVmm E 8 s).2.trace := by
  intro E s
  let m : Binary := ⟨0x5000, 100, 0x600000, 0x3000, [⟨1, 0, 0x800⟩, ⟨2, 0x2000, 0x800⟩]⟩
  let code : Region := .segment m ⟨1, 0, 0x800⟩
  let data : Region := .segment m ⟨2, 0x2000, 0x800⟩
  let tls : Region := .tls 0x400000 0x1000
  have hk : E.sdk.maxPageSize.toNat.isPowerOfTwo := ⟨12, rfl⟩
  have regions : (loadElf E s).2.regions = [code, data, tls] := by decide +kernel
  have parts : segments (loadElf E s).2.added = [code, data] := by decide +kernel
  have fits : ∀ region ∈ [code, data, tls], region.Fits E.sdk := by decide +kernel
  have whole : ∀ region ∈ (loadElf E s).2.regions, region.Whole := fun region hr =>
    (fits region (regions ▸ hr)).whole
  -- Of the pairs of segments only that of the code and the data is one of two kinds.
  have pair {P : Region → Region → Prop} (h : P code data) : ∀ x ∈ segments (loadElf E s).2.added,
      ∀ w ∈ segments (loadElf E s).2.added, x.Executable E.sdk → ¬w.Executable E.sdk → P x w := by
    rw [parts]
    intro x hx w hw isCode isData
    obtain rfl : x = code := by
      rcases List.mem_pair.mp hx with rfl | rfl
      · rfl
      · exact absurd isCode (by decide)
    rcases List.mem_pair.mp hw with rfl | rfl
    · exact absurd (by decide) isData
    · exact h
  refine (registration_exclusive_iff E s hk (by decide) (fun _ => whole) fun _ => ?_).1 (fun _ => ⟨?_, ?_, ?_⟩) 8
  · exact pair fun page => Region.not_occupies_of_le hk (by decide)
  · exact fun region hr => (fits region (regions ▸ hr)).room hk
  · refine pair ⟨?_, ?_, by decide⟩
    · rw [Region.occupies_iff hk]
      decide
    · rw [Region.occupies_iff hk]
      decide
  · intro x hx isCode page touched touched'
    have same : Region.tls (loadElf E s).2.tls (loadElf E s).2.tlsSize = tls := by decide +kernel
    obtain rfl : x = code := by
      rcases List.mem_pair.mp (parts ▸ hx) with rfl | rfl
      · rfl
      · exact absurd isCode (by decide)
    rw [same] at touched'
    have below := (Region.touches_bounds hk (by decide) touched).1
    have above := (Region.touches_bounds hk (by decide) touched').2
    exact absurd (Nat.le_trans below above) (by decide)

/-- With a page of code right before the data the first page of the data is registered as both. -/
theorem not_exclusive_of_abutting :
    let E := twoSegments ⟨1, 0, 0x1000⟩ ⟨2, 0x1000, 0x800⟩
    let s := after E 8 [.addModule 0x5000 100]
    SegmentsApart E.sdk (loadElf E s).2 ∧ (commonLoadVmm E 8 s).1 = some bfSuccess ∧
      ¬WriteXorExecute E.sdk s.trace (commonLoadVmm E 8 s).2.trace := by
  intro E s
  let m : Binary := ⟨0x5000, 100, 0x600000, 0x3000, [⟨1, 0, 0x1000⟩, ⟨2, 0x1000, 0x800⟩]⟩
  refine ⟨?_, by decide +kernel, fun exclusive => ?_⟩
  · have parts : segments (loadElf E s).2.added = [.segment m ⟨1, 0, 0x1000⟩, .segment m ⟨2, 0x1000, 0x800⟩] := by
      decide +kernel
    unfold SegmentsApart
    rw [parts]
    intro x hx w hw isCode isData page
    rcases List.mem_pair.mp hx with rfl | rfl
    · rcases List.mem_pair.mp hw with rfl | rfl
      · exact absurd (by decide) isData
      · exact Region.not_occupies_of_le ⟨12, rfl⟩ (by decide)
    · exact absurd isCode (by decide)
  · have fresh : mappings s.trace = [] := by decide +kernel
    refine exclusive (mappings (commonLoadVmm E 8 s).2.trace) (by rw [fresh, List.append_nil])
      ⟨0x601000, 0x601000, 5⟩ (by decide +kernel) ⟨0x601000, 0x601000, 3⟩ (by decide +kernel) (by decide) (by decide) rfl

end Bfdriver
