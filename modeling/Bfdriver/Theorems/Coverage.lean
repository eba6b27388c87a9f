import Bfdriver.Theorems.Registration

/-! # Which pages are registered

A load that succeeds has registered every page of its regions: no address of a segment or of the TLS is left out,
as long as no region reaches into the last page of the address space. The loops compare with the page of the end
of a region, though, and not with that of its last byte, so that they register one page too many where the
region ends with a page. -/

namespace Bfdriver
open EventLog Pages

/-! ### Ends of regions -/

namespace Region
variable {k : Sdk} {fuel : Nat} {region : Region}

/-- The region ends before the last page of the address space. -/
def Fits (k : Sdk) (region : Region) : Prop :=
  region.base.toNat + region.len.toNat + k.maxPageSize.toNat < UInt64.size

instance : Decidable (region.Fits k) := inferInstanceAs (Decidable (_ < _))

/-- Code is readable and executable, everything else is readable and writable. -/
def TypedAs (k : Sdk) (type : UInt64) : Region → Prop
  | segment _ instr => (instr.perm &&& k.bfpfX ≠ 0 → type = k.memoryTypeR ||| k.memoryTypeE) ∧
      (instr.perm &&& k.bfpfX = 0 → type = k.memoryTypeR ||| k.memoryTypeW)
  | tls .. => type = k.memoryTypeR ||| k.memoryTypeW

theorem typedAs_type (k : Sdk) (region : Region) : region.TypedAs k (region.type k) := by
  cases region with
  | segment m instr => exact ⟨fun code => if_pos code, fun data => if_neg (not_not.mpr data)⟩
  | tls => exact rfl

theorem Fits.whole (h : region.Fits k) : region.base.toNat + region.len.toNat < UInt64.size := by
  unfold Fits at h
  omega

variable (hk : k.maxPageSize.toNat.isPowerOfTwo)
include hk

theorem first_le (region : Region) : (region.first k).toNat ≤ region.base.toNat := by
  cases region with
  | segment m instr => exact start_le hk _
  | tls => exact Nat.le_refl _

theorem start_le_first (region : Region) : (start k.maxPageSize region.base).toNat ≤ (region.first k).toNat := by
  cases region with
  | segment => exact Nat.le_refl _
  | tls addr size => exact start_le hk addr

theorem last_le (whole : region.base.toNat + region.len.toNat < UInt64.size) :
    (region.last k).toNat ≤ region.base.toNat + region.len.toNat := by
  rw [← toNat_step whole]
  cases region with
  | segment m instr => exact start_le hk _
  | tls => exact Nat.le_refl _

theorem start_le_last (whole : region.base.toNat + region.len.toNat < UInt64.size) {a : UInt64}
    (h : a.toNat ≤ region.base.toNat + region.len.toNat) :
    (start k.maxPageSize a).toNat ≤ (region.last k).toNat := by
  rw [← toNat_step whole] at h
  cases region with
  | segment m instr => exact start_mono hk h
  | tls => exact Nat.le_trans (start_le hk a) h

theorem Fits.room (h : region.Fits k) : Room k.maxPageSize (region.last k) (region.first k) := by
  have last := last_le hk h.whole
  refine room_of_lt ?_
  unfold Fits at h
  omega

/-- The loop over a region that fits comes to its end. -/
theorem Fits.ends (h : region.Fits k) (enough : UInt64.size ≤ fuel) : region.Ends k fuel :=
  (h.room hk).ends (pos_of_isPowerOfTwo hk) enough

end Region

/-! ### Completeness -/

/-- Between `s` and `t` the VMM accepted the pages of a region by descriptors that follow each other. -/
structure Mapped (E : Env) (s t : State) (region : Region) (mds : List MemoryDescriptor) : Prop where
  accepted : ∃ before after, signals t.trace =
    after ++ ((mds.map fun md => .accepted t.resources (.addMdl md)).reverse ++ (before ++ signals s.trace))
  ascending : (mds.map (·.virt)).Pairwise (· < ·)
  described : ∀ md ∈ mds, region.TypedAs E.sdk md.type ∧ Translated E t.trace md
  no_wrap : ∀ md ∈ mds, md.virt.toNat + E.sdk.maxPageSize.toNat < UInt64.size
  covers : ∀ a, Within region.base region.len a → ∃ md ∈ mds, md.virt = pageMask E.sdk a

section Completeness
variable {E : Env} {fuel : Nat} {s : State}

theorem signals_suffix {P : Event → Prop} {t t' : Trace} (h : Grew P t t') : ∃ new, signals t' = new ++ signals t := by
  obtain ⟨es, rfl, -⟩ := h
  exact ⟨signals es, List.filterMap_append⟩

/-- The accepted pages of a region that fits cover it. -/
theorem Sends.mapped {region : Region} {t : State} (hk : E.sdk.maxPageSize.toNat.isPowerOfTwo)
    (h : Sends E (· = bfSuccess) (region.pages E.sdk fuel) s t) (ends : region.Ends E.sdk fuel)
    (fits : region.Fits E.sdk) (aligned : E.sdk.maxPageSize.toNat ∣ (region.first E.sdk).toNat) :
    ∃ mds, Mapped E s t region mds := by
  obtain ⟨mds, virts, accepted, described⟩ := h.accepted fun p hp => by
    obtain ⟨page, -, rfl⟩ := List.mem_map.mp hp
    rfl
  have walked : mds.map (·.virt) = walk E.sdk.maxPageSize (region.last E.sdk) fuel (region.first E.sdk) := by
    rw [virts, Region.pages, List.map_map]
    exact List.map_id _
  have room := fits.room hk
  refine ⟨mds, ⟨[], [], ?_⟩, ?_, fun md hmd => ?_, fun md hmd => ?_, fun a ha => ?_⟩
  · rw [accepted, h.registered.resources]
    rfl
  · rw [walked]
    exact room.ascending (pos_of_isPowerOfTwo hk)
  · obtain ⟨type, translated⟩ := described md hmd
    exact ⟨type ▸ region.typedAs_type E.sdk, translated⟩
  · exact room.no_wrap (walked ▸ List.mem_map_of_mem hmd)
  · have visited : pageMask E.sdk a ∈ walk E.sdk.maxPageSize (region.last E.sdk) fuel (region.first E.sdk) :=
      ends.covers hk aligned (Nat.le_trans (Region.first_le hk region) ha.1)
        (Region.start_le_last hk fits.whole (Nat.le_of_lt ha.2))
    rw [← walked] at visited
    exact List.mem_map.mp visited

/-- What was mapped in between was mapped. -/
theorem Mapped.within {P P' : Event → Prop} {region : Region} {mds : List MemoryDescriptor} {u v t : State}
    (h : Mapped E u v region mds) (before : Grew P s.trace u.trace) (after : Grew P' v.trace t.trace)
    (resources : v.resources = t.resources) : Mapped E s t region mds where
  accepted := by
    obtain ⟨earlier, later, accepted⟩ := h.accepted
    obtain ⟨first, hfirst⟩ := signals_suffix before
    obtain ⟨last, hlast⟩ := signals_suffix after
    refine ⟨earlier ++ first, last ++ later, ?_⟩
    rw [hlast, accepted, hfirst, resources, List.append_assoc, List.append_assoc]
  ascending := h.ascending
  described md hmd := ⟨(h.described md hmd).1, (h.described md hmd).2.grew after⟩
  no_wrap := h.no_wrap
  covers := h.covers

theorem Region.first_aligned (hk : E.sdk.maxPageSize.toNat.isPowerOfTwo) {t : State}
    (aligned : E.sdk.maxPageSize.toNat ∣ t.tls.toNat) {region : Region} (h : region ∈ t.regions) :
    E.sdk.maxPageSize.toNat ∣ (region.first E.sdk).toNat := by
  cases region with
  | segment m instr => exact dvd_start hk _
  | tls addr size =>
    have same : Region.tls addr size = .tls t.tls t.tlsSize := by
      simpa [State.regions, segments] using h
    obtain ⟨rfl, -⟩ := Region.tls.inj same
    exact aligned

end Completeness

/-- The region is a segment of no bytes. -/
def Region.Vacuous : Region → Prop
  | .segment _ instr => instr.memsz = 0
  | .tls .. => False

/-- The page has an address in common with its region, unless that is a segment of no bytes, and in any case with an
    allocation of the VMM. -/
structure Justified (k : Sdk) (u : State) (p : Region × UInt64) : Prop where
  own : ¬p.1.Vacuous → Meets (pageMask k p.2) k.maxPageSize p.1.base p.1.len
  allocated : ∃ q ∈ u.pointers, Meets (pageMask k p.2) k.maxPageSize q.1 q.2.len

/-- Every page that the load translates and sends is justified by what the load has set up. -/
def SoundLoad (E : Env) (fuel : Nat) (s : State) : Prop :=
  ∃ l, l <+: planOf E.sdk fuel (loadElf E s).2.regions ∧ Handled l s.trace (commonLoadVmm E fuel s).2.trace ∧
    ∀ p ∈ l, Justified E.sdk (loadElf E s).2 p

/-- The region does not reach the last page of the address space, it does not end with a page unless it starts within
    one, and a segment of no bytes lies in the page of an allocation. -/
structure Region.Clear (k : Sdk) (u : State) (region : Region) : Prop where
  room : Room k.maxPageSize (region.last k) (region.first k)
  uneven : ¬region.Vacuous → 0 < region.len.toNat ∧
    ¬(k.maxPageSize.toNat ∣ (region.first k).toNat ∧ k.maxPageSize.toNat ∣ region.base.toNat + region.len.toNat)
  held : region.Vacuous → ∃ q ∈ u.pointers, Meets (region.first k) k.maxPageSize q.1 q.2.len

/-- What the loader and the allocators leave: each module has its memory, with its segments inside, and no allocation
    reaches the end of the address space. -/
structure LaidOut (u : State) : Prop where
  exec : ∀ m ∈ u.added, m.exec ≠ 0
  inside : ∀ m ∈ u.added, ∀ instr ∈ m.ef, instr.memOffset.toNat + instr.memsz.toNat ≤ m.execSize.toNat
  whole : ∀ q ∈ u.pointers, q.1.toNat + q.2.len.toNat < UInt64.size

section Soundness
variable {k : Sdk} {u : State} {region : Region}

theorem mem_regions : region ∈ u.regions ↔
    (∃ m ∈ u.added, ∃ instr ∈ m.ef, region = .segment m instr) ∨ region = .tls u.tls u.tlsSize := by
  simp [State.regions, segments, eq_comm]

/-- A region of a state lies in an allocation. -/
theorem LaidOut.allocated (laid : LaidOut u) (tls : u.tls ≠ 0) (h : region ∈ u.regions) :
    ∃ q ∈ u.pointers, q.1.toNat ≤ region.base.toNat ∧
      region.base.toNat + region.len.toNat ≤ q.1.toNat + q.2.len.toNat := by
  rcases mem_regions.mp h with ⟨m, hm, instr, hi, rfl⟩ | rfl
  · have pointer : (m.exec, (⟨.exec, m.execSize⟩ : Block)) ∈ u.pointers := by
      have exec : (m.exec, (⟨.exec, m.execSize⟩ : Block)) ∈ execPointers u.added :=
        List.mem_map_of_mem (f := fun m : Binary => (m.exec, (⟨.exec, m.execSize⟩ : Block)))
          (List.mem_filter.mpr ⟨hm, by simpa using laid.exec m hm⟩)
      exact List.mem_append_left _ exec
    have inside := laid.inside m hm instr hi
    have whole : m.exec.toNat + m.execSize.toNat < UInt64.size := laid.whole _ pointer
    have base : (m.exec + instr.memOffset).toNat = m.exec.toNat + instr.memOffset.toNat := toNat_step (by omega)
    refine ⟨_, pointer, ?_, ?_⟩ <;> simp only [Region.base, Region.len] <;> omega
  · have pointer : (u.tls, (⟨.tls, u.tlsSize⟩ : Block)) ∈ u.pointers := by
      refine List.mem_append_right _ (List.mem_append_left _ ?_)
      rw [pointerAt, if_pos tls]
      exact List.mem_singleton_self _
    exact ⟨_, pointer, Nat.le_refl _, Nat.le_refl _⟩

theorem LaidOut.region_whole (laid : LaidOut u) (tls : u.tls ≠ 0) (h : region ∈ u.regions) :
    region.base.toNat + region.len.toNat < UInt64.size := by
  obtain ⟨q, hq, -, le⟩ := laid.allocated tls h
  have := laid.whole q hq
  omega

/-- The pages of a clear region are justified. -/
theorem Region.Clear.justified {fuel : Nat} {page : UInt64} (hk : k.maxPageSize.toNat.isPowerOfTwo) (laid : LaidOut u)
    (tls : u.tls ≠ 0) (h : region ∈ u.regions) (clear : region.Clear k u)
    (visited : page ∈ walk k.maxPageSize (region.last k) fuel (region.first k)) : Justified k u (region, page) := by
  have whole := laid.region_whole tls h
  have own (some : ¬region.Vacuous) : Meets (pageMask k page) k.maxPageSize region.base region.len :=
    clear.room.meets hk (clear.uneven some).1 (Region.start_le_first hk region) (Region.last_le hk whole)
      (clear.uneven some).2 visited
  refine ⟨own, ?_⟩
  by_cases none : region.Vacuous
  · -- The only page of a segment of no bytes is the one its loop starts with.
    obtain ⟨j, hj, le⟩ := clear.room.of_mem_walk visited
    have same : pageMask k page = region.first k := by
      cases region with
      | tls => exact none.elim
      | segment m instr =>
        have last : (Region.segment m instr).last k = (Region.segment m instr).first k := by
          simp only [Region.last, Region.first, show instr.memsz = 0 from none, UInt64.add_zero]
        rw [last] at le
        have first : page = (Region.segment m instr).first k := UInt64.toNat_inj.mp (by omega)
        rw [first]
        exact start_eq_self hk (dvd_start hk _)
    rw [same]
    exact clear.held none
  · obtain ⟨q, hq, lo, hi⟩ := laid.allocated tls h
    exact ⟨q, hq, (own none).of_within fun a ha => ⟨Nat.le_trans lo ha.1, Nat.lt_of_lt_of_le ha.2 hi⟩⟩

/-- A region all of whose pages are justified is clear. -/
theorem Region.clear_of_justified {fuel : Nat} (hk : k.maxPageSize.toNat.isPowerOfTwo) (laid : LaidOut u)
    (tls : u.tls ≠ 0) (h : region ∈ u.regions) (ends : region.Ends k fuel)
    (justified : ∀ page ∈ walk k.maxPageSize (region.last k) fuel (region.first k), Justified k u (region, page)) :
    region.Clear k u := by
  have whole := laid.region_whole tls h
  have before := Region.first_le hk region
  have starts : (region.first k).toNat ≤ (region.last k).toNat := by
    cases region with
    | segment m instr => exact Region.start_le_last hk whole (Nat.le_add_right _ _)
    | tls addr size => exact (toNat_step whole).symm ▸ Nat.le_add_right _ _
  have visited : region.first k ∈ walk k.maxPageSize (region.last k) fuel (region.first k) :=
    Pages.Ends.mem_walk ends (j := 0) (by omega) starts
  refine ⟨Pages.Ends.room hk ends, fun some => ⟨?_, fun ⟨aligned, even⟩ => ?_⟩, fun none => ?_⟩
  · exact (meets_iff.mp ((justified _ visited).own some)).2.2.2
  · have to_end : region.base.toNat + region.len.toNat ≤ (region.last k).toNat := by
      have atEnd : (region.base + region.len).toNat = region.base.toNat + region.len.toNat := toNat_step whole
      have last := Region.start_le_last hk whole (Nat.le_of_eq atEnd)
      rwa [start_eq_self hk (atEnd ▸ even), atEnd] at last
    obtain ⟨page, hp, apart⟩ := Pages.Ends.exists_not_meets hk ends whole (by omega) to_end aligned even
    exact apart ((justified page hp).own some)
  · obtain ⟨q, hq, meets⟩ := (justified _ visited).allocated
    cases region with
    | tls => exact none.elim
    | segment m instr =>
      have same : pageMask k ((Region.segment m instr).first k) = (Region.segment m instr).first k :=
        start_eq_self hk (dvd_start hk _)
      exact ⟨q, hq, same ▸ meets⟩

end Soundness

section Loads
variable {E : Env} {fuel : Nat} {s : State}

theorem loadElf_tls (h : Initialised E s) : (loadElf E s).2.tls ≠ 0 := by
  rw [(bfelfLoad_frame E (loadTls E s).2).1]
  exact setupTls_success E _ h.tls

theorem soundLoad_of_clear (hk : E.sdk.maxPageSize.toNat.isPowerOfTwo)
    (laid : Initialised E s → LaidOut (loadElf E s).2)
    (clear : Initialised E s → ∀ region ∈ (loadElf E s).2.regions, region.Clear E.sdk (loadElf E s).2) :
    SoundLoad E fuel s := by
  obtain ⟨l, hl, some, handled⟩ := commonLoadVmm_handled E fuel s
  refine ⟨l, hl, handled, fun p hp => ?_⟩
  have inited := some (List.ne_nil_of_mem hp)
  obtain ⟨hr, visited⟩ := mem_planOf.mp (hl.subset hp)
  exact (clear inited p.1 hr).justified hk (laid inited) (loadElf_tls inited) hr visited

/-- A load that succeeds has handled its whole plan. -/
theorem eq_planOf_of_loads {l : Plan} (unloaded : s.vmmStatus = .unloaded)
    (loads : (commonLoadVmm E fuel s).2.vmmStatus = .loaded) (hl : l <+: planOf E.sdk fuel (loadElf E s).2.regions)
    (handled : Handled l s.trace (commonLoadVmm E fuel s).2.trace) : l = planOf E.sdk fuel (loadElf E s).2.regions := by
  obtain ⟨-, success, loaded⟩ := commonLoadVmm_of_loads unloaded loads
  have sent := ((loadRegistration_follows E fuel s).complete success).2
  have whole := (Handled.of_quiet (loadInit_quiet E s)).trans sent.handled
  have pages := handled.translated
  rw [loaded] at pages
  have length := congrArg List.length (whole.translated.symm.trans pages)
  simp only [List.length_append, List.length_reverse, List.length_map, List.nil_append] at length
  exact hl.eq_of_length (by omega)

theorem clear_of_soundLoad (hk : E.sdk.maxPageSize.toNat.isPowerOfTwo)
    (laid : Initialised E s → LaidOut (loadElf E s).2) (unloaded : s.vmmStatus = .unloaded)
    (loads : (commonLoadVmm E fuel s).2.vmmStatus = .loaded) (sound : SoundLoad E fuel s) :
    ∀ region ∈ (loadElf E s).2.regions, region.Clear E.sdk (loadElf E s).2 := by
  obtain ⟨l, hl, handled, justified⟩ := sound
  obtain ⟨inited, success, -⟩ := commonLoadVmm_of_loads unloaded loads
  obtain ⟨ends, -⟩ := (loadRegistration_follows E fuel s).complete success
  rw [eq_planOf_of_loads unloaded loads hl handled] at justified
  exact fun region hr => Region.clear_of_justified hk (laid inited) (loadElf_tls inited) hr (ends region hr)
    fun page hp => justified (region, page) (mem_planOf.mpr ⟨hr, hp⟩)

end Loads

/-- Every load of clear regions is sound, whatever the VMM answers, and a load that succeeds is sound only if its
    regions are clear. -/
theorem registration_sound_iff (E : Env) (s : State) (hk : E.sdk.maxPageSize.toNat.isPowerOfTwo)
    (laid : Initialised E s → LaidOut (loadElf E s).2) :
    ((Initialised E s → ∀ region ∈ (loadElf E s).2.regions, region.Clear E.sdk (loadElf E s).2) →
      ∀ fuel, SoundLoad E fuel s) ∧
    ∀ fuel, s.vmmStatus = .unloaded → (commonLoadVmm E fuel s).2.vmmStatus = .loaded →
      (SoundLoad E fuel s ↔ ∀ region ∈ (loadElf E s).2.regions, region.Clear E.sdk (loadElf E s).2) := by
  refine ⟨fun clear fuel => soundLoad_of_clear hk laid clear, fun fuel unloaded loads => ⟨?_, fun clear => ?_⟩⟩
  · exact clear_of_soundLoad hk laid unloaded loads
  · exact soundLoad_of_clear hk laid fun _ => clear

/-- A TLS and a segment of half a page each. -/
theorem registration_sound_of_half_pages :
    let E := { testEnv {} with sdk := { testSdk with threadLocalStorageSize := 0x800 } }
    SoundLoad E 8 (after E 8 [.addModule 0x5000 100]) := by
  intro E
  have laid : LaidOut (loadElf E (after E 8 [.addModule 0x5000 100])).2 :=
    ⟨by decide +kernel, by decide +kernel, by decide +kernel⟩
  refine (registration_sound_iff E _ ⟨12, rfl⟩ fun _ => laid).1 (fun _ region hr => ⟨?_, fun _ => ?_, fun none => ?_⟩) 8
  · have all : ∀ region ∈ (loadElf E (after E 8 [.addModule 0x5000 100])).2.regions,
        (region.last E.sdk).toNat + E.sdk.maxPageSize.toNat < UInt64.size := by decide +kernel
    exact room_of_lt (all region hr)
  · have all : ∀ region ∈ (loadElf E (after E 8 [.addModule 0x5000 100])).2.regions, 0 < region.len.toNat ∧
        ¬(E.sdk.maxPageSize.toNat ∣ (region.first E.sdk).toNat ∧
          E.sdk.maxPageSize.toNat ∣ region.base.toNat + region.len.toNat) := by decide +kernel
    exact all region hr
  · have all : ∀ region ∈ (loadElf E (after E 8 [.addModule 0x5000 100])).2.regions, 0 < region.len.toNat := by
      decide +kernel
    cases region with
    | tls => exact none.elim
    | segment m instr =>
      have some := all _ hr
      rw [show (Region.segment m instr).len = 0 from none] at some
      exact absurd some (by decide)

/-- With a TLS of a whole page the page behind it is translated and sent, which no allocation of the VMM meets. -/
theorem not_sound_of_whole_page :
    let E := testEnv {}
    let s := after E 8 [.addModule 0x5000 100]
    let t := (commonLoadVmm E 8 s).2
    t.vmmStatus = .loaded ∧ t.tlsSize = 0x1000 ∧ t.tls + 0x1000 ∈ translated t.trace ∧
      (∀ q ∈ t.pointers, ¬Meets (t.tls + 0x1000) E.sdk.maxPageSize q.1 q.2.len) ∧ ¬SoundLoad E 8 s := by
  intro E s t
  have loads : t.vmmStatus = .loaded := by decide +kernel
  refine ⟨loads, by decide +kernel, by decide +kernel, by decide +kernel, fun sound => ?_⟩
  have laid : LaidOut (loadElf E s).2 := ⟨by decide +kernel, by decide +kernel, by decide +kernel⟩
  have clear := clear_of_soundLoad ⟨12, rfl⟩ (fun _ => laid) (by decide +kernel) loads sound
  have uneven := (clear (.tls (loadElf E s).2.tls (loadElf E s).2.tlsSize) (mem_regions.mpr (.inr rfl))).uneven id
  exact absurd uneven.2 (by decide +kernel)

end Bfdriver
