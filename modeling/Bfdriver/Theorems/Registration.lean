import Bfdriver.Lib.Pages
import Bfdriver.Theorems.Setup
import Bfdriver.TestPlatform

/-! # The registration of memory

What the page loops of `common_load_vmm` are for: each module has its segments and the driver its TLS, and the
VMM is told of every page of these regions, one after the other (`planOf`). The loops follow this plan as far as
the VMM accepts the pages, and a load that succeeds has followed it to the end. -/

namespace Bfdriver
open EventLog Pages

/-! ### Regions -/

/-- Memory that is registered: a segment of a module, or the TLS. -/
inductive Region where
  | segment (m : Binary) (instr : LoadInstr)
  | tls (addr size : UInt64)
  deriving Repr, DecidableEq

/-- Pages, each with the region it is registered for. -/
abbrev Plan := List (Region × UInt64)

namespace Region

def base : Region → UInt64
  | segment m instr => m.exec + instr.memOffset
  | tls addr _ => addr

def len : Region → UInt64
  | segment _ instr => instr.memsz
  | tls _ size => size

/-- The memory type of the pages of a region. -/
def type (k : Sdk) : Region → UInt64
  | segment _ instr => instr.memoryType k
  | tls .. => k.memoryTypeR ||| k.memoryTypeW

/-- The page that the loop over a region starts with. -/
def first (k : Sdk) : Region → UInt64
  | segment m instr => pageMask k (m.exec + instr.memOffset)
  | tls addr _ => addr

/-- The last address that the loop over a region compares its pages with. -/
def last (k : Sdk) : Region → UInt64
  | segment m instr => pageMask k (m.exec + instr.memOffset + instr.memsz)
  | tls addr size => addr + size

/-- The loop over the region ends before its fuel is used up. -/
def Ends (k : Sdk) (fuel : Nat) (region : Region) : Prop :=
  Pages.Ends k.maxPageSize (region.last k) fuel (region.first k)

/-- The pages that the loop over a region registers, should each be accepted. -/
def pages (k : Sdk) (fuel : Nat) (region : Region) : Plan :=
  (walk k.maxPageSize (region.last k) fuel (region.first k)).map (Prod.mk region)

end Region

/-- The regions of the modules in a list. -/
def segments (ms : List Binary) : List Region := ms.flatMap fun m => m.ef.map (.segment m)

/-- What a load registers. -/
def State.regions (s : State) : List Region := segments s.added ++ [.tls s.tls s.tlsSize]

theorem Kept.regions {s t : State} (h : Kept s t) : t.regions = s.regions := by
  unfold State.regions
  rw [h.added, h.tls, h.tlsSize]

/-- The pages of some regions, in the order in which they are registered. -/
def planOf (k : Sdk) (fuel : Nat) (regions : List Region) : Plan := regions.flatMap (Region.pages k fuel)

theorem mem_planOf {k : Sdk} {fuel : Nat} {regions : List Region} {p : Region × UInt64} :
    p ∈ planOf k fuel regions ↔ p.1 ∈ regions ∧ p.2 ∈ walk k.maxPageSize (p.1.last k) fuel (p.1.first k) := by
  simp only [planOf, Region.pages, List.mem_flatMap, List.mem_map]
  constructor
  · rintro ⟨region, hr, page, hp, rfl⟩
    exact ⟨hr, hp⟩
  · rintro ⟨hr, hp⟩
    exact ⟨p.1, hr, p.2, hp, rfl⟩

/-! ### Sending pages -/

/-- `t` is `s` after the pages of a list were registered one after the other, and each answer satisfies `Q`. -/
inductive Sends (E : Env) (Q : Int → Prop) : Plan → State → State → Prop where
  | done (s : State) : Sends E Q [] s s
  | instr {l : Plan} {s t : State} (i : Nat) (ret : Int) (rest : Sends E Q l (s.emit (.getLoadInstr i ret)) t) :
      Sends E Q l s t
  | page {l : Plan} {s t : State} (region : Region) (page : UInt64)
      (answer : Q (addRawMdToMemoryManager E page (region.type E.sdk) s).1)
      (rest : Sends E Q l (addRawMdToMemoryManager E page (region.type E.sdk) s).2 t) :
      Sends E Q ((region, page) :: l) s t

namespace Sends
variable {E : Env} {Q : Int → Prop} {l l' : Plan} {s t u : State}

theorem trans (h : Sends E Q l s t) (h' : Sends E Q l' t u) : Sends E Q (l ++ l') s u := by
  induction h with
  | done => exact h'
  | instr i ret rest ih => exact .instr i ret (ih h')
  | page region page answer rest ih => exact .page region page answer (ih h')

theorem split (h : Sends E Q (l ++ l') s u) : ∃ t, Sends E Q l s t ∧ Sends E Q l' t u := by
  generalize hl : l ++ l' = k at h
  induction h generalizing l with
  | done s =>
    obtain ⟨rfl, rfl⟩ := List.append_eq_nil_iff.mp hl
    exact ⟨s, .done s, .done s⟩
  | instr i ret rest ih =>
    obtain ⟨t, before, after⟩ := ih hl
    exact ⟨t, .instr i ret before, after⟩
  | @page k s u region page answer rest ih =>
    cases l with
    | nil =>
      obtain rfl : l' = (region, page) :: k := hl
      exact ⟨s, .done s, .page region page answer rest⟩
    | cons p l =>
      obtain ⟨rfl, hk⟩ := List.cons.inj hl
      obtain ⟨t, before, after⟩ := ih hk
      exact ⟨t, .page region page answer before, after⟩

theorem mono {Q' : Int → Prop} (h : Sends E Q l s t) (hQ : ∀ ret, Q ret → Q' ret) : Sends E Q' l s t := by
  induction h with
  | done s => exact .done s
  | instr i ret rest ih => exact .instr i ret ih
  | page region page answer rest ih => exact .page region page (hQ _ answer) ih

theorem registered (h : Sends E Q l s t) : Registered s t := by
  induction h with
  | done s => exact .refl s
  | instr i ret rest ih =>
    exact ((Registered.refl _).emit (e := .getLoadInstr i ret) trivial rfl).trans ih
  | page region page answer rest ih => exact (addRawMdToMemoryManager_registered E page _ _).trans ih

end Sends

/-! ### Loops that follow a plan -/

/-- What a loop does that is to register the pages of a list and that comes to an end if `ends`: it registers a
    first part of them, and if it reports success all of them. -/
structure Follows (E : Env) (l : Plan) (ends : Prop) (s : State) (r : Option Int × State) : Prop where
  sends : ∃ l', l' <+: l ∧ Sends E (fun _ => True) l' s r.2
  complete : r.1 = some bfSuccess → ends ∧ Sends E (· = bfSuccess) l s r.2
  returns : ends → r.1.isSome

namespace Follows
variable {E : Env} {l l' : Plan} {ends ends' : Prop} {s : State} {r r' : Option Int × State}

theorem nil (E : Env) (s : State) : Follows E [] True s (some bfSuccess, s) where
  sends := ⟨[], List.prefix_refl _, .done s⟩
  complete _ := ⟨trivial, .done s⟩
  returns _ := rfl

theorem congr (h : Follows E l ends s r) (iff : ends ↔ ends') : Follows E l ends' s r where
  sends := h.sends
  complete success := (h.complete success).imp_left iff.mp
  returns e := h.returns (iff.mpr e)

/-- A loop that does not report success leaves out the rest. -/
theorem stop (h : Follows E l ends s r) (failed : r.1 ≠ some bfSuccess) (l' : Plan) (ends' : Prop) :
    Follows E (l ++ l') (ends ∧ ends') s r where
  sends := by
    obtain ⟨k, hk, sent⟩ := h.sends
    exact ⟨k, hk.trans (List.prefix_append _ _), sent⟩
  complete success := absurd success failed
  returns e := h.returns e.1

theorem append (h : Follows E l ends s r) (success : r.1 = some bfSuccess) (h' : Follows E l' ends' r.2 r') :
    Follows E (l ++ l') (ends ∧ ends') s r' where
  sends := by
    obtain ⟨k, hk, sent⟩ := h'.sends
    exact ⟨l ++ k, (List.prefix_append_right_inj l).mpr hk, ((h.complete success).2.mono fun _ _ => trivial).trans sent⟩
  complete success' := ⟨⟨(h.complete success).1, (h'.complete success').1⟩,
    (h.complete success).2.trans (h'.complete success').2⟩
  returns e := h'.returns e.2

/-- A loop goes on with the rest exactly if it reports success. -/
theorem bind (h : Follows E l ends s r) (h' : Follows E l' ends' r.2 r') :
    Follows E (l ++ l') (ends ∧ ends') s (if r.1 ≠ some bfSuccess then r else r') := by
  split
  · rename_i failed
    exact h.stop failed l' ends'
  · rename_i success
    exact h.append (not_not.mp success) h'

end Follows

section Loops
variable (E : Env) (fuel : Nat)

theorem addRawMdToMemoryManager_follows (region : Region) (page : UInt64) (s : State) :
    Follows E [(region, page)] True s ((some (addRawMdToMemoryManager E page (region.type E.sdk) s).1,
      (addRawMdToMemoryManager E page (region.type E.sdk) s).2)) where
  sends := ⟨[(region, page)], List.prefix_refl _, .page region page trivial (.done _)⟩
  complete success := ⟨trivial, .page region page (Option.some.inj success) (.done _)⟩
  returns _ := rfl

theorem pageLoop_follows_from (region : Region) (last : UInt64) : ∀ (fuel : Nat) (page : UInt64) (s : State),
    Follows E ((walk E.sdk.maxPageSize last fuel page).map (Prod.mk region))
      (Pages.Ends E.sdk.maxPageSize last fuel page) s (pageLoop E (region.type E.sdk) last fuel page s)
  | 0, page, s =>
    { sends := ⟨[], List.prefix_refl _, .done s⟩
      complete := fun h => by cases h
      returns := fun h => absurd h (Nat.not_lt_zero _) }
  | fuel + 1, page, s => by
    have one := addRawMdToMemoryManager_follows E region page s
    unfold pageLoop
    split
    · rename_i le
      have rest := pageLoop_follows_from region last fuel (page + E.sdk.maxPageSize)
        (addRawMdToMemoryManager E page (region.type E.sdk) s).2
      have ends : True ∧ Pages.Ends E.sdk.maxPageSize last fuel (page + E.sdk.maxPageSize) ↔
          Pages.Ends E.sdk.maxPageSize last (fuel + 1) page := by rw [true_and, ends_succ_iff le]
      rw [walk_of_le le, List.map_cons]
      dsimp only
      split
      · rename_i refused
        exact (one.stop (fun h => refused (Option.some.inj h)) _ _).congr ends
      · rename_i accepted
        exact (one.append (congrArg some (not_not.mp accepted)) rest).congr ends
    · rename_i behind
      rw [walk_of_not_le behind]
      refine (Follows.nil E s).congr (iff_of_true trivial ?_)
      show (walk _ _ _ _).length < _
      rw [walk_of_not_le behind]
      exact Nat.succ_pos fuel

theorem pageLoop_follows (region : Region) (s : State) : Follows E (region.pages E.sdk fuel) (region.Ends E.sdk fuel) s
    (pageLoop E (region.type E.sdk) (region.last E.sdk) fuel (region.first E.sdk) s) :=
  pageLoop_follows_from E region _ fuel _ s

theorem planOf_cons (k : Sdk) (region : Region) (regions : List Region) :
    planOf k fuel (region :: regions) = region.pages k fuel ++ planOf k fuel regions := List.flatMap_cons

theorem planOf_append (k : Sdk) (regions regions' : List Region) :
    planOf k fuel (regions ++ regions') = planOf k fuel regions ++ planOf k fuel regions' := List.flatMap_append

theorem segmentLoop_follows (m : Binary) : ∀ (instrs : List LoadInstr) (i : Nat) (s : State),
    Follows E (planOf E.sdk fuel (instrs.map (Region.segment m)))
      (∀ region ∈ instrs.map (Region.segment m), region.Ends E.sdk fuel) s (segmentLoop E fuel m instrs i s)
  | [], _, s => (Follows.nil E s).congr (by simp)
  | instr :: instrs, i, s => by
    have asked : ∀ {l ends r}, Follows E l ends (s.emit (.getLoadInstr i (E.getLoadInstr s.trace m i))) r →
        Follows E l ends s r := fun h =>
      { sends := by
          obtain ⟨l', hl', sent⟩ := h.sends
          exact ⟨l', hl', .instr _ _ sent⟩
        complete := fun success => (h.complete success).imp_right (.instr _ _)
        returns := h.returns }
    unfold segmentLoop
    dsimp only
    rw [List.map_cons, planOf_cons, List.forall_mem_cons]
    split
    · rename_i failed
      exact { sends := ⟨[], List.nil_prefix, .instr i _ (.done _)⟩
              complete := fun success => absurd (Option.some.inj success) failed
              returns := fun _ => rfl }
    · exact asked ((pageLoop_follows E fuel (.segment m instr) _).bind (segmentLoop_follows m instrs (i + 1) _))

theorem moduleLoop_follows : ∀ (ms : List Binary) (s : State),
    Follows E (planOf E.sdk fuel (segments ms)) (∀ region ∈ segments ms, region.Ends E.sdk fuel) s
      (moduleLoop E fuel ms s)
  | [], s => (Follows.nil E s).congr (by simp [segments])
  | m :: ms, s => by
    unfold moduleLoop
    dsimp only
    rw [segments, List.flatMap_cons, planOf_append, List.forall_mem_append]
    exact (segmentLoop_follows E fuel m m.ef 0 s).bind (moduleLoop_follows ms _)

/-- How the registration of a load goes: with the TLS, once the modules are registered. -/
abbrev loadRegistration (s : State) : Option Int × State :=
  if (loadModules E fuel s).1 ≠ some bfSuccess then loadModules E fuel s else loadPages E fuel s

theorem loadRegistration_follows (s : State) : Follows E (planOf E.sdk fuel (loadElf E s).2.regions)
    (∀ region ∈ (loadElf E s).2.regions, region.Ends E.sdk fuel) (loadInit E s).2 (loadRegistration E fuel s) := by
  have modules := moduleLoop_follows E fuel (loadInit E s).2.added (loadInit E s).2
  have tls : Follows E (Region.pages E.sdk fuel (.tls (loadModules E fuel s).2.tls (loadModules E fuel s).2.tlsSize))
      (Region.Ends E.sdk fuel (.tls (loadModules E fuel s).2.tls (loadModules E fuel s).2.tlsSize))
      (loadModules E fuel s).2 (loadPages E fuel s) := pageLoop_follows E fuel (.tls _ _) _
  have both : Follows E _ _ _ (loadRegistration E fuel s) := modules.bind tls
  rw [(loadInit_kept E s).added, (loadModules_kept E fuel s).tls, (loadModules_kept E fuel s).tlsSize] at both
  rw [State.regions, planOf_append, List.forall_mem_append, List.forall_mem_singleton, planOf, planOf,
    List.flatMap_singleton]
  exact both

/-- Within the pages of some regions those of each are registered together. -/
theorem Sends.of_mem {Q : Int → Prop} {regions : List Region} {region : Region} {s t : State}
    (h : Sends E Q (planOf E.sdk fuel regions) s t) (hr : region ∈ regions) :
    ∃ l l' u v, Sends E Q l s u ∧ Sends E Q (region.pages E.sdk fuel) u v ∧ Sends E Q l' v t := by
  obtain ⟨before, behind, split⟩ := List.append_of_mem hr
  rw [split, planOf_append, planOf_cons] at h
  obtain ⟨u, earlier, rest⟩ := h.split
  obtain ⟨v, here, later⟩ := rest.split
  exact ⟨_, _, u, v, earlier, here, later⟩

end Loops

/-! ### What the calls are about -/

/-- The page that a call is about. -/
def page? : Event → Option UInt64
  | .virtToPhys virt _ => some virt
  | .setIntegerArgs (.addMdl md) _ => some md.virt
  | .enter _ (.addMdl md) _ _ => some md.virt
  | _ => none

/-- The address that a call translates. -/
def virt? : Event → Option UInt64
  | .virtToPhys virt _ => some virt
  | _ => none

/-- The addresses that were translated, newest first. -/
def translated (t : Trace) : List UInt64 := t.filterMap virt?

/-- Between two traces the pages of a list were translated, in its order, and no other page was translated or sent. -/
structure Handled (l : Plan) (t t' : Trace) : Prop where
  translated : translated t' = (l.map Prod.snd).reverse ++ translated t
  only : Grew (fun e => ∀ page, page? e = some page → page ∈ l.map Prod.snd) t t'

/-- Between two traces no page was translated or sent. -/
abbrev Quiet (t t' : Trace) : Prop := Grew (fun e => page? e = none) t t'

namespace Handled
variable {l l' : Plan} {t t' t'' : Trace}

theorem of_quiet (h : Quiet t t') : Handled [] t t' where
  translated := h.filterMap_eq fun e he => by cases e <;> first | rfl | cases he
  only := h.mono fun e he page hp => by cases he.symm.trans hp

theorem trans (h : Handled l t t') (h' : Handled l' t' t'') : Handled (l ++ l') t t'' where
  translated := by rw [h'.translated, h.translated, List.map_append, List.reverse_append, List.append_assoc]
  only := by
    rw [List.map_append]
    exact (h.only.mono fun e he page hp => List.mem_append_left _ (he page hp)).trans
      (h'.only.mono fun e he page hp => List.mem_append_right _ (he page hp))

theorem quiet (h : Handled l t t') (h' : Quiet t' t'') : Handled l t t'' := by
  have both := h.trans (of_quiet h')
  rwa [List.append_nil] at both

end Handled

section Views
variable {E : Env} {Q : Int → Prop} {l : Plan} {s t : State}

/-- A registered page is translated, and then the VMM is asked with the translation. -/
theorem addRawMdToMemoryManager_handled (E : Env) (region : Region) (page type : UInt64) (s : State) :
    Handled [(region, page)] s.trace (addRawMdToMemoryManager E page type s).2.trace := by
  have asked : ∀ md u, md.virt = page → Handled [(region, page)] s.trace (u :: s.trace) →
      Handled [(region, page)] s.trace (callVmm E (.addMdl md) (s.emit u)).2.trace := fun md u virt h => by
    have carries := callVmm_carries E (.addMdl md) (s.emit u)
    refine ⟨?_, h.only.trans (carries.mono fun e he p hp => ?_)⟩
    · rw [← h.translated]
      exact carries.filterMap_eq fun e he => by cases e <;> first | rfl | exact he.elim
    · rw [List.map_singleton, List.mem_singleton, ← virt]
      cases e <;> first | exact he.elim | cases hp | skip
      all_goals
        cases he
        exact (Option.some.inj hp).symm
  have looked : Handled [(region, page)] s.trace (.virtToPhys page (E.virtToPhys s.trace page) :: s.trace) :=
    ⟨rfl, (Grew.refl _).cons fun p hp => by simpa using (Option.some.inj hp).symm⟩
  unfold addRawMdToMemoryManager
  dsimp only
  split <;> exact asked _ _ rfl looked

theorem Sends.handled (h : Sends E Q l s t) : Handled l s.trace t.trace := by
  induction h with
  | done s => exact .of_quiet (.refl _)
  | @instr l s t i ret rest ih =>
    have asked : Handled [] s.trace (s.emit (.getLoadInstr i ret)).trace := .of_quiet ((Grew.refl _).cons rfl)
    exact asked.trans ih
  | page region page answer rest ih => exact (addRawMdToMemoryManager_handled E region page _ _).trans ih

/-- The physical address of a descriptor is a translation of its virtual one. -/
def Translated (E : Env) (t : Trace) (md : MemoryDescriptor) : Prop :=
  ∃ past, .virtToPhys md.virt md.phys :: past <:+ t ∧ md.phys = E.virtToPhys past md.virt

theorem Translated.grew {P : Event → Prop} {t t' : Trace} {md : MemoryDescriptor} (h : Translated E t md)
    (g : Grew P t t') : Translated E t' md := by
  obtain ⟨past, before, phys⟩ := h
  exact ⟨past, before.trans g.suffix, phys⟩

/-- The descriptor of a page that is registered now. -/
abbrev descriptorOf (E : Env) (s : State) (page type : UInt64) : MemoryDescriptor :=
  ⟨page, E.virtToPhys s.trace page, type⟩

theorem addRawMdToMemoryManager_accepted {page type : UInt64}
    (h : (addRawMdToMemoryManager E page type s).1 = bfSuccess) :
    signals (addRawMdToMemoryManager E page type s).2.trace =
        .accepted s.resources (.addMdl (descriptorOf E s page type)) :: signals s.trace ∧
      Translated E (addRawMdToMemoryManager E page type s).2.trace (descriptorOf E s page type) := by
  unfold addRawMdToMemoryManager at h ⊢
  dsimp only at h ⊢
  split at h
  · contradiction
  · rename_i success
    rw [if_neg success]
    have carries := callVmm_carries E (.addMdl (descriptorOf E s page type))
      (s.emit (.virtToPhys page (E.virtToPhys s.trace page)))
    refine ⟨?_, s.trace, carries.suffix, rfl⟩
    rw [callVmm_signals, if_pos (not_not.mp success)]
    rfl

/-- The pages of one region, each accepted, are accepted descriptors of its type, in their order. -/
theorem Sends.accepted {region : Region} (h : Sends E (· = bfSuccess) l s t) (same : ∀ p ∈ l, p.1 = region) :
    ∃ mds : List MemoryDescriptor, mds.map (·.virt) = l.map Prod.snd ∧
      signals t.trace = (mds.map fun md => .accepted s.resources (.addMdl md)).reverse ++ signals s.trace ∧
      ∀ md ∈ mds, md.type = region.type E.sdk ∧ Translated E t.trace md := by
  induction h with
  | done s => exact ⟨[], rfl, rfl, by simp⟩
  | @instr l s t i ret rest ih => exact ih same
  | @page l s t owner page answer rest ih =>
    obtain ⟨mds, virts, accepted, described⟩ := ih fun p hp => same p (List.mem_cons_of_mem _ hp)
    obtain rfl : owner = region := same _ List.mem_cons_self
    have one := addRawMdToMemoryManager_accepted answer
    have resources := (addRawMdToMemoryManager_registered E page (owner.type E.sdk) s).resources
    refine ⟨descriptorOf E s page (owner.type E.sdk) :: mds, ?_, ?_, ?_⟩
    · rw [List.map_cons, List.map_cons, virts]
    · rw [accepted, one.1, resources, List.map_cons, List.reverse_cons, List.append_assoc]
      rfl
    · exact List.forall_mem_cons.mpr ⟨⟨rfl, one.2.grew rest.registered.grew⟩, described⟩

end Views

/-! ### Loads -/

section Load
variable {E : Env} {fuel : Nat} {s : State}

theorem quiet_of_prepares {t t' : Trace} (h : Grew Prepares t t') : Quiet t t' :=
  h.mono fun e he => by cases e <;> first | rfl | exact he.elim

theorem loadElf_quiet (E : Env) (s : State) : Quiet s.trace (loadElf E s).2.trace :=
  loadElf_grew E s (fun e he => by cases e <;> first | rfl | exact he.elim) fun _ _ => rfl

theorem loadInit_quiet (E : Env) (s : State) : Quiet s.trace (loadInit E s).2.trace :=
  (loadElf_quiet E s).trans ((callVmm_carries E .init _).mono fun e he => by
    cases e <;> first | rfl | exact he.elim | (cases he; rfl))

theorem commonReset_quiet (E : Env) (s : State) : Quiet s.trace (commonReset E s).2.trace :=
  (commonReset_grew E s).mono fun e he => by cases e <;> first | rfl | exact he.elim

/-- However a load goes, it sends a first part of the plan of what it has set up, and no other page. -/
theorem LoadRun.sends {r : Option Int × State} (run : LoadRun E fuel s r) :
    ∃ l u v, l <+: planOf E.sdk fuel (loadElf E s).2.regions ∧ (l ≠ [] → Initialised E s) ∧
      Quiet s.trace u.trace ∧ Sends E (fun _ => True) l u v ∧ Quiet v.trace r.2.trace := by
  have unplanned : ∀ {u : State}, Quiet s.trace u.trace →
      ∃ l v w, l <+: planOf E.sdk fuel (loadElf E s).2.regions ∧ (l ≠ [] → Initialised E s) ∧
        Quiet s.trace v.trace ∧ Sends E (fun _ => True) l v w ∧ Quiet w.trace (commonReset E u).2.trace := fun {u} quiet =>
    ⟨[], u, u, List.nil_prefix, fun some => absurd rfl some, quiet, .done u, commonReset_quiet E u⟩
  have stack : Quiet s.trace (loadStack E s).2.trace := quiet_of_prepares (setupStack_prepares E s)
  have tls : Quiet s.trace (loadTls E s).2.trace := stack.trans (quiet_of_prepares (setupTls_prepares E _))
  have planned (inited : Initialised E s) {t : State} (behind : Quiet (loadRegistration E fuel s).2.trace t.trace) :
      ∃ l v w, l <+: planOf E.sdk fuel (loadElf E s).2.regions ∧ (l ≠ [] → Initialised E s) ∧
        Quiet s.trace v.trace ∧ Sends E (fun _ => True) l v w ∧ Quiet w.trace t.trace := by
    obtain ⟨l, hl, sent⟩ := (loadRegistration_follows E fuel s).sends
    exact ⟨l, _, _, hl, fun _ => inited, loadInit_quiet E s, sent, behind⟩
  have stopped (ne : (loadModules E fuel s).1 ≠ some bfSuccess) : loadRegistration E fuel s = loadModules E fuel s :=
    if_pos ne
  have through (done : (loadModules E fuel s).1 = some bfSuccess) : loadRegistration E fuel s = loadPages E fuel s :=
    if_neg (not_not.mpr done)
  cases run with
  | stackFailed => exact unplanned stack
  | tlsFailed => exact unplanned tls
  | elfFailed => exact unplanned (loadElf_quiet E s)
  | initRefused => exact unplanned (loadInit_quiet E s)
  | modulesFailed inited failed ne =>
    refine planned inited ?_
    rw [stopped (by rw [failed]; exact fun h => ne (Option.some.inj h))]
    exact commonReset_quiet E _
  | modulesPending inited pending => exact planned inited (stopped (by rw [pending]; simp) ▸ .refl _)
  | pagesFailed inited done => exact planned inited (through done ▸ .refl _)
  | loaded inited done => exact planned inited (through done ▸ .refl _)

theorem commonLoadVmm_sends (E : Env) (fuel : Nat) (s : State) :
    ∃ l u v, l <+: planOf E.sdk fuel (loadElf E s).2.regions ∧ (l ≠ [] → Initialised E s) ∧
      Quiet s.trace u.trace ∧ Sends E (fun _ => True) l u v ∧ Quiet v.trace (commonLoadVmm E fuel s).2.trace := by
  by_cases h : s.vmmStatus = .unloaded ∧ s.numModules ≠ 0
  · exact (commonLoadVmm_run E fuel s h.1 h.2).sends
  · rw [commonLoadVmm_refused E fuel h]
    exact ⟨[], s, s, List.nil_prefix, fun some => absurd rfl some, .refl _, .done s, .refl _⟩

/-- However a load goes, it handles a first part of the plan of what it has set up, and nothing else. -/
theorem commonLoadVmm_handled (E : Env) (fuel : Nat) (s : State) :
    ∃ l, l <+: planOf E.sdk fuel (loadElf E s).2.regions ∧ (l ≠ [] → Initialised E s) ∧
      Handled l s.trace (commonLoadVmm E fuel s).2.trace := by
  obtain ⟨l, u, v, hl, some, before, sent, behind⟩ := commonLoadVmm_sends E fuel s
  exact ⟨l, hl, some, ((Handled.of_quiet before).trans sent.handled).quiet behind⟩

/-- A load that gets to its end is one that goes through all stages. -/
theorem commonLoadVmm_of_loads (hst : s.vmmStatus = .unloaded) (h : (commonLoadVmm E fuel s).2.vmmStatus = .loaded) :
    Initialised E s ∧ (loadRegistration E fuel s).1 = some bfSuccess ∧
      (commonLoadVmm E fuel s).2 = { (loadRegistration E fuel s).2 with vmmStatus := .loaded } := by
  by_cases hm : s.numModules = 0
  · rw [commonLoadVmm_of_empty E fuel hst hm] at h
    cases hst.symm.trans h
  · have run := commonLoadVmm_run E fuel s hst hm
    generalize commonLoadVmm E fuel s = r at run h
    cases run with
    | modulesPending => cases ((loadModules_status E fuel s).trans hst).symm.trans h
    | pagesFailed => cases ((loadPages_status E fuel s).trans hst).symm.trans h
    | loaded inited done pages =>
      have through : loadRegistration E fuel s = loadPages E fuel s := if_neg (not_not.mpr done)
      exact ⟨inited, through ▸ pages, by rw [through]⟩
    | _ => cases (commonReset_status E _).symm.trans h

/-- A load comes to its end if the loops over its regions do. -/
theorem commonLoadVmm_returns (h : Initialised E s → ∀ region ∈ (loadElf E s).2.regions, region.Ends E.sdk fuel) :
    (commonLoadVmm E fuel s).1.isSome := by
  by_cases hload : s.vmmStatus = .unloaded ∧ s.numModules ≠ 0
  · have run := commonLoadVmm_run E fuel s hload.1 hload.2
    generalize commonLoadVmm E fuel s = r at run
    have returns (inited : Initialised E s) := (loadRegistration_follows E fuel s).returns (h inited)
    cases run with
    | modulesPending inited pending =>
      have some := returns inited
      rw [loadRegistration, if_pos (by rw [pending]; simp), pending] at some
      cases some
    | pagesFailed inited done =>
      have some := returns inited
      rwa [loadRegistration, if_neg (not_not.mpr done)] at some
    | _ => rfl
  · unfold commonLoadVmm
    rcases hst : s.vmmStatus with _ | _ | _ | _ <;> dsimp only
    · have empty : s.numModules = 0 := by
        by_contra hm
        exact hload ⟨hst, hm⟩
      rw [if_pos empty]
      rfl
    all_goals rfl

end Load

end Bfdriver
