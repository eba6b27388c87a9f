import Mathlib.Data.List.Forall2

/-! # Event logs

A log is a list of events, newest first, so that the tail of a log is its past. This file has five
notions on logs and the rules that the proofs about a logging program use: a log that only grew by
events of one kind (`Grew`), growth in which an event of some kind tells what happened (`Tells`), a property
of every event in the light of its past (`AtEach`), a bracket that some events open and others close
(`opened`), and a log that is put together of one block for each element of a list (`Blocks`). -/

namespace EventLog

variable {ε φ : Type*}

/-! ### Growth -/

/-- The events that were put in front of a log. -/
theorem take_append (es l : List ε) : (es ++ l).take ((es ++ l).length - l.length) = es := by
  rw [List.length_append, Nat.add_sub_cancel, List.take_left]

/-- `l'` is `l` after some more events, all of which satisfy `P`. -/
def Grew (P : ε → Prop) (l l' : List ε) : Prop := ∃ es, l' = es ++ l ∧ ∀ e ∈ es, P e

namespace Grew
variable {P Q : ε → Prop} {l l' l'' : List ε}

theorem refl (l : List ε) : Grew P l l := ⟨[], rfl, by simp⟩

theorem trans (h₁ : Grew P l l') (h₂ : Grew P l' l'') : Grew P l l'' := by
  obtain ⟨es₁, rfl, all₁⟩ := h₁
  obtain ⟨es₂, rfl, all₂⟩ := h₂
  refine ⟨es₂ ++ es₁, (List.append_assoc ..).symm, fun e he => ?_⟩
  rcases List.mem_append.mp he with he | he
  · exact all₂ e he
  · exact all₁ e he

theorem cons (h : Grew P l l') {e : ε} (he : P e) : Grew P l (e :: l') := by
  obtain ⟨es, rfl, all⟩ := h
  exact ⟨e :: es, rfl, List.forall_mem_cons.mpr ⟨he, all⟩⟩

/-- The newest event of a log that grew before is one of the right kind exactly if the log still only grew. -/
theorem cons_iff (h : Grew P l l') {e : ε} : Grew P l (e :: l') ↔ P e := by
  refine ⟨fun g => ?_, h.cons⟩
  obtain ⟨es, rfl, -⟩ := h
  obtain ⟨es', heq, all⟩ := g
  have same : e :: es = es' := List.append_cancel_right heq
  exact all e (same ▸ List.mem_cons_self)

theorem mono (h : Grew P l l') (hPQ : ∀ e, P e → Q e) : Grew Q l l' := by
  obtain ⟨es, rfl, all⟩ := h
  exact ⟨es, rfl, fun e he => hPQ e (all e he)⟩

theorem mem_of_mem (h : Grew P l l') {e : ε} (he : e ∈ l) : e ∈ l' := by
  obtain ⟨es, rfl, -⟩ := h
  exact List.mem_append_right es he

theorem suffix (h : Grew P l l') : l <:+ l' := by
  obtain ⟨es, rfl, -⟩ := h
  exact List.suffix_append es l

/-- A stretch of the growth is growth by the same kind of events. -/
theorem within {k k' : List ε} (h : Grew P l l') (begun : l <:+ k) (still : k <:+ k') (ended : k' <:+ l') : Grew P k k' := by
  obtain ⟨es, rfl, all⟩ := h
  obtain ⟨before, rfl⟩ := begun
  obtain ⟨during, rfl⟩ := still
  obtain ⟨after, same⟩ := ended
  have whole : (after ++ (during ++ before)) ++ l = es ++ l := by simpa only [List.append_assoc] using same
  have events : after ++ (during ++ before) = es := List.append_cancel_right whole
  exact ⟨during, rfl, fun e he => all e (events ▸ List.mem_append_right after (List.mem_append_left before he))⟩

/-- The new events are those in front of the old log. -/
theorem iff_take : Grew P l l' ↔ l <:+ l' ∧ ∀ e ∈ l'.take (l'.length - l.length), P e := by
  constructor
  · intro h
    obtain ⟨es, rfl, all⟩ := h
    exact ⟨List.suffix_append es l, (take_append es l).symm ▸ all⟩
  · intro h
    obtain ⟨⟨es, rfl⟩, all⟩ := h
    exact ⟨es, rfl, take_append es l ▸ all⟩

instance decidable [DecidableEq ε] [DecidablePred P] : Decidable (Grew P l l') := decidable_of_iff _ iff_take.symm

/-- What every event of the kind keeps is kept by the growth. -/
theorem preserves {I : List ε → Prop} (h : Grew P l l') (step : ∀ k e, P e → I k → I (e :: k)) (hl : I l) : I l' := by
  obtain ⟨es, rfl, all⟩ := h
  induction es with
  | nil => exact hl
  | cons e es ih =>
    obtain ⟨here, later⟩ := List.forall_mem_cons.mp all
    exact step _ e here (ih later)

/-- A projection that drops every new event does not see the growth. -/
theorem filterMap_eq (h : Grew P l l') {f : ε → Option φ} (hf : ∀ e, P e → f e = none) :
    l'.filterMap f = l.filterMap f := by
  obtain ⟨es, rfl, all⟩ := h
  have hes : es.filterMap f = [] := List.filterMap_eq_nil_iff.mpr fun e he => hf e (all e he)
  rw [List.filterMap_append, hes, List.nil_append]

end Grew

/-! ### Growth that tells -/

/-- `l'` is `l` after more events, one of which satisfies `P` exactly if `q`. -/
def Tells (P : ε → Prop) (q : Prop) (l l' : List ε) : Prop := ∃ es, l' = es ++ l ∧ ((∃ e ∈ es, P e) ↔ q)

namespace Tells
variable {P : ε → Prop} {q q' : Prop} {l l' l'' : List ε} {e : ε}

theorem refl (l : List ε) : Tells P False l l := ⟨[], rfl, by simp⟩

theorem congr (h : Tells P q l l') (hq : q ↔ q') : Tells P q' l l' := by
  obtain ⟨es, rfl, tells⟩ := h
  exact ⟨es, rfl, tells.trans hq⟩

theorem trans (h₁ : Tells P q l l') (h₂ : Tells P q' l' l'') : Tells P (q ∨ q') l l'' := by
  obtain ⟨es₁, rfl, tells₁⟩ := h₁
  obtain ⟨es₂, rfl, tells₂⟩ := h₂
  refine ⟨es₂ ++ es₁, (List.append_assoc ..).symm, ?_⟩
  rw [← tells₁, ← tells₂]
  simp only [List.mem_append, or_and_right, exists_or]
  exact or_comm

theorem cons (h : Tells P q l l') (he : ¬P e) : Tells P q l (e :: l') := by
  obtain ⟨es, rfl, tells⟩ := h
  exact ⟨e :: es, rfl, by simpa [he] using tells⟩

/-- A single event tells whether it satisfies the property. -/
theorem single (e : ε) (l : List ε) : Tells P (P e) l (e :: l) := ⟨[e], rfl, by simp⟩

/-- Growth by other events tells nothing. -/
theorem of_grew (h : Grew (fun e => ¬P e) l l') : Tells P False l l' := by
  obtain ⟨es, rfl, all⟩ := h
  exact ⟨es, rfl, by simpa using all⟩

theorem grew (h : Tells P q l l') (g : Grew (fun e => ¬P e) l' l'') : Tells P q l l'' :=
  (h.trans (of_grew g)).congr (by simp)

/-- Growth that tells nothing goes before. -/
theorem after (h₁ : Tells P q l l') (hq : ¬q) (h₂ : Tells P q' l' l'') : Tells P q' l l'' :=
  (h₁.trans h₂).congr ⟨fun h => h.resolve_left hq, .inr⟩

end Tells

/-! ### Events in the light of their past -/

/-- Every event of the log stands in the relation `P` to the log before it. -/
inductive AtEach (P : List ε → ε → Prop) : List ε → Prop where
  | nil : AtEach P []
  | cons {e : ε} {l : List ε} (here : P l e) (past : AtEach P l) : AtEach P (e :: l)

namespace AtEach
variable {P P' : List ε → ε → Prop} {Q : ε → Prop} {l l' : List ε} {e : ε}

theorem here (h : AtEach P (e :: l)) : P l e := by
  cases h with
  | cons here past => exact here

theorem imp (h : AtEach P l) (hP : ∀ past e, P past e → P' past e) : AtEach P' l := by
  induction h with
  | nil => exact nil
  | cons here past ih => exact cons (hP _ _ here) ih

theorem and (h : AtEach P l) (h' : AtEach P' l) : AtEach (fun past e => P past e ∧ P' past e) l := by
  induction h with
  | nil => exact nil
  | cons here past ih =>
    cases h' with
    | cons here' past' => exact cons ⟨here, here'⟩ (ih past')

theorem iff (h : AtEach (fun past e => P past e ↔ P' past e) l) : AtEach P l ↔ AtEach P' l := by
  induction h with
  | nil => exact iff_of_true nil nil
  | cons here past ih =>
    constructor
    · intro h
      cases h with
      | cons here' past' => exact cons (here.mp here') (ih.mp past')
    · intro h
      cases h with
      | cons here' past' => exact cons (here.mpr here') (ih.mpr past')

instance decidable (P : List ε → ε → Prop) [∀ l e, Decidable (P l e)] : ∀ l, Decidable (AtEach P l)
  | [] => isTrue nil
  | e :: l =>
    have := decidable P l
    decidable_of_iff (P l e ∧ AtEach P l) ⟨fun h => cons h.1 h.2, fun h => by cases h with | cons h₁ h₂ => exact ⟨h₁, h₂⟩⟩

/-- A property that no event of the new kind can break, whatever part of the growth is its past, is
    kept by the growth. -/
theorem grew (h : AtEach P l) (g : Grew Q l l') (step : ∀ k e, Grew Q l k → Q e → P k e) : AtEach P l' := by
  obtain ⟨es, rfl, all⟩ := g
  induction es with
  | nil => exact h
  | cons e es ih =>
    have tail : ∀ x ∈ es, Q x := fun x hx => all x (List.mem_cons_of_mem e hx)
    exact cons (step _ e ⟨es, rfl, tail⟩ (all e List.mem_cons_self)) (ih tail)

end AtEach

/-! ### Brackets -/

/-- Some event of the log opened the bracket and no later one closed it. -/
def opened (opens closes : ε → Bool) : List ε → Bool
  | [] => false
  | e :: l => opens e || (!closes e && opened opens closes l)

section Opened
variable {opens closes : ε → Bool} {l : List ε}

@[simp] theorem opened_nil : opened opens closes [] = false := rfl

@[simp] theorem opened_cons {e : ε} :
    opened opens closes (e :: l) = (opens e || (!closes e && opened opens closes l)) := rfl

/-- A bracket with more opening events is open at least as often. -/
theorem opened_mono {opens' : ε → Bool} (h : ∀ e, opens e = true → opens' e = true)
    (ho : opened opens closes l = true) : opened opens' closes l = true := by
  induction l with
  | nil => cases ho
  | cons e l ih =>
    rw [opened_cons, Bool.or_eq_true, Bool.and_eq_true] at ho ⊢
    exact ho.imp (h e) (And.imp_right ih)

end Opened

/-! ### Blocks -/

/-- The log consists of one block for each element of a list, that of the first element newest. -/
def Blocks {ι : Type*} (R : ι → List ε → Prop) (is : List ι) (l : List ε) : Prop :=
  ∃ blocks, List.Forall₂ R is blocks ∧ l = blocks.flatten

namespace Blocks
variable {ι : Type*} {R R' : ι → List ε → Prop} {i : ι} {is : List ι} {b l : List ε}

theorem nil : Blocks R [] [] := ⟨[], .nil, rfl⟩

theorem cons (h : R i b) (hs : Blocks R is l) : Blocks R (i :: is) (b ++ l) := by
  obtain ⟨blocks, all, rfl⟩ := hs
  exact ⟨b :: blocks, .cons h all, rfl⟩

theorem mono (h : Blocks R is l) (imp : ∀ i b, R i b → R' i b) : Blocks R' is l := by
  obtain ⟨blocks, all, rfl⟩ := h
  exact ⟨blocks, all.imp imp, rfl⟩

/-- What a projection sees of the log is what it sees of the blocks. -/
theorem filterMap_eq (h : Blocks R is l) {f : ε → Option φ} {g : ι → List φ} (hf : ∀ i b, R i b → b.filterMap f = g i) :
    l.filterMap f = is.flatMap g := by
  obtain ⟨blocks, all, rfl⟩ := h
  induction all with
  | nil => rfl
  | cons here _ ih => rw [List.flatten_cons, List.filterMap_append, hf _ _ here, ih, List.flatMap_cons]

end Blocks

end EventLog
