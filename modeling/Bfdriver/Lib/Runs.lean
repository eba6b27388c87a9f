import Mathlib.Data.Option.Basic

/-! # Runs of a list of inputs

A machine answers an input with a result, if it terminates, and a new state. What every step preserves
holds after a run, and two machines that a bisimulation relates look the same throughout their runs. -/

namespace Runs

variable {α α' ρ ρ' σ σ' φ : Type*}

/-- The state after the inputs of a list. -/
def runFrom (step : α → σ → Option ρ × σ) : List α → σ → σ
  | [], s => s
  | a :: as, s => runFrom step as (step a s).2

/-- Every input of the list is given in a state that satisfies `P`, and gets a result. -/
def Completes (step : α → σ → Option ρ × σ) (P : σ → α → Prop) : List α → σ → Prop
  | [], _ => True
  | a :: as, s => (P s a ∧ (step a s).1.isSome) ∧ Completes step P as (step a s).2

instance Completes.decidable (step : α → σ → Option ρ × σ) (P : σ → α → Prop) [∀ s a, Decidable (P s a)] :
    ∀ (as : List α) (s : σ), Decidable (Completes step P as s)
  | [], _ => inferInstanceAs (Decidable True)
  | a :: as, s =>
    have := Completes.decidable step P as (step a s).2
    inferInstanceAs (Decidable ((P s a ∧ (step a s).1.isSome) ∧ _))

/-- What every step preserves holds after a run that completes. -/
theorem Completes.preserves {step : α → σ → Option ρ × σ} {P : σ → α → Prop} {I : σ → Prop} {as : List α} {s : σ}
    (hc : Completes step P as s) (hstep : ∀ s t a r, I s → P s a → step a s = (some r, t) → I t) (h : I s) :
    I (runFrom step as s) := by
  induction as generalizing s with
  | nil => exact h
  | cons a as ih =>
    obtain ⟨⟨allowed, returns⟩, rest⟩ := hc
    obtain ⟨r, hr⟩ := Option.isSome_iff_exists.mp returns
    exact ih rest (hstep s _ a r h allowed (Prod.ext hr rfl))

/-- The states between the inputs of a run from `s₀` in which every input is given in a state that satisfies `P`
    and gets a result. -/
inductive ReachesBy (step : α → σ → Option ρ × σ) (P : σ → α → Prop) (s₀ : σ) : σ → Prop where
  | init : ReachesBy step P s₀ s₀
  | step {s t : σ} {a : α} {r : ρ} (before : ReachesBy step P s₀ s) (allowed : P s a)
      (returned : step a s = (some r, t)) : ReachesBy step P s₀ t

/-- What the first state has and every allowed input keeps holds throughout a run. -/
theorem ReachesBy.invariant {step : α → σ → Option ρ × σ} {P : σ → α → Prop} {I : σ → Prop} {s₀ s : σ}
    (h : ReachesBy step P s₀ s) (init : I s₀)
    (keeps : ∀ s a, P s a → (step a s).1.isSome → I s → I (step a s).2) : I s := by
  induction h with
  | init => exact init
  | step before allowed returned ih =>
    have kept := keeps _ _ allowed (by rw [returned]; rfl) ih
    rwa [returned] at kept

theorem Completes.reaches {step : α → σ → Option ρ × σ} {P : σ → α → Prop} {as : List α} {s₀ : σ}
    (hc : Completes step P as s₀) : ReachesBy step P s₀ (runFrom step as s₀) :=
  hc.preserves (fun _ _ _ _ before allowed returned => before.step allowed returned) .init

/-! ### Two runs -/

/-- What is seen of a run: a view of the state before each input with the result of the input, and a view of
    the state in the end. -/
def observe (step : α → σ → Option ρ × σ) (view : σ → φ) : List α → σ → List (φ × Option ρ) × φ
  | [], s => ([], view s)
  | a :: as, s =>
    let rest := observe step view as (step a s).2
    ((view s, (step a s).1) :: rest.1, rest.2)

/-- Related states look the same, and every input gets the same result in both and leads to related states. -/
structure Bisimulation (step : α → σ → Option ρ × σ) (step' : α → σ' → Option ρ × σ') (view : σ → φ) (view' : σ' → φ)
    (R : σ → σ' → Prop) : Prop where
  looks : ∀ {s s'}, R s s' → view' s' = view s
  result : ∀ {s s'} (a : α), R s s' → (step' a s').1 = (step a s).1
  next : ∀ {s s'} (a : α), R s s' → R (step a s).2 (step' a s').2

/-- Runs of the same inputs from related states look the same. -/
theorem Bisimulation.observe_eq {step : α → σ → Option ρ × σ} {step' : α → σ' → Option ρ × σ'} {view : σ → φ}
    {view' : σ' → φ} {R : σ → σ' → Prop} (h : Bisimulation step step' view view' R) (as : List α) {s : σ} {s' : σ'}
    (related : R s s') : observe step' view' as s' = observe step view as s := by
  induction as generalizing s s' with
  | nil => exact congrArg (Prod.mk []) (h.looks related)
  | cons a as ih =>
    have rest := ih (h.next a related)
    rw [observe, observe, h.result a related, h.looks related, rest]

/-- Every input of the list is given in a state that satisfies `P`. -/
def Along (step : α → σ → Option ρ × σ) (P : σ → α → Prop) : List α → σ → Prop
  | [], _ => True
  | a :: as, s => P s a ∧ Along step P as (step a s).2

/-- What the inputs of a run stand for, each in the state in which it is given. -/
def meanings (step : α → σ → Option ρ × σ) (means : α → σ → α') : List α → σ → List α'
  | [], _ => []
  | a :: as, s => means a s :: meanings step means as (step a s).2

theorem meanings_same (step : α → σ → Option ρ × σ) (as : List α) (s : σ) : meanings step (fun a _ => a) as s = as := by
  induction as generalizing s with
  | nil => rfl
  | cons a as ih => exact congrArg (a :: ·) (ih _)

/-- A run and the run of what its inputs stand for look the same if, in the states of the first run, every input gets the
    same result as its meaning and leads to related states. -/
theorem Along.observe_meanings_eq {step : α → σ → Option ρ × σ} {step' : α' → σ' → Option ρ × σ'} {means : α → σ → α'}
    {view : σ → φ} {view' : σ' → φ} {P : σ → α → Prop} {R : σ → σ' → Prop} {as : List α} {s : σ} {s' : σ'}
    (h : Along step P as s) (looks : ∀ s s', R s s' → view' s' = view s)
    (next : ∀ s s' a, P s a → R s s' → (step' (means a s) s').1 = (step a s).1 ∧ R (step a s).2 (step' (means a s) s').2)
    (related : R s s') : observe step' view' (meanings step means as s) s' = observe step view as s := by
  induction as generalizing s s' with
  | nil => exact congrArg (Prod.mk []) (looks s s' related)
  | cons a as ih =>
    obtain ⟨here, rest⟩ := h
    obtain ⟨result, after⟩ := next s s' a here related
    rw [meanings, observe, observe, result, looks s s' related, ih rest after]

/-- Runs of the same inputs from related states look the same if, in the states of the first run, every input gets the
    same result in both and leads to related states. -/
theorem Along.observe_eq {step : α → σ → Option ρ × σ} {step' : α → σ' → Option ρ × σ'} {view : σ → φ} {view' : σ' → φ}
    {P : σ → α → Prop} {R : σ → σ' → Prop} {as : List α} {s : σ} {s' : σ'} (h : Along step P as s)
    (looks : ∀ s s', R s s' → view' s' = view s)
    (next : ∀ s s' a, P s a → R s s' → (step' a s').1 = (step a s).1 ∧ R (step a s).2 (step' a s').2)
    (related : R s s') : observe step' view' as s' = observe step view as s := by
  have same := Along.observe_meanings_eq h looks next related
  rwa [meanings_same] at same

/-- Two machines side by side, each with its own input. -/
def both (step : α → σ → Option ρ × σ) (step' : α' → σ' → Option ρ' × σ') (i : α × α') (s : σ × σ') :
    Option (Option ρ × Option ρ') × (σ × σ') :=
  let r := step i.1 s.1
  let r' := step' i.2 s.2
  (some (r.1, r'.1), (r.2, r'.2))

/-- Machines whose first states are related and whose allowed inputs keep their states related stay so. -/
theorem ReachesBy.lockstep {step : α → σ → Option ρ × σ} {step' : α' → σ' → Option ρ' × σ'}
    {P : σ × σ' → α × α' → Prop} {R : σ → σ' → Prop} {s₀ s : σ} {s₀' s' : σ'}
    (h : ReachesBy (both step step') P (s₀, s₀') (s, s')) (init : R s₀ s₀')
    (next : ∀ s s' a a', P (s, s') (a, a') → R s s' → R (step a s).2 (step' a' s').2) : R s s' :=
  h.invariant (I := fun p => R p.1 p.2) init fun p i allowed _ related => next p.1 p.2 i.1 i.2 allowed related

end Runs
