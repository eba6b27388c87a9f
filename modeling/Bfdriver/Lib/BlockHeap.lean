import Mathlib.Data.List.Nodup
import Mathlib.Data.Set.Card
import Mathlib.Logic.Function.Basic

/-! # Block heaps

The heap that a list of allocations and releases (newest first) leaves behind, as a partial function
from addresses to blocks, and the ownership of its blocks by a list of pointers: `Owned` says that the
pointers are distinct and each names a live block, `Covers` that no other block is live. `population` is
the number of live blocks of a kind. -/

namespace BlockHeap

/-- What one request does to the heap. -/
inductive MemOp (α β : Type*) where
  | alloc (a : α) (b : β)
  | free (a : α)
  deriving Repr, DecidableEq

variable {α β : Type*}

section Heap
variable [DecidableEq α]

def MemOp.run (h : α → Option β) : MemOp α β → α → Option β
  | .alloc a b => Function.update h a (some b)
  | .free a => Function.update h a none

/-- The heap after the requests of a list, newest first. -/
def heapOf : List (MemOp α β) → α → Option β
  | [] => fun _ => none
  | op :: ops => op.run (heapOf ops)

@[simp] theorem heapOf_alloc (a : α) (b : β) (ops : List (MemOp α β)) :
    heapOf (.alloc a b :: ops) = Function.update (heapOf ops) a (some b) := rfl

@[simp] theorem heapOf_free (a : α) (ops : List (MemOp α β)) :
    heapOf (.free a :: ops) = Function.update (heapOf ops) a none := rfl

/-- What is live after some requests is live as well if others were made before them. -/
theorem heapOf_append_eq_none {ops ops₀ : List (MemOp α β)} {x : α} (h : heapOf (ops ++ ops₀) x = none) :
    heapOf ops x = none := by
  induction ops with
  | nil => rfl
  | cons op ops ih =>
    cases op with
    | alloc a b =>
      rw [List.cons_append, heapOf_alloc, Function.update_apply] at h
      rw [heapOf_alloc, Function.update_apply]
      split at h
      · cases h
      · rename_i hne
        rw [if_neg hne]
        exact ih h
    | free a =>
      rw [List.cons_append, heapOf_free, Function.update_apply] at h
      rw [heapOf_free, Function.update_apply]
      split
      · rfl
      · rename_i hne
        rw [if_neg hne] at h
        exact ih h

variable {γ : Type*}

/-- The same request with another view of the block. -/
def MemOp.map (f : β → γ) : MemOp α β → MemOp α γ
  | .alloc a b => .alloc a (f b)
  | .free a => .free a

theorem heapOf_map (f : β → γ) (ops : List (MemOp α β)) (x : α) :
    heapOf (ops.map (MemOp.map f)) x = (heapOf ops x).map f := by
  induction ops with
  | nil => rfl
  | cons op ops ih =>
    cases op with
    | alloc a b =>
      rw [List.map_cons, MemOp.map, heapOf_alloc, heapOf_alloc, Function.update_apply, Function.update_apply, ih]
      split <;> rfl
    | free a =>
      rw [List.map_cons, MemOp.map, heapOf_free, heapOf_free, Function.update_apply, Function.update_apply, ih]
      split <;> rfl

end Heap

/-- The pointers `ps` are distinct, and each names a live block. -/
structure Owned (h : α → Option β) (ps : List (α × β)) : Prop where
  nodup : (ps.map Prod.fst).Nodup
  live : ∀ p ∈ ps, h p.1 = some p.2

/-- Every live block is one of `ps`. -/
def Covers (h : α → Option β) (ps : List (α × β)) : Prop := ∀ a, h a ≠ none → a ∈ ps.map Prod.fst

section Rules
variable {h : α → Option β} {ps qs : List (α × β)} {a : α} {b : β}

theorem Owned.nil (h : α → Option β) : Owned h [] := ⟨List.nodup_nil, by simp⟩

theorem Owned.perm (ho : Owned h ps) (hp : ps.Perm qs) : Owned h qs :=
  ⟨(hp.map Prod.fst).nodup_iff.mp ho.nodup, fun p hq => ho.live p (hp.mem_iff.mpr hq)⟩

theorem Owned.sublist (ho : Owned h ps) (hs : qs.Sublist ps) : Owned h qs :=
  ⟨ho.nodup.sublist (hs.map Prod.fst), fun p hq => ho.live p (hs.subset hq)⟩

theorem Owned.not_mem_of_free (ho : Owned h ps) (ha : h a = none) : a ∉ ps.map Prod.fst := by
  intro hm
  obtain ⟨p, hp, rfl⟩ := List.mem_map.mp hm
  rw [ho.live p hp] at ha
  cases ha

theorem Covers.perm (hc : Covers h ps) (hp : ps.Perm qs) : Covers h qs :=
  fun a ha => (hp.map Prod.fst).mem_iff.mp (hc a ha)

/-- With nothing owned, a covered heap is empty. -/
theorem Covers.empty (hc : Covers h []) (a : α) : h a = none := by
  by_contra hne
  exact absurd (hc a hne) (by simp)

variable [DecidableEq α]

/-- An allocation at a free address is owned by the pointer it returns. -/
theorem Owned.alloc (ho : Owned h ps) (ha : h a = none) :
    Owned (Function.update h a (some b)) ((a, b) :: ps) := by
  have hnot := ho.not_mem_of_free ha
  refine ⟨by simpa using ⟨by simpa using hnot, ho.nodup⟩, fun p hp => ?_⟩
  rcases List.mem_cons.mp hp with rfl | hp
  · exact Function.update_self ..
  · have hne : p.1 ≠ a := fun e => hnot (List.mem_map.mpr ⟨p, hp, e⟩)
    rw [Function.update_of_ne hne]
    exact ho.live p hp

/-- Releasing one owned block leaves the others owned. -/
theorem Owned.free (ho : Owned h ((a, b) :: ps)) : Owned (Function.update h a none) ps := by
  have hnd := ho.nodup
  rw [List.map_cons, List.nodup_cons] at hnd
  refine ⟨hnd.2, fun p hp => ?_⟩
  have hne : p.1 ≠ a := fun e => hnd.1 (List.mem_map.mpr ⟨p, hp, e⟩)
  rw [Function.update_of_ne hne]
  exact ho.live p (List.mem_cons_of_mem _ hp)

theorem Covers.alloc (hc : Covers h ps) : Covers (Function.update h a (some b)) ((a, b) :: ps) := by
  intro x hx
  by_cases hxa : x = a
  · exact hxa ▸ List.mem_cons_self
  · rw [Function.update_of_ne hxa] at hx
    exact List.mem_cons_of_mem _ (hc x hx)

theorem Covers.free (hc : Covers h ((a, b) :: ps)) : Covers (Function.update h a none) ps := by
  intro x hx
  by_cases hxa : x = a
  · subst hxa
    simp at hx
  · rw [Function.update_of_ne hxa] at hx
    rcases List.mem_cons.mp (hc x hx) with h' | h'
    · exact absurd h' hxa
    · exact h'

end Rules

/-! ### Counting blocks -/

/-- The number of live blocks that satisfy `p`. -/
noncomputable def population (h : α → Option β) (p : β → Prop) : Nat := {a | ∃ b, h a = some b ∧ p b}.ncard

theorem population_empty (p : β → Prop) : population (fun _ : α => none) p = 0 := by
  unfold population
  simp

section Population
variable [Finite α] {h : α → Option β} {p : β → Prop} {a : α} {b : β}

theorem population_eq_zero (none : population h p = 0) : ∀ a b, h a = some b → ¬p b := by
  intro a b live hp
  have empty := (Set.ncard_eq_zero (Set.toFinite _)).mp none
  exact Set.eq_empty_iff_forall_notMem.mp empty a ⟨b, live, hp⟩

variable [DecidableEq α] [DecidablePred p]

/-- A new block is counted if it is of the kind. -/
theorem population_alloc (fresh : h a = none) :
    population (Function.update h a (some b)) p = population h p + if p b then 1 else 0 := by
  unfold population
  split
  · rename_i hp
    have more : {x | ∃ c, Function.update h a (some b) x = some c ∧ p c} = insert a {x | ∃ c, h x = some c ∧ p c} := by
      ext x
      by_cases hx : x = a
      · simp [hx, hp]
      · simp [hx]
    have new : a ∉ {x | ∃ c, h x = some c ∧ p c} := by simp [fresh]
    rw [more, Set.ncard_insert_of_notMem new (Set.toFinite _)]
  · rename_i hp
    have same : {x | ∃ c, Function.update h a (some b) x = some c ∧ p c} = {x | ∃ c, h x = some c ∧ p c} := by
      ext x
      by_cases hx : x = a
      · simp [hx, hp, fresh]
      · simp [Function.update_of_ne hx]
    rw [same, Nat.add_zero]

/-- A block that is released was counted if it was of the kind. -/
theorem population_free (live : h a = some b) :
    population h p = population (Function.update h a none) p + if p b then 1 else 0 := by
  have freed : Function.update h a none a = none := Function.update_self ..
  have back := population_alloc (b := b) (p := p) freed
  rwa [Function.update_idem, ← live, Function.update_eq_self] at back

end Population

end BlockHeap
