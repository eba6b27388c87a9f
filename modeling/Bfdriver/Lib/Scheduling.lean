import Bfdriver.Lib.EventLog

/-! # A thread and its scheduler

A thread makes the calls of a log one after the other. Between two calls the scheduler may move it to another
CPU, but not off a CPU that it is bound to, and not while preemption is disabled. -/

namespace Scheduling
open EventLog

variable {ε κ : Type*}

/-- How often preemption was disabled and not enabled again. -/
def depth (disables enables : ε → Bool) : List ε → Int
  | [] => 0
  | e :: l => depth disables enables l + (if disables e then 1 else 0) - (if enables e then 1 else 0)

/-- The CPU that a thread was bound to last. Whether a call binds it may depend on the calls before. -/
def bound (binds : List ε → ε → Option κ) : List ε → Option κ
  | [] => none
  | e :: l => (binds l e).or (bound binds l)

/-- Where a scheduler has a thread make its next call. -/
structure Scheduler (disables enables : ε → Bool) (binds : List ε → ε → Option κ) where
  cpu : List ε → κ
  follows : ∀ l c, bound binds l = some c → cpu l = c
  stays : ∀ l e, 0 < depth disables enables (e :: l) → binds l e = none → cpu (e :: l) = cpu l

section Rules
variable {disables enables : ε → Bool} {binds : List ε → ε → Option κ} {P : ε → Prop} {l l' : List ε} {e : ε}

theorem depth_cons (hd : disables e = false) (he : enables e = false) :
    depth disables enables (e :: l) = depth disables enables l := by
  simp [depth, hd, he]

theorem bound_cons (h : binds l e = none) : bound binds (e :: l) = bound binds l := by
  simp [bound, h]

theorem bound_grew (g : Grew P l l') (h : ∀ k e, P e → binds k e = none) : bound binds l' = bound binds l :=
  g.preserves (I := fun k => bound binds k = bound binds l) (fun k e he same => (bound_cons (h k e he)).trans same) rfl

/-- A scheduler that leaves a thread where it was bound last, and on `home` before that. -/
def Scheduler.lazy (disables enables : ε → Bool) (binds : List ε → ε → Option κ) (home : κ) :
    Scheduler disables enables binds where
  cpu l := (bound binds l).getD home
  follows l c h := by rw [h]; rfl
  stays l e _ h := by rw [bound_cons h]

end Rules

end Scheduling
