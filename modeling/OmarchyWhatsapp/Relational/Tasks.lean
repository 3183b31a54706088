import Mathlib.Data.List.Basic

/-!
# Tasks that can be cancelled

A task belongs to an owner and works through a list of items. A cancellation takes effect at the
next `await` of a task that it reaches, and a `check` ends a task whose owner is no longer
current. A task is `Stopped` if one of the two comes before its next write.
-/

namespace Relational

variable {γ ω : Type*}

inductive TaskItem (ω : Type*) where
  | await
  | check
  /-- From here on a cancellation reaches the task. -/
  | register
  | write (w : ω)
  /-- Starts a task that no cancellation reaches and that only writes. -/
  | detach (ws : List ω)

structure Task (γ ω : Type*) where
  owner : γ
  registered : Bool := false
  cancelled : Bool := false
  items : List (TaskItem ω)

/-- What is left of a task after its next item, what it writes and the task it starts. -/
structure Task.Progress (γ ω : Type*) where
  left : Option (Task γ ω)
  written : Option ω := none
  started : Option (Task γ ω) := none

namespace Task

def cancel (t : Task γ ω) : Task γ ω := { t with cancelled := t.cancelled || t.registered }

/-- The next item; `current` tells whether the owner is current. -/
def advance (t : Task γ ω) (current : Bool) : Progress γ ω :=
  match t.items with
  | [] => ⟨none, none, none⟩
  | .await :: items => ⟨if t.cancelled then none else some { t with items }, none, none⟩
  | .check :: items => ⟨if current then some { t with items } else none, none, none⟩
  | .register :: items => ⟨some { t with registered := true, items }, none, none⟩
  | .write w :: items => ⟨some { t with items }, some w, none⟩
  | .detach ws :: items =>
    ⟨some { t with items }, none, some { owner := t.owner, items := ws.map .write }⟩

/-- No write comes before the end, a check, or an await at which the task is cancelled. -/
def harmless (cancelled : Bool) : List (TaskItem ω) → Bool
  | [] => true
  | .await :: items => cancelled || harmless cancelled items
  | .check :: _ => true
  | .register :: items => harmless cancelled items
  | .write _ :: _ => false
  | .detach ws :: items => ws.isEmpty && harmless cancelled items

def stopped (t : Task γ ω) : Bool := harmless t.cancelled t.items

theorem owner_left {t left : Task γ ω} {current : Bool}
    (hleft : left ∈ (t.advance current).left) : left.owner = t.owner := by
  unfold advance at hleft
  split at hleft
  · cases hleft
  · dsimp only at hleft
    split at hleft <;> cases hleft
    rfl
  · dsimp only at hleft
    split at hleft <;> cases hleft
    rfl
  all_goals
    cases hleft
    rfl

theorem owner_started {t started : Task γ ω} {current : Bool}
    (hstarted : started ∈ (t.advance current).started) : started.owner = t.owner := by
  unfold advance at hstarted
  split at hstarted <;> cases hstarted
  rfl

/-- A stopped task whose owner is not current writes nothing, and what is left of it is stopped
again. -/
theorem stopped_advance {t : Task γ ω} (h : t.stopped = true) :
    (t.advance false).written = none ∧ (∀ left ∈ (t.advance false).left, left.stopped = true) ∧
      ∀ started ∈ (t.advance false).started, started.stopped = true := by
  unfold stopped at h
  unfold advance
  cases hitems : t.items with
  | nil => exact ⟨rfl, by simp, by simp⟩
  | cons item items =>
    rw [hitems] at h
    cases item with
    | await =>
      rw [harmless, Bool.or_eq_true] at h
      refine ⟨rfl, ?_, by simp⟩
      dsimp only
      split_ifs with hcancelled
      · simp
      · intro left hleft
        cases hleft
        exact h.resolve_left hcancelled
    | check => exact ⟨rfl, by simp, by simp⟩
    | register =>
      refine ⟨rfl, fun left hleft => ?_, by simp⟩
      cases hleft
      exact h
    | write w => cases h
    | detach ws =>
      rw [harmless, Bool.and_eq_true, List.isEmpty_iff] at h
      refine ⟨rfl, fun left hleft => ?_, fun started hstarted => ?_⟩
      · cases hleft
        exact h.2
      · cases hstarted
        rw [stopped, h.1]
        rfl

end Task

end Relational
