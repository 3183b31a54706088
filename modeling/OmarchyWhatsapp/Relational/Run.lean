import Mathlib.Data.List.Basic

/-!
# Runs of a transition system

A deterministic system is a function `step : σ → α → σ`. `run` folds it over a list of
actions and `states` lists every state on the way. `Guarded G` says that each action of
a run was taken in a state where `G` allowed it; `invariant_states` is the induction that
turns a one-step fact about guarded actions into a fact about every state of a run.
-/

namespace Relational

variable {σ α : Type*} (step : σ → α → σ)

/-- The state after a list of actions. -/
def run (s : σ) (as : List α) : σ := as.foldl step s

@[simp] theorem run_nil (s : σ) : run step s [] = s := rfl

@[simp] theorem run_cons (s : σ) (a : α) (as : List α) :
    run step s (a :: as) = run step (step s a) as := rfl

theorem run_append (s : σ) (as bs : List α) :
    run step s (as ++ bs) = run step (run step s as) bs := List.foldl_append

/-- Every state a run goes through, the first and the last included. -/
def states (s : σ) : List α → List σ
  | [] => [s]
  | a :: as => s :: states (step s a) as

theorem run_mem_states (s : σ) (as : List α) : run step s as ∈ states step s as := by
  induction as generalizing s with
  | nil => simp [states]
  | cons a as ih => exact List.mem_cons_of_mem _ (ih _)

theorem start_mem_states (s : σ) (as : List α) : s ∈ states step s as := by
  cases as <;> exact List.mem_cons_self

/-- Every action of the run is taken in a state where `G` allows it. -/
def Guarded (G : σ → α → Prop) (s : σ) : List α → Prop
  | [] => True
  | a :: as => G s a ∧ Guarded G (step s a) as

instance Guarded.decidable (G : σ → α → Prop) [∀ s a, Decidable (G s a)] (s : σ) :
    (as : List α) → Decidable (Guarded step G s as)
  | [] => isTrue trivial
  | a :: as => haveI := Guarded.decidable G (step s a) as; inferInstanceAs (Decidable (_ ∧ _))

theorem guarded_append {G : σ → α → Prop} {s : σ} {as bs : List α} :
    Guarded step G s (as ++ bs) ↔ Guarded step G s as ∧ Guarded step G (run step s as) bs := by
  induction as generalizing s with
  | nil => simp [Guarded]
  | cons a as ih =>
    simp only [List.cons_append, Guarded, run_cons, ih, and_assoc]

variable {step}

/-- What holds in every state guards every action. -/
theorem guarded_of_states {B : σ → Prop} {s : σ} {as : List α}
    (h : ∀ s' ∈ states step s as, B s') : Guarded step (fun s _ => B s) s as := by
  induction as generalizing s with
  | nil => trivial
  | cons a as ih =>
    exact ⟨h s List.mem_cons_self, ih fun s' hs' => h s' (List.mem_cons_of_mem _ hs')⟩

theorem guarded_of_forall {G : α → Prop} {s : σ} {as : List α} (h : ∀ a ∈ as, G a) :
    Guarded step (fun _ a => G a) s as := by
  induction as generalizing s with
  | nil => trivial
  | cons a as ih =>
    exact ⟨h a List.mem_cons_self, ih fun a' ha' => h a' (List.mem_cons_of_mem _ ha')⟩

/-- An invariant kept by every guarded action holds in every state of a guarded run. -/
theorem invariant_states {I : σ → Prop} {G : σ → α → Prop}
    (hstep : ∀ s a, I s → G s a → I (step s a)) {s : σ} {as : List α} (hs : I s)
    (hg : Guarded step G s as) : ∀ s' ∈ states step s as, I s' := by
  induction as generalizing s with
  | nil =>
    intro s' hs'
    rw [states, List.mem_singleton] at hs'
    exact hs' ▸ hs
  | cons a as ih =>
    intro s' hs'
    rw [states, List.mem_cons] at hs'
    rcases hs' with rfl | hs'
    · exact hs
    · exact ih (hstep s a hs hg.1) hg.2 s' hs'

/-- The same at the end of the run. -/
theorem invariant_run {I : σ → Prop} {G : σ → α → Prop}
    (hstep : ∀ s a, I s → G s a → I (step s a)) {s : σ} {as : List α} (hs : I s)
    (hg : Guarded step G s as) : I (run step s as) :=
  invariant_states hstep hs hg _ (run_mem_states step s as)

/-- Where the guard is exactly what keeps the invariant, the guarded runs are those in which it
always holds. -/
theorem invariant_states_iff_guarded {I : σ → Prop} {G : σ → α → Prop}
    (hstep : ∀ s a, I s → (I (step s a) ↔ G s a)) {s : σ} (hs : I s) (as : List α) :
    (∀ s' ∈ states step s as, I s') ↔ Guarded step G s as := by
  refine ⟨fun h => ?_, invariant_states (fun s a hs => (hstep s a hs).mpr) hs⟩
  induction as generalizing s with
  | nil => trivial
  | cons a as ih =>
    have hnext : I (step s a) := h _ (List.mem_cons_of_mem _ (start_mem_states step _ as))
    exact ⟨(hstep s a hs).mp hnext,
      ih hnext fun s' hs' => h s' (List.mem_cons_of_mem _ hs')⟩

/-- What holds until an ending step, in a run: it still holds, or the run has such a step. -/
theorem run_until {P : σ → Prop} {E : σ → α → Prop}
    (hstep : ∀ s a, P s → P (step s a) ∨ E s a) {s : σ} (hs : P s) (as : List α) :
    P (run step s as) ∨ ∃ before a after, as = before ++ a :: after ∧
      P (run step s before) ∧ E (run step s before) a := by
  induction as generalizing s with
  | nil => exact Or.inl hs
  | cons a as ih =>
    rcases hstep s a hs with hkept | hends
    · rcases ih hkept with hkept | ⟨before, b, after, rfl, hb, hends⟩
      · exact Or.inl hkept
      · exact Or.inr ⟨a :: before, b, after, rfl, hb, hends⟩
    · exact Or.inr ⟨[], a, as, rfl, hs, hends⟩

/-- An invariant that needs no guard. -/
theorem invariant_states_of_step {I : σ → Prop} (hstep : ∀ s a, I s → I (step s a)) {s : σ}
    (hs : I s) (as : List α) : ∀ s' ∈ states step s as, I s' := by
  induction as generalizing s with
  | nil =>
    intro s' hs'
    rw [states, List.mem_singleton] at hs'
    exact hs' ▸ hs
  | cons a as ih =>
    intro s' hs'
    rw [states, List.mem_cons] at hs'
    rcases hs' with rfl | hs'
    · exact hs
    · exact ih (hstep s a hs) s' hs'

/-- The same at the end of the run. -/
theorem invariant_run_of_step {I : σ → Prop} (hstep : ∀ s a, I s → I (step s a)) {s : σ}
    (hs : I s) (as : List α) : I (run step s as) :=
  invariant_states_of_step hstep hs as _ (run_mem_states step s as)

end Relational
