import Mathlib.Data.List.Basic
import Mathlib.Tactic.Common

/-!
# Sequences that can be resumed

A sequence of actions, each of which is done whole or not at all, is performed from its start
again after every interruption. It comes to the same end if an action that is done changes
nothing any more, and stays done.
-/

namespace Relational

variable {σ ε : Type}

/-- The actions in turn, until one fails; a failed action leaves the state alone. -/
def performAll : List (σ → Except ε σ) → σ → σ × Option ε
  | [], s => (s, none)
  | act :: rest, s => match act s with
    | .ok s' => performAll rest s'
    | .error e => (s, some e)

/-- What is left when the actions are interrupted after the first `n` of them, or within the
action that follows. -/
def interrupt (actions : List (σ → Except ε σ)) (n : Nat) (s : σ) : σ :=
  (performAll (actions.take n) s).1

/-- An action with the states in which it is done. -/
structure Stage (σ ε : Type) where
  act : σ → Except ε σ
  done : σ → Prop
  skip : ∀ s, done s → act s = .ok s
  ends : ∀ s s', act s = .ok s' → done s'

/-- From a state where `Inv` holds, the stages keep it, and each of them stays done while those
after it are performed. -/
structure Resumable (Inv : σ → Prop) (stages : List (Stage σ ε)) : Prop where
  keeps : ∀ a ∈ stages, ∀ s s', Inv s → a.act s = .ok s' → Inv s'
  kept : stages.Pairwise fun a b => ∀ s s', Inv s → a.done s → b.act s = .ok s' → a.done s'

namespace Resumable

variable {Inv : σ → Prop}

theorem tail {a : Stage σ ε} {stages : List (Stage σ ε)} (h : Resumable Inv (a :: stages)) :
    Resumable Inv stages :=
  ⟨fun b hb => h.keeps b (List.mem_cons_of_mem _ hb), (List.pairwise_cons.mp h.kept).2⟩

theorem take {stages : List (Stage σ ε)} (h : Resumable Inv stages) (n : Nat) :
    Resumable Inv (stages.take n) :=
  ⟨fun a ha => h.keeps a (List.mem_of_mem_take ha), h.kept.sublist (List.take_sublist _ _)⟩

end Resumable

section Perform

variable {actions : List (σ → Except ε σ)} {s s' : σ}

theorem performAll_append (before after : List (σ → Except ε σ)) (s : σ) :
    performAll (before ++ after) s = match performAll before s with
      | (s', none) => performAll after s'
      | (s', some e) => (s', some e) := by
  induction before generalizing s with
  | nil => rfl
  | cons act rest ih =>
    rw [List.cons_append, performAll, performAll]
    split
    · rename_i s₁ _
      exact ih s₁
    · rfl

theorem performAll_append_of_done {before after : List (σ → Except ε σ)}
    (h : performAll before s = (s', none)) :
    performAll (before ++ after) s = performAll after s' := by
  rw [performAll_append, h]

/-- Every state that is left behind comes after actions that succeed. -/
theorem performAll_reaches (actions : List (σ → Except ε σ)) (s : σ) :
    ∃ before after, actions = before ++ after ∧
      performAll before s = ((performAll actions s).1, none) := by
  induction actions generalizing s with
  | nil => exact ⟨[], [], rfl, rfl⟩
  | cons act rest ih =>
    rcases hact : act s with e | s'
    · refine ⟨[], act :: rest, rfl, ?_⟩
      rw [performAll, performAll, hact]
    · obtain ⟨before, after, hrest, hperformed⟩ := ih s'
      refine ⟨act :: before, after, by rw [hrest, List.cons_append], ?_⟩
      rw [performAll, performAll, hact]
      exact hperformed

end Perform

section Resume

variable {Inv : σ → Prop} {stages : List (Stage σ ε)} {s s' : σ}

theorem inv_of_performed (hstages : Resumable Inv stages) (hs : Inv s)
    (h : performAll (stages.map Stage.act) s = (s', none)) : Inv s' := by
  induction stages generalizing s with
  | nil =>
    cases h
    exact hs
  | cons a rest ih =>
    rw [List.map_cons, performAll] at h
    split at h
    · rename_i s₁ hact
      exact ih hstages.tail (hstages.keeps a List.mem_cons_self s s₁ hs hact) h
    · cases h

/-- A stage that is done stays done while those after it are performed. -/
theorem done_of_kept {a : Stage σ ε} (hstages : Resumable Inv (a :: stages)) (hs : Inv s)
    (hdone : a.done s) (h : performAll (stages.map Stage.act) s = (s', none)) : a.done s' := by
  induction stages generalizing s with
  | nil =>
    cases h
    exact hdone
  | cons b rest ih =>
    rw [List.map_cons, performAll] at h
    split at h
    · rename_i s₁ hact
      obtain ⟨ha, hrest⟩ := List.pairwise_cons.mp hstages.kept
      have hb := ha b List.mem_cons_self s s₁ hs hdone hact
      have hs₁ := hstages.tail.keeps b List.mem_cons_self s s₁ hs hact
      refine ih ⟨fun c hc => ?_, ?_⟩ hs₁ hb h
      · refine hstages.keeps c ?_
        rcases List.mem_cons.mp hc with rfl | hc
        · exact List.mem_cons_self
        · exact List.mem_cons_of_mem _ (List.mem_cons_of_mem _ hc)
      · exact List.pairwise_cons.mpr
          ⟨fun c hc => ha c (List.mem_cons_of_mem _ hc), (List.pairwise_cons.mp hrest).2⟩
    · cases h

/-- The stages that were performed are done. -/
theorem done_of_performed (hstages : Resumable Inv stages) (hs : Inv s)
    (h : performAll (stages.map Stage.act) s = (s', none)) : ∀ a ∈ stages, a.done s' := by
  induction stages generalizing s with
  | nil => exact fun _ h => absurd h List.not_mem_nil
  | cons b rest ih =>
    rw [List.map_cons, performAll] at h
    split at h
    · rename_i s₁ hact
      have hs₁ := hstages.keeps b List.mem_cons_self s s₁ hs hact
      intro a ha
      rcases List.mem_cons.mp ha with rfl | ha
      · exact done_of_kept hstages hs₁ (a.ends s s₁ hact) h
      · exact ih hstages.tail hs₁ h a ha
    · cases h

/-- Stages that are done are passed over. -/
theorem performAll_of_done (h : ∀ a ∈ stages, a.done s) :
    performAll (stages.map Stage.act) s = (s, none) := by
  induction stages with
  | nil => rfl
  | cons a rest ih =>
    rw [List.map_cons, performAll, a.skip s (h a List.mem_cons_self)]
    exact ih fun b hb => h b (List.mem_cons_of_mem _ hb)

/-- An interrupted sequence has performed some first stages, and these are done. -/
theorem interrupt_reaches (hstages : Resumable Inv stages) (hs : Inv s) (n : Nat) :
    ∃ before rest, stages = before ++ rest ∧ Inv (interrupt (stages.map Stage.act) n s) ∧
      performAll (before.map Stage.act) s = (interrupt (stages.map Stage.act) n s, none) ∧
      ∀ a ∈ before, a.done (interrupt (stages.map Stage.act) n s) := by
  obtain ⟨before, after, htake, hperformed⟩ := performAll_reaches ((stages.map Stage.act).take n) s
  have hall : stages.map Stage.act = before ++ (after ++ (stages.map Stage.act).drop n) := by
    rw [← List.append_assoc, ← htake, List.take_append_drop]
  have hbefore : before = (stages.take before.length).map Stage.act := by
    rw [List.map_take, hall, List.take_left]
  rw [hbefore] at hperformed
  have htaken := hstages.take before.length
  exact ⟨_, _, (List.take_append_drop before.length stages).symm,
    inv_of_performed htaken hs hperformed, hperformed, done_of_performed htaken hs hperformed⟩

/-- After an interruption at any point the whole sequence comes to the end that it would have come
to without it. -/
theorem performAll_interrupt (hstages : Resumable Inv stages) (hs : Inv s) (n : Nat) :
    performAll (stages.map Stage.act) (interrupt (stages.map Stage.act) n s)
      = performAll (stages.map Stage.act) s := by
  obtain ⟨before, rest, hsplit, -, hperformed, hdone⟩ := interrupt_reaches hstages hs n
  generalize interrupt (stages.map Stage.act) n s = left at hperformed hdone ⊢
  calc performAll (stages.map Stage.act) left
      = performAll (rest.map Stage.act) left := by
        rw [hsplit, List.map_append, performAll_append_of_done (performAll_of_done hdone)]
    _ = performAll (stages.map Stage.act) s := by
        rw [hsplit, List.map_append, performAll_append_of_done hperformed]

/-- So it does after any number of interruptions. -/
theorem performAll_interrupts (hstages : Resumable Inv stages) (hs : Inv s)
    (points : List Nat) :
    performAll (stages.map Stage.act)
      (points.foldl (fun s n => interrupt (stages.map Stage.act) n s) s)
      = performAll (stages.map Stage.act) s := by
  induction points generalizing s with
  | nil => rfl
  | cons n points ih =>
    obtain ⟨-, -, -, hleft, -⟩ := interrupt_reaches hstages hs n
    rw [List.foldl_cons, ih hleft, performAll_interrupt hstages hs n]

/-- Performed from where it ended, the sequence changes nothing. -/
theorem performAll_again (hstages : Resumable Inv stages) (hs : Inv s) :
    performAll (stages.map Stage.act) (performAll (stages.map Stage.act) s).1
      = performAll (stages.map Stage.act) s := by
  have h := performAll_interrupt hstages hs (stages.map Stage.act).length
  rwa [interrupt, List.take_length] at h

end Resume

end Relational
