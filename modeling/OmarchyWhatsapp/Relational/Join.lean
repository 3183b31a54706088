import Mathlib.Data.List.Perm.Basic
import Mathlib.Order.MinMax
import Mathlib.Tactic.Common

/-!
# Events that join

A kind of event *joins* when two of them can be swapped and one can be repeated without
changing the state. A run then depends on nothing but which events occur in it, an event
of the run changes nothing when it comes again, and a run that changes something ends in
another state than it began with.

Two registers that join are the maximum of a column and the least positive time.
-/

namespace Relational

variable {σ ε : Type*}

/-- Events commute and repeat without effect. -/
structure Joins (step : σ → ε → σ) : Prop where
  comm : ∀ s a b, step (step s a) b = step (step s b) a
  idem : ∀ s a, step (step s a) a = step s a

namespace Joins

variable {step : σ → ε → σ} {s : σ} {a : ε} {as bs : List ε}

theorem foldl_perm (h : Joins step) (hperm : as.Perm bs) : as.foldl step s = bs.foldl step s :=
  hperm.foldl_eq' (fun a _ b _ s => h.comm s a b) s

theorem foldl_step (h : Joins step) : as.foldl step (step s a) = step (as.foldl step s) a := by
  induction as generalizing s with
  | nil => rfl
  | cons b as ih => rw [List.foldl_cons, h.comm, ih, List.foldl_cons]

/-- An event of the run changes nothing when it comes again. -/
theorem step_foldl_of_mem (h : Joins step) (ha : a ∈ as) :
    step (as.foldl step s) a = as.foldl step s := by
  induction as generalizing s with
  | nil => cases ha
  | cons b as ih =>
    rw [List.foldl_cons]
    rcases List.mem_cons.mp ha with rfl | ha
    · rw [h.foldl_step, h.idem]
    · exact ih ha

/-- Nor does a whole run of them. -/
theorem foldl_foldl_of_subset (h : Joins step) (hbs : bs ⊆ as) :
    bs.foldl step (as.foldl step s) = as.foldl step s := by
  induction bs with
  | nil => rfl
  | cons b bs ih =>
    rw [List.cons_subset] at hbs
    rw [List.foldl_cons, h.step_foldl_of_mem hbs.1, ih hbs.2]

/-- A run that ends where it began took no step that changes something: no later event
undoes an earlier one. -/
theorem foldl_eq_self_iff (h : Joins step) : as.foldl step s = s ↔ ∀ a ∈ as, step s a = s := by
  constructor
  · intro heq a ha
    have hrepeat := h.step_foldl_of_mem (s := s) ha
    rwa [heq] at hrepeat
  · intro hall
    induction as with
    | nil => rfl
    | cons a as ih =>
      rw [List.foldl_cons, hall a List.mem_cons_self]
      exact ih fun b hb => hall b (List.mem_cons_of_mem _ hb)

end Joins

/-! ## The least positive time -/

section LeastPositive

variable {τ : Type*} [LinearOrder τ] [Zero τ] {t : τ} {ts ts' : List τ}

/-- The least positive one of the times, if there is one. -/
def leastPositive (ts : List τ) : Option τ := (ts.filter (fun t => 0 < t)).min?

theorem leastPositive_eq_some :
    leastPositive ts = some t ↔ (t ∈ ts ∧ 0 < t) ∧ ∀ t' ∈ ts, 0 < t' → t ≤ t' := by
  rw [leastPositive, List.min?_eq_some_iff]
  simp

theorem leastPositive_eq_none : leastPositive ts = none ↔ ∀ t ∈ ts, ¬0 < t := by
  simp [leastPositive]

/-- One more time counts if it is positive and earlier than those before. -/
theorem leastPositive_concat : leastPositive (ts ++ [t]) =
    if 0 < t ∧ ∀ u ∈ leastPositive ts, t < u then some t else leastPositive ts := by
  split
  · rename_i h
    refine leastPositive_eq_some.mpr ⟨⟨by simp, h.1⟩, fun t' ht' hpos => ?_⟩
    rcases List.mem_append.mp ht' with ht' | ht'
    · rcases hleast : leastPositive ts with _ | u
      · exact absurd hpos (leastPositive_eq_none.mp hleast t' ht')
      · exact (h.2 u hleast).le.trans ((leastPositive_eq_some.mp hleast).2 t' ht' hpos)
    · exact (List.mem_singleton.mp ht').ge
  · rename_i h
    ext u
    simp only [leastPositive_eq_some, List.mem_append, List.mem_singleton]
    constructor
    · rintro ⟨⟨hu, hpos⟩, hle⟩
      have hmin : ∀ t' ∈ ts, 0 < t' → u ≤ t' := fun t' ht' => hle t' (Or.inl ht')
      rcases hu with hu | rfl
      · exact ⟨⟨hu, hpos⟩, hmin⟩
      · by_cases hmem : u ∈ ts
        · exact ⟨⟨hmem, hpos⟩, hmin⟩
        · refine absurd ⟨hpos, fun v hv => ?_⟩ h
          have hv := leastPositive_eq_some.mp hv
          exact lt_of_le_of_ne (hmin v hv.1.1 hv.1.2) fun heq => hmem (heq ▸ hv.1.1)
    · rintro ⟨⟨hu, hpos⟩, hle⟩
      refine ⟨⟨Or.inl hu, hpos⟩, fun t' ht' hpos' => ?_⟩
      rcases ht' with ht' | rfl
      · exact hle t' ht' hpos'
      · by_contra hlt
        refine h ⟨hpos', fun v hv => ?_⟩
        rw [leastPositive_eq_some.mpr ⟨⟨hu, hpos⟩, hle⟩, Option.mem_some] at hv
        exact hv ▸ not_le.mp hlt

/-- One of the times, or 0, is the least positive one when it is a lower bound of the positive
times, and positive if there are any. -/
theorem eq_leastPositive_getD_iff (ht : t ∈ ts ∨ t = 0) :
    t = (leastPositive ts).getD 0 ↔ 0 ≤ t ∧ ∀ u ∈ ts, 0 < u → 0 < t ∧ t ≤ u := by
  rcases hleast : leastPositive ts with _ | v
  · have hnone := leastPositive_eq_none.mp hleast
    rw [Option.getD_none]
    constructor
    · rintro rfl
      exact ⟨le_rfl, fun u hu hpos => absurd hpos (hnone u hu)⟩
    · rintro ⟨hnonneg, -⟩
      rcases ht with ht | ht
      · exact le_antisymm (not_lt.mp (hnone t ht)) hnonneg
      · exact ht
  · obtain ⟨⟨hv, hpos⟩, hle⟩ := leastPositive_eq_some.mp hleast
    rw [Option.getD_some]
    constructor
    · rintro rfl
      exact ⟨hpos.le, fun u hu hu' => ⟨hpos, hle u hu hu'⟩⟩
    · rintro ⟨-, hbound⟩
      obtain ⟨htpos, htv⟩ := hbound v hv hpos
      have hmem : t ∈ ts := ht.resolve_right htpos.ne'
      exact le_antisymm htv (hle t hmem htpos)

end LeastPositive

end Relational
