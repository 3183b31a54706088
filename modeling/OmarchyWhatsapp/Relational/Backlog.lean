import Mathlib.Data.List.Nodup
import Mathlib.Data.List.DropRight
import Mathlib.Data.List.TakeWhile
import Mathlib.Logic.Function.Iterate

/-!
# Passes over a backlog

A pass over a bounded window looks at the first `n` elements of a list and removes those that are
not stuck. What is stuck stays where it is: an element is reached by some pass exactly if fewer
than `n` stuck ones come before it.

A pass that ends at its first failure removes the elements before the first that fails, and what
is behind that one stays in every pass.
-/

namespace Relational

variable {α : Type*} {n : ℕ} {stuck : α → Bool}

/-- What a pass leaves. -/
def afterPass (n : ℕ) (stuck : α → Bool) (l : List α) : List α :=
  (l.take n).filter stuck ++ l.drop n

/-- What a pass leaves, as a choice of elements. -/
theorem afterPass_eq_filter [DecidableEq α] {l : List α} (h : l.Nodup) :
    afterPass n stuck l = l.filter (fun x => stuck x || !decide (x ∈ l.take n)) := by
  have hdisjoint := List.disjoint_take_drop h (Nat.le_refl n)
  have hdrop : (l.drop n).filter (fun x => stuck x || !decide (x ∈ l.take n)) = l.drop n := by
    refine List.filter_eq_self.mpr fun x hx => ?_
    rw [decide_eq_false (fun hmem => hdisjoint hmem hx), Bool.not_false, Bool.or_true]
  have htake : (l.take n).filter (fun x => stuck x || !decide (x ∈ l.take n))
      = (l.take n).filter stuck := by
    refine List.filter_congr fun x hx => ?_
    rw [decide_eq_true hx, Bool.not_true, Bool.or_false]
  conv_rhs => rw [← List.take_append_drop n l]
  rw [List.filter_append, List.take_append_drop, htake, hdrop, afterPass]

theorem mem_of_mem_afterPass {l : List α} {x : α} (h : x ∈ afterPass n stuck l) : x ∈ l := by
  rcases List.mem_append.mp h with h | h
  · exact List.mem_of_mem_take (List.mem_of_mem_filter h)
  · exact List.mem_of_mem_drop h

/-- A list, cut at the first occurrence of an element. -/
theorem exists_eq_takeWhile_append [DecidableEq α] {x : α} {l : List α} (h : x ∈ l) :
    ∃ after, l = l.takeWhile (· ≠ x) ++ x :: after := by
  induction l with
  | nil => cases h
  | cons y l ih =>
    by_cases hyx : y = x
    · subst hyx
      exact ⟨l, by simp⟩
    · obtain ⟨after, hafter⟩ := ih ((List.mem_cons.mp h).resolve_left (Ne.symm hyx))
      refine ⟨after, ?_⟩
      rw [List.takeWhile_cons_of_pos (by simpa using hyx), List.cons_append, ← hafter]

/-- The elements before one that the window does not reach. -/
theorem afterPass_append {before : List α} (hn : n ≤ before.length) (rest : List α) :
    afterPass n stuck (before ++ rest) = afterPass n stuck before ++ rest := by
  rw [afterPass, afterPass, List.take_append_of_le_length hn, List.drop_append_of_le_length hn,
    List.append_assoc]

/-- A pass removes nothing that is stuck. -/
theorem countP_afterPass (l : List α) : (afterPass n stuck l).countP stuck = l.countP stuck := by
  rw [afterPass, List.countP_append, List.countP_filter]
  conv_rhs => rw [← List.take_append_drop n l, List.countP_append]
  simp only [Bool.and_self]

/-- A pass removes something where the window is not full of stuck elements. -/
theorem length_afterPass_lt {l : List α} (hn : n ≤ l.length) (hstuck : l.countP stuck < n) :
    (afterPass n stuck l).length < l.length := by
  have htake : (l.take n).countP stuck ≤ l.countP stuck :=
    (List.take_sublist n l).countP_le
  rw [afterPass, List.length_append, ← List.countP_eq_length_filter, List.length_drop]
  omega

/-- Fewer than `n` stuck elements come before: some pass reaches the element. -/
theorem exists_mem_take (x : α) (before after : List α) (hstuck : before.countP stuck < n) :
    ∃ k, x ∈ ((afterPass n stuck)^[k] (before ++ x :: after)).take n := by
  induction hlength : before.length using Nat.strongRecOn generalizing before with
  | ind length ih =>
    by_cases hn : n ≤ before.length
    · obtain ⟨k, hk⟩ := ih _ (hlength ▸ length_afterPass_lt hn hstuck) (afterPass n stuck before)
        (by rwa [countP_afterPass]) rfl
      refine ⟨k + 1, ?_⟩
      rwa [Function.iterate_succ_apply, afterPass_append hn]
    · refine ⟨0, ?_⟩
      obtain ⟨m, rfl⟩ : ∃ m, n = before.length + (m + 1) := ⟨n - before.length - 1, by omega⟩
      rw [Function.iterate_zero_apply, List.take_length_add_append, List.take_succ_cons]
      exact List.mem_append_right _ List.mem_cons_self

/-- `n` stuck elements before an element keep every pass from it. -/
theorem not_mem_take {x : α} {before : List α} (after : List α) (hx : x ∉ before)
    (hstuck : n ≤ before.countP stuck) (k : ℕ) :
    x ∉ ((afterPass n stuck)^[k] (before ++ x :: after)).take n := by
  induction k generalizing before with
  | zero =>
    rw [Function.iterate_zero_apply,
      List.take_append_of_le_length (Nat.le_trans hstuck List.countP_le_length)]
    exact fun h => hx (List.mem_of_mem_take h)
  | succ k ih =>
    rw [Function.iterate_succ_apply, afterPass_append (Nat.le_trans hstuck List.countP_le_length)]
    exact ih (fun h => hx (mem_of_mem_afterPass h)) (by rwa [countP_afterPass])

/-! ## Passes that end at the first failure -/

section FirstFailure

variable {p : α → Bool}

theorem takeWhile_congr {q : α → Bool} {l : List α} (h : ∀ x ∈ l, p x = q x) :
    l.takeWhile p = l.takeWhile q := by
  induction l with
  | nil => rfl
  | cons a l ih =>
    obtain ⟨ha, hl⟩ := List.forall_mem_cons.mp h
    rw [List.takeWhile_cons, List.takeWhile_cons, ha, ih hl]

/-- Nothing that succeeds is left exactly if nothing that fails comes before it. -/
theorem forall_mem_dropWhile_iff {l : List α} :
    (∀ x ∈ l.dropWhile p, p x = false) ↔ l.Pairwise (fun a b => p b = true → p a = true) := by
  induction l with
  | nil => simp
  | cons a l ih =>
    rw [List.pairwise_cons]
    cases ha : p a with
    | true =>
      rw [List.dropWhile_cons_of_pos ha, ih]
      exact ⟨fun h => ⟨fun _ _ _ => rfl, h⟩, And.right⟩
    | false =>
      rw [List.dropWhile_cons_of_neg (by simp [ha])]
      constructor
      · intro h
        have htail : ∀ x ∈ l, p x = false := fun x hx => h x (List.mem_cons_of_mem _ hx)
        refine ⟨fun x hx hpx => absurd hpx (by simp [htail x hx]), ?_⟩
        exact List.pairwise_of_forall_mem_list fun x _ y hy hpy => absurd hpy (by simp [htail y hy])
      · rintro ⟨hhead, -⟩ x hx
        rcases List.mem_cons.mp hx with rfl | hx
        · exact ha
        · exact Bool.eq_false_iff.mpr fun hpx => Bool.false_ne_true (hhead x hx hpx)

/-- The passes after the first one change nothing. -/
theorem iterate_dropWhile (l : List α) (n : ℕ) :
    (List.dropWhile p)^[n + 1] l = l.dropWhile p := by
  induction n with
  | zero => rfl
  | succ n ih => rw [Function.iterate_succ_apply', ih, List.dropWhile_idempotent p l]

end FirstFailure

end Relational
