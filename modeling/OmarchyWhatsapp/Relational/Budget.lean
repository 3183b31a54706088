import Mathlib.Algebra.Ring.Nat
import Mathlib.Data.List.Infix

/-!
# Freeing until a total fits a budget

A loop frees elements from the front while the total is over its budget. What it frees is the
shortest prefix that brings the total within the budget, or everything where none does.
-/

namespace Relational

variable {α : Type*} (size : α → ℕ) (budget : ℕ)

/-- What a prefix frees. -/
def freed (l : List α) : ℕ := (l.map size).sum

/-- The elements that are freed of a list while the total is over the budget. -/
def freeUntilWithin : ℕ → List α → List α
  | _, [] => []
  | total, a :: l =>
    if total ≤ budget then [] else a :: freeUntilWithin (total - size a) l

/-- Nothing is freed of a total within the budget. -/
theorem freeUntilWithin_of_le {total : ℕ} (h : total ≤ budget) (l : List α) :
    freeUntilWithin size budget total l = [] := by
  cases l with
  | nil => rfl
  | cons a l => rw [freeUntilWithin, if_pos h]

theorem freed_cons (a : α) (l : List α) : freed size (a :: l) = size a + freed size l := by
  rw [freed, List.map_cons, List.sum_cons, freed]

theorem freed_le_of_prefix {l l' : List α} (h : l <+: l') : freed size l ≤ freed size l' := by
  obtain ⟨rest, rfl⟩ := h
  rw [freed, freed, List.map_append, List.sum_append]
  omega

theorem freeUntilWithin_isPrefix (total : ℕ) (l : List α) :
    freeUntilWithin size budget total l <+: l := by
  induction l generalizing total with
  | nil => exact List.prefix_refl []
  | cons a l ih =>
    rw [freeUntilWithin]
    split
    · exact List.nil_prefix
    · exact (List.prefix_cons_inj a).mpr (ih _)

/-- The total is within the budget, or nothing is left to free. -/
theorem within_or_all_freed (total : ℕ) (l : List α) :
    total ≤ budget + freed size (freeUntilWithin size budget total l) ∨
      freeUntilWithin size budget total l = l := by
  induction l generalizing total with
  | nil => exact Or.inr rfl
  | cons a l ih =>
    rw [freeUntilWithin]
    split
    · exact Or.inl (by omega)
    · rw [freed_cons]
      rcases ih (total - size a) with h | h
      · exact Or.inl (by omega)
      · exact Or.inr (by rw [h])

/-- No shorter prefix would have done. -/
theorem freeUntilWithin_shortest {total : ℕ} {l p : List α} (hp : p <+: l)
    (hwithin : total ≤ budget + freed size p) :
    (freeUntilWithin size budget total l).length ≤ p.length := by
  induction l generalizing total p with
  | nil => exact Nat.zero_le _
  | cons a l ih =>
    rw [freeUntilWithin]
    split
    · exact Nat.zero_le _
    · cases p with
      | nil =>
        -- nothing is freed by the empty prefix
        have hnil : freed size ([] : List α) = 0 := rfl
        omega
      | cons b p =>
        obtain ⟨rfl, htail⟩ := List.cons_prefix_cons.mp hp
        rw [freed_cons] at hwithin
        rw [List.length_cons, List.length_cons]
        exact Nat.succ_le_succ (ih htail (by omega))

/-- A smaller total frees no more. -/
theorem freeUntilWithin_mono {total total' : ℕ} (h : total ≤ total') (l : List α) :
    (freeUntilWithin size budget total l).length ≤
      (freeUntilWithin size budget total' l).length := by
  rcases within_or_all_freed size budget total' l with hwithin | hall
  · exact freeUntilWithin_shortest size budget (freeUntilWithin_isPrefix size budget total' l)
      (by omega)
  · rw [hall]
    exact (freeUntilWithin_isPrefix size budget total l).length_le

end Relational
