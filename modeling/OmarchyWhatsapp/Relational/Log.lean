import Mathlib.Data.List.Basic

/-!
# The log of a run

Events are logged newest first. `Answered` says that what was asked has been answered since, and
`countSince` counts the events since the last opening; both are kept up one event at a time.
-/

namespace Relational

variable {ε : Type*}

/-- Nothing was asked, or there was an answer after it was last asked. -/
def Answered (asks answers : ε → Bool) : List ε → Prop
  | [] => True
  | e :: log => answers e = true ∨ (asks e = false ∧ Answered asks answers log)

namespace Answered

variable {asks answers : ε → Bool} {e : ε} {log : List ε}

/-- Another event changes nothing. -/
theorem keep (h : Answered asks answers log) (hasks : asks e = false) :
    Answered asks answers (e :: log) := Or.inr ⟨hasks, h⟩

theorem answer (hanswers : answers e = true) : Answered asks answers (e :: log) := Or.inl hanswers

/-- An event of another matter. -/
theorem cons_iff (hasks : asks e = false) (hanswers : answers e = false) :
    Answered asks answers (e :: log) ↔ Answered asks answers log := by
  rw [Answered, hasks, hanswers]
  simp

/-- The answer, with what came after it. -/
theorem iff_exists : Answered asks answers log ↔ (∀ e ∈ log, asks e = false) ∨
    ∃ later e earlier, log = later ++ e :: earlier ∧ answers e = true ∧
      ∀ e' ∈ later, asks e' = false := by
  constructor
  · intro h
    induction log with
    | nil => exact Or.inl fun e he => absurd he List.not_mem_nil
    | cons e log ih =>
      rcases h with hanswers | ⟨hasks, h⟩
      · exact Or.inr ⟨[], e, log, rfl, hanswers, fun _ he => absurd he List.not_mem_nil⟩
      · rcases ih h with hnone | ⟨later, e', earlier, rfl, hanswers, hlater⟩
        · exact Or.inl (List.forall_mem_cons.mpr ⟨hasks, hnone⟩)
        · exact Or.inr ⟨e :: later, e', earlier, rfl, hanswers,
            List.forall_mem_cons.mpr ⟨hasks, hlater⟩⟩
  · rintro (hnone | ⟨later, e, earlier, rfl, hanswers, hlater⟩)
    · induction log with
      | nil => trivial
      | cons e log ih =>
        obtain ⟨hasks, hnone⟩ := List.forall_mem_cons.mp hnone
        exact Or.inr ⟨hasks, ih hnone⟩
    · induction later with
      | nil => exact Or.inl hanswers
      | cons e' later ih =>
        obtain ⟨hasks, hlater⟩ := List.forall_mem_cons.mp hlater
        exact Or.inr ⟨hasks, ih hlater⟩

end Answered

/-- The number of events since the last opening. -/
def countSince (opens counts : ε → Bool) (log : List ε) : ℕ :=
  (log.takeWhile (fun e => !opens e)).countP counts

variable {opens counts : ε → Bool} {e : ε} {log : List ε}

theorem countSince_open (hopens : opens e = true) : countSince opens counts (e :: log) = 0 := by
  rw [countSince, List.takeWhile_cons_of_neg (by simp [hopens]), List.countP_nil]

theorem countSince_cons (hopens : opens e = false) :
    countSince opens counts (e :: log) = countSince opens counts log + (counts e).toNat := by
  rw [countSince, List.takeWhile_cons_of_pos (by simp [hopens]), List.countP_cons]
  cases counts e <;> rfl

theorem countSince_cons_le (hopens : opens e = false) :
    countSince opens counts (e :: log) ≤ countSince opens counts log + 1 := by
  rw [countSince_cons hopens]
  exact Nat.add_le_add_left (Bool.toNat_le _) _

/-- An event that is not counted. -/
theorem countSince_skip (hopens : opens e = false) (hcounts : counts e = false) :
    countSince opens counts (e :: log) = countSince opens counts log := by
  rw [countSince_cons hopens, hcounts]
  rfl

end Relational
