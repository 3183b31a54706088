import Mathlib.Computability.RegularExpressions

/-!
# Classes of a regular expression

A class stands for one unit, and an anchored pattern without captures matches what is in its
language.
-/

namespace Text

variable {α : Type}

/-- `[...]`. -/
def charClass : List α → RegularExpression α
  | [] => 0
  | c :: units => .char c + charClass units

/-- `first-last` in a class of code units. -/
def unitRange (first last : UInt16) : List UInt16 :=
  (List.range (last.toNat + 1 - first.toNat)).map fun i => (first.toNat + i).toUInt16

/-- `(?:...)?`. -/
def optionally (pattern : RegularExpression α) : RegularExpression α := 1 + pattern

theorem mem_charClass {units text : List α} :
    text ∈ (charClass units).matches' ↔ ∃ c ∈ units, text = [c] := by
  induction units with
  | nil =>
    constructor
    · intro h
      exact absurd h (Set.notMem_empty text)
    · rintro ⟨c, hc, -⟩
      exact absurd hc List.not_mem_nil
  | cons d units ih =>
    rw [charClass, RegularExpression.matches'_add, Language.mem_add, ih]
    constructor
    · rintro (h | ⟨c, hc, h⟩)
      · exact ⟨d, List.mem_cons_self, h⟩
      · exact ⟨c, List.mem_cons_of_mem _ hc, h⟩
    · rintro ⟨c, hc, h⟩
      rcases List.mem_cons.mp hc with rfl | hc
      · exact Or.inl h
      · exact Or.inr ⟨c, hc, h⟩

/-- `[...]*`. -/
theorem mem_star_charClass {units text : List α} :
    text ∈ (charClass units).star.matches' ↔ ∀ c ∈ text, c ∈ units := by
  rw [RegularExpression.matches'_star, Language.mem_kstar]
  constructor
  · rintro ⟨words, rfl, hwords⟩ c hc
    obtain ⟨word, hword, hc⟩ := List.mem_flatten.mp hc
    obtain ⟨d, hd, rfl⟩ := mem_charClass.mp (hwords word hword)
    rw [List.mem_singleton.mp hc]
    exact hd
  · intro h
    refine ⟨text.map fun c => [c], ?_, ?_⟩
    · rw [← List.flatMap_def, List.flatMap_singleton']
    · intro word hword
      obtain ⟨c, hc, rfl⟩ := List.mem_map.mp hword
      exact mem_charClass.mpr ⟨c, h c hc, rfl⟩

theorem mem_optionally {pattern : RegularExpression α} {text : List α} :
    text ∈ (optionally pattern).matches' ↔ text = [] ∨ text ∈ pattern.matches' := by
  rw [optionally, RegularExpression.matches'_add, Language.mem_add,
    RegularExpression.matches'_epsilon, Language.mem_one]

end Text
