import Mathlib.Data.List.DropRight
import Mathlib.Data.List.TakeWhile
import OmarchyWhatsapp.Protocol

/-!
# Trimmed strings

What `str::trim` leaves of a string.
-/

namespace OmarchyWhatsapp

theorem mem_dropWhile_isWhitespace {c : Char} {l : List Char} (hc : c ∈ l)
    (hspace : isWhitespace c = false) : c ∈ l.dropWhile isWhitespace := by
  rw [← List.takeWhile_append_dropWhile (p := isWhitespace) (l := l), List.mem_append] at hc
  refine hc.resolve_left fun h => ?_
  exact Bool.false_ne_true (hspace.symm.trans (List.mem_takeWhile_imp h))

/-- Trimming keeps what is no white space. -/
theorem mem_trim {c : Char} {value : String} (hc : c ∈ value.toList)
    (hspace : isWhitespace c = false) : c ∈ (trim value).toList := by
  rw [trim, String.toList_ofList, List.mem_reverse]
  refine mem_dropWhile_isWhitespace (List.mem_reverse.mpr ?_) hspace
  exact mem_dropWhile_isWhitespace hc hspace

theorem toList_trim (value : String) :
    (trim value).toList = (value.toList.dropWhile isWhitespace).rdropWhile isWhitespace := by
  rw [trim, String.toList_ofList]
  rfl

/-- What is left begins with no white space. -/
theorem dropWhile_toList_trim (value : String) :
    (trim value).toList.dropWhile isWhitespace = (trim value).toList := by
  rw [toList_trim, List.dropWhile_eq_self_iff]
  intro hlength hspace
  have hinitial := List.rdropWhile_prefix isWhitespace (value.toList.dropWhile isWhitespace)
  rw [hinitial.getElem hlength] at hspace
  have hfirst := List.dropWhile_get_zero_not (p := isWhitespace) value.toList
    (Nat.lt_of_lt_of_le hlength hinitial.length_le)
  exact hfirst hspace

theorem trim_trim (value : String) : trim (trim value) = trim value := by
  rw [← String.toList_inj, toList_trim (trim value), dropWhile_toList_trim, toList_trim,
    List.rdropWhile_idempotent]

theorem nonempty_eq_some {value trimmed : String} :
    nonempty value = some trimmed ↔ trim value = trimmed ∧ trimmed ≠ "" := by
  unfold nonempty
  split
  · rename_i h
    rw [h]
    constructor
    · rintro ⟨⟩
    · rintro ⟨rfl, hne⟩
      exact absurd rfl hne
  · rename_i h
    constructor
    · rintro ⟨⟩
      exact ⟨rfl, h⟩
    · rintro ⟨rfl, -⟩
      rfl

end OmarchyWhatsapp
