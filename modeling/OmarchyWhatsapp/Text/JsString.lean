import Mathlib.Data.List.Basic
import Mathlib.Data.Nat.Notation
import Mathlib.Tactic.SplitIfs

/-!
# Strings of JavaScript

A string is the list of its UTF-16 code units, and a surrogate may stand alone. The functions
follow the methods of the language.
-/

namespace Text

abbrev JsString := List UInt16

/-- The code units of a character. -/
def encodeUtf16 (c : Char) : JsString :=
  if c.toNat < 0x10000 then [c.toNat.toUInt16]
  else [(0xD800 + (c.toNat - 0x10000) / 0x400).toUInt16,
    (0xDC00 + (c.toNat - 0x10000) % 0x400).toUInt16]

def js (s : String) : JsString := s.toList.flatMap encodeUtf16

namespace JsString

def lineFeed : UInt16 := 0x0A

def carriageReturn : UInt16 := 0x0D

def quotationMark : UInt16 := 0x22

def ampersand : UInt16 := 0x26

def apostrophe : UInt16 := 0x27

def semicolon : UInt16 := 0x3B

def lessThan : UInt16 := 0x3C

def greaterThan : UInt16 := 0x3E

def atSign : UInt16 := 0x40

/-! ## Classes of code units -/

/-- `\s` of a regular expression; `trim` removes the same units. -/
def isSpace (c : UInt16) : Bool :=
  (0x09 ≤ c && c ≤ 0x0D) || c = 0x20 || c = 0xA0 || c = 0x1680 || (0x2000 ≤ c && c ≤ 0x200A) ||
    c = 0x2028 || c = 0x2029 || c = 0x202F || c = 0x205F || c = 0x3000 || c = 0xFEFF

/-- `[0-9]`. -/
def isDigit (c : UInt16) : Bool := 0x30 ≤ c && c ≤ 0x39

/-- `[A-Z]`. -/
def isUpper (c : UInt16) : Bool := 0x41 ≤ c && c ≤ 0x5A

/-- `[a-z]`. -/
def isLower (c : UInt16) : Bool := 0x61 ≤ c && c ≤ 0x7A

/-- `[A-Za-z0-9_]`. -/
def isWord (c : UInt16) : Bool := isUpper c || isLower c || isDigit c || c = 0x5F

/-- Letters of ASCII are compared without their case by the flag `i`; a unit outside of ASCII
never matches one of them. -/
def lowerCase (c : UInt16) : UInt16 := if isUpper c then c + 0x20 else c

def isHighSurrogate (c : UInt16) : Bool := 0xD800 ≤ c && c ≤ 0xDBFF

def isLowSurrogate (c : UInt16) : Bool := 0xDC00 ≤ c && c ≤ 0xDFFF

theorem not_surrogate_of_le {c bound : UInt16} (hc : c ≤ bound) (hbound : bound.toNat < 0xD800) :
    isHighSurrogate c = false ∧ isLowSurrogate c = false := by
  have hle := UInt16.le_iff_toNat_le.mp hc
  have hhigh : ¬(0xD800 : UInt16) ≤ c := fun h => by
    have : 0xD800 ≤ c.toNat := UInt16.le_iff_toNat_le.mp h
    omega
  have hlow : ¬(0xDC00 : UInt16) ≤ c := fun h => by
    have : 0xDC00 ≤ c.toNat := UInt16.le_iff_toNat_le.mp h
    omega
  simp [isHighSurrogate, isLowSurrogate, hhigh, hlow]

/-- Only one unit of white space is above the surrogates. -/
theorem not_surrogate_of_isSpace {c : UInt16} (hspace : isSpace c = true) :
    isHighSurrogate c = false ∧ isLowSurrogate c = false := by
  simp only [isSpace, Bool.or_eq_true, Bool.and_eq_true, decide_eq_true_eq, or_assoc] at hspace
  rcases hspace with ⟨-, hc⟩ | rfl | rfl | rfl | ⟨-, hc⟩ | rfl | rfl | rfl | rfl | rfl | rfl
  · exact not_surrogate_of_le hc (by decide)
  case inr.inr.inr.inr.inl => exact not_surrogate_of_le hc (by decide)
  all_goals decide

/-- No character is a surrogate. -/
theorem toNat_char (c : Char) :
    c.toNat < 0xD800 ∨ 0xDFFF < c.toNat ∧ c.toNat < 0x110000 := c.valid

theorem toNat_unit {n : ℕ} (h : n < 0x10000) : n.toUInt16.toNat = n := Nat.mod_eq_of_lt h

theorem isHighSurrogate_iff (c : UInt16) :
    isHighSurrogate c = true ↔ 0xD800 ≤ c.toNat ∧ c.toNat ≤ 0xDBFF := by
  rw [isHighSurrogate, Bool.and_eq_true, decide_eq_true_eq, decide_eq_true_eq,
    UInt16.le_iff_toNat_le, UInt16.le_iff_toNat_le]
  rfl

theorem isLowSurrogate_iff (c : UInt16) :
    isLowSurrogate c = true ↔ 0xDC00 ≤ c.toNat ∧ c.toNat ≤ 0xDFFF := by
  rw [isLowSurrogate, Bool.and_eq_true, decide_eq_true_eq, decide_eq_true_eq,
    UInt16.le_iff_toNat_le, UInt16.le_iff_toNat_le]
  rfl

/-! ## Methods -/

def trim (s : JsString) : JsString :=
  ((s.dropWhile isSpace).reverse.dropWhile isSpace).reverse

def indexOf (needle : JsString) : JsString → Option ℕ
  | [] => if needle = [] then some 0 else none
  | c :: rest =>
    if needle.isPrefixOf (c :: rest) then some 0 else (indexOf needle rest).map (· + 1)

/-- `indexOf(needle) > 0`. -/
def occursInside (needle s : JsString) : Bool := (indexOf needle s).any (0 < ·)

/-- `replace(/[^0-9]/g, "")`. -/
def digits (s : JsString) : JsString := s.filter isDigit

/-- `split(c)[0]`. -/
def firstPart (c : UInt16) (s : JsString) : JsString := s.takeWhile (· ≠ c)

/-- `substr(Math.max(0, length - n))`. -/
def lastUnits (n : ℕ) (s : JsString) : JsString := s.drop (s.length - n)

/-! ## Line breaks -/

/-- `replace(/\r\n|\r|\n/g, by)`; after a CR a LF belongs to the same line break. -/
def replaceBreaks (newline : JsString) (afterCr : Bool) : JsString → JsString
  | [] => []
  | c :: rest =>
    if afterCr && c = lineFeed then replaceBreaks newline false rest
    else if c = carriageReturn then newline ++ replaceBreaks newline true rest
    else if c = lineFeed then newline ++ replaceBreaks newline false rest
    else c :: replaceBreaks newline false rest

/-- CR LF and CR read as newlines. -/
def normalizeBreaks (s : JsString) : JsString := replaceBreaks [lineFeed] false s

def NoBreak (s : JsString) : Prop := lineFeed ∉ s ∧ carriageReturn ∉ s

instance (s : JsString) : Decidable (NoBreak s) := inferInstanceAs (Decidable (_ ∧ _))

/-! ## Well-formed strings and `encodeURIComponent` -/

/-- Every surrogate belongs to a pair; `high` tells whether the unit before was the first of one. -/
def wellFormedFrom (high : Bool) : JsString → Bool
  | [] => !high
  | c :: rest =>
    if high then isLowSurrogate c && wellFormedFrom false rest
    else if isHighSurrogate c then wellFormedFrom true rest
    else !isLowSurrogate c && wellFormedFrom false rest

def WellFormed (s : JsString) : Prop := wellFormedFrom false s = true

instance (s : JsString) : Decidable (WellFormed s) := inferInstanceAs (Decidable (_ = _))

/-- The units that `encodeURIComponent` keeps. -/
def isUnreserved (c : UInt16) : Bool :=
  isUpper c || isLower c || isDigit c || (js "-_.!~*()").elem c || c = apostrophe

def hexDigit (n : ℕ) : UInt16 := if n < 10 then (0x30 + n).toUInt16 else (0x37 + n).toUInt16

/-- `%` and two upper-case hexadecimal digits. -/
def percentByte (byte : ℕ) : JsString := [0x25, hexDigit (byte / 16), hexDigit (byte % 16)]

/-- The bytes of UTF-8. -/
def utf8Bytes (code : ℕ) : List ℕ :=
  if code < 0x80 then [code]
  else if code < 0x800 then [0xC0 + code / 0x40, 0x80 + code % 0x40]
  else if code < 0x10000 then
    [0xE0 + code / 0x1000, 0x80 + code / 0x40 % 0x40, 0x80 + code % 0x40]
  else
    [0xF0 + code / 0x40000, 0x80 + code / 0x1000 % 0x40, 0x80 + code / 0x40 % 0x40,
      0x80 + code % 0x40]

def percentEncode (code : ℕ) : JsString := (utf8Bytes code).flatMap percentByte

/-- `encodeURIComponent` behind a first surrogate; a lone surrogate is a `URIError`. -/
def encodeUriFrom (high : Option UInt16) : JsString → Option JsString
  | [] => if high.isNone then some [] else none
  | c :: rest =>
    match high with
    | some first =>
      if isLowSurrogate c then
        (encodeUriFrom none rest).map (percentEncode
          (0x10000 + (first.toNat - 0xD800) * 0x400 + (c.toNat - 0xDC00)) ++ ·)
      else none
    | none =>
      if isHighSurrogate c then encodeUriFrom (some c) rest
      else if isLowSurrogate c then none
      else (encodeUriFrom none rest).map
        ((if isUnreserved c then [c] else percentEncode c.toNat) ++ ·)

def encodeURIComponent (s : JsString) : Option JsString := encodeUriFrom none s

/-! ### What is encoded -/

theorem isSome_encodeUriFrom {s : JsString} : ∀ {high : Option UInt16},
    wellFormedFrom high.isSome s = true → (encodeUriFrom high s).isSome = true := by
  induction s with
  | nil =>
    intro high hformed
    cases high with
    | none => rfl
    | some first => cases hformed
  | cons c rest ih =>
    intro high hformed
    unfold encodeUriFrom
    cases high with
    | some first =>
      have hpair : (isLowSurrogate c && wellFormedFrom false rest) = true := hformed
      rw [Bool.and_eq_true] at hpair
      have hrest : (encodeUriFrom none rest).isSome = true := ih hpair.2
      simp only [hpair.1, if_true, Option.isSome_map, hrest]
    | none =>
      have hunit : (if isHighSurrogate c then wellFormedFrom true rest
        else !isLowSurrogate c && wellFormedFrom false rest) = true := hformed
      dsimp only
      by_cases hhigh : isHighSurrogate c = true
      · rw [if_pos hhigh] at hunit ⊢
        exact ih hunit
      · rw [if_neg hhigh, Bool.and_eq_true, Bool.not_eq_true'] at hunit
        have hrest : (encodeUriFrom none rest).isSome = true := ih hunit.2
        rw [if_neg hhigh, hunit.1, if_neg Bool.false_ne_true, Option.isSome_map, hrest]

/-- A well-formed string is encoded. -/
theorem exists_encodeURIComponent {s : JsString} (hformed : WellFormed s) :
    ∃ encoded, encodeURIComponent s = some encoded :=
  Option.isSome_iff_exists.mp (isSome_encodeUriFrom hformed)

theorem WellFormed.dropWhile_isSpace {s : JsString} (h : WellFormed s) :
    WellFormed (s.dropWhile isSpace) := by
  induction s with
  | nil => exact h
  | cons c rest ih =>
    rw [List.dropWhile_cons]
    by_cases hspace : isSpace c = true
    · obtain ⟨hhigh, hlow⟩ := not_surrogate_of_isSpace hspace
      have hunit : (if isHighSurrogate c then wellFormedFrom true rest
        else !isLowSurrogate c && wellFormedFrom false rest) = true := h
      rw [hhigh, hlow] at hunit
      rw [if_pos hspace]
      exact ih (show wellFormedFrom false rest = true by simpa using hunit)
    · rw [if_neg hspace]
      exact h

/-- White space at the end belongs to no pair. -/
theorem wellFormedFrom_concat {s : JsString} {c : UInt16} (hspace : isSpace c = true) :
    ∀ {high : Bool}, wellFormedFrom high (s ++ [c]) = true → wellFormedFrom high s = true := by
  obtain ⟨hhigh, hlow⟩ := not_surrogate_of_isSpace hspace
  induction s with
  | nil =>
    intro high h
    cases high with
    | false => rfl
    | true => simp [wellFormedFrom, hlow] at h
  | cons d rest ih =>
    intro high h
    rw [List.cons_append] at h
    unfold wellFormedFrom at h ⊢
    cases high with
    | true =>
      simp only [if_true, Bool.and_eq_true] at h ⊢
      exact ⟨h.1, ih h.2⟩
    | false =>
      by_cases hd : isHighSurrogate d = true
      · simp only [hd, if_true, Bool.false_eq_true, if_false] at h ⊢
        exact ih h
      · simp only [hd, Bool.false_eq_true, if_false, Bool.and_eq_true] at h ⊢
        exact ⟨h.1, ih h.2⟩

theorem WellFormed.trim {s : JsString} (h : WellFormed s) : WellFormed s.trim := by
  have hstart := h.dropWhile_isSpace
  unfold JsString.trim
  generalize s.dropWhile isSpace = t at hstart
  rw [← List.reverse_reverse t] at hstart
  generalize t.reverse = r at hstart ⊢
  induction r with
  | nil => exact hstart
  | cons c rest ih =>
    rw [List.dropWhile_cons]
    by_cases hspace : isSpace c = true
    · rw [if_pos hspace]
      rw [List.reverse_cons] at hstart
      exact ih (wellFormedFrom_concat hspace hstart)
    · rw [if_neg hspace]
      exact hstart

/-! ### What `replaceBreaks` leaves alone -/

variable {newline : JsString}

theorem noBreak_append {s t : JsString} : NoBreak (s ++ t) ↔ NoBreak s ∧ NoBreak t := by
  simp only [NoBreak, List.mem_append, not_or]
  exact and_and_and_comm

/-- Text without line breaks stays, and no line break goes on behind it. -/
theorem replaceBreaks_noBreak {s : JsString} (hs : NoBreak s) (hne : s ≠ []) (t : JsString) :
    ∀ afterCr, replaceBreaks newline afterCr (s ++ t) = s ++ replaceBreaks newline false t := by
  induction s with
  | nil => exact absurd rfl hne
  | cons c rest ih =>
    intro afterCr
    have hlf : c ≠ lineFeed := fun h => hs.1 (h ▸ List.mem_cons_self)
    have hcr : c ≠ carriageReturn := fun h => hs.2 (h ▸ List.mem_cons_self)
    have hrest : replaceBreaks newline false (rest ++ t) = rest ++ replaceBreaks newline false t := by
      by_cases hnil : rest = []
      · rw [hnil]
        rfl
      · exact ih ⟨fun h => hs.1 (List.mem_cons_of_mem _ h), fun h => hs.2 (List.mem_cons_of_mem _ h)⟩
          hnil false
    rw [List.cons_append, replaceBreaks, hrest]
    simp [hlf, hcr]

/-- A text that does not begin with LF is replaced on its own. -/
theorem replaceBreaks_append {t : JsString} (ht : t.head? ≠ some lineFeed) (s : JsString) :
    ∀ afterCr, replaceBreaks newline afterCr (s ++ t)
      = replaceBreaks newline afterCr s ++ replaceBreaks newline false t := by
  induction s with
  | nil =>
    intro afterCr
    cases t with
    | nil => rfl
    | cons c rest =>
      have hlf : c ≠ lineFeed := fun h => ht (by rw [h]; rfl)
      simp [replaceBreaks, hlf]
  | cons c rest ih =>
    intro afterCr
    rw [List.cons_append, replaceBreaks, replaceBreaks, ih, ih]
    split_ifs <;> simp

end JsString

end Text
