import OmarchyWhatsapp.Text.JsString

/-!
# The characters of a string

A string leaves the engine as Unicode text: a pair of surrogates becomes one character, and `lone` is
written for a surrogate that stands alone. Units that are no surrogates are characters of their own.
-/

namespace Text

namespace JsString

/-- A unit of no pair. -/
def isPlain (c : UInt16) : Bool := !isHighSurrogate c && !isLowSurrogate c

def charOf (c : UInt16) : Char := Char.ofNat c.toNat

/-- What a unit is written as, given the units beside it; a pair is written at its second unit. -/
def unitChars (lone : Char) (before : Option UInt16) (c : UInt16) (after : Option UInt16) :
    List Char :=
  if isHighSurrogate c then if after.any isLowSurrogate then [] else [lone]
  else if isLowSurrogate c then
    match before.filter isHighSurrogate with
    | some high => [Char.ofNat (0x10000 + (high.toNat - 0xD800) * 0x400 + (c.toNat - 0xDC00))]
    | none => [lone]
  else [charOf c]

def charsFrom (lone : Char) : Option UInt16 → JsString → List Char
  | _, [] => []
  | before, c :: rest => unitChars lone before c rest.head? ++ charsFrom lone (some c) rest

/-- The characters of a string. -/
def chars (lone : Char) (s : JsString) : List Char := charsFrom lone none s

variable {lone : Char}

/-! ## Units of no pair -/

theorem unitChars_of_isPlain {c : UInt16} (h : isPlain c = true) (before after : Option UInt16) :
    unitChars lone before c after = [charOf c] := by
  obtain ⟨hhigh, hlow⟩ := (Bool.and_eq_true _ _).mp h
  unfold unitChars
  rw [if_neg (by simpa using hhigh), if_neg (by simpa using hlow)]

/-- A unit of no pair separates what stands before it from what follows. -/
theorem charsFrom_some_of_isPlain {c : UInt16} (h : isPlain c = true) (s : JsString) :
    charsFrom lone (some c) s = chars lone s := by
  cases s with
  | nil => rfl
  | cons d rest =>
    have hhigh : isHighSurrogate c = false := by
      simpa using ((Bool.and_eq_true _ _).mp h).1
    have hunit : unitChars lone (some c) d rest.head? = unitChars lone none d rest.head? := by
      unfold unitChars
      rw [Option.filter_some, hhigh]
      rfl
    unfold chars charsFrom
    rw [hunit]

theorem unitChars_head?_append {c : UInt16} (h : isPlain c = true) (before : Option UInt16)
    (d : UInt16) (s t : JsString) :
    unitChars lone before d (s ++ c :: t).head? = unitChars lone before d s.head? := by
  cases s with
  | nil =>
    have hlow : isLowSurrogate c = false := by
      simpa using ((Bool.and_eq_true _ _).mp h).2
    show unitChars lone before d (some c) = unitChars lone before d none
    unfold unitChars
    rw [Option.any_some, Option.any_none, hlow]
  | cons e rest => rfl

theorem charsFrom_append_cons {c : UInt16} (h : isPlain c = true) (s t : JsString) :
    ∀ before, charsFrom lone before (s ++ c :: t)
      = charsFrom lone before s ++ charOf c :: chars lone t := by
  induction s with
  | nil =>
    intro before
    show unitChars lone before c t.head? ++ charsFrom lone (some c) t = _
    rw [unitChars_of_isPlain h, charsFrom_some_of_isPlain h]
    rfl
  | cons d rest ih =>
    intro before
    show unitChars lone before d (rest ++ c :: t).head? ++ charsFrom lone (some d) (rest ++ c :: t)
      = _
    rw [unitChars_head?_append h, ih, ← List.append_assoc]
    rfl

theorem chars_append_cons {c : UInt16} (h : isPlain c = true) (s t : JsString) :
    chars lone (s ++ c :: t) = chars lone s ++ charOf c :: chars lone t :=
  charsFrom_append_cons h s t none

theorem chars_append_plain {s : JsString} (h : ∀ c ∈ s, isPlain c = true) (t : JsString) :
    chars lone (s ++ t) = s.map charOf ++ chars lone t := by
  induction s with
  | nil => rfl
  | cons c rest ih =>
    obtain ⟨hc, hrest⟩ := List.forall_mem_cons.mp h
    show chars lone ([] ++ c :: (rest ++ t)) = _
    rw [chars_append_cons hc, ih hrest]
    rfl

/-! ## ASCII -/

/-- The unit of a character of ASCII. -/
def unitOf (c : Char) : UInt16 := c.toNat.toUInt16

theorem toNat_charOf {c : UInt16} (h : isPlain c = true) : (charOf c).toNat = c.toNat := by
  have hvalid : c.toNat.isValidChar := by
    simp only [isPlain, isHighSurrogate, isLowSurrogate, Bool.and_eq_true, Bool.not_eq_true',
      Bool.and_eq_false_iff, decide_eq_false_iff_not, UInt16.le_iff_toNat_le] at h
    have hc := c.toNat_lt
    have hbounds : (0xD800 : UInt16).toNat = 0xD800 ∧ (0xDBFF : UInt16).toNat = 0xDBFF ∧
        (0xDC00 : UInt16).toNat = 0xDC00 ∧ (0xDFFF : UInt16).toNat = 0xDFFF := by decide
    unfold Nat.isValidChar
    omega
  unfold charOf
  rw [Char.ofNat, dif_pos hvalid]
  rfl

/-- A pair is a character behind the units. -/
theorem le_toNat_pair {high low : UInt16} (hhigh : isHighSurrogate high = true)
    (hlow : isLowSurrogate low = true) :
    0x10000 ≤ (Char.ofNat
      (0x10000 + (high.toNat - 0xD800) * 0x400 + (low.toNat - 0xDC00))).toNat := by
  have hbounds : (0xD800 : UInt16).toNat = 0xD800 ∧ (0xDBFF : UInt16).toNat = 0xDBFF ∧
      (0xDC00 : UInt16).toNat = 0xDC00 ∧ (0xDFFF : UInt16).toNat = 0xDFFF := by decide
  simp only [isHighSurrogate, isLowSurrogate, Bool.and_eq_true, decide_eq_true_eq,
    UInt16.le_iff_toNat_le] at hhigh hlow
  have hvalid : (0x10000 + (high.toNat - 0xD800) * 0x400 + (low.toNat - 0xDC00)).isValidChar := by
    unfold Nat.isValidChar
    omega
  rw [Char.ofNat, dif_pos hvalid]
  show 0x10000 ≤ 0x10000 + (high.toNat - 0xD800) * 0x400 + (low.toNat - 0xDC00)
  omega

/-- A unit is written as one character at most, one of ASCII as itself. -/
theorem unitChars_cases (before : Option UInt16) (c : UInt16) (after : Option UInt16) :
    unitChars lone before c after = [] ∨
      ∃ x, unitChars lone before c after = [x] ∧
        (x = lone ∨ 0x80 ≤ x.toNat ∨ isPlain c = true ∧ x = charOf c) := by
  unfold unitChars
  by_cases hhigh : isHighSurrogate c = true
  · rw [if_pos hhigh]
    split
    · exact Or.inl rfl
    · exact Or.inr ⟨lone, rfl, Or.inl rfl⟩
  rw [if_neg hhigh]
  by_cases hlow : isLowSurrogate c = true
  · rw [if_pos hlow]
    right
    cases hbefore : before.filter isHighSurrogate with
    | none => exact ⟨lone, rfl, Or.inl rfl⟩
    | some high =>
      have hpair := le_toNat_pair (Option.filter_eq_some_iff.mp hbefore).2 hlow
      exact ⟨_, rfl, Or.inr (Or.inl (Nat.le_trans (by decide) hpair))⟩
  · rw [if_neg hlow]
    refine Or.inr ⟨_, rfl, Or.inr (Or.inr ⟨?_, rfl⟩)⟩
    simp [isPlain, hhigh, hlow]

theorem isPlain_unitOf {c : Char} (hascii : c.toNat < 0x80) : isPlain (unitOf c) = true := by
  have hunit : (unitOf c).toNat = c.toNat := by
    show c.toNat % 65536 = c.toNat
    omega
  have hle : unitOf c ≤ 0x7F := by
    rw [UInt16.le_iff_toNat_le, hunit]
    exact Nat.le_of_lt_succ hascii
  obtain ⟨hhigh, hlow⟩ := not_surrogate_of_le hle (by decide)
  rw [isPlain, hhigh, hlow]
  rfl

theorem unitOf_charOf {d : UInt16} (h : isPlain d = true) : unitOf (charOf d) = d := by
  apply UInt16.toNat.inj
  show (charOf d).toNat % 65536 = d.toNat
  rw [toNat_charOf h, Nat.mod_eq_of_lt d.toNat_lt]

/-- A character of ASCII comes from its unit. -/
theorem exists_split_chars {c : Char} (hascii : c.toNat < 0x80) (hlone : c ≠ lone) (s : JsString) :
    ∀ before front back, charsFrom lone before s = front ++ c :: back →
      ∃ x y, s = x ++ unitOf c :: y ∧ charsFrom lone before x = front ∧ chars lone y = back := by
  induction s with
  | nil =>
    intro before front back h
    exact absurd h.symm (List.append_ne_nil_of_right_ne_nil _ (List.cons_ne_nil _ _))
  | cons d rest ih =>
    intro before front back h
    have h : unitChars lone before d rest.head? ++ charsFrom lone (some d) rest
        = front ++ c :: back := h
    -- the unit is before the character, unless it is the character itself
    have hlater (front' : List Char) (hfront : front = unitChars lone before d rest.head? ++ front')
        (hrest : charsFrom lone (some d) rest = front' ++ c :: back) :
        ∃ x y, d :: rest = x ++ unitOf c :: y ∧ charsFrom lone before x = front ∧
          chars lone y = back := by
      obtain ⟨x, y, rfl, hx, hy⟩ := ih _ _ _ hrest
      refine ⟨d :: x, y, rfl, ?_, hy⟩
      rw [hfront, unitChars_head?_append (isPlain_unitOf hascii), ← hx]
      rfl
    rcases unitChars_cases before d rest.head? with hnil | ⟨x, hx, hcases⟩
    · rw [hnil] at h
      exact hlater front (by rw [hnil]; rfl) h
    cases front with
    | cons e front =>
      rw [hx] at h
      obtain ⟨rfl, hrest⟩ := List.cons.inj h
      exact hlater front (by rw [hx]; rfl) hrest
    | nil =>
      rw [hx] at h
      obtain ⟨rfl, hrest⟩ := List.cons.inj h
      rcases hcases with rfl | hle | ⟨hplain, rfl⟩
      · exact absurd rfl hlone
      · omega
      · refine ⟨[], rest, ?_, rfl, ?_⟩
        · rw [unitOf_charOf hplain]
          rfl
        · rw [← charsFrom_some_of_isPlain hplain]
          exact hrest

theorem eq_nil_of_charsFrom {s : JsString} : ∀ {before}, charsFrom lone before s = [] → s = [] := by
  induction s with
  | nil => exact fun _ => rfl
  | cons c rest ih =>
    intro before h
    obtain ⟨hunit, hrest⟩ := List.append_eq_nil_iff.mp h
    obtain rfl := ih hrest
    -- the last unit is written, alone or with the one before
    exfalso
    unfold unitChars at hunit
    rw [List.head?_nil, Option.any_none, if_neg Bool.false_ne_true] at hunit
    split at hunit
    · cases hunit
    · split at hunit
      · split at hunit <;> cases hunit
      · cases hunit

/-- Characters of ASCII come from their units. -/
theorem exists_append_of_chars {units : JsString} (hplain : ∀ c ∈ units, isPlain c = true)
    (hascii : ∀ c ∈ units, (charOf c).toNat < 0x80 ∧ charOf c ≠ lone) {back : List Char} :
    ∀ {s : JsString}, chars lone s = units.map charOf ++ back →
      ∃ t, s = units ++ t ∧ chars lone t = back := by
  induction units with
  | nil => exact fun h => ⟨_, rfl, h⟩
  | cons c units ih =>
    intro s h
    obtain ⟨hc, hunits⟩ := List.forall_mem_cons.mp hplain
    obtain ⟨hcascii, hunitsAscii⟩ := List.forall_mem_cons.mp hascii
    obtain ⟨x, y, rfl, hx, hy⟩ := exists_split_chars hcascii.1 hcascii.2 s none [] _ h
    obtain rfl := eq_nil_of_charsFrom hx
    obtain ⟨t, rfl, ht⟩ := ih hunits hunitsAscii hy
    exact ⟨t, by rw [unitOf_charOf hc]; rfl, ht⟩

end JsString

end Text
