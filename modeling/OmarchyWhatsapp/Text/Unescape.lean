import OmarchyWhatsapp.Text.Hex
import OmarchyWhatsapp.Text.JsString

/-!
# `unescape`

What `encodeURIComponent` writes is a unit for a unit, or the bytes of UTF-8 with a percent sign
before each. `unescape` reads each of them as a unit, so that the two together give the bytes of a
string.
-/

namespace Text

namespace JsString

def percentSign : UInt16 := 0x25

def letterU : UInt16 := 0x75

/-- The value of a unit among `[0-9A-Fa-f]`. -/
def hexUnitValue (c : UInt16) : Option ℕ :=
  if isDigit c then some (c.toNat - 0x30)
  else if 0x41 ≤ c && c ≤ 0x46 then some (c.toNat - 0x37)
  else if 0x61 ≤ c && c ≤ 0x66 then some (c.toNat - 0x57)
  else none

/-- Digits of a number, of which there is one at least. -/
def hexUnitsValue (digits : JsString) : Option ℕ :=
  if digits = [] then none
  else digits.foldlM (fun n c => (hexUnitValue c).map (16 * n + ·)) 0

/-- The digits of an escape that a percent sign begins, `%uXXXX` or `%XX`, and how many units they
take. -/
def escapeDigits (rest : JsString) : JsString × ℕ :=
  if 5 ≤ rest.length ∧ rest.head? = some letterU then ((rest.drop 1).take 4, 5)
  else if 2 ≤ rest.length then (rest.take 2, 2)
  else ([], 0)

/-- `unescape` behind `skip` units that an escape has taken. -/
def unescapeBehind (skip : ℕ) : JsString → JsString
  | [] => []
  | c :: rest =>
    if 0 < skip then unescapeBehind (skip - 1) rest
    else if c = percentSign then
      match hexUnitsValue (escapeDigits rest).1 with
      | some n => n.toUInt16 :: unescapeBehind (escapeDigits rest).2 rest
      | none => c :: unescapeBehind 0 rest
    else c :: unescapeBehind 0 rest

def unescape (s : JsString) : JsString := unescapeBehind 0 s

/-! ## Bytes that are escaped -/

theorem hexDigit_value {n : ℕ} (h : n < 16) : hexUnitValue (hexDigit n) = some n := by
  have hall : ∀ n < 16, hexUnitValue (hexDigit n) = some n := by decide
  exact hall n h

theorem hexDigit_ne_letterU {n : ℕ} (h : n < 16) : hexDigit n ≠ letterU := by
  have hall : ∀ n < 16, hexDigit n ≠ letterU := by decide
  exact hall n h

/-- An escaped byte is read as one unit. -/
theorem unescape_percentByte {byte : ℕ} (h : byte < 256) (s : JsString) :
    unescape (percentByte byte ++ s) = byte.toUInt16 :: unescape s := by
  have hhead : hexDigit (byte / 16) ≠ letterU := hexDigit_ne_letterU (by omega)
  have hdigits : escapeDigits (hexDigit (byte / 16) :: hexDigit (byte % 16) :: s)
      = ([hexDigit (byte / 16), hexDigit (byte % 16)], 2) := by
    have hlength : 2 ≤ (hexDigit (byte / 16) :: hexDigit (byte % 16) :: s).length := by
      rw [List.length_cons, List.length_cons]
      omega
    rw [escapeDigits, if_neg (fun hu => hhead (Option.some.inj hu.2)), if_pos hlength]
    rfl
  have hvalue : hexUnitsValue [hexDigit (byte / 16), hexDigit (byte % 16)] = some byte := by
    rw [hexUnitsValue, if_neg (List.cons_ne_nil _ _), List.foldlM_cons, hexDigit_value (by omega)]
    show (do
      let n ← some (16 * 0 + byte / 16)
      [hexDigit (byte % 16)].foldlM (fun n c => (hexUnitValue c).map (16 * n + ·)) n) = some byte
    rw [Option.bind_eq_bind, Option.bind_some, List.foldlM_cons, hexDigit_value (by omega)]
    show some (16 * (16 * 0 + byte / 16) + byte % 16) = some byte
    congr 1
    omega
  show unescapeBehind 0 (percentSign :: hexDigit (byte / 16) :: hexDigit (byte % 16) :: s) = _
  rw [unescapeBehind, if_neg (Nat.lt_irrefl 0), if_pos rfl, hdigits]
  dsimp only
  rw [hvalue]
  rfl

theorem unescape_percentBytes {bytes : List ℕ} (h : ∀ byte ∈ bytes, byte < 256) (s : JsString) :
    unescape (bytes.flatMap percentByte ++ s) = bytes.map Nat.toUInt16 ++ unescape s := by
  induction bytes with
  | nil => rfl
  | cons byte bytes ih =>
    have hrest := ih (fun b hb => h b (List.mem_cons_of_mem _ hb))
    rw [List.flatMap_cons, List.append_assoc, unescape_percentByte (h byte List.mem_cons_self),
      hrest]
    rfl

/-- A unit that is no percent sign stays. -/
theorem unescape_unit {c : UInt16} (h : c ≠ percentSign) (s : JsString) :
    unescape (c :: s) = c :: unescape s := by
  rw [unescape, unescapeBehind, if_neg (Nat.lt_irrefl 0), if_neg h]
  rfl

/-! ## Characters that are encoded -/

theorem toNat_byte {n : ℕ} (h : n < 256) : (UInt8.ofNat n).toNat = n := Nat.mod_eq_of_lt h

/-- The bytes that `encodeURIComponent` escapes are those of the string. -/
theorem utf8Bytes_toNat (c : Char) :
    utf8Bytes c.toNat = (String.utf8EncodeChar c).map UInt8.toNat := by
  have hbound := toNat_char c
  unfold utf8Bytes String.utf8EncodeChar
  show _ = List.map UInt8.toNat (if c.toNat ≤ 0x7f then [UInt8.ofNat c.toNat]
    else if c.toNat ≤ 0x7ff then
      [UInt8.ofNat (c.toNat / 64 % 0x20 + 0xc0), UInt8.ofNat (c.toNat % 0x40 + 0x80)]
    else if c.toNat ≤ 0xffff then
      [UInt8.ofNat (c.toNat / 4096 % 0x10 + 0xe0), UInt8.ofNat (c.toNat / 64 % 0x40 + 0x80),
        UInt8.ofNat (c.toNat % 0x40 + 0x80)]
    else
      [UInt8.ofNat (c.toNat / 262144 % 0x08 + 0xf0), UInt8.ofNat (c.toNat / 4096 % 0x40 + 0x80),
        UInt8.ofNat (c.toNat / 64 % 0x40 + 0x80), UInt8.ofNat (c.toNat % 0x40 + 0x80)])
  by_cases h1 : c.toNat < 0x80
  · rw [if_pos h1, if_pos (show c.toNat ≤ 0x7f by omega), List.map_singleton, toNat_byte (by omega)]
  rw [if_neg h1, if_neg (show ¬c.toNat ≤ 0x7f by omega)]
  by_cases h2 : c.toNat < 0x800
  · rw [if_pos h2, if_pos (show c.toNat ≤ 0x7ff by omega)]
    simp only [List.map_cons, List.map_nil]
    rw [toNat_byte (by omega), toNat_byte (by omega)]
    simp only [List.cons.injEq, and_true]
    omega
  rw [if_neg h2, if_neg (show ¬c.toNat ≤ 0x7ff by omega)]
  by_cases h3 : c.toNat < 0x10000
  · rw [if_pos h3, if_pos (show c.toNat ≤ 0xffff by omega)]
    simp only [List.map_cons, List.map_nil]
    rw [toNat_byte (by omega), toNat_byte (by omega), toNat_byte (by omega)]
    simp only [List.cons.injEq, and_true]
    omega
  rw [if_neg h3, if_neg (show ¬c.toNat ≤ 0xffff by omega)]
  simp only [List.map_cons, List.map_nil]
  rw [toNat_byte (by omega), toNat_byte (by omega), toNat_byte (by omega), toNat_byte (by omega)]
  simp only [List.cons.injEq, and_true]
  omega

/-- What `encodeURIComponent` writes for a character. -/
def encodedChar (c : Char) : JsString :=
  if c.toNat < 0x10000 ∧ isUnreserved c.toNat.toUInt16 then [c.toNat.toUInt16]
  else percentEncode c.toNat

/-- The units of a character are encoded together. -/
theorem encodeUriFrom_char (c : Char) (s : JsString) :
    encodeUriFrom none (encodeUtf16 c ++ s) = (encodeUriFrom none s).map (encodedChar c ++ ·) := by
  have hbound := toNat_char c
  by_cases hc : c.toNat < 0x10000
  · have hunit := toNat_unit hc
    have hhigh : ¬isHighSurrogate c.toNat.toUInt16 = true := by
      rw [isHighSurrogate_iff, hunit]
      omega
    have hlow : ¬isLowSurrogate c.toNat.toUInt16 = true := by
      rw [isLowSurrogate_iff, hunit]
      omega
    rw [encodeUtf16, if_pos hc, List.singleton_append, encodeUriFrom, if_neg hhigh, if_neg hlow,
      hunit, encodedChar]
    by_cases hkept : isUnreserved c.toNat.toUInt16 = true
    · rw [if_pos hkept, if_pos ⟨hc, hkept⟩]
    · rw [if_neg hkept, if_neg (fun h => hkept h.2)]
  · have hfirst := toNat_unit (show 0xD800 + (c.toNat - 0x10000) / 0x400 < 0x10000 by omega)
    have hsecond := toNat_unit (show 0xDC00 + (c.toNat - 0x10000) % 0x400 < 0x10000 by omega)
    have hhigh := (isHighSurrogate_iff (0xD800 + (c.toNat - 0x10000) / 0x400).toUInt16).mpr
      (by rw [hfirst]; omega)
    have hlow := (isLowSurrogate_iff (0xDC00 + (c.toNat - 0x10000) % 0x400).toUInt16).mpr
      (by rw [hsecond]; omega)
    -- the pair stands for the character again
    have hcode : 0x10000 + (0xD800 + (c.toNat - 0x10000) / 0x400 - 0xD800) * 0x400
        + (0xDC00 + (c.toNat - 0x10000) % 0x400 - 0xDC00) = c.toNat := by omega
    rw [encodeUtf16, if_neg hc, List.cons_append, List.singleton_append, encodeUriFrom,
      if_pos hhigh, encodeUriFrom, if_pos hlow, hfirst, hsecond, hcode, encodedChar,
      if_neg (fun h => hc h.1)]

/-- What is kept is of ASCII and no percent sign. -/
theorem isUnreserved_spec {c : UInt16} (h : isUnreserved c = true) :
    c.toNat < 0x80 ∧ c ≠ percentSign := by
  have hrange {low high : UInt16} (hlow : 0x25 < low.toNat) (hhigh : high.toNat < 0x80)
      (hc : (decide (low ≤ c) && decide (c ≤ high)) = true) :
      c.toNat < 0x80 ∧ c ≠ percentSign := by
    rw [Bool.and_eq_true, decide_eq_true_eq, decide_eq_true_eq, UInt16.le_iff_toNat_le,
      UInt16.le_iff_toNat_le] at hc
    refine ⟨by omega, ?_⟩
    rintro rfl
    exact absurd (Nat.lt_of_lt_of_le hlow hc.1) (by decide)
  have hmarks : (js "-_.!~*()").all (fun d => d.toNat < 0x80 ∧ d ≠ percentSign) = true := by
    decide +kernel
  simp only [isUnreserved, Bool.or_eq_true, decide_eq_true_eq] at h
  rcases h with (((h | h) | h) | h) | rfl
  · exact hrange (by decide) (by decide) h
  · exact hrange (by decide) (by decide) h
  · exact hrange (by decide) (by decide) h
  · exact of_decide_eq_true (List.all_eq_true.mp hmarks c (List.elem_iff.mp h))
  · decide

/-- The bytes of a text, each as a unit. -/
def byteUnits (bytes : List UInt8) : JsString := bytes.map fun byte => byte.toNat.toUInt16

theorem unescape_encodedChar (c : Char) (s : JsString) :
    unescape (encodedChar c ++ s) = byteUnits (String.utf8EncodeChar c) ++ unescape s := by
  have hunits : byteUnits (String.utf8EncodeChar c) = (utf8Bytes c.toNat).map Nat.toUInt16 := by
    rw [utf8Bytes_toNat, List.map_map]
    rfl
  rw [hunits]
  by_cases hc : c.toNat < 0x10000 ∧ isUnreserved c.toNat.toUInt16 = true
  · obtain ⟨hascii, hpercent⟩ := isUnreserved_spec hc.2
    rw [toNat_unit hc.1] at hascii
    rw [encodedChar, if_pos hc, List.singleton_append, unescape_unit hpercent, utf8Bytes,
      if_pos hascii]
    rfl
  · have hbytes : ∀ byte ∈ utf8Bytes c.toNat, byte < 256 := by
      intro byte hbyte
      rw [utf8Bytes_toNat] at hbyte
      obtain ⟨b, -, rfl⟩ := List.mem_map.mp hbyte
      exact b.toNat_lt
    rw [encodedChar, if_neg hc, percentEncode, unescape_percentBytes hbytes]

/-- `unescape(encodeURIComponent(s))` are the bytes of a string. -/
theorem unescape_encodeURIComponent (s : String) :
    (encodeURIComponent (js s)).map unescape = some (byteUnits s.toUTF8.toList) := by
  rw [encodeURIComponent, js, toList_toUTF8]
  induction s.toList with
  | nil => rfl
  | cons c text ih =>
    rw [List.flatMap_cons, encodeUriFrom_char, List.flatMap_cons]
    obtain ⟨encoded, hencoded, hrest⟩ := Option.map_eq_some_iff.mp ih
    rw [hencoded, Option.map_some, Option.map_some, unescape_encodedChar, hrest]
    exact congrArg some (List.map_append).symm

end JsString

end Text
