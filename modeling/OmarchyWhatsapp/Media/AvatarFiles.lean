import OmarchyWhatsapp.Media.CachePaths
import OmarchyWhatsapp.Relational.Slices
import OmarchyWhatsapp.Text.JsonReader
import OmarchyWhatsapp.Text.Unescape

/-!
# The names of avatar files

`avatar_fingerprints` reads the JID of an avatar back from the name of its file. It cuts the stem
into slices of two bytes, and a slice of a string that cuts a character in two is a panic.
-/

namespace OmarchyWhatsapp

open Relational Text

/-! ## Slices of a string -/

/-- `split_at_checked` of a string, at a number of bytes. -/
def splitAtByte (offset : ℕ) (text : List Char) : Option (List Char × List Char) :=
  if offset = 0 then some ([], text)
  else match text with
    | [] => none
    | c :: rest =>
      if c.utf8Size ≤ offset then
        (splitAtByte (offset - c.utf8Size) rest).map fun parts => (c :: parts.1, parts.2)
      else none

/-- `&text[start..start + length]`. -/
def strSlice (text : List Char) (start length : ℕ) : Except Halt (List Char) :=
  match (splitAtByte start text).bind fun parts => splitAtByte length parts.2 with
  | some parts => .ok parts.1
  | none => .error .fault

/-- `u8::from_str_radix(text, 16)`: a plus sign may stand before the digits, of either case. -/
def fromStrRadix (text : List Char) : Option UInt8 :=
  let digits := if text.head? = some '+' then text.tail else text
  if digits = [] then none
  else ((hexValue digits).filter (· < 256)).map UInt8.ofNat

/-! ## The decoder -/

/-- The bytes that a stem is read as; the first error ends the reading. -/
def decodeStem (encoded : List Char) : Except Halt (List UInt8) :=
  ((List.range (byteLength encoded / 2)).map (2 * ·)).mapM fun index => do
    let part ← strSlice encoded index 2
    context (fromStrRadix part) "invalid digit found in string"

/-- The JID in `avatar_fingerprints`, for an entry of the directory. -/
def decodeAvatarName (directory : FileName) (entry : EntryName) : Except Halt (Option String) :=
  let path := join directory entry.name
  if pathExtension path ≠ some "img".toList then .ok none
  else match pathFileStem path with
    | none => .ok none
    | some encoded =>
      if byteLength encoded % 2 ≠ 0 then .ok none
      else match decodeStem encoded with
        | .ok bytes => .ok (String.fromUTF8? ⟨bytes.toArray⟩)
        | .error (.error _) => .ok none
        | .error .fault => .error .fault

/-- The name in `avatar_path`. -/
def avatarName (jid : String) : EntryName where
  name := hexKey jid ++ ".img".toList
  ne_nil := List.append_ne_nil_of_right_ne_nil _ (by decide)
  ne_dot h := by
    have hmem : 'g' ∈ hexKey jid ++ ".img".toList := List.mem_append_right _ (by decide)
    rw [h] at hmem
    exact absurd hmem (by decide)
  ne_dotdot h := by
    have hmem : 'g' ∈ hexKey jid ++ ".img".toList := List.mem_append_right _ (by decide)
    rw [h] at hmem
    exact absurd hmem (by decide)
  separator h := by
    rcases List.mem_append.mp h with h | h
    · exact absurd (mem_hexKey h) (by decide)
    · exact absurd h (by decide)

/-- `charCodeAt(i).toString(16)`. -/
def hexUnit (unit : UInt16) : JsString := js (String.ofList (Nat.toDigits 16 unit.toNat))

/-- `hexKey` of the shell, for a text that is a string; `encodeURIComponent` may throw. -/
def Service.hexKey (value : JsString) : Option JsString :=
  (JsString.encodeURIComponent value).map fun encoded =>
    (JsString.unescape encoded).flatMap fun unit => JsString.lastUnits 2 (js "0" ++ hexUnit unit)

theorem avatarPath_eq (directory : FileName) (jid : String) :
    avatarPath directory jid = join directory (avatarName jid).name := rfl

/-! ## Two characters at a time -/

/-- The numbers that a text of two-character numbers stands for. -/
def hexNumbers : List Char → Option (List UInt8)
  | [] => some []
  | [_] => none
  | c :: d :: rest => (fromStrRadix [c, d]).bind fun byte => (hexNumbers rest).map (byte :: ·)

theorem splitAtByte_zero (text : List Char) : splitAtByte 0 text = some ([], text) := by
  unfold splitAtByte
  exact if_pos rfl

/-- Past a character, an offset counts from behind it. -/
theorem splitAtByte_cons {offset : ℕ} {c : Char} (h : c.utf8Size ≤ offset) (rest : List Char) :
    splitAtByte offset (c :: rest)
      = (splitAtByte (offset - c.utf8Size) rest).map fun parts => (c :: parts.1, parts.2) := by
  have hpos := c.utf8Size_pos
  rw [splitAtByte, if_neg (by omega)]
  exact if_pos h

theorem splitAtByte_cut {offset : ℕ} {c : Char} (hpos : 0 < offset) (h : offset < c.utf8Size)
    (rest : List Char) : splitAtByte offset (c :: rest) = none := by
  rw [splitAtByte, if_neg (by omega)]
  exact if_neg (by omega)

theorem strSlice_cons {start length : ℕ} {c : Char} (h : c.utf8Size ≤ start) (rest : List Char) :
    strSlice (c :: rest) start length = strSlice rest (start - c.utf8Size) length := by
  rw [strSlice, splitAtByte_cons h, strSlice]
  cases splitAtByte (start - c.utf8Size) rest <;> rfl

theorem strSlice_zero (text : List Char) (length : ℕ) :
    strSlice text 0 length = match splitAtByte length text with
      | some parts => .ok parts.1
      | none => .error .fault := by
  rw [strSlice, splitAtByte_zero]
  rfl

/-- What a slice that a digit cannot be read in comes to. -/
def invalidDigit : Halt := .error "invalid digit found in string"

/-- The first slice is read, then those of the rest. -/
theorem decodeStem_eq {text : List Char} (h : 2 ≤ byteLength text) :
    decodeStem text = do
      let part ← strSlice text 0 2
      let byte ← context (fromStrRadix part) "invalid digit found in string"
      let bytes ← ((List.range (byteLength text / 2 - 1)).map (2 * ·)).mapM fun index => do
        let part ← strSlice text (index + 2) 2
        context (fromStrRadix part) "invalid digit found in string"
      return byte :: bytes := by
  have hrange : List.range (byteLength text / 2)
      = 0 :: (List.range (byteLength text / 2 - 1)).map (· + 1) := by
    obtain ⟨n, hn⟩ : ∃ n, byteLength text / 2 = n + 1 := ⟨byteLength text / 2 - 1, by omega⟩
    rw [hn, List.range_succ_eq_map]
    rfl
  have hindices : ((List.range (byteLength text / 2 - 1)).map (· + 1)).map (2 * ·)
      = ((List.range (byteLength text / 2 - 1)).map (2 * ·)).map (· + 2) := by
    rw [List.map_map, List.map_map]
    rfl
  rw [decodeStem, hrange, List.map_cons, List.mapM_cons, hindices, List.mapM_map]
  show ((strSlice text 0 2 >>= _) >>= _) = _
  cases strSlice text 0 2 with
  | error e => rfl
  | ok part => rfl

theorem byteLength_cons (c : Char) (text : List Char) :
    byteLength (c :: text) = c.utf8Size + byteLength text := by
  rw [byteLength, List.map_cons, List.sum_cons, byteLength]

/-- Two characters of one byte are a slice. -/
theorem decodeStem_pair {c d : Char} (hc : c.utf8Size = 1) (hd : d.utf8Size = 1)
    (rest : List Char) :
    decodeStem (c :: d :: rest) = do
      let byte ← context (fromStrRadix [c, d]) "invalid digit found in string"
      let bytes ← decodeStem rest
      return byte :: bytes := by
  have hlength : byteLength (c :: d :: rest) = 2 + byteLength rest := by
    rw [byteLength_cons, byteLength_cons]
    omega
  have hcount : byteLength (c :: d :: rest) / 2 - 1 = byteLength rest / 2 := by omega
  have hfirst : strSlice (c :: d :: rest) 0 2 = .ok [c, d] := by
    have hone : splitAtByte 1 (d :: rest) = some ([d], rest) := by
      rw [splitAtByte_cons (by omega), hd, splitAtByte_zero]
      rfl
    rw [strSlice_zero, splitAtByte_cons (by omega), hc, hone]
    rfl
  have hrest (index : ℕ) : strSlice (c :: d :: rest) (index + 2) 2 = strSlice rest index 2 := by
    rw [strSlice_cons (by omega), strSlice_cons (by omega), hc, hd]
    rfl
  rw [decodeStem_eq (by omega), hcount, hfirst, ok_bind]
  simp only [hrest]
  rfl

theorem decodeStem_fault {text : List Char} (h : 2 ≤ byteLength text)
    (hcut : strSlice text 0 2 = .error .fault) : decodeStem text = .error .fault := by
  rw [decodeStem_eq h, hcut]
  rfl

/-- A character is no digit if it takes more than a byte. -/
theorem hexDigitValue_of_wide {c : Char} (h : c.utf8Size ≠ 1) : hexDigitValue c = none := by
  have hwide : 127 < c.toNat := by
    by_contra hle
    exact h (Char.utf8Size_eq_one_iff.mpr (UInt32.le_iff_toNat_le.mpr (not_lt.mp hle)))
  have hnotLe {d : Char} (hd : d.toNat ≤ 127) : ¬c ≤ d := fun hle => by
    have := UInt32.le_iff_toNat_le.mp hle
    exact absurd (Nat.le_trans this hd) (not_le.mpr hwide)
  rw [hexDigitValue, if_neg (fun hc => hnotLe (by decide) hc.2),
    if_neg (fun hc => hnotLe (by decide) hc.2), if_neg (fun hc => hnotLe (by decide) hc.2)]

theorem fromStrRadix_wide {c : Char} (h : c.utf8Size ≠ 1) (rest : List Char) :
    fromStrRadix (c :: rest) = none := by
  have hplus : c ≠ '+' := fun hc => h (by rw [hc]; decide)
  have hvalue : hexValue (c :: rest) = none := by
    rw [hexValue, List.foldlM_cons, hexDigitValue_of_wide h]
    rfl
  rw [fromStrRadix, List.head?_cons, if_neg (fun hc => hplus (Option.some.inj hc)),
    if_neg (List.cons_ne_nil _ _), hvalue]
  rfl

theorem decodeStem_wide {c : Char} (h : c.utf8Size = 2) (rest : List Char) :
    decodeStem (c :: rest) = .error invalidDigit := by
  have hfirst : strSlice (c :: rest) 0 2 = .ok [c] := by
    rw [strSlice_zero, splitAtByte_cons (by omega), h, splitAtByte_zero]
    rfl
  have hradix : fromStrRadix [c] = none := fromStrRadix_wide (by omega) []
  rw [decodeStem_eq (by rw [byteLength_cons]; omega), hfirst, ok_bind, hradix]
  rfl

/-- After two-character numbers, a slice of two bytes ends within a character. -/
def isCut : List Char → Bool
  | [] => false
  | [c] => 2 < c.utf8Size
  | c :: d :: rest =>
    2 < c.utf8Size || (c.utf8Size = 1 && 1 < d.utf8Size) ||
      ((fromStrRadix [c, d]).isSome && isCut rest)

/-- The slices are the numbers, unless one of them ends within a character. -/
theorem decodeStem_spec (text : List Char) (heven : byteLength text % 2 = 0) :
    decodeStem text = if isCut text then .error .fault
      else context (hexNumbers text) "invalid digit found in string" := by
  induction text using hexNumbers.induct with
  | case1 => rfl
  | case2 c =>
    have hlength : byteLength [c] = c.utf8Size := by
      rw [byteLength_cons]
      rfl
    by_cases hc : c.utf8Size = 2
    · rw [decodeStem_wide hc, isCut, if_neg (by rw [hc]; decide)]
      rfl
    · -- a character of one or three bytes is not of even length
      have hpos := c.utf8Size_pos
      have hsize : 2 < c.utf8Size := by omega
      have hcut : strSlice [c] 0 2 = .error .fault := by
        rw [strSlice_zero, splitAtByte_cut (by omega) hsize]
      rw [decodeStem_fault (by omega) hcut, isCut, if_pos (decide_eq_true hsize)]
  | case3 c d rest ih =>
    have hpos := c.utf8Size_pos
    have hposd := d.utf8Size_pos
    have hlength : byteLength (c :: d :: rest) = c.utf8Size + (d.utf8Size + byteLength rest) := by
      rw [byteLength_cons, byteLength_cons]
    rcases Nat.lt_trichotomy c.utf8Size 2 with hc | hc | hc
    · have hone : c.utf8Size = 1 := by omega
      by_cases hd : d.utf8Size = 1
      · have hrest : byteLength rest % 2 = 0 := by omega
        rw [decodeStem_pair hone hd, ih hrest, isCut, hexNumbers, hone, hd]
        cases fromStrRadix [c, d] with
        | none => rfl
        | some byte =>
          by_cases hcut : isCut rest = true
          · simp only [hcut]
            rfl
          · rw [Bool.not_eq_true] at hcut
            simp only [hcut]
            cases hexNumbers rest <;> rfl
      · have hwide : 1 < d.utf8Size := by omega
        have hcut : strSlice (c :: d :: rest) 0 2 = .error .fault := by
          rw [strSlice_zero, splitAtByte_cons (by omega), hone, splitAtByte_cut (by omega) hwide]
          rfl
        rw [decodeStem_fault (by omega) hcut, isCut, if_pos (by simp [hone, hwide])]
    · have hradix : fromStrRadix [c, d] = none := fromStrRadix_wide (by omega) [d]
      rw [decodeStem_wide hc, isCut, hexNumbers, hradix, hc]
      rfl
    · have hcut : strSlice (c :: d :: rest) 0 2 = .error .fault := by
        rw [strSlice_zero, splitAtByte_cut (by omega) hc]
      rw [decodeStem_fault (by omega) hcut, isCut, if_pos (by simp [hc])]

/-! ## Extensions -/

theorem rsplitFileAtDot_append {before after : FileName} (hdot : '.' ∉ after)
    (hbefore : before ≠ []) : rsplitFileAtDot (before ++ '.' :: after) = (some before, some after) := by
  have hreverse : (before ++ '.' :: after).reverse = after.reverse ++ '.' :: before.reverse := by
    simp
  have hall : ∀ c ∈ after.reverse, decide (c ≠ '.') = true := by
    intro c hc
    refine decide_eq_true ?_
    rintro rfl
    exact hdot (List.mem_reverse.mp hc)
  have hdrop : (after.reverse ++ '.' :: before.reverse).dropWhile (· ≠ '.')
      = '.' :: before.reverse := by
    rw [List.dropWhile_append_of_pos hall]
    rfl
  have htake : (after.reverse ++ '.' :: before.reverse).takeWhile (· ≠ '.') = after.reverse := by
    rw [List.takeWhile_append_of_pos hall]
    simp
  rw [rsplitFileAtDot, hreverse, hdrop, htake]
  simp [hbefore]

/-- An extension stands behind the last dot, and a stem before it. -/
theorem append_of_rsplitFileAtDot {file before after : FileName}
    (h : rsplitFileAtDot file = (some before, some after)) :
    before ≠ [] ∧ file = before ++ '.' :: after := by
  have hparts := List.takeWhile_append_dropWhile (p := (· ≠ '.')) (l := file.reverse)
  unfold rsplitFileAtDot at h
  cases hdrop : file.reverse.dropWhile (· ≠ '.') with
  | nil =>
    rw [hdrop] at h
    cases h
  | cons c rest =>
    rw [hdrop] at h hparts
    have hdot : c = '.' := by
      have hhead := List.head?_dropWhile_not (· ≠ '.') file.reverse
      rw [hdrop] at hhead
      simpa using hhead
    dsimp only at h
    by_cases hrest : rest = []
    · rw [if_pos hrest] at h
      cases h
    · rw [if_neg hrest] at h
      obtain ⟨hbefore, hafter⟩ := Prod.mk.inj h
      rw [← Option.some.inj hbefore, ← Option.some.inj hafter]
      have hreverse := congrArg List.reverse hparts
      rw [List.reverse_append, List.reverse_cons, List.reverse_reverse, hdot] at hreverse
      exact ⟨List.reverse_ne_nil_iff.mpr hrest, hreverse.symm.trans (List.append_assoc _ _ _)⟩

theorem pathExtension_entry (directory : FileName) (entry : EntryName) (extension : FileName) :
    pathExtension (join directory entry.name) = some extension ↔
      ∃ stem, rsplitFileAtDot entry.name = (some stem, some extension) := by
  rw [pathExtension, pathFileName_entry, Option.bind_some]
  rcases rsplitFileAtDot entry.name with ⟨before, after⟩
  cases before <;> simp

/-! ## Numbers of lower-case digits -/

theorem utf8Size_of_mem_lowerHexDigits {c : Char} (h : c ∈ lowerHexDigits) : c.utf8Size = 1 := by
  have hall : lowerHexDigits.all (fun c => c.utf8Size = 1) = true := by decide +kernel
  exact of_decide_eq_true (List.all_eq_true.mp hall c h)

theorem fromStrRadix_hexByte (byte : UInt8) : fromStrRadix (hexByte byte.toNat) = some byte := by
  have hall : ∀ n < 256, (fromStrRadix (hexByte n)).map UInt8.toNat = some n := by decide +kernel
  obtain ⟨b, hb, hn⟩ := Option.map_eq_some_iff.mp (hall byte.toNat byte.toNat_lt)
  rw [hb, UInt8.toNat_inj.mp hn]

theorem hexByte_of_fromStrRadix {c d : Char} (hc : c ∈ lowerHexDigits) (hd : d ∈ lowerHexDigits)
    {byte : UInt8} (h : fromStrRadix [c, d] = some byte) : [c, d] = hexByte byte.toNat := by
  have hall : lowerHexDigits.all (fun c => lowerHexDigits.all fun d =>
      (fromStrRadix [c, d]).map (fun b => hexByte b.toNat) = some [c, d]) = true := by
    decide +kernel
  have hfirst := List.all_eq_true.mp hall c hc
  have hpair := of_decide_eq_true (List.all_eq_true.mp hfirst d hd)
  rw [h] at hpair
  exact (Option.some.inj hpair).symm

/-- Numbers that are written are read. -/
theorem hexNumbers_hexText (bytes : List UInt8) : hexNumbers (hexText bytes) = some bytes := by
  induction bytes with
  | nil => rfl
  | cons byte bytes ih =>
    have hbyte := fromStrRadix_hexByte byte
    show ((fromStrRadix (hexByte byte.toNat)).bind fun byte =>
      (hexNumbers (hexText bytes)).map (byte :: ·)) = _
    rw [hbyte, ih]
    rfl

/-- Of lower-case digits, a text is what its numbers are written as. -/
theorem eq_hexText_of_hexNumbers {text : List Char} (hdigits : ∀ c ∈ text, c ∈ lowerHexDigits)
    {bytes : List UInt8} (h : hexNumbers text = some bytes) : text = hexText bytes := by
  induction text using hexNumbers.induct generalizing bytes with
  | case1 =>
    cases h
    rfl
  | case2 c => cases h
  | case3 c d rest ih =>
    obtain ⟨byte, hbyte, hmap⟩ := Option.bind_eq_some_iff.mp h
    obtain ⟨tail, htail, rfl⟩ := Option.map_eq_some_iff.mp hmap
    have hc := hdigits c List.mem_cons_self
    have hd := hdigits d (List.mem_cons_of_mem _ List.mem_cons_self)
    have hrest := ih (fun e he => hdigits e (List.mem_cons_of_mem _ (List.mem_cons_of_mem _ he)))
      htail
    show [c, d] ++ rest = hexByte byte.toNat ++ hexText tail
    rw [hexByte_of_fromStrRadix hc hd hbyte, hrest]

/-- Digits are never cut. -/
theorem isCut_eq_false {text : List Char} (hdigits : ∀ c ∈ text, c ∈ lowerHexDigits) :
    isCut text = false := by
  induction text using hexNumbers.induct with
  | case1 => rfl
  | case2 c =>
    rw [isCut, utf8Size_of_mem_lowerHexDigits (hdigits c List.mem_cons_self)]
    rfl
  | case3 c d rest ih =>
    have hc := utf8Size_of_mem_lowerHexDigits (hdigits c List.mem_cons_self)
    have hd := utf8Size_of_mem_lowerHexDigits
      (hdigits d (List.mem_cons_of_mem _ List.mem_cons_self))
    have hrest := ih (fun e he => hdigits e (List.mem_cons_of_mem _ (List.mem_cons_of_mem _ he)))
    rw [isCut, hc, hd, hrest, Bool.and_false]
    rfl

theorem byteLength_hexText (bytes : List UInt8) : byteLength (hexText bytes) % 2 = 0 := by
  induction bytes with
  | nil => rfl
  | cons byte bytes ih =>
    have hbyte := byte.toNat_lt
    have hhigh := utf8Size_of_mem_lowerHexDigits (digitChar_mem (show byte.toNat / 16 < 16 by omega))
    have hlow := utf8Size_of_mem_lowerHexDigits (digitChar_mem (show byte.toNat % 16 < 16 by omega))
    show byteLength ((byte.toNat / 16).digitChar :: (byte.toNat % 16).digitChar :: hexText bytes) % 2
      = 0
    rw [byteLength_cons, byteLength_cons, hhigh, hlow]
    omega

theorem fromUTF8?_eq_some {bytes : List UInt8} {jid : String} :
    String.fromUTF8? ⟨bytes.toArray⟩ = some jid ↔ jid.toUTF8.toList = bytes := by
  unfold String.fromUTF8?
  constructor
  · intro h
    split at h
    · rw [← Option.some.inj h, toList_byteArray]
      rfl
    · cases h
  · rintro rfl
    have hbytes : (⟨jid.toUTF8.toList.toArray⟩ : ByteArray) = jid.toUTF8 := by
      rw [toList_byteArray]
    rw [hbytes]
    exact dif_pos jid.isValidUTF8

/-! ## What a name is decoded to -/

/-- Only a stem of even length before `.img` is read. -/
theorem decodeAvatarName_cases (directory : FileName) (entry : EntryName) :
    decodeAvatarName directory entry = .ok none ∨
      ∃ stem, stem ≠ [] ∧ entry.name = stem ++ ".img".toList ∧ byteLength stem % 2 = 0 := by
  unfold decodeAvatarName
  by_cases himg : pathExtension (join directory entry.name) = some "img".toList
  · obtain ⟨stem, hsplit⟩ := (pathExtension_entry directory entry _).mp himg
    obtain ⟨hne, hname⟩ := append_of_rsplitFileAtDot hsplit
    have hstem : pathFileStem (join directory entry.name) = some stem := by
      rw [pathFileStem, pathFileName_entry, Option.bind_some, hsplit]
      rfl
    by_cases heven : byteLength stem % 2 = 0
    · exact Or.inr ⟨stem, hne, hname, heven⟩
    · left
      dsimp only
      rw [if_neg (not_not.mpr himg), hstem]
      exact if_pos heven
  · exact Or.inl (if_pos himg)

theorem decodeAvatarName_stem (directory : FileName) {entry : EntryName} {stem : FileName}
    (hne : stem ≠ []) (hname : entry.name = stem ++ ".img".toList)
    (heven : byteLength stem % 2 = 0) :
    decodeAvatarName directory entry = if isCut stem then .error .fault
      else .ok ((hexNumbers stem).bind fun bytes => String.fromUTF8? ⟨bytes.toArray⟩) := by
  have hsplit : rsplitFileAtDot entry.name = (some stem, some "img".toList) := by
    rw [hname]
    exact rsplitFileAtDot_append (by decide +kernel) hne
  have himg := (pathExtension_entry directory entry _).mpr ⟨stem, hsplit⟩
  have hstem : pathFileStem (join directory entry.name) = some stem := by
    rw [pathFileStem, pathFileName_entry, Option.bind_some, hsplit]
    rfl
  unfold decodeAvatarName
  dsimp only
  rw [if_neg (not_not.mpr himg), hstem]
  dsimp only
  rw [if_neg (not_not.mpr heven), decodeStem_spec stem heven]
  by_cases hcut : isCut stem = true
  · rw [if_pos hcut, if_pos hcut]
  · rw [if_neg hcut, if_neg hcut]
    cases hexNumbers stem <;> rfl

/-- The name of an avatar is read as its JID, unless the JID is empty: the dot of `.img` begins no
extension. -/
theorem decodeAvatarName_avatarName (directory : FileName) (jid : String) :
    decodeAvatarName directory (avatarName jid) = .ok (some jid) ↔ jid ≠ "" := by
  constructor
  · rintro h rfl
    rcases decodeAvatarName_cases directory (avatarName "") with hnone | ⟨stem, hne, hname, -⟩
    · rw [hnone] at h
      cases h
    · have hempty : hexKey "" ++ ".img".toList = [] ++ ".img".toList := by
        have hbytes : "".toUTF8.toList = [] := by
          rw [toList_toUTF8]
          rfl
        rw [hexKey, hbytes]
        rfl
      exact hne (List.append_cancel_right (hname.symm.trans hempty))
  · intro hjid
    have hne : hexKey jid ≠ [] := by
      intro hnil
      have hempty : hexKey jid = hexKey "" := by
        rw [hnil, hexKey, toList_toUTF8]
        rfl
      exact hjid (hexKey_inj hempty)
    have hnotCut : isCut (hexKey jid) = false := isCut_eq_false fun _ => mem_hexKey
    rw [decodeAvatarName_stem directory hne rfl (byteLength_hexText _), hnotCut,
      if_neg Bool.false_ne_true, hexKey, hexNumbers_hexText, Option.bind_some,
      fromUTF8?_eq_some.mpr rfl]

/-- No slice of the stem ends within a character, and what is read as a JID is written in
lower-case digits. -/
def NameAdmitted (entry : EntryName) : Prop :=
  ∀ stem, entry.name = stem ++ ".img".toList → byteLength stem % 2 = 0 →
    isCut stem = false ∧
      ∀ jid : String, hexNumbers stem = some jid.toUTF8.toList → ∀ c ∈ stem, c ∈ lowerHexDigits

/-- The decoder does not fault, and what it reads has been written. -/
def DecodesWritten (directory : FileName) (entry : EntryName) : Prop :=
  decodeAvatarName directory entry ≠ .error .fault ∧
    ∀ jid, decodeAvatarName directory entry = .ok (some jid) →
      ∃ written, entry.name = (avatarName written).name

theorem decodesWritten_iff (directory : FileName) (entry : EntryName) :
    DecodesWritten directory entry ↔ NameAdmitted entry := by
  constructor
  · intro h stem hname heven
    by_cases hne : stem = []
    · rw [hne]
      exact ⟨rfl, fun _ _ c hc => absurd hc List.not_mem_nil⟩
    have hdecode := decodeAvatarName_stem directory hne hname heven
    have hnotCut : isCut stem = false := by
      by_contra hcut
      rw [Bool.not_eq_false] at hcut
      rw [if_pos hcut] at hdecode
      exact h.1 hdecode
    refine ⟨hnotCut, ?_⟩
    intro jid hnumbers c hc
    rw [hnotCut, if_neg Bool.false_ne_true, hnumbers, Option.bind_some,
      fromUTF8?_eq_some.mpr rfl] at hdecode
    obtain ⟨written, hwritten⟩ := h.2 jid hdecode
    have hstem : stem = hexKey written := List.append_cancel_right (hname.symm.trans hwritten)
    rw [hstem] at hc
    exact mem_hexKey hc
  · intro h
    rcases decodeAvatarName_cases directory entry with hnone | ⟨stem, hne, hname, heven⟩
    · rw [DecodesWritten, hnone]
      exact ⟨fun hfault => (by cases hfault), fun jid hjid => (by cases hjid)⟩
    obtain ⟨hnotCut, hdigits⟩ := h stem hname heven
    have hdecode := decodeAvatarName_stem directory hne hname heven
    rw [hnotCut, if_neg Bool.false_ne_true] at hdecode
    rw [DecodesWritten, hdecode]
    refine ⟨fun hfault => (by cases hfault), ?_⟩
    intro jid hjid
    obtain ⟨bytes, hnumbers, hbytes⟩ := Option.bind_eq_some_iff.mp (Except.ok.inj hjid)
    have hjidBytes := fromUTF8?_eq_some.mp hbytes
    have hwritten := eq_hexText_of_hexNumbers (hdigits jid (by rw [hnumbers, hjidBytes])) hnumbers
    refine ⟨jid, ?_⟩
    show entry.name = hexText jid.toUTF8.toList ++ ".img".toList
    rw [hname, hjidBytes, ← hwritten]

/-! ## The shell's names -/

/-- A byte is written alike on both sides. -/
theorem lastUnits_hexUnit (byte : UInt8) :
    JsString.lastUnits 2 (js "0" ++ hexUnit byte.toNat.toUInt16)
      = (hexByte byte.toNat).flatMap encodeUtf16 := by
  have hall : ∀ n < 256, JsString.lastUnits 2 (js "0" ++ hexUnit n.toUInt16)
      = (hexByte n).flatMap encodeUtf16 := by decide +kernel
  exact hall byte.toNat byte.toNat_lt

theorem service_hexKey (jid : String) :
    Service.hexKey (js jid) = some (js (String.ofList (hexKey jid))) := by
  obtain ⟨encoded, hencoded, hunits⟩ :=
    Option.map_eq_some_iff.mp (JsString.unescape_encodeURIComponent jid)
  have hwritten : js (String.ofList (hexKey jid))
      = jid.toUTF8.toList.flatMap fun byte => (hexByte byte.toNat).flatMap encodeUtf16 := by
    rw [js, String.toList_ofList, hexKey, hexText, List.flatMap_assoc]
  rw [Service.hexKey, hencoded, Option.map_some, hunits, hwritten, JsString.byteUnits,
    List.flatMap_map]
  simp only [lastUnits_hexUnit]

/-! ## The codec -/

/-- Both sides write the name of an avatar alike, and reading it back gives its JID, unless the JID
is empty. Other names are passed over, unless a slice of two bytes cuts a character, or a plus sign
or an upper-case digit stands in a number. -/
theorem avatarCodec_iff (directory : FileName) (jid : String) (entry : EntryName) :
    (decodeAvatarName directory (avatarName jid) = .ok (some jid) ↔ jid ≠ "") ∧
    (DecodesWritten directory entry ↔ NameAdmitted entry) ∧
    Service.hexKey (js jid) = some (js (String.ofList (hexKey jid))) :=
  ⟨decodeAvatarName_avatarName directory jid, decodesWritten_iff directory entry,
    service_hexKey jid⟩

/-- The first slice of `aéb` ends within the second character. -/
def accentedEntry : EntryName where
  name := "aéb.img".toList
  ne_nil := by decide +kernel
  ne_dot := by decide +kernel
  ne_dotdot := by decide +kernel
  separator := by decide +kernel

/-- The name is read as `J`, whose name is `4a.img`. -/
def upperCaseEntry : EntryName where
  name := "4A.img".toList
  ne_nil := by decide +kernel
  ne_dot := by decide +kernel
  ne_dotdot := by decide +kernel
  separator := by decide +kernel

theorem not_decodesWritten_accented :
    ¬DecodesWritten "avatars".toList accentedEntry ∧
      ¬DecodesWritten "avatars".toList upperCaseEntry := by
  rw [decodesWritten_iff, decodesWritten_iff]
  constructor
  · intro h
    have haccented : accentedEntry.name = "aéb".toList ++ ".img".toList := by decide +kernel
    exact absurd (h _ haccented (by decide +kernel)).1 (by decide +kernel)
  · intro h
    have hupper : upperCaseEntry.name = "4A".toList ++ ".img".toList := by decide +kernel
    have hbytes : "J".toUTF8.toList = [0x4A] := by
      rw [toList_toUTF8]
      decide +kernel
    have hnumbers : hexNumbers "4A".toList = some "J".toUTF8.toList := by
      rw [hbytes]
      decide +kernel
    exact absurd ((h _ hupper (by decide +kernel)).2 "J" hnumbers 'A' (by decide +kernel))
      (by decide +kernel)

end OmarchyWhatsapp
