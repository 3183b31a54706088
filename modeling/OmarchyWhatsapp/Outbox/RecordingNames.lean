import OmarchyWhatsapp.Media.CachePaths
import OmarchyWhatsapp.Outbox.VoiceOutbox
import OmarchyWhatsapp.Text.CharClass
import OmarchyWhatsapp.Text.Utf16

/-!
# The names of recordings

The shell makes up the ID of a recording and checks the IDs that the daemon sends. The daemon names
the files of a recording after its ID and reads the ID back from the entries of the directory.
-/

namespace OmarchyWhatsapp

open Text Text.JsString

/-! ## IDs -/

/-- `[A-Za-z0-9]`. -/
def alphanumerics : JsString := unitRange 0x41 0x5A ++ unitRange 0x61 0x7A ++ unitRange 0x30 0x39

/-- `[A-Za-z0-9-]`. -/
def idUnits : JsString := alphanumerics ++ [0x2D]

/-- `/^[A-Za-z0-9](?:[A-Za-z0-9-]*[A-Za-z0-9])?$/`. -/
def recordingIdPattern : RegularExpression UInt16 :=
  charClass alphanumerics * optionally ((charClass idUnits).star * charClass alphanumerics)

/-- `recordingIdIsValid` of the shell. -/
def Service.recordingIdIsValid (value : JsString) : Bool :=
  0 < value.length && value.length ≤ 80 && recordingIdPattern.rmatch value

/-- What an ID is: up to 80 letters, digits and hyphens, none of which stand at an end. -/
structure IsRecordingId (id : List Char) : Prop where
  chars : ∀ c ∈ id, c.isAlphanum = true ∨ c = '-'
  nonempty : 1 ≤ id.length
  short : id.length ≤ 80
  first : id.head? ≠ some '-'
  last : id.getLast? ≠ some '-'

/-! ## Files -/

/-- `recording_path`. -/
def recordingPath (outboxDir : FileName) (recordingId : String) : Except String FileName :=
  if recordingIdIsValid recordingId = false then .error "voice recording ID is invalid"
  else .ok (join outboxDir ("voice-".toList ++ recordingId.toList ++ ".ogg".toList))

/-- `job_path`. -/
def jobPath (outboxDir : FileName) (recordingId : String) : Except String FileName :=
  if recordingIdIsValid recordingId = false then .error "voice recording ID is invalid"
  else .ok (join outboxDir ("voice-".toList ++ recordingId.toList ++ ".json".toList))

/-- `outbox_name`. -/
def outboxName (name : FileName) : Option (String × String) :=
  (name.dropPrefix? "voice-".toList).bind fun value =>
    ["ogg", "json"].findSome? fun extension =>
      ((value.dropSuffix? ('.' :: extension.toList)).map String.ofList).bind fun recordingId =>
        if recordingIdIsValid recordingId then some (recordingId, extension) else none

/-! ## The daemon's check -/

theorem utf8ByteSize_eq (s : String) : s.utf8ByteSize = byteLength s.toList := by
  have hbytes : s.utf8ByteSize = s.toUTF8.toList.length := by
    rw [toList_byteArray]
    rfl
  rw [hbytes, toList_toUTF8, List.length_flatMap, byteLength]
  simp only [String.length_utf8EncodeChar]

theorem toNat_lt_of_isAlphanum {c : Char} (h : c.isAlphanum = true ∨ c = '-') :
    c.toNat < 0x80 := by
  have hbound {limit : UInt32} (hlimit : limit.toNat < 0x80) (hc : c.val ≤ limit) :
      c.toNat < 0x80 := Nat.lt_of_le_of_lt (UInt32.le_iff_toNat_le.mp hc) hlimit
  rcases h with h | rfl
  · have hclasses : (c.isUpper || c.isLower || c.isDigit) = true := h
    rw [Bool.or_eq_true, Bool.or_eq_true] at hclasses
    rcases hclasses with (hupper | hlower) | hdigit
    · exact hbound (by decide) (of_decide_eq_true hupper).2
    · exact hbound (by decide) (of_decide_eq_true (Bool.and_eq_true_iff.mp hlower).2)
    · exact hbound (by decide) (of_decide_eq_true (Bool.and_eq_true_iff.mp hdigit).2)
  · decide

theorem byteLength_of_ascii {text : List Char} (h : ∀ c ∈ text, c.toNat < 0x80) :
    byteLength text = text.length := by
  induction text with
  | nil => rfl
  | cons c text ih =>
    have hone : c.utf8Size = 1 := Char.utf8Size_eq_one_iff.mpr
      (UInt32.le_iff_toNat_le.mpr (Nat.le_of_lt_succ (h c List.mem_cons_self)))
    have hrest := ih (fun d hd => h d (List.mem_cons_of_mem _ hd))
    rw [byteLength, List.map_cons, List.sum_cons, hone, ← byteLength, hrest, List.length_cons]
    omega

theorem recordingIdIsValid_iff (id : String) :
    recordingIdIsValid id = true ↔ IsRecordingId id.toList := by
  simp only [recordingIdIsValid, Bool.and_eq_true, decide_eq_true_eq, List.all_eq_true,
    Bool.or_eq_true, utf8ByteSize_eq]
  constructor
  · rintro ⟨⟨⟨⟨hlow, hhigh⟩, hfirst⟩, hlast⟩, hchars⟩
    have hlength := byteLength_of_ascii fun c hc => toNat_lt_of_isAlphanum (hchars c hc)
    exact ⟨hchars, by omega, by omega, hfirst, hlast⟩
  · intro h
    have hlength := byteLength_of_ascii fun c hc => toNat_lt_of_isAlphanum (h.chars c hc)
    have hlow := h.nonempty
    have hhigh := h.short
    exact ⟨⟨⟨⟨by omega, by omega⟩, h.first⟩, h.last⟩, h.chars⟩

/-! ## The shell's check -/

/-- The pattern looks at the ends of a text and at each of its units. -/
theorem rmatch_recordingIdPattern (value : JsString) :
    recordingIdPattern.rmatch value = true ↔
      (∀ c ∈ value, c ∈ idUnits) ∧ (∃ c ∈ alphanumerics, value.head? = some c) ∧
        ∃ c ∈ alphanumerics, value.getLast? = some c := by
  have hsub : ∀ c ∈ alphanumerics, c ∈ idUnits := fun c hc => List.mem_append_left _ hc
  rw [RegularExpression.rmatch_iff_matches', recordingIdPattern, RegularExpression.matches'_mul,
    Language.mem_mul]
  constructor
  · rintro ⟨first, hfirst, rest, hrest, rfl⟩
    obtain ⟨c, hc, rfl⟩ := mem_charClass.mp hfirst
    rcases mem_optionally.mp hrest with rfl | hrest
    · refine ⟨?_, ⟨c, hc, rfl⟩, ⟨c, hc, rfl⟩⟩
      intro d hd
      rw [List.append_nil, List.mem_singleton] at hd
      exact hsub d (hd ▸ hc)
    · rw [RegularExpression.matches'_mul, Language.mem_mul] at hrest
      obtain ⟨middle, hmiddle, last, hlast, rfl⟩ := hrest
      obtain ⟨d, hd, rfl⟩ := mem_charClass.mp hlast
      have hunits := mem_star_charClass.mp hmiddle
      refine ⟨?_, ⟨c, hc, rfl⟩, ⟨d, hd, ?_⟩⟩
      · intro e he
        rcases List.mem_append.mp he with he | he
        · exact hsub e (List.mem_singleton.mp he ▸ hc)
        rcases List.mem_append.mp he with he | he
        · exact hunits e he
        · exact hsub e (List.mem_singleton.mp he ▸ hd)
      · rw [← List.append_assoc, List.getLast?_concat]
  · rintro ⟨hunits, ⟨c, hc, hhead⟩, ⟨d, hd, hlast⟩⟩
    obtain ⟨rest, rfl⟩ := List.head?_eq_some_iff.mp hhead
    refine ⟨[c], mem_charClass.mpr ⟨c, hc, rfl⟩, rest, mem_optionally.mpr ?_, rfl⟩
    by_cases hrest : rest = []
    · exact Or.inl hrest
    · right
      have hend : rest.getLast? = some d := by
        rw [← hlast, List.getLast?_cons_of_ne_nil hrest]
      obtain ⟨middle, rfl⟩ := List.getLast?_eq_some_iff.mp hend
      rw [RegularExpression.matches'_mul, Language.mem_mul]
      refine ⟨middle, mem_star_charClass.mpr ?_, [d], mem_charClass.mpr ⟨d, hd, rfl⟩, rfl⟩
      exact fun e he => hunits e (List.mem_cons_of_mem _ (List.mem_append_left _ he))

/-! ### Characters and units -/

theorem encodeUtf16_of_ascii {c : Char} (h : c.toNat < 0x80) : encodeUtf16 c = [unitOf c] :=
  if_pos (by omega)

theorem js_of_ascii {s : String} (h : ∀ c ∈ s.toList, c.toNat < 0x80) :
    js s = s.toList.map unitOf := by
  rw [js]
  generalize s.toList = text at h
  induction text with
  | nil => rfl
  | cons c text ih =>
    rw [List.flatMap_cons, List.map_cons, encodeUtf16_of_ascii (h c List.mem_cons_self),
      ih (fun d hd => h d (List.mem_cons_of_mem _ hd))]
    rfl

theorem toNat_lt_of_mem_idUnits {u : UInt16} (h : u ∈ idUnits) : u.toNat < 0x80 := by
  have hall : idUnits.all (fun u => u.toNat < 0x80) = true := by decide +kernel
  exact of_decide_eq_true (List.all_eq_true.mp hall u h)

/-- Units above ASCII come from characters above ASCII. -/
theorem ascii_of_units {c : Char} (h : ∀ u ∈ encodeUtf16 c, u.toNat < 0x80) : c.toNat < 0x80 := by
  by_contra hc
  have hvalid := toNat_char c
  unfold encodeUtf16 at h
  by_cases hone : c.toNat < 0x10000
  · rw [if_pos hone] at h
    exact hc (toNat_unit hone ▸ h _ List.mem_cons_self)
  · rw [if_neg hone] at h
    have hunit := h _ List.mem_cons_self
    rw [toNat_unit (by omega)] at hunit
    omega

theorem unitOf_mem_alphanumerics {c : Char} (h : c.toNat < 0x80) :
    unitOf c ∈ alphanumerics ↔ c.isAlphanum = true := by
  have hall : ∀ n < 0x80, n.toUInt16 ∈ alphanumerics ↔ (Char.ofNat n).isAlphanum = true := by
    decide +kernel
  have hc := hall c.toNat h
  rwa [Char.ofNat_toNat] at hc

theorem unitOf_mem_idUnits {c : Char} (h : c.toNat < 0x80) :
    unitOf c ∈ idUnits ↔ c.isAlphanum = true ∨ c = '-' := by
  have hdash : ∀ n < 0x80, n.toUInt16 ∈ [0x2D] ↔ Char.ofNat n = '-' := by decide +kernel
  have hc := hdash c.toNat h
  rw [Char.ofNat_toNat] at hc
  rw [idUnits, List.mem_append, unitOf_mem_alphanumerics h]
  exact or_congr_right hc

/-- The units of a text are those of IDs if its characters are. -/
theorem units_js_iff (s : String) :
    (∀ u ∈ js s, u ∈ idUnits) ↔ ∀ c ∈ s.toList, c.isAlphanum = true ∨ c = '-' := by
  rw [js, List.forall_mem_flatMap]
  refine forall₂_congr fun c _ => ?_
  constructor
  · intro h
    have hascii := ascii_of_units fun u hu => toNat_lt_of_mem_idUnits (h u hu)
    rw [encodeUtf16_of_ascii hascii, List.forall_mem_singleton] at h
    exact (unitOf_mem_idUnits hascii).mp h
  · intro h
    have hascii := toNat_lt_of_isAlphanum h
    rw [encodeUtf16_of_ascii hascii, List.forall_mem_singleton]
    exact (unitOf_mem_idUnits hascii).mpr h

/-- A letter or a digit stands at an end if no hyphen does. -/
theorem exists_alphanumeric_iff (last : Option Char)
    (h : ∀ c, last = some c → c.isAlphanum = true ∨ c = '-') (hsome : last.isSome = true) :
    (∃ u ∈ alphanumerics, last.map unitOf = some u) ↔ last ≠ some '-' := by
  obtain ⟨c, rfl⟩ := Option.isSome_iff_exists.mp hsome
  have hc := h c rfl
  have hascii := toNat_lt_of_isAlphanum hc
  rw [Option.map_some]
  constructor
  · rintro ⟨u, hu, hunit⟩ hdash
    rw [← Option.some.inj hunit, Option.some.inj hdash] at hu
    exact absurd hu (by decide +kernel)
  · intro hdash
    have halnum := hc.resolve_right fun hc => hdash (by rw [hc])
    exact ⟨unitOf c, (unitOf_mem_alphanumerics hascii).mpr halnum, rfl⟩

theorem service_recordingIdIsValid_iff (id : String) :
    Service.recordingIdIsValid (js id) = true ↔ IsRecordingId id.toList := by
  rw [Service.recordingIdIsValid, Bool.and_eq_true, Bool.and_eq_true, decide_eq_true_eq,
    decide_eq_true_eq, rmatch_recordingIdPattern, units_js_iff]
  -- either side asks for the characters, and of such characters the units are one each
  by_cases hchars : ∀ c ∈ id.toList, c.isAlphanum = true ∨ c = '-'
  · have hjs := js_of_ascii fun c hc => toNat_lt_of_isAlphanum (hchars c hc)
    rw [hjs, List.length_map, List.head?_map, List.getLast?_map]
    by_cases hne : id.toList = []
    · rw [hne]
      exact ⟨fun h => absurd h.1.1 (Nat.lt_irrefl 0), fun h => absurd h.nonempty (by decide)⟩
    have hfirst := exists_alphanumeric_iff id.toList.head?
      (fun c hc => hchars c (List.mem_of_head? hc)) (List.isSome_head?.mpr hne)
    have hlast := exists_alphanumeric_iff id.toList.getLast?
      (fun c hc => hchars c (List.mem_of_getLast? hc)) (by rw [List.getLast?_eq_some_getLast hne]; rfl)
    rw [hfirst, hlast]
    exact ⟨fun h => ⟨hchars, h.1.1, h.1.2, h.2.2.1, h.2.2.2⟩,
      fun h => ⟨⟨h.nonempty, h.short⟩, hchars, h.first, h.last⟩⟩
  · exact ⟨fun h => absurd h.2.1 hchars, fun h => absurd h.chars hchars⟩

/-- Both sides accept the same strings. -/
theorem service_recordingIdIsValid (id : String) :
    Service.recordingIdIsValid (js id) = recordingIdIsValid id := by
  rw [Bool.eq_iff_iff, service_recordingIdIsValid_iff, recordingIdIsValid_iff]

/-- A surrogate that stands alone is in no ID. -/
theorem exists_js_of_recordingIdIsValid {value : JsString}
    (h : Service.recordingIdIsValid value = true) :
    ∃ id, recordingIdIsValid id = true ∧ value = js id := by
  have hmatch : recordingIdPattern.rmatch value = true := (Bool.and_eq_true_iff.mp h).2
  have hunits := ((rmatch_recordingIdPattern value).mp hmatch).1
  have hascii : ∀ u ∈ value, u.toNat < 0x80 := fun u hu => toNat_lt_of_mem_idUnits (hunits u hu)
  have hplain : ∀ u ∈ value, isPlain u = true := by
    intro u hu
    have hle : u ≤ 0x7F := UInt16.le_iff_toNat_le.mpr (Nat.le_of_lt_succ (hascii u hu))
    obtain ⟨hhigh, hlow⟩ := not_surrogate_of_le hle (by decide)
    rw [isPlain, hhigh, hlow]
    rfl
  have hjs : js (String.ofList (value.map charOf)) = value := by
    have hchars : ∀ c ∈ (String.ofList (value.map charOf)).toList, c.toNat < 0x80 := by
      intro c hc
      rw [String.toList_ofList] at hc
      obtain ⟨u, hu, rfl⟩ := List.mem_map.mp hc
      rw [toNat_charOf (hplain u hu)]
      exact hascii u hu
    rw [js_of_ascii hchars, String.toList_ofList, List.map_map]
    exact (List.map_congr_left fun u hu => unitOf_charOf (hplain u hu)).trans (List.map_id _)
  refine ⟨String.ofList (value.map charOf), ?_, hjs.symm⟩
  rw [← service_recordingIdIsValid, hjs]
  exact h

/-! ## The files of a recording -/

/-- The name of a file for an ID that is valid. -/
def recordingEntry (recordingId kind : String) (hid : recordingIdIsValid recordingId = true)
    (hkind : kind ∈ ["ogg", "json"]) : EntryName where
  name := "voice-".toList ++ recordingId.toList ++ '.' :: kind.toList
  ne_nil := by simp
  ne_dot h := by cases h
  ne_dotdot h := by cases h
  separator h := by
    have hchars := ((recordingIdIsValid_iff recordingId).mp hid).chars
    rcases List.mem_append.mp h with h | h
    · rcases List.mem_append.mp h with h | h
      · exact absurd h (by decide)
      · exact absurd (hchars _ h) (by decide)
    · rcases List.mem_pair.mp hkind with rfl | rfl
      · exact absurd h (by decide)
      · exact absurd h (by decide)

theorem dropSuffix?_append (text suffix : List Char) :
    (text ++ suffix).dropSuffix? suffix = some text :=
  List.dropSuffix?_eq_some_iff.mpr ⟨suffix, rfl, BEq.refl _⟩

/-- An entry is recognized if it is named after a valid ID. -/
theorem outboxName_eq_some_iff {name : FileName} {recordingId kind : String} :
    outboxName name = some (recordingId, kind) ↔
      ∃ hid hkind, name = (recordingEntry recordingId kind hid hkind).name := by
  constructor
  · intro h
    obtain ⟨value, hvalue, hfind⟩ := Option.bind_eq_some_iff.mp h
    obtain ⟨start, hname, hstart⟩ := List.dropPrefix?_eq_some_iff.mp hvalue
    obtain ⟨extension, hmem, hread⟩ := List.exists_of_findSome?_eq_some hfind
    obtain ⟨id, hid, hvalid⟩ := Option.bind_eq_some_iff.mp hread
    obtain ⟨text, htext, rfl⟩ := Option.map_eq_some_iff.mp hid
    obtain ⟨suffix, hsplit, hsuffix⟩ := List.dropSuffix?_eq_some_iff.mp htext
    by_cases hok : recordingIdIsValid (String.ofList text) = true
    · rw [if_pos hok] at hvalid
      obtain ⟨rfl, rfl⟩ := Prod.mk.inj (Option.some.inj hvalid)
      refine ⟨hok, hmem, ?_⟩
      have hchars : (String.ofList text).toList = text := String.toList_ofList
      show name = "voice-".toList ++ (String.ofList text).toList ++ '.' :: extension.toList
      rw [hchars, List.append_assoc, ← eq_of_beq hsuffix, ← hsplit,
        ← eq_of_beq hstart]
      exact hname
    · rw [if_neg hok] at hvalid
      cases hvalid
  · rintro ⟨hid, hkind, rfl⟩
    have hvalue : (recordingEntry recordingId kind hid hkind).name.dropPrefix? "voice-".toList
        = some (recordingId.toList ++ '.' :: kind.toList) :=
      List.dropPrefix?_eq_some_iff.mpr ⟨_, List.append_assoc _ _ _, BEq.refl _⟩
    have hread (extension : String) :
        (((recordingId.toList ++ '.' :: extension.toList).dropSuffix?
          ('.' :: extension.toList)).map String.ofList).bind (fun id =>
            if recordingIdIsValid id then some (id, extension) else none)
          = some (recordingId, extension) := by
      rw [dropSuffix?_append, Option.map_some, Option.bind_some, String.ofList_toList, if_pos hid]
    rw [outboxName, hvalue, Option.bind_some]
    rcases List.mem_pair.mp hkind with rfl | rfl
    · rw [List.findSome?_cons, hread]
    · -- what ends in `.json` does not end in `.ogg`
      have hogg : (recordingId.toList ++ '.' :: "json".toList).dropSuffix? ('.' :: "ogg".toList)
          = none := by
        rw [Option.eq_none_iff_forall_not_mem]
        intro text htext
        obtain ⟨suffix, hsplit, hsuffix⟩ := List.dropSuffix?_eq_some_iff.mp htext
        rw [eq_of_beq hsuffix] at hsplit
        have hlast := congrArg List.getLast? hsplit
        rw [List.getLast?_append, List.getLast?_append] at hlast
        exact absurd (show some 'n' = some 'g' from hlast) (by decide)
      rw [List.findSome?_cons, hogg, List.findSome?_cons, hread]
      rfl

/-- A file of an ID and a kind, by its name. -/
def Names (name : FileName) (recordingId kind : String) : Prop :=
  ∃ outboxDir path, pathFileName path = some name ∧
    (kind = "ogg" ∧ recordingPath outboxDir recordingId = .ok path ∨
      kind = "json" ∧ jobPath outboxDir recordingId = .ok path)

theorem recordingPath_eq (outboxDir : FileName) {recordingId : String}
    (hid : recordingIdIsValid recordingId = true) :
    recordingPath outboxDir recordingId
      = .ok (join outboxDir (recordingEntry recordingId "ogg" hid (by decide)).name) :=
  if_neg (by rw [hid]; decide)

theorem jobPath_eq (outboxDir : FileName) {recordingId : String}
    (hid : recordingIdIsValid recordingId = true) :
    jobPath outboxDir recordingId
      = .ok (join outboxDir (recordingEntry recordingId "json" hid (by decide)).name) :=
  if_neg (by rw [hid]; decide)

/-- The name of a file tells the ID and the kind. -/
theorem outboxName_of_names {name : FileName} {recordingId kind : String}
    (h : Names name recordingId kind) : outboxName name = some (recordingId, kind) := by
  obtain ⟨outboxDir, path, hname, hpath⟩ := h
  have hid : recordingIdIsValid recordingId = true := by
    by_contra hid
    rw [Bool.not_eq_true] at hid
    rcases hpath with ⟨-, hpath⟩ | ⟨-, hpath⟩
    · rw [recordingPath, if_pos hid] at hpath
      cases hpath
    · rw [jobPath, if_pos hid] at hpath
      cases hpath
  rcases hpath with ⟨rfl, hpath⟩ | ⟨rfl, hpath⟩
  · rw [recordingPath_eq outboxDir hid] at hpath
    rw [← Except.ok.inj hpath, pathFileName_entry] at hname
    exact outboxName_eq_some_iff.mpr ⟨hid, by decide, (Option.some.inj hname).symm⟩
  · rw [jobPath_eq outboxDir hid] at hpath
    rw [← Except.ok.inj hpath, pathFileName_entry] at hname
    exact outboxName_eq_some_iff.mpr ⟨hid, by decide, (Option.some.inj hname).symm⟩

/-- The shell and the daemon accept the same IDs, and the daemon reads the ID and the kind of a file
back from the name that it gave to it. -/
theorem recordingIds_agree :
    (∀ id : String, Service.recordingIdIsValid (js id) = recordingIdIsValid id) ∧
    (∀ value : JsString, Service.recordingIdIsValid value = true →
      ∃ id, recordingIdIsValid id = true ∧ value = js id) ∧
    (∀ (outboxDir : FileName) (id : String), recordingIdIsValid id = true →
      ∃ recording job, recordingPath outboxDir id = .ok recording ∧ jobPath outboxDir id = .ok job ∧
        (pathFileName recording).bind outboxName = some (id, "ogg") ∧
        (pathFileName job).bind outboxName = some (id, "json")) ∧
    ∀ (name : FileName) (id id' kind kind' : String), Names name id kind → Names name id' kind' →
      id = id' ∧ kind = kind' := by
  refine ⟨service_recordingIdIsValid, fun value => exists_js_of_recordingIdIsValid, ?_, ?_⟩
  · intro outboxDir id hid
    refine ⟨_, _, recordingPath_eq outboxDir hid, jobPath_eq outboxDir hid, ?_, ?_⟩
    · rw [pathFileName_entry, Option.bind_some]
      exact outboxName_eq_some_iff.mpr ⟨hid, by decide, rfl⟩
    · rw [pathFileName_entry, Option.bind_some]
      exact outboxName_eq_some_iff.mpr ⟨hid, by decide, rfl⟩
  · intro name id id' kind kind' h h'
    have hboth := (outboxName_of_names h).symm.trans (outboxName_of_names h')
    exact Prod.mk.inj (Option.some.inj hboth)

/-- `take-1` is an ID on both sides, and no job has the name of its recording. -/
theorem recordingIds_agree_take :
    (∃ id, recordingIdIsValid id = true ∧ js "take-1" = js id) ∧
      (∃ recording, recordingPath "outbox".toList "take-1" = .ok recording ∧
        (pathFileName recording).bind outboxName = some ("take-1", "ogg")) ∧
      ¬Names "voice-take-1.ogg".toList "take-1" "json" := by
  refine ⟨recordingIds_agree.2.1 (js "take-1") (by decide +kernel), ?_, ?_⟩
  · obtain ⟨recording, -, hpath, -, hname, -⟩ :=
      recordingIds_agree.2.2.1 "outbox".toList "take-1" (by decide +kernel)
    exact ⟨recording, hpath, hname⟩
  · intro h
    have hogg : Names "voice-take-1.ogg".toList "take-1" "ogg" :=
      ⟨"outbox".toList, "outbox/voice-take-1.ogg".toList, by decide +kernel, Or.inl ⟨rfl, rfl⟩⟩
    exact absurd (recordingIds_agree.2.2.2 _ _ _ _ _ hogg h).2 (by decide)

end OmarchyWhatsapp
