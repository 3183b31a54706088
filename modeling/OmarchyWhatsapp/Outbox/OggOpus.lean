import OmarchyWhatsapp.Outbox.VoiceOutbox
import OmarchyWhatsapp.Relational.Run
import OmarchyWhatsapp.Relational.Slices

/-!
# The duration of a recording

A recording is Ogg pages, one after the other: 27 bytes of header, the table of the segment lengths,
and the segments. The first page holds the Opus header. The duration is the last granule position
that is set, less the pre-skip of that header, at 48 samples a millisecond.
-/

namespace OmarchyWhatsapp

open Relational

/-! ## The parser -/

/-- `b"OggS"`. -/
def oggCapture : List UInt8 := [0x4F, 0x67, 0x67, 0x53]

/-- `b"OpusHead"`. -/
def opusMagic : List UInt8 := [0x4F, 0x70, 0x75, 0x73, 0x48, 0x65, 0x61, 0x64]

/-- The granule position of a page on which no packet ends: `u64::MAX`. -/
def noGranule : ℕ := 2 ^ 64 - 1

/-- The variables of the loop. -/
structure OggScan where
  offset : ℕ := 0
  streamSerial : Option ℕ := none
  preSkip : Option ℕ := none
  lastGranule : Option ℕ := none
  sequence : Option ℕ := none
deriving DecidableEq, Repr

/-- The checks on the page's place in its stream; on the first page, those on the Opus header. -/
def OggScan.enter (s : OggScan) (serial pageSequence : ℕ) (body : List UInt8) :
    Except Halt OggScan :=
  match s.streamSerial with
  | some expected => do
    bailIf (serial ≠ expected ∨
        s.sequence.any (fun value => checkedAdd 32 value 1 ≠ some pageSequence) = true)
      "voice recording has an inconsistent Ogg stream"
    return s
  | none => do
    bailIf (body.length < 19 ∨ opusMagic.isPrefixOf body = false)
      "voice recording does not begin with an Opus header"
    -- both bytes are there, so reading the second before the first is checked changes nothing
    let version ← atIndex body 8
    let channels ← atIndex body 9
    bailIf (version ≠ 1 ∨ channels = 0) "voice recording uses an unsupported Opus header"
    let low ← atIndex body 10
    let high ← atIndex body 11
    return { s with streamSerial := some serial, preSkip := some (leNat [low, high]) }

/-- One turn of the loop. -/
def OggScan.page (bytes : List UInt8) (s : OggScan) : Except Halt OggScan := do
  let header ← context (getRange bytes s.offset (min (s.offset + 27) (2 ^ 64 - 1)))
    "voice recording has a truncated Ogg header"
  let capture ← atRange header 0 4
  let version ← atIndex header 4
  bailIf (capture ≠ oggCapture ∨ version ≠ 0) "voice recording is not a supported Ogg stream"
  let segmentCount := (← atIndex header 26).toNat
  let tableStart ← usizeAdd s.offset 27
  let tableEnd ← usizeAdd tableStart segmentCount
  let segmentTable ← context (getRange bytes tableStart tableEnd)
    "voice recording has a truncated Ogg segment table"
  let bodyLen ← context (segmentTable.foldlM (fun total value => checkedAdd 64 total value.toNat) 0)
    "voice recording Ogg page is too large"
  let bodyStart ← usizeAdd tableStart segmentCount
  let bodyEnd ← usizeAdd bodyStart bodyLen
  let body ← context (getRange bytes bodyStart bodyEnd) "voice recording has a truncated Ogg page"
  let serial ← leArray 4 (← atRange header 14 18)
  let pageSequence ← leArray 4 (← atRange header 18 22)
  let entered ← s.enter serial pageSequence body
  let granule ← leArray 8 (← atRange header 6 14)
  return { entered with
    sequence := some pageSequence
    lastGranule := if granule ≠ noGranule then some granule else entered.lastGranule
    offset := bodyEnd }

/-- Every turn goes forward, so the loop ends. -/
theorem OggScan.offset_page {bytes : List UInt8} {s s' : OggScan} (h : s.page bytes = .ok s') :
    s.offset < s'.offset := by
  unfold OggScan.page at h
  obtain ⟨header, -, h⟩ := bind_eq_ok.mp h
  obtain ⟨capture, -, h⟩ := bind_eq_ok.mp h
  obtain ⟨version, -, h⟩ := bind_eq_ok.mp h
  obtain ⟨_, -, h⟩ := bind_eq_ok.mp h
  obtain ⟨count, -, h⟩ := bind_eq_ok.mp h
  obtain ⟨tableStart, hstart, h⟩ := bind_eq_ok.mp h
  obtain ⟨tableEnd, -, h⟩ := bind_eq_ok.mp h
  obtain ⟨segmentTable, -, h⟩ := bind_eq_ok.mp h
  obtain ⟨bodyLen, -, h⟩ := bind_eq_ok.mp h
  obtain ⟨bodyStart, hbody, h⟩ := bind_eq_ok.mp h
  obtain ⟨bodyEnd, hend, h⟩ := bind_eq_ok.mp h
  obtain ⟨body, -, h⟩ := bind_eq_ok.mp h
  obtain ⟨_, -, h⟩ := bind_eq_ok.mp h
  obtain ⟨serial, -, h⟩ := bind_eq_ok.mp h
  obtain ⟨_, -, h⟩ := bind_eq_ok.mp h
  obtain ⟨pageSequence, -, h⟩ := bind_eq_ok.mp h
  obtain ⟨entered, -, h⟩ := bind_eq_ok.mp h
  obtain ⟨_, -, h⟩ := bind_eq_ok.mp h
  obtain ⟨granule, -, h⟩ := bind_eq_ok.mp h
  have hoffset : s'.offset = bodyEnd := by rw [← pure_eq_ok.mp h]
  have h₁ := eq_of_usizeAdd hstart
  have h₂ := eq_of_usizeAdd hbody
  have h₃ := eq_of_usizeAdd hend
  omega

/-- The loop over the pages. -/
def OggScan.pages (bytes : List UInt8) (s : OggScan) : Except Halt OggScan :=
  if s.offset < bytes.length then
    match _h : s.page bytes with
    | .error e => .error e
    | .ok s' => OggScan.pages bytes s'
  else .ok s
termination_by bytes.length - s.offset
decreasing_by
  have hforward := OggScan.offset_page _h
  omega

/-- `ogg_opus_duration_ms`. -/
def oggOpusDurationMs (recording : BytesRef) : Except Halt ℕ := do
  let s ← OggScan.pages recording.bytes {}
  let granule ← context s.lastGranule "voice recording has no Opus duration"
  let preSkip ← context s.preSkip "voice recording has no Opus pre-skip"
  let samples ← context (checkedSub granule preSkip) "voice recording has an invalid Opus duration"
  let scaled ← context (checkedMul 64 samples 1000) "voice recording duration overflow"
  let durationMs := divCeil scaled 48000
  bailIf (¬(minDurationMs ≤ durationMs ∧ durationMs ≤ maxDurationMs))
    "voice recording duration is outside the supported range"
  return durationMs

/-! ## The format -/

/-- A page, as the format describes one. -/
structure OggPage where
  flags : UInt8
  granule : ℕ
  serial : ℕ
  sequence : ℕ
  checksum : ℕ
  segments : List UInt8
  body : List UInt8
  granule_lt : granule < 256 ^ 8
  serial_lt : serial < 256 ^ 4
  sequence_lt : sequence < 256 ^ 4
  checksum_lt : checksum < 256 ^ 4
  segments_length : segments.length < 256
  body_length : body.length = (segments.map UInt8.toNat).sum

namespace OggPage

def header (page : OggPage) : List UInt8 :=
  oggCapture ++ [0, page.flags] ++ leBytes 8 page.granule ++ leBytes 4 page.serial ++
    leBytes 4 page.sequence ++ leBytes 4 page.checksum ++ [UInt8.ofNat page.segments.length]

def bytes (page : OggPage) : List UInt8 :=
  page.header ++ page.segments ++ page.body

/-- The granule position, on a page that has one. -/
def position (page : OggPage) : Option ℕ :=
  if page.granule ≠ noGranule then some page.granule else none

end OggPage

/-- A page body that starts with an Opus header of the supported kind. -/
structure IsOpusHead (body : List UInt8) : Prop where
  length : 19 ≤ body.length
  magic : opusMagic <+: body
  version : body[8]? = some 1
  channels : ∃ count, body[9]? = some count ∧ count ≠ 0

/-- The pre-skip of an Opus header. -/
def opusPreSkip (body : List UInt8) : ℕ :=
  leNat ((body.drop 10).take 2)

/-- The pages of one stream, none missing. No sequence number wraps. -/
structure OggStream (pages : List OggPage) : Prop where
  serial : ∀ p ∈ pages, ∀ q ∈ pages, p.serial = q.serial
  sequence : pages.IsChain (fun p q => q.sequence = p.sequence + 1)

/-- What the recording is, if it lasts so long; a millisecond that has begun counts. -/
def IsRecordingOf (bytes : List UInt8) (durationMs : ℕ) : Prop :=
  ∃ (first : OggPage) (rest : List OggPage) (granule : ℕ),
    bytes = (first :: rest).flatMap OggPage.bytes ∧ OggStream (first :: rest) ∧
    IsOpusHead first.body ∧
    ((first :: rest).filterMap OggPage.position).getLast? = some granule ∧
    opusPreSkip first.body ≤ granule ∧
    durationMs = (granule - opusPreSkip first.body + 47) / 48 ∧
    minDurationMs ≤ durationMs ∧ durationMs ≤ maxDurationMs

end OmarchyWhatsapp
