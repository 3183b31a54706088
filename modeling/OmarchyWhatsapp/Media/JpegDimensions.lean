import OmarchyWhatsapp.Relational.Slices

/-!
# The dimensions of a JPEG

`jpeg_dimensions` walks over the markers of an image until a start of frame, which has the height
and the width. A segment before it is skipped by the length that it gives.
-/

namespace OmarchyWhatsapp

open Relational

/-! ## The parser -/

/-- Markers that nothing belongs to. -/
def isStandaloneMarker (marker : UInt8) : Bool :=
  marker = 0xD8 || marker = 0xD9 || (0xD0 ≤ marker && marker ≤ 0xD7) || marker = 0x01

/-- Start-of-frame markers, without those of the tables between them. -/
def isStartOfFrame (marker : UInt8) : Bool :=
  (0xC0 ≤ marker && marker ≤ 0xCF) && !([0xC4, 0xC8, 0xCC].contains marker)

/-- What a turn of the loop comes to. -/
inductive JpegTurn where
  | next (cursor : ℕ)
  | frame (width height : ℕ)
deriving DecidableEq, Repr

/-- `u16::from_be_bytes([bytes[cursor + i], bytes[cursor + i + 1]])`. -/
def beU16At (bytes : List UInt8) (cursor i : ℕ) : Except Halt ℕ := do
  let high ← atOffset bytes cursor i
  let low ← atOffset bytes cursor (i + 1)
  return beNat [high, low]

/-- At a start of frame: length, precision, height and width. -/
def jpegFrame (bytes : List UInt8) (cursor : ℕ) : Except Halt JpegTurn := do
  let stop ← usizeAdd cursor 9
  bailIf (¬stop ≤ bytes.length) "truncated JPEG frame header"
  let height ← beU16At bytes cursor 5
  let width ← beU16At bytes cursor 7
  bailIf (¬(0 < width ∧ 0 < height)) "JPEG has zero dimensions"
  return .frame width height

/-- At any other segment. -/
def jpegSegment (bytes : List UInt8) (cursor : ℕ) : Except Halt JpegTurn := do
  let stop ← usizeAdd cursor 3
  bailIf (¬stop < bytes.length) "truncated JPEG segment"
  let length ← beU16At bytes cursor 2
  bailIf (¬2 ≤ length) "corrupt JPEG segment"
  let cursor ← usizeAdd cursor (2 + length)
  return .next cursor

/-- One turn of the loop. -/
def jpegTurn (bytes : List UInt8) (cursor : ℕ) : Except Halt JpegTurn := do
  let byte ← atIndex bytes cursor
  -- both bytes are there, so reading the second before the first is checked changes nothing
  let marker ← atOffset bytes cursor 1
  if byte ≠ 0xFF then
    let cursor ← usizeAdd cursor 1
    return .next cursor
  else if isStandaloneMarker marker then
    let cursor ← usizeAdd cursor 2
    return .next cursor
  else if isStartOfFrame marker then jpegFrame bytes cursor
  else if marker = 0xFF then
    let cursor ← usizeAdd cursor 1
    return .next cursor
  else jpegSegment bytes cursor

theorem beU16At_lt {bytes : List UInt8} {cursor i value : ℕ}
    (h : beU16At bytes cursor i = .ok value) : value < 65536 := by
  obtain ⟨high, -, h⟩ := bind_eq_ok.mp h
  obtain ⟨low, -, h⟩ := bind_eq_ok.mp h
  rw [← pure_eq_ok.mp h]
  have hlt : beNat [high, low] < 256 ^ 2 := beNat_lt [high, low]
  omega

/-- A turn that goes on goes forward, by less than the longest segment and its marker. -/
theorem forward_of_jpegTurn {bytes : List UInt8} {cursor cursor' : ℕ}
    (h : jpegTurn bytes cursor = .ok (.next cursor')) :
    cursor < cursor' ∧ cursor' ≤ cursor + 65537 := by
  have hadd (n : ℕ) (h : usizeAdd cursor n >>= (fun c => pure (JpegTurn.next c))
      = (.ok (.next cursor') : Except Halt JpegTurn)) : cursor' = cursor + n := by
    obtain ⟨c, hc, h⟩ := bind_eq_ok.mp h
    rw [← JpegTurn.next.inj (pure_eq_ok.mp h)]
    exact eq_of_usizeAdd hc
  obtain ⟨byte, -, h⟩ := bind_eq_ok.mp h
  obtain ⟨marker, -, h⟩ := bind_eq_ok.mp h
  split_ifs at h
  · have := hadd 1 h
    omega
  · have := hadd 2 h
    omega
  · obtain ⟨stop, -, h⟩ := bind_eq_ok.mp h
    obtain ⟨_, -, h⟩ := bind_eq_ok.mp h
    obtain ⟨height, -, h⟩ := bind_eq_ok.mp h
    obtain ⟨width, -, h⟩ := bind_eq_ok.mp h
    obtain ⟨_, -, h⟩ := bind_eq_ok.mp h
    cases pure_eq_ok.mp h
  · have := hadd 1 h
    omega
  · obtain ⟨stop, -, h⟩ := bind_eq_ok.mp h
    obtain ⟨_, -, h⟩ := bind_eq_ok.mp h
    obtain ⟨length, hlength, h⟩ := bind_eq_ok.mp h
    obtain ⟨_, -, h⟩ := bind_eq_ok.mp h
    have hlt := beU16At_lt hlength
    have := hadd (2 + length) h
    omega

/-- The loop. -/
def jpegLoop (bytes : List UInt8) (cursor : ℕ) : Except Halt (ℕ × ℕ) :=
  match _hnext : usizeAdd cursor 1 with
  | .error e => .error e
  | .ok next =>
    if next < bytes.length then
      match _h : jpegTurn bytes cursor with
      | .error e => .error e
      | .ok (.frame width height) => .ok (width, height)
      | .ok (.next cursor') => jpegLoop bytes cursor'
    else .error (.error "JPEG has no frame header")
termination_by bytes.length - cursor
decreasing_by
  have hforward := forward_of_jpegTurn _h
  have hcursor := eq_of_usizeAdd _hnext
  omega

/-- `jpeg_dimensions`. -/
def jpegDimensions (image : BytesRef) : Except Halt (ℕ × ℕ) := do
  bailIf (¬(2 < image.bytes.length ∧ image.bytes[0]? = some 0xFF ∧ image.bytes[1]? = some 0xD8))
    "not a JPEG file"
  jpegLoop image.bytes 2

/-! ## The format -/

/-- A marker of a segment that is skipped. -/
def isSegmentMarker (marker : UInt8) : Bool :=
  !isStandaloneMarker marker && !isStartOfFrame marker && marker ≠ 0xFF

/-- What can stand before the frame header. -/
inductive JpegPiece where
  | fill
  | standalone (marker : UInt8) (hmarker : isStandaloneMarker marker = true)
  | segment (marker : UInt8) (payload : List UInt8) (hmarker : isSegmentMarker marker = true)
    (hlength : payload.length + 2 < 256 ^ 2)

/-- The bytes of a piece. The length of a segment counts its own two bytes. -/
def JpegPiece.bytes : JpegPiece → List UInt8
  | .fill => [0xFF]
  | .standalone marker _ => [0xFF, marker]
  | .segment marker payload _ _ =>
    [0xFF, marker] ++ beBytes 2 (payload.length + 2) ++ payload

structure StartOfFrame where
  marker : UInt8
  precision : UInt8
  height : ℕ
  width : ℕ
  components : List UInt8
  isStartOfFrame : isStartOfFrame marker = true
  height_pos : 0 < height
  height_lt : height < 256 ^ 2
  width_pos : 0 < width
  width_lt : width < 256 ^ 2
  length_lt : components.length + 7 < 256 ^ 2

def StartOfFrame.bytes (frame : StartOfFrame) : List UInt8 :=
  [0xFF, frame.marker] ++ beBytes 2 (frame.components.length + 7) ++ [frame.precision] ++
    beBytes 2 frame.height ++ beBytes 2 frame.width ++ frame.components

/-- An image: its start, pieces, the frame header, and anything. -/
structure JpegImage where
  pieces : List JpegPiece
  frame : StartOfFrame
  rest : List UInt8
  bounded : ([0xFF, 0xD8] ++ pieces.flatMap JpegPiece.bytes ++ frame.bytes ++ rest).length < 2 ^ 63

def JpegImage.ref (image : JpegImage) : BytesRef where
  bytes := [0xFF, 0xD8] ++ image.pieces.flatMap JpegPiece.bytes ++ image.frame.bytes ++ image.rest
  bounded := image.bounded

/-! ## Every access is in range -/

variable {bytes : List UInt8} {cursor : ℕ}

theorem exists_beU16At {i : ℕ} (h : cursor + (i + 1) < bytes.length)
    (hbounded : bytes.length < 2 ^ 63) : ∃ value, beU16At bytes cursor i = .ok value := by
  obtain ⟨high, hhigh⟩ := exists_atOffset (show cursor + i < bytes.length by omega) hbounded
  obtain ⟨low, hlow⟩ := exists_atOffset h hbounded
  refine ⟨beNat [high, low], ?_⟩
  rw [beU16At, hhigh, hlow]
  rfl

theorem jpegFrame_ne_fault (hcursor : cursor < bytes.length) (hbounded : bytes.length < 2 ^ 63) :
    jpegFrame bytes cursor ≠ .error .fault := by
  rw [jpegFrame, usizeAdd_of_lt (by omega), ok_bind]
  by_cases hstop : cursor + 9 ≤ bytes.length
  · obtain ⟨height, hheight⟩ := exists_beU16At (show cursor + (5 + 1) < bytes.length by omega)
      hbounded
    obtain ⟨width, hwidth⟩ := exists_beU16At (show cursor + (7 + 1) < bytes.length by omega)
      hbounded
    rw [bailIf_false (not_not.mpr hstop), ok_bind, hheight, ok_bind, hwidth, ok_bind]
    exact bind_ne_fault (bailIf_ne_fault _ _) fun _ h => (by cases h)
  · rw [bailIf_true hstop]
    intro h
    cases h

theorem jpegSegment_ne_fault (hcursor : cursor < bytes.length) (hbounded : bytes.length < 2 ^ 63) :
    jpegSegment bytes cursor ≠ .error .fault := by
  rw [jpegSegment, usizeAdd_of_lt (by omega), ok_bind]
  by_cases hstop : cursor + 3 < bytes.length
  · obtain ⟨length, hlength⟩ := exists_beU16At (i := 2) (by omega) hbounded
    have hlt := beU16At_lt hlength
    rw [bailIf_false (not_not.mpr hstop), ok_bind, hlength, ok_bind]
    refine bind_ne_fault (bailIf_ne_fault _ _) fun _ => ?_
    rw [usizeAdd_of_lt (by omega)]
    intro h
    cases h
  · rw [bailIf_true hstop]
    intro h
    cases h

/-- Where the condition of the loop holds, a turn reads bytes that are there. -/
theorem jpegTurn_ne_fault (hcursor : cursor + 1 < bytes.length) (hbounded : bytes.length < 2 ^ 63) :
    jpegTurn bytes cursor ≠ .error .fault := by
  have hnext (n : ℕ) (hn : n ≤ 2) : (usizeAdd cursor n >>= fun c => pure (JpegTurn.next c))
      ≠ (.error .fault : Except Halt JpegTurn) := by
    rw [usizeAdd_of_lt (by omega)]
    intro h
    cases h
  obtain ⟨byte, -, hbyte⟩ := exists_atIndex (show cursor < bytes.length by omega)
  obtain ⟨marker, hmarker⟩ := exists_atOffset hcursor hbounded
  rw [jpegTurn, hbyte, ok_bind, hmarker, ok_bind]
  split_ifs
  · exact hnext 1 (by omega)
  · exact hnext 2 (by omega)
  · exact jpegFrame_ne_fault (by omega) hbounded
  · exact hnext 1 (by omega)
  · exact jpegSegment_ne_fault (by omega) hbounded

theorem jpegLoop_ne_fault (hbounded : bytes.length < 2 ^ 63)
    (hcursor : cursor ≤ bytes.length + 65537) : jpegLoop bytes cursor ≠ .error .fault := by
  fun_induction jpegLoop bytes cursor with
  | case1 cursor e hnext =>
    rw [usizeAdd_of_lt (by omega)] at hnext
    cases hnext
  | case2 cursor next hnext hlt e herror =>
    have hturn := jpegTurn_ne_fault (eq_of_usizeAdd hnext ▸ hlt) hbounded
    intro h
    exact hturn (herror.trans (congrArg Except.error (Except.error.inj h)))
  | case3 cursor next hnext hlt width height hframe =>
    intro h
    cases h
  | case4 cursor next hnext hlt cursor' hturn ih =>
    have hforward := forward_of_jpegTurn hturn
    have hcursor := eq_of_usizeAdd hnext
    exact ih (by omega)
  | case5 cursor next hnext hlt =>
    intro h
    cases h

theorem jpegDimensions_ne_fault (image : BytesRef) : jpegDimensions image ≠ .error .fault := by
  refine bind_ne_fault (bailIf_ne_fault _ _) fun _ => ?_
  exact jpegLoop_ne_fault image.bounded (by omega)

/-! ## The walk over the pieces -/

/-- One turn from marker to marker. -/
theorem jpegLoop_next {cursor' : ℕ} (hcursor : cursor + 1 < bytes.length)
    (hbounded : bytes.length < 2 ^ 63) (hturn : jpegTurn bytes cursor = .ok (.next cursor')) :
    jpegLoop bytes cursor = jpegLoop bytes cursor' := by
  rw [jpegLoop, usizeAdd_of_lt (by omega)]
  dsimp only
  rw [if_pos hcursor]
  split
  · next h => rw [hturn] at h; cases h
  · next h => rw [hturn] at h; cases h
  · next h =>
    rw [hturn] at h
    cases h
    rfl

theorem length_beBytes (width value : ℕ) : (beBytes width value).length = width := by
  rw [beBytes, List.length_reverse, length_leBytes]

/-- A number of two bytes is read where it stands. -/
theorem beU16At_of_drop {part : List UInt8} {i value : ℕ} (h : bytes.drop cursor = part)
    (hpart : (part.drop i).take 2 = beBytes 2 value) (hvalue : value < 256 ^ 2)
    (hbounded : bytes.length < 2 ^ 63) : beU16At bytes cursor i = .ok value := by
  obtain ⟨high, low, hbytes⟩ := List.length_eq_two.mp (length_beBytes 2 value)
  rw [hbytes] at hpart
  have hget (k : ℕ) (hk : k < 2) : part[i + k]? = [high, low][k]? := by
    rw [← hpart, List.getElem?_take_of_lt hk, List.getElem?_drop]
  have hhigh := atOffset_of_drop h (hget 0 (by omega)) hbounded
  have hlow := atOffset_of_drop h (hget 1 (by omega)) hbounded
  rw [Nat.add_zero] at hhigh
  rw [beU16At, hhigh, ok_bind, hlow, ok_bind, ← hbytes, beNat_beBytes hvalue]
  rfl

/-- The segment behind a marker is skipped. -/
theorem jpegSegment_of_drop {marker : UInt8} {payload rest : List UInt8}
    (h : bytes.drop cursor = [0xFF, marker] ++ beBytes 2 (payload.length + 2) ++ payload ++ rest)
    (hlength : payload.length + 2 < 256 ^ 2) (hbounded : bytes.length < 2 ^ 63)
    (hrest : rest ≠ []) :
    jpegSegment bytes cursor = .ok (.next (cursor + (2 + (payload.length + 2)))) := by
  have hsize := congrArg List.length h
  have hpos := List.length_pos_iff.mpr hrest
  simp only [List.length_drop, List.length_append, List.length_cons, List.length_nil,
    length_beBytes] at hsize
  have hread : beU16At bytes cursor 2 = .ok (payload.length + 2) := by
    refine beU16At_of_drop h ?_ hlength hbounded
    rw [List.append_assoc, List.append_assoc]
    show (beBytes 2 (payload.length + 2) ++ (payload ++ rest)).take 2 = _
    exact List.take_left' (length_beBytes 2 _)
  rw [jpegSegment, usizeAdd_of_lt (by omega), ok_bind, bailIf_false (by omega), ok_bind, hread,
    ok_bind, bailIf_false (by omega), ok_bind, usizeAdd_of_lt (by omega)]
  rfl

/-- The walk passes over a piece that a marker follows. -/
theorem jpegLoop_piece (piece : JpegPiece) {marker : UInt8} {rest : List UInt8}
    (h : bytes.drop cursor = piece.bytes ++ 0xFF :: marker :: rest)
    (hbounded : bytes.length < 2 ^ 63) :
    jpegLoop bytes cursor = jpegLoop bytes (cursor + piece.bytes.length) := by
  have hsize := congrArg List.length h
  rw [List.length_drop, List.length_append, List.length_cons, List.length_cons] at hsize
  refine jpegLoop_next (by omega) hbounded ?_
  have hbyte : atIndex bytes cursor = .ok 0xFF := atIndex_of_drop h (by cases piece <;> rfl)
  rw [jpegTurn, hbyte, ok_bind]
  cases piece with
  | fill =>
    rw [atOffset_of_drop h (i := 1) rfl hbounded, ok_bind, if_neg (by decide), if_neg (by decide),
      if_neg (by decide), if_pos rfl, usizeAdd_of_lt (by omega)]
    rfl
  | standalone marker' hmarker =>
    rw [atOffset_of_drop h (i := 1) rfl hbounded, ok_bind, if_neg (by decide), if_pos hmarker,
      usizeAdd_of_lt (by omega)]
    rfl
  | segment marker' payload hmarker hlength =>
    have hkinds := hmarker
    rw [isSegmentMarker, Bool.and_eq_true, Bool.and_eq_true, Bool.not_eq_true',
      Bool.not_eq_true', decide_eq_true_eq] at hkinds
    obtain ⟨⟨hstandalone, hframe⟩, hfill⟩ := hkinds
    rw [atOffset_of_drop h (i := 1) rfl hbounded, ok_bind, if_neg (by decide),
      if_neg (by rw [hstandalone]; decide), if_neg (by rw [hframe]; decide), if_neg hfill,
      jpegSegment_of_drop h hlength hbounded (List.cons_ne_nil _ _)]
    have hpiece : (JpegPiece.segment marker' payload hmarker hlength).bytes.length
        = 2 + (payload.length + 2) := by
      simp only [JpegPiece.bytes, List.length_append, List.length_cons, List.length_nil,
        length_beBytes]
      omega
    rw [hpiece]

/-- Every piece begins with `FF` and is followed by a marker. -/
theorem pieces_append_eq (pieces : List JpegPiece) {first : UInt8} (after : List UInt8) :
    ∃ marker rest, pieces.flatMap JpegPiece.bytes ++ 0xFF :: first :: after
      = 0xFF :: marker :: rest := by
  induction pieces with
  | nil => exact ⟨first, after, rfl⟩
  | cons piece pieces ih =>
    obtain ⟨marker, rest, htail⟩ := ih
    rw [List.flatMap_cons, List.append_assoc, htail]
    cases piece with
    | fill => exact ⟨0xFF, marker :: rest, rfl⟩
    | standalone marker' _ => exact ⟨marker', 0xFF :: marker :: rest, rfl⟩
    | segment marker' payload _ _ =>
      exact ⟨marker', beBytes 2 (payload.length + 2) ++ payload ++ 0xFF :: marker :: rest, rfl⟩

/-- The walk passes over all pieces. -/
theorem jpegLoop_pieces {pieces : List JpegPiece} {first : UInt8} {after : List UInt8}
    (h : bytes.drop cursor = pieces.flatMap JpegPiece.bytes ++ 0xFF :: first :: after)
    (hbounded : bytes.length < 2 ^ 63) :
    jpegLoop bytes cursor
      = jpegLoop bytes (cursor + (pieces.flatMap JpegPiece.bytes).length) := by
  induction pieces generalizing cursor with
  | nil => rfl
  | cons piece pieces ih =>
    obtain ⟨marker, rest, htail⟩ : ∃ marker rest, pieces.flatMap JpegPiece.bytes
        ++ 0xFF :: first :: after = 0xFF :: marker :: rest := pieces_append_eq pieces after
    rw [List.flatMap_cons, List.append_assoc] at h
    have hnext : bytes.drop (cursor + piece.bytes.length)
        = pieces.flatMap JpegPiece.bytes ++ 0xFF :: first :: after := by
      rw [← List.drop_drop, h, List.drop_left]
    rw [jpegLoop_piece piece (h.trans (congrArg (piece.bytes ++ ·) htail)) hbounded, ih hnext,
      List.flatMap_cons, List.length_append, Nat.add_assoc]

/-- Behind a marker of its kind, the frame header gives the dimensions. -/
theorem jpegFrame_of_drop {frame : StartOfFrame} {rest : List UInt8}
    (h : bytes.drop cursor = frame.bytes ++ rest) (hbounded : bytes.length < 2 ^ 63) :
    jpegFrame bytes cursor = .ok (.frame frame.width frame.height) := by
  have hsize := congrArg List.length h
  simp only [StartOfFrame.bytes, List.length_drop, List.length_append, List.length_cons,
    List.length_nil, length_beBytes] at hsize
  obtain ⟨a, b, hlength⟩ := List.length_eq_two.mp (length_beBytes 2 (frame.components.length + 7))
  obtain ⟨c, d, hheight⟩ := List.length_eq_two.mp (length_beBytes 2 frame.height)
  -- what stands behind the precision, and behind the height
  have hfive : (frame.bytes ++ rest).drop 5
      = beBytes 2 frame.height ++ (beBytes 2 frame.width ++ frame.components ++ rest) := by
    simp only [StartOfFrame.bytes, hlength, List.append_assoc]
    rfl
  have hseven : (frame.bytes ++ rest).drop 7
      = beBytes 2 frame.width ++ (frame.components ++ rest) := by
    simp only [StartOfFrame.bytes, hlength, hheight, List.append_assoc]
    rfl
  have hreadheight : beU16At bytes cursor 5 = .ok frame.height := by
    refine beU16At_of_drop h ?_ frame.height_lt hbounded
    rw [hfive, List.take_left' (length_beBytes 2 _)]
  have hreadwidth : beU16At bytes cursor 7 = .ok frame.width := by
    refine beU16At_of_drop h ?_ frame.width_lt hbounded
    rw [hseven, List.take_left' (length_beBytes 2 _)]
  rw [jpegFrame, usizeAdd_of_lt (by omega), ok_bind, bailIf_false (by omega), ok_bind, hreadheight,
    ok_bind, hreadwidth, ok_bind,
    bailIf_false (not_not.mpr ⟨frame.width_pos, frame.height_pos⟩), ok_bind]
  rfl

theorem isStandaloneMarker_of_startOfFrame {marker : UInt8} (h : isStartOfFrame marker = true) :
    isStandaloneMarker marker = false := by
  rw [isStartOfFrame, Bool.and_eq_true, Bool.and_eq_true, decide_eq_true_eq,
    decide_eq_true_eq] at h
  obtain ⟨⟨hlow, hhigh⟩, -⟩ := h
  have hge : 0xC0 ≤ marker.toNat := UInt8.le_iff_toNat_le.mp hlow
  have hle : marker.toNat ≤ 0xCF := UInt8.le_iff_toNat_le.mp hhigh
  have hne (n : UInt8) (hn : n.toNat < 0xC0 ∨ 0xCF < n.toNat) : decide (marker = n) = false := by
    refine decide_eq_false ?_
    rintro rfl
    omega
  have hrestart : decide (0xD0 ≤ marker) = false :=
    decide_eq_false fun h => absurd (UInt8.le_iff_toNat_le.mp h) (by
      show ¬0xD0 ≤ marker.toNat
      omega)
  rw [isStandaloneMarker, hne 0xD8 (by decide), hne 0xD9 (by decide), hrestart,
    hne 0x01 (by decide)]
  rfl

theorem jpegLoop_frame {frame : StartOfFrame} {rest : List UInt8}
    (h : bytes.drop cursor = frame.bytes ++ rest) (hbounded : bytes.length < 2 ^ 63) :
    jpegLoop bytes cursor = .ok (frame.width, frame.height) := by
  have hsize := congrArg List.length h
  simp only [StartOfFrame.bytes, List.length_drop, List.length_append, List.length_cons,
    List.length_nil, length_beBytes] at hsize
  have hbyte : atIndex bytes cursor = .ok 0xFF := atIndex_of_drop h rfl
  have hturn : jpegTurn bytes cursor = .ok (.frame frame.width frame.height) := by
    rw [jpegTurn, hbyte, ok_bind, atOffset_of_drop h (i := 1) rfl hbounded, ok_bind,
      if_neg (by decide), if_neg (by rw [isStandaloneMarker_of_startOfFrame frame.isStartOfFrame]; decide),
      if_pos frame.isStartOfFrame, jpegFrame_of_drop h hbounded]
  rw [jpegLoop, usizeAdd_of_lt (by omega)]
  dsimp only
  rw [if_pos (by omega)]
  split
  · next h => rw [hturn] at h; cases h
  · next h =>
    rw [hturn] at h
    cases h
    rfl
  · next h => rw [hturn] at h; cases h

/-- The loop reads nothing that is not there, and the dimensions are those of the first frame
header. -/
theorem jpegDimensions_firstFrame :
    (∀ image : BytesRef, jpegDimensions image ≠ .error .fault) ∧
      ∀ image : JpegImage, jpegDimensions image.ref = .ok (image.frame.width, image.frame.height) := by
  refine ⟨jpegDimensions_ne_fault, fun image => ?_⟩
  have hbounded := image.ref.bounded
  have hstart : image.ref.bytes.drop 2
      = image.pieces.flatMap JpegPiece.bytes ++ (image.frame.bytes ++ image.rest) := by
    simp only [JpegImage.ref, List.append_assoc]
    rfl
  have hframe : image.ref.bytes.drop (2 + (image.pieces.flatMap JpegPiece.bytes).length)
      = image.frame.bytes ++ image.rest := by
    rw [← List.drop_drop, hstart, List.drop_left]
  have hsignature : image.ref.bytes[0]? = some 0xFF ∧ image.ref.bytes[1]? = some 0xD8 := by
    simp only [JpegImage.ref, List.append_assoc]
    exact ⟨rfl, rfl⟩
  have hlong : 2 < image.ref.bytes.length := by
    have hsize := congrArg List.length hframe
    simp only [StartOfFrame.bytes, List.length_drop, List.length_append, List.length_cons,
      List.length_nil, length_beBytes] at hsize
    omega
  rw [jpegDimensions, bailIf_false (not_not.mpr ⟨hlong, hsignature⟩), ok_bind,
    jpegLoop_pieces hstart hbounded, jpegLoop_frame hframe hbounded]

end OmarchyWhatsapp
