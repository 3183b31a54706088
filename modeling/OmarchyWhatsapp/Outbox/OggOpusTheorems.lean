import OmarchyWhatsapp.Outbox.OggOpus

/-!
# The parser reads the format

A turn of the loop takes one page off the front, and fails without a fault where there is none
(`page_or_error`). So the loop accepts the concatenations of pages that its checks admit one after
the other, which are those of one stream that begins with an Opus header.
-/

namespace OmarchyWhatsapp

open Relational

namespace OggPage

@[simp] theorem length_header (page : OggPage) : page.header.length = 27 := by
  simp [header, oggCapture]

theorem length_bytes (page : OggPage) :
    page.bytes.length = 27 + page.segments.length + page.body.length := by
  simp only [bytes, List.length_append, length_header]

theorem toNat_count (page : OggPage) :
    (UInt8.ofNat page.segments.length).toNat = page.segments.length := by
  have hlength := page.segments_length
  rw [UInt8.toNat_ofNat']
  omega

/-- Where the fields of a page stand in its header. -/
theorem header_fields (page : OggPage) :
    atRange page.header 0 4 = .ok oggCapture ∧ atIndex page.header 4 = .ok 0 ∧
      atIndex page.header 26 = .ok (UInt8.ofNat page.segments.length) ∧
      atRange page.header 14 18 = .ok (leBytes 4 page.serial) ∧
      atRange page.header 18 22 = .ok (leBytes 4 page.sequence) ∧
      atRange page.header 6 14 = .ok (leBytes 8 page.granule) :=
  ⟨rfl, rfl, rfl, rfl, rfl, rfl⟩

/-- Any 27 bytes with the capture pattern and the version are the header of a page. -/
theorem exists_header {header : List UInt8} {count : UInt8} (hlength : header.length = 27)
    (hcapture : header.take 4 = oggCapture) (hversion : header[4]? = some 0)
    (hcount : header[26]? = some count) (segments body : List UInt8)
    (hsegments : segments.length = count.toNat)
    (hbody : body.length = (segments.map UInt8.toNat).sum) :
    ∃ page : OggPage, page.header = header ∧ page.segments = segments ∧ page.body = body := by
  have hwidth (start n : ℕ) (h : start + n ≤ 27) : ((header.drop start).take n).length = n := by
    rw [List.length_take, List.length_drop]
    omega
  obtain ⟨granule, hgranule, hg⟩ := exists_leBytes (hwidth 6 8 (by omega))
  obtain ⟨serial, hserial, hs⟩ := exists_leBytes (hwidth 14 4 (by omega))
  obtain ⟨sequence, hsequence, hq⟩ := exists_leBytes (hwidth 18 4 (by omega))
  obtain ⟨checksum, hchecksum, hc⟩ := exists_leBytes (hwidth 22 4 (by omega))
  have hcountlt : count.toNat < 256 := count.toNat_lt
  have hcountbyte : UInt8.ofNat segments.length = count := by
    rw [hsegments, UInt8.ofNat_toNat]
  have hfour : header.drop 4 = (0 : UInt8) :: header[5] :: header.drop 6 := by
    have h₄ : 4 < header.length := by omega
    have h₅ : 5 < header.length := by omega
    rw [List.getElem?_eq_getElem h₄] at hversion
    rw [List.drop_eq_getElem_cons h₄, List.drop_eq_getElem_cons h₅, Option.some.inj hversion]
  have hlast : header.drop 26 = [count] := by
    have h₂₆ : 26 < header.length := by omega
    rw [List.getElem?_eq_getElem h₂₆] at hcount
    rw [List.drop_eq_getElem_cons h₂₆, Option.some.inj hcount, List.drop_eq_nil_of_le (by omega)]
  refine ⟨⟨header[5], granule, serial, sequence, checksum, segments, body, hgranule, hserial,
    hsequence, hchecksum, hsegments ▸ hcountlt, hbody⟩, ?_, rfl, rfl⟩
  have hwhole : header = header.take 4 ++ header.drop 4 := (List.take_append_drop 4 header).symm
  rw [hfour, drop_split header 6 8, drop_split header 14 4, drop_split header 18 4,
    drop_split header 22 4, hlast, hcapture, ← hg, ← hs, ← hq, ← hc, ← hcountbyte] at hwhole
  refine Eq.trans ?_ hwhole.symm
  simp only [OggPage.header, List.append_assoc, List.cons_append, List.nil_append]

end OggPage

/-! ## One page -/

theorem sum_segments {segments : List UInt8} {total : ℕ}
    (h : total + (segments.map UInt8.toNat).sum < 2 ^ 64) :
    segments.foldlM (fun total value => checkedAdd 64 total value.toNat) total
      = some (total + (segments.map UInt8.toNat).sum) := by
  induction segments generalizing total with
  | nil => rfl
  | cons value segments ih =>
    rw [List.map_cons, List.sum_cons] at h
    rw [List.foldlM_cons, checkedAdd, if_pos (by omega), List.map_cons, List.sum_cons,
      ← Nat.add_assoc]
    exact ih (by omega)

theorem sum_segments_le (segments : List UInt8) :
    (segments.map UInt8.toNat).sum ≤ 255 * segments.length := by
  induction segments with
  | nil => exact Nat.zero_le _
  | cons value segments ih =>
    have hvalue : value.toNat < 256 := value.toNat_lt
    rw [List.map_cons, List.sum_cons, List.length_cons]
    omega

namespace OggScan

variable {bytes : List UInt8} {s s' : OggScan} {page : OggPage}

/-- The checks let the page pass. -/
def Admits (s : OggScan) (page : OggPage) : Prop :=
  match s.streamSerial with
  | some expected => page.serial = expected ∧ ∀ value ∈ s.sequence, page.sequence = value + 1
  | none => IsOpusHead page.body

/-- The variables after a page. -/
def after (s : OggScan) (page : OggPage) : OggScan where
  offset := s.offset + page.bytes.length
  streamSerial := some (s.streamSerial.getD page.serial)
  preSkip := if s.streamSerial.isSome then s.preSkip else some (opusPreSkip page.body)
  lastGranule := page.position.or s.lastGranule
  sequence := some page.sequence

theorem checkedAdd_one_eq {value sequence : ℕ} (h : sequence < 256 ^ 4) :
    checkedAdd 32 value 1 = some sequence ↔ sequence = value + 1 := by
  unfold checkedAdd
  split_ifs with hlt
  · rw [Option.some.injEq]
    omega
  · refine iff_of_false (by simp) ?_
    omega

theorem opusPreSkip_eq {body : List UInt8} {low high : UInt8} (hlow : body[10]? = some low)
    (hhigh : body[11]? = some high) : opusPreSkip body = leNat [low, high] := by
  obtain ⟨h₁₀, rfl⟩ := List.getElem?_eq_some_iff.mp hlow
  obtain ⟨h₁₁, rfl⟩ := List.getElem?_eq_some_iff.mp hhigh
  rw [opusPreSkip, List.drop_eq_getElem_cons h₁₀, List.drop_eq_getElem_cons h₁₁]
  rfl

/-- The checks of `enter`, without its accesses. -/
theorem enter_eq (s : OggScan) (page : OggPage) :
    (s.Admits page → s.enter page.serial page.sequence page.body = .ok { s with
      streamSerial := some (s.streamSerial.getD page.serial)
      preSkip := if s.streamSerial.isSome then s.preSkip else some (opusPreSkip page.body) }) ∧
    (¬s.Admits page →
      ∃ message, s.enter page.serial page.sequence page.body = .error (.error message)) := by
  unfold Admits enter
  cases hserial : s.streamSerial with
  | some expected =>
    dsimp only
    have hsequence : (s.sequence.any
        (fun value => checkedAdd 32 value 1 ≠ some page.sequence) = true) ↔
          ¬∀ value ∈ s.sequence, page.sequence = value + 1 := by
      cases s.sequence with
      | none => simp
      | some value => simp [checkedAdd_one_eq page.sequence_lt]
    constructor
    · intro h
      rw [bailIf_false (by rw [hsequence]; exact not_or.mpr ⟨not_not.mpr h.1, not_not.mpr h.2⟩)]
      cases s
      cases hserial
      rfl
    · intro h
      rw [bailIf_true (by rw [hsequence]; exact not_and_or.mp h)]
      exact ⟨_, rfl⟩
  | none =>
    dsimp only
    by_cases hhead : page.body.length < 19 ∨ opusMagic.isPrefixOf page.body = false
    · rw [bailIf_true hhead]
      refine ⟨fun h => ?_, fun _ => ⟨_, rfl⟩⟩
      rcases hhead with hshort | hmagic
      · exact absurd h.length (by omega)
      · exact absurd (List.isPrefixOf_iff_prefix.mpr h.magic) (by simp [hmagic])
    · rw [bailIf_false hhead]
      obtain ⟨hlength, hmagic⟩ := not_or.mp hhead
      obtain ⟨version, hversion, hv⟩ := @exists_atIndex _ page.body 8 (by omega)
      obtain ⟨channels, hchannels, hc⟩ := @exists_atIndex _ page.body 9 (by omega)
      obtain ⟨low, hlow, hl⟩ := @exists_atIndex _ page.body 10 (by omega)
      obtain ⟨high, hhigh, hh⟩ := @exists_atIndex _ page.body 11 (by omega)
      have hsupported : IsOpusHead page.body ↔ ¬(version ≠ 1 ∨ channels = 0) := by
        constructor
        · intro h
          have hone := Option.some.inj (hversion.symm.trans h.version)
          obtain ⟨count, hcount, hne⟩ := h.channels
          have hsame := Option.some.inj (hchannels.symm.trans hcount)
          exact not_or.mpr ⟨not_not.mpr hone, hsame ▸ hne⟩
        · intro h
          obtain ⟨hone, hne⟩ := not_or.mp h
          exact ⟨by omega, List.isPrefixOf_iff_prefix.mp (by simpa using hmagic),
            by rw [hversion, not_not.mp hone], channels, hchannels, hne⟩
      simp only [hv, hc, hl, hh, hsupported, opusPreSkip_eq hlow hhigh]
      constructor
      · intro h
        show bailIf _ _ >>= _ = _
        rw [bailIf_false h]
        rfl
      · intro h
        refine ⟨"voice recording uses an unsupported Opus header", ?_⟩
        show bailIf _ _ >>= _ = _
        rw [bailIf_true (not_not.mp h)]
        rfl

/-- A turn on a page: the checks let it pass, or it is refused with an error. -/
theorem page_eq {rest : List UInt8} (hbound : bytes.length < 2 ^ 63)
    (hstart : s.offset ≤ bytes.length) (hdrop : bytes.drop s.offset = page.bytes ++ rest) :
    (s.Admits page → s.page bytes = .ok (s.after page)) ∧
      (¬s.Admits page → ∃ message, s.page bytes = .error (.error message)) := by
  have hlength : bytes.length - s.offset = page.bytes.length + rest.length := by
    rw [← List.length_append, ← hdrop, List.length_drop]
  rw [page.length_bytes] at hlength
  have hheader : getRange bytes s.offset (min (s.offset + 27) (2 ^ 64 - 1)) = some page.header := by
    have hhead : bytes.drop s.offset = page.header ++ (page.segments ++ page.body ++ rest) := by
      rw [hdrop, OggPage.bytes]
      simp only [List.append_assoc]
    have h := getRange_of_drop hhead hstart
    rw [page.length_header] at h
    rwa [min_eq_left (by omega)]
  have htable : bytes.drop (s.offset + 27) = page.segments ++ (page.body ++ rest) := by
    rw [← List.drop_drop, hdrop, OggPage.bytes, List.append_assoc, List.append_assoc,
      List.drop_left' page.length_header]
  have hbody : bytes.drop (s.offset + 27 + page.segments.length) = page.body ++ rest := by
    rw [← List.drop_drop, htable, List.drop_left]
  have hsegments := getRange_of_drop htable (by omega)
  have hpage := getRange_of_drop hbody (by omega)
  have hsum := @sum_segments page.segments 0
    (by rw [Nat.zero_add, ← page.body_length]; omega)
  rw [Nat.zero_add, ← page.body_length] at hsum
  obtain ⟨hcapture, hversion, hcount, hserial, hsequence, hgranule⟩ := page.header_fields
  have hturn : s.page bytes = s.enter page.serial page.sequence page.body >>= fun entered =>
      .ok { entered with
        sequence := some page.sequence
        lastGranule := if page.granule ≠ noGranule then some page.granule else entered.lastGranule
        offset := s.offset + 27 + page.segments.length + page.body.length } := by
    have h₁ := @usizeAdd_of_lt s.offset 27 (by omega)
    have h₂ := @usizeAdd_of_lt (s.offset + 27) page.segments.length (by omega)
    have h₃ := @usizeAdd_of_lt (s.offset + 27 + page.segments.length) page.body.length (by omega)
    unfold OggScan.page
    simp only [hheader, hcapture, hversion, hcount, hsegments, hsum, hpage, hserial, hsequence,
      hgranule, h₁, h₂, h₃, page.toNat_count, context_some, ok_bind,
      leArray_leBytes page.serial_lt, leArray_leBytes page.sequence_lt,
      leArray_leBytes page.granule_lt]
    rfl
  rw [hturn]
  obtain ⟨henter, hrefuse⟩ := s.enter_eq page
  constructor
  · intro h
    rw [henter h]
    rw [ok_bind, after, page.length_bytes, Nat.add_assoc, Nat.add_assoc, Nat.add_assoc,
      OggPage.position]
    congr 2
    by_cases hset : page.granule ≠ noGranule
    · rw [if_pos hset, if_pos hset]
      rfl
    · rw [if_neg hset, if_neg hset]
      rfl
  · intro h
    obtain ⟨message, hmessage⟩ := hrefuse h
    exact ⟨message, by rw [hmessage]; rfl⟩

/-- Where no page stands, the turn ends with an error. -/
theorem page_or_error (hbound : bytes.length < 2 ^ 63) (hstart : s.offset < bytes.length) :
    (∃ (page : OggPage) (rest : List UInt8), bytes.drop s.offset = page.bytes ++ rest) ∨
      ∃ message, s.page bytes = .error (.error message) := by
  have hend : min (s.offset + 27) (2 ^ 64 - 1) = s.offset + 27 := min_eq_left (by omega)
  have h₁ := @usizeAdd_of_lt s.offset 27 (by omega)
  unfold OggScan.page
  rw [hend]
  rcases hheader : getRange bytes s.offset (s.offset + 27) with _ | header
  · exact Or.inr ⟨_, rfl⟩
  obtain ⟨hlength, hdrop⟩ := drop_of_getRange hheader
  obtain ⟨version, hversion, hv⟩ := @exists_atIndex _ header 4 (by omega)
  obtain ⟨count, hcount, hc⟩ := @exists_atIndex _ header 26 (by omega)
  have hcountlt : count.toNat < 256 := count.toNat_lt
  have h₂ := @usizeAdd_of_lt (s.offset + 27) count.toNat (by omega)
  rw [context_some, ok_bind, atRange_zero (by omega), ok_bind, hv, ok_bind]
  by_cases hstream : header.take 4 ≠ oggCapture ∨ version ≠ 0
  · exact Or.inr ⟨_, by rw [bailIf_true hstream]; rfl⟩
  rw [bailIf_false hstream, ok_bind, hc, ok_bind, h₁, ok_bind, h₂, ok_bind]
  obtain ⟨hcapture, hzero⟩ := not_or.mp hstream
  rcases htable : getRange bytes (s.offset + 27) (s.offset + 27 + count.toNat) with _ | segments
  · exact Or.inr ⟨_, rfl⟩
  obtain ⟨hsegments, hdrop'⟩ := drop_of_getRange htable
  have hsmall := sum_segments_le segments
  have hsum := @sum_segments segments 0 (by omega)
  rw [Nat.zero_add] at hsum
  have hinside : s.offset + 27 + count.toNat ≤ bytes.length := by
    unfold getRange at htable
    split_ifs at htable with hrange
    exact hrange.2
  have h₃ := @usizeAdd_of_lt (s.offset + 27 + count.toNat) (segments.map UInt8.toNat).sum (by omega)
  rw [context_some, ok_bind, hsum, context_some, ok_bind, ok_bind, h₃, ok_bind]
  rcases hbody : getRange bytes (s.offset + 27 + count.toNat)
      (s.offset + 27 + count.toNat + (segments.map UInt8.toNat).sum) with _ | body
  · exact Or.inr ⟨_, rfl⟩
  obtain ⟨hbodylength, hdrop''⟩ := drop_of_getRange hbody
  rw [not_not.mp hzero] at hversion
  obtain ⟨page, rfl, rfl, rfl⟩ := OggPage.exists_header hlength (not_not.mp hcapture) hversion hcount
    segments body hsegments hbodylength
  refine Or.inl ⟨page, bytes.drop (s.offset + 27 + count.toNat
    + (page.segments.map UInt8.toNat).sum), ?_⟩
  rw [hdrop, hdrop', hdrop'', OggPage.bytes, List.append_assoc, List.append_assoc]

/-! ## The loop -/

/-- The loop accepts the pages that its checks admit. -/
theorem pages_of_guarded (hbound : bytes.length < 2 ^ 63) {ps : List OggPage}
    (hstart : s.offset ≤ bytes.length) (hdrop : bytes.drop s.offset = ps.flatMap OggPage.bytes)
    (h : Guarded after Admits s ps) : s.pages bytes = .ok (run after s ps) := by
  induction ps generalizing s with
  | nil =>
    have hend : bytes.length ≤ s.offset := List.drop_eq_nil_iff.mp hdrop
    rw [OggScan.pages, if_neg (by omega), run_nil]
  | cons page ps ih =>
    rw [List.flatMap_cons] at hdrop
    have hlength := congrArg List.length hdrop
    rw [List.length_drop, List.length_append, page.length_bytes] at hlength
    have hpage := (page_eq hbound hstart hdrop).1 h.1
    have hnext : (s.after page).offset = s.offset + page.bytes.length := rfl
    rw [OggScan.pages, if_pos (by omega)]
    split
    · rename_i e he
      rw [hpage] at he
      cases he
    · rename_i s' hs'
      rw [hpage] at hs'
      cases hs'
      refine ih ?_ ?_ h.2
      · rw [hnext, page.length_bytes]
        omega
      · rw [hnext, ← List.drop_drop, hdrop, List.drop_left]

/-- What the loop accepts is pages that its checks admit, and it never faults. -/
theorem guarded_of_pages (hbound : bytes.length < 2 ^ 63) (hstart : s.offset ≤ bytes.length) :
    s.pages bytes ≠ .error .fault ∧ ∀ final, s.pages bytes = .ok final →
      ∃ ps, bytes.drop s.offset = ps.flatMap OggPage.bytes ∧ Guarded after Admits s ps ∧
        run after s ps = final := by
  fun_induction OggScan.pages bytes s with
  | case1 s hlt e he =>
    refine ⟨?_, fun final h => by cases h⟩
    rcases page_or_error hbound hlt with ⟨page, rest, hdrop⟩ | ⟨message, hmessage⟩
    · obtain ⟨hok, hrefuse⟩ := page_eq hbound hstart hdrop
      by_cases h : s.Admits page
      · rw [hok h] at he
        cases he
      · obtain ⟨message, hmessage⟩ := hrefuse h
        rw [hmessage] at he
        cases he
        simp
    · rw [hmessage] at he
      cases he
      simp
  | case2 s hlt s' hs' ih =>
    rcases page_or_error hbound hlt with ⟨page, rest, hdrop⟩ | ⟨message, hmessage⟩
    · obtain ⟨hok, hrefuse⟩ := page_eq hbound hstart hdrop
      have h : s.Admits page := by
        by_contra h
        obtain ⟨message, hmessage⟩ := hrefuse h
        rw [hmessage] at hs'
        cases hs'
      rw [hok h] at hs'
      cases hs'
      have hlength := congrArg List.length hdrop
      rw [List.length_drop, List.length_append] at hlength
      have hnext : (s.after page).offset = s.offset + page.bytes.length := rfl
      obtain ⟨hfault, hpages⟩ := ih (by omega)
      refine ⟨hfault, fun final hfinal => ?_⟩
      obtain ⟨ps, hps, hguarded, hrun⟩ := hpages final hfinal
      refine ⟨page :: ps, ?_, ⟨h, hguarded⟩, hrun⟩
      rw [hnext, ← List.drop_drop, hdrop, List.drop_left] at hps
      rw [hdrop, hps, List.flatMap_cons]
    · rw [hmessage] at hs'
      cases hs'
  | case3 s hlt =>
    refine ⟨by simp, fun final h => ⟨[], ?_, trivial, Except.ok.inj h⟩⟩
    exact List.drop_eq_nil_of_le (by omega)

/-! ## What the variables hold -/

theorem oggStream_cons_cons {prev : OggPage} {ps : List OggPage} :
    OggStream (prev :: page :: ps) ↔
      (page.serial = prev.serial ∧ page.sequence = prev.sequence + 1) ∧ OggStream (page :: ps) := by
  constructor
  · intro h
    obtain ⟨hnext, hchain⟩ := List.isChain_cons_cons.mp h.sequence
    refine ⟨⟨h.serial _ (by simp) _ (by simp), hnext⟩, ⟨fun p hp q hq => ?_, hchain⟩⟩
    exact h.serial p (List.mem_cons_of_mem _ hp) q (List.mem_cons_of_mem _ hq)
  · rintro ⟨⟨hserial, hnext⟩, h⟩
    refine ⟨?_, List.isChain_cons_cons.mpr ⟨hnext, h.sequence⟩⟩
    -- all of them have the serial number of `page`
    have hall : ∀ p ∈ prev :: page :: ps, p.serial = page.serial := by
      intro p hp
      rcases List.mem_cons.mp hp with rfl | hp
      · exact hserial.symm
      · exact h.serial p hp page (by simp)
    exact fun p hp q hq => (hall p hp).trans (hall q hq).symm

/-- After a page, the checks let exactly the rest of its stream pass. -/
theorem guarded_iff {prev : OggPage} {ps : List OggPage} (hserial : s.streamSerial = some prev.serial)
    (hsequence : s.sequence = some prev.sequence) :
    Guarded after Admits s ps ↔ OggStream (prev :: ps) := by
  induction ps generalizing s prev with
  | nil =>
    refine iff_of_true trivial ⟨?_, List.IsChain.singleton prev⟩
    intro p hp q hq
    rw [List.mem_singleton.mp hp, List.mem_singleton.mp hq]
  | cons page ps ih =>
    have hiff : s.Admits page ↔
        page.serial = prev.serial ∧ page.sequence = prev.sequence + 1 := by
      simp [Admits, hserial, hsequence]
    rw [Guarded, hiff, oggStream_cons_cons]
    refine and_congr_right fun h => ih ?_ rfl
    rw [after, hserial, h.1]
    rfl

/-- The last granule position that is set. -/
theorem lastGranule_run (s : OggScan) (ps : List OggPage) :
    (run after s ps).lastGranule
      = ((ps.filterMap OggPage.position).getLast?).or s.lastGranule := by
  induction ps generalizing s with
  | nil => rfl
  | cons page ps ih =>
    have hlast : (s.after page).lastGranule = page.position.or s.lastGranule := rfl
    rw [run_cons, ih, hlast]
    rcases hposition : page.position with _ | granule
    · rw [List.filterMap_cons_none hposition, Option.none_or]
    · rw [List.filterMap_cons_some hposition, List.getLast?_cons]
      cases (ps.filterMap OggPage.position).getLast? <;> rfl

/-- The pre-skip of the first page stays. -/
theorem preSkip_run {serial : ℕ} (ps : List OggPage) (hserial : s.streamSerial = some serial) :
    (run after s ps).preSkip = s.preSkip := by
  induction ps generalizing s with
  | nil => rfl
  | cons page ps ih =>
    have hskip : (s.after page).preSkip = s.preSkip := by
      rw [after, hserial]
      rfl
    rw [run_cons, @ih (s.after page) (by rw [after, hserial]; rfl), hskip]

end OggScan

/-- `div_ceil` at 48 samples a millisecond. -/
theorem divCeil_samples (samples : ℕ) : divCeil (samples * 1000) 48000 = (samples + 47) / 48 := by
  rw [divCeil]
  split <;> omega

/-- The scan of a whole recording. -/
theorem pages_eq_ok {bytes : List UInt8} (hbound : bytes.length < 2 ^ 63) (final : OggScan) :
    OggScan.pages bytes {} = .ok final ↔ ∃ ps, bytes = ps.flatMap OggPage.bytes ∧
      Guarded OggScan.after OggScan.Admits {} ps ∧ run OggScan.after {} ps = final := by
  constructor
  · intro h
    exact (OggScan.guarded_of_pages hbound (Nat.zero_le _)).2 final h
  · rintro ⟨ps, hbytes, hguarded, rfl⟩
    exact OggScan.pages_of_guarded hbound (Nat.zero_le _) hbytes hguarded

/-- What the last steps make of the variables. -/
theorem durationMs_ok {granule preSkip durationMs : ℕ} :
    (do
      let samples ← context (checkedSub granule preSkip)
        "voice recording has an invalid Opus duration"
      let scaled ← context (checkedMul 64 samples 1000) "voice recording duration overflow"
      let durationMs := divCeil scaled 48000
      bailIf (¬(minDurationMs ≤ durationMs ∧ durationMs ≤ maxDurationMs))
        "voice recording duration is outside the supported range"
      return durationMs) = Except.ok durationMs ↔
      preSkip ≤ granule ∧ durationMs = (granule - preSkip + 47) / 48 ∧
        minDurationMs ≤ durationMs ∧ durationMs ≤ maxDurationMs := by
  by_cases hle : preSkip ≤ granule
  · rw [checkedSub, if_pos hle, context_some, ok_bind, and_iff_right hle]
    by_cases hfits : (granule - preSkip) * 1000 < 2 ^ 64
    · rw [checkedMul, if_pos hfits, context_some, ok_bind, divCeil_samples]
      by_cases hrange : minDurationMs ≤ (granule - preSkip + 47) / 48 ∧
          (granule - preSkip + 47) / 48 ≤ maxDurationMs
      · dsimp only
        rw [bailIf_false (not_not.mpr hrange), ok_bind, pure_eq_ok]
        refine ⟨fun h => h ▸ ⟨rfl, hrange⟩, fun h => h.1.symm⟩
      · dsimp only
        rw [bailIf_true hrange]
        refine iff_of_false (fun h => by cases h) ?_
        rintro ⟨rfl, hin⟩
        exact hrange hin
    · -- a product that overflows is of a duration far out of range
      rw [checkedMul, if_neg hfits]
      refine iff_of_false (fun h => by cases h) ?_
      rintro ⟨rfl, -, hmax⟩
      rw [maxDurationMs] at hmax
      omega
  · rw [checkedSub, if_neg hle]
    exact iff_of_false (fun h => by cases h) (fun h => hle h.1)

/-- The parser never faults, and accepts exactly the recordings of a duration in range. -/
theorem oggOpusDurationMs_exact (recording : BytesRef) :
    oggOpusDurationMs recording ≠ .error .fault ∧
      ∀ durationMs, oggOpusDurationMs recording = .ok durationMs ↔
        IsRecordingOf recording.bytes durationMs := by
  constructor
  · have hpages : OggScan.pages recording.bytes {} ≠ .error .fault :=
      (OggScan.guarded_of_pages recording.bounded (Nat.zero_le _)).1
    exact bind_ne_fault hpages fun s =>
      bind_ne_fault (context_ne_fault _ _) fun granule =>
      bind_ne_fault (context_ne_fault _ _) fun preSkip =>
      bind_ne_fault (context_ne_fault _ _) fun samples =>
      bind_ne_fault (context_ne_fault _ _) fun scaled =>
      bind_ne_fault (bailIf_ne_fault _ _) fun _ h => by cases h
  · intro durationMs
    constructor
    · intro h
      obtain ⟨s, hs, h⟩ := bind_eq_ok.mp h
      obtain ⟨granule, hgranule, h⟩ := bind_eq_ok.mp h
      obtain ⟨preSkip, hskip, h⟩ := bind_eq_ok.mp h
      obtain ⟨ps, hbytes, hguarded, rfl⟩ := (pages_eq_ok recording.bounded s).mp hs
      rw [context_eq_ok] at hgranule hskip
      cases ps with
      | nil => cases hgranule
      | cons first rest =>
        obtain ⟨hhead, hrest⟩ := hguarded
        rw [OggScan.lastGranule_run, Option.or_none] at hgranule
        rw [run_cons, OggScan.preSkip_run rest rfl] at hskip
        cases hskip
        exact ⟨first, rest, granule, hbytes, (OggScan.guarded_iff rfl rfl).mp hrest, hhead,
          hgranule, durationMs_ok.mp h⟩
    · rintro ⟨first, rest, granule, hbytes, hstream, hhead, hgranule, hduration⟩
      have hguarded : Guarded OggScan.after OggScan.Admits {} (first :: rest) :=
        ⟨hhead, (OggScan.guarded_iff rfl rfl).mpr hstream⟩
      refine bind_eq_ok.mpr ⟨_, (pages_eq_ok recording.bounded _).mpr
        ⟨_, hbytes, hguarded, rfl⟩, ?_⟩
      refine bind_eq_ok.mpr ⟨granule, ?_, ?_⟩
      · rw [context_eq_ok, OggScan.lastGranule_run, Option.or_none]
        exact hgranule
      refine bind_eq_ok.mpr ⟨opusPreSkip first.body, ?_, durationMs_ok.mpr hduration⟩
      rw [context_eq_ok, run_cons, OggScan.preSkip_run rest rfl]
      rfl

end OmarchyWhatsapp
