import Mathlib
import OmarchyWhatsapp.Database.SettingsTheorems

/-!
# Read coverage

What a chat has read is kept three times over: a boundary in time, the ids of messages that
are read but not stored, and the read flag of every stored message. `ReadCoverage` says
that the flags agree with the other two, and `KeepsCoverage` that an operation takes no
message out of the coverage of its chat. Both hold for every operation but a migration that
drops the ids or skips the rows of one of the two identities.
-/

namespace OmarchyWhatsapp

open Relational

variable (plan : QueryPlan)

/-! ## The events that move a boundary -/

/-- The call of `apply_read_boundary` an operation makes. -/
def Op.boundaryEvent (s : Store) : Op → Option (String × ℤ × List String)
  | .markRead chatJid => some (chatJid, (maximumMessageTimestamp s chatJid).getD 0, [])
  | .applyReadState chatJid read =>
    if read then some (chatJid, (maximumMessageTimestamp s chatJid).getD 0, []) else none
  | .applySyncedReadState chatJid read boundary ids eventTimestamp =>
    if eventTimestamp < (settingsOf s chatJid).readStateUpdatedAt ∨ read = false then none
    else some (chatJid, syncedBoundary plan s chatJid boundary ids eventTimestamp, ids)
  | .applySelfReadReceipt chatJid ids timestamp =>
    if ids.isEmpty then none else some (chatJid, receiptBoundary plan s chatJid ids timestamp, ids)
  | _ => none

section BoundaryEvents

variable {s : Store}

/-- Such an operation does to marks and messages what `apply_read_boundary` does. -/
theorem apply_of_boundaryEvent {op : Op} {chatJid : String} {boundary : ℤ} {ids : List String}
    (h : op.boundaryEvent plan s = some (chatJid, boundary, ids)) :
    (s.apply plan op).marks = (applyReadBoundary plan s chatJid boundary ids).1.marks ∧
      (s.apply plan op).messages
        = (applyReadBoundary plan s chatJid boundary ids).1.messages := by
  cases op with
  | markRead c =>
    cases h
    exact ⟨rfl, rfl⟩
  | applyReadState c read =>
    cases read with
    | true =>
      cases h
      exact ⟨rfl, rfl⟩
    | false => cases h
  | applySyncedReadState c read b l eventTimestamp =>
    simp only [Op.boundaryEvent] at h
    split at h
    · cases h
    · rename_i hfresh
      push Not at hfresh
      cases h
      have hread : read = true := by simpa using hfresh.2
      simp only [Store.apply, applySyncedReadState, if_neg (not_lt.mpr hfresh.1), hread, if_true]
      exact ⟨marks_stampReadState _ _ _, rfl⟩
  | applySelfReadReceipt c l timestamp =>
    simp only [Op.boundaryEvent] at h
    split at h
    · cases h
    · rename_i hempty
      cases h
      rw [Store.apply, applySelfReadReceipt, if_neg hempty]
      exact ⟨rfl, rfl⟩
  | _ => cases h

/-- The columns of a settings row that say what is read. -/
def SameCoverage (s s' : Store) : Prop :=
  ∀ jid, (s'.marks jid).readBoundary = (s.marks jid).readBoundary ∧
    (s'.marks jid).readBoundaryIds = (s.marks jid).readBoundaryIds

theorem SameCoverage.of_marks_eq {s' : Store} (h : s'.marks = s.marks) : SameCoverage s s' :=
  fun jid => by rw [h]; exact ⟨rfl, rfl⟩

theorem insertMessageInner_sameCoverage {insert : MessageInsert}
    (hlive : insert.fromHistory = false) :
    SameCoverage s (insertMessageInner plan s insert).1 := by
  intro jid
  change ((insertMessageInto s insert).1.marks jid).readBoundary = _ ∧
    ((insertMessageInto s insert).1.marks jid).readBoundaryIds = _
  by_cases hs : suppressed s insert.message = true
  · rw [insertMessageInto_of_suppressed hs]
    exact ⟨rfl, rfl⟩
  · rw [marks_insertMessageInto s hlive (by simpa using hs)]
    split <;> exact ⟨rfl, rfl⟩

/-- The other operations leave the coverage of every chat as it is. -/
theorem apply_sameCoverage {op : Op} (hmig : op.isMigration = false)
    (h : op.boundaryEvent plan s = none) : SameCoverage s (s.apply plan op) := by
  cases op with
  | insertMessage => exact insertMessageInner_sameCoverage plan rfl
  | insertMessageWithReadIntent => exact insertMessageInner_sameCoverage plan rfl
  | markRead => cases h
  | applyReadState c read =>
    cases read with
    | true => cases h
    | false => exact .of_marks_eq (marks_applyReadState_unread plan s c)
  | applySyncedReadState c read b l eventTimestamp =>
    simp only [Op.boundaryEvent] at h
    split at h
    · rename_i hstale
      simp only [Store.apply, applySyncedReadState]
      split
      · exact fun _ => ⟨rfl, rfl⟩
      · rename_i hfresh
        have hread : read = false := hstale.resolve_left hfresh
        simp only [hread, Bool.false_eq_true, if_false]
        refine .of_marks_eq ?_
        rw [marks_stampReadState, marks_applyReadState_unread]
    · cases h
  | applySelfReadReceipt c l timestamp =>
    simp only [Op.boundaryEvent] at h
    split at h
    · rename_i hempty
      simp only [Store.apply, applySelfReadReceipt, if_pos hempty]
      exact fun _ => ⟨rfl, rfl⟩
    · cases h
  | deleteChat c timestamp =>
    by_cases hstale : timestamp < (s.marks c).clearedAt
    · rw [Store.apply, deleteChat_of_stale s hstale]
      exact fun _ => ⟨rfl, rfl⟩
    · intro jid
      rw [Store.apply, marks_deleteChat s (not_lt.mp hstale)]
      split <;> exact ⟨rfl, rfl⟩
  | clearChat c timestamp =>
    by_cases hstale : timestamp < (s.marks c).clearedAt
    · rw [Store.apply, clearChat_of_stale s hstale]
      exact fun _ => ⟨rfl, rfl⟩
    · intro jid
      rw [Store.apply, marks_clearChat s (not_lt.mp hstale)]
      split <;> exact ⟨rfl, rfl⟩
  | applyPinAt => exact .of_marks_eq (marks_applyPinAt s _ _ _)
  | applyArchiveAt => exact .of_marks_eq (marks_applyArchiveAt s _ _ _)
  | applyMuteAt => exact .of_marks_eq (marks_applyMuteAt s _ _ _ _)
  | insertHistoryConversation => exact .of_marks_eq (marks_of_eq (by simp [Store.apply]))
  | updateContactName =>
    exact .of_marks_eq (marks_of_eq (by simp [Store.apply, updateContactName]))
  | updateAddressBookName =>
    exact .of_marks_eq (marks_of_eq (by simp [Store.apply, updateAddressBookName]))
  | updateGroupName => exact .of_marks_eq (marks_of_eq (by simp [Store.apply]))
  | applyReaction => exact .of_marks_eq (marks_of_eq (by simp [Store.apply]))
  | storePollSecret => exact .of_marks_eq (marks_of_eq (by simp [Store.apply]))
  | applyPollVote => exact .of_marks_eq (marks_of_eq (by simp))
  | updateReceipts => exact .of_marks_eq (marks_of_eq (by simp [Store.apply]))
  | migrateContactJid => cases hmig
  | _ => exact .of_marks_eq (marks_of_eq rfl)

end BoundaryEvents

/-! ## The two properties -/

/-- Every stored incoming message that its chat covers is read. -/
structure ReadCoverage (s : Store) : Prop where
  nonneg : ∀ jid, 0 ≤ (s.marks jid).readBoundary
  read : ∀ m ∈ s.messages.rows, m.fromMe = false →
    coveredBySelfRead s m.chatJid m.id m.timestamp = true → m.read = true

/-- The ids that `READ_BOUNDARY_IDS_CAP` drops when an operation moves a boundary. -/
def Op.evicts (s : Store) (op : Op) (chatJid id : String) : Prop :=
  ∃ boundary ids, op.boundaryEvent plan s = some (chatJid, boundary, ids) ∧
    let outstanding := (addBoundaryIds (s.marks chatJid).readBoundaryIds ids).filter
      (idOutstanding plan s chatJid
        (max (s.marks chatJid).readBoundary (candidateBoundary boundary ids)))
    id ∈ outstanding.take (outstanding.length - readBoundaryIdsCap)

/-- The identity a chat goes by after an operation. -/
def Op.survivor (s : Store) (op : Op) (jid : String) : String :=
  match op with
  | .migrateContactJid oldJid newJid =>
    if Migrates s oldJid newJid then renamed oldJid newJid jid else jid
  | _ => jid

/-- A message that its chat covers before an operation is covered after it. A message is an
id with the time that its stored rows, if there are any, agree on. -/
def KeepsCoverage (s : Store) (op : Op) : Prop :=
  ∀ jid id timestamp, (∀ m ∈ s.messagesById jid id, m.timestamp = timestamp) →
    coveredBySelfRead s jid id timestamp = true → ¬op.evicts plan s jid id →
      coveredBySelfRead (s.apply plan op) (op.survivor s jid) id timestamp = true

/-! ## What a migration may merge -/

/-- The ids that the merged chat remembers: those of the later boundary. -/
def survivingIds (s : Store) (oldJid newJid : String) : List String :=
  if s.hasSettings newJid ∧ (s.marks oldJid).readBoundary ≤ (s.marks newJid).readBoundary
  then (s.marks newJid).readBoundaryIds
  else (s.marks oldJid).readBoundaryIds

/-- The later of the two boundaries. -/
def laterBoundary (s : Store) (oldJid newJid : String) : ℤ :=
  max (s.marks oldJid).readBoundary (s.marks newJid).readBoundary

/-- The steps that keep read coverage: where the two identities of a migration remember
different reads, an id is given up only when its message is stored at or below the later
boundary, and a message that only the other identity covers is read already. -/
def CoverageGuard (s : Store) : Op → Prop
  | .migrateContactJid oldJid newJid => Migrates s oldJid newJid →
    (∀ jid ∈ [oldJid, newJid], ∀ id ∈ (s.marks jid).readBoundaryIds,
      id ∈ survivingIds s oldJid newJid ∨
        ∃ m ∈ s.messagesById jid id, m.timestamp ≤ laterBoundary s oldJid newJid) ∧
    ∀ m ∈ s.messages.rows, m.chatJid = oldJid ∨ m.chatJid = newJid → m.fromMe = false →
      (m.timestamp ≤ laterBoundary s oldJid newJid ∨ m.id ∈ survivingIds s oldJid newJid) →
      ∃ copy ∈ s.messages.rows, renameIdentity oldJid newJid copy.key
        = renameIdentity oldJid newJid m.key ∧ copy.read = true
  | _ => True

instance (s : Store) (op : Op) : Decidable (CoverageGuard s op) := by
  apply Op.casesOn (motive := fun op => Decidable (CoverageGuard s op)) op
  all_goals
    intros
    dsimp only [CoverageGuard]
    infer_instance

/-! ## Moving a boundary -/

section Steps

variable {s : Store}

theorem covered_iff {jid id : String} {timestamp : ℤ} :
    coveredBySelfRead s jid id timestamp = true ↔
      timestamp ≤ (s.marks jid).readBoundary ∨ id ∈ (s.marks jid).readBoundaryIds := by
  rw [coveredBySelfRead_eq, Bool.or_eq_true, decide_eq_true_eq, List.contains_iff_mem]
  rfl

theorem mem_addBoundaryIds {covered ids : List String} {id : String} :
    id ∈ addBoundaryIds covered ids ↔ id ∈ covered ∨ id ∈ ids := by
  unfold addBoundaryIds
  induction ids generalizing covered with
  | nil => simp
  | cons x ids ih =>
    rw [List.foldl_cons, ih]
    split
    · rename_i hx
      rw [List.contains_iff_mem] at hx
      constructor
      · rintro (h | h)
        · exact Or.inl h
        · exact Or.inr (List.mem_cons_of_mem _ h)
      · rintro (h | h)
        · exact Or.inl h
        · rcases List.mem_cons.mp h with rfl | h
          · exact Or.inl hx
          · exact Or.inr h
    · simp [or_assoc]

theorem marks_applyReadBoundary (chatJid : String) (boundary : ℤ) (ids : List String)
    (jid : String) :
    (applyReadBoundary plan s chatJid boundary ids).1.marks jid
      = if jid = chatJid then
          { s.marks chatJid with
            readBoundary := max (s.marks chatJid).readBoundary (candidateBoundary boundary ids)
            readBoundaryIds := retainedIds plan s chatJid
              (max (s.marks chatJid).readBoundary (candidateBoundary boundary ids))
              (addBoundaryIds (s.marks chatJid).readBoundaryIds ids) }
        else s.marks jid := by
  simp only [Store.marks, settingsOf_applyReadBoundary]
  split
  · simp only [ChatSettingsRow.marks]
  · rfl

theorem mem_retainedIds {chatJid : String} {boundary : ℤ} {covered : List String} {id : String}
    (h : id ∈ retainedIds plan s chatJid boundary covered) : id ∈ covered :=
  List.mem_of_mem_filter (List.mem_of_mem_drop h)

/-- An id with a stored row at or below the boundary is the only kind not remembered. -/
theorem idOutstanding_eq_false {chatJid id : String} {boundary : ℤ}
    (h : idOutstanding plan s chatJid boundary id = false) :
    ∃ m ∈ s.messagesById chatJid id, m.timestamp ≤ boundary := by
  unfold idOutstanding messageTimestamp at h
  rcases hm : (plan.scan (s.messagesById chatJid id)).head? with _ | m
  · rw [hm] at h
    cases h
  · rw [hm] at h
    exact ⟨m, plan.mem_of_head?_scan hm, by simpa using h⟩

/-- A message row after the boundary moved. -/
theorem mem_applyReadBoundary {chatJid : String} {boundary : ℤ} {ids : List String}
    {m' : MessageRow}
    (h : m' ∈ (applyReadBoundary plan s chatJid boundary ids).1.messages.rows) :
    ∃ m ∈ s.messages.rows, m.Evolves m' ∧ (m'.read = false → boundaryMarks chatJid
      (max (s.marks chatJid).readBoundary (candidateBoundary boundary ids)) ids m = false) := by
  obtain ⟨m, hm, rfl⟩ := List.mem_map.mp h
  refine ⟨m, hm, ?_⟩
  split
  · exact ⟨⟨rfl, rfl, rfl, fun _ => rfl⟩, fun hr => by cases hr⟩
  · rename_i hmark
    exact ⟨.refl m, fun _ => Bool.eq_false_iff.mpr hmark⟩

theorem ReadCoverage.applyReadBoundary (h : ReadCoverage s) (chatJid : String) (boundary : ℤ)
    (ids : List String) :
    ReadCoverage (applyReadBoundary plan s chatJid boundary ids).1 where
  nonneg jid := by
    rw [marks_applyReadBoundary]
    split
    · exact (h.nonneg chatJid).trans (le_max_left _ _)
    · exact h.nonneg jid
  read m' hm' hown hcov := by
    obtain ⟨m, hm, he, hmark⟩ := mem_applyReadBoundary plan hm'
    rw [covered_iff, he.chatJid, he.id, he.timestamp, marks_applyReadBoundary] at hcov
    rw [he.fromMe] at hown
    by_contra hunread
    rw [Bool.not_eq_true] at hunread
    have hunread₀ : m.read = false := Bool.eq_false_iff.mpr fun hr => by
      rw [he.read hr] at hunread
      cases hunread
    have hnot : ¬coveredBySelfRead s m.chatJid m.id m.timestamp = true := fun hc => by
      rw [h.read m hm hown hc] at hunread₀
      cases hunread₀
    rw [covered_iff, not_or] at hnot
    split at hcov
    · rename_i hc
      dsimp only at hcov
      rw [hc] at hnot
      have hnomark := hmark hunread
      simp only [boundaryMarks, hc, MessageRow.unread, hown, hunread₀, Bool.not_false,
        Bool.and_self, decide_true, Bool.true_and, Bool.or_eq_false_iff,
        decide_eq_false_iff_not] at hnomark
      rcases hcov with hle | hmem
      · exact hnomark.1 hle
      · have hmem := mem_retainedIds plan hmem
        rcases mem_addBoundaryIds.mp hmem with hmem | hmem
        · exact hnot.2 hmem
        · rw [List.contains_iff_mem.mpr hmem] at hnomark
          cases hnomark.2
    · exact hcov.elim hnot.1 hnot.2

theorem ReadCoverage.congr {s' : Store} (h : ReadCoverage s') (hmarks : s.marks = s'.marks)
    (hmessages : s.messages = s'.messages) : ReadCoverage s where
  nonneg jid := hmarks ▸ h.nonneg jid
  read m hm hown hcov := by
    rw [covered_iff, hmarks, ← covered_iff] at hcov
    exact h.read m (hmessages ▸ hm) hown hcov

/-! ## Migration -/

/-- The coverage of the merged chat. -/
theorem marks_migrateContactJid (hpos : ∀ jid, 0 ≤ (s.marks jid).readBoundary)
    {oldJid newJid : String} (hmig : Migrates s oldJid newJid) (jid : String) :
    ((migrateContactJid plan s oldJid newJid).1.marks jid).readBoundary
        = (if jid = oldJid then 0 else if jid = newJid then laterBoundary s oldJid newJid
            else (s.marks jid).readBoundary) ∧
      ((migrateContactJid plan s oldJid newJid).1.marks jid).readBoundaryIds
        = (if jid = oldJid then [] else if jid = newJid then survivingIds s oldJid newJid
            else (s.marks jid).readBoundaryIds) := by
  have ho := hpos oldJid
  have hn := hpos newJid
  simp only [Store.marks, settingsOf, migrateContactJid_settings plan hmig]
  split
  · exact ⟨rfl, rfl⟩
  · split
    · rename_i hj
      subst hj
      simp only [laterBoundary, survivingIds, hasSettings_iff_find?, Store.marks, settingsOf,
        mergedSettings] at ho hn ⊢
      rcases Option.eq_none_or_eq_some (s.chatSettings.find? oldJid) with hoc | ⟨c, hoc⟩ <;>
        rcases Option.eq_none_or_eq_some (s.chatSettings.find? jid) with hnc | ⟨d, hnc⟩ <;>
        simp only [hoc, hnc, Option.elim_none, Option.elim_some, Option.getD_none,
          Option.getD_some, ChatSettingsRow.marks, migratedSettings, mergeSettings] at ho hn ⊢
      · simp
      · simp [hasSettings_iff_find?, hnc, hn]
      · simp [hasSettings_iff_find?, hnc, ho]
      · rw [max_comm]
        by_cases hlt : d.readBoundary < c.readBoundary
        · simp [hlt]
        · simp [hasSettings_iff_find?, hnc, hlt, not_lt.mp hlt]
    · exact ⟨rfl, rfl⟩

theorem ReadCoverage.migrateContactJid (h : ReadCoverage s) {oldJid newJid : String}
    (hg : CoverageGuard s (.migrateContactJid oldJid newJid)) :
    ReadCoverage (migrateContactJid plan s oldJid newJid).1 := by
  by_cases hmig : Migrates s oldJid newJid
  swap
  · rw [migrateContactJid_of_not_migrates plan hmig]
    exact h
  refine ⟨fun jid => ?_, fun m' hm' hown hcov => ?_⟩
  · rw [(marks_migrateContactJid plan h.nonneg hmig jid).1]
    split
    · exact le_rfl
    · split
      · exact (h.nonneg oldJid).trans (le_max_left _ _)
      · exact h.nonneg jid
  · obtain ⟨m₁, hm₁, he⟩ := migrateContactJid_messagesFrom plan hmig m' hm'
    have hmerged := (Table.mem_deleteWhere.mp hm₁).1
    have hby := mergedMessages_mergedBy plan hmig.1 (s := s)
    obtain ⟨m, hm, hk, htime, hfrom⟩ := hby.origin m₁ hmerged
    have hc : renamed oldJid newJid m.chatJid = m'.chatJid :=
      (congrArg Prod.fst hk).trans he.chatJid.symm
    have hid : m.id = m'.id := (congrArg (fun k => k.2.2) hk).trans he.id.symm
    have hincoming : m.fromMe = false := by
      rw [Bool.eq_false_iff]
      intro hf
      rw [he.fromMe, hfrom hf] at hown
      cases hown
    -- a read copy makes the merged row read
    suffices hcopy : ∃ copy ∈ s.messages.rows, renameIdentity oldJid newJid copy.key
        = renameIdentity oldJid newJid m.key ∧ copy.read = true by
      obtain ⟨copy, hcopy, hkey, hread⟩ := hcopy
      exact he.read (hby.read m₁ hmerged copy hcopy (hkey.trans hk) hread)
    have hold : m'.chatJid ≠ oldJid := hc ▸ renamed_ne hmig.1 _
    obtain ⟨hb, hids⟩ := marks_migrateContactJid plan h.nonneg hmig m'.chatJid
    rw [covered_iff, hb, hids, if_neg hold, if_neg hold, ← hid, he.timestamp, ← htime] at hcov
    by_cases hj : m'.chatJid = newJid
    · rw [if_pos hj, if_pos hj] at hcov
      have hchat : m.chatJid = oldJid ∨ m.chatJid = newJid := by
        rcases renamed_eq.mp (hc.trans hj) with ⟨ho, -⟩ | ⟨-, hn⟩
        · exact Or.inl ho
        · exact Or.inr hn
      exact (hg hmig).2 m hm hchat hincoming hcov
    · have hsame : m.chatJid = m'.chatJid := by
        rcases renamed_eq.mp hc with ⟨-, hn⟩ | ⟨-, he⟩
        · exact absurd hn.symm hj
        · exact he
      rw [if_neg hj, if_neg hj, ← covered_iff, ← hsame] at hcov
      exact ⟨m, hm, rfl, h.read m hm hincoming hcov⟩

/-! ## Every operation -/

/-- One guarded operation keeps the flags in agreement with the coverage. -/
theorem ReadCoverage.apply (h : ReadCoverage s) {op : Op} (hg : CoverageGuard s op) :
    ReadCoverage (s.apply plan op) := by
  by_cases hmig : op.isMigration = true
  · cases op with
    | migrateContactJid => exact h.migrateContactJid plan hg
    | _ => cases hmig
  rw [Bool.not_eq_true] at hmig
  rcases hevent : op.boundaryEvent plan s with _ | ⟨chatJid, boundary, ids⟩
  · have hsame := apply_sameCoverage plan hmig hevent
    refine ⟨fun jid => (hsame jid).1 ▸ h.nonneg jid, fun m' hm' hown hcov => ?_⟩
    rw [covered_iff, (hsame _).1, (hsame _).2, ← covered_iff] at hcov
    rcases apply_messagesOf plan s op hmig m' hm' with ⟨m, hm, he⟩ | ⟨message, -, m, ha, he⟩
    · rw [he.chatJid, he.id, he.timestamp] at hcov
      exact he.read (h.read m hm (he.fromMe ▸ hown) hcov)
    · rw [he.chatJid, he.id, he.timestamp, ha.chatJid, ha.id, ha.timestamp] at hcov
      refine he.read (by_contra fun hr => ?_)
      rw [ha.unread (by simpa using hr)] at hcov
      cases hcov
  · obtain ⟨hmarks, hmessages⟩ := apply_of_boundaryEvent plan hevent
    exact (h.applyReadBoundary plan chatJid boundary ids).congr hmarks hmessages

/-- One guarded operation keeps what a chat covers. -/
theorem keepsCoverage_of_guard (h : ReadCoverage s) {op : Op} (hg : CoverageGuard s op) :
    KeepsCoverage plan s op := by
  intro jid id timestamp hrows hcov hkept
  rw [covered_iff] at hcov ⊢
  by_cases hmig : op.isMigration = true
  · cases op with
    | migrateContactJid oldJid newJid =>
      by_cases hdo : Migrates s oldJid newJid
      swap
      · simp only [Op.survivor, Store.apply, if_neg hdo,
          migrateContactJid_of_not_migrates plan hdo]
        exact hcov
      obtain ⟨hids, -⟩ := hg hdo
      simp only [Op.survivor, if_pos hdo, Store.apply]
      obtain ⟨hb, hi⟩ := marks_migrateContactJid plan h.nonneg hdo (renamed oldJid newJid jid)
      rw [hb, hi, if_neg (renamed_ne hdo.1 _), if_neg (renamed_ne hdo.1 _)]
      -- what either identity covers is covered by the later boundary and the surviving ids
      have hmerged : ∀ jid' ∈ [oldJid, newJid], jid = jid' →
          timestamp ≤ laterBoundary s oldJid newJid ∨ id ∈ survivingIds s oldJid newJid := by
        intro jid' hjid' hj
        subst hj
        rcases hcov with hle | hmem
        · refine Or.inl (hle.trans ?_)
          simp only [List.mem_cons, List.not_mem_nil, or_false] at hjid'
          rcases hjid' with rfl | rfl
          · exact le_max_left _ _
          · exact le_max_right _ _
        · rcases hids jid hjid' id hmem with hsurvives | ⟨m, hm, hle⟩
          · exact Or.inr hsurvives
          · exact Or.inl (hrows m hm ▸ hle)
      by_cases ho : jid = oldJid
      · rw [ho, renamed_old, if_pos rfl, if_pos rfl]
        exact hmerged oldJid (by simp) ho
      · rw [renamed_of_ne ho]
        by_cases hn : jid = newJid
        · rw [if_pos hn, if_pos hn]
          exact hmerged newJid (by simp) hn
        · rw [if_neg hn, if_neg hn]
          exact hcov
    | _ => cases hmig
  rw [Bool.not_eq_true] at hmig
  have hsurvivor : op.survivor s jid = jid := by
    cases op <;> first | rfl | cases hmig
  rw [hsurvivor]
  rcases hevent : op.boundaryEvent plan s with _ | ⟨chatJid, boundary, ids⟩
  · rw [(apply_sameCoverage plan hmig hevent jid).1, (apply_sameCoverage plan hmig hevent jid).2]
    exact hcov
  · rw [(apply_of_boundaryEvent plan hevent).1, marks_applyReadBoundary]
    split
    · rename_i hj
      subst hj
      rcases hcov with hle | hmem
      · exact Or.inl (hle.trans (le_max_left _ _))
      · rcases hout : idOutstanding plan s jid
          (max (s.marks jid).readBoundary (candidateBoundary boundary ids)) id with _ | _
        · -- not remembered any more: its stored rows lie below the boundary
          obtain ⟨m, hm, hle⟩ := idOutstanding_eq_false plan hout
          exact Or.inl (hrows m hm ▸ hle)
        · refine Or.inr ?_
          have hin : id ∈ (addBoundaryIds (s.marks jid).readBoundaryIds ids).filter
              (idOutstanding plan s jid
                (max (s.marks jid).readBoundary (candidateBoundary boundary ids))) :=
            List.mem_filter.mpr ⟨mem_addBoundaryIds.mpr (Or.inl hmem), hout⟩
          rw [← List.take_append_drop (_ - readBoundaryIdsCap) (List.filter _ _)] at hin
          rcases List.mem_append.mp hin with htake | hdrop
          · exact absurd ⟨boundary, ids, hevent, htake⟩ hkept
          · dsimp only [retainedIds]
            exact hdrop
    · exact hcov

end Steps

end OmarchyWhatsapp
