import OmarchyWhatsapp.Database.WellFormed

/-!
# What the operations do to the settings of a chat

Four columns of `chat_settings` say what is gone and what is read: `deleted`,
`cleared_at`, `read_boundary` and `read_boundary_ids`. The other operations carry them
along; a settings row that an operation creates starts with their defaults.
-/

namespace OmarchyWhatsapp

open Relational

variable (plan : QueryPlan)

/-! ## Marks -/

/-- What a chat has lost and what it has read. -/
structure ChatMarks where
  deleted : Bool
  clearedAt : ℤ
  readBoundary : ℤ
  readBoundaryIds : List String

def ChatSettingsRow.marks (c : ChatSettingsRow) : ChatMarks :=
  ⟨c.deleted, c.clearedAt, c.readBoundary, c.readBoundaryIds⟩

def Store.marks (s : Store) (jid : String) : ChatMarks := (settingsOf s jid).marks

/-- The chat has a settings row. -/
def Store.hasSettings (s : Store) (jid : String) : Prop := ∃ c ∈ s.chatSettings.rows, c.jid = jid

instance (s : Store) (jid : String) : Decidable (s.hasSettings jid) :=
  inferInstanceAs (Decidable (∃ c ∈ s.chatSettings.rows, c.jid = jid))

theorem hasSettings_iff_find? {s : Store} {jid : String} :
    s.hasSettings jid ↔ ∃ c, s.chatSettings.find? jid = some c := by
  simp only [Store.hasSettings, Table.find?_eq_some]

theorem chatDeleted_eq (s : Store) (jid : String) :
    chatDeleted s jid = (s.marks jid).deleted := by
  unfold chatDeleted Store.marks settingsOf
  cases s.chatSettings.find? jid <;> rfl

/-- A message is in the cleared window when the chat has settings that say so. -/
theorem stateSuppressed_iff_marks {s : Store} {jid : String} {timestamp : ℤ} :
    stateSuppressed s jid timestamp = true ↔
      s.hasSettings jid ∧ timestamp ≤ (s.marks jid).clearedAt := by
  rw [stateSuppressed_iff, hasSettings_iff_find?]
  unfold Store.marks settingsOf
  cases s.chatSettings.find? jid <;> simp [ChatSettingsRow.marks]

section Rows

variable {s s' : Store} {jid : String}

theorem marks_of_eq (h : s'.chatSettings = s.chatSettings) : s'.marks = s.marks := by
  funext jid
  simp only [Store.marks, settingsOf, h]

theorem hasSettings_of_eq (h : s'.chatSettings = s.chatSettings) :
    s'.hasSettings jid ↔ s.hasSettings jid := by
  rw [Store.hasSettings, h, Store.hasSettings]

/-- The row an upsert leaves has the marks of the row it found, or the default ones. -/
theorem marks_upserted {row : Option ChatSettingsRow} {r d : ChatSettingsRow}
    {merge : ChatSettingsRow → ChatSettingsRow} (hr : r.marks = d.marks)
    (hmerge : ∀ c, (merge c).marks = c.marks) :
    (row.elim r merge).marks = (row.getD d).marks := by
  cases row with
  | none => exact hr
  | some c => exact hmerge c

end Rows

/-! ## Reviving, reading and stamping -/

section Operations

variable (s : Store)

theorem marks_reviveChat (insert : MessageInsert) (jid : String) :
    (reviveChat s insert).marks jid
      = if insert.fromHistory = false ∧ jid = insert.message.chatJid then
          { s.marks jid with
            deleted := if (s.marks jid).clearedAt < insert.message.timestamp then false
              else (s.marks jid).deleted }
        else s.marks jid := by
  unfold reviveChat
  cases insert.fromHistory with
  | true => simp
  | false =>
    by_cases hj : jid = insert.message.chatJid
    · rcases h : s.chatSettings.find? jid with _ | old <;>
        simp [Store.marks, settingsOf, Table.find?_upsert, ← hj, h, ChatSettingsRow.marks]
    · simp [Store.marks, settingsOf, Table.find?_upsert, hj]

theorem hasSettings_reviveChat {insert : MessageInsert} {jid : String} :
    (reviveChat s insert).hasSettings jid ↔
      s.hasSettings jid ∨ (insert.fromHistory = false ∧ jid = insert.message.chatJid) := by
  unfold reviveChat
  cases insert.fromHistory with
  | true => simp
  | false =>
    simp only [Bool.false_eq_true, if_false, true_and, hasSettings_iff_find?,
      Table.find?_upsert]
    split <;> simp [*]

theorem insertMessageInto_settings {insert : MessageInsert}
    (h : suppressed s insert.message = false) :
    (insertMessageInto s insert).1.chatSettings = (reviveChat s insert).chatSettings := by
  rw [insertMessageInto, if_neg (by simp [h])]
  simp

/-- An accepted live message leaves its chat undeleted. -/
theorem marks_insertMessageInto {insert : MessageInsert}
    (hlive : insert.fromHistory = false) (h : suppressed s insert.message = false)
    (jid : String) :
    (insertMessageInto s insert).1.marks jid
      = if jid = insert.message.chatJid then { s.marks jid with deleted := false }
        else s.marks jid := by
  rw [marks_of_eq (insertMessageInto_settings s h), marks_reviveChat]
  simp only [hlive, true_and]
  split
  · rename_i hj
    subst hj
    have hs : stateSuppressed s insert.message.chatJid insert.message.timestamp = false := by
      rw [suppressed, Bool.or_eq_false_iff] at h
      exact h.2
    by_cases hset : s.hasSettings insert.message.chatJid
    · have hnot : ¬insert.message.timestamp ≤ (s.marks insert.message.chatJid).clearedAt :=
        fun hle => by
          rw [stateSuppressed_iff_marks.mpr ⟨hset, hle⟩] at hs
          cases hs
      rw [if_pos (not_le.mp hnot)]
    · have hnone : s.chatSettings.find? insert.message.chatJid = none := by
        rw [hasSettings_iff_find?] at hset
        push Not at hset
        exact Option.eq_none_iff_forall_ne_some.mpr hset
      simp [Store.marks, settingsOf, hnone, ChatSettingsRow.marks]
  · rfl

theorem hasSettings_insertMessageInto {insert : MessageInsert}
    (hlive : insert.fromHistory = false) (h : suppressed s insert.message = false)
    {jid : String} :
    (insertMessageInto s insert).1.hasSettings jid ↔
      s.hasSettings jid ∨ jid = insert.message.chatJid := by
  rw [hasSettings_of_eq (insertMessageInto_settings s h), hasSettings_reviveChat]
  simp [hlive]

theorem settingsOf_applyReadBoundary (chatJid : String) (timestamp : ℤ) (ids : List String)
    (jid : String) :
    settingsOf (applyReadBoundary plan s chatJid timestamp ids).1 jid
      = if jid = chatJid then
          { settingsOf s chatJid with
            readBoundary := max (settingsOf s chatJid).readBoundary
              (candidateBoundary timestamp ids)
            readBoundaryIds := retainedIds plan s chatJid
              (max (settingsOf s chatJid).readBoundary (candidateBoundary timestamp ids))
              (addBoundaryIds (settingsOf s chatJid).readBoundaryIds ids)
            readState := some true
            explicitUnread := false }
        else settingsOf s jid := by
  have hfind : ∀ x, ((ensureSettings s chatJid).chatSettings.find? x)
      = if x = chatJid then some (settingsOf s chatJid) else s.chatSettings.find? x := by
    intro x
    simp only [ensureSettings, Table.find?_insertOrIgnore, settingsOf]
    split
    · rename_i h
      rw [h]
    · rfl
  have hkey : (settingsOf s chatJid).jid = chatJid := by
    unfold settingsOf
    rcases h : s.chatSettings.find? chatJid with _ | c
    · rfl
    · exact Table.key_of_find? h
  rw [settingsOf]
  simp only [applyReadBoundary, Table.find?_updateWhere, hfind]
  split
  · simp [hkey]
  · rename_i hj
    unfold settingsOf
    rcases h : s.chatSettings.find? jid with _ | c
    · rfl
    · have hc : c.jid ≠ chatJid := Table.key_of_find? h ▸ hj
      simp [hc]

theorem hasSettings_applyReadBoundary {chatJid : String} {timestamp : ℤ} {ids : List String}
    {jid : String} :
    (applyReadBoundary plan s chatJid timestamp ids).1.hasSettings jid ↔
      s.hasSettings jid ∨ jid = chatJid := by
  simp only [hasSettings_iff_find?, applyReadBoundary, Table.find?_updateWhere, ensureSettings,
    Table.find?_insertOrIgnore, Option.map_eq_some_iff]
  split <;> simp [*]

theorem hasSettings_stampReadState {chatJid : String} {eventTimestamp : ℤ} {jid : String} :
    (stampReadState s chatJid eventTimestamp).hasSettings jid ↔ s.hasSettings jid := by
  simp only [hasSettings_iff_find?, stampReadState, Table.find?_updateWhere,
    Option.map_eq_some_iff, exists_comm, exists_and_left, exists_eq', and_true]

theorem marks_stampReadState (chatJid : String) (eventTimestamp : ℤ) :
    (stampReadState s chatJid eventTimestamp).marks = s.marks := by
  funext jid
  simp only [Store.marks, settingsOf, stampReadState, Table.find?_updateWhere]
  rcases s.chatSettings.find? jid with _ | c
  · rfl
  · simp only [Option.map_some, Option.getD_some]
    split <;> rfl

/-- Reading a chat neither deletes nor clears anything. -/
def SameWindow (s s' : Store) : Prop :=
  ∀ jid, (s'.marks jid).deleted = (s.marks jid).deleted ∧
    (s'.marks jid).clearedAt = (s.marks jid).clearedAt

variable {s} in
theorem SameWindow.of_marks_eq {s' : Store} (h : s'.marks = s.marks) : SameWindow s s' :=
  fun jid => by rw [h]; exact ⟨rfl, rfl⟩

theorem applyReadBoundary_sameWindow (chatJid : String) (timestamp : ℤ) (ids : List String) :
    SameWindow s (applyReadBoundary plan s chatJid timestamp ids).1 := by
  intro jid
  simp only [Store.marks, settingsOf_applyReadBoundary]
  split
  · rename_i h
    rw [h]
    exact ⟨rfl, rfl⟩
  · exact ⟨rfl, rfl⟩

theorem marks_applyReadState_unread (chatJid : String) :
    (applyReadState plan s chatJid false).1.marks = s.marks := by
  rw [applyReadState, if_neg (by simp)]
  funext jid
  simp only [Store.marks, settingsOf, Table.find?_upsert]
  split
  · exact marks_upserted rfl (fun _ => rfl)
  · rfl

theorem applyReadState_sameWindow (chatJid : String) (read : Bool) :
    SameWindow s (applyReadState plan s chatJid read).1 := by
  cases read with
  | true => exact applyReadBoundary_sameWindow plan s _ _ _
  | false => exact .of_marks_eq (marks_applyReadState_unread plan s chatJid)

theorem applySyncedReadState_sameWindow (chatJid : String) (read : Bool)
    (boundary : Option ℤ) (ids : List String) (eventTimestamp : ℤ) :
    SameWindow s (applySyncedReadState plan s chatJid read boundary ids eventTimestamp).1 := by
  unfold applySyncedReadState
  split
  · exact fun _ => ⟨rfl, rfl⟩
  · intro jid
    simp only [marks_stampReadState]
    split
    · exact applyReadBoundary_sameWindow plan s _ _ _ jid
    · exact applyReadState_sameWindow plan s _ _ jid

theorem applySelfReadReceipt_sameWindow (chatJid : String) (ids : List String)
    (timestamp : ℤ) : SameWindow s (applySelfReadReceipt plan s chatJid ids timestamp).1 := by
  unfold applySelfReadReceipt
  split
  · exact fun _ => ⟨rfl, rfl⟩
  · exact applyReadBoundary_sameWindow plan s _ _ _

/-- Pins, archives and mutes come with settings of default marks. -/
theorem marks_applyPinAt (chatJid : String) (pinned : Bool) (updatedAt : ℤ) :
    (applyPinAt s chatJid pinned updatedAt).marks = s.marks := by
  funext jid
  simp only [Store.marks, settingsOf, applyPinAt, Table.find?_upsert]
  split
  · exact marks_upserted rfl (fun _ => rfl)
  · rfl

theorem marks_applyArchiveAt (chatJid : String) (archived : Bool) (updatedAt : ℤ) :
    (applyArchiveAt s chatJid archived updatedAt).marks = s.marks := by
  funext jid
  simp only [Store.marks, settingsOf, applyArchiveAt, Table.find?_upsert]
  split
  · exact marks_upserted rfl (fun _ => rfl)
  · rfl

theorem marks_applyMuteAt (chatJid : String) (muted : Bool) (muteEnd updatedAt : ℤ) :
    (applyMuteAt s chatJid muted muteEnd updatedAt).marks = s.marks := by
  funext jid
  simp only [Store.marks, settingsOf, applyMuteAt, Table.find?_upsert]
  split
  · exact marks_upserted rfl (fun _ => rfl)
  · rfl

/-! ## Deleting and clearing -/

/-- Whether messages newer than a deletion remain. -/
def hasNewer (s : Store) (chatJid : String) (timestamp : ℤ) : Bool :=
  !((deleteMessagesThrough s chatJid timestamp).chatMessages chatJid).isEmpty

theorem hasNewer_eq_false {s : Store} {chatJid : String} {timestamp : ℤ} :
    hasNewer s chatJid timestamp = false ↔
      ∀ m ∈ s.chatMessages chatJid, m.timestamp ≤ timestamp := by
  simp only [hasNewer, Bool.not_eq_false', List.isEmpty_iff, List.eq_nil_iff_forall_not_mem,
    Store.mem_chatMessages, mem_deleteMessagesThrough]
  constructor
  · rintro h m ⟨hm, hc⟩
    by_contra hlt
    exact h m ⟨⟨hm, fun _ => not_le.mp hlt⟩, hc⟩
  · rintro h m ⟨⟨hm, hnewer⟩, hc⟩
    exact not_lt.mpr (h m ⟨hm, hc⟩) (hnewer hc)

theorem deleteChat_of_stale {chatJid : String} {timestamp : ℤ}
    (h : timestamp < (s.marks chatJid).clearedAt) : deleteChat s chatJid timestamp = s :=
  if_pos h

theorem clearChat_of_stale {chatJid : String} {timestamp : ℤ}
    (h : timestamp < (s.marks chatJid).clearedAt) : clearChat s chatJid timestamp = s :=
  if_pos h

theorem deleteChat_settings {chatJid : String} {timestamp : ℤ}
    (h : (s.marks chatJid).clearedAt ≤ timestamp) (jid : String) :
    (deleteChat s chatJid timestamp).chatSettings.find? jid
      = if jid = chatJid then
          some ((s.chatSettings.find? jid).elim
            { jid := chatJid, deleted := true, clearedAt := timestamp }
            (fun old => { old with deleted := !hasNewer s chatJid timestamp,
                                   clearedAt := max old.clearedAt timestamp }))
        else s.chatSettings.find? jid := by
  have hclosed : ∀ s' : Store, s'.chatSettings = s.chatSettings →
      (s'.chatSettings.upsert { jid := chatJid, deleted := true, clearedAt := timestamp }
        (fun old _ => { old with deleted := !hasNewer s chatJid timestamp,
                                 clearedAt := max old.clearedAt timestamp })).find? jid
        = if jid = chatJid then
            some ((s.chatSettings.find? jid).elim
              { jid := chatJid, deleted := true, clearedAt := timestamp }
              (fun old => { old with deleted := !hasNewer s chatJid timestamp,
                                     clearedAt := max old.clearedAt timestamp }))
          else s.chatSettings.find? jid := by
    intro s' hs'
    rw [Table.find?_upsert, hs']
  have h' : (settingsOf s chatJid).clearedAt ≤ timestamp := h
  rw [deleteChat, if_neg (not_lt.mpr h')]
  refine hclosed _ ?_
  split <;> rfl

theorem clearChat_settings {chatJid : String} {timestamp : ℤ}
    (h : (s.marks chatJid).clearedAt ≤ timestamp) (jid : String) :
    (clearChat s chatJid timestamp).chatSettings.find? jid
      = if jid = chatJid then
          some ((s.chatSettings.find? jid).elim
            { jid := chatJid, readState := some true, explicitUnread := false,
              clearedAt := timestamp }
            (fun old => { old with readState := some true, explicitUnread := false,
                                   clearedAt := max old.clearedAt timestamp }))
        else s.chatSettings.find? jid := by
  have h' : (settingsOf s chatJid).clearedAt ≤ timestamp := h
  rw [clearChat, if_neg (not_lt.mpr h')]
  exact Table.find?_upsert _ _ _ _ _

theorem marks_deleteChat {chatJid : String} {timestamp : ℤ}
    (h : (s.marks chatJid).clearedAt ≤ timestamp) (jid : String) :
    (deleteChat s chatJid timestamp).marks jid
      = if jid = chatJid then
          { s.marks jid with
            deleted := !(decide (s.hasSettings chatJid) && hasNewer s chatJid timestamp)
            clearedAt := timestamp }
        else s.marks jid := by
  simp only [Store.marks, settingsOf, deleteChat_settings s h]
  by_cases hj : jid = chatJid
  · subst hj
    rcases hc : s.chatSettings.find? jid with _ | c
    · simp [hasSettings_iff_find?, hc, ChatSettingsRow.marks]
    · have hle : c.clearedAt ≤ timestamp := by
        simpa [Store.marks, settingsOf, hc, ChatSettingsRow.marks] using h
      simp [hasSettings_iff_find?, hc, ChatSettingsRow.marks, hle]
  · simp [hj]

theorem marks_clearChat {chatJid : String} {timestamp : ℤ}
    (h : (s.marks chatJid).clearedAt ≤ timestamp) (jid : String) :
    (clearChat s chatJid timestamp).marks jid
      = if jid = chatJid then { s.marks jid with clearedAt := timestamp } else s.marks jid := by
  simp only [Store.marks, settingsOf, clearChat_settings s h]
  by_cases hj : jid = chatJid
  · subst hj
    rcases hc : s.chatSettings.find? jid with _ | c
    · simp [ChatSettingsRow.marks]
    · have hle : c.clearedAt ≤ timestamp := by
        simpa [Store.marks, settingsOf, hc, ChatSettingsRow.marks] using h
      simp [ChatSettingsRow.marks, hle]
  · simp [hj]

end Operations

/-! ## Every operation -/

/-- Operations that neither delete, clear, revive nor merge a chat. -/
def Op.keepsWindow : Op → Bool
  | .insertMessage .. | .insertMessageWithReadIntent .. | .deleteChat .. | .clearChat ..
  | .migrateContactJid .. => false
  | _ => true

theorem apply_sameWindow (s : Store) {op : Op} (h : op.keepsWindow = true) :
    SameWindow s (s.apply plan op) := by
  cases op with
  | markRead => exact applyReadBoundary_sameWindow plan s _ _ _
  | applyReadState => exact applyReadState_sameWindow plan s _ _
  | applySyncedReadState => exact applySyncedReadState_sameWindow plan s _ _ _ _ _
  | applySelfReadReceipt => exact applySelfReadReceipt_sameWindow plan s _ _ _
  | applyPinAt => exact .of_marks_eq (marks_applyPinAt s _ _ _)
  | applyArchiveAt => exact .of_marks_eq (marks_applyArchiveAt s _ _ _)
  | applyMuteAt => exact .of_marks_eq (marks_applyMuteAt s _ _ _ _)
  | insertHistoryConversation => exact .of_marks_eq (marks_of_eq (by simp [Store.apply]))
  | updateContactName =>
    exact .of_marks_eq (marks_of_eq (by simp [Store.apply, updateContactName]))
  | updateAddressBookName =>
    exact .of_marks_eq (marks_of_eq (by simp [Store.apply, updateAddressBookName]))
  | updateGroupName => exact .of_marks_eq (marks_of_eq (by simp [Store.apply]))
  | updateChatPhoneNumber => exact .of_marks_eq (marks_of_eq rfl)
  | applyReaction => exact .of_marks_eq (marks_of_eq (by simp [Store.apply]))
  | storePollSecret => exact .of_marks_eq (marks_of_eq (by simp [Store.apply]))
  | applyPollVote => exact .of_marks_eq (marks_of_eq (by simp))
  | updateMessageMedia => exact .of_marks_eq (marks_of_eq rfl)
  | storeMediaDownload => exact .of_marks_eq (marks_of_eq rfl)
  | rewriteMediaPaths => exact .of_marks_eq (marks_of_eq rfl)
  | reconcileUnread => exact .of_marks_eq (marks_of_eq rfl)
  | updateReceipts =>
    exact .of_marks_eq (marks_of_eq (by simp [Store.apply]))
  | queueReadReceipts => exact .of_marks_eq (marks_of_eq rfl)
  | finishReadBatch => exact .of_marks_eq (marks_of_eq rfl)
  | deleteMessage => exact .of_marks_eq (marks_of_eq rfl)
  | _ => cases h

/-- The chat whose settings row an operation writes, or creates where there is none. -/
def Op.opens (s : Store) : Op → Option String
  | .insertMessage message _ _ _ | .insertMessageWithReadIntent message _ _ _ =>
    if suppressed s message then none else some message.chatJid
  | .markRead chatJid | .applyReadState chatJid _ | .applyPinAt chatJid _ _
  | .applyArchiveAt chatJid _ _ | .applyMuteAt chatJid _ _ _ => some chatJid
  | .applySyncedReadState chatJid _ _ _ eventTimestamp =>
    if eventTimestamp < (settingsOf s chatJid).readStateUpdatedAt then none else some chatJid
  | .applySelfReadReceipt chatJid messageIds _ =>
    if messageIds.isEmpty then none else some chatJid
  | .deleteChat chatJid timestamp | .clearChat chatJid timestamp =>
    if timestamp < (settingsOf s chatJid).clearedAt then none else some chatJid
  | _ => none

theorem hasSettings_applyReadState (s : Store) {chatJid : String} {read : Bool} {jid : String} :
    (applyReadState plan s chatJid read).1.hasSettings jid ↔
      s.hasSettings jid ∨ jid = chatJid := by
  cases read with
  | true => exact hasSettings_applyReadBoundary plan s
  | false =>
    simp only [applyReadState, Bool.false_eq_true, if_false, hasSettings_iff_find?,
      Table.find?_upsert]
    split <;> simp [*]

/-- No operation but a migration creates other settings rows than the one it opens. -/
theorem hasSettings_apply (s : Store) {op : Op} (hop : op.isMigration = false) {jid : String}
    (h : (s.apply plan op).hasSettings jid) : s.hasSettings jid ∨ op.opens s = some jid := by
  have hinsert : ∀ insert : MessageInsert, insert.fromHistory = false →
      (insertMessageInner plan s insert).1.hasSettings jid → s.hasSettings jid ∨
        (if suppressed s insert.message then none else some insert.message.chatJid)
          = some jid := by
    intro insert hlive h
    have h : (insertMessageInto s insert).1.hasSettings jid := h
    by_cases hs : suppressed s insert.message = true
    · rw [insertMessageInto_of_suppressed hs] at h
      exact Or.inl h
    · rw [Bool.not_eq_true] at hs
      refine ((hasSettings_insertMessageInto s hlive hs).mp h).imp_right fun hj => ?_
      simp [hs, hj]
  have hupsert : ∀ (r : ChatSettingsRow) (merge) (hm), (s.chatSettings.upsert r merge hm).find? jid
      ≠ none → s.hasSettings jid ∨ some r.jid = some jid := by
    intro r merge hm hne
    rw [Table.find?_upsert] at hne
    split at hne
    · rename_i hj
      exact Or.inr (by rw [hj])
    · exact Or.inl (hasSettings_iff_find?.mpr (Option.ne_none_iff_exists'.mp hne))
  have hfind : ∀ {s' : Store}, s'.hasSettings jid → s'.chatSettings.find? jid ≠ none :=
    fun hs => Option.ne_none_iff_exists'.mpr (hasSettings_iff_find?.mp hs)
  cases op with
  | insertMessage => exact hinsert _ rfl h
  | insertMessageWithReadIntent => exact hinsert _ rfl h
  | markRead =>
    exact ((hasSettings_applyReadBoundary plan s).mp h).imp_right fun hj => by rw [hj]; rfl
  | applyReadState =>
    exact ((hasSettings_applyReadState plan s).mp h).imp_right fun hj => by rw [hj]; rfl
  | applySyncedReadState chatJid read boundary ids eventTimestamp =>
    dsimp only [Store.apply, applySyncedReadState, Op.opens] at h ⊢
    split at h
    · exact Or.inl h
    · rename_i hstale
      rw [if_neg hstale]
      rw [hasSettings_stampReadState] at h
      split at h
      · exact ((hasSettings_applyReadBoundary plan s).mp h).imp_right fun hj => by rw [hj]
      · exact ((hasSettings_applyReadState plan s).mp h).imp_right fun hj => by rw [hj]
  | applySelfReadReceipt chatJid ids timestamp =>
    dsimp only [Store.apply, applySelfReadReceipt, Op.opens] at h ⊢
    split at h
    · exact Or.inl h
    · rename_i hempty
      rw [if_neg hempty]
      exact ((hasSettings_applyReadBoundary plan s).mp h).imp_right fun hj => by rw [hj]
  | applyPinAt => exact hupsert _ _ _ (hfind h)
  | applyArchiveAt => exact hupsert _ _ _ (hfind h)
  | applyMuteAt => exact hupsert _ _ _ (hfind h)
  | deleteChat chatJid timestamp =>
    by_cases hstale : timestamp < (settingsOf s chatJid).clearedAt
    · exact Or.inl ((deleteChat_of_stale s hstale) ▸ h)
    · refine (em (jid = chatJid)).elim (fun hj => Or.inr ?_) (fun hj => Or.inl ?_)
      · simp only [Op.opens, if_neg hstale, hj]
      · refine hasSettings_iff_find?.mpr (Option.ne_none_iff_exists'.mp ?_)
        have := hfind h
        rwa [Store.apply, deleteChat_settings s (not_lt.mp hstale), if_neg hj] at this
  | clearChat chatJid timestamp =>
    by_cases hstale : timestamp < (settingsOf s chatJid).clearedAt
    · exact Or.inl ((clearChat_of_stale s hstale) ▸ h)
    · refine (em (jid = chatJid)).elim (fun hj => Or.inr ?_) (fun hj => Or.inl ?_)
      · simp only [Op.opens, if_neg hstale, hj]
      · refine hasSettings_iff_find?.mpr (Option.ne_none_iff_exists'.mp ?_)
        have := hfind h
        rwa [Store.apply, clearChat_settings s (not_lt.mp hstale), if_neg hj] at this
  | migrateContactJid => cases hop
  | insertHistoryConversation =>
    exact Or.inl ((hasSettings_of_eq (by simp [Store.apply])).mp h)
  | updateContactName =>
    exact Or.inl ((hasSettings_of_eq (by simp [Store.apply, updateContactName])).mp h)
  | updateAddressBookName =>
    exact Or.inl ((hasSettings_of_eq (by simp [Store.apply, updateAddressBookName])).mp h)
  | updateGroupName => exact Or.inl ((hasSettings_of_eq (by simp [Store.apply])).mp h)
  | applyReaction => exact Or.inl ((hasSettings_of_eq (by simp [Store.apply])).mp h)
  | storePollSecret => exact Or.inl ((hasSettings_of_eq (by simp [Store.apply])).mp h)
  | applyPollVote => exact Or.inl ((hasSettings_of_eq (by simp)).mp h)
  | updateReceipts => exact Or.inl ((hasSettings_of_eq (by simp [Store.apply])).mp h)
  | updateChatPhoneNumber => exact Or.inl h
  | updateMessageMedia => exact Or.inl h
  | storeMediaDownload => exact Or.inl h
  | rewriteMediaPaths => exact Or.inl h
  | reconcileUnread => exact Or.inl h
  | queueReadReceipts => exact Or.inl h
  | finishReadBatch => exact Or.inl h
  | deleteMessage => exact Or.inl h

/-- Tombstones only come with deleted messages and migrations. -/
theorem tombstoned_apply (s : Store) {op : Op} (hop : op.isMigration = false)
    {chatJid id : String} (h : tombstoned (s.apply plan op) chatJid id = true) :
    tombstoned s chatJid id = true ∨ op = .deleteMessage chatJid id := by
  have hframe : ∀ {s' : Store}, s'.messageTombstones = s.messageTombstones →
      tombstoned s' chatJid id = true → tombstoned s chatJid id = true := by
    intro s' hs' ht
    rwa [tombstoned, hs'] at ht
  cases op with
  | deleteMessage chatJid' id' =>
    have hfind : (s.messageTombstones.insertOrIgnore ⟨chatJid', id'⟩).find? (chatJid, id)
        ≠ none := by
      rw [← Option.isSome_iff_ne_none]
      exact h
    rw [Table.find?_insertOrIgnore] at hfind
    split at hfind
    · rename_i hk
      simp only [MessageTombstoneRow.key, Prod.mk.injEq] at hk
      exact Or.inr (by rw [hk.1, hk.2])
    · exact Or.inl (Option.isSome_iff_ne_none.mpr hfind)
  | migrateContactJid => cases hop
  | deleteChat chatJid' timestamp =>
    refine Or.inl (hframe ?_ h)
    dsimp only [Store.apply, deleteChat]
    split
    · rfl
    · dsimp only
      split <;> rfl
  | clearChat chatJid' timestamp =>
    refine Or.inl (hframe ?_ h)
    dsimp only [Store.apply, clearChat]
    split <;> rfl
  | insertMessage =>
    exact Or.inl (hframe (by simp [Store.apply, insertMessage, insertMessageInner]) h)
  | insertMessageWithReadIntent =>
    exact Or.inl
      (hframe (by simp [Store.apply, insertMessageWithReadIntent, insertMessageInner]) h)
  | insertHistoryConversation => exact Or.inl (hframe (by simp [Store.apply]) h)
  | updateContactName => exact Or.inl (hframe (by simp [Store.apply, updateContactName]) h)
  | updateAddressBookName =>
    exact Or.inl (hframe (by simp [Store.apply, updateAddressBookName]) h)
  | updateGroupName => exact Or.inl (hframe (by simp [Store.apply]) h)
  | applyReaction => exact Or.inl (hframe (by simp [Store.apply]) h)
  | storePollSecret => exact Or.inl (hframe (by simp [Store.apply]) h)
  | applyPollVote => exact Or.inl (hframe (by simp) h)
  | applyReadState => exact Or.inl (hframe (by simp [Store.apply]) h)
  | applySyncedReadState => exact Or.inl (hframe (by simp [Store.apply]) h)
  | applySelfReadReceipt => exact Or.inl (hframe (by simp [Store.apply]) h)
  | updateReceipts => exact Or.inl (hframe (by simp [Store.apply]) h)
  | updateChatPhoneNumber => exact Or.inl h
  | updateMessageMedia => exact Or.inl h
  | storeMediaDownload => exact Or.inl h
  | rewriteMediaPaths => exact Or.inl h
  | markRead => exact Or.inl h
  | reconcileUnread => exact Or.inl h
  | applyPinAt => exact Or.inl h
  | applyArchiveAt => exact Or.inl h
  | applyMuteAt => exact Or.inl h
  | queueReadReceipts => exact Or.inl h
  | finishReadBatch => exact Or.inl h

end OmarchyWhatsapp
