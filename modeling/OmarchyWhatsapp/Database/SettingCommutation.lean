import OmarchyWhatsapp.Database.ChatSettingTheorems
import OmarchyWhatsapp.Database.Operations

/-!
# Pin, archive and mute around an insertion

A pin, archive or mute event creates the settings row of its chat where there is none, with a
`cleared_at` of 0. An insertion looks the row up: a message that is not newer than `cleared_at` is
dropped. So a message without a time, which history gives the time 0, is stored before the first
event of its chat and dropped after it.
-/

namespace Relational

namespace Table

variable {ρ κ : Type*} [DecidableEq κ] {key : ρ → κ} {t : Table ρ key} {r r' : ρ} {f g : ρ → ρ}
  (hf : ∀ x, key (f x) = key x) (hg : ∀ x, key (g x) = key x)

/-- Two statements that update the row of one key, where the key has one. -/
theorem upsert_upsert_of_some (r r' : ρ) (hkey : key r = key r') (h : t.find? (key r) ≠ none) :
    ((t.upsert r (fun x _ => f x) fun x _ => hf x).upsert r' (fun x _ => g x) fun x _ => hg x).rows
      = t.rows.map (fun x => if key x = key r then g (f x) else x) := by
  have hfound : (t.upsert r (fun x _ => f x) fun x _ => hf x).find? (key r') ≠ none := by
    rw [find?_upsert, if_pos hkey.symm]
    exact Option.some_ne_none _
  rw [rows_upsert, if_neg hfound, rows_upsert, if_neg h, List.map_map]
  refine List.map_congr_left fun x _ => ?_
  rw [Function.comp_apply]
  by_cases hx : key x = key r
  · rw [if_pos hx, if_pos ((hf x).trans (hx.trans hkey)), if_pos hx]
  · rw [if_neg hx, if_neg (fun h => hx (h.trans hkey.symm)), if_neg hx]

/-- The same where the key has none: the first inserts its row, which the second updates. -/
theorem upsert_upsert_of_none (r r' : ρ) (hkey : key r = key r') (h : t.find? (key r) = none) :
    ((t.upsert r (fun x _ => f x) fun x _ => hf x).upsert r' (fun x _ => g x) fun x _ => hg x).rows
      = t.rows ++ [g r] := by
  have hfound : (t.upsert r (fun x _ => f x) fun x _ => hf x).find? (key r') ≠ none := by
    rw [find?_upsert, if_pos hkey.symm]
    exact Option.some_ne_none _
  rw [rows_upsert, if_neg hfound, rows_upsert, if_pos h, List.map_append, List.map_singleton,
    if_pos hkey]
  congr 1
  refine (List.map_congr_left fun x hx => if_neg fun hk => ?_).trans (List.map_id' _)
  exact find?_eq_none.mp h x hx (hk.trans hkey.symm)

/-- An upsert changes nothing exactly when the key has a row that the merge leaves as it is. -/
theorem upsert_eq_self_iff {merge : ρ → ρ → ρ} {hm : ∀ old new, key (merge old new) = key old} :
    t.upsert r merge hm = t ↔ ∃ old, t.find? (key r) = some old ∧ merge old r = old := by
  constructor
  · intro h
    have hfind := find?_upsert t r merge hm (key r)
    rw [h, if_pos rfl] at hfind
    rcases hold : t.find? (key r) with _ | old
    · rw [hold] at hfind
      cases hfind
    · rw [hold] at hfind
      exact ⟨old, rfl, (Option.some.inj hfind).symm⟩
  · rintro ⟨old, hold, hmerge⟩
    exact upsert_eq_self merge hm hold hmerge

theorem insertOrIgnore_eq_self_iff :
    t.insertOrIgnore r = t ↔ (t.find? (key r)).isSome = true := by
  rw [Option.isSome_iff_ne_none]
  constructor
  · intro h hnone
    have hrows := congrArg List.length (congrArg Table.rows h)
    rw [rows_insertOrIgnore, if_pos hnone, List.length_append, List.length_singleton] at hrows
    omega
  · intro h
    exact ext ((rows_insertOrIgnore t r).trans (if_neg h))

end Table

end Relational

namespace OmarchyWhatsapp

open Relational

variable (plan : QueryPlan) {s : Store} {e : SettingEvent} {insert : MessageInsert}

/-! ## The settings row -/

namespace SettingEvent

theorem jid_update (e : SettingEvent) (r : ChatSettingsRow) : (e.update r).jid = r.jid := by
  unfold update
  split <;> rfl

/-- The settings after the event. -/
def settings (e : SettingEvent) (t : Table ChatSettingsRow ChatSettingsRow.jid) :
    Table ChatSettingsRow ChatSettingsRow.jid :=
  t.upsert e.row (fun r _ => e.update r) (fun r _ => e.jid_update r)

theorem apply_eq (s : Store) (e : SettingEvent) :
    e.apply s = { s with chatSettings := e.settings s.chatSettings } := by
  obtain ⟨jid, change, updatedAt⟩ := e
  cases change <;> rfl

@[simp] theorem row_jid (e : SettingEvent) : e.row.jid = e.jid := by
  unfold row
  split <;> rfl

/-- An event touches neither the cleared window nor the read boundary. -/
theorem update_frame (e : SettingEvent) (r : ChatSettingsRow) :
    (e.update r).clearedAt = r.clearedAt ∧ (e.update r).deleted = r.deleted ∧
      (e.update r).readBoundary = r.readBoundary ∧
      (e.update r).readBoundaryIds = r.readBoundaryIds := by
  unfold update
  split <;> exact ⟨rfl, rfl, rfl, rfl⟩

theorem row_frame (e : SettingEvent) :
    e.row.clearedAt = 0 ∧ e.row.deleted = false ∧ e.row.readBoundary = 0 ∧
      e.row.readBoundaryIds = [] := by
  unfold row
  split <;> exact ⟨rfl, rfl, rfl, rfl⟩

/-- The event writes a new row as it writes a blank one, unless its time is before the epoch. -/
theorem update_blank_iff (e : SettingEvent) :
    e.update { jid := e.jid } = e.row ↔ 0 ≤ e.updatedAt := by
  obtain ⟨jid, change, updatedAt⟩ := e
  cases change with
  | pin pinned =>
    simp only [update, row, ChatSettingsRow.mk.injEq]
    constructor
    · intro h
      by_contra hneg
      rw [if_neg hneg] at h
      exact absurd h.2.1 (by simp)
    · intro hpos
      simp [hpos]
  | archive archived =>
    simp only [update, row, ChatSettingsRow.mk.injEq]
    constructor
    · intro h
      by_contra hneg
      rw [if_neg hneg] at h
      exact absurd h.2.2.2.1 (by simp)
    · intro hpos
      simp [hpos]
  | mute muted muteEnd =>
    simp only [update, row, ChatSettingsRow.mk.injEq]
    constructor
    · intro h
      by_contra hneg
      rw [if_neg hneg] at h
      exact absurd h.2.2.2.2.2.1 (by simp)
    · intro hpos
      simp [hpos]

end SettingEvent

/-- The settings row after a live message. -/
def revivedRow (timestamp : ℤ) (r : ChatSettingsRow) : ChatSettingsRow :=
  { r with deleted := if r.clearedAt < timestamp then false else r.deleted }

theorem jid_revivedRow (timestamp : ℤ) (r : ChatSettingsRow) :
    (revivedRow timestamp r).jid = r.jid := rfl

/-- The settings after an insertion. -/
def revivedSettings (insert : MessageInsert) (t : Table ChatSettingsRow ChatSettingsRow.jid) :
    Table ChatSettingsRow ChatSettingsRow.jid :=
  if insert.fromHistory then t
  else t.upsert { jid := insert.message.chatJid }
    (fun r _ => revivedRow insert.message.timestamp r) (fun r _ => jid_revivedRow _ r)

theorem reviveChat_eq (s : Store) (insert : MessageInsert) :
    reviveChat s insert = { s with chatSettings := revivedSettings insert s.chatSettings } := by
  unfold reviveChat revivedSettings
  split <;> rfl

theorem revivedRow_row (e : SettingEvent) (timestamp : ℤ) : revivedRow timestamp e.row = e.row := by
  have hdeleted := e.row_frame.2.1
  have hsame : (if e.row.clearedAt < timestamp then false else e.row.deleted) = e.row.deleted := by
    rw [hdeleted, ite_self]
  rw [revivedRow, hsame]

theorem update_revivedRow (e : SettingEvent) (timestamp : ℤ) (r : ChatSettingsRow) :
    e.update (revivedRow timestamp r) = revivedRow timestamp (e.update r) := by
  obtain ⟨jid, change, updatedAt⟩ := e
  cases change <;> rfl

/-- The two statements on the settings commute where the chat has a row; else they do for a
replayed message, and for a live one when the event's time is not before the epoch. -/
theorem settings_comm_iff (hjid : e.jid = insert.message.chatJid)
    {t : Table ChatSettingsRow ChatSettingsRow.jid} :
    e.settings (revivedSettings insert t) = revivedSettings insert (e.settings t) ↔
      t.find? e.jid ≠ none ∨ insert.fromHistory = true ∨ 0 ≤ e.updatedAt := by
  cases hhistory : insert.fromHistory with
  | true => simp [revivedSettings, hhistory]
  | false =>
    have hrevived : ∀ t, revivedSettings insert t = t.upsert { jid := e.jid }
        (fun r _ => revivedRow insert.message.timestamp r) (fun r _ => jid_revivedRow _ r) := by
      intro t
      rw [revivedSettings, hhistory, if_neg Bool.false_ne_true, hjid]
    rw [hrevived, hrevived, SettingEvent.settings, SettingEvent.settings]
    by_cases hrow : t.find? e.jid = none
    · -- the row is created blank, or by the event
      have hleft := Table.upsert_upsert_of_none (f := revivedRow insert.message.timestamp)
        (fun _ => rfl) e.jid_update { jid := e.jid } e.row e.row_jid.symm hrow
      have hright := Table.upsert_upsert_of_none (g := revivedRow insert.message.timestamp)
        e.jid_update (fun _ => rfl) e.row { jid := e.jid } e.row_jid
        (by rw [SettingEvent.row_jid]; exact hrow)
      rw [revivedRow_row] at hright
      rw [or_iff_right (not_not.mpr hrow), or_iff_right Bool.false_ne_true,
        ← e.update_blank_iff]
      constructor
      · intro h
        have hrows := hleft.symm.trans ((congrArg Table.rows h).trans hright)
        exact List.singleton_inj.mp (List.append_cancel_left hrows)
      · intro h
        exact Table.ext (hleft.trans ((congrArg (fun r => t.rows ++ [r]) h).trans hright.symm))
    · refine iff_of_true ?_ (Or.inl hrow)
      have hleft := Table.upsert_upsert_of_some (f := revivedRow insert.message.timestamp)
        (fun _ => rfl) e.jid_update { jid := e.jid } e.row e.row_jid.symm hrow
      have hright := Table.upsert_upsert_of_some (g := revivedRow insert.message.timestamp)
        e.jid_update (fun _ => rfl) e.row { jid := e.jid } e.row_jid
        (by rw [SettingEvent.row_jid]; exact hrow)
      refine Table.ext (hleft.trans (Eq.trans ?_ hright.symm))
      refine List.map_congr_left fun r _ => ?_
      rw [e.row_jid, update_revivedRow]

/-! ## What an insertion reads of the settings -/

/-- The read boundary of a chat and the ids beyond it. -/
def selfReadBoundary (t : Table ChatSettingsRow ChatSettingsRow.jid) (chatJid : String) :
    ℤ × List String :=
  (t.find? chatJid).elim (0, []) (fun r => (r.readBoundary, r.readBoundaryIds))

theorem messageIsUnread_eq (s : Store) (insert : MessageInsert) :
    messageIsUnread s insert = (insert.incrementUnread &&
      !(decide (insert.message.timestamp
          ≤ (selfReadBoundary s.chatSettings insert.message.chatJid).1) ||
        (selfReadBoundary s.chatSettings insert.message.chatJid).2.contains
          insert.message.id)) := by
  rw [messageIsUnread, coveredBySelfRead, selfReadBoundary]
  cases s.chatSettings.find? insert.message.chatJid with
  | none =>
    dsimp only [Option.elim_none]
    rw [List.contains_nil, Bool.or_false]
    rfl
  | some r => rfl

theorem messageIsUnread_congr {s' : Store} (h : selfReadBoundary s'.chatSettings
      insert.message.chatJid = selfReadBoundary s.chatSettings insert.message.chatJid) :
    messageIsUnread s' insert = messageIsUnread s insert := by
  rw [messageIsUnread_eq, h, messageIsUnread_eq]

theorem selfReadBoundary_settings (e : SettingEvent)
    (t : Table ChatSettingsRow ChatSettingsRow.jid) (chatJid : String) :
    selfReadBoundary (e.settings t) chatJid = selfReadBoundary t chatJid := by
  rw [selfReadBoundary, SettingEvent.settings, Table.find?_upsert, e.row_jid]
  by_cases h : chatJid = e.jid
  · rw [if_pos h, selfReadBoundary]
    cases t.find? chatJid with
    | none =>
      obtain ⟨-, -, hboundary, hids⟩ := e.row_frame
      exact Prod.ext hboundary hids
    | some r =>
      obtain ⟨-, -, hboundary, hids⟩ := e.update_frame r
      exact Prod.ext hboundary hids
  · rw [if_neg h, selfReadBoundary]

theorem selfReadBoundary_revivedSettings (insert : MessageInsert)
    (t : Table ChatSettingsRow ChatSettingsRow.jid) (chatJid : String) :
    selfReadBoundary (revivedSettings insert t) chatJid = selfReadBoundary t chatJid := by
  unfold revivedSettings
  split
  · rfl
  · rw [selfReadBoundary, Table.find?_upsert]
    by_cases h : chatJid = insert.message.chatJid
    · rw [if_pos h, selfReadBoundary]
      cases t.find? chatJid with
      | none => rfl
      | some r => rfl
    · rw [if_neg h, selfReadBoundary]

/-- An accepted message writes the other tables in the same way whatever the settings. -/
theorem settings_insertMessageInto {t : Table ChatSettingsRow ChatSettingsRow.jid}
    (h : suppressed s insert.message = false)
    (h' : suppressed { s with chatSettings := t } insert.message = false)
    (hboundary : selfReadBoundary t insert.message.chatJid
      = selfReadBoundary s.chatSettings insert.message.chatJid) :
    (insertMessageInto { s with chatSettings := t } insert).1
      = { (insertMessageInto s insert).1 with chatSettings := revivedSettings insert t } := by
  have hunread : messageIsUnread
        { s with
          chats := s.chats.upsert (proposedChat insert) mergePreview
          chatSettings := revivedSettings insert t } insert
      = messageIsUnread
        { s with
          chats := s.chats.upsert (proposedChat insert) mergePreview
          chatSettings := revivedSettings insert s.chatSettings } insert := by
    refine messageIsUnread_congr ?_
    rw [selfReadBoundary_revivedSettings, selfReadBoundary_revivedSettings]
    exact hboundary
  have hstored : (storeMessage
        { s with
          chats := s.chats.upsert (proposedChat insert) mergePreview
          chatSettings := revivedSettings insert t } insert).1
      = { (storeMessage
            { s with
              chats := s.chats.upsert (proposedChat insert) mergePreview
              chatSettings := revivedSettings insert s.chatSettings } insert).1 with
          chatSettings := revivedSettings insert t } := by
    simp only [storeMessage, proposedMessage, hunread]
    rfl
  rw [insertMessageInto, if_neg (by rw [h']; exact Bool.false_ne_true), insertMessageInto,
    if_neg (by rw [h]; exact Bool.false_ne_true), reviveChat_eq, reviveChat_eq]
  dsimp only [touchChat]
  rw [hstored]
  unfold queueReadIntent
  split
  · rfl
  · rfl

/-! ## Both orders -/

/-- What retention leaves of the messages of a chat. -/
def retainedMessages (t : Table MessageRow MessageRow.key) (chatJid : String) :
    Table MessageRow MessageRow.key :=
  t.deleteWhere (fun m => m.chatJid = chatJid &&
    (overflow plan (t.rows.filter (fun m => m.chatJid = chatJid))).contains m)

/-- The message has nothing to add: its chat row shows it or something newer, its row is there or
pruned at once, and its receipt is queued. -/
structure NothingToAdd (s : Store) (insert : MessageInsert) : Prop where
  chat : ∃ c, s.chats.find? insert.message.chatJid = some c ∧
    mergePreview c (proposedChat insert) = c
  messages : retainedMessages plan (s.messages.insertOrIgnore (proposedMessage s insert))
      insert.message.chatJid
    = retainedMessages plan s.messages insert.message.chatJid
  queued : ∀ receipt ∈ insert.readIntent,
    (∃ p, s.pendingReadChats.find? insert.message.chatJid = some p ∧
      p.createdAt ≤ insert.message.timestamp) ∧
    (s.pendingReadMessages.find?
      (insert.message.chatJid, receipt.senderJid, receipt.messageId)).isSome = true

theorem suppressed_settings (hjid : e.jid = insert.message.chatJid) :
    suppressed (e.apply s) insert.message = (suppressed s insert.message ||
      (s.chatSettings.find? e.jid).isNone && decide (insert.message.timestamp ≤ 0)) := by
  have htombstoned : tombstoned (e.apply s) insert.message.chatJid insert.message.id
      = tombstoned s insert.message.chatJid insert.message.id := by
    rw [e.apply_eq]
    rfl
  rw [suppressed, htombstoned, suppressed, stateSuppressed, stateSuppressed, e.find?_apply,
    if_pos hjid.symm, hjid]
  cases s.chatSettings.find? insert.message.chatJid with
  | none =>
    rw [Option.elim_none, Option.any_some, e.row_frame.1]
    simp
  | some r =>
    rw [Option.elim_some, Option.any_some, (e.update_frame r).1]
    simp

theorem storeMessage_of_read {s' : Store} (h : messageIsUnread s' insert = false)
    (hs : messageIsUnread s insert = false) (hcontacts : s'.contacts = s.contacts) :
    (storeMessage s' insert).1
      = { s' with messages := s'.messages.insertOrIgnore (proposedMessage s insert) } := by
  have hrow : proposedMessage s' insert = proposedMessage s insert := by
    rw [proposedMessage, h, proposedMessage, hs, storedSenderName, hcontacts, storedSenderName]
  rw [storeMessage, h, hrow]
  simp only [Bool.and_false, Bool.false_eq_true, if_false]

/-- A message without a time, in a chat without settings. -/
theorem insertMessageInto_of_unset (hunset : s.chatSettings.find? insert.message.chatJid = none)
    (htimestamp : insert.message.timestamp ≤ 0) (h : suppressed s insert.message = false) :
    (insertMessageInto s insert).1 = queueReadIntent { s with
      chats := s.chats.upsert (proposedChat insert) mergePreview
      messages := s.messages.insertOrIgnore (proposedMessage s insert)
      chatSettings := revivedSettings insert s.chatSettings } insert := by
  have hread : ∀ s' : Store, selfReadBoundary s'.chatSettings insert.message.chatJid = (0, []) →
      messageIsUnread s' insert = false := by
    intro s' hs'
    rw [messageIsUnread_eq, hs']
    simp [htimestamp]
  have hboundary : selfReadBoundary s.chatSettings insert.message.chatJid = (0, []) := by
    rw [selfReadBoundary, hunset]
    rfl
  rw [insertMessageInto, if_neg (by rw [h]; exact Bool.false_ne_true), reviveChat_eq]
  dsimp only
  rw [storeMessage_of_read (hread (touchChat { s with
    chatSettings := revivedSettings insert s.chatSettings } insert) ?_) (hread s hboundary) rfl]
  · rfl
  · exact (selfReadBoundary_revivedSettings insert _ _).trans hboundary

/-- A receipt is queued already. -/
theorem queueReadIntent_eq_iff (s : Store) (insert : MessageInsert) :
    ((queueReadIntent s insert).pendingReadChats = s.pendingReadChats ∧
        (queueReadIntent s insert).pendingReadMessages = s.pendingReadMessages) ↔
      ∀ receipt ∈ insert.readIntent,
        (∃ p, s.pendingReadChats.find? insert.message.chatJid = some p ∧
          p.createdAt ≤ insert.message.timestamp) ∧
        (s.pendingReadMessages.find?
          (insert.message.chatJid, receipt.senderJid, receipt.messageId)).isSome = true := by
  unfold queueReadIntent
  cases insert.readIntent with
  | none => simp
  | some receipt =>
    have hmessages : (queueReceipt s insert.message.chatJid insert.message.timestamp
        [receipt]).pendingReadMessages = s.pendingReadMessages ↔
          (s.pendingReadMessages.find?
            (insert.message.chatJid, receipt.senderJid, receipt.messageId)).isSome = true := by
      unfold queueReceipt
      dsimp only [List.foldl_cons, List.foldl_nil]
      rw [Table.insertOrIgnore_eq_self_iff]
      rfl
    have hchats : (queueReceipt s insert.message.chatJid insert.message.timestamp
        [receipt]).pendingReadChats = s.pendingReadChats ↔
          ∃ p, s.pendingReadChats.find? insert.message.chatJid = some p ∧
            p.createdAt ≤ insert.message.timestamp := by
      unfold queueReceipt
      dsimp only
      rw [Table.upsert_eq_self_iff]
      refine exists_congr fun p => and_congr_right fun _ => ?_
      rw [← min_eq_left_iff]
      exact ⟨fun h => congrArg PendingReadChatRow.createdAt h, fun h => by rw [h]⟩
    simp only [Option.mem_def, Option.some.injEq, forall_eq']
    exact and_congr hchats hmessages

/-- What pruning does to the messages, and with them to what refers to them. -/
theorem pruneChatHistory_congr {s' : Store} {jid : String}
    (hmessages : retainedMessages plan s'.messages jid = retainedMessages plan s.messages jid)
    (hrest : s' = { s with messages := s'.messages }) :
    pruneChatHistory plan s' jid = pruneChatHistory plan s jid := by
  have hkept : ∀ id, (keepNewest plan s' jid).hasMessage jid id
      = (keepNewest plan s jid).hasMessage jid id := by
    intro id
    change (retainedMessages plan s'.messages jid).rows.any _
      = (retainedMessages plan s.messages jid).rows.any _
    rw [hmessages]
  rw [pruneChatHistory, pruneChatHistory]
  simp only [hkept]
  rw [hrest]
  change { s with messages := retainedMessages plan s'.messages jid, pollVotes := _, pollSecrets := _, messageReads := _ } = { s with messages := retainedMessages plan s.messages jid, pollVotes := _, pollSecrets := _, messageReads := _ }
  rw [hmessages]

theorem pruneChatHistory_settings (s : Store) (jid : String)
    (t : Table ChatSettingsRow ChatSettingsRow.jid) :
    pruneChatHistory plan { s with chatSettings := t } jid
      = { pruneChatHistory plan s jid with chatSettings := t } := rfl

theorem insertMessageInner_of_suppressed (h : suppressed s insert.message = true) :
    (insertMessageInner plan s insert).1 = pruneChatHistory plan s insert.message.chatJid := by
  rw [insertMessageInner, insertMessageInto_of_suppressed h]

/-- A message that is accepted in both orders. -/
theorem commutes_of_accepted_iff (hjid : e.jid = insert.message.chatJid)
    (h : suppressed s insert.message = false)
    (h' : suppressed (e.apply s) insert.message = false) :
    e.apply (insertMessageInner plan s insert).1 = (insertMessageInner plan (e.apply s) insert).1 ↔
      s.chatSettings.find? e.jid ≠ none ∨ insert.fromHistory = true ∨ 0 ≤ e.updatedAt := by
  rw [e.apply_eq] at h'
  have hsettings := settings_insertMessageInto h h'
    (selfReadBoundary_settings e s.chatSettings insert.message.chatJid)
  have hsame := settings_insertMessageInto (t := s.chatSettings) h h rfl
  have hleft : e.apply (insertMessageInner plan s insert).1
      = { pruneChatHistory plan (insertMessageInto s insert).1 insert.message.chatJid with
          chatSettings := e.settings (revivedSettings insert s.chatSettings) } := by
    have hrevived : (insertMessageInto s insert).1.chatSettings
        = revivedSettings insert s.chatSettings := congrArg Store.chatSettings hsame
    rw [e.apply_eq, insertMessageInner, ← hrevived]
    rfl
  have hright : (insertMessageInner plan (e.apply s) insert).1
      = { pruneChatHistory plan (insertMessageInto s insert).1 insert.message.chatJid with
          chatSettings := revivedSettings insert (e.settings s.chatSettings) } := by
    rw [e.apply_eq, insertMessageInner]
    dsimp only
    rw [hsettings]
    rfl
  rw [hleft, hright, ← settings_comm_iff hjid]
  constructor
  · intro heq
    exact congrArg Store.chatSettings heq
  · intro heq
    rw [heq]

/-- A live message finds the row that the event created as it wants it. -/
theorem revivedSettings_settings (hjid : e.jid = insert.message.chatJid)
    {t : Table ChatSettingsRow ChatSettingsRow.jid} (hunset : t.find? e.jid = none) :
    revivedSettings insert (e.settings t) = e.settings t := by
  unfold revivedSettings
  split
  · rfl
  · refine Table.upsert_eq_self _ _ ?_ (revivedRow_row e insert.message.timestamp)
    rw [SettingEvent.settings, Table.find?_upsert, e.row_jid, if_pos hjid.symm, ← hjid, hunset]
    rfl

theorem queueReadIntent_eq (s : Store) (insert : MessageInsert) :
    queueReadIntent s insert = { s with
      pendingReadChats := (queueReadIntent s insert).pendingReadChats
      pendingReadMessages := (queueReadIntent s insert).pendingReadMessages } := by
  unfold queueReadIntent
  split
  · rfl
  · rfl

/-- A message without a time, in a chat without settings: it is stored before the event and
dropped after it. -/
theorem commutes_of_dropped_iff (hjid : e.jid = insert.message.chatJid)
    (hunset : s.chatSettings.find? e.jid = none) (htimestamp : insert.message.timestamp ≤ 0)
    (h : suppressed s insert.message = false) :
    e.apply (insertMessageInner plan s insert).1 = (insertMessageInner plan (e.apply s) insert).1 ↔
      (insert.fromHistory = true ∨ 0 ≤ e.updatedAt) ∧ NothingToAdd plan s insert := by
  have hdropped : suppressed (e.apply s) insert.message = true := by
    rw [suppressed_settings hjid, hunset]
    simp [htimestamp]
  have hsettings : e.settings (revivedSettings insert s.chatSettings) = e.settings s.chatSettings ↔
      insert.fromHistory = true ∨ 0 ≤ e.updatedAt := by
    have hcomm := settings_comm_iff hjid (t := s.chatSettings)
    rwa [or_iff_right (not_not.mpr hunset), revivedSettings_settings hjid hunset] at hcomm
  have hstored := insertMessageInto_of_unset (hjid ▸ hunset) htimestamp h
  have hqueued := queueReadIntent_eq_iff { s with
    chats := s.chats.upsert (proposedChat insert) mergePreview
    messages := s.messages.insertOrIgnore (proposedMessage s insert)
    chatSettings := revivedSettings insert s.chatSettings } insert
  rw [queueReadIntent_eq] at hstored
  rw [insertMessageInner_of_suppressed plan hdropped, insertMessageInner, hstored, e.apply_eq,
    e.apply_eq]
  dsimp only at hqueued ⊢
  generalize (queueReadIntent _ insert).pendingReadChats = chats at hqueued ⊢
  generalize (queueReadIntent _ insert).pendingReadMessages = messages at hqueued ⊢
  constructor
  · intro heq
    have hchat : s.chats.upsert (proposedChat insert) mergePreview = s.chats :=
      congrArg Store.chats heq
    exact ⟨hsettings.mp (congrArg Store.chatSettings heq), Table.upsert_eq_self_iff.mp hchat,
      congrArg Store.messages heq,
      hqueued.mp ⟨congrArg Store.pendingReadChats heq, congrArg Store.pendingReadMessages heq⟩⟩
  · rintro ⟨hset, habsorbed⟩
    obtain ⟨hchats, hmessages⟩ := hqueued.mpr habsorbed.queued
    have hchat : s.chats.upsert (proposedChat insert) mergePreview = s.chats :=
      Table.upsert_eq_self_iff.mpr habsorbed.chat
    have hpruned : pruneChatHistory plan
        { s with messages := s.messages.insertOrIgnore (proposedMessage s insert) }
        insert.message.chatJid = pruneChatHistory plan s insert.message.chatJid :=
      pruneChatHistory_congr plan habsorbed.messages rfl
    rw [hchats, hmessages, hchat]
    change { pruneChatHistory plan
          { s with messages := s.messages.insertOrIgnore (proposedMessage s insert) }
          insert.message.chatJid with
        chatSettings := e.settings (revivedSettings insert s.chatSettings) }
      = { pruneChatHistory plan s insert.message.chatJid with
          chatSettings := e.settings s.chatSettings }
    rw [hpruned, hsettings.mpr hset]

/-- A setting event and an insertion in its chat commute exactly when the chat has settings, or the
message is tombstoned, or the event's time is not before the epoch, or the message is replayed, and
the message has a time or nothing to add. -/
theorem setting_commutes_iff (hjid : e.jid = insert.message.chatJid) :
    e.apply (insertMessageInner plan s insert).1 = (insertMessageInner plan (e.apply s) insert).1 ↔
      s.chatSettings.find? e.jid ≠ none ∨
        tombstoned s insert.message.chatJid insert.message.id = true ∨
        ((insert.fromHistory = true ∨ 0 ≤ e.updatedAt) ∧
          (0 < insert.message.timestamp ∨ NothingToAdd plan s insert)) := by
  have happly := suppressed_settings (s := s) hjid
  cases hsup : suppressed s insert.message with
  | true =>
    -- dropped in both orders: by a tombstone, or by the settings of the chat
    rw [hsup, Bool.true_or] at happly
    refine iff_of_true ?_ ?_
    · rw [insertMessageInner_of_suppressed plan hsup, insertMessageInner_of_suppressed plan happly,
        e.apply_eq, e.apply_eq]
      rfl
    · rw [suppressed, Bool.or_eq_true, stateSuppressed, ← hjid] at hsup
      rcases hsup with htombstoned | hcleared
      · exact Or.inr (Or.inl (hjid ▸ htombstoned))
      · refine Or.inl fun hnone => ?_
        rw [hnone] at hcleared
        cases hcleared
  | false =>
    have huntombstoned : tombstoned s insert.message.chatJid insert.message.id = false := by
      rw [suppressed, Bool.or_eq_false_iff] at hsup
      exact hsup.1
    rw [hsup, Bool.false_or] at happly
    rw [huntombstoned, or_iff_right (a := false = true) Bool.false_ne_true]
    by_cases hunset : s.chatSettings.find? e.jid = none
    · rw [or_iff_right (not_not.mpr hunset)]
      by_cases htimestamp : insert.message.timestamp ≤ 0
      · rw [commutes_of_dropped_iff plan hjid hunset htimestamp hsup,
          or_iff_right (not_lt.mpr htimestamp)]
      · rw [hunset, decide_eq_false htimestamp, Bool.and_false] at happly
        rw [commutes_of_accepted_iff plan hjid hsup happly, or_iff_right (not_not.mpr hunset),
          and_iff_left (Or.inl (not_le.mp htimestamp))]
    · have hsome : (s.chatSettings.find? e.jid).isNone = false := by
        rwa [Option.isNone_eq_false_iff, Option.isSome_iff_ne_none]
      rw [hsome, Bool.false_and] at happly
      exact iff_of_true ((commutes_of_accepted_iff plan hjid hsup happly).mpr (Or.inl hunset))
        (Or.inl hunset)

/-- A history message without a time. -/
def undatedInsert : MessageInsert :=
  historyInsert
    { jid := "1@s.whatsapp.net", name := "Ada", lastMessage := "hi", lastSenderName := "",
      lastTimestamp := 0, unread := 0, isGroup := false }
    (directMessage "1@s.whatsapp.net" "M1" "hi" 0)

/-- Its chat is pinned. -/
def pinEvent : SettingEvent := ⟨"1@s.whatsapp.net", .pin true, 20⟩

theorem setting_commutes_iff_dated :
    pinEvent.apply (insertMessageInner QueryPlan.stable Store.empty
        (liveInsert (directMessage "1@s.whatsapp.net" "M1" "hi" 10) "Ada" false true)).1
      = (insertMessageInner QueryPlan.stable (pinEvent.apply Store.empty)
        (liveInsert (directMessage "1@s.whatsapp.net" "M1" "hi" 10) "Ada" false true)).1 :=
  (setting_commutes_iff QueryPlan.stable (by decide)).mpr
    (Or.inr (Or.inr ⟨Or.inr (by decide), Or.inl (by decide)⟩))

/-- The message is stored before the pin and dropped after it. -/
theorem pin_drops_undated_message :
    pinEvent.jid = undatedInsert.message.chatJid ∧
      pinEvent.apply (insertMessageInner QueryPlan.stable Store.empty undatedInsert).1
        ≠ (insertMessageInner QueryPlan.stable (pinEvent.apply Store.empty) undatedInsert).1 := by
  refine ⟨by decide, fun h => ?_⟩
  have hrows := congrArg (fun s => s.messages.rows.length) h
  exact absurd hrows (by decide +kernel)

end OmarchyWhatsapp
