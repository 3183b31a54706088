import OmarchyWhatsapp.Database.SettingsTheorems

/-!
# Deleted content

Two invariants of the deletion marks, each with the steps that break it left out by a
guard:

* `DeletedChatsAbsent`: a chat flagged deleted has no row and no messages;
* `DeletedMessagesAbsent`: no stored message is tombstoned or lies in the cleared window.
-/

namespace OmarchyWhatsapp

open Relational

variable (plan : QueryPlan)

/-! ## Deleted chats -/

/-- A chat flagged deleted is gone from the chat list and has no messages. -/
def DeletedChatsAbsent (s : Store) : Prop :=
  ∀ jid, chatDeleted s jid = true → ¬s.hasChat jid ∧ ∀ m ∈ s.messages.rows, m.chatJid ≠ jid

/-- The steps that keep deleted chats absent: history brings nothing new to a deleted chat,
a deletion that keeps newer messages finds a settings row to clear the flag in, and a
migration merges no deleted identity with a live one. -/
def DeletedChatsGuard (s : Store) : Op → Prop
  | .insertHistoryConversation conversation =>
    chatDeleted s conversation.chat.jid = true →
      ∀ m ∈ conversation.messages, suppressed s m = true
  | .deleteChat chatJid timestamp =>
    timestamp < (settingsOf s chatJid).clearedAt ∨ s.hasSettings chatJid ∨
      ∀ m ∈ s.chatMessages chatJid, m.timestamp ≤ timestamp
  | .migrateContactJid oldJid newJid =>
    Migrates s oldJid newJid → (chatDeleted s oldJid || chatDeleted s newJid) = true →
      ¬s.hasChat oldJid ∧ ¬s.hasChat newJid
  | _ => True

instance (s : Store) (op : Op) : Decidable (DeletedChatsGuard s op) := by
  apply Op.casesOn (motive := fun op => Decidable (DeletedChatsGuard s op)) op
  all_goals
    intros
    dsimp only [DeletedChatsGuard]
    infer_instance

section DeletedChats

variable {s : Store}

/-- An operation that flags no chat, adds no chat row and only updates messages. -/
theorem DeletedChatsAbsent.of_messagesFrom (h : DeletedChatsAbsent s) {s' : Store}
    (hdeleted : ∀ jid, chatDeleted s' jid = true → chatDeleted s jid = true)
    (hchat : ∀ jid, s'.hasChat jid → s.hasChat jid) (hfrom : MessagesFrom s s') :
    DeletedChatsAbsent s' := by
  intro jid hd
  obtain ⟨hno, hmsg⟩ := h jid (hdeleted jid hd)
  refine ⟨fun hc => hno (hchat jid hc), fun m' hm' => ?_⟩
  obtain ⟨m, hm, he⟩ := hfrom m' hm'
  rw [he.chatJid]
  exact hmsg m hm

theorem DeletedChatsAbsent.insertMessageInner (h : DeletedChatsAbsent s)
    {insert : MessageInsert} (hlive : insert.fromHistory = false) :
    DeletedChatsAbsent (insertMessageInner plan s insert).1 := by
  have hprune : ∀ {s' : Store}, DeletedChatsAbsent s' →
      DeletedChatsAbsent (pruneChatHistory plan s' insert.message.chatJid) :=
    fun h' => h'.of_messagesFrom (fun _ hd => hd) (fun _ hc => hc)
      (pruneChatHistory_messagesFrom plan _ _)
  refine hprune ?_
  by_cases hs : suppressed s insert.message = true
  · rw [insertMessageInto_of_suppressed hs]
    exact h
  rw [Bool.not_eq_true] at hs
  intro jid hd
  rw [chatDeleted_eq, marks_insertMessageInto s hlive hs] at hd
  -- the chat of the message is no longer deleted, so `jid` is another one
  have hj : jid ≠ insert.message.chatJid := by
    rintro rfl
    simp at hd
  rw [if_neg hj, ← chatDeleted_eq] at hd
  obtain ⟨hno, hmsg⟩ := h jid hd
  refine ⟨fun hc => ?_, fun m' hm' => ?_⟩
  · rcases hasChat_insertMessageInto.mp hc with hc | ⟨hc, -⟩
    · exact hno hc
    · exact hj hc
  · rcases insertMessageInto_messagesOf s insert m' hm' with ⟨m, hm, he⟩ | ⟨_, hmem, m, ha, he⟩
    · rw [he.chatJid]
      exact hmsg m hm
    · rw [he.chatJid, ha.chatJid, List.mem_singleton.mp hmem]
      exact hj.symm

theorem DeletedChatsAbsent.insertHistoryConversation (h : DeletedChatsAbsent s)
    {conversation : Conversation}
    (hg : DeletedChatsGuard s (.insertHistoryConversation conversation)) :
    DeletedChatsAbsent
      (insertHistoryConversation plan s conversation.chat conversation.messages).1 := by
  intro jid hd
  have hd : chatDeleted s jid = true := by
    simpa only [chatDeleted, insertHistoryConversation_frame] using hd
  obtain ⟨hno, hmsg⟩ := h jid hd
  have haccepted : ∀ m ∈ conversation.messages, jid = conversation.chat.jid →
      suppressed s m = true := fun m hm hj => hg (hj ▸ hd) m hm
  refine ⟨fun hc => ?_, fun m' hm' => ?_⟩
  · rcases (hasChat_insertHistoryConversation plan conversation).mp hc with
      hc | ⟨hj, hnew | ⟨m, hm, hs⟩⟩
    · exact hno hc
    · rw [← hj, hd] at hnew
      cases hnew
    · rw [haccepted m hm hj] at hs
      cases hs
  · have hof := (insertHistoryMessages_messagesOf plan s conversation.chat
      conversation.messages).then (pruneChatHistory_messagesFrom plan _ conversation.chat.jid)
    rcases hof m' hm' with ⟨m, hm, he⟩ | ⟨message, hmem, m, ha, he⟩
    · rw [he.chatJid]
      exact hmsg m hm
    · rw [he.chatJid, ha.chatJid, conversation.sameChat message hmem]
      rintro rfl
      have hs := ha.accepted
      rw [haccepted message hmem rfl] at hs
      cases hs

theorem DeletedChatsAbsent.deleteChat (h : DeletedChatsAbsent s) {chatJid : String}
    {timestamp : ℤ} (hg : DeletedChatsGuard s (.deleteChat chatJid timestamp)) :
    DeletedChatsAbsent (deleteChat s chatJid timestamp) := by
  by_cases hstale : timestamp < (settingsOf s chatJid).clearedAt
  · rw [deleteChat_of_stale s hstale]
    exact h
  intro jid hd
  have hle := not_lt.mp hstale
  rw [chatDeleted_eq, marks_deleteChat s hle] at hd
  by_cases hj : jid = chatJid
  · subst hj
    -- the flag is set only when no message is newer than the deletion
    have hall : ∀ m ∈ s.chatMessages jid, m.timestamp ≤ timestamp := by
      rcases hg with hlt | hset | hall
      · exact absurd hlt hstale
      · rw [if_pos rfl] at hd
        exact hasNewer_eq_false.mp (by simpa [hset] using hd)
      · exact hall
    refine ⟨fun hc => (hasChat_deleteChat.mp hc).2 ⟨rfl, hle, hall⟩, fun m hm hc => ?_⟩
    obtain ⟨hm, hnewer⟩ := mem_deleteChat.mp hm
    have := hall m (Store.mem_chatMessages.mpr ⟨hm, hc⟩)
    exact absurd (hnewer hle hc) (not_lt.mpr this)
  · rw [if_neg hj, ← chatDeleted_eq] at hd
    obtain ⟨hno, hmsg⟩ := h jid hd
    exact ⟨fun hc => hno (hasChat_deleteChat.mp hc).1,
      fun m hm => hmsg m (mem_deleteChat.mp hm).1⟩

theorem DeletedChatsAbsent.migrateContactJid (h : DeletedChatsAbsent s) (hw : WellFormed s)
    {oldJid newJid : String} (hg : DeletedChatsGuard s (.migrateContactJid oldJid newJid)) :
    DeletedChatsAbsent (migrateContactJid plan s oldJid newJid).1 := by
  by_cases hmig : Migrates s oldJid newJid
  swap
  · rw [migrateContactJid_of_not_migrates plan hmig]
    exact h
  intro jid hd
  -- without a chat row there are no messages either
  suffices hgone : ¬(OmarchyWhatsapp.migrateContactJid plan s oldJid newJid).1.hasChat jid from
    ⟨hgone, fun m hm hc =>
      hgone (hc ▸ (hw.migrateContactJid plan oldJid newJid).chatOfMessage m hm)⟩
  intro hc
  obtain ⟨hold, hc⟩ := (hasChat_migrateContactJid plan hmig).mp hc
  rw [chatDeleted_migrateContactJid plan hmig, if_neg hold] at hd
  by_cases hj : jid = newJid
  · rw [if_pos hj] at hd
    obtain ⟨hno, hno'⟩ := hg hmig hd
    rcases hc with hc | ⟨-, hc⟩
    · exact hno' (hj ▸ hc)
    · exact hno hc
  · rw [if_neg hj] at hd
    rcases hc with hc | ⟨hc, -⟩
    · exact (h jid hd).1 hc
    · exact hj hc

/-- One guarded operation keeps deleted chats absent. -/
theorem DeletedChatsAbsent.apply (h : DeletedChatsAbsent s) (hw : WellFormed s) {op : Op}
    (hg : DeletedChatsGuard s op) : DeletedChatsAbsent (s.apply plan op) := by
  cases op with
  | insertMessage => exact h.insertMessageInner plan rfl
  | insertMessageWithReadIntent => exact h.insertMessageInner plan rfl
  | insertHistoryConversation => exact h.insertHistoryConversation plan hg
  | deleteChat => exact h.deleteChat hg
  | clearChat chatJid timestamp =>
    refine h.of_messagesFrom (fun jid hd => ?_) (fun jid => (clearChat_sameChats s _ _ jid).mp)
      (clearChat_messagesFrom s _ _)
    by_cases hstale : timestamp < (settingsOf s chatJid).clearedAt
    · rwa [Store.apply, clearChat_of_stale s hstale] at hd
    · rw [Store.apply, chatDeleted_eq, marks_clearChat s (not_lt.mp hstale)] at hd
      rw [chatDeleted_eq]
      split at hd <;> exact hd
  | migrateContactJid => exact h.migrateContactJid plan hw hg
  | _ =>
    refine h.of_messagesFrom (fun jid hd => ?_) (fun jid => (apply_sameChats plan s rfl jid).mp)
      (apply_messagesOf plan s _ rfl).messagesFrom
    rwa [chatDeleted_eq, (apply_sameWindow plan s rfl jid).1, ← chatDeleted_eq] at hd

end DeletedChats

/-- In every run whose steps the guard admits, a chat flagged deleted has neither a chat
row nor a stored message, in every state on the way. -/
theorem deletedChatsAbsent_of_guarded (ops : List Op)
    (hg : Guarded (Store.apply plan) DeletedChatsGuard Store.empty ops) :
    ∀ s ∈ states (Store.apply plan) Store.empty ops, DeletedChatsAbsent s := by
  have hstep : ∀ s op, (WellFormed s ∧ DeletedChatsAbsent s) → DeletedChatsGuard s op →
      WellFormed (s.apply plan op) ∧ DeletedChatsAbsent (s.apply plan op) :=
    fun s op hs hop => ⟨hs.1.apply plan op, hs.2.apply plan hs.1 hop⟩
  have hempty : DeletedChatsAbsent Store.empty := fun jid hd => by cases hd
  exact fun s hs => (invariant_states hstep ⟨wellFormed_empty, hempty⟩ hg s hs).2

/-- The guard admits a run that deletes a chat, revives it and clears it again. -/
theorem deletedChatsAbsent_of_guarded_live :
    DeletedChatsAbsent (run (Store.apply .stable) Store.empty
      [.insertMessage (directMessage "1" "a" "hi" 10) "Ann" false true, .deleteChat "1" 10,
        .insertMessage (directMessage "1" "b" "back" 20) "Ann" false true, .clearChat "1" 20]) :=
  deletedChatsAbsent_of_guarded .stable _ (by decide) _ (run_mem_states _ _ _)

/-- A chat known from history only has no settings row, so its deletion flags it although a
newer message stays. -/
theorem deleteChat_flags_chat_with_newer_message :
    ¬∀ s ∈ states (Store.apply .stable) Store.empty
      [.insertHistoryConversation (directConversation "1" "Ann" [("b", "new", 20)]),
        .deleteChat "1" 10], DeletedChatsAbsent s := by
  intro h
  have hlast := h _ (run_mem_states _ _ _) "1" (by decide)
  exact hlast.1 (by decide)

/-! ## Deleted messages -/

/-- No stored message is tombstoned or lies in the cleared window of its chat. -/
def DeletedMessagesAbsent (s : Store) : Prop :=
  ∀ m ∈ s.messages.rows, tombstoned s m.chatJid m.id = false ∧
    stateSuppressed s m.chatJid m.timestamp = false

/-- The steps that keep deleted messages absent. The default of `cleared_at` clears what is
dated zero or earlier, so a settings row is made only for a chat without such messages; and
a migration merges no message with the tombstone or the cleared window of the other
identity. -/
def DeletedMessagesGuard (s : Store) : Op → Prop
  | .deleteChat .. | .clearChat .. => True
  | .migrateContactJid oldJid newJid =>
    Migrates s oldJid newJid → ∀ m ∈ s.messages.rows, m.chatJid = oldJid ∨ m.chatJid = newJid →
      ∀ jid ∈ [oldJid, newJid],
        tombstoned s jid m.id = false ∧ stateSuppressed s jid m.timestamp = false
  | op => ∀ jid ∈ (op.opens s).toList, s.hasSettings jid ∨
      ((∀ m ∈ s.chatMessages jid, 0 < m.timestamp) ∧ ∀ m ∈ op.arrivals, 0 < m.timestamp)

instance (s : Store) (op : Op) : Decidable (DeletedMessagesGuard s op) := by
  apply Op.casesOn (motive := fun op => Decidable (DeletedMessagesGuard s op)) op
  all_goals
    intros
    dsimp only [DeletedMessagesGuard]
    infer_instance

section DeletedMessages

variable {s : Store}

theorem clearedAt_of_not_hasSettings {jid : String} (h : ¬s.hasSettings jid) :
    (s.marks jid).clearedAt = 0 := by
  rw [hasSettings_iff_find?] at h
  push Not at h
  have hnone := Option.eq_none_iff_forall_ne_some.mpr h
  simp [Store.marks, settingsOf, hnone, ChatSettingsRow.marks]

/-- Only deletions, clearings and migrations move the cleared window. -/
theorem clearedAt_apply {op : Op} (hop : op.isMigration = false)
    (hdelete : ∀ c t, op ≠ .deleteChat c t) (hclear : ∀ c t, op ≠ .clearChat c t)
    (jid : String) :
    ((s.apply plan op).marks jid).clearedAt = (s.marks jid).clearedAt := by
  have hinsert : ∀ insert : MessageInsert, insert.fromHistory = false →
      ((insertMessageInner plan s insert).1.marks jid).clearedAt = (s.marks jid).clearedAt := by
    intro insert hlive
    change ((insertMessageInto s insert).1.marks jid).clearedAt = _
    by_cases hs : suppressed s insert.message = true
    · rw [insertMessageInto_of_suppressed hs]
    · rw [marks_insertMessageInto s hlive (by simpa using hs)]
      split <;> rfl
  cases hq : op.keepsWindow with
  | true => exact (apply_sameWindow plan s hq jid).2
  | false =>
    cases op with
    | insertMessage => exact hinsert _ rfl
    | insertMessageWithReadIntent => exact hinsert _ rfl
    | deleteChat => exact absurd rfl (hdelete _ _)
    | clearChat => exact absurd rfl (hclear _ _)
    | migrateContactJid => cases hop
    | _ => cases hq

/-- A time outside the cleared window stays outside when an operation opens no settings row
over it. -/
theorem stateSuppressed_apply {op : Op} (hop : op.isMigration = false)
    (hdelete : ∀ c t, op ≠ .deleteChat c t) (hclear : ∀ c t, op ≠ .clearChat c t)
    {jid : String} {timestamp : ℤ} (h : stateSuppressed s jid timestamp = false)
    (hopen : op.opens s = some jid → s.hasSettings jid ∨ 0 < timestamp) :
    stateSuppressed (s.apply plan op) jid timestamp = false := by
  rw [← Bool.not_eq_true, stateSuppressed_iff_marks,
    clearedAt_apply plan hop hdelete hclear]
  rintro ⟨hset, hle⟩
  have hnot : ¬s.hasSettings jid := fun hset => by
    rw [stateSuppressed_iff_marks.mpr ⟨hset, hle⟩] at h
    cases h
  rcases hasSettings_apply plan s hop hset with hset | hop
  · exact hnot hset
  · rcases hopen hop with hset | hpos
    · exact hnot hset
    · rw [clearedAt_of_not_hasSettings hnot] at hle
      exact absurd hpos (not_lt.mpr hle)

/-- Deleting or clearing a chat deletes what its window then covers. -/
theorem DeletedMessagesAbsent.of_window (h : DeletedMessagesAbsent s) {s' : Store}
    {chatJid : String} {timestamp : ℤ}
    (hmem : ∀ m ∈ s'.messages.rows, m ∈ s.messages.rows ∧
      (m.chatJid = chatJid → timestamp < m.timestamp))
    (htomb : s'.messageTombstones = s.messageTombstones)
    (hsettings : ∀ jid, jid ≠ chatJid → s'.chatSettings.find? jid = s.chatSettings.find? jid)
    (hwindow : (s'.marks chatJid).clearedAt = timestamp) : DeletedMessagesAbsent s' := by
  intro m hm
  obtain ⟨hm, hnewer⟩ := hmem m hm
  obtain ⟨ht, hs⟩ := h m hm
  refine ⟨by rwa [tombstoned, htomb], ?_⟩
  by_cases hc : m.chatJid = chatJid
  · rw [← Bool.not_eq_true, stateSuppressed_iff_marks]
    rintro ⟨-, hle⟩
    rw [hc, hwindow] at hle
    exact absurd (hnewer hc) (not_lt.mpr hle)
  · rwa [stateSuppressed, hsettings _ hc]

theorem DeletedMessagesAbsent.deleteChat (h : DeletedMessagesAbsent s) (chatJid : String)
    (timestamp : ℤ) : DeletedMessagesAbsent (deleteChat s chatJid timestamp) := by
  by_cases hstale : timestamp < (s.marks chatJid).clearedAt
  · rw [deleteChat_of_stale s hstale]
    exact h
  have hle := not_lt.mp hstale
  refine h.of_window (fun m hm => (mem_deleteChat.mp hm).imp_right fun hn => hn hle) ?_
    (fun jid hj => by rw [deleteChat_settings s hle, if_neg hj])
    (by rw [marks_deleteChat s hle, if_pos rfl])
  unfold OmarchyWhatsapp.deleteChat
  split
  · rfl
  · dsimp only
    split <;> rfl

theorem DeletedMessagesAbsent.clearChat (h : DeletedMessagesAbsent s) (chatJid : String)
    (timestamp : ℤ) : DeletedMessagesAbsent (clearChat s chatJid timestamp) := by
  by_cases hstale : timestamp < (s.marks chatJid).clearedAt
  · rw [clearChat_of_stale s hstale]
    exact h
  have hle := not_lt.mp hstale
  have hstale' : ¬timestamp < (settingsOf s chatJid).clearedAt := hstale
  refine h.of_window (fun m hm => ?_) ?_
    (fun jid hj => by rw [clearChat_settings s hle, if_neg hj])
    (by rw [marks_clearChat s hle, if_pos rfl])
  · rw [OmarchyWhatsapp.clearChat, if_neg hstale'] at hm
    exact mem_deleteMessagesThrough.mp hm
  · rw [OmarchyWhatsapp.clearChat, if_neg hstale']
    rfl

theorem DeletedMessagesAbsent.migrateContactJid (h : DeletedMessagesAbsent s)
    {oldJid newJid : String} (hg : DeletedMessagesGuard s (.migrateContactJid oldJid newJid)) :
    DeletedMessagesAbsent (migrateContactJid plan s oldJid newJid).1 := by
  by_cases hmig : Migrates s oldJid newJid
  swap
  · rw [migrateContactJid_of_not_migrates plan hmig]
    exact h
  intro m' hm'
  obtain ⟨m, hm, hk, htime, -⟩ := migrateContactJid_origin plan hmig hm'
  have hc : renamed oldJid newJid m.chatJid = m'.chatJid := congrArg Prod.fst hk
  have hid : m.id = m'.id := congrArg (fun k => k.2.2) hk
  rw [stateSuppressed_migrateContactJid plan hmig, if_neg (hc ▸ renamed_ne hmig.1 _), ← hid,
    ← htime]
  by_cases hj : m'.chatJid = newJid
  · -- a message of the merged chat: the guard covers the marks of both identities
    have hchat : m.chatJid = oldJid ∨ m.chatJid = newJid := by
      rcases renamed_eq.mp (hc.trans hj) with ⟨ho, -⟩ | ⟨-, hn⟩
      · exact Or.inl ho
      · exact Or.inr hn
    obtain ⟨hto, hso⟩ := hg hmig m hm hchat oldJid (by simp)
    obtain ⟨htn, hsn⟩ := hg hmig m hm hchat newJid (by simp)
    rw [if_pos hj, hso, hsn]
    refine ⟨Bool.eq_false_iff.mpr fun ht => ?_, rfl⟩
    rcases tombstoned_migrateContactJid plan hmig ht with ht | ⟨-, ht⟩
    · rw [hj, htn] at ht
      cases ht
    · rw [hto] at ht
      cases ht
  · have hsame : m.chatJid = m'.chatJid := by
      rcases renamed_eq.mp hc with ⟨-, hn⟩ | ⟨-, he⟩
      · exact absurd hn.symm hj
      · exact he
    obtain ⟨ht, hs⟩ := h m hm
    rw [if_neg hj, ← hsame, hs]
    refine ⟨Bool.eq_false_iff.mpr fun ht' => ?_, rfl⟩
    rcases tombstoned_migrateContactJid plan hmig ht' with ht' | ⟨hn, -⟩
    · rw [ht] at ht'
      cases ht'
    · exact hj (hsame ▸ hn)

/-- One guarded operation keeps deleted messages absent. -/
theorem DeletedMessagesAbsent.apply (h : DeletedMessagesAbsent s) {op : Op}
    (hg : DeletedMessagesGuard s op) : DeletedMessagesAbsent (s.apply plan op) := by
  by_cases hmig : op.isMigration = true
  · cases op with
    | migrateContactJid => exact h.migrateContactJid plan hg
    | _ => cases hmig
  rw [Bool.not_eq_true] at hmig
  by_cases hdelete : ∃ c t, op = .deleteChat c t
  · obtain ⟨c, t, rfl⟩ := hdelete
    exact h.deleteChat c t
  by_cases hclear : ∃ c t, op = .clearChat c t
  · obtain ⟨c, t, rfl⟩ := hclear
    exact h.clearChat c t
  push Not at hdelete hclear
  have hopens : ∀ jid, op.opens s = some jid → s.hasSettings jid ∨
      ((∀ m ∈ s.chatMessages jid, 0 < m.timestamp) ∧ ∀ m ∈ op.arrivals, 0 < m.timestamp) := by
    intro jid hj
    cases op with
    | deleteChat c t => exact absurd rfl (hdelete c t)
    | clearChat c t => exact absurd rfl (hclear c t)
    | migrateContactJid => cases hmig
    | _ => exact hg jid (by rw [hj]; simp)
  intro m' hm'
  -- a stored message carries its tombstone and window status along
  suffices hstored : tombstoned s m'.chatJid m'.id = false ∧
      stateSuppressed s m'.chatJid m'.timestamp = false ∧
      (op.opens s = some m'.chatJid → s.hasSettings m'.chatJid ∨ 0 < m'.timestamp) by
    refine ⟨Bool.eq_false_iff.mpr fun ht => ?_,
      stateSuppressed_apply plan hmig hdelete hclear hstored.2.1 hstored.2.2⟩
    rcases tombstoned_apply plan s hmig ht with ht | rfl
    · rw [hstored.1] at ht
      cases ht
    · have hgone := (Table.mem_deleteWhere.mp hm').2
      simp at hgone
  rcases apply_messagesOf plan s op hmig m' hm' with ⟨m, hm, he⟩ | ⟨message, hmem, m, ha, he⟩
  · rw [he.chatJid, he.id, he.timestamp]
    obtain ⟨ht, hs⟩ := h m hm
    exact ⟨ht, hs, fun hj => (hopens _ hj).imp_right fun hpos =>
      hpos.1 m (Store.mem_chatMessages.mpr ⟨hm, rfl⟩)⟩
  · rw [he.chatJid, he.id, he.timestamp, ha.chatJid, ha.id, ha.timestamp]
    have hacc := ha.accepted
    rw [suppressed, Bool.or_eq_false_iff] at hacc
    exact ⟨hacc.1, hacc.2, fun hj => (hopens _ hj).imp_right fun hpos => hpos.2 message hmem⟩

end DeletedMessages

/-- In every run whose steps the guard admits, no deleted message is stored, in every state
on the way. -/
theorem deletedMessagesAbsent_of_guarded (ops : List Op)
    (hg : Guarded (Store.apply plan) DeletedMessagesGuard Store.empty ops) :
    ∀ s ∈ states (Store.apply plan) Store.empty ops, DeletedMessagesAbsent s := by
  have hempty : DeletedMessagesAbsent Store.empty := fun m hm => by cases hm
  exact invariant_states (fun s op hs hop => hs.apply plan hop) hempty hg

/-- The guard admits a run that deletes, clears and migrates. -/
theorem deletedMessagesAbsent_of_guarded_migration :
    DeletedMessagesAbsent (run (Store.apply .stable) Store.empty
      [.insertMessage (directMessage "1@lid" "a" "hi" 10) "Ann" false true,
        .deleteMessage "1@lid" "a", .clearChat "1@lid" 15,
        .insertMessage (directMessage "1@lid" "b" "new" 20) "Ann" false true,
        .insertMessage (directMessage "1" "c" "newer" 30) "Ann" false true,
        .migrateContactJid "1@lid" "1"]) :=
  deletedMessagesAbsent_of_guarded .stable _ (by decide) _ (run_mem_states _ _ _)

/-- A message deleted under the alias comes back when the canonical chat holds a copy. -/
theorem migrateContactJid_keeps_deleted_message :
    ¬∀ s ∈ states (Store.apply .stable) Store.empty
      [.insertMessage (directMessage "1" "a" "hi" 10) "Ann" false true,
        .insertMessage (directMessage "1@lid" "a" "hi" 10) "Ann" false true,
        .deleteMessage "1@lid" "a", .migrateContactJid "1@lid" "1"],
      DeletedMessagesAbsent s := by
  intro h
  have hlast := h _ (run_mem_states _ _ _)
  exact absurd hlast (by unfold DeletedMessagesAbsent; decide)

end OmarchyWhatsapp
