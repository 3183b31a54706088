import OmarchyWhatsapp.Database.Frame

/-!
# Where message rows come from

Every message row after an operation is an updated row from before it, a message the
operation delivered, or, after a migration, a row of one of the two identities. Updates
keep the identity, the time and the direction of a message and never take back its read
flag.
-/

namespace OmarchyWhatsapp

open Relational

variable (plan : QueryPlan)

/-! ## Updated rows -/

/-- `m'` is `m` after updates. -/
structure MessageRow.Evolves (m m' : MessageRow) : Prop where
  key : m'.key = m.key
  timestamp : m'.timestamp = m.timestamp
  fromMe : m'.fromMe = m.fromMe
  read : m.read = true → m'.read = true

namespace MessageRow

theorem Evolves.refl (m : MessageRow) : m.Evolves m := ⟨rfl, rfl, rfl, fun h => h⟩

theorem Evolves.trans {m m' m'' : MessageRow} (h : m.Evolves m') (h' : m'.Evolves m'') :
    m.Evolves m'' :=
  ⟨h'.key.trans h.key, h'.timestamp.trans h.timestamp, h'.fromMe.trans h.fromMe,
    fun hr => h'.read (h.read hr)⟩

theorem key_eq_iff {m m' : MessageRow} :
    m'.key = m.key ↔ m'.chatJid = m.chatJid ∧ m'.senderJid = m.senderJid ∧ m'.id = m.id := by
  simp [key]

theorem Evolves.chatJid {m m' : MessageRow} (h : m.Evolves m') : m'.chatJid = m.chatJid :=
  (key_eq_iff.mp h.key).1

theorem Evolves.id {m m' : MessageRow} (h : m.Evolves m') : m'.id = m.id :=
  (key_eq_iff.mp h.key).2.2

end MessageRow

/-- Every message row of `s'` is an updated row of `s`. -/
def MessagesFrom (s s' : Store) : Prop :=
  ∀ m' ∈ s'.messages.rows, ∃ m ∈ s.messages.rows, m.Evolves m'

namespace MessagesFrom

variable {s s' s'' : Store}

theorem of_eq (h : s'.messages = s.messages) : MessagesFrom s s' :=
  fun m' hm' => ⟨m', h ▸ hm', .refl m'⟩

theorem trans (h : MessagesFrom s s') (h' : MessagesFrom s' s'') : MessagesFrom s s'' := by
  intro m'' hm''
  obtain ⟨m', hm', he'⟩ := h' m'' hm''
  obtain ⟨m, hm, he⟩ := h m' hm'
  exact ⟨m, hm, he.trans he'⟩

theorem of_deleteWhere {p : MessageRow → Bool} (h : s'.messages = s.messages.deleteWhere p) :
    MessagesFrom s s' := by
  intro m' hm'
  rw [h, Table.mem_deleteWhere] at hm'
  exact ⟨m', hm'.1, .refl m'⟩

theorem of_updateWhere {p : MessageRow → Bool} {f : MessageRow → MessageRow}
    (h : s'.messages.rows = s.messages.rows.map (fun m => if p m then f m else m))
    (he : ∀ m : MessageRow, m.Evolves (f m)) : MessagesFrom s s' := by
  intro m' hm'
  rw [h, List.mem_map] at hm'
  obtain ⟨m, hm, rfl⟩ := hm'
  refine ⟨m, hm, ?_⟩
  split
  · exact he m
  · exact .refl m

end MessagesFrom

section Updates

variable (s : Store)

theorem updateContactNameInto_messagesFrom (jid name : String) (source : ℕ) :
    MessagesFrom s (updateContactNameInto s jid name source).1 := by
  unfold updateContactNameInto
  split
  · exact .of_eq rfl
  · split
    · exact .of_eq rfl
    · exact .of_updateWhere rfl (fun _ => ⟨rfl, rfl, rfl, fun h => h⟩)

theorem updateMessageMediaInto_messagesFrom (chatJid messageId : String)
    (media : MessageMedia) :
    MessagesFrom s (updateMessageMediaInto plan s chatJid messageId media).1 :=
  .of_updateWhere rfl (fun _ => ⟨rfl, rfl, rfl, fun h => h⟩)

theorem storeMediaDownload_messagesFrom (chatJid messageId : String) (payload : List UInt8) :
    MessagesFrom s (storeMediaDownload s chatJid messageId payload).1 :=
  .of_updateWhere rfl (fun _ => ⟨rfl, rfl, rfl, fun h => h⟩)

theorem rewriteMediaPaths_messagesFrom (rewrite : MessageMedia → MessageMedia) :
    MessagesFrom s (rewriteMediaPaths s rewrite) :=
  .of_updateWhere rfl (fun _ => ⟨rfl, rfl, rfl, fun h => h⟩)

theorem applyPollVote_messagesFrom (chatJid messageId voterJid : String)
    (selected : List String) (fromMe : Bool) (timestamp : ℤ) :
    MessagesFrom s
      (s.apply plan (.applyPollVote chatJid messageId voterJid selected fromMe timestamp)) := by
  dsimp only [Store.apply, applyPollVote]
  split
  · split_ifs
    · exact .of_eq rfl
    · exact .of_updateWhere rfl (fun _ => ⟨rfl, rfl, rfl, fun h => h⟩)
    · exact .of_eq rfl
  · exact .of_eq rfl

theorem applyReadBoundary_messagesFrom (chatJid : String) (timestamp : ℤ)
    (ids : List String) :
    MessagesFrom s (applyReadBoundary plan s chatJid timestamp ids).1 :=
  .of_updateWhere rfl (fun _ => ⟨rfl, rfl, rfl, fun _ => rfl⟩)

theorem applyReadState_messagesFrom (chatJid : String) (read : Bool) :
    MessagesFrom s (applyReadState plan s chatJid read).1 := by
  unfold applyReadState
  split_ifs
  · exact applyReadBoundary_messagesFrom plan s _ _ _
  · exact .of_eq rfl

theorem applySyncedReadState_messagesFrom (chatJid : String) (read : Bool)
    (boundary : Option ℤ) (ids : List String) (eventTimestamp : ℤ) :
    MessagesFrom s
      (applySyncedReadState plan s chatJid read boundary ids eventTimestamp).1 := by
  unfold applySyncedReadState
  split_ifs
  · exact .of_eq rfl
  · exact (applyReadBoundary_messagesFrom plan s _ _ _).trans (.of_eq rfl)
  · exact (applyReadState_messagesFrom plan s _ _).trans (.of_eq rfl)

theorem applySelfReadReceipt_messagesFrom (chatJid : String) (ids : List String)
    (timestamp : ℤ) : MessagesFrom s (applySelfReadReceipt plan s chatJid ids timestamp).1 := by
  unfold applySelfReadReceipt
  split_ifs
  · exact .of_eq rfl
  · exact applyReadBoundary_messagesFrom plan s _ _ _

theorem updateReceipt_messages (chatJid id : String) (receipt : ℕ)
    (reader : Option String) (receiptAt : ℤ) :
    (updateReceipt s chatJid id receipt reader receiptAt).1.messages
      = s.messages.updateWhere (receiptAdvances chatJid id receipt receiptAt)
          (advanceReceipt receipt receiptAt) := by
  unfold updateReceipt
  dsimp only
  split
  · split <;> rfl
  · rfl

theorem updateReceipt_messagesFrom (chatJid id : String) (receipt : ℕ)
    (reader : Option String) (receiptAt : ℤ) :
    MessagesFrom s (updateReceipt s chatJid id receipt reader receiptAt).1 := by
  refine .of_updateWhere (congrArg Table.rows (updateReceipt_messages s _ _ _ _ _)) ?_
  exact fun _ => ⟨rfl, rfl, rfl, fun h => h⟩

/-- A loop over ids keeps what each of its steps keeps. -/
theorem updateReceipts_induction {I : Store → Prop} (chatJid : String) (ids : List String)
    (receipt : ℕ) (reader : Option String) (receiptAt : ℤ)
    (hstep : ∀ s id, I s → I (updateReceipt s chatJid id receipt reader receiptAt).1)
    (hs : I s) : I (updateReceipts s chatJid ids receipt reader receiptAt).1 := by
  unfold updateReceipts
  generalize false = changed
  induction ids generalizing s changed with
  | nil => exact hs
  | cons id ids ih => exact ih _ (hstep s id hs) _

@[simp] theorem updateReceipts_frame (chatJid : String) (ids : List String) (receipt : ℕ)
    (reader : Option String) (receiptAt : ℤ) :
    (updateReceipts s chatJid ids receipt reader receiptAt).1.chats = s.chats ∧
    (updateReceipts s chatJid ids receipt reader receiptAt).1.contacts = s.contacts ∧
    (updateReceipts s chatJid ids receipt reader receiptAt).1.chatSettings = s.chatSettings ∧
    (updateReceipts s chatJid ids receipt reader receiptAt).1.messageTombstones
      = s.messageTombstones := by
  refine updateReceipts_induction (I := fun s' => s'.chats = s.chats ∧
    s'.contacts = s.contacts ∧ s'.chatSettings = s.chatSettings ∧
    s'.messageTombstones = s.messageTombstones) s _ _ _ _ _ ?_ ⟨rfl, rfl, rfl, rfl⟩
  rintro s' id ⟨h₁, h₂, h₃, h₄⟩
  simp [h₁, h₂, h₃, h₄]

theorem updateReceipts_messagesFrom (chatJid : String) (ids : List String) (receipt : ℕ)
    (reader : Option String) (receiptAt : ℤ) :
    MessagesFrom s (updateReceipts s chatJid ids receipt reader receiptAt).1 :=
  updateReceipts_induction s chatJid ids receipt reader receiptAt
    (fun s' _ h => h.trans (updateReceipt_messagesFrom s' _ _ _ _ _)) (.of_eq rfl)

theorem deleteChat_messagesFrom (chatJid : String) (timestamp : ℤ) :
    MessagesFrom s (deleteChat s chatJid timestamp) := by
  unfold deleteChat
  dsimp only
  split_ifs
  · exact .of_eq rfl
  · exact .of_deleteWhere rfl
  · exact .of_deleteWhere rfl

theorem clearChat_messagesFrom (chatJid : String) (timestamp : ℤ) :
    MessagesFrom s (clearChat s chatJid timestamp) := by
  unfold clearChat
  split_ifs
  · exact .of_eq rfl
  · exact .of_deleteWhere rfl

theorem deleteMessage_messagesFrom (chatJid messageId : String) :
    MessagesFrom s (deleteMessage plan s chatJid messageId) := .of_deleteWhere rfl

theorem pruneChatHistory_messagesFrom (chatJid : String) :
    MessagesFrom s (pruneChatHistory plan s chatJid) := .of_deleteWhere rfl

end Updates

/-! ## Delivered messages -/

theorem coveredBySelfRead_eq (s : Store) (chatJid id : String) (timestamp : ℤ) :
    coveredBySelfRead s chatJid id timestamp
      = (decide (timestamp ≤ (settingsOf s chatJid).readBoundary) ||
          (settingsOf s chatJid).readBoundaryIds.contains id) := by
  unfold coveredBySelfRead settingsOf
  cases s.chatSettings.find? chatJid <;> simp

theorem stateSuppressed_iff {s : Store} {chatJid : String} {timestamp : ℤ} :
    stateSuppressed s chatJid timestamp = true ↔
      ∃ c, s.chatSettings.find? chatJid = some c ∧ timestamp ≤ c.clearedAt := by
  unfold stateSuppressed
  cases s.chatSettings.find? chatJid <;> simp

theorem suppressed_congr {s s' : Store} (hs : s'.chatSettings = s.chatSettings)
    (ht : s'.messageTombstones = s.messageTombstones) (message : Message) :
    suppressed s' message = suppressed s message := by
  simp only [suppressed, tombstoned, stateSuppressed, hs, ht]

theorem coveredBySelfRead_congr {s s' : Store} (hs : s'.chatSettings = s.chatSettings)
    (chatJid id : String) (timestamp : ℤ) :
    coveredBySelfRead s' chatJid id timestamp = coveredBySelfRead s chatJid id timestamp := by
  simp only [coveredBySelfRead, hs]

/-- Reviving a chat leaves its read coverage alone. -/
theorem coveredBySelfRead_reviveChat (s : Store) (insert : MessageInsert)
    (chatJid id : String) (timestamp : ℤ) :
    coveredBySelfRead (reviveChat s insert) chatJid id timestamp
      = coveredBySelfRead s chatJid id timestamp := by
  unfold reviveChat
  split
  · rfl
  · simp only [coveredBySelfRead, Table.find?_upsert]
    by_cases h : chatJid = insert.message.chatJid
    · rw [if_pos h]
      cases s.chatSettings.find? chatJid <;> simp
    · rw [if_neg h]

/-- The statements before the insertion do not change the row it proposes. -/
theorem proposedMessage_arrival (s : Store) (insert : MessageInsert) :
    proposedMessage (touchChat (reviveChat s insert) insert) insert
      = proposedMessage s insert := by
  have hcovered : messageIsUnread (touchChat (reviveChat s insert) insert) insert
      = messageIsUnread s insert := by
    have htouch : ∀ c id ts, coveredBySelfRead (touchChat (reviveChat s insert) insert) c id ts
        = coveredBySelfRead (reviveChat s insert) c id ts :=
      fun c id ts => coveredBySelfRead_congr rfl c id ts
    simp only [messageIsUnread, htouch, coveredBySelfRead_reviveChat]
  simp only [proposedMessage, hcovered, storedSenderName, touchChat_frame, reviveChat_frame]

theorem insertMessageInto_of_suppressed {s : Store} {insert : MessageInsert}
    (h : suppressed s insert.message = true) : insertMessageInto s insert = (s, false) := by
  rw [insertMessageInto, if_pos h]

theorem insertMessageInto_messages {s : Store} {insert : MessageInsert}
    (h : suppressed s insert.message = false) :
    (insertMessageInto s insert).1.messages
      = s.messages.insertOrIgnore (proposedMessage s insert) := by
  rw [insertMessageInto, if_neg (by simp [h])]
  simp only [queueReadIntent_frame, storeMessage, touchChat_frame, reviveChat_frame,
    proposedMessage_arrival]

theorem insertMessageInto_inserted (s : Store) (insert : MessageInsert) :
    (insertMessageInto s insert).2
      = (!suppressed s insert.message && (s.messages.find? insert.message.key).isNone) := by
  unfold insertMessageInto
  split
  · simp [*]
  · simp only [storeMessage, touchChat_frame, reviveChat_frame]
    simp [*]

/-- `m'` is the row of a message that was delivered and not dropped. -/
structure Arrived (s : Store) (message : Message) (m' : MessageRow) : Prop where
  accepted : suppressed s message = false
  key : m'.key = message.key
  timestamp : m'.timestamp = message.timestamp
  fromMe : m'.fromMe = message.fromMe
  unread : m'.read = false →
    coveredBySelfRead s message.chatJid message.id message.timestamp = false

theorem Arrived.congr {s s' : Store} (hs : s'.chatSettings = s.chatSettings)
    (ht : s'.messageTombstones = s.messageTombstones) {message : Message} {m' : MessageRow}
    (h : Arrived s' message m') : Arrived s message m' where
  accepted := suppressed_congr hs ht message ▸ h.accepted
  key := h.key
  timestamp := h.timestamp
  fromMe := h.fromMe
  unread := fun hr => coveredBySelfRead_congr hs _ _ _ ▸ h.unread hr

theorem Arrived.chatJid {s : Store} {message : Message} {m' : MessageRow}
    (h : Arrived s message m') : m'.chatJid = message.chatJid := congrArg Prod.fst h.key

theorem Arrived.id {s : Store} {message : Message} {m' : MessageRow}
    (h : Arrived s message m') : m'.id = message.id := congrArg (fun k => k.2.2) h.key

/-- Every message row of `s'` is an updated row of `s` or the row of a delivered message. -/
def MessagesOf (s : Store) (arrivals : List Message) (s' : Store) : Prop :=
  ∀ m' ∈ s'.messages.rows, (∃ m ∈ s.messages.rows, m.Evolves m') ∨
    ∃ message ∈ arrivals, ∃ m, Arrived s message m ∧ m.Evolves m'

theorem MessagesFrom.messagesOf {s s' : Store} (arrivals : List Message)
    (h : MessagesFrom s s') : MessagesOf s arrivals s' := fun m' hm' => Or.inl (h m' hm')

theorem MessagesOf.of_eq {s s' : Store} {arrivals : List Message}
    (h : s'.messages = s.messages) : MessagesOf s arrivals s' :=
  (MessagesFrom.of_eq h).messagesOf arrivals

theorem MessagesOf.messagesFrom {s s' : Store} (h : MessagesOf s [] s') : MessagesFrom s s' := by
  intro m' hm'
  rcases h m' hm' with hm | ⟨_, hmem, -⟩
  · exact hm
  · cases hmem

theorem MessagesOf.then {s s' s'' : Store} {arrivals : List Message}
    (h : MessagesOf s arrivals s') (h' : MessagesFrom s' s'') : MessagesOf s arrivals s'' := by
  intro m'' hm''
  obtain ⟨m', hm', he'⟩ := h' m'' hm''
  rcases h m' hm' with ⟨m, hm, he⟩ | ⟨message, hmem, m, ha, he⟩
  · exact Or.inl ⟨m, hm, he.trans he'⟩
  · exact Or.inr ⟨message, hmem, m, ha, he.trans he'⟩

theorem insertMessageInto_messagesOf (s : Store) (insert : MessageInsert) :
    MessagesOf s [insert.message] (insertMessageInto s insert).1 := by
  by_cases h : suppressed s insert.message = true
  · rw [insertMessageInto_of_suppressed h]
    exact .of_eq rfl
  · rw [Bool.not_eq_true] at h
    intro m' hm'
    rw [insertMessageInto_messages h, Table.mem_insertOrIgnore] at hm'
    rcases hm' with hm' | ⟨rfl, -⟩
    · exact Or.inl ⟨m', hm', .refl m'⟩
    · refine Or.inr ⟨_, List.mem_singleton_self _, _, ⟨h, rfl, rfl, rfl, fun hr => ?_⟩, .refl _⟩
      simp only [proposedMessage, messageIsUnread, Bool.not_eq_false', Bool.and_eq_true,
        Bool.not_eq_true'] at hr
      exact hr.2

/-! ## Replayed conversations -/

@[simp] theorem insertMessageInto_history_frame (s : Store) (chat : Chat) (message : Message) :
    (insertMessageInto s (historyInsert chat message)).1.chatSettings = s.chatSettings ∧
    (insertMessageInto s (historyInsert chat message)).1.pendingReadMessages
      = s.pendingReadMessages := by
  unfold insertMessageInto
  split <;> simp [historyInsert, reviveChat, queueReadIntent]

@[simp] theorem learnSenderName_frame (s : Store) (message : Message) :
    (learnSenderName s message).chatSettings = s.chatSettings ∧
    (learnSenderName s message).messageTombstones = s.messageTombstones ∧
    (learnSenderName s message).pendingReadMessages = s.pendingReadMessages ∧
    (learnSenderName s message).pollVotes = s.pollVotes := by
  unfold learnSenderName
  split <;> simp

@[simp] theorem insertHistoryMessageInto_frame (s : Store) (chat : Chat) (message : Message) :
    (insertHistoryMessageInto plan s chat message).1.chatSettings = s.chatSettings ∧
    (insertHistoryMessageInto plan s chat message).1.messageTombstones = s.messageTombstones ∧
    (insertHistoryMessageInto plan s chat message).1.pendingReadMessages
      = s.pendingReadMessages := by
  unfold insertHistoryMessageInto
  dsimp only
  split
  · simp
  · split <;> simp

@[simp] theorem insertHistoryChatInto_frame (s : Store) (chat : Chat) :
    (insertHistoryChatInto s chat).messages = s.messages ∧
    (insertHistoryChatInto s chat).contacts = s.contacts ∧
    (insertHistoryChatInto s chat).chatSettings = s.chatSettings ∧
    (insertHistoryChatInto s chat).messageTombstones = s.messageTombstones ∧
    (insertHistoryChatInto s chat).pendingReadMessages = s.pendingReadMessages := by
  unfold insertHistoryChatInto
  split <;> exact ⟨rfl, rfl, rfl, rfl, rfl⟩

/-- The loop over a slice keeps what each of its messages keeps. -/
theorem insertHistoryMessages_induction {I : Store → Prop} {s : Store} {chat : Chat}
    {messages : List Message}
    (hstep : ∀ s, ∀ message ∈ messages, I s → I (insertHistoryMessageInto plan s chat message).1)
    (hs : I s) : I (insertHistoryMessages plan s chat messages).1 := by
  unfold insertHistoryMessages
  generalize false = changed
  induction messages generalizing s changed with
  | nil => exact hs
  | cons message messages ih =>
    exact ih (fun s m hm => hstep s m (List.mem_cons_of_mem _ hm))
      (hstep s message List.mem_cons_self hs) _

@[simp] theorem insertHistoryMessages_frame (s : Store) (chat : Chat)
    (messages : List Message) :
    (insertHistoryMessages plan s chat messages).1.chatSettings = s.chatSettings ∧
    (insertHistoryMessages plan s chat messages).1.messageTombstones = s.messageTombstones ∧
    (insertHistoryMessages plan s chat messages).1.pendingReadMessages
      = s.pendingReadMessages := by
  refine insertHistoryMessages_induction plan (I := fun s' => s'.chatSettings = s.chatSettings ∧
    s'.messageTombstones = s.messageTombstones ∧
    s'.pendingReadMessages = s.pendingReadMessages) ?_ ⟨rfl, rfl, rfl⟩
  rintro s' message - ⟨h₁, h₂, h₃⟩
  simp [h₁, h₂, h₃]

@[simp] theorem insertHistoryConversation_frame (s : Store) (chat : Chat)
    (messages : List Message) :
    (insertHistoryConversation plan s chat messages).1.chatSettings = s.chatSettings ∧
    (insertHistoryConversation plan s chat messages).1.messageTombstones
      = s.messageTombstones ∧
    (insertHistoryConversation plan s chat messages).1.pendingReadMessages
      = s.pendingReadMessages := by
  simp [insertHistoryConversation]

theorem learnSenderName_messagesFrom (s : Store) (message : Message) :
    MessagesFrom s (learnSenderName s message) := by
  unfold learnSenderName
  split
  · exact updateContactNameInto_messagesFrom s _ _ _
  · exact .of_eq rfl

theorem insertHistoryMessageInto_messagesOf (s : Store) (chat : Chat) (message : Message) :
    MessagesOf s [message] (insertHistoryMessageInto plan s chat message).1 := by
  have hinsert : MessagesOf s [message]
      (insertMessageInto (learnSenderName s message) (historyInsert chat message)).1 := by
    intro m' hm'
    rcases insertMessageInto_messagesOf _ _ m' hm' with ⟨m, hm, he⟩ | ⟨_, hmem, m, ha, he⟩
    · obtain ⟨m₀, hm₀, he₀⟩ := learnSenderName_messagesFrom s message m hm
      exact Or.inl ⟨m₀, hm₀, he₀.trans he⟩
    · exact Or.inr ⟨_, hmem, m, ha.congr (by simp) (by simp), he⟩
  unfold insertHistoryMessageInto
  dsimp only
  split
  · exact hinsert
  · split
    · exact hinsert
    · exact hinsert.then (updateMessageMediaInto_messagesFrom plan _ _ _ _)

theorem insertHistoryMessages_messagesOf (s : Store) (chat : Chat) (messages : List Message) :
    MessagesOf s messages
      (insertHistoryMessages plan (insertHistoryChatInto s chat) chat messages).1 := by
  refine (insertHistoryMessages_induction plan
    (I := fun s' => MessagesOf s messages s' ∧ s'.chatSettings = s.chatSettings ∧
      s'.messageTombstones = s.messageTombstones) ?_ ⟨?_, by simp, by simp⟩).1
  · rintro s' message hmessage ⟨hof, hs, ht⟩
    refine ⟨fun m' hm' => ?_, by simp [hs], by simp [ht]⟩
    rcases insertHistoryMessageInto_messagesOf plan s' chat message m' hm' with
      ⟨m, hm, he⟩ | ⟨_, hmem, m, ha, he⟩
    · rcases hof m hm with ⟨m₀, hm₀, he₀⟩ | ⟨message₀, hmem₀, m₀, ha₀, he₀⟩
      · exact Or.inl ⟨m₀, hm₀, he₀.trans he⟩
      · exact Or.inr ⟨message₀, hmem₀, m₀, ha₀, he₀.trans he⟩
    · obtain rfl := List.mem_singleton.mp hmem
      exact Or.inr ⟨_, hmessage, m, ha.congr hs ht, he⟩
  · exact .of_eq (by simp)

/-! ## Every operation but migration -/

/-- The messages an operation delivers. -/
def Op.arrivals : Op → List Message
  | .insertMessage message _ _ _ => [message]
  | .insertMessageWithReadIntent message _ _ _ => [message]
  | .insertHistoryConversation conversation => conversation.messages
  | _ => []

def Op.isMigration : Op → Bool
  | .migrateContactJid _ _ => true
  | _ => false

/-- What one operation other than a migration does to the message rows. -/
theorem apply_messagesOf (s : Store) (op : Op) (hop : op.isMigration = false) :
    MessagesOf s op.arrivals (s.apply plan op) := by
  cases op with
  | insertMessage message chatName isGroup incrementUnread =>
    exact (insertMessageInto_messagesOf s _).then (pruneChatHistory_messagesFrom plan _ _)
  | insertMessageWithReadIntent message chatName isGroup receipt =>
    exact (insertMessageInto_messagesOf s _).then (pruneChatHistory_messagesFrom plan _ _)
  | insertHistoryConversation conversation =>
    exact (insertHistoryMessages_messagesOf plan s _ _).then
      (pruneChatHistory_messagesFrom plan _ _)
  | updateContactName => exact (updateContactNameInto_messagesFrom s _ _ _).messagesOf _
  | updateAddressBookName => exact (updateContactNameInto_messagesFrom s _ _ _).messagesOf _
  | updateGroupName => exact .of_eq (by simp [Store.apply])
  | updateChatPhoneNumber => exact .of_eq rfl
  | applyReaction => exact .of_eq (by simp [Store.apply])
  | storePollSecret => exact .of_eq (by simp [Store.apply])
  | applyPollVote => exact (applyPollVote_messagesFrom plan s _ _ _ _ _ _).messagesOf _
  | updateMessageMedia => exact (updateMessageMediaInto_messagesFrom plan s _ _ _).messagesOf _
  | storeMediaDownload =>
    exact (storeMediaDownload_messagesFrom s _ _ _).messagesOf _
  | rewriteMediaPaths =>
    exact (rewriteMediaPaths_messagesFrom s _).messagesOf _
  | markRead => exact (applyReadBoundary_messagesFrom plan s _ _ _).messagesOf _
  | applyReadState => exact (applyReadState_messagesFrom plan s _ _).messagesOf _
  | applySyncedReadState => exact (applySyncedReadState_messagesFrom plan s _ _ _ _ _).messagesOf _
  | applySelfReadReceipt => exact (applySelfReadReceipt_messagesFrom plan s _ _ _).messagesOf _
  | reconcileUnread => exact .of_eq rfl
  | applyPinAt => exact .of_eq rfl
  | applyArchiveAt => exact .of_eq rfl
  | applyMuteAt => exact .of_eq rfl
  | updateReceipts => exact (updateReceipts_messagesFrom s _ _ _ _ _).messagesOf _
  | queueReadReceipts => exact .of_eq rfl
  | finishReadBatch => exact .of_eq rfl
  | deleteChat => exact (deleteChat_messagesFrom s _ _).messagesOf _
  | clearChat => exact (clearChat_messagesFrom s _ _).messagesOf _
  | deleteMessage => exact (deleteMessage_messagesFrom plan s _ _).messagesOf _
  | migrateContactJid => cases hop

end OmarchyWhatsapp
