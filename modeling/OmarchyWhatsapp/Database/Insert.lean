import OmarchyWhatsapp.Database.Media

/-!
# Contact names and message insertion

`insert_message_into` is shared by the live path (`insert_message`,
`insert_message_with_read_intent`) and by history replay
(`insert_history_conversation`); both end in `prune_chat_history`.

The statements of `insert_message_into` are definitions of their own, in the order in
which they run: the suppression check, the reset of `deleted`, the chat row, the message
row with its read flag, the unread counter and the read intent.
-/

namespace OmarchyWhatsapp

open Relational

variable (plan : QueryPlan)

/-! ## Contact names -/

/-- `update_contact_name_into`, and whether the name was accepted. -/
def updateContactNameInto (s : Store) (jid name : String) (source : ℕ) : Store × Bool :=
  if trim name = "" then (s, false)
  else if (s.contacts.find? jid).any (fun c => decide (source < c.source)) then (s, false)
  else
    let chatNameSource := if source > 0 then chatNameAddressBook else chatNameMessage
    ({ s with
        contacts := s.contacts.upsert ⟨jid, trim name, source⟩
          (fun old new => { old with name := new.name, source := new.source })
        chats := s.chats.updateWhere
          (fun c => c.jid = jid && !c.isGroup && decide (c.nameSource ≤ chatNameSource))
          (fun c => { c with name := trim name, nameSource := chatNameSource })
        messages := s.messages.updateWhere (fun m => m.senderJid = jid)
          (fun m => { m with senderName := trim name }) },
      true)

/-- `update_contact_name`: a push name. -/
def updateContactName (s : Store) (jid name : String) : Store × Bool :=
  updateContactNameInto s jid name 0

/-- `update_address_book_name`. -/
def updateAddressBookName (s : Store) (jid name : String) : Store × Bool :=
  updateContactNameInto s jid name 1

/-- `update_group_name`, and whether the row changed. -/
def updateGroupName (s : Store) (jid name : String) : Store × Bool :=
  if trim name = "" then (s, false)
  else
    let outdated := fun c : ChatRow => c.jid = jid && c.isGroup &&
      (c.name != trim name || c.nameSource != chatNameGroupMetadata)
    ({ s with
        chats := s.chats.updateWhere outdated
          (fun c => { c with name := trim name, nameSource := chatNameGroupMetadata }) },
      s.chats.rows.any outdated)

/-- `update_chat_phone_number`. -/
def updateChatPhoneNumber (s : Store) (jid phoneNumber : String) : Store × Bool :=
  let outdated := fun c : ChatRow => c.jid = jid && c.phoneNumber != some phoneNumber
  ({ s with
      chats := s.chats.updateWhere outdated (fun c => { c with phoneNumber := some phoneNumber }) },
    s.chats.rows.any outdated)

/-! ## Inserting a message -/

structure UnreadReceipt where
  messageId : String
  senderJid : String
  isGroup : Bool
deriving DecidableEq, Repr

/-- One message and the conversation context that decides how it is absorbed. -/
structure MessageInsert where
  message : Message
  chatName : String
  isGroup : Bool
  incrementUnread : Bool
  fromHistory : Bool
  readIntent : Option UnreadReceipt
deriving DecidableEq, Repr

/-- The name a chat row starts with, and its source: a JID is never a name. -/
def chatNameCandidate (chatName jid : String) (source : ℕ) : String × ℕ :=
  if trim chatName = "" ∨ trim chatName = jid then ("", chatNameUnknown)
  else (trim chatName, source)

/-- The message was deleted on this account. -/
def tombstoned (s : Store) (chatJid id : String) : Bool :=
  (s.messageTombstones.find? (chatJid, id)).isSome

/-- The timestamp lies in the cleared window of its chat. -/
def stateSuppressed (s : Store) (chatJid : String) (timestamp : ℤ) : Bool :=
  (s.chatSettings.find? chatJid).any (fun c => decide (timestamp ≤ c.clearedAt))

/-- The message is dropped instead of stored. -/
def suppressed (s : Store) (message : Message) : Bool :=
  tombstoned s message.chatJid message.id || stateSuppressed s message.chatJid message.timestamp

/-- A live message brings its chat back from deletion; replayed history does not. -/
def reviveChat (s : Store) (insert : MessageInsert) : Store :=
  if insert.fromHistory then s
  else { s with
    chatSettings := s.chatSettings.upsert { jid := insert.message.chatJid }
      (fun old _ =>
        { old with deleted :=
            if old.clearedAt < insert.message.timestamp then false else old.deleted }) }

/-- The preview of a chat row after a message arrives. -/
def mergePreview (old new : ChatRow) : ChatRow :=
  { old with
    lastMessage := if old.lastTimestamp ≤ new.lastTimestamp then new.lastMessage
      else old.lastMessage
    lastTimestamp := max old.lastTimestamp new.lastTimestamp
    isGroup := new.isGroup }

/-- The chat row an insertion proposes. -/
def proposedChat (insert : MessageInsert) : ChatRow :=
  let name := chatNameCandidate insert.chatName insert.message.chatJid
    (if insert.fromHistory then chatNameHistory else chatNameMessage)
  { jid := insert.message.chatJid, name := name.1, nameSource := name.2,
    lastMessage := insert.message.text, lastTimestamp := insert.message.timestamp,
    unread := 0, isGroup := insert.isGroup }

def touchChat (s : Store) (insert : MessageInsert) : Store :=
  { s with chats := s.chats.upsert (proposedChat insert) mergePreview }

/-- The message was read elsewhere before it arrived here. -/
def coveredBySelfRead (s : Store) (chatJid id : String) (timestamp : ℤ) : Bool :=
  match s.chatSettings.find? chatJid with
  | some c => decide (timestamp ≤ c.readBoundary) || c.readBoundaryIds.contains id
  | none => decide (timestamp ≤ 0)

/-- `message_is_unread`. -/
def messageIsUnread (s : Store) (insert : MessageInsert) : Bool :=
  insert.incrementUnread &&
    !coveredBySelfRead s insert.message.chatJid insert.message.id insert.message.timestamp

/-- The name shown for a sender: the address-book name if there is one. -/
def storedSenderName (s : Store) (message : Message) : String :=
  match s.contacts.find? message.senderJid with
  | some c => if c.source = 1 then c.name else message.senderName
  | none => message.senderName

/-- The row an insertion proposes. -/
def proposedMessage (s : Store) (insert : MessageInsert) : MessageRow :=
  let message := insert.message
  { chatJid := message.chatJid, id := message.id, senderJid := message.senderJid,
    senderName := storedSenderName s message, text := message.text,
    timestamp := message.timestamp, fromMe := message.fromMe,
    read := !messageIsUnread s insert, receipt := message.receipt,
    deliveredAt := message.deliveredAt, receiptReadAt := message.readAt,
    media := message.media, quote := message.quote }

/-- The identity of a message. -/
def Message.key (message : Message) : String × String × String :=
  (message.chatJid, message.senderJid, message.id)

/-- The message row, and the unread counter when the row is new and unread. -/
def storeMessage (s : Store) (insert : MessageInsert) : Store × Bool :=
  let inserted := (s.messages.find? insert.message.key).isNone
  let chats := if inserted && messageIsUnread s insert then
      s.chats.updateWhere (fun c => c.jid = insert.message.chatJid)
        (fun c => { c with unread := c.unread + 1 })
    else s.chats
  ({ s with messages := s.messages.insertOrIgnore (proposedMessage s insert), chats }, inserted)

/-- One more receipt for the read outbox. -/
def queueReceipt (s : Store) (chatJid : String) (createdAt : ℤ)
    (receipts : List UnreadReceipt) : Store :=
  { s with
    pendingReadChats := s.pendingReadChats.upsert ⟨chatJid, createdAt⟩
      (fun old new => { old with createdAt := min old.createdAt new.createdAt })
    pendingReadMessages := receipts.foldl
      (fun t r => t.insertOrIgnore ⟨chatJid, r.messageId, r.senderJid, r.isGroup⟩)
      s.pendingReadMessages }

def queueReadIntent (s : Store) (insert : MessageInsert) : Store :=
  match insert.readIntent with
  | none => s
  | some receipt => queueReceipt s insert.message.chatJid insert.message.timestamp [receipt]

/-- `insert_message_into`, and whether the message row is new. -/
def insertMessageInto (s : Store) (insert : MessageInsert) : Store × Bool :=
  if suppressed s insert.message then (s, false)
  else
    let stored := storeMessage (touchChat (reviveChat s insert) insert) insert
    (queueReadIntent stored.1 insert, stored.2)

/-! ## Retention -/

/-- The messages that `ORDER BY timestamp DESC LIMIT 1000` does not return. -/
def overflow (rows : List MessageRow) : List MessageRow := (newestFirst plan rows).drop retention

/-- The ids a chat still has messages for. -/
def Store.hasMessage (s : Store) (chatJid messageId : String) : Bool :=
  s.messages.rows.any (fun m => m.chatJid = chatJid && m.id = messageId)

/-- `DELETE FROM messages … NOT IN (SELECT … ORDER BY timestamp DESC LIMIT 1000)`. -/
def keepNewest (s : Store) (chatJid : String) : Store :=
  { s with
    messages := s.messages.deleteWhere
      (fun m => m.chatJid = chatJid && (overflow plan (s.chatMessages chatJid)).contains m) }

/-- `prune_chat_history`. -/
def pruneChatHistory (s : Store) (chatJid : String) : Store :=
  let kept := keepNewest plan s chatJid
  { kept with
    pollVotes := s.pollVotes.deleteWhere
      (fun v => v.chatJid = chatJid && !kept.hasMessage chatJid v.messageId)
    pollSecrets := s.pollSecrets.deleteWhere
      (fun p => p.chatJid = chatJid && !kept.hasMessage chatJid p.messageId)
    messageReads := s.messageReads.deleteWhere
      (fun r => r.chatJid = chatJid && !kept.hasMessage chatJid r.messageId) }

/-- `insert_message_inner`. -/
def insertMessageInner (s : Store) (insert : MessageInsert) : Store × Bool :=
  let inserted := insertMessageInto s insert
  (pruneChatHistory plan inserted.1 insert.message.chatJid, inserted.2)

/-- The insertion `insert_message` asks for. -/
def liveInsert (message : Message) (chatName : String) (isGroup incrementUnread : Bool) :
    MessageInsert :=
  { message, chatName, isGroup, incrementUnread, fromHistory := false, readIntent := none }

/-- `insert_message`. -/
def insertMessage (s : Store) (message : Message) (chatName : String)
    (isGroup incrementUnread : Bool) : Store × Bool :=
  insertMessageInner plan s (liveInsert message chatName isGroup incrementUnread)

/-- The insertion `insert_message_with_read_intent` asks for. -/
def focusedInsert (message : Message) (chatName : String) (isGroup : Bool)
    (receipt : UnreadReceipt) : MessageInsert :=
  { message, chatName, isGroup, incrementUnread := false, fromHistory := false,
    readIntent := some receipt }

/-- `insert_message_with_read_intent`. -/
def insertMessageWithReadIntent (s : Store) (message : Message) (chatName : String)
    (isGroup : Bool) (receipt : UnreadReceipt) : Store × Bool :=
  insertMessageInner plan s (focusedInsert message chatName isGroup receipt)

/-! ## History replay -/

/-- The chat row a replayed conversation proposes. -/
def proposedHistoryChat (chat : Chat) : ChatRow :=
  let name := chatNameCandidate chat.name chat.jid chatNameHistory
  { jid := chat.jid, name := name.1, nameSource := name.2, lastMessage := chat.lastMessage,
    lastTimestamp := chat.lastTimestamp, unread := chat.unread, isGroup := chat.isGroup }

/-- A replayed conversation names a chat that has no name yet. -/
def mergeHistoryChat (old new : ChatRow) : ChatRow :=
  { old with
    name := if old.nameSource = chatNameUnknown ∧ chatNameUnknown < new.nameSource then new.name
      else old.name
    nameSource := max old.nameSource new.nameSource
    lastTimestamp := max old.lastTimestamp new.lastTimestamp
    isGroup := new.isGroup }

/-- The chat was deleted and no live message has brought it back. -/
def chatDeleted (s : Store) (jid : String) : Bool :=
  (s.chatSettings.find? jid).any (·.deleted)

/-- `insert_history_chat_into`. -/
def insertHistoryChatInto (s : Store) (chat : Chat) : Store :=
  if chatDeleted s chat.jid then s
  else { s with chats := s.chats.upsert (proposedHistoryChat chat) mergeHistoryChat }

/-- The insertion a replayed message asks for. -/
def historyInsert (chat : Chat) (message : Message) : MessageInsert :=
  { message, chatName := chat.name, isGroup := chat.isGroup, incrementUnread := false,
    fromHistory := true, readIntent := none }

/-- The push name that travels with a replayed message. -/
def learnSenderName (s : Store) (message : Message) : Store :=
  if !message.fromMe && message.senderName != message.senderJid then
    (updateContactNameInto s message.senderJid message.senderName 0).1
  else s

/-- `insert_history_message_into`. -/
def insertHistoryMessageInto (s : Store) (chat : Chat) (message : Message) : Store × Bool :=
  let inserted := insertMessageInto (learnSenderName s message) (historyInsert chat message)
  if inserted.2 then (inserted.1, true)
  else match message.media with
    | none => (inserted.1, false)
    | some media => updateMessageMediaInto plan inserted.1 message.chatJid message.id media

/-- The messages of a conversation, in slice order. -/
def insertHistoryMessages (s : Store) (chat : Chat) (messages : List Message) : Store × Bool :=
  messages.foldl (fun acc message =>
    let next := insertHistoryMessageInto plan acc.1 chat message
    (next.1, acc.2 || next.2)) (s, false)

/-- `insert_history_conversation`. -/
def insertHistoryConversation (s : Store) (chat : Chat) (messages : List Message) :
    Store × Bool :=
  let replayed := insertHistoryMessages plan (insertHistoryChatInto s chat) chat messages
  (pruneChatHistory plan replayed.1 chat.jid, replayed.2)

end OmarchyWhatsapp
