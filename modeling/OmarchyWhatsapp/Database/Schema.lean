import OmarchyWhatsapp.Protocol
import OmarchyWhatsapp.Relational.Table
import OmarchyWhatsapp.Relational.Order

/-!
# The message store

The tables of `history.db` that the message operations read and write, one row type a
table and one field a column. Columns that hold JSON hold the decoded value; the text
column `read_boundary_ids`, which is `NULL` exactly when no id is remembered, holds a list.
A `NULL` flag is `none`.

`inbound_inbox` and `text_outbox` have no column in common with these tables and are not
part of this state.
-/

namespace OmarchyWhatsapp

open Relational

/-! ## Rows -/

structure ContactRow where
  jid : String
  name : String
  /-- 0 for a push name, 1 for an address-book contact. -/
  source : ℕ := 0
deriving DecidableEq, Repr

structure ChatRow where
  jid : String
  name : String
  nameSource : ℕ := 0
  phoneNumber : Option String := none
  lastMessage : String := ""
  lastTimestamp : ℤ := 0
  unread : ℕ := 0
  isGroup : Bool := false
deriving DecidableEq, Repr

structure MessageRow where
  chatJid : String
  id : String
  senderJid : String
  senderName : String
  text : String
  timestamp : ℤ
  fromMe : Bool
  read : Bool := false
  receipt : ℕ := 0
  deliveredAt : Option ℤ := none
  receiptReadAt : Option ℤ := none
  media : Option MessageMedia := none
  mediaDownload : Option (List UInt8) := none
  quote : Option MessageQuote := none
deriving DecidableEq, Repr

structure ChatSettingsRow where
  jid : String
  pinned : Option Bool := none
  pinnedUpdatedAt : ℤ := 0
  archived : Option Bool := none
  archivedUpdatedAt : ℤ := 0
  muted : Option Bool := none
  muteEnd : Option ℤ := none
  muteUpdatedAt : ℤ := 0
  readState : Option Bool := none
  readStateUpdatedAt : ℤ := 0
  explicitUnread : Bool := false
  deleted : Bool := false
  clearedAt : ℤ := 0
  readBoundary : ℤ := 0
  readBoundaryIds : List String := []
deriving DecidableEq, Repr

structure MessageReadRow where
  chatJid : String
  messageId : String
  readerJid : String
  readAt : ℤ := 0
  deliveredAt : ℤ := 0
deriving DecidableEq, Repr

structure MessageTombstoneRow where
  chatJid : String
  id : String
deriving DecidableEq, Repr

structure ReactionRow where
  chatJid : String
  messageId : String
  reactorJid : String
  emoji : String
  fromMe : Bool := false
  timestamp : ℤ := 0
deriving DecidableEq, Repr

structure ReactionTombstoneRow where
  chatJid : String
  messageId : String
  reactorJid : String
  timestamp : ℤ
deriving DecidableEq, Repr

structure PollSecretRow where
  chatJid : String
  messageId : String
  creatorJid : String
  messageSecret : List UInt8
deriving DecidableEq, Repr

structure PollVoteRow where
  chatJid : String
  messageId : String
  voterJid : String
  selectedOptions : List String
  fromMe : Bool := false
  timestamp : ℤ := 0
deriving DecidableEq, Repr

structure PendingReadChatRow where
  chatJid : String
  createdAt : ℤ
deriving DecidableEq, Repr

structure PendingReadMessageRow where
  chatJid : String
  messageId : String
  senderJid : String
  isGroup : Bool
deriving DecidableEq, Repr

/-! ## Primary keys -/

namespace MessageRow

/-- The message identity `(chat_jid, sender_jid, id)`. -/
def key (m : MessageRow) : String × String × String := (m.chatJid, m.senderJid, m.id)

end MessageRow

def MessageReadRow.key (r : MessageReadRow) : String × String × String :=
  (r.chatJid, r.messageId, r.readerJid)

def MessageTombstoneRow.key (r : MessageTombstoneRow) : String × String := (r.chatJid, r.id)

def ReactionRow.key (r : ReactionRow) : String × String × String :=
  (r.chatJid, r.messageId, r.reactorJid)

def ReactionTombstoneRow.key (r : ReactionTombstoneRow) : String × String × String :=
  (r.chatJid, r.messageId, r.reactorJid)

def PollSecretRow.key (r : PollSecretRow) : String × String := (r.chatJid, r.messageId)

def PollVoteRow.key (r : PollVoteRow) : String × String × String :=
  (r.chatJid, r.messageId, r.voterJid)

def PendingReadMessageRow.key (r : PendingReadMessageRow) : String × String × String :=
  (r.chatJid, r.senderJid, r.messageId)

/-! ## The store -/

structure Store where
  contacts : Table ContactRow ContactRow.jid := ∅
  chats : Table ChatRow ChatRow.jid := ∅
  messages : Table MessageRow MessageRow.key := ∅
  chatSettings : Table ChatSettingsRow ChatSettingsRow.jid := ∅
  messageReads : Table MessageReadRow MessageReadRow.key := ∅
  messageTombstones : Table MessageTombstoneRow MessageTombstoneRow.key := ∅
  reactions : Table ReactionRow ReactionRow.key := ∅
  reactionTombstones : Table ReactionTombstoneRow ReactionTombstoneRow.key := ∅
  pollSecrets : Table PollSecretRow PollSecretRow.key := ∅
  pollVotes : Table PollVoteRow PollVoteRow.key := ∅
  pendingReadChats : Table PendingReadChatRow PendingReadChatRow.chatJid := ∅
  pendingReadMessages : Table PendingReadMessageRow PendingReadMessageRow.key := ∅

namespace Store

/-- A freshly created database. -/
def empty : Store := {}

/-- The messages of a chat, in insertion order. -/
def chatMessages (s : Store) (chatJid : String) : List MessageRow :=
  s.messages.rows.filter (fun m => m.chatJid = chatJid)

/-- The rows a lookup by `(chat_jid, id)` matches: one for each sender that used the id. -/
def messagesById (s : Store) (chatJid id : String) : List MessageRow :=
  s.messages.rows.filter (fun m => m.chatJid = chatJid ∧ m.id = id)

theorem mem_chatMessages {s : Store} {c : String} {m : MessageRow} :
    m ∈ s.chatMessages c ↔ m ∈ s.messages.rows ∧ m.chatJid = c := by
  simp [chatMessages]

theorem mem_messagesById {s : Store} {c id : String} {m : MessageRow} :
    m ∈ s.messagesById c id ↔ m ∈ s.messages.rows ∧ m.chatJid = c ∧ m.id = id := by
  simp [messagesById]

end Store

/-! ## Constants -/

def chatNameUnknown : ℕ := 0
def chatNameHistory : ℕ := 10
def chatNameMessage : ℕ := 20
def chatNameGroupMetadata : ℕ := 30
def chatNameAddressBook : ℕ := 40
def readBoundaryIdsCap : ℕ := 256

/-- How many messages of a chat `prune_chat_history` keeps. -/
def retention : ℕ := 1000

end OmarchyWhatsapp
