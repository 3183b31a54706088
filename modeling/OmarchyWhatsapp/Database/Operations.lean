import OmarchyWhatsapp.Relational.Run
import OmarchyWhatsapp.Database.Migrate
import OmarchyWhatsapp.Database.Queries

/-!
# The store as a state machine

`Op` lists the operations that write to the message store and `Store.apply` is one step.
An operation runs in one transaction: where it returns an error, nothing is written.
`clear_account_data` empties every table, so what follows it is a run from `Store.empty`.
-/

namespace OmarchyWhatsapp

open Relational

/-- A conversation of a history sync. `history.rs` builds its messages under the JID of
its chat. -/
structure Conversation where
  chat : Chat
  messages : List Message
  sameChat : ∀ m ∈ messages, m.chatJid = chat.jid

inductive Op where
  | insertMessage (message : Message) (chatName : String) (isGroup incrementUnread : Bool)
  | insertMessageWithReadIntent (message : Message) (chatName : String) (isGroup : Bool)
      (receipt : UnreadReceipt)
  | insertHistoryConversation (conversation : Conversation)
  | updateContactName (jid name : String)
  | updateAddressBookName (jid name : String)
  | updateGroupName (jid name : String)
  | updateChatPhoneNumber (jid phoneNumber : String)
  | applyReaction (chatJid messageId reactorJid emoji : String) (fromMe : Bool) (timestamp : ℤ)
  | storePollSecret (chatJid messageId creatorJid : String) (messageSecret : List UInt8)
  | applyPollVote (chatJid messageId voterJid : String) (selectedOptions : List String)
      (fromMe : Bool) (timestamp : ℤ)
  | updateMessageMedia (chatJid messageId : String) (media : MessageMedia)
  | storeMediaDownload (chatJid messageId : String) (payload : List UInt8)
  | rewriteMediaPaths (rewrite : MessageMedia → MessageMedia)
  | markRead (chatJid : String)
  | applyReadState (chatJid : String) (read : Bool)
  | applySyncedReadState (chatJid : String) (read : Bool) (boundaryTimestamp : Option ℤ)
      (boundaryIds : List String) (eventTimestamp : ℤ)
  | applySelfReadReceipt (chatJid : String) (messageIds : List String) (receiptTimestamp : ℤ)
  | reconcileUnread
  | applyPinAt (chatJid : String) (pinned : Bool) (updatedAt : ℤ)
  | applyArchiveAt (chatJid : String) (archived : Bool) (updatedAt : ℤ)
  | applyMuteAt (chatJid : String) (muted : Bool) (muteEnd updatedAt : ℤ)
  | updateReceipts (chatJid : String) (messageIds : List String) (receipt : ℕ)
      (recipientJid : Option String) (receiptAt : ℤ)
  | queueReadReceipts (chatJid : String) (receipts : List UnreadReceipt) (createdAt : ℤ)
  | finishReadBatch (batch : PendingReadBatch)
  | deleteChat (chatJid : String) (timestamp : ℤ)
  | clearChat (chatJid : String) (timestamp : ℤ)
  | deleteMessage (chatJid messageId : String)
  | migrateContactJid (oldJid newJid : String)

variable (plan : QueryPlan)

/-- One operation. -/
def Store.apply (s : Store) : Op → Store
  | .insertMessage message chatName isGroup incrementUnread =>
    (insertMessage plan s message chatName isGroup incrementUnread).1
  | .insertMessageWithReadIntent message chatName isGroup receipt =>
    (insertMessageWithReadIntent plan s message chatName isGroup receipt).1
  | .insertHistoryConversation conversation =>
    (insertHistoryConversation plan s conversation.chat conversation.messages).1
  | .updateContactName jid name => (updateContactName s jid name).1
  | .updateAddressBookName jid name => (updateAddressBookName s jid name).1
  | .updateGroupName jid name => (updateGroupName s jid name).1
  | .updateChatPhoneNumber jid phoneNumber =>
    (updateChatPhoneNumber s jid phoneNumber).1
  | .applyReaction chatJid messageId reactorJid emoji fromMe timestamp =>
    (applyReaction s chatJid messageId reactorJid emoji fromMe timestamp).1
  | .storePollSecret chatJid messageId creatorJid messageSecret =>
    (storePollSecret s chatJid messageId creatorJid messageSecret).toOption.getD s
  | .applyPollVote chatJid messageId voterJid selectedOptions fromMe timestamp =>
    ((applyPollVote plan s chatJid messageId voterJid selectedOptions fromMe
      timestamp).toOption.map Prod.fst).getD s
  | .updateMessageMedia chatJid messageId media =>
    (updateMessageMediaInto plan s chatJid messageId media).1
  | .storeMediaDownload chatJid messageId payload =>
    (storeMediaDownload s chatJid messageId payload).1
  | .rewriteMediaPaths rewrite => rewriteMediaPaths s rewrite
  | .markRead chatJid => markRead plan s chatJid
  | .applyReadState chatJid read => (applyReadState plan s chatJid read).1
  | .applySyncedReadState chatJid read boundaryTimestamp boundaryIds eventTimestamp =>
    (applySyncedReadState plan s chatJid read boundaryTimestamp boundaryIds
      eventTimestamp).1
  | .applySelfReadReceipt chatJid messageIds receiptTimestamp =>
    (applySelfReadReceipt plan s chatJid messageIds receiptTimestamp).1
  | .reconcileUnread => reconcileUnread s
  | .applyPinAt chatJid pinned updatedAt => applyPinAt s chatJid pinned updatedAt
  | .applyArchiveAt chatJid archived updatedAt =>
    applyArchiveAt s chatJid archived updatedAt
  | .applyMuteAt chatJid muted muteEnd updatedAt =>
    applyMuteAt s chatJid muted muteEnd updatedAt
  | .updateReceipts chatJid messageIds receipt recipientJid receiptAt =>
    (updateReceipts s chatJid messageIds receipt recipientJid receiptAt).1
  | .queueReadReceipts chatJid receipts createdAt => queueReceipt s chatJid createdAt receipts
  | .finishReadBatch batch => (finishReadBatch s batch).1
  | .deleteChat chatJid timestamp => deleteChat s chatJid timestamp
  | .clearChat chatJid timestamp => clearChat s chatJid timestamp
  | .deleteMessage chatJid messageId => deleteMessage plan s chatJid messageId
  | .migrateContactJid oldJid newJid =>
    (migrateContactJid plan s oldJid newJid).1

/-! ## Inputs for concrete runs -/

/-- An incoming text message of a direct chat. -/
def directMessage (chatJid id text : String) (timestamp : ℤ) : Message :=
  { id, chatJid, senderJid := chatJid, senderName := chatJid, text, timestamp, fromMe := false }

/-- A replayed direct chat with text messages, newest first, as `(id, text, timestamp)`. -/
def directConversation (jid name : String) (messages : List (String × String × ℤ)) :
    Conversation where
  chat :=
    { jid, name, lastMessage := (messages.head?.map (·.2.1)).getD "", lastSenderName := "",
      lastTimestamp := (messages.head?.map (·.2.2)).getD 0, unread := 0, isGroup := false }
  messages := messages.map (fun m => directMessage jid m.1 m.2.1 m.2.2)
  sameChat m hm := by
    obtain ⟨_, -, rfl⟩ := List.mem_map.mp hm
    rfl

end OmarchyWhatsapp
