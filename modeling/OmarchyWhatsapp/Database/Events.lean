import OmarchyWhatsapp.Database.ReadState

/-!
# Synchronized events

The operations that app-state events, receipts and reactions reach: chat settings with
their update times, delivery and read receipts of outgoing messages, reactions, and the
deletion of messages and chats.
-/

namespace OmarchyWhatsapp

open Relational

variable (plan : QueryPlan)

/-! ## Pin, archive and mute -/

/-- `apply_pin_at`. -/
def applyPinAt (s : Store) (chatJid : String) (pinned : Bool) (updatedAt : ℤ) : Store :=
  { s with
      chatSettings := s.chatSettings.upsert
        { jid := chatJid, pinned := some pinned, pinnedUpdatedAt := updatedAt }
        (fun old new =>
          { old with
              pinned := if old.pinnedUpdatedAt ≤ new.pinnedUpdatedAt then new.pinned
                else old.pinned
              pinnedUpdatedAt := max old.pinnedUpdatedAt new.pinnedUpdatedAt }) }

/-- `apply_archive_at`. -/
def applyArchiveAt (s : Store) (chatJid : String) (archived : Bool) (updatedAt : ℤ) : Store :=
  { s with
      chatSettings := s.chatSettings.upsert
        { jid := chatJid, archived := some archived, archivedUpdatedAt := updatedAt }
        (fun old new =>
          { old with
              archived := if old.archivedUpdatedAt ≤ new.archivedUpdatedAt then new.archived
                else old.archived
              archivedUpdatedAt := max old.archivedUpdatedAt new.archivedUpdatedAt }) }

/-- `apply_mute_at`. -/
def applyMuteAt (s : Store) (chatJid : String) (muted : Bool) (muteEnd updatedAt : ℤ) : Store :=
  { s with
      chatSettings := s.chatSettings.upsert
        { jid := chatJid, muted := some muted, muteEnd := some muteEnd,
          muteUpdatedAt := updatedAt }
        (fun old new =>
          { old with
              muted := if old.muteUpdatedAt ≤ new.muteUpdatedAt then new.muted else old.muted
              muteEnd := if old.muteUpdatedAt ≤ new.muteUpdatedAt then new.muteEnd
                else old.muteEnd
              muteUpdatedAt := max old.muteUpdatedAt new.muteUpdatedAt }) }

/-! ## Receipts of outgoing messages -/

/-- The time is a first or an earlier one. -/
def earlierTime (previous : Option ℤ) (receiptAt : ℤ) : Bool :=
  decide (0 < receiptAt) && previous.all (fun t => decide (receiptAt < t))

/-- The rows a receipt for message `id` advances. -/
def receiptAdvances (chatJid id : String) (receipt : ℕ) (receiptAt : ℤ) (m : MessageRow) :
    Bool :=
  m.id = id && m.chatJid = chatJid && m.fromMe &&
    (decide (m.receipt < receipt) ||
      (receipt = 2 && earlierTime m.deliveredAt receiptAt) ||
      (decide (3 ≤ receipt) && earlierTime m.receiptReadAt receiptAt))

def advanceReceipt (receipt : ℕ) (receiptAt : ℤ) (m : MessageRow) : MessageRow :=
  { m with
    receipt := max m.receipt receipt
    deliveredAt := if receipt = 2 && earlierTime m.deliveredAt receiptAt then some receiptAt
      else m.deliveredAt
    receiptReadAt := if decide (3 ≤ receipt) && earlierTime m.receiptReadAt receiptAt
      then some receiptAt else m.receiptReadAt }

/-- A per-reader time: 0 stands for none. -/
def earlierReaderTime (previous next : ℤ) : Bool :=
  decide (0 < next) && (decide (previous ≤ 0) || decide (next < previous))

/-- What a reader's row takes from a receipt. -/
def mergeReader (old new : MessageReadRow) : MessageReadRow :=
  { old with
    readAt := if earlierReaderTime old.readAt new.readAt then new.readAt else old.readAt
    deliveredAt := if earlierReaderTime old.deliveredAt new.deliveredAt then new.deliveredAt
      else old.deliveredAt }

/-- The per-reader row a receipt proposes: levels below 2 have none. -/
def readerReceipt (chatJid id reader : String) (receipt : ℕ) (receiptAt : ℤ) :
    Option MessageReadRow :=
  if receipt = 2 then some { chatJid, messageId := id, readerJid := reader, deliveredAt := receiptAt }
  else if 3 ≤ receipt then some { chatJid, messageId := id, readerJid := reader, readAt := receiptAt }
  else none

/-- One id of `update_receipts`. -/
def updateReceipt (s : Store) (chatJid id : String) (receipt : ℕ) (reader : Option String)
    (receiptAt : ℤ) : Store × Bool :=
  let messages := s.messages.updateWhere (receiptAdvances chatJid id receipt receiptAt)
    (advanceReceipt receipt receiptAt)
  let advanced := s.messages.rows.any (receiptAdvances chatJid id receipt receiptAt)
  let outgoing := s.messages.rows.any (fun m => m.chatJid = chatJid && m.id = id && m.fromMe)
  match (reader.filter (fun jid => jid ≠ "")).bind
      (fun jid => readerReceipt chatJid id jid receipt receiptAt) with
  | some row =>
    if outgoing then
      ({ s with messages, messageReads := s.messageReads.upsert row mergeReader },
        advanced || (s.messageReads.find? row.key).all (fun old => mergeReader old row != old))
    else ({ s with messages }, advanced)
  | none => ({ s with messages }, advanced)

/-- `update_receipts`. -/
def updateReceipts (s : Store) (chatJid : String) (messageIds : List String) (receipt : ℕ)
    (recipientJid : Option String) (receiptAt : ℤ) : Store × Bool :=
  messageIds.foldl (fun acc id =>
    let next := updateReceipt acc.1 chatJid id receipt recipientJid receiptAt
    (next.1, acc.2 || next.2)) (s, false)

/-! ## Reactions -/

/-- `apply_reaction`. -/
def applyReaction (s : Store) (chatJid messageId reactorJid emoji : String) (fromMe : Bool)
    (timestamp : ℤ) : Store × Bool :=
  let key := (chatJid, messageId, reactorJid)
  let tombstone := s.reactionTombstones.find? key
  if emoji = "" then
    let outdated := fun r : ReactionRow => r.key = key && decide (r.timestamp ≤ timestamp)
    ({ s with
        reactionTombstones := s.reactionTombstones.upsert
          ⟨chatJid, messageId, reactorJid, timestamp⟩
          (fun old new => { old with timestamp := max old.timestamp new.timestamp })
        reactions := s.reactions.deleteWhere outdated },
      tombstone.all (fun t => decide (t.timestamp < timestamp)) || s.reactions.rows.any outdated)
  else if tombstone.any (fun t => decide (timestamp ≤ t.timestamp)) then (s, false)
  else
    let merge := fun old new : ReactionRow =>
      { old with
          emoji := if old.timestamp ≤ new.timestamp then new.emoji else old.emoji
          fromMe := if old.timestamp ≤ new.timestamp then new.fromMe else old.fromMe
          timestamp := max old.timestamp new.timestamp }
    let reaction : ReactionRow := ⟨chatJid, messageId, reactorJid, emoji, fromMe, timestamp⟩
    ({ s with
        reactions := s.reactions.upsert reaction merge
        reactionTombstones := s.reactionTombstones.deleteWhere
          (fun t => t.key = key && decide (t.timestamp < timestamp)) },
      (s.reactions.find? key).all (fun old => merge old reaction != old))

/-! ## Deleting messages and chats -/

/-- The newest message of a chat, `ORDER BY timestamp DESC, rowid DESC LIMIT 1`. -/
def newestMessage (s : Store) (chatJid : String) : Option MessageRow :=
  latest (·.timestamp) (s.chatMessages chatJid)

/-- `delete_messages_through`. -/
def deleteMessagesThrough (s : Store) (chatJid : String) (timestamp : ℤ) : Store :=
  let doomed := fun id => (s.messagesById chatJid id).any (fun m => decide (m.timestamp ≤ timestamp))
  { s with
    pollVotes := s.pollVotes.deleteWhere (fun v => v.chatJid = chatJid && doomed v.messageId)
    pollSecrets := s.pollSecrets.deleteWhere (fun p => p.chatJid = chatJid && doomed p.messageId)
    messageReads := s.messageReads.deleteWhere (fun r => r.chatJid = chatJid && doomed r.messageId)
    reactions := s.reactions.deleteWhere (fun r => r.chatJid = chatJid && doomed r.messageId)
    messages := s.messages.deleteWhere
      (fun m => m.chatJid = chatJid && decide (m.timestamp ≤ timestamp)) }

/-- `refresh_chat_tail`. -/
def refreshChatTail (s : Store) (chatJid : String) : Store :=
  { s with
      chats := s.chats.updateWhere (fun c => c.jid = chatJid)
        (fun c => { c with
          lastMessage := (newestMessage s chatJid).elim "" (·.text)
          lastTimestamp := (newestMessage s chatJid).elim 0 (·.timestamp)
          unread := unreadMessageCount s chatJid }) }

/-- `delete_chat`. The chat row goes only when no message is left, so the cascade to
`messages` has nothing to delete. -/
def deleteChat (s : Store) (chatJid : String) (timestamp : ℤ) : Store :=
  if timestamp < (settingsOf s chatJid).clearedAt then s
  else
    let cleared := deleteMessagesThrough s chatJid timestamp
    let hasNewer := !(cleared.chatMessages chatJid).isEmpty
    let closed := if hasNewer then refreshChatTail cleared chatJid
      else { cleared with chats := cleared.chats.deleteWhere (fun c => c.jid = chatJid) }
    { closed with
        chatSettings := closed.chatSettings.upsert
          { jid := chatJid, deleted := true, clearedAt := timestamp }
          (fun old _ => { old with deleted := !hasNewer, clearedAt := max old.clearedAt timestamp }) }

/-- `clear_chat`. -/
def clearChat (s : Store) (chatJid : String) (timestamp : ℤ) : Store :=
  if timestamp < (settingsOf s chatJid).clearedAt then s
  else
    let cleared := refreshChatTail (deleteMessagesThrough s chatJid timestamp) chatJid
    { cleared with
        chatSettings := cleared.chatSettings.upsert
          { jid := chatJid, readState := some true, explicitUnread := false, clearedAt := timestamp }
          (fun old _ => { old with readState := some true, explicitUnread := false,
                                   clearedAt := max old.clearedAt timestamp }) }

/-- `delete_message`. -/
def deleteMessage (s : Store) (chatJid messageId : String) : Store :=
  let messages := s.messages.deleteWhere (fun m => m.chatJid = chatJid && m.id = messageId)
  -- the order of this query stops at the timestamp
  let tail := (newestFirst plan (messages.rows.filter (fun m => m.chatJid = chatJid))).head?
  { s with
    pollVotes := s.pollVotes.deleteWhere (fun v => v.chatJid = chatJid && v.messageId = messageId)
    pollSecrets := s.pollSecrets.deleteWhere
      (fun p => p.chatJid = chatJid && p.messageId = messageId)
    messageReads := s.messageReads.deleteWhere
      (fun r => r.chatJid = chatJid && r.messageId = messageId)
    messages
    reactions := s.reactions.deleteWhere (fun r => r.chatJid = chatJid && r.messageId = messageId)
    messageTombstones := s.messageTombstones.insertOrIgnore ⟨chatJid, messageId⟩
    chats := s.chats.updateWhere (fun c => c.jid = chatJid)
      (fun c => { c with
        lastMessage := tail.elim "" (·.text)
        lastTimestamp := tail.elim c.lastTimestamp (·.timestamp) }) }

end OmarchyWhatsapp
