import OmarchyWhatsapp.Database.Insert

/-!
# Read state

`apply_read_boundary` is the one place that advances the read boundary of a chat: it
remembers the ids of messages that are not stored yet, marks the covered messages read and
recounts the unread messages. Self-read receipts, synchronized read state and the local
`mark_read` all end in it.
-/

namespace OmarchyWhatsapp

open Relational

variable (plan : QueryPlan)

/-- The message counts as unread. -/
def MessageRow.unread (m : MessageRow) : Bool := !m.fromMe && !m.read

/-- `unread_message_count`. -/
def unreadMessageCount (s : Store) (chatJid : String) : ℕ :=
  s.messages.rows.countP (fun m => m.chatJid = chatJid && m.unread)

/-- `maximum_message_timestamp`. -/
def maximumMessageTimestamp (s : Store) (chatJid : String) : Option ℤ :=
  ((s.chatMessages chatJid).map (·.timestamp)).max?

/-- `message_timestamp`: the first row of that id. -/
def messageTimestamp (s : Store) (chatJid messageId : String) : Option ℤ :=
  (plan.scan (s.messagesById chatJid messageId)).head?.map (·.timestamp)

/-! ## The read boundary -/

/-- An empty settings row is made for a chat that has none. -/
def ensureSettings (s : Store) (chatJid : String) : Store :=
  { s with chatSettings := s.chatSettings.insertOrIgnore { jid := chatJid } }

/-- The settings of a chat, defaults where it has none. -/
def settingsOf (s : Store) (chatJid : String) : ChatSettingsRow :=
  (s.chatSettings.find? chatJid).getD { jid := chatJid }

/-- Ids already remembered, followed by the new ones. -/
def addBoundaryIds (covered ids : List String) : List String :=
  ids.foldl (fun covered id => if covered.contains id then covered else covered ++ [id]) covered

/-- A keyed boundary covers only the named messages of its second. -/
def candidateBoundary (boundaryTimestamp : ℤ) (boundaryIds : List String) : ℤ :=
  if boundaryIds.isEmpty then boundaryTimestamp else saturatingPred boundaryTimestamp

/-- An id has to be remembered while no stored message below the boundary carries it. -/
def idOutstanding (s : Store) (chatJid : String) (boundary : ℤ) (id : String) : Bool :=
  (messageTimestamp plan s chatJid id).all (fun timestamp => decide (boundary < timestamp))

/-- The ids kept after the boundary moved to `boundary`, the oldest dropped past the cap. -/
def retainedIds (s : Store) (chatJid : String) (boundary : ℤ) (covered : List String) :
    List String :=
  let extra := covered.filter (idOutstanding plan s chatJid boundary)
  extra.drop (extra.length - readBoundaryIdsCap)

/-- The messages that `apply_read_boundary` marks read. -/
def boundaryMarks (chatJid : String) (boundary : ℤ) (boundaryIds : List String)
    (m : MessageRow) : Bool :=
  m.chatJid = chatJid && m.unread &&
    (decide (m.timestamp ≤ boundary) || boundaryIds.contains m.id)

/-- `apply_read_boundary`, and whether anything changed. -/
def applyReadBoundary (s : Store) (chatJid : String) (boundaryTimestamp : ℤ)
    (boundaryIds : List String) : Store × Bool :=
  let old := settingsOf s chatJid
  let newBoundary := max old.readBoundary (candidateBoundary boundaryTimestamp boundaryIds)
  let ids := retainedIds plan s chatJid newBoundary (addBoundaryIds old.readBoundaryIds boundaryIds)
  let chatSettings := (ensureSettings s chatJid).chatSettings.updateWhere
    (fun c => c.jid = chatJid)
    (fun c => { c with readBoundary := newBoundary, readBoundaryIds := ids,
                       readState := some true, explicitUnread := false })
  let messages := s.messages.updateWhere (boundaryMarks chatJid newBoundary boundaryIds)
    (fun m => { m with read := true })
  let marked := s.messages.rows.any (boundaryMarks chatJid newBoundary boundaryIds)
  let unread := unreadMessageCount { s with messages } chatJid
  let chats := s.chats.updateWhere (fun c => c.jid = chatJid) (fun c => { c with unread })
  ({ s with chatSettings, messages, chats },
    marked || old.explicitUnread || newBoundary != old.readBoundary ||
      (s.chats.find? chatJid).any (fun c => c.unread != unread))

/-! ## The events that move it -/

/-- `mark_read`. -/
def markRead (s : Store) (chatJid : String) : Store :=
  (applyReadBoundary plan s chatJid ((maximumMessageTimestamp s chatJid).getD 0) []).1

/-- `apply_read_state`. -/
def applyReadState (s : Store) (chatJid : String) (read : Bool) : Store × Bool :=
  if read then applyReadBoundary plan s chatJid ((maximumMessageTimestamp s chatJid).getD 0) []
  else
    ({ s with
        chatSettings := s.chatSettings.upsert
          { jid := chatJid, readState := some false, explicitUnread := true }
          (fun old _ => { old with readState := some false, explicitUnread := true }) },
      !(settingsOf s chatJid).explicitUnread)

/-- The boundary of a mark-read action: its own, or the newest message it names. -/
def syncedBoundary (s : Store) (chatJid : String) (boundaryTimestamp : Option ℤ)
    (boundaryIds : List String) (eventTimestamp : ℤ) : ℤ :=
  match boundaryTimestamp with
  | some boundary => boundary
  | none =>
    if boundaryIds.isEmpty then (maximumMessageTimestamp s chatJid).getD eventTimestamp
    else ((boundaryIds.filterMap (messageTimestamp plan s chatJid)).max?).getD eventTimestamp

/-- The clock of the read-state events. -/
def stampReadState (s : Store) (chatJid : String) (eventTimestamp : ℤ) : Store :=
  { s with
      chatSettings := s.chatSettings.updateWhere (fun c => c.jid = chatJid)
        (fun c => { c with readStateUpdatedAt := eventTimestamp }) }

/-- `apply_synced_read_state`: an event older than the last one applied is ignored. -/
def applySyncedReadState (s : Store) (chatJid : String) (read : Bool)
    (boundaryTimestamp : Option ℤ) (boundaryIds : List String) (eventTimestamp : ℤ) :
    Store × Bool :=
  if eventTimestamp < (settingsOf s chatJid).readStateUpdatedAt then (s, false)
  else
    let applied := if read then
        applyReadBoundary plan s chatJid
          (syncedBoundary plan s chatJid boundaryTimestamp boundaryIds eventTimestamp) boundaryIds
      else applyReadState plan s chatJid false
    (stampReadState applied.1 chatJid eventTimestamp, applied.2)

/-- The boundary of a self-read receipt: the newest message it names that is stored. -/
def receiptBoundary (s : Store) (chatJid : String) (messageIds : List String)
    (receiptTimestamp : ℤ) : ℤ :=
  ((messageIds.filterMap (messageTimestamp plan s chatJid)).max?).getD receiptTimestamp

/-- `apply_self_read_receipt`. -/
def applySelfReadReceipt (s : Store) (chatJid : String) (messageIds : List String)
    (receiptTimestamp : ℤ) : Store × Bool :=
  if messageIds.isEmpty then (s, false)
  else applyReadBoundary plan s chatJid
    (receiptBoundary plan s chatJid messageIds receiptTimestamp) messageIds

/-- `reconcile_unread_after_full_sync`, once the app-state replay is complete. -/
def reconcileUnread (s : Store) : Store :=
  { s with
      chats := s.chats.updateWhere (fun _ => true)
        (fun c => { c with unread := unreadMessageCount s c.jid }) }

/-! ## The read outbox -/

structure PendingReadBatch where
  chatJid : String
  receipts : List UnreadReceipt
deriving DecidableEq, Repr

/-- `next_read_batch`: the oldest chat mark with its receipts in insertion order. -/
def nextReadBatch (s : Store) : Option PendingReadBatch :=
  (plan.orderBy (fun a b => decide (a.createdAt < b.createdAt) ||
      (decide (a.createdAt = b.createdAt) && decide (a.chatJid ≤ b.chatJid)))
    s.pendingReadChats.rows).head?.map fun mark =>
      { chatJid := mark.chatJid,
        receipts := (s.pendingReadMessages.rows.filter (fun r => r.chatJid = mark.chatJid)).map
          (fun r => ⟨r.messageId, r.senderJid, r.isGroup⟩) }

/-- `finish_read_batch`. -/
def finishReadBatch (s : Store) (batch : PendingReadBatch) : Store × Bool :=
  let pendingReadMessages := s.pendingReadMessages.deleteWhere
    (fun r => r.chatJid = batch.chatJid &&
      batch.receipts.any (fun b => b.messageId = r.messageId && b.senderJid = r.senderJid))
  let finished := fun c : PendingReadChatRow => c.chatJid = batch.chatJid &&
    !pendingReadMessages.rows.any (fun r => r.chatJid = batch.chatJid)
  ({ s with pendingReadMessages, pendingReadChats := s.pendingReadChats.deleteWhere finished },
    s.pendingReadChats.rows.any finished)

end OmarchyWhatsapp
