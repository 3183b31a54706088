import OmarchyWhatsapp.Database.Events

/-!
# Migration of a contact identity

`migrate_contact_jid` folds everything stored under an alias into the canonical identity:
the contact, the rows that name it as a sender, a reader, a reactor or a voter, and the
chat with its messages and settings. The statements of the transaction are definitions of
their own, in the order in which they run.
-/

namespace OmarchyWhatsapp

open Relational

variable (plan : QueryPlan)

/-- `migration_source_exists`. -/
def migrationSourceExists (s : Store) (oldJid : String) : Bool :=
  s.chats.rows.any (fun c => c.jid = oldJid) ||
    s.contacts.rows.any (fun c => c.jid = oldJid) ||
    s.chatSettings.rows.any (fun c => c.jid = oldJid) ||
    s.messages.rows.any (fun m => m.senderJid = oldJid) ||
    s.reactions.rows.any (fun r => r.reactorJid = oldJid) ||
    s.pollVotes.rows.any (fun v => v.voterJid = oldJid)

/-! ## The sender -/

def mergeContact (old new : ContactRow) : ContactRow :=
  { old with
    name := if old.source ≤ new.source then new.name else old.name
    source := max old.source new.source }

def migrateContact (s : Store) (oldJid newJid : String) : Store :=
  { s with
    contacts := s.contacts.insertSelect
      ((plan.scan (s.contacts.rows.filter (fun c => c.jid = oldJid))).map
        (fun c => { c with jid := newJid }))
      mergeContact }

def MessageRow.withSender (senderJid : String) (m : MessageRow) : MessageRow :=
  { m with senderJid }

def MessageRow.withChat (chatJid : String) (m : MessageRow) : MessageRow := { m with chatJid }

/-- Two rows of one message that differ in the identity of its sender. -/
def mergeSenderCopies (old new : MessageRow) : MessageRow :=
  { old with
    senderName := if old.senderName = "" ∨ old.senderName = old.senderJid then new.senderName
      else old.senderName
    text := if old.text = "" then new.text else old.text
    timestamp := max old.timestamp new.timestamp
    fromMe := old.fromMe || new.fromMe
    read := old.read || new.read
    receipt := max old.receipt new.receipt
    deliveredAt := old.deliveredAt.or new.deliveredAt
    receiptReadAt := old.receiptReadAt.or new.receiptReadAt
    quote := old.quote.or new.quote
    media := old.media.or new.media
    mediaDownload := old.mediaDownload.or new.mediaDownload }

def migrateSender (s : Store) (oldJid newJid : String) : Store :=
  { s with
    messages := s.messages.relocate plan.scan (fun m => m.senderJid = oldJid)
      (MessageRow.withSender newJid) mergeSenderCopies }

def migrateParticipants (s : Store) (oldJid newJid : String) : Store :=
  { s with
    messageReads := (s.messageReads.updateOrIgnore (fun r => r.readerJid = oldJid)
      (fun r => { r with readerJid := newJid })).deleteWhere (fun r => r.readerJid = oldJid)
    reactions := (s.reactions.updateOrIgnore (fun r => r.reactorJid = oldJid)
      (fun r => { r with reactorJid := newJid })).deleteWhere (fun r => r.reactorJid = oldJid)
    pollVotes := (s.pollVotes.updateOrIgnore (fun v => v.voterJid = oldJid)
      (fun v => { v with voterJid := newJid })).deleteWhere (fun v => v.voterJid = oldJid) }

/-! ## The chat -/

def mergeChats (old new : ChatRow) : ChatRow :=
  { old with
    name := if old.nameSource < new.nameSource then new.name else old.name
    nameSource := max old.nameSource new.nameSource
    phoneNumber := old.phoneNumber.or new.phoneNumber
    lastMessage := if old.lastTimestamp ≤ new.lastTimestamp then new.lastMessage
      else old.lastMessage
    lastTimestamp := max old.lastTimestamp new.lastTimestamp
    unread := max old.unread new.unread
    isGroup := old.isGroup || new.isGroup }

def migrateChat (s : Store) (oldJid newJid : String) : Store :=
  { s with
    chats := s.chats.insertSelect
      ((plan.scan (s.chats.rows.filter (fun c => c.jid = oldJid))).map
        (fun c => { c with jid := newJid }))
      mergeChats }

/-- Two rows of one message that differ in the identity of its chat. -/
def mergeChatCopies (old new : MessageRow) : MessageRow :=
  { old with
    read := old.read || new.read
    receipt := max old.receipt new.receipt
    deliveredAt := old.deliveredAt.or new.deliveredAt
    receiptReadAt := old.receiptReadAt.or new.receiptReadAt
    quote := old.quote.or new.quote
    media := old.media.or new.media
    mediaDownload := old.mediaDownload.or new.mediaDownload }

def migrateMessages (s : Store) (oldJid newJid : String) : Store :=
  { s with
    messages := s.messages.relocate plan.scan (fun m => m.chatJid = oldJid)
      (MessageRow.withChat newJid) mergeChatCopies }

def migrateMessageReads (s : Store) (oldJid newJid : String) : Store :=
  { s with
    -- `delivered_at` is not among the columns of this statement
    messageReads := s.messageReads.relocate plan.scan (fun r => r.chatJid = oldJid)
      (fun r => { r with chatJid := newJid, deliveredAt := 0 })
      (fun old new => { old with readAt := max old.readAt new.readAt }) }

/-! ## What refers to the messages of the chat -/

def mergePollVotes (old new : PollVoteRow) : PollVoteRow :=
  if old.timestamp ≤ new.timestamp then
    { old with selectedOptions := new.selectedOptions, fromMe := new.fromMe,
               timestamp := new.timestamp }
  else old

theorem key_mergePollVotes (old new : PollVoteRow) : (mergePollVotes old new).key = old.key := by
  unfold mergePollVotes
  split <;> rfl

/-- A row already stored wins over the migrated one: `INSERT OR IGNORE`. -/
def keepStored {α : Type} (old _new : α) : α := old

def migrateAttachments (s : Store) (oldJid newJid : String) : Store :=
  { s with
    reactions := s.reactions.relocate plan.scan (fun r => r.chatJid = oldJid)
      (fun r => { r with chatJid := newJid }) keepStored
    pollSecrets := s.pollSecrets.relocate plan.scan (fun p => p.chatJid = oldJid)
      (fun p => { p with chatJid := newJid })
      (fun old new =>
        { old with creatorJid := new.creatorJid, messageSecret := new.messageSecret })
      key_mergePollSecret
    pollVotes := s.pollVotes.relocate plan.scan (fun v => v.chatJid = oldJid)
      (fun v => { v with chatJid := newJid }) mergePollVotes key_mergePollVotes }

def migrateTombstones (s : Store) (oldJid newJid : String) : Store :=
  { s with
    messageTombstones := s.messageTombstones.relocate plan.scan (fun t => t.chatJid = oldJid)
      (fun t => { t with chatJid := newJid }) keepStored }

/-! ## The settings -/

/-- The columns of `chat_settings` that the migration copies: the update times stay. -/
def migratedSettings (newJid : String) (c : ChatSettingsRow) : ChatSettingsRow :=
  { jid := newJid, pinned := c.pinned, archived := c.archived, muted := c.muted,
    muteEnd := c.muteEnd, readState := c.readState, explicitUnread := c.explicitUnread,
    deleted := c.deleted, clearedAt := c.clearedAt, readBoundary := c.readBoundary,
    readBoundaryIds := c.readBoundaryIds }

def mergeSettings (old new : ChatSettingsRow) : ChatSettingsRow :=
  { old with
    pinned := new.pinned.or old.pinned
    archived := new.archived.or old.archived
    muted := new.muted.or old.muted
    muteEnd := new.muteEnd.or old.muteEnd
    readState := new.readState.or old.readState
    explicitUnread := old.explicitUnread || new.explicitUnread
    deleted := old.deleted || new.deleted
    clearedAt := max old.clearedAt new.clearedAt
    readBoundaryIds := if old.readBoundary < new.readBoundary then new.readBoundaryIds
      else old.readBoundaryIds
    readBoundary := max old.readBoundary new.readBoundary }

def migrateSettings (s : Store) (oldJid newJid : String) : Store :=
  { s with
    chatSettings := s.chatSettings.relocate plan.scan (fun c => c.jid = oldJid)
      (migratedSettings newJid) mergeSettings }

/-! ## The names -/

/-- The merged contact names its direct chat and the messages it sent. -/
def applyMigratedName (s : Store) (newJid : String) : Store :=
  match s.contacts.find? newJid with
  | none => s
  | some contact =>
    { s with
      chats := s.chats.updateWhere (fun c => c.jid = newJid && !c.isGroup)
        (fun c => { c with
          name := contact.name
          nameSource := if contact.source = 1 then chatNameAddressBook else chatNameMessage })
      messages := s.messages.updateWhere (fun m => m.senderJid = newJid)
        (fun m => { m with senderName := contact.name }) }

def dropAlias (s : Store) (oldJid : String) : Store :=
  { s with
    chats := s.chats.deleteWhere (fun c => c.jid = oldJid)
    contacts := s.contacts.deleteWhere (fun c => c.jid = oldJid) }

/-! ## The transaction -/

/-- The messages and chats after the rows of the two identities are merged. -/
def migrateConversation (s : Store) (oldJid newJid : String) : Store :=
  let s := migrateContact plan s oldJid newJid
  let s := migrateSender plan s oldJid newJid
  let s := migrateParticipants s oldJid newJid
  let s := migrateChat plan s oldJid newJid
  let s := migrateMessages plan s oldJid newJid
  let s := migrateMessageReads plan s oldJid newJid
  keepNewest plan s newJid

/-- `migrate_contact_jid`, and whether there was anything to migrate. -/
def migrateContactJid (s : Store) (oldJid newJid : String) : Store × Bool :=
  if oldJid = newJid then (s, false)
  else if !migrationSourceExists s oldJid then (s, false)
  else
    let s := migrateConversation plan s oldJid newJid
    let s := migrateAttachments plan s oldJid newJid
    let s := migrateTombstones plan s oldJid newJid
    let s := migrateSettings plan s oldJid newJid
    (dropAlias (applyMigratedName s newJid) oldJid, true)

end OmarchyWhatsapp
