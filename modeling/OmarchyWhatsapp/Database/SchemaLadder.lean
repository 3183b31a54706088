import OmarchyWhatsapp.Database.Insert
import OmarchyWhatsapp.Relational.Resume
import OmarchyWhatsapp.Relational.Sql

/-!
# Opening the history database

`Database::open` creates what is missing of the schema, makes interrupted deliveries pending
again, climbs the ladder of migrations from the recorded version and repairs the cached poll
tallies. The statements of the bootstrap commit one by one; a migration commits together with its
version number, and the repair as a whole.

The database is any database: its tables may be those of an early build. `store.json` is what the
file of that name beside it holds, if it can be read.
-/

namespace OmarchyWhatsapp

open Relational

/-- The documents in the JSON columns. -/
inductive Document where
  | media (m : MessageMedia)
  | names (l : List String)
deriving DecidableEq, Repr

abbrev HistoryValue := SqlValue Document
abbrev HistoryRow := SqlRow Document
abbrev HistoryDb := SqlDatabase Document

namespace SchemaLadder

/-! ## The schema -/

/-- `name … NOT NULL`. -/
def required (name : String) : SqlColumn Document := { name, notNull := true }

/-- `name … NOT NULL DEFAULT 0`. -/
def counter (name : String) : SqlColumn Document :=
  { name, notNull := true, default := .integer 0 }

/-- `name …`, which may be `NULL`. -/
def nullable (name : String) : SqlColumn Document := { name }

def chatsTable : SqlTable Document :=
  { columns := [nullable "jid", required "name", counter "name_source", nullable "phone_number",
      { name := "last_message", notNull := true, default := .text "" }, counter "last_timestamp",
      counter "unread", counter "is_group"]
    primaryKey := ["jid"] }

def messagesTable : SqlTable Document :=
  { columns := [required "chat_jid", required "id", required "sender_jid", required "sender_name",
      required "text", required "timestamp", required "from_me", counter "read",
      counter "receipt", nullable "delivered_at", nullable "receipt_read_at",
      nullable "media_json", nullable "media_download"]
    primaryKey := ["chat_jid", "sender_jid", "id"]
    reference := some ⟨"chat_jid", "chats", "jid"⟩ }

def messageReadsTable : SqlTable Document :=
  { columns := [required "chat_jid", required "message_id", required "reader_jid",
      counter "read_at", counter "delivered_at"]
    primaryKey := ["chat_jid", "message_id", "reader_jid"] }

def contactsTable : SqlTable Document :=
  { columns := [nullable "jid", required "name", counter "source"]
    primaryKey := ["jid"] }

def chatSettingsTable : SqlTable Document :=
  { columns := [nullable "jid", nullable "pinned", counter "pinned_updated_at",
      nullable "archived", counter "archived_updated_at", nullable "muted", nullable "mute_end",
      counter "mute_updated_at", nullable "read_state", counter "read_state_updated_at",
      counter "explicit_unread", counter "deleted", counter "cleared_at",
      counter "read_boundary", nullable "read_boundary_ids"]
    primaryKey := ["jid"] }

def messageTombstonesTable : SqlTable Document :=
  { columns := [required "chat_jid", required "id"]
    primaryKey := ["chat_jid", "id"] }

def reactionsTable : SqlTable Document :=
  { columns := [required "chat_jid", required "message_id", required "reactor_jid",
      required "emoji", counter "from_me", counter "timestamp"]
    primaryKey := ["chat_jid", "message_id", "reactor_jid"] }

def reactionTombstonesTable : SqlTable Document :=
  { columns := [required "chat_jid", required "message_id", required "reactor_jid",
      required "timestamp"]
    primaryKey := ["chat_jid", "message_id", "reactor_jid"] }

def pollSecretsTable : SqlTable Document :=
  { columns := [required "chat_jid", required "message_id", required "creator_jid",
      required "message_secret"]
    primaryKey := ["chat_jid", "message_id"] }

def pollVotesTable : SqlTable Document :=
  { columns := [required "chat_jid", required "message_id", required "voter_jid",
      required "selected_options", counter "from_me", counter "timestamp"]
    primaryKey := ["chat_jid", "message_id", "voter_jid"] }

def inboundInboxTable : SqlTable Document :=
  { columns := [required "chat_jid", required "sender_jid", required "message_id",
      required "message", required "push_name", required "timestamp", required "media_type",
      required "is_from_me", required "is_group", required "is_offline",
      required "committed_at"]
    primaryKey := ["chat_jid", "sender_jid", "message_id"] }

def textOutboxTable : SqlTable Document :=
  { columns := [nullable "delivery_id", required "chat_jid", required "text",
      required "message_id", counter "status", nullable "error", required "created_at"]
    primaryKey := ["delivery_id"] }

def pendingReadChatsTable : SqlTable Document :=
  { columns := [nullable "chat_jid", required "created_at"]
    primaryKey := ["chat_jid"] }

def pendingReadMessagesTable : SqlTable Document :=
  { columns := [required "chat_jid", required "message_id", required "sender_jid",
      required "is_group"]
    primaryKey := ["chat_jid", "sender_jid", "message_id"] }

/-- `CREATE TABLE IF NOT EXISTS` or `CREATE INDEX IF NOT EXISTS`. -/
inductive Creation where
  | table (name : String) (t : SqlTable Document)
  | index (name : String) (i : SqlIndex)

/-- The batch that `open` executes, one statement after the other. -/
def bootstrap : List Creation :=
  [.table "chats" chatsTable,
    .table "messages" messagesTable,
    .index "messages_by_chat_time" ⟨"messages", ["chat_jid", "timestamp"]⟩,
    .index "messages_by_sender" ⟨"messages", ["sender_jid"]⟩,
    .table "message_reads" messageReadsTable,
    .index "message_reads_by_reader" ⟨"message_reads", ["reader_jid"]⟩,
    .table "contacts" contactsTable,
    .table "chat_settings" chatSettingsTable,
    .table "message_tombstones" messageTombstonesTable,
    .table "reactions" reactionsTable,
    .index "reactions_by_chat_message" ⟨"reactions", ["chat_jid", "message_id"]⟩,
    .index "reactions_by_reactor" ⟨"reactions", ["reactor_jid"]⟩,
    .table "reaction_tombstones" reactionTombstonesTable,
    .table "poll_secrets" pollSecretsTable,
    .table "poll_votes" pollVotesTable,
    .index "poll_votes_by_message" ⟨"poll_votes", ["chat_jid", "message_id"]⟩,
    .table "inbound_inbox" inboundInboxTable,
    .index "inbound_inbox_order" ⟨"inbound_inbox", ["committed_at"]⟩,
    .table "text_outbox" textOutboxTable,
    .index "text_outbox_delivery_order" ⟨"text_outbox", ["status", "created_at"]⟩,
    .table "pending_read_chats" pendingReadChatsTable,
    .table "pending_read_messages" pendingReadMessagesTable]

def Creation.run : Creation → HistoryDb → Except String HistoryDb
  | .table name t, db => db.createTableIfAbsent name t
  | .index name i, db => db.createIndexIfAbsent name i

/-! ## The migrations -/

/-- `ensure_column`. -/
def ensureColumn (name : String) (column : SqlColumn Document) (db : HistoryDb) :
    Except String HistoryDb :=
  if (db.tables name).any (·.hasColumn column.name) then .ok db
  else db.alter name (fun t => .ok (t.addColumn column))

def ensureColumns (columns : List (String × SqlColumn Document)) (db : HistoryDb) :
    Except String HistoryDb :=
  columns.foldlM (fun db c => ensureColumn c.1 c.2 db) db

/-- `migrate_receipt_columns`. -/
def migrateReceiptColumns : HistoryDb → Except String HistoryDb :=
  ensureColumns
    [("messages", counter "read"), ("contacts", counter "source"),
      ("messages", counter "receipt"), ("messages", nullable "delivered_at"),
      ("messages", nullable "receipt_read_at"), ("message_reads", counter "delivered_at")]

/-- The earlier of two receipt times; a time of 0 is none. -/
def earlierReceipt (old new : HistoryValue) : HistoryValue :=
  if SqlValue.lt (.integer 0) new && (old.le (.integer 0) || new.lt old) then new else old

/-- The outgoing messages of direct chats that have a receipt, joined with their chats. -/
def directReceipts (messages chats : List HistoryRow) : List HistoryRow :=
  messages.flatMap fun m =>
    (chats.filter (fun c =>
      (c "jid").eq (m "chat_jid") && (m "from_me").eq (.integer 1) &&
        (c "is_group").eq (.integer 0) &&
        (SqlValue.lt (.integer 0) ((m "delivered_at").coalesce (.integer 0)) ||
          SqlValue.lt (.integer 0) ((m "receipt_read_at").coalesce (.integer 0))))).map fun _ => m

variable (plan : QueryPlan) (foreignKeys : Bool)

/-- `migrate_direct_receipts`. -/
def migrateDirectReceipts (db : HistoryDb) : Except String HistoryDb := do
  let messages ← db.select "messages"
    ["chat_jid", "id", "receipt_read_at", "delivered_at", "from_me"]
  let chats ← db.select "chats" ["jid", "is_group"]
  db.insertRows foreignKeys "message_reads"
    (some
      { columns := ["chat_jid", "message_id", "reader_jid"]
        merge := fun old new =>
          (old.set "read_at" (earlierReceipt (old "read_at") (new "read_at"))).set
            "delivered_at" (earlierReceipt (old "delivered_at") (new "delivered_at")) })
    ["chat_jid", "message_id", "reader_jid", "read_at", "delivered_at"]
    ((plan.scan (directReceipts messages chats)).map fun m =>
      [("chat_jid", m "chat_jid"), ("message_id", m "id"), ("reader_jid", m "chat_jid"),
        ("read_at", (m "receipt_read_at").coalesce (.integer 0)),
        ("delivered_at", (m "delivered_at").coalesce (.integer 0))])

/-- `migrate_message_media_columns`. -/
def migrateMessageMediaColumns : HistoryDb → Except String HistoryDb :=
  ensureColumns [("messages", nullable "media_json"), ("messages", nullable "media_download")]

/-- The columns that `ensure_message_identity_schema` copies. -/
def identityColumns : List String :=
  ["chat_jid", "id", "sender_jid", "sender_name", "text", "timestamp", "from_me", "read",
    "receipt", "delivered_at", "receipt_read_at", "media_json", "media_download"]

/-- The messages again, under a key that names their senders. -/
def rebuildMessages (db : HistoryDb) : Except String HistoryDb := do
  let db := (db.dropIndex "messages_by_chat_time").dropIndex "messages_by_sender"
  let db ← db.renameTable "messages" "messages_legacy_identity"
  let db ← db.createTable "messages" messagesTable
  let legacy ← db.select "messages_legacy_identity" identityColumns
  let db ← db.insertRows foreignKeys "messages" none identityColumns
    ((plan.scan legacy).map fun m => identityColumns.map fun column => (column, m column))
  let db ← db.dropTable "messages_legacy_identity"
  let db ← db.createIndex "messages_by_chat_time" ⟨"messages", ["chat_jid", "timestamp"]⟩
  db.createIndex "messages_by_sender" ⟨"messages", ["sender_jid"]⟩

/-- `ensure_message_identity_schema`. -/
def ensureMessageIdentitySchema (db : HistoryDb) : Except String HistoryDb :=
  let primaryKey := ((db.tables "messages").map (·.primaryKey)).getD []
  if primaryKey = ["chat_jid", "sender_jid", "id"] then .ok db
  else if primaryKey = ["chat_jid", "id"] then rebuildMessages plan foreignKeys db
  else .error ("unsupported messages primary key: " ++ ", ".intercalate primaryKey)

/-- `migrate_chat_state_columns`. -/
def migrateChatStateColumns : HistoryDb → Except String HistoryDb :=
  ensureColumns
    [("chats", nullable "phone_number"), ("chats", counter "name_source"),
      ("chat_settings", counter "deleted"), ("chat_settings", counter "cleared_at"),
      ("chat_settings", counter "read_boundary"),
      ("chat_settings", nullable "read_boundary_ids"),
      ("chat_settings", counter "explicit_unread"),
      ("chat_settings", counter "pinned_updated_at"),
      ("chat_settings", counter "archived_updated_at"),
      ("chat_settings", counter "mute_updated_at"),
      ("chat_settings", counter "read_state_updated_at")]

/-- A chat in `store.json`: its `jid` and its `name`, where these are strings. -/
structure StoredChat where
  jid : Option String
  name : Option String

/-- The name that a chat in `store.json` has, if it is one. -/
def StoredChat.legacyName (chat : StoredChat) : Option (String × String) := do
  let jid ← chat.jid
  let name ← (chat.name.map trim).filter fun name => name ≠ "" && name ≠ "Group" && name ≠ jid
  return (jid, name)

variable (storeJson : Option (List StoredChat))

/-- `restore_legacy_chat_names`. -/
def restoreLegacyChatNames (db : HistoryDb) : Except String HistoryDb :=
  match storeJson with
  | none => .ok db
  | some chats =>
    (chats.filterMap StoredChat.legacyName).foldlM
      (fun db chat => db.alter "chats" (·.update ["name", "name_source", "jid"]
        (fun c => (c "jid").eq (.text chat.1) && (c "name_source").eq (.integer chatNameUnknown))
        (fun c => (c.set "name" (.text chat.2)).set "name_source" (.integer chatNameHistory))))
      db

/-- A subquery for one value: `NULL` when there is no row. -/
def scalar (r : Option HistoryRow) (column : String) : HistoryValue :=
  match r with
  | none => .null
  | some r => r column

/-- The contact that `UPDATE chats … FROM contacts` joins a chat with. -/
def joinedContact (contacts : List HistoryRow) (c : HistoryRow) : Option HistoryRow :=
  (plan.scan contacts).find? fun k =>
    (c "jid").eq (k "jid") && (c "is_group").eq (.integer 0) &&
      ((c "name_source").eq (.integer chatNameUnknown) || (c "name").eq (k "name"))

/-- The name of a chat after that update. -/
def takeContactName (contacts : List HistoryRow) (c : HistoryRow) : HistoryRow :=
  match joinedContact plan contacts c with
  | none => c
  | some k =>
    let source := if (k "source").eq (.integer 1) then chatNameAddressBook else chatNameMessage
    (c.set "name" (k "name")).set "name_source" (.integer source)

/-- The address-book rows of a sender. -/
def addressBookRows (contacts : List HistoryRow) (m : HistoryRow) : List HistoryRow :=
  contacts.filter fun k => (k "jid").eq (m "sender_jid") && (k "source").eq (.integer 1)

/-- `migrate_chat_names`. -/
def migrateChatNames (db : HistoryDb) : Except String HistoryDb := do
  let db ← db.alter "chats" (·.update ["name", "name_source", "jid"]
    (fun c => (c "name").isBlank || (c "name").eq (c "jid"))
    (fun c => (c.set "name" (.text "")).set "name_source" (.integer chatNameUnknown)))
  let db ← db.alter "chats" (·.update ["name", "name_source"]
    (fun c => (c "name_source").eq (.integer chatNameUnknown) && (c "name").ne (.text ""))
    (fun c => c.set "name_source" (.integer chatNameHistory)))
  let contacts ← db.select "contacts" ["jid", "name", "source"]
  let db ← db.alter "chats" (·.update ["name", "name_source", "jid", "is_group"]
    (fun c => (joinedContact plan contacts c).isSome) (takeContactName plan contacts))
  let db ← db.alter "messages" (·.update ["sender_name", "sender_jid"]
    (fun m => (addressBookRows contacts m).any (fun k => (k "name").ne (m "sender_name")))
    (fun m => m.set "sender_name" (scalar (plan.scan (addressBookRows contacts m)).head? "name")))
  restoreLegacyChatNames storeJson db

/-- The newest message of a chat. -/
def newestMessage (messages : List HistoryRow) (c : HistoryRow) : Option HistoryRow :=
  (plan.orderBy (fun a b => SqlValue.sortLe (b "timestamp") (a "timestamp"))
    (messages.filter fun m => (m "chat_jid").eq (c "jid"))).head?

/-- `migrate_control_bubbles`. -/
def migrateControlBubbles (db : HistoryDb) : Except String HistoryDb := do
  let db ← db.alter "messages" (·.delete ["text", "media_json"]
    fun m => (m "text").eq (.text "[Unsupported message]") && m "media_json" == .null)
  let messages ← db.select "messages" ["chat_jid", "text", "timestamp"]
  db.alter "chats" (·.update ["last_message", "last_timestamp", "jid"]
    (fun c => (c "last_message").eq (.text "[Unsupported message]"))
    fun c =>
      let newest := newestMessage plan messages c
      (c.set "last_message" ((scalar newest "text").coalesce (.text ""))).set
        "last_timestamp" ((scalar newest "timestamp").coalesce (.integer 0)))

/-- `mentions TEXT NOT NULL DEFAULT '[]'`. -/
def mentionsColumn : SqlColumn Document :=
  { name := "mentions", notNull := true, default := .json (.names []) }

/-- The steps of `migrate`, each with the version that it ends on. -/
def migrations : List (ℤ × (HistoryDb → Except String HistoryDb)) :=
  [(1, migrateReceiptColumns),
    (2, migrateDirectReceipts plan foreignKeys),
    (3, migrateMessageMediaColumns),
    (4, ensureMessageIdentitySchema plan foreignKeys),
    (5, migrateChatStateColumns),
    (6, migrateChatNames plan storeJson),
    (7, migrateControlBubbles plan),
    (8, ensureColumn "text_outbox" mentionsColumn),
    (9, ensureColumns
      [("messages", nullable "quote_json"), ("text_outbox", nullable "quote_json")])]

/-- The last step of the ladder. -/
def schemaVersion : ℤ := 9

/-- `run_migration`: the step and its version in one transaction. The `version` that `migrate`
carries along is the one that the database records. -/
def runMigration (target : ℤ) (apply : HistoryDb → Except String HistoryDb) (db : HistoryDb) :
    Except String HistoryDb :=
  if target ≤ db.userVersion then .ok db
  else do
    let db ← apply db
    return { db with userVersion := target }

/-- The steps as `migrate` runs them. -/
def ladder : List (HistoryDb → Except String HistoryDb) :=
  (migrations plan foreignKeys storeJson).map fun step => runMigration step.1 step.2

/-- `migrate`. -/
def migrate (db : HistoryDb) : HistoryDb × Option String :=
  if schemaVersion ≤ db.userVersion then (db, none)
  else performAll (ladder plan foreignKeys storeJson) db

/-! ## Opening -/

/-- `UPDATE text_outbox SET status = 0, error = NULL WHERE status = 1`. -/
def requeueInterrupted (db : HistoryDb) : Except String HistoryDb :=
  db.alter "text_outbox" (·.update ["status", "error"] (fun r => (r "status").eq (.integer 1))
    (fun r => (r.set "status" (.integer 0)).set "error" .null))

/-! ### The repair of the poll tallies -/

/-- The value as `row.get::<_, String>` reads it: the document, if it is one. -/
def getDocument : HistoryValue → Except String (Option Document)
  | .json d => .ok (some d)
  | .text _ => .ok none
  | _ => .error "Invalid column type"

def getText : HistoryValue → Except String String
  | .text s => .ok s
  | _ => .error "Invalid column type"

def getBool : HistoryValue → Except String Bool
  | .integer n => .ok (n != 0)
  | _ => .error "Invalid column type"

/-- `serde_json::from_str(&json).unwrap_or_default()`. -/
def selections : Option Document → List String
  | some (.names l) => l
  | _ => []

/-- A vote as `reconcile_poll_tallies` reads it. -/
def readVote (chatJid messageId : String) (r : HistoryRow) : Except String PollVoteRow := do
  let voterJid ← getText (r "voter_jid")
  let selected ← getDocument (r "selected_options")
  let fromMe ← getBool (r "from_me")
  return { chatJid, messageId, voterJid, selectedOptions := selections selected, fromMe }

/-- The votes on a poll, `ORDER BY timestamp DESC, voter_jid`. -/
def readVotes (votes : List HistoryRow) (chatJid messageId : String) :
    Except String (List PollVoteRow) :=
  (plan.orderBy
    (fun a b => (b "timestamp").sortLe (a "timestamp") &&
      (!(a "timestamp").sortLe (b "timestamp") || (a "voter_jid").sortLe (b "voter_jid")))
    (votes.filter fun v =>
      (v "chat_jid").eq (.text chatJid) && (v "message_id").eq (.text messageId))).mapM
    (readVote chatJid messageId)

/-- `reconcile_poll_tallies` on the media of a message: the card, if it changes. -/
def reconciledCard (db : HistoryDb) (chatJid messageId : String) (media : MessageMedia) :
    Except String (Option MessageMedia) :=
  match media with
  | .poll .. => do
    let rows ← db.select "poll_votes"
      ["voter_jid", "selected_options", "from_me", "chat_jid", "message_id", "timestamp"]
    let votes ← readVotes plan rows chatJid messageId
    let tallied := updatePollTallies media votes
    return if tallied.2 then some tallied.1 else none
  | _ => .ok none

/-- A message with votes, as the repair reads it: its media, if they can be decoded. -/
structure VotedMessage where
  chatJid : String
  messageId : String
  media : Option Document

def readVotedMessage (m : HistoryRow) : Except String VotedMessage := do
  let chatJid ← getText (m "chat_jid")
  let messageId ← getText (m "id")
  let media ← getDocument (m "media_json")
  return { chatJid, messageId, media }

/-- The messages that have media and votes. -/
def votedRows (messages votes : List HistoryRow) : List HistoryRow :=
  messages.filter fun m => m "media_json" != .null &&
    votes.any (fun v => (v "chat_jid").eq (m "chat_jid") && (v "message_id").eq (m "id"))

/-- The rows of a message that has the id in the chat. -/
def sharesId (target : VotedMessage) (m : HistoryRow) : Bool :=
  (m "chat_jid").eq (.text target.chatJid) && (m "id").eq (.text target.messageId)

/-- The card of one message, in every row that shares its id. -/
def reconcileTarget (db : HistoryDb) (target : VotedMessage) : Except String HistoryDb :=
  match target.media with
  | some (.media media) => do
    match ← reconciledCard plan db target.chatJid target.messageId media with
    | none => return db
    | some card => db.alter "messages" (·.update ["media_json", "chat_jid", "id"]
        (sharesId target) (fun m => m.set "media_json" (.json (.media card))))
  | _ => .ok db

/-- `reconcile_all_poll_tallies`. -/
def reconcileAllPollTallies (db : HistoryDb) : Except String HistoryDb := do
  let messages ← db.select "messages" ["chat_jid", "id", "media_json"]
  let votes ← db.select "poll_votes" ["chat_jid", "message_id"]
  let targets ← (plan.scan (votedRows messages votes)).mapM readVotedMessage
  targets.foldlM (reconcileTarget plan) db

/-! ### The whole of `open` -/

/-- `Database::open`: the database it leaves, and the error it ends on. -/
def openDatabase (db : HistoryDb) : HistoryDb × Option String :=
  match performAll (bootstrap.map Creation.run ++ [requeueInterrupted]) db with
  | (db, some e) => (db, some e)
  | (db, none) => match migrate plan foreignKeys storeJson db with
    | (db, some e) => (db, some e)
    | (db, none) => performAll [reconcileAllPollTallies plan] db

/-- What `open` commits, one action after the other. -/
def openActions : List (HistoryDb → Except String HistoryDb) :=
  bootstrap.map Creation.run ++ [requeueInterrupted] ++ ladder plan foreignKeys storeJson ++
    [reconcileAllPollTallies plan]

end SchemaLadder

end OmarchyWhatsapp
