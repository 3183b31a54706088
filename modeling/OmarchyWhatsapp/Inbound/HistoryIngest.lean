import OmarchyWhatsapp.Inbound.Reactions

/-!
# History syncs

`ingest_history` walks a history sync once and writes chats, messages, reactions, polls and push
names; `history_lid_jids` has walked it before to find the identities that are resolved first. The
client library parses JIDs and hashes poll options, which are parameters. A payload whose reading
ends early is one without the rest.
-/

namespace OmarchyWhatsapp

open Relational

/-- What is used of a parsed JID: `to_non_ad_string`, and whether it is a LID. -/
structure ParsedJid where
  nonAd : String
  isLid : Bool
deriving DecidableEq, Repr

/-- The key of a message, with its chat. -/
structure AddressedKey extends MessageKey where
  remoteJid : Option String := none

structure PollUpdate where
  key : Option AddressedKey
  /-- The hashes of the options that were selected. -/
  vote : Option (List (List UInt8))
  senderTimestampMs : Option ℤ := none
  serverTimestampMs : Option ℤ := none

/-- A message of a conversation with all that is read of it. -/
structure HistoryRecord extends HistoryEntry where
  /-- `key.remote_jid` of its envelope. -/
  remoteJid : Option String := none
  /-- The names of the options of a poll. -/
  pollOptions : Option (List String) := none
  messageSecret : Option (List UInt8) := none
  pollUpdates : List PollUpdate := []

structure HistoryThread where
  conversation : HistoryConversation
  records : List HistoryRecord

structure HistoryPushName where
  id : Option String
  pushname : Option String

structure HistorySync where
  threads : List HistoryThread
  pushnames : List HistoryPushName

variable (parse : String → Option ParsedJid) (aliases : String → Option String)

/-- `normalize_jid`. -/
def normalizeJid (value : String) : String := ((parse value).map (·.nonAd)).getD value

/-! ## The first pass -/

/-- `collect_history_lid_jid`. -/
def collectHistoryLidJid (value : Option String) : List String :=
  (((value.bind parse).filter (·.isLid)).map (·.nonAd)).toList

def AddressedKey.lidJids (key : AddressedKey) : List String :=
  collectHistoryLidJid parse key.remoteJid ++ collectHistoryLidJid parse key.participant

def HistoryRecord.lidJids (record : HistoryRecord) : List String :=
  collectHistoryLidJid parse record.wire.participant ++
    (record.wire.key.elim [] fun key =>
      collectHistoryLidJid parse record.remoteJid ++ collectHistoryLidJid parse key.participant) ++
    record.pollUpdates.flatMap fun update => update.key.elim [] (·.lidJids parse)

/-- `history_lid_jids`. -/
def historyLidJids (sync : HistorySync) : List String :=
  sync.threads.flatMap fun thread =>
    collectHistoryLidJid parse (some thread.conversation.id) ++
      thread.records.flatMap (·.lidJids parse)

/-! ## The second pass -/

/-- What `ingest_history` hands to the database. -/
inductive HistoryWrite where
  | reaction (event : ReactionRow)
  | conversation (chat : Chat) (messages : List Message)
  | pollSecret (chatJid messageId creatorJid : String) (secret : List UInt8)
  | pollVote (chatJid messageId voterJid : String) (selectedOptions : List String) (fromMe : Bool)
      (timestamp : ℤ)
  | contactName (jid name : String)

/-- Errors of a vote or a secret are logged. -/
def HistoryWrite.apply (plan : QueryPlan) (s : Store) : HistoryWrite → Store
  | reaction event => receiveReaction s event
  | conversation chat messages => (insertHistoryConversation plan s chat messages).1
  | pollSecret chatJid messageId creatorJid secret =>
    (storePollSecret s chatJid messageId creatorJid secret).toOption.getD s
  | pollVote chatJid messageId voterJid selectedOptions fromMe timestamp =>
    ((applyPollVote plan s chatJid messageId voterJid selectedOptions fromMe timestamp).toOption.map
      (·.1)).getD s
  | contactName jid name => (updateContactName s jid name).1

/-- `option_names_for_hashes`. -/
def optionNamesForHashes (hash : String → List UInt8) (options : List String)
    (hashes : List (List UInt8)) : Option (List String) :=
  let selected := options.filter (fun option => hashes.contains (hash option))
  if selected.length = hashes.length then some selected else none

/-- `history_poll_creator`. -/
def historyPollCreator (chatJid : String) (wire : WebMessageInfo) (ownPn : Option String) :
    Option String :=
  wire.key.bind fun key =>
    if key.fromMe.getD false then
      ((key.participant.or wire.participant).map
        (canonicalHistoryJid (normalizeJid parse) aliases)).or ownPn
    else if endsWith chatJid "@g.us" then
      (wire.participant.or key.participant).map (canonicalHistoryJid (normalizeJid parse) aliases)
    else some chatJid

/-- The time of a vote in milliseconds. -/
def PollUpdate.timestamp (update : PollUpdate) (wire : WebMessageInfo) : ℤ :=
  (update.senderTimestampMs.or update.serverTimestampMs).getD
    (min (((wire.messageTimestamp.filter (fun t => decide (t ≤ 2 ^ 63 - 1))).getD 0 : ℕ) * 1000)
      (2 ^ 63 - 1))

/-- The voter of an update; nobody when a group vote has no participant. -/
def PollUpdate.voter (chatJid : String) (key : AddressedKey) : Option String :=
  if key.fromMe.getD false then some "me"
  else if endsWith chatJid "@g.us" then
    key.participant.map (canonicalHistoryJid (normalizeJid parse) aliases)
  else some chatJid

section Writes

variable (hash : String → List UInt8) (ownPn : Option String)

def PollUpdate.write (chatJid messageId : String) (options : List String) (wire : WebMessageInfo)
    (update : PollUpdate) : Option HistoryWrite := do
  let key ← update.key
  let hashes ← update.vote
  let selected ← optionNamesForHashes hash options hashes
  let voterJid ← PollUpdate.voter parse aliases chatJid key
  return .pollVote chatJid messageId voterJid selected (key.fromMe.getD false)
    (update.timestamp wire)

/-- What is written of a poll: its secret, and the votes that came with it. -/
def HistoryRecord.pollWrites (chatJid : String) (record : HistoryRecord) : List HistoryWrite :=
  match record.wire.key.bind (·.id), record.wire.message, record.pollOptions with
  | some messageId, some body, some options =>
    (match historyPollCreator parse aliases chatJid record.wire ownPn,
        record.messageSecret.or body.secret with
      | some creatorJid, some secret => [.pollSecret chatJid messageId creatorJid secret]
      | _, _ => []) ++
      record.pollUpdates.filterMap
        (PollUpdate.write parse aliases hash chatJid messageId options record.wire)
  | _, _, _ => []

/-- The messages of a conversation are those that are not reactions. -/
def HistoryThread.timeline (thread : HistoryThread) (chatJid : String) : HistoryConversation :=
  { thread.conversation with
    messages := (thread.records.filter fun record =>
      (record.event (normalizeJid parse) aliases chatJid).isNone).map (·.wire) }

/-- The loop of `ingest_history` over the conversations, for one of them. -/
def HistoryThread.writes (s : Store) (thread : HistoryThread) : List HistoryWrite :=
  let chatJid := thread.conversation.chatJid (normalizeJid parse) aliases
  if endsWith chatJid "@broadcast" || endsWith chatJid "@newsletter" then []
  else
    let timeline := thread.timeline parse aliases chatJid
    (thread.records.filterMap (·.event (normalizeJid parse) aliases chatJid)).map .reaction ++
      [.conversation (timeline.chat (normalizeJid parse) aliases s)
        (timeline.slice (normalizeJid parse) aliases s)] ++
      thread.records.flatMap (·.pollWrites parse aliases hash ownPn chatJid)

def HistoryPushName.write (entry : HistoryPushName) : Option HistoryWrite := do
  let jid ← entry.id
  let name ← entry.pushname
  return .contactName (normalizeJid parse jid) name

/-- The conversations one after the other: the store, and what was written to it. -/
def ingestThreads (plan : QueryPlan) : Store → List HistoryThread → Store × List HistoryWrite
  | s, [] => (s, [])
  | s, thread :: threads =>
    let writes := thread.writes parse aliases hash ownPn s
    let later := ingestThreads plan (writes.foldl (HistoryWrite.apply plan) s) threads
    (later.1, writes ++ later.2)

/-- `ingest_history`: the store, and what was written to it. -/
def ingestHistory (plan : QueryPlan) (s : Store) (sync : HistorySync) :
    Store × List HistoryWrite :=
  let ingested := ingestThreads parse aliases hash ownPn plan s sync.threads
  let names := sync.pushnames.filterMap (HistoryPushName.write parse)
  (names.foldl (HistoryWrite.apply plan) ingested.1, ingested.2 ++ names)

end Writes

end OmarchyWhatsapp
