import Mathlib.Data.List.Sort
import OmarchyWhatsapp.Database.Operations

/-!
# Inbound messages

The two adapters that turn what WhatsApp delivers into a stored message: `receive_message`
for a live event and `history_message` for a message of a history sync. The client library
decodes the payloads and resolves aliases, so `Body` holds what it decodes and `resolve`,
`normalize` and `aliases` are parameters. Resolving a JID may also migrate its alias and set
a phone number; these are operations of their own. Reactions and poll votes are no messages
of the timeline: they reach the store through `apply_reaction` and `apply_poll_vote`.
-/

namespace OmarchyWhatsapp

open Relational

/-- The payload of a message. -/
structure Body where
  textContent : Option String
  caption : Option String
  /-- `media_text`, given the media type to fall back on. -/
  mediaText : String → Option String
  /-- `message_media`, given the chat, the message id, the time and a duration. -/
  media : String → String → ℤ → ℕ → Option MessageMedia
  /-- `message_quote`. -/
  quote : Option MessageQuote
  /-- `message_secret` of the message and its envelope. -/
  secret : Option (List UInt8) := none
  /-- The download metadata of its image, video, audio or sticker. -/
  downloads : List (List UInt8) := []

/-- The text a payload shows; a control message shows none. -/
def Body.text (body : Body) (fallbackType : String) : Option String :=
  (body.textContent.or body.caption).or (body.mediaText fallbackType)

/-- `Database::contact_name`. -/
def contactName (s : Store) (jid : String) : Option String :=
  (s.contacts.find? jid).map (·.name)

/-- `Database::chat_name`. -/
def chatName (s : Store) (jid : String) : Option String :=
  ((s.chats.find? jid).filter
    (fun c => decide (chatNameUnknown < c.nameSource) && c.name != "")).map (·.name)

/-! ## Live events -/

structure MessageSource where
  chat : String
  sender : String
  isFromMe : Bool
  isGroup : Bool
  isStatusBroadcast : Bool := false
  isNewsletter : Bool := false

structure MessageInfo where
  source : MessageSource
  id : String
  pushName : String
  timestamp : ℤ
  mediaType : String := ""

/-- What the daemon knows when a live message arrives: whether its chat is on screen, and the
subject the group metadata gives. -/
structure LiveContext where
  focused : Bool
  groupSubject : Option String

/-- The push name that travels with a live message. -/
def learnPushName (s : Store) (senderJid pushName : String) : Store :=
  if pushName != senderJid then (updateContactName s senderJid pushName).1 else s

/-- The name a live message gives its chat. -/
def liveChatName (s : Store) (context : LiveContext) (info : MessageInfo) (chatJid : String) :
    String :=
  if info.source.isGroup then
    ((chatName s chatJid).filter (· != chatJid)).getD
      ((context.groupSubject.bind nonempty).getD chatJid)
  else ((nonempty info.pushName).or (chatName s chatJid)).getD chatJid

/-- The message that `receive_message` persists. -/
def receivedMessage (s : Store) (body : Body) (info : MessageInfo)
    (chatJid senderJid pushName : String) : Option Message :=
  (body.text info.mediaType).map fun text =>
    { id := info.id, chatJid, senderJid,
      senderName := (contactName s senderJid).getD pushName, text,
      timestamp := info.timestamp, fromMe := info.source.isFromMe,
      receipt := info.source.isFromMe.toNat,
      media := body.media chatJid info.id info.timestamp 0,
      quote := body.quote.map fun quote =>
        { quote with senderName := (contactName s quote.senderJid).getD quote.senderJid } }

variable (plan : QueryPlan)

/-- The insertion: a message that is on screen is read, and its receipt is queued. -/
def persistMessage (s : Store) (context : LiveContext) (message : Message) (chatName : String)
    (isGroup : Bool) : Store × Bool :=
  if context.focused && !message.fromMe then
    insertMessageWithReadIntent plan s message chatName isGroup
      ⟨message.id, message.senderJid, isGroup⟩
  else insertMessage plan s message chatName isGroup (!message.fromMe && !context.focused)

/-- What is stored beside the message row. -/
def persistParts (s : Store) (body : Body) (info : MessageInfo) (message : Message)
    (chatName : String) (inserted : Bool) : Store :=
  let withSecret := match message.media, body.secret with
    | some (.poll ..), some secret =>
      (storePollSecret s message.chatJid info.id info.source.sender secret).toOption.getD s
    | _, _ => s
  let withDownloads := body.downloads.foldl
    (fun s payload => (storeMediaDownload s message.chatJid info.id payload).1) withSecret
  let named := if info.source.isGroup && chatName != message.chatJid then
      (updateGroupName withDownloads message.chatJid chatName).1
    else withDownloads
  match inserted, message.media with
  | false, some media => (updateMessageMediaInto plan named message.chatJid message.id media).1
  | _, _ => named

/-- `receive_message`. -/
def receiveMessage (resolve : String → String) (s : Store) (context : LiveContext) (body : Body)
    (info : MessageInfo) : Store :=
  if info.source.isStatusBroadcast || info.source.isNewsletter then s
  else
    let chatJid := resolve info.source.chat
    let senderJid := resolve info.source.sender
    let pushName := (nonempty info.pushName).getD senderJid
    let learned := learnPushName s senderJid pushName
    let chatName := liveChatName learned context info chatJid
    match receivedMessage learned body info chatJid senderJid pushName with
    | none => learned
    | some message =>
      let persisted := persistMessage plan learned context message chatName info.source.isGroup
      persistParts plan persisted.1 body info message chatName persisted.2

/-! ## History sync -/

structure MessageKey where
  id : Option String
  fromMe : Option Bool
  participant : Option String

/-- The last position of a live location that has ended. -/
structure FinalLocation where
  media : String → String → ℤ → ℕ → Option MessageMedia
  timeOffset : Option ℕ

structure WebMessageInfo where
  key : Option MessageKey
  message : Option Body
  participant : Option String := none
  pushName : Option String := none
  messageTimestamp : Option ℕ
  duration : Option ℕ := none
  finalLiveLocation : Option FinalLocation := none

/-- `i64::try_from(timestamp).unwrap_or(i64::MAX)`. -/
def clampTimestamp (timestamp : ℕ) : ℤ := min timestamp (2 ^ 63 - 1)

/-- `i64::saturating_add` of a time offset. -/
def saturatingAdd (timestamp : ℤ) (offset : ℕ) : ℤ := min (timestamp + offset) (2 ^ 63 - 1)

section History

variable (normalize : String → String) (aliases : String → Option String)

/-- `canonical_history_jid`. -/
def canonicalHistoryJid (value : String) : String :=
  (aliases (normalize value)).getD (normalize value)

/-- The sender of a replayed message; own messages have the sender `me`. -/
def historySender (chatJid : String) (key : MessageKey) (wire : WebMessageInfo) : String :=
  if key.fromMe.getD false then "me"
  else canonicalHistoryJid normalize aliases ((wire.participant.or key.participant).getD chatJid)

/-- The media of a replayed message; the position of an ended live location is final. -/
def historyMedia (chatJid id : String) (timestamp : ℤ) (body : Body) (wire : WebMessageInfo) :
    Option MessageMedia :=
  match wire.finalLiveLocation with
  | none => body.media chatJid id timestamp (wire.duration.getD 0)
  | some final =>
    (final.media chatJid id timestamp (wire.duration.getD 0)).map fun
      | .location latitudeE7 longitudeE7 accuracyM name address thumbnailPath _ _ duration =>
        .location latitudeE7 longitudeE7 accuracyM name address thumbnailPath false
          (saturatingAdd timestamp (final.timeOffset.getD 0)) duration
      | media => media

/-- `history_message`. -/
def historyMessage (chatJid chatName : String) (wire : WebMessageInfo) : Option Message := do
  let key ← wire.key
  let id ← key.id
  let body ← wire.message
  let fromMe := key.fromMe.getD false
  let senderJid := historySender normalize aliases chatJid key wire
  let timestamp := (wire.messageTimestamp.map clampTimestamp).getD 0
  let text ← body.text ""
  return {
    id, chatJid, senderJid,
    senderName := if fromMe then "You"
      else (wire.pushName.bind nonempty).getD (if senderJid = chatJid then chatName else senderJid)
    text, timestamp, fromMe, receipt := fromMe.toNat
    media := historyMedia chatJid id timestamp body wire
    quote := body.quote }

/-- A conversation of a history sync, without the reactions among its messages. -/
structure HistoryConversation where
  id : String
  name : Option String := none
  displayName : Option String := none
  messages : List WebMessageInfo
  conversationTimestamp : Option ℕ := none
  lastMsgTimestamp : Option ℕ := none
  unreadCount : Option ℕ := none

def HistoryConversation.chatJid (conversation : HistoryConversation) : String :=
  canonicalHistoryJid normalize aliases conversation.id

/-- The name a replayed conversation gives its chat. -/
def HistoryConversation.chatName (conversation : HistoryConversation) (s : Store) : String :=
  (((conversation.name.or conversation.displayName).bind nonempty).or
    (contactName s (conversation.chatJid normalize aliases))).getD
      (conversation.chatJid normalize aliases)

/-- The messages of a conversation, oldest first. -/
def HistoryConversation.slice (conversation : HistoryConversation) (s : Store) : List Message :=
  (conversation.messages.filterMap (historyMessage normalize aliases
    (conversation.chatJid normalize aliases) (conversation.chatName normalize aliases s))).insertionSort
      (fun m m' => m.timestamp ≤ m'.timestamp)

/-- `value.ends_with(suffix)`. -/
def endsWith (value suffix : String) : Bool := suffix.toList.isSuffixOf value.toList

/-- The header of a conversation. -/
def HistoryConversation.chat (conversation : HistoryConversation) (s : Store) : Chat :=
  let last := (conversation.slice normalize aliases s).getLast?
  { jid := conversation.chatJid normalize aliases
    name := conversation.chatName normalize aliases s
    lastMessage := (last.map (·.text)).getD ""
    lastSenderName := (last.map (·.senderName)).getD ""
    lastTimestamp := (((conversation.conversationTimestamp.or
      conversation.lastMsgTimestamp).map clampTimestamp).or (last.map (·.timestamp))).getD 0
    unread := conversation.unreadCount.getD 0
    isGroup := endsWith (conversation.chatJid normalize aliases) "@g.us" }

/-- `ingest_history`, for the timeline of one conversation. -/
def ingestConversation (s : Store) (conversation : HistoryConversation) : Store :=
  let chatJid := conversation.chatJid normalize aliases
  if endsWith chatJid "@broadcast" || endsWith chatJid "@newsletter" then s
  else (insertHistoryConversation plan s (conversation.chat normalize aliases s)
    (conversation.slice normalize aliases s)).1

end History

end OmarchyWhatsapp
