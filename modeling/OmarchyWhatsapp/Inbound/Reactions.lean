import OmarchyWhatsapp.Database.ReactionTheorems
import OmarchyWhatsapp.Inbound.Messages

/-!
# Inbound reactions

A reaction reaches the store through `receive_message` or with a history sync. Both adapters
read the reaction that `find_reaction_message` finds in the payload, and reduce the clock of its
sender from milliseconds to seconds.
-/

namespace OmarchyWhatsapp

open Relational

/-- What `find_reaction_message` finds: the target, and the emoji; no emoji takes it back. -/
structure ReactionMessage where
  key : Option MessageKey
  text : Option String
  senderTimestampMs : Option ℤ

def ReactionMessage.emoji (reaction : ReactionMessage) : String := reaction.text.getD ""

/-- `div_euclid(1_000)` of the sender's clock. -/
def ReactionMessage.seconds (reaction : ReactionMessage) : Option ℤ :=
  reaction.senderTimestampMs.map (· / 1000)

/-- No reaction of the first is sent after the second. -/
def ReactionMessage.NoLater (reaction newest : ReactionMessage) : Prop :=
  ∃ t ∈ reaction.senderTimestampMs, ∃ t' ∈ newest.senderTimestampMs, t ≤ t'

/-! ## Live events -/

/-- The event that `receive_message` applies; `info.timestamp` is in seconds. -/
def receivedReaction (resolve : String → String) (info : MessageInfo)
    (reaction : ReactionMessage) : Option ReactionRow := do
  let target ← reaction.key
  let messageId ← target.id
  return {
    chatJid := resolve info.source.chat
    messageId
    reactorJid := if info.source.isFromMe then "me" else resolve info.source.sender
    emoji := reaction.emoji
    fromMe := info.source.isFromMe
    timestamp := reaction.seconds.getD info.timestamp }

/-- `receive_message`, for any payload. -/
def receivePayload (plan : QueryPlan) (resolve : String → String) (s : Store)
    (context : LiveContext) (body : Body) (reaction : Option ReactionMessage)
    (info : MessageInfo) : Store :=
  if info.source.isStatusBroadcast || info.source.isNewsletter then s
  else
    let senderJid := resolve info.source.sender
    let learned := learnPushName s senderJid ((nonempty info.pushName).getD senderJid)
    match reaction.bind (receivedReaction resolve info) with
    | some event => receiveReaction learned event
    | none => receiveMessage plan resolve s context body info

/-! ## History sync -/

/-- An entry of a conversation, and the reaction in its payload. -/
structure HistoryEntry where
  wire : WebMessageInfo
  reaction : Option ReactionMessage

section History

variable (normalize : String → String) (aliases : String → Option String)

/-- `history_reaction`. -/
def historyReaction (chatJid : String) (wire : WebMessageInfo) (reaction : ReactionMessage) :
    Option ReactionRow := do
  let envelopeKey ← wire.key
  let target ← reaction.key
  let messageId ← target.id
  return {
    chatJid, messageId
    reactorJid := historySender normalize aliases chatJid envelopeKey wire
    emoji := reaction.emoji
    fromMe := envelopeKey.fromMe.getD false
    timestamp := (reaction.seconds.or (wire.messageTimestamp.map clampTimestamp)).getD 0 }

def HistoryEntry.event (chatJid : String) (entry : HistoryEntry) : Option ReactionRow :=
  entry.reaction.bind (historyReaction normalize aliases chatJid entry.wire)

/-- `ingest_history`, for one conversation with its reactions. -/
def ingestEntries (plan : QueryPlan) (s : Store) (conversation : HistoryConversation)
    (entries : List HistoryEntry) : Store :=
  let chatJid := conversation.chatJid normalize aliases
  if endsWith chatJid "@broadcast" || endsWith chatJid "@newsletter" then s
  else
    let reacted := (entries.filterMap (·.event normalize aliases chatJid)).foldl receiveReaction s
    let messages := entries.filter (fun entry => (entry.event normalize aliases chatJid).isNone)
    ingestConversation plan normalize aliases reacted
      { conversation with messages := messages.map (·.wire) }

end History

/-! ## Deliveries -/

/-- One delivery of WhatsApp, with the way in which each adapter resolves its JIDs. -/
inductive ReactionDelivery where
  | live (resolve : String → String) (context : LiveContext) (body : Body)
      (reaction : Option ReactionMessage) (info : MessageInfo)
  | history (normalize : String → String) (aliases : String → Option String)
      (conversation : HistoryConversation) (entries : List HistoryEntry)

namespace ReactionDelivery

def deliver (plan : QueryPlan) (s : Store) : ReactionDelivery → Store
  | live resolve context body reaction info =>
    receivePayload plan resolve s context body reaction info
  | history normalize aliases conversation entries =>
    ingestEntries normalize aliases plan s conversation entries

/-- The reactions of a delivery, each with the event that is applied for it. -/
def reactions : ReactionDelivery → List (ReactionMessage × ReactionRow)
  | live resolve _ _ reaction info =>
    if info.source.isStatusBroadcast || info.source.isNewsletter then []
    else (reaction.bind fun r => (receivedReaction resolve info r).map (r, ·)).toList
  | history normalize aliases conversation entries =>
    let chatJid := conversation.chatJid normalize aliases
    if endsWith chatJid "@broadcast" || endsWith chatJid "@newsletter" then []
    else entries.filterMap fun entry => entry.reaction.bind fun r =>
      (historyReaction normalize aliases chatJid entry.wire r).map (r, ·)

/-- The reactions to the message and by the person of `k`. -/
def reactionsOf (k : String × String × String) (d : ReactionDelivery) : List ReactionMessage :=
  (d.reactions.filter (fun r => r.2.key = k)).map (·.1)

end ReactionDelivery

end OmarchyWhatsapp
