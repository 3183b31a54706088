import Mathlib.Data.String.Basic
import OmarchyWhatsapp.Database.Schema
import OmarchyWhatsapp.Protocol.Frames
import OmarchyWhatsapp.Relational.Grouping

/-!
# Messages as they are read

`load_messages`, the single read path for rendered messages: a page of rows, with the reactions
and the receipts that two more queries return for all of them. A map hands out what belongs to an
id, so that of several messages with one id in a page the first one gets it.
-/

namespace OmarchyWhatsapp

open Relational

/-! ## Rows -/

section Rows

-- `Path::is_file`
variable (isFile : String → Bool)

/-- A thumbnail that is gone is not mentioned. -/
def shownThumbnail (path : String) : String :=
  if path ≠ "" && !isFile path then "" else path

/-- The cache state of a payload is read off the files. -/
def decodeMedia : MessageMedia → MessageMedia
  | .image path thumbnailPath _ mimeType width height =>
    -- an early row without a thumbnail may have its preview at `path`
    .image path (shownThumbnail isFile thumbnailPath) (thumbnailPath ≠ "" && isFile path) mimeType
      width height
  | .sticker path thumbnailPath _ mimeType width height animated lottie accessibilityLabel =>
    .sticker path (shownThumbnail isFile thumbnailPath) (!lottie && isFile path) mimeType width
      height animated lottie accessibilityLabel
  | .video path thumbnailPath _ mimeType width height durationSeconds gifPlayback =>
    .video path (shownThumbnail isFile thumbnailPath) (isFile path) mimeType width height
      durationSeconds gifPlayback
  | .audio path _ mimeType durationSeconds voiceMessage =>
    .audio path (isFile path) mimeType durationSeconds voiceMessage
  | media => media

/-- `decode_message`. -/
def decodeMessage (row : MessageRow) : Wire.Message where
  id := row.id
  chatJid := row.chatJid
  senderJid := row.senderJid
  senderName := row.senderName
  text := row.text
  timestamp := row.timestamp
  fromMe := row.fromMe
  receipt := min row.receipt 4
  deliveredAt := row.deliveredAt
  readAt := row.receiptReadAt
  media := row.media.map (decodeMedia isFile)
  quote := row.quote

end Rows

/-! ## Queries -/

variable (plan : QueryPlan) (isFile : String → Bool) (s : Store) (chatJid : String)

/-- `?3 IS NULL OR id = ?3`. -/
def isSelected (selected : Option String) (id : String) : Bool :=
  selected.all (fun messageId => id = messageId)

def loadRows (limit : ℕ) (messageId : Option String) : List MessageRow :=
  page (fun m => m.timestamp) plan (fun m => m.chatJid = chatJid && isSelected messageId m.id)
    (max 1 (min limit 1000)) s.messages.rows

/-- `MIN(timestamp)`. -/
def firstReaction (group : (String × String) × List ReactionRow) : ℤ :=
  ((group.2.map (·.timestamp)).min?).getD 0

def reactionOf (group : (String × String) × List ReactionRow) : Wire.Reaction where
  emoji := group.1.2
  count := group.2.length
  fromMe := group.2.any (·.fromMe)

/-- The reactions by message and emoji, the first ones first. -/
def reactionGroups (messageId : Option String) : List ((String × String) × List ReactionRow) :=
  plan.orderBy (termThenText firstReaction (fun group => group.1.2))
    (groupBy (fun r => (r.messageId, r.emoji)) (s.reactions.rows.filter
      (fun r => r.chatJid = chatJid && isSelected messageId r.messageId)))

/-- `COALESCE(NULLIF(contacts.name, ''), NULLIF(chats.name, ''), '')`. -/
def receiptName (jid : String) : String :=
  ((((s.contacts.find? jid).map (·.name)).filter (· ≠ "")).or
    (((s.chats.find? jid).map (·.name)).filter (· ≠ ""))).getD ""

/-- The receipts of the members, by their names. -/
def receiptRows (messageId : Option String) : List MessageReadRow :=
  plan.orderBy (termThenText (fun r => (receiptName s r.readerJid).toLower) (·.readerJid))
    (s.messageReads.rows.filter
      (fun r => r.chatJid = chatJid && isSelected messageId r.messageId))

def deliveryOf (r : MessageReadRow) : Wire.MessageDelivery where
  jid := r.readerJid
  name := receiptName s r.readerJid
  deliveredAt := some r.deliveredAt

def readerOf (r : MessageReadRow) : Wire.MessageReader where
  jid := r.readerJid
  name := receiptName s r.readerJid
  readAt := some r.readAt

/-! ## The read path -/

/-- What belongs to an id is removed from the maps by the first message that has it. -/
def attach (reactions : String → List Wire.Reaction)
    (deliveries : String → List Wire.MessageDelivery)
    (readers : String → List Wire.MessageReader) : List Wire.Message → List Wire.Message
  | [] => []
  | m :: messages =>
    { m with reactions := reactions m.id, deliveredTo := deliveries m.id, readBy := readers m.id }
      :: attach (removeEntry reactions m.id) (removeEntry deliveries m.id)
        (removeEntry readers m.id) messages

/-- `attach_reactions_and_receipts`. -/
def attachReactionsAndReceipts (messageId : Option String) (messages : List Wire.Message) :
    List Wire.Message :=
  let reactions := (reactionGroups plan s chatJid messageId).map
    fun group => (group.1.1, reactionOf group)
  let receipts := receiptRows plan s chatJid messageId
  let deliveries := (receipts.filter (fun r => 0 < r.deliveredAt)).map
    fun r => (r.messageId, deliveryOf s r)
  let readers := (receipts.filter (fun r => 0 < r.readAt)).map
    fun r => (r.messageId, readerOf s r)
  attach (collect reactions) (collect deliveries) (collect readers) messages

/-- `load_messages`. -/
def loadMessages (limit : ℕ) (messageId : Option String) : List Wire.Message :=
  attachReactionsAndReceipts plan s chatJid messageId
    ((loadRows plan s chatJid limit messageId).map (decodeMessage isFile))

/-- `messages`. -/
def messages (limit : ℕ) : List Wire.Message := loadMessages plan isFile s chatJid limit none

/-- `message_by_id`. -/
def messageById (messageId : String) : Option Wire.Message :=
  (loadMessages plan isFile s chatJid 1 (some messageId)).getLast?

/-- `message_by_identity`. -/
def messageByIdentity (messageId senderJid : String) : Option Wire.Message :=
  (loadMessages plan isFile s chatJid 1000 (some messageId)).find?
    (fun m => m.senderJid = senderJid)

end OmarchyWhatsapp
