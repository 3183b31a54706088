import OmarchyWhatsapp.Protocol

/-!
# Frames on the wire

The requests of a client and the events of the daemon with all their fields, as
`crates/protocol` declares them. Unsigned fields are natural numbers and signed ones integers.
-/

namespace OmarchyWhatsapp.Wire

/-! ## Parts of events -/

inductive ConnectionStatus where
  | starting
  | pairing (code : String) (expiresAt : ℤ)
  | connected
  | disconnected (reason : String)
  | loggedOut
  | error (message : String)
deriving DecidableEq, Repr

structure ChatParticipant where
  jid : String
  name : String
  aliases : List String := []
  isMe : Bool
deriving DecidableEq, Repr

inductive ChatState where
  | typing
  | recording
  | paused
deriving DecidableEq, Repr

inductive ChatStateResyncStatus where
  | idle
  | requested
  | syncing
  | succeeded
  | failed
deriving DecidableEq, Repr

/-- Same-chat message identity selected by the user. -/
structure ReplyTarget where
  messageId : String
  senderJid : String
deriving DecidableEq, Repr

structure MessageDelivery where
  jid : String
  name : String
  deliveredAt : Option ℤ := none
deriving DecidableEq, Repr

structure MessageReader where
  jid : String
  name : String
  readAt : Option ℤ := none
deriving DecidableEq, Repr

structure Reaction where
  emoji : String
  count : ℕ
  fromMe : Bool
deriving DecidableEq, Repr

/-- A message with what the read path adds to it. -/
structure Message extends OmarchyWhatsapp.Message where
  deliveredTo : List MessageDelivery := []
  readBy : List MessageReader := []
  reactions : List Reaction := []
deriving DecidableEq, Repr

inductive VoiceOutboxStatus where
  | sending
  | failed
deriving DecidableEq, Repr

structure VoiceOutboxEntry where
  recordingId : String
  chatJid : String
  durationMs : ℕ
  status : VoiceOutboxStatus
  error : Option String := none
  createdAt : ℤ
deriving DecidableEq, Repr

inductive TextOutboxStatus where
  | queued
  | sending
  | failed
  | sent
deriving DecidableEq, Repr

structure TextOutboxEntry where
  deliveryId : String
  chatJid : String
  text : String
  status : TextOutboxStatus
  error : Option String := none
  createdAt : ℤ
deriving DecidableEq, Repr

inductive Resource where
  | chats
  | messages
deriving DecidableEq, Repr

/-! ## Requests -/

inductive Command where
  | getState
  | listChats (limit : ℕ)
  | getMessages (chatJid : String) (limit : ℕ)
  | getGroupParticipants (chatJid : String)
  | sendMessage (chatJid text deliveryId : String) (mentions : List String)
      (replyTo : Option ReplyTarget)
  | sendVoiceMessage (chatJid recordingId : String)
  | pasteImage
  | stageFile (path : String)
  | sendImage (chatJid path caption deliveryId : String) (mentions : List String)
      (replyTo : Option ReplyTarget)
  | sendDocument (chatJid path fileName caption deliveryId : String) (mentions : List String)
      (replyTo : Option ReplyTarget)
  | discardVoiceRecording (recordingId : String)
  | listVoiceOutbox
  | listTextOutbox
  | retryTextMessage (deliveryId : String)
  | discardTextMessage (deliveryId : String)
  | createPoll (chatJid question : String) (options : List String) (selectableCount : ℕ)
      (correctOptionIndex : Option ℕ)
  | votePoll (chatJid messageId : String) (selectedOptions : List String)
  | downloadMedia (chatJid messageId : String)
  | react (chatJid messageId senderJid : String) (targetFromMe : Bool) (emoji : String)
  | markRead (chatJid : String)
  | setChatPinned (chatJid : String) (pinned : Bool)
  | requestAvatar (jid : String)
  | listAvatars
  | setActiveChat (chatJid : Option String)
  | setPresence (available : Bool)
  | setChatState (chatJid : String) (state : ChatState)
  | resyncChatState
  | logout
  | ping
deriving DecidableEq, Repr

structure ClientFrame where
  id : Option ℕ := none
  command : Command
deriving DecidableEq, Repr

/-! ## Events -/

inductive ServerEvent where
  | hello (protocolVersion : ℕ)
  | state (status : ConnectionStatus) (unreadTotal : ℕ)
  | chats (chats : List Chat)
  | messages (chatJid : String) (messages : List Message) (firstUnreadMessageId : Option String)
  | groupParticipants (chatJid : String) (participants : List ChatParticipant)
  | message (message : Message)
  | mediaDownloaded (chatJid messageId : String) (media : MessageMedia)
  | mediaDownloadFailed (chatJid messageId message : String)
  | imagePasted (path : String) (width height : ℕ) (mimeType : String)
  | imagePasteEmpty
  | documentStaged (path fileName mimeType : String) (fileSize : ℕ)
  | sent (message : Message)
  | textAccepted (deliveryId : String)
  | textOutbox (entries : List TextOutboxEntry)
  | textDelivery (deliveryId : String) (status : TextOutboxStatus) (error : Option String)
  | invalidated (resource : Resource) (key : Option String)
  | presence (jid : String) (available : Bool) (lastSeen : Option ℤ)
  | chatState (chatJid senderJid senderName : String) (state : ChatState)
  | chatStateResync (status : ChatStateResyncStatus) (message : Option String)
  | unread (total : ℕ)
  | avatars (revision : ℕ) (jids changedJids : List String)
  | voiceOutbox (entries : List VoiceOutboxEntry)
  | ack
  | pong
  | error (message : String)
deriving DecidableEq, Repr

structure ServerFrame where
  id : Option ℕ := none
  /-- The client generation that produced the frame. -/
  generation : ℕ := 0
  sequence : ℕ := 0
  event : ServerEvent
deriving DecidableEq, Repr

/-- `ServerFrame::response`. -/
def ServerFrame.response (id : Option ℕ) (event : ServerEvent) : ServerFrame := { id, event }

def ServerFrame.withMetadata (frame : ServerFrame) (generation sequence : ℕ) : ServerFrame :=
  { frame with generation, sequence }

end OmarchyWhatsapp.Wire
