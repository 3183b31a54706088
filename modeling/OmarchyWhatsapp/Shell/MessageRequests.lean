import Mathlib.Logic.Function.Basic
import OmarchyWhatsapp.Relational.SingleFlight
import OmarchyWhatsapp.Shell.Service

/-!
# The messages of the selected chat

The shell shows the messages of one chat. It asks for a snapshot with `get_messages`, once at a
time for a chat; what calls for another one meanwhile sets a flag for the chat, and the answer
sees to it. The objects of the code are functions here: 0, the empty string and `false` stand for
a key that is not there.
-/

namespace OmarchyWhatsapp

open Relational

/-- The chat of an event after which its messages are asked for. -/
def changedChat : ServerEvent → String
  | .message chatJid => chatJid
  | .sent chatJid => chatJid
  | .invalidated .messages key => key.getD ""
  | _ => ""

structure MessageService extends Service where
  /-- The chat whose messages are shown. -/
  messagesChatJid : String := ""
  messagesRequestIds : String → ℕ := fun _ => 0
  messagesRequestJids : ℕ → String := fun _ => ""
  messagesQueuedRequests : String → Bool := fun _ => false

namespace MessageService

/-- The requests of other kinds go with those for messages. -/
def resetRequestState (s : MessageService) : MessageService :=
  { s with
    toService := s.toService.resetRequestState
    messagesRequestIds := fun _ => 0
    messagesRequestJids := fun _ => ""
    messagesQueuedRequests := fun _ => false }

/-- `acceptFrame`. -/
def acceptFrame (s : MessageService) (frame : ServerFrame) : MessageService × Bool :=
  let accepting := { s with toService := (s.toService.acceptFrame frame).1 }
  (if s.daemonGeneration < frame.generation then accepting.resetRequestState else accepting,
    (s.toService.acceptFrame frame).2)

/-- `send` of another command. -/
def send (s : MessageService) (command : ClientCommand) : MessageService :=
  { s with toService := (s.toService.send command).1 }

/-- `send` of a `get_messages`. -/
def sendGetMessages (s : MessageService) (jid : String) : MessageService :=
  if s.connected = false ∨ s.protocolCompatible = false then s
  else
    { s with
      nextRequestId := s.nextRequestId + 1
      messagesRequestIds := Function.update s.messagesRequestIds jid s.nextRequestId
      messagesRequestJids := Function.update s.messagesRequestJids s.nextRequestId jid }

/-- `requestMessages`. -/
def requestMessages (s : MessageService) (jid : String) (queueIfPending : Bool) :
    MessageService :=
  if jid = "" then s
  else if s.messagesRequestIds jid ≠ 0 then
    if queueIfPending then
      { s with messagesQueuedRequests := Function.update s.messagesQueuedRequests jid true }
    else s
  else s.sendGetMessages jid

/-- `finishMessagesRequest`: the service, and the chat whose messages are to be asked for again. -/
def finishMessagesRequest (s : MessageService) (id : Option ℕ) : MessageService × String :=
  match id with
  | none => (s, "")
  | some id =>
    let jid := s.messagesRequestJids id
    if jid = "" then (s, "")
    else
      ({ s with
        messagesRequestIds := if s.messagesRequestIds jid = id then
            Function.update s.messagesRequestIds jid 0
          else s.messagesRequestIds
        messagesRequestJids := Function.update s.messagesRequestJids id ""
        messagesQueuedRequests := Function.update s.messagesQueuedRequests jid false },
        if s.messagesQueuedRequests jid then jid else "")

/-- The requests that a frame answers. -/
def finishRequests (s : MessageService) (id : Option ℕ) (isError : Bool) :
    MessageService × String :=
  { s with
    toService := s.toService.finishMediaDownloadRequest id isError }.finishMessagesRequest id

/-- The messages of the selected chat are asked for again. -/
def askAgain (s : MessageService) (jid : String) : MessageService :=
  if jid ≠ "" ∧ jid = s.selectedChatJid then s.requestMessages jid false else s

/-- `finishStaleResponse`, for a frame with an id. -/
def finishStaleResponse (s : MessageService) (frame : ServerFrame) (id : ℕ) : MessageService :=
  (s.finishRequests frame.id (Service.isError frame.event)).1.askAgain (s.messagesRequestJids id)

def refresh (s : MessageService) : MessageService :=
  let refreshed := { s with toService := s.toService.refreshMetadata }
  refreshed.requestMessages refreshed.selectedChatJid false

def handleHello (s : MessageService) (version : ℕ) : MessageService :=
  if version ≠ protocolVersion then { s with protocolCompatible := false }
  else { s with protocolCompatible := true }.refresh

/-- `selectChat`, without the commands on participants, avatars and the read state. -/
def selectChat (s : MessageService) (jid : String) : MessageService :=
  if jid = "" then s
  else if jid ≠ s.selectedChatJid then
    { s with selectedChatJid := jid, messagesChatJid := "" }.requestMessages jid false
  else if s.messagesChatJid ≠ jid then s.requestMessages jid false
  else s

def handleChats (s : MessageService) (chats : List Chat) : MessageService :=
  let listed := { s with chats := s.toService.chatsPreservingSelection chats }
  match listed.chats.head? with
  | some first =>
    if listed.selectedChatJid = "" ∧ listed.panelVisible = true then listed.selectChat first.jid
    else listed
  | none => listed

def handleInvalidation (s : MessageService) (resource : Resource) (key : String) :
    MessageService :=
  match resource with
  | .chats => s.send (.listChats 500)
  | .messages => if key = s.selectedChatJid then s.requestMessages key true else s

/-- What `handleLine` does with an accepted frame. -/
def handleEvent (s : MessageService) : ServerEvent → MessageService
  | .chats chats => s.handleChats chats
  | .invalidated resource key => s.handleInvalidation resource (key.getD "")
  | .messages chatJid =>
    if chatJid = s.selectedChatJid then { s with messagesChatJid := chatJid } else s
  | .message chatJid =>
    if chatJid = s.selectedChatJid then s.requestMessages s.selectedChatJid true else s
  | .sent chatJid =>
    if chatJid = s.selectedChatJid then s.requestMessages s.selectedChatJid true else s
  | event => { s with toService := s.toService.handleEvent event }

/-- An accepted frame that is no hello. -/
def handleAccepted (s : MessageService) (frame : ServerFrame) : MessageService :=
  let (finished, queuedMessagesJid) := s.finishRequests frame.id (Service.isError frame.event)
  (finished.handleEvent frame.event).askAgain queuedMessagesJid

/-- A frame that is no hello. -/
def handleFrame (s : MessageService) (frame : ServerFrame) : MessageService :=
  if s.protocolCompatible = false then s
  else
    let (accepting, accepted) := s.acceptFrame frame
    if accepted then accepting.handleAccepted frame
    else frame.id.elim accepting (accepting.finishStaleResponse frame)

def handleLine (s : MessageService) (frame : ServerFrame) : MessageService :=
  match frame.event with
  | .hello version =>
    let (accepting, accepted) := s.acceptFrame frame
    if accepted then accepting.handleHello version else accepting
  | _ => s.handleFrame frame

/-- A request expires in the shell: `expireRequests` for one of them. -/
def expireRequest (s : MessageService) (id : ℕ) : MessageService :=
  let (finished, queuedMessagesJid) := s.finishRequests (some id) true
  finished.askAgain queuedMessagesJid

/-- The socket connects. -/
def connect (s : MessageService) : MessageService :=
  { s with connected := true, protocolCompatible := false, requests := [] }.resetRequestState

/-- The connection is lost. -/
def disconnect (s : MessageService) : MessageService :=
  { s with connected := false, protocolCompatible := false, requests := [] }.resetRequestState

/-- The request for the messages of a chat. -/
def flight (s : MessageService) (jid : String) : Flight :=
  ⟨s.messagesRequestIds jid, s.messagesQueuedRequests jid⟩

/-- The chat whose messages a frame with this id answers for. -/
def asked (s : MessageService) (id : Option ℕ) : String := id.elim "" s.messagesRequestJids

/-- Connected, and the versions match. -/
def linked (s : MessageService) : Bool := s.connected && s.protocolCompatible

end MessageService

end OmarchyWhatsapp
