import Mathlib.Data.List.Basic
import OmarchyWhatsapp.Protocol

/-!
# Frames in the shell

The daemon stamps every frame with its client generation and with a revision that grows by one.
The shell keeps the newest revision of each resource and turns older frames of that resource away;
a newer generation resets what it keeps. `handleLine` is the part of the service that concerns the
chat list, the unread badge and the media downloads.
-/

namespace OmarchyWhatsapp

/-- `PROTOCOL_VERSION` of the daemon and `protocolVersion` of the shell. -/
def protocolVersion : ℕ := 33

/-! ## Frames -/

inductive Resource where
  | chats
  | messages
deriving DecidableEq, Repr

def Resource.name : Resource → String
  | .chats => "chats"
  | .messages => "messages"

/-- The events of the daemon, each with what the shell reads of it here. -/
inductive ServerEvent where
  | hello (protocolVersion : ℕ)
  | state (unreadTotal : ℕ)
  | chats (chats : List Chat)
  | messages (chatJid : String)
  | groupParticipants (chatJid : String)
  | message (chatJid : String)
  | sent (chatJid : String)
  | mediaDownloaded (chatJid messageId : String)
  | mediaDownloadFailed (chatJid messageId : String)
  | textOutbox
  | textDelivery (deliveryId : String)
  | invalidated (resource : Resource) (key : Option String)
  | presence (jid : String)
  | chatState (chatJid senderJid : String)
  | chatStateResync
  | unread (total : ℕ)
  | avatars
  | voiceOutbox
  | error (message : String)
  /-- `Ack`, `Pong`, `ImagePasted` and the other answers that are no resource. -/
  | ack
deriving DecidableEq, Repr

structure ServerFrame where
  id : Option ℕ := none
  generation : ℕ
  sequence : ℕ
  event : ServerEvent
deriving DecidableEq, Repr

inductive ClientCommand where
  | getState
  | listChats (limit : ℕ)
  | listAvatars
  | listTextOutbox
  | listVoiceOutbox
  | downloadMedia (chatJid messageId : String)
deriving DecidableEq, Repr

structure ClientFrame where
  id : ℕ
  command : ClientCommand
deriving DecidableEq, Repr

/-- `resourceKey`. -/
def ServerFrame.resourceKey (frame : ServerFrame) : String :=
  match frame.event with
  | .state _ => "state"
  | .chats _ => "chats"
  | .messages chatJid => "messages:" ++ chatJid
  | .groupParticipants chatJid => "group_participants:" ++ chatJid
  | .message chatJid => "messages:" ++ chatJid
  | .sent chatJid => "messages:" ++ chatJid
  | .unread _ => "unread"
  | .avatars => "avatars"
  | .textOutbox => "text_outbox"
  | .voiceOutbox => "voice_outbox"
  | .textDelivery deliveryId => "text_delivery:" ++ deliveryId
  | .invalidated resource key =>
    if key.getD "" = "" then resource.name else resource.name ++ ":" ++ key.getD ""
  | .presence jid => "presence:" ++ jid
  | .chatState chatJid senderJid => "chat_state:" ++ chatJid ++ ":" ++ senderJid
  | _ => frame.id.elim "" (fun id => "response:" ++ toString id)

def isHello (event : ServerEvent) : Bool :=
  match event with
  | .hello _ => true
  | _ => false

/-- A lag loses broadcasts only. -/
def survives (lost : List ServerFrame) (f : ServerFrame) : Bool :=
  f.id.isSome || isHello f.event || decide (f ∉ lost)

def mediaDownloadKey (chatJid messageId : String) : String := chatJid ++ "\n" ++ messageId

/-! ## The service -/

structure Service where
  connected : Bool := false
  protocolCompatible : Bool := false
  daemonGeneration : ℕ := 0
  resourceSequences : String → ℕ := fun _ => 0
  nextRequestId : ℕ := 1
  unreadTotal : ℕ := 0
  chats : List Chat := []
  selectedChatJid : String := ""
  panelVisible : Bool := false
  /-- The keys of the downloads that are marked as busy. -/
  mediaDownloadRequests : List String := []
  mediaDownloadRequestIds : List (ℕ × String) := []
  /-- The requests written to the socket that the daemon has not read. -/
  requests : List ClientFrame := []

namespace Service

def resetRequestState (s : Service) : Service :=
  { s with mediaDownloadRequests := [], mediaDownloadRequestIds := [] }

/-- The first frame of a newer generation. -/
def enterGeneration (s : Service) (generation : ℕ) : Service :=
  if s.daemonGeneration < generation then
    { s with daemonGeneration := generation, resourceSequences := fun _ => 0 }.resetRequestState
  else s

/-- A frame against the newest sequence of its resource. -/
def takeFrame (s : Service) (frame : ServerFrame) : Service × Bool :=
  if frame.sequence = 0 ∨ frame.resourceKey = "" then (s, true)
  else if frame.sequence ≤ s.resourceSequences frame.resourceKey then (s, false)
  else
    ({ s with resourceSequences := fun key =>
        if key = frame.resourceKey then frame.sequence else s.resourceSequences key }, true)

/-- `acceptFrame`: the service, and whether the frame is accepted. -/
def acceptFrame (s : Service) (frame : ServerFrame) : Service × Bool :=
  if 0 < frame.generation ∧ 0 < s.daemonGeneration ∧ frame.generation < s.daemonGeneration then
    (s, false)
  else (s.enterGeneration frame.generation).takeFrame frame

/-- `send`, and its request id; 0 when nothing is sent. -/
def send (s : Service) (command : ClientCommand) : Service × ℕ :=
  if s.connected = false ∨ s.protocolCompatible = false then (s, 0)
  else
    ({ s with
      nextRequestId := s.nextRequestId + 1
      requests := s.requests ++ [⟨s.nextRequestId, command⟩] }, s.nextRequestId)

def refreshMetadata (s : Service) : Service :=
  [ClientCommand.getState, .listChats 500, .listAvatars, .listTextOutbox, .listVoiceOutbox].foldl
    (fun s command => (s.send command).1) s

def handleHello (s : Service) (version : ℕ) : Service :=
  if version ≠ protocolVersion then { s with protocolCompatible := false }
  else { s with protocolCompatible := true }.refreshMetadata

def selectedChat (s : Service) : Option Chat :=
  s.chats.find? (fun chat => chat.jid = s.selectedChatJid)

/-- The selected chat stays in the list, although the daemon does not list it. -/
def chatsPreservingSelection (s : Service) (incoming : List Chat) : List Chat :=
  match s.selectedChat with
  | none => incoming
  | some selected =>
    if selected.jid = "" ∨ incoming.any (fun chat => chat.jid = selected.jid) = true then incoming
    else selected :: incoming

def handleChats (s : Service) (chats : List Chat) : Service :=
  let listed := { s with chats := s.chatsPreservingSelection chats }
  match listed.chats.head? with
  | some first =>
    if listed.selectedChatJid = "" ∧ listed.panelVisible = true then
      { listed with selectedChatJid := first.jid }
    else listed
  | none => listed

def handleInvalidation (s : Service) (resource : Resource) : Service :=
  match resource with
  | .chats => (s.send (.listChats 500)).1
  | .messages => s

/-- An answer to a download ends the request; only an error ends the download. -/
def finishMediaDownloadRequest (s : Service) (id : Option ℕ) (isError : Bool) : Service :=
  match id.bind (fun id => s.mediaDownloadRequestIds.lookup id) with
  | none => s
  | some key =>
    { s with
      mediaDownloadRequestIds := s.mediaDownloadRequestIds.filter (fun r => some r.1 ≠ id)
      mediaDownloadRequests :=
        if isError then s.mediaDownloadRequests.filter (fun k => k ≠ key)
        else s.mediaDownloadRequests }

def clearMediaDownloadState (s : Service) (chatJid messageId : String) : Service :=
  { s with mediaDownloadRequests :=
      s.mediaDownloadRequests.filter (fun k => k ≠ mediaDownloadKey chatJid messageId) }

def isError : ServerEvent → Bool
  | .error _ => true
  | _ => false

/-- What `handleLine` does with an accepted frame. -/
def handleEvent (s : Service) : ServerEvent → Service
  | .state unreadTotal => { s with unreadTotal }
  | .chats chats => s.handleChats chats
  | .mediaDownloaded chatJid messageId => s.clearMediaDownloadState chatJid messageId
  | .mediaDownloadFailed chatJid messageId => s.clearMediaDownloadState chatJid messageId
  | .invalidated resource _ => s.handleInvalidation resource
  | .unread total => { s with unreadTotal := total }
  | _ => s

/-- A frame that is no hello. -/
def handleFrame (s : Service) (frame : ServerFrame) : Service :=
  if s.protocolCompatible = false then s
  else
    let (accepting, accepted) := s.acceptFrame frame
    let finished := accepting.finishMediaDownloadRequest frame.id (isError frame.event)
    if accepted then finished.handleEvent frame.event else finished

def handleLine (s : Service) (frame : ServerFrame) : Service :=
  match frame.event with
  | .hello version =>
    let (accepting, accepted) := s.acceptFrame frame
    if accepted then accepting.handleHello version else accepting
  | _ => s.handleFrame frame

/-- What may be downloaded: images, stickers that are no Lottie animation, videos and audio. -/
def downloadable : MessageMedia → Bool
  | .image .. => true
  | .sticker _ _ _ _ _ _ _ lottie _ => !lottie
  | .video .. => true
  | .audio .. => true
  | _ => false

def downloadMedia (s : Service) (message : Message) : Service :=
  let key := mediaDownloadKey message.chatJid message.id
  if message.chatJid = "" ∨ message.id = "" ∨ key ∈ s.mediaDownloadRequests ∨
      message.media.any downloadable = false then s
  else match s.send (.downloadMedia message.chatJid message.id) with
    | (_, 0) => s
    | (sent, requestId) =>
      { sent with
        mediaDownloadRequests := key :: sent.mediaDownloadRequests
        mediaDownloadRequestIds := sent.mediaDownloadRequestIds ++ [(requestId, key)] }

/-- A request expires in the shell. -/
def expireRequest (s : Service) (id : ℕ) : Service := s.finishMediaDownloadRequest (some id) true

/-- The socket connects. -/
def connect (s : Service) : Service :=
  { s with connected := true, protocolCompatible := false, requests := [] }.resetRequestState

/-- The connection is lost. -/
def disconnect (s : Service) : Service :=
  { s with connected := false, protocolCompatible := false, requests := [] }.resetRequestState

/-! ## What the handlers leave alone -/

/-- The connection and what is known of its frames, and the unread badge. -/
structure SameFrames (s s' : Service) : Prop where
  connected : s'.connected = s.connected
  compatible : s'.protocolCompatible = s.protocolCompatible
  generation : s'.daemonGeneration = s.daemonGeneration
  sequences : s'.resourceSequences = s.resourceSequences
  unreadTotal : s'.unreadTotal = s.unreadTotal

theorem SameFrames.refl (s : Service) : SameFrames s s := ⟨rfl, rfl, rfl, rfl, rfl⟩

theorem SameFrames.trans {s s' s'' : Service} (h : SameFrames s s') (h' : SameFrames s' s'') :
    SameFrames s s'' where
  connected := h'.connected.trans h.connected
  compatible := h'.compatible.trans h.compatible
  generation := h'.generation.trans h.generation
  sequences := h'.sequences.trans h.sequences
  unreadTotal := h'.unreadTotal.trans h.unreadTotal

theorem sameFrames_send (s : Service) (command : ClientCommand) :
    SameFrames s (s.send command).1 := by
  unfold send
  split <;> exact ⟨rfl, rfl, rfl, rfl, rfl⟩

theorem sameFrames_refreshMetadata (s : Service) : SameFrames s s.refreshMetadata :=
  (sameFrames_send s _).trans ((sameFrames_send _ _).trans ((sameFrames_send _ _).trans
    ((sameFrames_send _ _).trans (sameFrames_send _ _))))

theorem sameFrames_handleChats (s : Service) (chats : List Chat) :
    SameFrames s (s.handleChats chats) := by
  unfold handleChats
  dsimp only
  split
  · split <;> exact ⟨rfl, rfl, rfl, rfl, rfl⟩
  · exact ⟨rfl, rfl, rfl, rfl, rfl⟩

theorem sameFrames_handleInvalidation (s : Service) (resource : Resource) :
    SameFrames s (s.handleInvalidation resource) := by
  cases resource with
  | chats => exact sameFrames_send s _
  | messages => exact SameFrames.refl s

theorem sameFrames_finishMediaDownloadRequest (s : Service) (id : Option ℕ) (isError : Bool) :
    SameFrames s (s.finishMediaDownloadRequest id isError) := by
  unfold finishMediaDownloadRequest
  split <;> exact ⟨rfl, rfl, rfl, rfl, rfl⟩

/-- A frame is taken within its generation. -/
theorem daemonGeneration_takeFrame (s : Service) (f : ServerFrame) :
    (s.takeFrame f).1.daemonGeneration = s.daemonGeneration := by
  unfold takeFrame
  split
  · rfl
  · split <;> rfl

theorem daemonGeneration_acceptFrame (s : Service) (f : ServerFrame) :
    (s.acceptFrame f).1.daemonGeneration = s.daemonGeneration ∨
      (s.acceptFrame f).1.daemonGeneration = f.generation := by
  unfold acceptFrame
  split
  · exact Or.inl rfl
  · rw [daemonGeneration_takeFrame]
    unfold enterGeneration
    split
    · exact Or.inr rfl
    · exact Or.inl rfl

theorem handleLine_of_not_hello (s : Service) {f : ServerFrame} (hhello : isHello f.event = false) :
    s.handleLine f = s.handleFrame f := by
  unfold handleLine
  split
  · rename_i hevent
    rw [hevent] at hhello
    cases hhello
  · rfl

/-- An event changes no sequence and no generation. -/
theorem sameFrames_handleEvent_other (s : Service) (event : ServerEvent) (key : String) :
    (s.handleEvent event).resourceSequences key = s.resourceSequences key ∧
      (s.handleEvent event).daemonGeneration = s.daemonGeneration := by
  cases event with
  | chats chats =>
    have hsame := sameFrames_handleChats s chats
    exact ⟨congrFun hsame.sequences key, hsame.generation⟩
  | invalidated resource k =>
    have hsame := sameFrames_handleInvalidation s resource
    exact ⟨congrFun hsame.sequences key, hsame.generation⟩
  | _ => exact ⟨rfl, rfl⟩

end Service

end OmarchyWhatsapp
