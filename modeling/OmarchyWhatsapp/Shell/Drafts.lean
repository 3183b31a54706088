import OmarchyWhatsapp.Outbox.TextOutbox

/-!
# Drafts and their deliveries

The composer of the shell holds a draft. Every send of the draft writes a `send_message` request
under a new delivery id, and the draft stays in the composer until `text_accepted` answers the
request. The request may be lost, expire or be answered too late at any point on its way.
-/

namespace OmarchyWhatsapp

open Relational

/-! ## The command -/

/-- What the shell quotes, `replyTarget` of the service. -/
structure ReplyTarget where
  messageId : String
  senderJid : String
  senderName : String
  text : String
deriving DecidableEq, Repr

/-- The fields of a `send_message` request. -/
structure SendMessage where
  chatJid : String
  text : String
  mentions : List String
  /-- The message and the sender that the text replies to. -/
  replyTo : Option (String × String)
  deliveryId : String
deriving DecidableEq, Repr

/-- What the sending of a text takes from elsewhere: the mentions that the composer picked are
written into the text, the daemon parses JIDs, looks up the quoted message and hashes the id. -/
structure SendContext where
  composeMentions : String → List String → String × List String
  parseJid : String → Except String String
  validateMentions : String → String → List String → Except String (List String)
  resolveReply : String → Option (String × String) → Except String (Option MessageQuote)
  stableMessageId : String → String

def maxDeliveryIdBytes : ℕ := 128

def maxTextBytes : ℕ := 65536

/-- `text_outbox::validate_delivery_id`. -/
def validateDeliveryId (deliveryId : String) : Except String Unit :=
  if deliveryId = "" then .error "delivery ID cannot be empty"
  else if maxDeliveryIdBytes < deliveryId.utf8ByteSize then .error "delivery ID is too large"
  else if deliveryId.toList.all (fun c => c.isAlphanum || c = '-' || c = '_' || c = '.')
    then .ok ()
  else .error "delivery ID contains unsupported characters"

/-- `text_outbox::validate`. -/
def validateText (deliveryId text : String) : Except String String := do
  validateDeliveryId deliveryId
  let text := trim text
  if text = "" then .error "message cannot be empty"
  else if maxTextBytes < text.utf8ByteSize then .error "message is too large"
  else .ok text

/-- The text that `Command::SendMessage` enqueues. -/
def SendContext.prepare (context : SendContext) (request : SendMessage) :
    Except String PendingTextMessage := do
  let text ← validateText request.deliveryId request.text
  let requested ← context.parseJid request.chatJid
  let mentions ← context.validateMentions requested text request.mentions
  let quote ← context.resolveReply requested request.replyTo
  .ok { quote, mentions, deliveryId := request.deliveryId, chatJid := requested, text,
        messageId := context.stableMessageId request.deliveryId }

/-- The answer to a `send_message` request. -/
inductive TextResponse where
  | textAccepted (deliveryId : String)
  | error (message : String)
deriving DecidableEq, Repr

/-! ## Shell, connection and daemon -/

/-- What `trim` of the shell's engine removes. -/
def isShellWhitespace (c : Char) : Bool :=
  (0x09 ≤ c.toNat && c.toNat ≤ 0x0D) || c.toNat = 0x20 || c.toNat = 0xA0 || c.toNat = 0xFEFF ||
    c.toNat = 0x1680 || (0x2000 ≤ c.toNat && c.toNat ≤ 0x200A) || c.toNat = 0x2028 ||
    c.toNat = 0x2029 || c.toNat = 0x202F || c.toNat = 0x205F || c.toNat = 0x3000

/-- What the composer holds. -/
structure Draft where
  chatJid : String
  text : String
  selections : List String := []
  replyTarget : Option ReplyTarget := none
deriving DecidableEq, Repr

/-- An entry of `textMessageRequests`. -/
structure TextMessageRequest where
  id : ℕ
  deliveryId : String
  chatJid : String
  text : String
  replyTarget : Option ReplyTarget
deriving DecidableEq, Repr

/-- A request on its way: the connection it was written to and the draft it was made from. -/
structure Submission where
  connection : ℕ
  id : ℕ
  draft : ℕ
  request : SendMessage
deriving DecidableEq, Repr

/-- An answer on its way. -/
structure Reply where
  connection : ℕ
  id : ℕ
  response : TextResponse
deriving DecidableEq, Repr

structure DraftSession where
  /-- The socket is connected and the daemon's hello is compatible. -/
  connected : Bool := false
  /-- The connection that the socket is on. -/
  connection : ℕ := 0
  nextRequestId : ℕ := 1
  nextDeliverySerial : ℕ := 0
  textMessageRequests : List TextMessageRequest := []
  draft : Draft
  /-- Counts the drafts: a draft that is edited or cleared is another one. -/
  drafts : ℕ := 0
  /-- The requests that the shell has written and the daemon has not read. -/
  lines : List Submission := []
  /-- The commands that the daemon runs. -/
  jobs : List Submission := []
  replies : List Reply := []
  delivery : TextDelivery := {}
  /-- The draft of each text that `text_outbox` accepted, in order. -/
  accepted : List ℕ := []

inductive DraftStep where
  | edit (draft : Draft)
  /-- The user presses send; `now` is the clock in milliseconds. -/
  | send (now : ℕ)
  /-- The daemon reads the next request of a connection and starts a job for it. -/
  | read (connection : ℕ)
  /-- The daemon reads a request and has no queue slot left. -/
  | refuse (connection : ℕ)
  /-- The job of a request runs; `now` is the clock in seconds. -/
  | handle (id : ℕ) (now : ℤ)
  /-- The deadline of a job passes before it has run. -/
  | timeOut (id : ℕ)
  /-- The daemon gives a connection up, with its jobs and answers. -/
  | hangUp (connection : ℕ)
  /-- The next answer reaches the shell. -/
  | receive
  /-- The watchdog of the shell expires a request. -/
  | expire (id : ℕ)
  /-- A frame of a newer generation arrives on the same connection. -/
  | newGeneration
  | disconnect
  | connect
  /-- The worker of the outbox, another command on it or another client. -/
  | outbox (step : TextStep)
deriving DecidableEq, Repr

/-- The user sends the draft. -/
def DraftStep.isSend : DraftStep → Bool
  | .send _ => true
  | _ => false

namespace DraftSession

/-- The part of `resetRequestState` that concerns texts. -/
def resetRequestState (s : DraftSession) : DraftSession := { s with textMessageRequests := [] }

/-- The composer after a change; the same text typed again is another draft. -/
def setDraft (s : DraftSession) (draft : Draft) : DraftSession :=
  { s with draft, drafts := s.drafts + 1 }

/-- `sendMessage` of the service. -/
def sendMessage (context : SendContext) (s : DraftSession) (now : ℕ) : DraftSession :=
  if s.draft.chatJid = "" ∨ s.draft.text.toList.all isShellWhitespace then s
  else
    let serial := s.nextDeliverySerial + 1
    let deliveryId := "qml-" ++ toString now ++ "-" ++ toString serial
    let composed := context.composeMentions s.draft.text s.draft.selections
    if s.connected then
      { s with
        nextDeliverySerial := serial
        nextRequestId := s.nextRequestId + 1
        lines := s.lines ++ [⟨s.connection, s.nextRequestId, s.drafts,
          { chatJid := s.draft.chatJid, text := composed.1, mentions := composed.2
            replyTo := s.draft.replyTarget.map (fun r => (r.messageId, r.senderJid))
            deliveryId }⟩]
        textMessageRequests := s.textMessageRequests ++
          [⟨s.nextRequestId, deliveryId, s.draft.chatJid, s.draft.text, s.draft.replyTarget⟩] }
    else { s with nextDeliverySerial := serial }

/-- `onTextMessageAccepted` of the panel, once the service dropped the reply target of the
request. -/
def textMessageAccepted (s : DraftSession) (pending : TextMessageRequest) : DraftSession :=
  let replyTarget := if s.draft.replyTarget = pending.replyTarget then none
    else s.draft.replyTarget
  if s.draft.chatJid = pending.chatJid ∧ replyTarget = none ∧ s.draft.text = pending.text
  then s.setDraft { s.draft with text := "", selections := [], replyTarget }
  else if replyTarget = s.draft.replyTarget then s
  else s.setDraft { s.draft with replyTarget }

/-- `finishTextMessageRequest`. -/
def finishTextMessageRequest (s : DraftSession) (id : ℕ) (response : TextResponse) :
    DraftSession :=
  match s.textMessageRequests.find? (fun r => r.id = id) with
  | none => s
  | some pending =>
    let finished := { s with
      textMessageRequests := s.textMessageRequests.filter (fun r => r.id ≠ id) }
    if response = .textAccepted pending.deliveryId then finished.textMessageAccepted pending
    else finished

/-- The daemon answers a request that it has in hand. -/
def answer (s : DraftSession) (submission : Submission) (response : TextResponse) :
    DraftSession :=
  { s with replies := s.replies ++ [⟨submission.connection, submission.id, response⟩] }

variable (plan : QueryPlan) (context : SendContext)

/-- `Command::SendMessage`. -/
def handleSendMessage (s : DraftSession) (submission : Submission) (now : ℤ) : DraftSession :=
  match context.prepare submission.request with
  | .error message => s.answer submission (.error message)
  | .ok message =>
    match enqueueTextMessage plan s.delivery.outbox message now with
    | .error detail => s.answer submission (.error detail)
    | .ok (outbox, inserted) =>
      { s with
        delivery := { s.delivery with outbox }
        accepted := if inserted then s.accepted ++ [submission.draft] else s.accepted }.answer
          submission (.textAccepted message.deliveryId)

def step (s : DraftSession) : DraftStep → DraftSession
  | .edit draft => s.setDraft draft
  | .send now => s.sendMessage context now
  | .read connection => match s.lines.find? (fun x => x.connection = connection) with
    | some x => { s with lines := s.lines.erase x, jobs := s.jobs ++ [x] }
    | none => s
  | .refuse connection => match s.lines.find? (fun x => x.connection = connection) with
    | some x => { s with lines := s.lines.erase x }.answer x (.error "too many active requests")
    | none => s
  | .handle id now => match s.jobs.find? (fun x => x.id = id) with
    | some x => { s with jobs := s.jobs.erase x }.handleSendMessage plan context x now
    | none => s
  | .timeOut id => match s.jobs.find? (fun x => x.id = id) with
    | some x => { s with jobs := s.jobs.erase x }.answer x (.error "request timed out")
    | none => s
  | .hangUp connection =>
    { s with
      lines := s.lines.filter (fun x => x.connection ≠ connection)
      jobs := s.jobs.filter (fun x => x.connection ≠ connection)
      replies := s.replies.filter (fun x => x.connection ≠ connection) }
  | .receive => match s.replies.find? (fun x => s.connected && x.connection = s.connection) with
    | some x => { s with replies := s.replies.erase x }.finishTextMessageRequest x.id x.response
    | none => s
  | .expire id => s.finishTextMessageRequest id (.error "")
  | .newGeneration => s.resetRequestState
  | .disconnect => { s.resetRequestState with connected := false }
  | .connect => { s.resetRequestState with connected := true, connection := s.connection + 1 }
  | .outbox a => { s with delivery := s.delivery.step plan a }

end DraftSession

end OmarchyWhatsapp
