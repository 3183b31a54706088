import OmarchyWhatsapp.Protocol
import OmarchyWhatsapp.Relational.Order
import OmarchyWhatsapp.Relational.Table

/-!
# The text outbox

`text_outbox` holds the texts the user sent until they are delivered. One worker claims
the oldest queued text, hands it to the transport and, when the result arrives, completes
or fails the row; enqueueing, retrying, discarding and the reconnect run in other tasks
between any two of these steps.
-/

namespace OmarchyWhatsapp

open Relational

/-! ## The table -/

inductive TextOutboxStatus where
  | queued
  | sending
  | failed
deriving DecidableEq, Repr

structure TextOutboxRow where
  deliveryId : String
  chatJid : String
  text : String
  messageId : String
  status : TextOutboxStatus := .queued
  error : Option String := none
  createdAt : ℤ
  mentions : List String := []
  quote : Option MessageQuote := none
deriving DecidableEq, Repr

structure PendingTextMessage where
  quote : Option MessageQuote := none
  mentions : List String := []
  deliveryId : String
  chatJid : String
  text : String
  messageId : String
deriving DecidableEq, Repr

/-- What the worker needs to send the text. -/
def TextOutboxRow.pending (r : TextOutboxRow) : PendingTextMessage :=
  ⟨r.quote, r.mentions, r.deliveryId, r.chatJid, r.text, r.messageId⟩

abbrev TextOutbox := Table TextOutboxRow TextOutboxRow.deliveryId

/-- How many failed texts are kept. -/
def failedTextsKept : ℕ := 32

variable (plan : QueryPlan)

/-- The failed texts past the newest 32,
`WHERE status = 2 ORDER BY created_at DESC LIMIT -1 OFFSET 32`. -/
def evictedTexts (rows : List TextOutboxRow) : List TextOutboxRow :=
  (plan.orderBy (fun a b => decide (b.createdAt ≤ a.createdAt))
    (rows.filter (fun r => r.status = .failed))).drop failedTextsKept

/-- `enqueue_text_message`. -/
def enqueueTextMessage (t : TextOutbox) (message : PendingTextMessage) (createdAt : ℤ) :
    Except String (TextOutbox × Bool) :=
  match t.find? message.deliveryId with
  | some existing =>
    if (existing.chatJid, existing.text, existing.messageId, existing.mentions, existing.quote)
        = (message.chatJid, message.text, message.messageId, message.mentions, message.quote)
    then .ok (t, false)
    else .error "delivery ID is already assigned to another message"
  | none =>
    let inserted := t.insertOrIgnore
      { deliveryId := message.deliveryId, chatJid := message.chatJid, text := message.text,
        messageId := message.messageId, createdAt, mentions := message.mentions,
        quote := message.quote }
    .ok (inserted.deleteWhere (fun r =>
      ((evictedTexts plan inserted.rows).map (·.deliveryId)).contains r.deliveryId), true)

/-- The next text to send, `WHERE status = 0 ORDER BY created_at, delivery_id LIMIT 1`. -/
def nextText (t : TextOutbox) : Option TextOutboxRow :=
  (plan.orderBy (fun a b => decide (a.createdAt < b.createdAt) ||
      (decide (a.createdAt = b.createdAt) && decide (a.deliveryId ≤ b.deliveryId)))
    (t.rows.filter (fun r => r.status = .queued))).head?

/-- `UPDATE text_outbox SET status = …, error = … WHERE …`. -/
def setStatus (t : TextOutbox) (p : TextOutboxRow → Bool) (status : TextOutboxStatus)
    (error : Option String) : TextOutbox :=
  t.updateWhere p (fun r => { r with status, error })

/-- `claim_text_message`. -/
def claimTextMessage (t : TextOutbox) : TextOutbox × Option PendingTextMessage :=
  match nextText plan t with
  | some r => (setStatus t (fun x => x.deliveryId = r.deliveryId) .sending none, some r.pending)
  | none => (t, none)

/-- `fail_text_message`. -/
def failTextMessage (t : TextOutbox) (deliveryId error : String) : TextOutbox × Bool :=
  let claimed := fun r : TextOutboxRow =>
    decide (r.deliveryId = deliveryId) && decide (r.status = .sending)
  (setStatus t claimed .failed (some error), t.rows.any claimed)

/-- `retry_text_message`. -/
def retryTextMessage (t : TextOutbox) (deliveryId : String) : TextOutbox × Bool :=
  let failed := fun r : TextOutboxRow =>
    decide (r.deliveryId = deliveryId) && decide (r.status = .failed)
  (setStatus t failed .queued none, t.rows.any failed)

/-- `retry_all_text_messages`. -/
def retryAllTextMessages (t : TextOutbox) : TextOutbox × ℕ :=
  let stopped := fun r : TextOutboxRow =>
    decide (r.status = .sending) || decide (r.status = .failed)
  (setStatus t stopped .queued none, t.rows.countP stopped)

/-- `complete_text_message`. -/
def completeTextMessage (t : TextOutbox) (deliveryId : String) : TextOutbox × Bool :=
  let claimed := fun r : TextOutboxRow =>
    decide (r.deliveryId = deliveryId) && decide (r.status = .sending)
  (t.deleteWhere claimed, t.rows.any claimed)

/-- `discard_text_message`. -/
def discardTextMessage (t : TextOutbox) (deliveryId : String) : TextOutbox × Bool :=
  let waiting := fun r : TextOutboxRow => decide (r.deliveryId = deliveryId) &&
    (decide (r.status = .queued) || decide (r.status = .failed))
  (t.deleteWhere waiting, t.rows.any waiting)

/-- What `open` does to the outbox: a text that was being sent is queued again. -/
def recoverTextOutbox (t : TextOutbox) : TextOutbox :=
  setStatus t (fun r => r.status = .sending) .queued none

/-! ## The worker -/

/-- Where `deliver_pending_text` stands: between claims, waiting for the transport, or with
a result that is not written yet. -/
inductive TextSender where
  | idle
  | sending (message : PendingTextMessage)
  | succeeded (message : PendingTextMessage)
  | refused (message : PendingTextMessage) (error : String)
deriving DecidableEq, Repr

/-- The delivery handed to the transport whose result is not written yet. -/
def TextSender.inFlight : TextSender → Option PendingTextMessage
  | .idle => none
  | .sending message => some message
  | .succeeded message => some message
  | .refused message _ => some message

structure TextDelivery where
  outbox : TextOutbox := ∅
  sender : TextSender := .idle

/-- The steps of the worker and of the tasks beside it. -/
inductive TextStep where
  | enqueue (message : PendingTextMessage) (createdAt : ℤ)
  | claim
  | networkOk
  | networkError (error : String)
  | complete
  | fail
  | retry (deliveryId : String)
  | discard (deliveryId : String)
  | retryAll
  | reopen
  | clearAccountData
deriving DecidableEq, Repr

/-- One step; a step of the worker that is not its next one changes nothing. -/
def TextDelivery.step (s : TextDelivery) : TextStep → TextDelivery
  | .enqueue message createdAt =>
    { s with outbox := ((enqueueTextMessage plan s.outbox message createdAt).toOption.map
        Prod.fst).getD s.outbox }
  | .claim => match s.sender with
    | .idle => match claimTextMessage plan s.outbox with
      | (outbox, some message) => ⟨outbox, .sending message⟩
      | (outbox, none) => ⟨outbox, .idle⟩
    | _ => s
  | .networkOk => match s.sender with
    | .sending message => { s with sender := .succeeded message }
    | _ => s
  | .networkError error => match s.sender with
    | .sending message => { s with sender := .refused message error }
    | _ => s
  | .complete => match s.sender with
    | .succeeded message => ⟨(completeTextMessage s.outbox message.deliveryId).1, .idle⟩
    | _ => s
  | .fail => match s.sender with
    | .refused message error => ⟨(failTextMessage s.outbox message.deliveryId error).1, .idle⟩
    | _ => s
  | .retry deliveryId => { s with outbox := (retryTextMessage s.outbox deliveryId).1 }
  | .discard deliveryId => { s with outbox := (discardTextMessage s.outbox deliveryId).1 }
  | .retryAll => { s with outbox := (retryAllTextMessages s.outbox).1 }
  -- the worker dies with the process
  | .reopen => ⟨recoverTextOutbox s.outbox, .idle⟩
  | .clearAccountData => { s with outbox := ∅ }

end OmarchyWhatsapp
