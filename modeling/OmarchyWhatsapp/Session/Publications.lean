import OmarchyWhatsapp.Outbox.MarkRead
import OmarchyWhatsapp.Outbox.TextOutbox
import OmarchyWhatsapp.Relational.Snapshots
import OmarchyWhatsapp.Session.RevisionClock

/-!
# Publishing the unread total and the text outbox

The daemon publishes the unread total in `unread` and `state` frames and the text outbox in
`text_outbox` frames. A publisher reads the value, stamps it and sends it, in three steps; other
tasks change the value and publish it in between. The reducer, the gates, the worker and the
window of "unread" each run one publisher at a time.
-/

namespace OmarchyWhatsapp

open Relational

variable (plan : QueryPlan)

structure TextOutboxEntry where
  deliveryId : String
  chatJid : String
  text : String
  status : TextOutboxStatus
  error : Option String
  createdAt : ℤ
deriving DecidableEq, Repr

/-- `text_outbox`. -/
def textOutbox (t : TextOutbox) : List TextOutboxEntry :=
  (plan.orderBy (fun a b => decide (a.createdAt < b.createdAt) ||
      (decide (a.createdAt = b.createdAt) && decide (a.deliveryId ≤ b.deliveryId))) t.rows).map
    fun r => ⟨r.deliveryId, r.chatJid, r.text, r.status, r.error, r.createdAt⟩

/-! ## Who publishes -/

inductive PublishLane where
  | free
  | reducer
  | readGate
  | window
  | textCommand
  | textClaim
  | textResult
deriving DecidableEq, Repr

/-- How an operation on the store goes on: without a word, with `publish`, or with
`broadcast_unread`. -/
inductive Announcement where
  | silent
  | published
  | scheduled
deriving DecidableEq, Repr

/-- Whether `receive_message` finds the row new. -/
def LiveArrival.isNew (s : Store) (a : LiveArrival) : Bool :=
  if a.focused && !a.message.fromMe then
    (insertMessageWithReadIntent plan s a.message a.chatName a.isGroup
      ⟨a.message.id, a.message.senderJid, a.isGroup⟩).2
  else (insertMessage plan s a.message a.chatName a.isGroup (!a.message.fromMe && !a.focused)).2

/-- Where `broadcast_text_outbox` runs after a step, if it does. -/
def TextDelivery.announces (d : TextDelivery) : TextStep → Option PublishLane
  | .enqueue message createdAt =>
    if (enqueueTextMessage plan d.outbox message createdAt).toOption.isSome then some .textCommand
    else none
  | .retry deliveryId =>
    if (retryTextMessage d.outbox deliveryId).2 then some .textCommand else none
  | .discard deliveryId =>
    if (discardTextMessage d.outbox deliveryId).2 then some .textCommand else none
  | .claim => match d.sender with
    | .idle => if (claimTextMessage plan d.outbox).2.isSome then some .textClaim else none
    | _ => none
  | .complete => match d.sender with
    | .succeeded _ => some .textResult
    | _ => none
  | .fail => match d.sender with
    | .refused _ _ => some .textResult
    | _ => none
  -- `on_connected` re-arms the texts and leaves the publishing to the worker
  | _ => none

/-- The lanes that have to be empty: the gate for a command, and the worker's own publishes. -/
def TextStep.waitsFor : TextStep → List PublishLane
  | .enqueue _ _ | .retry _ | .discard _ | .clearAccountData => [.textCommand, .textClaim]
  | .claim => [.textCommand, .textClaim, .textResult]
  | .networkOk | .networkError _ | .complete | .fail => [.textClaim, .textResult]
  | .retryAll | .reopen => []

structure Publications where
  store : Store
  delivery : TextDelivery := {}
  clock : RevisionClock := {}
  unread : Snapshots PublishLane ℕ := {}
  texts : Snapshots PublishLane (List TextOutboxEntry) := {}

inductive PublicationStep where
  | receiveMessage (arrival : LiveArrival)
  /-- `mark_read`, the last write of `MarkRead`. -/
  | markRead (chatJid : String)
  | write (op : Op) (announcement : Announcement)
  | text (a : TextStep)
  | clearAccountData
  /-- `set_status`, or a request for the state. -/
  | publishState
  /-- A request for the text outbox. -/
  | listTextOutbox
  | finishWindow
  | readUnread (p : Publisher PublishLane ℕ)
  | stampUnread (p : Publisher PublishLane ℕ)
  | sendUnread (p : Publisher PublishLane ℕ)
  | readTexts (p : Publisher PublishLane (List TextOutboxEntry))
  | stampTexts (p : Publisher PublishLane (List TextOutboxEntry))
  | sendTexts (p : Publisher PublishLane (List TextOutboxEntry))
  /-- Another frame is stamped. -/
  | stampOther

namespace Publications

def unreadBusy (s : Publications) (lane : PublishLane) : Bool :=
  s.unread.publishers.any (·.lane = lane)

def textsBusy (s : Publications) (lane : PublishLane) : Bool :=
  s.texts.publishers.any (·.lane = lane)

def startUnread (s : Publications) (lane : PublishLane) : Publications :=
  { s with unread := s.unread.start ⟨lane, .started⟩ }

def startTexts (s : Publications) (lane : PublishLane) : Publications :=
  { s with texts := s.texts.start ⟨lane, .started⟩ }

/-- What follows an operation on the store. -/
def announce (s : Publications) : Announcement → Publications
  | .silent => s
  | .published => s.startUnread .free
  | .scheduled => { s with unread := s.unread.record .window }

def step (s : Publications) : PublicationStep → Publications
  | .receiveMessage arrival =>
    if s.unreadBusy .reducer then s
    else
      let stored := { s with store := s.store.apply plan arrival.op }
      if arrival.isNew plan s.store then stored.startUnread .reducer else stored
  | .markRead chatJid =>
    if s.unreadBusy .readGate then s
    else { s with store := s.store.apply plan (.markRead chatJid) }.startUnread .readGate
  | .write op announcement =>
    { s with store := s.store.apply plan op }.announce announcement
  | .text a =>
    if a.waitsFor.any s.textsBusy || a = .reopen || a = .clearAccountData then s
    else
      let stepped := { s with delivery := s.delivery.step plan a }
      match s.delivery.announces plan a with
      | some lane => stepped.startTexts lane
      | none => stepped
  | .clearAccountData =>
    if (TextStep.clearAccountData).waitsFor.any s.textsBusy || s.unreadBusy .readGate then s
    else
      { s with
        store := .empty
        delivery := s.delivery.step plan .clearAccountData
        -- the total is not read but known
        unread := s.unread.start ⟨.free, .holding 0⟩ }
  | .publishState => s.startUnread .free
  | .listTextOutbox => s.startTexts .free
  | .finishWindow =>
    if s.unreadBusy .window then s else { s with unread := s.unread.finish .window }
  | .readUnread p => { s with unread := s.unread.read p (unreadTotal s.store) }
  | .stampUnread p =>
    if (s.unread.holds p).isSome then
      { s with
        clock := s.clock.takeRevision.1
        unread := s.unread.stamp p s.clock.takeRevision.2 }
    else s
  | .sendUnread p => { s with unread := s.unread.send p }
  | .readTexts p => { s with texts := s.texts.read p (textOutbox plan s.delivery.outbox) }
  | .stampTexts p =>
    if (s.texts.holds p).isSome then
      { s with
        clock := s.clock.takeRevision.1
        texts := s.texts.stamp p s.clock.takeRevision.2 }
    else s
  | .sendTexts p => { s with texts := s.texts.send p }
  | .stampOther => { s with clock := s.clock.takeRevision.1 }

/-! ## When the newest frames are current -/

/-- Once all publishers of a resource are done, its newest frame has the current value. -/
structure ShowsCurrent (s : Publications) : Prop where
  unread : s.unread.Finished → s.unread.Shows (unreadTotal s.store)
  texts : s.texts.Finished → s.texts.Shows (textOutbox plan s.delivery.outbox)

/-- A publisher stamps the current value, or another one of the same resource has yet to
stamp. -/
def StampsLatest (s : Publications) : PublicationStep → Prop
  | .stampUnread p =>
    ∀ value ∈ s.unread.holds p, value = unreadTotal s.store ∨ s.unread.OutstandingBut p
  | .stampTexts p =>
    ∀ value ∈ s.texts.holds p,
      value = textOutbox plan s.delivery.outbox ∨ s.texts.OutstandingBut p
  | _ => True

/-- A publisher has yet to stamp after each change of its value. -/
structure ChangeFollowed (s : Publications) (a : PublicationStep) : Prop where
  unread : unreadTotal (s.step plan a).store ≠ unreadTotal s.store →
    (s.step plan a).unread.Outstanding
  texts : textOutbox plan (s.step plan a).delivery.outbox ≠ textOutbox plan s.delivery.outbox →
    (s.step plan a).texts.Outstanding

structure Undisturbed (s : Publications) (a : PublicationStep) : Prop where
  latest : s.StampsLatest plan a
  followed : s.ChangeFollowed plan a
  below : s.clock.revision < u64Max

/-! ## Steps and runs -/

/-- Both resources are fresh. -/
structure Settled (s : Publications) : Prop where
  unread : s.unread.Fresh s.clock.revision (unreadTotal s.store)
  texts : s.texts.Fresh s.clock.revision (textOutbox plan s.delivery.outbox)

variable {plan} {s : Publications}

theorem takeRevision_of_below (hbelow : s.clock.revision < u64Max) :
    s.clock.takeRevision = ({ s.clock with revision := s.clock.revision + 1 },
      s.clock.revision + 1) := by
  rw [RevisionClock.takeRevision, saturatingSucc_of_lt hbelow]

/-- A step keeps the unread total fresh, as long as the total stays what it was. -/
theorem unread_step {total : ℕ} (h : s.unread.Fresh s.clock.revision total)
    (htotal : total = unreadTotal s.store) {a : PublicationStep} (hguard : s.Undisturbed plan a) :
    (s.step plan a).unread.Fresh (s.step plan a).clock.revision total := by
  have hrevision := takeRevision_of_below hguard.below
  cases a with
  | receiveMessage arrival =>
    simp only [step]
    split_ifs
    · exact h
    · exact h.start rfl _ _
    · exact h
  | markRead chatJid =>
    simp only [step]
    split_ifs
    · exact h
    · exact h.start rfl _ _
  | write op announcement =>
    cases announcement with
    | silent => exact h
    | published => exact h.start rfl _ _
    | scheduled => exact h.record _ _
  | text a =>
    simp only [step]
    split_ifs
    · exact h
    · split <;> exact h
  | clearAccountData =>
    simp only [step]
    split_ifs
    · exact h
    · exact h.start rfl _ _
  | publishState => exact h.start rfl _ _
  | finishWindow =>
    simp only [step]
    split_ifs
    · exact h
    · exact h.finish _
  | readUnread p =>
    subst htotal
    exact h.read p
  | stampUnread p =>
    simp only [step]
    split_ifs
    · rw [hrevision]
      subst htotal
      exact h.stamp p hguard.latest
    · exact h
  | sendUnread p => exact h.send p
  | stampTexts p =>
    simp only [step]
    split_ifs
    · rw [hrevision]
      exact h.change (Nat.le_succ _) (fun hne => absurd rfl hne)
    · exact h
  | stampOther =>
    simp only [step]
    rw [hrevision]
    exact h.change (Nat.le_succ _) (fun hne => absurd rfl hne)
  | listTextOutbox | readTexts p | sendTexts p => exact h

theorem texts_step {entries : List TextOutboxEntry} (h : s.texts.Fresh s.clock.revision entries)
    (hentries : entries = textOutbox plan s.delivery.outbox) {a : PublicationStep}
    (hguard : s.Undisturbed plan a) :
    (s.step plan a).texts.Fresh (s.step plan a).clock.revision entries := by
  have hrevision := takeRevision_of_below hguard.below
  cases a with
  | receiveMessage arrival =>
    simp only [step]
    split_ifs <;> exact h
  | markRead chatJid =>
    simp only [step]
    split_ifs <;> exact h
  | write op announcement => cases announcement <;> exact h
  | text a =>
    simp only [step]
    split_ifs
    · exact h
    · split
      · exact h.start rfl _ _
      · exact h
  | clearAccountData =>
    simp only [step]
    split_ifs <;> exact h
  | finishWindow =>
    simp only [step]
    split_ifs <;> exact h
  | listTextOutbox => exact h.start rfl _ _
  | readTexts p =>
    subst hentries
    exact h.read p
  | stampTexts p =>
    simp only [step]
    split_ifs
    · rw [hrevision]
      subst hentries
      exact h.stamp p hguard.latest
    · exact h
  | sendTexts p => exact h.send p
  | stampUnread p =>
    simp only [step]
    split_ifs
    · rw [hrevision]
      exact h.change (Nat.le_succ _) (fun hne => absurd rfl hne)
    · exact h
  | stampOther =>
    simp only [step]
    rw [hrevision]
    exact h.change (Nat.le_succ _) (fun hne => absurd rfl hne)
  | publishState | readUnread p | sendUnread p => exact h

theorem Settled.step (h : s.Settled plan) {a : PublicationStep} (hguard : s.Undisturbed plan a) :
    (s.step plan a).Settled plan where
  unread := (unread_step h.unread rfl hguard).change (Nat.le_refl _) hguard.followed.unread
  texts := (texts_step h.texts rfl hguard).change (Nat.le_refl _) hguard.followed.texts

/-- In every run whose steps all stamp the latest value or leave somebody to do so, the newest
frames are current whenever the publishers are done. -/
theorem shows_current_of_undisturbed (plan : QueryPlan) (store : Store) (delivery : TextDelivery)
    (clock : RevisionClock) {as : List PublicationStep}
    (hg : Guarded (step plan) (Undisturbed plan) { store, delivery, clock } as) :
    ∀ s ∈ states (step plan) { store, delivery, clock } as, s.ShowsCurrent plan := by
  have hinit : ({ store, delivery, clock } : Publications).Settled plan :=
    ⟨.of_empty rfl rfl, .of_empty rfl rfl⟩
  intro s hs
  have hsettled := invariant_states (fun _ _ h hguard => h.step hguard) hinit hg s hs
  exact ⟨hsettled.unread.shows_current, hsettled.texts.shows_current⟩

/-- One message is received and published. -/
def receiveAndPublish : List PublicationStep :=
  [.receiveMessage (MarkReadCommand.unfocusedArrival "A1" 10), .readUnread ⟨.reducer, .started⟩,
    .stampUnread ⟨.reducer, .holding 1⟩, .sendUnread ⟨.reducer, .stamped 1 1⟩]

theorem shows_current_of_undisturbed_receive :
    (run (step .stable) { store := .empty } receiveAndPublish).unread.sent = [(1, 1)] ∧
      (run (step .stable) { store := .empty } receiveAndPublish).ShowsCurrent .stable := by
  refine ⟨by decide, shows_current_of_undisturbed .stable .empty {} {} ?_ _
    (run_mem_states _ _ _)⟩
  refine ⟨⟨trivial, ⟨by decide, by decide⟩, by decide⟩, ⟨trivial, ⟨by decide, by decide⟩, by decide⟩,
    ⟨?_, ⟨by decide, by decide⟩, by decide⟩, ⟨trivial, ⟨by decide, by decide⟩, by decide⟩, trivial⟩
  intro value hvalue
  left
  have hone : value = 1 := Option.some_inj.mp (hvalue.symm.trans (by decide))
  rw [hone]
  decide

/-- The reducer has read the total when the chat is marked read, and stamps it afterwards. -/
theorem stale_total_stamped_last :
    ¬∀ s ∈ states (step .stable) { store := .empty }
        [.receiveMessage (MarkReadCommand.unfocusedArrival "A1" 10),
          .readUnread ⟨.reducer, .started⟩, .markRead "1", .readUnread ⟨.readGate, .started⟩,
          .stampUnread ⟨.readGate, .holding 0⟩, .sendUnread ⟨.readGate, .stamped 1 0⟩,
          .stampUnread ⟨.reducer, .holding 1⟩, .sendUnread ⟨.reducer, .stamped 2 1⟩],
      s.ShowsCurrent .stable := by
  intro h
  have hshows := (h _ (run_mem_states _ _ _)).unread (by decide)
  exact absurd (hshows (2, 1) (by decide) (by decide)) (by decide)

end Publications

end OmarchyWhatsapp
