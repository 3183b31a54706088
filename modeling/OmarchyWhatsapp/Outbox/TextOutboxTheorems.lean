import OmarchyWhatsapp.Outbox.TextOutbox
import OmarchyWhatsapp.Relational.Run

/-!
# Ownership and durability of queued texts

Who may touch a row of `text_outbox` at which step: the delivery that the worker handed to
the transport keeps its row until its result is written, unless every stopped text is
queued again, and a row leaves the table only for one of the reasons a text may be
dropped for.
-/

namespace OmarchyWhatsapp

open Relational

variable {plan : QueryPlan}

/-! ## The statements, row by row -/

section Rows

variable {t : TextOutbox} {r : TextOutboxRow} {d : String}

theorem find?_setStatus (t : TextOutbox) (p : TextOutboxRow → Bool) (status : TextOutboxStatus)
    (error : Option String) (d : String) :
    (setStatus t p status error).find? d
      = (t.find? d).map (fun r => if p r then { r with status, error } else r) :=
  Table.find?_updateWhere t p (fun r => { r with status, error }) (fun _ => rfl) d

/-- An update of the status that does not match the row leaves it alone. -/
theorem find?_setStatus_of_not (h : t.find? d = some r) {p : TextOutboxRow → Bool}
    (hp : p r = false) (status : TextOutboxStatus) (error : Option String) :
    (setStatus t p status error).find? d = some r := by
  rw [find?_setStatus, h, Option.map_some, hp]
  rfl

theorem find?_deleteWhere_of_not (h : t.find? d = some r) {p : TextOutboxRow → Bool}
    (hp : p r = false) : (t.deleteWhere p).find? d = some r := by
  rw [Table.find?_deleteWhere, h, Option.filter_some, hp]
  rfl

theorem mem_evictedTexts {rows : List TextOutboxRow} (h : r ∈ evictedTexts plan rows) :
    r ∈ rows ∧ r.status = .failed ∧ failedTextsKept < rows.countP
      (fun x => decide (x.status = .failed) && decide (r.createdAt ≤ x.createdAt)) := by
  have hmem := List.mem_filter.mp (plan.mem_orderBy.mp (List.mem_of_mem_drop h))
  refine ⟨hmem.1, of_decide_eq_true hmem.2, ?_⟩
  by_contra hcount
  refine plan.not_mem_drop (fun a b => ?_) (fun a b c hab hbc => ?_) ?_ h
  · rw [Bool.or_eq_true, decide_eq_true_eq, decide_eq_true_eq]
    exact le_total b.createdAt a.createdAt
  · rw [decide_eq_true_eq] at hab hbc ⊢
    exact hbc.trans hab
  · rw [List.countP_filter]
    refine le_trans (le_of_eq ?_) (not_lt.mp hcount)
    exact List.countP_congr fun x _ => by rw [Bool.and_comm]

/-- The row that `enqueue_text_message` inserts. -/
def queuedRow (message : PendingTextMessage) (createdAt : ℤ) : TextOutboxRow :=
  { deliveryId := message.deliveryId, chatJid := message.chatJid, text := message.text,
    messageId := message.messageId, createdAt, mentions := message.mentions,
    quote := message.quote }

/-- The outbox after a new text is accepted. -/
def acceptedOutbox (plan : QueryPlan) (t : TextOutbox) (message : PendingTextMessage)
    (createdAt : ℤ) : TextOutbox :=
  (t.insertOrIgnore (queuedRow message createdAt)).deleteWhere (fun r =>
    ((evictedTexts plan (t.insertOrIgnore (queuedRow message createdAt)).rows).map
      (·.deliveryId)).contains r.deliveryId)

variable {message : PendingTextMessage} {createdAt : ℤ}

theorem enqueueTextMessage_of_new (h : t.find? message.deliveryId = none) :
    enqueueTextMessage plan t message createdAt
      = .ok (acceptedOutbox plan t message createdAt, true) := by
  rw [enqueueTextMessage, h]
  rfl

/-- The same text under a used id changes nothing, another one is refused. -/
theorem enqueueTextMessage_of_used (h : t.find? message.deliveryId = some r) :
    enqueueTextMessage plan t message createdAt = if r.pending = message then .ok (t, false)
      else .error "delivery ID is already assigned to another message" := by
  have hid : r.deliveryId = message.deliveryId := Table.key_of_find? h
  rw [enqueueTextMessage, h]
  refine if_congr ?_ rfl rfl
  cases message
  simp only [TextOutboxRow.pending, PendingTextMessage.mk.injEq, Prod.mk.injEq]
  simp only at hid
  tauto

theorem find?_insert_queuedRow (t : TextOutbox) (message : PendingTextMessage) (createdAt : ℤ)
    (h : t.find? d = some r) :
    (t.insertOrIgnore (queuedRow message createdAt)).find? d = some r := by
  rw [Table.find?_insertOrIgnore, h]
  split <;> rfl

/-- Accepting a text evicts nothing but failed texts past the newest 32. -/
theorem find?_acceptedOutbox (plan : QueryPlan) (message : PendingTextMessage)
    (createdAt : ℤ) (h : t.find? d = some r) :
    (acceptedOutbox plan t message createdAt).find? d = some r ∨
      (r.status = .failed ∧ failedTextsKept < t.rows.countP
        (fun x => decide (x.status = .failed) && decide (r.createdAt ≤ x.createdAt))) := by
  set inserted := t.insertOrIgnore (queuedRow message createdAt) with hinserted
  have hr : inserted.find? d = some r := find?_insert_queuedRow t message createdAt h
  by_cases hevicted : r ∈ evictedTexts plan inserted.rows
  · refine Or.inr ?_
    obtain ⟨-, hfailed, hcount⟩ := mem_evictedTexts hevicted
    refine ⟨hfailed, lt_of_lt_of_le hcount (le_of_eq ?_)⟩
    rw [hinserted, Table.rows_insertOrIgnore]
    split
    · rw [List.countP_append]
      exact Nat.add_zero _
    · rfl
  · refine Or.inl (find?_deleteWhere_of_not hr ?_)
    rw [Bool.eq_false_iff, ne_eq, List.contains_iff_mem, List.mem_map]
    rintro ⟨x, hx, hid⟩
    have hxr : x = r := inserted.key_inj (mem_evictedTexts hx).1 (Table.mem_of_find? hr) hid
    exact hevicted (hxr ▸ hx)

/-- The accepted text itself is queued. -/
theorem find?_acceptedOutbox_self (plan : QueryPlan) (createdAt : ℤ)
    (h : t.find? message.deliveryId = none) :
    (acceptedOutbox plan t message createdAt).find? message.deliveryId
      = some (queuedRow message createdAt) := by
  set inserted := t.insertOrIgnore (queuedRow message createdAt)
  have hnew : inserted.find? message.deliveryId = some (queuedRow message createdAt) := by
    rw [Table.find?_insertOrIgnore, h]
    exact if_pos rfl
  refine find?_deleteWhere_of_not hnew ?_
  rw [Bool.eq_false_iff, ne_eq, List.contains_iff_mem, List.mem_map]
  rintro ⟨x, hx, hid⟩
  obtain ⟨hmem, hfailed, -⟩ := mem_evictedTexts hx
  have hxr := inserted.key_inj hmem (Table.mem_of_find? hnew) hid
  rw [hxr] at hfailed
  cases hfailed

/-- No other row comes with it. -/
theorem find?_acceptedOutbox_ne (plan : QueryPlan) (createdAt : ℤ) (h : t.find? d = none)
    (hne : d ≠ message.deliveryId) :
    (acceptedOutbox plan t message createdAt).find? d = none := by
  rw [acceptedOutbox, Table.find?_deleteWhere, Table.find?_insertOrIgnore, h]
  exact congrArg (Option.filter _) (if_neg hne)

theorem nextText_eq_some (h : nextText plan t = some r) :
    t.find? r.deliveryId = some r ∧ r.status = .queued := by
  have hmem := List.mem_filter.mp (plan.mem_orderBy.mp (List.mem_of_mem_head? h))
  exact ⟨Table.find?_of_mem hmem.1, of_decide_eq_true hmem.2⟩

theorem claimTextMessage_of_next (h : nextText plan t = some r) :
    claimTextMessage plan t
      = (setStatus t (fun x => x.deliveryId = r.deliveryId) .sending none, some r.pending) := by
  rw [claimTextMessage, h]

theorem claimTextMessage_of_none (h : nextText plan t = none) :
    claimTextMessage plan t = (t, none) := by
  rw [claimTextMessage, h]

end Rows

/-! ## Steps -/

namespace TextDelivery

/-- The delivery is with the transport, or its result is not written yet. -/
def InFlight (s : TextDelivery) (d : String) : Prop :=
  s.sender.inFlight.map (·.deliveryId) = some d

instance (s : TextDelivery) (d : String) : Decidable (s.InFlight d) :=
  inferInstanceAs (Decidable (_ = _))

/-- The status of a delivery, if it is in the outbox. -/
def status (s : TextDelivery) (d : String) : Option TextOutboxStatus :=
  (s.outbox.find? d).map (·.status)

variable {s : TextDelivery} {d : String}

theorem status_eq_some {status : TextOutboxStatus} :
    s.status d = some status ↔ ∃ r, s.outbox.find? d = some r ∧ r.status = status :=
  Option.map_eq_some_iff

/-- Where an enqueue takes the outbox: a used id leaves it as it is, refused or not. -/
theorem outbox_enqueue (plan : QueryPlan) (s : TextDelivery) (message : PendingTextMessage)
    (createdAt : ℤ) : (s.step plan (.enqueue message createdAt)).outbox =
      if s.outbox.find? message.deliveryId = none
        then acceptedOutbox plan s.outbox message createdAt else s.outbox := by
  rw [step]
  rcases hr : s.outbox.find? message.deliveryId with _ | r
  · rw [enqueueTextMessage_of_new hr]
    rfl
  · rw [enqueueTextMessage_of_used hr]
    split <;> rfl

theorem step_claim_of_next {r : TextOutboxRow} (hidle : s.sender = .idle)
    (h : nextText plan s.outbox = some r) : s.step plan .claim =
      ⟨setStatus s.outbox (fun x => x.deliveryId = r.deliveryId) .sending none,
        .sending r.pending⟩ := by
  simp only [step, hidle, claimTextMessage_of_next h]

theorem step_claim_of_none (hidle : s.sender = .idle) (h : nextText plan s.outbox = none) :
    s.step plan .claim = s := by
  simp only [step, hidle, claimTextMessage_of_none h]
  cases s
  cases hidle
  rfl

theorem step_claim_of_busy (hbusy : s.sender ≠ .idle) : s.step plan .claim = s := by
  rw [step]
  split
  · exact absurd ‹_› hbusy
  · rfl

theorem outbox_networkOk (s : TextDelivery) : (s.step plan .networkOk).outbox = s.outbox := by
  rw [step]
  split <;> rfl

theorem outbox_networkError (s : TextDelivery) (error : String) :
    (s.step plan (.networkError error)).outbox = s.outbox := by
  rw [step]
  split <;> rfl

/-- The result of the transport leaves the delivery in flight. -/
theorem inFlight_sender_networkOk (s : TextDelivery) :
    (s.step plan .networkOk).sender.inFlight = s.sender.inFlight := by
  rw [step]
  split
  · rename_i hs
    rw [hs]
    rfl
  · rfl

theorem inFlight_sender_networkError (s : TextDelivery) (error : String) :
    (s.step plan (.networkError error)).sender.inFlight = s.sender.inFlight := by
  rw [step]
  split
  · rename_i hs
    rw [hs]
    rfl
  · rfl

theorem inFlight_networkOk : (s.step plan .networkOk).InFlight d ↔ s.InFlight d := by
  rw [InFlight, inFlight_sender_networkOk, InFlight]

theorem inFlight_networkError (error : String) :
    (s.step plan (.networkError error)).InFlight d ↔ s.InFlight d := by
  rw [InFlight, inFlight_sender_networkError, InFlight]

theorem step_complete_of_succeeded {message : PendingTextMessage}
    (hs : s.sender = .succeeded message) : s.step plan .complete =
      ⟨(completeTextMessage s.outbox message.deliveryId).1, .idle⟩ := by
  simp only [step, hs]

theorem step_fail_of_refused {message : PendingTextMessage} {error : String}
    (hs : s.sender = .refused message error) : s.step plan .fail =
      ⟨(failTextMessage s.outbox message.deliveryId error).1, .idle⟩ := by
  simp only [step, hs]

/-- Without a result to write, the worker writes none. -/
theorem step_complete_of_not (hs : ∀ message, s.sender ≠ .succeeded message) :
    s.step plan .complete = s := by
  rw [step]
  split
  · exact absurd ‹_› (hs _)
  · rfl

theorem step_fail_of_not (hs : ∀ message error, s.sender ≠ .refused message error) :
    s.step plan .fail = s := by
  rw [step]
  split
  · exact absurd ‹_› (hs _ _)
  · rfl

theorem inFlight_of_succeeded {message : PendingTextMessage} (hs : s.sender = .succeeded message) :
    s.InFlight message.deliveryId := by
  rw [InFlight, hs]
  rfl

theorem not_inFlight_of_idle (hs : s.sender = .idle) : ¬s.InFlight d := by
  rw [InFlight, hs]
  exact nofun

/-! ## Ownership -/

/-- A delivery in flight has its row, and the row says so. -/
def Owned (s : TextDelivery) (d : String) : Prop := s.InFlight d → s.status d = some .sending

instance (s : TextDelivery) (d : String) : Decidable (s.Owned d) :=
  inferInstanceAs (Decidable (_ → _))

theorem Owned.of_idle (h : s.sender = .idle) : s.Owned d :=
  fun hflight => absurd hflight (not_inFlight_of_idle h)

end TextDelivery

/-- The reconnect, a restart and an account wipe act on rows that are being sent. -/
def TextStep.interrupts : TextStep → Bool
  | .retryAll | .reopen | .clearAccountData => true
  | _ => false

namespace TextDelivery

variable {s : TextDelivery} {d : String}

/-- Steps that interrupt come only while the delivery is not in flight. -/
def Undisturbed (d : String) (s : TextDelivery) (a : TextStep) : Prop :=
  a.interrupts = true → ¬s.InFlight d

instance (d : String) (s : TextDelivery) (a : TextStep) : Decidable (Undisturbed d s a) :=
  inferInstanceAs (Decidable (_ → _))

/-- Every step but the worker's own result leaves a row that is being sent alone, when it
is not one that interrupts. -/
theorem status_step (hstatus : s.status d = some .sending) {a : TextStep}
    (ha : a.interrupts = false) (hcomplete : a ≠ .complete) (hfail : a ≠ .fail) :
    (s.step plan a).status d = some .sending := by
  obtain ⟨r, hr, hsending⟩ := status_eq_some.mp hstatus
  have hkept : ∀ s' : TextDelivery, s'.outbox.find? d = some r → s'.status d = some .sending :=
    fun s' hr' => status_eq_some.mpr ⟨r, hr', hsending⟩
  cases a with
  | enqueue message createdAt =>
    refine hkept _ ?_
    rw [outbox_enqueue]
    split
    · rcases find?_acceptedOutbox plan message createdAt hr with hr' | ⟨hfailed, -⟩
      · exact hr'
      · rw [hsending] at hfailed
        cases hfailed
    · exact hr
  | claim =>
    by_cases hidle : s.sender = .idle
    · rcases hnext : nextText plan s.outbox with _ | next
      · rw [step_claim_of_none hidle hnext]
        exact hstatus
      · rw [step_claim_of_next hidle hnext]
        refine hkept _ (find?_setStatus_of_not hr ?_ _ _)
        -- the claimed row is queued, this one is not
        obtain ⟨hfind, hqueued⟩ := nextText_eq_some hnext
        rw [decide_eq_false_iff_not]
        intro hid
        rw [← hid, Table.key_of_find? hr, hr, Option.some.injEq] at hfind
        rw [hfind, hqueued] at hsending
        cases hsending
    · rw [step_claim_of_busy hidle]
      exact hstatus
  | networkOk => exact hkept _ (by rw [outbox_networkOk, hr])
  | networkError error => exact hkept _ (by rw [outbox_networkError, hr])
  | complete => exact absurd rfl hcomplete
  | fail => exact absurd rfl hfail
  | retry deliveryId => exact hkept _ (find?_setStatus_of_not hr (by simp [hsending]) _ _)
  | discard deliveryId => exact hkept _ (find?_deleteWhere_of_not hr (by simp [hsending]))
  | retryAll => cases ha
  | reopen => cases ha
  | clearAccountData => cases ha

/-- Ownership is stable under every undisturbed step. -/
theorem Owned.step (h : s.Owned d) {a : TextStep} (ha : Undisturbed d s a) :
    (s.step plan a).Owned d := by
  intro hflight
  have hstable : s.InFlight d → a.interrupts = false → a ≠ .complete → a ≠ .fail →
      (s.step plan a).status d = some .sending :=
    fun hflight ha hcomplete hfail => status_step (h hflight) ha hcomplete hfail
  cases a with
  | enqueue message createdAt => exact hstable hflight rfl nofun nofun
  | claim =>
    by_cases hidle : s.sender = .idle
    · rcases hnext : nextText plan s.outbox with _ | next
      · rw [step_claim_of_none hidle hnext] at hflight
        exact absurd hflight (not_inFlight_of_idle hidle)
      · -- the delivery just claimed
        rw [step_claim_of_next hidle hnext] at hflight ⊢
        have hid : next.deliveryId = d := Option.some.inj hflight
        subst hid
        refine status_eq_some.mpr ⟨{ next with status := .sending, error := none }, ?_, rfl⟩
        rw [find?_setStatus, (nextText_eq_some hnext).1]
        simp
    · rw [step_claim_of_busy hidle] at hflight ⊢
      exact h hflight
  | networkOk => exact hstable (inFlight_networkOk.mp hflight) rfl nofun nofun
  | networkError error => exact hstable ((inFlight_networkError error).mp hflight) rfl nofun nofun
  | complete =>
    by_cases hs : ∃ message, s.sender = .succeeded message
    · obtain ⟨message, hs⟩ := hs
      rw [step_complete_of_succeeded hs] at hflight
      exact absurd hflight (not_inFlight_of_idle rfl)
    · rw [step_complete_of_not (not_exists.mp hs)] at hflight ⊢
      exact h hflight
  | fail =>
    by_cases hs : ∃ message error, s.sender = .refused message error
    · obtain ⟨message, error, hs⟩ := hs
      rw [step_fail_of_refused hs] at hflight
      exact absurd hflight (not_inFlight_of_idle rfl)
    · have hs : ∀ message error, s.sender ≠ .refused message error :=
        fun message error heq => hs ⟨message, error, heq⟩
      rw [step_fail_of_not hs] at hflight ⊢
      exact h hflight
  | retry deliveryId => exact hstable hflight rfl nofun nofun
  | discard deliveryId => exact hstable hflight rfl nofun nofun
  | retryAll => exact absurd hflight (ha rfl)
  | reopen => exact absurd hflight (not_inFlight_of_idle rfl)
  | clearAccountData => exact absurd hflight (ha rfl)

/-- With its row in place, a result acts on it and a discard does not. -/
theorem acts_of_status (hstatus : s.status d = some .sending) :
    (completeTextMessage s.outbox d).2 = true ∧
      (∀ error, (failTextMessage s.outbox d error).2 = true) ∧
      (discardTextMessage s.outbox d).2 = false := by
  obtain ⟨r, hr, hsending⟩ := status_eq_some.mp hstatus
  have hid : r.deliveryId = d := Table.key_of_find? hr
  have hclaimed : s.outbox.rows.any (fun r =>
      decide (r.deliveryId = d) && decide (r.status = .sending)) = true :=
    List.any_eq_true.mpr ⟨r, Table.mem_of_find? hr, by simp [hid, hsending]⟩
  refine ⟨hclaimed, fun _ => hclaimed, ?_⟩
  rw [discardTextMessage, List.any_eq_false]
  intro x hx
  by_cases hxd : x.deliveryId = d
  · have hxr : x = r := s.outbox.key_inj hx (Table.mem_of_find? hr) (hxd.trans hid.symm)
    simp [hxr, hsending]
  · simp [hxd]

/-! ## A text that was sent is not sent again -/

/-- The text was sent: its result is about to be written, or its row is gone. -/
def Sent (d : String) (s : TextDelivery) : Prop :=
  (∃ message, s.sender = .succeeded message ∧ message.deliveryId = d ∧
      s.status d = some .sending) ∨
    (¬s.InFlight d ∧ s.status d = none)

/-- The step does not accept another text under the id. -/
def NotAccepted (d : String) (s : TextDelivery) (a : TextStep) : Prop :=
  ∀ message createdAt, a = .enqueue message createdAt → message.deliveryId = d →
    s.status d ≠ none

theorem status_eq_none : s.status d = none ↔ s.outbox.find? d = none :=
  Option.map_eq_none_iff

/-- A row that is not there comes with an accepted text only. -/
theorem status_step_none (hnone : s.status d = none) {a : TextStep} (hnew : NotAccepted d s a) :
    (s.step plan a).status d = none := by
  rw [status_eq_none] at hnone ⊢
  have hset : ∀ p status error, (setStatus s.outbox p status error).find? d = none := by
    intro p status error
    rw [find?_setStatus, hnone]
    rfl
  have hdelete : ∀ p, (s.outbox.deleteWhere p).find? d = none := by
    intro p
    rw [Table.find?_deleteWhere, hnone]
    rfl
  cases a with
  | enqueue message createdAt =>
    rw [outbox_enqueue]
    split
    · refine find?_acceptedOutbox_ne plan createdAt hnone fun hid => ?_
      exact hnew message createdAt rfl hid.symm (status_eq_none.mpr hnone)
    · exact hnone
  | claim =>
    by_cases hidle : s.sender = .idle
    · rcases hnext : nextText plan s.outbox with _ | next
      · rw [step_claim_of_none hidle hnext]
        exact hnone
      · rw [step_claim_of_next hidle hnext]
        exact hset _ _ _
    · rw [step_claim_of_busy hidle]
      exact hnone
  | networkOk =>
    rw [outbox_networkOk]
    exact hnone
  | networkError error =>
    rw [outbox_networkError]
    exact hnone
  | complete =>
    rw [step]
    split
    · exact hdelete _
    · exact hnone
  | fail =>
    rw [step]
    split
    · exact hset _ _ _
    · exact hnone
  | retry deliveryId => exact hset _ _ _
  | discard deliveryId => exact hdelete _
  | retryAll => exact hset _ _ _
  | reopen => exact hset _ _ _
  | clearAccountData => rfl

/-- A text is in flight after a step if it was, or if its row was claimed. -/
theorem inFlight_of_step {a : TextStep} (h : (s.step plan a).InFlight d) :
    s.InFlight d ∨ s.status d ≠ none := by
  cases a with
  | claim =>
    by_cases hidle : s.sender = .idle
    · rcases hnext : nextText plan s.outbox with _ | next
      · rw [step_claim_of_none hidle hnext] at h
        exact Or.inl h
      · rw [step_claim_of_next hidle hnext] at h
        have hid : next.deliveryId = d := Option.some.inj h
        refine Or.inr fun hnone => ?_
        rw [status_eq_none, ← hid, (nextText_eq_some hnext).1] at hnone
        cases hnone
    · rw [step_claim_of_busy hidle] at h
      exact Or.inl h
  | networkOk => exact Or.inl (inFlight_networkOk.mp h)
  | networkError error => exact Or.inl ((inFlight_networkError error).mp h)
  | complete =>
    rw [step] at h
    split at h
    · exact absurd h (not_inFlight_of_idle rfl)
    · exact Or.inl h
  | fail =>
    rw [step] at h
    split at h
    · exact absurd h (not_inFlight_of_idle rfl)
    · exact Or.inl h
  | reopen => exact absurd h (not_inFlight_of_idle rfl)
  | enqueue => exact Or.inl h
  | retry => exact Or.inl h
  | discard => exact Or.inl h
  | retryAll => exact Or.inl h
  | clearAccountData => exact Or.inl h

theorem Sent.step (h : Sent d s) {a : TextStep} (ha : Undisturbed d s a)
    (hnew : NotAccepted d s a) : Sent d (s.step plan a) := by
  rcases h with ⟨message, hs, hid, hstatus⟩ | ⟨hflight, hnone⟩
  · have hinFlight : s.InFlight d := hid ▸ inFlight_of_succeeded hs
    have hbusy : s.sender ≠ .idle := fun hidle => absurd (hidle.symm.trans hs) nofun
    have hquiet : a.interrupts = false := by
      rw [← Bool.not_eq_true]
      exact fun hinterrupts => ha hinterrupts hinFlight
    by_cases hcomplete : a = .complete
    · -- the row goes with the result
      subst hcomplete
      rw [step_complete_of_succeeded hs]
      refine Or.inr ⟨not_inFlight_of_idle rfl, status_eq_none.mpr ?_⟩
      obtain ⟨r, hr, hsending⟩ := status_eq_some.mp hstatus
      have hrid := Table.key_of_find? hr
      rw [completeTextMessage, Table.find?_deleteWhere, hr, Option.filter_some]
      simp [hid, hrid, hsending]
    · have hsender : (s.step plan a).sender = .succeeded message := by
        cases a with
        | claim => rw [step_claim_of_busy hbusy, hs]
        | complete => exact absurd rfl hcomplete
        | fail =>
          rw [step_fail_of_not, hs]
          intro message' error
          rw [hs]
          exact nofun
        | networkOk => simp only [TextDelivery.step, hs]
        | networkError error => simp only [TextDelivery.step, hs]
        | reopen => cases hquiet
        | enqueue => exact hs
        | retry => exact hs
        | discard => exact hs
        | retryAll => exact hs
        | clearAccountData => exact hs
      have hfail : a ≠ .fail ∨ s.step plan a = s := by
        by_cases hfail : a = .fail
        · subst hfail
          refine Or.inr (step_fail_of_not fun message' error => ?_)
          rw [hs]
          exact nofun
        · exact Or.inl hfail
      refine Or.inl ⟨message, hsender, hid, ?_⟩
      rcases hfail with hfail | hsame
      · exact status_step hstatus hquiet hcomplete hfail
      · rw [hsame]
        exact hstatus
  · refine Or.inr ⟨fun hinFlight => ?_, status_step_none hnone hnew⟩
    rcases inFlight_of_step hinFlight with hinFlight | hrow
    · exact hflight hinFlight
    · exact hrow hnone

/-- A text that was sent is not the next one to claim. -/
theorem Sent.not_claimed (h : Sent d s) {message : PendingTextMessage}
    (hclaim : (claimTextMessage plan s.outbox).2 = some message) : message.deliveryId ≠ d := by
  rintro rfl
  rcases hnext : nextText plan s.outbox with _ | next
  · rw [claimTextMessage_of_none hnext] at hclaim
    cases hclaim
  · rw [claimTextMessage_of_next hnext, Option.some.injEq] at hclaim
    subst hclaim
    obtain ⟨hfind, hqueued⟩ := nextText_eq_some hnext
    have hstatus : s.status next.deliveryId = some .queued :=
      status_eq_some.mpr ⟨next, hfind, hqueued⟩
    rcases h with ⟨_, -, -, hsending⟩ | ⟨-, hnone⟩
    · exact absurd (hstatus.symm.trans hsending) nofun
    · exact absurd (hstatus.symm.trans hnone) nofun

/-- The text `hi` under the id `d`. -/
def hiText (d : String) : PendingTextMessage :=
  { deliveryId := d, chatJid := "1", text := "hi", messageId := d }

/-- The text is in the outbox, whatever its status. -/
def Holds (s : TextDelivery) (message : PendingTextMessage) (createdAt : ℤ) : Prop :=
  ∃ r, s.outbox.find? message.deliveryId = some r ∧ r.pending = message ∧
    r.createdAt = createdAt

/-- A row that is being sent is the text that the worker has in flight. -/
def Carries (s : TextDelivery) : Prop :=
  ∀ message ∈ s.sender.inFlight, ∀ r, s.outbox.find? message.deliveryId = some r →
    r.status = .sending → r.pending = message

/-- The reasons for which a text leaves the outbox: its own send succeeded and is completed,
the user discards it, the account is wiped, or it is a failed text that is not among the
newest 32 when another one is accepted. -/
def Leaves (message : PendingTextMessage) (s : TextDelivery) (a : TextStep) : Prop :=
  (a = .complete ∧ s.sender = .succeeded message) ∨ a = .discard message.deliveryId ∨
    a = .clearAccountData ∨
    ∃ accepted createdAt r, a = .enqueue accepted createdAt ∧
      s.outbox.find? message.deliveryId = some r ∧ r.status = .failed ∧
      failedTextsKept < s.outbox.rows.countP
        (fun x => decide (x.status = .failed) && decide (r.createdAt ≤ x.createdAt))

variable {message : PendingTextMessage} {createdAt : ℤ}

/-- An update of the status keeps the texts. -/
theorem Holds.setStatus (h : s.Holds message createdAt) {s' : TextDelivery}
    (p : TextOutboxRow → Bool) (status : TextOutboxStatus) (error : Option String)
    (hs' : s'.outbox = OmarchyWhatsapp.setStatus s.outbox p status error) :
    s'.Holds message createdAt := by
  obtain ⟨r, hr, hpending, hcreated⟩ := h
  refine ⟨if p r then { r with status, error } else r, ?_, ?_, ?_⟩
  · rw [hs', find?_setStatus, hr]
    rfl
  · split
    · exact hpending
    · exact hpending
  · split
    · exact hcreated
    · exact hcreated

theorem Holds.of_outbox_eq (h : s.Holds message createdAt) {s' : TextDelivery}
    (hs' : s'.outbox = s.outbox) : s'.Holds message createdAt := by
  obtain ⟨r, hr, hrest⟩ := h
  exact ⟨r, hs' ▸ hr, hrest⟩

/-- A row that an update leaves being sent was being sent before. -/
theorem find?_of_setStatus {t : TextOutbox} {p : TextOutboxRow → Bool}
    {status : TextOutboxStatus} {error : Option String} {r : TextOutboxRow}
    (h : (OmarchyWhatsapp.setStatus t p status error).find? d = some r)
    (hr : r.status = .sending) (hstatus : status ≠ .sending) : t.find? d = some r := by
  rw [find?_setStatus, Option.map_eq_some_iff] at h
  obtain ⟨x, hx, rfl⟩ := h
  split at hr
  · exact absurd hr hstatus
  · rw [hx, if_neg ‹_›]

theorem find?_of_acceptedOutbox {t : TextOutbox} {accepted : PendingTextMessage}
    {r : TextOutboxRow} (h : (acceptedOutbox plan t accepted createdAt).find? d = some r)
    (hr : r.status = .sending) : t.find? d = some r := by
  rw [acceptedOutbox, Table.find?_deleteWhere, Option.filter_eq_some_iff,
    Table.find?_insertOrIgnore] at h
  have hfind := h.1
  split at hfind
  · rcases hx : t.find? d with _ | x
    · rw [hx, Option.getD_none, Option.some.injEq] at hfind
      rw [← hfind] at hr
      cases hr
    · rwa [hx, Option.getD_some] at hfind
  · exact hfind

theorem carries_of_idle (hidle : s.sender = .idle) : s.Carries := by
  intro message hmessage
  rw [hidle] at hmessage
  cases hmessage

theorem Carries.step (h : s.Carries) (a : TextStep) : (s.step plan a).Carries := by
  have hsame : ∀ s' : TextDelivery, s'.sender.inFlight = s.sender.inFlight →
      (∀ d r, s'.outbox.find? d = some r → r.status = .sending → s.outbox.find? d = some r) →
      s'.Carries := by
    intro s' hsender hrows message hmessage r hr hsending
    exact h message (hsender ▸ hmessage) r (hrows _ r hr hsending) hsending
  cases a with
  | enqueue accepted createdAt =>
    refine hsame _ rfl fun d r hr hsending => ?_
    rw [outbox_enqueue] at hr
    split at hr
    · exact find?_of_acceptedOutbox hr hsending
    · exact hr
  | claim =>
    by_cases hidle : s.sender = .idle
    · rcases hnext : nextText plan s.outbox with _ | next
      · rw [step_claim_of_none hidle hnext]
        exact h
      · rw [step_claim_of_next hidle hnext]
        intro message hmessage r hr _
        have hclaimed : next.pending = message := Option.some.inj hmessage
        subst hclaimed
        rw [find?_setStatus, Option.map_eq_some_iff] at hr
        obtain ⟨x, hx, rfl⟩ := hr
        have hnext' : s.outbox.find? next.pending.deliveryId = some next :=
          (nextText_eq_some hnext).1
        rw [hnext', Option.some.injEq] at hx
        subst hx
        split <;> rfl
    · rw [step_claim_of_busy hidle]
      exact h
  | networkOk =>
    refine hsame _ (inFlight_sender_networkOk s) fun d r hr _ => ?_
    rwa [outbox_networkOk] at hr
  | networkError error =>
    refine hsame _ (inFlight_sender_networkError s error) fun d r hr _ => ?_
    rwa [outbox_networkError] at hr
  | complete =>
    by_cases hs : ∃ message, s.sender = .succeeded message
    · obtain ⟨message, hs⟩ := hs
      rw [step_complete_of_succeeded hs]
      exact carries_of_idle rfl
    · rw [step_complete_of_not (not_exists.mp hs)]
      exact h
  | fail =>
    by_cases hs : ∃ message error, s.sender = .refused message error
    · obtain ⟨message, error, hs⟩ := hs
      rw [step_fail_of_refused hs]
      exact carries_of_idle rfl
    · rw [step_fail_of_not fun message error heq => hs ⟨message, error, heq⟩]
      exact h
  | retry deliveryId =>
    exact hsame _ rfl fun d r hr hsending => find?_of_setStatus hr hsending (by decide)
  | discard deliveryId =>
    refine hsame _ rfl fun d r hr _ => ?_
    have hfind := (Table.find?_deleteWhere s.outbox _ d).symm.trans hr
    exact (Option.filter_eq_some_iff.mp hfind).1
  | retryAll => exact hsame _ rfl fun d r hr hsending => find?_of_setStatus hr hsending (by decide)
  | reopen => exact carries_of_idle rfl
  | clearAccountData => exact hsame _ rfl fun d r hr _ => by cases hr

/-- A step keeps a text, or it is a reason for which the text leaves. -/
theorem Holds.step (h : s.Holds message createdAt) (hcarries : s.Carries) (a : TextStep) :
    (s.step plan a).Holds message createdAt ∨ Leaves message s a := by
  have hholds := h
  obtain ⟨r, hr, hpending, hcreated⟩ := h
  have hdelete : ∀ (s' : TextDelivery) (p : TextOutboxRow → Bool),
      s'.outbox = s.outbox.deleteWhere p → p r = false → s'.Holds message createdAt :=
    fun s' p hs' hp => ⟨r, hs' ▸ find?_deleteWhere_of_not hr hp, hpending, hcreated⟩
  cases a with
  | enqueue accepted at' =>
    by_cases hnew : s.outbox.find? accepted.deliveryId = none
    · rcases find?_acceptedOutbox plan accepted at' hr with hr' | ⟨hfailed, hcount⟩
      · refine Or.inl ⟨r, ?_, hpending, hcreated⟩
        rw [outbox_enqueue, if_pos hnew]
        exact hr'
      · exact Or.inr (Or.inr (Or.inr (Or.inr
          ⟨accepted, at', r, rfl, hr, hfailed, hcount⟩)))
    · refine Or.inl (hholds.of_outbox_eq ?_)
      rw [outbox_enqueue, if_neg hnew]
  | claim =>
    refine Or.inl ?_
    by_cases hidle : s.sender = .idle
    · rcases hnext : nextText plan s.outbox with _ | next
      · rw [step_claim_of_none hidle hnext]
        exact hholds
      · rw [step_claim_of_next hidle hnext]
        exact hholds.setStatus _ _ _ rfl
    · rw [step_claim_of_busy hidle]
      exact hholds
  | networkOk => exact Or.inl (hholds.of_outbox_eq (outbox_networkOk s))
  | networkError error => exact Or.inl (hholds.of_outbox_eq (outbox_networkError s error))
  | complete =>
    by_cases hs : ∃ done, s.sender = .succeeded done
    · obtain ⟨done, hs⟩ := hs
      by_cases hown : r.deliveryId = done.deliveryId ∧ r.status = .sending
      · -- the row carries the text in flight, so it is this one that was sent
        have hinFlight : done ∈ s.sender.inFlight := by
          rw [hs]
          rfl
        have hdone := hcarries done hinFlight r (hown.1 ▸ Table.find?_of_mem
          (Table.mem_of_find? hr)) hown.2
        rw [hpending] at hdone
        exact Or.inr (Or.inl ⟨rfl, hdone ▸ hs⟩)
      · refine Or.inl ?_
        rw [step_complete_of_succeeded hs]
        exact hdelete _ _ rfl (by simpa using hown)
    · rw [step_complete_of_not (not_exists.mp hs)]
      exact Or.inl hholds
  | fail =>
    refine Or.inl ?_
    by_cases hs : ∃ refused error, s.sender = .refused refused error
    · obtain ⟨refused, error, hs⟩ := hs
      rw [step_fail_of_refused hs]
      exact hholds.setStatus _ _ _ rfl
    · rw [step_fail_of_not fun refused error heq => hs ⟨refused, error, heq⟩]
      exact hholds
  | retry deliveryId => exact Or.inl (hholds.setStatus _ _ _ rfl)
  | discard deliveryId =>
    by_cases hid : deliveryId = message.deliveryId
    · exact Or.inr (Or.inr (Or.inl (hid ▸ rfl)))
    · refine Or.inl (hdelete _ _ rfl ?_)
      have hrid : r.deliveryId = message.deliveryId := Table.key_of_find? hr
      simp [hrid, Ne.symm hid]
  | retryAll => exact Or.inl (hholds.setStatus _ _ _ rfl)
  | reopen => exact Or.inl (hholds.setStatus _ _ _ rfl)
  | clearAccountData => exact Or.inr (Or.inr (Or.inr (Or.inl rfl)))

/-- No accepted text is lost, in any run with crashes and restarts between any two steps: it
stays in the outbox until it is completed after its own send succeeded, discarded, wiped
with the account, or evicted as a failed text past the newest 32. Texts that are queued or
being sent are never evicted. The same text under a used id changes nothing, and another
one is refused and changes nothing. -/
theorem texts_kept (plan : QueryPlan) (before : List TextStep) :
    let s := run (TextDelivery.step plan) {} before
    (∀ message createdAt outbox,
      enqueueTextMessage plan s.outbox message createdAt = .ok (outbox, true) →
        (s.step plan (.enqueue message createdAt)).Holds message createdAt ∧
          (s.step plan (.enqueue message createdAt)).status message.deliveryId
            = some .queued) ∧
    (∀ message createdAt, s.Holds message createdAt → ∀ steps : List TextStep,
      (run (TextDelivery.step plan) s steps).Holds message createdAt ∨
        ∃ l a l', steps = l ++ a :: l' ∧
          (run (TextDelivery.step plan) s l).Holds message createdAt ∧
          Leaves message (run (TextDelivery.step plan) s l) a) ∧
    (∀ accepted createdAt d r, s.outbox.find? d = some r → r.status ≠ .failed →
      (s.step plan (.enqueue accepted createdAt)).outbox.find? d = some r) ∧
    (∀ message createdAt again, s.Holds message createdAt →
      enqueueTextMessage plan s.outbox message again = .ok (s.outbox, false)) ∧
    ∀ message again r, s.outbox.find? message.deliveryId = some r → r.pending ≠ message →
      enqueueTextMessage plan s.outbox message again
          = .error "delivery ID is already assigned to another message" ∧
        s.step plan (.enqueue message again) = s := by
  intro s
  have hcarries : s.Carries :=
    invariant_run_of_step (I := Carries) (fun _ a h => h.step a) (carries_of_idle rfl) before
  refine ⟨fun message createdAt outbox haccepted => ?_, fun message createdAt hholds steps => ?_,
    fun accepted createdAt d r hr hstatus => ?_, fun message createdAt again hholds => ?_,
    fun message again r hr hother => ?_⟩
  · have hnew : s.outbox.find? message.deliveryId = none := by
      rcases hr : s.outbox.find? message.deliveryId with _ | r
      · rfl
      · rw [enqueueTextMessage_of_used hr] at haccepted
        split at haccepted <;> cases haccepted
    have hrow := find?_acceptedOutbox_self plan createdAt hnew
    have houtbox := outbox_enqueue plan s message createdAt
    rw [if_pos hnew] at houtbox
    rw [← houtbox] at hrow
    exact ⟨⟨_, hrow, rfl, rfl⟩, status_eq_some.mpr ⟨_, hrow, rfl⟩⟩
  · have hstep : ∀ (s : TextDelivery) (a : TextStep),
        s.Holds message createdAt ∧ s.Carries →
          ((s.step plan a).Holds message createdAt ∧ (s.step plan a).Carries) ∨
            Leaves message s a :=
      fun s a h => (h.1.step h.2 a).imp_left fun hkept => ⟨hkept, h.2.step a⟩
    rcases run_until (P := fun s => s.Holds message createdAt ∧ s.Carries)
      (E := Leaves message) hstep ⟨hholds, hcarries⟩ steps with hkept | ⟨l, a, l', hsteps, hkept, hleaves⟩
    · exact Or.inl hkept.1
    · exact Or.inr ⟨l, a, l', hsteps, hkept.1, hleaves⟩
  · rw [outbox_enqueue]
    split
    · exact (find?_acceptedOutbox plan accepted createdAt hr).resolve_right
        fun hevicted => hstatus hevicted.1
    · exact hr
  · obtain ⟨r, hr, hpending, -⟩ := hholds
    rw [enqueueTextMessage_of_used hr, if_pos hpending]
  · have hrefused : enqueueTextMessage plan s.outbox message again
        = .error "delivery ID is already assigned to another message" := by
      rw [enqueueTextMessage_of_used hr, if_neg hother]
    refine ⟨hrefused, ?_⟩
    rw [TextDelivery.step, hrefused]
    rfl

end TextDelivery

end OmarchyWhatsapp
