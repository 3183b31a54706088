import OmarchyWhatsapp.Relational.Order
import OmarchyWhatsapp.Relational.Run
import OmarchyWhatsapp.Relational.Table
import OmarchyWhatsapp.Session.RevisionClock

/-!
# The durable inbox

Every batch of messages is committed to `inbound_inbox` before the client library acknowledges
it. The message reducer works through its queue one piece at a time: a drain pass over the inbox
when a connection opens, and the live messages. It deletes a row when `receive_message` has
accepted the message. The generation may change and the process may die between any two steps.
-/

namespace OmarchyWhatsapp

open Relational

structure InboundKey where
  chatJid : String
  senderJid : String
  messageId : String
deriving DecidableEq, Repr

structure DurableInbound where
  key : InboundKey
  message : List UInt8
  pushName : String
  timestamp : ℤ
  mediaType : String
  isFromMe : Bool
  isGroup : Bool
  isOffline : Bool
  committedAt : ℤ
deriving DecidableEq, Repr

/-! ## The table `inbound_inbox` -/

abbrev InboundInbox := Table DurableInbound DurableInbound.key

/-- `commit_inbound_batch`, and how many records it inserted. -/
def commitInboundBatch (inbox : InboundInbox) : List DurableInbound → InboundInbox × ℕ
  | [] => (inbox, 0)
  | record :: records =>
    let rest := commitInboundBatch (inbox.insertOrIgnore record) records
    (rest.1, (inbox.find? record.key).isNone.toNat + rest.2)

/-- `pending_inbound`. -/
def pendingInbound (inbox : InboundInbox) (limit : ℕ) : List DurableInbound :=
  (orderByThenRow (·.committedAt) inbox.rows).take (max 1 (min limit 10000))

/-- `finish_inbound`, and whether there was a row. -/
def finishInbound (inbox : InboundInbox) (key : InboundKey) : InboundInbox × Bool :=
  (inbox.deleteWhere (fun r => r.key = key), (inbox.find? key).isSome)

/-- A commit leaves the rows that it finds as they are. -/
theorem rows_prefix_commitInboundBatch (inbox : InboundInbox) (records : List DurableInbound) :
    inbox.rows <+: (commitInboundBatch inbox records).1.rows := by
  induction records generalizing inbox with
  | nil => exact List.prefix_refl _
  | cons record records ih =>
    refine List.IsPrefix.trans ?_ (ih _)
    rw [Table.rows_insertOrIgnore]
    split_ifs
    · exact List.prefix_append _ _
    · exact List.prefix_refl _

theorem isSome_find?_mono {inbox inbox' : InboundInbox} (h : inbox.rows <+: inbox'.rows)
    {key : InboundKey} (hkey : (inbox.find? key).isSome = true) :
    (inbox'.find? key).isSome = true := by
  obtain ⟨row, hrow⟩ := Option.isSome_iff_exists.mp hkey
  obtain ⟨hmem, rfl⟩ := Table.find?_eq_some.mp hrow
  rw [Table.find?_of_mem (h.subset hmem)]
  rfl

/-- Every record of a committed batch has a row under its key. -/
theorem isSome_find?_commitInboundBatch (inbox : InboundInbox) {records : List DurableInbound}
    {record : DurableInbound} (hmem : record ∈ records) :
    ((commitInboundBatch inbox records).1.find? record.key).isSome = true := by
  induction records generalizing inbox with
  | nil => cases hmem
  | cons first records ih =>
    rcases List.mem_cons.mp hmem with rfl | hmem
    · refine isSome_find?_mono (rows_prefix_commitInboundBatch _ records) ?_
      rw [Table.find?_insertOrIgnore, if_pos rfl]
      rfl
    · exact ih _ hmem

/-! ## The reducer -/

/-- The work of the reducer. A live message comes with its key in the inbox. -/
inductive MessageWork where
  | drain (generation : ℕ)
  | live (generation : ℕ) (key : InboundKey)
  | barrier
deriving DecidableEq, Repr

/-- What is left of the records that a pass has read, and those that it has handed over. -/
structure DrainPass where
  generation : ℕ
  pending : List DurableInbound
  handed : List DurableInbound := []
deriving DecidableEq, Repr

inductive Reduction where
  | idle
  /-- `reduce_message` has yet to look at the generation. -/
  | reducing (generation : ℕ) (key : InboundKey)
  /-- `receive_message` runs; `clock` is what `reduce_message` looked at. -/
  | receiving (generation : ℕ) (key : InboundKey) (clock : RevisionClock)
  /-- The message is accepted and its row has yet to be deleted. -/
  | finishing (key : InboundKey)
deriving DecidableEq, Repr

/-- `receive_message` has returned accepted. -/
structure Acceptance where
  key : InboundKey
  generation : ℕ
  clock : RevisionClock
deriving DecidableEq, Repr

/-- The inbox with the reducer. `committed` lists the records that commits have inserted and
`accepted` the messages that were accepted, both oldest first. -/
structure DurableInbox where
  inbox : InboundInbox := ∅
  clock : RevisionClock := {}
  queue : List MessageWork := []
  pass : Option DrainPass := none
  reduction : Reduction := .idle
  committed : List DurableInbound := []
  accepted : List Acceptance := []

inductive InboxStep where
  | commit (records : List DurableInbound)
  | beginGeneration
  | retireGeneration (generation : ℕ)
  /-- A handler of the client or the main loop queues work. -/
  | send (work : MessageWork)
  /-- The reducer takes its next work; the inbox may be unreadable. -/
  | startWork (readable : Bool)
  | nextRecord
  | reduceMessage
  | received (accepted : Bool)
  | finish (deleted : Bool)
  /-- `clear_account_data`, after a logout. -/
  | clearAccountData
  /-- The process dies and starts again. -/
  | crash
deriving DecidableEq, Repr

namespace DurableInbox

def startWork (s : DurableInbox) (readable : Bool) : MessageWork → DurableInbox
  | .drain generation =>
    if s.clock.isCurrent generation && readable then
      { s with pass := some { generation, pending := pendingInbound s.inbox 10000 } }
    else s
  | .live generation key => { s with reduction := .reducing generation key }
  | .barrier => s

/-- `reduce_message` looks at the generation and calls `receive_message`. -/
def reduceMessage (s : DurableInbox) : DurableInbox :=
  match s.reduction with
  | .reducing generation key =>
    { s with
      reduction := if s.clock.isCurrent generation then .receiving generation key s.clock
        else .idle }
  | _ => s

/-- `receive_message` returns. -/
def received (s : DurableInbox) (accepted : Bool) : DurableInbox :=
  match s.reduction with
  | .receiving generation key clock =>
    if accepted then
      { s with reduction := .finishing key, accepted := s.accepted ++ [⟨key, generation, clock⟩] }
    else { s with reduction := .idle }
  | _ => s

/-- `finish_inbound_reduction` of an accepted message; the deletion may fail. -/
def finishInboundReduction (s : DurableInbox) (deleted : Bool) : DurableInbox :=
  match s.reduction with
  | .finishing key =>
    { s with
      inbox := if deleted then (finishInbound s.inbox key).1 else s.inbox
      reduction := .idle }
  | _ => s

section Steps

-- whether `decode_parts` succeeds
variable (decodes : DurableInbound → Bool)

/-- The loop over the records of a pass. -/
def nextRecord (s : DurableInbox) (pass : DrainPass) : DurableInbox :=
  match pass.pending with
  | [] => { s with pass := none }
  | record :: pending =>
    if s.clock.isCurrent pass.generation = false then { s with pass := none }
    else if decodes record = false then { s with pass := some { pass with pending } }
    else
      { s with
        pass := some { pass with pending, handed := pass.handed ++ [record] }
        reduction := .reducing pass.generation record.key }

def step (s : DurableInbox) : InboxStep → DurableInbox
  | .commit records =>
    let inbox := (commitInboundBatch s.inbox records).1
    { s with inbox, committed := s.committed ++ inbox.rows.drop s.inbox.rows.length }
  | .beginGeneration => { s with clock := s.clock.beginGeneration.1 }
  | .retireGeneration generation => { s with clock := s.clock.retireGeneration generation }
  | .send work => { s with queue := s.queue ++ [work] }
  | .startWork readable =>
    match s.pass, s.reduction, s.queue with
    | none, .idle, work :: queue => { s with queue }.startWork readable work
    | _, _, _ => s
  | .nextRecord =>
    match s.pass, s.reduction with
    | some pass, .idle => s.nextRecord decodes pass
    | _, _ => s
  | .reduceMessage => s.reduceMessage
  | .received accepted => s.received accepted
  | .finish deleted => s.finishInboundReduction deleted
  | .clearAccountData => { s with inbox := ∅ }
  -- only the database outlives the process
  | .crash => { s with clock := {}, queue := [], pass := none, reduction := .idle }

end Steps

/-! ## Properties -/

def Pending (s : DurableInbox) (key : InboundKey) : Prop := (s.inbox.find? key).isSome = true

instance (s : DurableInbox) (key : InboundKey) : Decidable (s.Pending key) :=
  inferInstanceAs (Decidable (_ = true))

/-- How many acceptances are over: all but the one that the reducer is about to finish. -/
def settled (s : DurableInbox) : ℕ :=
  match s.reduction with
  | .finishing _ => s.accepted.length - 1
  | _ => s.accepted.length

/-- `receive_message` has returned accepted, after `n` earlier acceptances, and the generation
for which it ran was current when the message was handed to it. -/
def AcceptedSince (s : DurableInbox) (n : ℕ) (key : InboundKey) : Prop :=
  ∃ a ∈ s.accepted.drop n, a.key = key ∧ a.clock.isCurrent a.generation = true

instance (s : DurableInbox) (n : ℕ) (key : InboundKey) : Decidable (s.AcceptedSince n key) :=
  inferInstanceAs (Decidable (∃ a ∈ s.accepted.drop n, _))

/-- The records that a pass has handed over come in the order of their commit times, and in
commit order where these are equal. -/
def HandedInOrder (s : DurableInbox) : Prop :=
  ∀ pass ∈ s.pass,
    pass.handed.Pairwise (fun a b => a.committedAt ≤ b.committedAt) ∧
    (∀ t, (pass.handed.filter (fun r => r.committedAt = t)).Sublist
      (s.committed.filter (fun r => r.committedAt = t))) ∧
    (s.committed.Pairwise (fun a b => a.committedAt ≤ b.committedAt) →
      pass.handed.Sublist s.committed)

/-! ## Durability -/

section Durability

variable {decodes : DurableInbound → Bool} {s s' : DurableInbox} {n : ℕ} {key : InboundKey}

/-- Nothing is committed, accepted or deleted. -/
structure Quiet (s s' : DurableInbox) : Prop where
  inbox : s'.inbox = s.inbox
  committed : s'.committed = s.committed
  accepted : s'.accepted = s.accepted
  reduction : s'.reduction = s.reduction ∨ s'.reduction = .idle ∨
    ∃ generation key, s'.reduction = .reducing generation key

theorem Quiet.of_reduction (hinbox : s'.inbox = s.inbox) (hcommitted : s'.committed = s.committed)
    (haccepted : s'.accepted = s.accepted) (hreduction : s'.reduction = s.reduction) :
    Quiet s s' := ⟨hinbox, hcommitted, haccepted, Or.inl hreduction⟩

theorem quiet_startWork (s : DurableInbox) (readable : Bool) (work : MessageWork) :
    Quiet s (s.startWork readable work) := by
  cases work with
  | drain generation =>
    rw [startWork]
    split_ifs <;> exact .of_reduction rfl rfl rfl rfl
  | live generation key => exact ⟨rfl, rfl, rfl, Or.inr (Or.inr ⟨generation, key, rfl⟩)⟩
  | barrier => exact .of_reduction rfl rfl rfl rfl

theorem quiet_nextRecord (s : DurableInbox) (pass : DrainPass) :
    Quiet s (s.nextRecord decodes pass) := by
  unfold nextRecord
  cases pass.pending with
  | nil => exact .of_reduction rfl rfl rfl rfl
  | cons record pending =>
    dsimp only
    split_ifs
    · exact .of_reduction rfl rfl rfl rfl
    · exact .of_reduction rfl rfl rfl rfl
    · exact ⟨rfl, rfl, rfl, Or.inr (Or.inr ⟨_, _, rfl⟩)⟩

/-- What a step can do to the records and to the message that is being reduced. -/
theorem step_cases (decodes : DurableInbound → Bool) (s : DurableInbox) (a : InboxStep) :
    Quiet s (s.step decodes a) ∨
    (∃ records, a = .commit records) ∨
    (∃ generation key, s.clock.isCurrent generation = true ∧
      s.step decodes a = { s with reduction := .receiving generation key s.clock }) ∨
    (∃ generation key clock, s.reduction = .receiving generation key clock ∧
      s.step decodes a = { s with
        reduction := .finishing key, accepted := s.accepted ++ [⟨key, generation, clock⟩] }) ∨
    (∃ key, s.reduction = .finishing key ∧
      s.step decodes a = { s with inbox := (finishInbound s.inbox key).1, reduction := .idle }) ∨
    a = .clearAccountData := by
  cases a with
  | commit records => exact Or.inr (Or.inl ⟨records, rfl⟩)
  | clearAccountData => exact Or.inr (Or.inr (Or.inr (Or.inr (Or.inr rfl))))
  | beginGeneration => exact Or.inl (.of_reduction rfl rfl rfl rfl)
  | retireGeneration generation => exact Or.inl (.of_reduction rfl rfl rfl rfl)
  | send work => exact Or.inl (.of_reduction rfl rfl rfl rfl)
  | crash => exact Or.inl ⟨rfl, rfl, rfl, Or.inr (Or.inl rfl)⟩
  | startWork readable =>
    refine Or.inl ?_
    rw [step]
    split
    · rename_i work queue _ _ _
      have hquiet := quiet_startWork { s with queue } readable work
      exact ⟨hquiet.inbox, hquiet.committed, hquiet.accepted, hquiet.reduction⟩
    · exact .of_reduction rfl rfl rfl rfl
  | nextRecord =>
    refine Or.inl ?_
    rw [step]
    split
    · exact quiet_nextRecord s _
    · exact .of_reduction rfl rfl rfl rfl
  | reduceMessage =>
    rw [step, reduceMessage]
    split
    · rename_i generation key hreduction
      split_ifs with hcurrent
      · exact Or.inr (Or.inr (Or.inl ⟨generation, key, hcurrent, rfl⟩))
      · exact Or.inl ⟨rfl, rfl, rfl, Or.inr (Or.inl rfl)⟩
    · exact Or.inl (.of_reduction rfl rfl rfl rfl)
  | received accepted =>
    rw [step, received]
    split
    · rename_i generation key clock hreduction
      split_ifs
      · exact Or.inr (Or.inr (Or.inr (Or.inl ⟨generation, key, clock, hreduction, rfl⟩)))
      · exact Or.inl ⟨rfl, rfl, rfl, Or.inr (Or.inl rfl)⟩
    · exact Or.inl (.of_reduction rfl rfl rfl rfl)
  | finish deleted =>
    rw [step, finishInboundReduction]
    split
    · rename_i key hreduction
      cases deleted with
      | true => exact Or.inr (Or.inr (Or.inr (Or.inr (Or.inl ⟨key, hreduction, rfl⟩))))
      | false => exact Or.inl ⟨rfl, rfl, rfl, Or.inr (Or.inl rfl)⟩
    · exact Or.inl (.of_reduction rfl rfl rfl rfl)

/-- What is known of the message that is being reduced, and of the accepted ones. -/
structure Sound (s : DurableInbox) : Prop where
  receiving : ∀ generation key clock, s.reduction = .receiving generation key clock →
    clock.isCurrent generation = true
  finishing : ∀ key, s.reduction = .finishing key →
    ∃ earlier a, s.accepted = earlier ++ [a] ∧ a.key = key
  current : ∀ a ∈ s.accepted, a.clock.isCurrent a.generation = true

theorem Sound.step (h : s.Sound) (a : InboxStep) : (s.step decodes a).Sound := by
  rcases step_cases decodes s a with hquiet | ⟨records, rfl⟩ | ⟨g, k, hcurrent, hstep⟩
    | ⟨g, k, clock, hreduction, hstep⟩ | ⟨k, hreduction, hstep⟩ | rfl
  · refine ⟨fun g k clock hreceiving => ?_, fun k hfinishing => ?_, ?_⟩
    · rcases hquiet.reduction with hsame | hidle | ⟨g', k', hreducing⟩
      · exact h.receiving g k clock (hsame ▸ hreceiving)
      · simp [hidle] at hreceiving
      · simp [hreducing] at hreceiving
    · rw [hquiet.accepted]
      rcases hquiet.reduction with hsame | hidle | ⟨g', k', hreducing⟩
      · exact h.finishing k (hsame ▸ hfinishing)
      · simp [hidle] at hfinishing
      · simp [hreducing] at hfinishing
    · rw [hquiet.accepted]
      exact h.current
  · exact ⟨h.receiving, h.finishing, h.current⟩
  · rw [hstep]
    refine ⟨fun g' k' clock hreceiving => ?_, fun k' hfinishing => ?_, h.current⟩
    · simp only [Reduction.receiving.injEq] at hreceiving
      rw [← hreceiving.1, ← hreceiving.2.2]
      exact hcurrent
    · cases hfinishing
  · rw [hstep]
    refine ⟨fun g' k' clock' hreceiving => ?_, fun k' hfinishing => ?_, ?_⟩
    · cases hreceiving
    · cases hfinishing
      exact ⟨s.accepted, _, rfl, rfl⟩
    · intro a ha
      rcases List.mem_append.mp ha with hearlier | hlast
      · exact h.current a hearlier
      · rw [List.mem_singleton.mp hlast]
        exact h.receiving g k clock hreduction
  · rw [hstep]
    refine ⟨fun g' k' clock' hreceiving => ?_, fun k' hfinishing => ?_, h.current⟩
    · cases hreceiving
    · cases hfinishing
  · exact ⟨h.receiving, h.finishing, h.current⟩

/-- The record of a commit, from then on: `n` acceptances were over when it was committed. -/
structure Accounted (n : ℕ) (key : InboundKey) (s : DurableInbox) : Prop where
  settled : n ≤ s.accepted.length
  finishing : s.reduction = .finishing key → s.AcceptedSince n key
  kept : s.Pending key ∨ s.AcceptedSince n key

theorem AcceptedSince.mono (h : s.AcceptedSince n key) {later : List Acceptance}
    (haccepted : s'.accepted = s.accepted ++ later) : s'.AcceptedSince n key := by
  obtain ⟨a, ha, hkey⟩ := h
  refine ⟨a, ?_, hkey⟩
  rw [haccepted, List.drop_append]
  exact List.mem_append_left _ ha

theorem pending_finishInbound (hpending : s.Pending key) {finished : InboundKey}
    (hkey : finished ≠ key) :
    Pending { s with inbox := (finishInbound s.inbox finished).1, reduction := .idle } key := by
  have hkept := Table.find?_deleteWhere_key s.inbox finished key
  rw [if_neg (Ne.symm hkey)] at hkept
  rw [Pending, finishInbound, hkept]
  exact hpending

theorem Accounted.step (h : Accounted n key s) (hsound : s.Sound) {a : InboxStep}
    (hkept : a ≠ .clearAccountData) : Accounted n key (s.step decodes a) := by
  rcases step_cases decodes s a with hquiet | ⟨records, rfl⟩ | ⟨g, k, hcurrent, hstep⟩
    | ⟨g, k, clock, hreduction, hstep⟩ | ⟨k, hreduction, hstep⟩ | rfl
  · have hsince : s.AcceptedSince n key → (s.step decodes a).AcceptedSince n key :=
      fun hsince => hsince.mono (by rw [hquiet.accepted, List.append_nil])
    refine ⟨hquiet.accepted ▸ h.settled, fun hfinishing => ?_, ?_⟩
    · rcases hquiet.reduction with hsame | hidle | ⟨g, k, hreducing⟩
      · exact hsince (h.finishing (hsame ▸ hfinishing))
      · simp [hidle] at hfinishing
      · simp [hreducing] at hfinishing
    · exact h.kept.imp (fun hpending => by rw [Pending, hquiet.inbox]; exact hpending) hsince
  · exact ⟨h.settled, h.finishing,
      h.kept.imp_left (isSome_find?_mono (rows_prefix_commitInboundBatch s.inbox records))⟩
  · rw [hstep]
    exact ⟨h.settled, by simp, h.kept⟩
  · rw [hstep]
    have hlast : k = key → AcceptedSince { s with
        reduction := .finishing k, accepted := s.accepted ++ [⟨k, g, clock⟩] } n key := by
      rintro rfl
      refine ⟨⟨k, g, clock⟩, ?_, rfl, hsound.receiving g k clock hreduction⟩
      rw [List.drop_append_of_le_length h.settled]
      exact List.mem_append_right _ List.mem_cons_self
    refine ⟨?_, fun hfinishing => ?_, h.kept.imp_right fun hsince => hsince.mono rfl⟩
    · rw [List.length_append]
      exact Nat.le_add_right_of_le h.settled
    · simp only [Reduction.finishing.injEq] at hfinishing
      exact hlast hfinishing
  · rw [hstep]
    refine ⟨h.settled, by simp, ?_⟩
    -- the row that is deleted is the row of the accepted message
    by_cases hkey : k = key
    · exact Or.inr (h.finishing (hkey ▸ hreduction))
    · exact h.kept.imp_left fun hpending => pending_finishInbound hpending hkey
  · exact absurd rfl hkept

/-- A record is accounted for as soon as it is committed. -/
theorem accounted_commit (hsound : s.Sound) {records : List DurableInbound}
    {record : DurableInbound} (hmem : record ∈ records) :
    Accounted s.settled record.key (s.step decodes (.commit records)) := by
  refine ⟨?_, fun hfinishing => ?_, Or.inl (isSome_find?_commitInboundBatch s.inbox hmem)⟩
  · show s.settled ≤ s.accepted.length
    unfold settled
    split <;> omega
  · have hfinishing : s.reduction = .finishing record.key := hfinishing
    obtain ⟨earlier, a, haccepted, hkey⟩ := hsound.finishing _ hfinishing
    have hsettled : s.settled = earlier.length := by
      rw [settled, hfinishing, haccepted, List.length_append]
      rfl
    have hmem : a ∈ s.accepted.drop s.settled := by
      rw [hsettled, haccepted, List.drop_left]
      exact List.mem_cons_self
    exact ⟨a, hmem, hkey, hsound.current a (List.mem_of_mem_drop hmem)⟩

end Durability

/-! ## The order of a pass -/

section Order

variable {decodes : DurableInbound → Bool} {s : DurableInbox}

/-- The records come in the order of `pending_inbound` over some of the committed ones. -/
def Selected (committed records : List DurableInbound) : Prop :=
  ∃ rows, List.Sublist rows committed ∧
    List.Sublist records (orderByThenRow (·.committedAt) rows)

structure Ordered (s : DurableInbox) : Prop where
  rows : s.inbox.rows.Sublist s.committed
  pass : ∀ pass ∈ s.pass, Selected s.committed (pass.handed ++ pass.pending)

theorem Selected.handed {committed handed pending : List DurableInbound}
    (h : Selected committed (handed ++ pending)) :
    handed.Pairwise (fun a b => a.committedAt ≤ b.committedAt) ∧
    (∀ t, (handed.filter (fun r => r.committedAt = t)).Sublist
      (committed.filter (fun r => r.committedAt = t))) ∧
    (committed.Pairwise (fun a b => a.committedAt ≤ b.committedAt) →
      handed.Sublist committed) := by
  obtain ⟨rows, hrows, hselected⟩ := h
  have hhanded := (List.sublist_append_left handed pending).trans hselected
  refine ⟨(pairwise_orderByThenRow _ rows).sublist hhanded, fun t => ?_, fun hsorted => ?_⟩
  · have hfiltered := hhanded.filter (fun r => r.committedAt = t)
    rw [filter_orderByThenRow] at hfiltered
    exact hfiltered.trans (hrows.filter _)
  · rw [orderByThenRow_of_pairwise _ (hsorted.sublist hrows)] at hhanded
    exact hhanded.trans hrows

theorem Selected.mono {committed committed' records records' : List DurableInbound}
    (h : Selected committed records) (hcommitted : committed.Sublist committed')
    (hrecords : records'.Sublist records) : Selected committed' records' := by
  obtain ⟨rows, hrows, hselected⟩ := h
  exact ⟨rows, hrows.trans hcommitted, hrecords.trans hselected⟩

theorem selected_pendingInbound {committed : List DurableInbound} {inbox : InboundInbox}
    (hrows : inbox.rows.Sublist committed) (limit : ℕ) :
    Selected committed (pendingInbound inbox limit) :=
  ⟨inbox.rows, hrows, List.take_sublist _ _⟩

/-- A step that commits nothing and reads no record. -/
theorem Ordered.keep (h : s.Ordered) {s' : DurableInbox}
    (hinbox : s'.inbox.rows.Sublist s.inbox.rows) (hcommitted : s'.committed = s.committed)
    (hpass : s'.pass = s.pass ∨ s'.pass = none) : s'.Ordered := by
  refine ⟨hcommitted ▸ hinbox.trans h.rows, fun pass hmem => ?_⟩
  rw [hcommitted]
  rcases hpass with hsame | hnone
  · exact h.pass pass (hsame ▸ hmem)
  · rw [hnone] at hmem
    cases hmem

theorem Ordered.startWork (h : s.Ordered) (readable : Bool) (work : MessageWork) :
    (s.startWork readable work).Ordered := by
  cases work with
  | drain generation =>
    rw [DurableInbox.startWork]
    split_ifs
    · refine ⟨h.rows, fun pass hmem => ?_⟩
      cases hmem
      exact selected_pendingInbound h.rows 10000
    · exact h
  | live generation key => exact h.keep (List.Sublist.refl _) rfl (Or.inl rfl)
  | barrier => exact h

theorem Ordered.nextRecord (h : s.Ordered) {pass : DrainPass} (hpass : s.pass = some pass) :
    (s.nextRecord decodes pass).Ordered := by
  have hselected := h.pass pass hpass
  unfold DurableInbox.nextRecord
  cases hpending : pass.pending with
  | nil => exact h.keep (List.Sublist.refl _) rfl (Or.inr rfl)
  | cons record pending =>
    rw [hpending] at hselected
    dsimp only
    split_ifs
    · exact h.keep (List.Sublist.refl _) rfl (Or.inr rfl)
    · -- a record that cannot be decoded is left out
      refine ⟨h.rows, fun pass' hmem => ?_⟩
      cases hmem
      exact hselected.mono (List.Sublist.refl _)
        ((List.Sublist.refl _).append (List.sublist_cons_self _ _))
    · refine ⟨h.rows, fun pass' hmem => ?_⟩
      cases hmem
      rw [← List.append_cons]
      exact hselected

theorem Ordered.step (h : s.Ordered) (a : InboxStep) : (s.step decodes a).Ordered := by
  have hsame := List.Sublist.refl s.inbox.rows
  cases a with
  | commit records =>
    obtain ⟨inserted, hinserted⟩ := rows_prefix_commitInboundBatch s.inbox records
    refine ⟨?_, fun pass hmem => ?_⟩
    · rw [DurableInbox.step]
      dsimp only
      rw [← hinserted, List.drop_left]
      exact h.rows.append (List.Sublist.refl inserted)
    · exact (h.pass pass hmem).mono (List.sublist_append_left _ _) (List.Sublist.refl _)
  | beginGeneration => exact h.keep hsame rfl (Or.inl rfl)
  | retireGeneration generation => exact h.keep hsame rfl (Or.inl rfl)
  | send work => exact h.keep hsame rfl (Or.inl rfl)
  | startWork readable =>
    rw [DurableInbox.step]
    split
    · rename_i work queue _ _ _
      have hqueue : Ordered { s with queue } := h.keep hsame rfl (Or.inl rfl)
      exact hqueue.startWork readable work
    · exact h
  | nextRecord =>
    rw [DurableInbox.step]
    split
    · rename_i pass _ hpass _
      exact h.nextRecord hpass
    · exact h
  | reduceMessage =>
    rw [DurableInbox.step, reduceMessage]
    split
    · exact h.keep hsame rfl (Or.inl rfl)
    · exact h
  | received accepted =>
    rw [DurableInbox.step, received]
    split
    · split_ifs <;> exact h.keep hsame rfl (Or.inl rfl)
    · exact h
  | finish deleted =>
    rw [DurableInbox.step, finishInboundReduction]
    split
    · refine h.keep ?_ rfl (Or.inl rfl)
      cases deleted
      · exact hsame
      · exact List.filter_sublist
    · exact h
  | clearAccountData => exact h.keep (List.nil_sublist _) rfl (Or.inl rfl)
  | crash => exact h.keep hsame rfl (Or.inr rfl)

end Order

/-! ## Runs -/

/-- A committed record stays in the inbox until `receive_message` has accepted its message or
the account data is cleared, no commit touches a row that is there already, and a pass hands
records over in the order of their commit times. -/
theorem records_durable_in_order (decodes : DurableInbound → Bool) (before after : List InboxStep)
    (batch : List DurableInbound) (hkept : InboxStep.clearAccountData ∉ after) :
    let s := run (step decodes) {} before
    let committed := s.step decodes (.commit batch)
    let s' := run (step decodes) committed after
    (∀ record ∈ batch, s'.Pending record.key ∨ s'.AcceptedSince s.settled record.key) ∧
      s.inbox.rows <+: committed.inbox.rows ∧ s'.HandedInOrder := by
  intro s committed s'
  have hsound : s.Sound :=
    invariant_run_of_step (fun _ a h => h.step a) ⟨by simp, by simp, by simp⟩ before
  have hordered : s'.Ordered := by
    refine invariant_run_of_step (fun _ a h => h.step a) (Ordered.step ?_ _) after
    exact invariant_run_of_step (fun _ a h => h.step a)
      ⟨List.Sublist.refl _, fun pass hmem => by cases hmem⟩ before
  refine ⟨fun record hmem => ?_, rows_prefix_commitInboundBatch s.inbox batch,
    fun pass hpass => (hordered.pass pass hpass).handed⟩
  have haccounted : s'.Sound ∧ Accounted s.settled record.key s' := by
    refine invariant_run (I := fun s' => s'.Sound ∧ Accounted s.settled record.key s')
      (G := fun _ a => a ≠ InboxStep.clearAccountData) ?_
      ⟨hsound.step _, accounted_commit hsound hmem⟩ ?_
    · intro s' a hs' ha
      exact ⟨hs'.1.step a, hs'.2.step hs'.1 ha⟩
    · exact guarded_of_forall fun a ha hcleared => hkept (hcleared ▸ ha)
  exact haccounted.2.kept

def imageRecord : DurableInbound :=
  ⟨⟨"1", "2", "A1"⟩, [1], "Ann", 42, "image", false, true, false, 20⟩

def textRecord : DurableInbound :=
  ⟨⟨"1", "3", "A2"⟩, [2], "Bob", 42, "text", false, true, false, 10⟩

/-- The process dies while it receives the first of two messages. -/
theorem records_durable_in_order_crash :
    let s' := run (step fun _ => true) {} [.commit [imageRecord, textRecord],
      .beginGeneration, .send (.drain 1), .startWork true, .nextRecord, .reduceMessage,
      .received true, .finish true, .nextRecord, .reduceMessage, .crash]
    (∀ record ∈ [imageRecord, textRecord],
      s'.Pending record.key ∨ s'.AcceptedSince 0 record.key) ∧ ¬s'.Pending textRecord.key :=
  ⟨(records_durable_in_order (fun _ => true) [] [.beginGeneration, .send (.drain 1),
    .startWork true, .nextRecord, .reduceMessage, .received true, .finish true, .nextRecord,
    .reduceMessage, .crash] [imageRecord, textRecord] (by decide)).1, by decide⟩

/-- The clock of the machine was set back before the second record; and a logout clears what
no connection has drained. -/
theorem commit_order_lost_and_inbox_cleared :
    (¬∀ pass ∈ (run (step fun _ => true) {} [.commit [imageRecord], .commit [textRecord],
        .beginGeneration, .send (.drain 1), .startWork true, .nextRecord, .reduceMessage,
        .received true, .finish true, .nextRecord]).pass,
      pass.handed.Sublist [imageRecord, textRecord]) ∧
    ¬∀ record ∈ [imageRecord],
      (run (step fun _ => true) {} [.beginGeneration, .commit [imageRecord],
        .retireGeneration 1, .clearAccountData]).Pending record.key ∨
      (run (step fun _ => true) {} [.beginGeneration, .commit [imageRecord],
        .retireGeneration 1, .clearAccountData]).AcceptedSince 0 record.key := by
  decide

end DurableInbox

end OmarchyWhatsapp
