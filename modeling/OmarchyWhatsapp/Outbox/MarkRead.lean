import OmarchyWhatsapp.Outbox.ReadOutbox

/-!
# Marking a chat read

`MarkRead` reads the unread receipts of the chat, queues them, reads the newest timestamp of the
chat and applies the boundary, in four transactions. Messages keep arriving between them.
-/

namespace OmarchyWhatsapp

open Relational

variable (plan : QueryPlan)

/-- The `LIMIT` of `unread_receipts`. -/
def unreadReceiptLimit : ℕ := 256

/-- The unread messages of a chat, newest first. -/
def unreadNewestFirst (s : Store) (chatJid : String) : List MessageRow :=
  newestFirst plan (s.messages.rows.filter (fun m => m.chatJid = chatJid && m.unread))

/-- `unread_receipts`. -/
def unreadReceipts (s : Store) (chatJid : String) : List UnreadReceipt :=
  let isGroup := ((s.chats.find? chatJid).map (·.isGroup)).getD false
  ((unreadNewestFirst plan s chatJid).take unreadReceiptLimit).map
    (fun m => ⟨m.id, m.senderJid, isGroup⟩)

/-- A message as `receive_message` stores it: `focused` when its chat is on screen. -/
structure LiveArrival where
  message : Message
  chatName : String
  isGroup : Bool
  focused : Bool

def LiveArrival.op (a : LiveArrival) : Op :=
  if a.focused && !a.message.fromMe then
    .insertMessageWithReadIntent a.message a.chatName a.isGroup
      ⟨a.message.id, a.message.senderJid, a.isGroup⟩
  else .insertMessage a.message a.chatName a.isGroup (!a.message.fromMe && !a.focused)

/-! ## The command -/

inductive MarkReadStage where
  | started
  | receiptsRead (receipts : List UnreadReceipt)
  | receiptsQueued
  | boundaryRead (boundary : ℤ)
  | done
deriving DecidableEq, Repr

/-- The command on its way, with the store from which it read the receipts and the intents that
arrivals queued since. -/
structure MarkReadCommand where
  chatJid : String
  store : Store
  stage : MarkReadStage := .started
  seen : Store := store
  queued : List ReadIntent := []

inductive MarkReadStep where
  | arrive (arrival : LiveArrival)
  | proceed (now : ℤ)

namespace MarkReadCommand

def proceed (c : MarkReadCommand) (now : ℤ) : MarkReadCommand :=
  match c.stage with
  | .started =>
    { c with
      stage := .receiptsRead (unreadReceipts plan c.store c.chatJid)
      seen := c.store
      queued := [] }
  | .receiptsRead receipts =>
    { c with store := queueReceipt c.store c.chatJid now receipts, stage := .receiptsQueued }
  -- `mark_read` gives the connection back between its query and its update
  | .receiptsQueued =>
    { c with stage := .boundaryRead ((maximumMessageTimestamp c.store c.chatJid).getD 0) }
  | .boundaryRead boundary =>
    { c with store := (applyReadBoundary plan c.store c.chatJid boundary []).1, stage := .done }
  | .done => c

def step (c : MarkReadCommand) : MarkReadStep → MarkReadCommand
  | .arrive arrival =>
    { c with
      store := c.store.apply plan arrival.op
      queued := c.queued ++ arrival.op.readIntents c.store }
  | .proceed now => c.proceed plan now

/-- Every message that the next step turns from unread to read has a pending receipt after it. -/
def ReceiptsComplete (c : MarkReadCommand) (now : ℤ) : Prop :=
  ∀ m ∈ c.store.messages.rows, m.unread = true →
    ∀ m' ∈ (c.step plan (.proceed now)).store.messages.rows, m'.key = m.key → m'.read = true →
      (c.step plan (.proceed now)).store.receiptPending m.key = true

/-! ## When the receipts are complete -/

/-- The message is about to be marked read. -/
def Covers (c : MarkReadCommand) (boundary : ℤ) (m : MessageRow) : Prop :=
  m.chatJid = c.chatJid ∧ m.unread = true ∧
    m.timestamp ≤ max (settingsOf c.store c.chatJid).readBoundary boundary

/-- The receipt was pending when the receipts were read, or an arrival queued it since. -/
def HasReceipt (c : MarkReadCommand) (m : MessageRow) : Prop :=
  c.seen.receiptPending m.key = true ∨ .message m.chatJid m.senderJid m.id ∈ c.queued

/-- No receipt is missing among the messages that the query of `unread_receipts` cannot return:
those beyond its limit, and those that became unread after it. -/
structure Undisturbed (c : MarkReadCommand) (boundary : ℤ) : Prop where
  withinLimit : ∀ m ∈ (unreadNewestFirst plan c.seen c.chatJid).drop unreadReceiptLimit,
    ∀ m' ∈ c.store.messages.rows, m'.key = m.key → c.Covers boundary m' → c.HasReceipt m'
  noLateArrival : ∀ m' ∈ c.store.messages.rows, c.Covers boundary m' →
    (∀ m ∈ c.seen.messages.rows, m.unread = true → m.key ≠ m'.key) → c.HasReceipt m'

/-! ## One step -/

variable {plan} {c : MarkReadCommand}

/-- What is pending at each stage: what was when the receipts were read, what arrivals queued
since, and the receipts once they are queued. -/
def Accounted (plan : QueryPlan) (c : MarkReadCommand) : Prop :=
  match c.stage with
  | .started => True
  | .receiptsRead receipts => receipts = unreadReceipts plan c.seen c.chatJid ∧
      ∀ i : ReadIntent, i.pending c.store = true ↔ i.pending c.seen = true ∨ i ∈ c.queued
  | _ => ∀ i : ReadIntent, i.pending c.store = true ↔ (i.pending c.seen = true ∨ i ∈ c.queued) ∨
      i ∈ queuedIntents c.chatJid (unreadReceipts plan c.seen c.chatJid)

theorem finishes_arrival (a : LiveArrival) : a.op.finishes = false := by
  unfold LiveArrival.op
  split <;> rfl

theorem Accounted.arrive (h : c.Accounted plan) (a : LiveArrival) :
    (c.step plan (.arrive a)).Accounted plan := by
  have hpending := fun i => pending_apply plan (s := c.store) (finishes_arrival a) i
  unfold Accounted step at *
  dsimp only
  split at h
  · trivial
  · refine ⟨h.1, fun i => ?_⟩
    rw [hpending, h.2, List.mem_append, or_assoc]
  · intro i
    rw [hpending, h, List.mem_append]
    tauto

theorem Accounted.proceed (h : c.Accounted plan) (now : ℤ) :
    (c.step plan (.proceed now)).Accounted plan := by
  unfold step MarkReadCommand.proceed
  unfold Accounted at h
  dsimp only
  cases hstage : c.stage with
  | started => exact ⟨rfl, fun i => by simp⟩
  | receiptsRead receipts =>
    rw [hstage] at h
    intro i
    rw [pending_queueReceipt, h.2, h.1]
  | receiptsQueued =>
    rw [hstage] at h
    exact h
  | boundaryRead boundary =>
    rw [hstage] at h
    intro i
    rw [← h i]
    exact Bool.eq_iff_iff.mp (ReadIntent.pending_congr rfl i)
  | done =>
    dsimp only
    rw [Accounted, hstage]
    rw [hstage] at h
    exact h

theorem Accounted.step (h : c.Accounted plan) (a : MarkReadStep) :
    (c.step plan a).Accounted plan := by
  cases a with
  | arrive a => exact h.arrive a
  | proceed now => exact h.proceed now

/-! ## The update -/

/-- The update marks the messages it covers, and leaves the outbox alone. -/
theorem receiptsComplete_iff {boundary : ℤ} (hstage : c.stage = .boundaryRead boundary)
    (now : ℤ) : c.ReceiptsComplete plan now
      ↔ ∀ m ∈ c.store.messages.rows, c.Covers boundary m → c.store.receiptPending m.key = true := by
  have hstore : (c.step plan (.proceed now)).store
      = (applyReadBoundary plan c.store c.chatJid boundary []).1 := by
    rw [step, proceed, hstage]
  have hpending : ∀ k, (applyReadBoundary plan c.store c.chatJid boundary []).1.receiptPending k
      = c.store.receiptPending k := fun _ => rfl
  have hmarks : ∀ m, boundaryMarks c.chatJid (max (settingsOf c.store c.chatJid).readBoundary
      (candidateBoundary boundary [])) [] m = true ↔ c.Covers boundary m := by
    intro m
    simp [boundaryMarks, Covers, candidateBoundary, and_assoc]
  unfold ReceiptsComplete
  simp only [hstore, hpending]
  constructor
  · intro h m hm hcovers
    refine h m hm hcovers.2.1 { m with read := true } ?_ rfl rfl
    exact List.mem_map.mpr ⟨m, hm, if_pos ((hmarks m).mpr hcovers)⟩
  · intro h m hm hunread m' hm' hkey hread
    obtain ⟨m₀, hm₀, hm'⟩ := List.mem_map.mp hm'
    split at hm'
    · rename_i hmarked
      subst hm'
      have hsame : m₀ = m := c.store.messages.key_inj hm₀ hm hkey
      exact h m hm (hsame ▸ (hmarks m₀).mp hmarked)
    · subst hm'
      have hsame : m₀ = m := c.store.messages.key_inj hm₀ hm hkey
      rw [MessageRow.unread, ← hsame, hread] at hunread
      simp at hunread

/-- A message of the chat has a receipt at the update if it had one anyway, or if it was among
the newest unread messages when the receipts were read. -/
theorem receiptPending_iff {boundary : ℤ} (h : c.Accounted plan)
    (hstage : c.stage = .boundaryRead boundary) {m : MessageRow} (hchat : m.chatJid = c.chatJid) :
    c.store.receiptPending m.key = true ↔ c.HasReceipt m ∨
      ∃ row ∈ (unreadNewestFirst plan c.seen c.chatJid).take unreadReceiptLimit,
        row.key = m.key := by
  unfold Accounted at h
  rw [hstage] at h
  refine (h (.message m.chatJid m.senderJid m.id)).trans (or_congr Iff.rfl ?_)
  simp only [queuedIntents, unreadReceipts, List.mem_cons, reduceCtorEq, false_or, List.mem_map,
    ReadIntent.message.injEq, exists_exists_and_eq_and]
  refine exists_congr fun row => and_congr_right fun hrow => ?_
  have hrowChat : row.chatJid = c.chatJid := by
    have hmem := List.mem_filter.mp (plan.mem_orderBy.mp (List.mem_of_mem_take hrow))
    simp only [Bool.and_eq_true, decide_eq_true_eq] at hmem
    exact hmem.2.1
  simp [MessageRow.key, hchat, hrowChat]

theorem mem_unreadNewestFirst {s : Store} {chatJid : String} {m : MessageRow} :
    m ∈ unreadNewestFirst plan s chatJid
      ↔ m ∈ s.messages.rows ∧ m.chatJid = chatJid ∧ m.unread = true := by
  rw [unreadNewestFirst, newestFirst, plan.mem_orderBy, List.mem_filter, Bool.and_eq_true,
    decide_eq_true_eq]

theorem nodup_unreadNewestFirst (s : Store) (chatJid : String) :
    (unreadNewestFirst plan s chatJid).Nodup :=
  (plan.perm _ _).nodup_iff.mpr ((List.Nodup.of_map _ s.messages.nodup).filter _)

theorem undisturbed_iff {boundary : ℤ} : c.Undisturbed plan boundary
      ↔ ∀ m ∈ c.store.messages.rows, c.Covers boundary m → c.HasReceipt m ∨
        ∃ row ∈ (unreadNewestFirst plan c.seen c.chatJid).take unreadReceiptLimit,
          row.key = m.key := by
  constructor
  · intro h m hm hcovers
    by_cases hseen : ∃ row ∈ c.seen.messages.rows, row.unread = true ∧ row.key = m.key
    · obtain ⟨row, hrow, hunread, hkey⟩ := hseen
      have hchat : row.chatJid = c.chatJid := (congrArg Prod.fst hkey).trans hcovers.1
      have hlisted : row ∈ unreadNewestFirst plan c.seen c.chatJid :=
        mem_unreadNewestFirst.mpr ⟨hrow, hchat, hunread⟩
      rw [← List.take_append_drop unreadReceiptLimit (unreadNewestFirst plan c.seen c.chatJid),
        List.mem_append] at hlisted
      rcases hlisted with htaken | hbeyond
      · exact Or.inr ⟨row, htaken, hkey⟩
      · exact Or.inl (h.withinLimit row hbeyond m hm hkey.symm hcovers)
    · refine Or.inl (h.noLateArrival m hm hcovers fun row hrow hunread hkey => ?_)
      exact hseen ⟨row, hrow, hunread, hkey⟩
  · intro h
    constructor
    · intro row hbeyond m hm hkey hcovers
      refine (h m hm hcovers).resolve_right fun ⟨row', htaken, hkey'⟩ => ?_
      -- no message is both among the newest and beyond them
      have hseen := (mem_unreadNewestFirst.mp (List.mem_of_mem_drop hbeyond)).1
      have hseen' := (mem_unreadNewestFirst.mp (List.mem_of_mem_take htaken)).1
      have hsame : row' = row := c.seen.messages.key_inj hseen' hseen (hkey'.trans hkey)
      have hnodup : (unreadNewestFirst plan c.seen c.chatJid).Nodup :=
        nodup_unreadNewestFirst _ _
      rw [← List.take_append_drop unreadReceiptLimit (unreadNewestFirst plan c.seen c.chatJid)]
        at hnodup
      exact List.disjoint_of_nodup_append hnodup (hsame ▸ htaken) hbeyond
    · intro m hm hcovers hfresh
      refine (h m hm hcovers).resolve_right fun ⟨row, htaken, hkey⟩ => ?_
      obtain ⟨hrow, -, hunread⟩ := mem_unreadNewestFirst.mp (List.mem_of_mem_take htaken)
      exact hfresh row hrow hunread hkey

/-- `mark_read` leaves no message without its receipt exactly if none is missing beyond the limit
of the query or after it. -/
theorem receipts_complete_iff (plan : QueryPlan) (chatJid : String) (s : Store)
    (as : List MarkReadStep) (now : ℤ) :
    ∀ c ∈ states (step plan) { chatJid, store := s } as, ∀ boundary,
      c.stage = .boundaryRead boundary →
        (c.ReceiptsComplete plan now ↔ c.Undisturbed plan boundary) := by
  have haccounted : ∀ c ∈ states (step plan) { chatJid, store := s } as, c.Accounted plan :=
    invariant_states_of_step (fun _ a h => h.step a) trivial as
  intro c hc boundary hstage
  rw [receiptsComplete_iff hstage, undisturbed_iff]
  refine forall₂_congr fun m hm => forall_congr' fun hcovers => ?_
  exact receiptPending_iff (haccounted c hc) hstage hcovers.1

def unfocusedArrival (id : String) (timestamp : ℤ) : LiveArrival where
  message := directMessage "1" id "hi" timestamp
  chatName := "1"
  isGroup := false
  focused := false

/-- A chat with one unread message, when the boundary has been read. -/
def oneUnread : MarkReadCommand :=
  run (step .stable) { chatJid := "1", store := .empty }
    [.arrive (unfocusedArrival "A1" 10), .proceed 20, .proceed 20, .proceed 20]

theorem receipts_complete_iff_one_unread :
    oneUnread.store.messages.rows.countP (·.unread) = 1 ∧
      oneUnread.ReceiptsComplete .stable 20 := by
  refine ⟨by decide, (receipts_complete_iff .stable "1" .empty _ 20 oneUnread
    (run_mem_states _ _ _) 10 (by decide)).mpr ⟨?_, ?_⟩⟩
  · have hnone : (unreadNewestFirst .stable oneUnread.seen oneUnread.chatJid).drop
        unreadReceiptLimit = [] := by decide
    rw [hnone]
    exact fun m hm => absurd hm List.not_mem_nil
  · intro m hm _ hfresh
    have hseen : ∀ m ∈ oneUnread.store.messages.rows, ∃ row ∈ oneUnread.seen.messages.rows,
        row.unread = true ∧ row.key = m.key := by decide
    obtain ⟨row, hrow, hunread, hkey⟩ := hseen m hm
    exact absurd hkey (hfresh row hrow hunread)

/-- A message that arrives after the receipts were read is marked read without one. -/
theorem arrival_marked_without_receipt :
    ¬∀ c ∈ states (step .stable) { chatJid := "1", store := .empty }
        [.proceed 20, .proceed 20, .arrive (unfocusedArrival "A1" 10), .proceed 20],
      c.ReceiptsComplete .stable 20 := by
  intro h
  let arrived : MessageRow :=
    { chatJid := "1", id := "A1", senderJid := "1", senderName := "1", text := "hi",
      timestamp := 10, fromMe := false }
  have hreceipt := h _ (run_mem_states _ _ _) arrived (by decide) rfl
    { arrived with read := true } (by decide) rfl rfl
  exact absurd hreceipt (by decide)

end MarkReadCommand

end OmarchyWhatsapp
