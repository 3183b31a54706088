import OmarchyWhatsapp.Database.RedeliveryTheorems

/-!
# The read outbox

A read intent is a mark on a chat or the receipt of one message. `MarkRead` and the messages
that arrive in a focused chat queue intents in two tables; one worker takes the batch of the
oldest chat, sends it and removes it. Between its steps everything else goes on.
-/

namespace OmarchyWhatsapp

open Relational

variable (plan : QueryPlan)

inductive ReadIntent where
  | chat (chatJid : String)
  | message (chatJid senderJid messageId : String)
deriving DecidableEq, Repr

def Store.chatPending (s : Store) (chatJid : String) : Bool :=
  (s.pendingReadChats.find? chatJid).isSome

/-- The intent has its row. -/
def ReadIntent.pending (s : Store) : ReadIntent → Bool
  | .chat chatJid => s.chatPending chatJid
  | .message chatJid senderJid messageId => s.receiptPending (chatJid, senderJid, messageId)

/-- The intents of one call: its chat, and each of its receipts. -/
def queuedIntents (chatJid : String) (receipts : List UnreadReceipt) : List ReadIntent :=
  .chat chatJid :: receipts.map (fun r => .message chatJid r.senderJid r.messageId)

/-- The intents that an operation queues. -/
def Op.readIntents (s : Store) : Op → List ReadIntent
  | .queueReadReceipts chatJid receipts _ => queuedIntents chatJid receipts
  | .insertMessageWithReadIntent message _ _ receipt =>
    if suppressed s message then [] else queuedIntents message.chatJid [receipt]
  | _ => []

def Op.finishes : Op → Bool
  | .finishReadBatch _ => true
  | _ => false

/-! ## The worker -/

/-- The store, the batch that is being sent, and the intents queued since it was taken. -/
structure ReadOutbox where
  store : Store := .empty
  sending : Option PendingReadBatch := none
  queued : List ReadIntent := []

/-- `deliver_pending_read` takes and finishes batches, and is the only one to do so. A send that
fails, like a crash, leaves the batch in the tables. -/
inductive ReadStep where
  | write (op : { op : Op // op.finishes = false })
  | takeBatch
  | finishBatch
  | abandonBatch
  | clearAccountData

namespace ReadOutbox

def step (o : ReadOutbox) : ReadStep → ReadOutbox
  | .write op =>
    { o with store := o.store.apply plan op.val, queued := o.queued ++ op.val.readIntents o.store }
  | .takeBatch =>
    if o.sending.isSome then o
    else { o with sending := nextReadBatch plan o.store, queued := [] }
  | .finishBatch =>
    match o.sending with
    | none => o
    | some batch => { o with store := (finishReadBatch o.store batch).1, sending := none }
  | .abandonBatch => { o with sending := none }
  | .clearAccountData => { o with store := .empty, queued := [] }

end ReadOutbox

/-! ## What writes to its tables -/

section Frame

variable (s : Store)

def Store.readTables (s : Store) :
    Table PendingReadChatRow PendingReadChatRow.chatJid ×
      Table PendingReadMessageRow PendingReadMessageRow.key :=
  (s.pendingReadChats, s.pendingReadMessages)

theorem updateContactNameInto_readTables (jid name : String) (source : ℕ) :
    (updateContactNameInto s jid name source).1.readTables = s.readTables := by
  unfold updateContactNameInto
  split_ifs <;> rfl

theorem insertMessageInto_readTables (insert : MessageInsert) :
    (insertMessageInto s insert).1.readTables
      = if suppressed s insert.message then s.readTables
        else (queueReadIntent s insert).readTables := by
  unfold insertMessageInto
  by_cases hs : suppressed s insert.message
  · rw [if_pos hs, if_pos hs]
  · rw [if_neg hs, if_neg hs]
    have hstored : (storeMessage (touchChat (reviveChat s insert) insert)
        insert).1.readTables = s.readTables := by
      unfold reviveChat
      split_ifs <;> rfl
    have hchats := congrArg Prod.fst hstored
    have hmessages := congrArg Prod.snd hstored
    dsimp only [Store.readTables] at hchats hmessages
    unfold queueReadIntent
    cases insert.readIntent with
    | none => exact hstored
    | some receipt => simp only [queueReceipt, Store.readTables, hchats, hmessages]

theorem insertHistoryMessageInto_readTables (chat : Chat) (message : Message) :
    (insertHistoryMessageInto plan s chat message).1.readTables = s.readTables := by
  have hname : (learnSenderName s message).readTables = s.readTables := by
    unfold learnSenderName
    split
    · exact updateContactNameInto_readTables s _ _ _
    · rfl
  have hinto : (insertMessageInto (learnSenderName s message)
      (historyInsert chat message)).1.readTables = s.readTables := by
    rw [insertMessageInto_readTables]
    split <;> exact hname
  unfold insertHistoryMessageInto
  dsimp only
  split
  · exact hinto
  · split <;> exact hinto

theorem insertHistoryConversation_readTables (chat : Chat) (messages : List Message) :
    (insertHistoryConversation plan s chat messages).1.readTables = s.readTables := by
  have hchat : (insertHistoryChatInto s chat).readTables = s.readTables := by
    unfold insertHistoryChatInto
    split <;> rfl
  exact insertHistoryMessages_induction plan (I := fun s' => s'.readTables = s.readTables)
    (fun s' message _ h => (insertHistoryMessageInto_readTables plan s' chat message).trans h) hchat

theorem updateReceipts_readTables (chatJid : String) (ids : List String) (receipt : ℕ)
    (reader : Option String) (receiptAt : ℤ) :
    (updateReceipts s chatJid ids receipt reader receiptAt).1.readTables = s.readTables := by
  refine updateReceipts_induction (I := fun s' => s'.readTables = s.readTables) s _ _ _ _ _
    (fun s' id h => ?_) rfl
  rw [← h]
  unfold updateReceipt
  dsimp only
  split
  · split_ifs <;> rfl
  · rfl

theorem migrateContactJid_readTables (oldJid newJid : String) :
    (migrateContactJid plan s oldJid newJid).1.readTables = s.readTables := by
  unfold migrateContactJid
  split_ifs
  · rfl
  · rfl
  · unfold dropAlias applyMigratedName
    dsimp only
    split <;> rfl

/-- Only the read outbox's own operations and a focused insertion write to its tables. -/
theorem apply_readTables {op : Op} (hfinishes : op.finishes = false)
    (hqueue : ∀ chatJid receipts createdAt, op ≠ .queueReadReceipts chatJid receipts createdAt)
    (hinsert : ∀ m name isGroup r, op ≠ .insertMessageWithReadIntent m name isGroup r) :
    (s.apply plan op).readTables = s.readTables := by
  cases op with
  | insertMessage message chatName isGroup incrementUnread =>
    refine (insertMessageInto_readTables s (liveInsert message chatName isGroup
      incrementUnread)).trans ?_
    split <;> rfl
  | insertMessageWithReadIntent => exact absurd rfl (hinsert _ _ _ _)
  | insertHistoryConversation c => exact insertHistoryConversation_readTables plan s _ _
  | queueReadReceipts => exact absurd rfl (hqueue _ _ _)
  | finishReadBatch => cases hfinishes
  | migrateContactJid oldJid newJid => exact migrateContactJid_readTables plan s _ _
  | updateReceipts => exact updateReceipts_readTables s _ _ _ _ _
  | updateContactName | updateAddressBookName => exact updateContactNameInto_readTables s _ _ _
  | updateGroupName =>
    dsimp only [Store.apply, updateGroupName]
    split_ifs <;> rfl
  | applyReaction =>
    dsimp only [Store.apply, applyReaction]
    split_ifs <;> rfl
  | storePollSecret =>
    dsimp only [Store.apply, storePollSecret]
    split_ifs <;> rfl
  | applyPollVote =>
    dsimp only [Store.apply, applyPollVote]
    split
    · split_ifs <;> rfl
    · rfl
  | applyReadState =>
    dsimp only [Store.apply, applyReadState]
    split_ifs <;> rfl
  | applySyncedReadState =>
    dsimp only [Store.apply, applySyncedReadState, applyReadState]
    split_ifs <;> rfl
  | applySelfReadReceipt =>
    dsimp only [Store.apply, applySelfReadReceipt]
    split_ifs <;> rfl
  | deleteChat =>
    dsimp only [Store.apply, deleteChat]
    split_ifs <;> rfl
  | clearChat =>
    dsimp only [Store.apply, clearChat]
    split_ifs <;> rfl
  | _ => rfl

end Frame

/-! ## What is pending -/

section Pending

variable {s s' : Store}

theorem ReadIntent.pending_congr (h : s'.readTables = s.readTables) (i : ReadIntent) :
    i.pending s' = i.pending s := by
  have hchats : s'.pendingReadChats = s.pendingReadChats := congrArg Prod.fst h
  have hmessages : s'.pendingReadMessages = s.pendingReadMessages := congrArg Prod.snd h
  cases i with
  | chat chatJid => rw [pending, pending, Store.chatPending, Store.chatPending, hchats]
  | message => rw [pending, pending, Store.receiptPending, Store.receiptPending, hmessages]

theorem find?_foldl_insertOrIgnore (chatJid : String) (receipts : List UnreadReceipt)
    (t : Table PendingReadMessageRow PendingReadMessageRow.key) (k : String × String × String) :
    ((receipts.foldl (fun t r =>
        t.insertOrIgnore ⟨chatJid, r.messageId, r.senderJid, r.isGroup⟩) t).find? k).isSome
      = ((t.find? k).isSome || receipts.any (fun r => k = (chatJid, r.senderJid, r.messageId))) := by
  induction receipts generalizing t with
  | nil => simp
  | cons r receipts ih =>
    rw [List.foldl_cons, ih, Table.find?_insertOrIgnore, List.any_cons]
    by_cases hk : k = (chatJid, r.senderJid, r.messageId)
    · simp [hk, PendingReadMessageRow.key]
    · simp [hk, PendingReadMessageRow.key]

/-- Queueing adds the intents of the call to those pending. -/
theorem pending_queueReceipt (chatJid : String) (createdAt : ℤ) (receipts : List UnreadReceipt)
    (i : ReadIntent) :
    i.pending (queueReceipt s chatJid createdAt receipts) = true
      ↔ i.pending s = true ∨ i ∈ queuedIntents chatJid receipts := by
  cases i with
  | chat jid =>
    simp only [ReadIntent.pending, Store.chatPending, queueReceipt, Table.find?_upsert,
      queuedIntents, List.mem_cons, ReadIntent.chat.injEq, List.mem_map, reduceCtorEq,
      and_false, exists_false, or_false]
    by_cases hjid : jid = chatJid
    · simp [hjid]
    · simp [hjid]
  | message jid senderJid messageId =>
    rw [ReadIntent.pending, Store.receiptPending, queueReceipt, find?_foldl_insertOrIgnore]
    simp only [ReadIntent.pending, Store.receiptPending, queuedIntents, Bool.or_eq_true,
      List.any_eq_true, decide_eq_true_eq, Prod.mk.injEq, List.mem_cons, reduceCtorEq, false_or,
      List.mem_map, ReadIntent.message.injEq]
    refine or_congr_right (exists_congr fun r => and_congr_right fun _ => ?_)
    rw [eq_comm, @eq_comm _ senderJid, @eq_comm _ messageId]

/-- An operation of anyone but the worker adds its intents to those pending. -/
theorem pending_apply {op : Op} (hfinishes : op.finishes = false) (i : ReadIntent) :
    i.pending (s.apply plan op) = true ↔ i.pending s = true ∨ i ∈ op.readIntents s := by
  cases op with
  | queueReadReceipts chatJid receipts createdAt => exact pending_queueReceipt _ _ _ _
  | insertMessageWithReadIntent message chatName isGroup receipt =>
    have htables : (s.apply plan
        (.insertMessageWithReadIntent message chatName isGroup receipt)).readTables
          = if suppressed s message then s.readTables
            else (queueReceipt s message.chatJid message.timestamp [receipt]).readTables :=
      insertMessageInto_readTables s (focusedInsert message chatName isGroup receipt)
    rw [Op.readIntents]
    by_cases hs : suppressed s message
    · rw [if_pos hs] at htables
      rw [ReadIntent.pending_congr htables, if_pos hs]
      simp
    · rw [if_neg hs] at htables
      rw [ReadIntent.pending_congr htables, if_neg hs]
      exact pending_queueReceipt _ _ _ _
  | finishReadBatch => cases hfinishes
  | _ =>
    rw [ReadIntent.pending_congr (apply_readTables plan s hfinishes (by simp) (by simp))]
    simp [Op.readIntents]

/-- A receipt is queued with the mark of its chat. -/
theorem chat_mem_readIntents {op : Op} {chatJid senderJid messageId : String}
    (h : .message chatJid senderJid messageId ∈ op.readIntents s) :
    .chat chatJid ∈ op.readIntents s := by
  have hcall : ∀ jid receipts, .message chatJid senderJid messageId ∈ queuedIntents jid receipts →
      .chat chatJid ∈ queuedIntents jid receipts := by
    intro jid receipts hmem
    have hjid : jid = chatJid := by
      simp only [queuedIntents, List.mem_cons, reduceCtorEq, false_or, List.mem_map,
        ReadIntent.message.injEq] at hmem
      exact hmem.choose_spec.2.1
    rw [hjid]
    exact List.mem_cons_self
  cases op with
  | queueReadReceipts => exact hcall _ _ h
  | insertMessageWithReadIntent message _ _ _ =>
    rw [Op.readIntents] at h ⊢
    split at h
    · exact absurd h List.not_mem_nil
    · rename_i hs
      rw [if_neg hs]
      exact hcall _ _ h
  | _ => exact absurd h List.not_mem_nil

/-- The batch has the receipt. -/
def PendingReadBatch.sends (batch : PendingReadBatch) (senderJid messageId : String) : Bool :=
  batch.receipts.any (fun r => r.messageId = messageId && r.senderJid = senderJid)

/-- The batch of a chat is everything that is pending there. -/
theorem sends_of_nextReadBatch {batch : PendingReadBatch} (h : nextReadBatch plan s = some batch)
    {senderJid messageId : String}
    (hpending : s.receiptPending (batch.chatJid, senderJid, messageId) = true) :
    batch.sends senderJid messageId = true := by
  obtain ⟨mark, -, rfl⟩ := Option.map_eq_some_iff.mp h
  obtain ⟨row, hrow⟩ := Option.isSome_iff_exists.mp hpending
  obtain ⟨hmem, hkey⟩ := Table.find?_eq_some.mp hrow
  simp only [PendingReadMessageRow.key, Prod.mk.injEq] at hkey
  obtain ⟨hchat, hsender, hid⟩ := hkey
  rw [PendingReadBatch.sends, List.any_map, List.any_eq_true]
  exact ⟨row, List.mem_filter.mpr ⟨hmem, by simp [hchat]⟩, by simp [hsender, hid]⟩

theorem receiptPending_finishReadBatch (batch : PendingReadBatch) (chatJid senderJid messageId) :
    (finishReadBatch s batch).1.receiptPending (chatJid, senderJid, messageId) = true
      ↔ s.receiptPending (chatJid, senderJid, messageId) = true ∧
        ¬(chatJid = batch.chatJid ∧ batch.sends senderJid messageId = true) := by
  rw [Store.receiptPending, finishReadBatch, Table.find?_deleteWhere, Store.receiptPending]
  cases hfind : s.pendingReadMessages.find? (chatJid, senderJid, messageId) with
  | none => simp
  | some row =>
    have hkey := Table.key_of_find? hfind
    simp only [PendingReadMessageRow.key, Prod.mk.injEq] at hkey
    obtain ⟨rfl, rfl, rfl⟩ := hkey
    simp [PendingReadBatch.sends, Option.filter, imp_iff_not_or]

theorem any_pendingReadMessages (s : Store) (chatJid : String) :
    s.pendingReadMessages.rows.any (fun r => r.chatJid = chatJid) = true
      ↔ ∃ senderJid messageId, s.receiptPending (chatJid, senderJid, messageId) = true := by
  rw [List.any_eq_true]
  constructor
  · rintro ⟨row, hmem, hchat⟩
    refine ⟨row.senderJid, row.messageId, Option.isSome_iff_exists.mpr ⟨row, ?_⟩⟩
    exact Table.find?_eq_some.mpr ⟨hmem, by simpa [PendingReadMessageRow.key] using hchat⟩
  · rintro ⟨senderJid, messageId, hpending⟩
    obtain ⟨row, hrow⟩ := Option.isSome_iff_exists.mp hpending
    refine ⟨row, Table.mem_of_find? hrow, ?_⟩
    have hkey := Table.key_of_find? hrow
    simp only [PendingReadMessageRow.key, Prod.mk.injEq] at hkey
    exact decide_eq_true hkey.1

/-- The mark of the chat goes with the batch, unless a receipt of the chat is left. -/
theorem chatPending_finishReadBatch (batch : PendingReadBatch) (chatJid : String) :
    (finishReadBatch s batch).1.chatPending chatJid = true
      ↔ s.chatPending chatJid = true ∧ (chatJid = batch.chatJid → ∃ senderJid messageId,
        (finishReadBatch s batch).1.receiptPending (chatJid, senderJid, messageId) = true) := by
  have hchats : (finishReadBatch s batch).1.pendingReadChats
      = s.pendingReadChats.deleteWhere (fun c => c.chatJid = batch.chatJid &&
        !(finishReadBatch s batch).1.pendingReadMessages.rows.any
          (fun r => r.chatJid = batch.chatJid)) := rfl
  rw [Store.chatPending, hchats, Table.find?_deleteWhere, Store.chatPending]
  cases hfind : s.pendingReadChats.find? chatJid with
  | none => simp
  | some mark =>
    obtain rfl := Table.key_of_find? hfind
    by_cases hchat : mark.chatJid = batch.chatJid
    · rw [hchat, ← any_pendingReadMessages]
      simp [Option.filter, hchat]
    · simp [Option.filter, hchat]

end Pending

/-! ## Runs -/

/-- What is queued beside a batch outlives it: none of it is a receipt of the batch, and where it
marks the chat of the batch it brings a receipt of that chat. -/
structure QueuedBeyond (batch : PendingReadBatch) (queued : List ReadIntent) : Prop where
  fresh : ∀ senderJid messageId, .message batch.chatJid senderJid messageId ∈ queued →
    batch.sends senderJid messageId = false
  withReceipt : .chat batch.chatJid ∈ queued →
    ∃ senderJid messageId, .message batch.chatJid senderJid messageId ∈ queued

/-- Every pending receipt has the mark of its chat. -/
def Store.ReceiptsMarked (s : Store) : Prop :=
  ∀ row ∈ s.pendingReadMessages.rows, ∃ mark ∈ s.pendingReadChats.rows, mark.chatJid = row.chatJid

theorem receiptsMarked_iff {s : Store} : s.ReceiptsMarked ↔ ∀ chatJid senderJid messageId,
    s.receiptPending (chatJid, senderJid, messageId) = true → s.chatPending chatJid = true := by
  constructor
  · intro h chatJid senderJid messageId hpending
    obtain ⟨row, hrow⟩ := Option.isSome_iff_exists.mp hpending
    obtain ⟨mark, hmark, hchat⟩ := h row (Table.mem_of_find? hrow)
    have hkey := Table.key_of_find? hrow
    simp only [PendingReadMessageRow.key, Prod.mk.injEq] at hkey
    refine Option.isSome_iff_exists.mpr ⟨mark, Table.find?_eq_some.mpr ⟨hmark, ?_⟩⟩
    rw [hchat, hkey.1]
  · intro h row hrow
    obtain ⟨mark, hmark⟩ := Option.isSome_iff_exists.mp
      (h row.chatJid row.senderJid row.messageId
        (Option.isSome_iff_exists.mpr ⟨row, Table.find?_of_mem hrow⟩))
    exact ⟨mark, Table.mem_of_find? hmark, Table.key_of_find? hmark⟩

namespace ReadOutbox

/-- What is queued since the batch was taken is pending, and what is pending in the chat of the
batch was taken with it or queued since. -/
structure Sound (o : ReadOutbox) : Prop where
  marked : ∀ chatJid senderJid messageId,
    o.store.receiptPending (chatJid, senderJid, messageId) = true →
      o.store.chatPending chatJid = true
  queued : o.sending.isSome → ∀ i ∈ o.queued, i.pending o.store = true
  taken : ∀ batch ∈ o.sending, ∀ senderJid messageId,
    o.store.receiptPending (batch.chatJid, senderJid, messageId) = true →
      batch.sends senderJid messageId = true ∨
        .message batch.chatJid senderJid messageId ∈ o.queued

variable {plan} {o : ReadOutbox}

theorem Sound.write (h : o.Sound) (op : { op : Op // op.finishes = false }) :
    (o.step plan (.write op)).Sound := by
  have hpending := fun i => pending_apply plan (s := o.store) op.property i
  constructor
  · intro chatJid senderJid messageId hreceipt
    refine (hpending (.chat chatJid)).mpr ?_
    rcases (hpending (.message chatJid senderJid messageId)).mp hreceipt with hold | hnew
    · exact Or.inl (h.marked _ _ _ hold)
    · exact Or.inr (chat_mem_readIntents hnew)
  · intro hsending i hi
    rcases List.mem_append.mp hi with hi | hi
    · exact (hpending i).mpr (Or.inl (h.queued hsending i hi))
    · exact (hpending i).mpr (Or.inr hi)
  · intro batch hbatch senderJid messageId hreceipt
    rcases (hpending (.message batch.chatJid senderJid messageId)).mp hreceipt with hold | hnew
    · refine (h.taken batch hbatch _ _ hold).imp_right fun hqueued => ?_
      exact List.mem_append_left _ hqueued
    · exact Or.inr (List.mem_append_right _ hnew)

theorem Sound.takeBatch (h : o.Sound) : (o.step plan .takeBatch).Sound := by
  unfold step
  split_ifs
  · exact h
  · exact ⟨h.marked, fun _ i hi => absurd hi List.not_mem_nil,
      fun batch hbatch _ _ hreceipt => Or.inl (sends_of_nextReadBatch plan hbatch hreceipt)⟩

theorem Sound.finishBatch (h : o.Sound) : (o.step plan .finishBatch).Sound := by
  unfold step
  dsimp only
  split
  · exact h
  · rename_i batch hbatch
    refine ⟨fun chatJid senderJid messageId hreceipt => ?_, by simp, by simp⟩
    have hbefore := (receiptPending_finishReadBatch batch _ _ _).mp hreceipt
    exact (chatPending_finishReadBatch batch chatJid).mpr
      ⟨h.marked _ _ _ hbefore.1, fun _ => ⟨_, _, hreceipt⟩⟩

theorem Sound.step (h : o.Sound) (a : ReadStep) : (o.step plan a).Sound := by
  cases a with
  | write op => exact h.write op
  | takeBatch => exact h.takeBatch
  | finishBatch => exact h.finishBatch
  | abandonBatch => exact ⟨h.marked, by simp [ReadOutbox.step], by simp [ReadOutbox.step]⟩
  | clearAccountData =>
    refine ⟨fun _ _ _ hreceipt => ?_, by simp [ReadOutbox.step], fun _ _ _ _ hreceipt => ?_⟩
    · cases hreceipt
    · cases hreceipt

/-- When the batch is finished, all that was queued beside it is still pending exactly if it goes
beyond the batch. -/
theorem Sound.finish_iff (h : o.Sound) {batch : PendingReadBatch} (hbatch : o.sending = some batch) :
    (∀ i ∈ o.queued, i.pending (o.step plan .finishBatch).store = true)
      ↔ QueuedBeyond batch o.queued := by
  have hstore : (o.step plan .finishBatch).store = (finishReadBatch o.store batch).1 := by
    rw [ReadOutbox.step, hbatch]
  have hpending := h.queued (by rw [hbatch]; rfl)
  rw [hstore]
  constructor
  · intro hkept
    constructor
    · intro senderJid messageId hi
      have hleft := (receiptPending_finishReadBatch batch _ _ _).mp (hkept _ hi)
      simpa using hleft.2
    · intro hi
      obtain ⟨senderJid, messageId, hreceipt⟩ :=
        ((chatPending_finishReadBatch batch _).mp (hkept _ hi)).2 rfl
      obtain ⟨hbefore, hfresh⟩ := (receiptPending_finishReadBatch batch _ _ _).mp hreceipt
      refine ⟨senderJid, messageId, (h.taken batch hbatch _ _ hbefore).resolve_left ?_⟩
      exact fun hsent => hfresh ⟨rfl, hsent⟩
  · intro hbeyond
    have hreceipts : ∀ chatJid senderJid messageId,
        .message chatJid senderJid messageId ∈ o.queued →
        (finishReadBatch o.store batch).1.receiptPending (chatJid, senderJid, messageId) = true := by
      intro chatJid senderJid messageId hi
      refine (receiptPending_finishReadBatch batch _ _ _).mpr ⟨hpending _ hi, ?_⟩
      intro ⟨hchat, hsent⟩
      rw [hchat] at hi
      rw [hbeyond.fresh _ _ hi] at hsent
      cases hsent
    intro i hi
    cases i with
    | message chatJid senderJid messageId => exact hreceipts _ _ _ hi
    | chat chatJid =>
      refine (chatPending_finishReadBatch batch chatJid).mpr ⟨hpending _ hi, ?_⟩
      rintro rfl
      obtain ⟨senderJid, messageId, hreceipt⟩ := hbeyond.withReceipt hi
      exact ⟨senderJid, messageId, hreceipts _ _ _ hreceipt⟩

/-- At every point of a run no receipt stands without the mark of its chat, and finishing the
batch that is being sent keeps all that was queued since it was taken exactly if that goes
beyond the batch. -/
theorem intents_kept_iff (plan : QueryPlan) (as : List ReadStep) :
    ∀ o ∈ states (step plan) {} as, o.store.ReceiptsMarked ∧ ∀ batch ∈ o.sending,
      ((∀ i ∈ o.queued, i.pending (o.step plan .finishBatch).store = true)
        ↔ QueuedBeyond batch o.queued) := by
  have hempty : ({} : ReadOutbox).Sound := by
    refine ⟨fun _ _ _ hreceipt => ?_, by simp, by simp⟩
    cases hreceipt
  have hsound : ∀ o ∈ states (step plan) {} as, o.Sound :=
    invariant_states_of_step (fun _ a h => h.step a) hempty as
  intro o ho
  exact ⟨receiptsMarked_iff.mpr (hsound o ho).marked,
    fun batch hbatch => (hsound o ho).finish_iff hbatch⟩

def photoReceipt : UnreadReceipt := ⟨"A1", "1", false⟩

def replyReceipt : UnreadReceipt := ⟨"A2", "1", false⟩

/-- Another message is read while the batch of its chat is being sent. -/
def lateReceiptRun : List ReadStep :=
  [.write ⟨.queueReadReceipts "1" [photoReceipt] 10, rfl⟩, .takeBatch,
    .write ⟨.queueReadReceipts "1" [replyReceipt] 20, rfl⟩]

theorem intents_kept_iff_late_receipt :
    (run (step .stable) {} lateReceiptRun).queued = queuedIntents "1" [replyReceipt] ∧
      ∀ i ∈ (run (step .stable) {} lateReceiptRun).queued,
        i.pending ((run (step .stable) {} lateReceiptRun).step .stable .finishBatch).store
          = true := by
  refine ⟨by decide, ?_⟩
  have h := (intents_kept_iff .stable lateReceiptRun _ (run_mem_states _ _ _)).2
    ⟨"1", [photoReceipt]⟩ (by decide)
  refine h.mpr ⟨?_, fun _ => ⟨"1", "A2", by decide⟩⟩
  intro senderJid messageId hi
  have hqueued : (run (step .stable) {} lateReceiptRun).queued
      = queuedIntents "1" [replyReceipt] := by decide
  rw [hqueued] at hi
  simp only [queuedIntents, List.map_cons, List.map_nil, List.mem_cons, reduceCtorEq,
    ReadIntent.message.injEq, List.not_mem_nil, or_false, false_or] at hi
  obtain ⟨-, rfl, rfl⟩ := hi
  decide

/-- The chat is opened again while its batch is being sent: the mark goes with the batch. -/
theorem mark_removed_with_batch :
    ¬∀ o ∈ states (step .stable) {}
        [.write ⟨.queueReadReceipts "1" [photoReceipt] 10, rfl⟩, .takeBatch,
          .write ⟨.queueReadReceipts "1" [] 20, rfl⟩],
      ∀ batch ∈ o.sending, ∀ i ∈ o.queued,
        i.pending (o.step .stable .finishBatch).store = true := by
  intro h
  have hkept := h _ (run_mem_states _ _ _) ⟨"1", [photoReceipt]⟩ (by decide) (.chat "1") (by decide)
  exact absurd hkept (by decide)

end ReadOutbox

end OmarchyWhatsapp
