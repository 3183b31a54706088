import OmarchyWhatsapp.Database.ReadState
import OmarchyWhatsapp.Relational.Backlog
import OmarchyWhatsapp.Relational.Fallible

/-!
# Which read intents a worker comes to

`run_read_outbox` takes the batch of the oldest chat, again and again, until a delivery fails or
nothing is pending. The next pass begins at the oldest chat again.
-/

namespace OmarchyWhatsapp

open Relational

/-- The client library. Its calls for a chat always fail, or always succeed. -/
structure ReadTransport (Jid : Type) where
  parse : String → Option Jid
  markAsRead : Jid → Option Jid → List String → Except String Unit
  markChatAsRead : Jid → Except String Unit
  accepts : Jid → Bool
  markAsRead_isOk : ∀ chat sender ids, (markAsRead chat sender ids).isOk = accepts chat
  markChatAsRead_isOk : ∀ chat, (markChatAsRead chat).isOk = accepts chat

/-! ## A delivery -/

/-- `grouped.entry(receipt.sender_jid.clone()).or_default().push(receipt.message_id.clone())`. -/
def pushReceipt (grouped : List (String × List String)) (receipt : UnreadReceipt) :
    List (String × List String) :=
  if grouped.any (fun g => g.1 = receipt.senderJid) then
    grouped.map fun g =>
      if g.1 = receipt.senderJid then (g.1, g.2 ++ [receipt.messageId]) else g
  else grouped ++ [(receipt.senderJid, [receipt.messageId])]

def PendingReadBatch.isGroup (batch : PendingReadBatch) : Bool :=
  batch.receipts.head?.any (·.isGroup)

section Worker

variable (plan : QueryPlan) {Jid : Type} (t : ReadTransport Jid)

/-- The receipts of one sender of a group. -/
def markGroupAsRead (chat : Jid) (group : String × List String) : Except String Unit :=
  match t.parse group.1 with
  | none => .error "invalid queued read sender JID"
  | some sender => t.markAsRead chat (some sender) group.2

/-- What `deliver_pending_read` sends for a batch. The hash map yields its groups in any order, as
a query without `ORDER BY` does. -/
def sendReadBatch (batch : PendingReadBatch) : Except String Unit :=
  match t.parse batch.chatJid with
  | none => .error "invalid queued read chat JID"
  | some chat => do
    if batch.isGroup then
      (plan.scan (batch.receipts.foldl pushReceipt [])).forM (markGroupAsRead t chat)
    else if !batch.receipts.isEmpty then
      t.markAsRead chat none (batch.receipts.map (·.messageId))
    t.markChatAsRead chat

/-- `deliver_pending_read`: the store that it leaves, or none where nothing is pending. -/
def deliverPendingRead (s : Store) : Except String (Option Store) :=
  match nextReadBatch plan s with
  | none => .ok none
  | some batch => do
    sendReadBatch plan t batch
    return some (finishReadBatch s batch).1

/-- The inner loop of `run_read_outbox`, for so many deliveries at most. -/
def deliveries : ℕ → Store → Store
  | 0, s => s
  | n + 1, s =>
    match deliverPendingRead plan t s with
    | .ok (some s') => deliveries n s'
    | _ => s

/-- A pass of the worker. Every delivery finishes a chat. -/
def readPass (s : Store) : Store := deliveries plan t s.pendingReadChats.rows.length s

end Worker

/-! ## What a delivery takes -/

/-- The batch of a chat: everything that is pending there. -/
def Store.readBatch (s : Store) (chatJid : String) : PendingReadBatch where
  chatJid := chatJid
  receipts := (s.pendingReadMessages.rows.filter (fun r => r.chatJid = chatJid)).map
    (fun r => ⟨r.messageId, r.senderJid, r.isGroup⟩)

/-- The JIDs of the batch parse, and the transport accepts its chat. -/
def ReadTransport.delivers {Jid : Type} (t : ReadTransport Jid) (batch : PendingReadBatch) : Bool :=
  (t.parse batch.chatJid).any t.accepts &&
    (!batch.isGroup || batch.receipts.all (fun r => (t.parse r.senderJid).isSome))

theorem mem_pushReceipt {sender : String} {grouped : List (String × List String)}
    {receipt : UnreadReceipt} :
    (∃ g ∈ pushReceipt grouped receipt, g.1 = sender) ↔
      (∃ g ∈ grouped, g.1 = sender) ∨ receipt.senderJid = sender := by
  unfold pushReceipt
  by_cases hany : grouped.any (fun g => g.1 = receipt.senderJid) = true
  · rw [if_pos hany]
    have hkeys : ∀ g : String × List String,
        (if g.1 = receipt.senderJid then (g.1, g.2 ++ [receipt.messageId]) else g).1 = g.1 := by
      intro g
      split <;> rfl
    simp only [List.mem_map, exists_exists_and_eq_and, hkeys]
    refine (or_iff_left_of_imp fun hsender => ?_).symm
    obtain ⟨g, hg, hreceipt⟩ := List.any_eq_true.mp hany
    exact ⟨g, hg, (of_decide_eq_true hreceipt).trans hsender⟩
  · rw [if_neg hany]
    simp only [List.mem_append, List.mem_singleton, or_and_right, exists_or, exists_eq_left]

/-- The groups have the senders of the receipts. -/
theorem mem_groups {sender : String} (receipts : List UnreadReceipt)
    (grouped : List (String × List String)) :
    (∃ g ∈ receipts.foldl pushReceipt grouped, g.1 = sender) ↔
      (∃ g ∈ grouped, g.1 = sender) ∨ ∃ r ∈ receipts, r.senderJid = sender := by
  induction receipts generalizing grouped with
  | nil => simp
  | cons r receipts ih =>
    rw [List.foldl_cons, ih, mem_pushReceipt, or_assoc]
    simp only [List.mem_cons, exists_eq_or_imp]

section Delivery

variable (plan : QueryPlan) {Jid : Type} (t : ReadTransport Jid)

theorem markGroupAsRead_isOk (chat : Jid) (group : String × List String) :
    (markGroupAsRead t chat group).isOk = ((t.parse group.1).isSome && t.accepts chat) := by
  unfold markGroupAsRead
  cases t.parse group.1 with
  | none => rfl
  | some sender => exact t.markAsRead_isOk chat (some sender) group.2

theorem sendReadBatch_isOk (batch : PendingReadBatch) :
    (sendReadBatch plan t batch).isOk = t.delivers batch := by
  unfold sendReadBatch ReadTransport.delivers
  cases t.parse batch.chatJid with
  | none => rfl
  | some chat =>
    dsimp only
    rw [Option.any_some]
    cases haccepts : t.accepts chat with
    | false =>
      -- the last call fails, unless an earlier one does
      have hlast := (t.markChatAsRead_isOk chat).trans haccepts
      split
      · rw [isOk_then, hlast, Bool.and_false, Bool.false_and]
      · split
        · rw [isOk_then, hlast, Bool.and_false, Bool.false_and]
        · rw [hlast, Bool.false_and]
    | true =>
      have hlast := (t.markChatAsRead_isOk chat).trans haccepts
      rw [Bool.true_and]
      split
      · rename_i hgroup
        rw [isOk_then, hlast, Bool.and_true, isOk_forM, hgroup, Bool.not_true, Bool.false_or,
          Bool.eq_iff_iff, List.all_eq_true, List.all_eq_true]
        simp only [markGroupAsRead_isOk, haccepts, Bool.and_true, plan.mem_scan]
        constructor
        · intro h r hr
          obtain ⟨g, hg, hsender⟩ := (mem_groups batch.receipts []).mpr (Or.inr ⟨r, hr, rfl⟩)
          exact hsender ▸ h g hg
        · intro h g hg
          rcases (mem_groups batch.receipts []).mp ⟨g, hg, rfl⟩ with ⟨_, hnil, -⟩ | ⟨r, hr, hsender⟩
          · exact absurd hnil List.not_mem_nil
          · exact hsender ▸ h r hr
      · rename_i hgroup
        rw [Bool.eq_false_iff.mpr hgroup, Bool.not_false, Bool.true_or]
        split
        · rw [isOk_then, hlast, t.markAsRead_isOk, haccepts, Bool.and_true]
        · exact hlast

end Delivery

/-! ## What a delivery leaves -/

/-- The marks of the chats, oldest first. -/
def Store.marksInOrder (plan : QueryPlan) (s : Store) : List PendingReadChatRow :=
  plan.orderBy (termThenText (·.createdAt) (·.chatJid)) s.pendingReadChats.rows

/-- Nothing is pending in the chat any more. -/
def Store.withoutReads (s : Store) (chatJid : String) : Store :=
  { s with
    pendingReadChats := s.pendingReadChats.deleteWhere (fun c => c.chatJid = chatJid)
    pendingReadMessages := s.pendingReadMessages.deleteWhere (fun r => r.chatJid = chatJid) }

section Store

variable {plan : QueryPlan} {s : Store}

theorem nextReadBatch_eq :
    nextReadBatch plan s = (s.marksInOrder plan).head?.map (fun c => s.readBatch c.chatJid) := rfl

theorem finishReadBatch_readBatch (chatJid : String) :
    (finishReadBatch s (s.readBatch chatJid)).1 = s.withoutReads chatJid := by
  have hmessages : s.pendingReadMessages.deleteWhere (fun r => r.chatJid = chatJid &&
      (s.readBatch chatJid).receipts.any
        (fun b => b.messageId = r.messageId && b.senderJid = r.senderJid))
      = s.pendingReadMessages.deleteWhere (fun r => r.chatJid = chatJid) := by
    refine Table.ext (List.filter_congr fun r hr => ?_)
    dsimp only
    cases hchat : decide (r.chatJid = chatJid) with
    | false => rw [Bool.false_and]
    | true =>
      have hbatch : (s.readBatch chatJid).receipts.any
          (fun b => b.messageId = r.messageId && b.senderJid = r.senderJid) = true := by
        rw [Store.readBatch, List.any_map, List.any_eq_true]
        exact ⟨r, List.mem_filter.mpr ⟨hr, hchat⟩, by simp⟩
      rw [hbatch, Bool.and_true]
  have hnone : (s.pendingReadMessages.deleteWhere (fun r => r.chatJid = chatJid)).rows.any
      (fun r => r.chatJid = chatJid) = false := by
    rw [List.any_eq_false]
    intro r hr
    simpa using (Table.mem_deleteWhere.mp hr).2
  have hchat : (s.readBatch chatJid).chatJid = chatJid := rfl
  unfold finishReadBatch
  dsimp only
  rw [hchat, hmessages, hnone]
  simp only [Bool.not_false, Bool.and_true]
  rfl

theorem ties_marks (a : PendingReadChatRow) (ha : a ∈ s.pendingReadChats.rows)
    (b : PendingReadChatRow) (hb : b ∈ s.pendingReadChats.rows)
    (hab : termThenText (·.createdAt) (·.chatJid) a b)
    (hba : termThenText (·.createdAt) (·.chatJid) b a) : a = b :=
  s.pendingReadChats.key_inj ha hb (termThenText_antisymm hab hba)

theorem marksInOrder_withoutReads (chatJid : String) :
    (s.withoutReads chatJid).marksInOrder plan
      = (s.marksInOrder plan).filter (fun c => !decide (c.chatJid = chatJid)) :=
  plan.orderBy_filter termThenText_total termThenText_trans ties_marks _

theorem readBatch_withoutReads {chatJid other : String} (h : other ≠ chatJid) :
    (s.withoutReads chatJid).readBatch other = s.readBatch other := by
  unfold Store.readBatch Store.withoutReads
  dsimp only [Table.rows_deleteWhere]
  rw [List.filter_filter]
  congr 2
  refine List.filter_congr fun r _ => ?_
  by_cases hr : r.chatJid = other
  · simp [hr, h]
  · simp [hr]

theorem nodup_marksInOrder : ((s.marksInOrder plan).map (·.chatJid)).Nodup :=
  ((plan.perm _ _).map _).nodup_iff.mpr s.pendingReadChats.nodup

theorem mem_marksInOrder (plan : QueryPlan) {mark : PendingReadChatRow} :
    mark ∈ s.marksInOrder plan ↔ mark ∈ s.pendingReadChats.rows := plan.mem_orderBy

theorem marksInOrder_cons {mark : PendingReadChatRow} {rest : List PendingReadChatRow}
    (h : s.marksInOrder plan = mark :: rest) :
    (s.withoutReads mark.chatJid).marksInOrder plan = rest := by
  have hnodup := @nodup_marksInOrder plan s
  rw [h, List.map_cons, List.nodup_cons] at hnodup
  rw [marksInOrder_withoutReads, h, List.filter_cons_of_neg (by simp), List.filter_eq_self]
  intro c hc
  have hne : c.chatJid ≠ mark.chatJid := fun heq =>
    hnodup.1 (heq ▸ List.mem_map_of_mem hc)
  simpa using hne

/-- Chats that are finished one after the other. -/
def Store.finishReads (s : Store) (finished : List PendingReadChatRow) : Store :=
  finished.foldl (fun s mark => s.withoutReads mark.chatJid) s

theorem marksInOrder_finishReads {finished rest : List PendingReadChatRow}
    (h : s.marksInOrder plan = finished ++ rest) :
    (s.finishReads finished).marksInOrder plan = rest := by
  induction finished generalizing s with
  | nil => exact h
  | cons mark finished ih => exact ih (marksInOrder_cons h)

theorem readBatch_finishReads {finished : List PendingReadChatRow} {chatJid : String}
    (h : ∀ mark ∈ finished, chatJid ≠ mark.chatJid) :
    (s.finishReads finished).readBatch chatJid = s.readBatch chatJid := by
  induction finished generalizing s with
  | nil => rfl
  | cons mark finished ih =>
    obtain ⟨hmark, hfinished⟩ := List.forall_mem_cons.mp h
    exact (ih hfinished).trans (readBatch_withoutReads hmark)

theorem receipts_finishReads {finished : List PendingReadChatRow} {chatJid : String}
    (h : ∃ mark ∈ finished, mark.chatJid = chatJid) :
    ((s.finishReads finished).readBatch chatJid).receipts = [] := by
  have hgone : ∀ s : Store, ((s.withoutReads chatJid).readBatch chatJid).receipts = [] := by
    intro s
    rw [Store.readBatch, List.map_eq_nil_iff, List.filter_eq_nil_iff]
    intro r hr
    simpa using (Table.mem_deleteWhere.mp hr).2
  induction finished generalizing s with
  | nil => obtain ⟨_, hnil, -⟩ := h; exact absurd hnil List.not_mem_nil
  | cons mark finished ih =>
    by_cases hlater : ∃ mark ∈ finished, mark.chatJid = chatJid
    · exact ih hlater
    · -- the later ones leave the chat as it is
      obtain ⟨mark', hmark', rfl⟩ := h
      obtain rfl := (List.mem_cons.mp hmark').resolve_right fun hmem => hlater ⟨_, hmem, rfl⟩
      have hkeep := @readBatch_finishReads (s.withoutReads mark'.chatJid) finished mark'.chatJid
        fun m hm heq => hlater ⟨m, hm, heq.symm⟩
      exact (congrArg _ hkeep).trans (hgone s)

end Store

/-! ## What the passes leave -/

/-- The transport takes what is pending in the chat of the mark. -/
def Store.deliverable {Jid : Type} (t : ReadTransport Jid) (s : Store)
    (mark : PendingReadChatRow) : Bool :=
  t.delivers (s.readBatch mark.chatJid)

/-- The mark of the chat is gone, and so are its receipts. -/
def Store.ReadsFinished (s : Store) (chatJid : String) : Prop :=
  (∀ mark ∈ s.pendingReadChats.rows, mark.chatJid ≠ chatJid) ∧
    (s.readBatch chatJid).receipts = []

section Passes

variable {plan : QueryPlan} {Jid : Type} {t : ReadTransport Jid} {s : Store}

theorem deliverPendingRead_cons {mark : PendingReadChatRow} {rest : List PendingReadChatRow}
    (h : s.marksInOrder plan = mark :: rest) :
    deliverPendingRead plan t s = (sendReadBatch plan t (s.readBatch mark.chatJid) >>= fun _ =>
      .ok (some (s.withoutReads mark.chatJid))) := by
  rw [deliverPendingRead, nextReadBatch_eq, h, ← finishReadBatch_readBatch]
  rfl

/-- The worker goes on until it comes to a chat that it cannot deliver. -/
theorem deliveries_eq {n : ℕ} (hn : (s.marksInOrder plan).length ≤ n) :
    deliveries plan t n s = s.finishReads ((s.marksInOrder plan).takeWhile (s.deliverable t)) := by
  induction n generalizing s with
  | zero =>
    rw [List.eq_nil_of_length_eq_zero (Nat.le_zero.mp hn)]
    rfl
  | succ n ih =>
    rw [deliveries]
    cases hmarks : s.marksInOrder plan with
    | nil =>
      rw [deliverPendingRead, nextReadBatch_eq, hmarks]
      rfl
    | cons mark rest =>
      rw [deliverPendingRead_cons hmarks]
      have hsent := sendReadBatch_isOk plan t (s.readBatch mark.chatJid)
      cases hsend : sendReadBatch plan t (s.readBatch mark.chatJid) with
      | error e =>
        rw [hsend] at hsent
        have hfails : s.deliverable t mark = false := hsent.symm
        rw [List.takeWhile_cons_of_neg (by rw [hfails]; exact Bool.false_ne_true)]
        rfl
      | ok _ =>
        rw [hsend] at hsent
        have hdelivers : s.deliverable t mark = true := hsent.symm
        have hrest := marksInOrder_cons hmarks
        have hlength : ((s.withoutReads mark.chatJid).marksInOrder plan).length ≤ n := by
          rw [hmarks, List.length_cons] at hn
          rw [hrest]
          omega
        -- the other chats keep their receipts
        have hsame : ∀ c ∈ rest,
            (s.withoutReads mark.chatJid).deliverable t c = s.deliverable t c := by
          intro c hc
          have hnodup := @nodup_marksInOrder plan s
          rw [hmarks, List.map_cons, List.nodup_cons] at hnodup
          have hne : c.chatJid ≠ mark.chatJid := fun heq =>
            hnodup.1 (heq ▸ List.mem_map_of_mem hc)
          rw [Store.deliverable, readBatch_withoutReads hne, Store.deliverable]
        rw [List.takeWhile_cons_of_pos hdelivers, ← takeWhile_congr hsame, ← hrest]
        exact ih hlength

theorem readPass_eq :
    readPass plan t s = s.finishReads ((s.marksInOrder plan).takeWhile (s.deliverable t)) :=
  deliveries_eq (plan.length_orderBy _ _).le

theorem marksInOrder_readPass :
    (readPass plan t s).marksInOrder plan
      = (s.marksInOrder plan).dropWhile (s.deliverable t) := by
  rw [readPass_eq]
  exact marksInOrder_finishReads List.takeWhile_append_dropWhile.symm

/-- The chats that are left keep their receipts. -/
theorem deliverable_readPass {mark : PendingReadChatRow}
    (h : mark ∈ (s.marksInOrder plan).dropWhile (s.deliverable t)) :
    (readPass plan t s).deliverable t mark = s.deliverable t mark := by
  have hnodup := @nodup_marksInOrder plan s
  rw [← List.takeWhile_append_dropWhile (p := s.deliverable t) (l := s.marksInOrder plan),
    List.map_append, List.nodup_append] at hnodup
  rw [readPass_eq, Store.deliverable, readBatch_finishReads, Store.deliverable]
  intro c hc heq
  exact hnodup.2.2 _ (List.mem_map_of_mem hc) _ (List.mem_map_of_mem h) heq.symm

/-- A second pass stops at once. -/
theorem readPass_readPass : readPass plan t (readPass plan t s) = readPass plan t s := by
  rw [readPass_eq (s := readPass plan t s), marksInOrder_readPass,
    takeWhile_congr (q := s.deliverable t) fun c hc => deliverable_readPass hc]
  have hnil : ((s.marksInOrder plan).dropWhile (s.deliverable t)).takeWhile (s.deliverable t)
      = [] := by
    have happend := List.takeWhile_append_dropWhile (p := s.deliverable t)
      (l := (s.marksInOrder plan).dropWhile (s.deliverable t))
    rwa [List.dropWhile_idempotent, List.append_left_eq_self] at happend
  rw [hnil]
  rfl

theorem iterate_readPass (n : ℕ) : (readPass plan t)^[n + 1] s = readPass plan t s := by
  induction n with
  | zero => rfl
  | succ n ih => rw [Function.iterate_succ_apply', ih, readPass_readPass]

theorem readsFinished_readPass {mark : PendingReadChatRow}
    (h : mark ∈ (s.marksInOrder plan).takeWhile (s.deliverable t)) :
    (readPass plan t s).ReadsFinished mark.chatJid := by
  constructor
  · intro c hc heq
    rw [← mem_marksInOrder plan, marksInOrder_readPass] at hc
    have hnodup := @nodup_marksInOrder plan s
    rw [← List.takeWhile_append_dropWhile (p := s.deliverable t) (l := s.marksInOrder plan),
      List.map_append, List.nodup_append] at hnodup
    exact hnodup.2.2 _ (List.mem_map_of_mem h) _ (List.mem_map_of_mem hc) heq.symm
  · rw [readPass_eq]
    exact receipts_finishReads ⟨mark, h, rfl⟩

/-- Where a chat that cannot be delivered is older, a pass leaves the chat. -/
theorem readPass_blocked {failing mark : PendingReadChatRow}
    (hfailing : failing ∈ s.pendingReadChats.rows) (hmark : mark ∈ s.pendingReadChats.rows)
    (hbefore : termThenText (·.createdAt) (·.chatJid) failing mark)
    (hfails : s.deliverable t failing = false) :
    mark ∈ (readPass plan t s).pendingReadChats.rows := by
  have hsplit := List.takeWhile_append_dropWhile (p := s.deliverable t) (l := s.marksInOrder plan)
  have hsorted : (s.marksInOrder plan).Pairwise
      (termThenText (·.createdAt) (·.chatJid) · ·) :=
    plan.sorted _ termThenText_total termThenText_trans s.pendingReadChats.rows
  rw [← hsplit, List.pairwise_append] at hsorted
  rw [← mem_marksInOrder plan, ← hsplit, List.mem_append] at hfailing hmark
  rw [← mem_marksInOrder plan, marksInOrder_readPass]
  refine hmark.resolve_left fun hdelivered => ?_
  have hleft := hfailing.resolve_left fun h =>
    Bool.false_ne_true (hfails.symm.trans (List.mem_takeWhile_imp h))
  have hafter := hsorted.2.2 mark hdelivered failing hleft
  have hmem : ∀ c, c ∈ (s.marksInOrder plan).takeWhile (s.deliverable t) ++
      (s.marksInOrder plan).dropWhile (s.deliverable t) → c ∈ s.pendingReadChats.rows := by
    intro c hc
    rwa [hsplit, mem_marksInOrder] at hc
  have hsame := ties_marks failing (hmem _ (List.mem_append_right _ hleft)) mark
    (hmem _ (List.mem_append_left _ hdelivered)) hbefore hafter
  exact Bool.false_ne_true (hfails.symm.trans (hsame ▸ List.mem_takeWhile_imp hdelivered))

/-- After as many passes as chats are pending, the transport has taken every chat that it accepts,
exactly if none that it does not take comes before one. -/
theorem acceptedFinished_iff :
    (∀ mark ∈ s.pendingReadChats.rows, s.deliverable t mark = true →
      ((readPass plan t)^[s.pendingReadChats.rows.length] s).ReadsFinished mark.chatJid) ↔
    ∀ a ∈ s.pendingReadChats.rows, ∀ b ∈ s.pendingReadChats.rows,
      termThenText (·.createdAt) (·.chatJid) a b →
      s.deliverable t b = true → s.deliverable t a = true := by
  cases hlength : s.pendingReadChats.rows.length with
  | zero =>
    rw [List.length_eq_zero_iff] at hlength
    rw [hlength]
    exact iff_of_true (fun _ h => absurd h List.not_mem_nil) fun _ h => absurd h List.not_mem_nil
  | succ n =>
    rw [iterate_readPass]
    have hordered := plan.pairwise_orderBy_iff termThenText_total termThenText_trans
      (@ties_marks s) (Q := fun a b => s.deliverable t b = true → s.deliverable t a = true)
      fun _ h => h
    rw [← hordered, ← Store.marksInOrder, ← forall_mem_dropWhile_iff]
    constructor
    · intro h c hc
      have hleft := hc
      rw [← marksInOrder_readPass, mem_marksInOrder] at hleft
      refine Bool.eq_false_iff.mpr fun hdelivers => ?_
      have hrow := (mem_marksInOrder plan).mp (List.dropWhile_sublist _ |>.subset hc)
      exact (h c hrow hdelivers).1 c hleft rfl
    · intro h mark hmark hdelivers
      refine readsFinished_readPass ?_
      have hsplit := (mem_marksInOrder plan).mpr hmark
      rw [← List.takeWhile_append_dropWhile (p := s.deliverable t) (l := s.marksInOrder plan),
        List.mem_append] at hsplit
      exact hsplit.resolve_right fun hdrop =>
        Bool.false_ne_true ((h mark hdrop).symm.trans hdelivers)

end Passes

/-- A client library that fails for one chat. -/
def refusesFirst : ReadTransport String where
  parse := some
  markAsRead chat _ _ := if chat = "1@s.whatsapp.net" then .error "not found" else .ok ()
  markChatAsRead chat := if chat = "1@s.whatsapp.net" then .error "not found" else .ok ()
  accepts chat := decide (chat ≠ "1@s.whatsapp.net")
  markAsRead_isOk := by
    intro chat _ _
    by_cases h : chat = "1@s.whatsapp.net" <;> simp [h, Except.isOk, Except.toBool]
  markChatAsRead_isOk := by
    intro chat
    by_cases h : chat = "1@s.whatsapp.net" <;> simp [h, Except.isOk, Except.toBool]

def twoMarks : Store where
  pendingReadChats := ⟨[⟨"1@s.whatsapp.net", 1⟩, ⟨"2@s.whatsapp.net", 2⟩], by decide⟩

theorem not_acceptedFinished_twoMarks :
    ¬ ∀ (plan : QueryPlan) (t : ReadTransport String) (s : Store),
      ∀ mark ∈ s.pendingReadChats.rows, s.deliverable t mark = true →
        ((readPass plan t)^[s.pendingReadChats.rows.length] s).ReadsFinished mark.chatJid := by
  intro h
  have hfinished := h .stable refusesFirst twoMarks ⟨"2@s.whatsapp.net", 2⟩
    (List.mem_cons_of_mem _ List.mem_cons_self) (by decide)
  rw [show twoMarks.pendingReadChats.rows.length = 1 + 1 from rfl, iterate_readPass] at hfinished
  have hblocked : ⟨"2@s.whatsapp.net", 2⟩
      ∈ (readPass .stable refusesFirst twoMarks).pendingReadChats.rows :=
    @readPass_blocked _ _ _ _ ⟨"1@s.whatsapp.net", 1⟩ _ List.mem_cons_self
      (List.mem_cons_of_mem _ List.mem_cons_self) (by decide) (by decide)
  exact hfinished.1 _ hblocked rfl

end OmarchyWhatsapp
