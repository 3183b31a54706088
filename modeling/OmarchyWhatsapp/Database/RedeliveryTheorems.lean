import OmarchyWhatsapp.Database.InsertTheorems

/-!
# Redelivery

A message that is stored already arrives again: live, live while its chat is on screen, or in
a history sync. The insertion ignores the row and leaves the counter alone, but it touches
the chat row, the names, the media and the read outbox before it knows. `Harmless` is the
exact condition under which none of that shows.
-/

namespace OmarchyWhatsapp

open Relational

variable (plan : QueryPlan)

/-- The ways in which a message arrives again. -/
inductive Redelivery where
  | live (chatName : String) (isGroup incrementUnread : Bool)
  | focused (chatName : String) (isGroup : Bool) (receipt : UnreadReceipt)
  | history (chat : Chat)

/-- The header of a replayed conversation is that of the chat of the message. -/
def Redelivery.deliver (s : Store) (m : Message) : Redelivery → Store
  | .live chatName isGroup incrementUnread =>
    (insertMessage plan s m chatName isGroup incrementUnread).1
  | .focused chatName isGroup receipt =>
    (insertMessageWithReadIntent plan s m chatName isGroup receipt).1
  | .history chat => (insertHistoryConversation plan s { chat with jid := m.chatJid } [m]).1

/-! ## What a redelivery should leave unchanged -/

/-- The receipts that `finish_read_batch` takes from the outbox. -/
def finishedBy (s : Store) : Op → List (String × String × String)
  | .finishReadBatch batch =>
    (s.pendingReadMessages.rows.filter (fun r => r.chatJid = batch.chatJid &&
      batch.receipts.any (fun b => b.messageId = r.messageId && b.senderJid = r.senderJid))).map
        PendingReadMessageRow.key
  | _ => []

/-- The receipts finished in the course of a run. -/
def finishedReceipts (s : Store) : List Op → List (String × String × String)
  | [] => []
  | op :: ops => finishedBy s op ++ finishedReceipts (s.apply plan op) ops

/-- The preview and the counter that the chat list shows for a chat. -/
def Store.preview (s : Store) (jid : String) : Option (String × String × ℤ × ℕ) :=
  (s.chats.find? jid).map fun c =>
    (c.lastMessage, (newestMessage s c.jid).elim "" (·.senderName), c.lastTimestamp, c.unread)

def Store.receiptPending (s : Store) (k : String × String × String) : Bool :=
  (s.pendingReadMessages.find? k).isSome

/-- The message rows, the previews and counters, and the receipts that were finished. -/
structure Unchanged (finished : List (String × String × String)) (s s' : Store) : Prop where
  messages : s'.messages = s.messages
  previews : ∀ jid, s'.preview jid = s.preview jid
  receipts : ∀ k ∈ finished, s'.receiptPending k = s.receiptPending k

/-! ## When it does -/

/-- The message is dropped, or is older than the preview of its chat, or is the preview. -/
def PreviewKept (s : Store) (m : Message) : Prop :=
  suppressed s m = true ∨ ∀ c ∈ s.chats.find? m.chatJid,
    m.timestamp < c.lastTimestamp ∨ (m.timestamp = c.lastTimestamp ∧ m.text = c.lastMessage)

/-- A replayed message names its sender. -/
def LearnsName (s : Store) (m : Message) : Prop :=
  m.fromMe = false ∧ m.senderName ≠ m.senderJid ∧ trim m.senderName ≠ "" ∧
    (s.contacts.find? m.senderJid).any (fun c => decide (0 < c.source)) = false

/-- The name differs from the one stored with a message of the sender. -/
def RenamesSender (s : Store) (m : Message) : Prop :=
  LearnsName s m ∧ ∃ row ∈ s.messages.rows,
    row.senderJid = m.senderJid ∧ row.senderName ≠ trim m.senderName

/-- The media of a replayed message is what is stored. -/
def MediaCurrent (s : Store) (m : Message) : Prop :=
  ∀ media ∈ m.media, ∀ row ∈ s.messagesById m.chatJid m.id,
    mediaOutdated m.chatJid m.id (storedMedia plan s m.chatJid m.id media) row = false

/-- A replayed GIF relabels the placeholder of its preview. -/
def relabelPreview (s : Store) (m : Message) (text : String) : String :=
  match m.media with
  | none => text
  | some media =>
    if isGif (storedMedia plan s m.chatJid m.id media) && text = "[Video]" &&
      (newestFirst plan (s.chatMessages m.chatJid)).head?.any (fun row => row.id = m.id)
    then "[GIF]" else text

/-- The preview text after a replayed message has touched its chat. -/
def replayedPreview (s : Store) (m : Message) (c : ChatRow) : String :=
  relabelPreview plan s m
    (if suppressed s m = false ∧ c.lastTimestamp ≤ m.timestamp then m.text else c.lastMessage)

/-- The redelivery changes nothing that shows. -/
def Redelivery.Harmless (finished : List (String × String × String)) (s : Store) (m : Message) :
    Redelivery → Prop
  | .live .. => PreviewKept s m
  | .focused _ _ receipt => PreviewKept s m ∧ (suppressed s m = true ∨
      ((m.chatJid, receipt.senderJid, receipt.messageId) ∈ finished →
        s.receiptPending (m.chatJid, receipt.senderJid, receipt.messageId) = true))
  | .history chat => ¬RenamesSender s m ∧ MediaCurrent plan s m ∧
      ∀ c ∈ s.chats.find? m.chatJid,
        (chatDeleted s m.chatJid = true ∨ chat.lastTimestamp ≤ c.lastTimestamp) ∧
        (suppressed s m = true ∨ m.timestamp ≤ c.lastTimestamp) ∧
        replayedPreview plan s m c = c.lastMessage

/-! ## The chat row -/

section Counters

variable {s s' : Store}

/-- The columns of a chat row that the preview shows. -/
def Store.counters (s : Store) (jid : String) : Option (String × ℤ × ℕ) :=
  (s.chats.find? jid).map fun c => (c.lastMessage, c.lastTimestamp, c.unread)

/-- With the same messages, the preview is that of the chat row. -/
theorem preview_eq_iff (hm : s'.messages = s.messages) (jid : String) :
    s'.preview jid = s.preview jid ↔ s'.counters jid = s.counters jid := by
  have hnewest : ∀ c, newestMessage s' c = newestMessage s c := by
    intro c
    simp only [newestMessage, Store.chatMessages, hm]
  unfold Store.preview Store.counters
  rcases h' : s'.chats.find? jid with _ | c' <;> rcases h : s.chats.find? jid with _ | c
  · simp
  · simp
  · simp
  · have hj' : c'.jid = jid := Table.key_of_find? h'
    have hj : c.jid = jid := Table.key_of_find? h
    simp [hnewest, hj', hj]

theorem counters_of_update {p : ChatRow → Bool} {f : ChatRow → ChatRow}
    (h : s'.chats.rows = s.chats.rows.map (fun c => if p c then f c else c))
    (hf : ∀ c, (f c).jid = c.jid ∧ (f c).lastMessage = c.lastMessage ∧
      (f c).lastTimestamp = c.lastTimestamp ∧ (f c).unread = c.unread) (jid : String) :
    s'.counters jid = s.counters jid := by
  have hupdate : s'.chats = s.chats.updateWhere p f (fun c => (hf c).1) := Table.ext h
  rw [Store.counters, hupdate, Table.find?_updateWhere, Option.map_map, Store.counters]
  refine Option.map_congr fun c _ => ?_
  rw [Function.comp_apply]
  split
  · rw [(hf c).2.1, (hf c).2.2.1, (hf c).2.2.2]
  · rfl

/-- What touching a chat does to its counters. -/
def touched (m : Message) (x : String × ℤ × ℕ) : String × ℤ × ℕ :=
  (if x.2.1 ≤ m.timestamp then m.text else x.1, max x.2.1 m.timestamp, x.2.2)

theorem touched_eq_self_iff {m : Message} {x : String × ℤ × ℕ} :
    touched m x = x ↔ m.timestamp < x.2.1 ∨ (m.timestamp = x.2.1 ∧ m.text = x.1) := by
  obtain ⟨text, timestamp, unread⟩ := x
  simp only [touched, Prod.mk.injEq, and_true]
  rcases lt_trichotomy m.timestamp timestamp with h | h | h
  · simp [not_le.mpr h, max_eq_left h.le, h]
  · simp [h]
  · have hne : ¬max timestamp m.timestamp = timestamp := by
      rw [max_eq_right h.le]
      exact h.ne'
    simp [hne, not_lt.mpr h.le, h.ne']

/-- A message that is stored leaves the messages as they are. -/
theorem messages_insertMessageInto_of_stored {insert : MessageInsert}
    (hstored : (s.messages.find? insert.message.key).isSome = true) :
    (insertMessageInto s insert).1.messages = s.messages := by
  by_cases hs : suppressed s insert.message = true
  · rw [insertMessageInto_of_suppressed hs]
  · rw [Bool.not_eq_true] at hs
    have hkey : (proposedMessage s insert).key = insert.message.key := rfl
    have hne := Option.isSome_iff_ne_none.mp hstored
    rw [insertMessageInto_messages hs]
    refine Table.ext ?_
    rw [Table.rows_insertOrIgnore, hkey, if_neg hne]

/-- It touches its chat, which is listed, unless it is suppressed. -/
theorem counters_insertMessageInto_of_stored {insert : MessageInsert}
    (hstored : (s.messages.find? insert.message.key).isSome = true)
    (hchat : s.hasChat insert.message.chatJid) (jid : String) :
    (insertMessageInto s insert).1.counters jid
      = if jid = insert.message.chatJid ∧ suppressed s insert.message = false then
          (s.counters jid).map (touched insert.message)
        else s.counters jid := by
  by_cases hs : suppressed s insert.message = true
  · rw [insertMessageInto_of_suppressed hs, if_neg (by simp [hs])]
  · rw [Bool.not_eq_true] at hs
    have hcounts : countsUnread s insert = false := by
      obtain ⟨row, hrow⟩ := Option.isSome_iff_exists.mp hstored
      simp [countsUnread, hrow]
    rw [Store.counters, find?_chats_insertMessageInto hs, hcounts]
    by_cases hj : jid = insert.message.chatJid
    · obtain ⟨c, hc⟩ := hasChat_iff_find?.mp hchat
      rw [if_pos hj, if_pos ⟨hj, hs⟩, Store.counters, hj, hc]
      rfl
    · rw [if_neg hj, if_neg (fun hand => hj hand.1)]
      rfl

/-- Retention has nothing to prune after a redelivery. -/
theorem pruneChatHistory_of_messages_eq (hw : WellFormed s) (hm : s'.messages = s.messages)
    (jid : String) : (pruneChatHistory plan s' jid).messages = s'.messages := by
  have hlength : (s'.chatMessages jid).length ≤ retention := by
    rw [Store.chatMessages, hm]
    exact hw.retained jid
  rw [(pruneChatHistory_frame plan s' jid).1, keepNewest_of_length_le plan hlength]

end Counters

/-! ## Live redeliveries -/

section Live

variable {s : Store} {insert : MessageInsert}

theorem messages_insertMessageInner_of_stored (hw : WellFormed s)
    (hstored : (s.messages.find? insert.message.key).isSome = true) :
    (insertMessageInner plan s insert).1.messages = s.messages := by
  have hmessages := messages_insertMessageInto_of_stored hstored
  exact (pruneChatHistory_of_messages_eq plan hw hmessages _).trans hmessages

/-- The previews survive a live redelivery exactly when it keeps the preview of its chat. -/
theorem previews_insertMessageInner_iff (insert : MessageInsert) (hw : WellFormed s)
    (hstored : (s.messages.find? insert.message.key).isSome = true) :
    (∀ jid, (insertMessageInner plan s insert).1.preview jid = s.preview jid) ↔
      PreviewKept s insert.message := by
  have hmessages := messages_insertMessageInner_of_stored plan hw hstored
  obtain ⟨row, hrow⟩ := Option.isSome_iff_exists.mp hstored
  obtain ⟨hrow, hk⟩ := Table.find?_eq_some.mp hrow
  have hchat : s.hasChat insert.message.chatJid := by
    have h := hw.chatOfMessage row hrow
    rwa [show row.chatJid = insert.message.chatJid from congrArg Prod.fst hk] at h
  have hcounters : ∀ jid, (insertMessageInner plan s insert).1.counters jid
      = if jid = insert.message.chatJid ∧ suppressed s insert.message = false then
          (s.counters jid).map (touched insert.message)
        else s.counters jid := counters_insertMessageInto_of_stored hstored hchat
  simp only [preview_eq_iff hmessages, hcounters, PreviewKept]
  obtain ⟨c, hc⟩ := hasChat_iff_find?.mp hchat
  rw [or_iff_not_imp_left, Bool.not_eq_true]
  constructor
  · intro h hs c' hc'
    have hself := h insert.message.chatJid
    rw [if_pos ⟨rfl, hs⟩, Store.counters, Option.mem_def.mp hc', Option.map_some,
      Option.map_some, Option.some_inj] at hself
    exact touched_eq_self_iff.mp hself
  · intro h jid
    split
    · rename_i hand
      obtain ⟨rfl, hs⟩ := hand
      rw [Store.counters, hc, Option.map_some, Option.map_some,
        touched_eq_self_iff.mpr (h hs c hc)]
    · rfl

theorem receiptPending_insertMessageInner (insert : MessageInsert) (k : String × String × String) :
    (insertMessageInner plan s insert).1.receiptPending k
      = (s.receiptPending k || (!suppressed s insert.message &&
          insert.readIntent.any (fun r =>
            k = (insert.message.chatJid, r.senderJid, r.messageId)))) := by
  have hprune : (insertMessageInner plan s insert).1.pendingReadMessages
      = (insertMessageInto s insert).1.pendingReadMessages := rfl
  rw [Store.receiptPending, hprune, Store.receiptPending, insertMessageInto]
  split
  · rename_i hs
    simp [hs]
  · rename_i hs
    have hbase : (storeMessage (touchChat (reviveChat s insert) insert)
        insert).1.pendingReadMessages = s.pendingReadMessages := by simp
    unfold queueReadIntent
    cases hr : insert.readIntent with
    | none => simp
    | some r =>
      simp only [queueReceipt, List.foldl_cons, List.foldl_nil, hbase, Table.find?_insertOrIgnore]
      by_cases hk : k = (insert.message.chatJid, r.senderJid, r.messageId)
      · simp [hs, hk, PendingReadMessageRow.key]
      · simp [hk, PendingReadMessageRow.key]

end Live

/-! ## Replayed messages -/

section History

variable {s : Store}

theorem learnSenderName_of_not_learns {m : Message} (h : ¬LearnsName s m) :
    learnSenderName s m = s := by
  unfold learnSenderName updateContactNameInto
  split
  · rename_i hlearn
    split
    · rfl
    · rename_i htrim
      split
      · rfl
      · rename_i hsource
        have hlearn' : m.fromMe = false ∧ m.senderName ≠ m.senderJid := by simpa using hlearn
        exact absurd ⟨hlearn'.1, hlearn'.2, htrim, by simpa using hsource⟩ h
  · rfl

/-- The row of a sender that is renamed. -/
def renameSenderRow (m : Message) (row : MessageRow) : MessageRow :=
  if row.senderJid = m.senderJid then { row with senderName := trim m.senderName } else row

theorem rows_learnSenderName {m : Message} (h : LearnsName s m) :
    (learnSenderName s m).messages.rows = s.messages.rows.map (renameSenderRow m) := by
  obtain ⟨hf, hne, htrim, hsource⟩ := h
  rw [learnSenderName, if_pos (by simp [hf, hne]), updateContactNameInto, if_neg htrim,
    if_neg (by rw [hsource]; exact Bool.false_ne_true)]
  refine List.map_congr_left fun row _ => ?_
  simp only [renameSenderRow, decide_eq_true_eq]

/-- Only the names of the sender change, and they do if the message renames one. -/
theorem learnSenderName_messages_iff (m : Message) :
    (learnSenderName s m).messages.rows.map MessageRow.senderName
      = s.messages.rows.map MessageRow.senderName ↔ ¬RenamesSender s m := by
  by_cases hlearn : LearnsName s m
  · rw [rows_learnSenderName hlearn, List.map_map, List.map_inj_left]
    constructor
    · rintro hsame ⟨-, row, hrow, hj, hne⟩
      have hrow := hsame row hrow
      rw [Function.comp_apply, renameSenderRow, if_pos hj] at hrow
      exact hne hrow.symm
    · intro hnot row hrow
      rw [Function.comp_apply, renameSenderRow]
      split
      · rename_i hj
        by_contra hne
        exact hnot ⟨hlearn, row, hrow, hj, fun heq => hne heq.symm⟩
      · rfl
  · rw [learnSenderName_of_not_learns hlearn]
    exact iff_of_true rfl fun hr => hlearn hr.1

theorem learnSenderName_messages {m : Message} (h : ¬RenamesSender s m) :
    (learnSenderName s m).messages = s.messages := by
  by_cases hlearn : LearnsName s m
  · refine Table.ext ((rows_learnSenderName hlearn).trans ?_)
    conv_rhs => rw [← List.map_id s.messages.rows]
    refine List.map_congr_left fun row hrow => ?_
    rw [renameSenderRow, id]
    split
    · rename_i hj
      have hname : row.senderName = trim m.senderName := by
        by_contra hne
        exact h ⟨hlearn, row, hrow, hj, hne⟩
      rw [← hname]
    · rfl
  · rw [learnSenderName_of_not_learns hlearn]

theorem counters_learnSenderName (m : Message) (jid : String) :
    (learnSenderName s m).counters jid = s.counters jid := by
  unfold learnSenderName updateContactNameInto
  split
  · split
    · rfl
    · split
      · rfl
      · refine counters_of_update rfl ?_ jid
        exact fun _ => ⟨rfl, rfl, rfl, rfl⟩
  · rfl

/-- A replayed header touches only the time of its chat. -/
theorem counters_insertHistoryChatInto {chat : Chat} (hchat : s.hasChat chat.jid)
    (jid : String) :
    (insertHistoryChatInto s chat).counters jid
      = if jid = chat.jid ∧ chatDeleted s chat.jid = false then
          (s.counters jid).map (fun x => (x.1, max x.2.1 chat.lastTimestamp, x.2.2))
        else s.counters jid := by
  by_cases hd : chatDeleted s chat.jid = true
  · rw [insertHistoryChatInto, if_pos hd, if_neg (by simp [hd])]
  · rw [Bool.not_eq_true] at hd
    rw [Store.counters, find?_insertHistoryChatInto hd]
    by_cases hj : jid = chat.jid
    · obtain ⟨c, hc⟩ := hasChat_iff_find?.mp hchat
      rw [if_pos hj, if_pos ⟨hj, hd⟩, Store.counters, hj, hc]
      rfl
    · rw [if_neg hj, if_neg (fun hand => hj hand.1)]
      rfl

/-- Completed media change the row of the message and nothing else about it. -/
theorem messages_updateMessageMediaInto_iff (chatJid messageId : String) (media : MessageMedia) :
    (updateMessageMediaInto plan s chatJid messageId media).1.messages = s.messages ↔
      ∀ row ∈ s.messagesById chatJid messageId,
        mediaOutdated chatJid messageId (storedMedia plan s chatJid messageId media) row = false := by
  have hrows : (updateMessageMediaInto plan s chatJid messageId media).1.messages.rows
      = s.messages.rows.map (fun row =>
          if mediaOutdated chatJid messageId (storedMedia plan s chatJid messageId media) row then
            { row with
              media := some (storedMedia plan s chatJid messageId media)
              text := relabel (storedMedia plan s chatJid messageId media) row.text }
          else row) := rfl
  constructor
  · intro h row hrow
    obtain ⟨hmem, hc, hid⟩ := Store.mem_messagesById.mp hrow
    rw [h] at hrows
    nth_rewrite 1 [← List.map_id s.messages.rows] at hrows
    have hsame := (List.map_inj_left.mp hrows) row hmem
    by_contra hout
    rw [Bool.not_eq_false] at hout
    rw [if_pos hout, id_eq] at hsame
    have hmedia : row.media = some (storedMedia plan s chatJid messageId media) :=
      congrArg MessageRow.media hsame
    have htext : row.text = relabel (storedMedia plan s chatJid messageId media) row.text :=
      congrArg MessageRow.text hsame
    simp only [mediaOutdated, hmedia, hc, hid, bne_self_eq_false, Bool.false_or,
      Bool.and_eq_true, decide_eq_true_eq] at hout
    rw [relabel, if_pos (by simp [hout.2.1, hout.2.2]), hout.2.2] at htext
    exact absurd htext (by decide)
  · intro h
    refine Table.ext (hrows.trans ?_)
    conv_rhs => rw [← List.map_id s.messages.rows]
    refine List.map_congr_left fun row hrow => ?_
    have hcurrent : mediaOutdated chatJid messageId (storedMedia plan s chatJid messageId media)
        row = false := by
      by_cases hrid : row.chatJid = chatJid ∧ row.id = messageId
      · exact h row (Store.mem_messagesById.mpr ⟨hrow, hrid⟩)
      · rw [mediaOutdated, Bool.and_eq_false_iff, Bool.and_eq_false_iff, decide_eq_false_iff_not,
          decide_eq_false_iff_not]
        exact Or.inl (not_and_or.mp hrid)
    rw [hcurrent]
    rfl

theorem storedMedia_congr {s' : Store} (hm : s'.messages = s.messages)
    (hv : s'.pollVotes = s.pollVotes) (chatJid id : String) (media : MessageMedia) :
    storedMedia plan s' chatJid id media = storedMedia plan s chatJid id media := by
  simp only [storedMedia, reconcilePollTallies, previousMedia, Store.votesOf,
    Store.messagesById, hm, hv]

theorem pollVotes_insertMessageInto (insert : MessageInsert) :
    (insertMessageInto s insert).1.pollVotes = s.pollVotes := by
  unfold insertMessageInto queueReadIntent reviveChat
  split
  · rfl
  · dsimp only
    split <;> split <;> rfl

/-- A stored message stays stored under its new sender name. -/
theorem stored_learnSenderName (m : Message) {k : String × String × String}
    (hstored : (s.messages.find? k).isSome = true) :
    ((learnSenderName s m).messages.find? k).isSome = true := by
  by_cases hlearn : LearnsName s m
  · obtain ⟨row, hrow⟩ := Option.isSome_iff_exists.mp hstored
    obtain ⟨hrow, hk⟩ := Table.find?_eq_some.mp hrow
    refine Option.isSome_iff_exists.mpr ⟨renameSenderRow m row, Table.find?_eq_some.mpr ⟨?_, ?_⟩⟩
    · rw [rows_learnSenderName hlearn]
      exact List.mem_map_of_mem hrow
    · rw [renameSenderRow]
      split <;> exact hk
  · rwa [learnSenderName_of_not_learns hlearn]

/-- The store while one stored message is replayed, before and after its media. -/
def replayTouched (s : Store) (chat : Chat) (m : Message) : Store :=
  (insertMessageInto (learnSenderName (insertHistoryChatInto s chat) m) (historyInsert chat m)).1

def replayMedia (s : Store) (m : Message) : Store :=
  match m.media with
  | none => s
  | some media => (updateMessageMediaInto plan s m.chatJid m.id media).1

variable {m : Message} {chat : Chat}

theorem messages_replayTouched (hstored : (s.messages.find? m.key).isSome = true) :
    (replayTouched s chat m).messages
      = (learnSenderName (insertHistoryChatInto s chat) m).messages := by
  refine messages_insertMessageInto_of_stored (stored_learnSenderName m ?_)
  rwa [(insertHistoryChatInto_frame s chat).1]

theorem insertHistoryConversation_of_stored (hstored : (s.messages.find? m.key).isSome = true) :
    (insertHistoryConversation plan s chat [m]).1
      = pruneChatHistory plan (replayMedia plan (replayTouched s chat m) m) chat.jid := by
  have hold : ((learnSenderName (insertHistoryChatInto s chat) m).messages.find?
      (historyInsert chat m).message.key).isSome = true := by
    refine stored_learnSenderName m ?_
    rwa [(insertHistoryChatInto_frame s chat).1]
  have hinserted : (insertMessageInto (learnSenderName (insertHistoryChatInto s chat) m)
      (historyInsert chat m)).2 = false := by
    obtain ⟨row, hrow⟩ := Option.isSome_iff_exists.mp hold
    rw [insertMessageInto_inserted, hrow]
    simp
  have hreplay : (insertHistoryMessageInto plan (insertHistoryChatInto s chat) chat m).1
      = replayMedia plan (replayTouched s chat m) m := by
    rw [insertHistoryMessageInto, if_neg (by simp [hinserted])]
    unfold replayMedia
    cases m.media <;> rfl
  exact congrArg (pruneChatHistory plan · chat.jid) hreplay

theorem replayMedia_messagesFrom (s : Store) (m : Message) :
    MessagesFrom s (replayMedia plan s m) := by
  unfold replayMedia
  split
  · exact .of_eq rfl
  · exact updateMessageMediaInto_messagesFrom plan s _ _ _

theorem senderNames_replayMedia (s : Store) (m : Message) :
    (replayMedia plan s m).messages.rows.map MessageRow.senderName
      = s.messages.rows.map MessageRow.senderName := by
  unfold replayMedia
  split
  · rfl
  · refine (List.map_map (l := _)).trans (List.map_congr_left fun row _ => ?_)
    rw [Function.comp_apply]
    split <;> rfl

theorem renamesSender_congr {s' : Store} (hm : s'.messages = s.messages)
    (hc : s'.contacts = s.contacts) (m : Message) : RenamesSender s' m ↔ RenamesSender s m := by
  simp only [RenamesSender, LearnsName, hm, hc]

/-- Retention prunes nothing after a replay. -/
theorem messages_replay (hw : WellFormed s) (hstored : (s.messages.find? m.key).isSome = true) :
    (insertHistoryConversation plan s chat [m]).1.messages
      = (replayMedia plan (replayTouched s chat m) m).messages := by
  have hfrom : MessagesFrom s (replayMedia plan (replayTouched s chat m) m) :=
    (((MessagesFrom.of_eq (insertHistoryChatInto_frame s chat).1).trans
      (learnSenderName_messagesFrom _ m)).trans (.of_eq (messages_replayTouched hstored))).trans
        (replayMedia_messagesFrom plan _ m)
  rw [insertHistoryConversation_of_stored plan hstored, (pruneChatHistory_frame plan _ _).1,
    keepNewest_of_length_le plan ((hfrom.length_le chat.jid).trans (hw.retained _))]

theorem messages_replayTouched_of_not_renames
    (hstored : (s.messages.find? m.key).isSome = true) (h : ¬RenamesSender s m) :
    (replayTouched s chat m).messages = s.messages := by
  have hchat := insertHistoryChatInto_frame s chat
  have hnot := (renamesSender_congr hchat.1 hchat.2.1 m).not.mpr h
  exact (messages_replayTouched hstored).trans ((learnSenderName_messages hnot).trans hchat.1)

theorem pollVotes_replayTouched : (replayTouched s chat m).pollVotes = s.pollVotes := by
  rw [replayTouched, pollVotes_insertMessageInto, (learnSenderName_frame _ m).2.2.2]
  unfold insertHistoryChatInto
  split <;> rfl

/-- The message rows survive a replay exactly when it renames no sender and its media are
what is stored. -/
theorem messages_replay_iff (chat : Chat) (hw : WellFormed s)
    (hstored : (s.messages.find? m.key).isSome = true) :
    (insertHistoryConversation plan s chat [m]).1.messages = s.messages ↔
      ¬RenamesSender s m ∧ MediaCurrent plan s m := by
  have hchat := insertHistoryChatInto_frame s chat
  have hmedia : (replayTouched s chat m).messages = s.messages →
      ((replayMedia plan (replayTouched s chat m) m).messages
        = (replayTouched s chat m).messages ↔ MediaCurrent plan s m) := by
    intro heq
    unfold replayMedia MediaCurrent
    cases hm : m.media with
    | none => simp
    | some media =>
      dsimp only
      rw [messages_updateMessageMediaInto_iff plan,
        storedMedia_congr plan heq pollVotes_replayTouched]
      simp only [Store.messagesById, heq, Option.mem_some_iff, forall_eq']
  rw [messages_replay plan hw hstored]
  constructor
  · intro h
    have hnot : ¬RenamesSender s m := by
      rw [← renamesSender_congr hchat.1 hchat.2.1, ← learnSenderName_messages_iff,
        ← messages_replayTouched hstored, ← senderNames_replayMedia plan, h, hchat.1]
    have heq : (replayTouched s chat m).messages = s.messages :=
      messages_replayTouched_of_not_renames hstored hnot
    exact ⟨hnot, (hmedia heq).mp (h.trans heq.symm)⟩
  · rintro ⟨hnot, hcurrent⟩
    have heq : (replayTouched s chat m).messages = s.messages :=
      messages_replayTouched_of_not_renames hstored hnot
    exact ((hmedia heq).mpr hcurrent).trans heq

/-- The counters of a chat once the header and the message of a replay have touched it. -/
def replayedCounters (s : Store) (chat : Chat) (m : Message) (x : String × ℤ × ℕ) :
    String × ℤ × ℕ :=
  let headed := if chatDeleted s m.chatJid then x else (x.1, max x.2.1 chat.lastTimestamp, x.2.2)
  if suppressed s m then headed else touched m headed

theorem counters_replayTouched (hstored : (s.messages.find? m.key).isSome = true)
    (hchat : s.hasChat m.chatJid) (hjid : chat.jid = m.chatJid) (jid : String) :
    (replayTouched s chat m).counters jid
      = if jid = m.chatJid then (s.counters jid).map (replayedCounters s chat m)
        else s.counters jid := by
  have hframe := insertHistoryChatInto_frame s chat
  have hold : ((learnSenderName (insertHistoryChatInto s chat) m).messages.find?
      (historyInsert chat m).message.key).isSome = true := by
    refine stored_learnSenderName m ?_
    rwa [hframe.1]
  have hlisted : (learnSenderName (insertHistoryChatInto s chat) m).hasChat
      (historyInsert chat m).message.chatJid := by
    have hnamed := counters_learnSenderName (s := insertHistoryChatInto s chat) m m.chatJid
    have hheaded := hasChat_iff_find?.mp
      (hasChat_insertHistoryChatInto.mpr (Or.inl hchat : s.hasChat _ ∨ (_ = chat.jid ∧ _)))
    obtain ⟨c, hc⟩ := hheaded
    simp only [Store.counters, hc, Option.map_some] at hnamed
    obtain ⟨c', hc', -⟩ := Option.map_eq_some_iff.mp hnamed
    exact hasChat_iff_find?.mpr ⟨c', hc'⟩
  have hsuppressed : suppressed (learnSenderName (insertHistoryChatInto s chat) m) m
      = suppressed s m :=
    suppressed_congr (by simp) (by simp) m
  rw [replayTouched, counters_insertMessageInto_of_stored hold hlisted, counters_learnSenderName,
    counters_insertHistoryChatInto (hjid ▸ hchat), hjid]
  have hmessage : (historyInsert chat m).message = m := rfl
  rw [hmessage, hsuppressed]
  by_cases hj : jid = m.chatJid
  · subst hj
    cases hs : suppressed s m <;> cases hd : chatDeleted s m.chatJid <;>
      cases s.counters m.chatJid <;> simp [replayedCounters, hs, hd]
  · simp [hj]

/-- A replay relabels the preview of its chat. -/
theorem counters_replayMedia {s' : Store} (hm : s'.messages = s.messages)
    (hv : s'.pollVotes = s.pollVotes)
    (hcurrent : (replayMedia plan s' m).messages = s.messages) (jid : String) :
    (replayMedia plan s' m).counters jid
      = if jid = m.chatJid then
          (s'.counters jid).map (fun x => (relabelPreview plan s m x.1, x.2))
        else s'.counters jid := by
  unfold replayMedia at hcurrent ⊢
  unfold relabelPreview
  cases hmedia : m.media with
  | none => simp
  | some media =>
    rw [hmedia] at hcurrent
    dsimp only at hcurrent ⊢
    have hchats : (updateMessageMediaInto plan s' m.chatJid m.id media).1.chats
        = s'.chats.updateWhere
            (fun c => c.jid = m.chatJid &&
              (isGif (storedMedia plan s' m.chatJid m.id media) && c.lastMessage = "[Video]") &&
              (newestFirst plan ((updateMessageMediaInto plan s' m.chatJid m.id
                media).1.chatMessages m.chatJid)).head?.any (fun row => row.id = m.id))
            (fun c => { c with lastMessage := "[GIF]" }) := rfl
    have hshown : (updateMessageMediaInto plan s' m.chatJid m.id media).1.chatMessages m.chatJid
        = s.chatMessages m.chatJid := by
      rw [Store.chatMessages, hcurrent, Store.chatMessages]
    rw [hshown, storedMedia_congr plan hm hv] at hchats
    rw [Store.counters, hchats, Table.find?_updateWhere, Option.map_map, Store.counters]
    rcases hfind : s'.chats.find? jid with _ | c
    · simp
    · have hj : c.jid = jid := Table.key_of_find? hfind
      by_cases hjid : jid = m.chatJid
      · have hcj : c.jid = m.chatJid := hj.trans hjid
        simp only [Option.map_some, Function.comp_apply, if_pos hjid, hcj, decide_true,
          Bool.true_and, Option.some_inj]
        generalize (isGif _ && _ && _) = relabels
        cases relabels <;> rfl
      · simp [hj, hjid]

theorem replayedCounters_eq_iff (c : ChatRow) :
    (relabelPreview plan s m
        (replayedCounters s chat m (c.lastMessage, c.lastTimestamp, c.unread)).1,
      (replayedCounters s chat m (c.lastMessage, c.lastTimestamp, c.unread)).2)
        = (c.lastMessage, c.lastTimestamp, c.unread) ↔
      (chatDeleted s m.chatJid = true ∨ chat.lastTimestamp ≤ c.lastTimestamp) ∧
      (suppressed s m = true ∨ m.timestamp ≤ c.lastTimestamp) ∧
      replayedPreview plan s m c = c.lastMessage := by
  have htime : ∀ a b : ℤ, max a b = a ↔ b ≤ a := fun a b => by omega
  unfold replayedPreview replayedCounters touched
  cases hd : chatDeleted s m.chatJid <;> cases hs : suppressed s m
  · simp only [Bool.false_eq_true, if_false, false_or, true_and, Prod.mk.injEq, and_true]
    constructor
    · rintro ⟨htext, hmax⟩
      have hheader : chat.lastTimestamp ≤ c.lastTimestamp :=
        (le_max_right _ _).trans ((le_max_left _ _).trans hmax.le)
      rw [max_eq_left hheader] at htext hmax
      exact ⟨hheader, (htime _ _).mp hmax, htext⟩
    · rintro ⟨hheader, hmessage, htext⟩
      rw [max_eq_left hheader]
      exact ⟨htext, max_eq_left hmessage⟩
  · simp [htime, and_comm]
  · simp [htime, and_comm]
  · simp

/-- The previews survive a replay that keeps the message rows exactly when its header and its
text keep the preview of its chat. -/
theorem previews_replay_iff (hw : WellFormed s)
    (hstored : (s.messages.find? m.key).isSome = true) (hjid : chat.jid = m.chatJid) {c : ChatRow}
    (hc : s.chats.find? m.chatJid = some c) (hnot : ¬RenamesSender s m)
    (hsame : (insertHistoryConversation plan s chat [m]).1.messages = s.messages) :
    (∀ jid, (insertHistoryConversation plan s chat [m]).1.preview jid = s.preview jid) ↔
      (chatDeleted s m.chatJid = true ∨ chat.lastTimestamp ≤ c.lastTimestamp) ∧
      (suppressed s m = true ∨ m.timestamp ≤ c.lastTimestamp) ∧
      replayedPreview plan s m c = c.lastMessage := by
  have hcounters : ∀ jid, (insertHistoryConversation plan s chat [m]).1.counters jid
      = if jid = m.chatJid then (s.counters jid).map (fun x =>
          (relabelPreview plan s m (replayedCounters s chat m x).1, (replayedCounters s chat m x).2))
        else s.counters jid := by
    intro jid
    have hpruned : (insertHistoryConversation plan s chat [m]).1.counters jid
        = (replayMedia plan (replayTouched s chat m) m).counters jid := by
      rw [insertHistoryConversation_of_stored plan hstored]
      rfl
    rw [hpruned, counters_replayMedia plan
      (messages_replayTouched_of_not_renames hstored hnot) pollVotes_replayTouched
      ((messages_replay plan hw hstored).symm.trans hsame),
      counters_replayTouched hstored (hasChat_iff_find?.mpr ⟨c, hc⟩) hjid]
    split
    · rw [Option.map_map]
      rfl
    · rfl
  simp only [preview_eq_iff hsame, hcounters, ← replayedCounters_eq_iff plan]
  constructor
  · intro h
    have hself := h m.chatJid
    rwa [if_pos rfl, Store.counters, hc, Option.map_some, Option.map_some,
      Option.some_inj] at hself
  · intro h jid
    split
    · rename_i hj
      rw [hj, Store.counters, hc, Option.map_some, Option.map_some, h]
    · rfl

end History

/-! ## The exact condition -/

/-- A message that is stored after a run arrives again without effect exactly when the
redelivery is harmless. -/
theorem redelivery_unchanged_iff (ops : List Op) (m : Message) (redelivery : Redelivery)
    (hstored : ((run (Store.apply plan) Store.empty ops).messages.find? m.key).isSome = true) :
    Unchanged (finishedReceipts plan Store.empty ops) (run (Store.apply plan) Store.empty ops)
        (redelivery.deliver plan (run (Store.apply plan) Store.empty ops) m) ↔
      redelivery.Harmless plan (finishedReceipts plan Store.empty ops)
        (run (Store.apply plan) Store.empty ops) m := by
  have hw := wellFormed_run plan ops
  generalize finishedReceipts plan Store.empty ops = finished
  generalize run (Store.apply plan) Store.empty ops = s at hw hstored ⊢
  cases redelivery with
  | live chatName isGroup incrementUnread =>
    set insert := liveInsert m chatName isGroup incrementUnread
    have hpreviews := previews_insertMessageInner_iff plan insert hw hstored
    refine ⟨fun h => hpreviews.mp h.previews, fun h => ⟨?_, hpreviews.mpr h, fun k _ => ?_⟩⟩
    · exact messages_insertMessageInner_of_stored plan hw hstored
    · refine (receiptPending_insertMessageInner plan insert k).trans ?_
      exact (congrArg _ (Bool.and_false _)).trans (Bool.or_false _)
  | focused chatName isGroup receipt =>
    set insert := focusedInsert m chatName isGroup receipt
    have hpreviews := previews_insertMessageInner_iff plan insert hw hstored
    have hpending : ∀ k, (insertMessageInner plan s insert).1.receiptPending k
        = (s.receiptPending k || (!suppressed s m &&
            decide (k = (m.chatJid, receipt.senderJid, receipt.messageId)))) :=
      receiptPending_insertMessageInner plan insert
    constructor
    · intro h
      refine ⟨hpreviews.mp h.previews, or_iff_not_imp_left.mpr fun hs hmem => ?_⟩
      have hkept := h.receipts _ hmem
      rw [Bool.not_eq_true] at hs
      have hqueued := hpending (m.chatJid, receipt.senderJid, receipt.messageId)
      rw [hs] at hqueued
      exact hkept.symm.trans (hqueued.trans (by simp))
    · rintro ⟨hpreview, hreceipt⟩
      refine ⟨messages_insertMessageInner_of_stored plan hw hstored, hpreviews.mpr hpreview,
        fun k hk => (hpending k).trans ?_⟩
      rcases hreceipt with hs | hreceipt
      · simp [hs]
      · by_cases hkey : k = (m.chatJid, receipt.senderJid, receipt.messageId)
        · rw [hkey, hreceipt (hkey ▸ hk), Bool.true_or]
        · simp [hkey]
  | history chat =>
    obtain ⟨row, hrow⟩ := Option.isSome_iff_exists.mp hstored
    obtain ⟨hrow, hk⟩ := Table.find?_eq_some.mp hrow
    have hlisted : s.hasChat m.chatJid := by
      have hlisted := hw.chatOfMessage row hrow
      rwa [show row.chatJid = m.chatJid from congrArg Prod.fst hk] at hlisted
    obtain ⟨c, hc⟩ := hasChat_iff_find?.mp hlisted
    set header : Chat := { chat with jid := m.chatJid }
    have hmessages := messages_replay_iff plan header hw hstored
    have hpending : ∀ k, (insertHistoryConversation plan s header [m]).1.receiptPending k
        = s.receiptPending k := fun k => by
      rw [Store.receiptPending, (insertHistoryConversation_frame plan s header [m]).2.2,
        Store.receiptPending]
    constructor
    · intro h
      obtain ⟨hnot, hcurrent⟩ := hmessages.mp h.messages
      refine ⟨hnot, hcurrent, fun c' hc' => ?_⟩
      obtain rfl : c = c' := Option.some_inj.mp (hc.symm.trans hc')
      exact (previews_replay_iff plan hw hstored rfl hc hnot h.messages).mp h.previews
    · rintro ⟨hnot, hcurrent, hkept⟩
      have hsame := hmessages.mpr ⟨hnot, hcurrent⟩
      exact ⟨hsame, (previews_replay_iff plan hw hstored rfl hc hnot hsame).mpr (hkept c hc),
        fun k _ => hpending k⟩

/-- A message older than the preview, on screen again after its receipt was sent and queued
anew. -/
theorem redelivery_unchanged_iff_older :
    let ops : List Op :=
      [.insertMessageWithReadIntent (directMessage "1" "a" "one" 10) "Ann" false ⟨"a", "1", false⟩,
        .finishReadBatch ⟨"1", [⟨"a", "1", false⟩]⟩,
        .insertMessage (directMessage "1" "b" "two" 20) "Ann" false true,
        .queueReadReceipts "1" [⟨"a", "1", false⟩] 30]
    Unchanged (finishedReceipts .stable Store.empty ops)
      (run (Store.apply .stable) Store.empty ops)
      ((Redelivery.focused "Ann" false ⟨"a", "1", false⟩).deliver .stable
        (run (Store.apply .stable) Store.empty ops) (directMessage "1" "a" "one" 10)) := by
  intro ops
  refine (redelivery_unchanged_iff .stable ops _ (.focused "Ann" false ⟨"a", "1", false⟩)
    (by decide)).mpr ⟨Or.inr ?_, Or.inr (fun _ => by decide)⟩
  decide

/-- Of two messages of one second, the older one takes the preview back when it arrives
again. -/
theorem redelivery_takes_preview_back :
    ¬Unchanged []
      (run (Store.apply .stable) Store.empty
        [.insertMessage (directMessage "1" "a" "one" 10) "Ann" false true,
          .insertMessage (directMessage "1" "b" "two" 10) "Ann" false true])
      ((Redelivery.live "Ann" false true).deliver .stable
        (run (Store.apply .stable) Store.empty
          [.insertMessage (directMessage "1" "a" "one" 10) "Ann" false true,
            .insertMessage (directMessage "1" "b" "two" 10) "Ann" false true])
        (directMessage "1" "a" "one" 10)) := by
  intro h
  exact absurd (h.previews "1") (by decide)

end OmarchyWhatsapp
