import OmarchyWhatsapp.Database.RedeliveryTheorems

/-!
# Messages with equal ids

Two senders of a chat may use one message id, and the rows are then told apart by the sender.
The insertion looks at the whole identity. The operations on media, downloads and votes look
at the chat and the id, so what they write for one message they write for the other, unless
it is there already.
-/

namespace OmarchyWhatsapp

open Relational

variable (plan : QueryPlan)

/-- An operation on one message, given by its identity. -/
inductive MessageOp where
  | deliver (message : Message) (how : Redelivery)
  | updateMessageMedia (k : String × String × String) (media : MessageMedia)
  | storeMediaDownload (k : String × String × String) (payload : List UInt8)
  | applyPollVote (k : String × String × String) (voterJid : String)
      (selectedOptions : List String) (fromMe : Bool) (timestamp : ℤ)

namespace MessageOp

/-- The identity of the message the operation is about. -/
def target : MessageOp → String × String × String
  | deliver message _ => message.key
  | updateMessageMedia k _ => k
  | storeMediaDownload k _ => k
  | applyPollVote k .. => k

/-- The operation: only an insertion is told the sender. -/
def apply (s : Store) : MessageOp → Store
  | deliver message how => how.deliver plan s message
  | updateMessageMedia k media => s.apply plan (.updateMessageMedia k.1 k.2.2 media)
  | storeMediaDownload k payload => s.apply plan (.storeMediaDownload k.1 k.2.2 payload)
  | applyPollVote k voterJid selectedOptions fromMe timestamp =>
    s.apply plan (.applyPollVote k.1 k.2.2 voterJid selectedOptions fromMe timestamp)

end MessageOp

/-- The columns of a message that should not change. -/
def MessageRow.content (m : MessageRow) :
    String × Option MessageMedia × Option (List UInt8) × Bool × ℤ :=
  (m.text, m.media, m.mediaDownload, m.read, m.timestamp)

/-- The row is there and has its content. -/
def Intact (s : Store) (r : MessageRow) : Prop :=
  (s.messages.find? r.key).map MessageRow.content = some r.content

instance (s : Store) (r : MessageRow) : Decidable (Intact s r) :=
  inferInstanceAs (Decidable (_ = _))

/-! ## When the other message is spared -/

/-- The messages of the chat when an insertion has arrived, before retention. -/
def arrivedMessages (s : Store) (insert : MessageInsert) : List MessageRow :=
  (insertMessageInto s insert).1.chatMessages insert.message.chatJid

/-- The card that a vote writes into the rows of the poll, if it writes one. -/
def votedCard (s : Store) (chatJid messageId voterJid : String) (selectedOptions : List String)
    (fromMe : Bool) (timestamp : ℤ) : Option MessageMedia :=
  match previousMedia plan s chatJid messageId with
  | some (.poll question options selectable total quiz correct endTimestamp) =>
    let normalized := normalizedSelection options selectedOptions
    let vote : PollVoteRow := ⟨chatJid, messageId, voterJid, normalized, fromMe, timestamp⟩
    let tallied := reconcilePollTallies plan
      { s with pollVotes := s.pollVotes.upsert vote mergeVote key_mergeVote } chatJid messageId
      (.poll question options selectable total quiz correct endTimestamp)
    if normalized.length ≤ selectable ∧ tallied.2 = true then some tallied.1 else none
  | _ => none

/-- Retention keeps the row `r`, and what the operation writes is in it already. -/
def MessageOp.Spares (s : Store) (r : MessageRow) : MessageOp → Prop
  | deliver m (.live chatName isGroup incrementUnread) =>
    r ∉ overflow plan (arrivedMessages s (liveInsert m chatName isGroup incrementUnread))
  | deliver m (.focused chatName isGroup receipt) =>
    r ∉ overflow plan (arrivedMessages s (focusedInsert m chatName isGroup receipt))
  | deliver m (.history chat) =>
    let chat := { chat with jid := m.chatJid }
    let learned := learnSenderName (insertHistoryChatInto s chat) m
    let touched := replayTouched s chat m
    if (insertMessageInto learned (historyInsert chat m)).2 then
      r ∉ overflow plan (touched.chatMessages m.chatJid)
    else
      (∀ media ∈ m.media, mediaOutdated m.chatJid m.id
        (storedMedia plan touched m.chatJid m.id media) r = false) ∧
      r ∉ overflow plan ((replayMedia plan touched m).chatMessages m.chatJid)
  | updateMessageMedia k media =>
    mediaOutdated k.1 k.2.2 (storedMedia plan s k.1 k.2.2 media) r = false
  | storeMediaDownload _ payload => r.mediaDownload = some payload
  | applyPollVote k voterJid selectedOptions fromMe timestamp =>
    ∀ card ∈ votedCard plan s k.1 k.2.2 voterJid selectedOptions fromMe timestamp,
      r.media = some card

section Intact

variable {plan} {s : Store} {r : MessageRow}

theorem intact_of_mem (hr : r ∈ s.messages.rows) : Intact s r := by
  rw [Intact, Table.find?_of_mem hr]
  rfl

/-- What an update leaves of a row. -/
theorem intact_updateWhere_iff {s' : Store} {p : MessageRow → Bool} {f : MessageRow → MessageRow}
    (hf : ∀ m : MessageRow, (f m).key = m.key) (hr : r ∈ s.messages.rows)
    (h : s'.messages = s.messages.updateWhere p f hf) :
    Intact s' r ↔ (p r = true → (f r).content = r.content) := by
  rw [Intact, h, Table.find?_updateWhere, Table.find?_of_mem hr]
  by_cases hp : p r = true
  · simp [hp]
  · simp [hp]

/-- What retention leaves of a row. -/
theorem intact_prune_iff {r' : MessageRow} (hr : s.messages.find? r.key = some r')
    {chatJid : String} (hc : r'.chatJid = chatJid) :
    Intact (pruneChatHistory plan s chatJid) r ↔
      r'.content = r.content ∧ r' ∉ overflow plan (s.chatMessages chatJid) := by
  rw [Intact, (pruneChatHistory_frame plan s chatJid).1, keepNewest, Table.find?_deleteWhere, hr]
  by_cases hover : r' ∈ overflow plan (s.chatMessages chatJid)
  · simp [hover, hc]
  · simp [hover, Option.filter]

/-- An insertion keeps the rows that are stored. -/
theorem find?_insertMessageInto (insert : MessageInsert) {k : String × String × String}
    (hr : s.messages.find? k = some r) :
    (insertMessageInto s insert).1.messages.find? k = some r := by
  by_cases hs : suppressed s insert.message = true
  · rw [insertMessageInto_of_suppressed hs]
    exact hr
  · rw [Bool.not_eq_true] at hs
    rw [insertMessageInto_messages hs, Table.find?_insertOrIgnore]
    split
    · rw [hr]
      rfl
    · exact hr

theorem intact_insertMessageInner_iff (insert : MessageInsert) (hr : r ∈ s.messages.rows)
    (hc : r.chatJid = insert.message.chatJid) :
    Intact (insertMessageInner plan s insert).1 r ↔
      r ∉ overflow plan (arrivedMessages s insert) :=
  (intact_prune_iff (find?_insertMessageInto insert (Table.find?_of_mem hr)) hc).trans
    (and_iff_right rfl)

/-- What is learned about one sender leaves the messages of the others alone. -/
theorem find?_learnSenderName {m : Message} (hr : r ∈ s.messages.rows)
    (hne : r.senderJid ≠ m.senderJid) : (learnSenderName s m).messages.find? r.key = some r := by
  by_cases hlearn : LearnsName s m
  · have hsame : renameSenderRow m r = r := if_neg hne
    have hmem : r ∈ (learnSenderName s m).messages.rows := by
      rw [rows_learnSenderName hlearn, ← hsame]
      exact List.mem_map_of_mem hr
    exact Table.find?_of_mem hmem
  · rw [learnSenderName_of_not_learns hlearn]
    exact Table.find?_of_mem hr

/-- The row after a media update, when it had its content before. -/
theorem content_updateMessageMedia {chatJid messageId : String} {media : MessageMedia}
    (hout : mediaOutdated chatJid messageId media r = true) :
    ({ r with media := some media, text := relabel media r.text } : MessageRow).content
      ≠ r.content := by
  simp only [mediaOutdated, Bool.and_eq_true, Bool.or_eq_true, bne_iff_ne, decide_eq_true_eq]
    at hout
  intro heq
  simp only [MessageRow.content, Prod.mk.injEq] at heq
  rcases hout.2 with hmedia | ⟨hgif, htext⟩
  · exact hmedia heq.2.1.symm
  · rw [relabel, hgif, htext] at heq
    exact absurd heq.1 (by decide)

theorem intact_updateMessageMediaInto_iff (hr : r ∈ s.messages.rows)
    (chatJid messageId : String) (media : MessageMedia) :
    Intact (updateMessageMediaInto plan s chatJid messageId media).1 r ↔
      mediaOutdated chatJid messageId (storedMedia plan s chatJid messageId media) r = false := by
  refine (intact_updateWhere_iff (f := fun m => { m with
    media := some (storedMedia plan s chatJid messageId media)
    text := relabel (storedMedia plan s chatJid messageId media) m.text })
    (fun _ => rfl) hr rfl).trans ?_
  rw [← Bool.not_eq_true]
  exact ⟨fun h hout => content_updateMessageMedia hout (h hout), fun h hout => absurd hout h⟩

theorem intact_storeMediaDownload_iff (hr : r ∈ s.messages.rows) {chatJid messageId : String}
    (hc : r.chatJid = chatJid) (hid : r.id = messageId) (payload : List UInt8) :
    Intact (storeMediaDownload s chatJid messageId payload).1 r ↔
      r.mediaDownload = some payload := by
  refine (intact_updateWhere_iff (f := fun m => { m with mediaDownload := some payload })
    (fun _ => rfl) hr rfl).trans ?_
  simp only [hc, hid, decide_true, Bool.true_and, bne_iff_ne, MessageRow.content, Prod.mk.injEq,
    true_and, and_true]
  exact ⟨fun h => by_contra fun hne => hne (h hne).symm, fun h hne => absurd h hne⟩

/-- A vote rewrites the rows of its message with the card, or leaves the messages alone. -/
theorem messages_applyPollVote (chatJid messageId voterJid : String)
    (selectedOptions : List String) (fromMe : Bool) (timestamp : ℤ) :
    (s.apply plan (.applyPollVote chatJid messageId voterJid selectedOptions fromMe
        timestamp)).messages
      = (votedCard plan s chatJid messageId voterJid selectedOptions fromMe timestamp).elim
          s.messages (fun card => s.messages.updateWhere
            (fun m => m.chatJid = chatJid ∧ m.id = messageId)
            (fun m => { m with media := some card })) := by
  simp only [Store.apply, applyPollVote, votedCard]
  generalize previousMedia plan s chatJid messageId = previous
  rcases previous with _ | media
  · rfl
  cases media with
  | poll question options selectable total quiz correct endTimestamp =>
    by_cases hmany : (normalizedSelection options selectedOptions).length > selectable
    · simp only [if_pos hmany]
      rw [if_neg fun h => absurd h.1 (not_le.mpr hmany)]
      rfl
    · simp only [if_neg hmany]
      generalize reconcilePollTallies plan _ chatJid messageId _ = tallied
      cases htallied : tallied.2 with
      | true =>
        have hcast : (normalizedSelection options selectedOptions).length ≤ selectable ∧
            true = true := ⟨not_lt.mp hmany, rfl⟩
        rw [if_pos hcast]
        rfl
      | false =>
        have hsame : ¬((normalizedSelection options selectedOptions).length ≤ selectable ∧
            false = true) := fun h => Bool.false_ne_true h.2
        rw [if_neg hsame]
        rfl
  | _ => rfl

theorem intact_applyPollVote_iff (hr : r ∈ s.messages.rows) {chatJid messageId : String}
    (hc : r.chatJid = chatJid) (hid : r.id = messageId) (voterJid : String)
    (selectedOptions : List String) (fromMe : Bool) (timestamp : ℤ) :
    Intact (s.apply plan (.applyPollVote chatJid messageId voterJid selectedOptions fromMe
        timestamp)) r ↔
      ∀ card ∈ votedCard plan s chatJid messageId voterJid selectedOptions fromMe timestamp,
        r.media = some card := by
  have hmessages := @messages_applyPollVote plan s chatJid messageId voterJid selectedOptions
    fromMe timestamp
  generalize votedCard plan s chatJid messageId voterJid selectedOptions fromMe timestamp = voted
    at hmessages ⊢
  rcases voted with _ | card
  · rw [Intact, hmessages]
    exact iff_of_true (intact_of_mem hr) fun card hcard => by cases hcard
  · refine (intact_updateWhere_iff (f := fun m => { m with media := some card })
      (fun _ => rfl) hr hmessages).trans ?_
    simp only [hc, hid, and_self, decide_true, forall_const, MessageRow.content, Prod.mk.injEq,
      true_and, and_true, Option.mem_def, Option.some_inj, forall_eq']
    exact eq_comm

/-- A replay of another sender's message. -/
theorem intact_replay_iff {m : Message} {chat : Chat} (hchat : chat.jid = m.chatJid)
    (hr : r ∈ s.messages.rows) (hc : r.chatJid = m.chatJid) (hne : r.senderJid ≠ m.senderJid) :
    Intact (insertHistoryConversation plan s chat [m]).1 r ↔
      if (insertMessageInto (learnSenderName (insertHistoryChatInto s chat) m)
          (historyInsert chat m)).2 = true then
        r ∉ overflow plan ((replayTouched s chat m).chatMessages m.chatJid)
      else
        (∀ media ∈ m.media, mediaOutdated m.chatJid m.id
          (storedMedia plan (replayTouched s chat m) m.chatJid m.id media) r = false) ∧
        r ∉ overflow plan
          ((replayMedia plan (replayTouched s chat m) m).chatMessages m.chatJid) := by
  have htouched : (replayTouched s chat m).messages.find? r.key = some r := by
    refine find?_insertMessageInto _ (find?_learnSenderName ?_ hne)
    rwa [(insertHistoryChatInto_frame s chat).1]
  by_cases hnew : (insertMessageInto (learnSenderName (insertHistoryChatInto s chat) m)
      (historyInsert chat m)).2 = true
  · have hrun : (insertHistoryConversation plan s chat [m]).1
        = pruneChatHistory plan (replayTouched s chat m) m.chatJid := by
      have hreplay : (insertHistoryMessageInto plan (insertHistoryChatInto s chat) chat m).1
          = replayTouched s chat m := by
        rw [insertHistoryMessageInto, if_pos hnew]
        rfl
      rw [← hchat]
      exact congrArg (pruneChatHistory plan · chat.jid) hreplay
    rw [if_pos hnew, hrun]
    exact (intact_prune_iff htouched hc).trans (and_iff_right rfl)
  · have hrun : (insertHistoryConversation plan s chat [m]).1
        = pruneChatHistory plan (replayMedia plan (replayTouched s chat m) m) m.chatJid := by
      have hreplay : (insertHistoryMessageInto plan (insertHistoryChatInto s chat) chat m).1
          = replayMedia plan (replayTouched s chat m) m := by
        rw [insertHistoryMessageInto, if_neg hnew]
        unfold replayMedia
        cases m.media <;> rfl
      rw [← hchat]
      exact congrArg (pruneChatHistory plan · chat.jid) hreplay
    rw [if_neg hnew, hrun]
    rcases hmedia : m.media with _ | media
    · have hsame : replayMedia plan (replayTouched s chat m) m = replayTouched s chat m := by
        rw [replayMedia, hmedia]
      rw [hsame]
      refine (intact_prune_iff htouched hc).trans ?_
      simp
    · have hupdate : replayMedia plan (replayTouched s chat m) m
          = (updateMessageMediaInto plan (replayTouched s chat m) m.chatJid m.id media).1 := by
        rw [replayMedia, hmedia]
      simp only [Option.mem_def, Option.some_inj, forall_eq']
      have hrow : (replayMedia plan (replayTouched s chat m) m).messages.find? r.key
          = some (if mediaOutdated m.chatJid m.id
              (storedMedia plan (replayTouched s chat m) m.chatJid m.id media) r = true
            then { r with
              media := some (storedMedia plan (replayTouched s chat m) m.chatJid m.id media)
              text := relabel
                (storedMedia plan (replayTouched s chat m) m.chatJid m.id media) r.text }
            else r) := by
        rw [hupdate]
        refine (Table.find?_updateWhere (replayTouched s chat m).messages
          (mediaOutdated m.chatJid m.id
            (storedMedia plan (replayTouched s chat m) m.chatJid m.id media))
          (fun row => { row with
            media := some (storedMedia plan (replayTouched s chat m) m.chatJid m.id media)
            text := relabel
              (storedMedia plan (replayTouched s chat m) m.chatJid m.id media) row.text })
          (fun _ => rfl) r.key).trans ?_
        rw [htouched]
        rfl
      by_cases hout : mediaOutdated m.chatJid m.id
          (storedMedia plan (replayTouched s chat m) m.chatJid m.id media) r = true
      · -- the row was rewritten, and retention cannot undo that
        rw [if_pos hout] at hrow
        refine (intact_prune_iff hrow hc).trans (iff_of_false ?_ ?_)
        · exact fun h => content_updateMessageMedia hout h.1
        · exact fun h => Bool.false_ne_true (h.1.symm.trans hout)
      · rw [if_neg hout] at hrow
        refine (intact_prune_iff hrow hc).trans (and_congr_left fun _ => ?_)
        exact iff_of_true rfl (Bool.not_eq_true _ ▸ hout)

/-- An operation on one message leaves the row of the same id and another sender intact
exactly when it spares it. -/
theorem intact_apply_iff (op : MessageOp) (hr : r ∈ s.messages.rows)
    (hc : r.chatJid = op.target.1) (hid : r.id = op.target.2.2)
    (hne : r.senderJid ≠ op.target.2.1) :
    Intact (op.apply plan s) r ↔ op.Spares plan s r := by
  cases op with
  | deliver m how =>
    cases how with
    | live chatName isGroup incrementUnread => exact intact_insertMessageInner_iff _ hr hc
    | focused chatName isGroup receipt => exact intact_insertMessageInner_iff _ hr hc
    | history chat => exact intact_replay_iff rfl hr hc hne
  | updateMessageMedia k media => exact intact_updateMessageMediaInto_iff hr _ _ _
  | storeMediaDownload k payload => exact intact_storeMediaDownload_iff hr hc hid payload
  | applyPollVote k voterJid selectedOptions fromMe timestamp =>
    exact intact_applyPollVote_iff hr hc hid _ _ _ _

/-- The media, the download and the votes of one sender's message reach the other's. -/
theorem updateMessageMedia_reaches_other_sender :
    let other : MessageRow :=
      { chatJid := "g", id := "a", senderJid := "3", senderName := "Bo", text := "When?",
        timestamp := 6, fromMe := false,
        media := some (.poll "When?" [{ name := "Mon" }] 1 0 false none 0) }
    let s : Store := { messages := ⟨[{ other with senderJid := "2", timestamp := 5 }, other],
                       by decide⟩ }
    ¬Intact ((MessageOp.updateMessageMedia ("g", "2", "a")
        (.document "p" "f" "text/plain" 1 1)).apply .stable s) other ∧
      ¬Intact ((MessageOp.storeMediaDownload ("g", "2", "a") [1]).apply .stable s) other ∧
      ¬Intact ((MessageOp.applyPollVote ("g", "2", "a") "4" ["Mon"] false 7).apply .stable s)
        other := by
  decide

/-- Both senders have the same download already. -/
theorem intact_apply_iff_same_download :
    let other : MessageRow :=
      { chatJid := "g", id := "a", senderJid := "3", senderName := "Bo", text := "[Image]",
        timestamp := 6, fromMe := false, mediaDownload := some [1] }
    let s : Store := { messages := ⟨[{ other with senderJid := "2", mediaDownload := none }, other],
                       by decide⟩ }
    Intact ((MessageOp.storeMediaDownload ("g", "2", "a") [1]).apply .stable s) other := by
  intro other s
  exact (@intact_apply_iff .stable s other
    (.storeMediaDownload ("g", "2", "a") [1]) (by decide) rfl rfl (by decide)).mpr rfl

end Intact

end OmarchyWhatsapp
