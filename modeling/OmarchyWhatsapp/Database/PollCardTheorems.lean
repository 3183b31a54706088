import OmarchyWhatsapp.Database.MigrateKeys
import OmarchyWhatsapp.Database.PollTheorems
import OmarchyWhatsapp.Database.SameIdTheorems

/-!
# Cached poll cards

The card of a poll caches a fold of `poll_votes`. Votes and media updates recompute it, and
the other operations keep either the rows it is made of or the message it is on. An insertion
takes the card as it comes, a deletion up to a time takes votes by id, and a migration moves
the votes and merges the cards without a look at each other.
-/

namespace OmarchyWhatsapp

open Relational

variable (plan : QueryPlan)

/-! ## The cards of a store -/

/-- The tallies on a card are the fold of the votes. -/
def ShowsVotes (votes : List PollVoteRow) : MessageMedia → Prop
  | .poll _ options _ total _ _ _ =>
    total = votersWithSelection votes ∧ ∀ o ∈ options,
      o.votes = voteCount votes o.name ∧ o.voterJids = voterJids votes o.name ∧
        o.selectedByMe = selectedByMe votes o.name
  | _ => True

instance (votes : List PollVoteRow) (card : MessageMedia) : Decidable (ShowsVotes votes card) := by
  apply MessageMedia.casesOn (motive := fun card => Decidable (ShowsVotes votes card)) card
  all_goals
    intros
    dsimp only [ShowsVotes]
    infer_instance

/-- Every stored card shows the votes recorded for its message. -/
def CardsTallied (s : Store) : Prop :=
  ∀ m ∈ s.messages.rows, ∀ card ∈ m.media, ShowsVotes (s.votesOf plan m.chatJid m.id) card

instance (s : Store) : Decidable (CardsTallied plan s) :=
  inferInstanceAs (Decidable (∀ m ∈ s.messages.rows, _))

/-! ## What a migration has to count -/

/-- The keys of the votes that count for `k` once two identities are one, those that win
a tie last. -/
def voteSources (oldJid newJid : String) (k : String × String × String) :
    List (String × String × String) :=
  (if k.1 = newJid then [k.1, oldJid] else [k.1]).flatMap (fun c =>
    (if k.2.2 = newJid then [oldJid, k.2.2] else [k.2.2]).map (fun x => (c, k.2.1, x)))

/-- The vote, addressed to the canonical identity. -/
def PollVoteRow.renamed (oldJid newJid : String) (v : PollVoteRow) : PollVoteRow :=
  { v with chatJid := OmarchyWhatsapp.renamed oldJid newJid v.chatJid
           voterJid := OmarchyWhatsapp.renamed oldJid newJid v.voterJid }

/-- The newest of the votes recorded for `k` under either identity. -/
def newestVote (s : Store) (oldJid newJid : String) (k : String × String × String) :
    Option PollVoteRow :=
  (latest (·.timestamp) ((voteSources oldJid newJid k).filterMap s.pollVotes.find?)).map
    (·.renamed oldJid newJid)

/-- The newest votes of a poll, `ORDER BY timestamp DESC, voter_jid`. -/
def newestVotes (s : Store) (oldJid newJid chatJid messageId : String) : List PollVoteRow :=
  plan.orderBy
    (fun a b => decide (b.timestamp < a.timestamp) ||
      (decide (a.timestamp = b.timestamp) && decide (a.voterJid ≤ b.voterJid)))
    ((s.pollVotes.rows.map (fun v => renamed oldJid newJid v.voterJid)).dedup.filterMap
      (fun voter => newestVote s oldJid newJid (chatJid, messageId, voter)))

/-- After a merge, the newest of the votes of two identities is the one that counts. -/
def CountsNewest (s s' : Store) (oldJid newJid : String) : Prop :=
  ∀ k, k.1 ≠ oldJid → k.2.2 ≠ oldJid → s'.pollVotes.find? k = newestVote s oldJid newJid k

/-- The identities that are one message after the migration, in the order in which their
cards win. -/
def cardSources (oldJid newJid : String) (k : String × String × String) :
    List (String × String × String) :=
  (if k.1 = newJid then [k.1, oldJid] else [k.1]).flatMap (fun c =>
    (if k.2.1 = newJid then [k.2.1, oldJid] else [k.2.1]).map (fun x => (c, x, k.2.2)))

/-- The card that the migration leaves on a message. -/
def keptCard (s : Store) (oldJid newJid : String) (k : String × String × String) :
    Option MessageMedia :=
  (cardSources oldJid newJid k).findSome? (fun k => (s.messages.find? k).bind (·.media))

/-! ## The guard -/

/-- A message that is stored comes with a card that shows the votes recorded for its id. -/
def NewCard (s : Store) (message : Message) : Prop :=
  suppressed s message = false → s.messages.find? message.key = none →
    ∀ card ∈ message.media, ShowsVotes (s.votesOf plan message.chatJid message.id) card

/-- The votes of a poll once one more is recorded. -/
def votesWith (s : Store) (chatJid messageId : String) (options : List PollOption)
    (vote : PollVote) : List PollVoteRow :=
  let ballot := vote.ballot chatJid messageId options
  ({ s with pollVotes := s.pollVotes.upsert ballot mergeVote key_mergeVote } : Store).votesOf
    plan chatJid messageId

/-- Where a vote changes nothing on the card of the poll, it changes nothing on the cards of
the other messages with the id. -/
def SameIdCards (s : Store) (chatJid messageId : String) (vote : PollVote) : MessageMedia → Prop
  | .poll question options selectable total quiz correct endTimestamp =>
    vote.accepted options selectable = true →
      ShowsVotes (votesWith plan s chatJid messageId options vote)
          (.poll question options selectable total quiz correct endTimestamp) →
        ∀ m ∈ s.messagesById chatJid messageId, ∀ card ∈ m.media,
          ShowsVotes (votesWith plan s chatJid messageId options vote) card
  | _ => True

/-- A message that a deletion spares shows no votes when it shares its id with one that goes. -/
def SparedCards (s : Store) (chatJid : String) (timestamp : ℤ) : Prop :=
  (settingsOf s chatJid).clearedAt ≤ timestamp →
    ∀ m ∈ s.chatMessages chatJid, timestamp < m.timestamp →
      (∃ m' ∈ s.messagesById chatJid m.id, m'.timestamp ≤ timestamp) →
        ∀ card ∈ m.media, ShowsVotes [] card

/-- The steps that keep the cards: an insertion brings no tallies of its own, and a migration
finds the canonical voter's vote no older than the alias's, and on the cards that it keeps
the votes that are to count. -/
def PollGuard (s : Store) : Op → Prop
  | .insertMessage message _ _ _ => NewCard plan s message
  | .insertMessageWithReadIntent message _ _ _ => NewCard plan s message
  | .insertHistoryConversation conversation =>
    Guarded (fun s m => (insertHistoryMessageInto plan s conversation.chat m).1) (NewCard plan)
      (insertHistoryChatInto s conversation.chat) conversation.messages
  | .applyPollVote chatJid messageId voterJid selectedOptions fromMe timestamp =>
    ∀ card ∈ previousMedia plan s chatJid messageId,
      SameIdCards plan s chatJid messageId ⟨voterJid, selectedOptions, fromMe, timestamp⟩ card
  | .rewriteMediaPaths rewrite => ∀ m ∈ s.messages.rows, ∀ card ∈ m.media,
    ShowsVotes (s.votesOf plan m.chatJid m.id) (rewrite card)
  | .deleteChat chatJid timestamp => SparedCards s chatJid timestamp
  | .clearChat chatJid timestamp => SparedCards s chatJid timestamp
  | .migrateContactJid oldJid newJid => Migrates s oldJid newJid →
    (∀ v ∈ s.pollVotes.rows, v.voterJid = oldJid →
      ∀ own ∈ s.pollVotes.find? (v.chatJid, v.messageId, newJid), v.timestamp ≤ own.timestamp) ∧
    ∀ m ∈ s.messages.rows, ∀ card ∈ keptCard s oldJid newJid (renameIdentity oldJid newJid m.key),
      ShowsVotes (newestVotes plan s oldJid newJid (renamed oldJid newJid m.chatJid) m.id) card
  | _ => True

instance (s : Store) (message : Message) : Decidable (NewCard plan s message) :=
  inferInstanceAs (Decidable (_ → _))

instance (s : Store) (chatJid messageId : String) (vote : PollVote) (card : MessageMedia) :
    Decidable (SameIdCards plan s chatJid messageId vote card) := by
  apply MessageMedia.casesOn
    (motive := fun card => Decidable (SameIdCards plan s chatJid messageId vote card)) card
  all_goals
    intros
    dsimp only [SameIdCards]
    infer_instance

instance (s : Store) (chatJid : String) (timestamp : ℤ) :
    Decidable (SparedCards s chatJid timestamp) :=
  inferInstanceAs (Decidable (_ → _))

instance (s : Store) (op : Op) : Decidable (PollGuard plan s op) := by
  apply Op.casesOn (motive := fun op => Decidable (PollGuard plan s op)) op
  all_goals
    intros
    dsimp only [PollGuard]
    infer_instance

/-! ## Tallies -/

theorem showsVotes_iff {votes : List PollVoteRow} {card : MessageMedia} :
    ShowsVotes votes card ↔ Tallied card votes := by
  cases card with
  | poll question options selectable total quiz correct endTimestamp =>
    simp only [ShowsVotes, Tallied, updatePollTallies, Bool.or_eq_false_iff, bne_eq_false_iff_eq]
    refine and_congr_right fun _ => ?_
    -- the options are equal to the recounted ones when each of them is
    have hmap : options = options.map id := (List.map_id options).symm
    conv_rhs => lhs; rw [hmap]
    rw [List.map_inj_left]
    refine forall₂_congr fun o _ => ?_
    rcases o with ⟨name, votes', selected, voters⟩
    simp only [id, PollOption.mk.injEq, true_and]
    exact and_congr_right fun _ => and_comm
  | _ => exact iff_of_true trivial rfl

theorem showsVotes_retally (votes : List PollVoteRow) (card : MessageMedia) :
    ShowsVotes votes (retally card votes) :=
  showsVotes_iff.mpr (tallied_retally card votes)

/-- A completed payload shows the votes recorded for its message. -/
theorem showsVotes_storedMedia (s : Store) (chatJid messageId : String) (media : MessageMedia) :
    ShowsVotes (s.votesOf plan chatJid messageId) (storedMedia plan s chatJid messageId media) :=
  showsVotes_retally _ _

/-! ## Operations that keep the cards and their votes -/

/-- Every card of `s'` is the card of a message of `s`, and no vote for it changed. -/
def CardsKept (s s' : Store) : Prop :=
  ∀ m' ∈ s'.messages.rows,
    (∃ m ∈ s.messages.rows, m.chatJid = m'.chatJid ∧ m.id = m'.id ∧ m.media = m'.media) ∧
    ∀ voter, s'.pollVotes.find? (m'.chatJid, m'.id, voter)
      = s.pollVotes.find? (m'.chatJid, m'.id, voter)

section Kept

variable {plan} {s s' s'' : Store}

theorem CardsTallied.kept (h : CardsTallied plan s) (hkept : CardsKept s s') :
    CardsTallied plan s' := by
  intro m' hm' card hcard
  obtain ⟨⟨m, hm, hchat, hid, hmedia⟩, hvotes⟩ := hkept m' hm'
  have hshows := h m hm card (hmedia ▸ hcard)
  rw [hchat, hid] at hshows
  rwa [votesOf_congr plan _ _ hvotes]

namespace CardsKept

theorem of_eq (hm : s'.messages = s.messages) (hv : s'.pollVotes = s.pollVotes) :
    CardsKept s s' := by
  intro m' hm'
  rw [hv]
  exact ⟨⟨m', hm ▸ hm', rfl, rfl, rfl⟩, fun _ => rfl⟩

theorem trans (h : CardsKept s s') (h' : CardsKept s' s'') : CardsKept s s'' := by
  intro m'' hm''
  obtain ⟨⟨m', hm', hchat', hid', hmedia'⟩, hvotes'⟩ := h' m'' hm''
  obtain ⟨⟨m, hm, hchat, hid, hmedia⟩, hvotes⟩ := h m' hm'
  refine ⟨⟨m, hm, hchat.trans hchat', hid.trans hid', hmedia.trans hmedia'⟩, fun voter => ?_⟩
  rw [hvotes' voter, ← hchat', ← hid', hvotes voter]

theorem of_updateWhere {p : MessageRow → Bool} {f : MessageRow → MessageRow}
    (hm : s'.messages.rows = s.messages.rows.map (fun m => if p m then f m else m))
    (hf : ∀ m, (f m).chatJid = m.chatJid ∧ (f m).id = m.id ∧ (f m).media = m.media)
    (hv : s'.pollVotes = s.pollVotes) : CardsKept s s' := by
  intro m' hm'
  rw [hm, List.mem_map] at hm'
  obtain ⟨m, hmem, rfl⟩ := hm'
  refine ⟨⟨m, hmem, ?_⟩, fun _ => by rw [hv]⟩
  split
  · exact ⟨(hf m).1.symm, (hf m).2.1.symm, (hf m).2.2.symm⟩
  · exact ⟨rfl, rfl, rfl⟩

/-- Messages and votes are deleted, and no vote of a message that stays. -/
theorem of_deleteWhere {p : MessageRow → Bool} {q : PollVoteRow → Bool}
    (hm : s'.messages = s.messages.deleteWhere p) (hv : s'.pollVotes = s.pollVotes.deleteWhere q)
    (hq : ∀ m ∈ s'.messages.rows, ∀ v, v.chatJid = m.chatJid → v.messageId = m.id →
      q v = false) : CardsKept s s' := by
  intro m' hm'
  have hmem := hm'
  rw [hm, Table.mem_deleteWhere] at hmem
  refine ⟨⟨m', hmem.1, rfl, rfl, rfl⟩, fun voter => ?_⟩
  rw [hv, Table.find?_deleteWhere]
  rcases hrow : s.pollVotes.find? (m'.chatJid, m'.id, voter) with _ | v
  · rfl
  · have hk := Table.key_of_find? hrow
    simp only [PollVoteRow.key, Prod.mk.injEq] at hk
    rw [Option.filter_some_pos]
    simp [hq m' hm' v hk.1 hk.2.1]

end CardsKept

variable (plan s)

theorem pruneChatHistory_cardsKept (chatJid : String) :
    CardsKept s (pruneChatHistory plan s chatJid) := by
  refine .of_deleteWhere rfl rfl fun m hm v hchat hid => ?_
  -- the votes of a message that is left have a message
  have hmessage : (keepNewest plan s chatJid).hasMessage m.chatJid v.messageId = true :=
    List.any_eq_true.mpr ⟨m, hm, by simp [hid]⟩
  rw [Bool.and_eq_false_iff, decide_eq_false_iff_not, Bool.not_eq_false']
  by_cases hc : v.chatJid = chatJid
  · have hsame : m.chatJid = chatJid := hchat.symm.trans hc
    rw [hsame] at hmessage
    exact Or.inr hmessage
  · exact Or.inl hc

theorem deleteMessage_cardsKept (chatJid messageId : String) :
    CardsKept s (deleteMessage plan s chatJid messageId) := by
  refine .of_deleteWhere (p := fun m => m.chatJid = chatJid && m.id = messageId)
    (q := fun v => v.chatJid = chatJid && v.messageId = messageId) rfl rfl
    fun m hm v hchat hid => ?_
  have hstays := (Table.mem_deleteWhere.mp hm).2
  rwa [hchat, hid]

theorem updateContactNameInto_cardsKept (jid name : String) (source : ℕ) :
    CardsKept s (updateContactNameInto s jid name source).1 := by
  unfold updateContactNameInto
  split
  · exact .of_eq rfl rfl
  · split
    · exact .of_eq rfl rfl
    · exact .of_updateWhere rfl (fun _ => ⟨rfl, rfl, rfl⟩) rfl

theorem applyReadBoundary_cardsKept (chatJid : String) (timestamp : ℤ) (ids : List String) :
    CardsKept s (applyReadBoundary plan s chatJid timestamp ids).1 :=
  .of_updateWhere rfl (fun _ => ⟨rfl, rfl, rfl⟩) rfl

theorem applyReadState_cardsKept (chatJid : String) (read : Bool) :
    CardsKept s (applyReadState plan s chatJid read).1 := by
  unfold applyReadState
  split_ifs
  · exact applyReadBoundary_cardsKept plan s _ _ _
  · exact .of_eq rfl rfl

theorem applySyncedReadState_cardsKept (chatJid : String) (read : Bool) (boundary : Option ℤ)
    (ids : List String) (eventTimestamp : ℤ) :
    CardsKept s (applySyncedReadState plan s chatJid read boundary ids eventTimestamp).1 := by
  unfold applySyncedReadState
  split_ifs
  · exact .of_eq rfl rfl
  · exact (applyReadBoundary_cardsKept plan s _ _ _).trans (.of_eq rfl rfl)
  · exact (applyReadState_cardsKept plan s _ _).trans (.of_eq rfl rfl)

theorem applySelfReadReceipt_cardsKept (chatJid : String) (ids : List String) (timestamp : ℤ) :
    CardsKept s (applySelfReadReceipt plan s chatJid ids timestamp).1 := by
  unfold applySelfReadReceipt
  split_ifs
  · exact .of_eq rfl rfl
  · exact applyReadBoundary_cardsKept plan s _ _ _

theorem updateReceipt_cardsKept (chatJid id : String) (receipt : ℕ) (reader : Option String)
    (receiptAt : ℤ) : CardsKept s (updateReceipt s chatJid id receipt reader receiptAt).1 := by
  refine .of_updateWhere (congrArg Table.rows (updateReceipt_messages s _ _ _ _ _))
    (fun _ => ⟨rfl, rfl, rfl⟩) ?_
  unfold updateReceipt
  dsimp only
  split
  · split <;> rfl
  · rfl

theorem updateReceipts_cardsKept (chatJid : String) (ids : List String) (receipt : ℕ)
    (reader : Option String) (receiptAt : ℤ) :
    CardsKept s (updateReceipts s chatJid ids receipt reader receiptAt).1 :=
  updateReceipts_induction s chatJid ids receipt reader receiptAt
    (fun s' _ h => h.trans (updateReceipt_cardsKept s' _ _ _ _ _)) (.of_eq rfl rfl)

end Kept

/-! ## Operations that write cards or votes -/

section Steps

variable {plan} {s : Store}

theorem CardsTallied.insertMessageInto (h : CardsTallied plan s) {insert : MessageInsert}
    (hnew : NewCard plan s insert.message) :
    CardsTallied plan (insertMessageInto s insert).1 := by
  by_cases hs : suppressed s insert.message = true
  · rw [insertMessageInto_of_suppressed hs]
    exact h
  · rw [Bool.not_eq_true] at hs
    intro m' hm' card hcard
    rw [insertMessageInto_messages hs, Table.mem_insertOrIgnore] at hm'
    have hvotes : (OmarchyWhatsapp.insertMessageInto s insert).1.votesOf plan m'.chatJid m'.id
        = s.votesOf plan m'.chatJid m'.id :=
      votesOf_congr plan _ _ fun _ => by rw [pollVotes_insertMessageInto]
    rw [hvotes]
    rcases hm' with hm' | ⟨rfl, hfree⟩
    · exact h m' hm' card hcard
    · exact hnew hs hfree card hcard

theorem CardsTallied.insertMessageInner (h : CardsTallied plan s) {insert : MessageInsert}
    (hnew : NewCard plan s insert.message) :
    CardsTallied plan (insertMessageInner plan s insert).1 :=
  (h.insertMessageInto hnew).kept (pruneChatHistory_cardsKept plan _ _)

/-- A media update writes the card that it recomputes. -/
theorem CardsTallied.updateMessageMediaInto (h : CardsTallied plan s) (chatJid messageId : String)
    (media : MessageMedia) :
    CardsTallied plan (updateMessageMediaInto plan s chatJid messageId media).1 := by
  intro m' hm' card hcard
  obtain ⟨m, hm, rfl⟩ := List.mem_map.mp hm'
  change ShowsVotes (s.votesOf plan _ _) card
  split at hcard
  · rename_i hout
    simp only [mediaOutdated, Bool.and_eq_true, decide_eq_true_eq] at hout
    rw [if_pos (by simp [mediaOutdated, hout])]
    obtain rfl := Option.some_inj.mp hcard
    change ShowsVotes (s.votesOf plan m.chatJid m.id) _
    rw [hout.1.1, hout.1.2]
    exact showsVotes_storedMedia plan s chatJid messageId media
  · rename_i hout
    rw [if_neg hout]
    exact h m hm card hcard

theorem newCard_learnSenderName {message : Message} (h : NewCard plan s message) :
    NewCard plan (learnSenderName s message) message := by
  intro hs hfree card hcard
  rw [suppressed_congr (learnSenderName_frame s message).1
    (learnSenderName_frame s message).2.1] at hs
  have hunstored : s.messages.find? message.key = none := by
    rw [← Option.not_isSome_iff_eq_none]
    intro hstored
    have hkept := stored_learnSenderName message hstored
    rw [hfree] at hkept
    cases hkept
  have hvotes : (learnSenderName s message).votesOf plan message.chatJid message.id
      = s.votesOf plan message.chatJid message.id :=
    votesOf_congr plan _ _ fun _ => by rw [(learnSenderName_frame s message).2.2.2]
  rw [hvotes]
  exact h hs hunstored card hcard

theorem CardsTallied.insertHistoryMessageInto (h : CardsTallied plan s) {chat : Chat}
    {message : Message} (hnew : NewCard plan s message) :
    CardsTallied plan (insertHistoryMessageInto plan s chat message).1 := by
  have hlearned : CardsTallied plan (learnSenderName s message) := by
    unfold learnSenderName
    split
    · exact h.kept (updateContactNameInto_cardsKept s _ _ _)
    · exact h
  have hinserted : CardsTallied plan (OmarchyWhatsapp.insertMessageInto
      (learnSenderName s message) (historyInsert chat message)).1 :=
    hlearned.insertMessageInto (newCard_learnSenderName hnew)
  unfold OmarchyWhatsapp.insertHistoryMessageInto
  dsimp only
  split
  · exact hinserted
  · split
    · exact hinserted
    · exact hinserted.updateMessageMediaInto _ _ _

theorem CardsTallied.insertHistoryConversation (h : CardsTallied plan s)
    {conversation : Conversation}
    (hg : PollGuard plan s (.insertHistoryConversation conversation)) :
    CardsTallied plan
      (insertHistoryConversation plan s conversation.chat conversation.messages).1 := by
  have hchat : CardsTallied plan (insertHistoryChatInto s conversation.chat) := by
    unfold insertHistoryChatInto
    split
    · exact h
    · exact h.kept (.of_eq rfl rfl)
  have hloop : ∀ (messages : List Message) (s : Store) (changed : Bool), CardsTallied plan s →
      Guarded (fun s m => (OmarchyWhatsapp.insertHistoryMessageInto plan s conversation.chat m).1)
        (NewCard plan) s messages →
      CardsTallied plan (messages.foldl (fun acc message =>
        let next := OmarchyWhatsapp.insertHistoryMessageInto plan acc.1 conversation.chat message
        (next.1, acc.2 || next.2)) (s, changed)).1 := by
    intro messages
    induction messages with
    | nil => exact fun _ _ hs _ => hs
    | cons message messages ih =>
      exact fun s changed hs hguard => ih _ _ (hs.insertHistoryMessageInto hguard.1) hguard.2
  exact (hloop _ _ _ hchat hg).kept (pruneChatHistory_cardsKept plan _ _)

/-- An accepted vote recounts the card that it finds. -/
theorem CardsTallied.applyPollVote (h : CardsTallied plan s) {chatJid messageId voterJid : String}
    {selectedOptions : List String} {fromMe : Bool} {timestamp : ℤ}
    (hg : PollGuard plan s
      (.applyPollVote chatJid messageId voterJid selectedOptions fromMe timestamp)) :
    CardsTallied plan (s.apply plan
      (.applyPollVote chatJid messageId voterJid selectedOptions fromMe timestamp)) := by
  simp only [PollGuard] at hg
  simp only [Store.apply, OmarchyWhatsapp.applyPollVote]
  generalize previousMedia plan s chatJid messageId = previous at hg ⊢
  rcases previous with _ | media
  · exact h
  have hsame := hg media rfl
  cases media with
  | poll question options selectable total quiz correct endTimestamp =>
    by_cases hmany : (normalizedSelection options selectedOptions).length > selectable
    · simp only [if_pos hmany]
      exact h
    simp only [if_neg hmany]
    set ballot : PollVoteRow := ⟨chatJid, messageId, voterJid,
      normalizedSelection options selectedOptions, fromMe, timestamp⟩ with hballot
    set voted : Store := { s with
      pollVotes := s.pollVotes.upsert ballot mergeVote key_mergeVote } with hvoted
    set card : MessageMedia := .poll question options selectable total quiz correct endTimestamp
      with hcarddef
    -- the other polls keep their votes, and so their cards
    have hother : ∀ m ∈ s.messages.rows, ¬(m.chatJid = chatJid ∧ m.id = messageId) →
        ∀ card ∈ m.media, ShowsVotes (voted.votesOf plan m.chatJid m.id) card := by
      intro m hm hne card hcard
      have hvotes : voted.votesOf plan m.chatJid m.id = s.votesOf plan m.chatJid m.id := by
        refine votesOf_congr plan _ _ fun voter => ?_
        have hkey : (m.chatJid, m.id, voter) ≠ ballot.key := fun heq =>
          hne ⟨congrArg (·.1) heq, congrArg (·.2.1) heq⟩
        rw [hvoted, Table.find?_upsert, if_neg hkey]
      rw [hvotes]
      exact h m hm card hcard
    intro m' hm' shown hshown
    change ShowsVotes (voted.votesOf plan m'.chatJid m'.id) shown
    cases hchanged : (reconcilePollTallies plan voted chatJid messageId card).2 with
    | true =>
      simp only [hchanged, if_true] at hm'
      obtain ⟨m, hm, rfl⟩ := List.mem_map.mp hm'
      by_cases hid : m.chatJid = chatJid ∧ m.id = messageId
      · simp only [decide_eq_true hid, if_true] at hshown ⊢
        obtain rfl := Option.some_inj.mp hshown
        rw [hid.1, hid.2]
        exact showsVotes_retally _ card
      · simp only [decide_eq_false hid, Bool.false_eq_true, if_false] at hshown ⊢
        exact hother m hm hid shown hshown
    | false =>
      simp only [hchanged, Bool.false_eq_true, if_false] at hm'
      by_cases hid : m'.chatJid = chatJid ∧ m'.id = messageId
      · have haccepted : (⟨voterJid, selectedOptions, fromMe, timestamp⟩ : PollVote).accepted
            options selectable = true := decide_eq_true (not_lt.mp hmany)
        rw [hid.1, hid.2]
        exact hsame haccepted (showsVotes_iff.mpr hchanged) m'
          (Store.mem_messagesById.mpr ⟨hm', hid⟩) shown hshown
      · exact hother m' hm' hid shown hshown
  | _ => exact h

theorem CardsTallied.rewriteMediaPaths {rewrite : MessageMedia → MessageMedia}
    (hg : PollGuard plan s (.rewriteMediaPaths rewrite)) :
    CardsTallied plan (rewriteMediaPaths s rewrite) := by
  intro m' hm' card hcard
  obtain ⟨m, hm, rfl⟩ := List.mem_map.mp hm'
  obtain ⟨card, hmedia, rfl⟩ := Option.map_eq_some_iff.mp hcard
  exact hg m hm card hmedia

/-- A message that a deletion spares keeps its votes, or had none on its card. -/
theorem CardsTallied.deleteMessagesThrough (h : CardsTallied plan s) {chatJid : String}
    {timestamp : ℤ} (hfresh : (settingsOf s chatJid).clearedAt ≤ timestamp)
    (hg : SparedCards s chatJid timestamp) :
    CardsTallied plan (deleteMessagesThrough s chatJid timestamp) := by
  intro m hm card hcard
  obtain ⟨hmem, hkept⟩ := Table.mem_deleteWhere.mp hm
  by_cases hgone : m.chatJid = chatJid ∧
      (s.messagesById chatJid m.id).any (fun m => decide (m.timestamp ≤ timestamp)) = true
  · have hnone : (OmarchyWhatsapp.deleteMessagesThrough s chatJid timestamp).votesOf plan
        m.chatJid m.id = [] := by
      rw [List.eq_nil_iff_forall_not_mem]
      intro v hv
      rw [mem_votesOf] at hv
      obtain ⟨hv, hk⟩ := Table.find?_eq_some.mp hv
      simp only [PollVoteRow.key, Prod.mk.injEq] at hk
      have hstays : (decide (v.chatJid = chatJid) && (s.messagesById chatJid v.messageId).any
          (fun m => decide (m.timestamp ≤ timestamp))) = false := (Table.mem_deleteWhere.mp hv).2
      rw [hk.1, hk.2.1, hgone.1, hgone.2] at hstays
      simp at hstays
    rw [hnone]
    have hlater : timestamp < m.timestamp := by
      simpa [hgone.1] using hkept
    obtain ⟨m', hm', hle⟩ := List.any_eq_true.mp hgone.2
    exact hg hfresh m (Store.mem_chatMessages.mpr ⟨hmem, hgone.1⟩) hlater
      ⟨m', hm', of_decide_eq_true hle⟩ card hcard
  · have hvotes : (OmarchyWhatsapp.deleteMessagesThrough s chatJid timestamp).votesOf plan
        m.chatJid m.id = s.votesOf plan m.chatJid m.id := by
      refine votesOf_congr plan _ _ fun voter => ?_
      refine (Table.find?_deleteWhere s.pollVotes _ _).trans ?_
      rcases hrow : s.pollVotes.find? (m.chatJid, m.id, voter) with _ | v
      · rfl
      · have hk := Table.key_of_find? hrow
        simp only [PollVoteRow.key, Prod.mk.injEq] at hk
        refine Option.filter_some_pos ?_
        show (!(decide (v.chatJid = chatJid) && (s.messagesById chatJid v.messageId).any
          (fun m => decide (m.timestamp ≤ timestamp)))) = true
        rw [hk.1, hk.2.1, Bool.not_eq_true', Bool.eq_false_iff, Ne, Bool.and_eq_true,
          decide_eq_true_eq]
        exact hgone
    rw [hvotes]
    exact h m hmem card hcard

theorem CardsTallied.deleteChat (h : CardsTallied plan s) {chatJid : String} {timestamp : ℤ}
    (hg : SparedCards s chatJid timestamp) :
    CardsTallied plan (deleteChat s chatJid timestamp) := by
  unfold OmarchyWhatsapp.deleteChat
  split
  · exact h
  · rename_i hfresh
    refine (h.deleteMessagesThrough (not_lt.mp hfresh) hg).kept ?_
    dsimp only
    split <;> exact .of_eq rfl rfl

theorem CardsTallied.clearChat (h : CardsTallied plan s) {chatJid : String} {timestamp : ℤ}
    (hg : SparedCards s chatJid timestamp) : CardsTallied plan (clearChat s chatJid timestamp) := by
  unfold OmarchyWhatsapp.clearChat
  split
  · exact h
  · rename_i hfresh
    exact (h.deleteMessagesThrough (not_lt.mp hfresh) hg).kept (.of_eq rfl rfl)

end Steps

/-! ## Migration -/

section Migration

variable {s : Store} {oldJid newJid : String}

theorem pollVotes_migrateContactJid (h : Migrates s oldJid newJid) :
    (migrateContactJid plan s oldJid newJid).1.pollVotes
      = (migrateAttachments plan (migrateParticipants s oldJid newJid)
          oldJid newJid).pollVotes := by
  rw [migrateContactJid_of_migrates plan h, dropAlias, applyMigratedName]
  split <;> rfl

/-- A vote that counts for `k` is `k`'s once it is renamed. -/
theorem renamed_of_voteSources {k : String × String × String} (hc : k.1 ≠ oldJid)
    (hx : k.2.2 ≠ oldJid) {v : PollVoteRow}
    (hv : v ∈ (voteSources oldJid newJid k).filterMap s.pollVotes.find?) :
    v.renamed oldJid newJid = { v with chatJid := k.1, voterJid := k.2.2 } ∧
      v.messageId = k.2.1 := by
  have hmem : ∀ {y z : String}, y ≠ oldJid →
      (z ∈ (if y = newJid then [y, oldJid] else [y]) ∨
        z ∈ (if y = newJid then [oldJid, y] else [y])) → renamed oldJid newJid z = y := by
    intro y z hy hz
    by_cases hnew : y = newJid
    · simp only [if_pos hnew, List.mem_cons, List.not_mem_nil, or_false] at hz
      rcases hz with (rfl | rfl) | rfl | rfl
      · exact renamed_of_ne hy
      · rw [renamed_old, hnew]
      · rw [renamed_old, hnew]
      · exact renamed_of_ne hy
    · simp only [if_neg hnew, List.mem_singleton, or_self] at hz
      rw [hz, renamed_of_ne hy]
  obtain ⟨k', hk', hfound⟩ := List.mem_filterMap.mp hv
  obtain ⟨c, hchat, hk'⟩ := List.mem_flatMap.mp hk'
  obtain ⟨x, hvoter, rfl⟩ := List.mem_map.mp hk'
  have hkey := Table.key_of_find? hfound
  simp only [PollVoteRow.key, Prod.mk.injEq] at hkey
  rw [PollVoteRow.renamed, hkey.1, hkey.2.2, hmem hc (Or.inl hchat), hmem hx (Or.inr hvoter)]
  exact ⟨rfl, hkey.2.1⟩

/-- The voter pass leaves the newest vote of the two identities where the canonical one has
it. -/
theorem find?_migrateParticipants_pollVotes (hne : oldJid ≠ newJid)
    (hold : ∀ v ∈ s.pollVotes.rows, v.voterJid = oldJid →
      ∀ own ∈ s.pollVotes.find? (v.chatJid, v.messageId, newJid), v.timestamp ≤ own.timestamp)
    {x : String} (hx : x ≠ oldJid) (c m : String) :
    (migrateParticipants s oldJid newJid).pollVotes.find? (c, m, x)
      = (latest (·.timestamp) (((if x = newJid then [oldJid, x] else [x]).map
          (fun y => (c, m, y))).filterMap s.pollVotes.find?)).map
            (fun v => { v with voterJid := x }) := by
  have hpass := find?_participantPass s.pollVotes (fun v => decide (v.voterJid = oldJid))
    (fun v => { v with voterJid := newJid }) hne (fun _ => rfl) (fun _ => rfl) c m x
  rw [if_neg hx] at hpass
  have hown : ∀ {v}, s.pollVotes.find? (c, m, x) = some v → { v with voterJid := x } = v := by
    intro v hv
    have hkey := Table.key_of_find? hv
    simp only [PollVoteRow.key, Prod.mk.injEq] at hkey
    rw [← hkey.2.2]
  refine hpass.trans ?_
  by_cases hnew : x = newJid
  · subst hnew
    rw [if_pos rfl, if_pos rfl, List.map_cons, List.map_cons, List.map_nil]
    rcases halias : s.pollVotes.find? (c, m, oldJid) with _ | a <;>
      rcases hrow : s.pollVotes.find? (c, m, x) with _ | r
    · simp [halias, hrow]
    · simp [halias, hrow, latest, hown hrow]
    · simp [halias, hrow, latest]
    · -- both voted, and the canonical vote is not the older one
      obtain ⟨hmem, hkey⟩ := Table.find?_eq_some.mp halias
      simp only [PollVoteRow.key, Prod.mk.injEq] at hkey
      have hle : a.timestamp ≤ r.timestamp :=
        hold a hmem hkey.2.2 r (by rw [hkey.1, hkey.2.1]; exact hrow)
      simp [halias, hrow, latest, hle, hown hrow]
  · rw [if_neg hnew, if_neg hnew, List.map_cons, List.map_nil]
    rcases hrow : s.pollVotes.find? (c, m, x) with _ | r
    · simp [hrow]
    · simp [hrow, latest, hown hrow]

/-- The newer of two votes of one voter. -/
theorem mergePollVotes_eq {r a : PollVoteRow} (h : r.key = a.key) :
    mergePollVotes r a = if r.timestamp ≤ a.timestamp then a else r := by
  simp only [PollVoteRow.key, Prod.mk.injEq] at h
  unfold mergePollVotes
  split
  · rw [h.1, h.2.1, h.2.2]
  · rfl

/-- Every key of the canonical identity holds the newest vote after a guarded migration. -/
theorem countsNewest_migrateContactJid (h : Migrates s oldJid newJid)
    (hold : ∀ v ∈ s.pollVotes.rows, v.voterJid = oldJid →
      ∀ own ∈ s.pollVotes.find? (v.chatJid, v.messageId, newJid), v.timestamp ≤ own.timestamp) :
    CountsNewest s (migrateContactJid plan s oldJid newJid).1 oldJid newJid := by
  rintro ⟨c, m, x⟩ hc hx
  have hpass := find?_chatPass (migrateParticipants s oldJid newJid).pollVotes
    (fun v => decide (v.chatJid = oldJid)) (fun v => { v with chatJid := newJid }) plan
    mergePollVotes key_mergePollVotes (fun _ => rfl) (fun _ => rfl) c m x
  have hvoters := fun c => find?_migrateParticipants_pollVotes h.1 hold hx c m
  have hrenamed : newestVote s oldJid newJid (c, m, x)
      = (latest (·.timestamp) ((voteSources oldJid newJid (c, m, x)).filterMap
          s.pollVotes.find?)).map (fun v => { v with chatJid := c, voterJid := x }) := by
    rw [newestVote]
    refine Option.map_congr fun v hv => ?_
    exact (renamed_of_voteSources hc hx (latest_mem _ hv)).1
  rw [pollVotes_migrateContactJid plan h, hrenamed]
  refine hpass.trans ?_
  rw [if_neg hc]
  have hkeys : ∀ c' : String, ∀ v ∈ latest (·.timestamp) (((if x = newJid then [oldJid, x]
      else [x]).map (fun y => (c', m, y))).filterMap s.pollVotes.find?),
      v.chatJid = c' ∧ v.messageId = m := by
    intro c' v hv
    obtain ⟨k, hk, hfound⟩ := List.mem_filterMap.mp (latest_mem _ hv)
    obtain ⟨y, -, rfl⟩ := List.mem_map.mp hk
    have hkey := Table.key_of_find? hfound
    simp only [PollVoteRow.key, Prod.mk.injEq] at hkey
    exact ⟨hkey.1, hkey.2.1⟩
  by_cases hnew : c = newJid
  · subst hnew
    rw [if_pos rfl, hvoters, hvoters, voteSources]
    simp only [if_true, List.flatMap_cons, List.flatMap_nil, List.append_nil,
      List.filterMap_append, latest_append]
    have hown := hkeys c
    have halias := hkeys oldJid
    generalize latest (·.timestamp) (((if x = c then [oldJid, x] else [x]).map
      (fun y => (c, m, y))).filterMap s.pollVotes.find?) = own at hown ⊢
    generalize latest (·.timestamp) (((if x = c then [oldJid, x] else [x]).map
      (fun y => (oldJid, m, y))).filterMap s.pollVotes.find?) = ofAlias at halias ⊢
    rcases ofAlias with _ | a <;> rcases own with _ | r
    · rfl
    · simp [later, (hown r rfl).1]
    · simp [later]
    · simp only [Option.map_some, Option.elim_some, later]
      rw [mergePollVotes_eq (by simp [PollVoteRow.key, hown r rfl, halias a rfl])]
      by_cases hle : r.timestamp ≤ a.timestamp
      · simp [hle]
      · simp [hle, ← (hown r rfl).1]
  · rw [if_neg hnew, hvoters, voteSources]
    simp only [if_neg hnew, List.flatMap_cons, List.flatMap_nil, List.append_nil]
    refine Option.map_congr fun v hv => ?_
    rw [← (hkeys c v hv).1]

/-- The votes of a poll after a guarded migration. -/
theorem votesOf_migrateContactJid {s' : Store} (hcounts : CountsNewest s s' oldJid newJid)
    (hgone : ∀ c m, s'.pollVotes.find? (c, m, oldJid) = none) (hne : oldJid ≠ newJid)
    {c : String} (hc : c ≠ oldJid) (m : String) :
    s'.votesOf plan c m = newestVotes plan s oldJid newJid c m := by
  have hnewest : ∀ {x v}, x ≠ oldJid → newestVote s oldJid newJid (c, m, x) = some v →
      v.chatJid = c ∧ v.messageId = m ∧ v.voterJid = x := by
    intro x v hx hv
    obtain ⟨w, hw, rfl⟩ := Option.map_eq_some_iff.mp hv
    obtain ⟨hrenamed, hid⟩ := renamed_of_voteSources hc hx (latest_mem _ hw)
    rw [hrenamed]
    exact ⟨rfl, hid, rfl⟩
  have hvoter : ∀ {x},
      x ∈ (s.pollVotes.rows.map (fun v => renamed oldJid newJid v.voterJid)).dedup →
        x ≠ oldJid := by
    intro x hx
    obtain ⟨v, -, rfl⟩ := List.mem_map.mp (List.mem_dedup.mp hx)
    exact renamed_ne hne _
  have hmem : ∀ v, v ∈ s'.pollVotes.rows.filter (fun v => v.chatJid = c ∧ v.messageId = m) ↔
      s'.pollVotes.find? (c, m, v.voterJid) = some v := fun v =>
    plan.mem_orderBy.symm.trans (mem_votesOf plan c m)
  refine orderBy_votes_congr plan ?_ fun a ha b hb hab => ?_
  · refine (List.perm_ext_iff_of_nodup (List.filter_sublist.nodup s'.pollVotes.nodup.of_map)
      (List.pairwise_filterMap.mpr ((List.nodup_dedup _).imp_of_mem ?_))).mpr fun v => ?_
    · -- the votes of two voters differ
      intro x x' hx hx' hdiffer v hv v' hv' heq
      subst heq
      exact hdiffer ((hnewest (hvoter hx) hv).2.2.symm.trans (hnewest (hvoter hx') hv').2.2)
    · rw [hmem, List.mem_filterMap]
      constructor
      · intro hv
        have hx : v.voterJid ≠ oldJid := by
          intro hx
          rw [hx, hgone] at hv
          cases hv
        rw [hcounts (c, m, v.voterJid) hc hx] at hv
        refine ⟨v.voterJid, ?_, hv⟩
        obtain ⟨w, hw, rfl⟩ := Option.map_eq_some_iff.mp hv
        obtain ⟨k, -, hfound⟩ := List.mem_filterMap.mp (latest_mem _ hw)
        exact List.mem_dedup.mpr (List.mem_map.mpr ⟨w, Table.mem_of_find? hfound, rfl⟩)
      · rintro ⟨x, hx, hv⟩
        rw [(hnewest (hvoter hx) hv).2.2, hcounts (c, m, x) hc (hvoter hx)]
        exact hv
  · rw [hmem] at ha hb
    rw [hab, hb] at ha
    exact (Option.some_inj.mp ha).symm

/-- The card of a row that may have been merged with another. -/
theorem media_merged {f : MessageRow → MessageRow} {merge : MessageRow → MessageRow → MessageRow}
    (hf : ∀ a, (f a).media = a.media) (hmerge : ∀ r a, (merge r a).media = r.media.or a.media)
    (own ofAlias : Option MessageRow) :
    (ofAlias.elim own (fun a => some (own.elim (f a) (fun r => merge r (f a))))).bind (·.media)
      = (own.bind (·.media)).or (ofAlias.bind (·.media)) := by
  cases own <;> cases ofAlias <;> simp [hf, hmerge]

theorem findSome?_pair {α β : Type} (g : α → Option β) (a b : α) :
    [a, b].findSome? g = (g a).or (g b) := by
  rw [List.findSome?_cons, List.findSome?_cons, List.findSome?_nil]
  cases g a <;> cases g b <;> rfl

theorem media_migrateSender {x : String} (hx : x ≠ oldJid) (c m : String) :
    ((migrateSender plan s oldJid newJid).messages.find? (c, x, m)).bind (·.media)
      = ((if x = newJid then [x, oldJid] else [x]).map (fun y => (c, y, m))).findSome?
          (fun k => (s.messages.find? k).bind (·.media)) := by
  have hpass := find?_renamePass s.messages (fun m => decide (m.senderJid = oldJid))
    (MessageRow.withSender newJid) plan mergeSenderCopies (fun _ _ => rfl) (·.2.1)
    (fun j k => (k.1, j, k.2.2)) (fun _ _ => rfl) (fun _ => rfl) (fun _ _ _ => rfl)
    (fun _ => rfl) (fun _ => rfl) (c, x, m)
  refine (congrArg (Option.bind · (·.media)) hpass).trans ?_
  by_cases hnew : x = newJid
  · simp only [if_neg hx, if_pos hnew, List.map_cons, List.map_nil, findSome?_pair]
    exact @media_merged (MessageRow.withSender newJid) mergeSenderCopies (fun _ => rfl)
      (fun _ _ => rfl) _ _
  · simp only [if_neg hx, if_neg hnew, List.map_cons, List.map_nil, List.findSome?_singleton]

theorem media_mergedMessages {k : String × String × String} (hc : k.1 ≠ oldJid)
    (hx : k.2.1 ≠ oldJid) :
    ((mergedMessages plan s oldJid newJid).find? k).bind (·.media)
      = keptCard s oldJid newJid k := by
  obtain ⟨c, x, m⟩ := k
  have hpass := find?_chatPass (migrateSender plan s oldJid newJid).messages
    (fun m => decide (m.chatJid = oldJid)) (MessageRow.withChat newJid) plan mergeChatCopies
    (fun _ _ => rfl) (fun _ => rfl) (fun _ => rfl) c x m
  refine (congrArg (Option.bind · (·.media)) hpass).trans ?_
  have hsenders := fun c => @media_migrateSender plan s oldJid newJid x hx c m
  rw [keptCard, cardSources]
  by_cases hnew : c = newJid
  · subst hnew
    simp only [if_neg hc, if_true, List.flatMap_cons, List.flatMap_nil, List.append_nil,
      List.findSome?_append]
    rw [← hsenders, ← hsenders]
    exact @media_merged (MessageRow.withChat c) mergeChatCopies (fun _ => rfl)
      (fun _ _ => rfl) _ _
  · simp only [if_neg hc, if_neg hnew, List.flatMap_cons, List.flatMap_nil, List.append_nil]
    exact hsenders c

/-- No vote is left under the alias. -/
theorem find?_pollVotes_alias (h : Migrates s oldJid newJid) (c m : String) :
    (migrateContactJid plan s oldJid newJid).1.pollVotes.find? (c, m, oldJid) = none := by
  have hvoters : ∀ c, (migrateParticipants s oldJid newJid).pollVotes.find? (c, m, oldJid)
      = none := by
    intro c
    have hpass := find?_participantPass s.pollVotes (fun v => decide (v.voterJid = oldJid))
      (fun v => { v with voterJid := newJid }) h.1 (fun _ => rfl) (fun _ => rfl) c m oldJid
    rw [if_pos rfl] at hpass
    exact hpass
  have hpass := find?_chatPass (migrateParticipants s oldJid newJid).pollVotes
    (fun v => decide (v.chatJid = oldJid)) (fun v => { v with chatJid := newJid }) plan
    mergePollVotes key_mergePollVotes (fun _ => rfl) (fun _ => rfl) c m oldJid
  rw [pollVotes_migrateContactJid plan h]
  refine hpass.trans ?_
  rw [hvoters, hvoters, hvoters]
  split
  · rfl
  · split <;> rfl

/-- A message after the migration has the identity and the card of a merged one. -/
theorem exists_mergedMessage (h : Migrates s oldJid newJid) {m' : MessageRow}
    (hm' : m' ∈ (migrateContactJid plan s oldJid newJid).1.messages.rows) :
    ∃ m ∈ (mergedMessages plan s oldJid newJid).rows, m.key = m'.key ∧ m.media = m'.media := by
  have hkept : ∀ m ∈ (migratedStore plan s oldJid newJid).messages.rows,
      m ∈ (mergedMessages plan s oldJid newJid).rows := fun m hm =>
    (Table.mem_deleteWhere.mp hm).1
  rw [migrateContactJid_of_migrates plan h, dropAlias, applyMigratedName] at hm'
  split at hm'
  · exact ⟨m', hkept m' hm', rfl, rfl⟩
  · obtain ⟨m, hm, rfl⟩ := List.mem_map.mp hm'
    refine ⟨m, hkept m hm, ?_⟩
    split <;> exact ⟨rfl, rfl⟩

theorem CardsTallied.migrateContactJid (h : CardsTallied plan s)
    (hg : PollGuard plan s (.migrateContactJid oldJid newJid)) :
    CardsTallied plan (migrateContactJid plan s oldJid newJid).1 := by
  by_cases hmig : Migrates s oldJid newJid
  swap
  · rw [migrateContactJid_of_not_migrates plan hmig]
    exact h
  obtain ⟨hold, hcards⟩ := hg hmig
  intro m' hm' card hcard
  obtain ⟨m₁, hm₁, hkey₁, hmedia⟩ := exists_mergedMessage plan hmig hm'
  obtain ⟨m, hm, hkey, -⟩ := (mergedMessages_mergedBy plan hmig.1).origin m₁ hm₁
  have hid := hkey.trans hkey₁
  have hchat : m'.chatJid = renamed oldJid newJid m.chatJid := (congrArg (·.1) hid).symm
  have hc : m'.chatJid ≠ oldJid := by
    rw [hchat]
    exact renamed_ne hmig.1 _
  have hx : m'.key.2.1 ≠ oldJid := by
    rw [← hid]
    exact renamed_ne hmig.1 _
  -- the card is the one that the merge keeps, and the votes are the newest ones
  have hcard' : card ∈ keptCard s oldJid newJid (renameIdentity oldJid newJid m.key) := by
    rw [hkey, hkey₁, ← media_mergedMessages plan hc hx, ← hkey₁, Table.find?_of_mem hm₁]
    exact hmedia.trans hcard
  have hshows := hcards m hm card hcard'
  have hm'id : m.id = m'.id := congrArg (·.2.2) hid
  rw [← hchat, hm'id] at hshows
  rwa [votesOf_migrateContactJid plan (countsNewest_migrateContactJid plan hmig hold)
    (find?_pollVotes_alias plan hmig) hmig.1 hc]

end Migration

/-! ## Every operation -/

section Runs

/-- One guarded operation keeps the cards. -/
theorem CardsTallied.apply {s : Store} (h : CardsTallied plan s) {op : Op}
    (hg : PollGuard plan s op) : CardsTallied plan (s.apply plan op) := by
  cases op with
  | insertMessage => exact h.insertMessageInner hg
  | insertMessageWithReadIntent => exact h.insertMessageInner hg
  | insertHistoryConversation => exact h.insertHistoryConversation hg
  | updateContactName => exact h.kept (updateContactNameInto_cardsKept s _ _ _)
  | updateAddressBookName => exact h.kept (updateContactNameInto_cardsKept s _ _ _)
  | updateGroupName jid name =>
    refine h.kept (.of_eq (updateGroupName_frame s jid name).1 ?_)
    rw [Store.apply, updateGroupName]
    split <;> rfl
  | updateChatPhoneNumber => exact h.kept (.of_eq rfl rfl)
  | applyReaction chatJid messageId reactorJid emoji fromMe timestamp =>
    refine h.kept (.of_eq (applyReaction_frame s _ _ _ _ _ _).1 ?_)
    simp only [Store.apply, applyReaction]
    split
    · rfl
    · split <;> rfl
  | storePollSecret chatJid messageId creatorJid secret =>
    refine h.kept (.of_eq (storePollSecret_frame s _ _ _ _).1 ?_)
    simp only [Store.apply, storePollSecret]
    split <;> rfl
  | applyPollVote => exact h.applyPollVote hg
  | updateMessageMedia => exact h.updateMessageMediaInto _ _ _
  | storeMediaDownload => exact h.kept (.of_updateWhere rfl (fun _ => ⟨rfl, rfl, rfl⟩) rfl)
  | rewriteMediaPaths => exact CardsTallied.rewriteMediaPaths hg
  | markRead => exact h.kept (applyReadBoundary_cardsKept plan s _ _ _)
  | applyReadState => exact h.kept (applyReadState_cardsKept plan s _ _)
  | applySyncedReadState => exact h.kept (applySyncedReadState_cardsKept plan s _ _ _ _ _)
  | applySelfReadReceipt => exact h.kept (applySelfReadReceipt_cardsKept plan s _ _ _)
  | reconcileUnread => exact h.kept (.of_eq rfl rfl)
  | applyPinAt => exact h.kept (.of_eq rfl rfl)
  | applyArchiveAt => exact h.kept (.of_eq rfl rfl)
  | applyMuteAt => exact h.kept (.of_eq rfl rfl)
  | updateReceipts => exact h.kept (updateReceipts_cardsKept s _ _ _ _ _)
  | queueReadReceipts => exact h.kept (.of_eq rfl rfl)
  | finishReadBatch => exact h.kept (.of_eq rfl rfl)
  | deleteChat => exact h.deleteChat hg
  | clearChat => exact h.clearChat hg
  | deleteMessage => exact h.kept (deleteMessage_cardsKept plan s _ _)
  | migrateContactJid => exact h.migrateContactJid plan hg

/-- In every run whose steps the guard admits, every card shows its votes in every state, and
every migration counts the newest votes of the two identities. -/
theorem pollCards_of_guarded (ops : List Op)
    (hg : Guarded (Store.apply plan) (PollGuard plan) Store.empty ops) :
    (∀ s ∈ states (Store.apply plan) Store.empty ops, CardsTallied plan s) ∧
      ∀ before oldJid newJid after, ops = before ++ .migrateContactJid oldJid newJid :: after →
        Migrates (run (Store.apply plan) Store.empty before) oldJid newJid →
          CountsNewest (run (Store.apply plan) Store.empty before)
            (run (Store.apply plan) Store.empty (before ++ [.migrateContactJid oldJid newJid]))
            oldJid newJid := by
  have hempty : CardsTallied plan Store.empty := fun m hm => by cases hm
  refine ⟨invariant_states (fun s op hs hop => CardsTallied.apply plan hs hop) hempty hg,
    fun before oldJid newJid after hops hmig => ?_⟩
  rw [hops, guarded_append] at hg
  rw [run_append]
  exact countsNewest_migrateContactJid plan hmig (hg.2.1 hmig).1

end Runs

/-- A poll that nobody voted in yet. -/
def pollMessage (chatJid id : String) (options : List String) (timestamp : ℤ) : Message :=
  { directMessage chatJid id "When?" timestamp with
    media := some (.poll "When?" (options.map (fun name => { name })) 1 0 false none 0) }

/-- The alias's chat is merged with its poll, and the votes go on. -/
theorem pollCards_of_guarded_merged_chat :
    let ops : List Op :=
      [.insertMessage (pollMessage "1@lid" "a" ["Mon", "Tue"] 10) "Ann" false true,
        .applyPollVote "1@lid" "a" "2" ["Mon"] false 20, .migrateContactJid "1@lid" "1",
        .applyPollVote "1" "a" "2" ["Tue"] false 30]
    (∀ s ∈ states (Store.apply .stable) Store.empty ops, CardsTallied .stable s) ∧
      ∀ before oldJid newJid after, ops = before ++ .migrateContactJid oldJid newJid :: after →
        Migrates (run (Store.apply .stable) Store.empty before) oldJid newJid →
          CountsNewest (run (Store.apply .stable) Store.empty before)
            (run (Store.apply .stable) Store.empty (before ++ [.migrateContactJid oldJid newJid]))
            oldJid newJid :=
  pollCards_of_guarded .stable _ (by decide)

/-- A migration leaves the alias's name on a card, and counts the older of two votes. -/
theorem migrateContactJid_counts_older_vote :
    ¬(∀ s ∈ states (Store.apply .stable) Store.empty
        [.insertMessage (pollMessage "1" "a" ["Mon", "Tue"] 10) "Ann" false true,
          .applyPollVote "1" "a" "2@lid" ["Mon"] false 20, .migrateContactJid "2@lid" "2"],
        CardsTallied .stable s) ∧
      let voted := run (Store.apply .stable) Store.empty
        [.insertMessage (pollMessage "1" "a" ["Mon", "Tue"] 10) "Ann" false true,
          .applyPollVote "1" "a" "2" ["Tue"] false 11,
          .applyPollVote "1" "a" "2@lid" ["Mon"] false 20]
      ¬CountsNewest voted (voted.apply .stable (.migrateContactJid "2@lid" "2")) "2@lid" "2" := by
  refine ⟨by decide, fun h => ?_⟩
  exact absurd (h ("1", "a", "2") (by decide) (by decide)) (by decide)

end OmarchyWhatsapp
