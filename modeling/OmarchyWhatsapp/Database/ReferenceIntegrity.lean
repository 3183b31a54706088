import OmarchyWhatsapp.Database.AliasCompleteness
import OmarchyWhatsapp.Database.HistoryBatch
import OmarchyWhatsapp.Database.PollCardTheorems

/-!
# Votes, poll secrets and receipts of stored messages

No foreign key ties `poll_votes`, `poll_secrets` and `message_reads` to `messages`. A vote and a
receipt are stored only for a message that is there, and the deletions and the pruning of a chat
take the rows of a message along. `store_poll_secret` does not look for the message, and
`migrate_contact_jid` prunes the messages of the merged chat alone.
-/

namespace OmarchyWhatsapp

open Relational

variable (plan : QueryPlan) {s s' : Store}

/-- A vote, a poll secret or a receipt is of the message. -/
def Store.refersTo (s : Store) (chatJid messageId : String) : Prop :=
  (∃ v ∈ s.pollVotes.rows, v.chatJid = chatJid ∧ v.messageId = messageId) ∨
    (∃ p ∈ s.pollSecrets.rows, p.chatJid = chatJid ∧ p.messageId = messageId) ∨
    ∃ r ∈ s.messageReads.rows, r.chatJid = chatJid ∧ r.messageId = messageId

theorem referential_iff : Referential s ↔
    ∀ chatJid messageId, s.refersTo chatJid messageId → s.hasMessage chatJid messageId = true := by
  constructor
  · rintro ⟨hvotes, hsecrets, hreads⟩ c id (⟨v, hv, rfl, rfl⟩ | ⟨p, hp, rfl, rfl⟩ | ⟨r, hr, rfl, rfl⟩)
    · exact hvotes v hv
    · exact hsecrets p hp
    · exact hreads r hr
  · intro h
    exact ⟨fun v hv => h _ _ (Or.inl ⟨v, hv, rfl, rfl⟩),
      fun p hp => h _ _ (Or.inr (Or.inl ⟨p, hp, rfl, rfl⟩)),
      fun r hr => h _ _ (Or.inr (Or.inr ⟨r, hr, rfl, rfl⟩))⟩

/-! ## Statements that keep what is referred to -/

namespace Referential

theorem grows (h : Referential s)
    (hids : ∀ c id, s.hasMessage c id = true → s'.hasMessage c id = true)
    (hvotes : s'.pollVotes = s.pollVotes) (hsecrets : s'.pollSecrets = s.pollSecrets)
    (hreads : s'.messageReads = s.messageReads) : Referential s' where
  votes v hv := hids _ _ (h.votes v (hvotes ▸ hv))
  secrets p hp := hids _ _ (h.secrets p (hsecrets ▸ hp))
  reads r hr := hids _ _ (h.reads r (hreads ▸ hr))

theorem of_messages (h : Referential s) (hm : s'.messages = s.messages)
    (hvotes : s'.pollVotes = s.pollVotes) (hsecrets : s'.pollSecrets = s.pollSecrets)
    (hreads : s'.messageReads = s.messageReads) : Referential s' :=
  h.grows (fun c id hid => by rwa [Store.hasMessage, hm]) hvotes hsecrets hreads

/-- A deletion that takes along what refers to the messages it deletes. -/
theorem purges (h : Referential s) {gone : String → String → Bool}
    (hkept : ∀ c id, s.hasMessage c id = true → gone c id = false → s'.hasMessage c id = true)
    (hvotes : s'.pollVotes = s.pollVotes.deleteWhere (fun v => gone v.chatJid v.messageId))
    (hsecrets : s'.pollSecrets = s.pollSecrets.deleteWhere (fun p => gone p.chatJid p.messageId))
    (hreads : s'.messageReads = s.messageReads.deleteWhere
      (fun r => gone r.chatJid r.messageId)) : Referential s' where
  votes v hv := by
    obtain ⟨hv, hleft⟩ := Table.mem_deleteWhere.mp (hvotes ▸ hv)
    exact hkept _ _ (h.votes v hv) hleft
  secrets p hp := by
    obtain ⟨hp, hleft⟩ := Table.mem_deleteWhere.mp (hsecrets ▸ hp)
    exact hkept _ _ (h.secrets p hp) hleft
  reads r hr := by
    obtain ⟨hr, hleft⟩ := Table.mem_deleteWhere.mp (hreads ▸ hr)
    exact hkept _ _ (h.reads r hr) hleft

end Referential

theorem hasMessage_updateWhere {p : MessageRow → Bool} {f : MessageRow → MessageRow}
    (h : s'.messages.rows = s.messages.rows.map (fun m => if p m then f m else m))
    (hf : ∀ m, (f m).key = m.key) (c id : String) : s'.hasMessage c id = s.hasMessage c id := by
  refine hasMessage_congr ?_
  rw [h, List.map_map]
  refine List.map_congr_left fun m _ => ?_
  rw [Function.comp_apply]
  split
  · have hm := hf m
    simp only [MessageRow.key, Prod.mk.injEq] at hm
    rw [hm.1, hm.2.2]
  · rfl

/-- An update of the messages that leaves their identities alone. -/
theorem Referential.updates (h : Referential s) {p : MessageRow → Bool}
    {f : MessageRow → MessageRow}
    (hrows : s'.messages.rows = s.messages.rows.map (fun m => if p m then f m else m))
    (hf : ∀ m, (f m).key = m.key) (hvotes : s'.pollVotes = s.pollVotes)
    (hsecrets : s'.pollSecrets = s.pollSecrets) (hreads : s'.messageReads = s.messageReads) :
    Referential s' :=
  h.grows (fun c id hid => by rwa [hasMessage_updateWhere hrows hf]) hvotes hsecrets hreads

section Updates

variable (h : Referential s)

include h

theorem Referential.updateContactNameInto (jid name : String) (source : ℕ) :
    Referential (updateContactNameInto s jid name source).1 := by
  unfold OmarchyWhatsapp.updateContactNameInto
  split
  · exact h
  · split
    · exact h
    · exact h.updates rfl (fun _ => rfl) rfl rfl rfl

theorem Referential.updateGroupName (jid name : String) :
    Referential (updateGroupName s jid name).1 := by
  unfold OmarchyWhatsapp.updateGroupName
  split
  · exact h
  · exact h.of_messages rfl rfl rfl rfl

theorem Referential.updateMessageMediaInto (c id : String) (media : MessageMedia) :
    Referential (updateMessageMediaInto plan s c id media).1 :=
  h.updates rfl (fun _ => rfl) rfl rfl rfl

theorem Referential.applyReadBoundary (c : String) (timestamp : ℤ) (ids : List String) :
    Referential (applyReadBoundary plan s c timestamp ids).1 :=
  h.updates rfl (fun _ => rfl) rfl rfl rfl

theorem Referential.applyReadState (c : String) (read : Bool) :
    Referential (applyReadState plan s c read).1 := by
  unfold OmarchyWhatsapp.applyReadState
  split
  · exact h.applyReadBoundary plan c _ _
  · exact h.of_messages rfl rfl rfl rfl

theorem Referential.applySyncedReadState (c : String) (read : Bool) (boundary : Option ℤ)
    (ids : List String) (eventTimestamp : ℤ) :
    Referential (applySyncedReadState plan s c read boundary ids eventTimestamp).1 := by
  unfold OmarchyWhatsapp.applySyncedReadState
  split
  · exact h
  · dsimp only
    split
    · exact (h.applyReadBoundary plan c _ ids).of_messages rfl rfl rfl rfl
    · exact (h.applyReadState plan c false).of_messages rfl rfl rfl rfl

theorem Referential.applySelfReadReceipt (c : String) (ids : List String) (timestamp : ℤ) :
    Referential (applySelfReadReceipt plan s c ids timestamp).1 := by
  unfold OmarchyWhatsapp.applySelfReadReceipt
  split
  · exact h
  · exact h.applyReadBoundary plan c _ ids

theorem Referential.applyReaction (c id reactor emoji : String) (fromMe : Bool) (timestamp : ℤ) :
    Referential (applyReaction s c id reactor emoji fromMe timestamp).1 := by
  unfold OmarchyWhatsapp.applyReaction
  dsimp only
  split
  · exact h.of_messages rfl rfl rfl rfl
  · split
    · exact h
    · exact h.of_messages rfl rfl rfl rfl

/-- A receipt of a reader is stored for a message that is there. -/
theorem Referential.updateReceipt (c id : String) (receipt : ℕ) (reader : Option String)
    (receiptAt : ℤ) : Referential (updateReceipt s c id receipt reader receiptAt).1 := by
  have hupdated : Referential { s with
      messages := s.messages.updateWhere (receiptAdvances c id receipt receiptAt)
        (advanceReceipt receipt receiptAt) } := h.updates rfl (fun _ => rfl) rfl rfl rfl
  unfold OmarchyWhatsapp.updateReceipt
  dsimp only
  split
  · rename_i row hrow
    split
    · rename_i houtgoing
      refine ⟨hupdated.votes, hupdated.secrets, fun r hr => ?_⟩
      have hplace : row.chatJid = c ∧ row.messageId = id := by
        obtain ⟨jid, -, hjid⟩ := Option.bind_eq_some_iff.mp hrow
        unfold readerReceipt at hjid
        split_ifs at hjid
        · exact Option.some.inj hjid ▸ ⟨rfl, rfl⟩
        · exact Option.some.inj hjid ▸ ⟨rfl, rfl⟩
      have hstored : s.hasMessage c id = true := by
        obtain ⟨m, hm, hk⟩ := List.any_eq_true.mp houtgoing
        simp only [Bool.and_eq_true, decide_eq_true_eq] at hk
        exact hasMessage_iff.mpr ⟨m, hm, hk.1.1, hk.1.2⟩
      have hadvanced : ({ s with
          messages := s.messages.updateWhere (receiptAdvances c id receipt receiptAt)
            (advanceReceipt receipt receiptAt) } : Store).hasMessage c id = true :=
        (hasMessage_updateWhere (f := advanceReceipt receipt receiptAt) rfl (fun _ => rfl) c id).trans
          hstored
      exact Table.forall_upsert hupdated.reads (by rwa [hplace.1, hplace.2])
        (fun old hold => hold) r hr
    · exact hupdated
  · exact hupdated

theorem Referential.insertVote {vote : PollVoteRow}
    (hstored : s.hasMessage vote.chatJid vote.messageId = true) :
    Referential { s with pollVotes := s.pollVotes.upsert vote mergeVote key_mergeVote } := by
  refine ⟨?_, h.secrets, h.reads⟩
  refine Table.forall_upsert h.votes hstored fun old hold => ?_
  unfold mergeVote
  split
  · exact hold
  · exact hold

/-- A vote is stored for a message that is there. -/
theorem Referential.applyPollVote (c id voter : String) (selected : List String) (fromMe : Bool)
    (timestamp : ℤ) :
    Referential (s.apply plan (.applyPollVote c id voter selected fromMe timestamp)) := by
  simp only [Store.apply, OmarchyWhatsapp.applyPollVote]
  rcases hprevious : previousMedia plan s c id with _ | media
  · exact h
  have hstored : s.hasMessage c id = true := by
    obtain ⟨m, hm⟩ := List.exists_mem_of_ne_nil _ (messagesById_ne_nil plan _ _ hprevious)
    obtain ⟨hm, hc, hid⟩ := Store.mem_messagesById.mp hm
    exact hasMessage_iff.mpr ⟨m, hm, hc, hid⟩
  cases media with
  | poll question options selectable total quiz correct endTimestamp =>
    dsimp only
    split_ifs
    · exact h
    · -- the card of the poll is recounted
      have hvoted := @Referential.insertVote _ h
        ⟨c, id, voter, normalizedSelection options selected, fromMe, timestamp⟩ hstored
      exact hvoted.updates rfl (fun _ => rfl) rfl rfl rfl
    · exact h.insertVote hstored
  | _ => exact h

/-! ## Insertions -/

theorem Referential.insertMessageInto (insert : MessageInsert) :
    Referential (insertMessageInto s insert).1 := by
  cases hsup : suppressed s insert.message with
  | true => rwa [insertMessageInto_of_suppressed hsup]
  | false =>
    have hsides : (OmarchyWhatsapp.insertMessageInto s insert).1.pollVotes = s.pollVotes ∧
        (OmarchyWhatsapp.insertMessageInto s insert).1.pollSecrets = s.pollSecrets ∧
        (OmarchyWhatsapp.insertMessageInto s insert).1.messageReads = s.messageReads := by
      unfold OmarchyWhatsapp.insertMessageInto queueReadIntent reviveChat
      split
      · exact ⟨rfl, rfl, rfl⟩
      · dsimp only
        split <;> split <;> exact ⟨rfl, rfl, rfl⟩
    refine h.grows (fun c id hid => ?_) hsides.1 hsides.2.1 hsides.2.2
    obtain ⟨m, hm, hk⟩ := hasMessage_iff.mp hid
    rw [hasMessage_iff, insertMessageInto_messages hsup]
    exact ⟨m, Table.mem_insertOrIgnore.mpr (Or.inl hm), hk⟩

/-- What refers to a pruned message is pruned. -/
theorem Referential.pruneChatHistory (jid : String) :
    Referential (pruneChatHistory plan s jid) := by
  have hkept : ∀ c id, s.hasMessage c id = true →
      (decide (c = jid) && !(keepNewest plan s jid).hasMessage jid id) = false →
      (OmarchyWhatsapp.pruneChatHistory plan s jid).hasMessage c id = true := by
    intro c id hid hleft
    change (keepNewest plan s jid).hasMessage c id = true
    by_cases hc : c = jid
    · simpa [hc] using hleft
    · obtain ⟨m, hm, hmc, hmid⟩ := hasMessage_iff.mp hid
      have hmem : m ∈ (keepNewest plan s jid).chatMessages c := by
        rw [chatMessages_keepNewest_of_ne plan s hc]
        exact Store.mem_chatMessages.mpr ⟨hm, hmc⟩
      exact hasMessage_iff.mpr ⟨m, (Store.mem_chatMessages.mp hmem).1, hmc, hmid⟩
  exact h.purges hkept rfl rfl rfl

theorem Referential.insertMessageInner (insert : MessageInsert) :
    Referential (insertMessageInner plan s insert).1 :=
  (h.insertMessageInto insert).pruneChatHistory plan _

theorem Referential.insertHistoryMessageInto (chat : Chat) (message : Message) :
    Referential (insertHistoryMessageInto plan s chat message).1 := by
  have hlearnt : Referential (learnSenderName s message) := by
    unfold learnSenderName
    split
    · exact h.updateContactNameInto _ _ _
    · exact h
  have hinserted := hlearnt.insertMessageInto (historyInsert chat message)
  unfold OmarchyWhatsapp.insertHistoryMessageInto
  dsimp only
  split
  · exact hinserted
  · split
    · exact hinserted
    · exact hinserted.updateMessageMediaInto plan _ _ _

theorem Referential.insertHistoryConversation (chat : Chat) (messages : List Message) :
    Referential (insertHistoryConversation plan s chat messages).1 := by
  have hchat : Referential (insertHistoryChatInto s chat) := by
    unfold insertHistoryChatInto
    split
    · exact h
    · exact h.of_messages rfl rfl rfl rfl
  have hreplayed : ∀ (messages : List Message) (s : Store) (changed : Bool), Referential s →
      Referential (messages.foldl (fun acc message =>
        let next := OmarchyWhatsapp.insertHistoryMessageInto plan acc.1 chat message
        (next.1, acc.2 || next.2)) (s, changed)).1 := by
    intro messages
    induction messages with
    | nil => exact fun _ _ hs => hs
    | cons message messages ih =>
      exact fun s changed hs => ih _ _ (hs.insertHistoryMessageInto plan chat message)
  exact (hreplayed messages _ _ hchat).pruneChatHistory plan _

/-! ## Deletions -/

theorem Referential.deleteMessage (c id : String) : Referential (deleteMessage plan s c id) := by
  have hkept : ∀ c' id', s.hasMessage c' id' = true →
      (decide (c' = c) && decide (id' = id)) = false →
      (OmarchyWhatsapp.deleteMessage plan s c id).hasMessage c' id' = true := by
    intro c' id' hid hleft
    obtain ⟨m, hm, rfl, rfl⟩ := hasMessage_iff.mp hid
    exact hasMessage_iff.mpr ⟨m, Table.mem_deleteWhere.mpr ⟨hm, hleft⟩, rfl, rfl⟩
  exact h.purges hkept rfl rfl rfl

/-- What is left refers to messages that are all newer. -/
theorem Referential.deleteMessagesThrough (c : String) (timestamp : ℤ) :
    Referential (deleteMessagesThrough s c timestamp) := by
  have hkept : ∀ c' id, s.hasMessage c' id = true →
      (decide (c' = c) && (s.messagesById c id).any (fun m => decide (m.timestamp ≤ timestamp)))
        = false →
      (OmarchyWhatsapp.deleteMessagesThrough s c timestamp).hasMessage c' id = true := by
    intro c' id hid hleft
    obtain ⟨m, hm, rfl, rfl⟩ := hasMessage_iff.mp hid
    refine hasMessage_iff.mpr ⟨m, Table.mem_deleteWhere.mpr ⟨hm, ?_⟩, rfl, rfl⟩
    by_cases hc : m.chatJid = c
    · simp only [hc, decide_true, Bool.true_and, List.any_eq_false] at hleft ⊢
      have hm' := hleft m (Store.mem_messagesById.mpr ⟨hm, hc, rfl⟩)
      simpa using hm'
    · simp [hc]
  exact h.purges hkept rfl rfl rfl

theorem Referential.deleteChat (c : String) (timestamp : ℤ) :
    Referential (deleteChat s c timestamp) := by
  have hcleared := h.deleteMessagesThrough c timestamp
  unfold OmarchyWhatsapp.deleteChat
  split
  · exact h
  · dsimp only
    split
    · exact hcleared.of_messages rfl rfl rfl rfl
    · exact hcleared.of_messages rfl rfl rfl rfl

theorem Referential.clearChat (c : String) (timestamp : ℤ) :
    Referential (clearChat s c timestamp) := by
  unfold OmarchyWhatsapp.clearChat
  split
  · exact h
  · exact (h.deleteMessagesThrough c timestamp).of_messages rfl rfl rfl rfl

end Updates

/-! ## A stored secret -/

theorem referential_storePollSecret (h : Referential s) {c id creator : String}
    {secret : List UInt8} (hlength : secret.length = 32) :
    Referential (s.apply plan (.storePollSecret c id creator secret)) ↔
      s.hasMessage c id = true := by
  have hstored : s.apply plan (.storePollSecret c id creator secret)
      = { s with
          pollSecrets := s.pollSecrets.upsert ⟨c, id, creator, secret⟩
            (fun old new =>
              { old with creatorJid := new.creatorJid, messageSecret := new.messageSecret })
            key_mergePollSecret } := by
    simp only [Store.apply, storePollSecret, hlength, ne_eq, not_true_eq_false, if_false]
    rfl
  rw [hstored]
  constructor
  · intro h'
    have hrow := Table.find?_upsert s.pollSecrets ⟨c, id, creator, secret⟩
      (fun old new =>
        { old with creatorJid := new.creatorJid, messageSecret := new.messageSecret })
      key_mergePollSecret (c, id)
    obtain ⟨hmem, hkey⟩ := Table.find?_eq_some.mp (hrow.trans (if_pos rfl))
    have hreferred := h'.secrets _ hmem
    obtain ⟨hchat, hid⟩ := Prod.mk.inj hkey
    rwa [hchat, hid] at hreferred
  · intro hmessage
    exact ⟨h.votes, Table.forall_upsert h.secrets hmessage (fun _ hold => hold), h.reads⟩

/-! ## Migration -/

section Migration

variable {oldJid newJid : String}

/-- The rows of a table that are of the message, by the key of chat, message and participant. -/
theorem exists_row_iff {ρ : Type} {key : ρ → String × String × String} (t : Table ρ key)
    (c id : String) :
    (∃ r ∈ t.rows, (key r).1 = c ∧ (key r).2.1 = id) ↔ ∃ x, t.find? (c, id, x) ≠ none := by
  constructor
  · rintro ⟨r, hr, rfl, rfl⟩
    exact ⟨(key r).2.2, by rw [Table.find?_of_mem hr]; exact Option.some_ne_none r⟩
  · rintro ⟨x, hx⟩
    obtain ⟨r, hr⟩ := Option.ne_none_iff_exists'.mp hx
    obtain ⟨hmem, hkey⟩ := Table.find?_eq_some.mp hr
    exact ⟨r, hmem, congrArg (·.1) hkey, congrArg (·.2.1) hkey⟩

section Passes

variable {ρ : Type} {key : ρ → String × String × String} (t : Table ρ key) (p : ρ → Bool)
  (f : ρ → ρ)

/-- A message that has a row has one after the participant pass. -/
theorem exists_participantPass (hne : oldJid ≠ newJid)
    (hp : ∀ r, p r = decide ((key r).2.2 = oldJid))
    (hf : ∀ r, key (f r) = ((key r).1, (key r).2.1, newJid)) (c id : String) :
    (∃ x, ((t.updateOrIgnore p f).deleteWhere p).find? (c, id, x) ≠ none) ↔
      ∃ x, t.find? (c, id, x) ≠ none := by
  have hpass := find?_participantPass t p f hne hp hf c id
  constructor
  · rintro ⟨x, hx⟩
    rw [hpass] at hx
    split_ifs at hx with hold hnew
    · exact absurd rfl hx
    · rcases hown : t.find? (c, id, newJid) with _ | r
      · rw [hown, Option.none_or, ne_eq, Option.map_eq_none_iff] at hx
        exact ⟨oldJid, hx⟩
      · exact ⟨newJid, by rw [hown]; exact Option.some_ne_none r⟩
    · exact ⟨x, hx⟩
  · rintro ⟨x, hx⟩
    by_cases hold : x = oldJid
    · refine ⟨newJid, ?_⟩
      rw [hpass, if_neg hne.symm, if_pos rfl]
      obtain ⟨r, hr⟩ := Option.ne_none_iff_exists'.mp (hold ▸ hx)
      rw [hr]
      simp
    · refine ⟨x, ?_⟩
      rw [hpass, if_neg hold]
      split_ifs with hnew
      · obtain ⟨r, hr⟩ := Option.ne_none_iff_exists'.mp (hnew ▸ hx)
        rw [hr]
        simp
      · exact hx

/-- The rows of the messages of the alias's chat are rows of the canonical one after the chat
pass. -/
theorem exists_chatPass (merge : ρ → ρ → ρ) (hm : ∀ old new, key (merge old new) = key old)
    (hp : ∀ r, p r = decide ((key r).1 = oldJid)) (hf : ∀ r, key (f r) = (newJid, (key r).2))
    (c id : String) :
    (∃ x, (t.relocate plan.scan p f merge hm).find? (c, id, x) ≠ none) ↔ c ≠ oldJid ∧
      ((∃ x, t.find? (c, id, x) ≠ none) ∨ (c = newJid ∧ ∃ x, t.find? (oldJid, id, x) ≠ none)) := by
  have hpass := find?_chatPass t p f plan merge hm hp hf c id
  constructor
  · rintro ⟨x, hx⟩
    rw [hpass] at hx
    split_ifs at hx with hold hnew
    · exact absurd rfl hx
    · refine ⟨hold, ?_⟩
      rcases halias : t.find? (oldJid, id, x) with _ | r
      · rw [halias] at hx
        exact Or.inl ⟨x, hnew ▸ hx⟩
      · exact Or.inr ⟨hnew, x, by rw [halias]; exact Option.some_ne_none r⟩
    · exact ⟨hold, Or.inl ⟨x, hx⟩⟩
  · rintro ⟨hold, ⟨x, hx⟩ | ⟨hnew, x, hx⟩⟩
    · refine ⟨x, ?_⟩
      rw [hpass, if_neg hold]
      split_ifs with hnew
      · rcases t.find? (oldJid, id, x) with _ | r
        · exact hnew ▸ hx
        · exact Option.some_ne_none _
      · exact hx
    · refine ⟨x, ?_⟩
      rw [hpass, if_neg hold, if_pos hnew]
      obtain ⟨r, hr⟩ := Option.ne_none_iff_exists'.mp hx
      rw [hr]
      exact Option.some_ne_none _

/-- The rows of the messages after both passes. -/
theorem exists_row_passes (hne : oldJid ≠ newJid) (hp : ∀ r, p r = decide ((key r).2.2 = oldJid))
    (hf : ∀ r, key (f r) = ((key r).1, (key r).2.1, newJid)) {q : ρ → Bool} {g : ρ → ρ}
    {merge : ρ → ρ → ρ} (hm : ∀ old new, key (merge old new) = key old)
    (hq : ∀ r, q r = decide ((key r).1 = oldJid)) (hg : ∀ r, key (g r) = (newJid, (key r).2))
    (c id : String) :
    (∃ r ∈ (((t.updateOrIgnore p f).deleteWhere p).relocate plan.scan q g merge hm).rows,
        (key r).1 = c ∧ (key r).2.1 = id) ↔
      c ≠ oldJid ∧ ((∃ r ∈ t.rows, (key r).1 = c ∧ (key r).2.1 = id) ∨
        (c = newJid ∧ ∃ r ∈ t.rows, (key r).1 = oldJid ∧ (key r).2.1 = id)) := by
  rw [exists_row_iff, exists_chatPass plan _ q g merge hm hq hg,
    exists_participantPass t p f hne hp hf, exists_participantPass t p f hne hp hf,
    exists_row_iff, exists_row_iff]

end Passes

section Renamed

variable (h : Migrates s oldJid newJid) (c id : String)

include h

theorem exists_pollVote_migrateContactJid :
    (∃ v ∈ (migrateContactJid plan s oldJid newJid).1.pollVotes.rows,
        v.chatJid = c ∧ v.messageId = id) ↔
      c ≠ oldJid ∧ ((∃ v ∈ s.pollVotes.rows, v.chatJid = c ∧ v.messageId = id) ∨
        (c = newJid ∧ ∃ v ∈ s.pollVotes.rows, v.chatJid = oldJid ∧ v.messageId = id)) := by
  rw [pollVotes_migrateContactJid plan h]
  exact exists_row_passes plan s.pollVotes (fun v => decide (v.voterJid = oldJid))
    (fun v => { v with voterJid := newJid }) h.1 (fun _ => rfl) (fun _ => rfl) key_mergePollVotes
    (fun _ => rfl) (fun _ => rfl) c id

theorem exists_messageRead_migrateContactJid :
    (∃ r ∈ (migrateContactJid plan s oldJid newJid).1.messageReads.rows,
        r.chatJid = c ∧ r.messageId = id) ↔
      c ≠ oldJid ∧ ((∃ r ∈ s.messageReads.rows, r.chatJid = c ∧ r.messageId = id) ∨
        (c = newJid ∧ ∃ r ∈ s.messageReads.rows, r.chatJid = oldJid ∧ r.messageId = id)) := by
  rw [messageReads_migrateContactJid plan h]
  exact exists_row_passes plan s.messageReads (fun r => decide (r.readerJid = oldJid))
    (fun r => { r with readerJid := newJid }) h.1 (fun _ => rfl) (fun _ => rfl)
    (by exact fun _ _ => rfl) (by exact fun _ => rfl) (by exact fun _ => rfl) c id

theorem exists_pollSecret_migrateContactJid :
    (∃ p ∈ (migrateContactJid plan s oldJid newJid).1.pollSecrets.rows,
        p.chatJid = c ∧ p.messageId = id) ↔
      c ≠ oldJid ∧ ((∃ p ∈ s.pollSecrets.rows, p.chatJid = c ∧ p.messageId = id) ∨
        (c = newJid ∧ ∃ p ∈ s.pollSecrets.rows, p.chatJid = oldJid ∧ p.messageId = id)) := by
  have hrow (s : Store) (c : String) : (∃ p ∈ s.pollSecrets.rows, p.chatJid = c ∧
      p.messageId = id) ↔ s.pollSecrets.find? (c, id) ≠ none := by
    constructor
    · rintro ⟨p, hp, rfl, rfl⟩
      have hfound : s.pollSecrets.find? (p.chatJid, p.messageId) = some p := Table.find?_of_mem hp
      rw [hfound]
      exact Option.some_ne_none p
    · intro hfound
      obtain ⟨p, hp⟩ := Option.ne_none_iff_exists'.mp hfound
      obtain ⟨hmem, hkey⟩ := Table.find?_eq_some.mp hp
      exact ⟨p, hmem, congrArg (·.1) hkey, congrArg (·.2) hkey⟩
  rw [hrow, hrow, hrow, find?_pollSecrets_migrateContactJid plan h]
  by_cases hold : c = oldJid
  · simp [hold]
  · by_cases hnew : c = newJid
    · rw [if_neg hold, if_pos hnew, hnew]
      cases s.pollSecrets.find? (oldJid, id) with
      | none => simp [h.1.symm]
      | some a => simp [h.1.symm]
    · simp [hold, hnew]

/-- What is of a message of the alias's chat is of one of the canonical chat afterwards. -/
theorem refersTo_migrateContactJid :
    (migrateContactJid plan s oldJid newJid).1.refersTo c id ↔
      c ≠ oldJid ∧ (s.refersTo c id ∨ (c = newJid ∧ s.refersTo oldJid id)) := by
  rw [Store.refersTo, exists_pollVote_migrateContactJid plan h,
    exists_messageRead_migrateContactJid plan h, exists_pollSecret_migrateContactJid plan h,
    Store.refersTo, Store.refersTo, ← and_or_left, ← and_or_left]
  have hmerge (e v v' p p' r r' : Prop) : (v ∨ e ∧ v') ∨ (p ∨ e ∧ p') ∨ (r ∨ e ∧ r') ↔
      (v ∨ p ∨ r) ∨ e ∧ (v' ∨ p' ∨ r') := by tauto
  exact and_congr_right fun _ => hmerge _ _ _ _ _ _ _

theorem hasMessage_migrateContactJid :
    (migrateContactJid plan s oldJid newJid).1.hasMessage c id
      = (migratedMessages plan s oldJid newJid).hasMessage c id := by
  rw [migrateContactJid_of_migrates plan h]
  change (applyMigratedName (migratedStore plan s oldJid newJid) newJid).hasMessage c id
    = (migratedStore plan s oldJid newJid).hasMessage c id
  unfold applyMigratedName
  split
  · rfl
  · rename_i contact _
    exact hasMessage_updateWhere (p := fun m => m.senderJid = newJid)
      (f := fun m => { m with senderName := contact.name }) rfl (fun _ => rfl) c id

/-- The messages of the other chats stay. -/
theorem hasMessage_migrateContactJid_of_ne (hold : c ≠ oldJid) (hnew : c ≠ newJid)
    (hid : s.hasMessage c id = true) :
    (migrateContactJid plan s oldJid newJid).1.hasMessage c id = true := by
  obtain ⟨m, hm, hmc, hmid⟩ := hasMessage_iff.mp hid
  obtain ⟨m', hm', hk⟩ := (mergedMessages_mergedBy plan h.1).total m hm
  have hchat : renamed oldJid newJid m.chatJid = m'.chatJid := congrArg (·.1) hk
  have hmid' : m.id = m'.id := congrArg (·.2.2) hk
  rw [hmc, renamed_of_ne hold] at hchat
  have hmem : m' ∈ (migratedMessages plan s oldJid newJid).chatMessages c := by
    rw [migratedMessages, chatMessages_keepNewest_of_ne plan _ hnew]
    exact Store.mem_chatMessages.mpr ⟨hm', hchat.symm⟩
  rw [hasMessage_migrateContactJid plan h, hasMessage_iff]
  exact ⟨m', (Store.mem_chatMessages.mp hmem).1, hchat.symm, hmid'.symm.trans hmid⟩

end Renamed

/-- The messages of the chats of both identities, before the retention. -/
def mergedChatMessages (s : Store) (oldJid newJid : String) : List MessageRow :=
  (mergedMessages plan s oldJid newJid).rows.filter (fun m => m.chatJid = newJid)

theorem hasMessage_migratedMessages (id : String) :
    (migratedMessages plan s oldJid newJid).hasMessage newJid id = true ↔
      ∃ m ∈ (newestFirst plan (mergedChatMessages plan s oldJid newJid)).take retention, m.id = id := by
  have hperm := chatMessages_keepNewest_perm plan
    { s with messages := mergedMessages plan s oldJid newJid } newJid
  rw [hasMessage_iff]
  constructor
  · rintro ⟨m, hm, hc, hid⟩
    exact ⟨m, hperm.mem_iff.mp (Store.mem_chatMessages.mpr ⟨hm, hc⟩), hid⟩
  · rintro ⟨m, hm, hid⟩
    obtain ⟨hm, hc⟩ := Store.mem_chatMessages.mp (hperm.mem_iff.mpr hm)
    exact ⟨m, hm, hc, hid⟩

/-- What the votes, the secrets and the receipts of both chats are of is among the newest messages
of the merged chat. -/
def ReferredKept (s : Store) (oldJid newJid : String) : Prop :=
  ∀ id, s.refersTo oldJid id ∨ s.refersTo newJid id →
    ∃ m ∈ (newestFirst plan (mergedChatMessages plan s oldJid newJid)).take retention, m.id = id

theorem referential_migrateContactJid (hs : Referential s) (h : Migrates s oldJid newJid) :
    Referential (migrateContactJid plan s oldJid newJid).1 ↔
      ReferredKept plan s oldJid newJid := by
  rw [referential_iff]
  constructor
  · intro hs' id hid
    rw [← hasMessage_migratedMessages, ← hasMessage_migrateContactJid plan h]
    refine hs' newJid id ((refersTo_migrateContactJid plan h newJid id).mpr ⟨h.1.symm, ?_⟩)
    rcases hid with hid | hid
    · exact Or.inr ⟨rfl, hid⟩
    · exact Or.inl hid
  · intro hkept c id hid
    obtain ⟨hold, hid⟩ := (refersTo_migrateContactJid plan h c id).mp hid
    by_cases hnew : c = newJid
    · rw [hnew, hasMessage_migrateContactJid plan h, hasMessage_migratedMessages]
      refine hkept id ?_
      rcases hid with hid | ⟨-, hid⟩
      · exact Or.inr (hnew ▸ hid)
      · exact Or.inl hid
    · have hid : s.refersTo c id := hid.resolve_right fun h => hnew h.1
      exact hasMessage_migrateContactJid_of_ne plan h c id hold hnew
        (referential_iff.mp hs c id hid)

end Migration

/-! ## Runs -/

/-- A secret is stored for a message that is there, and a migration keeps the messages that are
referred to. -/
def KeepsReferences (s : Store) : Op → Prop
  | .storePollSecret chatJid messageId _ messageSecret =>
    messageSecret.length = 32 → s.hasMessage chatJid messageId = true
  | .migrateContactJid oldJid newJid => Migrates s oldJid newJid → ReferredKept plan s oldJid newJid
  | _ => True

/-- One operation keeps the references intact exactly when it keeps what is referred to. -/
theorem referential_apply_iff (h : Referential s) (op : Op) :
    Referential (s.apply plan op) ↔ KeepsReferences plan s op := by
  have keeps : ∀ {s' : Store}, Referential s' → (Referential s' ↔ True) := fun hs' => iff_true_intro hs'
  cases op with
  | insertMessage => exact keeps (h.insertMessageInner plan _)
  | insertMessageWithReadIntent => exact keeps (h.insertMessageInner plan _)
  | insertHistoryConversation => exact keeps (h.insertHistoryConversation plan _ _)
  | updateContactName => exact keeps (h.updateContactNameInto _ _ _)
  | updateAddressBookName => exact keeps (h.updateContactNameInto _ _ _)
  | updateGroupName => exact keeps (h.updateGroupName _ _)
  | updateChatPhoneNumber => exact keeps (h.of_messages rfl rfl rfl rfl)
  | applyReaction => exact keeps (h.applyReaction _ _ _ _ _ _)
  | storePollSecret chatJid messageId creatorJid messageSecret =>
    by_cases hlength : messageSecret.length = 32
    · rw [referential_storePollSecret plan h hlength, KeepsReferences]
      exact ⟨fun hid _ => hid, fun hid => hid hlength⟩
    · refine iff_of_true ?_ fun hlen => absurd hlen hlength
      simp only [Store.apply, storePollSecret, ne_eq, hlength, not_false_eq_true, if_true]
      exact h
  | applyPollVote => exact keeps (h.applyPollVote plan _ _ _ _ _ _)
  | updateMessageMedia => exact keeps (h.updateMessageMediaInto plan _ _ _)
  | storeMediaDownload => exact keeps (h.updates rfl (fun _ => rfl) rfl rfl rfl)
  | rewriteMediaPaths => exact keeps (h.updates rfl (fun _ => rfl) rfl rfl rfl)
  | markRead => exact keeps (h.applyReadBoundary plan _ _ _)
  | applyReadState => exact keeps (h.applyReadState plan _ _)
  | applySyncedReadState => exact keeps (h.applySyncedReadState plan _ _ _ _ _)
  | applySelfReadReceipt => exact keeps (h.applySelfReadReceipt plan _ _ _)
  | reconcileUnread => exact keeps (h.of_messages rfl rfl rfl rfl)
  | applyPinAt => exact keeps (h.of_messages rfl rfl rfl rfl)
  | applyArchiveAt => exact keeps (h.of_messages rfl rfl rfl rfl)
  | applyMuteAt => exact keeps (h.of_messages rfl rfl rfl rfl)
  | updateReceipts chatJid ids receipt reader receiptAt =>
    exact keeps (updateReceipts_induction s chatJid ids receipt reader receiptAt
      (fun s' id hs' => hs'.updateReceipt chatJid id receipt reader receiptAt) h)
  | queueReadReceipts => exact keeps (h.of_messages rfl rfl rfl rfl)
  | finishReadBatch => exact keeps (h.of_messages rfl rfl rfl rfl)
  | deleteChat => exact keeps (h.deleteChat _ _)
  | clearChat => exact keeps (h.clearChat _ _)
  | deleteMessage => exact keeps (h.deleteMessage plan _ _)
  | migrateContactJid oldJid newJid =>
    by_cases hmig : Migrates s oldJid newJid
    · rw [Store.apply, referential_migrateContactJid plan h hmig, KeepsReferences]
      exact ⟨fun hkept _ => hkept, fun hkept => hkept hmig⟩
    · refine iff_of_true ?_ fun hmig' => absurd hmig' hmig
      rw [Store.apply, migrateContactJid_of_not_migrates plan hmig]
      exact h

/-- What pruning the chat removes is no newer than what it leaves. -/
theorem pruned_le (s : Store) (jid : String) : ∀ m ∈ s.chatMessages jid,
    m ∉ (keepNewest plan s jid).messages.rows →
      ∀ m' ∈ (keepNewest plan s jid).chatMessages jid, m.timestamp ≤ m'.timestamp := by
  intro m hm hgone m' hm'
  have hsorted := plan.sorted (fun a b : MessageRow => decide (b.timestamp ≤ a.timestamp))
    (fun a b => by simpa using Int.le_total b.timestamp a.timestamp)
    (fun a b c hab hbc => by
      simp only [decide_eq_true_eq] at hab hbc ⊢
      exact hbc.trans hab) (s.chatMessages jid)
  have hkept := (chatMessages_keepNewest_perm plan s jid).mem_iff.mp hm'
  have hdropped : m ∈ (newestFirst plan (s.chatMessages jid)).drop retention := by
    by_contra hnot
    refine hgone (Table.mem_deleteWhere.mpr ⟨(Store.mem_chatMessages.mp hm).1, ?_⟩)
    rw [overflow, List.contains_eq_mem, decide_eq_false hnot, Bool.and_false]
  have hsplit := List.take_append_drop retention (newestFirst plan (s.chatMessages jid))
  rw [← newestFirst, ← hsplit, List.pairwise_append] at hsorted
  simpa using hsorted.2.2 m' hkept m hdropped

/-- In every run each chat keeps within the limit and pruning removes no newer messages than it
keeps, and the votes, the secrets and the receipts are of stored messages in every state if and only
if each secret was stored for a message that was there and each migration kept the messages that
were referred to. -/
theorem retention_references_iff (ops : List Op) :
    (∀ s ∈ states (Store.apply plan) Store.empty ops, ∀ jid,
        (s.chatMessages jid).length ≤ retention) ∧
      (∀ (s : Store) (jid : String), ∀ m ∈ s.chatMessages jid,
        m ∉ (pruneChatHistory plan s jid).messages.rows →
          ∀ m' ∈ (pruneChatHistory plan s jid).chatMessages jid, m.timestamp ≤ m'.timestamp) ∧
      (∀ (s : Store) (oldJid newJid : String), ∀ m ∈ mergedChatMessages plan s oldJid newJid,
        m ∉ (migratedMessages plan s oldJid newJid).messages.rows →
          ∀ m' ∈ (migratedMessages plan s oldJid newJid).chatMessages newJid,
            m.timestamp ≤ m'.timestamp) ∧
      ((∀ s ∈ states (Store.apply plan) Store.empty ops, Referential s) ↔
        Guarded (Store.apply plan) (KeepsReferences plan) Store.empty ops) := by
  have hwell : ∀ s ∈ states (Store.apply plan) Store.empty ops, WellFormed s :=
    invariant_states_of_step (fun s op hs => hs.apply plan op) wellFormed_empty ops
  have hempty : Referential Store.empty :=
    ⟨fun v hv => (nomatch hv), fun p hp => (nomatch hp), fun r hr => (nomatch hr)⟩
  refine ⟨fun s hs => (hwell s hs).retained, fun s jid => pruned_le plan s jid,
    fun s oldJid newJid => ?_, invariant_states_iff_guarded (I := Referential)
      (fun s op hs => referential_apply_iff plan hs op) hempty ops⟩
  exact pruned_le plan { s with messages := mergedMessages plan s oldJid newJid } newJid

/-- A poll of a direct chat. -/
def lunchPoll : Message :=
  { directMessage "1@s.whatsapp.net" "P" "Lunch?" 10 with
    media := some (.poll "Lunch?" [⟨"Yes", 0, false, []⟩] 1 0 false none 0) }

def lunchConversation : Conversation where
  chat :=
    { jid := "1@s.whatsapp.net", name := "Ada", lastMessage := "Lunch?", lastSenderName := "",
      lastTimestamp := 10, unread := 0, isGroup := false }
  messages := [lunchPoll]
  sameChat := by decide

/-- The poll was deleted here, and a replay brings its secret again. -/
def replayedPoll : List Op :=
  [.insertMessage lunchPoll "Ada" false true, .deleteMessage "1@s.whatsapp.net" "P",
    .insertHistoryConversation lunchConversation,
    .storePollSecret "1@s.whatsapp.net" "P" "1@s.whatsapp.net" (List.replicate 32 7)]

/-- The replay stores the secret of a poll that is not stored. -/
theorem replayed_poll_secret_dangles :
    ¬∀ s ∈ states (Store.apply QueryPlan.stable) Store.empty replayedPoll, Referential s := by
  intro h
  have hend := h _ (run_mem_states _ Store.empty replayedPoll)
  have hsecret := hend.secrets ⟨"1@s.whatsapp.net", "P", "1@s.whatsapp.net", List.replicate 32 7⟩
    (by decide +kernel)
  exact absurd hsecret (by decide +kernel)

end OmarchyWhatsapp
