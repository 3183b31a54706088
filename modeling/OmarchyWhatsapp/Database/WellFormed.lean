import Mathlib.Data.List.Perm.Subperm
import OmarchyWhatsapp.Database.MigrateTheorems

/-!
# Well-formed stores

Two facts hold in every reachable state, whatever the operations: every stored message has
its chat row (the foreign key of `messages`), and no chat keeps more messages than the
retention limit.
-/

namespace OmarchyWhatsapp

open Relational

variable (plan : QueryPlan)

/-! ## Chat rows -/

/-- The chat is in the chat list. -/
def Store.hasChat (s : Store) (jid : String) : Prop := ∃ c ∈ s.chats.rows, c.jid = jid

instance (s : Store) (jid : String) : Decidable (s.hasChat jid) :=
  inferInstanceAs (Decidable (∃ c ∈ s.chats.rows, c.jid = jid))

theorem hasChat_iff_find? {s : Store} {jid : String} :
    s.hasChat jid ↔ ∃ c, s.chats.find? jid = some c := by
  simp only [Store.hasChat, Table.find?_eq_some]

/-- The chat rows of `s'` are those of `s`, up to columns other than the key. -/
def SameChats (s s' : Store) : Prop := ∀ jid, s'.hasChat jid ↔ s.hasChat jid

namespace SameChats

variable {s s' s'' : Store}

theorem of_eq (h : s'.chats = s.chats) : SameChats s s' := by
  intro jid
  rw [Store.hasChat, h, Store.hasChat]

theorem trans (h : SameChats s s') (h' : SameChats s' s'') : SameChats s s'' :=
  fun jid => (h' jid).trans (h jid)

theorem of_updateWhere {p : ChatRow → Bool} {f : ChatRow → ChatRow}
    (h : s'.chats.rows = s.chats.rows.map (fun c => if p c then f c else c))
    (hf : ∀ c, (f c).jid = c.jid) : SameChats s s' := by
  intro jid
  have hjid : ∀ c : ChatRow, (if p c then f c else c).jid = c.jid := by
    intro c
    split
    · exact hf c
    · rfl
  simp only [Store.hasChat, h, List.mem_map, exists_exists_and_eq_and, hjid]

end SameChats

section Updates

variable (s : Store)

theorem updateContactNameInto_sameChats (jid name : String) (source : ℕ) :
    SameChats s (updateContactNameInto s jid name source).1 := by
  unfold updateContactNameInto
  split
  · exact .of_eq rfl
  · split
    · exact .of_eq rfl
    · exact .of_updateWhere rfl (fun _ => rfl)

theorem updateGroupName_sameChats (jid name : String) :
    SameChats s (updateGroupName s jid name).1 := by
  unfold updateGroupName
  split
  · exact .of_eq rfl
  · exact .of_updateWhere rfl (fun _ => rfl)

theorem updateChatPhoneNumber_sameChats (jid phoneNumber : String) :
    SameChats s (updateChatPhoneNumber s jid phoneNumber).1 :=
  .of_updateWhere rfl (fun _ => rfl)

theorem updateMessageMediaInto_sameChats (chatJid messageId : String) (media : MessageMedia) :
    SameChats s (updateMessageMediaInto plan s chatJid messageId media).1 :=
  .of_updateWhere rfl (fun _ => rfl)

theorem applyReadBoundary_sameChats (chatJid : String) (timestamp : ℤ) (ids : List String) :
    SameChats s (applyReadBoundary plan s chatJid timestamp ids).1 :=
  .of_updateWhere rfl (fun _ => rfl)

theorem applyReadState_sameChats (chatJid : String) (read : Bool) :
    SameChats s (applyReadState plan s chatJid read).1 := by
  unfold applyReadState
  split
  · exact applyReadBoundary_sameChats plan s _ _ _
  · exact .of_eq rfl

theorem applySyncedReadState_sameChats (chatJid : String) (read : Bool)
    (boundary : Option ℤ) (ids : List String) (eventTimestamp : ℤ) :
    SameChats s (applySyncedReadState plan s chatJid read boundary ids eventTimestamp).1 := by
  unfold applySyncedReadState
  split
  · exact .of_eq rfl
  · dsimp only
    split
    · exact (applyReadBoundary_sameChats plan s _ _ _).trans (.of_eq rfl)
    · exact (applyReadState_sameChats plan s _ _).trans (.of_eq rfl)

theorem applySelfReadReceipt_sameChats (chatJid : String) (ids : List String)
    (timestamp : ℤ) : SameChats s (applySelfReadReceipt plan s chatJid ids timestamp).1 := by
  unfold applySelfReadReceipt
  split
  · exact .of_eq rfl
  · exact applyReadBoundary_sameChats plan s _ _ _

theorem updateReceipts_sameChats (chatJid : String) (ids : List String) (receipt : ℕ)
    (reader : Option String) (receiptAt : ℤ) :
    SameChats s (updateReceipts s chatJid ids receipt reader receiptAt).1 :=
  updateReceipts_induction s chatJid ids receipt reader receiptAt
    (fun _ _ h => h.trans (.of_eq (by simp))) (.of_eq rfl)

theorem refreshChatTail_sameChats (chatJid : String) : SameChats s (refreshChatTail s chatJid) :=
  .of_updateWhere rfl (fun _ => rfl)

theorem clearChat_sameChats (chatJid : String) (timestamp : ℤ) :
    SameChats s (clearChat s chatJid timestamp) := by
  unfold clearChat
  split
  · exact .of_eq rfl
  · have hdelete : SameChats s (deleteMessagesThrough s chatJid timestamp) := .of_eq rfl
    exact (hdelete.trans (refreshChatTail_sameChats _ chatJid)).trans (.of_eq rfl)

theorem deleteMessage_sameChats (chatJid messageId : String) :
    SameChats s (deleteMessage plan s chatJid messageId) := .of_updateWhere rfl (fun _ => rfl)

end Updates

/-! ## Chat rows that come and go -/

theorem find?_touchChat (s : Store) (insert : MessageInsert) (jid : String) :
    (touchChat s insert).chats.find? jid
      = if jid = insert.message.chatJid then
          some ((s.chats.find? jid).elim (proposedChat insert)
            (fun c => mergePreview c (proposedChat insert)))
        else s.chats.find? jid :=
  Table.find?_upsert s.chats (proposedChat insert) mergePreview (fun _ _ => rfl) jid

theorem find?_insertHistoryChatInto {s : Store} {chat : Chat}
    (h : chatDeleted s chat.jid = false) (jid : String) :
    (insertHistoryChatInto s chat).chats.find? jid
      = if jid = chat.jid then
          some ((s.chats.find? jid).elim (proposedHistoryChat chat)
            (fun c => mergeHistoryChat c (proposedHistoryChat chat)))
        else s.chats.find? jid := by
  rw [insertHistoryChatInto, if_neg (by simp [h])]
  exact Table.find?_upsert s.chats (proposedHistoryChat chat) mergeHistoryChat
    (fun _ _ => rfl) jid

theorem hasChat_touchChat {s : Store} {insert : MessageInsert} {jid : String} :
    (touchChat s insert).hasChat jid ↔ s.hasChat jid ∨ jid = insert.message.chatJid := by
  simp only [hasChat_iff_find?, find?_touchChat]
  split
  · rename_i h
    simp [h]
  · rename_i h
    simp [h]

theorem storeMessage_sameChats (s : Store) (insert : MessageInsert) :
    SameChats s (storeMessage s insert).1 := by
  unfold storeMessage
  dsimp only
  split
  · exact .of_updateWhere rfl (fun _ => rfl)
  · exact .of_eq rfl

/-- An insertion adds the chat of its message, unless the message is dropped. -/
theorem hasChat_insertMessageInto {s : Store} {insert : MessageInsert} {jid : String} :
    (insertMessageInto s insert).1.hasChat jid ↔
      s.hasChat jid ∨ (jid = insert.message.chatJid ∧ suppressed s insert.message = false) := by
  by_cases h : suppressed s insert.message = true
  · rw [insertMessageInto_of_suppressed h]
    simp [h]
  · rw [insertMessageInto, if_neg h]
    have hqueue : ∀ s' : Store, SameChats s' (queueReadIntent s' insert) :=
      fun s' => .of_eq (by simp)
    have hrevive : SameChats s (reviveChat s insert) := .of_eq (by simp)
    rw [hqueue, storeMessage_sameChats, hasChat_touchChat, hrevive]
    simp [h]

theorem hasChat_insertHistoryChatInto {s : Store} {chat : Chat} {jid : String} :
    (insertHistoryChatInto s chat).hasChat jid ↔
      s.hasChat jid ∨ (jid = chat.jid ∧ chatDeleted s chat.jid = false) := by
  by_cases h : chatDeleted s chat.jid = true
  · rw [insertHistoryChatInto, if_pos h]
    simp [h]
  · rw [Bool.not_eq_true] at h
    simp only [hasChat_iff_find?, find?_insertHistoryChatInto h]
    split
    · rename_i hj
      simp [hj, h]
    · rename_i hj
      simp [hj]

theorem hasChat_insertHistoryMessageInto {s : Store} {chat : Chat} {message : Message}
    {jid : String} :
    (insertHistoryMessageInto plan s chat message).1.hasChat jid ↔
      s.hasChat jid ∨ (jid = message.chatJid ∧ suppressed s message = false) := by
  have hlearn : SameChats s (learnSenderName s message) := by
    unfold learnSenderName
    split
    · exact updateContactNameInto_sameChats s _ _ _
    · exact .of_eq rfl
  have hinsert : (insertMessageInto (learnSenderName s message)
      (historyInsert chat message)).1.hasChat jid ↔
        s.hasChat jid ∨ (jid = message.chatJid ∧ suppressed s message = false) := by
    rw [hasChat_insertMessageInto, hlearn, historyInsert,
      suppressed_congr (s := s) (by simp) (by simp)]
  unfold insertHistoryMessageInto
  dsimp only
  split
  · exact hinsert
  · split
    · exact hinsert
    · rw [updateMessageMediaInto_sameChats]
      exact hinsert

/-- A conversation adds its chat when its header or one of its messages is accepted. -/
theorem hasChat_insertHistoryConversation {s : Store} (conversation : Conversation)
    {jid : String} :
    (insertHistoryConversation plan s conversation.chat conversation.messages).1.hasChat jid ↔
      s.hasChat jid ∨ (jid = conversation.chat.jid ∧
        (chatDeleted s conversation.chat.jid = false ∨
          ∃ m ∈ conversation.messages, suppressed s m = false)) := by
  obtain ⟨chat, messages, hchat⟩ := conversation
  have hloop : ∀ (l : List Message) (s₀ : Store) (changed : Bool),
      (∀ m ∈ l, m.chatJid = chat.jid) →
      s₀.chatSettings = s.chatSettings → s₀.messageTombstones = s.messageTombstones →
      ((l.foldl (fun acc message =>
        let next := insertHistoryMessageInto plan acc.1 chat message
        (next.1, acc.2 || next.2)) (s₀, changed)).1.hasChat jid ↔
          s₀.hasChat jid ∨ (jid = chat.jid ∧ ∃ m ∈ l, suppressed s m = false)) := by
    intro l
    induction l with
    | nil => simp
    | cons m l ih =>
      intro s₀ changed hl hs ht
      rw [List.foldl_cons, ih _ _ (fun m' hm' => hl m' (List.mem_cons_of_mem _ hm'))
        (by simp [hs]) (by simp [ht]), hasChat_insertHistoryMessageInto,
        suppressed_congr hs ht, hl m List.mem_cons_self]
      simp only [List.mem_cons, exists_eq_or_imp]
      tauto
  have hprune : ∀ s' : Store, SameChats s' (pruneChatHistory plan s' chat.jid) :=
    fun s' => .of_eq (by simp)
  rw [insertHistoryConversation, hprune, insertHistoryMessages,
    hloop messages _ _ hchat (by simp) (by simp), hasChat_insertHistoryChatInto]
  tauto

theorem hasChat_migrateContactJid {s : Store} {oldJid newJid : String}
    (h : Migrates s oldJid newJid) {jid : String} :
    (migrateContactJid plan s oldJid newJid).1.hasChat jid ↔
      jid ≠ oldJid ∧ (s.hasChat jid ∨ (jid = newJid ∧ s.hasChat oldJid)) := by
  have hname : SameChats (migratedStore plan s oldJid newJid)
      (applyMigratedName (migratedStore plan s oldJid newJid) newJid) := by
    unfold applyMigratedName
    split
    · exact .of_eq rfl
    · exact .of_updateWhere rfl (fun _ => rfl)
  have hchats : (migratedStore plan s oldJid newJid).chats
      = (migrateChat plan s oldJid newJid).chats := rfl
  have hdrop : ∀ s' : Store, (dropAlias s' oldJid).hasChat jid ↔
      jid ≠ oldJid ∧ s'.hasChat jid := by
    intro s'
    simp only [Store.hasChat, dropAlias, Table.mem_deleteWhere, decide_eq_false_iff_not]
    constructor
    · rintro ⟨c, ⟨hc, hne⟩, rfl⟩
      exact ⟨hne, c, hc, rfl⟩
    · rintro ⟨hne, c, hc, rfl⟩
      exact ⟨c, ⟨hc, hne⟩, rfl⟩
  rw [migrateContactJid_of_migrates plan h, hdrop, hname, hasChat_iff_find?, hchats,
    find?_migrateChat]
  refine and_congr_right fun _ => ?_
  simp only [hasChat_iff_find?]
  split
  · rename_i hj
    subst hj
    unfold mergedChat
    rcases s.chats.find? oldJid with _ | c <;> simp
  · rename_i hj
    simp [hj]

theorem hasChat_deleteChat {s : Store} {chatJid : String} {timestamp : ℤ} {jid : String} :
    (deleteChat s chatJid timestamp).hasChat jid ↔
      s.hasChat jid ∧ ¬(jid = chatJid ∧ (settingsOf s chatJid).clearedAt ≤ timestamp ∧
        ∀ m ∈ s.chatMessages chatJid, m.timestamp ≤ timestamp) := by
  have hleft :
      (!((deleteMessagesThrough s chatJid timestamp).chatMessages chatJid).isEmpty) = false ↔
      ∀ m ∈ s.chatMessages chatJid, m.timestamp ≤ timestamp := by
    simp only [Store.chatMessages, deleteMessagesThrough, Table.rows_deleteWhere,
      List.filter_filter, Bool.not_eq_false', List.isEmpty_iff, List.filter_eq_nil_iff,
      List.mem_filter, Bool.and_eq_true, Bool.not_eq_true', Bool.and_eq_false_iff,
      decide_eq_true_eq, decide_eq_false_iff_not]
    refine ⟨fun h m hm => ?_, fun h m hm hx => ?_⟩
    · by_contra hlt
      exact h m hm.1 ⟨hm.2, Or.inr hlt⟩
    · rcases hx.2 with hne | hlt
      · exact hne hx.1
      · exact hlt (h m ⟨hm, hx.1⟩)
  unfold deleteChat
  split
  · rename_i hstale
    simp only [not_le.mpr hstale, false_and, and_false, not_false_eq_true, and_true]
  · rename_i hstale
    rw [not_lt] at hstale
    dsimp only
    split
    · rename_i hnewer
      have hsome : ¬∀ m ∈ s.chatMessages chatJid, m.timestamp ≤ timestamp := fun hall => by
        rw [hleft.mpr hall] at hnewer
        cases hnewer
      have hdelete : SameChats s (deleteMessagesThrough s chatJid timestamp) := .of_eq rfl
      simp only [hsome, and_false, not_false_eq_true, and_true]
      exact (hdelete.trans (refreshChatTail_sameChats _ chatJid)) jid
    · rename_i hnewer
      have hall := hleft.mp (by simpa using hnewer)
      have hdrop : ∀ c : ChatRow, c ∈ (s.chats.deleteWhere (fun c => c.jid = chatJid)).rows ↔
          c ∈ s.chats.rows ∧ c.jid ≠ chatJid := fun c => by
        rw [Table.mem_deleteWhere, decide_eq_false_iff_not]
      simp only [hstale, true_and]
      constructor
      · rintro ⟨c, hc, rfl⟩
        exact ⟨⟨c, ((hdrop c).mp hc).1, rfl⟩, fun h => ((hdrop c).mp hc).2 h.1⟩
      · rintro ⟨⟨c, hc, rfl⟩, hne⟩
        exact ⟨c, (hdrop c).mpr ⟨hc, fun h => hne ⟨h, hall⟩⟩, rfl⟩

/-- Operations that add and drop no chat row. -/
def Op.keepsChats : Op → Bool
  | .insertMessage .. | .insertMessageWithReadIntent .. | .insertHistoryConversation _
  | .deleteChat .. | .migrateContactJid .. => false
  | _ => true

theorem Op.arrivals_of_keepsChats {op : Op} (h : op.keepsChats = true) :
    op.arrivals = [] ∧ op.isMigration = false := by
  cases op <;> first | exact ⟨rfl, rfl⟩ | cases h

theorem apply_sameChats (s : Store) {op : Op} (h : op.keepsChats = true) :
    SameChats s (s.apply plan op) := by
  cases op with
  | updateContactName => exact updateContactNameInto_sameChats s _ _ _
  | updateAddressBookName => exact updateContactNameInto_sameChats s _ _ _
  | updateGroupName => exact updateGroupName_sameChats s _ _
  | updateChatPhoneNumber => exact updateChatPhoneNumber_sameChats s _ _
  | applyReaction => exact .of_eq (by simp [Store.apply])
  | storePollSecret => exact .of_eq (by simp [Store.apply])
  | applyPollVote => exact .of_eq (by simp)
  | updateMessageMedia => exact updateMessageMediaInto_sameChats plan s _ _ _
  | storeMediaDownload => exact .of_eq rfl
  | rewriteMediaPaths => exact .of_eq rfl
  | markRead => exact applyReadBoundary_sameChats plan s _ _ _
  | applyReadState => exact applyReadState_sameChats plan s _ _
  | applySyncedReadState => exact applySyncedReadState_sameChats plan s _ _ _ _ _
  | applySelfReadReceipt => exact applySelfReadReceipt_sameChats plan s _ _ _
  | reconcileUnread => exact .of_updateWhere rfl (fun _ => rfl)
  | applyPinAt => exact .of_eq rfl
  | applyArchiveAt => exact .of_eq rfl
  | applyMuteAt => exact .of_eq rfl
  | updateReceipts => exact updateReceipts_sameChats s _ _ _ _ _
  | queueReadReceipts => exact .of_eq rfl
  | finishReadBatch => exact .of_eq rfl
  | clearChat => exact clearChat_sameChats s _ _
  | deleteMessage => exact deleteMessage_sameChats plan s _ _
  | _ => cases h

/-! ## Retention -/

/-- Rows that inherit their keys are not more than the rows they inherit them from. -/
theorem length_chatMessages_le {s s' : Store} {jid : String}
    (g : String × String × String → String × String × String)
    (h : ∀ m' ∈ s'.chatMessages jid, ∃ m ∈ s.chatMessages jid, g m.key = m'.key) :
    (s'.chatMessages jid).length ≤ (s.chatMessages jid).length := by
  have hnodup : ((s'.chatMessages jid).map MessageRow.key).Nodup :=
    (List.filter_sublist.map MessageRow.key).nodup s'.messages.nodup
  have hsub : (s'.chatMessages jid).map MessageRow.key
      ⊆ (s.chatMessages jid).map (fun m => g m.key) := by
    intro k hk
    obtain ⟨m', hm', rfl⟩ := List.mem_map.mp hk
    obtain ⟨m, hm, hg⟩ := h m' hm'
    exact List.mem_map.mpr ⟨m, hm, hg⟩
  simpa using (List.Nodup.subperm hnodup hsub).length_le

theorem nodup_chatMessages (s : Store) (jid : String) : (s.chatMessages jid).Nodup :=
  (List.Nodup.of_map MessageRow.key s.messages.nodup).filter _

/-- What `prune_chat_history` leaves of its chat. -/
theorem chatMessages_keepNewest_perm (s : Store) (jid : String) :
    ((keepNewest plan s jid).chatMessages jid).Perm
      ((newestFirst plan (s.chatMessages jid)).take retention) := by
  have hrows : (keepNewest plan s jid).chatMessages jid
      = (s.chatMessages jid).filter
          (fun m => !(overflow plan (s.chatMessages jid)).contains m) := by
    simp only [keepNewest, Store.chatMessages, Table.rows_deleteWhere, List.filter_filter]
    refine List.filter_congr fun m _ => ?_
    by_cases hm : m.chatJid = jid <;> simp [hm]
  rw [hrows]
  exact plan.filter_limit_perm _ (nodup_chatMessages s jid) retention

theorem chatMessages_keepNewest_of_ne (s : Store) {jid jid' : String} (h : jid' ≠ jid) :
    (keepNewest plan s jid).chatMessages jid' = s.chatMessages jid' := by
  simp only [keepNewest, Store.chatMessages, Table.rows_deleteWhere, List.filter_filter]
  refine List.filter_congr fun m _ => ?_
  by_cases hm : m.chatJid = jid'
  · simp [hm, h]
  · simp [hm]

theorem length_keepNewest_le (s : Store) (jid : String) :
    ((keepNewest plan s jid).chatMessages jid).length ≤ retention := by
  rw [(chatMessages_keepNewest_perm plan s jid).length_eq]
  exact List.length_take_le _ _

/-! ## The invariant -/

structure WellFormed (s : Store) : Prop where
  chatOfMessage : ∀ m ∈ s.messages.rows, s.hasChat m.chatJid
  retained : ∀ jid, (s.chatMessages jid).length ≤ retention

theorem wellFormed_empty : WellFormed Store.empty where
  chatOfMessage m hm := by cases hm
  retained _ := Nat.zero_le _

section Apply

variable {s : Store}

theorem MessagesFrom.length_le {s' : Store} (h : MessagesFrom s s') (jid : String) :
    (s'.chatMessages jid).length ≤ (s.chatMessages jid).length := by
  refine length_chatMessages_le (fun k => k) fun m' hm' => ?_
  rw [Store.mem_chatMessages] at hm'
  obtain ⟨m, hm, he⟩ := h m' hm'.1
  exact ⟨m, Store.mem_chatMessages.mpr ⟨hm, he.chatJid ▸ hm'.2⟩, he.key.symm⟩

/-- An operation that delivers messages of one chat and prunes it. -/
theorem WellFormed.of_messagesOf (h : WellFormed s) {s₁ s' : Store} {arrivals : List Message}
    {jid : String} (hof : MessagesOf s arrivals s₁) (hchat : ∀ m ∈ arrivals, m.chatJid = jid)
    (hprune : s'.messages = (keepNewest plan s₁ jid).messages)
    (hkept : ∀ jid', s.hasChat jid' → s'.hasChat jid')
    (harrived : ∀ m ∈ arrivals, suppressed s m = false → s'.hasChat m.chatJid) :
    WellFormed s' where
  chatOfMessage m' hm' := by
    rw [hprune] at hm'
    rcases hof m' (Table.mem_deleteWhere.mp hm').1 with ⟨m, hm, he⟩ | ⟨message, hmem, m, ha, he⟩
    · rw [he.chatJid]
      exact hkept _ (h.chatOfMessage m hm)
    · rw [he.chatJid, ha.chatJid]
      exact harrived message hmem ha.accepted
  retained jid' := by
    have hrows : s'.chatMessages jid' = (keepNewest plan s₁ jid).chatMessages jid' := by
      rw [Store.chatMessages, hprune, Store.chatMessages]
    rw [hrows]
    by_cases hj : jid' = jid
    · subst hj
      exact length_keepNewest_le plan s₁ jid'
    · rw [chatMessages_keepNewest_of_ne plan s₁ hj]
      refine le_trans (length_chatMessages_le (fun k => k) fun m' hm' => ?_) (h.retained jid')
      rw [Store.mem_chatMessages] at hm'
      rcases hof m' hm'.1 with ⟨m, hm, he⟩ | ⟨message, hmem, m, ha, he⟩
      · exact ⟨m, Store.mem_chatMessages.mpr ⟨hm, he.chatJid ▸ hm'.2⟩, he.key.symm⟩
      · refine absurd ?_ hj
        rw [← hm'.2, he.chatJid, ha.chatJid, hchat message hmem]

theorem WellFormed.insertMessageInner (h : WellFormed s) (insert : MessageInsert) :
    WellFormed (insertMessageInner plan s insert).1 := by
  refine h.of_messagesOf plan (insertMessageInto_messagesOf s insert)
    (fun m hm => by rw [List.mem_singleton.mp hm]) rfl (fun jid' hj => ?_) (fun m hm hs => ?_)
  · exact hasChat_insertMessageInto.mpr (Or.inl hj)
  · rw [List.mem_singleton.mp hm] at hs ⊢
    exact hasChat_insertMessageInto.mpr (Or.inr ⟨rfl, hs⟩)

theorem WellFormed.insertHistoryConversation (h : WellFormed s) (conversation : Conversation) :
    WellFormed
      (insertHistoryConversation plan s conversation.chat conversation.messages).1 := by
  refine h.of_messagesOf plan (insertHistoryMessages_messagesOf plan s _ _)
    conversation.sameChat rfl (fun jid' hj => ?_) (fun m hm hs => ?_)
  · exact (hasChat_insertHistoryConversation plan conversation).mpr (Or.inl hj)
  · exact (hasChat_insertHistoryConversation plan conversation).mpr
      (Or.inr ⟨conversation.sameChat m hm, Or.inr ⟨m, hm, hs⟩⟩)

theorem mem_deleteMessagesThrough {chatJid : String} {timestamp : ℤ} {m : MessageRow} :
    m ∈ (deleteMessagesThrough s chatJid timestamp).messages.rows ↔
      m ∈ s.messages.rows ∧ (m.chatJid = chatJid → timestamp < m.timestamp) := by
  refine Table.mem_deleteWhere.trans (and_congr_right fun _ => ?_)
  by_cases hc : m.chatJid = chatJid <;> simp [hc]

theorem mem_deleteChat {chatJid : String} {timestamp : ℤ} {m : MessageRow} :
    m ∈ (deleteChat s chatJid timestamp).messages.rows ↔ m ∈ s.messages.rows ∧
      ((settingsOf s chatJid).clearedAt ≤ timestamp → m.chatJid = chatJid →
        timestamp < m.timestamp) := by
  unfold deleteChat
  split
  · rename_i hstale
    simp [not_le.mpr hstale]
  · rename_i hstale
    simp only [not_lt.mp hstale, forall_const]
    split <;> exact mem_deleteMessagesThrough

theorem WellFormed.deleteChat (h : WellFormed s) (chatJid : String) (timestamp : ℤ) :
    WellFormed (deleteChat s chatJid timestamp) where
  chatOfMessage m hm := by
    obtain ⟨hm, hnewer⟩ := mem_deleteChat.mp hm
    refine hasChat_deleteChat.mpr ⟨h.chatOfMessage m hm, ?_⟩
    rintro ⟨hc, hstale, hall⟩
    have hle := hall m (Store.mem_chatMessages.mpr ⟨hm, hc⟩)
    exact absurd (hnewer hstale hc) (not_lt.mpr hle)
  retained jid := ((deleteChat_messagesFrom s _ _).length_le jid).trans (h.retained jid)

theorem WellFormed.migrateContactJid (h : WellFormed s) (oldJid newJid : String) :
    WellFormed (migrateContactJid plan s oldJid newJid).1 := by
  by_cases hmig : Migrates s oldJid newJid
  · refine ⟨fun m' hm' => ?_, fun jid => ?_⟩
    · obtain ⟨m, hm, hk, -, -⟩ := migrateContactJid_origin plan hmig hm'
      have hc : renamed oldJid newJid m.chatJid = m'.chatJid := congrArg Prod.fst hk
      have hchat := h.chatOfMessage m hm
      refine (hasChat_migrateContactJid plan hmig).mpr ⟨hc ▸ renamed_ne hmig.1 _, ?_⟩
      rcases renamed_eq.mp hc with ⟨ho, hn⟩ | ⟨-, he⟩
      · exact Or.inr ⟨hn.symm, ho ▸ hchat⟩
      · exact Or.inl (he ▸ hchat)
    · refine ((migrateContactJid_messagesFrom plan hmig).length_le jid).trans ?_
      by_cases hj : jid = newJid
      · subst hj
        exact length_keepNewest_le plan _ jid
      · rw [migratedMessages, chatMessages_keepNewest_of_ne plan _ hj]
        refine le_trans (length_chatMessages_le (renameIdentity oldJid newJid) fun m' hm' => ?_)
          (h.retained jid)
        rw [Store.mem_chatMessages] at hm'
        obtain ⟨m, hm, hk, -, -⟩ := (mergedMessages_mergedBy plan hmig.1).origin m' hm'.1
        have hc : renamed oldJid newJid m.chatJid = m'.chatJid := congrArg Prod.fst hk
        refine ⟨m, Store.mem_chatMessages.mpr ⟨hm, ?_⟩, hk⟩
        rcases renamed_eq.mp (hc.trans hm'.2) with ⟨-, hn⟩ | ⟨-, he⟩
        · exact absurd hn.symm hj
        · exact he
  · rw [migrateContactJid_of_not_migrates plan hmig]
    exact h

/-- Every operation keeps the store well formed. -/
theorem WellFormed.apply (h : WellFormed s) (op : Op) : WellFormed (s.apply plan op) := by
  cases hq : op.keepsChats with
  | true =>
    obtain ⟨harrivals, hmig⟩ := Op.arrivals_of_keepsChats hq
    have hfrom := (harrivals ▸ apply_messagesOf plan s op hmig).messagesFrom
    refine ⟨fun m' hm' => ?_, fun jid => (hfrom.length_le jid).trans (h.retained jid)⟩
    obtain ⟨m, hm, he⟩ := hfrom m' hm'
    rw [he.chatJid, apply_sameChats plan s hq]
    exact h.chatOfMessage m hm
  | false =>
    cases op with
    | insertMessage => exact h.insertMessageInner plan _
    | insertMessageWithReadIntent => exact h.insertMessageInner plan _
    | insertHistoryConversation conversation => exact h.insertHistoryConversation plan conversation
    | deleteChat chatJid timestamp => exact h.deleteChat chatJid timestamp
    | migrateContactJid oldJid newJid => exact h.migrateContactJid plan oldJid newJid
    | _ => cases hq

/-- Every reachable store is well formed. -/
theorem wellFormed_run (ops : List Op) : WellFormed (run (Store.apply plan) Store.empty ops) :=
  invariant_run_of_step (fun _ op h => h.apply plan op) wellFormed_empty ops

end Apply

end OmarchyWhatsapp
