import OmarchyWhatsapp.Database.InsertTheorems

/-!
# The unread counter

`UnreadConsistent` says that the counter of every chat is the number of its unread messages,
the number that `reconcile_unread_after_full_sync` writes. Read events and the deletion of
chats recompute the counter and insertion keeps it in step. What breaks it removes unread
rows behind its back: retention that drops an unread message, `delete_message`, and a
migration that merges unread copies.
-/

namespace OmarchyWhatsapp

open Relational

variable (plan : QueryPlan)

def UnreadConsistent (s : Store) : Prop :=
  ∀ c ∈ s.chats.rows, c.unread = unreadMessageCount s c.jid

/-- Own messages are stored as read. -/
def OwnRead (s : Store) : Prop := ∀ m ∈ s.messages.rows, m.fromMe = true → m.read = true

/-! ## Operations that neither read nor count -/

/-- The chats count what they counted, and the messages are as unread as they were. -/
structure SameUnread (s s' : Store) : Prop where
  count : ∀ jid, unreadMessageCount s' jid = unreadMessageCount s jid
  chats : ∀ c' ∈ s'.chats.rows, ∃ c ∈ s.chats.rows, c.jid = c'.jid ∧ c.unread = c'.unread

theorem UnreadConsistent.of_same {s s' : Store} (h : UnreadConsistent s) (hs : SameUnread s s') :
    UnreadConsistent s' := by
  intro c' hc'
  obtain ⟨c, hc, hj, hu⟩ := hs.chats c' hc'
  rw [hs.count, ← hj, ← hu, h c hc]

section Same

variable {s s' s'' : Store}

theorem unreadMessageCount_of_update {p : MessageRow → Bool} {f : MessageRow → MessageRow}
    (h : s'.messages.rows = s.messages.rows.map (fun m => if p m then f m else m))
    (hf : ∀ m, (f m).chatJid = m.chatJid ∧ (f m).unread = m.unread) (jid : String) :
    unreadMessageCount s' jid = unreadMessageCount s jid := by
  rw [unreadMessageCount, h, List.countP_map, unreadMessageCount]
  refine List.countP_congr fun m _ => ?_
  rw [Function.comp_apply]
  split
  · rw [(hf m).1, (hf m).2]
  · rfl

theorem sameChatCounts_of_update {p : ChatRow → Bool} {f : ChatRow → ChatRow}
    (h : s'.chats.rows = s.chats.rows.map (fun c => if p c then f c else c))
    (hf : ∀ c, (f c).jid = c.jid ∧ (f c).unread = c.unread) :
    ∀ c' ∈ s'.chats.rows, ∃ c ∈ s.chats.rows, c.jid = c'.jid ∧ c.unread = c'.unread := by
  intro c' hc'
  rw [h, List.mem_map] at hc'
  obtain ⟨c, hc, rfl⟩ := hc'
  refine ⟨c, hc, ?_⟩
  split
  · exact ⟨(hf c).1.symm, (hf c).2.symm⟩
  · exact ⟨rfl, rfl⟩

theorem sameChatCounts_of_eq (h : s'.chats = s.chats) :
    ∀ c' ∈ s'.chats.rows, ∃ c ∈ s.chats.rows, c.jid = c'.jid ∧ c.unread = c'.unread :=
  fun c' hc' => ⟨c', h ▸ hc', rfl, rfl⟩

theorem SameUnread.of_eq (hm : s'.messages = s.messages) (hc : s'.chats = s.chats) :
    SameUnread s s' := ⟨unreadMessageCount_congr hm, sameChatCounts_of_eq hc⟩

theorem SameUnread.trans (h : SameUnread s s') (h' : SameUnread s' s'') : SameUnread s s'' where
  count jid := (h'.count jid).trans (h.count jid)
  chats c'' hc'' := by
    obtain ⟨c', hc', hj', hu'⟩ := h'.chats c'' hc''
    obtain ⟨c, hc, hj, hu⟩ := h.chats c' hc'
    exact ⟨c, hc, hj.trans hj', hu.trans hu'⟩

/-- The operations that change neither an unread message nor a counter. -/
def Op.keepsUnread : Op → Bool
  | .updateContactName .. | .updateAddressBookName .. | .updateGroupName ..
  | .updateChatPhoneNumber .. | .applyReaction .. | .storePollSecret .. | .applyPollVote ..
  | .updateMessageMedia .. | .storeMediaDownload .. | .rewriteMediaPaths _ | .applyPinAt ..
  | .applyArchiveAt .. | .applyMuteAt .. | .updateReceipts .. | .queueReadReceipts ..
  | .finishReadBatch _ => true
  | _ => false

theorem updateContactNameInto_sameUnread (s : Store) (jid name : String) (source : ℕ) :
    SameUnread s (updateContactNameInto s jid name source).1 := by
  unfold updateContactNameInto
  split
  · exact .of_eq rfl rfl
  · split
    · exact .of_eq rfl rfl
    · exact ⟨unreadMessageCount_of_update rfl fun _ => ⟨rfl, rfl⟩,
        sameChatCounts_of_update rfl fun _ => ⟨rfl, rfl⟩⟩

theorem updateGroupName_sameUnread (s : Store) (jid name : String) :
    SameUnread s (updateGroupName s jid name).1 := by
  unfold updateGroupName
  split
  · exact .of_eq rfl rfl
  · exact ⟨unreadMessageCount_congr rfl, sameChatCounts_of_update rfl fun _ => ⟨rfl, rfl⟩⟩

theorem applyPollVote_sameUnread (s : Store) (chatJid messageId voterJid : String)
    (selected : List String) (fromMe : Bool) (timestamp : ℤ) :
    SameUnread s
      (s.apply plan (.applyPollVote chatJid messageId voterJid selected fromMe timestamp)) := by
  refine ⟨fun jid => ?_, sameChatCounts_of_eq (by simp)⟩
  dsimp only [Store.apply, applyPollVote]
  split
  · split_ifs
    · exact unreadMessageCount_congr rfl jid
    · refine unreadMessageCount_of_update rfl ?_ jid
      exact fun _ => ⟨rfl, rfl⟩
    · exact unreadMessageCount_congr rfl jid
  · exact unreadMessageCount_congr rfl jid

theorem updateReceipt_sameUnread (s : Store) (chatJid id : String) (receipt : ℕ)
    (reader : Option String) (receiptAt : ℤ) :
    SameUnread s (updateReceipt s chatJid id receipt reader receiptAt).1 :=
  ⟨unreadMessageCount_of_update (congrArg Table.rows (updateReceipt_messages s _ _ _ _ _))
    fun _ => ⟨rfl, rfl⟩, sameChatCounts_of_eq (by simp)⟩

theorem apply_sameUnread (s : Store) {op : Op} (h : op.keepsUnread = true) :
    SameUnread s (s.apply plan op) := by
  cases op with
  | updateContactName => exact updateContactNameInto_sameUnread s _ _ _
  | updateAddressBookName => exact updateContactNameInto_sameUnread s _ _ _
  | updateGroupName => exact updateGroupName_sameUnread s _ _
  | updateChatPhoneNumber =>
    exact ⟨unreadMessageCount_congr rfl, sameChatCounts_of_update rfl fun _ => ⟨rfl, rfl⟩⟩
  | applyReaction => exact .of_eq (by simp [Store.apply]) (by simp [Store.apply])
  | storePollSecret => exact .of_eq (by simp [Store.apply]) (by simp [Store.apply])
  | applyPollVote => exact applyPollVote_sameUnread plan s _ _ _ _ _ _
  | updateMessageMedia =>
    exact ⟨unreadMessageCount_of_update rfl fun _ => ⟨rfl, rfl⟩,
      sameChatCounts_of_update rfl fun _ => ⟨rfl, rfl⟩⟩
  | storeMediaDownload =>
    exact ⟨unreadMessageCount_of_update rfl fun _ => ⟨rfl, rfl⟩, sameChatCounts_of_eq rfl⟩
  | rewriteMediaPaths =>
    exact ⟨unreadMessageCount_of_update rfl fun _ => ⟨rfl, rfl⟩, sameChatCounts_of_eq rfl⟩
  | applyPinAt => exact .of_eq rfl rfl
  | applyArchiveAt => exact .of_eq rfl rfl
  | applyMuteAt => exact .of_eq rfl rfl
  | updateReceipts chatJid ids receipt reader receiptAt =>
    exact updateReceipts_induction s chatJid ids receipt reader receiptAt
      (fun s' id h => h.trans (updateReceipt_sameUnread s' chatJid id receipt reader receiptAt))
      (.of_eq rfl rfl)
  | queueReadReceipts => exact .of_eq rfl rfl
  | finishReadBatch => exact .of_eq rfl rfl
  | _ => cases h

end Same

/-! ## Operations that count again -/

section Recounted

variable {s : Store}

/-- A chat is recounted, and the unread messages of the other chats stay. -/
theorem UnreadConsistent.recount (h : UnreadConsistent s) {s' : Store} {chatJid : String}
    (hcount : ∀ jid, jid ≠ chatJid → unreadMessageCount s' jid = unreadMessageCount s jid)
    (hchats : ∀ c' ∈ s'.chats.rows, if c'.jid = chatJid
      then c'.unread = unreadMessageCount s' chatJid
      else ∃ c ∈ s.chats.rows, c.jid = c'.jid ∧ c.unread = c'.unread) :
    UnreadConsistent s' := by
  intro c' hc'
  have hchat := hchats c' hc'
  split at hchat
  · rename_i hj
    rw [hchat, hj]
  · rename_i hj
    obtain ⟨c, hc, hcj, hu⟩ := hchat
    rw [← hu, h c hc, hcount _ hj, hcj]

/-- The chats of such a store, when one update sets the counter. -/
theorem recounted_of_update {chats : List ChatRow} {rows : List ChatRow} {chatJid : String}
    {n : ℕ} {f : ChatRow → ChatRow}
    (h : rows = chats.map (fun c => if decide (c.jid = chatJid) then f c else c))
    (hf : ∀ c, (f c).jid = c.jid ∧ (f c).unread = n) :
    ∀ c' ∈ rows, if c'.jid = chatJid then c'.unread = n
      else ∃ c ∈ chats, c.jid = c'.jid ∧ c.unread = c'.unread := by
  intro c' hc'
  rw [h, List.mem_map] at hc'
  obtain ⟨c, hc, rfl⟩ := hc'
  by_cases hj : c.jid = chatJid
  · rw [if_pos (decide_eq_true hj), if_pos ((hf c).1.trans hj)]
    exact (hf c).2
  · have hne : ¬decide (c.jid = chatJid) = true := by simpa using hj
    rw [if_neg hne, if_neg hj]
    exact ⟨c, hc, rfl, rfl⟩

theorem unreadMessageCount_applyReadBoundary_of_ne {chatJid jid : String} (hj : jid ≠ chatJid)
    (timestamp : ℤ) (ids : List String) :
    unreadMessageCount (applyReadBoundary plan s chatJid timestamp ids).1 jid
      = unreadMessageCount s jid := by
  let boundary := max (settingsOf s chatJid).readBoundary (candidateBoundary timestamp ids)
  have hrows : (applyReadBoundary plan s chatJid timestamp ids).1.messages.rows
      = s.messages.rows.map
          (fun m => if boundaryMarks chatJid boundary ids m then { m with read := true } else m) :=
    rfl
  rw [unreadMessageCount, hrows, List.countP_map, unreadMessageCount]
  refine List.countP_congr fun m _ => ?_
  rw [Function.comp_apply]
  by_cases hm : m.chatJid = jid
  · have hmarks : boundaryMarks chatJid boundary ids m = false := by
      simp [boundaryMarks, hm, hj]
    rw [hmarks]
    rfl
  · split <;> simp [hm]

theorem UnreadConsistent.applyReadBoundary (h : UnreadConsistent s) (chatJid : String)
    (timestamp : ℤ) (ids : List String) :
    UnreadConsistent (applyReadBoundary plan s chatJid timestamp ids).1 :=
  h.recount (fun _ hj => unreadMessageCount_applyReadBoundary_of_ne plan hj timestamp ids)
    (recounted_of_update rfl fun _ => ⟨rfl, rfl⟩)

theorem UnreadConsistent.applyReadState (h : UnreadConsistent s) (chatJid : String)
    (read : Bool) : UnreadConsistent (applyReadState plan s chatJid read).1 := by
  unfold OmarchyWhatsapp.applyReadState
  split
  · exact h.applyReadBoundary plan chatJid _ _
  · exact h.of_same (.of_eq rfl rfl)

theorem UnreadConsistent.applySyncedReadState (h : UnreadConsistent s) (chatJid : String)
    (read : Bool) (boundary : Option ℤ) (ids : List String) (eventTimestamp : ℤ) :
    UnreadConsistent (applySyncedReadState plan s chatJid read boundary ids eventTimestamp).1 := by
  unfold OmarchyWhatsapp.applySyncedReadState
  split
  · exact h
  · dsimp only
    split
    · exact (h.applyReadBoundary plan chatJid _ ids).of_same (.of_eq rfl rfl)
    · exact (h.applyReadState plan chatJid false).of_same (.of_eq rfl rfl)

theorem UnreadConsistent.applySelfReadReceipt (h : UnreadConsistent s) (chatJid : String)
    (ids : List String) (timestamp : ℤ) :
    UnreadConsistent (applySelfReadReceipt plan s chatJid ids timestamp).1 := by
  unfold OmarchyWhatsapp.applySelfReadReceipt
  split
  · exact h
  · exact h.applyReadBoundary plan chatJid _ ids

theorem unreadConsistent_reconcileUnread (s : Store) : UnreadConsistent (reconcileUnread s) := by
  intro c' hc'
  obtain ⟨c, -, rfl⟩ := List.mem_map.mp hc'
  rfl

/-- Messages of other chats are not deleted. -/
theorem unreadMessageCount_deleteMessagesThrough_of_ne {chatJid jid : String} (hj : jid ≠ chatJid)
    (timestamp : ℤ) :
    unreadMessageCount (deleteMessagesThrough s chatJid timestamp) jid
      = unreadMessageCount s jid := by
  unfold unreadMessageCount deleteMessagesThrough
  rw [Table.rows_deleteWhere, List.countP_filter]
  refine List.countP_congr fun m _ => ?_
  by_cases hm : m.chatJid = jid
  · simp [hm, hj]
  · simp [hm]

theorem UnreadConsistent.clearChat (h : UnreadConsistent s) (chatJid : String) (timestamp : ℤ) :
    UnreadConsistent (clearChat s chatJid timestamp) := by
  unfold OmarchyWhatsapp.clearChat
  split
  · exact h
  · exact h.recount
      (fun _ hj => unreadMessageCount_deleteMessagesThrough_of_ne hj timestamp)
      (recounted_of_update rfl fun _ => ⟨rfl, rfl⟩)

theorem UnreadConsistent.deleteChat (h : UnreadConsistent s) (chatJid : String) (timestamp : ℤ) :
    UnreadConsistent (deleteChat s chatJid timestamp) := by
  unfold OmarchyWhatsapp.deleteChat
  split
  · exact h
  · dsimp only
    split
    · exact h.recount
        (fun _ hj => unreadMessageCount_deleteMessagesThrough_of_ne hj timestamp)
        (recounted_of_update rfl fun _ => ⟨rfl, rfl⟩)
    · refine h.recount
        (fun _ hj => unreadMessageCount_deleteMessagesThrough_of_ne hj timestamp) fun c' hc' => ?_
      obtain ⟨hc', hj⟩ := Table.mem_deleteWhere.mp hc'
      rw [if_neg (of_decide_eq_false hj)]
      exact ⟨c', hc', rfl, rfl⟩

end Recounted

/-! ## Retention -/

/-- Pruning drops no unread message when all of them are within the retention limit. -/
theorem unreadMessageCount_keepNewest {s : Store} {jid : String}
    (h : ∀ m ∈ s.chatMessages jid, m.unread = true → WithinRetention (s.chatMessages jid) m)
    (jid' : String) :
    unreadMessageCount (keepNewest plan s jid) jid' = unreadMessageCount s jid' := by
  have hrows : (keepNewest plan s jid).messages.rows = s.messages.rows.filter
      (fun m => !(m.chatJid = jid && (overflow plan (s.chatMessages jid)).contains m)) := rfl
  rw [unreadMessageCount, hrows, List.countP_filter, unreadMessageCount]
  refine List.countP_congr fun m hm => ?_
  by_cases hu : (decide (m.chatJid = jid') && m.unread) = true
  · rw [hu, Bool.true_and]
    simp only [Bool.and_eq_true] at hu
    have hkept : (decide (m.chatJid = jid) &&
        (overflow plan (s.chatMessages jid)).contains m) = false := by
      by_cases hj : m.chatJid = jid
      · have hnot := not_mem_overflow plan (h m (Store.mem_chatMessages.mpr ⟨hm, hj⟩) hu.2)
        simp [hnot]
      · simp [hj]
    rw [hkept]
    rfl
  · rw [Bool.not_eq_true] at hu
    rw [hu]
    rfl

/-! ## Insertion -/

/-- The messages of a chat with the one that arrives. -/
def arrivalRows (s : Store) (insert : MessageInsert) : List MessageRow :=
  s.chatMessages insert.message.chatJid ++ [proposedMessage s insert]

/-- Only an incoming message counts, and a new message pushes no unread one out. -/
def InsertGuard (s : Store) (insert : MessageInsert) : Prop :=
  (insert.incrementUnread = true → insert.message.fromMe = false) ∧
  (suppressed s insert.message = false → s.messages.find? insert.message.key = none →
    ∀ m ∈ arrivalRows s insert, m.unread = true → WithinRetention (arrivalRows s insert) m)

instance (s : Store) (insert : MessageInsert) : Decidable (InsertGuard s insert) :=
  inferInstanceAs (Decidable (_ ∧ _))

section Insertion

variable {s : Store} {insert : MessageInsert}

/-- The messages of a chat without a row. -/
theorem WellFormed.unreadMessageCount_eq_zero (h : WellFormed s) {jid : String}
    (hnone : s.chats.find? jid = none) : unreadMessageCount s jid = 0 := by
  refine List.countP_eq_zero.mpr fun m hm hu => ?_
  simp only [Bool.and_eq_true, decide_eq_true_eq] at hu
  obtain ⟨c, hc⟩ := hasChat_iff_find?.mp (h.chatOfMessage m hm)
  rw [hu.1, hnone] at hc
  cases hc

theorem UnreadConsistent.find? (h : UnreadConsistent s) {jid : String} {c : ChatRow}
    (hc : s.chats.find? jid = some c) : c.unread = unreadMessageCount s jid := by
  obtain ⟨hmem, hk⟩ := Table.find?_eq_some.mp hc
  rw [h c hmem]
  exact congrArg _ hk

theorem UnreadConsistent.of_find? (h : ∀ jid c, s.chats.find? jid = some c →
    c.unread = unreadMessageCount s jid) : UnreadConsistent s :=
  fun c hc => h c.jid c (Table.find?_of_mem hc)

theorem UnreadConsistent.insertMessageInto (h : UnreadConsistent s) (hw : WellFormed s)
    (hown : insert.incrementUnread = true → insert.message.fromMe = false) :
    UnreadConsistent (insertMessageInto s insert).1 := by
  by_cases hs : suppressed s insert.message = true
  · rw [insertMessageInto_of_suppressed hs]
    exact h
  rw [Bool.not_eq_true] at hs
  refine .of_find? fun jid c hc => ?_
  rw [find?_chats_insertMessageInto hs] at hc
  rw [unreadMessageCount_insertMessageInto hs]
  split at hc
  · rename_i hj
    obtain rfl := Option.some_inj.mp hc
    have hcount : (if jid = insert.message.chatJid ∧ insert.message.fromMe = false
        then (countsUnread s insert).toNat else 0) = (countsUnread s insert).toNat := by
      cases hcounts : countsUnread s insert with
      | false => simp
      | true =>
        simp only [countsUnread, messageIsUnread, Bool.and_eq_true] at hcounts
        rw [if_pos ⟨hj, hown hcounts.2.1⟩]
    rw [hcount]
    rcases hchat : s.chats.find? jid with _ | old
    · rw [hw.unreadMessageCount_eq_zero hchat]
      simp [proposedChat]
    · rw [← h.find? hchat]
      rfl
  · rename_i hj
    rw [if_neg (fun hand => hj hand.1), h.find? hc]
    rfl

theorem UnreadConsistent.insertMessageInner (h : UnreadConsistent s) (hw : WellFormed s)
    (hguard : InsertGuard s insert) : UnreadConsistent (insertMessageInner plan s insert).1 := by
  have hinto := h.insertMessageInto hw hguard.1
  have hretained : ∀ m ∈ (OmarchyWhatsapp.insertMessageInto s insert).1.chatMessages
      insert.message.chatJid, m.unread = true → WithinRetention
        ((OmarchyWhatsapp.insertMessageInto s insert).1.chatMessages insert.message.chatJid) m := by
    have hold : ∀ m : MessageRow, WithinRetention (s.chatMessages insert.message.chatJid) m :=
      fun m => List.countP_le_length.trans (hw.retained _)
    by_cases hs : suppressed s insert.message = true
    · rw [insertMessageInto_of_suppressed hs]
      exact fun m _ _ => hold m
    · rw [Bool.not_eq_true] at hs
      rw [chatMessages_insertMessageInto hs]
      by_cases hnew : s.messages.find? insert.message.key = none
      · rw [if_pos ⟨rfl, hnew⟩]
        exact hguard.2 hs hnew
      · rw [if_neg (fun hand => hnew hand.2), List.append_nil]
        exact fun m _ _ => hold m
  refine hinto.of_same ⟨fun jid => ?_, sameChatCounts_of_eq rfl⟩
  exact (unreadMessageCount_congr rfl jid).trans
    (unreadMessageCount_keepNewest plan hretained jid)

theorem OwnRead.insertMessageInner (h : OwnRead s)
    (hown : insert.incrementUnread = true → insert.message.fromMe = false) :
    OwnRead (insertMessageInner plan s insert).1 := by
  intro m hm hf
  have hm := (Table.mem_deleteWhere.mp hm).1
  by_cases hs : suppressed s insert.message = true
  · rw [insertMessageInto_of_suppressed hs] at hm
    exact h m hm hf
  · rw [Bool.not_eq_true] at hs
    rw [insertMessageInto_messages hs, Table.mem_insertOrIgnore] at hm
    rcases hm with hm | ⟨rfl, -⟩
    · exact h m hm hf
    · have hnot : insert.incrementUnread = false := by
        by_contra hinc
        have hincoming := hown (by simpa using hinc)
        rw [show insert.message.fromMe = true from hf] at hincoming
        cases hincoming
      simp [proposedMessage, messageIsUnread, hnot]

end Insertion

/-! ## Deleting a message -/

theorem UnreadConsistent.deleteMessage {s : Store} (h : UnreadConsistent s) {chatJid id : String}
    (hguard : ∀ m ∈ s.messagesById chatJid id, m.unread = false) :
    UnreadConsistent (deleteMessage plan s chatJid id) := by
  refine h.of_same ⟨fun jid => ?_, sameChatCounts_of_update rfl fun _ => ⟨rfl, rfl⟩⟩
  have hrows : (OmarchyWhatsapp.deleteMessage plan s chatJid id).messages.rows
      = s.messages.rows.filter (fun m => !(m.chatJid = chatJid && m.id = id)) := rfl
  rw [unreadMessageCount, hrows, List.countP_filter, unreadMessageCount]
  refine List.countP_congr fun m hm => ?_
  by_cases hc : m.chatJid = chatJid ∧ m.id = id
  · have hread := hguard m (Store.mem_messagesById.mpr ⟨hm, hc⟩)
    simp [hread]
  · have hkept : (decide (m.chatJid = chatJid) && decide (m.id = id)) = false := by
      rw [Bool.and_eq_false_iff, decide_eq_false_iff_not, decide_eq_false_iff_not]
      exact not_and_or.mp hc
    simp [hkept]

/-! ## Migration -/

section Migration

variable (s : Store) (oldJid newJid : String)

/-- The rows that are merged into the message `k`. -/
def Store.copies (k : String × String × String) : List MessageRow :=
  s.messages.rows.filter (fun m => renameIdentity oldJid newJid m.key = k)

/-- The messages of `jid` once the two identities are one. -/
def Store.identities (jid : String) : Finset (String × String × String) :=
  ((s.messages.rows.map (fun m => renameIdentity oldJid newJid m.key)).filter
    (fun k => k.1 = jid)).toFinset

/-- Those with no copy that is read. -/
def Store.unreadIdentities (jid : String) : Finset (String × String × String) :=
  (s.identities oldJid newJid jid).filter
    (fun k => ∀ m ∈ s.copies oldJid newJid k, m.read = false)

/-- Merging the copies leaves as many unread messages as the counters say: no unread copy
disappears in another chat, the merged chat has as many as the larger of the two counters,
and all of them are among its newest messages. -/
def MergeGuard : Prop :=
  (∀ c ∈ s.chats.rows, c.jid ≠ oldJid → c.jid ≠ newJid →
    (s.unreadIdentities oldJid newJid c.jid).card = unreadMessageCount s c.jid) ∧
  (s.unreadIdentities oldJid newJid newJid).card
    = max (unreadMessageCount s oldJid) (unreadMessageCount s newJid) ∧
  ∀ k ∈ s.unreadIdentities oldJid newJid newJid, ∀ m ∈ s.copies oldJid newJid k,
    ((s.identities oldJid newJid newJid).filter (fun k' =>
      ∃ m' ∈ s.copies oldJid newJid k', m.timestamp ≤ m'.timestamp)).card ≤ retention

instance : Decidable (MergeGuard s oldJid newJid) := inferInstanceAs (Decidable (_ ∧ _ ∧ _))

variable {s oldJid newJid}

theorem Store.mem_copies {k : String × String × String} {m : MessageRow} :
    m ∈ s.copies oldJid newJid k ↔
      m ∈ s.messages.rows ∧ renameIdentity oldJid newJid m.key = k := by
  simp [Store.copies]

theorem Store.mem_identities {jid : String} {k : String × String × String} :
    k ∈ s.identities oldJid newJid jid ↔
      (∃ m ∈ s.messages.rows, renameIdentity oldJid newJid m.key = k) ∧ k.1 = jid := by
  simp [Store.identities]

theorem Store.mem_unreadIdentities {jid : String} {k : String × String × String} :
    k ∈ s.unreadIdentities oldJid newJid jid ↔ k ∈ s.identities oldJid newJid jid ∧
      ∀ m ∈ s.copies oldJid newJid k, m.read = false := by
  simp [Store.unreadIdentities]

/-- A merged message is unread when none of its copies is read. -/
theorem unread_mergedMessages (hown : OwnRead s) (hne : oldJid ≠ newJid) {m' : MessageRow}
    (hm' : m' ∈ (mergedMessages plan s oldJid newJid).rows) :
    m'.unread = true ↔ ∀ m ∈ s.copies oldJid newJid m'.key, m.read = false := by
  have hmerged := mergedMessages_mergedBy plan (s := s) hne
  constructor
  · intro hu m hm
    obtain ⟨hm, hk⟩ := Store.mem_copies.mp hm
    by_contra hread
    have hread' := hmerged.read m' hm' m hm hk (by simpa using hread)
    simp [MessageRow.unread, hread'] at hu
  · intro hcopies
    have hunread : m'.read = false := by
      by_contra hread
      obtain ⟨m, hm, hk, hr⟩ := hmerged.read_origin m' hm' (by simpa using hread)
      rw [hcopies m (Store.mem_copies.mpr ⟨hm, hk⟩)] at hr
      cases hr
    have hincoming : m'.fromMe = false := by
      by_contra hf
      obtain ⟨m, hm, hk, hf⟩ := hmerged.fromMe_origin m' hm' (by simpa using hf)
      have hr := hown m hm hf
      rw [hcopies m (Store.mem_copies.mpr ⟨hm, hk⟩)] at hr
      cases hr
    simp [MessageRow.unread, hunread, hincoming]

/-- The merged messages of a chat are the identities of its rows. -/
theorem mem_identities_iff (hne : oldJid ≠ newJid) {jid : String}
    {k : String × String × String} :
    k ∈ s.identities oldJid newJid jid ↔
      ∃ m' ∈ (mergedMessages plan s oldJid newJid).rows, m'.key = k ∧ m'.chatJid = jid := by
  have hmerged := mergedMessages_mergedBy plan (s := s) hne
  rw [Store.mem_identities]
  constructor
  · rintro ⟨⟨m, hm, hk⟩, hj⟩
    obtain ⟨m', hm', hk'⟩ := hmerged.total m hm
    have hkey : m'.key = k := hk'.symm.trans hk
    exact ⟨m', hm', hkey, (congrArg Prod.fst hkey).trans hj⟩
  · rintro ⟨m', hm', rfl, hj⟩
    obtain ⟨m, hm, hk, -, -⟩ := hmerged.origin m' hm'
    exact ⟨⟨m, hm, hk⟩, hj⟩

theorem unreadMessageCount_mergedMessages (hown : OwnRead s) (hne : oldJid ≠ newJid)
    (jid : String) :
    unreadMessageCount { s with messages := mergedMessages plan s oldJid newJid } jid
      = (s.unreadIdentities oldJid newJid jid).card := by
  rw [unreadMessageCount, countP_rows_eq_card]
  congr 1
  ext k
  simp only [List.mem_toFinset, List.mem_map, List.mem_filter, Bool.and_eq_true,
    decide_eq_true_eq, Store.mem_unreadIdentities, mem_identities_iff plan hne]
  constructor
  · rintro ⟨m', ⟨hm', hj, hu⟩, rfl⟩
    exact ⟨⟨m', hm', rfl, hj⟩, (unread_mergedMessages plan hown hne hm').mp hu⟩
  · rintro ⟨⟨m', hm', rfl, hj⟩, hcopies⟩
    exact ⟨m', ⟨hm', hj, (unread_mergedMessages plan hown hne hm').mpr hcopies⟩, rfl⟩

/-- Under the guard the retention of the merged chat drops no unread message. -/
theorem MergeGuard.withinRetention (h : MergeGuard s oldJid newJid) (hown : OwnRead s)
    (hne : oldJid ≠ newJid) {m' : MessageRow}
    (hm' : m' ∈ { s with messages := mergedMessages plan s oldJid newJid }.chatMessages newJid)
    (hu : m'.unread = true) :
    WithinRetention
      ({ s with messages := mergedMessages plan s oldJid newJid }.chatMessages newJid) m' := by
  obtain ⟨hm', hj⟩ := Store.mem_chatMessages.mp hm'
  have hmerged := mergedMessages_mergedBy plan (s := s) hne
  obtain ⟨m, hm, hk, ht, -⟩ := hmerged.origin m' hm'
  have hunread : m'.key ∈ s.unreadIdentities oldJid newJid newJid :=
    Store.mem_unreadIdentities.mpr ⟨(mem_identities_iff plan hne).mpr ⟨m', hm', rfl, hj⟩,
      (unread_mergedMessages plan hown hne hm').mp hu⟩
  refine le_trans ?_ (h.2.2 _ hunread m (Store.mem_copies.mpr ⟨hm, hk⟩))
  rw [Store.chatMessages, List.countP_filter, countP_rows_eq_card]
  refine Finset.card_le_card fun k hk' => ?_
  simp only [List.mem_toFinset, List.mem_map, List.mem_filter, Bool.and_eq_true,
    decide_eq_true_eq] at hk'
  obtain ⟨r', ⟨hr', htime, hrj⟩, rfl⟩ := hk'
  obtain ⟨r, hr, hrk, hrt, -⟩ := hmerged.origin r' hr'
  rw [Finset.mem_filter]
  refine ⟨(mem_identities_iff plan hne).mpr ⟨r', hr', rfl, hrj⟩, r,
    Store.mem_copies.mpr ⟨hr, hrk⟩, ?_⟩
  rw [ht, hrt]
  exact htime

theorem applyMigratedName_sameUnread (s : Store) (jid : String) :
    SameUnread s (applyMigratedName s jid) := by
  unfold applyMigratedName
  split
  · exact .of_eq rfl rfl
  · exact ⟨unreadMessageCount_of_update rfl fun _ => ⟨rfl, rfl⟩,
      sameChatCounts_of_update rfl fun _ => ⟨rfl, rfl⟩⟩

/-- The messages that are unread after a migration. -/
theorem unreadMessageCount_migrateContactJid (hmig : Migrates s oldJid newJid) (hown : OwnRead s)
    (hguard : MergeGuard s oldJid newJid) (jid : String) :
    unreadMessageCount (migrateContactJid plan s oldJid newJid).1 jid
      = (s.unreadIdentities oldJid newJid jid).card := by
  have hdrop : unreadMessageCount (dropAlias (applyMigratedName
      (migratedStore plan s oldJid newJid) newJid) oldJid) jid
        = unreadMessageCount (applyMigratedName (migratedStore plan s oldJid newJid) newJid) jid :=
    unreadMessageCount_congr rfl jid
  have hkept : unreadMessageCount (migratedStore plan s oldJid newJid) jid
      = unreadMessageCount (migratedMessages plan s oldJid newJid) jid :=
    unreadMessageCount_congr rfl jid
  rw [migrateContactJid_of_migrates plan hmig, hdrop, (applyMigratedName_sameUnread _ _).count,
    hkept, ← unreadMessageCount_mergedMessages plan hown hmig.1]
  exact unreadMessageCount_keepNewest plan
    (fun m hm hu => hguard.withinRetention plan hown hmig.1 hm hu) jid

/-- The chat rows after a migration count what the merged rows counted. -/
theorem chats_migrateContactJid (hmig : Migrates s oldJid newJid) {c' : ChatRow}
    (hc' : c' ∈ (migrateContactJid plan s oldJid newJid).1.chats.rows) :
    c'.jid ≠ oldJid ∧ ∃ c, (migrateChat plan s oldJid newJid).chats.find? c'.jid = some c ∧
      c.unread = c'.unread := by
  rw [migrateContactJid_of_migrates plan hmig] at hc'
  obtain ⟨hc', hj⟩ := Table.mem_deleteWhere.mp hc'
  refine ⟨of_decide_eq_false hj, ?_⟩
  obtain ⟨c, hc, hcj, hu⟩ := (applyMigratedName_sameUnread _ _).chats c' hc'
  exact ⟨c, hcj ▸ Table.find?_of_mem hc, hu⟩

theorem UnreadConsistent.migrateContactJid (h : UnreadConsistent s) (hw : WellFormed s)
    (hown : OwnRead s) (hguard : Migrates s oldJid newJid → MergeGuard s oldJid newJid) :
    UnreadConsistent (migrateContactJid plan s oldJid newJid).1 := by
  by_cases hmig : Migrates s oldJid newJid
  swap
  · rw [migrateContactJid_of_not_migrates plan hmig]
    exact h
  intro c' hc'
  obtain ⟨hold, c, hc, hu⟩ := chats_migrateContactJid plan hmig hc'
  rw [unreadMessageCount_migrateContactJid plan hmig hown (hguard hmig), ← hu]
  rw [find?_migrateChat] at hc
  split at hc
  · rename_i hj
    rw [hj, (hguard hmig).2.1]
    rw [mergedChat] at hc
    rcases hco : s.chats.find? oldJid with _ | co
    · rw [hco, Option.elim_none] at hc
      rw [hw.unreadMessageCount_eq_zero hco, h.find? hc, Nat.zero_max]
    · rw [hco, Option.elim_some, Option.some_inj] at hc
      rcases hcn : s.chats.find? newJid with _ | cn
      · rw [hcn, Option.elim_none] at hc
        have hunread := h.find? hco
        rw [hw.unreadMessageCount_eq_zero hcn, ← hc, Nat.max_zero]
        exact hunread
      · rw [hcn, Option.elim_some] at hc
        rw [← hc, ← h.find? hco, ← h.find? hcn, Nat.max_comm]
        rfl
  · rename_i hj
    obtain ⟨hmem, hk⟩ := Table.find?_eq_some.mp hc
    have hcj : c.jid = c'.jid := hk
    rw [h.find? hc, ← hcj, (hguard hmig).1 c hmem (hcj ▸ hold) (hcj ▸ hj)]

theorem OwnRead.migrateContactJid (h : OwnRead s) (oldJid newJid : String) :
    OwnRead (migrateContactJid plan s oldJid newJid).1 := by
  by_cases hmig : Migrates s oldJid newJid
  · intro m' hm' hf
    obtain ⟨m₁, hm₁, he⟩ := migrateContactJid_messagesFrom plan hmig m' hm'
    have hmerged := mergedMessages_mergedBy plan (s := s) hmig.1
    have hm₁ := (Table.mem_deleteWhere.mp hm₁).1
    obtain ⟨m, hm, hk, hf⟩ := hmerged.fromMe_origin m₁ hm₁ (he.fromMe ▸ hf)
    exact he.read (hmerged.read m₁ hm₁ m hm hk (h m hm hf))
  · rw [migrateContactJid_of_not_migrates plan hmig]
    exact h

end Migration

/-! ## Runs -/

/-- The steps that keep the counters in step. A replayed conversation brings its own. -/
def UnreadGuard (s : Store) : Op → Prop
  | .insertMessage message chatName isGroup incrementUnread =>
    InsertGuard s (liveInsert message chatName isGroup incrementUnread)
  | .insertMessageWithReadIntent message chatName isGroup receipt =>
    InsertGuard s (focusedInsert message chatName isGroup receipt)
  | .insertHistoryConversation _ => False
  | .deleteMessage chatJid messageId => ∀ m ∈ s.messagesById chatJid messageId, m.unread = false
  | .migrateContactJid oldJid newJid =>
    Migrates s oldJid newJid → MergeGuard s oldJid newJid
  | _ => True

instance (s : Store) : (op : Op) → Decidable (UnreadGuard s op)
  | .insertMessage .. => inferInstanceAs (Decidable (InsertGuard s _))
  | .insertMessageWithReadIntent .. => inferInstanceAs (Decidable (InsertGuard s _))
  | .insertHistoryConversation _ => inferInstanceAs (Decidable False)
  | .deleteMessage chatJid messageId =>
    inferInstanceAs (Decidable (∀ m ∈ s.messagesById chatJid messageId, m.unread = false))
  | .migrateContactJid oldJid newJid =>
    inferInstanceAs (Decidable (Migrates s oldJid newJid → MergeGuard s oldJid newJid))
  | .updateContactName .. | .updateAddressBookName .. | .updateGroupName ..
  | .updateChatPhoneNumber .. | .applyReaction .. | .storePollSecret .. | .applyPollVote ..
  | .updateMessageMedia .. | .storeMediaDownload .. | .rewriteMediaPaths _ | .markRead _
  | .applyReadState .. | .applySyncedReadState .. | .applySelfReadReceipt .. | .reconcileUnread
  | .applyPinAt .. | .applyArchiveAt .. | .applyMuteAt .. | .updateReceipts ..
  | .queueReadReceipts .. | .finishReadBatch _ | .deleteChat .. | .clearChat .. =>
    isTrue trivial

section Runs

variable {s : Store}

/-- Every operation but an insertion and a migration keeps own messages read. -/
theorem OwnRead.of_messagesFrom (h : OwnRead s) {s' : Store} (hfrom : MessagesFrom s s') :
    OwnRead s' := by
  intro m' hm' hf
  obtain ⟨m, hm, he⟩ := hfrom m' hm'
  exact he.read (h m hm (he.fromMe ▸ hf))

theorem OwnRead.apply (h : OwnRead s) {op : Op} (hguard : UnreadGuard s op) :
    OwnRead (s.apply plan op) := by
  cases op with
  | insertMessage => exact h.insertMessageInner plan hguard.1
  | insertMessageWithReadIntent => exact h.insertMessageInner plan hguard.1
  | insertHistoryConversation => cases hguard
  | migrateContactJid oldJid newJid => exact h.migrateContactJid plan oldJid newJid
  | _ =>
    refine h.of_messagesFrom ?_
    exact (apply_messagesOf plan s _ rfl).messagesFrom

theorem UnreadConsistent.apply (h : UnreadConsistent s) (hw : WellFormed s) (hown : OwnRead s)
    {op : Op} (hguard : UnreadGuard s op) : UnreadConsistent (s.apply plan op) := by
  cases hkeeps : op.keepsUnread with
  | true => exact h.of_same (apply_sameUnread plan s hkeeps)
  | false =>
    cases op with
    | insertMessage => exact h.insertMessageInner plan hw hguard
    | insertMessageWithReadIntent => exact h.insertMessageInner plan hw hguard
    | insertHistoryConversation => cases hguard
    | markRead chatJid => exact h.applyReadBoundary plan chatJid _ _
    | applyReadState chatJid read => exact h.applyReadState plan chatJid read
    | applySyncedReadState chatJid => exact h.applySyncedReadState plan chatJid _ _ _ _
    | applySelfReadReceipt chatJid => exact h.applySelfReadReceipt plan chatJid _ _
    | reconcileUnread => exact unreadConsistent_reconcileUnread s
    | deleteChat chatJid timestamp => exact h.deleteChat chatJid timestamp
    | clearChat chatJid timestamp => exact h.clearChat chatJid timestamp
    | deleteMessage => exact h.deleteMessage plan hguard
    | migrateContactJid => exact h.migrateContactJid plan hw hown hguard
    | _ => cases hkeeps

/-- From every well-formed store with right counters, every run whose steps the guard admits
keeps the counters right in every state. -/
theorem unreadConsistent_of_guarded (hs : UnreadConsistent s) (hw : WellFormed s)
    (hown : OwnRead s) (ops : List Op) (hg : Guarded (Store.apply plan) UnreadGuard s ops) :
    ∀ s' ∈ states (Store.apply plan) s ops, UnreadConsistent s' := by
  intro s' hs'
  have hinvariant : UnreadConsistent s' ∧ WellFormed s' ∧ OwnRead s' :=
    invariant_states (I := fun s => UnreadConsistent s ∧ WellFormed s ∧ OwnRead s)
      (fun s op ⟨hs, hw, hown⟩ hop =>
        ⟨hs.apply plan hw hown hop, hw.apply plan op, hown.apply plan hop⟩)
      ⟨hs, hw, hown⟩ hg s' hs'
  exact hinvariant.1

end Runs

/-- The guard admits a run that receives, reads, deletes and migrates. -/
theorem unreadConsistent_of_guarded_migration :
    UnreadConsistent (run (Store.apply .stable) Store.empty
      [.insertMessage (directMessage "1" "a" "hi" 10) "Ann" false true,
        .insertMessage (directMessage "1@lid" "a" "hi" 10) "Ann" false true,
        .insertMessage (directMessage "1" "b" "new" 20) "Ann" false true,
        .markRead "2", .deleteMessage "1" "c", .migrateContactJid "1@lid" "1",
        .clearChat "1" 15]) :=
  unreadConsistent_of_guarded .stable (fun c hc => by cases hc) wellFormed_empty
    (fun m hm => by cases hm) _ (by decide) _ (run_mem_states _ _ _)

/-- Deleting an unread message leaves it in the counter. -/
theorem deleteMessage_keeps_counter :
    ¬∀ s ∈ states (Store.apply .stable) Store.empty
      [.insertMessage (directMessage "1" "a" "hi" 10) "Ann" false true, .deleteMessage "1" "a"],
      UnreadConsistent s := by
  intro h
  have hlast := h _ (run_mem_states _ _ _)
  exact absurd hlast (by unfold UnreadConsistent; decide)

end OmarchyWhatsapp
