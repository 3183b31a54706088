import OmarchyWhatsapp.Database.InsertTheorems

/-!
# The rows that insertions add

A live insertion and a replayed conversation append rows for the messages they deliver and
change no key of a row that is stored. `Absorbs` says so for one message and composes along
a slice.
-/

namespace OmarchyWhatsapp

open Relational

variable (plan : QueryPlan)

/-! ## The keys that insertions add -/

def Store.messageKeys (s : Store) : List (String × String × String) :=
  s.messages.rows.map MessageRow.key

theorem Store.mem_messageKeys {s : Store} {k : String × String × String} :
    k ∈ s.messageKeys ↔ ∃ m ∈ s.messages.rows, m.key = k := List.mem_map

theorem messageKeys_updateWhere {s s' : Store} {p : MessageRow → Bool}
    {f : MessageRow → MessageRow}
    (h : s'.messages.rows = s.messages.rows.map (fun m => if p m then f m else m))
    (hf : ∀ m : MessageRow, (f m).key = m.key) : s'.messageKeys = s.messageKeys := by
  rw [Store.messageKeys, h, List.map_map]
  refine List.map_congr_left fun m _ => ?_
  rw [Function.comp_apply]
  split
  · exact hf m
  · rfl

/-- `s'` has the rows of `s`, and new ones for `arrivals` unless they are suppressed. -/
structure Absorbs (s : Store) (arrivals : List Message) (s' : Store) : Prop where
  appended : ∃ added, added.Sublist (arrivals.map Message.key) ∧
    s'.messageKeys = s.messageKeys ++ added
  stored : ∀ m ∈ arrivals, suppressed s m = false → m.key ∈ s'.messageKeys

/-- The settings and tombstones that suppress messages are the same. -/
structure SameMarks (s s' : Store) : Prop where
  settings : s'.chatSettings = s.chatSettings
  tombstones : s'.messageTombstones = s.messageTombstones

section Absorbs

variable {s s' s'' : Store} {arrivals arrivals' : List Message}

theorem Absorbs.of_keys (h : s'.messageKeys = s.messageKeys) : Absorbs s [] s' :=
  ⟨⟨[], List.nil_sublist _, h.trans (List.append_nil _).symm⟩, fun m hm => by cases hm⟩

theorem Absorbs.trans (h : Absorbs s arrivals s') (hmarks : SameMarks s s')
    (h' : Absorbs s' arrivals' s'') : Absorbs s (arrivals ++ arrivals') s'' := by
  obtain ⟨added, hsub, hkeys⟩ := h.appended
  obtain ⟨added', hsub', hkeys'⟩ := h'.appended
  refine ⟨⟨added ++ added', ?_, ?_⟩, fun m hm hs => ?_⟩
  · rw [List.map_append]
    exact hsub.append hsub'
  · rw [hkeys', hkeys, List.append_assoc]
  · rcases List.mem_append.mp hm with hm | hm
    · rw [hkeys']
      exact List.mem_append_left _ (h.stored m hm hs)
    · exact h'.stored m hm (suppressed_congr hmarks.settings hmarks.tombstones m ▸ hs)

theorem Absorbs.then_keys (h : Absorbs s arrivals s') (hkeys : s''.messageKeys = s'.messageKeys) :
    Absorbs s arrivals s'' := by
  refine ⟨?_, fun m hm hs => hkeys ▸ h.stored m hm hs⟩
  rw [hkeys]
  exact h.appended

theorem Absorbs.of_same (hkeys : s'.messageKeys = s.messageKeys) (hmarks : SameMarks s s')
    (h : Absorbs s' arrivals s'') : Absorbs s arrivals s'' :=
  (Absorbs.of_keys hkeys).trans hmarks h

theorem Absorbs.mono (h : Absorbs s arrivals s') {k : String × String × String}
    (hk : k ∈ s.messageKeys) : k ∈ s'.messageKeys := by
  obtain ⟨added, -, hkeys⟩ := h.appended
  exact hkeys ▸ List.mem_append_left _ hk

theorem Absorbs.mem (h : Absorbs s arrivals s') {k : String × String × String}
    (hk : k ∈ s'.messageKeys) : k ∈ s.messageKeys ∨ ∃ m ∈ arrivals, m.key = k := by
  obtain ⟨added, hsub, hkeys⟩ := h.appended
  rw [hkeys, List.mem_append] at hk
  exact hk.imp_right fun hk => List.mem_map.mp (hsub.subset hk)

/-- Every message of the chat has its key in `K`. -/
def Fits (K : Finset (String × String × String)) (s : Store) (jid : String) : Prop :=
  ∀ k ∈ s.messageKeys, k.1 = jid → k ∈ K

variable {K : Finset (String × String × String)} {jid : String}

theorem Fits.length_le (h : Fits K s jid) : (s.chatMessages jid).length ≤ K.card := by
  have hnodup : ((s.chatMessages jid).map MessageRow.key).Nodup :=
    (List.filter_sublist.map MessageRow.key).nodup s.messages.nodup
  rw [← List.length_map MessageRow.key, ← List.toFinset_card_of_nodup hnodup]
  refine Finset.card_le_card fun k hk => ?_
  obtain ⟨m, hm, rfl⟩ := List.mem_map.mp (List.mem_toFinset.mp hk)
  obtain ⟨hm, hc⟩ := Store.mem_chatMessages.mp hm
  exact h _ (Store.mem_messageKeys.mpr ⟨m, hm, rfl⟩) hc

theorem Absorbs.fits (h : Absorbs s arrivals s') (hs : Fits K s jid)
    (ha : ∀ m ∈ arrivals, m.key ∈ K) : Fits K s' jid := by
  intro k hk hj
  rcases h.mem hk with hk | ⟨m, hm, rfl⟩
  · exact hs k hk hj
  · exact ha m hm

/-- Pruning drops no message of a chat that never exceeds the retention limit. -/
theorem Absorbs.prune (h : Absorbs s arrivals s') (hK : K.card ≤ retention) (hs : Fits K s jid)
    (ha : ∀ m ∈ arrivals, m.key ∈ K) : Absorbs s arrivals (pruneChatHistory plan s' jid) := by
  refine h.then_keys ?_
  have hlength := (h.fits hs ha).length_le.trans hK
  rw [Store.messageKeys, (pruneChatHistory_frame plan s' jid).1,
    keepNewest_of_length_le plan hlength, Store.messageKeys]

end Absorbs

/-! ## Insertions -/

section Insertions

variable (s : Store)

theorem insertMessageInto_absorbs (insert : MessageInsert) :
    Absorbs s [insert.message] (insertMessageInto s insert).1 := by
  by_cases hs : suppressed s insert.message = true
  · rw [insertMessageInto_of_suppressed hs]
    refine ⟨⟨[], List.nil_sublist _, (List.append_nil _).symm⟩, fun m hm hm' => ?_⟩
    rw [List.mem_singleton.mp hm, hs] at hm'
    cases hm'
  · rw [Bool.not_eq_true] at hs
    have hkey : (proposedMessage s insert).key = insert.message.key := rfl
    have hkeys : (insertMessageInto s insert).1.messageKeys = s.messageKeys ++
        (if s.messages.find? insert.message.key = none then [insert.message.key] else []) := by
      rw [Store.messageKeys, insertMessageInto_messages hs, Table.rows_insertOrIgnore, hkey]
      split
      · rw [List.map_append, List.map_singleton, hkey, Store.messageKeys]
      · rw [List.append_nil, Store.messageKeys]
    constructor
    · refine ⟨_, ?_, hkeys⟩
      split
      · exact List.Sublist.refl _
      · exact List.nil_sublist _
    · intro m hm _
      rw [List.mem_singleton.mp hm, hkeys]
      rcases hfind : s.messages.find? insert.message.key with _ | row
      · simp
      · obtain ⟨hrow, hk⟩ := Table.find?_eq_some.mp hfind
        exact List.mem_append_left _ (Store.mem_messageKeys.mpr ⟨row, hrow, hk⟩)

theorem updateContactNameInto_keys (jid name : String) (source : ℕ) :
    (updateContactNameInto s jid name source).1.messageKeys = s.messageKeys := by
  unfold updateContactNameInto
  split
  · rfl
  · split
    · rfl
    · exact messageKeys_updateWhere rfl (fun _ => rfl)

theorem updateContactNameInto_sameMarks (jid name : String) (source : ℕ) :
    SameMarks s (updateContactNameInto s jid name source).1 := ⟨by simp, by simp⟩

theorem updateMessageMediaInto_keys (chatJid messageId : String) (media : MessageMedia) :
    (updateMessageMediaInto plan s chatJid messageId media).1.messageKeys = s.messageKeys :=
  messageKeys_updateWhere rfl (fun _ => rfl)

theorem storeMediaDownload_keys (chatJid messageId : String) (payload : List UInt8) :
    (storeMediaDownload s chatJid messageId payload).1.messageKeys = s.messageKeys :=
  messageKeys_updateWhere rfl (fun _ => rfl)

theorem learnSenderName_keys (message : Message) :
    (learnSenderName s message).messageKeys = s.messageKeys := by
  unfold learnSenderName
  split
  · exact updateContactNameInto_keys s _ _ _
  · rfl

theorem insertHistoryMessageInto_absorbs (chat : Chat) (message : Message) :
    Absorbs s [message] (insertHistoryMessageInto plan s chat message).1 := by
  have hmarks : SameMarks s (learnSenderName s message) := ⟨by simp, by simp⟩
  have hinsert : Absorbs s [message]
      (insertMessageInto (learnSenderName s message) (historyInsert chat message)).1 :=
    .of_same (learnSenderName_keys s message) hmarks
      (insertMessageInto_absorbs _ (historyInsert chat message))
  unfold insertHistoryMessageInto
  dsimp only
  split
  · exact hinsert
  · split
    · exact hinsert
    · exact hinsert.then_keys (updateMessageMediaInto_keys plan _ _ _ _)

theorem insertHistoryMessages_absorbs (chat : Chat) (messages : List Message) :
    Absorbs s messages (insertHistoryMessages plan s chat messages).1 := by
  unfold insertHistoryMessages
  generalize false = changed
  induction messages generalizing s changed with
  | nil => exact .of_keys rfl
  | cons message messages ih =>
    rw [List.foldl_cons, ← List.singleton_append]
    refine (insertHistoryMessageInto_absorbs plan s chat message).trans ⟨?_, ?_⟩ (ih _ _)
    · simp
    · simp

variable {K : Finset (String × String × String)}

theorem insertHistoryConversation_absorbs (chat : Chat) (messages : List Message)
    (hK : K.card ≤ retention) (hs : Fits K s chat.jid) (ha : ∀ m ∈ messages, m.key ∈ K) :
    Absorbs s messages (insertHistoryConversation plan s chat messages).1 := by
  have hchat : (insertHistoryChatInto s chat).messageKeys = s.messageKeys := by
    rw [Store.messageKeys, (insertHistoryChatInto_frame s chat).1, Store.messageKeys]
  have hmarks : SameMarks s (insertHistoryChatInto s chat) := ⟨by simp, by simp⟩
  exact (Absorbs.of_same hchat hmarks (insertHistoryMessages_absorbs plan _ chat messages)).prune
    plan hK hs ha

end Insertions

end OmarchyWhatsapp
