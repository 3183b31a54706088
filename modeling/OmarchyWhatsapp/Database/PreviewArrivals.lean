import OmarchyWhatsapp.Database.PreviewTheorems

/-!
# Previews and arriving messages

A live message is shown at once. A replayed conversation announces the time of its newest
message first and shows a message when it is stored, so the preview only leads the messages
until the loop is through. The guards name the deliveries after which a preview is right.
-/

namespace OmarchyWhatsapp

open Relational

variable (plan : QueryPlan)

/-! ## One insertion -/

/-- The preview of a chat row after a message arrived. -/
def arrivalTail (m : Message) (p : String × ℤ) : String × ℤ :=
  touch Entry.timestamp Entry.text p m.entry

section Insertion

variable {s s' : Store} {insert : MessageInsert}

theorem find?_eq_none_iff_messageKeys {k : String × String × String} :
    s.messages.find? k = none ↔ k ∉ s.messageKeys := by
  rw [Table.find?_eq_none, Store.mem_messageKeys]
  push Not
  rfl

theorem tail_insertMessageInto (h : suppressed s insert.message = false) (jid : String) :
    (insertMessageInto s insert).1.tail jid
      = if jid = insert.message.chatJid then
          some ((s.tail jid).elim (insert.message.text, insert.message.timestamp)
            (arrivalTail insert.message))
        else s.tail jid := by
  rw [Store.tail, find?_chats_insertMessageInto h, Store.tail]
  by_cases hj : jid = insert.message.chatJid
  · rw [if_pos hj, if_pos hj]
    rcases s.chats.find? jid with _ | c <;> rfl
  · rw [if_neg hj, if_neg hj]

theorem entries_insertMessageInto (h : suppressed s insert.message = false) (jid : String) :
    (insertMessageInto s insert).1.entries jid
      = s.entries jid ++
        (if jid = insert.message.chatJid ∧ s.messages.find? insert.message.key = none
          then [insert.message.entry] else []) := by
  rw [Store.entries, chatMessages_insertMessageInto h, List.map_append, Store.entries]
  congr 1
  split <;> rfl

/-- A stored message has an entry. -/
theorem entries_ne_nil_of_stored {m : Message} (h : s.messages.find? m.key ≠ none) :
    s.entries m.chatJid ≠ [] := by
  obtain ⟨r, hr⟩ := Option.ne_none_iff_exists'.mp h
  obtain ⟨hmem, hkey⟩ := Table.find?_eq_some.mp hr
  have hchat : r.chatJid = m.chatJid := congrArg Prod.fst hkey
  have hentry : r.entry ∈ s.entries m.chatJid :=
    List.mem_map_of_mem (Store.mem_chatMessages.mpr ⟨hmem, hchat⟩)
  exact List.ne_nil_of_mem hentry

/-- The message is shown where it is the newest one: a new message of a chat that has no other
is as late as the chat row says, and a message that is stored already is not shown again. -/
def ShownRight (s : Store) (m : Message) : Prop :=
  ∀ p ∈ s.tail m.chatJid,
    (s.messages.find? m.key = none → s.entries m.chatJid = [] → p.2 ≤ m.timestamp) ∧
    (s.messages.find? m.key ≠ none →
      m.timestamp < p.2 ∨ (m.timestamp = p.2 ∧ m.text = p.1))

instance (s : Store) (m : Message) : Decidable (ShownRight s m) :=
  inferInstanceAs (Decidable (∀ _ ∈ s.tail m.chatJid, _))

theorem PreviewsShown.insertMessageInto (h : PreviewsShown s) (hw : WellFormed s)
    (haccepted : suppressed s insert.message = false) (hright : ShownRight s insert.message) :
    PreviewsShown (insertMessageInto s insert).1 := by
  have htail := tail_insertMessageInto haccepted
  have hentries := entries_insertMessageInto haccepted
  refine h.of_chat insert.message.chatJid (fun jid hj => (htail jid).trans (if_neg hj))
    (fun jid hj => ?_) fun p' hp' => ?_
  · rw [hentries, if_neg (fun hc => hj hc.1), List.append_nil]
  · rw [htail, if_pos rfl, Option.mem_def, Option.some_inj] at hp'
    rw [hentries, ← hp']
    by_cases hnew : s.messages.find? insert.message.key = none
    · rw [if_pos ⟨rfl, hnew⟩]
      rcases htail₀ : s.tail insert.message.chatJid with _ | p
      · rw [hw.entries_eq_nil htail₀]
        exact shows_singleton insert.message.entry
      · exact (h _ p htail₀).touch insert.message.entry ((hright p htail₀).1 hnew)
    · -- the preview shows what it showed
      rw [if_neg (fun hc => hnew hc.2), List.append_nil]
      rcases htail₀ : s.tail insert.message.chatJid with _ | p
      · exact absurd (hw.entries_eq_nil htail₀) (entries_ne_nil_of_stored hnew)
      · have hsame : arrivalTail insert.message p = p := touch_eq_self ((hright p htail₀).2 hnew)
        rw [Option.elim_some, hsame]
        exact h _ p htail₀

/-- Retention keeps the previews of a chat that is not crowded by its newest messages. -/
theorem PreviewsShown.pruneChatHistory {jid : String} {arrivals : List Message}
    (h' : PreviewsShown s') (hof : MessagesOf s arrivals s') (hu : Uncrowded s jid arrivals)
    (hstored : ∀ m ∈ s.chatMessages jid, ∀ p ∈ s'.tail jid, m.timestamp ≤ p.2)
    (harrived : ∀ m ∈ arrivals, suppressed s m = false → ∀ p ∈ s'.tail jid, m.timestamp ≤ p.2)
    (hrow : s'.tail jid = none → s'.entries jid = []) :
    PreviewsShown (pruneChatHistory plan s' jid) := by
  have htail : ∀ j, (OmarchyWhatsapp.pruneChatHistory plan s' jid).tail j = s'.tail j :=
    fun j => tail_of_eq rfl j
  refine h'.of_newest htail fun j => ?_
  refine newestMessage_keepNewest plan (fun r hr => ?_) j
  refine withinRetention_of_uncrowded hof hu hr fun x hx => ?_
  obtain ⟨p, hp⟩ : ∃ p, s'.tail jid = some p := by
    by_contra hnone
    have hnil := hrow (Option.eq_none_iff_forall_ne_some.mpr fun p hp => hnone ⟨p, hp⟩)
    have hentry : r.entry ∈ s'.entries jid := List.mem_map_of_mem (latest_mem _ hr)
    rw [hnil] at hentry
    cases hentry
  have hshown := showsEntries_iff.mp (h' jid p hp) r hr
  have htime : p.2 = r.timestamp := congrArg Prod.snd hshown
  rw [← htime]
  rcases List.mem_append.mp hx with hx | hx
  · obtain ⟨m, hm, rfl⟩ := List.mem_map.mp hx
    exact hstored m hm p hp
  · obtain ⟨m, hm, rfl⟩ := List.mem_map.mp hx
    rw [List.mem_filter] at hm
    exact harrived m hm.1 (by simpa using hm.2) p hp

/-- The deliveries of a live message after which the previews are right. -/
def ArrivalGuard (s : Store) (m : Message) : Prop :=
  Uncrowded s m.chatJid [m] ∧ (suppressed s m = true ∨ ShownRight s m)

instance (s : Store) (m : Message) : Decidable (ArrivalGuard s m) :=
  inferInstanceAs (Decidable (_ ∧ _))

theorem PreviewsShown.insertMessageInner (h : PreviewsShown s) (hw : WellFormed s)
    (hguard : ArrivalGuard s insert.message) :
    PreviewsShown (insertMessageInner plan s insert).1 := by
  obtain ⟨hu, hguard⟩ := hguard
  have hof := insertMessageInto_messagesOf s insert
  by_cases hs : suppressed s insert.message = true
  · -- a suppressed message is not stored, and the messages that are stay
    rw [OmarchyWhatsapp.insertMessageInner, insertMessageInto_of_suppressed hs]
    rw [insertMessageInto_of_suppressed hs] at hof
    refine h.pruneChatHistory plan hof hu (fun m hm p hp => ?_) (fun m hm haccepted => ?_)
      hw.entries_eq_nil
    · exact (h _ p hp).leads.le (List.mem_map_of_mem hm)
    · rw [List.mem_singleton.mp hm, hs] at haccepted
      cases haccepted
  · rw [Bool.not_eq_true] at hs
    have hright := hguard.resolve_left (by simp [hs])
    have hshown := h.insertMessageInto hw hs hright
    have htail := tail_insertMessageInto hs insert.message.chatJid
    rw [if_pos rfl] at htail
    refine hshown.pruneChatHistory plan hof hu (fun m hm p hp => ?_) (fun m hm _ p hp => ?_)
      fun hnone => ?_
    · have hstored := entries_insertMessageInto hs insert.message.chatJid
      refine (hshown _ p hp).leads.le (r := m.entry) ?_
      rw [hstored]
      exact List.mem_append_left _ (List.mem_map_of_mem hm)
    · rw [List.mem_singleton.mp hm]
      rw [htail, Option.mem_def, Option.some_inj] at hp
      rw [← hp]
      rcases s.tail insert.message.chatJid with _ | p₀
      · exact le_rfl
      · exact le_max_right _ _
    · rw [htail] at hnone
      cases hnone

end Insertion

/-! ## A replayed message -/

/-- The message carries a GIF. -/
def carriesGif (m : Message) : Bool := m.media.any isGif

/-- The preview of a chat row after a replayed message reached the chat row. -/
def replayTail (s : Store) (m : Message) (p : String × ℤ) : String × ℤ :=
  if suppressed s m then p else arrivalTail m p

/-- A replayed message is new, or it is not later than the preview and leaves the text of a
newest message in the preview, where a GIF renames a placeholder. -/
def ReplayGuard (s : Store) (m : Message) : Prop :=
  (suppressed s m = false ∧ s.messages.find? m.key = none) ∨
    ∀ p ∈ s.tail m.chatJid, (suppressed s m = true ∨ m.timestamp ≤ p.2) ∧
      (∀ r ∈ latest Entry.timestamp (s.entries m.chatJid), r.timestamp = p.2 →
        asGif (carriesGif m && r.id = m.id) (replayTail s m p).1
          = asGif (carriesGif m && r.id = m.id) r.text) ∧
      GifTies (s.entries m.chatJid) (replayTail s m p) (carriesGif m) m.id

instance (s : Store) (m : Message) : Decidable (ReplayGuard s m) :=
  inferInstanceAs (Decidable (_ ∨ ∀ _ ∈ s.tail m.chatJid, _))

section Replay

variable {s s' s'' : Store} {jid : String}

/-- A chat without a row has no messages, and a preview leads the messages of its chat. -/
structure PreviewLeads (s : Store) (jid : String) : Prop where
  row : s.tail jid = none → s.entries jid = []
  leads : ∀ p ∈ s.tail jid, LeadsEntries (s.entries jid) p

/-- What a part of a replayed conversation may do to its chat: the preview grows with the
accepted messages, but not past the messages that are stored. -/
structure Replays (jid : String) (s : Store) (arrivals : List Message) (s' : Store) : Prop where
  tail : ∀ j, j ≠ jid → s'.tail j = s.tail j
  entries : ∀ j, j ≠ jid → s'.entries j = s.entries j
  suppressed : ∀ m, suppressed s' m = suppressed s m
  ahead : ∀ p ∈ s.tail jid, ∃ p' ∈ s'.tail jid, p.2 ≤ p'.2
  accepted : ∀ m ∈ arrivals, OmarchyWhatsapp.suppressed s m = false →
    ∃ p' ∈ s'.tail jid, m.timestamp ≤ p'.2
  bounded : ∀ p' ∈ s'.tail jid, (∃ p ∈ s.tail jid, p'.2 ≤ p.2) ∨
    ∃ e ∈ s'.entries jid, p'.2 ≤ e.timestamp
  kept : ∀ e ∈ s.entries jid, ∃ e' ∈ s'.entries jid, e'.timestamp = e.timestamp
  fresh : ∀ k t, (∀ m ∈ arrivals, m.key = k → t ≤ m.timestamp) → k ∈ s'.messageKeys →
    k ∈ s.messageKeys ∨ ∃ e ∈ s'.entries jid, t ≤ e.timestamp

theorem Replays.refl (s : Store) : Replays jid s [] s where
  tail _ _ := rfl
  entries _ _ := rfl
  suppressed _ := rfl
  ahead p hp := ⟨p, hp, le_rfl⟩
  accepted m hm := by cases hm
  bounded p hp := Or.inl ⟨p, hp, le_rfl⟩
  kept e he := ⟨e, he, rfl⟩
  fresh k t _ hk := Or.inl hk

theorem Replays.trans {arrivals arrivals' : List Message} (h : Replays jid s arrivals s')
    (h' : Replays jid s' arrivals' s'') : Replays jid s (arrivals ++ arrivals') s'' where
  tail j hj := (h'.tail j hj).trans (h.tail j hj)
  entries j hj := (h'.entries j hj).trans (h.entries j hj)
  suppressed m := (h'.suppressed m).trans (h.suppressed m)
  ahead p hp := by
    obtain ⟨p', hp', hle⟩ := h.ahead p hp
    obtain ⟨p'', hp'', hle'⟩ := h'.ahead p' hp'
    exact ⟨p'', hp'', hle.trans hle'⟩
  accepted m hm haccepted := by
    rcases List.mem_append.mp hm with hm | hm
    · obtain ⟨p', hp', hle⟩ := h.accepted m hm haccepted
      obtain ⟨p'', hp'', hle'⟩ := h'.ahead p' hp'
      exact ⟨p'', hp'', hle.trans hle'⟩
    · exact h'.accepted m hm (h.suppressed m ▸ haccepted)
  bounded p'' hp'' := by
    rcases h'.bounded p'' hp'' with ⟨p', hp', hle⟩ | hentry
    · rcases h.bounded p' hp' with ⟨p, hp, hle'⟩ | ⟨e, he, hle'⟩
      · exact Or.inl ⟨p, hp, hle.trans hle'⟩
      · obtain ⟨e', he', htime⟩ := h'.kept e he
        exact Or.inr ⟨e', he', (hle.trans hle').trans htime.ge⟩
    · exact Or.inr hentry
  kept e he := by
    obtain ⟨e', he', htime⟩ := h.kept e he
    obtain ⟨e'', he'', htime'⟩ := h'.kept e' he'
    exact ⟨e'', he'', htime'.trans htime⟩
  fresh k t hlate hk := by
    rcases h'.fresh k t (fun m hm => hlate m (List.mem_append_right _ hm)) hk with hk | hentry
    · rcases h.fresh k t (fun m hm => hlate m (List.mem_append_left _ hm)) hk with
        hk | ⟨e, he, hle⟩
      · exact Or.inl hk
      · obtain ⟨e', he', htime⟩ := h'.kept e he
        exact Or.inr ⟨e', he', hle.trans htime.ge⟩
    · exact Or.inr hentry

theorem learnSenderName_samePreviews (s : Store) (m : Message) :
    SamePreviews s (learnSenderName s m) := by
  unfold learnSenderName
  split
  · exact updateContactNameInto_samePreviews s _ _ _
  · exact .of_eq rfl rfl

theorem suppressed_learnSenderName (s : Store) (m x : Message) :
    suppressed (learnSenderName s m) x = suppressed s x := suppressed_congr (by simp) (by simp) x

theorem unstored_learnSenderName {m : Message} {k : String × String × String} :
    (learnSenderName s m).messages.find? k = none ↔ s.messages.find? k = none := by
  rw [find?_eq_none_iff_messageKeys, find?_eq_none_iff_messageKeys, learnSenderName_keys]

/-- A message that is new when it is replayed. -/
theorem insertHistoryMessageInto_of_new (chat : Chat) {m : Message}
    (hs : suppressed s m = false) (hnew : s.messages.find? m.key = none) :
    (∀ j, (insertHistoryMessageInto plan s chat m).1.tail j
      = if j = m.chatJid then some ((s.tail j).elim (m.text, m.timestamp) (arrivalTail m))
        else s.tail j) ∧
    ∀ j, (insertHistoryMessageInto plan s chat m).1.entries j
      = s.entries j ++ (if j = m.chatJid then [m.entry] else []) := by
  have hs' : suppressed (learnSenderName s m) (historyInsert chat m).message = false :=
    (suppressed_learnSenderName s m m).trans hs
  have hnew' : (learnSenderName s m).messages.find? (historyInsert chat m).message.key = none :=
    unstored_learnSenderName.mpr hnew
  have hinserted : (insertMessageInto (learnSenderName s m) (historyInsert chat m)).2 = true := by
    rw [insertMessageInto_inserted, hs', hnew']
    rfl
  have hresult : (insertHistoryMessageInto plan s chat m).1
      = (insertMessageInto (learnSenderName s m) (historyInsert chat m)).1 := by
    rw [insertHistoryMessageInto]
    rw [if_pos hinserted]
  rw [hresult]
  refine ⟨fun j => ?_, fun j => ?_⟩
  · rw [tail_insertMessageInto hs', (learnSenderName_samePreviews s m).tail]
    rfl
  · rw [entries_insertMessageInto hs', (learnSenderName_samePreviews s m).entries, hnew']
    simp only [and_true]
    rfl

/-- The chat row and the entries after a message that is not new reached the chat row. -/
theorem insertMessageInto_of_known (chat : Chat) {m : Message} (h : PreviewLeads s m.chatJid)
    (hknown : ¬(suppressed s m = false ∧ s.messages.find? m.key = none)) :
    (insertMessageInto (learnSenderName s m) (historyInsert chat m)).2 = false ∧
    (∀ j, (insertMessageInto (learnSenderName s m) (historyInsert chat m)).1.tail j
      = if j = m.chatJid then (s.tail j).map (replayTail s m) else s.tail j) ∧
    ∀ j, (insertMessageInto (learnSenderName s m) (historyInsert chat m)).1.entries j
      = s.entries j := by
  have hsame := learnSenderName_samePreviews s m
  have hmessage : (historyInsert chat m).message = m := rfl
  by_cases hs : suppressed s m = true
  · have hs' : suppressed (learnSenderName s m) (historyInsert chat m).message = true :=
      (suppressed_learnSenderName s m m).trans hs
    rw [insertMessageInto_of_suppressed hs']
    refine ⟨rfl, fun j => ?_, hsame.entries⟩
    have hid : replayTail s m = id := by
      funext p
      rw [replayTail, if_pos hs, id]
    rw [hid, Option.map_id, id, ite_self, hsame.tail]
  · rw [Bool.not_eq_true] at hs
    have hs' : suppressed (learnSenderName s m) (historyInsert chat m).message = false :=
      (suppressed_learnSenderName s m m).trans hs
    have hstored : s.messages.find? m.key ≠ none := fun hnew => hknown ⟨hs, hnew⟩
    have hstored' : (learnSenderName s m).messages.find? m.key ≠ none := fun hnew =>
      hstored (unstored_learnSenderName.mp hnew)
    refine ⟨?_, fun j => ?_, fun j => ?_⟩
    · rw [insertMessageInto_inserted, hs', hmessage]
      rcases hrow : (learnSenderName s m).messages.find? m.key with _ | r
      · exact absurd hrow hstored'
      · rfl
    · rw [tail_insertMessageInto hs', hsame.tail, hmessage]
      split
      · rename_i hj
        subst hj
        rcases htail : s.tail m.chatJid with _ | p
        · exact absurd (h.row htail) (entries_ne_nil_of_stored hstored)
        · rw [Option.elim_some, Option.map_some, replayTail, if_neg (by simp [hs])]
      · rfl
    · rw [entries_insertMessageInto hs', hsame.entries, hmessage,
        if_neg (fun hc => hstored' hc.2), List.append_nil]

/-- A message that is not new completes the media of the stored one. -/
theorem insertHistoryMessageInto_of_known (chat : Chat) {m : Message}
    (h : PreviewLeads s m.chatJid)
    (hknown : ¬(suppressed s m = false ∧ s.messages.find? m.key = none)) :
    ∃ hit : Bool,
      (∀ j, (insertHistoryMessageInto plan s chat m).1.tail j
        = if j = m.chatJid then (s.tail j).map (fun p =>
            (asGif (carriesGif m && hit) (replayTail s m p).1, (replayTail s m p).2))
          else s.tail j) ∧
      (∀ j, (insertHistoryMessageInto plan s chat m).1.entries j
        = if j = m.chatJid then (s.entries j).map (relabelEntry (carriesGif m) m.id)
          else s.entries j) ∧
      (carriesGif m = true → ∀ r ∈ latest Entry.timestamp (s.entries m.chatJid),
        ∃ e ∈ s.entries m.chatJid, e.timestamp = r.timestamp ∧ hit = decide (e.id = m.id)) := by
  obtain ⟨hinserted, htail, hentries⟩ := insertMessageInto_of_known chat h hknown
  have hresult : (insertHistoryMessageInto plan s chat m).1 = m.media.elim
      (insertMessageInto (learnSenderName s m) (historyInsert chat m)).1
      (fun media => (updateMessageMediaInto plan
        (insertMessageInto (learnSenderName s m) (historyInsert chat m)).1
        m.chatJid m.id media).1) := by
    rw [insertHistoryMessageInto]
    rw [if_neg (by simp [hinserted])]
    cases m.media <;> rfl
  rcases hmedia : m.media with _ | media
  · have hgif : carriesGif m = false := by rw [carriesGif, hmedia]; rfl
    rw [hmedia, Option.elim_none] at hresult
    refine ⟨false, fun j => ?_, fun j => ?_, fun hyes => ?_⟩
    · rw [hresult, htail, hgif]
      rfl
    · rw [hresult, hentries, hgif, map_relabelEntry_false, ite_self]
    · rw [hgif] at hyes
      cases hyes
  · have hgif : carriesGif m = isGif media := by rw [carriesGif, hmedia]; rfl
    rw [hmedia, Option.elim_some] at hresult
    obtain ⟨hit, htail', hhit⟩ := tail_updateMessageMediaInto plan
      (s := (insertMessageInto (learnSenderName s m) (historyInsert chat m)).1)
      m.chatJid m.id media
    refine ⟨hit, fun j => ?_, fun j => ?_, fun _ r hr => ?_⟩
    · rw [hresult, htail', htail, hgif]
      split
      · rw [Option.map_map]
        rfl
      · rfl
    · rw [hresult, entries_updateMessageMediaInto, hentries, hgif]
    · rw [hentries] at hhit
      exact hhit r hr

theorem suppressed_insertHistoryMessageInto (s : Store) (chat : Chat) (m x : Message) :
    suppressed (insertHistoryMessageInto plan s chat m).1 x = suppressed s x :=
  suppressed_congr (by simp) (by simp) x

/-- The keys of the messages stay when a message is dropped. -/
theorem messageKeys_insertHistoryMessageInto_of_suppressed (chat : Chat) {m : Message}
    (hs : suppressed s m = true) :
    (insertHistoryMessageInto plan s chat m).1.messageKeys = s.messageKeys := by
  have hs' : suppressed (learnSenderName s m) (historyInsert chat m).message = true :=
    (suppressed_learnSenderName s m m).trans hs
  rw [insertHistoryMessageInto, insertMessageInto_of_suppressed hs', if_neg Bool.false_ne_true]
  split
  · exact learnSenderName_keys s m
  · exact (updateMessageMediaInto_keys plan _ _ _ _).trans (learnSenderName_keys s m)

/-- One message of a slice. -/
theorem PreviewLeads.replay_new (h : PreviewLeads s jid) (chat : Chat) {m : Message}
    (hchat : m.chatJid = jid) (hs : suppressed s m = false)
    (hnew : s.messages.find? m.key = none) :
    PreviewLeads (insertHistoryMessageInto plan s chat m).1 jid ∧
      Replays jid s [m] (insertHistoryMessageInto plan s chat m).1 := by
  subst hchat
  obtain ⟨htail, hentries⟩ := insertHistoryMessageInto_of_new plan chat hs hnew
  have hown := htail m.chatJid
  have hrows := hentries m.chatJid
  rw [if_pos rfl] at hown hrows
  have hentry : m.entry ∈ (insertHistoryMessageInto plan s chat m).1.entries m.chatJid := by
    rw [hrows]
    exact List.mem_append_right _ (List.mem_singleton_self _)
  refine ⟨⟨fun hnone => ?_, fun p' hp' => ?_⟩, ?_⟩
  · rw [hown] at hnone
    cases hnone
  · rw [hown, Option.mem_def, Option.some_inj] at hp'
    rw [hrows, ← hp']
    rcases hp : s.tail m.chatJid with _ | p
    · rw [h.row hp]
      exact (shows_singleton m.entry).leads
    · exact (h.leads p hp).touch m.entry
  constructor
  · exact fun j hj => (htail j).trans (if_neg hj)
  · intro j hj
    rw [hentries, if_neg hj, List.append_nil]
  · exact suppressed_insertHistoryMessageInto plan s chat m
  · intro p hp
    rw [hown, Option.mem_def.mp hp]
    exact ⟨_, rfl, le_max_left _ _⟩
  · intro x hx _
    rw [List.mem_singleton.mp hx, hown]
    refine ⟨_, rfl, ?_⟩
    rcases s.tail m.chatJid with _ | p
    · exact le_rfl
    · exact le_max_right _ _
  · intro p' hp'
    rw [hown, Option.mem_def, Option.some_inj] at hp'
    rcases hp : s.tail m.chatJid with _ | p
    · rw [hp] at hp'
      exact Or.inr ⟨m.entry, hentry, (congrArg Prod.snd hp').ge⟩
    · rw [hp] at hp'
      have htime : p'.2 = max p.2 m.timestamp := (congrArg Prod.snd hp').symm
      rcases le_total m.timestamp p.2 with hle | hle
      · exact Or.inl ⟨p, rfl, by rw [htime, max_eq_left hle]⟩
      · exact Or.inr ⟨m.entry, hentry, by rw [htime, max_eq_right hle]; exact le_rfl⟩
  · intro e he
    exact ⟨e, hrows ▸ List.mem_append_left _ he, rfl⟩
  · intro k t hlate hk
    rcases (insertHistoryMessageInto_absorbs plan s chat m).mem hk with hk | ⟨x, hx, hxk⟩
    · exact Or.inl hk
    · rw [List.mem_singleton.mp hx] at hxk
      exact Or.inr ⟨m.entry, hentry, hlate m (List.mem_singleton_self m) hxk⟩

theorem PreviewLeads.replay_known (h : PreviewLeads s jid) (chat : Chat) {m : Message}
    (hchat : m.chatJid = jid)
    (hknown : ¬(suppressed s m = false ∧ s.messages.find? m.key = none))
    (hguard : ReplayGuard s m) :
    PreviewLeads (insertHistoryMessageInto plan s chat m).1 jid ∧
      Replays jid s [m] (insertHistoryMessageInto plan s chat m).1 := by
  subst hchat
  have hguard := hguard.resolve_left hknown
  obtain ⟨hit, htail, hentries, hhit⟩ := insertHistoryMessageInto_of_known plan chat h hknown
  have hown := htail m.chatJid
  have hrows := hentries m.chatJid
  rw [if_pos rfl] at hown hrows
  -- the time of the preview stays
  have htime : ∀ p ∈ s.tail m.chatJid, (replayTail s m p).2 = p.2 := by
    intro p hp
    rw [replayTail]
    split
    · rfl
    · rename_i hs
      exact max_eq_left ((hguard p hp).1.resolve_left hs)
  have hkept : ∀ e ∈ s.entries m.chatJid, ∃ e' ∈
      (insertHistoryMessageInto plan s chat m).1.entries m.chatJid,
      e'.timestamp = e.timestamp := fun e he =>
    ⟨relabelEntry (carriesGif m) m.id e, hrows ▸ List.mem_map_of_mem he, rfl⟩
  refine ⟨⟨fun hnone => ?_, fun p' hp' => ?_⟩, ?_⟩
  · rw [hown, Option.map_eq_none_iff] at hnone
    rw [hrows, h.row hnone]
    rfl
  · rw [hown, Option.mem_def, Option.map_eq_some_iff] at hp'
    obtain ⟨p, hp, rfl⟩ := hp'
    obtain ⟨-, htext, hties⟩ := hguard p hp
    rw [hrows]
    refine leads_relabelEntry (fun r hr => ?_) (fun r hr hrt => ?_) hties hhit
    · rw [htime p hp]
      exact (h.leads p hp r hr).1
    · exact htext r hr (hrt.trans (htime p hp))
  constructor
  · exact fun j hj => (htail j).trans (if_neg hj)
  · exact fun j hj => (hentries j).trans (if_neg hj)
  · exact suppressed_insertHistoryMessageInto plan s chat m
  · intro p hp
    rw [hown, Option.mem_def.mp hp]
    exact ⟨_, rfl, (htime p hp).ge⟩
  · intro x hx hs
    rw [List.mem_singleton.mp hx] at hs ⊢
    have hstored : s.messages.find? m.key ≠ none := fun hnew => hknown ⟨hs, hnew⟩
    rcases hp : s.tail m.chatJid with _ | p
    · exact absurd (h.row hp) (entries_ne_nil_of_stored hstored)
    · rw [hown, hp]
      refine ⟨_, rfl, ?_⟩
      rw [htime p hp]
      exact (hguard p hp).1.resolve_left (by simp [hs])
  · intro p' hp'
    rw [hown, Option.mem_def, Option.map_eq_some_iff] at hp'
    obtain ⟨p, hp, rfl⟩ := hp'
    exact Or.inl ⟨p, hp, (htime p hp).le⟩
  · exact hkept
  · intro k t hlate hk
    by_cases hs : suppressed s m = true
    · rw [messageKeys_insertHistoryMessageInto_of_suppressed plan chat hs] at hk
      exact Or.inl hk
    · rcases (insertHistoryMessageInto_absorbs plan s chat m).mem hk with hk | ⟨x, hx, rfl⟩
      · exact Or.inl hk
      · rw [List.mem_singleton.mp hx]
        by_contra hnot
        have hunstored := find?_eq_none_iff_messageKeys.mpr fun hmem => hnot (Or.inl hmem)
        exact hknown ⟨by simpa using hs, hunstored⟩

/-- A guarded slice. -/
theorem PreviewLeads.replays (h : PreviewLeads s jid) (chat : Chat) {messages : List Message}
    (hchat : ∀ m ∈ messages, m.chatJid = jid)
    (hguard : Guarded (fun s m => (insertHistoryMessageInto plan s chat m).1) ReplayGuard s
      messages) :
    PreviewLeads (insertHistoryMessages plan s chat messages).1 jid ∧
      Replays jid s messages (insertHistoryMessages plan s chat messages).1 := by
  unfold insertHistoryMessages
  generalize false = changed
  induction messages generalizing s changed with
  | nil => exact ⟨h, .refl s⟩
  | cons m messages ih =>
    have hm := hchat m List.mem_cons_self
    have hstep : PreviewLeads (insertHistoryMessageInto plan s chat m).1 jid ∧
        Replays jid s [m] (insertHistoryMessageInto plan s chat m).1 := by
      by_cases hnew : suppressed s m = false ∧ s.messages.find? m.key = none
      · exact h.replay_new plan chat hm hnew.1 hnew.2
      · exact h.replay_known plan chat hm hnew hguard.1
    obtain ⟨hleads, hreplays⟩ :=
      ih hstep.1 (fun x hx => hchat x (List.mem_cons_of_mem _ hx)) hguard.2 _
    exact ⟨hleads, hstep.2.trans hreplays⟩

end Replay

/-! ## A replayed conversation -/

/-- The preview after the header of a conversation: it announces the time of a message. -/
def announcedTail (s : Store) (chat : Chat) : Option (String × ℤ) :=
  if chatDeleted s chat.jid then s.tail chat.jid
  else some ((s.tail chat.jid).elim (chat.lastMessage, chat.lastTimestamp)
    (fun p => (p.1, max p.2 chat.lastTimestamp)))

/-- No message of the chat is or will be stored, or one that is or will be is as late as the
header announces. -/
def AnnouncementMet (s : Store) (c : Conversation) : Prop :=
  ∀ p ∈ announcedTail s c.chat,
    (s.entries c.chat.jid = [] ∧ ∀ m ∈ c.messages, suppressed s m = true) ∨
    (∃ e ∈ s.entries c.chat.jid, p.2 ≤ e.timestamp) ∨
    ∃ m ∈ c.messages, suppressed s m = false ∧ s.messages.find? m.key = none ∧
      ∀ x ∈ c.messages, x.key = m.key → p.2 ≤ x.timestamp

instance (s : Store) (c : Conversation) : Decidable (AnnouncementMet s c) :=
  inferInstanceAs (Decidable (∀ _ ∈ announcedTail s c.chat, _))

/-- The conversations after which the previews are right. -/
def HistoryGuard (s : Store) (c : Conversation) : Prop :=
  Uncrowded s c.chat.jid c.messages ∧ AnnouncementMet s c ∧
    Guarded (fun s m => (insertHistoryMessageInto plan s c.chat m).1) ReplayGuard
      (insertHistoryChatInto s c.chat) c.messages

instance (s : Store) (c : Conversation) : Decidable (HistoryGuard plan s c) :=
  inferInstanceAs (Decidable (_ ∧ _))

section Conversations

variable {s s' : Store}

theorem tail_insertHistoryChatInto (s : Store) (chat : Chat) (jid : String) :
    (insertHistoryChatInto s chat).tail jid
      = if jid = chat.jid then announcedTail s chat else s.tail jid := by
  cases hopen : chatDeleted s chat.jid with
  | true =>
    rw [insertHistoryChatInto, announcedTail, if_pos hopen, if_pos hopen]
    split
    · rename_i hj
      rw [hj]
    · rfl
  | false =>
    rw [Store.tail, find?_insertHistoryChatInto hopen, announcedTail, hopen,
      if_neg Bool.false_ne_true]
    split
    · rename_i hj
      rw [Store.tail, hj]
      rcases s.chats.find? chat.jid with _ | c <;> rfl
    · rfl

theorem entries_insertHistoryChatInto (s : Store) (chat : Chat) (jid : String) :
    (insertHistoryChatInto s chat).entries jid = s.entries jid :=
  entries_of_eq (insertHistoryChatInto_frame s chat).1 jid

theorem PreviewsShown.header (h : PreviewsShown s) (hw : WellFormed s) (chat : Chat) :
    PreviewLeads (insertHistoryChatInto s chat) chat.jid := by
  constructor
  · intro hnone
    rw [tail_insertHistoryChatInto, if_pos rfl, announcedTail] at hnone
    rw [entries_insertHistoryChatInto]
    split at hnone
    · exact hw.entries_eq_nil hnone
    · cases hnone
  · intro p hp
    rw [tail_insertHistoryChatInto, if_pos rfl, announcedTail] at hp
    rw [entries_insertHistoryChatInto]
    split at hp
    · exact (h chat.jid p hp).leads
    · rw [Option.mem_def, Option.some_inj] at hp
      rcases htail : s.tail chat.jid with _ | p₀
      · rw [hw.entries_eq_nil htail]
        exact shows_nil.leads
      · rw [htail] at hp
        rw [← hp]
        exact (h chat.jid p₀ htail).leads.raise (le_max_left _ _)

theorem suppressed_insertHistoryChatInto (s : Store) (chat : Chat) (m : Message) :
    suppressed (insertHistoryChatInto s chat) m = suppressed s m :=
  suppressed_congr (by simp) (by simp) m

/-- A chat without messages has none after dropped messages. -/
theorem entries_eq_nil_of_suppressed {jid : String} {messages : List Message}
    (hof : MessagesOf s messages s') (hnil : s.entries jid = [])
    (hs : ∀ m ∈ messages, suppressed s m = true) : s'.entries jid = [] := by
  rw [Store.entries, List.map_eq_nil_iff] at hnil ⊢
  refine List.eq_nil_iff_forall_not_mem.mpr fun m' hm' => ?_
  obtain ⟨hm', hj⟩ := Store.mem_chatMessages.mp hm'
  rcases hof m' hm' with ⟨m, hm, he⟩ | ⟨message, hmem, m, ha, -⟩
  · have hmem := Store.mem_chatMessages.mpr ⟨hm, he.chatJid ▸ hj⟩
    rw [hnil] at hmem
    cases hmem
  · have haccepted := ha.accepted
    rw [hs message hmem] at haccepted
    cases haccepted

theorem PreviewsShown.insertHistoryMessages (h : PreviewsShown s)
    {c : Conversation} (hmet : AnnouncementMet s c)
    (hleads : PreviewLeads s' c.chat.jid)
    (hreplays : Replays c.chat.jid (insertHistoryChatInto s c.chat) c.messages s')
    (hof : MessagesOf s c.messages s')
    (hkeys : ∀ m ∈ c.messages, suppressed s m = false → m.key ∈ s'.messageKeys) :
    PreviewsShown s' := by
  refine h.of_chat c.chat.jid (fun jid hj => ?_) (fun jid hj => ?_) fun p' hp' => ?_
  · rw [hreplays.tail jid hj, tail_insertHistoryChatInto, if_neg hj]
  · rw [hreplays.entries jid hj, entries_insertHistoryChatInto]
  have hled := hleads.leads p' hp'
  rcases hreplays.bounded p' hp' with ⟨p, hp, hle⟩ | ⟨e, he, hle⟩
  · rw [tail_insertHistoryChatInto, if_pos rfl] at hp
    rcases hmet p hp with ⟨hnil, hs⟩ | ⟨e, he, hreach⟩ | ⟨m, hm, hs, hnew, hlate⟩
    · rw [entries_eq_nil_of_suppressed hof hnil hs]
      exact shows_nil
    · obtain ⟨e', he', htime⟩ :=
        hreplays.kept e ((entries_insertHistoryChatInto s c.chat c.chat.jid).symm ▸ he)
      exact hled.shows_of_mem he' ((hle.trans hreach).trans htime.ge)
    · -- the announced message is stored by now
      rcases hreplays.fresh m.key p.2 hlate (hkeys m hm hs) with hk | ⟨e, he, hreach⟩
      · rw [Store.messageKeys, (insertHistoryChatInto_frame s c.chat).1] at hk
        exact absurd hk (find?_eq_none_iff_messageKeys.mp hnew)
      · exact hled.shows_of_mem he (hle.trans hreach)
  · exact hled.shows_of_mem he hle

theorem PreviewsShown.insertHistoryConversation (h : PreviewsShown s) (hw : WellFormed s)
    {c : Conversation} (hguard : HistoryGuard plan s c) :
    PreviewsShown (insertHistoryConversation plan s c.chat c.messages).1 := by
  obtain ⟨hu, hmet, hslice⟩ := hguard
  obtain ⟨hleads, hreplays⟩ := (h.header hw c.chat).replays plan c.chat c.sameChat hslice
  have hof := insertHistoryMessages_messagesOf plan s c.chat c.messages
  have hkeys := (insertHistoryMessages_absorbs plan (insertHistoryChatInto s c.chat) c.chat
    c.messages).stored
  simp only [suppressed_insertHistoryChatInto] at hkeys
  have hshown := h.insertHistoryMessages hmet hleads hreplays hof hkeys
  refine hshown.pruneChatHistory plan hof hu (fun m hm p hp => ?_) (fun m hm hs p hp => ?_)
    hleads.row
  · have hentry : m.entry ∈ (insertHistoryChatInto s c.chat).entries c.chat.jid := by
      rw [entries_insertHistoryChatInto]
      exact List.mem_map_of_mem hm
    obtain ⟨e', he', htime⟩ := hreplays.kept m.entry hentry
    exact htime.ge.trans ((hleads.leads p hp).le he')
  · obtain ⟨p', hp', hle⟩ :=
      hreplays.accepted m hm ((suppressed_insertHistoryChatInto s c.chat m).trans hs)
    obtain rfl : p' = p := Option.mem_unique hp' hp
    exact hle

end Conversations

end OmarchyWhatsapp
