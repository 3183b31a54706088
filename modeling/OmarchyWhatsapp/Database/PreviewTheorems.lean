import OmarchyWhatsapp.Database.Arrivals
import OmarchyWhatsapp.Relational.Preview

/-!
# The preview of a chat

`list_chats` takes the preview text and time from the chat row, which five paths write:
insertion, history headers, completed media, the two tail refreshes and migration. Each path
is followed by what it does to the pair `(last_message, last_timestamp)` and to the entries
of the chat, and `Relational.Shows` says that the pair is that of the latest entry.
-/

namespace OmarchyWhatsapp

open Relational

variable (plan : QueryPlan)

/-! ## Entries and tails -/

/-- What the preview can show of a message. -/
structure Entry where
  id : String
  text : String
  timestamp : ℤ
deriving DecidableEq, Repr

def MessageRow.entry (m : MessageRow) : Entry := ⟨m.id, m.text, m.timestamp⟩

def Message.entry (m : Message) : Entry := ⟨m.id, m.text, m.timestamp⟩

/-- The messages of a chat, in insertion order. -/
def Store.entries (s : Store) (jid : String) : List Entry :=
  (s.chatMessages jid).map MessageRow.entry

/-- The preview columns of a chat row. -/
def ChatRow.tail (c : ChatRow) : String × ℤ := (c.lastMessage, c.lastTimestamp)

def Store.tail (s : Store) (jid : String) : Option (String × ℤ) :=
  (s.chats.find? jid).map ChatRow.tail

/-- The pair is the text and the time of the newest entry. -/
abbrev ShowsEntries (l : List Entry) (p : String × ℤ) : Prop :=
  Shows Entry.timestamp Entry.text l p

abbrev LeadsEntries (l : List Entry) (p : String × ℤ) : Prop :=
  Leads Entry.timestamp Entry.text l p

/-- Every chat row shows the newest message of its chat. -/
def PreviewsShown (s : Store) : Prop :=
  ∀ jid, ∀ p ∈ s.tail jid, ShowsEntries (s.entries jid) p

section Entries

variable {s s' s'' : Store} {jid : String}

theorem latest_entries (s : Store) (jid : String) :
    latest Entry.timestamp (s.entries jid) = (newestMessage s jid).map MessageRow.entry :=
  latest_map _ MessageRow.entry fun _ _ => rfl

theorem showsEntries_iff {p : String × ℤ} :
    ShowsEntries (s.entries jid) p ↔
      ∀ r ∈ newestMessage s jid, p = (r.text, r.timestamp) := by
  rw [ShowsEntries, Shows, latest_entries]
  simp [MessageRow.entry]

/-- The tail is that of the chat row. -/
theorem tail_eq_some {p : String × ℤ} :
    s.tail jid = some p ↔ ∃ c ∈ s.chats.rows, c.jid = jid ∧ c.tail = p := by
  simp only [Store.tail, Option.map_eq_some_iff, Table.find?_eq_some, and_assoc]

theorem WellFormed.entries_eq_nil (h : WellFormed s) (hnone : s.tail jid = none) :
    s.entries jid = [] := by
  rw [Store.tail, Option.map_eq_none_iff] at hnone
  rw [Store.entries, List.map_eq_nil_iff, List.eq_nil_iff_forall_not_mem]
  intro m hm
  obtain ⟨hrow, hj⟩ := Store.mem_chatMessages.mp hm
  obtain ⟨c, hc⟩ := hasChat_iff_find?.mp (hj ▸ h.chatOfMessage m hrow)
  rw [hnone] at hc
  cases hc

/-! ## Operations that touch neither -/

/-- The two stores have the same tails and the same entries. -/
structure SamePreviews (s s' : Store) : Prop where
  tail : ∀ jid, s'.tail jid = s.tail jid
  entries : ∀ jid, s'.entries jid = s.entries jid

theorem PreviewsShown.of_same (h : PreviewsShown s) (hsame : SamePreviews s s') :
    PreviewsShown s' := by
  intro jid p hp
  rw [hsame.tail] at hp
  rw [hsame.entries]
  exact h jid p hp

theorem entries_of_map {g : MessageRow → MessageRow} {φ : Entry → Entry}
    (h : s'.messages.rows = s.messages.rows.map g) (hchat : ∀ m, (g m).chatJid = m.chatJid)
    (hentry : ∀ m, m.chatJid = jid → (g m).entry = φ m.entry) :
    s'.entries jid = (s.entries jid).map φ := by
  have hfilter : s.messages.rows.filter ((fun m => decide (m.chatJid = jid)) ∘ g)
      = s.chatMessages jid :=
    List.filter_congr fun m _ => by simp only [Function.comp_apply, hchat]
  rw [Store.entries, Store.chatMessages, h, List.filter_map, hfilter, List.map_map,
    Store.entries, List.map_map]
  exact List.map_congr_left fun m hm => hentry m (Store.mem_chatMessages.mp hm).2

theorem entries_of_update {p : MessageRow → Bool} {f : MessageRow → MessageRow}
    (h : s'.messages.rows = s.messages.rows.map (fun m => if p m then f m else m))
    (hf : ∀ m, (f m).chatJid = m.chatJid ∧ (f m).entry = m.entry) (jid : String) :
    s'.entries jid = s.entries jid := by
  refine (entries_of_map (φ := id) h (fun m => ?_) fun m _ => ?_).trans (List.map_id _)
  · split
    · exact (hf m).1
    · rfl
  · split
    · exact (hf m).2
    · rfl

theorem tail_of_update {p : ChatRow → Bool} {f : ChatRow → ChatRow}
    (h : s'.chats.rows = s.chats.rows.map (fun c => if p c then f c else c))
    (hf : ∀ c, (f c).jid = c.jid ∧ (f c).tail = c.tail) (jid : String) :
    s'.tail jid = s.tail jid := by
  have hupdate : s'.chats = s.chats.updateWhere p f (fun c => (hf c).1) := Table.ext h
  rw [Store.tail, hupdate, Table.find?_updateWhere, Option.map_map, Store.tail]
  refine Option.map_congr fun c _ => ?_
  rw [Function.comp_apply]
  split
  · exact (hf c).2
  · rfl

theorem entries_of_eq (h : s'.messages = s.messages) (jid : String) :
    s'.entries jid = s.entries jid := by
  rw [Store.entries, Store.chatMessages, h, Store.entries, Store.chatMessages]

theorem tail_of_eq (h : s'.chats = s.chats) (jid : String) : s'.tail jid = s.tail jid := by
  rw [Store.tail, h, Store.tail]

theorem SamePreviews.of_eq (hm : s'.messages = s.messages) (hc : s'.chats = s.chats) :
    SamePreviews s s' := ⟨tail_of_eq hc, entries_of_eq hm⟩

theorem SamePreviews.trans (h : SamePreviews s s') (h' : SamePreviews s' s'') :
    SamePreviews s s'' :=
  ⟨fun jid => (h'.tail jid).trans (h.tail jid), fun jid => (h'.entries jid).trans (h.entries jid)⟩

theorem updateContactNameInto_samePreviews (s : Store) (jid name : String) (source : ℕ) :
    SamePreviews s (updateContactNameInto s jid name source).1 := by
  unfold updateContactNameInto
  split
  · exact .of_eq rfl rfl
  · split
    · exact .of_eq rfl rfl
    · exact ⟨tail_of_update rfl fun _ => ⟨rfl, rfl⟩, entries_of_update rfl fun _ => ⟨rfl, rfl⟩⟩

theorem updateGroupName_samePreviews (s : Store) (jid name : String) :
    SamePreviews s (updateGroupName s jid name).1 := by
  unfold updateGroupName
  split
  · exact .of_eq rfl rfl
  · exact ⟨tail_of_update rfl fun _ => ⟨rfl, rfl⟩, entries_of_eq rfl⟩

theorem applyPollVote_samePreviews (s : Store) (chatJid messageId voterJid : String)
    (selected : List String) (fromMe : Bool) (timestamp : ℤ) :
    SamePreviews s
      (s.apply plan (.applyPollVote chatJid messageId voterJid selected fromMe timestamp)) := by
  refine ⟨tail_of_eq (by simp), fun jid => ?_⟩
  dsimp only [Store.apply, applyPollVote]
  split
  · split_ifs
    · exact entries_of_eq rfl jid
    · refine entries_of_update rfl ?_ jid
      exact fun _ => ⟨rfl, rfl⟩
    · exact entries_of_eq rfl jid
  · exact entries_of_eq rfl jid

theorem applyReadBoundary_samePreviews (s : Store) (chatJid : String) (timestamp : ℤ)
    (ids : List String) : SamePreviews s (applyReadBoundary plan s chatJid timestamp ids).1 :=
  ⟨tail_of_update rfl fun _ => ⟨rfl, rfl⟩, entries_of_update rfl fun _ => ⟨rfl, rfl⟩⟩

theorem applyReadState_samePreviews (s : Store) (chatJid : String) (read : Bool) :
    SamePreviews s (applyReadState plan s chatJid read).1 := by
  unfold applyReadState
  split
  · exact applyReadBoundary_samePreviews plan s chatJid _ _
  · exact .of_eq rfl rfl

theorem applySyncedReadState_samePreviews (s : Store) (chatJid : String) (read : Bool)
    (boundary : Option ℤ) (ids : List String) (eventTimestamp : ℤ) :
    SamePreviews s (applySyncedReadState plan s chatJid read boundary ids eventTimestamp).1 := by
  unfold applySyncedReadState
  split
  · exact .of_eq rfl rfl
  · dsimp only
    split
    · exact (applyReadBoundary_samePreviews plan s chatJid _ ids).trans (.of_eq rfl rfl)
    · exact (applyReadState_samePreviews plan s chatJid false).trans (.of_eq rfl rfl)

theorem applySelfReadReceipt_samePreviews (s : Store) (chatJid : String) (ids : List String)
    (timestamp : ℤ) : SamePreviews s (applySelfReadReceipt plan s chatJid ids timestamp).1 := by
  unfold applySelfReadReceipt
  split
  · exact .of_eq rfl rfl
  · exact applyReadBoundary_samePreviews plan s chatJid _ ids

theorem updateReceipt_samePreviews (s : Store) (chatJid id : String) (receipt : ℕ)
    (reader : Option String) (receiptAt : ℤ) :
    SamePreviews s (updateReceipt s chatJid id receipt reader receiptAt).1 :=
  ⟨tail_of_eq (by simp),
    entries_of_update (congrArg Table.rows (updateReceipt_messages s _ _ _ _ _))
      fun _ => ⟨rfl, rfl⟩⟩

/-- The operations that write neither a preview nor what it shows of a message. -/
def Op.keepsPreviews : Op → Bool
  | .insertMessage .. | .insertMessageWithReadIntent .. | .insertHistoryConversation _
  | .updateMessageMedia .. | .deleteChat .. | .clearChat .. | .deleteMessage ..
  | .migrateContactJid .. => false
  | _ => true

theorem apply_samePreviews (s : Store) {op : Op} (h : op.keepsPreviews = true) :
    SamePreviews s (s.apply plan op) := by
  cases op with
  | updateContactName => exact updateContactNameInto_samePreviews s _ _ _
  | updateAddressBookName => exact updateContactNameInto_samePreviews s _ _ _
  | updateGroupName => exact updateGroupName_samePreviews s _ _
  | updateChatPhoneNumber =>
    exact ⟨tail_of_update rfl fun _ => ⟨rfl, rfl⟩, entries_of_eq rfl⟩
  | applyReaction => exact .of_eq (by simp [Store.apply]) (by simp [Store.apply])
  | storePollSecret => exact .of_eq (by simp [Store.apply]) (by simp [Store.apply])
  | applyPollVote => exact applyPollVote_samePreviews plan s _ _ _ _ _ _
  | storeMediaDownload => exact ⟨tail_of_eq rfl, entries_of_update rfl fun _ => ⟨rfl, rfl⟩⟩
  | rewriteMediaPaths => exact ⟨tail_of_eq rfl, entries_of_update rfl fun _ => ⟨rfl, rfl⟩⟩
  | markRead chatJid => exact applyReadBoundary_samePreviews plan s chatJid _ _
  | applyReadState => exact applyReadState_samePreviews plan s _ _
  | applySyncedReadState => exact applySyncedReadState_samePreviews plan s _ _ _ _ _
  | applySelfReadReceipt => exact applySelfReadReceipt_samePreviews plan s _ _ _
  | reconcileUnread => exact ⟨tail_of_update rfl fun _ => ⟨rfl, rfl⟩, entries_of_eq rfl⟩
  | applyPinAt => exact .of_eq rfl rfl
  | applyArchiveAt => exact .of_eq rfl rfl
  | applyMuteAt => exact .of_eq rfl rfl
  | updateReceipts chatJid ids receipt reader receiptAt =>
    exact updateReceipts_induction s chatJid ids receipt reader receiptAt
      (fun s' id h => h.trans (updateReceipt_samePreviews s' chatJid id receipt reader receiptAt))
      (.of_eq rfl rfl)
  | queueReadReceipts => exact .of_eq rfl rfl
  | finishReadBatch => exact .of_eq rfl rfl
  | _ => cases h

/-! ## Operations on one chat -/

/-- Only the chat that changed has to be looked at. -/
theorem PreviewsShown.of_chat (h : PreviewsShown s) (chatJid : String)
    (htail : ∀ jid, jid ≠ chatJid → s'.tail jid = s.tail jid)
    (hentries : ∀ jid, jid ≠ chatJid → s'.entries jid = s.entries jid)
    (hchat : ∀ p ∈ s'.tail chatJid, ShowsEntries (s'.entries chatJid) p) : PreviewsShown s' := by
  intro jid p hp
  by_cases hj : jid = chatJid
  · subst hj
    exact hchat p hp
  · rw [htail jid hj] at hp
    rw [hentries jid hj]
    exact h jid p hp

theorem tail_of_update_chat (s s' : Store) {chatJid : String} {f : ChatRow → ChatRow}
    (h : s'.chats.rows = s.chats.rows.map (fun c => if decide (c.jid = chatJid) then f c else c))
    (hf : ∀ c, (f c).jid = c.jid) (jid : String) :
    s'.tail jid = if jid = chatJid then (s.chats.find? jid).map (fun c => (f c).tail)
      else s.tail jid := by
  have hupdate : s'.chats = s.chats.updateWhere (fun c => decide (c.jid = chatJid)) f hf :=
    Table.ext h
  rw [Store.tail, hupdate, Table.find?_updateWhere, Option.map_map, Store.tail]
  rcases hfind : s.chats.find? jid with _ | c
  · simp
  · have hj : c.jid = jid := Table.key_of_find? hfind
    simp only [Option.map_some, Function.comp_apply, hj, decide_eq_true_eq]
    split <;> rfl

/-- Deleting messages of one chat leaves the entries of the others. -/
theorem entries_of_deleteWhere_ne {chatJid : String} {p : MessageRow → Bool}
    (h : s'.messages.rows = s.messages.rows.filter (fun m => !p m))
    (hp : ∀ m, p m = true → m.chatJid = chatJid) {jid : String} (hj : jid ≠ chatJid) :
    s'.entries jid = s.entries jid := by
  rw [Store.entries, Store.chatMessages, h, List.filter_filter, Store.entries, Store.chatMessages]
  congr 1
  refine List.filter_congr fun m _ => ?_
  by_cases hm : m.chatJid = jid
  · have hnot : p m = false := Bool.eq_false_iff.mpr fun hpm => hj (hm.symm.trans (hp m hpm))
    simp [hm, hnot]
  · simp [hm]

/-! ## Deletion -/

/-- A refreshed tail shows the newest message. -/
theorem shows_refreshChatTail (s : Store) (chatJid : String) :
    ∀ p ∈ (refreshChatTail s chatJid).tail chatJid,
      ShowsEntries ((refreshChatTail s chatJid).entries chatJid) p := by
  intro p hp
  have htail := tail_of_update_chat s (refreshChatTail s chatJid) rfl
    (fun _ => rfl) chatJid
  rw [htail, if_pos rfl, Option.mem_def, Option.map_eq_some_iff] at hp
  obtain ⟨c, -, rfl⟩ := hp
  have hentries : (refreshChatTail s chatJid).entries chatJid = s.entries chatJid := rfl
  rw [hentries, showsEntries_iff]
  intro r hr
  rw [ChatRow.tail, Option.mem_def.mp hr]
  rfl

theorem entries_deleteMessagesThrough_of_ne {chatJid : String} (timestamp : ℤ)
    (hj : jid ≠ chatJid) :
    (deleteMessagesThrough s chatJid timestamp).entries jid = s.entries jid :=
  entries_of_deleteWhere_ne rfl
    (fun _ hm => of_decide_eq_true (Bool.and_eq_true_iff.mp hm).1) hj

theorem PreviewsShown.clearChat (h : PreviewsShown s) (chatJid : String) (timestamp : ℤ) :
    PreviewsShown (clearChat s chatJid timestamp) := by
  unfold OmarchyWhatsapp.clearChat
  split
  · exact h
  · refine h.of_chat chatJid (fun jid hj => ?_)
      (fun jid hj => entries_deleteMessagesThrough_of_ne timestamp hj)
      (shows_refreshChatTail _ chatJid)
    have htail := tail_of_update_chat (deleteMessagesThrough s chatJid timestamp)
      (refreshChatTail (deleteMessagesThrough s chatJid timestamp) chatJid) rfl
      (fun _ => rfl) jid
    rw [if_neg hj] at htail
    exact htail

theorem tail_deleteWhere_chat (s s' : Store) (chatJid : String)
    (h : s'.chats = s.chats.deleteWhere (fun c => c.jid = chatJid)) (jid : String) :
    s'.tail jid = if jid = chatJid then none else s.tail jid := by
  have hfind := Table.find?_deleteWhere_key s.chats chatJid jid
  rw [Store.tail, h, hfind, Store.tail]
  split <;> rfl

theorem PreviewsShown.deleteChat (h : PreviewsShown s) (chatJid : String) (timestamp : ℤ) :
    PreviewsShown (deleteChat s chatJid timestamp) := by
  unfold OmarchyWhatsapp.deleteChat
  split
  · exact h
  · dsimp only
    split
    · refine h.of_chat chatJid (fun jid hj => ?_)
        (fun jid hj => entries_deleteMessagesThrough_of_ne timestamp hj)
        (shows_refreshChatTail _ chatJid)
      have htail := tail_of_update_chat (deleteMessagesThrough s chatJid timestamp)
        (refreshChatTail (deleteMessagesThrough s chatJid timestamp) chatJid) rfl
        (fun _ => rfl) jid
      rw [if_neg hj] at htail
      exact htail
    · have htail := tail_deleteWhere_chat s
        { s with chats := s.chats.deleteWhere (fun c => c.jid = chatJid) } chatJid rfl
      refine h.of_chat chatJid
        (fun jid hj => (htail jid).trans (if_neg hj))
        (fun jid hj => entries_deleteMessagesThrough_of_ne timestamp hj) fun p hp => ?_
      have hnone := (htail chatJid).trans (if_pos rfl)
      cases hnone.symm.trans hp

/-- The messages that are left have one text at the time of the newest of them. -/
def TiesAgree (s : Store) (chatJid messageId : String) : Prop :=
  let rest := (s.chatMessages chatJid).filter (fun m => m.id ≠ messageId)
  ∀ r ∈ latest (·.timestamp) rest, ∀ m ∈ rest, m.timestamp = r.timestamp → m.text = r.text

instance (s : Store) (chatJid messageId : String) : Decidable (TiesAgree s chatJid messageId) :=
  inferInstanceAs (Decidable (∀ _ ∈ latest _ _, _))

/-- The first row of a query that orders by time alone is as late as any other. -/
theorem head_newestFirst {rows : List MessageRow} {m : MessageRow}
    (h : (newestFirst plan rows).head? = some m) :
    m ∈ rows ∧ ∀ x ∈ rows, x.timestamp ≤ m.timestamp := by
  have hsorted := plan.sorted (fun a b : MessageRow => decide (b.timestamp ≤ a.timestamp))
    (fun a b => by simpa using le_total b.timestamp a.timestamp)
    (fun a b c hab hbc => by
      simp only [decide_eq_true_eq] at hab hbc ⊢
      exact hbc.trans hab) rows
  obtain ⟨rest, hrest⟩ := List.head?_eq_some_iff.mp h
  rw [newestFirst] at hrest
  rw [hrest, List.pairwise_cons] at hsorted
  refine ⟨plan.mem_orderBy.mp (hrest ▸ List.mem_cons_self), fun x hx => ?_⟩
  have hx : x ∈ m :: rest := hrest ▸ plan.mem_orderBy.mpr hx
  rcases List.mem_cons.mp hx with rfl | hx
  · exact le_rfl
  · exact of_decide_eq_true (hsorted.1 x hx)

theorem exists_head_newestFirst {rows : List MessageRow} {x : MessageRow} (hx : x ∈ rows) :
    ∃ m, (newestFirst plan rows).head? = some m := by
  have hx : x ∈ newestFirst plan rows := plan.mem_orderBy.mpr hx
  exact ⟨_, List.head?_eq_some_head (List.ne_nil_of_mem hx)⟩

theorem PreviewsShown.deleteMessage (h : PreviewsShown s) {chatJid messageId : String}
    (hguard : TiesAgree s chatJid messageId) :
    PreviewsShown (deleteMessage plan s chatJid messageId) := by
  have hrest : (OmarchyWhatsapp.deleteMessage plan s chatJid messageId).chatMessages chatJid
      = (s.chatMessages chatJid).filter (fun m => m.id ≠ messageId) := by
    have hrows : (OmarchyWhatsapp.deleteMessage plan s chatJid messageId).messages.rows
        = s.messages.rows.filter (fun m => !(m.chatJid = chatJid && m.id = messageId)) := rfl
    rw [Store.chatMessages, hrows, Store.chatMessages, List.filter_filter, List.filter_filter]
    refine List.filter_congr fun m _ => ?_
    by_cases hj : m.chatJid = chatJid <;> simp [hj]
  have htail := tail_of_update_chat s
    (OmarchyWhatsapp.deleteMessage plan s chatJid messageId) rfl (fun _ => rfl)
  refine h.of_chat chatJid (fun jid hj => (htail jid).trans (if_neg hj))
    (fun jid hj => entries_of_deleteWhere_ne rfl
      (fun _ hm => of_decide_eq_true (Bool.and_eq_true_iff.mp hm).1) hj) fun p hp => ?_
  rw [htail, if_pos rfl, Option.mem_def, Option.map_eq_some_iff] at hp
  obtain ⟨c, -, rfl⟩ := hp
  rw [showsEntries_iff]
  intro r hr
  rw [newestMessage, hrest] at hr
  -- the query behind the tail finds some message as new as `r`
  obtain ⟨m, hm⟩ := exists_head_newestFirst plan (hrest ▸ latest_mem _ hr)
  obtain ⟨hmem, hlatest⟩ := head_newestFirst plan hm
  rw [hrest] at hmem hlatest
  have htime : m.timestamp = r.timestamp :=
    le_antisymm (le_latest _ hr hmem) (hlatest r (latest_mem _ hr))
  have hshown : ∀ c : ChatRow, ({ c with
      lastMessage := (some m).elim "" (·.text)
      lastTimestamp := (some m).elim c.lastTimestamp (·.timestamp) } : ChatRow).tail
        = (m.text, m.timestamp) := fun _ => rfl
  have htext := hguard r hr m hmem htime
  rw [← htext, ← htime, ← hshown c, ← hm]
  rfl

end Entries

/-! ## Completed media -/

/-- The placeholder of a GIF is renamed where it is found. -/
def asGif (hit : Bool) (text : String) : String :=
  if hit && text = "[Video]" then "[GIF]" else text

/-- What a GIF with the id does to an entry. -/
def relabelEntry (gif : Bool) (id : String) (e : Entry) : Entry :=
  { e with text := asGif (gif && e.id = id) e.text }

/-- When the placeholder is shown, the GIF is all of the newest messages or none of them. -/
def GifTies (l : List Entry) (p : String × ℤ) (gif : Bool) (id : String) : Prop :=
  gif = true → p.1 = "[Video]" → ∀ r ∈ latest Entry.timestamp l, r.timestamp = p.2 →
    ∀ e ∈ l, e.timestamp = r.timestamp → (e.id = id ↔ r.id = id)

instance (l : List Entry) (p : String × ℤ) (gif : Bool) (id : String) :
    Decidable (GifTies l p gif id) := inferInstanceAs (Decidable (_ → _))

section Media

variable {s : Store}

theorem map_relabelEntry_false (id : String) (l : List Entry) :
    l.map (relabelEntry false id) = l := List.map_id l

theorem latest_map_relabelEntry (gif : Bool) (id : String) (l : List Entry) :
    latest Entry.timestamp (l.map (relabelEntry gif id))
      = (latest Entry.timestamp l).map (relabelEntry gif id) :=
  latest_map _ _ fun _ _ => rfl

/-- The tallies and the merge with the stored media leave a video as it is. -/
theorem isGif_storedMedia (s : Store) (chatJid messageId : String) (media : MessageMedia) :
    isGif (storedMedia plan s chatJid messageId media) = isGif media := by
  have htallies : ∀ media votes, isGif (updatePollTallies media votes).1 = isGif media := by
    intro media votes
    cases media <;> rfl
  rw [storedMedia, reconcilePollTallies, htallies]
  unfold mergeMedia
  split <;> rfl

/-- A row of the chat after the update. -/
theorem entry_updated {chatJid messageId : String} (merged : MessageMedia) (m : MessageRow)
    (hm : m.chatJid = chatJid) :
    (if mediaOutdated chatJid messageId merged m
      then { m with media := some merged, text := relabel merged m.text } else m).entry
      = relabelEntry (isGif merged) messageId m.entry := by
  have hrelabel : relabel merged m.text = asGif (isGif merged) m.text := rfl
  by_cases hid : m.id = messageId
  · have hhit : relabelEntry (isGif merged) messageId m.entry
        = { m.entry with text := relabel merged m.text } := by
      rw [relabelEntry, hrelabel]
      simp [MessageRow.entry, hid]
    rw [hhit]
    split
    · rfl
    · -- the row is up to date, so there is no placeholder to rename
      rename_i hcurrent
      simp only [mediaOutdated, hm, hid, decide_true, Bool.and_self, Bool.true_and,
        Bool.or_eq_true, not_or] at hcurrent
      rw [relabel, if_neg hcurrent.2]
      rfl
  · have hcurrent : mediaOutdated chatJid messageId merged m = false := by
      simp [mediaOutdated, hid]
    rw [hcurrent, relabelEntry]
    simp [MessageRow.entry, hid, asGif]

theorem entries_updateMessageMediaInto (chatJid messageId : String) (media : MessageMedia)
    (jid : String) :
    (updateMessageMediaInto plan s chatJid messageId media).1.entries jid
      = if jid = chatJid then (s.entries jid).map (relabelEntry (isGif media) messageId)
        else s.entries jid := by
  let merged := storedMedia plan s chatJid messageId media
  have hrows : (updateMessageMediaInto plan s chatJid messageId media).1.messages.rows
      = s.messages.rows.map (fun m => if mediaOutdated chatJid messageId merged m
        then { m with media := some merged, text := relabel merged m.text } else m) := rfl
  have hkeep : ∀ m : MessageRow, (if mediaOutdated chatJid messageId merged m
      then { m with media := some merged, text := relabel merged m.text } else m).chatJid
        = m.chatJid := by
    intro m
    split <;> rfl
  split
  · rename_i hj
    subst hj
    refine entries_of_map hrows hkeep fun m hm => ?_
    rw [entry_updated merged m hm, isGif_storedMedia]
  · rename_i hj
    refine (entries_of_map (φ := id) hrows hkeep fun m hm => ?_).trans (List.map_id _)
    have hother : mediaOutdated chatJid messageId merged m = false := by
      simp [mediaOutdated, hm, hj]
    rw [hother]
    rfl

/-- The preview follows when the message in front of the time order carries the id. -/
theorem tail_updateMessageMediaInto (chatJid messageId : String) (media : MessageMedia) :
    ∃ hit : Bool,
      (∀ jid, (updateMessageMediaInto plan s chatJid messageId media).1.tail jid
        = if jid = chatJid then (s.tail jid).map (fun p => (asGif (isGif media && hit) p.1, p.2))
          else s.tail jid) ∧
      ∀ r ∈ latest Entry.timestamp (s.entries chatJid), ∃ e ∈ s.entries chatJid,
        e.timestamp = r.timestamp ∧ hit = decide (e.id = messageId) := by
  let s' := (updateMessageMediaInto plan s chatJid messageId media).1
  let shown := (newestFirst plan (s'.chatMessages chatJid)).head?
  have hentries := entries_updateMessageMediaInto plan (s := s) chatJid messageId media chatJid
  rw [if_pos rfl] at hentries
  refine ⟨shown.any (fun m => m.id = messageId), fun jid => ?_, fun r hr => ?_⟩
  · have hchats : s'.chats = s.chats.updateWhere
        (fun c => c.jid = chatJid && (isGif (storedMedia plan s chatJid messageId media) &&
          c.lastMessage = "[Video]") && shown.any (fun m => m.id = messageId))
        (fun c => { c with lastMessage := "[GIF]" }) := rfl
    rw [Store.tail, hchats, Table.find?_updateWhere, Option.map_map, isGif_storedMedia, Store.tail]
    rcases hfind : s.chats.find? jid with _ | c
    · simp
    · have hcj : c.jid = jid := Table.key_of_find? hfind
      have htail : ∀ b : Bool, (if b then { c with lastMessage := "[GIF]" } else c).tail
          = (if b then "[GIF]" else c.lastMessage, c.lastTimestamp) := by
        intro b
        cases b <;> rfl
      rw [Option.map_some, Option.map_some, Option.map_some, Function.comp_apply, htail]
      by_cases hj : jid = chatJid
      · rw [if_pos hj, decide_eq_true (hcj.trans hj), Bool.true_and, Bool.and_right_comm]
        rfl
      · rw [if_neg hj, decide_eq_false (hcj ▸ hj)]
        rfl
  · have hr' : relabelEntry (isGif media) messageId r ∈ s'.entries chatJid :=
      hentries ▸ List.mem_map_of_mem (latest_mem _ hr)
    obtain ⟨x, hx, hxr⟩ := List.mem_map.mp hr'
    obtain ⟨h, hhead⟩ := exists_head_newestFirst plan hx
    obtain ⟨hmem, hmax⟩ := head_newestFirst plan hhead
    have hmap : h.entry ∈ (s.entries chatJid).map (relabelEntry (isGif media) messageId) :=
      hentries ▸ List.mem_map_of_mem hmem
    obtain ⟨e, he, heh⟩ := List.mem_map.mp hmap
    refine ⟨e, he, le_antisymm (le_latest _ hr he) ?_, ?_⟩
    · calc r.timestamp = x.timestamp := congrArg Entry.timestamp hxr.symm
        _ ≤ h.timestamp := hmax x hx
        _ = e.timestamp := congrArg Entry.timestamp heh.symm
    · have hid : e.id = h.id := congrArg Entry.id heh
      rw [hid]
      exact congrArg (Option.any _) hhead

/-- The pair keeps ahead of the entries when both are relabelled alike. -/
theorem leads_relabelEntry {l : List Entry} {p : String × ℤ} {gif hit : Bool} {id : String}
    (hahead : ∀ r ∈ latest Entry.timestamp l, r.timestamp ≤ p.2)
    (htext : ∀ r ∈ latest Entry.timestamp l, r.timestamp = p.2 →
      asGif (gif && r.id = id) p.1 = asGif (gif && r.id = id) r.text)
    (hties : GifTies l p gif id)
    (hhit : gif = true → ∀ r ∈ latest Entry.timestamp l, ∃ e ∈ l,
      e.timestamp = r.timestamp ∧ hit = decide (e.id = id)) :
    LeadsEntries (l.map (relabelEntry gif id)) (asGif (gif && hit) p.1, p.2) := by
  intro r' hr'
  rw [latest_map_relabelEntry, Option.map_eq_some_iff] at hr'
  obtain ⟨r, hr, rfl⟩ := hr'
  refine ⟨hahead r hr, fun htime => ?_⟩
  refine Eq.trans ?_ (htext r hr htime)
  by_cases hshown : gif = true ∧ p.1 = "[Video]"
  · obtain ⟨e, he, het, rfl⟩ := hhit hshown.1 r hr
    rw [decide_eq_decide.mpr (hties hshown.1 hshown.2 r hr htime e he het)]
  · have hno : ∀ b : Bool, asGif (gif && b) p.1 = p.1 := by
      intro b
      rw [asGif, if_neg]
      simp only [Bool.and_eq_true, decide_eq_true_eq]
      exact fun h => hshown ⟨h.1.1, h.2⟩
    rw [hno, hno]

theorem PreviewsShown.updateMessageMedia (h : PreviewsShown s) {chatJid messageId : String}
    {media : MessageMedia}
    (hguard : ∀ p ∈ s.tail chatJid, GifTies (s.entries chatJid) p (isGif media) messageId) :
    PreviewsShown (updateMessageMediaInto plan s chatJid messageId media).1 := by
  obtain ⟨hit, htail, hhit⟩ :=
    tail_updateMessageMediaInto plan (s := s) chatJid messageId media
  have hentries := entries_updateMessageMediaInto plan (s := s) chatJid messageId media
  refine h.of_chat chatJid (fun jid hj => (htail jid).trans (if_neg hj))
    (fun jid hj => (hentries jid).trans (if_neg hj)) fun p' hp' => ?_
  rw [htail, if_pos rfl, Option.mem_def, Option.map_eq_some_iff] at hp'
  obtain ⟨p, hp, rfl⟩ := hp'
  have hshows := h chatJid p hp
  rw [hentries, if_pos rfl]
  refine (leads_relabelEntry (fun r hr => (hshows.leads r hr).1) (fun r hr _ => ?_)
    (hguard p hp) fun _ => hhit).shows fun r' hr' => ?_
  · rw [hshows r hr]
  · rw [latest_map_relabelEntry, Option.map_eq_some_iff] at hr'
    obtain ⟨r, hr, rfl⟩ := hr'
    exact (congrArg Prod.snd (hshows r hr)).le

end Media

/-! ## Retention -/

/-- The identities and times of the messages of a chat, those that arrive included. -/
def Store.stamps (s : Store) (jid : String) (arrivals : List Message) :
    List ((String × String × String) × ℤ) :=
  (s.chatMessages jid).map (fun m => (m.key, m.timestamp)) ++
    (arrivals.filter (fun m => !suppressed s m)).map (fun m => (m.key, m.timestamp))

/-- At most `retention` messages share the newest time. -/
def Uncrowded (s : Store) (jid : String) (arrivals : List Message) : Prop :=
  ∀ x ∈ s.stamps jid arrivals, (∀ y ∈ s.stamps jid arrivals, y.2 ≤ x.2) →
    (((s.stamps jid arrivals).filter (fun y => y.2 = x.2)).map Prod.fst).toFinset.card
      ≤ retention

instance (s : Store) (jid : String) (arrivals : List Message) :
    Decidable (Uncrowded s jid arrivals) := inferInstanceAs (Decidable (∀ _ ∈ _, _))

section Retention

variable {s s' : Store} {jid : String}

/-- The previews depend on the newest messages only. -/
theorem PreviewsShown.of_newest (h : PreviewsShown s) (htail : ∀ jid, s'.tail jid = s.tail jid)
    (hnewest : ∀ jid, newestMessage s' jid = newestMessage s jid) : PreviewsShown s' := by
  intro jid p hp
  rw [htail] at hp
  rw [showsEntries_iff, hnewest, ← showsEntries_iff]
  exact h jid p hp

/-- Pruning keeps a newest message that is within the retention limit. -/
theorem newestMessage_keepNewest
    (h : ∀ r ∈ newestMessage s jid, WithinRetention (s.chatMessages jid) r) (jid' : String) :
    newestMessage (keepNewest plan s jid) jid' = newestMessage s jid' := by
  by_cases hj : jid' = jid
  · subst hj
    have hkept : (keepNewest plan s jid').chatMessages jid'
        = (s.chatMessages jid').filter
            (fun m => !(overflow plan (s.chatMessages jid')).contains m) := by
      have hrows : (keepNewest plan s jid').messages.rows = s.messages.rows.filter
          (fun m => !(m.chatJid = jid' && (overflow plan (s.chatMessages jid')).contains m)) := rfl
      generalize (overflow plan (s.chatMessages jid')) = dropped at hrows ⊢
      rw [Store.chatMessages, hrows, Store.chatMessages, List.filter_filter, List.filter_filter]
      refine List.filter_congr fun m _ => ?_
      by_cases hm : m.chatJid = jid' <;> simp [hm]
    rw [newestMessage, hkept]
    rcases hr : newestMessage s jid' with _ | r
    · rw [newestMessage, latest_eq_none] at hr
      rw [hr]
      rfl
    · refine latest_filter _ _ hr ?_
      simpa using not_mem_overflow plan (h r hr)
  · rw [newestMessage, chatMessages_keepNewest_of_ne plan _ hj, newestMessage]

/-- The rows that arrived are stored and arriving messages. -/
theorem MessagesOf.stamps {arrivals : List Message} (h : MessagesOf s arrivals s')
    {m : MessageRow} (hm : m ∈ s'.chatMessages jid) :
    (m.key, m.timestamp) ∈ s.stamps jid arrivals := by
  obtain ⟨hm, hj⟩ := Store.mem_chatMessages.mp hm
  rcases h m hm with ⟨m₀, hm₀, he⟩ | ⟨message, hmem, m₀, ha, he⟩
  · refine List.mem_append_left _ (List.mem_map.mpr ⟨m₀, ?_, ?_⟩)
    · exact Store.mem_chatMessages.mpr ⟨hm₀, he.chatJid ▸ hj⟩
    · rw [he.key, he.timestamp]
  · refine List.mem_append_right _ (List.mem_map.mpr ⟨message, ?_, ?_⟩)
    · exact List.mem_filter.mpr ⟨hmem, by rw [ha.accepted]; rfl⟩
    · rw [he.key, he.timestamp, ha.key, ha.timestamp]

/-- The newest message stays when no arriving message is newer and few share its time. -/
theorem withinRetention_of_uncrowded {arrivals : List Message} (h : MessagesOf s arrivals s')
    (hu : Uncrowded s jid arrivals) {r : MessageRow} (hr : newestMessage s' jid = some r)
    (hle : ∀ x ∈ s.stamps jid arrivals, x.2 ≤ r.timestamp) :
    WithinRetention (s'.chatMessages jid) r := by
  refine le_trans ?_ (hu _ (h.stamps (latest_mem _ hr)) hle)
  rw [Store.chatMessages, List.countP_filter, countP_rows_eq_card]
  refine Finset.card_le_card fun k hk => ?_
  rw [List.mem_toFinset, List.mem_map] at hk ⊢
  obtain ⟨m, hm, rfl⟩ := hk
  rw [List.mem_filter, Bool.and_eq_true, decide_eq_true_eq, decide_eq_true_eq] at hm
  have hmem := h.stamps (Store.mem_chatMessages.mpr ⟨hm.1, hm.2.2⟩)
  refine ⟨_, List.mem_filter.mpr ⟨hmem, ?_⟩, rfl⟩
  exact decide_eq_true (le_antisymm (hle _ hmem) hm.2.1)

end Retention

end OmarchyWhatsapp
