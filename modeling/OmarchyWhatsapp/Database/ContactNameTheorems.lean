import OmarchyWhatsapp.Database.Arrivals

/-!
# Names from the address book

A name from the address book is to win over every other name of a contact, in the chat row of
the direct chat and in the messages that the contact sent. Both places hold copies of the name.
Insertion looks the sender up and not the chat, so a chat row that is made after the contact
takes the name that came with the message.
-/

namespace OmarchyWhatsapp

open Relational

variable (plan : QueryPlan)

/-! ## The invariant -/

/-- The name of a contact that is in the address book. -/
def addressBookName (s : Store) (jid : String) : Option String :=
  (s.contacts.find? jid).bind (fun c => if c.source = 1 then some c.name else none)

/-- The copies of the names from the address book are right. -/
structure AddressBookKept (s : Store) : Prop where
  chats : ∀ c ∈ s.chats.rows, c.isGroup = false → ∀ name ∈ addressBookName s c.jid, c.name = name
  messages : ∀ m ∈ s.messages.rows, ∀ name ∈ addressBookName s m.senderJid, m.senderName = name

/-- The names of contacts, and the priorities of the names of chats. -/
structure NamesSound (s : Store) : Prop where
  contact : ∀ c ∈ s.contacts.rows, c.name ≠ ""
  source : ∀ c ∈ s.chats.rows, c.nameSource ≤ chatNameAddressBook
  unnamed : ∀ c ∈ s.chats.rows, c.nameSource = chatNameUnknown → c.name = ""

/-- Two chat rows with the same name, of the same kind. -/
structure SameName (c c' : ChatRow) : Prop where
  jid : c'.jid = c.jid
  name : c'.name = c.name
  nameSource : c'.nameSource = c.nameSource
  isGroup : c'.isGroup = c.isGroup

/-- Every name of `s'` is one of `s`. -/
structure NamesFrom (s s' : Store) : Prop where
  contacts : s'.contacts = s.contacts
  chats : ∀ c' ∈ s'.chats.rows, ∃ c ∈ s.chats.rows, SameName c c'
  messages : ∀ m' ∈ s'.messages.rows, ∃ m ∈ s.messages.rows,
    m'.senderJid = m.senderJid ∧ m'.senderName = m.senderName

section Names

variable {s s' s'' : Store}

theorem SameName.refl (c : ChatRow) : SameName c c := ⟨rfl, rfl, rfl, rfl⟩

theorem SameName.trans {c c' c'' : ChatRow} (h : SameName c c') (h' : SameName c' c'') :
    SameName c c'' where
  jid := h'.jid.trans h.jid
  name := h'.name.trans h.name
  nameSource := h'.nameSource.trans h.nameSource
  isGroup := h'.isGroup.trans h.isGroup

theorem addressBookName_congr (h : s'.contacts = s.contacts) (jid : String) :
    addressBookName s' jid = addressBookName s jid := by
  rw [addressBookName, h, addressBookName]

theorem addressBookName_eq_some {jid name : String} :
    addressBookName s jid = some name ↔
      ∃ c, s.contacts.find? jid = some c ∧ c.source = 1 ∧ c.name = name := by
  simp [addressBookName, Option.bind_eq_some_iff]

/-- A name from the address book is not empty. -/
theorem NamesSound.ne_empty (h : NamesSound s) {jid name : String}
    (hname : addressBookName s jid = some name) : name ≠ "" := by
  obtain ⟨c, hc, -, rfl⟩ := addressBookName_eq_some.mp hname
  exact h.contact c (Table.mem_of_find? hc)

theorem AddressBookKept.of_namesFrom (h : AddressBookKept s) (hfrom : NamesFrom s s') :
    AddressBookKept s' where
  chats c' hc' hdirect name hname := by
    obtain ⟨c, hc, hsame⟩ := hfrom.chats c' hc'
    rw [addressBookName_congr hfrom.contacts, hsame.jid] at hname
    rw [hsame.name]
    exact h.chats c hc (hsame.isGroup ▸ hdirect) name hname
  messages m' hm' name hname := by
    obtain ⟨m, hm, hsender, hsent⟩ := hfrom.messages m' hm'
    rw [addressBookName_congr hfrom.contacts, hsender] at hname
    rw [hsent]
    exact h.messages m hm name hname

theorem NamesSound.of_namesFrom (h : NamesSound s) (hfrom : NamesFrom s s') :
    NamesSound s' where
  contact c hc := h.contact c (hfrom.contacts ▸ hc)
  source c' hc' := by
    obtain ⟨c, hc, hsame⟩ := hfrom.chats c' hc'
    rw [hsame.nameSource]
    exact h.source c hc
  unnamed c' hc' hunknown := by
    obtain ⟨c, hc, hsame⟩ := hfrom.chats c' hc'
    rw [hsame.name]
    exact h.unnamed c hc (hsame.nameSource ▸ hunknown)

/-! ## Operations that leave the names -/

theorem sameName_of_eq (h : s'.chats = s.chats) :
    ∀ c' ∈ s'.chats.rows, ∃ c ∈ s.chats.rows, SameName c c' :=
  fun c' hc' => ⟨c', h ▸ hc', .refl c'⟩

theorem sameName_of_update {p : ChatRow → Bool} {f : ChatRow → ChatRow}
    (h : s'.chats.rows = s.chats.rows.map (fun c => if p c then f c else c))
    (hf : ∀ c, SameName c (f c)) : ∀ c' ∈ s'.chats.rows, ∃ c ∈ s.chats.rows, SameName c c' := by
  intro c' hc'
  rw [h] at hc'
  obtain ⟨c, hc, rfl⟩ := List.mem_map.mp hc'
  refine ⟨c, hc, ?_⟩
  split
  · exact hf c
  · exact .refl c

theorem sameSender_of_subset (h : ∀ m ∈ s'.messages.rows, m ∈ s.messages.rows) :
    ∀ m' ∈ s'.messages.rows, ∃ m ∈ s.messages.rows,
      m'.senderJid = m.senderJid ∧ m'.senderName = m.senderName :=
  fun m' hm' => ⟨m', h m' hm', rfl, rfl⟩

theorem sameSender_of_update {p : MessageRow → Bool} {f : MessageRow → MessageRow}
    (h : s'.messages.rows = s.messages.rows.map (fun m => if p m then f m else m))
    (hf : ∀ m, (f m).senderJid = m.senderJid ∧ (f m).senderName = m.senderName) :
    ∀ m' ∈ s'.messages.rows, ∃ m ∈ s.messages.rows,
      m'.senderJid = m.senderJid ∧ m'.senderName = m.senderName := by
  intro m' hm'
  rw [h] at hm'
  obtain ⟨m, hm, rfl⟩ := List.mem_map.mp hm'
  refine ⟨m, hm, ?_⟩
  split
  · exact hf m
  · exact ⟨rfl, rfl⟩

theorem NamesFrom.of_eq (hcontacts : s'.contacts = s.contacts) (hchats : s'.chats = s.chats)
    (hmessages : s'.messages = s.messages) : NamesFrom s s' :=
  ⟨hcontacts, sameName_of_eq hchats, sameSender_of_subset fun _ hm => hmessages ▸ hm⟩

theorem NamesFrom.trans (h : NamesFrom s s') (h' : NamesFrom s' s'') : NamesFrom s s'' where
  contacts := h'.contacts.trans h.contacts
  chats c'' hc'' := by
    obtain ⟨c', hc', hsame'⟩ := h'.chats c'' hc''
    obtain ⟨c, hc, hsame⟩ := h.chats c' hc'
    exact ⟨c, hc, hsame.trans hsame'⟩
  messages m'' hm'' := by
    obtain ⟨m', hm', hsender', hsent'⟩ := h'.messages m'' hm''
    obtain ⟨m, hm, hsender, hsent⟩ := h.messages m' hm'
    exact ⟨m, hm, hsender'.trans hsender, hsent'.trans hsent⟩

theorem updateMessageMediaInto_namesFrom (s : Store) (chatJid messageId : String)
    (media : MessageMedia) :
    NamesFrom s (updateMessageMediaInto plan s chatJid messageId media).1 :=
  ⟨rfl, sameName_of_update rfl fun _ => ⟨rfl, rfl, rfl, rfl⟩,
    sameSender_of_update rfl fun _ => ⟨rfl, rfl⟩⟩

theorem applyReadBoundary_namesFrom (s : Store) (chatJid : String) (timestamp : ℤ)
    (ids : List String) : NamesFrom s (applyReadBoundary plan s chatJid timestamp ids).1 :=
  ⟨rfl, sameName_of_update rfl fun _ => ⟨rfl, rfl, rfl, rfl⟩,
    sameSender_of_update rfl fun _ => ⟨rfl, rfl⟩⟩

theorem applyReadState_namesFrom (s : Store) (chatJid : String) (read : Bool) :
    NamesFrom s (applyReadState plan s chatJid read).1 := by
  unfold applyReadState
  split
  · exact applyReadBoundary_namesFrom plan s chatJid _ _
  · exact .of_eq rfl rfl rfl

theorem applySyncedReadState_namesFrom (s : Store) (chatJid : String) (read : Bool)
    (boundary : Option ℤ) (ids : List String) (eventTimestamp : ℤ) :
    NamesFrom s (applySyncedReadState plan s chatJid read boundary ids eventTimestamp).1 := by
  unfold applySyncedReadState
  split
  · exact .of_eq rfl rfl rfl
  · dsimp only
    split
    · exact (applyReadBoundary_namesFrom plan s chatJid _ ids).trans (.of_eq rfl rfl rfl)
    · exact (applyReadState_namesFrom plan s chatJid false).trans (.of_eq rfl rfl rfl)

theorem applySelfReadReceipt_namesFrom (s : Store) (chatJid : String) (ids : List String)
    (timestamp : ℤ) : NamesFrom s (applySelfReadReceipt plan s chatJid ids timestamp).1 := by
  unfold applySelfReadReceipt
  split
  · exact .of_eq rfl rfl rfl
  · exact applyReadBoundary_namesFrom plan s chatJid _ ids

theorem applyPollVote_namesFrom (s : Store) (chatJid messageId voterJid : String)
    (selected : List String) (fromMe : Bool) (timestamp : ℤ) :
    NamesFrom s
      (s.apply plan (.applyPollVote chatJid messageId voterJid selected fromMe timestamp)) := by
  refine ⟨by simp, sameName_of_eq (by simp), ?_⟩
  dsimp only [Store.apply, applyPollVote]
  split
  · split_ifs
    · exact sameSender_of_subset fun _ hm => hm
    · refine sameSender_of_update rfl ?_
      exact fun _ => ⟨rfl, rfl⟩
    · exact sameSender_of_subset fun _ hm => hm
  · exact sameSender_of_subset fun _ hm => hm

theorem updateReceipt_namesFrom (s : Store) (chatJid id : String) (receipt : ℕ)
    (reader : Option String) (receiptAt : ℤ) :
    NamesFrom s (updateReceipt s chatJid id receipt reader receiptAt).1 :=
  ⟨by simp, sameName_of_eq (by simp),
    sameSender_of_update (congrArg Table.rows (updateReceipt_messages s _ _ _ _ _))
      fun _ => ⟨rfl, rfl⟩⟩

theorem deleteMessagesThrough_namesFrom (s : Store) (chatJid : String) (timestamp : ℤ) :
    NamesFrom s (deleteMessagesThrough s chatJid timestamp) :=
  ⟨rfl, sameName_of_eq rfl, sameSender_of_subset fun _ hm => (mem_deleteMessagesThrough.mp hm).1⟩

theorem refreshChatTail_namesFrom (s : Store) (chatJid : String) :
    NamesFrom s (refreshChatTail s chatJid) :=
  ⟨rfl, sameName_of_update rfl fun _ => ⟨rfl, rfl, rfl, rfl⟩, sameSender_of_subset fun _ hm => hm⟩

theorem deleteChat_namesFrom (s : Store) (chatJid : String) (timestamp : ℤ) :
    NamesFrom s (deleteChat s chatJid timestamp) := by
  have hcleared := deleteMessagesThrough_namesFrom s chatJid timestamp
  unfold deleteChat
  split
  · exact .of_eq rfl rfl rfl
  · dsimp only
    split
    · exact (hcleared.trans (refreshChatTail_namesFrom _ chatJid)).trans (.of_eq rfl rfl rfl)
    · refine ⟨rfl, fun c hc => ⟨c, (Table.mem_deleteWhere.mp hc).1, .refl c⟩, ?_⟩
      exact hcleared.messages

theorem clearChat_namesFrom (s : Store) (chatJid : String) (timestamp : ℤ) :
    NamesFrom s (clearChat s chatJid timestamp) := by
  unfold clearChat
  split
  · exact .of_eq rfl rfl rfl
  · exact ((deleteMessagesThrough_namesFrom s chatJid timestamp).trans
      (refreshChatTail_namesFrom _ chatJid)).trans (.of_eq rfl rfl rfl)

theorem deleteMessage_namesFrom (s : Store) (chatJid messageId : String) :
    NamesFrom s (deleteMessage plan s chatJid messageId) :=
  ⟨rfl, sameName_of_update rfl fun _ => ⟨rfl, rfl, rfl, rfl⟩,
    sameSender_of_subset fun _ hm => (Table.mem_deleteWhere.mp hm).1⟩

theorem pruneChatHistory_namesFrom (s : Store) (jid : String) :
    NamesFrom s (pruneChatHistory plan s jid) :=
  ⟨rfl, sameName_of_eq rfl, sameSender_of_subset fun _ hm => (Table.mem_deleteWhere.mp hm).1⟩

/-- The operations that write a name, or bring a row with one. -/
def Op.writesNames : Op → Bool
  | .insertMessage .. | .insertMessageWithReadIntent .. | .insertHistoryConversation _
  | .updateContactName .. | .updateAddressBookName .. | .updateGroupName ..
  | .migrateContactJid .. => true
  | _ => false

theorem apply_namesFrom (s : Store) {op : Op} (h : op.writesNames = false) :
    NamesFrom s (s.apply plan op) := by
  cases op with
  | updateChatPhoneNumber =>
    exact ⟨rfl, sameName_of_update rfl fun _ => ⟨rfl, rfl, rfl, rfl⟩,
      sameSender_of_subset fun _ hm => hm⟩
  | applyReaction =>
    exact .of_eq (by simp [Store.apply]) (by simp [Store.apply]) (by simp [Store.apply])
  | storePollSecret =>
    exact .of_eq (by simp [Store.apply]) (by simp [Store.apply]) (by simp [Store.apply])
  | applyPollVote => exact applyPollVote_namesFrom plan s _ _ _ _ _ _
  | updateMessageMedia => exact updateMessageMediaInto_namesFrom plan s _ _ _
  | storeMediaDownload =>
    exact ⟨rfl, sameName_of_eq rfl, sameSender_of_update rfl fun _ => ⟨rfl, rfl⟩⟩
  | rewriteMediaPaths =>
    exact ⟨rfl, sameName_of_eq rfl, sameSender_of_update rfl fun _ => ⟨rfl, rfl⟩⟩
  | markRead chatJid => exact applyReadBoundary_namesFrom plan s chatJid _ _
  | applyReadState => exact applyReadState_namesFrom plan s _ _
  | applySyncedReadState => exact applySyncedReadState_namesFrom plan s _ _ _ _ _
  | applySelfReadReceipt => exact applySelfReadReceipt_namesFrom plan s _ _ _
  | reconcileUnread =>
    exact ⟨rfl, sameName_of_update rfl fun _ => ⟨rfl, rfl, rfl, rfl⟩,
      sameSender_of_subset fun _ hm => hm⟩
  | applyPinAt => exact .of_eq rfl rfl rfl
  | applyArchiveAt => exact .of_eq rfl rfl rfl
  | applyMuteAt => exact .of_eq rfl rfl rfl
  | updateReceipts chatJid ids receipt reader receiptAt =>
    exact updateReceipts_induction s chatJid ids receipt reader receiptAt
      (fun s' id h => h.trans (updateReceipt_namesFrom s' chatJid id receipt reader receiptAt))
      (.of_eq rfl rfl rfl)
  | queueReadReceipts => exact .of_eq rfl rfl rfl
  | finishReadBatch => exact .of_eq rfl rfl rfl
  | deleteChat => exact deleteChat_namesFrom s _ _
  | clearChat => exact clearChat_namesFrom s _ _
  | deleteMessage => exact deleteMessage_namesFrom plan s _ _
  | _ => cases h

/-! ## A name is learned -/

/-- A push name or a name from the address book is accepted. -/
def acceptsName (s : Store) (jid name : String) (source : ℕ) : Prop :=
  trim name ≠ "" ∧ ∀ c ∈ s.contacts.find? jid, c.source ≤ source

/-- The priority of a contact name in a chat row. -/
def contactNameSource (source : ℕ) : ℕ :=
  if source > 0 then chatNameAddressBook else chatNameMessage

theorem contactNameSource_bounds (source : ℕ) :
    chatNameUnknown < contactNameSource source ∧
      contactNameSource source ≤ chatNameAddressBook := by
  unfold contactNameSource
  split <;> decide

theorem updateContactNameInto_of_rejected {jid name : String} {source : ℕ}
    (h : ¬acceptsName s jid name source) :
    updateContactNameInto s jid name source = (s, false) := by
  unfold updateContactNameInto
  split
  · rfl
  · rename_i hne
    rw [if_pos]
    rw [acceptsName, not_and] at h
    push Not at h
    obtain ⟨c, hc, hlt⟩ := h hne
    rw [Option.mem_def.mp hc]
    exact decide_eq_true hlt

theorem updateContactNameInto_of_accepted {jid name : String} {source : ℕ}
    (h : acceptsName s jid name source) :
    (∀ x, (updateContactNameInto s jid name source).1.contacts.find? x
      = if x = jid then some ⟨jid, trim name, source⟩ else s.contacts.find? x) ∧
    (updateContactNameInto s jid name source).1.chats.rows = s.chats.rows.map (fun c =>
      if c.jid = jid && !c.isGroup && decide (c.nameSource ≤ contactNameSource source) then
        { c with name := trim name, nameSource := contactNameSource source }
      else c) ∧
    (updateContactNameInto s jid name source).1.messages.rows = s.messages.rows.map (fun m =>
      if m.senderJid = jid then { m with senderName := trim name } else m) := by
  have hsource : ¬(s.contacts.find? jid).any (fun c => decide (source < c.source)) = true := by
    rcases hc : s.contacts.find? jid with _ | c
    · simp
    · simpa using h.2 c hc
  rw [updateContactNameInto, if_neg h.1, if_neg hsource]
  refine ⟨fun x => ?_, rfl, ?_⟩
  · have hfind := Table.find?_upsert s.contacts ⟨jid, trim name, source⟩
      (fun old new => { old with name := new.name, source := new.source }) (fun _ _ => rfl) x
    refine hfind.trans ?_
    dsimp only
    split
    · rename_i hx
      rcases hc : s.contacts.find? x with _ | c
      · rfl
      · have hjid : c.jid = jid := (Table.key_of_find? hc).trans hx
        simp [hjid]
    · rfl
  · refine List.map_congr_left fun m _ => ?_
    simp

theorem AddressBookKept.updateContactNameInto (h : AddressBookKept s) (hs : NamesSound s)
    (jid name : String) (source : ℕ) :
    AddressBookKept (updateContactNameInto s jid name source).1 := by
  by_cases haccepted : acceptsName s jid name source
  swap
  · rw [updateContactNameInto_of_rejected haccepted]
    exact h
  obtain ⟨hcontacts, hchats, hmessages⟩ := updateContactNameInto_of_accepted haccepted
  have hname : ∀ x, addressBookName (OmarchyWhatsapp.updateContactNameInto s jid name source).1 x
      = if x = jid then (if source = 1 then some (trim name) else none)
        else addressBookName s x := by
    intro x
    rw [addressBookName, hcontacts]
    split <;> rfl
  refine ⟨fun c' hc' hdirect y hy => ?_, fun m' hm' y hy => ?_⟩
  · rw [hchats] at hc'
    obtain ⟨c, hc, rfl⟩ := List.mem_map.mp hc'
    split at hdirect
    · rename_i hrenamed
      rw [if_pos hrenamed] at hy ⊢
      simp only [Bool.and_eq_true, decide_eq_true_eq] at hrenamed
      rw [hname, if_pos hrenamed.1.1] at hy
      split at hy
      · exact Option.some_inj.mp hy
      · cases hy
    · rename_i hkept
      rw [if_neg hkept] at hy ⊢
      rw [hname] at hy
      split at hy
      · -- a direct chat of this contact is renamed by the address book, whatever its name
        rename_i hj
        split at hy
        · rename_i hbook
          have hle : c.nameSource ≤ contactNameSource source := by
            rw [hbook]
            exact hs.source c hc
          exact absurd (by simp [hj, hdirect, hle]) hkept
        · cases hy
      · exact h.chats c hc hdirect y hy
  · rw [hmessages] at hm'
    obtain ⟨m, hm, rfl⟩ := List.mem_map.mp hm'
    by_cases hj : m.senderJid = jid
    · rw [if_pos hj] at hy ⊢
      rw [hname, if_pos hj] at hy
      split at hy
      · exact Option.some_inj.mp hy
      · cases hy
    · rw [if_neg hj] at hy ⊢
      rw [hname, if_neg hj] at hy
      exact h.messages m hm y hy

theorem NamesSound.updateContactNameInto (hs : NamesSound s) (jid name : String) (source : ℕ) :
    NamesSound (updateContactNameInto s jid name source).1 := by
  by_cases haccepted : acceptsName s jid name source
  swap
  · rw [updateContactNameInto_of_rejected haccepted]
    exact hs
  obtain ⟨hcontacts, hchats, -⟩ := updateContactNameInto_of_accepted haccepted
  refine ⟨fun c hc => ?_, fun c' hc' => ?_, fun c' hc' hunknown => ?_⟩
  · have hfind := Table.find?_of_mem hc
    rw [hcontacts] at hfind
    split at hfind
    · rw [← Option.some_inj.mp hfind]
      exact haccepted.1
    · exact hs.contact c (Table.mem_of_find? hfind)
  · rw [hchats] at hc'
    obtain ⟨c, hc, rfl⟩ := List.mem_map.mp hc'
    split
    · exact (contactNameSource_bounds source).2
    · exact hs.source c hc
  · rw [hchats] at hc'
    obtain ⟨c, hc, rfl⟩ := List.mem_map.mp hc'
    split at hunknown
    · have hpos := (contactNameSource_bounds source).1
      exact absurd hunknown hpos.ne'
    · rename_i hkept
      rw [if_neg hkept]
      exact hs.unnamed c hc hunknown

theorem AddressBookKept.updateGroupName (h : AddressBookKept s) (jid name : String) :
    AddressBookKept (updateGroupName s jid name).1 := by
  unfold OmarchyWhatsapp.updateGroupName
  split
  · exact h
  · refine ⟨fun c' hc' hdirect => ?_, h.messages⟩
    obtain ⟨c, hc, rfl⟩ := List.mem_map.mp hc'
    split at hdirect
    · rename_i hgroup
      simp only [Bool.and_eq_true] at hgroup
      rw [hgroup.1.2] at hdirect
      cases hdirect
    · rename_i hkept
      rw [if_neg hkept]
      exact h.chats c hc hdirect

theorem NamesSound.updateGroupName (hs : NamesSound s) (jid name : String) :
    NamesSound (updateGroupName s jid name).1 := by
  unfold OmarchyWhatsapp.updateGroupName
  split
  · exact hs
  · refine ⟨hs.contact, fun c' hc' => ?_, fun c' hc' hunknown => ?_⟩
    · obtain ⟨c, hc, rfl⟩ := List.mem_map.mp hc'
      split
      · exact show chatNameGroupMetadata ≤ chatNameAddressBook by decide
      · exact hs.source c hc
    · obtain ⟨c, hc, rfl⟩ := List.mem_map.mp hc'
      split at hunknown
      · cases hunknown
      · rename_i hkept
        rw [if_neg hkept]
        exact hs.unnamed c hc hunknown

end Names

/-! ## A message arrives -/

/-- The chat row that an accepted message leaves carries the name of the contact. -/
def NamedRight (s : Store) (insert : MessageInsert) : Prop :=
  insert.isGroup = false → ∀ name ∈ addressBookName s insert.message.chatJid,
    (s.chats.find? insert.message.chatJid = none → (proposedChat insert).name = name) ∧
    ∀ c ∈ s.chats.find? insert.message.chatJid, c.isGroup = true → c.name = name

instance (s : Store) (insert : MessageInsert) : Decidable (NamedRight s insert) :=
  inferInstanceAs (Decidable (_ → ∀ _ ∈ addressBookName s insert.message.chatJid, _))

section Insertion

variable {s s' : Store} {insert : MessageInsert}

/-- A candidate without a priority is empty. -/
theorem chatNameCandidate_sound (chatName jid : String) {source : ℕ}
    (hpos : chatNameUnknown < source) (hle : source ≤ chatNameAddressBook) :
    (chatNameCandidate chatName jid source).2 ≤ chatNameAddressBook ∧
      ((chatNameCandidate chatName jid source).2 = chatNameUnknown →
        (chatNameCandidate chatName jid source).1 = "") := by
  unfold chatNameCandidate
  split
  · exact ⟨Nat.zero_le _, fun _ => rfl⟩
  · exact ⟨hle, fun h => absurd h hpos.ne'⟩

theorem storedSenderName_of_addressBook {m : Message} {name : String}
    (h : addressBookName s m.senderJid = some name) : storedSenderName s m = name := by
  obtain ⟨c, hc, hsource, rfl⟩ := addressBookName_eq_some.mp h
  simp [storedSenderName, hc, hsource]

/-- A chat row after an accepted message: an older one, or the one of the message. -/
theorem mem_chats_insertMessageInto (haccepted : suppressed s insert.message = false)
    {c' : ChatRow} (hc' : c' ∈ (insertMessageInto s insert).1.chats.rows) :
    (∃ c ∈ s.chats.rows, SameName c c') ∨
    (∃ c ∈ s.chats.rows, s.chats.find? insert.message.chatJid = some c ∧ c'.jid = c.jid ∧
      c'.name = c.name ∧ c'.nameSource = c.nameSource ∧ c'.isGroup = insert.isGroup) ∨
    (s.chats.find? insert.message.chatJid = none ∧ c'.jid = insert.message.chatJid ∧
      c'.name = (proposedChat insert).name ∧ c'.nameSource = (proposedChat insert).nameSource ∧
      c'.isGroup = insert.isGroup) := by
  have hfind := Table.find?_of_mem hc'
  rw [find?_chats_insertMessageInto haccepted] at hfind
  split at hfind
  · rename_i hj
    rw [Option.some_inj] at hfind
    have hj' : s.chats.find? c'.jid = s.chats.find? insert.message.chatJid := congrArg _ hj
    rw [hj'] at hfind
    rcases hrow : s.chats.find? insert.message.chatJid with _ | c
    · rw [hrow, Option.elim_none] at hfind
      refine Or.inr (Or.inr ⟨rfl, hj, ?_⟩)
      subst hfind
      dsimp only [proposedChat]
      exact ⟨rfl, rfl, rfl⟩
    · rw [hrow] at hfind
      have hkey : c.jid = insert.message.chatJid := Table.key_of_find? hrow
      refine Or.inr (Or.inl ⟨c, Table.mem_of_find? hrow, rfl, hj.trans hkey.symm, ?_⟩)
      rw [← hfind]
      exact ⟨rfl, rfl, rfl⟩
  · exact Or.inl ⟨c', Table.mem_of_find? hfind, .refl c'⟩

theorem AddressBookKept.insertMessageInto (h : AddressBookKept s)
    (hguard : suppressed s insert.message = true ∨ NamedRight s insert) :
    AddressBookKept (insertMessageInto s insert).1 := by
  by_cases hs : suppressed s insert.message = true
  · rw [insertMessageInto_of_suppressed hs]
    exact h
  have hnamed := hguard.resolve_left hs
  rw [Bool.not_eq_true] at hs
  have hcontacts : (OmarchyWhatsapp.insertMessageInto s insert).1.contacts = s.contacts :=
    (insertMessageInto_frame s insert).1
  refine ⟨fun c' hc' hdirect name hname => ?_, fun m' hm' name hname => ?_⟩
  · rw [addressBookName_congr hcontacts] at hname
    rcases mem_chats_insertMessageInto hs hc' with
      ⟨c, hc, hsame⟩ | ⟨c, hc, hrow, hj, hcn, -, hgroup⟩ | ⟨hrow, hj, hcn, -, hgroup⟩
    · rw [hsame.jid] at hname
      rw [hsame.name]
      exact h.chats c hc (hsame.isGroup ▸ hdirect) name hname
    · have hkey : c.jid = insert.message.chatJid := Table.key_of_find? hrow
      rw [hj] at hname
      rw [hcn]
      cases hold : c.isGroup with
      | false => exact h.chats c hc hold name hname
      | true => exact (hnamed (hgroup ▸ hdirect) name (hkey ▸ hname)).2 c hrow hold
    · exact hcn.trans ((hnamed (hgroup ▸ hdirect) name (hj ▸ hname)).1 hrow)
  · rw [addressBookName_congr hcontacts] at hname
    rw [insertMessageInto_messages hs] at hm'
    rcases Table.mem_insertOrIgnore.mp hm' with hm' | ⟨rfl, -⟩
    · exact h.messages m' hm' name hname
    · exact storedSenderName_of_addressBook hname

theorem NamesSound.insertMessageInto (hs : NamesSound s) (insert : MessageInsert) :
    NamesSound (insertMessageInto s insert).1 := by
  by_cases hsup : suppressed s insert.message = true
  · rw [insertMessageInto_of_suppressed hsup]
    exact hs
  rw [Bool.not_eq_true] at hsup
  have hproposed : (proposedChat insert).nameSource ≤ chatNameAddressBook ∧
      ((proposedChat insert).nameSource = chatNameUnknown → (proposedChat insert).name = "") := by
    dsimp only [proposedChat]
    refine chatNameCandidate_sound _ _ ?_ ?_ <;> split <;> decide
  refine ⟨fun c hc => ?_, fun c' hc' => ?_, fun c' hc' hunknown => ?_⟩
  · rw [(insertMessageInto_frame s insert).1] at hc
    exact hs.contact c hc
  · rcases mem_chats_insertMessageInto hsup hc' with
      ⟨c, hc, hsame⟩ | ⟨c, hc, -, -, -, hns, -⟩ | ⟨-, -, -, hns, -⟩
    · rw [hsame.nameSource]
      exact hs.source c hc
    · rw [hns]
      exact hs.source c hc
    · rw [hns]
      exact hproposed.1
  · rcases mem_chats_insertMessageInto hsup hc' with
      ⟨c, hc, hsame⟩ | ⟨c, hc, -, -, hcn, hns, -⟩ | ⟨-, -, hcn, hns, -⟩
    · rw [hsame.name]
      exact hs.unnamed c hc (hsame.nameSource ▸ hunknown)
    · rw [hcn]
      exact hs.unnamed c hc (hns ▸ hunknown)
    · rw [hcn]
      exact hproposed.2 (hns ▸ hunknown)

end Insertion

/-! ## A conversation is replayed -/

/-- The chat row that a replayed conversation leaves carries the name of the contact, unless
the conversation leaves none. -/
def HistoryNamedRight (s : Store) (c : Conversation) : Prop :=
  c.chat.isGroup = false → ∀ name ∈ addressBookName s c.chat.jid,
    (chatDeleted s c.chat.jid = true ∧ ∀ m ∈ c.messages, suppressed s m = true) ∨
    (s.chats.find? c.chat.jid = none → (proposedHistoryChat c.chat).name = name) ∧
    ∀ row ∈ s.chats.find? c.chat.jid, row.isGroup = true →
      (if chatDeleted s c.chat.jid then row
        else mergeHistoryChat row (proposedHistoryChat c.chat)).name = name

instance (s : Store) (c : Conversation) : Decidable (HistoryNamedRight s c) :=
  inferInstanceAs (Decidable (_ → ∀ _ ∈ addressBookName s c.chat.jid, _))

/-- The chat has the name of the contact, or will be made with it. -/
structure ChatNamed (s : Store) (chat : Chat) (name : String) : Prop where
  made : (proposedHistoryChat chat).name = name ∨ s.hasChat chat.jid
  named : ∀ c ∈ s.chats.rows, c.jid = chat.jid → c.name = name

section History

variable {s s' : Store}

theorem addressBookName_learn (s : Store) (jid name x : String) :
    addressBookName (updateContactNameInto s jid name 0).1 x = addressBookName s x := by
  by_cases h : acceptsName s jid name 0
  · rw [addressBookName, (updateContactNameInto_of_accepted h).1]
    split
    · rename_i hx
      rw [hx, addressBookName]
      rcases hc : s.contacts.find? jid with _ | c
      · rfl
      · have hzero : c.source = 0 := Nat.le_zero.mp (h.2 c hc)
        simp [hzero]
    · rfl
  · rw [updateContactNameInto_of_rejected h]

/-- A push name is not accepted for a contact from the address book. -/
theorem not_acceptsName_of_addressBook {jid name book : String}
    (h : addressBookName s jid = some book) : ¬acceptsName s jid name 0 := by
  intro haccepted
  obtain ⟨c, hc, hsource, -⟩ := addressBookName_eq_some.mp h
  have hle := haccepted.2 c hc
  omega

theorem ChatNamed.updateContactNameInto {chat : Chat} {book : String}
    (h : ChatNamed s chat book) (hbook : addressBookName s chat.jid = some book)
    (jid name : String) : ChatNamed (updateContactNameInto s jid name 0).1 chat book := by
  by_cases haccepted : acceptsName s jid name 0
  swap
  · rw [updateContactNameInto_of_rejected haccepted]
    exact h
  refine ⟨h.made.imp_right fun hrow =>
    (updateContactNameInto_sameChats s jid name 0 chat.jid).mpr hrow, fun c' hc' hj => ?_⟩
  rw [(updateContactNameInto_of_accepted haccepted).2.1] at hc'
  obtain ⟨c, hc, rfl⟩ := List.mem_map.mp hc'
  split
  · rename_i hcond
    rw [if_pos hcond] at hj
    simp only [Bool.and_eq_true, decide_eq_true_eq] at hcond
    have hsame : jid = chat.jid := hcond.1.1.symm.trans hj
    rw [hsame] at haccepted
    exact absurd haccepted (not_acceptsName_of_addressBook hbook)
  · rename_i hcond
    rw [if_neg hcond] at hj
    exact h.named c hc hj

theorem ChatNamed.of_namesFrom {chat : Chat} {name : String} (h : ChatNamed s chat name)
    (hfrom : NamesFrom s s') (hchats : SameChats s s') : ChatNamed s' chat name where
  made := h.made.imp_right (hchats chat.jid).mpr
  named c' hc' hj := by
    obtain ⟨c, hc, hsame⟩ := hfrom.chats c' hc'
    rw [hsame.name]
    exact h.named c hc (hsame.jid ▸ hj)

theorem ChatNamed.namedRight {chat : Chat} {name : String} {m : Message}
    (h : ChatNamed s chat name) (hchat : m.chatJid = chat.jid)
    (hname : addressBookName s chat.jid = some name) : NamedRight s (historyInsert chat m) := by
  intro _ book hbook
  have hjid : (historyInsert chat m).message.chatJid = chat.jid := hchat
  rw [hjid, hname, Option.mem_some_iff] at hbook
  subst hbook
  rw [hjid]
  refine ⟨fun hnone => ?_, fun c hc _ => h.named c (Table.mem_of_find? hc) (Table.key_of_find? hc)⟩
  rcases h.made with hmade | hrow
  · have hsame : (proposedChat (historyInsert chat m)).name = (proposedHistoryChat chat).name := by
      dsimp only [proposedChat, historyInsert, proposedHistoryChat]
      rw [hchat, if_pos rfl]
    exact hsame.trans hmade
  · obtain ⟨c, hc⟩ := hasChat_iff_find?.mp hrow
    rw [hnone] at hc
    cases hc

theorem ChatNamed.insertMessageInto {chat : Chat} {name : String} {m : Message}
    (h : ChatNamed s chat name) (hchat : m.chatJid = chat.jid)
    (hname : addressBookName s chat.jid = some name) (hdirect : chat.isGroup = false) :
    ChatNamed (insertMessageInto s (historyInsert chat m)).1 chat name := by
  have hright := h.namedRight hchat hname hdirect
  have hjid : (historyInsert chat m).message.chatJid = chat.jid := hchat
  rw [hjid] at hright
  by_cases hs : suppressed s (historyInsert chat m).message = true
  · rw [insertMessageInto_of_suppressed hs]
    exact h
  rw [Bool.not_eq_true] at hs
  refine ⟨h.made.imp_right fun hrow => hasChat_insertMessageInto.mpr (Or.inl hrow),
    fun c' hc' hj => ?_⟩
  rcases mem_chats_insertMessageInto hs hc' with
    ⟨c, hc, hsame⟩ | ⟨c, hc, hrow, hcj, hcn, -, -⟩ | ⟨hrow, -, hcn, -, -⟩
  · rw [hsame.name]
    exact h.named c hc (hsame.jid ▸ hj)
  · rw [hcn]
    exact h.named c hc (hcj ▸ hj)
  · rw [hcn]
    exact (hright name hname).1 (hjid ▸ hrow)

/-- What holds along a slice: the names are right, and the chat of the slice has its name
unless no message of the slice is accepted. -/
structure SliceNamed (s₀ : Store) (chat : Chat) (messages : List Message) (s : Store) : Prop where
  kept : AddressBookKept s
  sound : NamesSound s
  book : ∀ x, addressBookName s x = addressBookName s₀ x
  suppressed : ∀ m, suppressed s m = suppressed s₀ m
  chat : chat.isGroup = false → ∀ name ∈ addressBookName s₀ chat.jid,
    (∀ m ∈ messages, OmarchyWhatsapp.suppressed s₀ m = true) ∨ ChatNamed s chat name

theorem SliceNamed.learnSenderName {s₀ : Store} {chat : Chat} {messages : List Message}
    (h : SliceNamed s₀ chat messages s) (m : Message) :
    SliceNamed s₀ chat messages (learnSenderName s m) := by
  unfold OmarchyWhatsapp.learnSenderName
  split
  · refine ⟨h.kept.updateContactNameInto h.sound _ _ 0, h.sound.updateContactNameInto _ _ 0,
      fun x => (addressBookName_learn s _ _ x).trans (h.book x),
      fun x => (suppressed_congr (by simp) (by simp) x).trans (h.suppressed x),
      fun hdirect name hname => (h.chat hdirect name hname).imp_right fun hnamed => ?_⟩
    exact hnamed.updateContactNameInto ((h.book _).trans hname) _ _
  · exact h

theorem SliceNamed.of_namesFrom {s₀ : Store} {chat : Chat} {messages : List Message}
    (h : SliceNamed s₀ chat messages s) (hfrom : NamesFrom s s') (hchats : SameChats s s')
    (hsup : ∀ m, OmarchyWhatsapp.suppressed s' m = OmarchyWhatsapp.suppressed s m) :
    SliceNamed s₀ chat messages s' where
  kept := h.kept.of_namesFrom hfrom
  sound := h.sound.of_namesFrom hfrom
  book x := (addressBookName_congr hfrom.contacts x).trans (h.book x)
  suppressed m := (hsup m).trans (h.suppressed m)
  chat hdirect name hname :=
    (h.chat hdirect name hname).imp_right fun hnamed => hnamed.of_namesFrom hfrom hchats

theorem SliceNamed.insertMessageInto {s₀ : Store} {chat : Chat} {messages : List Message}
    (h : SliceNamed s₀ chat messages s) {m : Message} (hm : m ∈ messages)
    (hchat : m.chatJid = chat.jid) :
    SliceNamed s₀ chat messages (insertMessageInto s (historyInsert chat m)).1 where
  kept := by
    refine h.kept.insertMessageInto ?_
    by_cases hs : OmarchyWhatsapp.suppressed s m = true
    · exact Or.inl hs
    · refine Or.inr fun hdirect name hname => ?_
      have hjid : (historyInsert chat m).message.chatJid = chat.jid := hchat
      rw [hjid, h.book] at hname
      rcases h.chat hdirect name hname with hall | hnamed
      · exact absurd ((h.suppressed m).trans (hall m hm)) hs
      · refine hnamed.namedRight hchat ((h.book _).trans hname) hdirect name ?_
        rw [hjid, h.book]
        exact hname
  sound := h.sound.insertMessageInto _
  book x := (addressBookName_congr (insertMessageInto_frame s _).1 x).trans (h.book x)
  suppressed x := (suppressed_congr (by simp) (by simp) x).trans (h.suppressed x)
  chat hdirect name hname := (h.chat hdirect name hname).imp_right fun hnamed =>
    hnamed.insertMessageInto hchat ((h.book _).trans hname) hdirect

theorem SliceNamed.insertHistoryMessageInto {s₀ : Store} {chat : Chat} {messages : List Message}
    (h : SliceNamed s₀ chat messages s) {m : Message} (hm : m ∈ messages)
    (hchat : m.chatJid = chat.jid) :
    SliceNamed s₀ chat messages (insertHistoryMessageInto plan s chat m).1 := by
  have hinserted := (h.learnSenderName m).insertMessageInto hm hchat
  unfold OmarchyWhatsapp.insertHistoryMessageInto
  dsimp only
  split
  · exact hinserted
  · split
    · exact hinserted
    · exact hinserted.of_namesFrom (updateMessageMediaInto_namesFrom plan _ _ _ _)
        (updateMessageMediaInto_sameChats plan _ _ _ _)
        (fun x => suppressed_congr (by simp) (by simp) x)

/-- A chat row after the header: an older one, a renamed one, or the one of the header. -/
theorem mem_chats_insertHistoryChatInto {chat : Chat} {c' : ChatRow}
    (hopen : chatDeleted s chat.jid = false)
    (hc' : c' ∈ (insertHistoryChatInto s chat).chats.rows) :
    (c' ∈ s.chats.rows ∧ c'.jid ≠ chat.jid) ∨
    (∃ c, s.chats.find? chat.jid = some c ∧ c' = mergeHistoryChat c (proposedHistoryChat chat)) ∨
    (s.chats.find? chat.jid = none ∧ c' = proposedHistoryChat chat) := by
  have hfind := Table.find?_of_mem hc'
  rw [find?_insertHistoryChatInto hopen] at hfind
  split at hfind
  · rename_i hj
    rw [hj, Option.some_inj] at hfind
    rcases hrow : s.chats.find? chat.jid with _ | c
    · rw [hrow] at hfind
      exact Or.inr (Or.inr ⟨rfl, hfind.symm⟩)
    · rw [hrow] at hfind
      exact Or.inr (Or.inl ⟨c, rfl, hfind.symm⟩)
  · rename_i hj
    exact Or.inl ⟨Table.mem_of_find? hfind, hj⟩

theorem proposedHistoryChat_sound (chat : Chat) :
    (proposedHistoryChat chat).nameSource ≤ chatNameAddressBook ∧
      ((proposedHistoryChat chat).nameSource = chatNameUnknown →
        (proposedHistoryChat chat).name = "") := by
  dsimp only [proposedHistoryChat]
  exact chatNameCandidate_sound _ _ (by decide) (by decide)

theorem NamesSound.insertHistoryChatInto (hs : NamesSound s) (chat : Chat) :
    NamesSound (insertHistoryChatInto s chat) := by
  cases hopen : chatDeleted s chat.jid with
  | true =>
    rw [OmarchyWhatsapp.insertHistoryChatInto, if_pos hopen]
    exact hs
  | false =>
    have hcontacts : (OmarchyWhatsapp.insertHistoryChatInto s chat).contacts = s.contacts := by simp
    have hproposed := proposedHistoryChat_sound chat
    refine ⟨fun c hc => hs.contact c (hcontacts ▸ hc), fun c' hc' => ?_, fun c' hc' hunknown => ?_⟩
    · rcases mem_chats_insertHistoryChatInto hopen hc' with ⟨hc, -⟩ | ⟨c, hc, rfl⟩ | ⟨-, rfl⟩
      · exact hs.source c' hc
      · exact max_le (hs.source c (Table.mem_of_find? hc)) hproposed.1
      · exact hproposed.1
    · rcases mem_chats_insertHistoryChatInto hopen hc' with ⟨hc, -⟩ | ⟨c, hc, rfl⟩ | ⟨-, rfl⟩
      · exact hs.unnamed c' hc hunknown
      · -- neither name has a priority
        obtain ⟨hold, hnew⟩ : c.nameSource = chatNameUnknown ∧
            (proposedHistoryChat chat).nameSource = chatNameUnknown := by
          have hmax : max c.nameSource (proposedHistoryChat chat).nameSource = 0 := hunknown
          rw [Nat.max_eq_zero_iff] at hmax
          exact hmax
        have hkept : ¬(c.nameSource = chatNameUnknown ∧
            chatNameUnknown < (proposedHistoryChat chat).nameSource) :=
          fun h => absurd h.2 (by rw [hnew]; exact lt_irrefl _)
        rw [mergeHistoryChat, if_neg hkept]
        exact hs.unnamed c (Table.mem_of_find? hc) hold
      · exact hproposed.2 hunknown

/-- A direct chat that has the name of its contact keeps it. -/
theorem mergeHistoryChat_name_of_named (hs : NamesSound s) {c : ChatRow} (hc : c ∈ s.chats.rows)
    {name : String} (hname : name ≠ "") (hnamed : c.name = name) (new : ChatRow) :
    (mergeHistoryChat c new).name = name := by
  have hkept : ¬(c.nameSource = chatNameUnknown ∧ chatNameUnknown < new.nameSource) :=
    fun h => hname (hnamed ▸ hs.unnamed c hc h.1)
  rw [mergeHistoryChat, if_neg hkept]
  exact hnamed

/-- The header of a conversation. -/
theorem AddressBookKept.header (h : AddressBookKept s) (hs : NamesSound s) {c : Conversation}
    (hguard : HistoryNamedRight s c) :
    SliceNamed s c.chat c.messages (insertHistoryChatInto s c.chat) := by
  have hcontacts : (insertHistoryChatInto s c.chat).contacts = s.contacts := by simp
  have hmessages : (insertHistoryChatInto s c.chat).messages = s.messages := by simp
  have hbook : ∀ x, addressBookName (insertHistoryChatInto s c.chat) x = addressBookName s x :=
    addressBookName_congr hcontacts
  have hsup : ∀ m, suppressed (insertHistoryChatInto s c.chat) m = suppressed s m :=
    fun m => suppressed_congr (by simp) (by simp) m
  cases hopen : chatDeleted s c.chat.jid with
  | true =>
    have hsame : insertHistoryChatInto s c.chat = s := by
      rw [insertHistoryChatInto, if_pos hopen]
    rw [hsame]
    refine ⟨h, hs, fun _ => rfl, fun _ => rfl, fun hdirect name hname => ?_⟩
    refine (hguard hdirect name hname).imp And.right fun hkept => ?_
    obtain ⟨hmade, hgroup⟩ := hkept
    refine ⟨?_, fun r hr hj => ?_⟩
    · rcases hrow : s.chats.find? c.chat.jid with _ | r
      · exact Or.inl (hmade hrow)
      · exact Or.inr (hasChat_iff_find?.mpr ⟨r, hrow⟩)
    · have hrow : s.chats.find? c.chat.jid = some r := hj ▸ Table.find?_of_mem hr
      cases hkind : r.isGroup with
      | false => exact h.chats r hr hkind name (hj ▸ hname)
      | true =>
        have hright := hgroup r hrow hkind
        rwa [hopen, if_pos rfl] at hright
  | false =>
    -- the row of the chat is the one that the guard speaks of
    have hrows : c.chat.isGroup = false → ∀ name ∈ addressBookName s c.chat.jid,
        ∀ r ∈ (insertHistoryChatInto s c.chat).chats.rows, r.jid = c.chat.jid → r.name = name := by
      intro hdirect name hname r hr hj
      rcases hguard hdirect name hname with ⟨hdeleted, -⟩ | ⟨hmade, hgroup⟩
      · rw [hopen] at hdeleted
        cases hdeleted
      rcases mem_chats_insertHistoryChatInto hopen hr with
        ⟨-, hne⟩ | ⟨old, hold, rfl⟩ | ⟨hnone, rfl⟩
      · exact absurd hj hne
      · have hmem := Table.mem_of_find? hold
        have hkey : old.jid = c.chat.jid := Table.key_of_find? hold
        cases hkind : old.isGroup with
        | false =>
          exact mergeHistoryChat_name_of_named hs hmem (hs.ne_empty hname)
            (h.chats old hmem hkind name (hkey ▸ hname)) _
        | true =>
          have hright := hgroup old hold hkind
          rwa [hopen, if_neg Bool.false_ne_true] at hright
      · exact hmade hnone
    refine ⟨⟨fun r hr hdirect name hname => ?_, fun m hm name hname => ?_⟩,
      hs.insertHistoryChatInto c.chat, hbook, hsup, fun hdirect name hname => Or.inr ⟨Or.inr ?_,
        hrows hdirect name hname⟩⟩
    · rw [hbook] at hname
      rcases mem_chats_insertHistoryChatInto hopen hr with
        ⟨hmem, -⟩ | ⟨old, hold, rfl⟩ | ⟨hnone, rfl⟩
      · exact h.chats r hmem hdirect name hname
      · have hkey : old.jid = c.chat.jid := Table.key_of_find? hold
        exact hrows hdirect name (hkey ▸ hname) _ hr hkey
      · exact hrows hdirect name hname _ hr rfl
    · rw [hbook] at hname
      exact h.messages m (hmessages ▸ hm) name hname
    · exact hasChat_insertHistoryChatInto.mpr (Or.inr ⟨rfl, hopen⟩)

theorem AddressBookKept.insertHistoryConversation (h : AddressBookKept s) (hs : NamesSound s)
    {c : Conversation} (hguard : HistoryNamedRight s c) :
    AddressBookKept (insertHistoryConversation plan s c.chat c.messages).1 ∧
      NamesSound (insertHistoryConversation plan s c.chat c.messages).1 := by
  have hslice : SliceNamed s c.chat c.messages
      (insertHistoryMessages plan (insertHistoryChatInto s c.chat) c.chat c.messages).1 :=
    insertHistoryMessages_induction plan
      (fun s' m hm hs' => hs'.insertHistoryMessageInto plan hm (c.sameChat m hm))
      (h.header hs hguard)
  have hprune := pruneChatHistory_namesFrom plan
    (insertHistoryMessages plan (insertHistoryChatInto s c.chat) c.chat c.messages).1 c.chat.jid
  exact ⟨hslice.kept.of_namesFrom hprune, hslice.sound.of_namesFrom hprune⟩

end History

/-! ## Two identities are merged -/

section Migration

variable {s : Store} {oldJid newJid : String}

theorem contacts_migrateContactJid (hmig : Migrates s oldJid newJid) (jid : String) :
    (migrateContactJid plan s oldJid newJid).1.contacts.find? jid
      = if jid = oldJid then none
        else if jid = newJid then mergedContact s oldJid newJid else s.contacts.find? jid := by
  have hname : ∀ s' : Store, (applyMigratedName s' newJid).contacts = s'.contacts := by
    intro s'
    unfold applyMigratedName
    split <;> rfl
  have hdrop : (migrateContactJid plan s oldJid newJid).1.contacts
      = (migrateContact plan s oldJid newJid).contacts.deleteWhere (fun c => c.jid = oldJid) := by
    rw [migrateContactJid_of_migrates plan hmig, dropAlias, hname]
    rfl
  have hfind := Table.find?_deleteWhere_key (migrateContact plan s oldJid newJid).contacts
    oldJid jid
  rw [hdrop]
  refine hfind.trans ?_
  rw [find?_migrateContact]

/-- A message after a migration was sent by the merged contact, or kept its sender. -/
theorem messages_migrateContactJid (hmig : Migrates s oldJid newJid) {m' : MessageRow}
    (hm' : m' ∈ (migrateContactJid plan s oldJid newJid).1.messages.rows)
    (hsender : m'.senderJid ≠ newJid) :
    m'.senderJid ≠ oldJid ∧ ∃ m ∈ s.messages.rows, m'.senderJid = m.senderJid ∧
      m'.senderName = m.senderName := by
  have hne := hmig.1
  rw [migrateContactJid_of_migrates plan hmig] at hm'
  -- the name of the merged contact reaches only its own messages
  have hmerged : m' ∈ (mergedMessages plan s oldJid newJid).rows := by
    have hkept : ∀ s' : Store, m' ∈ (applyMigratedName s' newJid).messages.rows →
        m' ∈ s'.messages.rows := by
      intro s' h
      unfold applyMigratedName at h
      split at h
      · exact h
      · obtain ⟨m, hm, rfl⟩ := List.mem_map.mp h
        split at hsender
        · rename_i hown
          exact absurd (of_decide_eq_true hown) hsender
        · rename_i hother
          rwa [if_neg hother]
    exact (Table.mem_deleteWhere.mp (hkept _ hm')).1
  obtain ⟨m₁, hm₁, hsender₁, hname₁⟩ : ∃ m ∈ (migrateSender plan s oldJid newJid).messages.rows,
      m'.senderJid = m.senderJid ∧ m'.senderName = m.senderName := by
    rcases (mem_migrateMessages plan hne m').mp hmerged with
      ⟨hm, -, -⟩ | ⟨r, hr, a, -, -, -, -, rfl⟩ | ⟨a, ha, -, -, rfl⟩
    · exact ⟨m', hm, rfl, rfl⟩
    · exact ⟨r, hr, rfl, rfl⟩
    · exact ⟨a, ha, rfl, rfl⟩
  rw [hsender₁] at hsender ⊢
  rcases (mem_migrateSender plan hne m₁).mp hm₁ with
    ⟨hm, hold, -⟩ | ⟨r, hr, a, -, -, -, hk, rfl⟩ | ⟨a, -, -, -, rfl⟩
  · exact ⟨of_decide_eq_false hold, m₁, hm, rfl, hname₁⟩
  · exact absurd (congrArg (fun k => k.2.1) hk).symm hsender
  · exact absurd rfl hsender

theorem messages_migrateContactJid_of_contact (hmig : Migrates s oldJid newJid)
    {contact : ContactRow} (hcontact : mergedContact s oldJid newJid = some contact)
    {m' : MessageRow} (hm' : m' ∈ (migrateContactJid plan s oldJid newJid).1.messages.rows)
    (hsender : m'.senderJid = newJid) : m'.senderName = contact.name := by
  rw [migrateContactJid_of_migrates plan hmig] at hm'
  have hfound : (migratedStore plan s oldJid newJid).contacts.find? newJid = some contact := by
    have hfind : (migrateContact plan s oldJid newJid).contacts.find? newJid = some contact := by
      rw [find?_migrateContact, if_pos rfl, hcontact]
    exact hfind
  have hm' : m' ∈ (applyMigratedName (migratedStore plan s oldJid newJid) newJid).messages.rows :=
    hm'
  rw [applyMigratedName, hfound] at hm'
  obtain ⟨m, hm, rfl⟩ := List.mem_map.mp hm'
  split
  · rfl
  · rename_i hother
    rw [if_neg hother] at hsender
    exact absurd (decide_eq_true hsender) hother

/-- A chat row after a migration: the name of the merged contact, or that of the merged row. -/
theorem chatRows_migrateContactJid (hmig : Migrates s oldJid newJid) {c' : ChatRow}
    (hc' : c' ∈ (migrateContactJid plan s oldJid newJid).1.chats.rows) :
    c'.jid ≠ oldJid ∧ ((∃ contact, mergedContact s oldJid newJid = some contact ∧
      c'.jid = newJid ∧ c'.name = contact.name ∧ chatNameUnknown < c'.nameSource ∧
        c'.nameSource ≤ chatNameAddressBook) ∨
      ((migrateChat plan s oldJid newJid).chats.find? c'.jid = some c' ∧
        (c'.jid = newJid → c'.isGroup = false → mergedContact s oldJid newJid = none))) := by
  rw [migrateContactJid_of_migrates plan hmig] at hc'
  obtain ⟨hc', hj⟩ := Table.mem_deleteWhere.mp hc'
  refine ⟨of_decide_eq_false hj, ?_⟩
  have hfound : (migratedStore plan s oldJid newJid).contacts.find? newJid
      = mergedContact s oldJid newJid := by
    have hfind : (migrateContact plan s oldJid newJid).contacts.find? newJid
        = mergedContact s oldJid newJid := by rw [find?_migrateContact, if_pos rfl]
    exact hfind
  have hrow : ∀ c ∈ (migratedStore plan s oldJid newJid).chats.rows,
      (migrateChat plan s oldJid newJid).chats.find? c.jid = some c := fun c hc =>
    Table.find?_of_mem (t := (migrateChat plan s oldJid newJid).chats) hc
  rw [applyMigratedName, hfound] at hc'
  rcases hcontact : mergedContact s oldJid newJid with _ | contact
  · rw [hcontact] at hc'
    exact Or.inr ⟨hrow c' hc', fun _ _ => rfl⟩
  · rw [hcontact] at hc'
    obtain ⟨c, hc, rfl⟩ := List.mem_map.mp hc'
    split
    · rename_i hcond
      rw [Bool.and_eq_true, decide_eq_true_eq] at hcond
      refine Or.inl ⟨contact, rfl, hcond.1, rfl, ?_⟩
      dsimp only
      split <;> decide
    · rename_i hcond
      refine Or.inr ⟨hrow c hc, fun hj hdirect => ?_⟩
      exact absurd (by simp [hj, hdirect]) hcond

/-- The merged contact has a name of one of the two. -/
theorem NamesSound.mergedContact_name (hs : NamesSound s) {contact : ContactRow}
    (h : mergedContact s oldJid newJid = some contact) : contact.name ≠ "" := by
  have hname : ∀ {jid c}, s.contacts.find? jid = some c → c.name ≠ "" := fun h =>
    hs.contact _ (Table.mem_of_find? h)
  rw [mergedContact] at h
  rcases hold : s.contacts.find? oldJid with _ | c
  · rw [hold] at h
    exact hname h
  · rw [hold, Option.elim_some, Option.some_inj] at h
    rcases hnew : s.contacts.find? newJid with _ | c'
    · rw [hnew, Option.elim_none] at h
      rw [← h]
      exact hs.contact c (Table.mem_of_find? hold)
    · rw [hnew, Option.elim_some] at h
      rw [← h, mergeContact]
      dsimp only
      split
      · exact hs.contact c (Table.mem_of_find? hold)
      · exact hname hnew

theorem AddressBookKept.migrateContactJid (h : AddressBookKept s) (oldJid newJid : String) :
    AddressBookKept (migrateContactJid plan s oldJid newJid).1 := by
  by_cases hmig : Migrates s oldJid newJid
  swap
  · rw [migrateContactJid_of_not_migrates plan hmig]
    exact h
  have hbook : ∀ jid, jid ≠ oldJid → jid ≠ newJid →
      addressBookName (OmarchyWhatsapp.migrateContactJid plan s oldJid newJid).1 jid
        = addressBookName s jid := fun jid hold hnew => by
    rw [addressBookName, contacts_migrateContactJid plan hmig, if_neg hold, if_neg hnew,
      addressBookName]
  have hmerged : ∀ name,
      addressBookName (OmarchyWhatsapp.migrateContactJid plan s oldJid newJid).1 newJid
          = some name →
        ∃ contact, mergedContact s oldJid newJid = some contact ∧ contact.name = name := by
    intro name hname
    obtain ⟨contact, hc, -, hn⟩ := addressBookName_eq_some.mp hname
    rw [contacts_migrateContactJid plan hmig, if_neg hmig.1.symm, if_pos rfl] at hc
    exact ⟨contact, hc, hn⟩
  refine ⟨fun c' hc' hdirect name hname => ?_, fun m' hm' name hname => ?_⟩
  · obtain ⟨hold, hcase⟩ := chatRows_migrateContactJid plan hmig hc'
    by_cases hnew : c'.jid = newJid
    · rw [hnew] at hname
      obtain ⟨contact, hcontact, rfl⟩ := hmerged name hname
      rcases hcase with ⟨contact', hcontact', -, hn, -⟩ | ⟨-, hnone⟩
      · rw [hcontact, Option.some_inj] at hcontact'
        rw [hn, hcontact']
      · rw [hnone hnew hdirect] at hcontact
        cases hcontact
    · rcases hcase with ⟨-, -, hj, -⟩ | ⟨hrow, -⟩
      · exact absurd hj hnew
      · rw [find?_migrateChat, if_neg hnew] at hrow
        rw [hbook _ hold hnew] at hname
        exact h.chats c' (Table.mem_of_find? hrow) hdirect name hname
  · by_cases hnew : m'.senderJid = newJid
    · rw [hnew] at hname
      obtain ⟨contact, hcontact, rfl⟩ := hmerged name hname
      exact messages_migrateContactJid_of_contact plan hmig hcontact hm' hnew
    · obtain ⟨hold, m, hm, hsender, hsent⟩ := messages_migrateContactJid plan hmig hm' hnew
      rw [hbook _ hold hnew, hsender] at hname
      rw [hsent]
      exact h.messages m hm name hname

theorem NamesSound.migrateContactJid (hs : NamesSound s) (oldJid newJid : String) :
    NamesSound (migrateContactJid plan s oldJid newJid).1 := by
  by_cases hmig : Migrates s oldJid newJid
  swap
  · rw [migrateContactJid_of_not_migrates plan hmig]
    exact hs
  -- the merged row has the higher priority of the two, and its name
  have hrow : ∀ {jid c}, (migrateChat plan s oldJid newJid).chats.find? jid = some c →
      c.nameSource ≤ chatNameAddressBook ∧ (c.nameSource = chatNameUnknown → c.name = "") := by
    intro jid c hc
    have hfound : ∀ {j r}, s.chats.find? j = some r → r.nameSource ≤ chatNameAddressBook ∧
        (r.nameSource = chatNameUnknown → r.name = "") := fun h =>
      ⟨hs.source _ (Table.mem_of_find? h), hs.unnamed _ (Table.mem_of_find? h)⟩
    rw [find?_migrateChat] at hc
    split at hc
    · rw [mergedChat] at hc
      rcases hold : s.chats.find? oldJid with _ | a
      · rw [hold] at hc
        exact hfound hc
      · rw [hold, Option.elim_some, Option.some_inj] at hc
        obtain ⟨hle, hun⟩ := hfound hold
        rcases hnew : s.chats.find? newJid with _ | r
        · rw [hnew, Option.elim_none] at hc
          rw [← hc]
          exact ⟨hle, hun⟩
        · rw [hnew, Option.elim_some] at hc
          obtain ⟨hle', hun'⟩ := hfound hnew
          rw [← hc]
          refine ⟨max_le hle' hle, fun hmax => ?_⟩
          have hzero : max r.nameSource a.nameSource = 0 := hmax
          rw [Nat.max_eq_zero_iff] at hzero
          have hkept : ¬r.nameSource < a.nameSource := by omega
          exact (if_neg hkept).trans (hun' hzero.1)
    · exact hfound hc
  refine ⟨fun c hc => ?_, fun c' hc' => ?_, fun c' hc' hunknown => ?_⟩
  · have hfind := Table.find?_of_mem hc
    rw [contacts_migrateContactJid plan hmig] at hfind
    split at hfind
    · cases hfind
    · split at hfind
      · exact hs.mergedContact_name hfind
      · exact hs.contact c (Table.mem_of_find? hfind)
  · rcases (chatRows_migrateContactJid plan hmig hc').2 with ⟨-, -, -, -, -, hle⟩ | ⟨hc, -⟩
    · exact hle
    · exact (hrow hc).1
  · rcases (chatRows_migrateContactJid plan hmig hc').2 with ⟨-, -, -, -, hpos, -⟩ | ⟨hc, -⟩
    · exact absurd hunknown hpos.ne'
    · exact (hrow hc).2 hunknown

end Migration

/-! ## Runs -/

/-- The steps that respect the address book. -/
def AddressBookGuard (s : Store) : Op → Prop
  | .insertMessage message chatName isGroup incrementUnread =>
    suppressed s message = true ∨ NamedRight s (liveInsert message chatName isGroup incrementUnread)
  | .insertMessageWithReadIntent message chatName isGroup receipt =>
    suppressed s message = true ∨ NamedRight s (focusedInsert message chatName isGroup receipt)
  | .insertHistoryConversation conversation => HistoryNamedRight s conversation
  | _ => True

instance (s : Store) (op : Op) : Decidable (AddressBookGuard s op) := by
  apply Op.casesOn (motive := fun op => Decidable (AddressBookGuard s op)) op
  all_goals
    intros
    dsimp only [AddressBookGuard]
    infer_instance

theorem addressBook_apply {s : Store} (h : AddressBookKept s) (hs : NamesSound s) {op : Op}
    (hg : AddressBookGuard s op) :
    AddressBookKept (s.apply plan op) ∧ NamesSound (s.apply plan op) := by
  cases hop : op.writesNames with
  | false =>
    have hfrom := apply_namesFrom plan s hop
    exact ⟨h.of_namesFrom hfrom, hs.of_namesFrom hfrom⟩
  | true =>
    cases op with
    | insertMessage message chatName isGroup incrementUnread =>
      let insert := liveInsert message chatName isGroup incrementUnread
      have hkept : AddressBookKept (insertMessageInto s insert).1 := h.insertMessageInto hg
      have hprune := pruneChatHistory_namesFrom plan (insertMessageInto s insert).1 message.chatJid
      exact ⟨hkept.of_namesFrom hprune, (hs.insertMessageInto insert).of_namesFrom hprune⟩
    | insertMessageWithReadIntent message chatName isGroup receipt =>
      let insert := focusedInsert message chatName isGroup receipt
      have hkept : AddressBookKept (insertMessageInto s insert).1 := h.insertMessageInto hg
      have hprune := pruneChatHistory_namesFrom plan (insertMessageInto s insert).1 message.chatJid
      exact ⟨hkept.of_namesFrom hprune, (hs.insertMessageInto insert).of_namesFrom hprune⟩
    | insertHistoryConversation => exact h.insertHistoryConversation plan hs hg
    | updateContactName jid name =>
      exact ⟨h.updateContactNameInto hs jid name 0, hs.updateContactNameInto jid name 0⟩
    | updateAddressBookName jid name =>
      exact ⟨h.updateContactNameInto hs jid name 1, hs.updateContactNameInto jid name 1⟩
    | updateGroupName jid name => exact ⟨h.updateGroupName jid name, hs.updateGroupName jid name⟩
    | migrateContactJid oldJid newJid =>
      exact ⟨h.migrateContactJid plan oldJid newJid, hs.migrateContactJid plan oldJid newJid⟩
    | _ => cases hop

/-- In every run whose steps the guard admits, every direct chat and every message of a contact
in the address book has the name from it in every state. -/
theorem addressBookKept_of_guarded (ops : List Op)
    (hg : Guarded (Store.apply plan) AddressBookGuard Store.empty ops) :
    ∀ s ∈ states (Store.apply plan) Store.empty ops, AddressBookKept s := by
  have hempty : AddressBookKept Store.empty :=
    ⟨fun _ hc => absurd hc List.not_mem_nil, fun _ hm => absurd hm List.not_mem_nil⟩
  have hsound : NamesSound Store.empty :=
    ⟨fun _ hc => absurd hc List.not_mem_nil, fun _ hc => absurd hc List.not_mem_nil,
      fun _ hc => absurd hc List.not_mem_nil⟩
  have hstep : ∀ s op, (AddressBookKept s ∧ NamesSound s) → AddressBookGuard s op →
      AddressBookKept (s.apply plan op) ∧ NamesSound (s.apply plan op) := fun s op hs hop =>
    addressBook_apply plan hs.1 hs.2 hop
  exact fun s hs => (invariant_states hstep ⟨hempty, hsound⟩ hg s hs).1

/-- The guard admits a run in which the chat comes before the contact, which then outranks push
names, history names and the name of an alias. -/
theorem addressBookKept_of_guarded_outranked_names :
    let ops : List Op :=
      [.insertMessage (directMessage "1" "a" "hi" 10) "annie" false true,
        .updateAddressBookName "1" "Ann", .updateContactName "1" "annie",
        .insertHistoryConversation (directConversation "1" "A." [("b", "old", 5)]),
        .insertMessage (directMessage "1@lid" "c" "new" 30) "annie" false true,
        .migrateContactJid "1@lid" "1"]
    ∀ s ∈ states (Store.apply .stable) Store.empty ops, AddressBookKept s :=
  addressBookKept_of_guarded .stable _ (by decide)

/-- A chat that is made after the contact takes the push name. -/
theorem insertMessage_ignores_address_book :
    ¬∀ s ∈ states (Store.apply .stable) Store.empty
      [.updateAddressBookName "1" "Ann",
        .insertMessage (directMessage "1" "a" "hi" 10) "annie" false true],
      AddressBookKept s := by
  intro h
  have hlast := (h _ (run_mem_states _ _ _)).chats
  exact absurd hlast (by decide)

end OmarchyWhatsapp
