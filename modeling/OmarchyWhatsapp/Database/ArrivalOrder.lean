import Mathlib.Data.Finset.Card
import Mathlib.Data.Finset.Dedup
import Mathlib.Order.MinMax
import OmarchyWhatsapp.Database.CoverageTheorems
import OmarchyWhatsapp.Database.InsertTheorems

/-!
# Read coverage and the order of arrival

A new chat absorbs live messages and calls of `apply_read_boundary`. What it then holds is
a function of which messages and which calls it has absorbed, not of their order
(`Absorbed`): a message is read exactly when its time is at most the final boundary or
some call named its id.
-/

namespace OmarchyWhatsapp

open Relational

variable (plan : QueryPlan)

/-! ## Messages and read events of one chat -/

inductive ChatEvent where
  /-- An incoming message in a chat that is not on screen. -/
  | message (message : Message) (chatName : String) (isGroup : Bool)
  | read (boundaryTimestamp : ℤ) (boundaryIds : List String)

/-- One event of the chat. -/
def Store.absorb (chatJid : String) (s : Store) : ChatEvent → Store
  | .message message chatName isGroup => (insertMessage plan s message chatName isGroup true).1
  | .read timestamp ids => (applyReadBoundary plan s chatJid timestamp ids).1

def ChatEvent.message? : ChatEvent → Option Message
  | .message m _ _ => some m
  | .read .. => none

def ChatEvent.read? : ChatEvent → Option (ℤ × List String)
  | .message .. => none
  | .read timestamp ids => some (timestamp, ids)

/-- The messages among some events. -/
def messagesOf (events : List ChatEvent) : List Message := events.filterMap ChatEvent.message?

/-- The boundary after some events: the latest that one of them sets. -/
def boundaryOf (events : List ChatEvent) : ℤ :=
  (events.filterMap ChatEvent.read?).foldr
    (fun e boundary => max (candidateBoundary e.1 e.2) boundary) 0

/-- The ids that some events name. -/
def namedIds (events : List ChatEvent) : List String :=
  (events.filterMap ChatEvent.read?).flatMap Prod.snd

/-- Events that belong to one chat, in any order: distinct live incoming messages within the
retention limit, and read events that name no more ids than a chat remembers. -/
structure ChatEvents (chatJid : String) (events : List ChatEvent) : Prop where
  incoming : ∀ m ∈ messagesOf events,
    m.chatJid = chatJid ∧ m.fromMe = false ∧ 0 < m.timestamp
  distinct : ((messagesOf events).map Message.id).Nodup
  retained : (messagesOf events).length ≤ retention
  capped : (namedIds events).toFinset.card ≤ readBoundaryIdsCap

/-- The chat has no message, nothing unread, deleted or cleared, and no read coverage yet. It
may be listed, and pinned, archived, muted, marked unread or flagged deleted. -/
structure NewChat (s : Store) (chatJid : String) : Prop where
  noMessage : ∀ m ∈ s.messages.rows, m.chatJid ≠ chatJid
  noUnread : ∀ c ∈ s.chats.rows, c.jid = chatJid → c.unread = 0
  noBoundary : (s.marks chatJid).readBoundary = 0
  noBoundaryIds : (s.marks chatJid).readBoundaryIds = []
  uncleared : (s.marks chatJid).clearedAt ≤ 0
  noTombstone : ∀ id, tombstoned s chatJid id = false

/-! ## What the events add up to -/

section Sums

variable {events events' : List ChatEvent} {e : ChatEvent}

theorem messagesOf_append (events events' : List ChatEvent) :
    messagesOf (events ++ events') = messagesOf events ++ messagesOf events' :=
  List.filterMap_append

theorem namedIds_append (events events' : List ChatEvent) :
    namedIds (events ++ events') = namedIds events ++ namedIds events' := by
  simp [namedIds, List.filterMap_append]

theorem le_boundaryOf {t : ℤ} :
    t ≤ boundaryOf events ↔ t ≤ 0 ∨ ∃ e ∈ events.filterMap ChatEvent.read?,
      t ≤ candidateBoundary e.1 e.2 := by
  unfold boundaryOf
  induction events.filterMap ChatEvent.read? with
  | nil => simp
  | cons e reads ih =>
    rw [List.foldr_cons, le_max_iff, ih]
    simp only [List.mem_cons, exists_eq_or_imp]
    tauto

theorem boundaryOf_append_read (timestamp : ℤ) (ids : List String) :
    boundaryOf (events ++ [ChatEvent.read timestamp ids])
      = max (boundaryOf events) (candidateBoundary timestamp ids) := by
  refine eq_of_forall_le_iff fun t => ?_
  rw [le_boundaryOf, le_max_iff, le_boundaryOf, List.filterMap_append]
  have hread : [ChatEvent.read timestamp ids].filterMap ChatEvent.read? = [(timestamp, ids)] := rfl
  simp only [hread, List.mem_append, List.mem_singleton, or_and_right, exists_or, exists_eq_left,
    or_assoc]

theorem boundaryOf_append_message (message : Message) (chatName : String) (isGroup : Bool) :
    boundaryOf (events ++ [ChatEvent.message message chatName isGroup]) = boundaryOf events := by
  have hread : [ChatEvent.message message chatName isGroup].filterMap ChatEvent.read? = [] := rfl
  rw [boundaryOf, List.filterMap_append, hread, List.append_nil, boundaryOf]

theorem boundaryOf_perm (h : events'.Perm events) : boundaryOf events' = boundaryOf events := by
  refine eq_of_forall_le_iff fun t => ?_
  rw [le_boundaryOf, le_boundaryOf]
  simp only [(h.filterMap ChatEvent.read?).mem_iff]

theorem ChatEvents.perm {chatJid : String} (h : ChatEvents chatJid events)
    (hperm : events'.Perm events) : ChatEvents chatJid events' where
  incoming m hm := h.incoming m ((hperm.filterMap _).mem_iff.mp hm)
  distinct := ((hperm.filterMap ChatEvent.message?).map _).nodup_iff.mpr h.distinct
  retained := (hperm.filterMap ChatEvent.message?).length_eq.trans_le h.retained
  capped := by
    have hids : (namedIds events').toFinset = (namedIds events).toFinset :=
      List.toFinset_eq_of_perm _ _ ((hperm.filterMap ChatEvent.read?).flatMap_right _)
    rw [hids]
    exact h.capped

theorem ChatEvents.of_append {chatJid : String} (h : ChatEvents chatJid (events ++ events')) :
    ChatEvents chatJid events where
  incoming m hm := h.incoming m (messagesOf_append _ _ ▸ List.mem_append_left _ hm)
  distinct := by
    have hd := h.distinct
    rw [messagesOf_append, List.map_append] at hd
    exact (List.nodup_append.mp hd).1
  retained := by
    have hr := h.retained
    rw [messagesOf_append, List.length_append] at hr
    omega
  capped := by
    refine le_trans (Finset.card_le_card ?_) h.capped
    rw [namedIds_append, List.toFinset_append]
    exact Finset.subset_union_left

end Sums

/-! ## The invariant -/

/-- What makes a message of the chat read. -/
def coveredBy (events : List ChatEvent) (m : Message) : Prop :=
  m.timestamp ≤ boundaryOf events ∨ m.id ∈ namedIds events

instance (events : List ChatEvent) (m : Message) : Decidable (coveredBy events m) :=
  inferInstanceAs (Decidable (_ ∨ _))

/-- The chat holds what `events` add up to since `start`. -/
structure Absorbed (start s : Store) (chatJid : String) (events : List ChatEvent) : Prop where
  untombstoned : ∀ id, tombstoned s chatJid id = false
  uncleared : (s.marks chatJid).clearedAt ≤ 0
  boundary : (s.marks chatJid).readBoundary = boundaryOf events
  nodup : (s.marks chatJid).readBoundaryIds.Nodup
  named : ∀ id ∈ (s.marks chatJid).readBoundaryIds, id ∈ namedIds events
  /-- An id named before its message is stored is remembered. -/
  remembered : ∀ id ∈ namedIds events, (∀ m ∈ messagesOf events, m.id ≠ id) →
    id ∈ (s.marks chatJid).readBoundaryIds
  rows : ∀ row ∈ s.messages.rows, row.chatJid = chatJid → ∃ m ∈ messagesOf events,
    row.key = m.key ∧ row.timestamp = m.timestamp ∧ row.fromMe = false ∧
      (row.read = true ↔ coveredBy events m)
  stored : ∀ m ∈ messagesOf events, ∃ row ∈ s.messages.rows, row.key = m.key
  listed : s.hasChat chatJid ↔ start.hasChat chatJid ∨ messagesOf events ≠ []
  counted : ∀ c ∈ s.chats.rows, c.jid = chatJid → c.unread = unreadMessageCount s chatJid

section Steps

variable {start s : Store} {chatJid : String} {events : List ChatEvent}

theorem newChat_empty (chatJid : String) : NewChat Store.empty chatJid where
  noMessage m hm := by cases hm
  noUnread c hc := by cases hc
  noBoundary := rfl
  noBoundaryIds := rfl
  uncleared := le_rfl
  noTombstone _ := rfl

theorem NewChat.absorbed (h : NewChat s chatJid) : Absorbed s s chatJid [] where
  untombstoned := h.noTombstone
  uncleared := h.uncleared
  boundary := h.noBoundary
  nodup := h.noBoundaryIds ▸ List.nodup_nil
  named id hid := by
    rw [h.noBoundaryIds] at hid
    cases hid
  remembered id hid := by cases hid
  rows row hrow hc := absurd hc (h.noMessage row hrow)
  stored m hm := by cases hm
  listed := (or_iff_left (not_not.mpr rfl)).symm
  counted c hc hj := by
    have hnone : s.chatMessages chatJid = [] :=
      List.filter_eq_nil_iff.mpr fun row hrow => by simpa using h.noMessage row hrow
    rw [h.noUnread c hc hj, unreadMessageCount_eq, hnone]
    rfl

/-- The chat holds as many messages as it absorbed. -/
theorem Absorbed.length_le (h : Absorbed start s chatJid events) :
    (s.chatMessages chatJid).length ≤ (messagesOf events).length := by
  have hnodup : ((s.chatMessages chatJid).map MessageRow.key).Nodup :=
    (List.filter_sublist.map MessageRow.key).nodup s.messages.nodup
  have hsub : (s.chatMessages chatJid).map MessageRow.key
      ⊆ (messagesOf events).map Message.key := by
    intro k hk
    obtain ⟨row, hrow, rfl⟩ := List.mem_map.mp hk
    obtain ⟨hrow, hc⟩ := Store.mem_chatMessages.mp hrow
    obtain ⟨m, hm, hkey, -⟩ := h.rows row hrow hc
    exact List.mem_map.mpr ⟨m, hm, hkey.symm⟩
  simpa using (List.Nodup.subperm hnodup hsub).length_le

theorem Absorbed.unreadMessageCount_eq_zero (h : Absorbed start s chatJid events)
    (hnone : messagesOf events = []) : unreadMessageCount s chatJid = 0 := by
  have hlen := h.length_le
  rw [hnone, List.length_nil, Nat.le_zero, List.length_eq_zero_iff] at hlen
  rw [unreadMessageCount_eq, hlen]
  rfl

/-- A message finds itself covered exactly when its time or its id already is. -/
theorem Absorbed.covered_iff (h : Absorbed start s chatJid events) {m : Message}
    (hnew : ∀ m' ∈ messagesOf events, m'.id ≠ m.id) :
    coveredBySelfRead s chatJid m.id m.timestamp = true ↔ coveredBy events m := by
  rw [OmarchyWhatsapp.covered_iff, h.boundary, coveredBy]
  exact or_congr_right ⟨h.named m.id, fun hid => h.remembered m.id hid hnew⟩

theorem messagesOf_append_message {m : Message} {chatName : String} {isGroup : Bool} :
    messagesOf (events ++ [ChatEvent.message m chatName isGroup]) = messagesOf events ++ [m] :=
  messagesOf_append _ _

theorem namedIds_append_message {m : Message} {chatName : String} {isGroup : Bool} :
    namedIds (events ++ [ChatEvent.message m chatName isGroup]) = namedIds events := by
  rw [namedIds_append]
  exact List.append_nil _

theorem coveredBy_append_message {m m' : Message} {chatName : String} {isGroup : Bool} :
    coveredBy (events ++ [ChatEvent.message m chatName isGroup]) m' ↔ coveredBy events m' := by
  rw [coveredBy, coveredBy, boundaryOf_append_message, namedIds_append_message]

/-- The message that comes last is of the chat, and its id is new. -/
theorem ChatEvents.last_message {m : Message} {chatName : String} {isGroup : Bool}
    (h : ChatEvents chatJid (events ++ [ChatEvent.message m chatName isGroup])) :
    (m.chatJid = chatJid ∧ m.fromMe = false ∧ 0 < m.timestamp) ∧
      ∀ m' ∈ messagesOf events, m'.id ≠ m.id := by
  refine ⟨h.incoming m (by rw [messagesOf_append_message]; simp), fun m' hm' => ?_⟩
  have hd := h.distinct
  rw [messagesOf_append_message, List.map_append, List.nodup_append] at hd
  exact hd.2.2 _ (List.mem_map_of_mem hm') _ (by simp)

/-- Nothing holds a message of the chat back. -/
theorem Absorbed.accepts (h : Absorbed start s chatJid events) {m : Message}
    (hchat : m.chatJid = chatJid) (hpos : 0 < m.timestamp) : suppressed s m = false := by
  rw [suppressed, hchat, h.untombstoned, Bool.false_or, ← Bool.not_eq_true,
    stateSuppressed_iff_marks]
  exact fun hs => absurd (hs.2.trans h.uncleared) (not_le.mpr hpos)

/-- A message with a new id has no row yet. -/
theorem Absorbed.find?_new (h : Absorbed start s chatJid events) {m : Message}
    (hchat : m.chatJid = chatJid) (hnew : ∀ m' ∈ messagesOf events, m'.id ≠ m.id) :
    s.messages.find? m.key = none := by
  refine Table.find?_eq_none.mpr fun row hrow hk => ?_
  have hc : row.chatJid = chatJid := (congrArg Prod.fst hk).trans hchat
  obtain ⟨m', hm', hk', -⟩ := h.rows row hrow hc
  exact hnew m' hm' (congrArg (fun k => k.2.2) (hk'.symm.trans hk))

/-- Absorbing one more message. -/
theorem Absorbed.message (h : Absorbed start s chatJid events) {m : Message} {chatName : String}
    {isGroup : Bool}
    (hevents : ChatEvents chatJid (events ++ [ChatEvent.message m chatName isGroup])) :
    Absorbed start (s.absorb plan chatJid (.message m chatName isGroup)) chatJid
      (events ++ [ChatEvent.message m chatName isGroup]) := by
  obtain ⟨⟨hchat, hown, hpos⟩, hnew⟩ := hevents.last_message
  set insert := liveInsert m chatName isGroup true with hinsert
  have hjid : insert.message.chatJid = chatJid := hchat
  have haccepted : suppressed s insert.message = false := h.accepts hchat hpos
  have hfresh : s.messages.find? insert.message.key = none := h.find?_new hchat hnew
  have hunread : messageIsUnread s insert = !coveredBySelfRead s chatJid m.id m.timestamp := by
    rw [messageIsUnread, hjid]
    exact Bool.true_and _
  have hread : (proposedMessage s insert).read = true ↔ coveredBy events m := by
    rw [← h.covered_iff hnew]
    simp [proposedMessage, hunread]
  have hrows := insertMessageInto_messages haccepted
  -- the chat stays below the retention limit
  have hlength : ((insertMessageInto s insert).1.chatMessages chatJid).length ≤ retention := by
    have hr := hevents.retained
    rw [messagesOf_append_message, List.length_append] at hr
    rw [chatMessages_insertMessageInto haccepted, List.length_append]
    refine le_trans (Nat.add_le_add h.length_le ?_) hr
    split <;> simp
  have hprune : (s.absorb plan chatJid (.message m chatName isGroup)).messages
      = (insertMessageInto s insert).1.messages := by
    have habsorb : (s.absorb plan chatJid (.message m chatName isGroup)).messages
        = (keepNewest plan (insertMessageInto s insert).1 insert.message.chatJid).messages := rfl
    rw [habsorb, hjid, keepNewest_of_length_le plan hlength]
  have hmarks : (s.absorb plan chatJid (.message m chatName isGroup)).marks chatJid
      = { s.marks chatJid with deleted := false } :=
    (marks_insertMessageInto s rfl haccepted chatJid).trans (if_pos hjid.symm)
  have hmem : ∀ row, row ∈ (insertMessageInto s insert).1.messages.rows ↔
      row ∈ s.messages.rows ∨ row = proposedMessage s insert := by
    intro row
    rw [hrows, Table.mem_insertOrIgnore]
    exact or_congr_right (and_iff_left hfresh)
  refine ⟨fun id => ?_, ?_, ?_, ?_, ?_, ?_, ?_, ?_, ?_, ?_⟩
  · have htomb : (s.absorb plan chatJid (.message m chatName isGroup)).messageTombstones
        = s.messageTombstones := (insertMessageInto_frame s insert).2
    rw [tombstoned, htomb]
    exact h.untombstoned id
  · rw [hmarks]
    exact h.uncleared
  · rw [hmarks, boundaryOf_append_message]
    exact h.boundary
  · rw [hmarks]
    exact h.nodup
  · rw [hmarks, namedIds_append_message]
    exact h.named
  · rw [hmarks, namedIds_append_message, messagesOf_append_message]
    exact fun id hid hne => h.remembered id hid fun m' hm' =>
      hne m' (List.mem_append_left _ hm')
  · intro row hrow hc
    rw [hprune, hmem] at hrow
    rw [messagesOf_append_message]
    rcases hrow with hrow | rfl
    · obtain ⟨m', hm', hk, ht, hf, hr⟩ := h.rows row hrow hc
      exact ⟨m', List.mem_append_left _ hm', hk, ht, hf, hr.trans coveredBy_append_message.symm⟩
    · exact ⟨m, by simp, rfl, rfl, hown,
        hread.trans coveredBy_append_message.symm⟩
  · intro m' hm'
    rw [messagesOf_append_message, List.mem_append, List.mem_singleton] at hm'
    rw [hprune]
    rcases hm' with hm' | rfl
    · obtain ⟨row, hrow, hk⟩ := h.stored m' hm'
      exact ⟨row, (hmem row).mpr (Or.inl hrow), hk⟩
    · exact ⟨_, (hmem _).mpr (Or.inr rfl), rfl⟩
  · rw [messagesOf_append_message]
    have hlisted : (s.absorb plan chatJid (.message m chatName isGroup)).hasChat chatJid :=
      hasChat_insertMessageInto.mpr (Or.inr ⟨hjid.symm, haccepted⟩)
    exact iff_of_true hlisted (Or.inr (by simp))
  · intro c hc hj
    have hfind : (insertMessageInto s insert).1.chats.find? chatJid = some c :=
      Table.find?_eq_some.mpr ⟨hc, hj⟩
    rw [find?_chats_insertMessageInto haccepted, if_pos hjid.symm, Option.some_inj] at hfind
    rw [unreadMessageCount_congr hprune, unreadMessageCount_insertMessageInto haccepted,
      if_pos ⟨hjid.symm, hown⟩, ← hfind]
    rcases hold : s.chats.find? chatJid with _ | old
    · have hnone : messagesOf events = [] := by
        by_contra hne
        obtain ⟨c', hc'⟩ := hasChat_iff_find?.mp (h.listed.mpr (Or.inr hne))
        rw [hold] at hc'
        cases hc'
      simp only [Option.elim_none, proposedChat, h.unreadMessageCount_eq_zero hnone]
    · obtain ⟨hmem, hk⟩ := Table.find?_eq_some.mp hold
      simp only [Option.elim_some, mergePreview, h.counted old hmem hk]

/-- Ids are remembered once each. -/
theorem nodup_addBoundaryIds {covered ids : List String} (h : covered.Nodup) :
    (addBoundaryIds covered ids).Nodup := by
  unfold addBoundaryIds
  induction ids generalizing covered with
  | nil => exact h
  | cons id ids ih =>
    rw [List.foldl_cons]
    refine ih ?_
    split
    · exact h
    · rename_i hne
      rw [List.contains_iff_mem] at hne
      refine List.nodup_append.mpr ⟨h, by simp, ?_⟩
      intro a ha b hb hab
      rw [List.mem_singleton] at hb
      exact hne (hb ▸ hab ▸ ha)

theorem messagesOf_append_read {timestamp : ℤ} {ids : List String} :
    messagesOf (events ++ [ChatEvent.read timestamp ids]) = messagesOf events := by
  rw [messagesOf_append]
  exact List.append_nil _

theorem namedIds_append_read {timestamp : ℤ} {ids : List String} :
    namedIds (events ++ [ChatEvent.read timestamp ids]) = namedIds events ++ ids := by
  rw [namedIds_append]
  simp [namedIds, ChatEvent.read?]

theorem coveredBy_append_read {timestamp : ℤ} {ids : List String} {m : Message} :
    coveredBy (events ++ [ChatEvent.read timestamp ids]) m ↔
      coveredBy events m ∨ m.timestamp ≤ boundaryOf (events ++ [ChatEvent.read timestamp ids]) ∨
        m.id ∈ ids := by
  have hle : boundaryOf events ≤ boundaryOf (events ++ [ChatEvent.read timestamp ids]) := by
    rw [boundaryOf_append_read]
    exact le_max_left _ _
  rw [coveredBy, coveredBy, namedIds_append_read, List.mem_append]
  constructor
  · rintro (ht | hid | hid)
    · exact Or.inr (Or.inl ht)
    · exact Or.inl (Or.inr hid)
    · exact Or.inr (Or.inr hid)
  · rintro ((ht | hid) | ht | hid)
    · exact Or.inl (ht.trans hle)
    · exact Or.inr (Or.inl hid)
    · exact Or.inl ht
    · exact Or.inr (Or.inr hid)

/-- No more ids are named than the cap allows, so none is dropped. -/
theorem Absorbed.retainedIds_eq (h : Absorbed start s chatJid events) {timestamp : ℤ}
    {ids : List String} (hevents : ChatEvents chatJid (events ++ [ChatEvent.read timestamp ids]))
    (boundary : ℤ) :
    retainedIds plan s chatJid boundary (addBoundaryIds (s.marks chatJid).readBoundaryIds ids)
      = (addBoundaryIds (s.marks chatJid).readBoundaryIds ids).filter
          (idOutstanding plan s chatJid boundary) := by
  have hlength : ((addBoundaryIds (s.marks chatJid).readBoundaryIds ids).filter
      (idOutstanding plan s chatJid boundary)).length ≤ readBoundaryIdsCap := by
    rw [← List.toFinset_card_of_nodup ((nodup_addBoundaryIds h.nodup).filter _)]
    refine le_trans (Finset.card_le_card fun id hid => ?_) hevents.capped
    rw [List.mem_toFinset] at hid ⊢
    rw [namedIds_append_read, List.mem_append]
    exact (mem_addBoundaryIds.mp (List.mem_of_mem_filter hid)).imp_left (h.named id)
  rw [retainedIds, Nat.sub_eq_zero_of_le hlength]
  rfl

/-- Absorbing one more read event. -/
theorem Absorbed.read (h : Absorbed start s chatJid events) {timestamp : ℤ} {ids : List String}
    (hevents : ChatEvents chatJid (events ++ [ChatEvent.read timestamp ids])) :
    Absorbed start (s.absorb plan chatJid (.read timestamp ids)) chatJid
      (events ++ [ChatEvent.read timestamp ids]) := by
  have hmarks := marks_applyReadBoundary plan (s := s) chatJid timestamp ids chatJid
  rw [if_pos rfl, h.boundary, ← boundaryOf_append_read] at hmarks
  set boundary := boundaryOf (events ++ [ChatEvent.read timestamp ids]) with hboundary
  have hadded : ∀ id ∈ addBoundaryIds (s.marks chatJid).readBoundaryIds ids,
      id ∈ namedIds (events ++ [ChatEvent.read timestamp ids]) := by
    intro id hid
    rw [namedIds_append_read, List.mem_append]
    exact (mem_addBoundaryIds.mp hid).imp_left (h.named id)
  have hretained := h.retainedIds_eq plan hevents boundary
  have hlisted : (s.absorb plan chatJid (.read timestamp ids)).hasChat chatJid ↔
      s.hasChat chatJid := applyReadBoundary_sameChats plan s chatJid timestamp ids chatJid
  have hmark : ∀ row : MessageRow, boundaryMarks chatJid
      (max (settingsOf s chatJid).readBoundary (candidateBoundary timestamp ids)) ids row
        = boundaryMarks chatJid boundary ids row := by
    intro row
    rw [hboundary, boundaryOf_append_read, ← h.boundary]
    rfl
  have hmem : ∀ row, row ∈ (s.absorb plan chatJid (.read timestamp ids)).messages.rows ↔
      ∃ r ∈ s.messages.rows,
        (if boundaryMarks chatJid boundary ids r then { r with read := true } else r) = row := by
    intro row
    refine List.mem_map.trans ?_
    simp only [hmark]
  refine ⟨h.untombstoned, ?_, ?_, ?_, ?_, ?_, ?_, ?_, ?_, ?_⟩
  · rw [Store.absorb, hmarks]
    exact h.uncleared
  · rw [Store.absorb, hmarks]
  · rw [Store.absorb, hmarks, hretained]
    exact (nodup_addBoundaryIds h.nodup).filter _
  · rw [Store.absorb, hmarks, hretained]
    exact fun id hid => hadded id (List.mem_of_mem_filter hid)
  · rw [Store.absorb, hmarks, hretained, messagesOf_append_read, namedIds_append_read]
    intro id hid hne
    refine List.mem_filter.mpr ⟨mem_addBoundaryIds.mpr ?_, ?_⟩
    · exact (List.mem_append.mp hid).imp_left fun hold => h.remembered id hold hne
    · -- a message that is not stored has no time to compare with the boundary
      by_contra hout
      obtain ⟨row, hrow, -⟩ := idOutstanding_eq_false plan (by simpa using hout)
      obtain ⟨hrow, hc, hrid⟩ := Store.mem_messagesById.mp hrow
      obtain ⟨m, hm, hk, -⟩ := h.rows row hrow hc
      exact hne m hm ((congrArg (fun k => k.2.2) hk).symm.trans hrid)
  · intro row hrow hc
    obtain ⟨r, hr, rfl⟩ := (hmem row).mp hrow
    have hrc : r.chatJid = chatJid := by
      split at hc <;> exact hc
    obtain ⟨m, hm, hk, ht, hf, hread⟩ := h.rows r hr hrc
    have hid : r.id = m.id := congrArg (fun k => k.2.2) hk
    refine ⟨m, messagesOf_append_read.symm ▸ hm, ?_⟩
    have hmarked : boundaryMarks chatJid boundary ids r = true ↔
        ¬coveredBy events m ∧ (m.timestamp ≤ boundary ∨ m.id ∈ ids) := by
      rw [← hread]
      simp [boundaryMarks, MessageRow.unread, hrc, hf, ht, hid]
    rw [coveredBy_append_read, ← hboundary]
    split
    · rename_i hb
      exact ⟨hk, ht, hf, fun _ => Or.inr (hmarked.mp hb).2, fun _ => rfl⟩
    · rename_i hb
      refine ⟨hk, ht, hf, hread.trans ⟨Or.inl, fun hor => ?_⟩⟩
      by_contra hnot
      exact hb (hmarked.mpr ⟨hnot, hor.resolve_left hnot⟩)
  · intro m hm
    obtain ⟨r, hr, hk⟩ := h.stored m (messagesOf_append_read ▸ hm)
    refine ⟨_, (hmem _).mpr ⟨r, hr, rfl⟩, ?_⟩
    split
    · exact hk
    · exact hk
  · rw [hlisted, messagesOf_append_read]
    exact h.listed
  · intro c hc hj
    obtain ⟨c₀, -, rfl⟩ := List.mem_map.mp hc
    split
    · rfl
    · rename_i hne
      rw [if_neg hne] at hj
      exact absurd (decide_eq_true hj) hne

/-- Absorbing a list of events. -/
theorem NewChat.absorbed_run (h : NewChat s chatJid) (hevents : ChatEvents chatJid events) :
    Absorbed s (run (Store.absorb plan chatJid) s events) chatJid events := by
  induction events using List.reverseRecOn with
  | nil => exact h.absorbed
  | append_singleton events e ih =>
    have hprev := ih hevents.of_append
    rw [run_append]
    cases e with
    | message m chatName isGroup => exact hprev.message plan hevents
    | read timestamp ids => exact hprev.read plan hevents

/-- What the counter of the chat has to be. -/
theorem Absorbed.unreadMessageCount_eq (h : Absorbed start s chatJid events)
    (hdistinct : ((messagesOf events).map Message.id).Nodup)
    (hchat : ∀ m ∈ messagesOf events, m.chatJid = chatJid) :
    unreadMessageCount s chatJid
      = (messagesOf events).countP (fun m => !decide (coveredBy events m)) := by
  have hfirst : ((s.chatMessages chatJid).map fun r => (r.key, r.unread)).Perm
      ((messagesOf events).map fun m => (m.key, !decide (coveredBy events m))) := by
    have hrows : ((s.chatMessages chatJid).map MessageRow.key).Nodup :=
      (List.filter_sublist.map MessageRow.key).nodup s.messages.nodup
    refine (List.perm_ext_iff_of_nodup (List.Nodup.of_map Prod.fst ?_)
      (List.Nodup.of_map (fun k => k.1.2.2) ?_)).mpr fun k => ?_
    · rwa [List.map_map]
    · rwa [List.map_map]
    · simp only [List.mem_map, Store.mem_chatMessages]
      constructor
      · rintro ⟨row, ⟨hrow, hc⟩, rfl⟩
        obtain ⟨m, hm, hk, -, hf, hread⟩ := h.rows row hrow hc
        refine ⟨m, hm, Prod.ext hk.symm ?_⟩
        rw [MessageRow.unread, hf, Bool.eq_iff_iff]
        simp [← hread]
      · rintro ⟨m, hm, rfl⟩
        obtain ⟨row, hrow, hk⟩ := h.stored m hm
        have hc : row.chatJid = chatJid := (congrArg Prod.fst hk).trans (hchat m hm)
        obtain ⟨m', hm', hk', -, hf, hread⟩ := h.rows row hrow hc
        have hm : m' = m := List.inj_on_of_nodup_map hdistinct hm' hm
          (congrArg (fun k => k.2.2) (hk'.symm.trans hk))
        subst hm
        refine ⟨row, ⟨hrow, hc⟩, Prod.ext hk ?_⟩
        rw [MessageRow.unread, hf, Bool.eq_iff_iff]
        simp [← hread]
  rw [OmarchyWhatsapp.unreadMessageCount_eq]
  calc (s.chatMessages chatJid).countP MessageRow.unread
      = ((s.chatMessages chatJid).map fun r => (r.key, r.unread)).countP Prod.snd := by
        rw [List.countP_map]; rfl
    _ = ((messagesOf events).map fun m => (m.key, !decide (coveredBy events m))).countP
          Prod.snd := hfirst.countP_eq _
    _ = (messagesOf events).countP (fun m => !decide (coveredBy events m)) := by
        rw [List.countP_map]; rfl

end Steps

/-! ## Confluence -/

section Confluence

variable {s : Store} {chatJid : String} {events events' : List ChatEvent}

/-- What is covered does not depend on the order. -/
theorem coveredBy_perm (h : events'.Perm events) (m : Message) :
    coveredBy events' m ↔ coveredBy events m := by
  have hids : (namedIds events').Perm (namedIds events) :=
    (h.filterMap ChatEvent.read?).flatMap_right _
  rw [coveredBy, coveredBy, boundaryOf_perm h, hids.mem_iff]

/-- The counter the chat shows. -/
theorem Absorbed.unread_eq {start : Store} (h : Absorbed start s chatJid events)
    (hevents : ChatEvents chatJid events) :
    (s.chats.find? chatJid).map ChatRow.unread
      = if start.hasChat chatJid ∨ messagesOf events ≠ [] then
          some ((messagesOf events).countP (fun m => !decide (coveredBy events m)))
        else none := by
  rcases hc : s.chats.find? chatJid with _ | c
  · have hnot : ¬s.hasChat chatJid := by
      rw [hasChat_iff_find?, hc]
      rintro ⟨c, hc⟩
      cases hc
    rw [if_neg (h.listed.not.mp hnot)]
    rfl
  · obtain ⟨hmem, hk⟩ := Table.find?_eq_some.mp hc
    rw [if_pos (h.listed.mp ⟨c, hmem, hk⟩), Option.map_some, h.counted c hmem hk,
      h.unreadMessageCount_eq hevents.distinct fun m hm => (hevents.incoming m hm).1]

/-- The flag of an absorbed message. -/
theorem Absorbed.find? {start : Store} (h : Absorbed start s chatJid events)
    (hevents : ChatEvents chatJid events) {m : Message} (hm : m ∈ messagesOf events) :
    ∃ row, s.messages.find? m.key = some row ∧ (row.read = true ↔ coveredBy events m) := by
  obtain ⟨row, hrow, hk⟩ := h.stored m hm
  have hc : row.chatJid = chatJid := (congrArg Prod.fst hk).trans (hevents.incoming m hm).1
  obtain ⟨m', hm', hk', -, -, hread⟩ := h.rows row hrow hc
  have hsame : m' = m := List.inj_on_of_nodup_map hevents.distinct hm' hm
    (congrArg (fun k => k.2.2) (hk'.symm.trans hk))
  exact ⟨row, Table.find?_eq_some.mpr ⟨hrow, hk⟩, hsame ▸ hread⟩

/-- Every order of arrival ends with the same boundary, counter and read flags, and a message
is read exactly when the boundary reached it or an event named it. -/
theorem readCoverage_of_perm (hnew : NewChat s chatJid) (hevents : ChatEvents chatJid events)
    (hperm : events'.Perm events) :
    let final := run (Store.absorb plan chatJid) s events
    let final' := run (Store.absorb plan chatJid) s events'
    (settingsOf final' chatJid).readBoundary = (settingsOf final chatJid).readBoundary ∧
    (final'.chats.find? chatJid).map ChatRow.unread
      = (final.chats.find? chatJid).map ChatRow.unread ∧
    ∀ m ∈ messagesOf events, ∃ row row', final.messages.find? m.key = some row ∧
      final'.messages.find? m.key = some row' ∧ row'.read = row.read ∧
      (row.read = true ↔
        m.timestamp ≤ (settingsOf final chatJid).readBoundary ∨ m.id ∈ namedIds events) := by
  have hevents' := hevents.perm hperm
  have habsorbed := hnew.absorbed_run plan hevents
  have habsorbed' := hnew.absorbed_run plan hevents'
  have hmessages : (messagesOf events').Perm (messagesOf events) :=
    hperm.filterMap ChatEvent.message?
  intro final final'
  have hboundary : (settingsOf final chatJid).readBoundary = boundaryOf events :=
    habsorbed.boundary
  have hboundary' : (settingsOf final' chatJid).readBoundary = boundaryOf events' :=
    habsorbed'.boundary
  refine ⟨?_, ?_, fun m hm => ?_⟩
  · rw [hboundary, hboundary', boundaryOf_perm hperm]
  · have hsome : messagesOf events' ≠ [] ↔ messagesOf events ≠ [] := by
      rw [ne_eq, ne_eq, ← List.length_eq_zero_iff, ← List.length_eq_zero_iff,
        hmessages.length_eq]
    rw [habsorbed.unread_eq hevents, habsorbed'.unread_eq hevents', hmessages.countP_eq]
    simp only [hsome, coveredBy_perm hperm]
  · obtain ⟨row, hrow, hread⟩ := habsorbed.find? hevents hm
    obtain ⟨row', hrow', hread'⟩ := habsorbed'.find? hevents' (hmessages.mem_iff.mpr hm)
    refine ⟨row, row', hrow, hrow', ?_, hboundary ▸ hread⟩
    rw [Bool.eq_iff_iff, hread, hread', coveredBy_perm hperm]

/-- A read event that arrives before all the messages it covers, and after them. -/
theorem readCoverage_of_perm_read_first :
    let final := run (Store.absorb .stable "1") Store.empty
      [.message (directMessage "1" "a" "one" 5) "Ann" false,
        .message (directMessage "1" "b" "two" 20) "Ann" false,
        .message (directMessage "1" "c" "three" 30) "Ann" false, .read 10 ["c"]]
    let final' := run (Store.absorb .stable "1") Store.empty
      [.read 10 ["c"], .message (directMessage "1" "c" "three" 30) "Ann" false,
        .message (directMessage "1" "b" "two" 20) "Ann" false,
        .message (directMessage "1" "a" "one" 5) "Ann" false]
    (settingsOf final' "1").readBoundary = (settingsOf final "1").readBoundary ∧
      (final'.chats.find? "1").map ChatRow.unread = (final.chats.find? "1").map ChatRow.unread := by
  have hevents : ChatEvents "1" [.message (directMessage "1" "a" "one" 5) "Ann" false,
      .message (directMessage "1" "b" "two" 20) "Ann" false,
      .message (directMessage "1" "c" "three" 30) "Ann" false, .read 10 ["c"]] :=
    ⟨by decide, by decide, by decide, by decide⟩
  have h := readCoverage_of_perm .stable (newChat_empty "1") hevents (List.reverse_perm _)
  exact ⟨h.1, h.2.1⟩

end Confluence

end OmarchyWhatsapp
