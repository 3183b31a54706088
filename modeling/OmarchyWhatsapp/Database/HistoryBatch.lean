import OmarchyWhatsapp.Database.PreviewTheorems
import OmarchyWhatsapp.Relational.Retention

/-!
# A conversation at once, or message by message

`insert_history_conversation` replays a conversation in one transaction and prunes its chat in the
end. The sequential path writes the chat, and then for each message in a transaction of its own the
push name, the message with its pruning, and the media where the message was stored already. The
two leave the same store when no two messages of the chat share a time and those that share an id
survive: pruning commutes with every statement of the replay (`pruneChatHistory_relabel`,
`pruneChatHistory_insert`, `pruneChatHistory_complete`).

A message that is pruned on the way takes the votes, the secret and the receipts under its id
along. When another sender's message has the same id and arrives later in the conversation, the
batch still finds them a message in the end.
-/

namespace OmarchyWhatsapp

open Relational

attribute [ext] Store

variable (plan : QueryPlan)

/-! ## The sequential path -/

/-- `insert_history_message`: one replayed message with its own pruning. -/
def insertHistoryMessage (s : Store) (chat : Chat) (message : Message) : Store × Bool :=
  insertMessageInner plan s (historyInsert chat message)

/-- One message of `ingest_sequentially`. -/
def ingestMessage (s : Store) (chat : Chat) (message : Message) : Store × Bool :=
  let inserted := insertHistoryMessage plan (learnSenderName s message) chat message
  if inserted.2 then (inserted.1, true)
  else match message.media with
    | none => (inserted.1, false)
    | some media => updateMessageMediaInto plan inserted.1 message.chatJid message.id media

/-- `ingest_sequentially`. -/
def ingestSequentially (s : Store) (chat : Chat) (messages : List Message) : Store × Bool :=
  messages.foldl (fun acc message =>
    let next := ingestMessage plan acc.1 chat message
    (next.1, acc.2 || next.2)) (insertHistoryChatInto s chat, false)

/-! ## Pruning without ties -/

/-- No two messages of the chat share a time. -/
def Untied (s : Store) (jid : String) : Prop :=
  ∀ m ∈ s.chatMessages jid, ∀ m' ∈ s.chatMessages jid, m.timestamp = m'.timestamp → m = m'

/-- What pruning leaves of the message rows. -/
def keptRows (jid : String) (rows : List MessageRow) : List MessageRow :=
  keepTop (fun m => m.chatJid = jid) MessageRow.timestamp retention rows

/-- How many messages of the chat are newer. -/
def newerThan (jid : String) (rows : List MessageRow) (timestamp : ℤ) : ℕ :=
  rank (fun m => m.chatJid = jid) MessageRow.timestamp rows timestamp

section Prune

variable {s : Store} {jid : String}

theorem rows_pruneChatHistory (h : Untied s jid) :
    (pruneChatHistory plan s jid).messages.rows = keptRows jid s.messages.rows := by
  refine List.filter_congr fun m hm => ?_
  change (!(decide (m.chatJid = jid) && (overflow plan (s.chatMessages jid)).contains m))
    = (!decide (m.chatJid = jid) || decide (newerThan jid s.messages.rows m.timestamp < retention))
  by_cases hjid : m.chatJid = jid
  · have hmem : m ∈ s.chatMessages jid := Store.mem_chatMessages.mpr ⟨hm, hjid⟩
    have hrank : rank (fun _ => true) MessageRow.timestamp (s.chatMessages jid) m.timestamp
        = newerThan jid s.messages.rows m.timestamp := by
      rw [rank, Store.chatMessages, List.countP_filter, newerThan, rank]
      exact List.countP_congr fun a _ => by simp [and_comm]
    have hdrop := plan.mem_drop_iff (nodup_chatMessages s jid) h (n := retention) (a := m)
    rw [hrank] at hdrop
    have hover : (overflow plan (s.chatMessages jid)).contains m
        = decide (retention ≤ newerThan jid s.messages.rows m.timestamp) := by
      rw [List.contains_eq_mem, decide_eq_decide]
      exact hdrop.trans (and_iff_right hmem)
    rw [hover]
    by_cases hlt : newerThan jid s.messages.rows m.timestamp < retention
    · simp [hjid, hlt, not_le.mpr hlt]
    · simp [hjid, hlt, not_lt.mp hlt]
  · simp [hjid]

/-- What a side table keeps depends on the ids that are left. -/
theorem hasMessage_congr {a b : Store} {messageId : String}
    (h : (a.messages.rows.map fun m => (m.chatJid, m.id))
      = b.messages.rows.map fun m => (m.chatJid, m.id)) :
    a.hasMessage jid messageId = b.hasMessage jid messageId := by
  have hmap : ∀ s : Store, s.hasMessage jid messageId
      = (s.messages.rows.map fun m => (m.chatJid, m.id)).any
          (fun k => k.1 = jid && k.2 = messageId) := by
    intro s
    rw [List.any_map]
    rfl
  rw [hmap, hmap, h]

theorem hasMessage_iff {messageId : String} :
    s.hasMessage jid messageId = true ↔
      ∃ m ∈ s.messages.rows, m.chatJid = jid ∧ m.id = messageId := by
  simp [Store.hasMessage]

theorem mem_pollVotes_prune {v : PollVoteRow} :
    v ∈ (pruneChatHistory plan s jid).pollVotes.rows ↔
      v ∈ s.pollVotes.rows ∧
        (v.chatJid = jid → (pruneChatHistory plan s jid).hasMessage jid v.messageId = true) := by
  refine Table.mem_deleteWhere.trans (and_congr_right fun _ => ?_)
  change (decide (v.chatJid = jid) && !(pruneChatHistory plan s jid).hasMessage jid v.messageId)
    = false ↔ _
  by_cases hjid : v.chatJid = jid
  · simp [hjid]
  · simp [hjid]

/-- Pruning and an update that leaves identities and times alone. -/
theorem pruneChatHistory_relabel (h : Untied s jid) (p : MessageRow → Bool)
    (g : MessageRow → MessageRow) (hkey : ∀ m, (g m).key = m.key)
    (htime : ∀ m, (g m).timestamp = m.timestamp) (contacts : Table ContactRow ContactRow.jid)
    (chats : Table ChatRow ChatRow.jid) :
    pruneChatHistory plan
        { s with contacts, chats, messages := s.messages.updateWhere p g hkey } jid
      = { pruneChatHistory plan s jid with
          contacts, chats
          messages := (pruneChatHistory plan s jid).messages.updateWhere p g hkey } := by
  have hids : ∀ m, ((if p m then g m else m).chatJid, (if p m then g m else m).id)
      = (m.chatJid, m.id) := by
    intro m
    split
    · have hm := hkey m
      simp only [MessageRow.key, Prod.mk.injEq] at hm
      rw [hm.1, hm.2.2]
    · rfl
  have htimes : ∀ m, (if p m then g m else m).timestamp = m.timestamp := by
    intro m
    split
    · exact htime m
    · rfl
  have huntied : Untied
      { s with contacts, chats, messages := s.messages.updateWhere p g hkey } jid := by
    intro m hm m' hm' heq
    rw [Store.mem_chatMessages] at hm hm'
    obtain ⟨m₀, hm₀, rfl⟩ := List.mem_map.mp hm.1
    obtain ⟨m₁, hm₁, rfl⟩ := List.mem_map.mp hm'.1
    rw [htimes, htimes] at heq
    have h₀ := (Prod.mk.inj (hids m₀)).1.symm.trans hm.2
    have h₁ := (Prod.mk.inj (hids m₁)).1.symm.trans hm'.2
    rw [h m₀ (Store.mem_chatMessages.mpr ⟨hm₀, h₀⟩) m₁ (Store.mem_chatMessages.mpr ⟨hm₁, h₁⟩) heq]
  have hrows : keptRows jid (s.messages.updateWhere p g hkey).rows
      = (keptRows jid s.messages.rows).map (fun m => if p m then g m else m) := by
    refine keepTop_map _ (fun m => ?_) htimes
    rw [(Prod.mk.inj (hids m)).1]
  have hkept : ∀ messageId, (keepNewest plan
      { s with contacts, chats, messages := s.messages.updateWhere p g hkey } jid).hasMessage jid
        messageId = (keepNewest plan s jid).hasMessage jid messageId := by
    intro messageId
    refine hasMessage_congr ?_
    have hleft := rows_pruneChatHistory plan huntied
    have hright := rows_pruneChatHistory plan h
    rw [(pruneChatHistory_frame plan _ jid).1] at hleft hright
    rw [hleft, hright, hrows, List.map_map]
    exact List.map_congr_left fun m _ => hids m
  ext1
  · rfl
  · rfl
  · refine Table.ext ?_
    rw [rows_pruneChatHistory plan huntied, hrows, Table.rows_updateWhere,
      rows_pruneChatHistory plan h]
  · rfl
  · exact Table.ext (List.filter_congr fun r _ =>
      congrArg (fun kept => !(decide (r.chatJid = jid) && !kept)) (hkept r.messageId))
  · rfl
  · rfl
  · rfl
  · exact Table.ext (List.filter_congr fun r _ =>
      congrArg (fun kept => !(decide (r.chatJid = jid) && !kept)) (hkept r.messageId))
  · exact Table.ext (List.filter_congr fun r _ =>
      congrArg (fun kept => !(decide (r.chatJid = jid) && !kept)) (hkept r.messageId))
  · rfl
  · rfl

theorem learnSenderName_of_silent {message : Message}
    (h : (!message.fromMe && message.senderName != message.senderJid) = false) :
    learnSenderName s message = s := by
  rw [learnSenderName, h, if_neg Bool.false_ne_true]

/-- A push name is learnt, or not, by the contacts. -/
theorem learnSenderName_cases (s : Store) (message : Message) :
    (∀ s' : Store, s'.contacts = s.contacts → learnSenderName s' message = s') ∨
      ∃ (contacts : Table ContactRow ContactRow.jid) (chats : Table ChatRow ChatRow.jid →
          Table ChatRow ChatRow.jid),
        ∀ s' : Store, s'.contacts = s.contacts → learnSenderName s' message = { s' with
          contacts, chats := chats s'.chats
          messages := s'.messages.updateWhere (fun m => m.senderJid = message.senderJid)
            (fun m => { m with senderName := trim message.senderName }) } := by
  by_cases hsends : (!message.fromMe && message.senderName != message.senderJid) = true
  · by_cases hblank : trim message.senderName = ""
    · refine Or.inl fun s' _ => ?_
      rw [learnSenderName, if_pos hsends, updateContactNameInto, if_pos hblank]
    · by_cases hknown :
        (s.contacts.find? message.senderJid).any (fun c => decide (0 < c.source)) = true
      · refine Or.inl fun s' hs' => ?_
        rw [learnSenderName, if_pos hsends, updateContactNameInto, if_neg hblank,
          if_pos (by rw [hs']; exact hknown)]
      · refine Or.inr ⟨s.contacts.upsert ⟨message.senderJid, trim message.senderName, 0⟩
          (fun old new => { old with name := new.name, source := new.source }),
          fun t => t.updateWhere (fun c => c.jid = message.senderJid &&
          !c.isGroup && decide (c.nameSource ≤ chatNameMessage))
          (fun c => { c with name := trim message.senderName, nameSource := chatNameMessage }),
          fun s' hs' => ?_⟩
        rw [learnSenderName, if_pos hsends, updateContactNameInto, if_neg hblank,
          if_neg (by rw [hs']; exact hknown), hs']
        rfl
  · refine Or.inl fun s' _ => ?_
    rw [learnSenderName, if_neg hsends]

/-- Pruning and a push name. -/
theorem pruneChatHistory_learnSenderName (h : Untied s jid) (message : Message) :
    pruneChatHistory plan (learnSenderName s message) jid
      = learnSenderName (pruneChatHistory plan s jid) message := by
  rcases learnSenderName_cases s message with hsame | ⟨contacts, chats, hlearnt⟩
  · rw [hsame s rfl, hsame (pruneChatHistory plan s jid) rfl]
  · rw [hlearnt s rfl, hlearnt (pruneChatHistory plan s jid) rfl]
    exact pruneChatHistory_relabel plan h (fun m => m.senderJid = message.senderJid)
      (fun m => { m with senderName := trim message.senderName }) (fun _ => rfl) (fun _ => rfl)
      contacts (chats s.chats)

end Prune

/-! ## The messages of a replay -/

/-- Every vote, poll secret and receipt refers to a stored message. -/
structure Referential (s : Store) : Prop where
  votes : ∀ v ∈ s.pollVotes.rows, s.hasMessage v.chatJid v.messageId
  secrets : ∀ p ∈ s.pollSecrets.rows, s.hasMessage p.chatJid p.messageId
  reads : ∀ r ∈ s.messageReads.rows, s.hasMessage r.chatJid r.messageId

/-- The identity of a message and its time. -/
abbrev Stamp := (String × String × String) × ℤ

def MessageRow.stamp (m : MessageRow) : Stamp := (m.key, m.timestamp)

/-- A message comes with one time, and no other message of the chat with the same. -/
structure Timed (stamps : List Stamp) : Prop where
  stored : ∀ x ∈ stamps, ∀ y ∈ stamps, x.1 = y.1 → x = y
  distinct : ∀ x ∈ stamps, ∀ y ∈ stamps, x.2 = y.2 → x = y

/-- Messages that share an id are among those that the chat keeps. -/
def SharedKept (stamps : List Stamp) : Prop :=
  ∀ x ∈ stamps, ∀ y ∈ stamps, x.1.2.2 = y.1.2.2 → x ≠ y →
    stamps.dedup.countP (fun z => x.2 < z.2) < retention

instance (stamps : List Stamp) : Decidable (SharedKept stamps) :=
  inferInstanceAs (Decidable (∀ _ ∈ stamps, ∀ _ ∈ stamps, _ → _ → _))

/-- A store in the course of a replay of messages with these stamps. -/
structure Replaying (stamps : List Stamp) (jid : String) (s : Store) : Prop where
  stamped : ∀ m ∈ s.messages.rows, m.chatJid = jid → m.stamp ∈ stamps
  votes : ∀ v ∈ s.pollVotes.rows, v.chatJid = jid → s.hasMessage jid v.messageId
  secrets : ∀ p ∈ s.pollSecrets.rows, p.chatJid = jid → s.hasMessage jid p.messageId
  reads : ∀ r ∈ s.messageReads.rows, r.chatJid = jid → s.hasMessage jid r.messageId

section Replaying

variable {stamps : List Stamp} {jid : String} {s s' : Store}

theorem Untied.of_stamped (hstamps : Timed stamps)
    (h : ∀ m ∈ s.messages.rows, m.chatJid = jid → m.stamp ∈ stamps) : Untied s jid := by
  intro m hm m' hm' heq
  rw [Store.mem_chatMessages] at hm hm'
  have hstamp := hstamps.distinct _ (h m hm.1 hm.2) _ (h m' hm'.1 hm'.2) heq
  exact s.messages.key_inj hm.1 hm'.1 (congrArg Prod.fst hstamp)

theorem Replaying.untied (h : Replaying stamps jid s) (hstamps : Timed stamps) : Untied s jid :=
  .of_stamped hstamps h.stamped

/-- A statement that adds messages with these stamps and drops no id. -/
theorem Replaying.of_rows (h : Replaying stamps jid s)
    (hstamped : ∀ m ∈ s'.messages.rows, m.chatJid = jid → m.stamp ∈ stamps)
    (hids : ∀ id, s.hasMessage jid id = true → s'.hasMessage jid id = true)
    (hvotes : s'.pollVotes = s.pollVotes) (hsecrets : s'.pollSecrets = s.pollSecrets)
    (hreads : s'.messageReads = s.messageReads) : Replaying stamps jid s' where
  stamped := hstamped
  votes v hv hjid := hids _ (h.votes v (hvotes ▸ hv) hjid)
  secrets p hp hjid := hids _ (h.secrets p (hsecrets ▸ hp) hjid)
  reads r hr hjid := hids _ (h.reads r (hreads ▸ hr) hjid)

/-- So is an update that leaves identities and times alone. -/
theorem Replaying.relabel (h : Replaying stamps jid s) {p : MessageRow → Bool}
    {g : MessageRow → MessageRow} (hstamp : ∀ m, (g m).stamp = m.stamp)
    (hrows : s'.messages.rows = s.messages.rows.map (fun m => if p m then g m else m))
    (hvotes : s'.pollVotes = s.pollVotes) (hsecrets : s'.pollSecrets = s.pollSecrets)
    (hreads : s'.messageReads = s.messageReads) : Replaying stamps jid s' := by
  have hsame : ∀ m, (if p m then g m else m).stamp = m.stamp := by
    intro m
    split
    · exact hstamp m
    · rfl
  have hids : ∀ m, ((if p m then g m else m).chatJid, (if p m then g m else m).id)
      = (m.chatJid, m.id) := fun m => by
    have hm := congrArg Prod.fst (hsame m)
    simp only [MessageRow.stamp, MessageRow.key, Prod.mk.injEq] at hm
    rw [hm.1, hm.2.2]
  refine h.of_rows (fun m hm hjid => ?_) (fun id hid => ?_) hvotes hsecrets hreads
  · rw [hrows] at hm
    obtain ⟨m₀, hm₀, rfl⟩ := List.mem_map.mp hm
    rw [hsame]
    exact h.stamped m₀ hm₀ ((Prod.mk.inj (hids m₀)).1.symm.trans hjid)
  · rw [← hid]
    refine hasMessage_congr ?_
    rw [hrows, List.map_map]
    exact List.map_congr_left fun m _ => hids m

/-- No more stored messages are newer than messages of the replay. -/
theorem Replaying.newerThan_le (h : Replaying stamps jid s) (timestamp : ℤ) :
    newerThan jid s.messages.rows timestamp
      ≤ stamps.dedup.countP (fun z => timestamp < z.2) := by
  rw [newerThan, rank, List.countP_eq_length_filter, List.countP_eq_length_filter]
  rw [← List.length_map (f := MessageRow.stamp)]
  refine (List.Nodup.subperm ?_ ?_).length_le
  · have hkeys : (((s.messages.rows.filter fun m => decide (m.chatJid = jid) &&
        decide (timestamp < m.timestamp)).map MessageRow.stamp).map Prod.fst).Nodup := by
      rw [List.map_map]
      exact (List.filter_sublist.map MessageRow.key).nodup s.messages.nodup
    exact List.Nodup.of_map _ hkeys
  · intro x hx
    obtain ⟨m, hm, rfl⟩ := List.mem_map.mp hx
    rw [List.mem_filter, Bool.and_eq_true, decide_eq_true_eq, decide_eq_true_eq] at hm
    rw [List.mem_filter, List.mem_dedup]
    exact ⟨h.stamped m hm.1 hm.2.1, decide_eq_true hm.2.2⟩

theorem Replaying.prune (h : Replaying stamps jid s) (hstamps : Timed stamps) :
    Replaying stamps jid (pruneChatHistory plan s jid) where
  stamped m hm := by
    rw [rows_pruneChatHistory plan (h.untied hstamps)] at hm
    exact h.stamped m (mem_keepTop.mp hm).1
  votes v hv hjid := by
    have hkept := (Table.mem_deleteWhere.mp hv).2
    change (keepNewest plan s jid).hasMessage jid v.messageId = true
    simpa [hjid] using hkept
  secrets p hp hjid := by
    have hkept := (Table.mem_deleteWhere.mp hp).2
    change (keepNewest plan s jid).hasMessage jid p.messageId = true
    simpa [hjid] using hkept
  reads r hr hjid := by
    have hkept := (Table.mem_deleteWhere.mp hr).2
    change (keepNewest plan s jid).hasMessage jid r.messageId = true
    simpa [hjid] using hkept

/-- Of two messages that share an id, both are kept. -/
theorem Replaying.kept_of_shared (h : Replaying stamps jid s) (hshared : SharedKept stamps)
    {y : MessageRow} (hy : y ∈ s.messages.rows) (hjid : y.chatJid = jid) {x : Stamp}
    (hx : x ∈ stamps) (hid : x.1.2.2 = y.id) (hne : x.1 ≠ y.key) :
    y ∈ keptRows jid s.messages.rows := by
  refine mem_keepTop.mpr ⟨hy, fun _ => (h.newerThan_le y.timestamp).trans_lt ?_⟩
  exact hshared y.stamp (h.stamped y hy hjid) x hx hid.symm fun heq =>
    hne (congrArg Prod.fst heq).symm

end Replaying

/-! ## Pruning and the statements of a replay -/

/-- The stamp of an arriving message. -/
def Message.stamp (message : Message) : Stamp := (message.key, message.timestamp)

section Insert

variable {stamps : List Stamp} {jid : String} {s : Store} {chat : Chat} {message : Message}

theorem insertMessageInto_historyInsert (h : suppressed s message = false) :
    insertMessageInto s (historyInsert chat message)
      = ({ s with
            chats := s.chats.upsert (proposedChat (historyInsert chat message)) mergePreview
            messages := s.messages.insertOrIgnore
              (proposedMessage s (historyInsert chat message)) },
          (s.messages.find? message.key).isNone) := by
  have hstore : ∀ s' : Store, storeMessage s' (historyInsert chat message)
      = ({ s' with
            messages := s'.messages.insertOrIgnore
              (proposedMessage s' (historyInsert chat message)) },
          (s'.messages.find? message.key).isNone) := by
    intro s'
    have hread : messageIsUnread s' (historyInsert chat message) = false := rfl
    simp only [storeMessage, hread, Bool.and_false, Bool.false_eq_true, if_false]
    rfl
  rw [insertMessageInto, if_neg, hstore]
  · rfl
  · change ¬suppressed s message = true
    rw [h]
    exact Bool.false_ne_true

theorem rows_historyInsert (chat : Chat) (h : suppressed s message = false) :
    (insertMessageInto s (historyInsert chat message)).1.messages.rows
      = if s.messages.find? message.key = none
        then s.messages.rows ++ [proposedMessage s (historyInsert chat message)]
        else s.messages.rows := by
  rw [insertMessageInto_historyInsert h]
  exact Table.rows_insertOrIgnore _ _

theorem pollVotes_historyInsert (chat : Chat) (h : suppressed s message = false) :
    (insertMessageInto s (historyInsert chat message)).1.pollVotes = s.pollVotes := by
  rw [insertMessageInto_historyInsert h]

theorem Replaying.insert (h : Replaying stamps jid s) (chat : Chat)
    (hmessage : suppressed s message = false → message.stamp ∈ stamps) :
    Replaying stamps jid (insertMessageInto s (historyInsert chat message)).1 := by
  cases hsup : suppressed s message with
  | true => rwa [insertMessageInto_of_suppressed hsup]
  | false =>
    have hmem : ∀ m, m ∈ (insertMessageInto s (historyInsert chat message)).1.messages.rows ↔
        m ∈ s.messages.rows ∨ (m = proposedMessage s (historyInsert chat message) ∧
          s.messages.find? message.key = none) := by
      intro m
      rw [insertMessageInto_historyInsert hsup]
      exact Table.mem_insertOrIgnore
    have hrest := @insertMessageInto_historyInsert s chat message hsup
    refine h.of_rows (fun m hm hjid => ?_) (fun id hid => ?_) (by rw [hrest]) (by rw [hrest])
      (by rw [hrest])
    · rcases (hmem m).mp hm with hm | ⟨rfl, -⟩
      · exact h.stamped m hm hjid
      · exact hmessage hsup
    · obtain ⟨m, hm, hk⟩ := hasMessage_iff.mp hid
      exact hasMessage_iff.mpr ⟨m, (hmem m).mpr (Or.inl hm), hk⟩

/-- Pruned rows are rows. -/
theorem mem_of_mem_keptRows {rows : List MessageRow} {m : MessageRow}
    (h : m ∈ keptRows jid rows) : m ∈ rows := (mem_keepTop.mp h).1

theorem find?_prune_of_none (huntied : Untied s jid) {k : String × String × String}
    (h : s.messages.find? k = none) : (pruneChatHistory plan s jid).messages.find? k = none := by
  rw [Table.find?_eq_none] at h ⊢
  intro m hm
  rw [rows_pruneChatHistory plan huntied] at hm
  exact h m (mem_of_mem_keptRows hm)

/-- The rows after an insertion and a pruning do not depend on a pruning before. -/
theorem keptRows_insert (hs : Replaying stamps jid s) (hstamps : Timed stamps)
    (hmessage : message.stamp ∈ stamps) (hjid : message.chatJid = jid)
    (hsup : suppressed s message = false) :
    keptRows jid (insertMessageInto (pruneChatHistory plan s jid)
        (historyInsert chat message)).1.messages.rows
      = keptRows jid (insertMessageInto s (historyInsert chat message)).1.messages.rows := by
  have huntied := hs.untied hstamps
  have hprune := rows_pruneChatHistory plan huntied
  have hsup' : suppressed (pruneChatHistory plan s jid) message = false :=
    (suppressed_congr rfl rfl message).trans hsup
  have hrow : proposedMessage (pruneChatHistory plan s jid) (historyInsert chat message)
      = proposedMessage s (historyInsert chat message) := rfl
  have hrowJid : (proposedMessage s (historyInsert chat message)).chatJid = jid := hjid
  rw [rows_historyInsert chat hsup', rows_historyInsert chat hsup, hrow, hprune]
  generalize hr : proposedMessage s (historyInsert chat message) = r at hrowJid
  rcases hfind : s.messages.find? message.key with _ | y
  · rw [if_pos (find?_prune_of_none plan huntied hfind), if_pos rfl]
    exact keepTop_concat r
  · rw [if_neg (Option.some_ne_none y)]
    split
    · rename_i hpruned
      -- the stored message was pruned, and the one that arrives is as old
      obtain ⟨hy, hkey⟩ := Table.find?_eq_some.mp hfind
      have hyJid : y.chatJid = jid := (congrArg Prod.fst hkey).trans hjid
      have hstamp : y.stamp = message.stamp :=
        hstamps.stored _ (hs.stamped y hy hyJid) _ hmessage hkey
      have hold : retention ≤ newerThan jid s.messages.rows y.timestamp := by
        by_contra hlt
        refine absurd hkey (Table.find?_eq_none.mp hpruned y ?_)
        rw [hprune]
        exact mem_keepTop.mpr ⟨hy, fun _ => not_le.mp hlt⟩
      have htime : r.timestamp = y.timestamp := by
        rw [← hr]
        exact (congrArg Prod.snd hstamp).symm
      refine (keepTop_concat r).trans (keepTop_stale (decide_eq_true hrowJid) ?_)
      rw [htime]
      exact hold
    · exact keepTop_keepTop

/-- An id that a stored message has and that is left after the insertion was left before. -/
theorem hasMessage_of_insert (hs : Replaying stamps jid s) (hstamps : Timed stamps)
    (hshared : SharedKept stamps)
    (hmessage : suppressed s message = false → message.stamp ∈ stamps) (chat : Chat)
    {messageId : String} (hid : s.hasMessage jid messageId = true)
    (h : (pruneChatHistory plan (insertMessageInto s (historyInsert chat message)).1
      jid).hasMessage jid messageId = true) :
    (pruneChatHistory plan s jid).hasMessage jid messageId = true := by
  have hinserted := (hs.insert chat hmessage).untied hstamps
  obtain ⟨x, hx, hxJid, hxId⟩ := hasMessage_iff.mp h
  rw [rows_pruneChatHistory plan hinserted] at hx
  rw [hasMessage_iff, rows_pruneChatHistory plan (hs.untied hstamps)]
  by_cases hxs : x ∈ s.messages.rows
  · -- it was stored, and is as new as it is now
    refine ⟨x, mem_keepTop.mpr ⟨hxs, fun hp => ?_⟩, hxJid, hxId⟩
    refine lt_of_le_of_lt ?_ ((mem_keepTop.mp hx).2 hp)
    cases hsup : suppressed s message with
    | true => rw [insertMessageInto_of_suppressed hsup]
    | false =>
      rw [rows_historyInsert chat hsup]
      split
      · rw [rank_append]
        exact Nat.le_add_right _ _
      · exact le_rfl
  · -- it is the message that arrived, and shares its id with a stored one
    obtain ⟨y, hy, hyJid, hyId⟩ := hasMessage_iff.mp hid
    refine ⟨y, ?_, hyJid, hyId⟩
    have hmem := mem_of_mem_keptRows hx
    cases hsup : suppressed s message with
    | true =>
      rw [insertMessageInto_of_suppressed hsup] at hmem
      exact absurd hmem hxs
    | false =>
      rw [insertMessageInto_historyInsert hsup] at hmem
      obtain ⟨rfl, hnone⟩ := (Table.mem_insertOrIgnore.mp hmem).resolve_left hxs
      exact hs.kept_of_shared hshared hy hyJid (hmessage hsup) (hxId.trans hyId.symm)
        fun heq => Table.find?_eq_none.mp hnone y hy heq.symm

/-- Pruning, inserting and pruning again. -/
theorem pruneChatHistory_insert (hs : Replaying stamps jid s) (hstamps : Timed stamps)
    (hshared : SharedKept stamps)
    (hmessage : suppressed s message = false → message.stamp ∈ stamps)
    (hjid : message.chatJid = jid) :
    pruneChatHistory plan (insertMessageInto (pruneChatHistory plan s jid)
        (historyInsert chat message)).1 jid
      = pruneChatHistory plan (insertMessageInto s (historyInsert chat message)).1 jid := by
  have hrows : keptRows jid (insertMessageInto (pruneChatHistory plan s jid)
        (historyInsert chat message)).1.messages.rows
      = keptRows jid (insertMessageInto s (historyInsert chat message)).1.messages.rows := by
    cases hsup : suppressed s message with
    | true =>
      rw [insertMessageInto_of_suppressed hsup,
        insertMessageInto_of_suppressed ((suppressed_congr rfl rfl message).trans hsup),
        rows_pruneChatHistory plan (hs.untied hstamps)]
      exact keepTop_keepTop
    | false => exact keptRows_insert plan hs hstamps (hmessage hsup) hjid hsup
  have hleft := rows_pruneChatHistory plan (((hs.prune plan hstamps).insert chat
    fun hsup => hmessage ((suppressed_congr rfl rfl message).symm.trans hsup)).untied hstamps)
  have hright := rows_pruneChatHistory plan ((hs.insert chat hmessage).untied hstamps)
  have hkept : ∀ id, s.hasMessage jid id = true → _ := fun id =>
    hasMessage_of_insert plan hs hstamps hshared hmessage chat
  obtain ⟨chats, t, t', hpruned, hplain⟩ : ∃ chats t t',
      (insertMessageInto (pruneChatHistory plan s jid) (historyInsert chat message)).1
        = { pruneChatHistory plan s jid with chats, messages := t' } ∧
      (insertMessageInto s (historyInsert chat message)).1 = { s with chats, messages := t } := by
    cases hsup : suppressed s message with
    | true =>
      have hsup' : suppressed (pruneChatHistory plan s jid) message = true :=
        (suppressed_congr rfl rfl message).trans hsup
      rw [insertMessageInto_of_suppressed hsup, insertMessageInto_of_suppressed hsup']
      exact ⟨s.chats, s.messages, _, rfl, rfl⟩
    | false =>
      have hsup' : suppressed (pruneChatHistory plan s jid) message = false :=
        (suppressed_congr rfl rfl message).trans hsup
      rw [insertMessageInto_historyInsert hsup, insertMessageInto_historyInsert hsup']
      exact ⟨_, _, _, rfl, rfl⟩
  rw [hpruned] at hleft hrows ⊢
  rw [hplain] at hright hrows hkept ⊢
  have hids : ∀ id, (keepNewest plan
        { pruneChatHistory plan s jid with chats, messages := t' } jid).hasMessage jid id
      = (keepNewest plan { s with chats, messages := t } jid).hasMessage jid id := by
    intro id
    rw [(pruneChatHistory_frame plan _ jid).1] at hleft hright
    refine hasMessage_congr ?_
    rw [hleft, hright, hrows]
  -- the first pruning of a side table deletes no more than the second
  have hdeletes : ∀ (c id : String), (c = jid → s.hasMessage jid id = true) →
      (decide (c = jid) && !(keepNewest plan { s with chats, messages := t } jid).hasMessage jid
        id) = false →
      (decide (c = jid) && !(keepNewest plan s jid).hasMessage jid id) = false := by
    intro c id hstored hdeleted
    by_cases hc : c = jid
    · simp only [hc, decide_true, Bool.true_and, Bool.not_eq_false'] at hdeleted ⊢
      exact hkept id (hstored hc) hdeleted
    · simp [hc]
  ext1
  · rfl
  · rfl
  · exact Table.ext (hleft.trans (hrows.trans hright.symm))
  · rfl
  · refine Eq.trans ?_ (Table.deleteWhere_deleteWhere fun r hr =>
      hdeletes r.chatJid r.messageId (hs.reads r hr))
    exact Table.ext (List.filter_congr fun r _ =>
      congrArg (fun kept => !(decide (r.chatJid = jid) && !kept)) (hids r.messageId))
  · rfl
  · rfl
  · rfl
  · refine Eq.trans ?_ (Table.deleteWhere_deleteWhere fun r hr =>
      hdeletes r.chatJid r.messageId (hs.secrets r hr))
    exact Table.ext (List.filter_congr fun r _ =>
      congrArg (fun kept => !(decide (r.chatJid = jid) && !kept)) (hids r.messageId))
  · refine Eq.trans ?_ (Table.deleteWhere_deleteWhere fun r hr =>
      hdeletes r.chatJid r.messageId (hs.votes r hr))
    exact Table.ext (List.filter_congr fun r _ =>
      congrArg (fun kept => !(decide (r.chatJid = jid) && !kept)) (hids r.messageId))
  · rfl
  · rfl

end Insert

section Complete

variable {stamps : List Stamp} {jid : String} {s : Store} {messageId : String}
  {media : MessageMedia}

/-- The rows that `update_message_media_into` leaves. -/
def completedMessages (s : Store) (jid messageId : String) (media : MessageMedia) :
    Table MessageRow MessageRow.key :=
  s.messages.updateWhere (mediaOutdated jid messageId media)
    (fun m => { m with media := some media, text := relabel media m.text })

theorem rows_completedMessages : (completedMessages s jid messageId media).rows
    = s.messages.rows.map (fun m => if mediaOutdated jid messageId media m
        then { m with media := some media, text := relabel media m.text } else m) := rfl

theorem jid_relabelled (c : ChatRow) : { c with lastMessage := "[GIF]" }.jid = c.jid := rfl

/-- The chat rows it leaves, when `shown` is the message that the preview shows. -/
def completedChats (s : Store) (jid messageId : String) (media : MessageMedia)
    (shown : Option MessageRow) : Table ChatRow ChatRow.jid :=
  s.chats.updateWhere
    (fun c => c.jid = jid && (isGif media && c.lastMessage = "[Video]") &&
      shown.any (fun m => m.id = messageId))
    (fun c => { c with lastMessage := "[GIF]" }) jid_relabelled

theorem updateMessageMediaInto_eq (s : Store) (jid messageId : String) (media : MessageMedia) :
    (updateMessageMediaInto plan s jid messageId media).1
      = { s with
          messages := completedMessages s jid messageId (storedMedia plan s jid messageId media)
          chats := completedChats s jid messageId (storedMedia plan s jid messageId media)
            (newestFirst plan ((completedMessages s jid messageId
              (storedMedia plan s jid messageId media)).rows.filter
                (fun m => m.chatJid = jid))).head? } := rfl

theorem completedChats_of_absent {shown : Option MessageRow}
    (h : shown.any (fun m => m.id = messageId) = false) :
    completedChats s jid messageId media shown = s.chats := by
  rw [completedChats, h]
  refine Table.ext ?_
  rw [Table.rows_updateWhere]
  simp

/-- Rows of other messages stay as they are. -/
theorem completedMessages_of_absent (h : s.hasMessage jid messageId = false) :
    completedMessages s jid messageId media = s.messages := by
  refine Table.ext ?_
  rw [rows_completedMessages]
  refine (List.map_congr_left fun m hm => if_neg fun hout => ?_).trans (List.map_id' _)
  simp only [mediaOutdated, Bool.and_eq_true, decide_eq_true_eq] at hout
  exact absurd (hasMessage_iff.mpr ⟨m, hm, hout.1⟩) (by simp [h])

theorem updateMessageMediaInto_of_absent (h : s.hasMessage jid messageId = false) :
    (updateMessageMediaInto plan s jid messageId media).1 = s := by
  rw [updateMessageMediaInto_eq, completedMessages_of_absent h, completedChats_of_absent]
  rw [Option.any_eq_false]
  intro m hm
  obtain ⟨hmem, -⟩ := head_newestFirst plan hm
  rw [List.mem_filter, decide_eq_true_eq] at hmem
  refine decide_eq_false fun hid => ?_
  exact absurd (hasMessage_iff.mpr ⟨m, hmem.1, hmem.2, hid⟩) (by simp [h])

/-- The newest message of the chat is kept. -/
theorem head_newestFirst_prune (h : Untied s jid) :
    (newestFirst plan ((pruneChatHistory plan s jid).chatMessages jid)).head?
      = (newestFirst plan (s.chatMessages jid)).head? := by
  have hmem : ∀ m, m ∈ (pruneChatHistory plan s jid).chatMessages jid ↔
      m ∈ s.chatMessages jid ∧ newerThan jid s.messages.rows m.timestamp < retention := by
    intro m
    rw [Store.mem_chatMessages, Store.mem_chatMessages, rows_pruneChatHistory plan h, keptRows,
      mem_keepTop, newerThan]
    simp only [decide_eq_true_eq]
    tauto
  rcases hhead : (newestFirst plan (s.chatMessages jid)).head? with _ | m
  · have hnil : s.chatMessages jid = [] := by
      by_contra hne
      obtain ⟨x, hx⟩ := List.exists_mem_of_ne_nil _ hne
      obtain ⟨y, hy⟩ := exists_head_newestFirst plan hx
      rw [hhead] at hy
      cases hy
    rcases hpruned : (newestFirst plan ((pruneChatHistory plan s jid).chatMessages jid)).head?
      with _ | x
    · rfl
    · have hx := ((hmem x).mp (head_newestFirst plan hpruned).1).1
      rw [hnil] at hx
      cases hx
  · obtain ⟨hm, hnewest⟩ := head_newestFirst plan hhead
    have hfirst : newerThan jid s.messages.rows m.timestamp = 0 := by
      rw [newerThan, rank, List.countP_eq_zero]
      intro x hx hafter
      rw [Bool.and_eq_true, decide_eq_true_eq, decide_eq_true_eq] at hafter
      exact absurd (hnewest x (Store.mem_chatMessages.mpr ⟨hx, hafter.1⟩))
        (not_le.mpr hafter.2)
    have hkept := (hmem m).mpr ⟨hm, hfirst ▸ by decide⟩
    obtain ⟨x, hx⟩ := exists_head_newestFirst plan hkept
    obtain ⟨hxmem, hxnewest⟩ := head_newestFirst plan hx
    rw [hx]
    exact congrArg some (h x ((hmem x).mp hxmem).1 m hm
      (le_antisymm (hnewest x ((hmem x).mp hxmem).1) (hxnewest m hkept)))

theorem Replaying.completed (hs : Replaying stamps jid s) (messageId : String)
    (card : MessageMedia) :
    Replaying stamps jid { s with messages := completedMessages s jid messageId card } := by
  refine Replaying.relabel (p := mediaOutdated jid messageId card)
    (g := fun m => { m with media := some card, text := OmarchyWhatsapp.relabel card m.text })
    hs (fun _ => rfl) ?_ rfl rfl rfl
  exact rows_completedMessages

/-- Pruning and the completed rows, whatever the chat rows. -/
theorem pruneChatHistory_completed (huntied : Untied s jid) (messageId : String)
    (card : MessageMedia) (chats : Table ChatRow ChatRow.jid) :
    pruneChatHistory plan
        { s with messages := completedMessages s jid messageId card, chats } jid
      = { pruneChatHistory plan s jid with
          messages := completedMessages (pruneChatHistory plan s jid) jid messageId card
          chats } :=
  pruneChatHistory_relabel plan huntied (mediaOutdated jid messageId card)
    (fun m => { m with media := some card, text := relabel card m.text }) (fun _ => rfl)
    (fun _ => rfl) s.contacts chats

/-- A message that is pruned is not completed. -/
theorem pruneChatHistory_complete_of_absent (hs : Replaying stamps jid s) (hstamps : Timed stamps)
    (h : (pruneChatHistory plan s jid).hasMessage jid messageId = false) :
    pruneChatHistory plan (updateMessageMediaInto plan s jid messageId media).1 jid
      = pruneChatHistory plan s jid := by
  have huntied := hs.untied hstamps
  rw [updateMessageMediaInto_eq]
  set card := storedMedia plan s jid messageId media
  rw [pruneChatHistory_completed plan huntied, completedMessages_of_absent h,
    completedChats_of_absent]
  · rfl
  -- the newest message is kept, so it is another one
  have hcompleted := (hs.completed messageId card).untied hstamps
  have hshown := head_newestFirst_prune plan hcompleted
  rw [Option.any_eq_false]
  intro m hm
  refine decide_eq_false fun hid => ?_
  obtain ⟨hmem, -⟩ := head_newestFirst plan (hshown.trans hm)
  rw [Store.mem_chatMessages] at hmem
  have hkept := pruneChatHistory_completed plan huntied messageId card s.chats
  rw [hkept] at hmem
  obtain ⟨hmem, hjid⟩ := hmem
  rw [completedMessages_of_absent h] at hmem
  have hstored : (pruneChatHistory plan s jid).hasMessage jid messageId = true :=
    hasMessage_iff.mpr ⟨m, hmem, hjid, hid⟩
  rw [h] at hstored
  cases hstored

/-- Pruning and the completion of a stored message. -/
theorem pruneChatHistory_complete (hs : Replaying stamps jid s) (hstamps : Timed stamps)
    (hshared : SharedKept stamps) :
    pruneChatHistory plan (updateMessageMediaInto plan s jid messageId media).1 jid
      = (updateMessageMediaInto plan (pruneChatHistory plan s jid) jid messageId media).1 := by
  have huntied := hs.untied hstamps
  have hprune := rows_pruneChatHistory plan huntied
  cases hid : (pruneChatHistory plan s jid).hasMessage jid messageId with
  | false =>
    rw [updateMessageMediaInto_of_absent plan hid]
    exact pruneChatHistory_complete_of_absent plan hs hstamps hid
  | true =>
    obtain ⟨x, hx, hxJid, hxId⟩ := hasMessage_iff.mp hid
    rw [hprune] at hx
    -- every row under the id is kept, so the stored card and its votes are the same
    have hall : ∀ y ∈ s.messages.rows, y.chatJid = jid → y.id = messageId →
        y ∈ keptRows jid s.messages.rows := by
      intro y hy hyJid hyId
      by_cases hkey : x.key = y.key
      · rwa [← s.messages.key_inj (mem_of_mem_keptRows hx) hy hkey]
      · exact hs.kept_of_shared hshared hy hyJid
          (hs.stamped x (mem_of_mem_keptRows hx) hxJid) (hxId.trans hyId.symm) hkey
    have hrows : (pruneChatHistory plan s jid).messagesById jid messageId
        = s.messagesById jid messageId := by
      rw [Store.messagesById, hprune, keptRows, keepTop, List.filter_filter, Store.messagesById]
      refine List.filter_congr fun y hy => ?_
      by_cases hy' : y.chatJid = jid ∧ y.id = messageId
      · have hkept := (List.mem_filter.mp (hall y hy hy'.1 hy'.2)).2
        rw [hkept, Bool.and_true]
      · rw [decide_eq_false hy', Bool.false_and]
    have hvotes : (pruneChatHistory plan s jid).votesOf plan jid messageId
        = s.votesOf plan jid messageId := by
      have hfilter : (pruneChatHistory plan s jid).pollVotes.rows.filter
            (fun v => v.chatJid = jid ∧ v.messageId = messageId)
          = s.pollVotes.rows.filter (fun v => v.chatJid = jid ∧ v.messageId = messageId) := by
        have hdelete : (pruneChatHistory plan s jid).pollVotes.rows = s.pollVotes.rows.filter
            (fun v => !(v.chatJid = jid &&
              !(pruneChatHistory plan s jid).hasMessage jid v.messageId)) := rfl
        rw [hdelete, List.filter_filter]
        refine List.filter_congr fun v _ => ?_
        by_cases hv : v.chatJid = jid ∧ v.messageId = messageId
        · rw [hv.2, hid]
          simp [hv.1]
        · rw [decide_eq_false hv, Bool.false_and]
      rw [Store.votesOf, hfilter, Store.votesOf]
    have hcard : storedMedia plan (pruneChatHistory plan s jid) jid messageId media
        = storedMedia plan s jid messageId media := by
      rw [storedMedia, reconcilePollTallies, hvotes, previousMedia, hrows]
      rfl
    rw [updateMessageMediaInto_eq, updateMessageMediaInto_eq, hcard]
    set card := storedMedia plan s jid messageId media
    rw [pruneChatHistory_completed plan huntied]
    have hshown := head_newestFirst_prune plan
      ((hs.completed messageId card).untied hstamps)
    have hkept := pruneChatHistory_completed plan huntied messageId card s.chats
    rw [hkept] at hshown
    rw [Store.chatMessages, Store.chatMessages] at hshown
    rw [hshown]
    rfl

end Complete

/-! ## One message -/

section Step

variable {stamps : List Stamp} {jid : String} {s : Store} {chat : Chat} {message : Message}

theorem Replaying.learn (hs : Replaying stamps jid s) :
    Replaying stamps jid (learnSenderName s message) := by
  rcases learnSenderName_cases s message with hsame | ⟨contacts, chats, hlearnt⟩
  · rwa [hsame s rfl]
  · rw [hlearnt s rfl]
    exact Replaying.relabel (p := fun m => m.senderJid = message.senderJid)
      (g := fun m => { m with senderName := trim message.senderName }) hs (fun _ => rfl) rfl rfl
      rfl rfl

theorem Replaying.complete (hs : Replaying stamps jid s) (messageId : String)
    (media : MessageMedia) :
    Replaying stamps jid (updateMessageMediaInto plan s jid messageId media).1 := by
  have h := hs.completed messageId (storedMedia plan s jid messageId media)
  exact ⟨h.stamped, h.votes, h.secrets, h.reads⟩

/-- The statements of a replayed message. -/
theorem Replaying.replay (hs : Replaying stamps jid s)
    (hmessage : suppressed s message = false → message.stamp ∈ stamps)
    (hjid : message.chatJid = jid) :
    Replaying stamps jid (insertHistoryMessageInto plan s chat message).1 := by
  have hlearnt : suppressed (learnSenderName s message) message = suppressed s message :=
    suppressed_congr (by simp) (by simp) message
  have hinserted := hs.learn.insert chat fun hsup => hmessage (hlearnt ▸ hsup)
  unfold insertHistoryMessageInto
  dsimp only
  split
  · exact hinserted
  · split
    · exact hinserted
    · rw [hjid]
      exact hinserted.complete plan _ _

/-- What follows an insertion, with the pruning before it or after. -/
theorem complete_prune (hs : Replaying stamps jid s) (hstamps : Timed stamps)
    (hshared : SharedKept stamps) (messageId : String) (media : Option MessageMedia) :
    (match media with
      | none => (pruneChatHistory plan s jid, false)
      | some media =>
        updateMessageMediaInto plan (pruneChatHistory plan s jid) jid messageId media).1
      = pruneChatHistory plan (match media with
        | none => (s, false)
        | some media => updateMessageMediaInto plan s jid messageId media).1 jid := by
  cases media with
  | none => rfl
  | some media => exact (pruneChatHistory_complete plan hs hstamps hshared).symm

/-- The first message, when the chat has not been pruned yet. -/
theorem ingestMessage_eq (hs : Replaying stamps jid s) (hstamps : Timed stamps)
    (hshared : SharedKept stamps)
    (hmessage : suppressed s message = false → message.stamp ∈ stamps)
    (hjid : message.chatJid = jid) :
    (ingestMessage plan s chat message).1
      = pruneChatHistory plan (insertHistoryMessageInto plan s chat message).1 jid := by
  have hlearnt : suppressed (learnSenderName s message) message = suppressed s message :=
    suppressed_congr (by simp) (by simp) message
  have hinserted := hs.learn.insert chat fun hsup => hmessage (hlearnt ▸ hsup)
  rw [ingestMessage, insertHistoryMessage, insertMessageInner, insertHistoryMessageInto]
  dsimp only
  have hchat : (historyInsert chat message).message.chatJid = jid := hjid
  rw [hchat, hjid]
  split
  · rfl
  · exact complete_prune plan hinserted hstamps hshared message.id message.media

/-- A message that is stored and was pruned is inserted again, and pruned again. -/
theorem insert_prune_flag (chat : Chat) (hs : Replaying stamps jid s) (hstamps : Timed stamps)
    (hshared : SharedKept stamps)
    (hmessage : suppressed s message = false → message.stamp ∈ stamps)
    (hjid : message.chatJid = jid) :
    (insertMessageInto (pruneChatHistory plan s jid) (historyInsert chat message)).2
        = (insertMessageInto s (historyInsert chat message)).2 ∨
      ((insertMessageInto (pruneChatHistory plan s jid) (historyInsert chat message)).2 = true ∧
        (insertMessageInto s (historyInsert chat message)).2 = false ∧
        (pruneChatHistory plan (insertMessageInto s (historyInsert chat message)).1
          jid).hasMessage jid message.id = false) := by
  have huntied := hs.untied hstamps
  cases hsup : suppressed s message with
  | true =>
    have hsup' : suppressed (pruneChatHistory plan s jid) message = true :=
      (suppressed_congr rfl rfl message).trans hsup
    rw [insertMessageInto_of_suppressed hsup, insertMessageInto_of_suppressed hsup']
    exact Or.inl rfl
  | false =>
    have hsup' : suppressed (pruneChatHistory plan s jid) message = false :=
      (suppressed_congr rfl rfl message).trans hsup
    have hinserted := (hs.insert chat hmessage).untied hstamps
    have hrows := rows_historyInsert chat hsup
    rw [insertMessageInto_historyInsert hsup']
    rcases hfind : s.messages.find? message.key with _ | y
    · refine Or.inl ?_
      rw [insertMessageInto_historyInsert hsup]
      dsimp only
      rw [find?_prune_of_none plan huntied hfind, hfind]
    · rcases hpruned : (pruneChatHistory plan s jid).messages.find? message.key with _ | x
      · refine Or.inr ⟨rfl, ?_, ?_⟩
        · rw [insertMessageInto_historyInsert hsup]
          dsimp only
          rw [hfind]
          rfl
        · -- a message left under the id would share it with the one that was pruned
          obtain ⟨hy, hkey⟩ := Table.find?_eq_some.mp hfind
          rw [← Bool.not_eq_true, hasMessage_iff, rows_pruneChatHistory plan hinserted, hrows,
            if_neg (by rw [hfind]; exact Option.some_ne_none y)]
          rintro ⟨z, hz, hzJid, hzId⟩
          have hzs := mem_of_mem_keptRows hz
          rw [Table.find?_eq_none, rows_pruneChatHistory plan huntied] at hpruned
          by_cases hzy : z.key = y.key
          · exact hpruned z hz (hzy.trans hkey)
          · have hyId : y.id = message.id := congrArg (fun k => k.2.2) hkey
            refine hpruned y ?_ hkey
            exact hs.kept_of_shared hshared hy ((congrArg Prod.fst hkey).trans hjid)
              (hs.stamped z hzs hzJid) (hzId.trans hyId.symm) hzy
      · refine Or.inl ?_
        rw [insertMessageInto_historyInsert hsup]
        dsimp only
        rw [hfind]
        rfl

/-- A message after one that was pruned. -/
theorem ingestMessage_prune (hs : Replaying stamps jid s) (hstamps : Timed stamps)
    (hshared : SharedKept stamps)
    (hmessage : suppressed s message = false → message.stamp ∈ stamps)
    (hjid : message.chatJid = jid) :
    (ingestMessage plan (pruneChatHistory plan s jid) chat message).1
      = pruneChatHistory plan (insertHistoryMessageInto plan s chat message).1 jid := by
  have hlearnt : suppressed (learnSenderName s message) message = suppressed s message :=
    suppressed_congr (by simp) (by simp) message
  have hb : Replaying stamps jid (learnSenderName s message) := hs.learn
  have hbmessage : suppressed (learnSenderName s message) message = false →
      message.stamp ∈ stamps := fun hsup => hmessage (hlearnt ▸ hsup)
  rw [← ingestMessage_eq plan hs hstamps hshared hmessage hjid, ingestMessage, ingestMessage,
    ← pruneChatHistory_learnSenderName plan (hs.untied hstamps)]
  generalize learnSenderName s message = b at hb hbmessage
  have hchat : (historyInsert chat message).message.chatJid = jid := hjid
  rw [insertHistoryMessage, insertHistoryMessage, insertMessageInner, insertMessageInner]
  dsimp only
  rw [hchat, hjid, pruneChatHistory_insert plan hb hstamps hshared hbmessage hjid]
  have hflags := insert_prune_flag plan chat hb hstamps hshared hbmessage hjid
  generalize pruneChatHistory plan (insertMessageInto b (historyInsert chat message)).1 jid = kept
    at hflags
  rcases hflags with hsame | ⟨hpruned, hstored, habsent⟩
  · rw [hsame]
  · rw [hpruned, hstored]
    cases message.media with
    | none => rfl
    | some media => exact (updateMessageMediaInto_of_absent plan habsent).symm

/-- No vote is cast by a replay. -/
theorem pollVotes_ingestMessage (s : Store) (chat : Chat) (message : Message) :
    (ingestMessage plan s chat message).1.pollVotes.rows ⊆ s.pollVotes.rows := by
  have hinserted : (insertHistoryMessage plan (learnSenderName s message) chat
      message).1.pollVotes.rows ⊆ s.pollVotes.rows := by
    intro v hv
    have hv' := (Table.mem_deleteWhere.mp hv).1
    have hlearnt : (learnSenderName s message).pollVotes = s.pollVotes := by
      rcases learnSenderName_cases s message with hsame | ⟨contacts, chats, hlearnt⟩
      · rw [hsame s rfl]
      · rw [hlearnt s rfl]
    rcases Bool.eq_false_or_eq_true (suppressed (learnSenderName s message) message) with h | h
    · rwa [insertMessageInto_of_suppressed h, hlearnt] at hv'
    · rwa [insertMessageInto_historyInsert h, hlearnt] at hv'
  unfold ingestMessage
  dsimp only
  split
  · exact hinserted
  · split
    · exact hinserted
    · rwa [updateMessageMediaInto_eq]

end Step

/-! ## A conversation -/

section Conversation

variable {stamps : List Stamp} {jid : String} {s : Store} {chat : Chat}

/-- The rest of a conversation, once its chat is pruned. -/
theorem ingestMessages_prune (hstamps : Timed stamps) (hshared : SharedKept stamps)
    (messages : List Message) (hjid : ∀ m ∈ messages, m.chatJid = jid)
    (hs : Replaying stamps jid s)
    (hmessages : ∀ m ∈ messages, suppressed s m = false → m.stamp ∈ stamps)
    (changed changed' : Bool) :
    (messages.foldl (fun acc message =>
        let next := ingestMessage plan acc.1 chat message
        (next.1, acc.2 || next.2)) (pruneChatHistory plan s jid, changed)).1
      = pruneChatHistory plan (messages.foldl (fun acc message =>
        let next := insertHistoryMessageInto plan acc.1 chat message
        (next.1, acc.2 || next.2)) (s, changed')).1 jid := by
  induction messages generalizing s changed changed' with
  | nil => rfl
  | cons message messages ih =>
    have hmessage := hmessages message List.mem_cons_self
    have hchat := hjid message List.mem_cons_self
    rw [List.foldl_cons, List.foldl_cons]
    dsimp only
    rw [ingestMessage_prune plan hs hstamps hshared hmessage hchat]
    refine ih (fun m hm => hjid m (List.mem_cons_of_mem _ hm))
      (hs.replay plan hmessage hchat) (fun m hm hsup => ?_) _ _
    refine hmessages m (List.mem_cons_of_mem _ hm) ?_
    rw [← hsup]
    exact (suppressed_congr (by simp) (by simp) m).symm

/-- A chat within the limit, without rows that refer to no message, is left alone. -/
theorem pruneChatHistory_of_referential (hside : Referential s)
    (hlength : (s.chatMessages jid).length ≤ retention) : pruneChatHistory plan s jid = s := by
  have hkeep := keepNewest_of_length_le plan hlength
  have hall : ∀ c id, s.hasMessage c id = true →
      (!(decide (c = jid) && !(keepNewest plan s jid).hasMessage jid id)) = true := by
    intro c id hid
    rw [hkeep]
    by_cases hc : c = jid
    · rw [← hc, hid]
      simp
    · simp [hc]
  ext1
  · rfl
  · rfl
  · rw [(pruneChatHistory_frame plan s jid).1, hkeep]
  · rfl
  · exact Table.ext (List.filter_eq_self.mpr fun r hr => hall _ _ (hside.reads r hr))
  · rfl
  · rfl
  · rfl
  · exact Table.ext (List.filter_eq_self.mpr fun p hp => hall _ _ (hside.secrets p hp))
  · exact Table.ext (List.filter_eq_self.mpr fun v hv => hall _ _ (hside.votes v hv))
  · rfl
  · rfl

/-- A replay begins with the stored messages. -/
theorem Referential.replaying (hside : Referential s) (chat : Chat) (messages : List Message) :
    Replaying (s.stamps chat.jid messages) chat.jid (insertHistoryChatInto s chat) := by
  have hsame : (insertHistoryChatInto s chat).messages = s.messages ∧
      (insertHistoryChatInto s chat).pollVotes = s.pollVotes ∧
      (insertHistoryChatInto s chat).pollSecrets = s.pollSecrets ∧
      (insertHistoryChatInto s chat).messageReads = s.messageReads := by
    unfold insertHistoryChatInto
    split
    · exact ⟨rfl, rfl, rfl, rfl⟩
    · exact ⟨rfl, rfl, rfl, rfl⟩
  have hids : ∀ id, s.hasMessage chat.jid id = true →
      (insertHistoryChatInto s chat).hasMessage chat.jid id = true := fun id hid => by
    rw [← hid, Store.hasMessage, hsame.1, Store.hasMessage]
  refine ⟨fun m hm hjid => ?_, fun v hv hjid => ?_, fun p hp hjid => ?_, fun r hr hjid => ?_⟩
  · rw [hsame.1] at hm
    have hmem := Store.mem_chatMessages.mpr ⟨hm, hjid⟩
    exact List.mem_append_left _ (List.mem_map.mpr ⟨m, hmem, rfl⟩)
  · rw [hsame.2.1] at hv
    exact hids _ (hjid ▸ hside.votes v hv)
  · rw [hsame.2.2.1] at hp
    exact hids _ (hjid ▸ hside.secrets p hp)
  · rw [hsame.2.2.2] at hr
    exact hids _ (hjid ▸ hside.reads r hr)

/-- A conversation at once leaves the store that its messages leave one by one: when the votes,
secrets and receipts refer to stored messages, no two messages of the chat share a time, those that
share an id are among the newest, and an empty conversation finds the chat within the limit. -/
theorem insertHistoryConversation_eq_ingestSequentially (hside : Referential s)
    (conversation : Conversation)
    (hstamps : Timed (s.stamps conversation.chat.jid conversation.messages))
    (hshared : SharedKept (s.stamps conversation.chat.jid conversation.messages))
    (hempty : conversation.messages = [] →
      (s.chatMessages conversation.chat.jid).length ≤ retention) :
    (insertHistoryConversation plan s conversation.chat conversation.messages).1
      = (ingestSequentially plan s conversation.chat conversation.messages).1 := by
  obtain ⟨chat, messages, hjid⟩ := conversation
  dsimp only at hstamps hshared hempty ⊢
  have hs := hside.replaying chat messages
  have hmessages : ∀ m ∈ messages, suppressed (insertHistoryChatInto s chat) m = false →
      m.stamp ∈ s.stamps chat.jid messages := by
    intro m hm hsup
    rw [suppressed_congr (s := s) (by simp) (by simp)] at hsup
    refine List.mem_append_right _ (List.mem_map.mpr ⟨m, List.mem_filter.mpr ⟨hm, ?_⟩, rfl⟩)
    rw [hsup]
    rfl
  rw [insertHistoryConversation, insertHistoryMessages, ingestSequentially]
  dsimp only
  cases messages with
  | nil =>
    have hchat : (insertHistoryChatInto s chat).chatMessages chat.jid = s.chatMessages chat.jid := by
      unfold insertHistoryChatInto
      split
      · rfl
      · rfl
    refine pruneChatHistory_of_referential plan ?_ (hchat ▸ hempty rfl)
    unfold insertHistoryChatInto
    split
    · exact hside
    · exact ⟨hside.votes, hside.secrets, hside.reads⟩
  | cons message messages =>
    have hmessage := hmessages message List.mem_cons_self
    have hchat := hjid message List.mem_cons_self
    rw [List.foldl_cons, List.foldl_cons]
    dsimp only
    rw [ingestMessage_eq plan hs hstamps hshared hmessage hchat]
    refine (ingestMessages_prune plan hstamps hshared messages
      (fun m hm => hjid m (List.mem_cons_of_mem _ hm)) (hs.replay plan hmessage hchat)
      (fun m hm hsup => hmessages m (List.mem_cons_of_mem _ hm) ?_) _ _).symm
    rw [← hsup]
    exact (suppressed_congr (by simp) (by simp) m).symm

theorem insertHistoryConversation_fst (s : Store) (chat : Chat) (messages : List Message) :
    (insertHistoryConversation plan s chat messages).1
      = pruneChatHistory plan (insertHistoryMessages plan (insertHistoryChatInto s chat) chat
          messages).1 chat.jid := rfl

theorem insertHistoryMessages_pair (s : Store) (chat : Chat) (a b : Message) :
    (insertHistoryMessages plan s chat [a, b]).1
      = (insertHistoryMessageInto plan (insertHistoryMessageInto plan s chat a).1 chat b).1 := rfl

theorem ingestSequentially_pair (s : Store) (chat : Chat) (a b : Message) :
    (ingestSequentially plan s chat [a, b]).1
      = (ingestMessage plan (ingestMessage plan (insertHistoryChatInto s chat) chat a).1
          chat b).1 := rfl

end Conversation

namespace PollReplay

def jid : String := "friends@g.us"

def chat : Chat :=
  { jid, name := "Friends", lastMessage := "Fine", lastSenderName := "Bob", lastTimestamp := 20,
    unread := 0, isGroup := true }

def poll : Message :=
  { id := "P", chatJid := jid, senderJid := "ada@s.whatsapp.net", senderName := "Ada",
    text := "Lunch?", timestamp := 10, fromMe := false,
    media := some (.poll "Lunch?" [⟨"Yes", 0, false, []⟩] 1 0 false none 0) }

def reply : Message :=
  { id := "R", chatJid := jid, senderJid := "bob@s.whatsapp.net", senderName := "Bob",
    text := "Fine", timestamp := 20, fromMe := false }

/-- The poll is stored, with a vote that its card does not show. -/
def voted : Store where
  messages := ⟨[
    { chatJid := jid, id := poll.id, senderJid := poll.senderJid, senderName := "",
      text := poll.text, timestamp := poll.timestamp, fromMe := false, read := true,
      media := poll.media }], by decide⟩
  pollVotes := ⟨[⟨jid, poll.id, "bob@s.whatsapp.net", ["Yes"], false, 15⟩], by decide⟩

end PollReplay

open PollReplay in
theorem insertHistoryConversation_eq_ingestSequentially_poll :
    (insertHistoryConversation QueryPlan.stable voted PollReplay.chat [poll, reply]).1
      = (ingestSequentially QueryPlan.stable voted PollReplay.chat [poll, reply]).1 :=
  insertHistoryConversation_eq_ingestSequentially QueryPlan.stable
    ⟨by decide, by decide, by decide⟩ ⟨PollReplay.chat, [poll, reply], by decide⟩
    ⟨by decide, by decide⟩ (by decide) (by decide)

namespace SharedId

def jid : String := "friends@g.us"

def id (j : ℕ) : String := String.ofList (List.replicate (j + 1) 'm')

/-- The messages of Ada, one a second. -/
def message (j : ℕ) : Message :=
  { id := id j, chatJid := jid, senderJid := "ada@s.whatsapp.net", senderName := "You", text := "",
    timestamp := j, fromMe := true }

/-- Bob's answer has the id of Ada's first message. -/
def answer : Message :=
  { id := id 0, chatJid := jid, senderJid := "bob@s.whatsapp.net",
    senderName := "bob@s.whatsapp.net", text := "", timestamp := 1001, fromMe := false }

def row (j : ℕ) : MessageRow :=
  { chatJid := jid, id := id j, senderJid := "ada@s.whatsapp.net", senderName := "You", text := "",
    timestamp := j, fromMe := true, read := true }

def vote : PollVoteRow := ⟨jid, id 0, "bob@s.whatsapp.net", [], false, 500⟩

theorem id_injective {i j : ℕ} (h : id i = id j) : i = j := by
  have hlength := congrArg List.length (String.ofList_injective h)
  simpa using hlength

/-- A full chat. -/
def full : Store where
  messages := ⟨(List.range 1000).map row, by
    rw [List.map_map]
    refine List.Nodup.map (fun i j h => ?_) List.nodup_range
    exact id_injective (congrArg (fun k => k.2.2) h)⟩
  pollVotes := ⟨[vote], by decide⟩

def chat : Chat :=
  { jid, name := "Friends", lastMessage := "", lastSenderName := "", lastTimestamp := 1001,
    unread := 0, isGroup := true }

def slice : List Message := [message 1000, answer]

theorem mem_full {m : MessageRow} : m ∈ full.messages.rows ↔ ∃ j < 1000, row j = m := by
  simp only [full, List.mem_map, List.mem_range]

theorem referential_full : Referential full where
  votes v hv := by
    obtain rfl := List.mem_singleton.mp hv
    exact hasMessage_iff.mpr ⟨row 0, mem_full.mpr ⟨0, by omega, rfl⟩, rfl, rfl⟩
  secrets p hp := nomatch hp
  reads r hr := nomatch hr

/-- The stamps of the stored messages and the two that arrive, by their time. -/
def entry (j : ℕ) : Stamp :=
  ((jid, if j = 1001 then "bob@s.whatsapp.net" else "ada@s.whatsapp.net", id (j % 1001)), j)

theorem exists_entry {x : Stamp} (hx : x ∈ full.stamps jid slice) :
    ∃ j ≤ 1001, x = entry j := by
  rcases List.mem_append.mp hx with hx | hx
  · obtain ⟨m, hm, rfl⟩ := List.mem_map.mp hx
    obtain ⟨j, hlt, rfl⟩ := mem_full.mp (Store.mem_chatMessages.mp hm).1
    refine ⟨j, by omega, ?_⟩
    rw [entry, if_neg (by omega), Nat.mod_eq_of_lt (by omega)]
    rfl
  · obtain ⟨m, hm, rfl⟩ := List.mem_map.mp hx
    rcases List.mem_cons.mp (List.mem_filter.mp hm).1 with rfl | hm
    · refine ⟨1000, by omega, ?_⟩
      rw [entry, if_neg (by omega), Nat.mod_eq_of_lt (by omega)]
      rfl
    · obtain rfl := List.mem_singleton.mp hm
      exact ⟨1001, le_rfl, rfl⟩

theorem timed_slice : Timed (full.stamps jid slice) where
  stored x hx y hy h := by
    obtain ⟨i, hi, rfl⟩ := exists_entry hx
    obtain ⟨j, hj, rfl⟩ := exists_entry hy
    have hsender := congrArg (fun k => k.2.1) h
    have hid := id_injective (congrArg (fun k => k.2.2) h)
    have hlast : i = 1001 ↔ j = 1001 := by
      simp only [entry] at hsender
      split_ifs at hsender
      · omega
      · exact absurd hsender (by decide)
      · exact absurd hsender (by decide)
      · omega
    rw [show i = j by omega]
  distinct x hx y hy h := by
    obtain ⟨i, -, rfl⟩ := exists_entry hx
    obtain ⟨j, -, rfl⟩ := exists_entry hy
    rw [Int.ofNat_inj.mp h]

/-- The store once the header is written. -/
def begun : Store := insertHistoryChatInto full chat

/-- Ada's last message arrives. -/
def joined : Store := (insertMessageInto begun (historyInsert chat (message 1000))).1

/-- Bob's answer follows, without a pruning in between. -/
def answered : Store := (insertMessageInto joined (historyInsert chat answer)).1

theorem replaying_begun : Replaying (full.stamps jid slice) jid begun :=
  referential_full.replaying chat slice

theorem mem_stamps {m : Message} (hm : m ∈ slice) : m.stamp ∈ full.stamps jid slice :=
  List.mem_append_right _ (List.mem_map.mpr ⟨m, List.mem_filter.mpr ⟨hm, rfl⟩, rfl⟩)

theorem replaying_joined : Replaying (full.stamps jid slice) jid joined :=
  replaying_begun.insert chat fun _ => mem_stamps List.mem_cons_self

theorem replaying_answered : Replaying (full.stamps jid slice) jid answered :=
  replaying_joined.insert chat fun _ => mem_stamps (List.mem_cons_of_mem _ List.mem_cons_self)

theorem accepted (m : Message) : suppressed begun m = false :=
  (suppressed_congr (s := full) (by simp [begun]) (by simp [begun]) m).trans rfl

theorem rows_begun : begun.messages.rows = full.messages.rows := by
  rw [begun, (insertHistoryChatInto_frame full chat).1]

theorem unseen_message : begun.messages.find? (message 1000).key = none := by
  rw [Table.find?_eq_none, rows_begun]
  intro m hm hkey
  obtain ⟨j, hlt, rfl⟩ := mem_full.mp hm
  have hj := id_injective (congrArg (fun k => k.2.2) hkey)
  omega

theorem insert_joined : insertMessageInto begun (historyInsert chat (message 1000))
    = (joined, true) := by
  refine Prod.ext rfl ?_
  rw [insertMessageInto_historyInsert (accepted _), unseen_message]
  rfl

theorem rows_joined : joined.messages.rows = full.messages.rows ++ [row 1000] := by
  rw [joined, rows_historyInsert chat (accepted _), rows_begun, if_pos unseen_message]
  rfl

/-- The oldest message is pruned. -/
theorem hasMessage_prune_joined (plan : QueryPlan) :
    (pruneChatHistory plan joined jid).hasMessage jid (id 0) = false := by
  rw [← Bool.not_eq_true, hasMessage_iff,
    rows_pruneChatHistory plan (replaying_joined.untied timed_slice)]
  rintro ⟨m, hm, hjid, hid⟩
  have hrank := (mem_keepTop.mp hm).2 (decide_eq_true hjid)
  have hmem := mem_of_mem_keptRows hm
  rw [rows_joined, List.mem_append, List.mem_singleton, mem_full] at hmem
  have hfirst : m = row 0 := by
    rcases hmem with ⟨j, -, rfl⟩ | rfl
    · rw [id_injective hid]
    · exact absurd (id_injective hid) (by omega)
  have hall : rank (fun m => decide (m.chatJid = jid)) MessageRow.timestamp joined.messages.rows 0
      = 1000 := by
    rw [rows_joined, rank_append]
    have hfull : rank (fun m => decide (m.chatJid = jid)) MessageRow.timestamp
        full.messages.rows 0 = 999 := by
      simp only [full, rank, List.countP_map]
      decide +kernel
    rw [hfull]
    rfl
  rw [hfirst] at hrank
  exact absurd hall hrank.ne

theorem accepted_answer : suppressed joined answer = false :=
  (suppressed_congr (s := begun) (by simp [joined]) (by simp [joined]) answer).trans (accepted _)

theorem unseen_answer : joined.messages.find? answer.key = none := by
  rw [Table.find?_eq_none, rows_joined]
  intro m hm hkey
  have hsender : m.senderJid = "bob@s.whatsapp.net" := congrArg (fun k => k.2.1) hkey
  rw [List.mem_append, List.mem_singleton, mem_full] at hm
  rcases hm with ⟨j, -, rfl⟩ | rfl
  · exact absurd (show "ada@s.whatsapp.net" = _ from hsender) (by decide)
  · exact absurd hsender (by decide)

theorem insert_answered : insertMessageInto joined (historyInsert chat answer)
    = (answered, true) := by
  refine Prod.ext rfl ?_
  rw [insertMessageInto_historyInsert accepted_answer, unseen_answer]
  rfl

theorem rows_answered : answered.messages.rows
    = joined.messages.rows ++ [proposedMessage joined (historyInsert chat answer)] := by
  rw [answered, rows_historyInsert chat accepted_answer, if_pos unseen_answer]

/-- The answer is kept. -/
theorem hasMessage_prune_answered (plan : QueryPlan) :
    (pruneChatHistory plan answered jid).hasMessage jid (id 0) = true := by
  rw [hasMessage_iff, rows_pruneChatHistory plan (replaying_answered.untied timed_slice)]
  refine ⟨proposedMessage joined (historyInsert chat answer), mem_keepTop.mpr ⟨?_, fun _ => ?_⟩,
    rfl, rfl⟩
  · rw [rows_answered]
    exact List.mem_append_right _ List.mem_cons_self
  · refine lt_of_eq_of_lt (b := 0) ?_ (by decide)
    rw [rank, List.countP_eq_zero, rows_answered, rows_joined]
    intro m hm hafter
    rw [Bool.and_eq_true, decide_eq_true_eq, decide_eq_true_eq] at hafter
    have hlate : (1001 : ℤ) < m.timestamp := hafter.2
    simp only [List.mem_append, List.mem_singleton, mem_full] at hm
    rcases hm with (⟨j, hlt, rfl⟩ | rfl) | rfl
    · have hj : (1001 : ℤ) < j := hlate
      omega
    · exact absurd hlate (by decide)
    · exact absurd hlate (by decide)

theorem pollVotes_joined : joined.pollVotes.rows = [vote] := by
  rw [joined, pollVotes_historyInsert chat (accepted _), begun, insertHistoryChatInto]
  split
  · rfl
  · rfl

/-- At once, the vote finds the answer under its id. -/
theorem pollVotes_batch (plan : QueryPlan) :
    vote ∈ (insertHistoryConversation plan full chat slice).1.pollVotes.rows := by
  have hreplayed : (insertHistoryMessages plan begun chat slice).1 = answered := by
    have hjoined : insertHistoryMessageInto plan begun chat (message 1000) = (joined, true) := by
      rw [insertHistoryMessageInto, learnSenderName_of_silent rfl, insert_joined]
      exact if_pos rfl
    have hanswered : insertHistoryMessageInto plan joined chat answer = (answered, true) := by
      rw [insertHistoryMessageInto, learnSenderName_of_silent (by decide), insert_answered]
      exact if_pos rfl
    rw [slice, insertHistoryMessages_pair, hjoined, hanswered]
  rw [insertHistoryConversation_fst, ← begun, hreplayed]
  refine (mem_pollVotes_prune plan).mpr ⟨?_, fun _ => hasMessage_prune_answered plan⟩
  rw [answered, pollVotes_historyInsert chat accepted_answer, pollVotes_joined]
  exact List.mem_cons_self

/-- One by one, the vote is deleted before the answer arrives. -/
theorem pollVotes_sequential (plan : QueryPlan) :
    vote ∉ (ingestSequentially plan full chat slice).1.pollVotes.rows := by
  intro hvote
  rw [slice, ingestSequentially_pair, ← begun] at hvote
  have hbefore := pollVotes_ingestMessage plan _ chat answer hvote
  have hfirst : (ingestMessage plan begun chat (message 1000)).1
      = pruneChatHistory plan joined jid := by
    rw [ingestMessage, learnSenderName_of_silent rfl,
      insertHistoryMessage, insertMessageInner, insert_joined]
    dsimp only
    rw [if_pos rfl]
    rfl
  rw [hfirst] at hbefore
  have hkept := ((mem_pollVotes_prune plan).mp hbefore).2 rfl
  have hgone := hasMessage_prune_joined plan
  rw [show vote.messageId = id 0 from rfl, hgone] at hkept
  exact Bool.false_ne_true hkept

end SharedId

open SharedId in
theorem insertHistoryConversation_ne_ingestSequentially :
    Referential full ∧ Timed (full.stamps jid slice) ∧
      (slice.map Message.timestamp).Pairwise (· < ·) ∧ (∀ m ∈ slice, m.chatJid = SharedId.chat.jid) ∧
      (insertHistoryConversation QueryPlan.stable full SharedId.chat slice).1
        ≠ (ingestSequentially QueryPlan.stable full SharedId.chat slice).1 := by
  refine ⟨referential_full, timed_slice, by decide, by decide, fun heq => ?_⟩
  have hvote := pollVotes_batch QueryPlan.stable
  rw [heq] at hvote
  exact pollVotes_sequential QueryPlan.stable hvote

end OmarchyWhatsapp
