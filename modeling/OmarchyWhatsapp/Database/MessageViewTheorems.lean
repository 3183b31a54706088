import OmarchyWhatsapp.Database.MessageView

/-!
# What the read path shows

A smaller page is the end of a larger one. What belongs to an id is shown once in a page, and where
an id is not shared every way to read a message shows the same.
-/

namespace OmarchyWhatsapp

open Relational

/-! ## Attaching -/

section Attach

variable {reactions : String → List Wire.Reaction}
  {deliveries : String → List Wire.MessageDelivery} {readers : String → List Wire.MessageReader}
  {m : Wire.Message} {l earlier later : List Wire.Message}

theorem attach_toMessage : (attach reactions deliveries readers l).map (·.toMessage)
    = l.map (·.toMessage) := by
  induction l generalizing reactions deliveries readers with
  | nil => rfl
  | cons m l ih => exact congrArg (m.toMessage :: ·) ih

/-- A message has what is left by those before it. -/
theorem attach_split (h : attach reactions deliveries readers l = earlier ++ m :: later) :
    m.reactions = without reactions (earlier.map (·.id)) m.id ∧
      m.deliveredTo = without deliveries (earlier.map (·.id)) m.id ∧
      m.readBy = without readers (earlier.map (·.id)) m.id := by
  induction earlier generalizing reactions deliveries readers l with
  | nil =>
    cases l with
    | nil => cases h
    | cons m₀ l =>
      obtain ⟨rfl, -⟩ := List.cons.inj h
      exact ⟨(without_nil _ _).symm, (without_nil _ _).symm, (without_nil _ _).symm⟩
  | cons m₁ earlier ih =>
    cases l with
    | nil => cases h
    | cons m₀ l =>
      obtain ⟨rfl, hrest⟩ := List.cons.inj h
      obtain ⟨hreactions, hdeliveries, hreaders⟩ := ih hrest
      rw [without_removeEntry] at hreactions hdeliveries hreaders
      exact ⟨hreactions, hdeliveries, hreaders⟩

/-- Nobody before a message has its id. -/
theorem attach_of_nodup (h : (l.map (·.id)).Nodup) :
    attach reactions deliveries readers l = l.map fun m => { m with
      reactions := reactions m.id
      deliveredTo := deliveries m.id
      readBy := readers m.id } := by
  induction l generalizing reactions deliveries readers with
  | nil => rfl
  | cons m l ih =>
    obtain ⟨hm, hl⟩ := List.nodup_cons.mp h
    rw [attach, ih hl, List.map_cons]
    refine congrArg _ (List.map_congr_left fun m' hm' => ?_)
    have hne : m'.id ≠ m.id := fun heq => hm (List.mem_map.mpr ⟨m', hm', heq⟩)
    rw [removeEntry, removeEntry, removeEntry, if_neg hne, if_neg hne, if_neg hne]

end Attach

/-! ## What belongs to an id -/

variable (plan : QueryPlan) (isFile : String → Bool) (s : Store) (chatJid : String)

/-- What a query for one message alone returns. -/
def reactionsOf (id : String) : List Wire.Reaction :=
  (reactionGroups plan s chatJid (some id)).map reactionOf

def deliveriesOf (id : String) : List Wire.MessageDelivery :=
  ((receiptRows plan s chatJid (some id)).filter (fun r => 0 < r.deliveredAt)).map (deliveryOf s)

def readersOf (id : String) : List Wire.MessageReader :=
  ((receiptRows plan s chatJid (some id)).filter (fun r => 0 < r.readAt)).map (readerOf s)

variable {plan isFile s chatJid} {messageId : Option String} {id : String}

theorem isSelected_some {id id' : String} : isSelected (some id) id' = decide (id' = id) := rfl

/-- A query for more messages returns the same rows of one of them. -/
theorem filter_isSelected {α : Type} (key : α → String) (inChat : α → Bool)
    (hselected : isSelected messageId id = true) (rows : List α) :
    (rows.filter (fun r => inChat r && isSelected messageId (key r))).filter (fun r => key r = id)
      = rows.filter (fun r => inChat r && isSelected (some id) (key r)) := by
  rw [List.filter_filter]
  refine List.filter_congr fun r _ => ?_
  rw [isSelected_some]
  by_cases hkey : key r = id
  · rw [hkey, hselected, Bool.and_true, decide_eq_true rfl, Bool.true_and, Bool.and_true]
  · rw [decide_eq_false hkey, Bool.false_and, Bool.and_false]

theorem reactionGroups_filter (hselected : isSelected messageId id = true) :
    (reactionGroups plan s chatJid messageId).filter (fun group => group.1.1 = id)
      = reactionGroups plan s chatJid (some id) := by
  have hties : ∀ (rows : List ReactionRow),
      ∀ g ∈ (groupBy (fun r => (r.messageId, r.emoji)) rows).filter (fun g => g.1.1 = id),
      ∀ g' ∈ (groupBy (fun r => (r.messageId, r.emoji)) rows).filter (fun g => g.1.1 = id),
      termThenText firstReaction (fun group => group.1.2) g g' →
      termThenText firstReaction (fun group => group.1.2) g' g → g = g' := by
    intro rows g hg g' hg' hle hge
    obtain ⟨hg, hid⟩ := List.mem_filter.mp hg
    obtain ⟨hg', hid'⟩ := List.mem_filter.mp hg'
    have hkey : g.1 = g'.1 := Prod.ext
      ((of_decide_eq_true hid).trans (of_decide_eq_true hid').symm)
      (termThenText_antisymm (f := firstReaction) (g := fun group => group.1.2) hle hge)
    exact Prod.ext hkey ((mem_groupBy.mp hg).1.trans (hkey ▸ (mem_groupBy.mp hg').1.symm))
  unfold reactionGroups
  rw [plan.filter_orderBy termThenText_total termThenText_trans _ (hties _)]
  refine plan.orderBy_perm termThenText_total termThenText_trans ?_ (hties _)
  refine (groupBy_filter_perm _ (fun k : String × String => k.1 = id) _).trans ?_
  rw [filter_isSelected (fun r : ReactionRow => r.messageId)
    (fun r : ReactionRow => r.chatJid = chatJid) hselected]

theorem collect_reactions (hselected : isSelected messageId id = true) :
    collect ((reactionGroups plan s chatJid messageId).map
      fun group => (group.1.1, reactionOf group)) id = reactionsOf plan s chatJid id := by
  rw [collect_eq, List.filter_map, List.map_map, reactionsOf, ← reactionGroups_filter hselected]
  rfl

theorem receiptRows_filter (hselected : isSelected messageId id = true) :
    (receiptRows plan s chatJid messageId).filter (fun r => r.messageId = id)
      = receiptRows plan s chatJid (some id) := by
  unfold receiptRows
  rw [plan.filter_orderBy termThenText_total termThenText_trans,
    filter_isSelected (fun r : MessageReadRow => r.messageId)
      (fun r : MessageReadRow => r.chatJid = chatJid) hselected]
  -- a member has one receipt for a message
  intro r hr r' hr' hle hge
  obtain ⟨hr, hid⟩ := List.mem_filter.mp hr
  obtain ⟨hr', hid'⟩ := List.mem_filter.mp hr'
  obtain ⟨hmem, hchat⟩ := List.mem_filter.mp hr
  obtain ⟨hmem', hchat'⟩ := List.mem_filter.mp hr'
  refine s.messageReads.key_inj hmem hmem' ?_
  have hchat := of_decide_eq_true (Bool.and_eq_true_iff.mp hchat).1
  have hchat' := of_decide_eq_true (Bool.and_eq_true_iff.mp hchat').1
  rw [MessageReadRow.key, MessageReadRow.key, hchat, hchat', of_decide_eq_true hid,
    of_decide_eq_true hid', termThenText_antisymm hle hge]

theorem collect_receipts {β : Type} (hselected : isSelected messageId id = true)
    (p : MessageReadRow → Bool) (f : MessageReadRow → β) :
    collect (((receiptRows plan s chatJid messageId).filter p).map fun r => (r.messageId, f r)) id
      = ((receiptRows plan s chatJid (some id)).filter p).map f := by
  rw [collect_eq, List.filter_map, List.map_map, ← receiptRows_filter hselected,
    List.filter_filter, List.filter_filter]
  refine congrArg (List.map f) (List.filter_congr fun r _ => ?_)
  exact Bool.and_comm _ _

variable (plan isFile s) in
/-- A message with what belongs to its id. -/
def shownMessage (chatJid : String) (row : MessageRow) : Wire.Message :=
  { decodeMessage isFile row with
    reactions := reactionsOf plan s chatJid row.id
    deliveredTo := deliveriesOf plan s chatJid row.id
    readBy := readersOf plan s chatJid row.id }

variable {limit : ℕ} {row : MessageRow}

theorem mem_loadRows (h : row ∈ loadRows plan s chatJid limit messageId) :
    row ∈ s.messages.rows ∧ row.chatJid = chatJid ∧ isSelected messageId row.id = true := by
  rw [loadRows, page_eq_drop] at h
  obtain ⟨hrow, hmatch⟩ := List.mem_filter.mp
    ((perm_orderByThenRow _ _).mem_iff.mp (List.mem_of_mem_drop h))
  obtain ⟨hchat, hselected⟩ := Bool.and_eq_true_iff.mp hmatch
  exact ⟨hrow, of_decide_eq_true hchat, hselected⟩

/-- Where no two messages share an id, each one has what belongs to it. -/
theorem loadMessages_of_nodup
    (h : ((loadRows plan s chatJid limit messageId).map (·.id)).Nodup) :
    loadMessages plan isFile s chatJid limit messageId
      = (loadRows plan s chatJid limit messageId).map (shownMessage plan isFile s chatJid) := by
  rw [loadMessages, attachReactionsAndReceipts, attach_of_nodup]
  · rw [List.map_map]
    refine List.map_congr_left fun row hrow => ?_
    have hselected := (mem_loadRows hrow).2.2
    rw [shownMessage, ← collect_reactions hselected, deliveriesOf,
      ← collect_receipts hselected (fun r => 0 < r.deliveredAt) (deliveryOf s), readersOf,
      ← collect_receipts hselected (fun r => 0 < r.readAt) (readerOf s)]
    rfl
  · rw [List.map_map]
    exact h

/-! ## Pages -/

variable (plan isFile s chatJid messageId limit) in
theorem loadMessages_toMessage : (loadMessages plan isFile s chatJid limit messageId).map
      (·.toMessage)
    = (loadRows plan s chatJid limit messageId).map fun row =>
      (decodeMessage isFile row).toMessage := by
  rw [loadMessages, attachReactionsAndReceipts, attach_toMessage, List.map_map]
  rfl

variable (plan isFile s chatJid messageId limit) in
theorem loadMessages_ids : (loadMessages plan isFile s chatJid limit messageId).map (·.id)
    = (loadRows plan s chatJid limit messageId).map (·.id) := by
  have hids := congrArg (List.map (·.id))
    (loadMessages_toMessage plan isFile s chatJid messageId limit)
  rw [List.map_map, List.map_map] at hids
  exact hids

variable (plan s chatJid messageId) in
theorem loadRows_suffix {limit' : ℕ} (h : limit ≤ limit') :
    loadRows plan s chatJid limit messageId <:+ loadRows plan s chatJid limit' messageId := by
  rw [loadRows, loadRows, page_eq_drop, page_eq_drop]
  exact List.drop_suffix_drop_left _ (by omega)

/-- A chat with one message, that a member has read and reacted to. -/
def readMessageStore : Store where
  messages := ⟨[⟨"c", "m", "a", "Ada", "Hi", 5, true, false, 0, none, none, none, none, none⟩],
    by decide⟩
  reactions := ⟨[{ chatJid := "c", messageId := "m", reactorJid := "b", emoji := "+" }], by decide⟩
  messageReads := ⟨[{ chatJid := "c", messageId := "m", readerJid := "b", readAt := 7 }], by decide⟩

/-- Its message as it is shown. -/
def readMessage : Wire.Message where
  id := "m"
  chatJid := "c"
  senderJid := "a"
  senderName := "Ada"
  text := "Hi"
  timestamp := 5
  fromMe := true
  readBy := [{ jid := "b", name := "", readAt := some 7 }]
  reactions := [{ emoji := "+", count := 1, fromMe := false }]

variable (plan isFile s chatJid limit) in
/-- A smaller page is the end of a larger one; what is attached to its messages is the same where
no two messages of the larger one share an id. -/
theorem pages_agree {limit' : ℕ} (h : limit ≤ limit') :
    (messages plan isFile s chatJid limit).map (·.toMessage)
        <:+ (messages plan isFile s chatJid limit').map (·.toMessage) ∧
      (((messages plan isFile s chatJid limit').map (·.id)).Nodup →
        messages plan isFile s chatJid limit <:+ messages plan isFile s chatJid limit') := by
  have hrows := loadRows_suffix plan s chatJid none h
  constructor
  · rw [messages, messages, loadMessages_toMessage, loadMessages_toMessage]
    exact hrows.map _
  · intro hnodup
    rw [messages, loadMessages_ids] at hnodup
    rw [messages, messages, loadMessages_of_nodup hnodup,
      loadMessages_of_nodup ((hrows.sublist.map _).nodup hnodup)]
    exact hrows.map _

theorem pages_agree_one : messages .stable (fun _ => false) readMessageStore "c" 1
    <:+ messages .stable (fun _ => false) readMessageStore "c" 2 :=
  (pages_agree .stable (fun _ => false) readMessageStore "c" 1 (by decide)).2 (by decide)

theorem loadRows_none : loadRows plan s chatJid limit none
    = (orderByThenRow (·.timestamp) (s.chatMessages chatJid)).drop
      ((s.chatMessages chatJid).length - max 1 (min limit 1000)) := by
  have hfilter : s.messages.rows.filter
      (fun m => m.chatJid = chatJid && isSelected none m.id) = s.chatMessages chatJid :=
    List.filter_congr fun m _ => Bool.and_true _
  rw [loadRows, page_eq_drop, hfilter]

variable (plan isFile s chatJid limit) in
/-- A page has the newest messages of the chat, and the oldest of them comes first. -/
theorem messages_newest :
    (messages plan isFile s chatJid limit).length
        = min (max 1 (min limit 1000)) (s.chatMessages chatJid).length ∧
      (messages plan isFile s chatJid limit).Pairwise (fun m m' => m.timestamp ≤ m'.timestamp) ∧
      ∀ row ∈ s.chatMessages chatJid,
        (decodeMessage isFile row).toMessage
            ∈ (messages plan isFile s chatJid limit).map (·.toMessage) ∨
          ∀ m ∈ messages plan isFile s chatJid limit, row.timestamp ≤ m.timestamp := by
  have hshown := loadMessages_toMessage plan isFile s chatJid none limit
  have hlength := (perm_orderByThenRow (·.timestamp) (s.chatMessages chatJid)).length_eq
  have hperm := fun row => (perm_orderByThenRow (·.timestamp) (s.chatMessages chatJid)).mem_iff
    (a := row)
  have hsorted := pairwise_orderByThenRow (·.timestamp) (s.chatMessages chatJid)
  rw [loadRows_none] at hshown
  change (messages plan isFile s chatJid limit).map (·.toMessage) = _ at hshown
  generalize orderByThenRow (·.timestamp) (s.chatMessages chatJid) = rows at *
  -- the rows before the page and those of the page
  generalize hk : (s.chatMessages chatJid).length - max 1 (min limit 1000) = k at hshown
  have hsplit := List.take_append_drop k rows
  rw [← hsplit, List.pairwise_append] at hsorted
  obtain ⟨-, hpage, hbefore⟩ := hsorted
  refine ⟨?_, ?_, fun row hrow => ?_⟩
  · have hcount := congrArg List.length hshown
    rw [List.length_map, List.length_map, List.length_drop] at hcount
    omega
  · have htimes : ((messages plan isFile s chatJid limit).map (·.toMessage)).Pairwise
        (fun m m' => m.timestamp ≤ m'.timestamp) := by
      rw [hshown]
      exact List.pairwise_map.mpr hpage
    exact (List.pairwise_map (f := fun m : Wire.Message => m.toMessage)).mp htimes
  · have hrow := (hperm row).mpr hrow
    rw [← hsplit] at hrow
    rcases List.mem_append.mp hrow with hrow | hrow
    · refine Or.inr fun m hm => ?_
      have hm : m.toMessage ∈ (messages plan isFile s chatJid limit).map (·.toMessage) :=
        List.mem_map_of_mem hm
      rw [hshown] at hm
      obtain ⟨row', hrow', heq⟩ := List.mem_map.mp hm
      rw [← heq]
      exact hbefore row hrow row' hrow'
    · rw [hshown]
      exact Or.inl (List.mem_map.mpr ⟨row, hrow, rfl⟩)

/-! ## One message -/

/-- What belongs to an id is shown by the first message of a page that has it, and by no other
one. -/
theorem attached_once {m : Wire.Message} {earlier later : List Wire.Message}
    (h : messages plan isFile s chatJid limit = earlier ++ m :: later) :
    (m.reactions, m.deliveredTo, m.readBy) =
      if m.id ∈ earlier.map (·.id) then ([], [], [])
      else (reactionsOf plan s chatJid m.id, deliveriesOf plan s chatJid m.id,
        readersOf plan s chatJid m.id) := by
  obtain ⟨hreactions, hdeliveries, hreaders⟩ := attach_split h
  rw [hreactions, hdeliveries, hreaders, without, without, without]
  split
  · rfl
  · rw [collect_reactions rfl, collect_receipts rfl, collect_receipts rfl]
    rfl

variable (plan limit) in
/-- The only row of a chat that has an id. -/
theorem loadRows_some (hrow : row ∈ s.messages.rows)
    (honly : ∀ row' ∈ s.messagesById row.chatJid row.id, row' = row) :
    loadRows plan s row.chatJid limit (some row.id) = [row] := by
  have hfilter : s.messages.rows.filter
      (fun m => m.chatJid = row.chatJid && isSelected (some row.id) m.id) = [row] := by
    have hkey := s.messages.filter_key row.key
    rw [Table.find?_of_mem hrow] at hkey
    refine Eq.trans (List.filter_congr fun m hm => ?_) hkey
    rw [isSelected_some, ← Bool.decide_and]
    refine decide_eq_decide.mpr ⟨fun h => ?_, fun h => ?_⟩
    · rw [honly m (Store.mem_messagesById.mpr ⟨hm, h⟩)]
    · obtain ⟨hchat, hrest⟩ := Prod.mk.inj h
      exact ⟨hchat, (Prod.mk.inj hrest).2⟩
  rw [loadRows, page_eq_drop, hfilter, List.length_singleton,
    Nat.sub_eq_zero_of_le (le_max_left _ _)]
  rfl

theorem loadMessages_some (hrow : row ∈ s.messages.rows)
    (honly : ∀ row' ∈ s.messagesById row.chatJid row.id, row' = row) :
    loadMessages plan isFile s row.chatJid limit (some row.id)
      = [shownMessage plan isFile s row.chatJid row] := by
  have hload := loadRows_some plan limit hrow honly
  rw [loadMessages_of_nodup, hload]
  · rfl
  · rw [hload]
    exact List.nodup_singleton _

variable (plan isFile s chatJid limit) in
/-- How many messages of a page have an id. -/
theorem countP_messages_le (id : String) :
    (messages plan isFile s chatJid limit).countP (fun m => m.id = id)
      ≤ (s.messagesById chatJid id).length := by
  have hids := loadMessages_ids plan isFile s chatJid none limit
  have hcount : (messages plan isFile s chatJid limit).countP (fun m => m.id = id)
      = (loadRows plan s chatJid limit none).countP (fun row => row.id = id) := by
    have hmapped := congrArg (List.countP (fun x => x = id)) hids
    rw [List.countP_map, List.countP_map] at hmapped
    exact hmapped
  rw [hcount, loadRows_none]
  refine (List.drop_sublist _ _).countP_le.trans ?_
  rw [(perm_orderByThenRow _ _).countP_eq, Store.chatMessages, List.countP_filter,
    List.countP_eq_length_filter, Store.messagesById]
  refine le_of_eq (congrArg List.length (List.filter_congr fun row _ => ?_))
  rw [Bool.decide_and, Bool.and_comm]

variable (plan isFile s chatJid limit) in
/-- A message that shares its id with no other one of its chat is the same by its id, by its
identity and in every page. -/
theorem messageById_eq {m : Wire.Message} (hm : m ∈ messages plan isFile s chatJid limit)
    (honly : (s.messagesById chatJid m.id).length ≤ 1) :
    messageById plan isFile s chatJid m.id = some m ∧
      messageByIdentity plan isFile s chatJid m.id m.senderJid = some m := by
  obtain ⟨earlier, later, hsplit⟩ := List.append_of_mem hm
  -- the row of the message
  have hmem : m.toMessage ∈ (messages plan isFile s chatJid limit).map (·.toMessage) :=
    List.mem_map_of_mem hm
  rw [messages, loadMessages_toMessage] at hmem
  obtain ⟨row, hload, hmessage⟩ := List.mem_map.mp hmem
  obtain ⟨hrow, rfl, -⟩ := mem_loadRows hload
  have hid : row.id = m.id := congrArg Message.id hmessage
  have hself : row ∈ s.messagesById row.chatJid row.id :=
    Store.mem_messagesById.mpr ⟨hrow, rfl, rfl⟩
  have hrows : ∀ row' ∈ s.messagesById row.chatJid row.id, row' = row := by
    intro row' hrow'
    rw [← hid] at honly
    obtain ⟨row₀, hone⟩ : ∃ row₀, s.messagesById row.chatJid row.id = [row₀] :=
      List.length_eq_one_iff.mp (Nat.le_antisymm honly (List.length_pos_of_mem hself))
    rw [hone, List.mem_singleton] at hrow' hself
    rw [hrow', hself]
  -- nobody before it has its id
  have hfirst : m.id ∉ earlier.map (·.id) := by
    intro hearlier
    obtain ⟨m', hm', hid'⟩ := List.mem_map.mp hearlier
    have hcount := (countP_messages_le plan isFile s row.chatJid limit m.id).trans honly
    have hpos : 0 < earlier.countP (fun x => x.id = m.id) :=
      List.countP_pos_iff.mpr ⟨m', hm', decide_eq_true hid'⟩
    rw [hsplit, List.countP_append, List.countP_cons, if_pos (decide_eq_true rfl)] at hcount
    omega
  have hattached := attached_once hsplit
  rw [if_neg hfirst] at hattached
  have hshown : shownMessage plan isFile s row.chatJid row = m := by
    obtain ⟨hreactions, hrest⟩ := Prod.mk.inj hattached
    obtain ⟨hdeliveries, hreaders⟩ := Prod.mk.inj hrest
    obtain ⟨message, deliveredTo, readBy, reactions⟩ := m
    change (decodeMessage isFile row).toMessage = message at hmessage
    change reactions = _ at hreactions
    change deliveredTo = _ at hdeliveries
    change readBy = _ at hreaders
    subst hmessage
    rw [hreactions, hdeliveries, hreaders]
    rfl
  rw [messageById, messageByIdentity, ← hid, loadMessages_some hrow hrows,
    loadMessages_some hrow hrows, hshown]
  exact ⟨rfl, List.find?_cons_of_pos (p := fun m' : Wire.Message => m'.senderJid = m.senderJid)
    (decide_eq_true rfl)⟩

theorem messageById_eq_read :
    messageById .stable (fun _ => false) readMessageStore "c" "m" = some readMessage :=
  (messageById_eq .stable (fun _ => false) readMessageStore "c" 9 (m := readMessage) (by decide)
    (by decide)).1

/-! ## Reactions and receipts -/

/-- The reactions to a message of the chat. -/
def isReactionTo (chatJid id : String) (r : ReactionRow) : Bool :=
  r.chatJid = chatJid && isSelected (some id) r.messageId

theorem messageId_of_mem {group : (String × String) × List ReactionRow}
    (h : group ∈ reactionGroups plan s chatJid (some id)) : group.1.1 = id := by
  obtain ⟨-, row, hrow, hkey⟩ := mem_groupBy.mp (plan.mem_orderBy.mp h)
  rw [← hkey]
  exact of_decide_eq_true (Bool.and_eq_true_iff.mp (List.mem_filter.mp hrow).2).2

theorem mem_reactionsOf {r : Wire.Reaction} (hr : r ∈ reactionsOf plan s chatJid id) :
    r.count = s.reactions.rows.countP
        (fun row => isReactionTo chatJid id row && row.emoji = r.emoji) ∧
      0 < r.count ∧
      (r.fromMe = true ↔ ∃ row ∈ s.reactions.rows, isReactionTo chatJid id row = true ∧
        row.emoji = r.emoji ∧ row.fromMe = true) := by
  obtain ⟨group, hgroup, rfl⟩ := List.mem_map.mp hr
  obtain ⟨hrows, row, hrow, hkey⟩ := mem_groupBy.mp (plan.mem_orderBy.mp hgroup)
  have hid := messageId_of_mem hgroup
  -- the rows of the group
  have hmatch : ∀ row, isReactionTo chatJid id row = true →
      (((row.messageId, row.emoji) = group.1) ↔ row.emoji = group.1.2) := by
    intro row hto
    have hmessage : row.messageId = id := of_decide_eq_true (Bool.and_eq_true_iff.mp hto).2
    refine ⟨fun h => congrArg Prod.snd h, fun h => Prod.ext (hmessage.trans hid.symm) h⟩
  have hrows' : group.2 = s.reactions.rows.filter
      (fun row => isReactionTo chatJid id row && row.emoji = group.1.2) := by
    rw [hrows, List.filter_filter]
    refine List.filter_congr fun row _ => ?_
    show (_ && isReactionTo chatJid id row) = _
    cases hto : isReactionTo chatJid id row with
    | false => rw [Bool.and_false, Bool.false_and]
    | true => rw [Bool.and_true, Bool.true_and, decide_eq_decide.mpr (hmatch row hto)]
  show group.2.length = _ ∧ 0 < group.2.length ∧ (group.2.any (·.fromMe) = true ↔ _)
  refine ⟨?_, ?_, ?_⟩
  · rw [List.countP_eq_length_filter, hrows']
    rfl
  · refine List.length_pos_of_mem (a := row) ?_
    rw [hrows]
    exact List.mem_filter.mpr ⟨hrow, decide_eq_true hkey⟩
  · rw [List.any_eq_true, hrows']
    constructor
    · rintro ⟨row, hrow, hmine⟩
      obtain ⟨hrow, hboth⟩ := List.mem_filter.mp hrow
      obtain ⟨hto, hemoji⟩ := Bool.and_eq_true_iff.mp hboth
      exact ⟨row, hrow, hto, of_decide_eq_true hemoji, hmine⟩
    · rintro ⟨row, hrow, hto, hemoji, hmine⟩
      exact ⟨row, List.mem_filter.mpr ⟨hrow, Bool.and_eq_true_iff.mpr ⟨hto, decide_eq_true hemoji⟩⟩,
        hmine⟩

theorem nodup_reactionsOf : ((reactionsOf plan s chatJid id).map (·.emoji)).Nodup := by
  have hgroups : (reactionGroups plan s chatJid (some id)).Nodup :=
    (plan.perm _ _).nodup_iff.mpr (nodup_groupBy _ _)
  rw [reactionsOf, List.map_map]
  refine hgroups.map_on fun g hg g' hg' (hemoji : g.1.2 = g'.1.2) => ?_
  have hkey : g.1 = g'.1 :=
    Prod.ext ((messageId_of_mem hg).trans (messageId_of_mem hg').symm) hemoji
  have hrows := (mem_groupBy.mp (plan.mem_orderBy.mp hg)).1
  rw [hkey] at hrows
  exact Prod.ext hkey (hrows.trans (mem_groupBy.mp (plan.mem_orderBy.mp hg')).1.symm)

theorem sum_reactionsOf : ((reactionsOf plan s chatJid id).map (·.count)).sum
    = s.reactions.rows.countP (isReactionTo chatJid id) := by
  rw [reactionsOf, List.map_map, reactionGroups]
  have hperm := (plan.perm (termThenText firstReaction (fun group => group.1.2))
    (groupBy (fun r : ReactionRow => (r.messageId, r.emoji))
      (s.reactions.rows.filter (isReactionTo chatJid id)))).map (fun g => g.2.length)
  rw [List.countP_eq_length_filter,
    ← sum_length_groupBy (fun r : ReactionRow => (r.messageId, r.emoji)), ← hperm.sum_eq]
  rfl

variable (plan isFile s chatJid limit) in
/-- The first message of a page that has an id shows each emoji once, with the number of members
whose reaction it is, and counts every member who reacted to the id once. -/
theorem reactions_counted {m : Wire.Message} {earlier later : List Wire.Message}
    (h : messages plan isFile s chatJid limit = earlier ++ m :: later)
    (hfirst : m.id ∉ earlier.map (·.id)) :
    (m.reactions.map (·.emoji)).Nodup ∧
      (m.reactions.map (·.count)).sum = s.reactions.rows.countP (isReactionTo chatJid m.id) ∧
      ∀ r ∈ m.reactions,
        r.count = s.reactions.rows.countP
            (fun row => isReactionTo chatJid m.id row && row.emoji = r.emoji) ∧ 0 < r.count ∧
          (r.fromMe = true ↔ ∃ row ∈ s.reactions.rows, isReactionTo chatJid m.id row = true ∧
            row.emoji = r.emoji ∧ row.fromMe = true) := by
  have hattached := attached_once h
  rw [if_neg hfirst] at hattached
  rw [(Prod.mk.inj hattached).1]
  exact ⟨nodup_reactionsOf, sum_reactionsOf, fun r => mem_reactionsOf⟩

theorem reactions_counted_read :
    1 = readMessageStore.reactions.rows.countP (isReactionTo "c" "m") :=
  (reactions_counted .stable (fun _ => false) readMessageStore "c" 9 (m := readMessage)
    (show _ = [] ++ readMessage :: [] by decide) (by decide)).2.1

/-- The receipts to a message of the chat. -/
def isReceiptOf (chatJid id : String) (r : MessageReadRow) : Bool :=
  r.chatJid = chatJid && isSelected (some id) r.messageId

theorem mem_receiptRows {r : MessageReadRow} : r ∈ receiptRows plan s chatJid (some id) ↔
    r ∈ s.messageReads.rows ∧ isReceiptOf chatJid id r = true :=
  plan.mem_orderBy.trans List.mem_filter

theorem mem_map_receiptRows {β : Type} {p : MessageReadRow → Bool} {f : MessageReadRow → β}
    {b : β} :
    b ∈ ((receiptRows plan s chatJid (some id)).filter p).map f ↔
      ∃ r ∈ s.messageReads.rows, isReceiptOf chatJid id r = true ∧ p r = true ∧ b = f r := by
  rw [List.mem_map]
  constructor
  · rintro ⟨r, hr, rfl⟩
    obtain ⟨hr, hp⟩ := List.mem_filter.mp hr
    obtain ⟨hmem, hof⟩ := mem_receiptRows.mp hr
    exact ⟨r, hmem, hof, hp, rfl⟩
  · rintro ⟨r, hmem, hof, hp, rfl⟩
    exact ⟨r, List.mem_filter.mpr ⟨mem_receiptRows.mpr ⟨hmem, hof⟩, hp⟩, rfl⟩

variable (plan s chatJid id) in
/-- A member has at most one receipt for a message. -/
theorem nodup_receiptRows : ((receiptRows plan s chatJid (some id)).map (·.readerJid)).Nodup := by
  have hrows : (receiptRows plan s chatJid (some id)).Nodup :=
    (plan.perm _ _).nodup_iff.mpr ((List.Nodup.of_map _ s.messageReads.nodup).filter _)
  refine hrows.map_on fun r hr r' hr' hreader => ?_
  obtain ⟨hmem, hof⟩ := mem_receiptRows.mp hr
  obtain ⟨hmem', hof'⟩ := mem_receiptRows.mp hr'
  obtain ⟨hchat, hid⟩ := Bool.and_eq_true_iff.mp hof
  obtain ⟨hchat', hid'⟩ := Bool.and_eq_true_iff.mp hof'
  refine s.messageReads.key_inj hmem hmem' ?_
  rw [MessageReadRow.key, MessageReadRow.key, of_decide_eq_true hchat, of_decide_eq_true hchat',
    hreader, show r.messageId = id from of_decide_eq_true hid,
    show r'.messageId = id from of_decide_eq_true hid']

variable (plan isFile s chatJid limit) in
/-- The first message of a page that has an id lists each member to whom it was delivered, and each
who has read it, once and with the time of the receipt, by their names. -/
theorem receipts_listed {m : Wire.Message} {earlier later : List Wire.Message}
    (h : messages plan isFile s chatJid limit = earlier ++ m :: later)
    (hfirst : m.id ∉ earlier.map (·.id)) :
    (m.readBy.map (·.jid)).Nodup ∧ (m.deliveredTo.map (·.jid)).Nodup ∧
      (∀ reader, reader ∈ m.readBy ↔ ∃ r ∈ s.messageReads.rows,
        isReceiptOf chatJid m.id r = true ∧ 0 < r.readAt ∧ reader = readerOf s r) ∧
      (∀ delivery, delivery ∈ m.deliveredTo ↔ ∃ r ∈ s.messageReads.rows,
        isReceiptOf chatJid m.id r = true ∧ 0 < r.deliveredAt ∧ delivery = deliveryOf s r) ∧
      m.readBy.Pairwise (fun reader reader' => reader.name.toLower < reader'.name.toLower ∨
        reader.name.toLower = reader'.name.toLower ∧ reader.jid ≤ reader'.jid) := by
  have hattached := attached_once h
  rw [if_neg hfirst] at hattached
  obtain ⟨-, hrest⟩ := Prod.mk.inj hattached
  obtain ⟨hdeliveries, hreaders⟩ := Prod.mk.inj hrest
  rw [hdeliveries, hreaders, readersOf, deliveriesOf, List.map_map, List.map_map]
  have hnodup := nodup_receiptRows plan s chatJid m.id
  have hsorted := plan.sorted
    (termThenText (fun r => (receiptName s r.readerJid).toLower) (·.readerJid))
    termThenText_total termThenText_trans (s.messageReads.rows.filter (isReceiptOf chatJid m.id))
  refine ⟨(List.filter_sublist.map _).nodup hnodup, (List.filter_sublist.map _).nodup hnodup,
    fun reader => ?_, fun delivery => ?_, ?_⟩
  · rw [mem_map_receiptRows]
    simp only [decide_eq_true_eq]
  · rw [mem_map_receiptRows]
    simp only [decide_eq_true_eq]
  · refine List.pairwise_map.mpr ((hsorted.filter _).imp ?_)
    intro r r' hle
    exact termThenText_iff.mp hle

theorem receipts_listed_read : (readMessage.readBy.map (·.jid)).Nodup :=
  (receipts_listed .stable (fun _ => false) readMessageStore "c" 9 (m := readMessage)
    (show _ = [] ++ readMessage :: [] by decide) (by decide)).1

end OmarchyWhatsapp
