import OmarchyWhatsapp.Database.Arrivals
import OmarchyWhatsapp.Inbound.Messages

/-!
# One message, one row

The key of a message row is computed twice: by `receive_message` from the live event and by
`history_message` from the replayed one. The two agree on a message of someone else. An own
message is stored under the sender `me` by history replay and under the resolved own JID by
the live path, so it ends with one row exactly when that JID is `me`.
-/

namespace OmarchyWhatsapp

open Relational

variable (plan : QueryPlan)

/-! ## What a delivery adds -/

section Insertions

variable (s : Store)

theorem learnPushName_keys (senderJid pushName : String) :
    (learnPushName s senderJid pushName).messageKeys = s.messageKeys := by
  unfold learnPushName
  split
  · exact updateContactNameInto_keys s _ _ _
  · rfl

theorem learnPushName_sameMarks (senderJid pushName : String) :
    SameMarks s (learnPushName s senderJid pushName) := by
  unfold learnPushName
  split
  · exact updateContactNameInto_sameMarks s _ _ _
  · exact ⟨rfl, rfl⟩

/-- What is stored beside a message adds no row. -/
theorem persistParts_keys (body : Body) (info : MessageInfo) (message : Message)
    (chatName : String) (inserted : Bool) :
    (persistParts plan s body info message chatName inserted).messageKeys = s.messageKeys := by
  have hsecret : ∀ jid secret, ((storePollSecret s message.chatJid info.id jid
      secret).toOption.getD s).messageKeys = s.messageKeys := by
    intro jid secret
    rw [Store.messageKeys, (storePollSecret_frame s _ _ _ _).1, Store.messageKeys]
  have hdownloads : ∀ s' : Store, (body.downloads.foldl (fun s payload =>
      (storeMediaDownload s message.chatJid info.id payload).1) s').messageKeys
        = s'.messageKeys := by
    intro s'
    induction body.downloads generalizing s' with
    | nil => rfl
    | cons payload payloads ih =>
      rw [List.foldl_cons, ih]
      exact storeMediaDownload_keys s' _ _ _
  have hname : ∀ s' : Store, (updateGroupName s' message.chatJid chatName).1.messageKeys
      = s'.messageKeys := by
    intro s'
    rw [Store.messageKeys, (updateGroupName_frame s' _ _).1, Store.messageKeys]
  unfold persistParts
  dsimp only
  split
  all_goals
    try rw [updateMessageMediaInto_keys]
    split_ifs
    all_goals
      try rw [hname]
      rw [hdownloads]
      split
      · exact hsecret _ _
      · rfl

variable {K : Finset (String × String × String)}

theorem persistMessage_absorbs (context : LiveContext) (message : Message) (chatName : String)
    (isGroup : Bool) (hK : K.card ≤ retention) (hs : Fits K s message.chatJid)
    (ha : message.key ∈ K) :
    Absorbs s [message] (persistMessage plan s context message chatName isGroup).1 := by
  have harrivals : ∀ m ∈ [message], m.key ∈ K := fun m hm => List.mem_singleton.mp hm ▸ ha
  unfold persistMessage
  split
  · exact (insertMessageInto_absorbs s
      (focusedInsert message chatName isGroup _)).prune plan hK hs harrivals
  · exact (insertMessageInto_absorbs s
      (liveInsert message chatName isGroup _)).prune plan hK hs harrivals

end Insertions

/-! ## Deliveries of one message -/

/-- A message as WhatsApp knows it, with its chat and its sender resolved. -/
structure Identity where
  chatJid : String
  senderJid : String
  id : String
  fromMe : Bool
  timestamp : ℤ

/-- The key under which the live path stores it. -/
def Identity.liveKey (m : Identity) : String × String × String := (m.chatJid, m.senderJid, m.id)

/-- The key under which history replay stores it. -/
def Identity.historyKey (m : Identity) : String × String × String :=
  (m.chatJid, if m.fromMe then "me" else m.senderJid, m.id)

/-- One of the two ways in which a message reaches the store. -/
inductive Delivery where
  | live (context : LiveContext) (body : Body) (info : MessageInfo)
  | history (conversation : HistoryConversation)

section Deliveries

variable (resolve normalize : String → String) (aliases : String → Option String)

/-- The live event of a message that the timeline shows. -/
structure MessageInfo.Describes (info : MessageInfo) (body : Body) (m : Identity) : Prop where
  accepted : (info.source.isStatusBroadcast || info.source.isNewsletter) = false
  chat : resolve info.source.chat = m.chatJid
  sender : resolve info.source.sender = m.senderJid
  id : info.id = m.id
  fromMe : info.source.isFromMe = m.fromMe
  timestamp : info.timestamp = m.timestamp
  shown : (body.text info.mediaType).isSome = true

/-- The replayed form of the message. The alias map resolves a sender as the live path does. -/
structure WebMessageInfo.Describes (wire : WebMessageInfo) (m : Identity) : Prop where
  key : ∃ key, wire.key = some key ∧ key.id = some m.id ∧ key.fromMe.getD false = m.fromMe ∧
    (m.fromMe = false → canonicalHistoryJid normalize aliases
      ((wire.participant.or key.participant).getD m.chatJid) = m.senderJid)
  timestamp : (wire.messageTimestamp.map clampTimestamp).getD 0 = m.timestamp
  shown : ∃ body, wire.message = some body ∧ (body.text "").isSome = true

/-- A conversation with the message among its messages. -/
structure HistoryConversation.Describes (conversation : HistoryConversation) (m : Identity) :
    Prop where
  accepted : (endsWith m.chatJid "@broadcast" || endsWith m.chatJid "@newsletter") = false
  chat : conversation.chatJid normalize aliases = m.chatJid
  holds : ∃ wire ∈ conversation.messages, wire.Describes normalize aliases m
  unique : ∀ wire ∈ conversation.messages, wire.key.bind MessageKey.id = some m.id →
    wire.Describes normalize aliases m

/-- The delivery brings the message. -/
def Delivery.Of (m : Identity) : Delivery → Prop
  | .live _ body info => info.Describes resolve body m
  | .history conversation => conversation.Describes normalize aliases m

/-- The key it stores the message under. -/
def Delivery.key (m : Identity) : Delivery → String × String × String
  | .live .. => m.liveKey
  | .history _ => m.historyKey

/-- The messages it hands to the store. -/
def Delivery.arrivals (s : Store) : Delivery → List Message
  | .live _ body info =>
    let senderJid := resolve info.source.sender
    let pushName := (nonempty info.pushName).getD senderJid
    (receivedMessage (learnPushName s senderJid pushName) body info (resolve info.source.chat)
      senderJid pushName).toList
  | .history conversation => conversation.slice normalize aliases s

def Delivery.deliver (s : Store) : Delivery → Store
  | .live context body info => receiveMessage plan resolve s context body info
  | .history conversation => ingestConversation plan normalize aliases s conversation

/-- Every message it may bring has its key in `K`. -/
def Delivery.Within (K : Finset (String × String × String)) (d : Delivery) : Prop :=
  ∀ s, ∀ m ∈ d.arrivals resolve normalize aliases s, m.key ∈ K

variable {resolve normalize aliases} {m : Identity}

theorem HistoryConversation.mem_slice {conversation : HistoryConversation} {s : Store}
    {message : Message} :
    message ∈ conversation.slice normalize aliases s ↔ ∃ wire ∈ conversation.messages,
      historyMessage normalize aliases (conversation.chatJid normalize aliases)
        (conversation.chatName normalize aliases s) wire = some message := by
  rw [HistoryConversation.slice, (List.perm_insertionSort _ _).mem_iff, List.mem_filterMap]

/-- What `history_message` builds for the message. -/
theorem WebMessageInfo.Describes.message {wire : WebMessageInfo}
    (h : wire.Describes normalize aliases m) (chatName : String) :
    ∃ message, historyMessage normalize aliases m.chatJid chatName wire = some message ∧
      message.key = m.historyKey ∧ message.timestamp = m.timestamp := by
  obtain ⟨key, hkey, hid, hfrom, hsender⟩ := h.key
  obtain ⟨body, hbody, htext⟩ := h.shown
  obtain ⟨text, htext⟩ := Option.isSome_iff_exists.mp htext
  have hsender' : historySender normalize aliases m.chatJid key wire
      = if m.fromMe then "me" else m.senderJid := by
    rw [historySender, hfrom]
    cases hm : m.fromMe with
    | true => rfl
    | false => exact hsender hm
  simp only [historyMessage, hkey, hid, hbody, htext, Option.bind_eq_bind, Option.bind_some,
    Option.pure_def]
  exact ⟨_, rfl, by rw [Message.key, hsender', Identity.historyKey], h.timestamp⟩

/-- The id of a replayed message is the id of its key. -/
theorem historyMessage_id {chatJid chatName : String} {wire : WebMessageInfo} {message : Message}
    (h : historyMessage normalize aliases chatJid chatName wire = some message) :
    wire.key.bind MessageKey.id = some message.id := by
  simp only [historyMessage, Option.bind_eq_bind, Option.bind_eq_some_iff, Option.pure_def,
    Option.some.injEq] at h
  obtain ⟨key, hkey, id, hid, body, -, text, -, rfl⟩ := h
  rw [hkey, Option.bind_some, hid]

/-- A delivery hands the message over under its key, and no other message of that id. -/
theorem Delivery.Of.arrivals {d : Delivery} (h : d.Of resolve normalize aliases m) (s : Store) :
    (∃ a ∈ d.arrivals resolve normalize aliases s, a.key = d.key m ∧
      a.timestamp = m.timestamp) ∧
    ∀ a ∈ d.arrivals resolve normalize aliases s, a.id = m.id → a.key = d.key m := by
  cases d with
  | live context body info =>
    obtain ⟨text, htext⟩ := Option.isSome_iff_exists.mp h.shown
    simp only [Delivery.arrivals, receivedMessage, htext, Option.map_some, Option.toList_some,
      List.mem_singleton, exists_eq_left, forall_eq]
    have hkey : (resolve info.source.chat, resolve info.source.sender, info.id) = m.liveKey := by
      rw [h.chat, h.sender, h.id, Identity.liveKey]
    exact ⟨⟨hkey, h.timestamp⟩, fun _ => hkey⟩
  | history conversation =>
    simp only [Delivery.arrivals, HistoryConversation.mem_slice, h.chat]
    constructor
    · obtain ⟨wire, hwire, hdescribes⟩ := h.holds
      obtain ⟨message, hmessage, hkey, ht⟩ := hdescribes.message
        (conversation.chatName normalize aliases s)
      exact ⟨message, ⟨wire, hwire, hmessage⟩, hkey, ht⟩
    · rintro a ⟨wire, hwire, ha⟩ hid
      have hdescribes := h.unique wire hwire ((historyMessage_id ha).trans (congrArg some hid))
      obtain ⟨message, hmessage, hkey, -⟩ := hdescribes.message
        (conversation.chatName normalize aliases s)
      rw [ha, Option.some_inj] at hmessage
      exact hmessage ▸ hkey

variable {K : Finset (String × String × String)}

/-- A delivery absorbs the messages it brings. -/
theorem Delivery.Of.absorbs {d : Delivery} (h : d.Of resolve normalize aliases m) {s : Store}
    (hK : K.card ≤ retention) (hs : Fits K s m.chatJid)
    (hd : ∀ a ∈ d.arrivals resolve normalize aliases s, a.key ∈ K) :
    Absorbs s (d.arrivals resolve normalize aliases s)
      (d.deliver plan resolve normalize aliases s) := by
  cases d with
  | live context body info =>
    obtain ⟨text, htext⟩ := Option.isSome_iff_exists.mp h.shown
    dsimp only [Delivery.arrivals, Delivery.deliver] at hd ⊢
    have hchat : ∀ s' pushName message, receivedMessage s' body info (resolve info.source.chat)
        (resolve info.source.sender) pushName = some message → message.chatJid = m.chatJid := by
      intro s' pushName message hmessage
      rw [receivedMessage, htext, Option.map_some, Option.some_inj] at hmessage
      rw [← hmessage]
      exact h.chat
    rw [receiveMessage, if_neg (by simp [h.accepted])]
    dsimp only
    generalize (nonempty info.pushName).getD (resolve info.source.sender) = pushName at hd ⊢
    generalize resolve info.source.sender = senderJid at hd hchat ⊢
    have hlearned := learnPushName_keys s senderJid pushName
    refine Absorbs.of_same hlearned (learnPushName_sameMarks s senderJid pushName) ?_
    rcases hmessage : receivedMessage (learnPushName s senderJid pushName) body info
      (resolve info.source.chat) senderJid pushName with _ | message
    · exact .of_keys rfl
    · rw [hmessage] at hd
      refine (persistMessage_absorbs plan _ context message _ _ hK ?_
        (hd message (by simp))).then_keys (persistParts_keys plan _ _ _ _ _ _)
      rw [hchat _ _ _ hmessage]
      exact fun k hk => hs k (hlearned ▸ hk)
  | history conversation =>
    simp only [Delivery.arrivals, Delivery.deliver, ingestConversation, h.chat, h.accepted,
      Bool.false_eq_true, if_false] at hd ⊢
    refine insertHistoryConversation_absorbs plan s _ _ hK ?_ hd
    rw [HistoryConversation.chat, h.chat]
    exact hs

/-- The message was deleted on this account, or lies in the cleared window of its chat. -/
def Identity.suppressed (s : Store) (m : Identity) : Bool :=
  tombstoned s m.chatJid m.id || stateSuppressed s m.chatJid m.timestamp

variable {s : Store}

/-- A delivery that is not suppressed stores the message. -/
theorem Delivery.Of.stores {d : Delivery} (h : d.Of resolve normalize aliases m)
    (hK : K.card ≤ retention) (hs : Fits K s m.chatJid)
    (hd : ∀ a ∈ d.arrivals resolve normalize aliases s, a.key ∈ K)
    (haccepted : m.suppressed s = false) :
    d.key m ∈ (d.deliver plan resolve normalize aliases s).messageKeys := by
  obtain ⟨a, ha, hkey, ht⟩ := (h.arrivals s).1
  have hchat : a.chatJid = m.chatJid := by
    cases d <;> exact congrArg Prod.fst hkey
  have hid : a.id = m.id := by
    cases d <;> exact congrArg (fun k => k.2.2) hkey
  have hsuppressed : OmarchyWhatsapp.suppressed s a = false := by
    rw [OmarchyWhatsapp.suppressed, hchat, hid, ht]
    exact haccepted
  exact hkey ▸ (h.absorbs plan hK hs hd).stored a ha hsuppressed

/-- Deliveries of one message add no row under another key, and drop none. -/
theorem run_deliveries (hK : K.card ≤ retention) {ds : List Delivery}
    (hds : ∀ d ∈ ds, d.Of resolve normalize aliases m ∧ d.Within resolve normalize aliases K)
    (hs : Fits K s m.chatJid) :
    (∀ k ∈ (run (Delivery.deliver plan resolve normalize aliases) s ds).messageKeys,
      k.1 = m.chatJid → k.2.2 = m.id → k ∈ s.messageKeys ∨ ∃ d ∈ ds, d.key m = k) ∧
    ∀ k ∈ s.messageKeys,
      k ∈ (run (Delivery.deliver plan resolve normalize aliases) s ds).messageKeys := by
  induction ds generalizing s with
  | nil => exact ⟨fun k hk _ _ => Or.inl hk, fun k hk => hk⟩
  | cons d ds ih =>
    obtain ⟨hof, hwithin⟩ := hds d List.mem_cons_self
    have habsorbs := hof.absorbs plan hK hs (hwithin s)
    obtain ⟨honly, hkept⟩ := ih (fun d' hd' => hds d' (List.mem_cons_of_mem _ hd'))
      (habsorbs.fits hs (hwithin s))
    refine ⟨fun k hk hc hid => ?_, fun k hk => hkept k (habsorbs.mono hk)⟩
    rcases honly k hk hc hid with hk | ⟨d', hd', hkey⟩
    · rcases habsorbs.mem hk with hk | ⟨a, ha, rfl⟩
      · exact Or.inl hk
      · exact Or.inr ⟨d, List.mem_cons_self, ((hof.arrivals s).2 a ha hid).symm⟩
    · exact Or.inr ⟨d', List.mem_cons_of_mem _ hd', hkey⟩

/-- The rows of a message have distinct keys. -/
theorem messagesById_length_eq_one {chatJid id : String} {k : String × String × String}
    (hk : k ∈ s.messageKeys) (hc : k.1 = chatJid) (hid : k.2.2 = id) :
    (s.messagesById chatJid id).length = 1 ↔
      ∀ k' ∈ s.messageKeys, k'.1 = chatJid → k'.2.2 = id → k' = k := by
  obtain ⟨row, hrow, rfl⟩ := Store.mem_messageKeys.mp hk
  have hmem : row ∈ s.messagesById chatJid id := Store.mem_messagesById.mpr ⟨hrow, hc, hid⟩
  constructor
  · intro hlength k' hk' hc' hid'
    obtain ⟨row', hrow', rfl⟩ := Store.mem_messageKeys.mp hk'
    have hmem' : row' ∈ s.messagesById chatJid id :=
      Store.mem_messagesById.mpr ⟨hrow', hc', hid'⟩
    obtain ⟨only, honly⟩ := List.length_eq_one_iff.mp hlength
    rw [honly, List.mem_singleton] at hmem hmem'
    rw [hmem, hmem']
  · intro hunique
    have hnodup : (s.messagesById chatJid id).Nodup :=
      ((List.filter_sublist.map MessageRow.key).nodup s.messages.nodup).of_map
    refine List.length_eq_one_iff.mpr ⟨row, List.perm_singleton.mp ?_⟩
    refine (List.perm_ext_iff_of_nodup hnodup (List.nodup_singleton row)).mpr fun row' => ?_
    rw [List.mem_singleton]
    refine ⟨fun hrow' => ?_, fun heq => heq ▸ hmem⟩
    obtain ⟨hrow', hc', hid'⟩ := Store.mem_messagesById.mp hrow'
    exact s.messages.key_inj hrow' hrow
      (hunique _ (Store.mem_messageKeys.mpr ⟨row', hrow', rfl⟩) hc' hid')

theorem ingestConversation_sameMarks (conversation : HistoryConversation) :
    SameMarks s (ingestConversation plan normalize aliases s conversation) := by
  unfold ingestConversation
  dsimp only
  split
  · exact ⟨rfl, rfl⟩
  · exact ⟨by simp, by simp⟩

theorem Identity.key_eq_iff (m : Identity) :
    m.liveKey = m.historyKey ↔ (m.fromMe = true → m.senderJid = "me") := by
  cases h : m.fromMe <;> simp [Identity.liveKey, Identity.historyKey, h]

/-- A new message ends with exactly one row after every sequence of live and replayed
deliveries if and only if it is not an own message with a sender other than `me`. -/
theorem messagesById_deliveries_iff {context : LiveContext} {body : Body} {info : MessageInfo}
    {conversation : HistoryConversation}
    (hlive : (Delivery.live context body info).Of resolve normalize aliases m)
    (hhistory : (Delivery.history conversation).Of resolve normalize aliases m)
    (hnew : s.messagesById m.chatJid m.id = []) (haccepted : m.suppressed s = false)
    (hK : K.card ≤ retention) (hs : Fits K s m.chatJid)
    (hliveK : (Delivery.live context body info).Within resolve normalize aliases K)
    (hhistoryK : (Delivery.history conversation).Within resolve normalize aliases K) :
    (∀ ds : List Delivery, ds ≠ [] →
      (∀ d ∈ ds, d.Of resolve normalize aliases m ∧ d.Within resolve normalize aliases K) →
      ((run (Delivery.deliver plan resolve normalize aliases) s ds).messagesById
        m.chatJid m.id).length = 1) ↔
      (m.fromMe = true → m.senderJid = "me") := by
  rw [← Identity.key_eq_iff]
  constructor
  · -- a replay followed by the live event stores both keys
    intro hone
    have hds : ∀ d ∈ [Delivery.history conversation, .live context body info],
        d.Of resolve normalize aliases m ∧ d.Within resolve normalize aliases K := by
      simp only [List.mem_cons, List.not_mem_nil, or_false, forall_eq_or_imp, forall_eq]
      exact ⟨⟨hhistory, hhistoryK⟩, hlive, hliveK⟩
    have hlength := hone _ (List.cons_ne_nil _ _) hds
    rw [run_cons, run_cons, run_nil] at hlength
    set replayed := Delivery.deliver plan resolve normalize aliases s (.history conversation)
    have habsorbs : Absorbs s _ replayed := hhistory.absorbs plan hK hs (hhistoryK s)
    have hfits : Fits K replayed m.chatJid := habsorbs.fits hs (hhistoryK s)
    have hmarks : SameMarks s replayed := ingestConversation_sameMarks plan conversation
    have haccepted' : m.suppressed replayed = false := by
      simp only [Identity.suppressed, tombstoned, stateSuppressed, hmarks.settings,
        hmarks.tombstones]
      exact haccepted
    have hhistoryKey := (hlive.absorbs plan hK hfits (hliveK _)).mono
      (hhistory.stores plan hK hs (hhistoryK s) haccepted)
    have hliveKey := hlive.stores plan hK hfits (hliveK _) haccepted'
    exact (messagesById_length_eq_one hhistoryKey rfl rfl).mp hlength _ hliveKey rfl rfl
  · intro hkey ds hne hds
    have hsame : ∀ d : Delivery, d.key m = m.liveKey := by
      intro d
      cases d with
      | live => rfl
      | history => exact hkey.symm
    obtain ⟨honly, -⟩ := run_deliveries plan hK hds hs
    have hstored : m.liveKey ∈
        (run (Delivery.deliver plan resolve normalize aliases) s ds).messageKeys := by
      cases ds with
      | nil => exact absurd rfl hne
      | cons d ds =>
        obtain ⟨hof, hwithin⟩ := hds d List.mem_cons_self
        have hfits := (hof.absorbs plan hK hs (hwithin s)).fits hs (hwithin s)
        refine (run_deliveries plan hK (fun d' hd' => hds d' (List.mem_cons_of_mem _ hd'))
          hfits).2 _ ?_
        exact hsame d ▸ hof.stores plan hK hs (hwithin s) haccepted
    refine (messagesById_length_eq_one hstored rfl rfl).mpr fun k hk hc hid => ?_
    rcases honly k hk hc hid with hk | ⟨d, -, rfl⟩
    · obtain ⟨row, hrow, rfl⟩ := Store.mem_messageKeys.mp hk
      have hrow' : row ∈ s.messagesById m.chatJid m.id :=
        Store.mem_messagesById.mpr ⟨hrow, hc, hid⟩
      rw [hnew] at hrow'
      cases hrow'
    · exact hsame d

end Deliveries

/-! ## A text message of a direct chat -/

def textBody (text : String) : Body :=
  { textContent := some text, caption := none, mediaText := fun _ => none,
    media := fun _ _ _ _ => none, quote := none }

/-- The live event of a text message in the chat with `1`. -/
def liveText (sender id text : String) (fromMe : Bool) (timestamp : ℤ) : Delivery :=
  .live { focused := false, groupSubject := none } (textBody text)
    { source := { chat := "1", sender, isFromMe := fromMe, isGroup := false }, id,
      pushName := "", timestamp }

/-- The replayed form of it. -/
def replayedText (id text : String) (fromMe : Bool) (timestamp : ℕ) : Delivery :=
  .history { id := "1", messages := [
    { key := some { id := some id, fromMe := some fromMe, participant := none },
      message := some (textBody text), messageTimestamp := some timestamp }] }

theorem liveText_of {sender id text : String} {fromMe : Bool} {timestamp : ℤ} :
    (liveText sender id text fromMe timestamp).Of (fun jid => jid) (fun jid => jid)
      (fun _ => none) ⟨"1", sender, id, fromMe, timestamp⟩ :=
  ⟨rfl, rfl, rfl, rfl, rfl, rfl, rfl⟩

theorem replayedText_of {sender id text : String} {fromMe : Bool} {timestamp : ℕ}
    (hsender : fromMe = false → sender = "1") (ht : timestamp < 2 ^ 63) :
    (replayedText id text fromMe timestamp).Of (fun jid => jid) (fun jid => jid)
      (fun _ => none) ⟨"1", sender, id, fromMe, timestamp⟩ := by
  have hwire : WebMessageInfo.Describes (fun jid => jid) (fun _ => none)
      { key := some { id := some id, fromMe := some fromMe, participant := none },
        message := some (textBody text), messageTimestamp := some timestamp }
      ⟨"1", sender, id, fromMe, timestamp⟩ := by
    refine ⟨⟨_, rfl, rfl, rfl, fun hf => (hsender hf).symm⟩, ?_, ⟨_, rfl, rfl⟩⟩
    rw [Option.map_some, Option.getD_some, clampTimestamp]
    exact min_eq_left (by omega)
  have hlisted : (endsWith "1" "@broadcast" || endsWith "1" "@newsletter") = false := by decide
  exact ⟨hlisted, rfl, ⟨_, List.mem_singleton_self _, hwire⟩,
    fun wire hmem _ => List.mem_singleton.mp hmem ▸ hwire⟩

/-- An incoming message that arrives live, from history and live again ends with one row. -/
theorem messagesById_deliveries_iff_incoming :
    ((run (Delivery.deliver .stable (fun jid => jid) (fun jid => jid) (fun _ => none))
      Store.empty [liveText "1" "a" "hi" false (10 : ℕ), replayedText "a" "hi" false 10,
        liveText "1" "a" "hi" false (10 : ℕ)]).messagesById "1" "a").length = 1 := by
  have hlive : (liveText "1" "a" "hi" false (10 : ℕ)).Within (fun jid => jid) (fun jid => jid)
      (fun _ => none) {("1", "1", "a")} := by
    intro s m hm
    obtain rfl := List.mem_singleton.mp hm
    exact Finset.mem_singleton_self _
  have hhistory : (replayedText "a" "hi" false 10).Within (fun jid => jid) (fun jid => jid)
      (fun _ => none) {("1", "1", "a")} := by
    intro s m hm
    obtain ⟨wire, hwire, hm⟩ := HistoryConversation.mem_slice.mp hm
    obtain rfl := List.mem_singleton.mp hwire
    cases hm
    exact Finset.mem_singleton_self _
  have hreplayed : (replayedText "a" "hi" false 10).Of (fun jid => jid) (fun jid => jid)
      (fun _ => none) ⟨"1", "1", "a", false, (10 : ℕ)⟩ :=
    replayedText_of (fun _ => rfl) (by decide)
  refine (messagesById_deliveries_iff .stable (m := ⟨"1", "1", "a", false, (10 : ℕ)⟩)
    liveText_of hreplayed rfl rfl (by decide) (fun k hk => by cases hk) hlive hhistory).mpr
    (fun h => by cases h) _ (List.cons_ne_nil _ _) ?_
  simp only [List.mem_cons, List.not_mem_nil, or_false, forall_eq_or_imp, forall_eq]
  exact ⟨⟨liveText_of, hlive⟩, ⟨hreplayed, hhistory⟩, liveText_of, hlive⟩

/-- An own message from another device is stored twice: replayed as `me`, live as `2`. -/
theorem receiveMessage_duplicates_own_message :
    (∀ d ∈ [replayedText "a" "hi" true 10, liveText "2" "a" "hi" true (10 : ℕ)],
      d.Of (fun jid => jid) (fun jid => jid) (fun _ => none) ⟨"1", "2", "a", true, (10 : ℕ)⟩) ∧
    ((run (Delivery.deliver .stable (fun jid => jid) (fun jid => jid) (fun _ => none))
      Store.empty [replayedText "a" "hi" true 10, liveText "2" "a" "hi" true (10 : ℕ)]).messagesById
        "1" "a").length ≠ 1 := by
  refine ⟨?_, by decide⟩
  simp only [List.mem_cons, List.not_mem_nil, or_false, forall_eq_or_imp, forall_eq]
  exact ⟨replayedText_of (fun h => by cases h) (by decide), liveText_of⟩

end OmarchyWhatsapp
