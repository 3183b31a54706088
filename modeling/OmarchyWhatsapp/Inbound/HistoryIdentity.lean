import OmarchyWhatsapp.Inbound.HistoryIngest

/-!
# Identities of a history sync

The first pass over a history sync finds every LID that the second one looks up. What the second one
looks up is written under its phone number; the people that messages quote and the owners of push
names are not looked up.
-/

namespace OmarchyWhatsapp

open Relational

/-- The form without a device is parsed as the JID it was made from, and `me` is no LID. -/
structure JidSyntax (parse : String → Option ParsedJid) : Prop where
  reparse : ∀ {v j}, parse v = some j → parse j.nonAd = some j
  me : ∀ {j}, parse "me" = some j → j.isLid = false

/-- The aliases of LIDs are phone numbers. -/
structure AliasMap (parse : String → Option ParsedJid) (aliases : String → Option String) :
    Prop where
  lid : ∀ {lid pn}, aliases lid = some pn → ∃ j, parse lid = some j ∧ j.isLid = true
  phone : ∀ {lid pn}, aliases lid = some pn → ∃ j, parse pn = some j ∧ j.isLid = false

variable {parse : String → Option ParsedJid} {aliases aliases' : String → Option String}

namespace AliasMap

theorem none_of_not_lid (h : AliasMap parse aliases) {v : String} {j : ParsedJid}
    (hparse : parse v = some j) (hlid : j.isLid = false) : aliases v = none := by
  cases halias : aliases v with
  | none => rfl
  | some pn =>
    obtain ⟨j', hparse', hlid'⟩ := h.lid halias
    rw [hparse] at hparse'
    rw [← Option.some.inj hparse', hlid] at hlid'
    cases hlid'

theorem none_of_unparsed (h : AliasMap parse aliases) {v : String} (hparse : parse v = none) :
    aliases v = none := by
  cases halias : aliases v with
  | none => rfl
  | some pn =>
    obtain ⟨j, hparse', -⟩ := h.lid halias
    rw [hparse] at hparse'
    cases hparse'

theorem none_phone (h : AliasMap parse aliases) {lid pn : String} (halias : aliases lid = some pn) :
    aliases pn = none := by
  obtain ⟨j, hparse, hlid⟩ := h.phone halias
  exact h.none_of_not_lid hparse hlid

theorem none_me (h : AliasMap parse aliases) (hjids : JidSyntax parse) : aliases "me" = none := by
  cases hparse : parse "me" with
  | none => exact h.none_of_unparsed hparse
  | some j => exact h.none_of_not_lid hparse (hjids.me hparse)

/-- What was looked up has no alias. -/
theorem none_canonical (h : AliasMap parse aliases) (v : String) :
    aliases (canonicalHistoryJid (normalizeJid parse) aliases v) = none := by
  unfold canonicalHistoryJid
  cases halias : aliases (normalizeJid parse v) with
  | none => exact halias
  | some pn => exact h.none_phone halias

theorem none_sender (h : AliasMap parse aliases) (hjids : JidSyntax parse) (chatJid : String)
    (key : MessageKey) (wire : WebMessageInfo) :
    aliases (historySender (normalizeJid parse) aliases chatJid key wire) = none := by
  unfold historySender
  split
  · exact h.none_me hjids
  · exact h.none_canonical _

end AliasMap

/-! ## The first pass finds what the second looks up -/

/-- Two maps that agree on the LID of a value. -/
def AgreeAt (parse : String → Option ParsedJid) (aliases aliases' : String → Option String)
    (value : Option String) : Prop :=
  ∀ lid ∈ collectHistoryLidJid parse value, aliases' lid = aliases lid

theorem mem_collectHistoryLidJid {lid v : String} :
    lid ∈ collectHistoryLidJid parse (some v) ↔
      ∃ j, parse v = some j ∧ j.isLid = true ∧ j.nonAd = lid := by
  unfold collectHistoryLidJid
  rw [Option.mem_toList, Option.bind_some]
  constructor
  · intro h
    obtain ⟨j, hj, rfl⟩ := Option.map_eq_some_iff.mp h
    obtain ⟨hparse, hlid⟩ := Option.filter_eq_some_iff.mp hj
    exact ⟨j, hparse, hlid, rfl⟩
  · rintro ⟨j, hparse, hlid, rfl⟩
    exact Option.map_eq_some_iff.mpr ⟨j, Option.filter_eq_some_iff.mpr ⟨hparse, hlid⟩, rfl⟩

theorem AgreeAt.or {a b : Option String} (ha : AgreeAt parse aliases aliases' a)
    (hb : AgreeAt parse aliases aliases' b) : AgreeAt parse aliases aliases' (a.or b) := by
  cases a with
  | none => exact hb
  | some a => exact ha

section Agree

variable (hjids : JidSyntax parse) (h : AliasMap parse aliases) (h' : AliasMap parse aliases')

include hjids h h'

/-- A lookup reads the alias of the LID that the first pass collects for it. -/
theorem canonicalHistoryJid_congr {v : String} (hagree : AgreeAt parse aliases aliases' (some v)) :
    canonicalHistoryJid (normalizeJid parse) aliases' v
      = canonicalHistoryJid (normalizeJid parse) aliases v := by
  have hlookup : aliases' (normalizeJid parse v) = aliases (normalizeJid parse v) := by
    cases hparse : parse v with
    | none =>
      have hv : normalizeJid parse v = v := by rw [normalizeJid, hparse]; rfl
      rw [hv, h.none_of_unparsed hparse, h'.none_of_unparsed hparse]
    | some j =>
      have hv : normalizeJid parse v = j.nonAd := by rw [normalizeJid, hparse]; rfl
      rw [hv]
      cases hlid : j.isLid with
      | true => exact hagree _ (mem_collectHistoryLidJid.mpr ⟨j, hparse, hlid, rfl⟩)
      | false =>
        have hnonAd := hjids.reparse hparse
        rw [h.none_of_not_lid hnonAd hlid, h'.none_of_not_lid hnonAd hlid]
  unfold canonicalHistoryJid
  rw [hlookup]

omit h' in
/-- The JID of a chat is looked up once more in place of a missing participant. -/
theorem agreeAt_canonical {v : String} (hagree : AgreeAt parse aliases aliases' (some v)) :
    AgreeAt parse aliases aliases'
      (some (canonicalHistoryJid (normalizeJid parse) aliases v)) := by
  intro lid hlid
  obtain ⟨j, hparse, hisLid, rfl⟩ := mem_collectHistoryLidJid.mp hlid
  unfold canonicalHistoryJid at hparse
  cases halias : aliases (normalizeJid parse v) with
  | some pn =>
    obtain ⟨j', hparse', hlid'⟩ := h.phone halias
    rw [halias, Option.getD_some, hparse'] at hparse
    rw [← Option.some.inj hparse, hlid'] at hisLid
    cases hisLid
  | none =>
    rw [halias, Option.getD_none] at hparse
    cases hv : parse v with
    | none =>
      rw [normalizeJid, hv, Option.map_none, Option.getD_none, hv] at hparse
      cases hparse
    | some j' =>
      rw [normalizeJid, hv, Option.map_some, Option.getD_some, hjids.reparse hv] at hparse
      obtain rfl := Option.some.inj hparse
      exact hagree _ (mem_collectHistoryLidJid.mpr ⟨_, hv, hisLid, rfl⟩)

theorem map_canonicalHistoryJid_congr {v : Option String}
    (hagree : AgreeAt parse aliases aliases' v) :
    v.map (canonicalHistoryJid (normalizeJid parse) aliases')
      = v.map (canonicalHistoryJid (normalizeJid parse) aliases) := by
  cases v with
  | none => rfl
  | some v => exact congrArg some (canonicalHistoryJid_congr hjids h h' hagree)

theorem historySender_congr {chatJid : String} {key : MessageKey} {wire : WebMessageInfo}
    (hwire : AgreeAt parse aliases aliases' wire.participant)
    (hkey : AgreeAt parse aliases aliases' key.participant)
    (hchat : AgreeAt parse aliases aliases' (some chatJid)) :
    historySender (normalizeJid parse) aliases' chatJid key wire
      = historySender (normalizeJid parse) aliases chatJid key wire := by
  have hvalue : AgreeAt parse aliases aliases'
      (some ((wire.participant.or key.participant).getD chatJid)) := by
    have hor := AgreeAt.or hwire hkey
    cases hparticipant : wire.participant.or key.participant with
    | none => exact hchat
    | some participant => exact hparticipant ▸ hor
  unfold historySender
  rw [canonicalHistoryJid_congr hjids h h' hvalue]

end Agree

/-- Two maps that agree on the LIDs of a record. -/
structure RecordAgrees (parse : String → Option ParsedJid)
    (aliases aliases' : String → Option String) (record : HistoryRecord) : Prop where
  wire : AgreeAt parse aliases aliases' record.wire.participant
  key : ∀ key ∈ record.wire.key, AgreeAt parse aliases aliases' key.participant
  update : ∀ update ∈ record.pollUpdates, ∀ key ∈ update.key,
    AgreeAt parse aliases aliases' key.participant

theorem recordAgrees_of_lidJids {record : HistoryRecord}
    (hagree : ∀ lid ∈ record.lidJids parse, aliases' lid = aliases lid) :
    RecordAgrees parse aliases aliases' record := by
  unfold HistoryRecord.lidJids at hagree
  simp only [List.forall_mem_append] at hagree
  obtain ⟨⟨hwire, hkey⟩, hupdates⟩ := hagree
  refine ⟨hwire, ?_, ?_⟩
  · intro key hmem lid hlid
    rw [Option.mem_def.mp hmem] at hkey
    exact hkey lid (List.mem_append_right _ hlid)
  · intro update hupdate key hmem lid hlid
    refine hupdates lid (List.mem_flatMap.mpr ⟨update, hupdate, ?_⟩)
    rw [Option.mem_def.mp hmem]
    exact List.mem_append_right _ hlid

section Congr

variable (hjids : JidSyntax parse) (h : AliasMap parse aliases) (h' : AliasMap parse aliases')
  {record : HistoryRecord} (hrecord : RecordAgrees parse aliases aliases' record)
  {chatJid : String} (hchat : AgreeAt parse aliases aliases' (some chatJid))

include hjids h h' hrecord hchat

theorem event_congr : record.event (normalizeJid parse) aliases' chatJid
    = record.event (normalizeJid parse) aliases chatJid := by
  unfold HistoryEntry.event historyReaction
  cases hkey : record.wire.key with
  | none => rfl
  | some key =>
    have hsender := historySender_congr hjids h h' hrecord.wire (hrecord.key key hkey) hchat
    simp only [Option.bind_eq_bind, Option.bind_some, hsender]

theorem historyMessage_congr (chatName : String) :
    historyMessage (normalizeJid parse) aliases' chatJid chatName record.wire
      = historyMessage (normalizeJid parse) aliases chatJid chatName record.wire := by
  unfold historyMessage
  cases hkey : record.wire.key with
  | none => rfl
  | some key =>
    have hsender := historySender_congr hjids h h' hrecord.wire (hrecord.key key hkey) hchat
    simp only [Option.bind_eq_bind, Option.bind_some, hsender]

omit hchat in
theorem historyPollCreator_congr (ownPn : Option String) :
    historyPollCreator parse aliases' chatJid record.wire ownPn
      = historyPollCreator parse aliases chatJid record.wire ownPn := by
  unfold historyPollCreator
  cases hkey : record.wire.key with
  | none => rfl
  | some key =>
    have hkeyAgrees := hrecord.key key hkey
    rw [Option.bind_some, Option.bind_some,
      map_canonicalHistoryJid_congr hjids h h' (AgreeAt.or hkeyAgrees hrecord.wire),
      map_canonicalHistoryJid_congr hjids h h' (AgreeAt.or hrecord.wire hkeyAgrees)]

omit hchat in
theorem pollWrites_congr (hash : String → List UInt8) (ownPn : Option String) :
    record.pollWrites parse aliases' hash ownPn chatJid
      = record.pollWrites parse aliases hash ownPn chatJid := by
  have hvoter : ∀ update ∈ record.pollUpdates, ∀ key ∈ update.key,
      PollUpdate.voter parse aliases' chatJid key = PollUpdate.voter parse aliases chatJid key := by
    intro update hupdate key hkey
    unfold PollUpdate.voter
    rw [map_canonicalHistoryJid_congr hjids h h' (hrecord.update update hupdate key hkey)]
  unfold HistoryRecord.pollWrites
  rw [historyPollCreator_congr hjids h h' hrecord]
  split
  · congr 1
    refine List.filterMap_congr fun update hupdate => ?_
    unfold PollUpdate.write
    cases hkey : update.key with
    | none => rfl
    | some key =>
      simp only [Option.bind_eq_bind, Option.bind_some, hvoter update hupdate key hkey]
  · rfl

end Congr

section Thread

variable (hjids : JidSyntax parse) (h : AliasMap parse aliases) (h' : AliasMap parse aliases')
  {thread : HistoryThread} (hid : AgreeAt parse aliases aliases' (some thread.conversation.id))
  (hrecords : ∀ record ∈ thread.records, RecordAgrees parse aliases aliases' record)

include hjids h h' hid

theorem chatJid_congr : thread.conversation.chatJid (normalizeJid parse) aliases'
    = thread.conversation.chatJid (normalizeJid parse) aliases :=
  canonicalHistoryJid_congr hjids h h' hid

include hrecords

omit hid in
theorem timeline_congr {chatJid : String}
    (hchat : AgreeAt parse aliases aliases' (some chatJid)) :
    thread.timeline parse aliases' chatJid = thread.timeline parse aliases chatJid := by
  have hfilter : thread.records.filter (fun record =>
        (record.event (normalizeJid parse) aliases' chatJid).isNone)
      = thread.records.filter (fun record =>
        (record.event (normalizeJid parse) aliases chatJid).isNone) :=
    List.filter_congr fun record hrecord => by
      rw [event_congr hjids h h' (hrecords record hrecord) hchat]
  rw [HistoryThread.timeline, hfilter]
  rfl

/-- The header and the messages of a conversation. -/
theorem slice_congr (s : Store) {chatJid : String}
    (hchatJid : thread.conversation.chatJid (normalizeJid parse) aliases = chatJid)
    (hchat : AgreeAt parse aliases aliases' (some chatJid)) :
    (thread.timeline parse aliases chatJid).slice (normalizeJid parse) aliases' s
        = (thread.timeline parse aliases chatJid).slice (normalizeJid parse) aliases s ∧
      (thread.timeline parse aliases chatJid).chat (normalizeJid parse) aliases' s
        = (thread.timeline parse aliases chatJid).chat (normalizeJid parse) aliases s := by
  have hjid : (thread.timeline parse aliases chatJid).chatJid (normalizeJid parse) aliases
      = chatJid := hchatJid
  have hjid' : (thread.timeline parse aliases chatJid).chatJid (normalizeJid parse) aliases'
      = chatJid := (chatJid_congr hjids h h' hid).trans hchatJid
  have hname : (thread.timeline parse aliases chatJid).chatName (normalizeJid parse) aliases' s
      = (thread.timeline parse aliases chatJid).chatName (normalizeJid parse) aliases s := by
    unfold HistoryConversation.chatName
    rw [hjid, hjid']
  have hslice : (thread.timeline parse aliases chatJid).slice (normalizeJid parse) aliases' s
      = (thread.timeline parse aliases chatJid).slice (normalizeJid parse) aliases s := by
    unfold HistoryConversation.slice
    rw [hname, hjid, hjid']
    congr 1
    refine List.filterMap_congr fun wire hwire => ?_
    obtain ⟨record, hrecord, rfl⟩ := List.mem_map.mp hwire
    exact historyMessage_congr hjids h h' (hrecords record (List.mem_filter.mp hrecord).1) hchat _
  refine ⟨hslice, ?_⟩
  unfold HistoryConversation.chat
  rw [hslice, hname, hjid, hjid']

/-- Every LID that the second pass looks up is one that the first pass collects. -/
theorem writes_congr (hash : String → List UInt8) (ownPn : Option String) (s : Store) :
    thread.writes parse aliases' hash ownPn s = thread.writes parse aliases hash ownPn s := by
  have hchat : AgreeAt parse aliases aliases'
      (some (thread.conversation.chatJid (normalizeJid parse) aliases)) :=
    agreeAt_canonical hjids h hid
  obtain ⟨hslice, hheader⟩ := slice_congr hjids h h' hid hrecords s rfl hchat
  have hevents : thread.records.filterMap (fun record => record.event (normalizeJid parse) aliases'
        (thread.conversation.chatJid (normalizeJid parse) aliases))
      = thread.records.filterMap (fun record => record.event (normalizeJid parse) aliases
        (thread.conversation.chatJid (normalizeJid parse) aliases)) :=
    List.filterMap_congr fun record hrecord =>
      event_congr hjids h h' (hrecords record hrecord) hchat
  have hpolls : thread.records.flatMap (fun record => record.pollWrites parse aliases' hash ownPn
        (thread.conversation.chatJid (normalizeJid parse) aliases))
      = thread.records.flatMap (fun record => record.pollWrites parse aliases hash ownPn
        (thread.conversation.chatJid (normalizeJid parse) aliases)) :=
    List.flatMap_congr fun record hrecord =>
      pollWrites_congr hjids h h' (hrecords record hrecord) hash ownPn
  unfold HistoryThread.writes
  rw [chatJid_congr hjids h h' hid]
  dsimp only
  rw [timeline_congr hjids h h' hrecords hchat, hslice, hheader, hevents, hpolls]

end Thread

theorem agreeAt_of_historyLidJids {sync : HistorySync}
    (hagree : ∀ lid ∈ historyLidJids parse sync, aliases' lid = aliases lid)
    {thread : HistoryThread} (hthread : thread ∈ sync.threads) :
    AgreeAt parse aliases aliases' (some thread.conversation.id) ∧
      ∀ record ∈ thread.records, RecordAgrees parse aliases aliases' record := by
  have hlids (lid : String) (hlid : lid ∈ collectHistoryLidJid parse (some thread.conversation.id) ++
      thread.records.flatMap (·.lidJids parse)) : aliases' lid = aliases lid :=
    hagree lid (List.mem_flatMap.mpr ⟨thread, hthread, hlid⟩)
  refine ⟨fun lid hlid => hlids lid (List.mem_append_left _ hlid), fun record hrecord => ?_⟩
  exact recordAgrees_of_lidJids fun lid hlid =>
    hlids lid (List.mem_append_right _ (List.mem_flatMap.mpr ⟨record, hrecord, hlid⟩))

/-- The second pass reads the alias map only where the first one has collected a LID. -/
theorem ingestHistory_congr (hjids : JidSyntax parse) (h : AliasMap parse aliases)
    (h' : AliasMap parse aliases') {sync : HistorySync}
    (hagree : ∀ lid ∈ historyLidJids parse sync, aliases' lid = aliases lid)
    (hash : String → List UInt8) (ownPn : Option String) (plan : QueryPlan) (s : Store) :
    ingestHistory parse aliases' hash ownPn plan s sync
      = ingestHistory parse aliases hash ownPn plan s sync := by
  have hthreads (threads : List HistoryThread) : threads ⊆ sync.threads → ∀ s,
      ingestThreads parse aliases' hash ownPn plan s threads
        = ingestThreads parse aliases hash ownPn plan s threads := by
    induction threads with
    | nil => exact fun _ _ => rfl
    | cons thread threads ih =>
      intro hsub s
      obtain ⟨hid, hrecords⟩ := agreeAt_of_historyLidJids hagree (hsub List.mem_cons_self)
      unfold ingestThreads
      rw [writes_congr hjids h h' hid hrecords]
      dsimp only
      rw [ih fun _ hmem => hsub (List.mem_cons_of_mem _ hmem)]
  unfold ingestHistory
  rw [hthreads sync.threads (List.Subset.refl _)]

/-! ## What is written -/

/-- The identities in the rows of a write. -/
def HistoryWrite.jids : HistoryWrite → List String
  | reaction event => [event.chatJid, event.reactorJid]
  | conversation chat messages => chat.jid :: messages.flatMap fun m =>
      m.chatJid :: m.senderJid :: (m.quote.map (·.senderJid)).toList
  | pollSecret chatJid _ creatorJid _ => [chatJid, creatorJid]
  | pollVote chatJid _ voterJid _ _ _ => [chatJid, voterJid]
  | contactName jid name => if trim name = "" then [] else [jid]

/-- The quote that is stored with a message. -/
def HistoryRecord.storedQuote (record : HistoryRecord) : Option MessageQuote := do
  let key ← record.wire.key
  let _ ← key.id
  let body ← record.wire.message
  let _ ← body.text ""
  body.quote

/-- Nobody who is quoted in a message that is stored has an alias. -/
def HistoryThread.QuotesCanonical (parse : String → Option ParsedJid)
    (aliases : String → Option String) (thread : HistoryThread) : Prop :=
  let chatJid := thread.conversation.chatJid (normalizeJid parse) aliases
  (endsWith chatJid "@broadcast" || endsWith chatJid "@newsletter") = false →
    ∀ record ∈ thread.records, record.event (normalizeJid parse) aliases chatJid = none →
      ∀ quote ∈ record.storedQuote, aliases quote.senderJid = none

/-- The owner of a push name has no alias. -/
def HistoryPushName.Canonical (parse : String → Option ParsedJid)
    (aliases : String → Option String) (entry : HistoryPushName) : Prop :=
  ∀ jid ∈ entry.id, ∀ name ∈ entry.pushname, trim name ≠ "" →
    aliases (normalizeJid parse jid) = none

section Message

variable {chatJid chatName : String} {record : HistoryRecord} {m : Message}

theorem historyMessage_spec {aliases : String → Option String}
    (hm : historyMessage (normalizeJid parse) aliases chatJid chatName record.wire = some m) :
    m.chatJid = chatJid ∧ m.quote = record.storedQuote ∧ ∃ key, record.wire.key = some key ∧
      m.senderJid = historySender (normalizeJid parse) aliases chatJid key record.wire := by
  unfold historyMessage at hm
  simp only [Option.bind_eq_bind, Option.bind_eq_some_iff, Option.pure_def,
    Option.some.injEq] at hm
  obtain ⟨key, hkey, id, hid, body, hbody, text, htext, rfl⟩ := hm
  refine ⟨rfl, ?_, key, hkey, rfl⟩
  simp only [HistoryRecord.storedQuote, Option.bind_eq_bind, hkey, hid, hbody, htext,
    Option.bind_some]

theorem exists_historyMessage (parse : String → Option ParsedJid)
    (aliases : String → Option String) (chatJid chatName : String) {quote : MessageQuote}
    (hquote : record.storedQuote = some quote) :
    ∃ m, historyMessage (normalizeJid parse) aliases chatJid chatName record.wire = some m := by
  unfold HistoryRecord.storedQuote at hquote
  simp only [Option.bind_eq_bind, Option.bind_eq_some_iff] at hquote
  obtain ⟨key, hkey, id, hid, body, hbody, text, htext, -⟩ := hquote
  unfold historyMessage
  simp only [Option.bind_eq_bind, hkey, hid, hbody, htext, Option.bind_some]
  exact ⟨_, rfl⟩

theorem event_spec {event : ReactionRow}
    (hevent : record.event (normalizeJid parse) aliases chatJid = some event) :
    event.chatJid = chatJid ∧ ∃ key, event.reactorJid
      = historySender (normalizeJid parse) aliases chatJid key record.wire := by
  unfold HistoryEntry.event historyReaction at hevent
  simp only [Option.bind_eq_bind, Option.bind_eq_some_iff, Option.pure_def,
    Option.some.injEq] at hevent
  obtain ⟨reaction, -, key, -, target, -, id, -, rfl⟩ := hevent
  exact ⟨rfl, key, rfl⟩

end Message

theorem mem_slice_timeline {thread : HistoryThread} {chatJid : String}
    (hchatJid : thread.conversation.chatJid (normalizeJid parse) aliases = chatJid) {s : Store}
    {m : Message} :
    m ∈ (thread.timeline parse aliases chatJid).slice (normalizeJid parse) aliases s ↔
      ∃ record ∈ thread.records, record.event (normalizeJid parse) aliases chatJid = none ∧
        historyMessage (normalizeJid parse) aliases chatJid
          ((thread.timeline parse aliases chatJid).chatName (normalizeJid parse) aliases s)
          record.wire = some m := by
  have hjid : (thread.timeline parse aliases chatJid).chatJid (normalizeJid parse) aliases
      = chatJid := hchatJid
  unfold HistoryConversation.slice
  rw [List.mem_insertionSort, hjid, List.mem_filterMap]
  constructor
  · rintro ⟨wire, hwire, hm⟩
    obtain ⟨record, hrecord, rfl⟩ := List.mem_map.mp hwire
    obtain ⟨hrecord, hevent⟩ := List.mem_filter.mp hrecord
    exact ⟨record, hrecord, Option.isNone_iff_eq_none.mp hevent, hm⟩
  · rintro ⟨record, hrecord, hevent, hm⟩
    refine ⟨record.wire, List.mem_map.mpr ⟨record, List.mem_filter.mpr ⟨hrecord, ?_⟩, rfl⟩, hm⟩
    exact Option.isNone_iff_eq_none.mpr hevent

section Canonical

variable (hjids : JidSyntax parse) (h : AliasMap parse aliases) {ownPn : Option String}
  (hown : ∀ own ∈ ownPn, ∀ j, parse own = some j → j.isLid = false) (hash : String → List UInt8)

include h

theorem none_map_canonical {v : Option String} {jid : String}
    (hjid : v.map (canonicalHistoryJid (normalizeJid parse) aliases) = some jid) :
    aliases jid = none := by
  obtain ⟨v, -, rfl⟩ := Option.map_eq_some_iff.mp hjid
  exact h.none_canonical v

include hjids hown

omit hjids in
theorem none_creator {chatJid jid : String} {wire : WebMessageInfo} (hchat : aliases chatJid = none)
    (hjid : historyPollCreator parse aliases chatJid wire ownPn = some jid) :
    aliases jid = none := by
  unfold historyPollCreator at hjid
  obtain ⟨key, -, hjid⟩ := Option.bind_eq_some_iff.mp hjid
  split at hjid
  · rcases Option.or_eq_some_iff.mp hjid with hlooked | ⟨-, howned⟩
    · exact none_map_canonical h hlooked
    · cases hparse : parse jid with
      | none => exact h.none_of_unparsed hparse
      | some j => exact h.none_of_not_lid hparse (hown jid howned j hparse)
  · split at hjid
    · exact none_map_canonical h hjid
    · rw [← Option.some.inj hjid]
      exact hchat

/-- Votes and secrets are written under what was looked up. -/
theorem none_pollWrites {chatJid : String} (hchat : aliases chatJid = none) {record : HistoryRecord}
    {w : HistoryWrite} (hw : w ∈ record.pollWrites parse aliases hash ownPn chatJid) :
    ∀ jid ∈ w.jids, aliases jid = none := by
  unfold HistoryRecord.pollWrites at hw
  split at hw
  · rcases List.mem_append.mp hw with hsecret | hvote
    · split at hsecret
      · rename_i creatorJid secret hcreator hs
        rw [List.mem_singleton.mp hsecret]
        have hcanonical := none_creator h hown hchat hcreator
        simp only [HistoryWrite.jids, List.forall_mem_cons]
        exact ⟨hchat, hcanonical, nofun⟩
      · cases hsecret
    · obtain ⟨update, -, hupdate⟩ := List.mem_filterMap.mp hvote
      unfold PollUpdate.write at hupdate
      simp only [Option.bind_eq_bind, Option.bind_eq_some_iff, Option.pure_def,
        Option.some.injEq] at hupdate
      obtain ⟨key, -, hashes, -, selected, -, voterJid, hvoter, rfl⟩ := hupdate
      have hcanonical : aliases voterJid = none := by
        unfold PollUpdate.voter at hvoter
        split at hvoter
        · rw [← Option.some.inj hvoter]
          exact h.none_me hjids
        · split at hvoter
          · exact none_map_canonical h hvoter
          · rw [← Option.some.inj hvoter]
            exact hchat
      simp only [HistoryWrite.jids, List.forall_mem_cons]
      exact ⟨hchat, hcanonical, nofun⟩
  · cases hw

/-- What is written for a conversation is canonical exactly when the quotes in it are. -/
theorem canonical_writes_iff (thread : HistoryThread) (s : Store) :
    (∀ w ∈ thread.writes parse aliases hash ownPn s, ∀ jid ∈ w.jids, aliases jid = none) ↔
      thread.QuotesCanonical parse aliases := by
  have hchat : aliases (thread.conversation.chatJid (normalizeJid parse) aliases) = none :=
    h.none_canonical thread.conversation.id
  unfold HistoryThread.writes HistoryThread.QuotesCanonical
  generalize hchatJid : thread.conversation.chatJid (normalizeJid parse) aliases = chatJid at hchat ⊢
  dsimp only
  cases hskipped : endsWith chatJid "@broadcast" || endsWith chatJid "@newsletter" with
  | true =>
    rw [if_pos rfl]
    exact iff_of_true nofun nofun
  | false =>
    rw [if_neg Bool.false_ne_true]
    constructor
    · intro hwrites _ record hrecord hevent quote hquote
      obtain ⟨m, hm⟩ := exists_historyMessage parse aliases chatJid
        ((thread.timeline parse aliases chatJid).chatName (normalizeJid parse) aliases s) hquote
      have hslice : m ∈ (thread.timeline parse aliases chatJid).slice (normalizeJid parse) aliases s :=
        (mem_slice_timeline hchatJid).mpr ⟨record, hrecord, hevent, hm⟩
      have hwrite := hwrites _ (List.mem_append_left _
        (List.mem_append_right _ (List.mem_singleton_self _)))
      refine hwrite quote.senderJid (List.mem_cons_of_mem _ (List.mem_flatMap.mpr ⟨m, hslice, ?_⟩))
      rw [(historyMessage_spec hm).2.1, Option.mem_def.mp hquote]
      exact List.mem_cons_of_mem _ (List.mem_cons_of_mem _ List.mem_cons_self)
    · intro hquotes w hw
      rcases List.mem_append.mp hw with hw | hpoll
      · rcases List.mem_append.mp hw with hreaction | htimeline
        · obtain ⟨event, hevent, rfl⟩ := List.mem_map.mp hreaction
          obtain ⟨record, -, hevent⟩ := List.mem_filterMap.mp hevent
          obtain ⟨hjid, key, hreactor⟩ := event_spec hevent
          simp only [HistoryWrite.jids, List.forall_mem_cons, hjid, hreactor]
          exact ⟨hchat, h.none_sender hjids _ _ _, nofun⟩
        · rw [List.mem_singleton.mp htimeline]
          simp only [HistoryWrite.jids, List.forall_mem_cons]
          refine ⟨?_, fun jid hjid => ?_⟩
          · show aliases ((thread.timeline parse aliases chatJid).chatJid (normalizeJid parse)
              aliases) = none
            exact h.none_canonical _
          · obtain ⟨m, hm, hmem⟩ := List.mem_flatMap.mp hjid
            obtain ⟨record, hrecord, hevent, hmessage⟩ := (mem_slice_timeline hchatJid).mp hm
            obtain ⟨hmChat, hquote, key, -, hsender⟩ := historyMessage_spec hmessage
            rcases List.mem_cons.mp hmem with rfl | hmem
            · exact hmChat ▸ hchat
            rcases List.mem_cons.mp hmem with rfl | hmem
            · rw [hsender]
              exact h.none_sender hjids _ _ _
            · obtain ⟨quote, hq, rfl⟩ := Option.map_eq_some_iff.mp (Option.mem_toList.mp hmem)
              exact hquotes rfl record hrecord hevent quote (hquote ▸ hq)
      · obtain ⟨record, hrecord, hw⟩ := List.mem_flatMap.mp hpoll
        exact none_pollWrites hjids h hown hash hchat hw

end Canonical

theorem mem_writes_ingestThreads {hash : String → List UInt8} {ownPn : Option String}
    {plan : QueryPlan} {w : HistoryWrite} {threads : List HistoryThread} : ∀ {s},
    w ∈ (ingestThreads parse aliases hash ownPn plan s threads).2 →
      ∃ thread ∈ threads, ∃ s', w ∈ thread.writes parse aliases hash ownPn s' := by
  induction threads with
  | nil => exact nofun
  | cons thread threads ih =>
    intro s hw
    rcases List.mem_append.mp hw with hhere | hlater
    · exact ⟨thread, List.mem_cons_self, s, hhere⟩
    · obtain ⟨thread', hthread', s', hw'⟩ := ih hlater
      exact ⟨thread', List.mem_cons_of_mem _ hthread', s', hw'⟩

theorem exists_writes_ingestThreads {hash : String → List UInt8} {ownPn : Option String}
    {plan : QueryPlan} {thread : HistoryThread} {threads : List HistoryThread}
    (hthread : thread ∈ threads) : ∀ s, ∃ s', ∀ w ∈ thread.writes parse aliases hash ownPn s',
      w ∈ (ingestThreads parse aliases hash ownPn plan s threads).2 := by
  induction threads with
  | nil => cases hthread
  | cons first threads ih =>
    intro s
    rcases List.mem_cons.mp hthread with rfl | hlater
    · exact ⟨s, fun w hw => List.mem_append_left _ hw⟩
    · obtain ⟨s', hw⟩ := ih hlater (((first.writes parse aliases hash ownPn s)).foldl
        (HistoryWrite.apply plan) s)
      exact ⟨s', fun w hmem => List.mem_append_right _ (hw w hmem)⟩

theorem canonical_pushname_iff (entry : HistoryPushName) :
    (∀ w ∈ entry.write parse, ∀ jid ∈ w.jids, aliases jid = none) ↔
      entry.Canonical parse aliases := by
  unfold HistoryPushName.write HistoryPushName.Canonical
  cases entry.id with
  | none => exact iff_of_true nofun nofun
  | some jid =>
    cases entry.pushname with
    | none => exact iff_of_true nofun nofun
    | some name =>
      simp only [Option.bind_eq_bind, Option.bind_some, Option.pure_def, Option.mem_def,
        Option.some.injEq, forall_eq', HistoryWrite.jids]
      by_cases hname : trim name = ""
      · simp [hname]
      · simp [hname]

/-- All that is written of a history sync is canonical, and all LIDs that are looked up were
collected, exactly when nobody who is quoted and no owner of a push name has an alias. -/
theorem history_canonical_iff (hjids : JidSyntax parse) (h : AliasMap parse aliases)
    {ownPn : Option String}
    (hown : ∀ own ∈ ownPn, ∀ j, parse own = some j → j.isLid = false)
    (hash : String → List UInt8) (plan : QueryPlan) (sync : HistorySync) :
    ((∀ s, ∀ w ∈ (ingestHistory parse aliases hash ownPn plan s sync).2,
        ∀ jid ∈ w.jids, aliases jid = none) ∧
      ∀ aliases', AliasMap parse aliases' →
        (∀ lid ∈ historyLidJids parse sync, aliases' lid = aliases lid) →
        ∀ s, ingestHistory parse aliases' hash ownPn plan s sync
          = ingestHistory parse aliases hash ownPn plan s sync) ↔
      (∀ thread ∈ sync.threads, thread.QuotesCanonical parse aliases) ∧
        ∀ entry ∈ sync.pushnames, entry.Canonical parse aliases := by
  constructor
  · rintro ⟨hwrites, -⟩
    refine ⟨fun thread hthread => ?_, fun entry hentry => ?_⟩
    · obtain ⟨s', hmem⟩ : ∃ s', ∀ w ∈ thread.writes parse aliases hash ownPn s',
          w ∈ (ingestThreads parse aliases hash ownPn plan .empty sync.threads).2 :=
        exists_writes_ingestThreads hthread .empty
      exact (canonical_writes_iff hjids h hown hash thread s').mp fun w hw =>
        hwrites .empty w (List.mem_append_left _ (hmem w hw))
    · refine (canonical_pushname_iff entry).mp fun w hw => ?_
      exact hwrites .empty w (List.mem_append_right _ (List.mem_filterMap.mpr ⟨entry, hentry, hw⟩))
  · rintro ⟨hquotes, hnames⟩
    refine ⟨fun s w hw => ?_, fun aliases' h' hagree s =>
      ingestHistory_congr hjids h h' hagree hash ownPn plan s⟩
    rcases List.mem_append.mp hw with hthread | hname
    · obtain ⟨thread, hmem, s', hw'⟩ := mem_writes_ingestThreads hthread
      exact (canonical_writes_iff hjids h hown hash thread s').mpr (hquotes thread hmem) w hw'
    · obtain ⟨entry, hentry, hw'⟩ := List.mem_filterMap.mp hname
      exact (canonical_pushname_iff entry).mpr (hnames entry hentry) w hw'

/-! ## A sync with both -/

/-- JIDs of a LID and of phone numbers, each without a device. -/
def parseSample (v : String) : Option ParsedJid :=
  if v = "100@lid" then some ⟨v, true⟩
  else if v = "316@s.whatsapp.net" ∨ v = "317@s.whatsapp.net" then some ⟨v, false⟩
  else none

def sampleAliases (lid : String) : Option String :=
  if lid = "100@lid" then some "316@s.whatsapp.net" else none

theorem jidSyntax_parseSample : JidSyntax parseSample where
  reparse := by
    intro v j h
    unfold parseSample at h ⊢
    split_ifs at h with hlid hpn <;> obtain rfl := Option.some.inj h
    · exact if_pos hlid
    · exact (if_neg hlid).trans (if_pos hpn)
  me := by decide

theorem aliasMap_sampleAliases : AliasMap parseSample sampleAliases where
  lid := by
    intro lid pn h
    unfold sampleAliases at h
    split at h
    · rename_i hlid
      rw [hlid]
      exact ⟨_, rfl, rfl⟩
    · cases h
  phone := by
    intro lid pn h
    unfold sampleAliases at h
    split at h
    · rw [← Option.some.inj h]
      exact ⟨_, rfl, rfl⟩
    · cases h

/-- A message that quotes somebody under a LID. -/
def quotingBody : Body where
  textContent := some "Yes"
  caption := none
  mediaText := fun _ => none
  media := fun _ _ _ _ => none
  quote := some ⟨"Q", "100@lid", "100@lid", "Coming?"⟩

def quotingThread : HistoryThread where
  conversation := { id := "317@s.whatsapp.net", messages := [] }
  records := [{
    wire := {
      key := some ⟨some "A", none, none⟩
      message := some quotingBody
      messageTimestamp := some 1 }
    reaction := none }]

theorem history_canonical_iff_sample :
    ((∀ s, ∀ w ∈ (ingestHistory parseSample sampleAliases (fun _ => []) none QueryPlan.stable s
        ⟨[quotingThread], []⟩).2, ∀ jid ∈ w.jids, sampleAliases jid = none) ∧
      ∀ aliases', AliasMap parseSample aliases' →
        (∀ lid ∈ historyLidJids parseSample ⟨[quotingThread], []⟩,
          aliases' lid = sampleAliases lid) →
        ∀ s, ingestHistory parseSample aliases' (fun _ => []) none QueryPlan.stable s
            ⟨[quotingThread], []⟩
          = ingestHistory parseSample sampleAliases (fun _ => []) none QueryPlan.stable s
            ⟨[quotingThread], []⟩) ↔
      (∀ thread ∈ [quotingThread], thread.QuotesCanonical parseSample sampleAliases) ∧
        ∀ entry ∈ ([] : List HistoryPushName), entry.Canonical parseSample sampleAliases :=
  history_canonical_iff jidSyntax_parseSample aliasMap_sampleAliases (fun _ h => absurd h (by simp))
    _ _ ⟨[quotingThread], []⟩

/-- The quoted LID and the one of a push name are stored, although both have an alias. -/
theorem lids_stored :
    sampleAliases "100@lid" = some "316@s.whatsapp.net" ∧
      ((ingestHistory parseSample sampleAliases (fun _ => []) none QueryPlan.stable .empty
          ⟨[quotingThread], []⟩).1.messages.rows.map fun m => m.quote.map (·.senderJid))
        = [some "100@lid"] ∧
      ((ingestHistory parseSample sampleAliases (fun _ => []) none QueryPlan.stable .empty
          ⟨[], [⟨some "100@lid", some "Ada"⟩]⟩).1.contacts.rows.map (·.jid)) = ["100@lid"] := by
  decide +kernel

end OmarchyWhatsapp
