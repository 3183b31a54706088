import OmarchyWhatsapp.Database.Schema

/-!
# Message media and poll cards

`update_message_media_into` completes the media of a stored message, and
`apply_poll_vote` records a vote and rewrites the tallies cached in the poll's card.
Both end in `reconcile_poll_tallies`, which recomputes a card from `poll_votes`.
-/

namespace OmarchyWhatsapp

open Relational

variable (plan : QueryPlan)

/-- `ORDER BY timestamp DESC`; messages of one second come in any order. -/
def newestFirst (rows : List MessageRow) : List MessageRow :=
  plan.orderBy (fun a b => b.timestamp ≤ a.timestamp) rows

/-! ## Poll tallies -/

/-- The votes of a poll, `ORDER BY timestamp DESC, voter_jid`. -/
def Store.votesOf (s : Store) (chatJid messageId : String) : List PollVoteRow :=
  plan.orderBy
    (fun a b => decide (b.timestamp < a.timestamp) ||
      (decide (a.timestamp = b.timestamp) && decide (a.voterJid ≤ b.voterJid)))
    (s.pollVotes.rows.filter (fun v => v.chatJid = chatJid ∧ v.messageId = messageId))

/-- How often an option was selected. -/
def voteCount (votes : List PollVoteRow) (option : String) : ℕ :=
  (votes.map (fun v => v.selectedOptions.count option)).sum

/-- Who selected an option, each voter once. -/
def voterJids (votes : List PollVoteRow) (option : String) : List String :=
  votes.foldl (fun voters v =>
    if v.selectedOptions.contains option && !voters.contains v.voterJid
    then voters ++ [v.voterJid] else voters) []

/-- Whether the user's own vote selected an option. -/
def selectedByMe (votes : List PollVoteRow) (option : String) : Bool :=
  votes.any (fun v => v.fromMe && v.selectedOptions.contains option)

/-- How many voters selected anything. -/
def votersWithSelection (votes : List PollVoteRow) : ℕ :=
  votes.countP (fun v => !v.selectedOptions.isEmpty)

/-- `update_poll_tallies`: the card with its tallies replaced, and whether any changed. -/
def updatePollTallies (media : MessageMedia) (votes : List PollVoteRow) :
    MessageMedia × Bool :=
  match media with
  | .poll question options selectableCount totalVoters quiz correct endTimestamp =>
    let options' := options.map (fun o =>
      { o with votes := voteCount votes o.name, selectedByMe := selectedByMe votes o.name,
               voterJids := voterJids votes o.name })
    let total := votersWithSelection votes
    (.poll question options' selectableCount total quiz correct endTimestamp,
      totalVoters != total || options != options')
  | media => (media, false)

/-- `reconcile_poll_tallies`. -/
def reconcilePollTallies (s : Store) (chatJid messageId : String) (media : MessageMedia) :
    MessageMedia × Bool :=
  updatePollTallies media (s.votesOf plan chatJid messageId)

/-! ## Completing the media of a stored message -/

/-- `SELECT media_json FROM messages WHERE chat_jid = … AND id = …`, the first row. -/
def previousMedia (s : Store) (chatJid messageId : String) : Option MessageMedia :=
  (plan.scan (s.messagesById chatJid messageId)).head?.bind (·.media)

/-- What a replayed payload takes over from the stored one: a location its thumbnail and
duration where the replay has none, a poll the tallies of its options. -/
def mergeMedia (media : MessageMedia) (previous : Option MessageMedia) : MessageMedia :=
  match media, previous with
  | .location lat lon acc name address thumb live updated duration,
      some (.location _ _ _ _ _ prevThumb _ _ prevDuration) =>
    .location lat lon acc name address (thumb.or prevThumb) live updated
      (if duration = 0 then prevDuration else duration)
  | .poll question options selectable _ quiz correct endTimestamp,
      some (.poll _ prevOptions _ prevTotal _ _ _) =>
    .poll question
      (options.map (fun o => match prevOptions.find? (fun p => p.name = o.name) with
        | some p => { o with votes := p.votes, selectedByMe := p.selectedByMe }
        | none => o))
      selectable prevTotal quiz correct endTimestamp
  | media, _ => media

/-- A video that plays as a GIF relabels the `[Video]` placeholder of earlier builds. -/
def isGif : MessageMedia → Bool
  | .video _ _ _ _ _ _ _ gifPlayback => gifPlayback
  | _ => false

/-- The payload `update_message_media_into` stores. -/
def storedMedia (s : Store) (chatJid messageId : String) (media : MessageMedia) :
    MessageMedia :=
  (reconcilePollTallies plan s chatJid messageId
    (mergeMedia media (previousMedia plan s chatJid messageId))).1

/-- The rows that `update_message_media_into` rewrites. -/
def mediaOutdated (chatJid messageId : String) (media : MessageMedia) (m : MessageRow) : Bool :=
  m.chatJid = chatJid && m.id = messageId &&
    (m.media != some media || (isGif media && m.text = "[Video]"))

/-- The placeholder text after the update. -/
def relabel (media : MessageMedia) (text : String) : String :=
  if isGif media && text = "[Video]" then "[GIF]" else text

/-- `update_message_media_into`, and whether a row changed. -/
def updateMessageMediaInto (s : Store) (chatJid messageId : String) (media : MessageMedia) :
    Store × Bool :=
  let merged := storedMedia plan s chatJid messageId media
  let messages := s.messages.updateWhere (mediaOutdated chatJid messageId merged)
    (fun m => { m with media := some merged, text := relabel merged m.text })
  -- the preview follows when this is the message it shows
  let shown := (newestFirst plan (messages.rows.filter (fun m => m.chatJid = chatJid))).head?
  let chats := s.chats.updateWhere
    (fun c => c.jid = chatJid && (isGif merged && c.lastMessage = "[Video]") &&
      shown.any (fun m => m.id = messageId))
    (fun c => { c with lastMessage := "[GIF]" })
  ({ s with messages, chats }, s.messages.rows.any (mediaOutdated chatJid messageId merged))

/-- `store_media_download`. -/
def storeMediaDownload (s : Store) (chatJid messageId : String) (payload : List UInt8) :
    Store × Bool :=
  let stale := fun m : MessageRow =>
    m.chatJid = chatJid && m.id = messageId && m.mediaDownload != some payload
  ({ s with
      messages := s.messages.updateWhere stale (fun m => { m with mediaDownload := some payload }) },
    s.messages.rows.any stale)

/-- `rewrite_media_paths`. The replacement of path texts inside `media_json` is the
parameter `rewrite`. -/
def rewriteMediaPaths (s : Store) (rewrite : MessageMedia → MessageMedia) : Store :=
  { s with
      messages := s.messages.updateWhere (fun _ => true)
        (fun m => { m with media := m.media.map rewrite }) }

/-! ## Votes -/

theorem key_mergePollSecret (old new : PollSecretRow) :
    PollSecretRow.key
        { old with creatorJid := new.creatorJid, messageSecret := new.messageSecret }
      = old.key := rfl

/-- `store_poll_secret`. -/
def storePollSecret (s : Store) (chatJid messageId creatorJid : String)
    (messageSecret : List UInt8) : Except String Store :=
  if messageSecret.length ≠ 32 then
    .error s!"poll message secret must be exactly 32 bytes, got {messageSecret.length}"
  else
    .ok { s with
      pollSecrets := s.pollSecrets.upsert ⟨chatJid, messageId, creatorJid, messageSecret⟩
        (fun old new =>
          { old with creatorJid := new.creatorJid, messageSecret := new.messageSecret })
        key_mergePollSecret }

/-- The options of a vote that the poll has, each once, in the order of the vote. -/
def normalizedSelection (options : List PollOption) (selected : List String) : List String :=
  selected.foldl (fun normalized option =>
    if options.any (fun o => o.name = option) && !normalized.contains option
    then normalized ++ [option] else normalized) []

/-- The newest vote of a voter wins; a replay of it changes nothing. -/
def mergeVote (old new : PollVoteRow) : PollVoteRow :=
  if old.timestamp ≤ new.timestamp then
    { old with selectedOptions := new.selectedOptions, fromMe := new.fromMe,
               timestamp := new.timestamp }
  else old

theorem key_mergeVote (old new : PollVoteRow) : (mergeVote old new).key = old.key := by
  unfold mergeVote
  split <;> rfl

/-- `apply_poll_vote`. -/
def applyPollVote (s : Store) (chatJid messageId voterJid : String)
    (selectedOptions : List String) (fromMe : Bool) (timestamp : ℤ) :
    Except String (Store × Bool) :=
  match previousMedia plan s chatJid messageId with
  | some (.poll question options selectable total quiz correct endTimestamp) =>
    let normalized := normalizedSelection options selectedOptions
    if normalized.length > selectable then
      .error "poll vote selects more options than the poll allows"
    else
      let vote : PollVoteRow := ⟨chatJid, messageId, voterJid, normalized, fromMe, timestamp⟩
      let pollVotes := s.pollVotes.upsert vote mergeVote key_mergeVote
      let changed := match s.pollVotes.find? vote.key with
        | none => true
        | some old => mergeVote old vote != old
      let tallied := reconcilePollTallies plan { s with pollVotes } chatJid messageId
        (.poll question options selectable total quiz correct endTimestamp)
      let messages := if tallied.2 then
          s.messages.updateWhere (fun m => m.chatJid = chatJid ∧ m.id = messageId)
            (fun m => { m with media := some tallied.1 })
        else s.messages
      .ok ({ s with pollVotes, messages }, changed || tallied.2)
  | _ => .ok (s, false)

end OmarchyWhatsapp
