import Mathlib.Data.Finset.Card
import Mathlib.Data.Finset.Dedup
import OmarchyWhatsapp.Database.Operations

/-!
# Poll tallies

`poll_votes` keeps the newest accepted vote of each voter, and the card of a poll is the
tally of these rows. First the tally of a list of votes in which nobody votes twice, then
the rows that a sequence of votes leaves, then the two together.
-/

namespace OmarchyWhatsapp

open Relational

/-! ## The newest ballot of each voter -/

/-- The newest ballot of a voter. -/
def newestBallot (ballots : List PollVoteRow) (voterJid : String) : Option PollVoteRow :=
  latest (·.timestamp) (ballots.filter (fun b => b.voterJid = voterJid))

/-- The voters whose newest ballot has the property. -/
def votersWhere (ballots : List PollVoteRow) (p : PollVoteRow → Bool) : Finset String :=
  (ballots.map (·.voterJid)).toFinset.filter (fun voter => (newestBallot ballots voter).any p)

/-- `votes` holds the newest ballot of each voter and nothing else. -/
structure Standing (votes ballots : List PollVoteRow) : Prop where
  voters : (votes.map (·.voterJid)).Nodup
  newest : ∀ v, v ∈ votes ↔ newestBallot ballots v.voterJid = some v

theorem mem_newestBallot {ballots : List PollVoteRow} {voter : String} {b : PollVoteRow}
    (h : newestBallot ballots voter = some b) : b ∈ ballots ∧ b.voterJid = voter := by
  have hmem := List.mem_filter.mp (latest_mem _ h)
  exact ⟨hmem.1, of_decide_eq_true hmem.2⟩

theorem newestBallot_concat (ballots : List PollVoteRow) (b : PollVoteRow) (voter : String) :
    newestBallot (ballots ++ [b]) voter =
      if b.voterJid = voter then some ((newestBallot ballots voter).elim b
        (fun old => if old.timestamp ≤ b.timestamp then b else old))
      else newestBallot ballots voter := by
  have hlatest : latest (·.timestamp) (ballots.filter (fun b => b.voterJid = voter))
      = newestBallot ballots voter := rfl
  rw [newestBallot.eq_1 (ballots ++ [b]), List.filter_append, List.filter_singleton]
  by_cases h : b.voterJid = voter
  · rw [decide_eq_true h, cond_true, latest_concat, hlatest, if_pos h]
    rcases newestBallot ballots voter with _ | old
    · rfl
    · dsimp only [Option.elim_some]
      split <;> rfl
  · rw [decide_eq_false h, cond_false, List.append_nil, if_neg h, hlatest]

/-- Where no voter has two ballots of one time, their order is irrelevant. -/
theorem newestBallot_perm {ballots ballots' : List PollVoteRow} (h : ballots.Perm ballots')
    (hdistinct : ∀ b ∈ ballots, ∀ b' ∈ ballots, b.voterJid = b'.voterJid →
      b.timestamp = b'.timestamp → b = b') (voter : String) :
    newestBallot ballots voter = newestBallot ballots' voter := by
  refine latest_perm _ (h.filter _) fun b hb b' hb' ht => ?_
  rw [List.mem_filter, decide_eq_true_eq] at hb hb'
  exact hdistinct b hb.1 b' hb'.1 (hb.2.trans hb'.2.symm) ht

namespace Standing

variable {votes ballots : List PollVoteRow}

theorem toFinset_voters (h : Standing votes ballots) (p : PollVoteRow → Bool) :
    ((votes.filter p).map (·.voterJid)).toFinset = votersWhere ballots p := by
  ext voter
  rw [List.mem_toFinset, List.mem_map, votersWhere, Finset.mem_filter, List.mem_toFinset,
    List.mem_map, Option.any_eq_true]
  constructor
  · rintro ⟨v, hv, rfl⟩
    obtain ⟨hv, hp⟩ := List.mem_filter.mp hv
    have hnewest := (h.newest v).mp hv
    exact ⟨⟨v, (mem_newestBallot hnewest).1, rfl⟩, v, hnewest, hp⟩
  · rintro ⟨-, v, hnewest, hp⟩
    have hvoter := (mem_newestBallot hnewest).2
    exact ⟨v, List.mem_filter.mpr ⟨(h.newest v).mpr (by rw [hvoter]; exact hnewest), hp⟩, hvoter⟩

theorem length_filter (h : Standing votes ballots) (p : PollVoteRow → Bool) :
    (votes.filter p).length = (votersWhere ballots p).card := by
  have hnodup : ((votes.filter p).map (·.voterJid)).Nodup :=
    (List.filter_sublist.map _).nodup h.voters
  rw [← h.toFinset_voters p, List.toFinset_card_of_nodup hnodup, List.length_map]

end Standing

/-! ## The tally of a list of votes -/

section Tally

variable {votes : List PollVoteRow}

/-- With one vote for each voter, everyone who selected the option is listed once. -/
theorem voterJids_eq (h : (votes.map (·.voterJid)).Nodup) (option : String) :
    voterJids votes option
      = (votes.filter (fun v => v.selectedOptions.contains option)).map (·.voterJid) := by
  induction votes using List.reverseRecOn with
  | nil => rfl
  | append_singleton votes v ih =>
    rw [List.map_append, List.nodup_append] at h
    have hfresh : v.voterJid ∉ voterJids votes option := by
      rw [ih h.1]
      intro hmem
      obtain ⟨v', hv', heq⟩ := List.mem_map.mp hmem
      exact h.2.2 _ (List.mem_map_of_mem (List.mem_of_mem_filter hv')) _ (by simp) heq
    have hfold : voterJids (votes ++ [v]) option
        = if v.selectedOptions.contains option && !(voterJids votes option).contains v.voterJid
          then voterJids votes option ++ [v.voterJid] else voterJids votes option := by
      rw [voterJids, List.foldl_append]
      rfl
    rw [hfold, List.filter_append, List.map_append, ← ih h.1, List.filter_singleton]
    cases v.selectedOptions.contains option with
    | false => simp
    | true => simp [hfresh]

/-- With no option twice in a vote, the count is the number of votes that have it. -/
theorem voteCount_eq (h : ∀ v ∈ votes, v.selectedOptions.Nodup) (option : String) :
    voteCount votes option
      = (votes.filter (fun v => v.selectedOptions.contains option)).length := by
  induction votes with
  | nil => rfl
  | cons v votes ih =>
    rw [List.forall_mem_cons] at h
    have hone := h.1.count (a := option)
    rw [voteCount, List.map_cons, List.sum_cons, hone, ← voteCount, ih h.2, List.filter_cons]
    by_cases hmem : option ∈ v.selectedOptions
    · simp [hmem, Nat.add_comm]
    · simp [hmem]

theorem votersWithSelection_eq (votes : List PollVoteRow) :
    votersWithSelection votes = (votes.filter (fun v => !v.selectedOptions.isEmpty)).length :=
  List.countP_eq_length_filter

end Tally

/-! ## The card -/

/-- A poll card with its tallies replaced. -/
def retally (media : MessageMedia) (votes : List PollVoteRow) : MessageMedia :=
  (updatePollTallies media votes).1

/-- The card has the tallies of these votes. -/
def Tallied (media : MessageMedia) (votes : List PollVoteRow) : Prop :=
  (updatePollTallies media votes).2 = false

instance (media : MessageMedia) (votes : List PollVoteRow) : Decidable (Tallied media votes) :=
  inferInstanceAs (Decidable (_ = false))

theorem tallied_iff {media : MessageMedia} {votes : List PollVoteRow} :
    Tallied media votes ↔ retally media votes = media := by
  unfold Tallied retally
  cases media with
  | poll question options selectable total quiz correct endTimestamp =>
    simp only [updatePollTallies, Bool.or_eq_false_iff, bne_eq_false_iff_eq,
      MessageMedia.poll.injEq, true_and, and_true]
    exact ⟨fun h => ⟨h.2.symm, h.1.symm⟩, fun h => ⟨h.2.symm, h.1.symm⟩⟩
  | _ => exact iff_of_true rfl rfl

theorem retally_retally (media : MessageMedia) (votes votes' : List PollVoteRow) :
    retally (retally media votes) votes' = retally media votes' := by
  cases media <;> simp [retally, updatePollTallies, Function.comp_def]

theorem tallied_retally (media : MessageMedia) (votes : List PollVoteRow) :
    Tallied (retally media votes) votes :=
  tallied_iff.mpr (retally_retally media votes votes)

/-! ## Selections -/

/-- A selection is normalized by the names of the options alone. -/
theorem normalizedSelection_congr {options options' : List PollOption}
    (h : options'.map (·.name) = options.map (·.name)) (selected : List String) :
    normalizedSelection options' selected = normalizedSelection options selected := by
  have hany : ∀ name, options'.any (fun o => o.name = name)
      = options.any (fun o => o.name = name) := by
    intro name
    have hmap : ∀ os : List PollOption, os.any (fun o => o.name = name)
        = (os.map (·.name)).any (fun n => n = name) := fun os => by rw [List.any_map]; rfl
    rw [hmap, hmap, h]
  simp only [normalizedSelection, hany]

theorem nodup_normalizedSelection (options : List PollOption) (selected : List String) :
    (normalizedSelection options selected).Nodup := by
  induction selected using List.reverseRecOn with
  | nil => exact List.nodup_nil
  | append_singleton selected option ih =>
    have hfold : normalizedSelection options (selected ++ [option])
        = if options.any (fun o => o.name = option) &&
            !(normalizedSelection options selected).contains option
          then normalizedSelection options selected ++ [option]
          else normalizedSelection options selected := by
      rw [normalizedSelection, List.foldl_append]
      rfl
    rw [hfold]
    split
    · rename_i h
      have hfresh : option ∉ normalizedSelection options selected := by
        simpa using (Bool.and_eq_true_iff.mp h).2
      exact List.nodup_append.mpr ⟨ih, List.nodup_singleton _, fun a ha b hb heq =>
        hfresh (List.mem_singleton.mp hb ▸ heq ▸ ha)⟩
    · exact ih

/-! ## Casting a vote -/

/-- The arguments of `apply_poll_vote` for a given poll. -/
structure PollVote where
  voterJid : String
  selectedOptions : List String
  fromMe : Bool
  timestamp : ℤ
deriving DecidableEq, Repr

/-- The poll allows as many options as the vote selects. -/
def PollVote.accepted (options : List PollOption) (selectable : ℕ) (vote : PollVote) : Bool :=
  decide ((normalizedSelection options vote.selectedOptions).length ≤ selectable)

/-- The row of an accepted vote. -/
def PollVote.ballot (chatJid messageId : String) (options : List PollOption)
    (vote : PollVote) : PollVoteRow :=
  ⟨chatJid, messageId, vote.voterJid, normalizedSelection options vote.selectedOptions,
    vote.fromMe, vote.timestamp⟩

/-- The votes recorded for a poll. -/
def Store.pollRows (s : Store) (chatJid messageId : String) : List PollVoteRow :=
  s.pollVotes.rows.filter (fun v => v.chatJid = chatJid ∧ v.messageId = messageId)

section Casting

variable (plan : QueryPlan) (chatJid messageId : String)

def castVote (s : Store) (vote : PollVote) : Store :=
  s.apply plan (.applyPollVote chatJid messageId vote.voterJid vote.selectedOptions vote.fromMe
    vote.timestamp)

def castVotes (s : Store) (votes : List PollVote) : Store :=
  votes.foldl (castVote plan chatJid messageId) s

variable {s s' : Store}

theorem mem_votesOf {v : PollVoteRow} : v ∈ s.votesOf plan chatJid messageId ↔
    s.pollVotes.find? (chatJid, messageId, v.voterJid) = some v := by
  rw [Store.votesOf, plan.mem_orderBy, List.mem_filter, Table.find?_eq_some, decide_eq_true_eq]
  simp [PollVoteRow.key]

theorem nodup_votesOf : (s.votesOf plan chatJid messageId).Nodup :=
  (plan.perm _ _).nodup_iff.mpr (List.filter_sublist.nodup s.pollVotes.nodup.of_map)

theorem nodup_voters_votesOf :
    ((s.votesOf plan chatJid messageId).map (·.voterJid)).Nodup := by
  refine List.Nodup.map_on (fun a ha b hb h => ?_) (nodup_votesOf plan chatJid messageId)
  rw [mem_votesOf] at ha hb
  rw [h, hb] at ha
  exact (Option.some.inj ha).symm

/-- Votes of distinct voters, newest first, are in an order that leaves no choice. -/
theorem orderBy_votes_congr {l l' : List PollVoteRow} (hperm : l.Perm l')
    (hvoters : ∀ a ∈ l, ∀ b ∈ l, a.voterJid = b.voterJid → a = b) :
    plan.orderBy (fun a b : PollVoteRow => decide (b.timestamp < a.timestamp) ||
        (decide (a.timestamp = b.timestamp) && decide (a.voterJid ≤ b.voterJid))) l
      = plan.orderBy (fun a b : PollVoteRow => decide (b.timestamp < a.timestamp) ||
        (decide (a.timestamp = b.timestamp) && decide (a.voterJid ≤ b.voterJid))) l' := by
  have hsorted := fun l => plan.sorted (fun a b : PollVoteRow =>
    decide (b.timestamp < a.timestamp) ||
      (decide (a.timestamp = b.timestamp) && decide (a.voterJid ≤ b.voterJid)))
    (fun a b => by
      rcases lt_trichotomy a.timestamp b.timestamp with ht | ht | ht
      · simp [ht]
      · simpa [ht] using String.le_total a.voterJid b.voterJid
      · simp [ht])
    (fun a b c hab hbc => by
      simp only [Bool.or_eq_true, Bool.and_eq_true, decide_eq_true_eq] at hab hbc ⊢
      rcases hab with hab | ⟨hab, hva⟩ <;> rcases hbc with hbc | ⟨hbc, hvb⟩
      · exact Or.inl (hbc.trans hab)
      · exact Or.inl (hbc ▸ hab)
      · exact Or.inl (hab ▸ hbc)
      · exact Or.inr ⟨hab.trans hbc, String.le_trans hva hvb⟩) l
  refine (((plan.perm _ l).trans hperm).trans (plan.perm _ l').symm).eq_of_pairwise
    (fun a b ha hb hab hba => ?_) (hsorted l) (hsorted l')
  simp only [Bool.or_eq_true, Bool.and_eq_true, decide_eq_true_eq] at hab hba
  -- both orders at once leave only the voter to tell two votes apart
  have hvoter : a.voterJid = b.voterJid := by
    rcases hab with hab | ⟨ht, hab⟩ <;> rcases hba with hba | ⟨ht', hba⟩
    · omega
    · omega
    · omega
    · exact String.le_antisymm hab hba
  exact hvoters a (plan.mem_orderBy.mp ha) b (hperm.mem_iff.mpr (plan.mem_orderBy.mp hb)) hvoter

/-- The votes of a poll depend on its rows alone. -/
theorem votesOf_congr (h : ∀ voter, s.pollVotes.find? (chatJid, messageId, voter)
      = s'.pollVotes.find? (chatJid, messageId, voter)) :
    s.votesOf plan chatJid messageId = s'.votesOf plan chatJid messageId := by
  have hmem : ∀ (s : Store) (v : PollVoteRow), v ∈ s.pollVotes.rows.filter
      (fun v => v.chatJid = chatJid ∧ v.messageId = messageId) ↔
        s.pollVotes.find? (chatJid, messageId, v.voterJid) = some v := fun s v =>
    plan.mem_orderBy.symm.trans (mem_votesOf plan chatJid messageId)
  refine orderBy_votes_congr plan ?_ fun a ha b hb hvoter => ?_
  · refine (List.perm_ext_iff_of_nodup (List.filter_sublist.nodup s.pollVotes.nodup.of_map)
      (List.filter_sublist.nodup s'.pollVotes.nodup.of_map)).mpr fun v => ?_
    rw [hmem, hmem, h]
  · rw [hmem] at ha hb
    rw [hvoter, hb] at ha
    exact (Option.some_inj.mp ha).symm

theorem previousMedia_of_media {media : MessageMedia} (hne : s.messagesById chatJid messageId ≠ [])
    (h : ∀ m ∈ s.messagesById chatJid messageId, m.media = some media) :
    previousMedia plan s chatJid messageId = some media := by
  rcases hhead : (plan.scan (s.messagesById chatJid messageId)).head? with _ | m
  · exact absurd (plan.head?_scan_eq_none.mp hhead) hne
  · rw [previousMedia, hhead, Option.bind_some]
    exact h m (plan.mem_of_head?_scan hhead)

theorem messagesById_ne_nil {media : MessageMedia}
    (h : previousMedia plan s chatJid messageId = some media) :
    s.messagesById chatJid messageId ≠ [] := by
  intro hnil
  rw [previousMedia, hnil, QueryPlan.scan_nil] at h
  cases h

variable {question : String} {options : List PollOption} {selectable total : ℕ} {quiz : Bool}
  {correct : Option ℕ} {endTimestamp : ℤ}

/-- A refused vote is an error and changes nothing. -/
theorem castVote_refused
    (hcard : previousMedia plan s chatJid messageId
      = some (.poll question options selectable total quiz correct endTimestamp))
    {vote : PollVote} (hrefused : vote.accepted options selectable = false) :
    applyPollVote plan s chatJid messageId vote.voterJid vote.selectedOptions vote.fromMe
        vote.timestamp = .error "poll vote selects more options than the poll allows" ∧
      castVote plan chatJid messageId s vote = s := by
  have hlong : (normalizedSelection options vote.selectedOptions).length > selectable := by
    simpa [PollVote.accepted] using hrefused
  have herror : applyPollVote plan s chatJid messageId vote.voterJid vote.selectedOptions
      vote.fromMe vote.timestamp
      = .error "poll vote selects more options than the poll allows" := by
    rw [applyPollVote, hcard]
    exact if_pos hlong
  refine ⟨herror, ?_⟩
  rw [castVote, Store.apply, herror]
  rfl

/-- An accepted vote meets the row of its voter, and the card takes the tallies of the
votes that are then recorded. -/
theorem castVote_accepted
    (hcard : previousMedia plan s chatJid messageId
      = some (.poll question options selectable total quiz correct endTimestamp))
    {vote : PollVote} (haccepted : vote.accepted options selectable = true) :
    (castVote plan chatJid messageId s vote).pollVotes
        = s.pollVotes.upsert (vote.ballot chatJid messageId options) mergeVote key_mergeVote ∧
      previousMedia plan (castVote plan chatJid messageId s vote) chatJid messageId
        = some (retally (.poll question options selectable total quiz correct endTimestamp)
          ((castVote plan chatJid messageId s vote).votesOf plan chatJid messageId)) := by
  have hshort : ¬(normalizedSelection options vote.selectedOptions).length > selectable := by
    simpa [PollVote.accepted] using haccepted
  set card : MessageMedia := .poll question options selectable total quiz correct endTimestamp
    with hcarddef
  set pollVotes := s.pollVotes.upsert (vote.ballot chatJid messageId options) mergeVote
    key_mergeVote with hpollVotes
  set tallied := updatePollTallies card
    (({ s with pollVotes } : Store).votesOf plan chatJid messageId) with htallied
  have hstore : castVote plan chatJid messageId s vote = { s with
      pollVotes
      messages := if tallied.2 then
          s.messages.updateWhere (fun m => m.chatJid = chatJid ∧ m.id = messageId)
            (fun m => { m with media := some tallied.1 })
        else s.messages } := by
    rw [castVote, Store.apply, applyPollVote, hcard]
    simp only [hcarddef, if_neg hshort]
    rfl
  have hvotes : (castVote plan chatJid messageId s vote).votesOf plan chatJid messageId
      = ({ s with pollVotes } : Store).votesOf plan chatJid messageId := by
    rw [hstore]
    rfl
  rw [hvotes]
  refine ⟨by rw [hstore], ?_⟩
  change _ = some tallied.1
  have hne := messagesById_ne_nil plan chatJid messageId hcard
  cases hchanged : tallied.2 with
  | false =>
    have hsame : tallied.1 = card := tallied_iff.mp hchanged
    rw [hsame, ← hcard, hstore, hchanged]
    rfl
  | true =>
    have hrows : (castVote plan chatJid messageId s vote).messagesById chatJid messageId
        = (s.messagesById chatJid messageId).map
          (fun m => { m with media := some tallied.1 }) := by
      rw [hstore, hchanged]
      exact s.messages.filter_updateWhere (fun m => m.chatJid = chatJid ∧ m.id = messageId)
        (fun m => { m with media := some tallied.1 }) (fun _ => rfl) (fun _ => rfl)
    refine previousMedia_of_media plan chatJid messageId (by simpa [hrows] using hne) ?_
    rw [hrows]
    intro m hm
    obtain ⟨m₀, -, rfl⟩ := List.mem_map.mp hm
    rfl

/-! ## A sequence of votes -/

/-- The ballots of a poll: the votes recorded before, then the accepted ones. -/
def pollBallots (s : Store) (chatJid messageId : String) (options : List PollOption)
    (selectable : ℕ) (votes : List PollVote) : List PollVoteRow :=
  s.pollRows chatJid messageId ++
    (votes.filter (·.accepted options selectable)).map (·.ballot chatJid messageId options)

theorem newestBallot_pollRows (s : Store) (voter : String) :
    newestBallot (s.pollRows chatJid messageId) voter
      = s.pollVotes.find? (chatJid, messageId, voter) := by
  have hfilter : (s.pollRows chatJid messageId).filter (fun v => v.voterJid = voter)
      = s.pollVotes.rows.filter (fun v => v.key = (chatJid, messageId, voter)) := by
    rw [Store.pollRows, List.filter_filter]
    refine List.filter_congr fun v _ => ?_
    rw [Bool.eq_iff_iff]
    simp [PollVoteRow.key, and_comm, and_assoc]
  rw [newestBallot, hfilter, Table.filter_key]
  cases s.pollVotes.find? (chatJid, messageId, voter) <;> rfl

/-- The rows and the card after any votes: each voter's row is the newest of the ballots,
and once a vote was accepted the card has their tallies. -/
theorem castVotes_spec
    (hcard : previousMedia plan s chatJid messageId
      = some (.poll question options selectable total quiz correct endTimestamp))
    (votes : List PollVote) :
    (∀ voter, (castVotes plan chatJid messageId s votes).pollVotes.find?
        (chatJid, messageId, voter)
      = newestBallot (pollBallots s chatJid messageId options selectable votes) voter) ∧
    if votes.any (·.accepted options selectable) then
      previousMedia plan (castVotes plan chatJid messageId s votes) chatJid messageId
        = some (retally (.poll question options selectable total quiz correct endTimestamp)
          ((castVotes plan chatJid messageId s votes).votesOf plan chatJid messageId))
    else castVotes plan chatJid messageId s votes = s := by
  set card : MessageMedia := .poll question options selectable total quiz correct endTimestamp
    with hcarddef
  induction votes using List.reverseRecOn with
  | nil =>
    refine ⟨fun voter => ?_, rfl⟩
    rw [pollBallots, List.filter_nil, List.map_nil, List.append_nil, newestBallot_pollRows]
    rfl
  | append_singleton votes vote ih =>
    obtain ⟨hrows, hlast⟩ := ih
    set last := castVotes plan chatJid messageId s votes with hlastdef
    have hstep : castVotes plan chatJid messageId s (votes ++ [vote])
        = castVote plan chatJid messageId last vote := by
      rw [castVotes, List.foldl_append]
      rfl
    -- the card at this point has the options of the poll, whatever its tallies
    obtain ⟨options', total', hcard', hnames, hretally⟩ : ∃ options' total',
        previousMedia plan last chatJid messageId
          = some (.poll question options' selectable total' quiz correct endTimestamp) ∧
        options'.map (·.name) = options.map (·.name) ∧
        ∀ votes, retally (.poll question options' selectable total' quiz correct endTimestamp)
          votes = retally card votes := by
      split at hlast
      · refine ⟨_, _, hlast, ?_, fun votes => retally_retally card _ votes⟩
        simp [Function.comp_def]
      · exact ⟨options, total, hlast ▸ hcard, rfl, fun _ => rfl⟩
    have haccepts : vote.accepted options' selectable = vote.accepted options selectable := by
      rw [PollVote.accepted, normalizedSelection_congr hnames, PollVote.accepted]
    have hballot : vote.ballot chatJid messageId options'
        = vote.ballot chatJid messageId options := by
      rw [PollVote.ballot, normalizedSelection_congr hnames, PollVote.ballot]
    rw [hstep, pollBallots, List.filter_append, List.map_append, ← List.append_assoc,
      ← pollBallots, List.any_append]
    cases hvote : vote.accepted options selectable with
    | false =>
      rw [(castVote_refused plan chatJid messageId hcard' (haccepts.trans hvote)).2]
      simp only [List.filter_cons, hvote, Bool.false_eq_true, if_false, List.filter_nil,
        List.map_nil, List.append_nil, List.any_cons, List.any_nil, Bool.or_false]
      exact ⟨hrows, hlast⟩
    | true =>
      obtain ⟨hupsert, hnew⟩ :=
        castVote_accepted plan chatJid messageId hcard' (haccepts.trans hvote)
      simp only [List.filter_cons, hvote, if_true, List.filter_nil, List.map_cons,
        List.map_nil, List.any_cons, Bool.true_or, Bool.or_true]
      refine ⟨fun voter => ?_, hnew.trans (congrArg some (hretally _))⟩
      rw [hupsert, hballot, Table.find?_upsert, newestBallot_concat, hrows]
      set ballot := vote.ballot chatJid messageId options
      have hkey : ballot.key = (chatJid, messageId, ballot.voterJid) := rfl
      by_cases hv : ballot.voterJid = voter
      · rw [if_pos (by rw [hkey, hv]), if_pos hv]
        congr 1
        rcases hold : newestBallot (pollBallots s chatJid messageId options selectable votes)
          voter with _ | old
        · rfl
        · rw [Option.elim_some, Option.elim_some, mergeVote]
          split
          · -- the two have the same key, and the rest is the new vote's
            have hold' := Table.key_of_find? ((hrows voter).trans hold)
            rw [← hv, ← hkey] at hold'
            simp only [PollVoteRow.key, Prod.mk.injEq] at hold'
            cases hb : ballot
            rw [hb] at hold'
            simp only [hold']
          · rfl
      · rw [if_neg (by simpa [hkey, eq_comm] using hv), if_neg hv]

/-- After any votes the rows of the poll are the newest ballots. -/
theorem standing_castVotes
    (hcard : previousMedia plan s chatJid messageId
      = some (.poll question options selectable total quiz correct endTimestamp))
    (votes : List PollVote) :
    Standing ((castVotes plan chatJid messageId s votes).votesOf plan chatJid messageId)
      (pollBallots s chatJid messageId options selectable votes) where
  voters := nodup_voters_votesOf plan chatJid messageId
  newest v := by
    rw [mem_votesOf, (castVotes_spec plan chatJid messageId hcard votes).1]

theorem nodup_selection_of_ballot (hprior : ∀ v ∈ s.pollRows chatJid messageId,
      v.selectedOptions.Nodup) {votes : List PollVote} {b : PollVoteRow}
    (hb : b ∈ pollBallots s chatJid messageId options selectable votes) :
    b.selectedOptions.Nodup := by
  rcases List.mem_append.mp hb with hb | hb
  · exact hprior b hb
  · obtain ⟨vote, -, rfl⟩ := List.mem_map.mp hb
    exact nodup_normalizedSelection options vote.selectedOptions

/-- The tallies of standing votes are the fold of the newest ballots. -/
theorem Standing.tallies {votes ballots : List PollVoteRow} (h : Standing votes ballots)
    (hnodup : ∀ b ∈ ballots, b.selectedOptions.Nodup) {me : String}
    (hme : ∀ b ∈ ballots, b.fromMe = true ↔ b.voterJid = me) (option : String) :
    voteCount votes option = (voterJids votes option).length ∧
      (voterJids votes option).Nodup ∧
      (voterJids votes option).toFinset
        = votersWhere ballots (·.selectedOptions.contains option) ∧
      voteCount votes option
        = (votersWhere ballots (·.selectedOptions.contains option)).card ∧
      (selectedByMe votes option = true ↔
        ∃ b ∈ newestBallot ballots me, option ∈ b.selectedOptions) := by
  have hmem : ∀ v ∈ votes, v ∈ ballots := fun v hv =>
    (mem_newestBallot ((h.newest v).mp hv)).1
  rw [voterJids_eq h.voters, voteCount_eq fun v hv => hnodup v (hmem v hv)]
  refine ⟨(List.length_map _).symm, (List.filter_sublist.map _).nodup h.voters,
    h.toFinset_voters _, h.length_filter _, ?_⟩
  simp only [selectedByMe, List.any_eq_true, Bool.and_eq_true, List.contains_iff_mem]
  constructor
  · rintro ⟨v, hv, hown, hoption⟩
    have hvoter := (hme v (hmem v hv)).mp hown
    exact ⟨v, hvoter ▸ (h.newest v).mp hv, hoption⟩
  · rintro ⟨b, hb, hoption⟩
    obtain ⟨hb', hvoter⟩ := mem_newestBallot hb
    exact ⟨b, (h.newest b).mpr (hvoter ▸ hb), (hme b hb').mpr hvoter, hoption⟩

/-- A poll's tally is the fold of the newest accepted votes: after any sequence of votes
the counts, the voters, the own selection and the number of voters are those of each
voter's newest ballot; a vote over the limit is an error and changes nothing; and every
order of the same votes ends with the same card. -/
theorem pollCard_castVotes
    (hcard : previousMedia plan s chatJid messageId
      = some (.poll question options selectable total quiz correct endTimestamp))
    (hprior : ∀ v ∈ s.pollRows chatJid messageId, v.selectedOptions.Nodup)
    (votes : List PollVote)
    (htallied : (∃ vote ∈ votes, vote.accepted options selectable = true) ∨
      Tallied (.poll question options selectable total quiz correct endTimestamp)
        (s.votesOf plan chatJid messageId))
    (me : String)
    (hme : ∀ b ∈ pollBallots s chatJid messageId options selectable votes,
      b.fromMe = true ↔ b.voterJid = me)
    (hdistinct : ∀ b ∈ pollBallots s chatJid messageId options selectable votes,
      ∀ b' ∈ pollBallots s chatJid messageId options selectable votes,
        b.voterJid = b'.voterJid → b.timestamp = b'.timestamp → b = b') :
    let ballots := pollBallots s chatJid messageId options selectable votes
    let last := castVotes plan chatJid messageId s votes
    (∃ options' total', previousMedia plan last chatJid messageId
        = some (.poll question options' selectable total' quiz correct endTimestamp) ∧
      options'.map (·.name) = options.map (·.name) ∧
      (∀ o ∈ options', o.votes = o.voterJids.length ∧ o.voterJids.Nodup ∧
        o.voterJids.toFinset = votersWhere ballots (·.selectedOptions.contains o.name) ∧
        o.votes = (votersWhere ballots (·.selectedOptions.contains o.name)).card ∧
        (o.selectedByMe = true ↔ ∃ b ∈ newestBallot ballots me, o.name ∈ b.selectedOptions)) ∧
      total' = (votersWhere ballots (fun b => !b.selectedOptions.isEmpty)).card) ∧
    (∀ vote : PollVote, vote.accepted options selectable = false →
      applyPollVote plan last chatJid messageId vote.voterJid vote.selectedOptions vote.fromMe
          vote.timestamp = .error "poll vote selects more options than the poll allows" ∧
        castVote plan chatJid messageId last vote = last) ∧
    ∀ votes' : List PollVote, votes'.Perm votes →
      previousMedia plan (castVotes plan chatJid messageId s votes') chatJid messageId
        = previousMedia plan last chatJid messageId := by
  intro ballots last
  -- whatever the order, the card ends with the tallies of the rows
  have hends : ∀ votes' : List PollVote, votes'.Perm votes →
      previousMedia plan (castVotes plan chatJid messageId s votes') chatJid messageId
        = some (retally (.poll question options selectable total quiz correct endTimestamp)
          ((castVotes plan chatJid messageId s votes').votesOf plan chatJid messageId)) := by
    intro votes' hperm
    have hspec := (castVotes_spec plan chatJid messageId hcard votes').2
    split at hspec
    · exact hspec
    · rename_i hnone
      rw [hspec, hcard]
      rcases htallied with ⟨vote, hvote, haccepted⟩ | htallied
      · exact absurd (List.any_eq_true.mpr ⟨vote, hperm.mem_iff.mpr hvote, haccepted⟩) hnone
      · rw [tallied_iff.mp htallied]
  have hstanding := standing_castVotes plan chatJid messageId hcard votes
  have hlast := hends votes (List.Perm.refl votes)
  have hnodup : ∀ b ∈ ballots, b.selectedOptions.Nodup := fun b hb =>
    nodup_selection_of_ballot chatJid messageId hprior hb
  refine ⟨⟨_, _, hlast, by simp [Function.comp_def], fun o ho => ?_, ?_⟩,
    fun vote hrefused => ?_, fun votes' hperm => ?_⟩
  · obtain ⟨o, -, rfl⟩ := List.mem_map.mp ho
    exact hstanding.tallies hnodup hme o.name
  · rw [votersWithSelection_eq]
    exact hstanding.length_filter _
  · have hnames : (options.map (fun o : PollOption =>
        { o with
          votes := voteCount (last.votesOf plan chatJid messageId) o.name
          selectedByMe := selectedByMe (last.votesOf plan chatJid messageId) o.name
          voterJids := voterJids (last.votesOf plan chatJid messageId) o.name })).map (·.name)
        = options.map (·.name) := by simp [Function.comp_def]
    refine castVote_refused plan chatJid messageId hlast ?_
    rw [PollVote.accepted, normalizedSelection_congr hnames]
    exact hrefused
  · rw [hends votes' hperm, hlast]
    refine congrArg (fun v => some (retally _ v)) (votesOf_congr plan _ _ fun voter => ?_)
    rw [(castVotes_spec plan chatJid messageId hcard votes').1,
      (castVotes_spec plan chatJid messageId hcard votes).1]
    refine (newestBallot_perm ?_ hdistinct voter).symm
    exact ((hperm.symm.filter _).map _).append_left _

end Casting

/-- A vote that is changed later, the own vote and a vote over the limit. -/
theorem pollCard_castVotes_changed_vote :
    let poll : MessageRow :=
      { chatJid := "1", id := "a", senderJid := "2", senderName := "Ann", text := "When?",
        timestamp := 5, fromMe := false,
        media := some (.poll "When?" [{ name := "Mon" }, { name := "Tue" }] 1 0 false none 0) }
    let s : Store := { messages := ⟨[poll], by decide⟩ }
    let first : PollVote := ⟨"2", ["Mon", "Wed"], false, 10⟩
    let changed : PollVote := ⟨"2", ["Tue"], false, 20⟩
    let own : PollVote := ⟨"me", ["Tue", "Tue"], true, 15⟩
    previousMedia .stable (castVotes .stable "1" "a" s [changed, own, first]) "1" "a"
        = previousMedia .stable (castVotes .stable "1" "a" s [first, changed, own]) "1" "a" ∧
      castVote .stable "1" "a" (castVotes .stable "1" "a" s [first, changed, own])
        ⟨"3", ["Mon", "Tue"], false, 30⟩ = castVotes .stable "1" "a" s [first, changed, own] := by
  intro poll s first changed own
  have h := pollCard_castVotes .stable "1" "a" (s := s) rfl (by decide)
    [first, changed, own] (Or.inl ⟨first, by decide, by decide⟩) "me" (by decide) (by decide)
  exact ⟨h.2.2 [changed, own, first] (by decide), (h.2.1 _ (by decide)).2⟩

end OmarchyWhatsapp
