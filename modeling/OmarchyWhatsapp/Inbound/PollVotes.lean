import OmarchyWhatsapp.Inbound.HistoryIngest
import OmarchyWhatsapp.Text.Hex
import OmarchyWhatsapp.Text.Trim

/-!
# The options of a vote

A vote has the hashes of the options that were chosen, as the poll creation has their names.
`poll_media` stores the names trimmed, without the blank ones, and `option_names_for_hashes` looks
for stored names with these hashes, for live votes and for those of a history sync.
-/

namespace OmarchyWhatsapp

open Relational Text

/-- `PollCreationMessage`. -/
structure PollCreation where
  name : Option String
  /-- The names of the options. -/
  options : List (Option String)
  selectableOptionsCount : Option ℕ
  /-- The name of the correct answer, where there is one. -/
  correctAnswer : Option (Option String)
  endTime : Option ℤ
  quiz : Bool

/-- The names that are stored of the options. -/
def storedOptionNames (options : List (Option String)) : List String :=
  options.filterMap (·.bind nonempty)

/-- `poll_media`. -/
def pollMedia (poll : PollCreation) : Option MessageMedia :=
  let names := storedOptionNames poll.options
  if names.length < 2 then none
  else
    let correctOptionIndex := poll.correctAnswer.bind fun correct => correct.bind fun name =>
      (names.findIdx? (· = name)).filter (· < 2 ^ 32)
    let endTimestamp := poll.endTime.getD 0
    let maximumSelectable := min names.length (2 ^ 32 - 1)
    let selectableCount := match poll.selectableOptionsCount with
      | some 0 => maximumSelectable
      | none => 1
      | some count => max 1 (min count maximumSelectable)
    some (.poll ((poll.name.bind nonempty).getD "Poll") (names.map fun name => { name })
      selectableCount 0 poll.quiz correctOptionIndex
      (if endTimestamp > 10000000000 then endTimestamp / 1000 else endTimestamp))

/-- The names of the options of a card. -/
def MessageMedia.optionNames : MessageMedia → List String
  | .poll _ options _ _ _ _ _ => options.map (·.name)
  | _ => []

structure StoredPoll where
  creatorJid : String
  messageSecret : List UInt8
  options : List String
  selectableCount : ℕ
  endTimestamp : ℤ
deriving DecidableEq, Repr

/-- `poll_for_voting`. -/
def pollForVoting (plan : QueryPlan) (s : Store) (chatJid messageId : String) :
    Option StoredPoll :=
  (s.pollSecrets.find? (chatJid, messageId)).bind fun secret =>
    match previousMedia plan s chatJid messageId with
    | some (.poll _ options selectableCount _ _ _ endTimestamp) =>
      some ⟨secret.creatorJid, secret.messageSecret, options.map (·.name), selectableCount,
        endTimestamp⟩
    | _ => none

/-! ## A poll with a choice -/

/-- Of two filters, one below the other, that keep as many elements. -/
theorem filter_eq_filter_of_imp {α : Type} {p q : α → Bool} {l : List α}
    (h : ∀ a ∈ l, p a = true → q a = true) (hsize : (l.filter q).length = (l.filter p).length) :
    l.filter p = l.filter q := by
  have hsub : l.filter p = (l.filter q).filter p := by
    rw [List.filter_filter]
    refine List.filter_congr fun a ha => ?_
    cases hp : p a with
    | false => rfl
    | true => rw [h a ha hp]; rfl
  have hsublist : (l.filter p).Sublist (l.filter q) := by
    rw [hsub]
    exact List.filter_sublist
  exact hsublist.eq_of_length hsize.symm

/-- The options of a poll, and which of them a voter has chosen. -/
abbrev MarkedOptions := List (Option String × Bool)

namespace MarkedOptions

def options (marked : MarkedOptions) : List (Option String) := marked.map (·.1)

/-- The stored name of an option, unless it is blank. -/
def storedName (o : Option String × Bool) : Option String := o.1.bind nonempty

/-- The chosen names, as the voter's device hashes them. -/
def wireNames (marked : MarkedOptions) : List String :=
  (marked.filter (·.2)).map (·.1.getD "")

/-- The stored names of the chosen options. -/
def chosenNames (marked : MarkedOptions) : List String :=
  (marked.filter (·.2)).filterMap storedName

/-- The stored name of an option has the hash of a chosen one. -/
def found (marked : MarkedOptions) (o : Option String × Bool) : Bool :=
  (storedName o).any marked.wireNames.contains

/-- An option is chosen exactly if its stored name is the wire name of a chosen option. -/
def HashedAsStored (marked : MarkedOptions) : Prop :=
  ∀ o ∈ marked, o.2 = true ↔ ∃ name ∈ storedName o, name ∈ marked.wireNames

theorem found_iff {marked : MarkedOptions} {o : Option String × Bool} :
    marked.found o = true ↔ ∃ name ∈ storedName o, name ∈ marked.wireNames := by
  rw [found, Option.any_eq_true]
  simp only [List.contains_iff_mem, Option.mem_def]

/-- The stored names that are found, option by option. -/
theorem filter_storedOptionNames (marked : MarkedOptions) :
    (storedOptionNames marked.options).filter (fun name => marked.wireNames.contains name)
      = (marked.filter marked.found).filterMap storedName := by
  rw [storedOptionNames, options, List.filterMap_map, List.filter_filterMap, List.filterMap_filter]
  refine List.filterMap_congr fun o _ => ?_
  show (storedName o).filter _ = if (storedName o).any _ = true then storedName o else none
  cases storedName o with
  | none => rfl
  | some name => rw [Option.filter_some, Option.any_some]

/-- Options that are found are stored. -/
theorem length_found (marked : MarkedOptions) :
    ((marked.filter marked.found).filterMap storedName).length
      = (marked.filter marked.found).length := by
  refine List.filterMap_length_eq_length.mpr fun o ho => ?_
  obtain ⟨name, hname, -⟩ := found_iff.mp (List.mem_filter.mp ho).2
  exact Option.isSome_of_mem hname

/-- Where as many options are found as are chosen, under the same names, they are the same. -/
theorem hashedAsStored_of_found {marked : MarkedOptions}
    (hsize : (marked.filter marked.found).length = (marked.filter (·.2)).length)
    (hnames : (marked.filter marked.found).filterMap storedName = marked.chosenNames) :
    marked.HashedAsStored := by
  -- no chosen option is blank, and all of their names are found
  have hstored : ∀ o ∈ marked.filter (·.2), (storedName o).isSome = true := by
    refine List.filterMap_length_eq_length.mp ?_
    rw [← chosenNames, ← hnames, length_found, hsize]
  have hchosen : ∀ o ∈ marked, o.2 = true → marked.found o = true := by
    intro o ho hmark
    have hmem := List.mem_filter.mpr ⟨ho, hmark⟩
    obtain ⟨name, hname⟩ := Option.isSome_iff_exists.mp (hstored o hmem)
    have hchosenname : name ∈ marked.chosenNames := List.mem_filterMap.mpr ⟨o, hmem, hname⟩
    rw [← hnames] at hchosenname
    obtain ⟨o', ho', hname'⟩ := List.mem_filterMap.mp hchosenname
    obtain ⟨name', hname'', hwire⟩ := found_iff.mp (List.mem_filter.mp ho').2
    rw [Option.mem_def, hname'] at hname''
    exact found_iff.mpr ⟨name, hname, Option.some.inj hname'' ▸ hwire⟩
  intro o ho
  rw [← found_iff]
  refine ⟨hchosen o ho, fun hfound => ?_⟩
  have hmem := List.mem_filter.mpr ⟨ho, hfound⟩
  rw [← filter_eq_filter_of_imp hchosen hsize] at hmem
  exact (List.mem_filter.mp hmem).2

end MarkedOptions

/-! ## Stored names -/

/-- A card has the stored names of its poll. -/
theorem optionNames_pollMedia {poll : PollCreation} {card : MessageMedia}
    (h : pollMedia poll = some card) : card.optionNames = storedOptionNames poll.options := by
  unfold pollMedia at h
  dsimp only at h
  split at h
  · cases h
  · rw [← Option.some.inj h, MessageMedia.optionNames, List.map_map]
    exact List.map_id _

theorem optionNames_updatePollTallies (media : MessageMedia) (votes : List PollVoteRow) :
    (updatePollTallies media votes).1.optionNames = media.optionNames := by
  cases media with
  | poll question options selectable total quiz correct endTimestamp =>
    show (options.map _).map _ = _
    rw [List.map_map]
    rfl
  | _ => rfl

/-- The tallies that a stored card takes over leave the names. -/
theorem optionNames_mergeMedia (media : MessageMedia) (previous : Option MessageMedia) :
    (mergeMedia media previous).optionNames = media.optionNames := by
  unfold mergeMedia
  split
  · rfl
  · show (List.map _ _).map _ = _
    rw [List.map_map]
    refine List.map_congr_left fun o _ => ?_
    rw [Function.comp_apply]
    split <;> rfl
  · rfl

theorem optionNames_storedMedia (plan : QueryPlan) (s : Store) (chatJid messageId : String)
    (media : MessageMedia) :
    (storedMedia plan s chatJid messageId media).optionNames = media.optionNames := by
  unfold storedMedia reconcilePollTallies
  rw [optionNames_updatePollTallies, optionNames_mergeMedia]

theorem options_pollForVoting {plan : QueryPlan} {s : Store} {chatJid messageId : String}
    {stored : StoredPoll} (h : pollForVoting plan s chatJid messageId = some stored) :
    ∃ card, previousMedia plan s chatJid messageId = some card ∧
      stored.options = card.optionNames := by
  obtain ⟨secret, -, hcard⟩ := Option.bind_eq_some_iff.mp h
  split at hcard
  · next question options selectable total quiz correct endTimestamp hmedia =>
    exact ⟨_, hmedia, by rw [← Option.some.inj hcard]; rfl⟩
  · cases hcard

/-! ## Names for hashes -/

section Decode

variable {hash : String → List UInt8} {marked : MarkedOptions} {hashes : List (List UInt8)}

/-- The stored names that have a hash of the vote. -/
theorem filter_hashes (hinj : Function.Injective hash)
    (hhashes : hashes.Perm (marked.wireNames.map hash)) (names : List String) :
    names.filter (fun name => hashes.contains (hash name))
      = names.filter (fun name => marked.wireNames.contains name) := by
  refine List.filter_congr fun name _ => ?_
  rw [Bool.eq_iff_iff, List.contains_iff_mem, List.contains_iff_mem, hhashes.mem_iff,
    List.mem_map]
  constructor
  · rintro ⟨name', hmem, heq⟩
    exact hinj heq ▸ hmem
  · exact fun hmem => ⟨name, hmem, rfl⟩

/-- The hashes of a choice lead to its stored names exactly if the choice is hashed as it is
stored. -/
theorem optionNamesForHashes_eq_some_iff (hinj : Function.Injective hash)
    (hhashes : hashes.Perm (marked.wireNames.map hash)) :
    optionNamesForHashes hash (storedOptionNames marked.options) hashes
      = some marked.chosenNames ↔ marked.HashedAsStored := by
  have hcount : hashes.length = (marked.filter (·.2)).length := by
    rw [hhashes.length_eq, List.length_map, MarkedOptions.wireNames, List.length_map]
  unfold optionNamesForHashes
  dsimp only
  rw [filter_hashes hinj hhashes, marked.filter_storedOptionNames, marked.length_found, hcount]
  constructor
  · intro h
    split at h
    · next hsize => exact MarkedOptions.hashedAsStored_of_found hsize (Option.some.inj h)
    · cases h
  · intro h
    have hsame : marked.filter marked.found = marked.filter (·.2) := by
      refine List.filter_congr fun o ho => ?_
      rw [Bool.eq_iff_iff, MarkedOptions.found_iff, h o ho]
    rw [hsame, if_pos rfl]
    rfl

end Decode

/-- What the database makes of the card of a poll: a redelivered card takes over tallies, and votes
are tallied. -/
inductive CardOf (poll : PollCreation) : MessageMedia → Prop where
  | written {card : MessageMedia} (h : pollMedia poll = some card) : CardOf poll card
  | merged {card : MessageMedia} (h : CardOf poll card) (previous : Option MessageMedia) :
    CardOf poll (mergeMedia card previous)
  | tallied {card : MessageMedia} (h : CardOf poll card) (votes : List PollVoteRow) :
    CardOf poll (updatePollTallies card votes).1

theorem CardOf.optionNames {poll : PollCreation} {card : MessageMedia} (h : CardOf poll card) :
    card.optionNames = storedOptionNames poll.options := by
  induction h with
  | written h => exact optionNames_pollMedia h
  | merged _ previous ih => rw [optionNames_mergeMedia, ih]
  | tallied _ votes ih => rw [optionNames_updatePollTallies, ih]

/-- A vote is read as what was chosen, from a history sync and live, exactly if an option is chosen
whenever its stored name is the wire name of a chosen one, and only then. -/
theorem votesDecode_iff {hash : String → List UInt8} (hinj : Function.Injective hash)
    {poll : PollCreation} {marked : MarkedOptions} (hoptions : poll.options = marked.options)
    {hashes : List (List UInt8)} (hhashes : hashes.Perm (marked.wireNames.map hash)) :
    (∀ card, pollMedia poll = some card →
      (optionNamesForHashes hash card.optionNames hashes = some marked.chosenNames ↔
        marked.HashedAsStored)) ∧
    ∀ (plan : QueryPlan) (s : Store) (chatJid messageId : String) (card : MessageMedia)
      (stored : StoredPoll), CardOf poll card →
      previousMedia plan s chatJid messageId = some card →
      pollForVoting plan s chatJid messageId = some stored →
      (optionNamesForHashes hash stored.options hashes = some marked.chosenNames ↔
        marked.HashedAsStored) := by
  refine ⟨fun card hcard => ?_, fun plan s chatJid messageId card stored hcard hmedia hstored => ?_⟩
  · rw [optionNames_pollMedia hcard, hoptions]
    exact optionNamesForHashes_eq_some_iff hinj hhashes
  · obtain ⟨card', hcard', hnames⟩ := options_pollForVoting hstored
    rw [hmedia] at hcard'
    rw [hnames, ← Option.some.inj hcard', hcard.optionNames, hoptions]
    exact optionNamesForHashes_eq_some_iff hinj hhashes

/-! ## Soup and salad -/

/-- The SHA-256 digests of some names. -/
def digests : List (String × List UInt8) :=
  [("Soup", [0xEE, 0x12, 0x7F, 0x46, 0xDA, 0x9C, 0x60, 0x53, 0x95, 0x7E, 0xD1, 0x1D, 0xC5, 0x6D,
    0xA7, 0x08, 0x3C, 0xA5, 0x2D, 0x0D, 0x47, 0x9D, 0xF6, 0x7A, 0x3D, 0xDA, 0x2F, 0xFF, 0xC7, 0xBD, 0x4B, 0xD5]),
   ("Soup ", [0x34, 0x80, 0x75, 0xBB, 0xE2, 0xD1, 0xE9, 0x2D, 0xCD, 0x8E, 0xA6, 0x46, 0xB3, 0x62,
    0xD2, 0x14, 0x79, 0x25, 0x1B, 0x9C, 0xC4, 0x6E, 0xEE, 0xFC, 0x2B, 0x3E, 0x74, 0xB8, 0x86, 0x45, 0x43, 0xC4]),
   ("Salad", [0xE2, 0x09, 0xD0, 0x5D, 0xBA, 0x21, 0x81, 0xF6, 0x61, 0x63, 0xD6, 0xE7, 0x12, 0xAB,
    0xF2, 0xC1, 0x6E, 0xC4, 0x66, 0x07, 0x39, 0x4B, 0xAC, 0xF8, 0x29, 0xF4, 0x98, 0xAD, 0xDA, 0x33, 0x66, 0x01])]

/-- A hash without collisions that is SHA-256 on these names. -/
def pollHash (name : String) : List UInt8 :=
  ((digests.find? (·.1 = name)).map (·.2)).getD (name.toUTF8.toList ++ List.replicate 33 0)

theorem pollHash_injective : Function.Injective pollHash := by
  have hdigests : ∀ x ∈ digests, ∀ y ∈ digests, x.2 = y.2 → x.1 = y.1 := by decide +kernel
  have hshort : ∀ x ∈ digests, x.2.length = 32 := by decide +kernel
  have hlong (name : String) : 33 ≤ (name.toUTF8.toList ++ List.replicate 33 (0 : UInt8)).length := by
    rw [List.length_append, List.length_replicate]
    omega
  have hfound {name : String} {x : String × List UInt8}
      (h : digests.find? (·.1 = name) = some x) : x ∈ digests ∧ x.1 = name :=
    ⟨List.mem_of_find?_eq_some h, by simpa using List.find?_some h⟩
  intro a b h
  unfold pollHash at h
  cases ha : digests.find? (·.1 = a) with
  | some x =>
    obtain ⟨hx, rfl⟩ := hfound ha
    cases hb : digests.find? (·.1 = b) with
    | some y =>
      obtain ⟨hy, rfl⟩ := hfound hb
      rw [ha, hb] at h
      exact hdigests x hx y hy h
    | none =>
      rw [ha, hb] at h
      have hlength : x.2.length = (b.toUTF8.toList ++ List.replicate 33 (0 : UInt8)).length :=
        congrArg List.length h
      rw [hshort x hx] at hlength
      exact absurd (hlong b) (by omega)
  | none =>
    cases hb : digests.find? (·.1 = b) with
    | some y =>
      obtain ⟨hy, rfl⟩ := hfound hb
      rw [ha, hb] at h
      have hlength : (a.toUTF8.toList ++ List.replicate 33 (0 : UInt8)).length = y.2.length :=
        congrArg List.length h
      rw [hshort y hy] at hlength
      exact absurd (hlong a) (by omega)
    | none =>
      rw [ha, hb] at h
      exact toUTF8_inj (List.append_cancel_right h)

def lunch (soup : String) : PollCreation where
  name := some "Lunch?"
  options := [some soup, some "Salad"]
  selectableOptionsCount := some 1
  correctAnswer := none
  endTime := none
  quiz := false

theorem votesDecode_iff_soup :
    optionNamesForHashes pollHash ["Soup", "Salad"] [pollHash "Soup"] = some ["Soup"] := by
  have hoptions : (lunch "Soup").options
      = MarkedOptions.options [(some "Soup", true), (some "Salad", false)] := rfl
  refine ((votesDecode_iff pollHash_injective hoptions (List.Perm.refl _)).1 _ rfl).mpr ?_
  intro o
  rw [← MarkedOptions.found_iff]
  revert o
  decide +kernel

/-- A blank behind the name of an option is hashed but not stored. -/
theorem not_votesDecode_trailingBlank :
    ((pollMedia (lunch "Soup ")).map MessageMedia.optionNames = some ["Soup", "Salad"]) ∧
      MarkedOptions.chosenNames [(some "Soup ", true), (some "Salad", false)] = ["Soup"] ∧
      optionNamesForHashes pollHash ["Soup", "Salad"] [pollHash "Soup "] = none := by
  decide +kernel

end OmarchyWhatsapp
