import Mathlib.Data.List.TakeWhile
import OmarchyWhatsapp.Shell.Linkify
import OmarchyWhatsapp.Text.Html

/-!
# What a message is shown as

The result of `linkifiedMessage` is markup: everything that comes from the message, the contacts or
the theme is escaped, and the elements are its own. Where no mention is replaced it shows the text
of the message.
-/

namespace OmarchyWhatsapp

open Text Text.JsString

/-! ## Escaping -/

theorem replaceUnit_cons (c d : UInt16) (replacement s : JsString) :
    replaceUnit c replacement (d :: s) = (if d = c then replacement else [d]) ++
      replaceUnit c replacement s := List.flatMap_cons

theorem replaceUnit_append (c : UInt16) (replacement s t : JsString) :
    replaceUnit c replacement (s ++ t)
      = replaceUnit c replacement s ++ replaceUnit c replacement t := List.flatMap_append

theorem escapeHtml_append (s t : JsString) : escapeHtml (s ++ t) = escapeHtml s ++ escapeHtml t := by
  unfold escapeHtml
  rw [replaceUnit_append, replaceUnit_append, replaceUnit_append, replaceUnit_append,
    replaceUnit_append]

/-- The five replacements of a unit come to its entity. -/
theorem escapeHtml_singleton (c : UInt16) : escapeHtml [c] = escapeUnit c := by
  by_cases hamp : c = ampersand
  · rw [hamp]; decide
  by_cases hlt : c = lessThan
  · rw [hlt]; decide
  by_cases hgt : c = greaterThan
  · rw [hgt]; decide
  by_cases hquot : c = quotationMark
  · rw [hquot]; decide
  by_cases hapos : c = apostrophe
  · rw [hapos]; decide
  have hkept (d : UInt16) (replacement : JsString) (hd : c ≠ d) :
      replaceUnit d replacement [c] = [c] := by
    rw [replaceUnit_cons, if_neg hd]
    rfl
  have hplain : ∀ e ∈ entities, e.2 ≠ c := by
    simp only [entities, List.forall_mem_cons]
    exact ⟨Ne.symm hamp, Ne.symm hlt, Ne.symm hgt, Ne.symm hquot, Ne.symm hapos, nofun⟩
  unfold escapeHtml
  rw [hkept _ _ hamp, hkept _ _ hlt, hkept _ _ hgt, hkept _ _ hquot, hkept _ _ hapos]
  rcases escapeUnit_cases c with ⟨-, hunit⟩ | ⟨e, he, hc, -⟩
  · exact hunit.symm
  · exact absurd hc (hplain e he)

theorem escapeHtml_eq (s : JsString) : escapeHtml s = s.flatMap escapeUnit := by
  induction s with
  | nil => rfl
  | cons c rest ih =>
    rw [← List.singleton_append, escapeHtml_append, escapeHtml_singleton, ih]
    rfl

theorem escaped_escapeHtml (s : JsString) : Escaped (escapeHtml s) :=
  escapeHtml_eq s ▸ escaped_flatMap s

theorem lines_escapedMessageText (s : JsString) : Lines (escapedMessageText s) := by
  rw [escapedMessageText, escapeHtml_eq]
  exact (replaceBreaks_escaped s false).1

theorem shows_escapedMessageText (s : JsString) :
    Shows (escapedMessageText s) (normalizeBreaks s) [] := by
  rw [escapedMessageText, escapeHtml_eq]
  exact (replaceBreaks_escaped s false).2

theorem normalizeBreaks_noBreak {s : JsString} (hs : NoBreak s) : normalizeBreaks s = s := by
  by_cases hnil : s = []
  · rw [hnil]
    rfl
  · have hwhole : replaceBreaks [lineFeed] false (s ++ []) = s ++ [] :=
      replaceBreaks_noBreak hs hnil [] false
    rwa [List.append_nil] at hwhole

/-! ## The matches -/

theorem noBreak_takeWhile {p : UInt16 → Bool} (hp : p lineFeed = false ∧ p carriageReturn = false)
    (s : JsString) : NoBreak (s.takeWhile p) := by
  constructor
  · intro hmem
    rw [List.mem_takeWhile_imp hmem] at hp
    exact absurd hp.1 Bool.noConfusion
  · intro hmem
    rw [List.mem_takeWhile_imp hmem] at hp
    exact absurd hp.2 Bool.noConfusion

theorem linkPrefix_spec {s p : JsString} (h : linkPrefix s = some p) :
    p ∈ linkPrefixes ∧ (s.take p.length).map lowerCase = p := by
  refine ⟨List.mem_of_find?_eq_some h, ?_⟩
  have hstart : p.isPrefixOf (s.map lowerCase) = true := by
    simpa using List.find?_some h
  rw [List.map_take]
  exact (List.prefix_iff_eq_take.mp (List.isPrefixOf_iff_prefix.mp hstart)).symm

/-- A match is a piece of the text without line breaks. -/
structure Found (s text following : JsString) : Prop where
  split : s = text ++ following
  nonempty : text ≠ []
  noBreak : NoBreak text

theorem found_linkAt {s text following : JsString} (h : linkAt s = some (text, following)) :
    Found s text following := by
  obtain ⟨p, hp, hbody⟩ := Option.bind_eq_some_iff.mp h
  obtain ⟨hmem, hlower⟩ := linkPrefix_spec hp
  dsimp only at hbody
  split at hbody
  · cases hbody
  rename_i hne
  obtain ⟨rfl, rfl⟩ := Prod.mk.inj (Option.some.inj hbody)
  refine ⟨?_, fun hnil => hne (List.append_eq_nil_iff.mp hnil).2, ?_⟩
  · rw [List.append_assoc, List.takeWhile_append_dropWhile, List.take_append_drop]
  · have hbreaks : ∀ p ∈ linkPrefixes, lineFeed ∉ p ∧ carriageReturn ∉ p := by decide
    have hstart : NoBreak (s.take p.length) := by
      refine ⟨fun hlf => (hbreaks p hmem).1 ?_, fun hcr => (hbreaks p hmem).2 ?_⟩
      · rw [← hlower]
        exact List.mem_map.mpr ⟨lineFeed, hlf, rfl⟩
      · rw [← hlower]
        exact List.mem_map.mpr ⟨carriageReturn, hcr, rfl⟩
    exact noBreak_append.mpr ⟨hstart, noBreak_takeWhile (by decide) _⟩

theorem found_mentionAt {s text following : JsString} (h : mentionAt s = some (text, following)) :
    Found s text following ∧ text.head? = some atSign := by
  cases s with
  | nil => cases h
  | cons c rest =>
    have h : (if c = atSign ∧ rest.takeWhile isDigit ≠ [] then
        some (atSign :: rest.takeWhile isDigit, rest.dropWhile isDigit) else none) = _ := h
    split at h
    · rename_i hmention
      obtain ⟨rfl, rfl⟩ := Prod.mk.inj (Option.some.inj h)
      refine ⟨⟨?_, List.cons_ne_nil _ _, ?_⟩, rfl⟩
      · rw [hmention.1, List.cons_append, List.takeWhile_append_dropWhile]
      · rw [← List.singleton_append]
        exact noBreak_append.mpr ⟨by decide, noBreak_takeWhile (by decide) _⟩
    · cases h

theorem found_matchAt {s text following : JsString} (h : matchAt s = some (text, following)) :
    Found s text following := by
  unfold matchAt at h
  rcases Option.or_eq_some_iff.mp h with hlink | ⟨-, hmention⟩
  · exact found_linkAt hlink
  · exact (found_mentionAt hmention).1

/-- A match, with what was skipped before it and what follows it. -/
theorem found_execFrom {input : JsString} {m : LinkMatch} {following : JsString} :
    ∀ {before : Option UInt16}, execFrom before input = some (m, following) →
      input = m.skipped ++ m.text ++ following ∧
        ∃ rest following', matchAt rest = some (m.text, following') := by
  induction input generalizing m following with
  | nil => intro before h; cases h
  | cons c rest ih =>
    intro before h
    unfold execFrom at h
    split at h
    · rename_i text after hmatch
      obtain ⟨rfl, rfl⟩ := Prod.mk.inj (Option.some.inj h)
      exact ⟨(found_matchAt hmatch).split, _, _, hmatch⟩
    · obtain ⟨found, hfound, heq⟩ := Option.map_eq_some_iff.mp h
      obtain ⟨rfl, rfl⟩ := Prod.mk.inj heq
      obtain ⟨hsplit, hmatch⟩ := ih hfound
      exact ⟨congrArg (c :: ·) hsplit, hmatch⟩

/-- The units of the matches and of what was skipped before them. -/
def covered (ms : List LinkMatch) : JsString := ms.flatMap (fun m => m.skipped ++ m.text)

theorem found_matchesFrom (fuel : ℕ) : ∀ (before : Option UInt16) (input : JsString),
    input = covered (matchesFrom fuel before input).1 ++ (matchesFrom fuel before input).2 ∧
      ∀ m ∈ (matchesFrom fuel before input).1,
        ∃ rest following, matchAt rest = some (m.text, following) := by
  induction fuel with
  | zero => exact fun _ _ => ⟨rfl, nofun⟩
  | succ fuel ih =>
    intro before input
    unfold matchesFrom
    split
    · exact ⟨rfl, nofun⟩
    · rename_i m following hexec
      obtain ⟨hsplit, hmatch⟩ := found_execFrom hexec
      obtain ⟨hlater, hmatches⟩ := ih m.text.getLast? following
      refine ⟨?_, List.forall_mem_cons.mpr ⟨hmatch, hmatches⟩⟩
      show input = (m.skipped ++ m.text ++ covered _) ++ _
      rw [List.append_assoc, ← hlater]
      exact hsplit

theorem noBreak_of_match {m : LinkMatch}
    (h : ∃ rest following, matchAt rest = some (m.text, following)) :
    NoBreak m.text ∧ m.text ≠ [] := by
  obtain ⟨rest, following, hmatch⟩ := h
  exact ⟨(found_matchAt hmatch).noBreak, (found_matchAt hmatch).nonempty⟩

/-- The bound on the number of matches is not reached: none is left behind the last one. -/
theorem exhausted_matchesFrom (fuel : ℕ) : ∀ (before : Option UInt16) (input : JsString),
    input.length ≤ fuel → ∃ last, execFrom last (matchesFrom fuel before input).2 = none := by
  induction fuel with
  | zero =>
    intro before input hlength
    have hnil : input = [] := List.length_eq_zero_iff.mp (Nat.le_zero.mp hlength)
    exact ⟨none, hnil ▸ rfl⟩
  | succ fuel ih =>
    intro before input hlength
    unfold matchesFrom
    cases hexec : execFrom before input with
    | none => exact ⟨before, hexec⟩
    | some found =>
      obtain ⟨m, following⟩ := found
      obtain ⟨hsplit, hmatch⟩ := found_execFrom hexec
      -- a match has a unit at least, so what follows it is shorter
      have htext : 0 < m.text.length := List.length_pos_iff.mpr (noBreak_of_match hmatch).2
      have hlengths := congrArg List.length hsplit
      rw [List.length_append, List.length_append] at hlengths
      exact ih m.text.getLast? following (by omega)

theorem exhausted_linkMatches (input : JsString) :
    ∃ last, execFrom last (linkMatches input).2 = none :=
  exhausted_matchesFrom input.length none input le_rfl

/-! ## What a match is replaced with -/

theorem trimmedLinkFrom_append (url : JsString) : ∀ suffix,
    (trimmedLinkFrom suffix url).1 ++ (trimmedLinkFrom suffix url).2 = url.reverse ++ suffix := by
  induction url with
  | nil => exact fun suffix => rfl
  | cons last url ih =>
    intro suffix
    unfold trimmedLinkFrom
    split
    · rw [ih, List.reverse_cons, List.append_assoc]
      rfl
    · rfl

/-- What is trimmed from a link stays behind it. -/
theorem trimmedLink_append (value : JsString) :
    (trimmedLink value).1 ++ (trimmedLink value).2 = value := by
  rw [trimmedLink, trimmedLinkFrom_append, List.reverse_reverse, List.append_nil]

namespace LinkMatch

variable {m : LinkMatch} (linkColor : JsString) {contacts : List MentionContact}

/-- The link that a match is replaced with. -/
def href (m : LinkMatch) (contacts : List MentionContact) : Option JsString :=
  if m.isMention then
    (m.mention contacts).bind fun mention =>
      if mention.isMe then none
      else (encodeURIComponent mention.jid).map (js "mention:" ++ ·)
  else if (trimmedLink m.text).1 = [] then none
  else if (js "www.").isPrefixOf (trimmedLink m.text).1 then
    some (js "https://" ++ (trimmedLink m.text).1)
  else some (trimmedLink m.text).1

/-- A piece of markup, its text and its links. -/
structure Piece (html text : JsString) (links : List JsString) : Prop where
  markup : Markup html
  shows : Shows html text links

theorem Piece.append {html html' text text' : JsString} {links links' : List JsString}
    (h : Piece html text links) (h' : Piece html' text' links') :
    Piece (html ++ html') (text ++ text') (links ++ links') :=
  ⟨h.markup.append h'.markup, h.shows.append h'.shows⟩

theorem piece_escapedMessageText (s : JsString) :
    Piece (escapedMessageText s) (normalizeBreaks s) [] :=
  ⟨(lines_escapedMessageText s).markup, shows_escapedMessageText s⟩

theorem piece_font {content text : JsString} (hlines : Lines content)
    (hshows : Shows content text []) :
    Piece (fontElement (escapeHtml linkColor) content) text [] := by
  have hcolor := escaped_escapeHtml linkColor
  have hmarkup : Markup (fontElement (escapeHtml linkColor) content ++ []) :=
    .font hcolor hlines .nil
  rw [List.append_nil] at hmarkup
  exact ⟨hmarkup, hshows.fontElement hcolor⟩

theorem piece_link (link : JsString) {content text : JsString} (hlines : Lines content)
    (hshows : Shows content text []) :
    Piece (aElement (escapeHtml link) (fontElement (escapeHtml linkColor) content)) text [link] := by
  have hcolor := escaped_escapeHtml linkColor
  have hmarkup : Markup (aElement (escapeHtml link)
      (fontElement (escapeHtml linkColor) content) ++ []) :=
    .a (escaped_escapeHtml link) hcolor hlines .nil
  have hlink : Shows (aElement (link.flatMap escapeUnit)
      (fontElement (escapeHtml linkColor) content)) text [link] :=
    (hshows.fontElement hcolor).aElement
  rw [List.append_nil] at hmarkup
  rw [← escapeHtml_eq] at hlink
  exact ⟨hmarkup, hlink⟩

theorem piece_at (name : JsString) :
    Lines (js "@" ++ escapedMessageText name) ∧
      Shows (js "@" ++ escapedMessageText name) (js "@" ++ normalizeBreaks name) [] := by
  have hplain : Escaped (js "@") := .unit (by decide) .nil
  exact ⟨.text hplain (lines_escapedMessageText name),
    (shows_escaped (js "@")).append (shows_escapedMessageText name)⟩

/-- The replacement of a mention is an element of its own, if its jid can be encoded. -/
theorem piece_mention {mention : Mention} (hmention : m.isMention = true)
    (hcontact : m.mention contacts = some mention) :
    (m.replacement linkColor contacts = .throws ∧ encodeURIComponent mention.jid = none) ∨
      ∃ html text, m.replacement linkColor contacts = .markup html ∧
        Piece html text (m.href contacts).toList := by
  obtain ⟨hlines, hshows⟩ := piece_at mention.name
  have hfont : mentionMarkup linkColor mention
      = fontElement (escapeHtml linkColor) (js "@" ++ escapedMessageText mention.name) := by
    simp [mentionMarkup, fontOpen, fontElement]
  unfold replacement href
  rw [if_pos hmention, if_pos hmention, hcontact]
  dsimp only [Option.bind_some]
  by_cases hme : mention.isMe = true
  · rw [if_pos hme, if_pos hme, hfont]
    exact Or.inr ⟨_, _, rfl, piece_font linkColor hlines hshows⟩
  rw [if_neg hme, if_neg hme, hfont]
  cases hencoded : encodeURIComponent mention.jid with
  | none => exact Or.inl ⟨rfl, rfl⟩
  | some encoded =>
    refine Or.inr ⟨_, js "@" ++ normalizeBreaks mention.name, rfl, ?_⟩
    have hlink := piece_link linkColor (js "mention:" ++ encoded) hlines hshows
    have hescaped : escapeHtml (js "mention:" ++ encoded) = js "mention:" ++ escapeHtml encoded := by
      rw [escapeHtml_append]
      congr 1
    rw [hescaped] at hlink
    simpa [aElement] using hlink

/-- The replacement of an address shows the address. -/
theorem piece_address (hmention : m.isMention = false) (hbreak : NoBreak m.text) :
    (m.replacement linkColor contacts = .keep ∧ m.href contacts = none) ∨
      ∃ html, m.replacement linkColor contacts = .markup html ∧
        Piece html m.text (m.href contacts).toList := by
  have hsplit := trimmedLink_append m.text
  unfold replacement href
  rw [hmention, if_neg Bool.false_ne_true, if_neg Bool.false_ne_true]
  generalize trimmedLink m.text = parts at hsplit ⊢
  obtain ⟨url, suffix⟩ := parts
  dsimp only at hsplit ⊢
  by_cases hurl : url = []
  · rw [if_pos hurl, if_pos hurl]
    exact Or.inl ⟨rfl, rfl⟩
  rw [if_neg hurl, if_neg hurl, ← apply_ite some]
  refine Or.inr ⟨_, rfl, ?_⟩
  generalize (if (js "www.").isPrefixOf url then js "https://" ++ url else url) = link
  rw [← hsplit, noBreak_append] at hbreak
  have hurlShows := shows_escapedMessageText url
  have hsuffix := piece_escapedMessageText suffix
  rw [normalizeBreaks_noBreak hbreak.1] at hurlShows
  rw [normalizeBreaks_noBreak hbreak.2] at hsuffix
  have hwhole := (piece_link linkColor link (lines_escapedMessageText url) hurlShows).append hsuffix
  rw [hsplit] at hwhole
  have hclose : js "</font></a>" = js "</font>" ++ js "</a>" := by decide
  simpa [aElement, fontElement, fontOpen, hclose] using hwhole

end LinkMatch

/-! ## The jid of a mention -/

theorem jid_of_mention {contact : MentionContact} {number : JsString} {mention : Mention}
    (h : contact.mention number = some mention) : mention.jid = contact.jid.trim := by
  unfold MentionContact.mention at h
  dsimp only at h
  generalize (if contact.isMe = true then js "You" else contact.name.trim) = name at h
  split at h
  · cases h
  · split at h
    · rw [← Option.some.inj h]
    · cases h

/-- A mention is one of a contact. -/
theorem exists_contact_of_mention {m : LinkMatch} {contacts : List MentionContact}
    {mention : Mention} (h : m.mention contacts = some mention) :
    ∃ contact ∈ contacts, mention.jid = contact.jid.trim := by
  unfold LinkMatch.mention contactMention at h
  split at h
  · cases h
  · dsimp only at h
    split at h
    · cases h
    · obtain ⟨contact, hcontact, hmention⟩ := List.exists_of_findSome?_eq_some h
      exact ⟨contact, hcontact, jid_of_mention hmention⟩

/-! ## The loop -/

/-- No match of the text is replaced by a mention. -/
def NoMention (ms : List LinkMatch) (contacts : List MentionContact) : Prop :=
  ∀ m ∈ ms, m.isMention = true → m.mention contacts = none

instance (ms : List LinkMatch) (contacts : List MentionContact) :
    Decidable (NoMention ms contacts) := inferInstanceAs (Decidable (∀ m ∈ ms, _))

section Loop

open LinkMatch

variable (linkColor : JsString) {contacts : List MentionContact} {m : LinkMatch}

/-- What is done with a match: it stays in the text, its jid cannot be encoded, or a piece of
markup replaces it, which shows the match unless it is a mention. -/
theorem replacement_cases (contacts : List MentionContact) (hbreak : NoBreak m.text) :
    (m.replacement linkColor contacts = .keep ∧ m.href contacts = none) ∨
      (m.replacement linkColor contacts = .throws ∧
        ∃ mention, m.mention contacts = some mention ∧ encodeURIComponent mention.jid = none) ∨
      ∃ html text, m.replacement linkColor contacts = .markup html ∧
        Piece html text (m.href contacts).toList ∧
        ((m.isMention = true → m.mention contacts = none) → text = m.text) := by
  cases hmention : m.isMention with
  | false =>
    rcases piece_address linkColor hmention hbreak with hkeep | ⟨html, hreplaced, hpiece⟩
    · exact Or.inl hkeep
    · exact Or.inr (Or.inr ⟨html, m.text, hreplaced, hpiece, fun _ => rfl⟩)
  | true =>
    cases hcontact : m.mention contacts with
    | none =>
      refine Or.inl ⟨?_, ?_⟩
      · unfold replacement
        rw [if_pos hmention, hcontact]
      · unfold href
        rw [if_pos hmention, hcontact]
        rfl
    | some mention =>
      rcases piece_mention linkColor hmention hcontact with
        ⟨hthrows, hmalformed⟩ | ⟨html, text, hreplaced, hpiece⟩
      · exact Or.inr (Or.inl ⟨hthrows, mention, rfl, hmalformed⟩)
      · exact Or.inr (Or.inr ⟨html, text, hreplaced, hpiece, fun hnone => absurd (hnone rfl) nofun⟩)

/-- The text before a match is normalised on its own, as no match begins with a line break. -/
theorem normalizeBreaks_match {text : JsString} (hbreak : NoBreak text) (hne : text ≠ [])
    (passed rest : JsString) :
    normalizeBreaks (passed ++ (text ++ rest))
      = normalizeBreaks passed ++ (text ++ normalizeBreaks rest) := by
  have hhead : (text ++ rest).head? ≠ some lineFeed := by
    cases text with
    | nil => exact absurd rfl hne
    | cons c text =>
      intro hlf
      exact hbreak.1 ((Option.some.inj hlf).symm ▸ List.mem_cons_self)
  rw [normalizeBreaks, replaceBreaks_append hhead, replaceBreaks_noBreak hbreak hne]
  rfl

theorem linkifyFrom_spec (rest : JsString) {ms : List LinkMatch}
    (hms : ∀ m ∈ ms, NoBreak m.text ∧ m.text ≠ []) :
    ∀ pending output, linkifyFrom linkColor contacts rest pending ms = some output →
      ∃ text, Piece output text (ms.filterMap (fun m => m.href contacts)) ∧
        (NoMention ms contacts → text = normalizeBreaks (pending ++ (covered ms ++ rest))) := by
  induction ms with
  | nil =>
    intro pending output houtput
    rw [← Option.some.inj houtput]
    exact ⟨_, piece_escapedMessageText (pending ++ rest), fun _ => rfl⟩
  | cons m ms ih =>
    intro pending output houtput
    obtain ⟨⟨hbreak, hne⟩, hlater⟩ := List.forall_mem_cons.mp hms
    have hcovered : pending ++ (covered (m :: ms) ++ rest)
        = (pending ++ m.skipped) ++ (m.text ++ (covered ms ++ rest)) := by
      simp [covered]
    unfold linkifyFrom at houtput
    rcases replacement_cases linkColor contacts hbreak with ⟨hkeep, hhref⟩ |
      ⟨hthrows, -⟩ | ⟨html, shown, hreplaced, hpiece, hshown⟩
    · rw [hkeep] at houtput
      obtain ⟨text, hpiece, htext⟩ := ih hlater (pending ++ m.skipped ++ m.text) output houtput
      refine ⟨text, ?_, fun hnone => ?_⟩
      · rw [List.filterMap_cons, hhref]
        exact hpiece
      · rw [htext (List.forall_mem_cons.mp hnone).2, hcovered, List.append_assoc _ m.text]
    · rw [hthrows] at houtput
      cases houtput
    · rw [hreplaced] at houtput
      obtain ⟨later, hoccurs, rfl⟩ := Option.map_eq_some_iff.mp houtput
      obtain ⟨text, hpiece', htext⟩ := ih hlater [] later hoccurs
      have hwhole := ((piece_escapedMessageText (pending ++ m.skipped)).append hpiece).append hpiece'
      refine ⟨normalizeBreaks (pending ++ m.skipped) ++ shown ++ text, ?_, fun hnone => ?_⟩
      · rw [List.filterMap_cons]
        cases hhref : m.href contacts <;> simpa [hhref] using hwhole
      · obtain ⟨hm, hrest⟩ := List.forall_mem_cons.mp hnone
        rw [hshown hm, htext hrest, hcovered, normalizeBreaks_match hbreak hne, List.append_assoc,
          List.nil_append]

/-- Well-formed jids are encoded. -/
theorem exists_linkifyFrom (hjids : ∀ contact ∈ contacts, JsString.WellFormed contact.jid) (rest : JsString)
    {ms : List LinkMatch} (hms : ∀ m ∈ ms, NoBreak m.text ∧ m.text ≠ []) :
    ∀ pending, ∃ output, linkifyFrom linkColor contacts rest pending ms = some output := by
  induction ms with
  | nil => exact fun pending => ⟨_, rfl⟩
  | cons m ms ih =>
    intro pending
    obtain ⟨⟨hbreak, -⟩, hlater⟩ := List.forall_mem_cons.mp hms
    unfold linkifyFrom
    rcases replacement_cases linkColor contacts hbreak with ⟨hkeep, -⟩ |
      ⟨-, mention, hcontact, hmalformed⟩ | ⟨html, -, hreplaced, -, -⟩
    · rw [hkeep]
      exact ih hlater _
    · obtain ⟨contact, hmem, hjid⟩ := exists_contact_of_mention hcontact
      obtain ⟨encoded, hencoded⟩ := exists_encodeURIComponent (hjids contact hmem).trim
      rw [hjid, hencoded] at hmalformed
      cases hmalformed
    · obtain ⟨later, hlater⟩ := ih hlater []
      rw [hreplaced, hlater]
      exact ⟨_, rfl⟩

end Loop

/-- What a message is shown as, its links and its text. -/
theorem linkifiedMessage_spec {value linkColor output : JsString} {contacts : List MentionContact}
    (h : linkifiedMessage value linkColor contacts = some output) :
    ∃ text, LinkMatch.Piece output text
        ((linkMatches value).1.filterMap (fun m => m.href contacts)) ∧
      (NoMention (linkMatches value).1 contacts → text = normalizeBreaks value) := by
  obtain ⟨hsplit, hmatches⟩ := found_matchesFrom value.length none value
  obtain ⟨text, hpiece, htext⟩ := linkifyFrom_spec linkColor (linkMatches value).2
    (fun m hm => noBreak_of_match (hmatches m hm)) [] output h
  refine ⟨text, hpiece, fun hnone => ?_⟩
  rw [htext hnone, List.nil_append]
  exact congrArg normalizeBreaks hsplit.symm

/-- The result is markup, whatever the message, the contacts and the colour hold, and shows the
text of the message when no mention is replaced. -/
theorem linkifiedMessage_is_markup (value linkColor : JsString) (contacts : List MentionContact)
    (hjids : ∀ contact ∈ contacts, JsString.WellFormed contact.jid) :
    ∃ output, linkifiedMessage value linkColor contacts = some output ∧ Markup output ∧
      (NoMention (linkMatches value).1 contacts →
        unescapeHtml (stripTags output) = normalizeBreaks value) := by
  obtain ⟨-, hmatches⟩ := found_matchesFrom value.length none value
  obtain ⟨output, houtput⟩ := exists_linkifyFrom linkColor hjids (linkMatches value).2
    (fun m hm => noBreak_of_match (hmatches m hm)) []
  obtain ⟨text, hpiece, htext⟩ := linkifiedMessage_spec houtput
  refine ⟨output, houtput, hpiece.markup, fun hnone => ?_⟩
  rw [hpiece.shows.text.1, htext hnone]

def aliceContact : MentionContact := { jid := js "316111@s.whatsapp.net", name := js "Alice" }

theorem linkifiedMessage_is_markup_alice :
    ∃ output, linkifiedMessage (js "Hi @316111 <b> https://example.test/a.") (js "#fff")
        [aliceContact] = some output ∧ Markup output ∧
      (NoMention (linkMatches (js "Hi @316111 <b> https://example.test/a.")).1 [aliceContact] →
        unescapeHtml (stripTags output)
          = normalizeBreaks (js "Hi @316111 <b> https://example.test/a.")) :=
  linkifiedMessage_is_markup _ _ _ (by decide +kernel)

end OmarchyWhatsapp
