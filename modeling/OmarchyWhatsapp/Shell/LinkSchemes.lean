import Mathlib.Data.List.Infix
import OmarchyWhatsapp.Shell.LinkifyTheorems

/-!
# The links of a message

An address is found in any case, and what is trimmed from its end may be all that it has behind its
prefix. The links of a message are addresses with a scheme and a host, and mentions, exactly when
every address of it keeps something behind its prefix and has `www.` in lower case.
-/

namespace OmarchyWhatsapp

open Text Text.JsString

/-- `p` is at the beginning of a text, in any case. -/
def Begins (p s : JsString) : Prop := p.isPrefixOf (s.map lowerCase) = true

instance (p s : JsString) : Decidable (Begins p s) := inferInstanceAs (Decidable (_ = true))

/-- `p` is at the beginning of a text, in any case, and not all of it. -/
def Extends (p s : JsString) : Prop := Begins p s ∧ p.length < s.length

instance (p s : JsString) : Decidable (Extends p s) := inferInstanceAs (Decidable (_ ∧ _))

/-- What a link of a match may be. -/
inductive WellSchemed (contacts : List MentionContact) (m : LinkMatch) (link : JsString) : Prop
  | web (hmatch : m.isMention = false)
      (hscheme : Extends (js "https://") link ∨ Extends (js "http://") link)
      (hlink : link = (trimmedLink m.text).1)
  | www (hmatch : m.isMention = false) (hhost : Extends (js "www.") (trimmedLink m.text).1)
      (hlink : link = js "https://" ++ (trimmedLink m.text).1)
  | mention {mention : Mention} {encoded : JsString} (hmatch : m.isMention = true)
      (hcontact : m.mention contacts = some mention)
      (hencoded : encodeURIComponent mention.jid = some encoded)
      (hlink : link = js "mention:" ++ encoded)

/-- A unit of an address behind its first `n` ones ends a piece of it that is not trimmed. -/
def hasBody (n : ℕ) (text : JsString) : Bool :=
  text.inits.any fun url =>
    decide (n < url.length) && url.getLast?.any (fun last => !shouldTrim url last)

/-- An address has something behind its prefix, and `www.` in lower case. -/
def Proper (text : JsString) : Prop :=
  ∀ p ∈ linkPrefixes, Begins p text →
    hasBody p.length text = true ∧ (p = js "www." → p.isPrefixOf text = true)

instance (text : JsString) : Decidable (Proper text) :=
  inferInstanceAs (Decidable (∀ p ∈ linkPrefixes, _ → _))

/-! ## Prefixes -/

theorem Begins.of_isPrefix {p s t : JsString} (h : Begins p s) (hst : s <+: t) : Begins p t :=
  List.isPrefixOf_iff_prefix.mpr ((List.isPrefixOf_iff_prefix.mp h).trans (hst.map lowerCase))

theorem Begins.take {p s t : JsString} (h : Begins p t) (hst : s <+: t)
    (hlength : p.length ≤ s.length) : Begins p s := by
  refine List.isPrefixOf_iff_prefix.mpr (List.prefix_of_prefix_length_le
    (List.isPrefixOf_iff_prefix.mp h) (hst.map lowerCase) ?_)
  rwa [List.length_map]

/-- No text begins with two of the prefixes. -/
theorem Begins.unique {p q s : JsString} (hp : p ∈ linkPrefixes) (hq : q ∈ linkPrefixes)
    (hps : Begins p s) (hqs : Begins q s) : p = q := by
  have hapart : ∀ p ∈ linkPrefixes, ∀ q ∈ linkPrefixes, p.isPrefixOf q = true → p = q := by decide
  rcases List.prefix_or_prefix_of_prefix (List.isPrefixOf_iff_prefix.mp hps)
    (List.isPrefixOf_iff_prefix.mp hqs) with hpq | hqp
  · exact hapart p hp q hq (List.isPrefixOf_iff_prefix.mpr hpq)
  · exact (hapart q hq p hp (List.isPrefixOf_iff_prefix.mpr hqp)).symm

theorem begins_of_isPrefixOf {s : JsString} (h : (js "www.").isPrefixOf s = true) :
    Begins (js "www.") s := by
  have hstart : (js "www.").map lowerCase <+: s.map lowerCase :=
    (List.isPrefixOf_iff_prefix.mp h).map lowerCase
  exact List.isPrefixOf_iff_prefix.mpr hstart

/-- A match that is not a mention begins with one of the prefixes. -/
theorem exists_begins {m : LinkMatch} (hmention : m.isMention = false)
    (h : ∃ rest following, matchAt rest = some (m.text, following)) :
    ∃ p ∈ linkPrefixes, Begins p m.text := by
  obtain ⟨rest, following, hmatch⟩ := h
  rcases Option.or_eq_some_iff.mp hmatch with hlink | ⟨-, hmentionAt⟩
  · have hfound := found_linkAt hlink
    obtain ⟨p, hp, hbody⟩ := Option.bind_eq_some_iff.mp hlink
    obtain ⟨hmem, hlower⟩ := linkPrefix_spec hp
    dsimp only at hbody
    split at hbody
    · cases hbody
    · obtain ⟨htext, -⟩ := Prod.mk.inj (Option.some.inj hbody)
      refine ⟨p, hmem, List.isPrefixOf_iff_prefix.mpr ?_⟩
      rw [← htext, List.map_append, hlower]
      exact List.prefix_append _ _
  · have hat : m.isMention = true := decide_eq_true (found_mentionAt hmentionAt).2
    rw [hat] at hmention
    cases hmention

/-! ## What is left of an address -/

theorem shouldTrim_perm {url url' : JsString} (h : url.Perm url') (last : UInt16) :
    shouldTrim url last = shouldTrim url' last := by
  unfold shouldTrim
  cases bracketPairs.lookup last with
  | none => rfl
  | some opening =>
    show decide (url.count opening < url.count last) = decide (url'.count opening < url'.count last)
    rw [h.count_eq, h.count_eq]

/-- The loop of `trimmedLink` stops at the longest piece that does not end in what it trims. -/
theorem lt_length_trimmedLinkFrom_iff (n : ℕ) (url : JsString) : ∀ suffix,
    n < (trimmedLinkFrom suffix url).1.length ↔
      ∃ last rest, (last :: rest) <:+ url ∧ n ≤ rest.length ∧
        shouldTrim (last :: rest) last = false := by
  induction url with
  | nil => simp [trimmedLinkFrom]
  | cons last url ih =>
    intro suffix
    unfold trimmedLinkFrom
    by_cases htrim : shouldTrim (last :: url) last = true
    · rw [if_pos htrim, ih]
      constructor
      · rintro ⟨last', rest, hsuffix, hrest⟩
        exact ⟨last', rest, hsuffix.trans (List.suffix_cons last url), hrest⟩
      · rintro ⟨last', rest, hsuffix, hlength, hkept⟩
        rcases List.suffix_cons_iff.mp hsuffix with heq | hsuffix
        · obtain ⟨rfl, rfl⟩ := List.cons.inj heq
          rw [htrim] at hkept
          cases hkept
        · exact ⟨last', rest, hsuffix, hlength, hkept⟩
    · rw [if_neg htrim, List.length_reverse, List.length_cons]
      constructor
      · intro hlength
        exact ⟨last, url, List.suffix_rfl, by omega, Bool.not_eq_true _ |>.mp htrim⟩
      · rintro ⟨last', rest, hsuffix, hlength, -⟩
        have hshorter := hsuffix.length_le
        rw [List.length_cons, List.length_cons] at hshorter
        omega

theorem lt_length_trimmedLink_iff (n : ℕ) (text : JsString) :
    n < (trimmedLink text).1.length ↔ hasBody n text = true := by
  rw [trimmedLink, lt_length_trimmedLinkFrom_iff, hasBody, List.any_eq_true]
  constructor
  · rintro ⟨last, rest, hsuffix, hlength, hkept⟩
    refine ⟨rest.reverse ++ [last], ?_, ?_⟩
    · rw [List.mem_inits, ← List.reverse_cons, ← List.reverse_suffix, List.reverse_reverse]
      exact hsuffix
    · have hperm : (rest.reverse ++ [last]).Perm (last :: rest) := by
        rw [← List.reverse_cons]
        exact List.reverse_perm _
      rw [List.getLast?_concat, Option.any_some, shouldTrim_perm hperm, hkept]
      simpa using Nat.lt_succ_of_le hlength
  · rintro ⟨url, hmem, hurl⟩
    obtain ⟨hlength, hkept⟩ := (Bool.and_eq_true _ _).mp hurl
    rcases List.eq_nil_or_concat url with rfl | ⟨rest, last, rfl⟩
    · cases hkept
    rw [List.concat_eq_append] at *
    rw [List.getLast?_concat, Option.any_some] at hkept
    have hperm : (last :: rest.reverse).Perm (rest ++ [last]) := by
      rw [← List.reverse_concat]
      exact List.reverse_perm _
    refine ⟨last, rest.reverse, ?_, ?_, ?_⟩
    · rw [← List.reverse_prefix, List.reverse_cons, List.reverse_reverse, List.reverse_reverse]
      exact (List.mem_inits _ _).mp hmem
    · have hlength := of_decide_eq_true hlength
      rw [List.length_append, List.length_singleton] at hlength
      rw [List.length_reverse]
      omega
    · rw [shouldTrim_perm hperm]
      exact Bool.not_eq_true' _ |>.mp hkept

theorem trimmedLink_isPrefix (text : JsString) : (trimmedLink text).1 <+: text :=
  ⟨_, trimmedLink_append text⟩

/-- The last unit of what is left is not one to trim. -/
theorem shouldTrim_trimmedLinkFrom (url : JsString) : ∀ (suffix rest : JsString) (last : UInt16),
    (trimmedLinkFrom suffix url).1 = rest ++ [last] → shouldTrim (rest ++ [last]) last = false := by
  induction url with
  | nil =>
    intro suffix rest last h
    exact absurd h.symm (List.append_ne_nil_of_right_ne_nil _ (List.cons_ne_nil _ _))
  | cons unit url ih =>
    intro suffix rest last h
    unfold trimmedLinkFrom at h
    split at h
    · exact ih _ rest last h
    · rename_i hkept
      have h : (unit :: url).reverse = rest ++ [last] := h
      rw [List.reverse_cons] at h
      obtain ⟨rfl, hlast⟩ := List.append_inj' h rfl
      obtain rfl := (List.cons.inj hlast).1
      have hperm : (url.reverse ++ [unit]).Perm (unit :: url) := by
        rw [← List.reverse_cons]
        exact List.reverse_perm _
      rw [shouldTrim_perm hperm]
      exact Bool.not_eq_true _ |>.mp hkept

theorem trimmedLink_ne_www (text : JsString) : (trimmedLink text).1 ≠ js "www." := by
  intro h
  have hkept := shouldTrim_trimmedLinkFrom text.reverse [] (js "www") 0x2E h
  exact absurd hkept (by decide)

theorem lowerCase_cases {c d : UInt16} (h : lowerCase c = d) : c = d ∨ c = d - 0x20 := by
  unfold lowerCase at h
  split at h
  · right
    rw [← h, UInt16.add_sub_cancel]
  · exact Or.inl h

theorem Begins.head? {p s : JsString} {d : UInt16} (h : Begins p s) (hd : p.head? = some d) :
    s.head?.map lowerCase = some d := by
  obtain ⟨t, ht⟩ := List.isPrefixOf_iff_prefix.mp h
  rw [← List.head?_map, ← ht, List.head?_append, hd, Option.some_or]

/-- A prefix begins with a letter, which is never trimmed. -/
theorem trimmedLink_ne_nil {p text : JsString} (hp : p ∈ linkPrefixes) (h : Begins p text) :
    (trimmedLink text).1 ≠ [] := by
  have hheads : ∀ p ∈ linkPrefixes, p.head? = some 0x68 ∨ p.head? = some 0x77 := by decide
  have hhead : text.head?.map lowerCase = some 0x68 ∨ text.head?.map lowerCase = some 0x77 :=
    (hheads p hp).imp h.head? h.head?
  cases text with
  | nil => exact absurd hhead (by decide)
  | cons c rest =>
    have hkept : shouldTrim [c] c = false := by
      rcases hhead with hc | hc
      · rcases lowerCase_cases (Option.some.inj hc) with rfl | rfl <;> decide
      · rcases lowerCase_cases (Option.some.inj hc) with rfl | rfl <;> decide
    have hbody : hasBody 0 (c :: rest) = true := by
      refine List.any_eq_true.mpr ⟨[c], (List.mem_inits _ _).mpr ⟨rest, rfl⟩, ?_⟩
      simpa using hkept
    exact List.length_pos_iff.mp ((lt_length_trimmedLink_iff 0 _).mpr hbody)

/-! ## The link of a match -/

section Href

variable {m : LinkMatch} {contacts : List MentionContact} {link p : JsString}

/-- What is left of an address that begins with `www.` has a host behind it. -/
theorem proper_of_www (hwww : (js "www.").isPrefixOf (trimmedLink m.text).1 = true) :
    Proper m.text := by
  have hstart := List.isPrefixOf_iff_prefix.mp hwww
  have hlonger : (js "www.").length < (trimmedLink m.text).1.length :=
    lt_of_le_of_ne hstart.length_le fun hlength =>
      trimmedLink_ne_www m.text (hstart.eq_of_length hlength).symm
  have hstart := hstart.trans (trimmedLink_isPrefix m.text)
  intro p hp hbegins
  have hbeginsWww := begins_of_isPrefixOf (List.isPrefixOf_iff_prefix.mpr hstart)
  obtain rfl := Begins.unique hp (by decide) hbegins hbeginsWww
  exact ⟨(lt_length_trimmedLink_iff _ _).mp hlonger, fun _ => List.isPrefixOf_iff_prefix.mpr hstart⟩

/-- What is left of a proper address has its prefix and more. -/
theorem extends_of_proper (hproper : Proper m.text) (hp : p ∈ linkPrefixes)
    (hbegins : Begins p m.text) : Extends p (trimmedLink m.text).1 := by
  have hlonger := (lt_length_trimmedLink_iff _ _).mpr (hproper p hp hbegins).1
  exact ⟨hbegins.take (trimmedLink_isPrefix m.text) hlonger.le, hlonger⟩

/-- The link of a proper address is well-schemed. -/
theorem wellSchemed_of_proper (hmention : m.isMention = false) (hp : p ∈ linkPrefixes)
    (hbegins : Begins p m.text) (hproper : Proper m.text) (hlink : m.href contacts = some link) :
    WellSchemed contacts m link := by
  have hextends := extends_of_proper hproper hp hbegins
  unfold LinkMatch.href at hlink
  rw [hmention, if_neg Bool.false_ne_true, if_neg (trimmedLink_ne_nil hp hbegins)] at hlink
  by_cases hwww : (js "www.").isPrefixOf (trimmedLink m.text).1 = true
  · rw [if_pos hwww] at hlink
    have hbeginsWww := (begins_of_isPrefixOf hwww).of_isPrefix (trimmedLink_isPrefix m.text)
    obtain rfl := Begins.unique hp (by decide) hbegins hbeginsWww
    exact .www hmention hextends (Option.some.inj hlink).symm
  · rw [if_neg hwww] at hlink
    have hweb : p ≠ js "www." := by
      rintro rfl
      -- in lower case, as the address is proper
      have hlower := List.isPrefixOf_iff_prefix.mp ((hproper _ hp hbegins).2 rfl)
      exact hwww (List.isPrefixOf_iff_prefix.mpr (List.prefix_of_prefix_length_le hlower
        (trimmedLink_isPrefix m.text) hextends.2.le))
    obtain rfl := Option.some.inj hlink
    have hcases : p = js "https://" ∨ p = js "http://" ∨ p = js "www." := by
      simpa [linkPrefixes] using hp
    rcases hcases with rfl | rfl | rfl
    · exact .web hmention (Or.inl hextends) rfl
    · exact .web hmention (Or.inr hextends) rfl
    · exact absurd rfl hweb

/-- A well-schemed link has a scheme, and more behind it. -/
theorem WellSchemed.scheme (h : WellSchemed contacts m link) :
    (∃ p ∈ linkPrefixes, p ≠ js "www." ∧ Extends p link) ∨ link.head? = some 0x6D := by
  cases h with
  | web hmatch hscheme hlink =>
    left
    rcases hscheme with hscheme | hscheme
    · exact ⟨_, by decide, by decide, hscheme⟩
    · exact ⟨_, by decide, by decide, hscheme⟩
  | www hmatch hhost hlink =>
    left
    refine ⟨js "https://", by decide, by decide, ?_, ?_⟩
    · rw [hlink, Begins, List.map_append]
      exact List.isPrefixOf_iff_prefix.mpr (List.prefix_append _ _)
    · have hlength := hhost.2
      rw [hlink, List.length_append]
      omega
  | mention hmatch hcontact hencoded hlink =>
    right
    rw [hlink]
    rfl

/-- An address whose link is one that a match may have is proper. -/
theorem proper_of_wellSchemed (hmention : m.isMention = false) (hp : p ∈ linkPrefixes)
    (hbegins : Begins p m.text)
    (h : ∀ link, m.href contacts = some link → ∃ m', WellSchemed contacts m' link) :
    Proper m.text := by
  by_cases hwww : (js "www.").isPrefixOf (trimmedLink m.text).1 = true
  · exact proper_of_www hwww
  have hne := trimmedLink_ne_nil hp hbegins
  have hlink : m.href contacts = some (trimmedLink m.text).1 := by
    unfold LinkMatch.href
    rw [hmention, if_neg Bool.false_ne_true, if_neg hne, if_neg hwww]
  obtain ⟨m', hschemed⟩ := h _ hlink
  rcases hschemed.scheme with ⟨q, hq, hscheme, hextends⟩ | hletter
  · intro p' hp' hbegins'
    have hbeginsq := hextends.1.of_isPrefix (trimmedLink_isPrefix m.text)
    obtain rfl := Begins.unique hp' hq hbegins' hbeginsq
    exact ⟨(lt_length_trimmedLink_iff _ _).mp hextends.2, fun hwww => absurd hwww hscheme⟩
  · -- no prefix begins with the letter of `mention:`
    have hheads : ∀ p ∈ linkPrefixes, p.head? ≠ some 0x6D ∧ p ≠ [] := by decide
    obtain ⟨hm, hpne⟩ := hheads p hp
    have htext : m.text.head? = some 0x6D := by
      rw [← trimmedLink_append m.text, List.head?_append, hletter, Option.some_or]
    have hlower := hbegins.head? (List.head?_eq_some_head hpne)
    rw [htext, Option.map_some, show lowerCase 0x6D = 0x6D from rfl] at hlower
    exact absurd ((List.head?_eq_some_head hpne).trans hlower.symm) hm

end Href

/-- The links of a message are well-schemed exactly when all of its addresses are proper. -/
theorem links_wellSchemed_iff {value linkColor output : JsString} {contacts : List MentionContact}
    (houtput : linkifiedMessage value linkColor contacts = some output) :
    (∀ link ∈ hrefs output, ∃ m ∈ (linkMatches value).1, WellSchemed contacts m link) ↔
      ∀ m ∈ (linkMatches value).1, m.isMention = false → Proper m.text := by
  obtain ⟨text, hpiece, -⟩ := linkifiedMessage_spec houtput
  have hlinks : hrefs output = (linkMatches value).1.filterMap (fun m => m.href contacts) :=
    hpiece.shows.text.2
  obtain ⟨-, hmatches⟩ := found_matchesFrom value.length none value
  constructor
  · intro h m hm hmention
    obtain ⟨p, hp, hbegins⟩ := exists_begins hmention (hmatches m hm)
    refine proper_of_wellSchemed hmention hp hbegins
      fun link (hlink : m.href contacts = some link) => ?_
    obtain ⟨m', -, hschemed⟩ := h link (hlinks ▸ List.mem_filterMap.mpr ⟨m, hm, hlink⟩)
    exact ⟨m', hschemed⟩
  · intro h link hmem
    obtain ⟨m, hm, hlink⟩ := List.mem_filterMap.mp (hlinks ▸ hmem)
    refine ⟨m, hm, ?_⟩
    cases hmention : m.isMention with
    | false =>
      obtain ⟨p, hp, hbegins⟩ := exists_begins hmention (hmatches m hm)
      exact wellSchemed_of_proper hmention hp hbegins (h m hm hmention) hlink
    | true =>
      unfold LinkMatch.href at hlink
      rw [if_pos hmention] at hlink
      obtain ⟨mention, hcontact, hlink⟩ := Option.bind_eq_some_iff.mp hlink
      split at hlink
      · cases hlink
      · obtain ⟨encoded, hencoded, rfl⟩ := Option.map_eq_some_iff.mp hlink
        exact .mention hmention hcontact hencoded rfl

theorem links_wellSchemed_iff_example :
    ∃ output, linkifiedMessage (js "www.example.test http://") (js "#fff") [] = some output ∧
      ((∀ link ∈ hrefs output, ∃ m ∈ (linkMatches (js "www.example.test http://")).1,
          WellSchemed [] m link) ↔
        ∀ m ∈ (linkMatches (js "www.example.test http://")).1, m.isMention = false →
          Proper m.text) := by
  have houtput : (linkifiedMessage (js "www.example.test http://") (js "#fff") []).isSome = true := by
    decide +kernel
  obtain ⟨output, houtput⟩ := Option.isSome_iff_exists.mp houtput
  exact ⟨output, houtput, links_wellSchemed_iff houtput⟩

/-- `WWW.example.test` becomes a link without a scheme, and `http://.` one without a host. -/
theorem relative_link :
    ((linkifiedMessage (js "WWW.example.test") (js "#fff") []).map hrefs
        = some [js "WWW.example.test"] ∧ ∀ m, ¬ WellSchemed [] m (js "WWW.example.test")) ∧
      (linkifiedMessage (js "http://.") (js "#fff") []).map hrefs = some [js "http://"] ∧
        ∀ m, ¬ WellSchemed [] m (js "http://") := by
  have hschemeless : ∀ link ∈ [js "WWW.example.test", js "http://"],
      (∀ p ∈ linkPrefixes, p ≠ js "www." → ¬ Extends p link) ∧ link.head? ≠ some 0x6D := by decide
  have hbad (link : JsString) (hlink : link ∈ [js "WWW.example.test", js "http://"])
      (m : LinkMatch) : ¬ WellSchemed [] m link := by
    intro h
    rcases h.scheme with ⟨p, hp, hscheme, hextends⟩ | hletter
    · exact (hschemeless link hlink).1 p hp hscheme hextends
    · exact (hschemeless link hlink).2 hletter
  exact ⟨⟨by decide +kernel, hbad _ (by decide)⟩, by decide +kernel, hbad _ (by decide)⟩

end OmarchyWhatsapp
