import OmarchyWhatsapp.Text.JsString

/-!
# Escaped text and simple markup

The part of HTML that styled text is made of: escaped text, line breaks, `font` and `a` elements.
`stripTags` and `unescapeHtml` take the text out of it again and `hrefs` the links; `Shows` says
which text and which links a piece of markup has.
-/

namespace Text

namespace JsString

/-! ## Escaped text -/

/-- The entities, each with the unit it stands for. -/
def entities : List (JsString × UInt16) :=
  [(js "amp", ampersand), (js "lt", lessThan), (js "gt", greaterThan), (js "quot", quotationMark),
    (js "#39", apostrophe)]

def reference (name : JsString) : JsString := ampersand :: (name ++ [semicolon])

def escapeUnit (c : UInt16) : JsString :=
  ((entities.find? (fun e => e.2 = c)).map (fun e => reference e.1)).getD [c]

/-- Text in which every special unit is written as an entity. -/
inductive Escaped : JsString → Prop
  | nil : Escaped []
  | unit {c : UInt16} {t : JsString} : (∀ e ∈ entities, e.2 ≠ c) → Escaped t → Escaped (c :: t)
  | entity {e : JsString × UInt16} {t : JsString} :
    e ∈ entities → Escaped t → Escaped (reference e.1 ++ t)

/-- What a unit is written as. -/
theorem escapeUnit_cases (c : UInt16) :
    ((∀ e ∈ entities, e.2 ≠ c) ∧ escapeUnit c = [c]) ∨
      ∃ e ∈ entities, e.2 = c ∧ escapeUnit c = reference e.1 := by
  unfold escapeUnit
  cases hfound : entities.find? (fun e => e.2 = c) with
  | none =>
    refine Or.inl ⟨fun e he hc => ?_, rfl⟩
    exact absurd (List.find?_eq_none.mp hfound e he) (by simp [hc])
  | some e =>
    refine Or.inr ⟨e, List.mem_of_find?_eq_some hfound, ?_, rfl⟩
    simpa using List.find?_some hfound

theorem Escaped.append {s t : JsString} (hs : Escaped s) (ht : Escaped t) : Escaped (s ++ t) := by
  induction hs with
  | nil => exact ht
  | unit hc _ ih => exact .unit hc ih
  | entity he _ ih =>
    rw [List.append_assoc]
    exact .entity he ih

theorem escaped_escapeUnit (c : UInt16) : Escaped (escapeUnit c) := by
  rcases escapeUnit_cases c with ⟨hplain, hunit⟩ | ⟨e, he, -, hentity⟩
  · rw [hunit]
    exact .unit hplain .nil
  · rw [hentity, ← List.append_nil (reference e.1)]
    exact .entity he .nil

theorem escaped_flatMap (s : JsString) : Escaped (s.flatMap escapeUnit) := by
  induction s with
  | nil => exact .nil
  | cons c rest ih =>
    rw [List.flatMap_cons]
    exact (escaped_escapeUnit c).append ih

/-- Escaped text has no angle bracket. -/
theorem Escaped.notMem_bracket {t : JsString} (h : Escaped t) :
    lessThan ∉ t ∧ greaterThan ∉ t := by
  induction h with
  | nil => exact ⟨List.not_mem_nil, List.not_mem_nil⟩
  | unit hc _ ih =>
    have hlt := hc (js "lt", lessThan) (by decide)
    have hgt := hc (js "gt", greaterThan) (by decide)
    simp only [List.mem_cons, not_or]
    exact ⟨⟨hlt, ih.1⟩, hgt, ih.2⟩
  | entity he _ ih =>
    have hall : ∀ e ∈ entities, lessThan ∉ reference e.1 ∧ greaterThan ∉ reference e.1 := by decide
    obtain ⟨hlt, hgt⟩ := hall _ he
    simp only [List.mem_append, not_or]
    exact ⟨⟨hlt, ih.1⟩, hgt, ih.2⟩

/-! ## Markup -/

def brTag : JsString := js "<br>"

def fontElement (color content : JsString) : JsString :=
  js "<font color=" ++ quotationMark :: (color ++ quotationMark :: greaterThan ::
    (content ++ js "</font>"))

def aElement (href content : JsString) : JsString :=
  js "<a href=" ++ quotationMark :: (href ++ quotationMark :: greaterThan ::
    (content ++ js "</a>"))

/-- Escaped text and line breaks. -/
inductive Lines : JsString → Prop
  | nil : Lines []
  | text {t m : JsString} : Escaped t → Lines m → Lines (t ++ m)
  | br {m : JsString} : Lines m → Lines (brTag ++ m)

/-- Lines, `font` elements with lines in them, and `a` elements with one such element in them. All
attributes are escaped. -/
inductive Markup : JsString → Prop
  | nil : Markup []
  | lines {t m : JsString} : Lines t → Markup m → Markup (t ++ m)
  | font {color t m : JsString} : Escaped color → Lines t → Markup m →
    Markup (fontElement color t ++ m)
  | a {href color t m : JsString} : Escaped href → Escaped color → Lines t → Markup m →
    Markup (aElement href (fontElement color t) ++ m)

theorem Markup.append {m n : JsString} (hm : Markup m) (hn : Markup n) : Markup (m ++ n) := by
  induction hm with
  | nil => exact hn
  | lines ht _ ih =>
    rw [List.append_assoc]
    exact .lines ht ih
  | font hcolor ht _ ih =>
    rw [List.append_assoc]
    exact .font hcolor ht ih
  | a hhref hcolor ht _ ih =>
    rw [List.append_assoc]
    exact .a hhref hcolor ht ih

theorem Lines.markup {t : JsString} (h : Lines t) : Markup t :=
  List.append_nil t ▸ Markup.lines h .nil

/-! ## The text of a markup -/

/-- `a` and `font` tags are deleted, `<br>` is a newline. -/
def tagText (tag : JsString) : JsString :=
  if tag = js "br" then [lineFeed]
  else if tag = js "/a" ∨ tag = js "/font" ∨ (js "a ").isPrefixOf tag ∨ (js "font ").isPrefixOf tag
    then []
  else lessThan :: (tag ++ [greaterThan])

inductive Token where
  | unit (c : UInt16)
  | tag (name : JsString)

/-- The tokens of a markup; `tag` is what was read since a `<`. -/
def tokensFrom (tag : Option JsString) : JsString → List Token
  | [] => tag.elim [] (fun name => (lessThan :: name).map Token.unit)
  | c :: rest =>
    match tag with
    | none => if c = lessThan then tokensFrom (some []) rest else .unit c :: tokensFrom none rest
    | some name =>
      if c = greaterThan then .tag name :: tokensFrom none rest
      else tokensFrom (some (name ++ [c])) rest

def Token.text : Token → JsString
  | .unit c => [c]
  | .tag name => tagText name

def stripTags (m : JsString) : JsString := (tokensFrom none m).flatMap Token.text

/-- `name` is what was read since a `&`. -/
def unescapeFrom (name : Option JsString) : JsString → JsString
  | [] => name.elim [] (fun name => ampersand :: name)
  | c :: rest =>
    match name with
    | none => if c = ampersand then unescapeFrom (some []) rest else c :: unescapeFrom none rest
    | some name =>
      if c = semicolon then
        ((entities.lookup name).map (fun d => [d])).getD (reference name) ++ unescapeFrom none rest
      else unescapeFrom (some (name ++ [c])) rest

def unescapeHtml (t : JsString) : JsString := unescapeFrom none t

def hrefStart : JsString := js "a href=" ++ [quotationMark]

/-- The link of an opening tag. -/
def Token.href : Token → Option JsString
  | .unit _ => none
  | .tag name =>
    if hrefStart.isPrefixOf name then some (unescapeHtml (name.drop hrefStart.length).dropLast)
    else none

def hrefs (m : JsString) : List JsString := (tokensFrom none m).filterMap Token.href

theorem tokensFrom_text {t : JsString} (ht : lessThan ∉ t) (rest : JsString) :
    tokensFrom none (t ++ rest) = t.map Token.unit ++ tokensFrom none rest := by
  induction t with
  | nil => rfl
  | cons c t ih =>
    rw [List.mem_cons, not_or] at ht
    rw [List.cons_append, tokensFrom, if_neg (Ne.symm ht.1), ih ht.2]
    rfl

theorem tokensFrom_name {more : JsString} (hmore : greaterThan ∉ more) (rest : JsString) :
    ∀ name, tokensFrom (some name) (more ++ greaterThan :: rest)
      = .tag (name ++ more) :: tokensFrom none rest := by
  induction more with
  | nil =>
    intro name
    rw [List.nil_append, tokensFrom, List.append_nil]
    exact if_pos rfl
  | cons c more ih =>
    intro name
    rw [List.mem_cons, not_or] at hmore
    rw [List.cons_append, tokensFrom, if_neg (Ne.symm hmore.1), ih hmore.2, List.append_assoc]
    rfl

theorem tokensFrom_tag {tag : JsString} (htag : greaterThan ∉ tag) (rest : JsString) :
    tokensFrom none (lessThan :: (tag ++ greaterThan :: rest))
      = .tag tag :: tokensFrom none rest := by
  rw [tokensFrom, if_pos rfl, tokensFrom_name htag]
  rfl

theorem unescapeFrom_name {more : JsString} (hmore : semicolon ∉ more) (rest : JsString) :
    ∀ name, unescapeFrom (some name) (more ++ semicolon :: rest)
      = ((entities.lookup (name ++ more)).map (fun d => [d])).getD (reference (name ++ more))
        ++ unescapeFrom none rest := by
  induction more with
  | nil =>
    intro name
    rw [List.nil_append, unescapeFrom, List.append_nil]
    exact if_pos rfl
  | cons c more ih =>
    intro name
    rw [List.mem_cons, not_or] at hmore
    rw [List.cons_append, unescapeFrom]
    rw [if_neg (Ne.symm hmore.1), ih hmore.2, List.append_assoc]
    rfl

theorem unescapeFrom_escapeUnit (c : UInt16) (rest : JsString) :
    unescapeFrom none (escapeUnit c ++ rest) = c :: unescapeFrom none rest := by
  rcases escapeUnit_cases c with ⟨hplain, hunit⟩ | ⟨e, he, rfl, hentity⟩
  · have hc : c ≠ ampersand := (hplain (js "amp", ampersand) (by decide)).symm
    rw [hunit, List.singleton_append, unescapeFrom]
    exact if_neg hc
  · have hname : ∀ e ∈ entities, semicolon ∉ e.1 ∧ entities.lookup e.1 = some e.2 := by decide
    obtain ⟨hsemicolon, hlookup⟩ := hname e he
    rw [hentity, reference, List.cons_append, List.append_assoc, unescapeFrom]
    rw [if_pos rfl, List.singleton_append, unescapeFrom_name hsemicolon, List.nil_append, hlookup]
    rfl

theorem unescapeFrom_escaped (s rest : JsString) :
    unescapeFrom none (s.flatMap escapeUnit ++ rest) = s ++ unescapeFrom none rest := by
  induction s with
  | nil => rfl
  | cons c s ih =>
    rw [List.flatMap_cons, List.append_assoc, unescapeFrom_escapeUnit, ih]
    rfl

theorem unescapeHtml_escaped (s : JsString) : unescapeHtml (s.flatMap escapeUnit) = s := by
  have hwhole := unescapeFrom_escaped s []
  rwa [List.append_nil, show unescapeFrom none [] = [] from rfl, List.append_nil] at hwhole

theorem unescapeFrom_plain {t : JsString} (ht : ampersand ∉ t) (rest : JsString) :
    unescapeFrom none (t ++ rest) = t ++ unescapeFrom none rest := by
  induction t with
  | nil => rfl
  | cons c t ih =>
    rw [List.mem_cons, not_or] at ht
    rw [List.cons_append, unescapeFrom, if_neg (Ne.symm ht.1), ih ht.2]
    rfl

/-! ## What a markup shows -/

/-- The text and the links of a piece of markup, whatever follows it. -/
def Shows (m t : JsString) (links : List JsString) : Prop :=
  ∃ ts, (∀ rest, tokensFrom none (m ++ rest) = ts ++ tokensFrom none rest) ∧
    (∀ rest, unescapeFrom none (ts.flatMap Token.text ++ rest) = t ++ unescapeFrom none rest) ∧
    ts.filterMap Token.href = links

theorem Shows.text {m t : JsString} {links : List JsString} (h : Shows m t links) :
    unescapeHtml (stripTags m) = t ∧ hrefs m = links := by
  obtain ⟨ts, htokens, hunescape, hlinks⟩ := h
  have hread := htokens []
  have hunescaped := hunescape []
  rw [List.append_nil, show tokensFrom none [] = [] from rfl, List.append_nil] at hread
  rw [List.append_nil, show unescapeFrom none [] = [] from rfl, List.append_nil] at hunescaped
  rw [unescapeHtml, stripTags, hrefs, hread]
  exact ⟨hunescaped, hlinks⟩

theorem Shows.nil : Shows [] [] [] := ⟨[], fun _ => rfl, fun _ => rfl, rfl⟩

theorem Shows.append {m n s t : JsString} {links links' : List JsString} (hm : Shows m s links)
    (hn : Shows n t links') : Shows (m ++ n) (s ++ t) (links ++ links') := by
  obtain ⟨ts, htokens, hunescape, hlinks⟩ := hm
  obtain ⟨ts', htokens', hunescape', hlinks'⟩ := hn
  refine ⟨ts ++ ts', fun rest => ?_, fun rest => ?_, ?_⟩
  · rw [List.append_assoc, htokens, htokens', List.append_assoc]
  · rw [List.flatMap_append, List.append_assoc, hunescape, hunescape', List.append_assoc]
  · rw [List.filterMap_append, hlinks, hlinks']

theorem shows_escaped (s : JsString) : Shows (s.flatMap escapeUnit) s [] := by
  refine ⟨(s.flatMap escapeUnit).map Token.unit,
    tokensFrom_text (escaped_flatMap s).notMem_bracket.1, fun rest => ?_, ?_⟩
  · have htext : ((s.flatMap escapeUnit).map Token.unit).flatMap Token.text
        = s.flatMap escapeUnit := by
      rw [List.flatMap_map]
      exact List.flatMap_singleton' _
    rw [htext, unescapeFrom_escaped]
  · rw [List.filterMap_map]
    exact List.filterMap_eq_nil_iff.mpr fun _ _ => rfl

/-- A tag shows what `tagText` says, which here has no ampersand. -/
theorem shows_tag (tag : JsString) (htag : greaterThan ∉ tag) (htext : ampersand ∉ tagText tag) :
    Shows (lessThan :: (tag ++ [greaterThan])) (tagText tag) (Token.tag tag).href.toList := by
  refine ⟨[.tag tag], fun rest => ?_, fun rest => ?_, ?_⟩
  · rw [List.cons_append, List.append_assoc]
    exact tokensFrom_tag htag rest
  · rw [List.flatMap_cons, List.flatMap_nil, List.append_nil]
    exact unescapeFrom_plain htext rest
  · cases hlink : (Token.tag tag).href <;> simp [hlink]

theorem shows_br : Shows brTag [lineFeed] [] := shows_tag (js "br") (by decide) (by decide)

/-- A tag of one of the two elements shows nothing. -/
theorem shows_ownTag (tag : JsString) (htag : greaterThan ∉ tag)
    (hown : tag = js "/a" ∨ tag = js "/font" ∨ (js "a ").isPrefixOf tag ∨
      (js "font ").isPrefixOf tag) :
    Shows (lessThan :: (tag ++ [greaterThan])) [] (Token.tag tag).href.toList := by
  have hbr : tag ≠ js "br" := by
    rintro rfl
    exact absurd hown (by decide)
  have htext : tagText tag = [] := by
    rw [tagText, if_neg hbr, if_pos hown]
  have hshows := shows_tag tag htag (by rw [htext]; exact List.not_mem_nil)
  rwa [htext] at hshows

theorem Shows.fontElement {color content t : JsString} {links : List JsString}
    (hcolor : Escaped color) (h : Shows content t links) :
    Shows (fontElement color content) t links := by
  have hopen : Shows (lessThan :: (js "font color=" ++ quotationMark :: (color ++ [quotationMark])
      ++ [greaterThan])) [] [] := by
    refine shows_ownTag _ ?_ (Or.inr (Or.inr (Or.inr rfl)))
    have hname : greaterThan ∉ js "font color=" := by decide
    have hquote : greaterThan ≠ quotationMark := by decide
    simp [hname, hquote, hcolor.notMem_bracket.2]
  have hclose : Shows (js "</font>") [] [] :=
    shows_ownTag (js "/font") (by decide) (Or.inr (Or.inl rfl))
  have hshows := hopen.append (h.append hclose)
  have hshape : JsString.fontElement color content = lessThan :: (js "font color=" ++
      quotationMark :: (color ++ [quotationMark]) ++ [greaterThan]) ++
        (content ++ js "</font>") := by
    have hstart : js "<font color=" = lessThan :: js "font color=" := rfl
    rw [JsString.fontElement, hstart]
    simp
  rw [hshape]
  simpa using hshows

theorem href_open (href : JsString) :
    (Token.tag (hrefStart ++ (href.flatMap escapeUnit ++ [quotationMark]))).href = some href := by
  have hstart : hrefStart.isPrefixOf (hrefStart ++ (href.flatMap escapeUnit ++ [quotationMark]))
      = true := List.isPrefixOf_iff_prefix.mpr (List.prefix_append _ _)
  rw [Token.href, if_pos hstart, List.drop_left, List.dropLast_concat, unescapeHtml_escaped]

theorem Shows.aElement {href content t : JsString} {links : List JsString}
    (h : Shows content t links) :
    Shows (aElement (href.flatMap escapeUnit) content) t (href :: links) := by
  have hopen : Shows (lessThan :: (hrefStart ++ (href.flatMap escapeUnit ++ [quotationMark])
      ++ [greaterThan])) [] [href] := by
    have hshows := shows_ownTag (hrefStart ++ (href.flatMap escapeUnit ++ [quotationMark])) ?_
      (Or.inr (Or.inr (Or.inl rfl)))
    · rwa [href_open] at hshows
    · have hname : greaterThan ∉ hrefStart := by decide
      have hquote : greaterThan ≠ quotationMark := by decide
      have hescaped := (escaped_flatMap href).notMem_bracket.2
      rw [List.mem_append, List.mem_append, List.mem_singleton, not_or, not_or]
      exact ⟨hname, hescaped, hquote⟩
  have hclose : Shows (js "</a>") [] [] := shows_ownTag (js "/a") (by decide) (Or.inl rfl)
  have hshows := hopen.append (h.append hclose)
  have hshape : JsString.aElement (href.flatMap escapeUnit) content = lessThan :: (hrefStart ++
      (href.flatMap escapeUnit ++ [quotationMark]) ++ [greaterThan]) ++ (content ++ js "</a>") := by
    have hstart : js "<a href=" = lessThan :: js "a href=" := rfl
    rw [JsString.aElement, hstart, hrefStart]
    simp
  rw [hshape]
  simpa using hshows

/-! ### Line breaks of escaped text -/

theorem noBreak_reference {c : UInt16} (hc : NoBreak [c]) : NoBreak (escapeUnit c) := by
  have hall : ∀ e ∈ entities, lineFeed ∉ reference e.1 ∧ carriageReturn ∉ reference e.1 := by decide
  rcases escapeUnit_cases c with ⟨-, hunit⟩ | ⟨e, he, -, hentity⟩
  · rwa [hunit]
  · rw [hentity]
    exact hall e he

theorem escapeUnit_ne_nil (c : UInt16) : escapeUnit c ≠ [] := by
  rcases escapeUnit_cases c with ⟨-, hunit⟩ | ⟨e, -, -, hentity⟩
  · rw [hunit]
    exact List.cons_ne_nil _ _
  · rw [hentity]
    exact List.cons_ne_nil _ _

/-- Escaped text with `<br>` for its line breaks is made of lines, and shows the text with newlines
for them. -/
theorem replaceBreaks_escaped (s : JsString) : ∀ afterCr,
    Lines (replaceBreaks brTag afterCr (s.flatMap escapeUnit)) ∧
      Shows (replaceBreaks brTag afterCr (s.flatMap escapeUnit))
        (replaceBreaks [lineFeed] afterCr s) [] := by
  induction s with
  | nil => exact fun _ => ⟨.nil, Shows.nil⟩
  | cons c rest ih =>
    intro afterCr
    rw [List.flatMap_cons]
    by_cases hbreak : NoBreak [c]
    · obtain ⟨hlines, hshows⟩ := ih false
      have hplain : replaceBreaks [lineFeed] afterCr (c :: rest)
          = [c] ++ replaceBreaks [lineFeed] false rest :=
        replaceBreaks_noBreak hbreak (List.cons_ne_nil _ _) rest afterCr
      rw [replaceBreaks_noBreak (noBreak_reference hbreak) (escapeUnit_ne_nil c), hplain]
      have hunit := shows_escaped [c]
      rw [List.flatMap_cons, List.flatMap_nil, List.append_nil] at hunit
      exact ⟨.text (escaped_escapeUnit c) hlines, hunit.append hshows⟩
    · -- a line break is no special unit
      have hunit : escapeUnit c = [c] ∧ (c = lineFeed ∨ c = carriageReturn) := by
        simp only [NoBreak, List.mem_singleton, not_and_or, not_not] at hbreak
        rcases hbreak with rfl | rfl
        · exact ⟨rfl, Or.inl rfl⟩
        · exact ⟨rfl, Or.inr rfl⟩
      rw [hunit.1, List.singleton_append, replaceBreaks, replaceBreaks]
      split_ifs with hswallowed hcr hlf
      · exact ih false
      · exact ⟨.br (ih true).1, shows_br.append (ih true).2⟩
      · exact ⟨.br (ih false).1, shows_br.append (ih false).2⟩
      · exact absurd hunit.2 (not_or.mpr ⟨hlf, hcr⟩)

end JsString

end Text
