import Mathlib.Data.List.Dedup
import Mathlib.Data.List.Perm.Subperm
import OmarchyWhatsapp.Outbox.Mentions
import OmarchyWhatsapp.Shell.Composer
import OmarchyWhatsapp.Shell.Drafts
import OmarchyWhatsapp.Text.Utf16

/-!
# The mentions that the daemon finds

The shell decides where a label stands alone in a draft, the daemon where a number stands alone in
the text that was made from it. They agree but for one unit: a zero width no-break space is white
space to the shell only.
-/

namespace OmarchyWhatsapp

open Text Text.JsString

/-! ## What a draft is composed of -/

/-- A unit of a draft that stays, or a label that a member's number is written for. -/
inductive DraftPiece where
  | typed (c : UInt16)
  | selected (choice : Selection)
deriving DecidableEq, Repr

def DraftPiece.units : DraftPiece → JsString
  | .typed c => [c]
  | .selected choice => atSign :: choice.number

def piecesFrom (choices : List Selection) : ℕ → Option UInt16 → JsString → List DraftPiece
  | _, _, [] => []
  | skip + 1, _, c :: rest => piecesFrom choices skip (some c) rest
  | 0, before, c :: rest =>
    match selectedAt choices before (c :: rest) with
    | some choice => .selected choice :: piecesFrom choices (choice.label.length - 1) (some c) rest
    | none => .typed c :: piecesFrom choices 0 (some c) rest

/-- What stays of a draft and the labels in it. -/
def draftPieces (draft : JsString) (selections : List Selection) : List DraftPiece :=
  piecesFrom (mentionLabels selections) 0 none draft

def writtenAs (ps : List DraftPiece) : JsString := ps.flatMap DraftPiece.units

theorem writtenAs_append (ps qs : List DraftPiece) :
    writtenAs (ps ++ qs) = writtenAs ps ++ writtenAs qs := List.flatMap_append

theorem writtenAs_typed (s : JsString) : writtenAs (s.map .typed) = s := by
  induction s with
  | nil => rfl
  | cons c rest ih => exact congrArg (c :: ·) ih

section Compose

variable {choices : List Selection}

theorem text_composeFrom (input : JsString) : ∀ composed skip before,
    (composeFrom choices composed skip before input).text
      = composed.text ++ writtenAs (piecesFrom choices skip before input) := by
  induction input with
  | nil =>
    intro composed skip before
    cases skip <;> exact (List.append_nil _).symm
  | cons c rest ih =>
    intro composed skip before
    cases skip with
    | succ skip => exact ih composed skip (some c)
    | zero =>
      unfold composeFrom piecesFrom
      cases selectedAt choices before (c :: rest) with
      | none =>
        show (composeFrom choices _ 0 (some c) rest).text = _
        rw [ih]
        exact List.append_assoc _ [c] _
      | some choice =>
        show (composeFrom choices _ _ (some c) rest).text = _
        rw [ih]
        exact List.append_assoc _ (atSign :: choice.number) _

theorem mem_mentions_composeFrom (jid : JsString) (input : JsString) : ∀ composed skip before,
    jid ∈ (composeFrom choices composed skip before input).mentions ↔
      jid ∈ composed.mentions ∨
        ∃ choice, .selected choice ∈ piecesFrom choices skip before input ∧ choice.jid = jid := by
  induction input with
  | nil =>
    intro composed skip before
    cases skip <;> simp [composeFrom, piecesFrom]
  | cons c rest ih =>
    intro composed skip before
    cases skip with
    | succ skip => exact ih composed skip (some c)
    | zero =>
      unfold composeFrom piecesFrom
      cases selectedAt choices before (c :: rest) with
      | none =>
        show jid ∈ (composeFrom choices _ 0 (some c) rest).mentions ↔ _
        rw [ih]
        simp
      | some choice =>
        show jid ∈ (composeFrom choices _ _ (some c) rest).mentions ↔ _
        have hmention : jid ∈ (composed.mention choice).mentions ↔
            jid ∈ composed.mentions ∨ choice.jid = jid := by
          unfold ComposedText.mention
          split
          · rename_i hmem
            exact ⟨Or.inl, fun h => h.elim id (fun heq => heq ▸ hmem)⟩
          · rw [List.mem_append, List.mem_singleton, eq_comm]
        rw [ih, hmention]
        simp [or_assoc]

theorem nodup_mentions_composeFrom (input : JsString) : ∀ composed skip before,
    composed.mentions.Nodup → (composeFrom choices composed skip before input).mentions.Nodup := by
  induction input with
  | nil =>
    intro composed skip before h
    cases skip <;> exact h
  | cons c rest ih =>
    intro composed skip before h
    cases skip with
    | succ skip => exact ih composed skip (some c) h
    | zero =>
      unfold composeFrom
      cases selectedAt choices before (c :: rest) with
      | none => exact ih _ 0 (some c) h
      | some choice =>
        refine ih _ _ (some c) ?_
        unfold ComposedText.mention
        split
        · exact h
        · rename_i hmem
          exact List.nodup_append.mpr ⟨h, List.nodup_singleton _, by
            rintro a ha b hb rfl
            exact hmem (List.mem_singleton.mp hb ▸ ha)⟩

end Compose

theorem text_composeMentions (draft : JsString) (selections : List Selection) :
    (composeMentions draft selections).text = writtenAs (draftPieces draft selections) :=
  text_composeFrom draft ⟨[], []⟩ 0 none

theorem mem_mentions_composeMentions {jid draft : JsString} {selections : List Selection} :
    jid ∈ (composeMentions draft selections).mentions ↔
      ∃ choice, .selected choice ∈ draftPieces draft selections ∧ choice.jid = jid := by
  rw [composeMentions, mem_mentions_composeFrom]
  simp [draftPieces]

/-! ## What stands beside a label -/

/-- A selection that `composeMentions` looks for. -/
structure Eligible (p : Selection) : Prop where
  long : 1 < p.label.length
  jid : isMentionJid p.jid = true

theorem eligible_of_mem {selections : List Selection} {p : Selection}
    (h : p ∈ mentionLabels selections) : Eligible p := by
  have hmem := List.mem_mergeSort.mp h
  obtain ⟨-, hkept⟩ := List.mem_filter.mp hmem
  simp only [Bool.and_eq_true, decide_eq_true_eq] at hkept
  exact ⟨hkept.1.1, hkept.2⟩

theorem selectedAt_spec {choices : List Selection} {before : Option UInt16} {input : JsString}
    {p : Selection} (h : selectedAt choices before input = some p) :
    p ∈ choices ∧ before.all opensMention = true ∧
      ∃ rest, input = p.label ++ rest ∧ rest.head?.all closesMention = true := by
  unfold selectedAt at h
  split at h
  · rename_i hopens
    have hfound := List.find?_some h
    obtain ⟨hstart, hcloses⟩ := (Bool.and_eq_true _ _).mp hfound
    obtain ⟨rest, rfl⟩ := List.isPrefixOf_iff_prefix.mp hstart
    rw [List.drop_left] at hcloses
    exact ⟨List.mem_of_find?_eq_some h, hopens.2, rest, rfl, hcloses⟩
  · cases h

/-- The units of a label are passed over. -/
theorem exists_piecesFrom_skip (choices : List Selection) (label rest : JsString) :
    ∀ before, ∃ before', piecesFrom choices label.length before (label ++ rest)
      = piecesFrom choices 0 before' rest := by
  induction label with
  | nil => exact fun before => ⟨before, rfl⟩
  | cons c label ih => exact fun before => ih (some c)

def OpensAfter (before : Option DraftPiece) : Prop :=
  ∀ piece ∈ before, ∃ c, piece = .typed c ∧ opensMention c = true

def ClosesBefore (after : Option DraftPiece) : Prop :=
  ∀ piece ∈ after, ∃ c, piece = .typed c ∧ closesMention c = true

/-- A label stands behind a unit that opens a mention and before one that closes it. -/
def Bordered : Option DraftPiece → List DraftPiece → Prop
  | _, [] => True
  | _, .typed c :: ps => Bordered (some (.typed c)) ps
  | before, .selected p :: ps => Eligible p ∧ OpensAfter before ∧ ClosesBefore ps.head? ∧
    Bordered (some (.selected p)) ps

theorem Bordered.cons {before : Option DraftPiece} {piece : DraftPiece} {ps : List DraftPiece}
    (h : Bordered before (piece :: ps)) : Bordered (some piece) ps := by
  cases piece with
  | typed c => exact h
  | selected p => exact h.2.2.2

theorem Bordered.of_closing {ps : List DraftPiece} {before : Option DraftPiece}
    (h : Bordered before ps) (hps : ClosesBefore ps.head?) (before' : Option DraftPiece) :
    Bordered before' ps := by
  cases ps with
  | nil => trivial
  | cons piece ps =>
    obtain ⟨c, rfl, -⟩ := hps piece rfl
    exact h

/-- The pieces beside a label. -/
theorem Bordered.split {p : Selection} {qs : List DraftPiece} (ps : List DraftPiece) :
    ∀ {before}, Bordered before (ps ++ .selected p :: qs) →
      Eligible p ∧ OpensAfter (ps.getLast?.or before) ∧ ClosesBefore qs.head? := by
  induction ps with
  | nil => exact fun h => ⟨h.1, h.2.1, h.2.2.1⟩
  | cons piece ps ih =>
    intro before h
    have hlast : (piece :: ps).getLast?.or before = ps.getLast?.or (some piece) := by
      cases ps with
      | nil => rfl
      | cons piece' ps =>
        rw [List.getLast?_cons_cons, List.getLast?_eq_some_getLast (List.cons_ne_nil _ _)]
        rfl
    rw [hlast]
    exact ih h.cons

/-- What follows a label is not a label. -/
theorem closesBefore_piecesFrom (choices : List Selection) {rest : JsString}
    (h : rest.head?.all closesMention = true) (before : Option UInt16) :
    ClosesBefore (piecesFrom choices 0 before rest).head? := by
  cases rest with
  | nil => exact nofun
  | cons c rest =>
    have hcloses : closesMention c = true := h
    have hnone : selectedAt choices before (c :: rest) = none := by
      refine if_neg fun hstart => ?_
      have hc : c = atSign := Option.some.inj hstart.1
      rw [hc, show closesMention atSign = false from by decide] at hcloses
      cases hcloses
    rw [piecesFrom, hnone]
    intro piece hpiece
    exact ⟨c, (Option.some.inj hpiece).symm, hcloses⟩

theorem bordered_piecesFrom {choices : List Selection} (hchoices : ∀ p ∈ choices, Eligible p)
    (n : ℕ) : ∀ (input : JsString) (before : Option UInt16), input.length ≤ n →
      Bordered (before.map .typed) (piecesFrom choices 0 before input) := by
  induction n with
  | zero =>
    intro input before hlength
    obtain rfl := List.length_eq_zero_iff.mp (Nat.le_zero.mp hlength)
    trivial
  | succ n ih =>
    intro input before hlength
    cases input with
    | nil => trivial
    | cons c rest =>
      rw [List.length_cons] at hlength
      cases hselected : selectedAt choices before (c :: rest) with
      | none =>
        rw [piecesFrom, hselected]
        exact ih rest (some c) (by omega)
      | some p =>
        obtain ⟨hmem, hopens, following, hinput, hcloses⟩ := selectedAt_spec hselected
        have heligible := hchoices p hmem
        have hlong := heligible.long
        rw [piecesFrom, hselected]
        cases hlabel : p.label with
        | nil =>
          rw [hlabel] at hlong
          exact absurd hlong (by decide)
        | cons d label =>
          rw [hlabel] at hinput
          obtain ⟨rfl, rfl⟩ := List.cons.inj hinput
          obtain ⟨before', hskip⟩ :=
            exists_piecesFrom_skip choices label following (some c)
          have hclosing := closesBefore_piecesFrom choices hcloses before'
          have hlength : (label ++ following).length + 1 ≤ n + 1 := hlength
          rw [List.length_append] at hlength
          have hlater := ih following before' (by omega)
          have hopensAfter : OpensAfter (before.map .typed) := by
            intro piece hpiece
            obtain ⟨e, rfl, rfl⟩ := Option.map_eq_some_iff.mp hpiece
            exact ⟨e, rfl, hopens⟩
          show Eligible p ∧ _ ∧ ClosesBefore (piecesFrom choices (p.label.length - 1) (some c)
            (label ++ following)).head? ∧ Bordered _ (piecesFrom choices (p.label.length - 1)
              (some c) (label ++ following))
          rw [hlabel, List.length_cons, Nat.add_sub_cancel, hskip]
          exact ⟨heligible, hopensAfter, hclosing, hlater.of_closing hclosing _⟩

theorem bordered_draftPieces (draft : JsString) (selections : List Selection) :
    Bordered none (draftPieces draft selections) :=
  bordered_piecesFrom (fun _ h => eligible_of_mem h) draft.length draft none le_rfl

/-! ## Classes of characters -/

/-- What is used of the classes of Unicode: those of ASCII, and that white space and the zero width
no-break space are not alphanumeric. -/
structure Classifies (isAlphanumeric : Char → Bool) : Prop where
  ascii : ∀ c, c.toNat < 0x80 → isAlphanumeric c = c.isAlphanum
  space : ∀ c, isWhitespace c = true → isAlphanumeric c = false
  joiner : isAlphanumeric (charOf 0xFEFF) = false

/-- White space of the shell and punctuation are no surrogates. -/
theorem isPlain_of_isSpace {c : UInt16} (h : isSpace c = true) : isPlain c = true := by
  obtain ⟨hhigh, hlow⟩ := not_surrogate_of_isSpace h
  rw [isPlain, hhigh, hlow]
  rfl

theorem isSpace_cases {c : UInt16} (h : isSpace c = true) :
    c = 0xFEFF ∨ isWhitespace (charOf c) = true := by
  have hplain := isPlain_of_isSpace h
  simp only [isSpace, Bool.or_eq_true, Bool.and_eq_true, decide_eq_true_eq, ← UInt16.toNat_inj,
    UInt16.le_iff_toNat_le, UInt16.reduceToNat] at h
  simp only [isWhitespace, toNat_charOf hplain, Bool.or_eq_true, Bool.and_eq_true,
    decide_eq_true_eq, ← UInt16.toNat_inj, UInt16.reduceToNat]
  omega

theorem isPlain_of_elem {s : String} (hs : (js s).all isPlain = true) {c : UInt16}
    (h : (js s).elem c = true) : isPlain c = true :=
  List.all_eq_true.mp hs c (List.mem_of_elem_eq_true h)

theorem isPlain_of_opensMention {c : UInt16} (h : opensMention c = true) : isPlain c = true := by
  rcases (Bool.or_eq_true _ _).mp h with hspace | hbracket
  · exact isPlain_of_isSpace hspace
  · exact isPlain_of_elem (by decide) hbracket

theorem isPlain_of_closesMention {c : UInt16} (h : closesMention c = true) :
    isPlain c = true := by
  rcases (Bool.or_eq_true _ _).mp h with hspace | hmark
  · exact isPlain_of_isSpace hspace
  · exact isPlain_of_elem (by decide) hmark

/-- A unit that opens a mention does so for the daemon, unless it is the no-break space. -/
theorem standsBefore_iff {c : UInt16} (h : opensMention c = true) :
    standsBefore (charOf c) = true ↔ c ≠ 0xFEFF := by
  constructor
  · rintro hstands rfl
    exact absurd hstands (by decide)
  · intro hc
    rcases (Bool.or_eq_true _ _).mp h with hspace | hbracket
    · rw [standsBefore, (isSpace_cases hspace).resolve_left hc]
      rfl
    · have hbrackets : (js "([\x7b").all (fun d => standsBefore (charOf d)) = true := by decide
      exact List.all_eq_true.mp hbrackets c (List.mem_of_elem_eq_true hbracket)

theorem not_isAlphanumeric_of_closesMention {isAlphanumeric : Char → Bool}
    (halphanumeric : Classifies isAlphanumeric) {c : UInt16} (h : closesMention c = true) :
    isAlphanumeric (charOf c) = false ∧ charOf c ≠ '_' := by
  rcases (Bool.or_eq_true _ _).mp h with hspace | hmark
  · rcases isSpace_cases hspace with rfl | hwhite
    · exact ⟨halphanumeric.joiner, by decide⟩
    · refine ⟨halphanumeric.space _ hwhite, fun hunderscore => ?_⟩
      rw [hunderscore] at hwhite
      exact absurd hwhite (by decide)
  · have hmarks : (js ".,!?;:)]\x7d").all (fun d => (charOf d).toNat < 0x80 ∧
        (charOf d).isAlphanum = false ∧ charOf d ≠ '_') = true := by decide
    obtain ⟨hascii, hplain, hunderscore⟩ :=
      of_decide_eq_true (List.all_eq_true.mp hmarks c (List.mem_of_elem_eq_true hmark))
    exact ⟨(halphanumeric.ascii _ hascii).trans hplain, hunderscore⟩

/-! ## Where a number stands -/

theorem split_of_not_mem {α : Type} {a : α} {w l x y : List α} (h : w ++ l = x ++ a :: y)
    (ha : a ∉ w) : ∃ x', x = w ++ x' ∧ l = x' ++ a :: y := by
  rcases List.append_eq_append_iff.mp h with ⟨x', rfl, hl⟩ | ⟨rest, rfl, hrest⟩
  · exact ⟨x', rfl, hl⟩
  · cases rest with
    | nil => exact ⟨[], by rw [List.append_nil, List.append_nil], hrest.symm⟩
    | cons b rest =>
      obtain rfl := (List.cons.inj hrest).1
      exact absurd (List.mem_append_right x List.mem_cons_self) ha

theorem atSign_notMem_number (p : Selection) : atSign ∉ p.number := by
  intro h
  have := List.mem_takeWhile_imp h
  exact absurd this (by decide)

/-- An `@` of the text that is written was typed, or begins the number of a member. -/
theorem writtenAs_eq_append_atSign {x y : JsString} : ∀ {ps : List DraftPiece},
    writtenAs ps = x ++ atSign :: y →
      (∃ before after, ps = before ++ .typed atSign :: after ∧ writtenAs before = x ∧
        writtenAs after = y) ∨
      ∃ before choice after, ps = before ++ .selected choice :: after ∧ writtenAs before = x ∧
        y = choice.number ++ writtenAs after := by
  intro ps
  induction ps generalizing x with
  | nil =>
    intro h
    exact absurd h.symm (List.append_ne_nil_of_right_ne_nil _ (List.cons_ne_nil _ _))
  | cons piece ps ih =>
    intro h
    -- the `@` is in the pieces behind the first one
    have hlater {x' : JsString} (hx : x = piece.units ++ x')
        (hrest : writtenAs ps = x' ++ atSign :: y) :
        (∃ before after, piece :: ps = before ++ .typed atSign :: after ∧ writtenAs before = x ∧
          writtenAs after = y) ∨
        ∃ before choice after, piece :: ps = before ++ .selected choice :: after ∧
          writtenAs before = x ∧ y = choice.number ++ writtenAs after := by
      rcases ih hrest with ⟨before, after, hps, hbefore, hafter⟩ |
        ⟨before, choice, after, hps, hbefore, hy⟩
      · exact Or.inl ⟨piece :: before, after, congrArg (piece :: ·) hps,
          hx ▸ congrArg (piece.units ++ ·) hbefore, hafter⟩
      · exact Or.inr ⟨piece :: before, choice, after, congrArg (piece :: ·) hps,
          hx ▸ congrArg (piece.units ++ ·) hbefore, hy⟩
    have h : piece.units ++ writtenAs ps = x ++ atSign :: y := h
    cases x with
    | nil =>
      cases piece with
      | typed c =>
        obtain ⟨rfl, hrest⟩ := List.cons.inj h
        exact Or.inl ⟨[], ps, rfl, rfl, hrest⟩
      | selected choice =>
        exact Or.inr ⟨[], choice, ps, rfl, rfl, (List.cons.inj h).2.symm⟩
    | cons d x =>
      cases piece with
      | typed c =>
        obtain ⟨rfl, hrest⟩ := List.cons.inj h
        exact hlater rfl hrest
      | selected choice =>
        obtain ⟨rfl, hrest⟩ := List.cons.inj h
        obtain ⟨x', rfl, hlast⟩ := split_of_not_mem hrest (atSign_notMem_number choice)
        exact hlater rfl hlast

/-- Digits behind an `@` that was typed were typed. -/
theorem writtenAs_eq_digits_append {number z : JsString}
    (hdigits : ∀ c ∈ number, isDigit c = true) : ∀ {ps : List DraftPiece},
    writtenAs ps = number ++ z → ∃ after, ps = number.map .typed ++ after ∧ writtenAs after = z := by
  induction number with
  | nil => exact fun h => ⟨_, rfl, h⟩
  | cons c number ih =>
    intro ps h
    obtain ⟨hc, hnumber⟩ := List.forall_mem_cons.mp hdigits
    cases ps with
    | nil => exact absurd h.symm (List.cons_ne_nil _ _)
    | cons piece ps =>
      cases piece with
      | typed d =>
        obtain ⟨rfl, hrest⟩ := List.cons.inj h
        obtain ⟨after, rfl, hafter⟩ := ih hnumber hrest
        exact ⟨after, rfl, hafter⟩
      | selected choice =>
        obtain ⟨rfl, -⟩ := List.cons.inj h
        exact absurd hc (by decide)

section Standing

variable (isAlphanumeric : Char → Bool) (lone : Char)

/-- The number of a member stands in the place of a label that is not right behind a zero width
no-break space, or was typed and stands alone for the daemon. -/
def NumberStands (ps : List DraftPiece) (number : JsString) : Prop :=
  (∃ before choice after, ps = before ++ .selected choice :: after ∧ choice.number = number ∧
    before.getLast? ≠ some (.typed 0xFEFF)) ∨
  ∃ before after, ps = before ++ ((atSign :: number).map .typed ++ after) ∧
    standsAlone isAlphanumeric (chars lone (writtenAs before)).getLast?
      (chars lone (writtenAs after)).head? = true

variable {isAlphanumeric lone}

theorem isPlain_of_isDigit {c : UInt16} (h : isDigit c = true) : isPlain c = true := by
  have hle : c ≤ 0x39 := of_decide_eq_true ((Bool.and_eq_true _ _).mp h).2
  obtain ⟨hhigh, hlow⟩ := not_surrogate_of_le hle (by decide)
  rw [isPlain, hhigh, hlow]
  rfl

theorem isDigit_charOf {c : UInt16} (h : isDigit c = true) :
    (charOf c).isDigit = true ∧ (charOf c).toNat < 0x80 := by
  have hplain := toNat_charOf (isPlain_of_isDigit h)
  simp only [isDigit, Bool.and_eq_true, decide_eq_true_eq, UInt16.le_iff_toNat_le,
    UInt16.reduceToNat] at h
  have hbounds : 0x30 ≤ (charOf c).val.toNat ∧ (charOf c).val.toNat ≤ 0x39 := by
    rw [← hplain] at h
    exact h
  refine ⟨?_, by omega⟩
  rw [Char.isDigit, Bool.and_eq_true]
  exact ⟨decide_eq_true (UInt32.le_iff_toNat_le.mpr hbounds.1),
    decide_eq_true (UInt32.le_iff_toNat_le.mpr hbounds.2)⟩

theorem isAlphanumeric_of_isDigit (halphanumeric : Classifies isAlphanumeric) {c : UInt16}
    (h : isDigit c = true) : isAlphanumeric (charOf c) = true := by
  obtain ⟨hdigit, hascii⟩ := isDigit_charOf h
  rw [halphanumeric.ascii _ hascii, Char.isAlphanum, hdigit, Bool.or_true]

/-- What the daemon reads behind a label. -/
theorem head?_chars_of_closesBefore (lone : Char) {after : List DraftPiece}
    (h : ClosesBefore after.head?) :
    after = [] ∨ ∃ d rest, after = .typed d :: rest ∧ closesMention d = true ∧
      chars lone (writtenAs after) = charOf d :: chars lone (writtenAs rest) := by
  cases after with
  | nil => exact Or.inl rfl
  | cons piece after =>
    obtain ⟨d, rfl, hcloses⟩ := h piece rfl
    refine Or.inr ⟨d, after, rfl, hcloses, ?_⟩
    exact chars_append_cons (isPlain_of_closesMention hcloses) [] (writtenAs after)

/-- What the daemon reads before a label. -/
theorem getLast?_chars_of_opensAfter (lone : Char) {before : List DraftPiece}
    (h : OpensAfter before.getLast?) :
    before = [] ∨ ∃ c, before.getLast? = some (.typed c) ∧ opensMention c = true ∧
      (chars lone (writtenAs before)).getLast? = some (charOf c) := by
  rcases List.eq_nil_or_concat before with rfl | ⟨init, piece, rfl⟩
  · exact Or.inl rfl
  · rw [List.concat_eq_append, List.getLast?_concat] at h ⊢
    obtain ⟨c, rfl, hopens⟩ := h piece rfl
    refine Or.inr ⟨c, rfl, hopens, ?_⟩
    rw [writtenAs_append]
    show (chars lone (writtenAs init ++ c :: [])).getLast? = _
    rw [chars_append_cons (isPlain_of_opensMention hopens)]
    exact List.getLast?_concat

theorem charOf_atSign : charOf atSign = '@' := rfl

/-- The text that is written for pieces with a number in them. -/
theorem chars_number_between {number : JsString} (hdigits : ∀ c ∈ number, isDigit c = true)
    (x y : JsString) : chars lone (x ++ atSign :: (number ++ y))
      = chars lone x ++ '@' :: (number.map charOf ++ chars lone y) := by
  rw [chars_append_cons (by decide), charOf_atSign,
    chars_append_plain (fun c hc => isPlain_of_isDigit (hdigits c hc))]

theorem isMentionJid_split {jid : JsString} (h : isMentionJid jid = true) :
    ∃ server, (server = "s.whatsapp.net" ∨ server = "lid") ∧ jid.takeWhile isDigit ≠ [] ∧
      firstPart atSign jid = jid.takeWhile isDigit ∧
      jid = jid.takeWhile isDigit ++ atSign :: js server := by
  obtain ⟨hne, hserver⟩ := (Bool.and_eq_true _ _).mp h
  have hkept : ∀ c ∈ jid.takeWhile isDigit, decide (c ≠ atSign) = true := by
    intro c hc
    refine decide_eq_true fun hat => ?_
    rw [hat] at hc
    exact absurd (List.mem_takeWhile_imp hc) (by decide)
  have hsplit : jid = jid.takeWhile isDigit ++ jid.dropWhile isDigit :=
    List.takeWhile_append_dropWhile.symm
  have hfirst {server : JsString} (hdrop : jid.dropWhile isDigit = atSign :: server) :
      firstPart atSign jid = jid.takeWhile isDigit := by
    rw [hdrop] at hsplit
    have hwhole := congrArg (firstPart atSign) hsplit
    rw [firstPart, firstPart, List.takeWhile_append_of_pos hkept] at hwhole
    simpa [firstPart] using hwhole
  rcases (Bool.or_eq_true _ _).mp hserver with hdrop | hdrop
  · have hdrop : jid.dropWhile isDigit = atSign :: js "s.whatsapp.net" := of_decide_eq_true hdrop
    exact ⟨_, Or.inl rfl, of_decide_eq_true hne, hfirst hdrop, hdrop ▸ hsplit⟩
  · have hdrop : jid.dropWhile isDigit = atSign :: js "lid" := of_decide_eq_true hdrop
    exact ⟨_, Or.inr rfl, of_decide_eq_true hne, hfirst hdrop, hdrop ▸ hsplit⟩

theorem digits_number {p : Selection} (h : isMentionJid p.jid = true) :
    (∀ c ∈ p.number, isDigit c = true) ∧ p.number ≠ [] := by
  obtain ⟨server, -, hne, hfirst, -⟩ := isMentionJid_split h
  rw [Selection.number, hfirst]
  exact ⟨fun c hc => List.mem_takeWhile_imp hc, hne⟩

/-- No digit stands beside a number that the daemon finds in the place of a label. -/
theorem number_of_standsAlone (halphanumeric : Classifies isAlphanumeric) {number z : JsString}
    {choice : Selection} {after : List DraftPiece} (hcloses : ClosesBefore after.head?)
    (hchoice : ∀ c ∈ choice.number, isDigit c = true) (hdigits : ∀ c ∈ number, isDigit c = true)
    (hnumber : number ++ z = choice.number ++ writtenAs after)
    (hbehind : (chars lone z).head?.all (standsBehind isAlphanumeric) = true) :
    choice.number = number := by
  rcases List.append_eq_append_iff.mp hnumber with ⟨rest, hrest, hz⟩ | ⟨rest, hrest, hafter⟩
  · cases rest with
    | nil => rw [hrest, List.append_nil]
    | cons d rest =>
      have hd : isDigit d = true := hchoice d (hrest ▸ List.mem_append_right _ List.mem_cons_self)
      have hhead : (chars lone z).head? = some (charOf d) := by
        rw [hz, List.cons_append]
        show (chars lone ([] ++ d :: _)).head? = _
        rw [chars_append_cons (isPlain_of_isDigit hd)]
        rfl
      rw [hhead, Option.all_some, standsBehind, isAlphanumeric_of_isDigit halphanumeric hd] at hbehind
      cases hbehind
  · cases rest with
    | nil => rw [hrest, List.append_nil]
    | cons d rest =>
      have hd : isDigit d = true := hdigits d (hrest ▸ List.mem_append_right _ List.mem_cons_self)
      rcases head?_chars_of_closesBefore lone hcloses with rfl | ⟨e, after', rfl, he, -⟩
      · cases hafter
      · obtain ⟨rfl, -⟩ := List.cons.inj hafter
        have hmark := (not_isAlphanumeric_of_closesMention halphanumeric he).1
        rw [isAlphanumeric_of_isDigit halphanumeric hd] at hmark
        cases hmark

/-- The daemon finds a number in the text exactly where it stands in the draft. -/
theorem occurs_writtenAs_iff (halphanumeric : Classifies isAlphanumeric)
    (hlone : lone ≠ '@' ∧ lone.isDigit = false) {ps : List DraftPiece} (hps : Bordered none ps)
    {number : JsString} (hdigits : ∀ c ∈ number, isDigit c = true) :
    Occurs isAlphanumeric (number.map charOf) (chars lone (writtenAs ps)) ↔
      NumberStands isAlphanumeric lone ps number := by
  have hdigitClass : ∀ c ∈ number, (charOf c).toNat < 0x80 ∧ charOf c ≠ lone := by
    intro c hc
    obtain ⟨hdigit, hascii⟩ := isDigit_charOf (hdigits c hc)
    exact ⟨hascii, fun h => by rw [h, hlone.2] at hdigit; cases hdigit⟩
  constructor
  · rintro ⟨front, back, hsplit, hstands⟩
    obtain ⟨x, y, hwritten, hx, hy⟩ :=
      exists_split_chars (by decide) (Ne.symm hlone.1) (writtenAs ps) none front _ hsplit
    obtain ⟨z, rfl, rfl⟩ := exists_append_of_chars
      (fun c hc => isPlain_of_isDigit (hdigits c hc)) hdigitClass hy
    have hx : chars lone x = front := hx
    subst hx
    rcases writtenAs_eq_append_atSign hwritten with ⟨before, after, rfl, hbefore, hafter⟩ |
      ⟨before, choice, after, rfl, hbefore, hnumber⟩
    · obtain ⟨after', rfl, hafter'⟩ := writtenAs_eq_digits_append hdigits hafter
      refine Or.inr ⟨before, after', rfl, ?_⟩
      rw [hbefore, hafter']
      exact hstands
    · obtain ⟨heligible, hopens, hcloses⟩ := Bordered.split before hps
      obtain ⟨hfront, hbehind⟩ := (Bool.and_eq_true _ _).mp hstands
      have hchoice := (digits_number heligible.jid).1
      refine Or.inl ⟨before, choice, after, rfl,
        number_of_standsAlone halphanumeric hcloses hchoice hdigits hnumber hbehind, ?_⟩
      intro hlast
      rw [Option.or_none] at hopens
      rcases getLast?_chars_of_opensAfter lone hopens with rfl | ⟨c, hc, hopensc, hread⟩
      · cases hlast
      · obtain rfl := DraftPiece.typed.inj (Option.some.inj (hc.symm.trans hlast))
        rw [← hbefore, hread, Option.all_some] at hfront
        exact (standsBefore_iff hopensc).mp hfront rfl
  · rintro (⟨before, choice, after, rfl, rfl, hlast⟩ | ⟨before, after, rfl, hstands⟩)
    · obtain ⟨-, hopens, hcloses⟩ := Bordered.split before hps
      rw [Option.or_none] at hopens
      refine ⟨chars lone (writtenAs before), chars lone (writtenAs after), ?_, ?_⟩
      · rw [writtenAs_append]
        exact chars_number_between hdigits (writtenAs before) (writtenAs after)
      refine (Bool.and_eq_true _ _).mpr ⟨?_, ?_⟩
      · rcases getLast?_chars_of_opensAfter lone hopens with rfl | ⟨c, hc, hopensc, hread⟩
        · rfl
        · rw [hread, Option.all_some]
          exact (standsBefore_iff hopensc).mpr fun h => hlast (h ▸ hc)
      · rcases head?_chars_of_closesBefore lone hcloses with
          rfl | ⟨d, rest, rfl, hclosesd, hread⟩
        · rfl
        · obtain ⟨halpha, hunderscore⟩ :=
            not_isAlphanumeric_of_closesMention halphanumeric hclosesd
          rw [hread, List.head?_cons, Option.all_some, standsBehind, halpha]
          simpa using hunderscore
    · refine ⟨chars lone (writtenAs before), chars lone (writtenAs after), ?_, hstands⟩
      rw [writtenAs_append, writtenAs_append, writtenAs_typed]
      exact chars_number_between hdigits (writtenAs before) (writtenAs after)

end Standing

/-! ## The message -/

/-- A string of the shell as the daemon receives it. -/
def received (lone : Char) (s : JsString) : String := String.ofList (chars lone s)

theorem received_jid (lone : Char) {p : Selection} (h : isMentionJid p.jid = true) :
    ∃ server, (server = "s.whatsapp.net" ∨ server = "lid") ∧
      received lone p.jid = String.ofList (p.number.map charOf ++ '@' :: server.toList) := by
  obtain ⟨server, hserver, -, hfirst, hjid⟩ := isMentionJid_split h
  have hdigits := (digits_number h).1
  refine ⟨server, hserver, congrArg String.ofList ?_⟩
  have hplain : (js server).all isPlain = true := by
    rcases hserver with rfl | rfl <;> decide
  have hname : (js server).map charOf = server.toList := by
    rcases hserver with rfl | rfl <;> decide +kernel
  have hsplit : p.jid = [] ++ (p.number ++ atSign :: js server) := by
    rw [Selection.number, hfirst]
    exact hjid
  rw [hsplit]
  have hnumber : ∀ c ∈ p.number, isPlain c = true := fun c hc => isPlain_of_isDigit (hdigits c hc)
  rw [List.nil_append, chars_append_plain hnumber, ← List.nil_append (atSign :: js server),
    chars_append_cons (by decide), ← List.append_nil (js server),
    chars_append_plain (List.all_eq_true.mp hplain), hname]
  show _ ++ '@' :: (server.toList ++ []) = _
  rw [List.append_nil]

/-- The daemon accepts a mention of the draft when its number stands there. -/
theorem validateMention_received_iff {isAlphanumeric : Char → Bool}
    (halphanumeric : Classifies isAlphanumeric) {lone : Char}
    (hlone : lone ≠ '@' ∧ lone.isDigit = false) {draft : JsString} {selections : List Selection}
    {choice : Selection} (hchoice : .selected choice ∈ draftPieces draft selections) :
    validateMention isAlphanumeric (trim (received lone (composeMentions draft selections).text))
        (received lone choice.jid) = .ok () ↔
      NumberStands isAlphanumeric lone (draftPieces draft selections) choice.number := by
  have hbordered := bordered_draftPieces draft selections
  have hjid : isMentionJid choice.jid = true := by
    obtain ⟨before, after, hsplit⟩ := List.append_of_mem hchoice
    rw [hsplit] at hbordered
    exact (Bordered.split before hbordered).1.jid
  obtain ⟨hdigits, hne⟩ := digits_number hjid
  obtain ⟨server, hserver, hreceived⟩ := received_jid lone hjid
  have hnumber : ∀ c ∈ choice.number.map charOf, c.isDigit = true := by
    intro c hc
    obtain ⟨d, hd, rfl⟩ := List.mem_map.mp hc
    exact (isDigit_charOf (hdigits d hd)).1
  have hwhite : ∀ c ∈ choice.number.map charOf, isWhitespace c = false := by
    intro c hc
    obtain ⟨d, hd, rfl⟩ := List.mem_map.mp hc
    by_contra hspace
    have hclass := halphanumeric.space _ (Bool.not_eq_false _ |>.mp hspace)
    rw [isAlphanumeric_of_isDigit halphanumeric (hdigits d hd)] at hclass
    cases hclass
  rw [hreceived, validateMention_ok_iff (fun h => hne (List.map_eq_nil_iff.mp h)) hnumber hserver,
    occurs_trim halphanumeric.space hwhite, received, String.toList_ofList, text_composeMentions,
    occurs_writtenAs_iff halphanumeric hlone hbordered hdigits]

theorem mem_choices_of_mem_piecesFrom {choices : List Selection} {choice : Selection}
    (input : JsString) : ∀ skip before, .selected choice ∈ piecesFrom choices skip before input →
      choice ∈ choices := by
  induction input with
  | nil =>
    intro skip before h
    cases skip <;> cases h
  | cons c rest ih =>
    intro skip before h
    cases skip with
    | succ skip => exact ih skip (some c) h
    | zero =>
      unfold piecesFrom at h
      split at h
      · rename_i p hselected
        rcases List.mem_cons.mp h with hhead | hlater
        · rw [DraftPiece.selected.inj hhead]
          exact (selectedAt_spec hselected).1
        · exact ih _ (some c) hlater
      · rcases List.mem_cons.mp h with hhead | hlater
        · cases hhead
        · exact ih 0 (some c) hlater

/-- Each member is mentioned once. -/
theorem length_mentions_le (draft : JsString) (selections : List Selection) :
    (composeMentions draft selections).mentions.length
      ≤ (selections.map Selection.jid).dedup.length := by
  have hnodup : (composeMentions draft selections).mentions.Nodup :=
    nodup_mentions_composeFrom draft ⟨[], []⟩ 0 none List.nodup_nil
  refine (hnodup.subperm fun jid hjid => ?_).length_le
  obtain ⟨choice, hchoice, rfl⟩ := mem_mentions_composeMentions.mp hjid
  have hlabel := mem_choices_of_mem_piecesFrom draft 0 none hchoice
  have hmem := (List.mem_filter.mp (List.mem_mergeSort.mp hlabel)).1
  exact List.mem_dedup.mpr (List.mem_map_of_mem hmem)

theorem validateText_ok {deliveryId text : String} (hid : validateDeliveryId deliveryId = .ok ())
    (hne : trim text ≠ "") (hsize : (trim text).utf8ByteSize ≤ maxTextBytes) :
    validateText deliveryId text = .ok (trim text) := by
  unfold validateText
  rw [hid]
  show (if trim text = "" then _ else _) = _
  rw [if_neg hne, if_neg (Nat.not_lt.mpr hsize)]

/-- The daemon accepts the composed text with its mentions exactly when the number of every member
whose label is in the draft stands there. -/
theorem composed_mentions_accepted_iff {isAlphanumeric : Char → Bool}
    (halphanumeric : Classifies isAlphanumeric) {lone : Char}
    (hlone : lone ≠ '@' ∧ lone.isDigit = false) (draft : JsString) (selections : List Selection)
    (hmembers : (selections.map Selection.jid).dedup.length ≤ 1024) {deliveryId : String}
    (hid : validateDeliveryId deliveryId = .ok ())
    (hne : trim (received lone (composeMentions draft selections).text) ≠ "")
    (hsize : (trim (received lone (composeMentions draft selections).text)).utf8ByteSize
      ≤ maxTextBytes) :
    (∃ text accepted,
      validateText deliveryId (received lone (composeMentions draft selections).text) = .ok text ∧
      validateMentions isAlphanumeric true text
        ((composeMentions draft selections).mentions.map (received lone)) = .ok accepted ∧
      ∀ jid, jid ∈ accepted ↔
        jid ∈ (composeMentions draft selections).mentions.map (received lone)) ↔
      ∀ choice, .selected choice ∈ draftPieces draft selections →
        NumberStands isAlphanumeric lone (draftPieces draft selections) choice.number := by
  have htext := validateText_ok hid hne hsize
  have hlength : ((composeMentions draft selections).mentions.map (received lone)).length
      ≤ 1024 := by
    rw [List.length_map]
    exact (length_mentions_le draft selections).trans hmembers
  have hmentions : (∀ jid ∈ (composeMentions draft selections).mentions.map (received lone),
      validateMention isAlphanumeric (trim (received lone (composeMentions draft selections).text))
        jid = .ok ()) ↔ ∀ choice, .selected choice ∈ draftPieces draft selections →
        NumberStands isAlphanumeric lone (draftPieces draft selections) choice.number := by
    constructor
    · intro h choice hchoice
      have hmem : choice.jid ∈ (composeMentions draft selections).mentions :=
        mem_mentions_composeMentions.mpr ⟨choice, hchoice, rfl⟩
      exact (validateMention_received_iff halphanumeric hlone hchoice).mp
        (h _ (List.mem_map_of_mem hmem))
    · intro h jid hjid
      obtain ⟨units, hunits, rfl⟩ := List.mem_map.mp hjid
      obtain ⟨choice, hchoice, rfl⟩ := mem_mentions_composeMentions.mp hunits
      exact (validateMention_received_iff halphanumeric hlone hchoice).mpr (h choice hchoice)
  rw [← hmentions, ← validateMentions_ok hlength]
  constructor
  · rintro ⟨text, accepted, hvalid, haccepted⟩
    obtain rfl := Except.ok.inj (htext.symm.trans hvalid)
    exact ⟨accepted, haccepted⟩
  · rintro ⟨accepted, haccepted⟩
    exact ⟨_, accepted, htext, haccepted⟩

/-- The classes of ASCII alone. -/
theorem classifies_isAlphanum : Classifies Char.isAlphanum where
  ascii := fun _ _ => rfl
  space := by
    intro c hc
    simp only [isWhitespace, Bool.or_eq_true, Bool.and_eq_true, decide_eq_true_eq] at hc
    have hval : c.toNat = c.val.toNat := rfl
    delta Char.isAlphanum Char.isAlpha Char.isUpper Char.isLower Char.isDigit
    simp only [Bool.or_eq_false_iff, Bool.and_eq_false_iff, decide_eq_false_iff_not, ge_iff_le,
      UInt32.le_iff_toNat_le, Char.reduceVal, UInt32.reduceToNat]
    omega
  joiner := by decide

def adaSelection : Selection := ⟨js "@Ada", js "316111@s.whatsapp.net"⟩

theorem composed_mentions_accepted_iff_ada :
    (∃ text accepted,
      validateText "qml-1-1" (received '?' (composeMentions (js "Hi @Ada!") [adaSelection]).text)
        = .ok text ∧
      validateMentions Char.isAlphanum true text
        ((composeMentions (js "Hi @Ada!") [adaSelection]).mentions.map (received '?'))
          = .ok accepted ∧
      ∀ jid, jid ∈ accepted ↔
        jid ∈ (composeMentions (js "Hi @Ada!") [adaSelection]).mentions.map (received '?')) ↔
      ∀ choice, .selected choice ∈ draftPieces (js "Hi @Ada!") [adaSelection] →
        NumberStands Char.isAlphanum '?' (draftPieces (js "Hi @Ada!") [adaSelection]) choice.number :=
  composed_mentions_accepted_iff classifies_isAlphanum (by decide) _ _ (by decide) (by decide)
    (by decide +kernel) (by decide +kernel)

/-- A zero width no-break space before a label. -/
def joinedDraft : JsString := (0xFEFF : UInt16) :: js "@Ada"

/-- The composer writes the number of the member, which the daemon does not find. -/
theorem joined_mention_refused :
    composeMentions joinedDraft [adaSelection]
        = ⟨(0xFEFF : UInt16) :: js "@316111", [js "316111@s.whatsapp.net"]⟩ ∧
      (validateText "qml-1-1" (received '?' (composeMentions joinedDraft [adaSelection]).text)
        = .ok (received '?' ((0xFEFF : UInt16) :: js "@316111"))) ∧
      ∀ isAlphanumeric, validateMentions isAlphanumeric true
        (received '?' ((0xFEFF : UInt16) :: js "@316111")) ["316111@s.whatsapp.net"]
          = .error "mention is absent from message text" := by
  refine ⟨by decide +kernel, by decide +kernel, fun isAlphanumeric => ?_⟩
  rfl

end OmarchyWhatsapp
