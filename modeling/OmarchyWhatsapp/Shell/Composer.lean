import OmarchyWhatsapp.Text.JsString

/-!
# Mentions of a draft

The composer keeps, beside the text of a draft, the members that were picked for it, each with the
label that was written into the text. `composeMentions` finds the labels that stand alone and writes
the numbers of the members in their place. The selections are objects with a label and a jid that
are strings.
-/

namespace OmarchyWhatsapp

open Text Text.JsString

/-- A member that was picked for a draft, with the label that was written into it. -/
structure Selection where
  label : JsString
  jid : JsString
deriving DecidableEq, Repr

/-- `/^[0-9]+@(s\.whatsapp\.net|lid)$/`. -/
def isMentionJid (jid : JsString) : Bool :=
  jid.takeWhile isDigit ≠ [] && (jid.dropWhile isDigit = js "@s.whatsapp.net" ||
    jid.dropWhile isDigit = js "@lid")

/-- `selected.jid.split("@")[0]`. -/
def Selection.number (p : Selection) : JsString := firstPart atSign p.jid

/-- The selections that are looked for, the longest labels first. -/
def mentionLabels (selections : List Selection) : List Selection :=
  (selections.filter fun p =>
    decide (1 < p.label.length) && p.label.head? = some atSign && isMentionJid p.jid).mergeSort
      (fun a b => decide (b.label.length ≤ a.label.length))

/-- `/[\s([{]/`. -/
def opensMention (c : UInt16) : Bool := isSpace c || (js "([\x7b").elem c

/-- `/[\s.,!?;:)\]}]/`. -/
def closesMention (c : UInt16) : Bool := isSpace c || (js ".,!?;:)]\x7d").elem c

/-- The selection whose label stands at the beginning of a text, behind `before`. -/
def selectedAt (choices : List Selection) (before : Option UInt16) (input : JsString) :
    Option Selection :=
  if input.head? = some atSign ∧ before.all opensMention then
    choices.find? fun p =>
      p.label.isPrefixOf input && (input.drop p.label.length).head?.all closesMention
  else none

structure ComposedText where
  text : JsString
  mentions : List JsString
deriving DecidableEq, Repr

/-- The body of the loop of `composeMentions` when a selection was found. -/
def ComposedText.mention (composed : ComposedText) (selected : Selection) : ComposedText where
  text := composed.text ++ atSign :: selected.number
  mentions := if selected.jid ∈ composed.mentions then composed.mentions
    else composed.mentions ++ [selected.jid]

/-- The loop of `composeMentions`; `skip` units belong to the label that was found last. -/
def composeFrom (choices : List Selection) (composed : ComposedText) :
    ℕ → Option UInt16 → JsString → ComposedText
  | _, _, [] => composed
  | skip + 1, _, c :: rest => composeFrom choices composed skip (some c) rest
  | 0, before, c :: rest =>
    match selectedAt choices before (c :: rest) with
    | some selected =>
      composeFrom choices (composed.mention selected) (selected.label.length - 1) (some c) rest
    | none => composeFrom choices { composed with text := composed.text ++ [c] } 0 (some c) rest

def composeMentions (text : JsString) (selections : List Selection) : ComposedText :=
  composeFrom (mentionLabels selections) ⟨[], []⟩ 0 none text

end OmarchyWhatsapp
