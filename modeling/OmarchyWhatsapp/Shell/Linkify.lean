import OmarchyWhatsapp.Text.JsString

/-!
# Links in a message

The panel shows the text of a message as styled text. `linkifiedMessage` searches it for addresses
and for mentions, escapes what lies between them and wraps them in elements of its own. Absent
fields of a contact are empty here.
-/

namespace OmarchyWhatsapp

open Text Text.JsString

/-! ## Escaping -/

/-- `replace(/c/g, by)`. -/
def replaceUnit (c : UInt16) (replacement : JsString) (s : JsString) : JsString :=
  s.flatMap (fun d => if d = c then replacement else [d])

def escapeHtml (value : JsString) : JsString :=
  replaceUnit apostrophe (js "&#39;") (replaceUnit quotationMark (js "&quot;")
    (replaceUnit greaterThan (js "&gt;") (replaceUnit lessThan (js "&lt;")
      (replaceUnit ampersand (js "&amp;") value))))

def escapedMessageText (value : JsString) : JsString :=
  replaceBreaks (js "<br>") false (escapeHtml value)

/-! ## Contacts -/

/-- A contact, with the fields that mentions are matched with. -/
structure MentionContact where
  isGroup : Bool := false
  jid : JsString
  name : JsString
  isMe : Bool := false
  aliases : List JsString := []
  phoneNumber : JsString := []
deriving DecidableEq, Repr

structure Mention where
  jid : JsString
  name : JsString
  isMe : Bool
deriving DecidableEq, Repr

def friendlyName (name jid : JsString) : JsString :=
  let value := name.trim
  let address := jid.trim
  if value ≠ [] ∧ value ≠ address ∧ indexOf (js "@lid") value = none then value
  else
    let part := firstPart atSign address
    if occursInside (js "@s.whatsapp.net") address ∧ part ≠ [] then js "+" ++ part
    else if occursInside (js "@g.us") address then js "Group · " ++ lastUnits 6 part
    else if occursInside (js "@lid") address then js "Contact · " ++ lastUnits 4 part
    else if value ≠ [] then value
    else if address ≠ [] then address
    else js "Conversation"

def contactPhoneNumber (phoneNumber jid : JsString) : JsString :=
  let value := phoneNumber.trim
  let address := jid.trim
  let number := digits (if value = [] ∧ occursInside (js "@s.whatsapp.net") address
    then firstPart atSign address else value)
  if number = [] then [] else js "+" ++ number

/-- The body of the loop of `contactMention`. -/
def MentionContact.mention (contact : MentionContact) (number : JsString) : Option Mention :=
  let jid := contact.jid.trim
  let name := if contact.isMe then js "You" else contact.name.trim
  if contact.isGroup ∨ jid = [] ∨ name = [] ∨ name = jid ∨ indexOf (js "@lid") name ≠ none then none
  else if digits (contactPhoneNumber contact.phoneNumber jid) = number ∨
      (jid :: contact.aliases).any (fun address => digits (firstPart atSign address) = number) then
    some ⟨jid, friendlyName name jid, contact.isMe⟩
  else none

def contactMention (phoneNumber : JsString) (contacts : List MentionContact) : Option Mention :=
  let number := digits phoneNumber
  if number = [] then none else contacts.findSome? (fun contact => contact.mention number)

/-! ## Links -/

/-- `pairs`: round, square and curly brackets, each closing one with its opening one. -/
def bracketPairs : List (UInt16 × UInt16) := [(0x29, 0x28), (0x5D, 0x5B), (0x7D, 0x7B)]

/-- Whether `last` is trimmed from the end of an address; closing brackets while they have no
opening ones. -/
def shouldTrim (url : JsString) (last : UInt16) : Bool :=
  match bracketPairs.lookup last with
  | some opening => decide (url.count opening < url.count last)
  | none => (js ".,!?;:").elem last

/-- The loop of `trimmedLink`, from the end of the address. -/
def trimmedLinkFrom (suffix : JsString) : JsString → JsString × JsString
  | [] => ([], suffix)
  | last :: url =>
    if shouldTrim (last :: url) last then trimmedLinkFrom (last :: suffix) url
    else ((last :: url).reverse, suffix)

/-- `trimmedLink`: the address, and the punctuation behind it. -/
def trimmedLink (value : JsString) : JsString × JsString := trimmedLinkFrom [] value.reverse

/-- `https?:\/\/|www\.`. -/
def linkPrefixes : List JsString := [js "https://", js "http://", js "www."]

/-- The prefix that an address begins with, in any case. -/
def linkPrefix (s : JsString) : Option JsString :=
  linkPrefixes.find? (fun p => p.isPrefixOf (s.map lowerCase))

/-- Neither white space nor a bracket nor a quote. -/
def isLinkUnit (c : UInt16) : Bool :=
  !isSpace c && c ≠ lessThan && c ≠ greaterThan && c ≠ quotationMark && c ≠ apostrophe

/-- An address at the beginning of a text, and what follows it. -/
def linkAt (s : JsString) : Option (JsString × JsString) :=
  (linkPrefix s).bind fun p =>
    let body := (s.drop p.length).takeWhile isLinkUnit
    if body = [] then none
    else some (s.take p.length ++ body, (s.drop p.length).dropWhile isLinkUnit)

/-- `@[0-9]+` at the beginning of a text. -/
def mentionAt : JsString → Option (JsString × JsString)
  | [] => none
  | c :: rest =>
    if c = atSign ∧ rest.takeWhile isDigit ≠ [] then
      some (atSign :: rest.takeWhile isDigit, rest.dropWhile isDigit)
    else none

def matchAt (s : JsString) : Option (JsString × JsString) := (linkAt s).or (mentionAt s)

/-- A match of the pattern: what was skipped before it, and the units next to it. -/
structure LinkMatch where
  skipped : JsString
  before : Option UInt16
  text : JsString
  after : Option UInt16
deriving DecidableEq, Repr

/-- `pattern.exec`, and what follows the match. -/
def execFrom (before : Option UInt16) : JsString → Option (LinkMatch × JsString)
  | [] => none
  | c :: rest =>
    match matchAt (c :: rest) with
    | some (text, following) => some (⟨[], before, text, following.head?⟩, following)
    | none =>
      (execFrom (some c) rest).map fun found =>
        ({ found.1 with skipped := c :: found.1.skipped }, found.2)

/-- All matches, and what follows the last one. The first argument bounds their number. -/
def matchesFrom : ℕ → Option UInt16 → JsString → List LinkMatch × JsString
  | 0, _, input => ([], input)
  | fuel + 1, before, input =>
    match execFrom before input with
    | none => ([], input)
    | some (found, following) =>
      let later := matchesFrom fuel found.text.getLast? following
      (found :: later.1, later.2)

/-- Each match has a unit of the text, so there are not more of them than units. -/
def linkMatches (input : JsString) : List LinkMatch × JsString :=
  matchesFrom input.length none input

namespace LinkMatch

def isMention (m : LinkMatch) : Bool := m.text.head? = some atSign

/-- The contact of a mention that stands alone. -/
def mention (m : LinkMatch) (contacts : List MentionContact) : Option Mention :=
  if m.before.any isWord ∨ m.after.any isWord then none else contactMention m.text.tail contacts

/-- What a match is replaced with; `throws` when a jid cannot be encoded. -/
inductive Replacement where
  | keep
  | throws
  | markup (html : JsString)

def fontOpen (linkColor : JsString) : JsString :=
  js "<font color=" ++ [quotationMark] ++ escapeHtml linkColor ++ [quotationMark, greaterThan]

def mentionMarkup (linkColor : JsString) (mention : Mention) : JsString :=
  fontOpen linkColor ++ js "@" ++ escapedMessageText mention.name ++ js "</font>"

/-- The body of the loop of `linkifiedMessage`. -/
def replacement (m : LinkMatch) (linkColor : JsString) (contacts : List MentionContact) :
    Replacement :=
  if m.isMention then
    match m.mention contacts with
    | none => .keep
    | some mention =>
      if mention.isMe then .markup (mentionMarkup linkColor mention)
      else match encodeURIComponent mention.jid with
        | none => .throws
        | some encoded =>
          .markup (js "<a href=" ++ [quotationMark] ++ js "mention:" ++ escapeHtml encoded ++
            [quotationMark, greaterThan] ++ mentionMarkup linkColor mention ++ js "</a>")
  else
    let (url, suffix) := trimmedLink m.text
    if url = [] then .keep
    else
      let href := if (js "www.").isPrefixOf url then js "https://" ++ url else url
      .markup (js "<a href=" ++ [quotationMark] ++ escapeHtml href ++
        [quotationMark, greaterThan] ++ fontOpen linkColor ++ escapedMessageText url ++
        js "</font></a>" ++ escapedMessageText suffix)

end LinkMatch

/-- The loop of `linkifiedMessage`; `pending` lies between the cursor and the next match. -/
def linkifyFrom (linkColor : JsString) (contacts : List MentionContact) (rest pending : JsString) :
    List LinkMatch → Option JsString
  | [] => some (escapedMessageText (pending ++ rest))
  | m :: ms =>
    match m.replacement linkColor contacts with
    | .keep => linkifyFrom linkColor contacts rest (pending ++ m.skipped ++ m.text) ms
    | .throws => none
    | .markup html =>
      (linkifyFrom linkColor contacts rest [] ms).map
        (escapedMessageText (pending ++ m.skipped) ++ html ++ ·)

/-- `linkifiedMessage`; nothing when `encodeURIComponent` throws. -/
def linkifiedMessage (value linkColor : JsString) (contacts : List MentionContact) :
    Option JsString :=
  linkifyFrom linkColor contacts (linkMatches value).2 [] (linkMatches value).1

end OmarchyWhatsapp
