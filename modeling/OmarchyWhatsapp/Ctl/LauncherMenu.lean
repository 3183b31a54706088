import OmarchyWhatsapp.Protocol
import OmarchyWhatsapp.Text.Hex
import OmarchyWhatsapp.Text.Search

/-!
# The launcher menu

`launcher-sync` keeps a block of generated entries in the user's menu file, between two marker
comments, and `launcher-remove` takes it out again. Both look for the markers in the text of the
file. A file is the list of its characters; what is searched for is ASCII, so the offsets of the
code fall between characters.
-/

namespace OmarchyWhatsapp

open Text

abbrev MenuText := List Char

def menuBlockBegin : MenuText := "  // BEGIN omarchy-whatsapp launcher chats (generated)".toList

def menuBlockEnd : MenuText := "  // END omarchy-whatsapp launcher chats".toList

def whatsappMenuIcon : MenuText := [Char.ofNat 0xf05a3]

def pluginId : String := "io.github.bryantebeek.whatsapp"

/-! ## Finding the block -/

/-- `Range<usize>`. -/
structure TextRange where
  start : ℕ
  stop : ℕ
deriving DecidableEq, Repr

/-- `String::replace_range`. -/
def replaceRange (text : MenuText) (range : TextRange) (replacement : MenuText) : MenuText :=
  text.take range.start ++ replacement ++ text.drop range.stop

/-- `str::rfind` of a character. -/
def rfind (c : Char) (text : MenuText) : Option ℕ :=
  (text.reverse.idxOf? c).map (fun i => text.length - 1 - i)

/-- `generated_block_span`. -/
def generatedBlockSpan (text : MenuText) : Except String (Option TextRange) :=
  match text.dropInfix? menuBlockBegin with
  | none =>
    if menuBlockEnd <:+: text then
      .error "found WhatsApp launcher end marker without a begin marker"
    else .ok none
  | some (before, rest) =>
    if menuBlockBegin <:+: rest then .error "found more than one WhatsApp launcher block"
    else match rest.dropInfix? menuBlockEnd with
      | none => .error "found WhatsApp launcher begin marker without an end marker"
      | some (_, after) =>
        if menuBlockEnd <:+: after then
          .error "found more than one WhatsApp launcher end marker"
        else
          .ok (some ⟨(rfind '\n' before).getD before.length, text.length - after.length⟩)

/-- The loop of `root_object_open`, inside a comment or not. -/
def rootObjectOpenFrom (inComment : Bool) (index : ℕ) : MenuText → Option ℕ
  | [] => none
  | c :: rest =>
    if inComment then rootObjectOpenFrom (c != '\n') (index + 1) rest
    else if c = ' ' ∨ c = '\t' ∨ c = '\r' ∨ c = '\n' then rootObjectOpenFrom false (index + 1) rest
    else if c = '/' ∧ rest.head? = some '/' then rootObjectOpenFrom true (index + 1) rest
    else if c = '{' then some index
    else none

/-- `root_object_open`. -/
def rootObjectOpen (text : MenuText) : Option ℕ := rootObjectOpenFrom false 0 text

/-- `upsert_menu_block`. -/
def upsertMenuBlock (existing block : MenuText) : Except String MenuText :=
  match generatedBlockSpan existing with
  | .error error => .error error
  | .ok (some span) => .ok (replaceRange existing span ('\n' :: block))
  | .ok none =>
    match rootObjectOpen existing with
    | none => .error "Omarchy menu extension is not a JSONC object; refusing to overwrite it"
    | some openBrace =>
      .ok (existing.take (openBrace + 1) ++ '\n' :: block ++ existing.drop (openBrace + 1))

/-! ## The block -/

def quotationMark : Char := Char.ofNat 0x22

def backslash : Char := Char.ofNat 0x5c

def apostrophe : Char := Char.ofNat 0x27

/-- How `serde_json` writes a character of a string. -/
def escapeJson (c : Char) : MenuText :=
  if c = quotationMark then [backslash, quotationMark]
  else if c = backslash then [backslash, backslash]
  else if c.toNat = 0x08 then [backslash, 'b']
  else if c.toNat = 0x09 then [backslash, 't']
  else if c.toNat = 0x0a then [backslash, 'n']
  else if c.toNat = 0x0c then [backslash, 'f']
  else if c.toNat = 0x0d then [backslash, 'r']
  else if c.toNat < 0x20 then [backslash, 'u', '0', '0'] ++ hexByte c.toNat
  else [c]

def jsonString (value : MenuText) : MenuText :=
  quotationMark :: (value.flatMap escapeJson ++ [quotationMark])

def jsonField (field : MenuText × MenuText) : MenuText :=
  jsonString field.1 ++ ':' :: jsonString field.2

/-- An object of strings; `serde_json` sorts the keys. -/
def jsonObject (fields : List (MenuText × MenuText)) : MenuText :=
  '{' :: ([','].intercalate (fields.map jsonField) ++ ['}'])

structure MenuEntry where
  id : MenuText
  fields : List (MenuText × MenuText)

/-- The line of `push_menu_entry`. -/
def MenuEntry.line (entry : MenuEntry) : MenuText :=
  [' ', ' '] ++ jsonString entry.id ++ [':', ' '] ++ jsonObject entry.fields ++ [',']

/-- `hex_id`. -/
def hexId (value : String) : MenuText :=
  value.toUTF8.toList.flatMap (fun byte => hexByte byte.toNat)

/-- `shell_quote`. -/
def shellQuote (value : MenuText) : MenuText :=
  apostrophe :: (value.flatMap (fun c =>
      if c = apostrophe then [apostrophe, backslash, apostrophe, apostrophe] else [c])
    ++ [apostrophe])

/-- The label of a chat. -/
def menuLabel (chat : Chat) : MenuText :=
  if trim chat.name = "" then chat.jid.toList else (trim chat.name).toList

def openChatCommand : MenuText := ("omarchy shell -q " ++ pluginId ++ " openChat ").toList

def menuAction (chat : Chat) : MenuText := openChatCommand ++ shellQuote chat.jid.toList

def rootEntry : MenuEntry where
  id := "whatsapp".toList
  fields := [("description".toList, "Search conversations".toList),
    ("icon".toList, whatsappMenuIcon), ("label".toList, "WhatsApp".toList)]

def openEntry : MenuEntry where
  id := "wa-open".toList
  fields := [("action".toList, ("omarchy shell -q " ++ pluginId ++ " open").toList),
    ("icon".toList, whatsappMenuIcon), ("label".toList, "Open WhatsApp".toList),
    ("parent".toList, "whatsapp".toList)]

def chatEntryId (chat : Chat) : MenuText := "wa-chat.".toList ++ hexId chat.jid

def chatEntry (chat : Chat) : MenuEntry where
  id := chatEntryId chat
  fields := [("action".toList, menuAction chat),
    ("description".toList, (if chat.isGroup then "Group" else "Contact").toList),
    ("icon".toList, whatsappMenuIcon), ("label".toList, menuLabel chat),
    ("parent".toList, "whatsapp".toList)]

def menuEntries (chats : List Chat) : List MenuEntry :=
  rootEntry :: openEntry :: chats.map chatEntry

/-- The lines between the markers. -/
def menuLines (chats : List Chat) : MenuText :=
  (menuEntries chats).flatMap (fun entry => entry.line ++ ['\n'])

/-- `render_menu_block`. -/
def renderMenuBlock (chats : List Chat) : MenuText :=
  menuBlockBegin ++ '\n' :: (menuLines chats ++ menuBlockEnd)

/-! ## The two commands -/

/-- `read_menu_or_default`. -/
def readMenuOrDefault (menu : Option MenuText) : MenuText := menu.getD ['{', '\n', '}', '\n']

/-- `write_if_changed`: the file, and whether it was written. -/
def writeIfChanged (menu : Option MenuText) (existing updated : MenuText) :
    Option MenuText × Bool :=
  if existing = updated then (menu, false) else (some updated, true)

/-- `sync_launcher_menu`. -/
def syncLauncherMenu (menu : Option MenuText) (chats : List Chat) :
    Except String (Option MenuText × Bool) :=
  (upsertMenuBlock (readMenuOrDefault menu) (renderMenuBlock chats)).map
    (writeIfChanged menu (readMenuOrDefault menu))

/-- `remove_launcher_menu`. -/
def removeLauncherMenu (menu : Option MenuText) : Except String (Option MenuText × Bool) :=
  match menu with
  | none => .ok (none, false)
  | some existing =>
    match generatedBlockSpan existing with
    | .error error => .error error
    | .ok none => .ok (menu, false)
    | .ok (some span) => .ok (writeIfChanged menu existing (replaceRange existing span []))

end OmarchyWhatsapp
