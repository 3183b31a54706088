import Mathlib.Data.List.Forall2
import OmarchyWhatsapp.Ctl.LauncherMenu
import OmarchyWhatsapp.Text.JsonReader
import OmarchyWhatsapp.Text.ShellWords

/-!
# What the entries of the launcher do

An entry is a line of JSON, and its action is a command for the shell. Both quotings together give
the JID of the chat back as one word, whatever is in it.
-/

namespace OmarchyWhatsapp

open Text

/-! ## Reading an entry -/

/-- The key and the fields of an entry's line. -/
def readEntry (line : MenuText) : Option (MenuText × List Member) := do
  let key ← readLiteral line
  let rest ← expect ':' key.2
  let object ← readObject rest
  let _ ← expect ',' object.2
  return (key.1, object.1)

/-- The words before the JID. -/
def openChatWords : List MenuText :=
  ["omarchy".toList, "shell".toList, "-q".toList, pluginId.toList, "openChat".toList]

/-- The line has the key of the chat, and its action is the command with the JID behind it. -/
def OpensChat (line : MenuText) (chat : Chat) : Prop :=
  ∃ fields action, readEntry line = some (chatEntryId chat, fields) ∧
    fields.lookup "action".toList = some action ∧
    splitWords action = some (openChatWords ++ [chat.jid.toList])

/-! ## Strings -/

theorem hexValue_hexByte {n : ℕ} (h : n < 0x20) :
    hexValue (['0', '0'] ++ hexByte n) = some n := by
  have hall : ∀ n < 0x20, hexValue (['0', '0'] ++ hexByte n) = some n := by decide +kernel
  exact hall n h

/-- A reader undoes each escape. -/
theorem readable_escapeJson : Readable escapeJson := by
  intro c rest
  have hchar (n : ℕ) (h : c.toNat = n) : c = Char.ofNat n := by rw [← h, Char.ofNat_toNat]
  unfold escapeJson
  split_ifs with hquote hbackslash hb ht hn hf hr hcontrol
  · rw [hquote]
    rfl
  · rw [hbackslash]
    rfl
  · rw [hchar _ hb]
    rfl
  · rw [hchar _ ht]
    rfl
  · rw [hchar _ hn]
    rfl
  · rw [hchar _ hf]
    rfl
  · rw [hchar _ hr]
    rfl
  · show (hexValue (['0', '0'] ++ hexByte c.toNat)).bind (fun n => if 0xd800 ≤ n ∧ n < 0xe000 then none
      else (readString .text rest).map fun r => (Char.ofNat n :: r.1, r.2)) = _
    rw [hexValue_hexByte hcontrol, Option.bind_some, if_neg (by omega), Char.ofNat_toNat]
  · show (if c = doubleQuote then _ else if c = reverseSolidus then _
      else if c.toNat < 0x20 then none else (readString .text rest).map fun r => (c :: r.1, r.2)) = _
    rw [if_neg (show ¬c = doubleQuote from hquote), if_neg (show ¬c = reverseSolidus from hbackslash),
      if_neg hcontrol]

theorem readEntry_line {entry : MenuEntry} (h : entry.fields ≠ []) :
    readEntry entry.line = some (entry.id, entry.fields) := by
  have hline : entry.line = ' ' :: ' ' :: (written escapeJson entry.id ++
      ':' :: ' ' :: (jsonObject entry.fields ++ [','])) := by
    unfold MenuEntry.line
    simp only [List.append_assoc]
    rfl
  have hobject : readObject (' ' :: (jsonObject entry.fields ++ [','])) = some (entry.fields, [',']) := by
    have hblank : ∀ text, readObject (' ' :: text) = readObject text := by
      intro text
      rw [readObject, expect_blank (by decide), readObject]
    rw [hblank]
    exact readObject_written readable_escapeJson h [',']
  rw [hline, readEntry, readLiteral_blank (by decide), readLiteral_blank (by decide),
    readLiteral_written readable_escapeJson]
  dsimp only [Option.bind_eq_bind, Option.bind_some]
  rw [expect_cons (by decide), Option.bind_some, hobject, Option.bind_some, expect_cons (by decide)]
  rfl

/-! ## Actions -/

theorem splitWords_menuAction {chat : Chat} (h : ∀ c ∈ chat.jid.toList, c.toNat ≠ 0) :
    splitWords (menuAction chat) = some (openChatWords ++ [chat.jid.toList]) := by
  have hcommand : openChatCommand = openChatWords.flatMap (· ++ [' ']) := by decide +kernel
  have hplain : ∀ word ∈ openChatWords, word ≠ [] ∧ word.all isBare = true := by decide +kernel
  rw [menuAction, hcommand, splitWords_append hplain]
  show (splitWords (singleQuote :: (chat.jid.toList.flatMap quoteCharacter ++ [singleQuote]))).map _ = _
  rw [splitWords_quoted h]
  rfl

theorem opensChat_chatEntry {chat : Chat} (h : ∀ c ∈ chat.jid.toList, c.toNat ≠ 0) :
    OpensChat (chatEntry chat).line chat :=
  ⟨(chatEntry chat).fields, menuAction chat, readEntry_line (List.cons_ne_nil _ _), rfl,
    splitWords_menuAction h⟩

/-! ## Lines -/

theorem newline_notMem_escapeJson (c : Char) : '\n' ∉ escapeJson c := by
  unfold escapeJson
  split_ifs with hquote hbackslash hb ht hn hf hr hcontrol
  · decide
  · decide
  · decide
  · decide
  · decide
  · decide
  · decide
  · rw [List.mem_append, not_or]
    refine ⟨by decide, fun h => ?_⟩
    have hdigits : ∀ n < 0x20, '\n' ∉ hexByte n := by decide +kernel
    exact hdigits _ hcontrol h
  · intro h
    rw [← List.mem_singleton.mp h] at hn
    exact hn rfl

theorem newline_notMem_jsonString (value : MenuText) : '\n' ∉ jsonString value := by
  intro h
  rcases List.mem_cons.mp h with h | h
  · exact absurd h (by decide)
  · rcases List.mem_append.mp h with h | h
    · obtain ⟨c, -, hc⟩ := List.mem_flatMap.mp h
      exact newline_notMem_escapeJson c hc
    · exact absurd h (by decide)

theorem newline_notMem_jsonObject (fields : List (MenuText × MenuText)) :
    '\n' ∉ jsonObject fields := by
  have hfield (field : MenuText × MenuText) : '\n' ∉ jsonField field := by
    rw [jsonField, List.mem_append, List.mem_cons, not_or, not_or]
    exact ⟨newline_notMem_jsonString _, by decide, newline_notMem_jsonString _⟩
  have hfields : '\n' ∉ [','].intercalate (fields.map jsonField) := by
    induction fields with
    | nil => exact List.not_mem_nil
    | cons field fields ih =>
      cases fields with
      | nil =>
        rw [List.map_singleton, List.intercalate_singleton]
        exact hfield field
      | cons next fields =>
        rw [List.map_cons, List.map_cons, List.intercalate_cons_cons, ← List.map_cons,
          List.mem_append, List.mem_append, not_or, not_or]
        exact ⟨⟨hfield field, by decide⟩, ih⟩
  rw [jsonObject, List.mem_cons, List.mem_append, not_or, not_or]
  exact ⟨by decide, hfields, by decide⟩

theorem newline_notMem_line (entry : MenuEntry) : '\n' ∉ entry.line := by
  unfold MenuEntry.line
  simp only [List.mem_append, not_or]
  exact ⟨⟨⟨⟨by decide, newline_notMem_jsonString _⟩, by decide⟩, newline_notMem_jsonObject _⟩,
    by decide⟩

/-- The lines of the block are the markers and the entries. -/
theorem splitOn_renderMenuBlock (chats : List Chat) :
    (renderMenuBlock chats).splitOn '\n'
      = menuBlockBegin :: (menuEntries chats).map MenuEntry.line ++ [menuBlockEnd] := by
  have hlines (entries : List MenuEntry) :
      (entries.flatMap (fun entry => entry.line ++ ['\n']) ++ menuBlockEnd).splitOn '\n'
        = entries.map MenuEntry.line ++ [menuBlockEnd] := by
    induction entries with
    | nil =>
      rw [List.flatMap_nil, List.nil_append]
      exact List.splitOn_eq_singleton (by decide +kernel)
    | cons entry entries ih =>
      rw [List.flatMap_cons, List.append_assoc, List.append_assoc, List.singleton_append,
        List.splitOn_append_cons_self_of_not_mem (newline_notMem_line entry), ih]
      rfl
  rw [renderMenuBlock, menuLines, List.splitOn_append_cons_self_of_not_mem (by decide +kernel),
    hlines, List.cons_append]

/-! ## Launcher actions -/

theorem chatEntryId_inj {chat chat' : Chat} (h : chatEntryId chat = chatEntryId chat') :
    chat.jid = chat'.jid :=
  toUTF8_inj (hexText_inj (List.append_cancel_left h))

/-- Every line of a chat opens that chat, and no two chats have one key. -/
theorem launcherActions_quoted {chats : List Chat}
    (hnul : ∀ chat ∈ chats, ∀ c ∈ chat.jid.toList, c.toNat ≠ 0) :
    (∃ lines, (renderMenuBlock chats).splitOn '\n'
        = [menuBlockBegin, rootEntry.line, openEntry.line] ++ lines ++ [menuBlockEnd] ∧
      List.Forall₂ OpensChat lines chats) ∧
    ∀ chat ∈ chats, ∀ chat' ∈ chats, chatEntryId chat = chatEntryId chat' →
      chat.jid = chat'.jid := by
  refine ⟨⟨chats.map (fun chat => (chatEntry chat).line), ?_, ?_⟩,
    fun chat _ chat' _ => chatEntryId_inj⟩
  · rw [splitOn_renderMenuBlock, menuEntries, List.map_cons, List.map_cons, List.map_map]
    rfl
  · rw [List.forall₂_map_left_iff, List.forall₂_same]
    exact fun chat hchat => opensChat_chatEntry (hnul chat hchat)

def injectedChat : Chat :=
  { jid := "1'; rm -rf ~ #@s.whatsapp.net", name := "Ada \\ QA\nTeam", lastMessage := "",
    lastSenderName := "", lastTimestamp := 0, unread := 0, isGroup := false }

theorem launcherActions_quoted_injected : ∃ line,
    (renderMenuBlock [injectedChat]).splitOn '\n'
      = [menuBlockBegin, rootEntry.line, openEntry.line, line, menuBlockEnd] ∧
    OpensChat line injectedChat := by
  have hall : injectedChat.jid.toList.all (fun c => c.toNat ≠ 0) = true := by decide +kernel
  have hnul : ∀ chat ∈ [injectedChat], ∀ c ∈ chat.jid.toList, c.toNat ≠ 0 := by
    intro chat hchat c hc
    rw [List.mem_singleton.mp hchat] at hc
    exact of_decide_eq_true (List.all_eq_true.mp hall c hc)
  obtain ⟨⟨lines, hlines, hopens⟩, -⟩ := launcherActions_quoted hnul
  rw [List.forall₂_cons_right_iff] at hopens
  obtain ⟨line, rest, hopens, hrest, rfl⟩ := hopens
  rw [List.forall₂_nil_right_iff.mp hrest] at hlines
  exact ⟨line, hlines, hopens⟩

end OmarchyWhatsapp
