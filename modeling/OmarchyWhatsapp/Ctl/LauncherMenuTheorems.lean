import OmarchyWhatsapp.Ctl.LauncherMenu

/-!
# Syncing and removing the launcher block

The generated lines hold a marker exactly if the label or the JID of a chat does: quoting for the
shell and for JSON leaves the characters of the markers as they are. `sync` does not look; it is
the next command that finds a marker too many and refuses to go on.
-/

namespace OmarchyWhatsapp

open Text

/-! ## The markers -/

def markers : List MenuText := [menuBlockBegin, menuBlockEnd]

/-- Characters of the generated lines that no marker has. -/
def separators : List Char :=
  ['\n', quotationMark, backslash, apostrophe, '{', '}', ',', ':']

theorem notMem_marker {m : MenuText} (hm : m ∈ markers) {c : Char} (hc : c ∈ separators) :
    c ∉ m := by
  have hall : ∀ m ∈ markers, separators.all (fun c => !m.elem c) = true := by decide
  have hnot := List.all_eq_true.mp (hall m hm) c hc
  simpa using hnot

theorem marker_ne_nil {m : MenuText} (hm : m ∈ markers) : m ≠ [] := by
  have hall : ∀ m ∈ markers, m ≠ [] := by decide
  exact hall m hm

theorem head?_marker {m : MenuText} (hm : m ∈ markers) : m.head? = some ' ' := by
  have hall : ∀ m ∈ markers, m.head? = some ' ' := by decide
  exact hall m hm

theorem escapeJson_marker {m : MenuText} (hm : m ∈ markers) {c : Char} (hc : c ∈ m) :
    escapeJson c = [c] := by
  have hall : ∀ m ∈ markers, m.all (fun c => escapeJson c = [c]) = true := by decide
  exact of_decide_eq_true (List.all_eq_true.mp (hall m hm) c hc)

/-- A marker has blanks and slashes. -/
theorem not_infix_of_notMem {m : MenuText} (hm : m ∈ markers) {text : MenuText}
    (htext : ' ' ∉ text ∨ '/' ∉ text) : ¬m <:+: text := by
  have hall : ∀ m ∈ markers, ' ' ∈ m ∧ '/' ∈ m := by decide
  obtain ⟨hblank, hslash⟩ := hall m hm
  intro hoccurs
  exact htext.elim (fun h => h (hoccurs.subset hblank)) (fun h => h (hoccurs.subset hslash))

/-! ## Quoting -/

theorem mem_hexByte {c : Char} {byte : ℕ} (hbyte : byte < 256) (hc : c ∈ hexByte byte) :
    c ≠ ' ' := by
  have hdigit : ∀ n < 16, n.digitChar ≠ ' ' := by decide
  rcases List.mem_pair.mp hc with rfl | rfl
  · exact hdigit _ (by omega)
  · exact hdigit _ (by omega)

/-- What stands for an escaped character. -/
theorem escapeJson_cases (c : Char) :
    escapeJson c = [c] ∨ ∃ ds, escapeJson c = backslash :: ds ∧ ' ' ∉ ds := by
  unfold escapeJson
  split_ifs with _ _ _ _ _ _ _ hcontrol
  · exact Or.inr ⟨_, rfl, by decide⟩
  · exact Or.inr ⟨_, rfl, by decide⟩
  · exact Or.inr ⟨_, rfl, by decide⟩
  · exact Or.inr ⟨_, rfl, by decide⟩
  · exact Or.inr ⟨_, rfl, by decide⟩
  · exact Or.inr ⟨_, rfl, by decide⟩
  · exact Or.inr ⟨_, rfl, by decide⟩
  · refine Or.inr ⟨['u', '0', '0'] ++ hexByte c.toNat, rfl, fun hmem => ?_⟩
    rcases List.mem_append.mp hmem with hconstant | hdigits
    · exact absurd hconstant (by decide)
    · exact mem_hexByte (by omega) hdigits rfl
  · exact Or.inl rfl

theorem plain_escapeJson {m : MenuText} (hm : m ∈ markers) : Plain m escapeJson where
  cases c := by
    rcases escapeJson_cases c with hkept | ⟨ds, hescaped, hblank⟩
    · exact Or.inl hkept
    · refine Or.inr ⟨fun hc => ?_, ⟨backslash, ds, hescaped, notMem_marker hm (by decide)⟩, ?_⟩
      · have hbackslash : backslash = c := by
          rw [escapeJson_marker hm hc] at hescaped
          exact (List.cons.inj hescaped).1.symm
        exact notMem_marker hm (c := backslash) (by decide) (hbackslash ▸ hc)
      · intro a ha
        rw [head?_marker hm] at ha
        cases ha
        rw [hescaped, List.mem_cons, not_or]
        exact ⟨by decide, hblank⟩

theorem not_infix_nil {m : MenuText} (hm : m ∈ markers) : ¬m <:+: [] :=
  not_infix_of_notMem hm (Or.inl List.not_mem_nil)

theorem infix_jsonString {m : MenuText} (hm : m ∈ markers) (x value y : MenuText) :
    m <:+: x ++ jsonString value ++ y ↔ m <:+: x ∨ m <:+: value ∨ m <:+: y := by
  have hquote : quotationMark ∉ m := notMem_marker hm (by decide)
  rw [jsonString, infix_enclosed hquote hquote, (plain_escapeJson hm).infix_iff]

theorem infix_shellQuote {m : MenuText} (hm : m ∈ markers) (x value y : MenuText) :
    m <:+: x ++ shellQuote value ++ y ↔ m <:+: x ∨ m <:+: value ∨ m <:+: y := by
  have hquote : apostrophe ∉ m := notMem_marker hm (by decide)
  have hplain : Plain m (fun c =>
      if c = apostrophe then [apostrophe, backslash, apostrophe, apostrophe] else [c]) := by
    refine ⟨fun c => ?_⟩
    split_ifs with hc
    · refine Or.inr ⟨hc ▸ hquote, ⟨apostrophe, _, rfl, hquote⟩, fun a ha => ?_⟩
      rw [head?_marker hm] at ha
      cases ha
      decide
    · exact Or.inl rfl
  rw [shellQuote, infix_enclosed hquote hquote, hplain.infix_iff]

/-! ## The generated lines -/

theorem infix_jsonField {m : MenuText} (hm : m ∈ markers) (field : MenuText × MenuText) :
    m <:+: jsonField field ↔ m <:+: field.1 ∨ m <:+: field.2 := by
  have hnil := not_infix_nil hm
  have hkey := infix_jsonString hm [] field.1 []
  have hvalue := infix_jsonString hm [] field.2 []
  simp only [List.nil_append, List.append_nil, hnil, false_or, or_false] at hkey hvalue
  rw [jsonField, infix_separated (notMem_marker hm (by decide)), hkey, hvalue]

theorem infix_jsonObject {m : MenuText} (hm : m ∈ markers) (x : MenuText)
    (fields : List (MenuText × MenuText)) (y : MenuText) :
    m <:+: x ++ jsonObject fields ++ y ↔
      m <:+: x ∨ (∃ field ∈ fields, m <:+: field.1 ∨ m <:+: field.2) ∨ m <:+: y := by
  rw [jsonObject, infix_enclosed (notMem_marker hm (by decide)) (notMem_marker hm (by decide)),
    infix_intercalate (notMem_marker hm (by decide)) (marker_ne_nil hm)]
  simp only [List.mem_map, exists_exists_and_eq_and, infix_jsonField hm]

theorem infix_line {m : MenuText} (hm : m ∈ markers) (entry : MenuEntry) :
    m <:+: entry.line ↔
      m <:+: entry.id ∨ ∃ field ∈ entry.fields, m <:+: field.1 ∨ m <:+: field.2 := by
  have hindent : ¬m <:+: [' ', ' '] := not_infix_of_notMem hm (by decide)
  have hcolon : ¬m <:+: [':', ' '] := not_infix_of_notMem hm (by decide)
  have hcomma : ¬m <:+: [','] := not_infix_of_notMem hm (by decide)
  rw [MenuEntry.line, infix_jsonObject hm, infix_jsonString hm]
  simp only [hindent, hcolon, hcomma, false_or, or_false]

/-- The fixed texts of an entry have no slash. -/
theorem not_infix_entry {m : MenuText} (hm : m ∈ markers) {entry : MenuEntry}
    (hid : '/' ∉ entry.id) (hfields : ∀ field ∈ entry.fields, '/' ∉ field.1 ∧ '/' ∉ field.2) :
    ¬m <:+: entry.line := by
  rw [infix_line hm]
  rintro (hoccurs | ⟨field, hmem, hoccurs | hoccurs⟩)
  · exact not_infix_of_notMem hm (Or.inr hid) hoccurs
  · exact not_infix_of_notMem hm (Or.inr (hfields field hmem).1) hoccurs
  · exact not_infix_of_notMem hm (Or.inr (hfields field hmem).2) hoccurs

theorem infix_menuAction {m : MenuText} (hm : m ∈ markers) (chat : Chat) :
    m <:+: menuAction chat ↔ m <:+: chat.jid.toList := by
  have hcommand : ¬m <:+: openChatCommand :=
    not_infix_of_notMem hm (Or.inr (by decide +kernel))
  have haction := infix_shellQuote hm openChatCommand chat.jid.toList []
  rw [List.append_nil] at haction
  rw [menuAction, haction]
  simp only [hcommand, not_infix_nil hm, false_or, or_false]

theorem not_infix_chatId {m : MenuText} (hm : m ∈ markers) (chat : Chat) :
    ¬m <:+: chatEntryId chat := by
  refine not_infix_of_notMem hm (Or.inl fun hblank => ?_)
  unfold chatEntryId at hblank
  rcases List.mem_append.mp hblank with hconstant | hhex
  · exact absurd hconstant (by decide)
  · obtain ⟨byte, -, hdigit⟩ := List.mem_flatMap.mp hhex
    exact mem_hexByte byte.toNat_lt hdigit rfl

/-- The keys and the fixed values of a chat's entry. -/
def fixedTexts : List MenuText :=
  ["action".toList, "description".toList, "icon".toList, "label".toList, "parent".toList,
    "whatsapp".toList, whatsappMenuIcon, "Group".toList, "Contact".toList]

theorem not_infix_fixedText {m : MenuText} (hm : m ∈ markers) :
    ∀ text ∈ fixedTexts, ¬m <:+: text := by
  have hslash : ∀ text ∈ fixedTexts, '/' ∉ text := by decide
  exact fun text htext => not_infix_of_notMem hm (Or.inr (hslash text htext))

/-- Of the five fields of a chat's entry, two come from the chat. -/
theorem infix_fields {m a b c d e action kind icon label parent : MenuText}
    (hkeys : ∀ key ∈ [a, b, c, d, e], ¬m <:+: key)
    (hvalues : ∀ value ∈ [kind, icon, parent], ¬m <:+: value) :
    (∃ field ∈ [(a, action), (b, kind), (c, icon), (d, label), (e, parent)],
      m <:+: field.1 ∨ m <:+: field.2) ↔ m <:+: label ∨ m <:+: action := by
  simp only [List.forall_mem_cons] at hkeys hvalues
  simp [hkeys, hvalues, or_comm]

theorem infix_chatEntry {m : MenuText} (hm : m ∈ markers) (chat : Chat) :
    m <:+: (chatEntry chat).line ↔ m <:+: menuLabel chat ∨ m <:+: chat.jid.toList := by
  have hfixed := not_infix_fixedText hm
  have hkeys : ∀ key ∈ ["action".toList, "description".toList, "icon".toList, "label".toList,
      "parent".toList], key ∈ fixedTexts := by decide
  have hvalues : ∀ value ∈ [(if chat.isGroup then "Group" else "Contact").toList,
      whatsappMenuIcon, "whatsapp".toList], value ∈ fixedTexts := by
    cases chat.isGroup <;> decide
  have hfields : (∃ field ∈ (chatEntry chat).fields, m <:+: field.1 ∨ m <:+: field.2) ↔
      m <:+: menuLabel chat ∨ m <:+: menuAction chat :=
    infix_fields (fun key hkey => hfixed key (hkeys key hkey))
      (fun value hvalue => hfixed value (hvalues value hvalue))
  have hid : ¬m <:+: (chatEntry chat).id := not_infix_chatId hm chat
  rw [infix_line hm, or_iff_right hid, hfields, infix_menuAction hm]

/-- The generated lines have a marker exactly if a label or a JID does. -/
theorem infix_menuLines {m : MenuText} (hm : m ∈ markers) (chats : List Chat) :
    m <:+: menuLines chats ↔ ∃ chat ∈ chats, m <:+: menuLabel chat ∨ m <:+: chat.jid.toList := by
  have hroot : ¬m <:+: rootEntry.line := not_infix_entry hm (by decide) (by decide)
  have hopen : ¬m <:+: openEntry.line := not_infix_entry hm (by decide) (by decide)
  rw [menuLines, infix_flatMap_separated (notMem_marker hm (by decide)) (marker_ne_nil hm),
    menuEntries]
  simp [hroot, hopen, infix_chatEntry hm]

/-! ## The text around the block -/

theorem rfind_newline (before : MenuText) : rfind '\n' (before ++ ['\n']) = some before.length := by
  simp [rfind, List.idxOf?_cons]

/-- A text that ends in the end marker has no occurrence that goes on behind it. -/
theorem infix_end_append {m : MenuText} (hm : m ∈ markers) (after : MenuText) :
    m <:+: menuBlockEnd ++ after ↔ m <:+: menuBlockEnd ∨ m <:+: after := by
  have hborder : ∀ m ∈ markers, ∀ k < m.length, 0 < k → ¬m.take k <:+ menuBlockEnd := by
    decide +kernel
  rw [List.infix_append_iff_ne_nil]
  refine or_congr_right (or_iff_left ?_)
  rintro ⟨p₁, p₂, hp₁, hp₂, hsplit, hsuffix, -⟩
  have hlength : m.length = p₁.length + p₂.length := by rw [hsplit, List.length_append]
  have hpos₁ := List.length_pos_iff.mpr hp₁
  have hpos₂ := List.length_pos_iff.mpr hp₂
  refine hborder m hm p₁.length (by omega) hpos₁ ?_
  rw [hsplit, List.take_left]
  exact hsuffix

/-- The lines of the block, with the break before them, end in a break. -/
theorem exists_lines_concat (chats : List Chat) :
    ∃ lines, '\n' :: menuLines chats = lines ++ ['\n'] ∧
      ∀ m ∈ markers, m <:+: lines ↔ m <:+: menuLines chats := by
  obtain ⟨lines, hlines⟩ : ∃ lines, '\n' :: menuLines chats = lines ++ ['\n'] := by
    unfold menuLines
    induction menuEntries chats with
    | nil => exact ⟨[], rfl⟩
    | cons entry entries ih =>
      obtain ⟨lines, hlines⟩ := ih
      refine ⟨'\n' :: entry.line ++ lines, ?_⟩
      rw [List.flatMap_cons, List.append_assoc, List.append_assoc, ← hlines]
      rfl
  refine ⟨lines, hlines, fun m hm => ?_⟩
  have hbreak : '\n' ∉ m := notMem_marker hm (by decide)
  have hnil := not_infix_nil hm
  have hright := infix_separated (x := lines) (y := []) hbreak
  have hleft := infix_separated (x := []) (y := menuLines chats) hbreak
  rw [List.nil_append, hlines, hright] at hleft
  simpa only [hnil, false_or, or_false] using hleft

/-- The text of a file with the block after `before`. -/
def withBlock (before : MenuText) (chats : List Chat) (after : MenuText) : MenuText :=
  before ++ '\n' :: renderMenuBlock chats ++ after

def MarkerFree (chats : List Chat) : Prop :=
  ∀ chat ∈ chats, ∀ m ∈ markers, ¬m <:+: menuLabel chat ∧ ¬m <:+: chat.jid.toList

instance (chats : List Chat) : Decidable (MarkerFree chats) :=
  inferInstanceAs (Decidable (∀ chat ∈ chats, ∀ m ∈ markers, _))

theorem markerFree_iff {chats : List Chat} :
    MarkerFree chats ↔ ∀ m ∈ markers, ¬m <:+: menuLines chats := by
  constructor
  · intro hfree m hm hoccurs
    obtain ⟨chat, hchat, hlabel | hjid⟩ := (infix_menuLines hm chats).mp hoccurs
    · exact (hfree chat hchat m hm).1 hlabel
    · exact (hfree chat hchat m hm).2 hjid
  · intro hfree chat hchat m hm
    have hlines := hfree m hm
    rw [infix_menuLines hm] at hlines
    exact ⟨fun hlabel => hlines ⟨chat, hchat, Or.inl hlabel⟩,
      fun hjid => hlines ⟨chat, hchat, Or.inr hjid⟩⟩

/-! ## The span of the block -/

section Span

variable {before : MenuText} (hbefore : ∀ m ∈ markers, ¬m <:+: before) (after : MenuText)
  (hafter : ∀ m ∈ markers, ¬m <:+: after)

theorem begin_mem : menuBlockBegin ∈ markers := List.mem_cons_self

theorem end_mem : menuBlockEnd ∈ markers := List.mem_cons_of_mem _ List.mem_cons_self

include hbefore in
/-- The first begin marker is that of the block. -/
theorem dropInfix?_begin (chats : List Chat) : ∃ lines,
    (∀ m ∈ markers, m <:+: lines ↔ m <:+: menuLines chats) ∧
    (withBlock before chats after).dropInfix? menuBlockBegin
      = some (before ++ ['\n'], lines ++ '\n' :: (menuBlockEnd ++ after)) := by
  obtain ⟨lines, hlines, hoccurs⟩ := exists_lines_concat chats
  refine ⟨lines, hoccurs, ?_⟩
  have hshape : withBlock before chats after
      = before ++ '\n' :: (menuBlockBegin ++ (lines ++ '\n' :: (menuBlockEnd ++ after))) := by
    rw [List.append_cons lines, ← hlines]
    simp [withBlock, renderMenuBlock]
  rw [hshape]
  exact dropInfix?_separated (notMem_marker begin_mem (by decide)) (hbefore _ begin_mem) _

include hbefore hafter in
/-- Without a marker between its own the block is found. -/
theorem generatedBlockSpan_withBlock {chats : List Chat} (hfree : MarkerFree chats) :
    generatedBlockSpan (withBlock before chats after) =
      .ok (some ⟨before.length, (withBlock before chats after).length - after.length⟩) := by
  rw [markerFree_iff] at hfree
  obtain ⟨lines, hoccurs, hfirst⟩ := dropInfix?_begin hbefore after chats
  have hlines : ∀ m ∈ markers, ¬m <:+: lines := fun m hm => by
    rw [hoccurs m hm]
    exact hfree m hm
  have hbegin : ¬menuBlockBegin <:+: lines ++ '\n' :: (menuBlockEnd ++ after) := by
    rw [infix_separated (notMem_marker begin_mem (by decide)), infix_end_append begin_mem]
    have hend : ¬menuBlockBegin <:+: menuBlockEnd := by decide +kernel
    simp only [hlines _ begin_mem, hend, hafter _ begin_mem, or_false, not_false_eq_true]
  have hsecond : (lines ++ '\n' :: (menuBlockEnd ++ after)).dropInfix? menuBlockEnd
      = some (lines ++ ['\n'], after) :=
    dropInfix?_separated (notMem_marker end_mem (by decide)) (hlines _ end_mem) _
  unfold generatedBlockSpan
  rw [hfirst]
  dsimp only
  rw [if_neg hbegin, hsecond]
  dsimp only
  rw [if_neg (hafter _ end_mem), rfind_newline]
  rfl

include hbefore in
/-- With one the next command refuses. -/
theorem generatedBlockSpan_error {chats : List Chat} (hmarked : ¬MarkerFree chats) :
    ∃ error, generatedBlockSpan (withBlock before chats after) = .error error := by
  obtain ⟨lines, hoccurs, hfirst⟩ := dropInfix?_begin hbefore after chats
  unfold generatedBlockSpan
  rw [hfirst]
  dsimp only
  by_cases hbegin : menuBlockBegin <:+: lines ++ '\n' :: (menuBlockEnd ++ after)
  · exact ⟨_, if_pos hbegin⟩
  rw [if_neg hbegin]
  -- so it is an end marker that the lines hold
  have hend : menuBlockEnd <:+: lines := by
    rw [markerFree_iff] at hmarked
    by_contra hend
    refine hmarked fun m hm => ?_
    rcases List.mem_pair.mp hm with rfl | rfl
    · rw [← hoccurs _ begin_mem]
      exact fun hlines => hbegin (hlines.trans (List.prefix_append _ _).isInfix)
    · rwa [← hoccurs _ end_mem]
  obtain ⟨a, b, hfound⟩ := exists_dropInfix? hend
  rw [dropInfix?_append hfound]
  dsimp only
  refine ⟨_, if_pos ?_⟩
  rw [infix_separated (notMem_marker end_mem (by decide))]
  exact Or.inr (List.prefix_append _ _).isInfix

end Span

/-! ## Round trips -/

/-- Syncing a file and removing the block again gives the file back, syncing twice is syncing
once, and no command changes what is outside the block. -/
def RoundTrips (text : MenuText) (chats chats' : List Chat) : Prop :=
  ∃ before after, text = before ++ after ∧
    (syncLauncherMenu (some text) chats).map Prod.fst = .ok (some (withBlock before chats after)) ∧
    (syncLauncherMenu (some text) chats').map Prod.fst
      = .ok (some (withBlock before chats' after)) ∧
    (syncLauncherMenu (some (withBlock before chats after)) chats').map Prod.fst
      = .ok (some (withBlock before chats' after)) ∧
    (removeLauncherMenu (some (withBlock before chats after))).map Prod.fst = .ok (some text)

theorem fst_writeIfChanged (existing updated : MenuText) :
    (writeIfChanged (some existing) existing updated).1 = some updated := by
  unfold writeIfChanged
  split_ifs with hsame
  · rw [hsame]
  · rfl

theorem replaceRange_withBlock (before : MenuText) (chats : List Chat) (after block : MenuText) :
    replaceRange (withBlock before chats after)
      ⟨before.length, (withBlock before chats after).length - after.length⟩ block
      = before ++ block ++ after := by
  have hshape : withBlock before chats after
      = before ++ ('\n' :: renderMenuBlock chats) ++ after := rfl
  have hstop : (withBlock before chats after).length - after.length
      = (before ++ '\n' :: renderMenuBlock chats).length := by
    rw [hshape, List.length_append]
    omega
  rw [replaceRange, hstop, hshape, List.drop_left, List.append_assoc before, List.take_left]

section RoundTrips

variable {text : MenuText} (hclean : ∀ m ∈ markers, ¬m <:+: text)

include hclean in
theorem generatedBlockSpan_none : generatedBlockSpan text = .ok none := by
  unfold generatedBlockSpan
  rw [dropInfix?_eq_none.mpr (hclean _ begin_mem)]
  exact if_neg (hclean _ end_mem)

include hclean in
/-- The first sync puts the block behind the brace that opens the root object. -/
theorem syncLauncherMenu_insert {openBrace : ℕ} (hroot : rootObjectOpen text = some openBrace)
    (chats : List Chat) :
    (syncLauncherMenu (some text) chats).map Prod.fst = .ok (some
      (withBlock (text.take (openBrace + 1)) chats (text.drop (openBrace + 1)))) := by
  have hupdated : upsertMenuBlock text (renderMenuBlock chats)
      = .ok (withBlock (text.take (openBrace + 1)) chats (text.drop (openBrace + 1))) := by
    unfold upsertMenuBlock
    rw [generatedBlockSpan_none hclean, hroot]
    rfl
  show ((upsertMenuBlock text (renderMenuBlock chats)).map _).map _ = _
  rw [hupdated]
  exact congrArg Except.ok (fst_writeIfChanged _ _)

/-- A later sync replaces the block. -/
theorem syncLauncherMenu_replace {before after : MenuText} (hbefore : ∀ m ∈ markers, ¬m <:+: before)
    (hafter : ∀ m ∈ markers, ¬m <:+: after) {chats : List Chat} (hfree : MarkerFree chats)
    (chats' : List Chat) :
    (syncLauncherMenu (some (withBlock before chats after)) chats').map Prod.fst
      = .ok (some (withBlock before chats' after)) := by
  have hupdated : upsertMenuBlock (withBlock before chats after) (renderMenuBlock chats')
      = .ok (withBlock before chats' after) := by
    unfold upsertMenuBlock
    rw [generatedBlockSpan_withBlock hbefore after hafter hfree]
    dsimp only
    rw [replaceRange_withBlock]
    rfl
  show ((upsertMenuBlock (withBlock before chats after) (renderMenuBlock chats')).map _).map _ = _
  rw [hupdated]
  exact congrArg Except.ok (fst_writeIfChanged _ _)

theorem removeLauncherMenu_withBlock {before after : MenuText}
    (hbefore : ∀ m ∈ markers, ¬m <:+: before) (hafter : ∀ m ∈ markers, ¬m <:+: after)
    {chats : List Chat} (hfree : MarkerFree chats) :
    (removeLauncherMenu (some (withBlock before chats after))).map Prod.fst
      = .ok (some (before ++ after)) := by
  unfold removeLauncherMenu
  dsimp only
  rw [generatedBlockSpan_withBlock hbefore after hafter hfree]
  dsimp only
  rw [replaceRange_withBlock, List.append_nil]
  exact congrArg Except.ok (fst_writeIfChanged _ _)

theorem removeLauncherMenu_refused {before after : MenuText}
    (hbefore : ∀ m ∈ markers, ¬m <:+: before) {chats : List Chat} (hmarked : ¬MarkerFree chats)
    {menu : Option MenuText} :
    (removeLauncherMenu (some (withBlock before chats after))).map Prod.fst ≠ .ok menu := by
  obtain ⟨error, herror⟩ := generatedBlockSpan_error hbefore after hmarked
  unfold removeLauncherMenu
  dsimp only
  rw [herror]
  intro hok
  cases hok

include hclean in
/-- In a file without markers the block of a list of chats makes the round trip exactly if no
label and no JID in the list has a marker in it. -/
theorem launcher_round_trips_iff (hroot : (rootObjectOpen text).isSome = true)
    (chats chats' : List Chat) : RoundTrips text chats chats' ↔ MarkerFree chats := by
  constructor
  · rintro ⟨before, after, rfl, -, -, -, hremoved⟩
    by_contra hmarked
    have hbefore : ∀ m ∈ markers, ¬m <:+: before := fun m hm hoccurs =>
      hclean m hm (hoccurs.trans (List.prefix_append before after).isInfix)
    exact removeLauncherMenu_refused hbefore hmarked hremoved
  · intro hfree
    obtain ⟨openBrace, hopen⟩ := Option.isSome_iff_exists.mp hroot
    have hbefore : ∀ m ∈ markers, ¬m <:+: text.take (openBrace + 1) := fun m hm hoccurs =>
      hclean m hm (hoccurs.trans (List.take_prefix _ text).isInfix)
    have hafter : ∀ m ∈ markers, ¬m <:+: text.drop (openBrace + 1) := fun m hm hoccurs =>
      hclean m hm (hoccurs.trans (List.drop_suffix _ text).isInfix)
    refine ⟨text.take (openBrace + 1), text.drop (openBrace + 1),
      (List.take_append_drop _ text).symm, syncLauncherMenu_insert hclean hopen chats,
      syncLauncherMenu_insert hclean hopen chats',
      syncLauncherMenu_replace hbefore hafter hfree chats', ?_⟩
    rw [removeLauncherMenu_withBlock hbefore hafter hfree, List.take_append_drop]

end RoundTrips

def adaChat : Chat :=
  { jid := "1@s.whatsapp.net", name := "Ada", lastMessage := "", lastSenderName := "",
    lastTimestamp := 0, unread := 0, isGroup := false }

/-- A contact whose name has the end marker in it. -/
def markerChat : Chat := { adaChat with name := "x  // END omarchy-whatsapp launcher chats" }

theorem launcher_round_trips_iff_ada :
    RoundTrips ['{', '\n', '}', '\n'] [adaChat] [markerChat] :=
  (launcher_round_trips_iff (by decide +kernel) (by decide +kernel) _ _).mpr (by decide +kernel)

/-- The block of that contact cannot be removed any more. -/
theorem marker_in_name_refused :
    ¬RoundTrips ['{', '\n', '}', '\n'] [markerChat] [adaChat] := by
  rintro ⟨before, after, htext, -, -, -, hremoved⟩
  have hclean : ∀ m ∈ markers, ¬m <:+: ['{', '\n', '}', '\n'] := by decide +kernel
  have hbefore : ∀ m ∈ markers, ¬m <:+: before := fun m hm hoccurs =>
    hclean m hm (htext ▸ hoccurs.trans (List.prefix_append before after).isInfix)
  exact removeLauncherMenu_refused hbefore (by decide +kernel) hremoved

end OmarchyWhatsapp
