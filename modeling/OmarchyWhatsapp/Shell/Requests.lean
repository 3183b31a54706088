import OmarchyWhatsapp.Protocol.FrameCodecs

/-!
# The requests of the shell

What `Service.qml` passes to `send`, and the line that `send` writes. The shell writes the members
of a message in its own order, an empty list of mentions and a reply target that is `null`.
-/

namespace OmarchyWhatsapp.Wire

open Text Members

/-- The name and the fields that the shell sends a command with; it sends no `ping` and no quiz. -/
def shellArguments : Command → Option (String × List Json.Member)
  | .getState => some ("get_state", [])
  | .listChats limit => some ("list_chats", [("limit", .number limit)])
  | .getMessages chatJid limit =>
    some ("get_messages", [("chat_jid", .string chatJid), ("limit", .number limit)])
  | .getGroupParticipants chatJid =>
    some ("get_group_participants", [("chat_jid", .string chatJid)])
  | .sendMessage chatJid text deliveryId mentions replyTo =>
    some ("send_message", [("chat_jid", .string chatJid), ("text", .string text),
      ("mentions", .array (mentions.map .string)),
      ("reply_to", replyTo.elim .null replyTarget.encode), ("delivery_id", .string deliveryId)])
  | .sendVoiceMessage chatJid recordingId =>
    some ("send_voice_message",
      [("chat_jid", .string chatJid), ("recording_id", .string recordingId)])
  | .pasteImage => some ("paste_image", [])
  | .stageFile path => some ("stage_file", [("path", .string path)])
  | .sendImage chatJid path caption deliveryId mentions replyTo =>
    some ("send_image", [("chat_jid", .string chatJid), ("path", .string path),
      ("caption", .string caption), ("mentions", .array (mentions.map .string)),
      ("reply_to", replyTo.elim .null replyTarget.encode), ("delivery_id", .string deliveryId)])
  | .sendDocument chatJid path fileName caption deliveryId mentions replyTo =>
    some ("send_document", [("chat_jid", .string chatJid), ("path", .string path),
      ("caption", .string caption), ("mentions", .array (mentions.map .string)),
      ("reply_to", replyTo.elim .null replyTarget.encode), ("delivery_id", .string deliveryId),
      ("file_name", .string fileName)])
  | .discardVoiceRecording recordingId =>
    some ("discard_voice_recording", [("recording_id", .string recordingId)])
  | .listVoiceOutbox => some ("list_voice_outbox", [])
  | .listTextOutbox => some ("list_text_outbox", [])
  | .retryTextMessage deliveryId =>
    some ("retry_text_message", [("delivery_id", .string deliveryId)])
  | .discardTextMessage deliveryId =>
    some ("discard_text_message", [("delivery_id", .string deliveryId)])
  | .createPoll chatJid question options selectableCount none =>
    some ("create_poll", [("chat_jid", .string chatJid), ("question", .string question),
      ("options", .array (options.map .string)), ("selectable_count", .number selectableCount)])
  | .createPoll _ _ _ _ (some _) => none
  | .votePoll chatJid messageId selectedOptions =>
    some ("vote_poll", [("chat_jid", .string chatJid), ("message_id", .string messageId),
      ("selected_options", .array (selectedOptions.map .string))])
  | .downloadMedia chatJid messageId =>
    some ("download_media", [("chat_jid", .string chatJid), ("message_id", .string messageId)])
  | .react chatJid messageId senderJid targetFromMe emoji =>
    some ("react", [("chat_jid", .string chatJid), ("message_id", .string messageId),
      ("sender_jid", .string senderJid), ("target_from_me", .bool targetFromMe),
      ("emoji", .string emoji)])
  | .markRead chatJid => some ("mark_read", [("chat_jid", .string chatJid)])
  | .setChatPinned chatJid pinned =>
    some ("set_chat_pinned", [("chat_jid", .string chatJid), ("pinned", .bool pinned)])
  | .requestAvatar jid => some ("request_avatar", [("jid", .string jid)])
  | .listAvatars => some ("list_avatars", [])
  | .setActiveChat chatJid =>
    some ("set_active_chat", [("chat_jid", chatJid.elim .null .string)])
  | .setPresence available => some ("set_presence", [("available", .bool available)])
  | .setChatState chatJid state =>
    some ("set_chat_state", [("chat_jid", .string chatJid), ("state", .string state.word)])
  | .resyncChatState => some ("resync_chat_state", [])
  | .logout => some ("logout", [])
  | .ping => none

/-- The line that `send` writes. -/
def shellPayload (id : ℕ) (name : String) (fields : List Json.Member) : Json :=
  .object (("id", .number id) :: ("command", .string name) :: fields)

/-! ## Messages as the shell writes them -/

def shellSendMessageFields :
    Members (String × String × String × List String × Option ReplyTarget) :=
  (required "chat_jid" .string).and <| (required "text" .string).and <|
    (required "delivery_id" .string).and <|
    (defaulted "mentions" (.list .string) [] (Codec.valid_nil .string)).and <|
    nullable "reply_to" replyTarget

def shellSendImageFields :
    Members (String × String × String × String × List String × Option ReplyTarget) :=
  (required "chat_jid" .string).and <| (required "path" .string).and <|
    (required "caption" .string).and <| (required "delivery_id" .string).and <|
    (defaulted "mentions" (.list .string) [] (Codec.valid_nil .string)).and <|
    nullable "reply_to" replyTarget

def shellSendDocumentFields :
    Members (String × String × String × String × String × List String × Option ReplyTarget) :=
  (required "chat_jid" .string).and <| (required "path" .string).and <|
    (required "file_name" .string).and <| (required "caption" .string).and <|
    (required "delivery_id" .string).and <|
    (defaulted "mentions" (.list .string) [] (Codec.valid_nil .string)).and <|
    nullable "reply_to" replyTarget

/-- A request is read with the case of its name. -/
theorem ClientFrame.decode_payload {id : ℕ} (hid : id < 2 ^ 64) {c : Case Command}
    {fields : List Json.Member} {command : Command}
    (hfind : commandCases.find? (fun d => d.tag = c.tag) = some c)
    (hnames : ∀ m ∈ fields, m.1 ≠ "id" ∧ m.1 ≠ "command")
    (hread : c.read (("id", .number id) :: ("command", .string c.tag) :: fields) = some command) :
    ClientFrame.decode (shellPayload id c.tag fields) = some { id := some id, command } := by
  have hfirst : valuesOf "id" (("id", .number id) :: ("command", .string c.tag) :: fields)
      = [(Codec.nat 64).encode id] := by
    rw [valuesOf_cons, if_pos rfl, valuesOf_cons, if_neg (show ¬"command" = "id" by decide),
      valuesOf_eq_nil fun m hm => (hnames m hm).1]
    rfl
  have htag : valuesOf "command" (("id", .number id) :: ("command", .string c.tag) :: fields)
      = [.string c.tag] := by
    rw [valuesOf_cons, if_neg (show ¬"id" = "command" by decide), valuesOf_cons, if_pos rfl,
      valuesOf_eq_nil fun m hm => (hnames m hm).2]
  have hreadid : (optional "id" (.nat 64)).read
      (("id", .number id) :: ("command", .string c.tag) :: fields) = some (some id) := by
    show readOptional _ (valuesOf "id" _) = _
    rw [hfirst, readOptional_encode _ (decide_eq_true hid)]
  have hreadcommand : commandMembers.read
      (("id", .number id) :: ("command", .string c.tag) :: fields) = some command := by
    show Case.readTagged commandCases _ (valuesOf "command" _) = _
    rw [htag]
    show (commandCases.find? (fun d => d.tag = c.tag)).bind _ = _
    rw [hfind, Option.bind_some, hread]
  show (((optional "id" (.nat 64)).and commandMembers).read _).map _ = _
  show (((optional "id" (.nat 64)).read _).bind fun a => (commandMembers.read _).map _).map _ = _
  rw [hreadid, hreadcommand]
  rfl

/-- A request that is written as `serde` would write it. -/
theorem ClientFrame.decode_written {id : ℕ} {name : String} {fields : List Json.Member}
    {command : Command} (h : clientFrameMembers.valid { id := some id, command } = true)
    (hsame : ("id", .number id) :: ("command", .string name) :: fields
      = clientFrameMembers.write { id := some id, command }) :
    ClientFrame.decode (shellPayload id name fields) = some { id := some id, command } := by
  refine ClientFrame.decode_of_perm h (List.Perm.of_eq (hsame.trans (List.append_nil _).symm)) ?_
  intro m hm
  cases hm

/-- A request whose members the shell writes in its own way, which the case reads as well. -/
theorem ClientFrame.decode_reordered {β : Type} {id : ℕ} (hid : id < 2 ^ 64) {c : Case Command}
    {f : Members β} {mk : β → Command} {b : β} {fields : List Json.Member}
    (hfind : commandCases.find? (fun d => d.tag = c.tag) = some c)
    (hread : ∀ members, c.read members = (f.read members).map mk) (hvalid : f.valid b = true)
    (hnames : ∀ name ∈ f.names, name ≠ "id" ∧ name ≠ "command")
    (hperm : fields.Perm (f.write b)) :
    ClientFrame.decode (shellPayload id c.tag fields)
      = some { id := some id, command := mk b } := by
  refine ClientFrame.decode_payload hid hfind
    (fun m hm => hnames m.1 (f.write_mem b m (hperm.subset hm))) ?_
  have hmembers : (("id", Json.number id) :: ("command", Json.string c.tag) :: fields).Perm
      (f.write b ++ [("id", .number id), ("command", .string c.tag)]) :=
    ((hperm.cons _).cons _).trans
      (List.perm_append_comm : ([_, _] ++ f.write b).Perm (f.write b ++ [_, _]))
  rw [hread, f.read_of_perm hvalid hmembers]
  · rfl
  · intro m hm hname
    rcases List.mem_cons.mp hm with rfl | hm
    · exact (hnames _ hname).1 rfl
    · rw [List.mem_singleton.mp hm] at hname
      exact (hnames _ hname).2 rfl

/-- What a valid command holds is valid in its case. -/
theorem valid_of_case {command : Command} (h : commandMembers.valid command = true)
    {c : Case Command} (hfind : commandCases.find? (fun d => d.tag = c.tag) = some c)
    (hwrite : (c.write command).isSome = true) : c.valid command = true := by
  have hcase := List.all_eq_true.mp h c (List.mem_of_find?_eq_some hfind)
  rw [hwrite] at hcase
  exact hcase

/-- The daemon reads every request of the shell as the one that was meant. -/
theorem shellRequest_decoded {id : ℕ} (command : Command) {name : String}
    {fields : List Json.Member} (h : clientFrameMembers.valid { id := some id, command } = true)
    (hsent : shellArguments command = some (name, fields)) :
    ClientFrame.decode (shellPayload id name fields) = some { id := some id, command } := by
  obtain ⟨hid, hcommand⟩ := Bool.and_eq_true_iff.mp h
  replace hid : id < 2 ^ 64 := of_decide_eq_true hid
  cases command with
  | sendMessage chatJid text deliveryId mentions replyTo =>
    cases hsent
    refine ClientFrame.decode_reordered hid (c := sendMessageCase) (f := shellSendMessageFields)
      (b := (chatJid, text, deliveryId, mentions, replyTo)) rfl (fun _ => rfl)
      (valid_of_case hcommand (c := sendMessageCase) rfl rfl) (by decide) ?_
    -- the delivery id comes last
    exact ((List.perm_append_singleton _ [_, _]).cons _).cons _
  | sendImage chatJid path caption deliveryId mentions replyTo =>
    cases hsent
    refine ClientFrame.decode_reordered hid (c := sendImageCase) (f := shellSendImageFields)
      (b := (chatJid, path, caption, deliveryId, mentions, replyTo)) rfl (fun _ => rfl)
      (valid_of_case hcommand (c := sendImageCase) rfl rfl) (by decide) ?_
    exact (((List.perm_append_singleton _ [_, _]).cons _).cons _).cons _
  | sendDocument chatJid path fileName caption deliveryId mentions replyTo =>
    cases hsent
    refine ClientFrame.decode_reordered hid (c := sendDocumentCase) (f := shellSendDocumentFields)
      (b := (chatJid, path, fileName, caption, deliveryId, mentions, replyTo)) rfl (fun _ => rfl)
      (valid_of_case hcommand (c := sendDocumentCase) rfl rfl) (by decide) ?_
    -- the file name comes last, and the delivery id before it
    refine ((?_ : List.Perm _ _).cons _).cons _
    refine (List.perm_append_singleton _ [_, _, _, _]).trans (List.Perm.cons _ ?_)
    exact (List.perm_append_singleton _ [_, _]).cons _
  | createPoll chatJid question options selectableCount correct =>
    cases correct <;> cases hsent
    exact ClientFrame.decode_written h rfl
  | setActiveChat chatJid =>
    cases chatJid <;> cases hsent <;> exact ClientFrame.decode_written h rfl
  | ping => cases hsent
  | _ =>
    cases hsent
    exact ClientFrame.decode_written h rfl

theorem shellRequest_decoded_message :
    ClientFrame.decode (shellPayload 9 "send_message" [("chat_jid", .string "1@g.us"),
      ("text", .string "hi"), ("mentions", .array []), ("reply_to", .null),
      ("delivery_id", .string "qml-1-1")])
      = some { id := some 9, command := .sendMessage "1@g.us" "hi" "qml-1-1" [] none } :=
  shellRequest_decoded _ (by decide) rfl

end OmarchyWhatsapp.Wire
