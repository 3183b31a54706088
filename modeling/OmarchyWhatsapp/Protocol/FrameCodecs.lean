import OmarchyWhatsapp.Protocol.Frames
import OmarchyWhatsapp.Text.Json

/-!
# The JSON of frames

Each type as its `serde` attributes have it written and read: which members are left out, which
have a default, and what the tag of a variant is.
-/

namespace OmarchyWhatsapp.Wire

open Text Members

/-! ## Messages -/

def pollOption : Codec PollOption :=
  ((required "name" .string).and <| (defaulted "votes" (.nat 32) 0).and <|
    (defaulted "selected_by_me" .bool false).and <|
    defaulted "voter_jids" (.list .string) []).map
    (fun o => (o.name, o.votes, o.selectedByMe, o.voterJids))
    (fun p => ⟨p.1, p.2.1, p.2.2.1, p.2.2.2⟩) |>.object

def MessageMedia.imageCase : Case MessageMedia :=
  .of "image" ((required "path" .string).and <| (defaulted "thumbnail_path" .string "").and <|
      (defaulted "downloaded" .bool false).and <| (required "mime_type" .string).and <|
      (required "width" (.nat 32)).and <| required "height" (.nat 32))
    (fun p => .image p.1 p.2.1 p.2.2.1 p.2.2.2.1 p.2.2.2.2.1 p.2.2.2.2.2)
    (fun
      | .image path thumbnailPath downloaded mimeType width height =>
        some (path, thumbnailPath, downloaded, mimeType, width, height)
      | _ => none)

def MessageMedia.stickerCase : Case MessageMedia :=
  .of "sticker" ((required "path" .string).and <| (defaulted "thumbnail_path" .string "").and <|
      (defaulted "downloaded" .bool false).and <| (required "mime_type" .string).and <|
      (required "width" (.nat 32)).and <| (required "height" (.nat 32)).and <|
      (defaulted "animated" .bool false).and <| (defaulted "lottie" .bool false).and <|
      defaulted "accessibility_label" .string "")
    (fun p => .sticker p.1 p.2.1 p.2.2.1 p.2.2.2.1 p.2.2.2.2.1 p.2.2.2.2.2.1 p.2.2.2.2.2.2.1
      p.2.2.2.2.2.2.2.1 p.2.2.2.2.2.2.2.2)
    (fun
      | .sticker path thumbnailPath downloaded mimeType width height animated lottie label =>
        some (path, thumbnailPath, downloaded, mimeType, width, height, animated, lottie, label)
      | _ => none)

def MessageMedia.videoCase : Case MessageMedia :=
  .of "video" ((required "path" .string).and <| (required "thumbnail_path" .string).and <|
      (defaulted "downloaded" .bool false).and <| (required "mime_type" .string).and <|
      (required "width" (.nat 32)).and <| (required "height" (.nat 32)).and <|
      (required "duration_seconds" (.nat 32)).and <| required "gif_playback" .bool)
    (fun p => .video p.1 p.2.1 p.2.2.1 p.2.2.2.1 p.2.2.2.2.1 p.2.2.2.2.2.1 p.2.2.2.2.2.2.1
      p.2.2.2.2.2.2.2)
    (fun
      | .video path thumbnailPath downloaded mimeType width height durationSeconds gifPlayback =>
        some (path, thumbnailPath, downloaded, mimeType, width, height, durationSeconds,
          gifPlayback)
      | _ => none)

def MessageMedia.audioCase : Case MessageMedia :=
  .of "audio" ((required "path" .string).and <| (defaulted "downloaded" .bool false).and <|
      (required "mime_type" .string).and <| (required "duration_seconds" (.nat 32)).and <|
      required "voice_message" .bool)
    (fun p => .audio p.1 p.2.1 p.2.2.1 p.2.2.2.1 p.2.2.2.2)
    (fun
      | .audio path downloaded mimeType durationSeconds voiceMessage =>
        some (path, downloaded, mimeType, durationSeconds, voiceMessage)
      | _ => none)

def MessageMedia.documentCase : Case MessageMedia :=
  .of "document" ((required "path" .string).and <| (required "file_name" .string).and <|
      (required "mime_type" .string).and <| (required "file_size" (.nat 64)).and <|
      required "page_count" (.nat 32))
    (fun p => .document p.1 p.2.1 p.2.2.1 p.2.2.2.1 p.2.2.2.2)
    (fun
      | .document path fileName mimeType fileSize pageCount =>
        some (path, fileName, mimeType, fileSize, pageCount)
      | _ => none)

def MessageMedia.locationCase : Case MessageMedia :=
  .of "location" ((required "latitude_e7" (.int 64)).and <|
    (required "longitude_e7" (.int 64)).and <|
      (required "accuracy_m" (.nat 32)).and <| (required "name" .string).and <|
      (required "address" .string).and <| (nullable "thumbnail_path" .string).and <|
      (required "live" .bool).and <| (required "updated_at" (.int 64)).and <|
      defaulted "duration_seconds" (.nat 32) 0)
    (fun p => .location p.1 p.2.1 p.2.2.1 p.2.2.2.1 p.2.2.2.2.1 p.2.2.2.2.2.1 p.2.2.2.2.2.2.1
      p.2.2.2.2.2.2.2.1 p.2.2.2.2.2.2.2.2)
    (fun
      | .location latitude longitude accuracy name address thumbnailPath live updatedAt duration =>
        some (latitude, longitude, accuracy, name, address, thumbnailPath, live, updatedAt,
          duration)
      | _ => none)

def MessageMedia.pollCase : Case MessageMedia :=
  .of "poll" ((required "question" .string).and <| (required "options" (.list pollOption)).and <|
      (required "selectable_count" (.nat 32)).and <| (defaulted "total_voters" (.nat 32) 0).and <|
      (defaulted "quiz" .bool false).and <| (optional "correct_option_index" (.nat 32)).and <|
      defaulted "end_timestamp" (.int 64) 0)
    (fun p => .poll p.1 p.2.1 p.2.2.1 p.2.2.2.1 p.2.2.2.2.1 p.2.2.2.2.2.1 p.2.2.2.2.2.2)
    (fun
      | .poll question options selectableCount totalVoters quiz correct endTimestamp =>
        some (question, options, selectableCount, totalVoters, quiz, correct, endTimestamp)
      | _ => none)

def messageMediaMembers : Members MessageMedia :=
  .tagged "kind" [MessageMedia.imageCase, MessageMedia.stickerCase, MessageMedia.videoCase,
    MessageMedia.audioCase, MessageMedia.documentCase, MessageMedia.locationCase,
    MessageMedia.pollCase] fun a => by cases a <;> rfl

def messageMedia : Codec MessageMedia := messageMediaMembers.object

def messageQuote : Codec MessageQuote :=
  ((required "message_id" .string).and <| (required "sender_jid" .string).and <|
    (required "sender_name" .string).and <| required "text" .string).map
    (fun q => (q.messageId, q.senderJid, q.senderName, q.text))
    (fun p => ⟨p.1, p.2.1, p.2.2.1, p.2.2.2⟩) |>.object

def messageDelivery : Codec MessageDelivery :=
  ((required "jid" .string).and <| (required "name" .string).and <|
    optional "delivered_at" (.int 64)).map
    (fun d => (d.jid, d.name, d.deliveredAt)) (fun p => ⟨p.1, p.2.1, p.2.2⟩) |>.object

def messageReader : Codec MessageReader :=
  ((required "jid" .string).and <| (required "name" .string).and <|
    optional "read_at" (.int 64)).map
    (fun r => (r.jid, r.name, r.readAt)) (fun p => ⟨p.1, p.2.1, p.2.2⟩) |>.object

def reaction : Codec Reaction :=
  ((required "emoji" .string).and <| (required "count" (.nat 32)).and <|
    required "from_me" .bool).map
    (fun r => (r.emoji, r.count, r.fromMe)) (fun p => ⟨p.1, p.2.1, p.2.2⟩) |>.object

def message : Codec Message :=
  ((required "id" .string).and <| (required "chat_jid" .string).and <|
    (required "sender_jid" .string).and <| (required "sender_name" .string).and <|
    (required "text" .string).and <| (required "timestamp" (.int 64)).and <|
    (required "from_me" .bool).and <| (defaulted "receipt" (.nat 8) 0).and <|
    (optional "delivered_at" (.int 64)).and <| (optional "read_at" (.int 64)).and <|
    (unlessDefault "delivered_to" (.list messageDelivery) []).and <|
    (unlessDefault "read_by" (.list messageReader) []).and <| (optional "media" messageMedia).and <|
    (unlessDefault "reactions" (.list reaction) []).and <| optional "quote" messageQuote).map
    (fun m => (m.id, m.chatJid, m.senderJid, m.senderName, m.text, m.timestamp, m.fromMe, m.receipt,
      m.deliveredAt, m.readAt, m.deliveredTo, m.readBy, m.media, m.reactions, m.quote))
    (fun (id, chatJid, senderJid, senderName, text, timestamp, fromMe, receipt, deliveredAt, readAt,
        deliveredTo, readBy, media, reactions, quote) =>
      { id, chatJid, senderJid, senderName, text, timestamp, fromMe, receipt, deliveredAt, readAt,
        deliveredTo, readBy, media, reactions, quote })
    |>.object

def chat : Codec Chat :=
  ((required "jid" .string).and <| (required "name" .string).and <|
    (optional "phone_number" .string).and <| (required "last_message" .string).and <|
    (defaulted "last_sender_name" .string "").and <| (required "last_timestamp" (.int 64)).and <|
    (required "unread" (.nat 32)).and <| (defaulted "pinned" .bool false).and <|
    (defaulted "muted" .bool false).and <| required "is_group" .bool).map
    (fun c => (c.jid, c.name, c.phoneNumber, c.lastMessage, c.lastSenderName, c.lastTimestamp,
      c.unread, c.pinned, c.muted, c.isGroup))
    (fun (jid, name, phoneNumber, lastMessage, lastSenderName, lastTimestamp, unread, pinned, muted,
        isGroup) =>
      { jid, name, phoneNumber, lastMessage, lastSenderName, lastTimestamp, unread, pinned, muted,
        isGroup })
    |>.object

/-! ## Other parts of frames -/

def chatParticipant : Codec ChatParticipant :=
  ((required "jid" .string).and <| (required "name" .string).and <|
    (unlessDefault "aliases" (.list .string) []).and <| required "is_me" .bool).map
    (fun c => (c.jid, c.name, c.aliases, c.isMe)) (fun p => ⟨p.1, p.2.1, p.2.2.1, p.2.2.2⟩)
    |>.object

def connectionStatus : Codec ConnectionStatus :=
  Members.object <| .tagged "state" [.unit "starting" .starting,
    .of "pairing" ((required "code" .string).and <| required "expires_at" (.int 64))
      (fun p => .pairing p.1 p.2)
      (fun | .pairing code expiresAt => some (code, expiresAt) | _ => none),
    .unit "connected" .connected,
    .of "disconnected" (required "reason" .string) .disconnected
      (fun | .disconnected reason => some reason | _ => none),
    .unit "logged_out" .loggedOut,
    .of "error" (required "message" .string) .error
      (fun | .error message => some message | _ => none)]
    fun a => by cases a <;> rfl

def ChatState.word : ChatState → String
  | .typing => "typing"
  | .recording => "recording"
  | .paused => "paused"

def chatState : Codec ChatState :=
  .words [.typing, .recording, .paused] ChatState.word fun a => by cases a <;> rfl

def ChatStateResyncStatus.word : ChatStateResyncStatus → String
  | .idle => "idle"
  | .requested => "requested"
  | .syncing => "syncing"
  | .succeeded => "succeeded"
  | .failed => "failed"

def chatStateResyncStatus : Codec ChatStateResyncStatus :=
  .words [.idle, .requested, .syncing, .succeeded, .failed] ChatStateResyncStatus.word
    fun a => by cases a <;> rfl

def VoiceOutboxStatus.word : VoiceOutboxStatus → String
  | .sending => "sending"
  | .failed => "failed"

def voiceOutboxEntry : Codec VoiceOutboxEntry :=
  ((required "recording_id" .string).and <| (required "chat_jid" .string).and <|
    (required "duration_ms" (.nat 64)).and <|
    (required "status" (.words [.sending, .failed] VoiceOutboxStatus.word
      fun a => by cases a <;> rfl)).and <|
    (optional "error" .string).and <| required "created_at" (.int 64)).map
    (fun e => (e.recordingId, e.chatJid, e.durationMs, e.status, e.error, e.createdAt))
    (fun p => ⟨p.1, p.2.1, p.2.2.1, p.2.2.2.1, p.2.2.2.2.1, p.2.2.2.2.2⟩) |>.object

def TextOutboxStatus.word : TextOutboxStatus → String
  | .queued => "queued"
  | .sending => "sending"
  | .failed => "failed"
  | .sent => "sent"

def textOutboxStatus : Codec TextOutboxStatus :=
  .words [.queued, .sending, .failed, .sent] TextOutboxStatus.word fun a => by cases a <;> rfl

def textOutboxEntry : Codec TextOutboxEntry :=
  ((required "delivery_id" .string).and <| (required "chat_jid" .string).and <|
    (required "text" .string).and <| (required "status" textOutboxStatus).and <|
    (optional "error" .string).and <| required "created_at" (.int 64)).map
    (fun e => (e.deliveryId, e.chatJid, e.text, e.status, e.error, e.createdAt))
    (fun p => ⟨p.1, p.2.1, p.2.2.1, p.2.2.2.1, p.2.2.2.2.1, p.2.2.2.2.2⟩) |>.object

def Resource.word : Resource → String
  | .chats => "chats"
  | .messages => "messages"

def resource : Codec Resource :=
  .words [.chats, .messages] Resource.word fun a => by cases a <;> rfl

def replyTarget : Codec ReplyTarget :=
  ((required "message_id" .string).and <| required "sender_jid" .string).map
    (fun r => (r.messageId, r.senderJid)) (fun p => ⟨p.1, p.2⟩) |>.object

/-! ## Requests and events -/

def sendMessageFields : Members (String × String × String × List String × Option ReplyTarget) :=
  (required "chat_jid" .string).and <| (required "text" .string).and <|
    (required "delivery_id" .string).and <| (unlessDefault "mentions" (.list .string) []).and <|
    optional "reply_to" replyTarget

def sendMessageCase : Case Command :=
  .of "send_message" sendMessageFields
    (fun p => .sendMessage p.1 p.2.1 p.2.2.1 p.2.2.2.1 p.2.2.2.2)
    (fun
      | .sendMessage chatJid text deliveryId mentions replyTo =>
        some (chatJid, text, deliveryId, mentions, replyTo)
      | _ => none)

def sendImageFields :
    Members (String × String × String × String × List String × Option ReplyTarget) :=
  (required "chat_jid" .string).and <| (required "path" .string).and <|
    (required "caption" .string).and <| (required "delivery_id" .string).and <|
    (unlessDefault "mentions" (.list .string) []).and <| optional "reply_to" replyTarget

def sendImageCase : Case Command :=
  .of "send_image" sendImageFields
    (fun p => .sendImage p.1 p.2.1 p.2.2.1 p.2.2.2.1 p.2.2.2.2.1 p.2.2.2.2.2)
    (fun
      | .sendImage chatJid path caption deliveryId mentions replyTo =>
        some (chatJid, path, caption, deliveryId, mentions, replyTo)
      | _ => none)

def sendDocumentFields :
    Members (String × String × String × String × String × List String × Option ReplyTarget) :=
  (required "chat_jid" .string).and <| (required "path" .string).and <|
    (required "file_name" .string).and <| (required "caption" .string).and <|
    (required "delivery_id" .string).and <| (unlessDefault "mentions" (.list .string) []).and <|
    optional "reply_to" replyTarget

def sendDocumentCase : Case Command :=
  .of "send_document" sendDocumentFields
    (fun p => .sendDocument p.1 p.2.1 p.2.2.1 p.2.2.2.1 p.2.2.2.2.1 p.2.2.2.2.2.1 p.2.2.2.2.2.2)
    (fun
      | .sendDocument chatJid path fileName caption deliveryId mentions replyTo =>
        some (chatJid, path, fileName, caption, deliveryId, mentions, replyTo)
      | _ => none)

def commandCases : List (Case Command) :=
  [.unit "get_state" .getState,
   .of "list_chats" (required "limit" (.nat 32))
      .listChats (fun | .listChats limit => some limit | _ => none),
   .of "get_messages" ((required "chat_jid" .string).and <| required "limit" (.nat 32))
      (fun p => .getMessages p.1 p.2)
      (fun | .getMessages chatJid limit => some (chatJid, limit) | _ => none),
   .of "get_group_participants" (required "chat_jid" .string)
      .getGroupParticipants (fun | .getGroupParticipants chatJid => some chatJid | _ => none),
   sendMessageCase,
   .of "send_voice_message" ((required "chat_jid" .string).and <|
      required "recording_id" .string)
      (fun p => .sendVoiceMessage p.1 p.2)
      (fun | .sendVoiceMessage chatJid recordingId => some (chatJid, recordingId) | _ => none),
   .unit "paste_image" .pasteImage,
   .of "stage_file" (required "path" .string)
      .stageFile (fun | .stageFile path => some path | _ => none),
   sendImageCase, sendDocumentCase,
   .of "discard_voice_recording" (required "recording_id" .string)
      .discardVoiceRecording
      (fun | .discardVoiceRecording recordingId => some recordingId | _ => none),
   .unit "list_voice_outbox" .listVoiceOutbox,
   .unit "list_text_outbox" .listTextOutbox,
   .of "retry_text_message" (required "delivery_id" .string)
      .retryTextMessage (fun | .retryTextMessage deliveryId => some deliveryId | _ => none),
   .of "discard_text_message" (required "delivery_id" .string)
      .discardTextMessage (fun | .discardTextMessage deliveryId => some deliveryId | _ => none),
   .of "create_poll" ((required "chat_jid" .string).and <| (required "question" .string).and <|
      (required "options" (.list .string)).and <| (required "selectable_count" (.nat 32)).and <|
      optional "correct_option_index" (.nat 32))
      (fun p => .createPoll p.1 p.2.1 p.2.2.1 p.2.2.2.1 p.2.2.2.2)
      (fun
        | .createPoll chatJid question options count correct =>
          some (chatJid, question, options, count, correct)
        | _ => none),
   .of "vote_poll" ((required "chat_jid" .string).and <| (required "message_id" .string).and <|
      required "selected_options" (.list .string))
      (fun p => .votePoll p.1 p.2.1 p.2.2)
      (fun
        | .votePoll chatJid messageId selected =>
          some (chatJid, messageId, selected)
        | _ => none),
   .of "download_media" ((required "chat_jid" .string).and <| required "message_id" .string)
      (fun p => .downloadMedia p.1 p.2)
      (fun | .downloadMedia chatJid messageId => some (chatJid, messageId) | _ => none),
   .of "react" ((required "chat_jid" .string).and <| (required "message_id" .string).and <|
      (required "sender_jid" .string).and <| (required "target_from_me" .bool).and <|
      required "emoji" .string)
      (fun p => .react p.1 p.2.1 p.2.2.1 p.2.2.2.1 p.2.2.2.2)
      (fun
        | .react chatJid messageId senderJid fromMe emoji =>
          some (chatJid, messageId, senderJid, fromMe, emoji)
        | _ => none),
   .of "mark_read" (required "chat_jid" .string)
      .markRead (fun | .markRead chatJid => some chatJid | _ => none),
   .of "set_chat_pinned" ((required "chat_jid" .string).and <| required "pinned" .bool)
      (fun p => .setChatPinned p.1 p.2)
      (fun | .setChatPinned chatJid pinned => some (chatJid, pinned) | _ => none),
   .of "request_avatar" (required "jid" .string)
      .requestAvatar (fun | .requestAvatar jid => some jid | _ => none),
   .unit "list_avatars" .listAvatars,
   .of "set_active_chat" (nullable "chat_jid" .string)
      .setActiveChat (fun | .setActiveChat chatJid => some chatJid | _ => none),
   .of "set_presence" (required "available" .bool)
      .setPresence (fun | .setPresence available => some available | _ => none),
   .of "set_chat_state" ((required "chat_jid" .string).and <| required "state" chatState)
      (fun p => .setChatState p.1 p.2)
      (fun | .setChatState chatJid state => some (chatJid, state) | _ => none),
   .unit "resync_chat_state" .resyncChatState,
   .unit "logout" .logout,
   .unit "ping" .ping]

def commandMembers : Members Command :=
  .tagged "command" commandCases fun a => by cases a <;> rfl

def clientFrameMembers : Members ClientFrame :=
  ((optional "id" (.nat 64)).and commandMembers).map (fun f => (f.id, f.command))
    fun p => ⟨p.1, p.2⟩

def serverEventCases : List (Case ServerEvent) :=
  [.of "hello" (required "protocol_version" (.nat 16))
      .hello (fun | .hello version => some version | _ => none),
   .of "state" ((required "status" connectionStatus).and <| required "unread_total" (.nat 32))
      (fun p => .state p.1 p.2) (fun | .state status total => some (status, total) | _ => none),
   .of "chats" (required "chats" (.list chat))
      .chats (fun | .chats chats => some chats | _ => none),
   .of "messages" ((required "chat_jid" .string).and <|
      (required "messages" (.list message)).and <| optional "first_unread_message_id" .string)
      (fun p => .messages p.1 p.2.1 p.2.2)
      (fun | .messages chatJid messages first => some (chatJid, messages, first) | _ => none),
   .of "group_participants" ((required "chat_jid" .string).and <|
      required "participants" (.list chatParticipant))
      (fun p => .groupParticipants p.1 p.2)
      (fun | .groupParticipants chatJid participants => some (chatJid, participants) | _ => none),
   .of "message" (required "message" message)
      .message (fun | .message message => some message | _ => none),
   .of "media_downloaded" ((required "chat_jid" .string).and <|
      (required "message_id" .string).and <| required "media" messageMedia)
      (fun p => .mediaDownloaded p.1 p.2.1 p.2.2)
      (fun
        | .mediaDownloaded chatJid messageId media =>
          some (chatJid, messageId, media)
        | _ => none),
   .of "media_download_failed" ((required "chat_jid" .string).and <|
      (required "message_id" .string).and <| required "message" .string)
      (fun p => .mediaDownloadFailed p.1 p.2.1 p.2.2)
      (fun
        | .mediaDownloadFailed chatJid messageId reason =>
          some (chatJid, messageId, reason)
        | _ => none),
   .of "image_pasted" ((required "path" .string).and <| (required "width" (.nat 32)).and <|
      (required "height" (.nat 32)).and <| required "mime_type" .string)
      (fun p => .imagePasted p.1 p.2.1 p.2.2.1 p.2.2.2)
      (fun
        | .imagePasted path width height mimeType =>
          some (path, width, height, mimeType)
        | _ => none),
   .unit "image_paste_empty" .imagePasteEmpty,
   .of "document_staged" ((required "path" .string).and <| (required "file_name" .string).and <|
      (required "mime_type" .string).and <| required "file_size" (.nat 64))
      (fun p => .documentStaged p.1 p.2.1 p.2.2.1 p.2.2.2)
      (fun
        | .documentStaged path fileName mimeType fileSize =>
          some (path, fileName, mimeType, fileSize)
        | _ => none),
   .of "sent" (required "message" message)
      .sent (fun | .sent message => some message | _ => none),
   .of "text_accepted" (required "delivery_id" .string)
      .textAccepted (fun | .textAccepted deliveryId => some deliveryId | _ => none),
   .of "text_outbox" (required "entries" (.list textOutboxEntry))
      .textOutbox (fun | .textOutbox entries => some entries | _ => none),
   .of "text_delivery" ((required "delivery_id" .string).and <|
      (required "status" textOutboxStatus).and <| optional "error" .string)
      (fun p => .textDelivery p.1 p.2.1 p.2.2)
      (fun
        | .textDelivery deliveryId status error =>
          some (deliveryId, status, error)
        | _ => none),
   .of "invalidated" ((required "resource" resource).and <| optional "key" .string)
      (fun p => .invalidated p.1 p.2)
      (fun | .invalidated resource key => some (resource, key) | _ => none),
   .of "presence" ((required "jid" .string).and <| (required "available" .bool).and <|
      optional "last_seen" (.int 64))
      (fun p => .presence p.1 p.2.1 p.2.2)
      (fun | .presence jid available lastSeen => some (jid, available, lastSeen) | _ => none),
   .of "chat_state" ((required "chat_jid" .string).and <| (required "sender_jid" .string).and <|
      (required "sender_name" .string).and <| required "state" Wire.chatState)
      (fun p => .chatState p.1 p.2.1 p.2.2.1 p.2.2.2)
      (fun
        | .chatState chatJid senderJid senderName state =>
          some (chatJid, senderJid, senderName, state)
        | _ => none),
   .of "chat_state_resync" ((required "status" chatStateResyncStatus).and <|
      optional "message" .string)
      (fun p => .chatStateResync p.1 p.2)
      (fun | .chatStateResync status message => some (status, message) | _ => none),
   .of "unread" (required "total" (.nat 32))
      .unread (fun | .unread total => some total | _ => none),
   .of "avatars" ((required "revision" (.nat 64)).and <| (required "jids" (.list .string)).and <|
      defaulted "changed_jids" (.list .string) [])
      (fun p => .avatars p.1 p.2.1 p.2.2)
      (fun | .avatars revision jids changedJids => some (revision, jids, changedJids) | _ => none),
   .of "voice_outbox" (required "entries" (.list voiceOutboxEntry))
      .voiceOutbox (fun | .voiceOutbox entries => some entries | _ => none),
   .unit "ack" .ack,
   .unit "pong" .pong,
   .of "error" (required "message" .string)
      .error (fun | .error message => some message | _ => none)]

def serverEventMembers : Members ServerEvent :=
  .tagged "event" serverEventCases fun a => by cases a <;> rfl

def serverFrameMembers : Members ServerFrame :=
  ((optional "id" (.nat 64)).and <| (unlessDefault "generation" (.nat 64) 0).and <|
    (unlessDefault "sequence" (.nat 64) 0).and serverEventMembers).map
    (fun f => (f.id, f.generation, f.sequence, f.event))
    fun p => ⟨p.1, p.2.1, p.2.2.1, p.2.2.2⟩

/-! ## Round trips -/

/-- `serde_json::from_str` of a request. -/
def ClientFrame.decode : Json → Option ClientFrame := clientFrameMembers.object.decode

def ServerFrame.decode : Json → Option ServerFrame := serverFrameMembers.object.decode

/-- A request is read back from its members in any order, among members of other names. -/
theorem ClientFrame.decode_of_perm {frame : ClientFrame} (h : clientFrameMembers.valid frame = true)
    {members others : List Json.Member}
    (hperm : members.Perm (clientFrameMembers.write frame ++ others))
    (hothers : ∀ m ∈ others, m.1 ∉ clientFrameMembers.names) :
    ClientFrame.decode (.object members) = some frame :=
  clientFrameMembers.read_of_perm h hperm hothers

theorem ServerFrame.decoded_anyOrder {frame : ServerFrame}
    (h : serverFrameMembers.valid frame = true)
    {members others : List Json.Member}
    (hperm : members.Perm (serverFrameMembers.write frame ++ others))
    (hothers : ∀ m ∈ others, m.1 ∉ serverFrameMembers.names) :
    ServerFrame.decode (.object members) = some frame :=
  serverFrameMembers.read_of_perm h hperm hothers

/-- The badge of a newer daemon, with a member that is not known here. -/
theorem ServerFrame.decoded_anyOrder_unread :
    ServerFrame.decode (.object (("hint", .null) :: serverFrameMembers.write
      { generation := 2, sequence := 7, event := .unread 3 }))
      = some { generation := 2, sequence := 7, event := .unread 3 } :=
  ServerFrame.decoded_anyOrder (by decide)
    (List.perm_append_comm : ([_] ++ serverFrameMembers.write _).Perm
      (serverFrameMembers.write _ ++ [_]))
    fun m hm => by
      rw [List.mem_singleton.mp hm]
      decide

/-- What is accepted as a request fits its types, and is the same request when it is written
again. -/
theorem ClientFrame.decode_again {json : Json} {frame : ClientFrame}
    (h : ClientFrame.decode json = some frame) :
    clientFrameMembers.valid frame = true ∧
      ClientFrame.decode (clientFrameMembers.object.encode frame) = some frame := by
  have hvalid := clientFrameMembers.object.valid_of_decode json frame h
  exact ⟨hvalid, clientFrameMembers.object.decode_encode frame hvalid⟩

theorem ClientFrame.decode_again_listChats :
    clientFrameMembers.valid { id := some 7, command := .listChats 500 } = true ∧
      ClientFrame.decode (clientFrameMembers.object.encode
        { id := some 7, command := .listChats 500 })
        = some { id := some 7, command := .listChats 500 } :=
  ClientFrame.decode_again (show ClientFrame.decode (.object [("limit", .number 500),
    ("hint", .null), ("command", .string "list_chats"), ("id", .number 7)]) = some _ from rfl)

end OmarchyWhatsapp.Wire
