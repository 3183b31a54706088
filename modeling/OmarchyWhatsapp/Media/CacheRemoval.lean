import OmarchyWhatsapp.Media.CachePaths

/-!
# Removing cached media

`remove_message_media` knows some files of a message by their paths and the others by what their
names begin with; `remove_chat_media` looks at the beginning alone.
-/

namespace OmarchyWhatsapp

open Text

inductive CacheKind where
  | image | imageThumbnail | sticker | stickerThumbnail | video | videoThumbnail | audio | document
  | location
deriving DecidableEq, Repr

/-- A file of a message, with what its path function is given. -/
inductive CacheFile where
  | image
  | imageThumbnail
  | sticker
  | stickerThumbnail
  | video (mimeType : Option String)
  | videoThumbnail
  | audio (mimeType : Option String)
  | document (fileName : String)
  | location
deriving DecidableEq, Repr

namespace CacheFile

def kind : CacheFile → CacheKind
  | .image => .image
  | .imageThumbnail => .imageThumbnail
  | .sticker => .sticker
  | .stickerThumbnail => .stickerThumbnail
  | .video _ => .video
  | .videoThumbnail => .videoThumbnail
  | .audio _ => .audio
  | .document _ => .document
  | .location => .location

def path (directory : FileName) (chatJid messageId : String) : CacheFile → FileName
  | .image => messageImagePath directory chatJid messageId
  | .imageThumbnail => messageImageThumbnailPath directory chatJid messageId
  | .sticker => messageStickerPath directory chatJid messageId
  | .stickerThumbnail => messageStickerThumbnailPath directory chatJid messageId
  | .video mimeType => messageVideoPath directory chatJid messageId mimeType
  | .videoThumbnail => messageVideoThumbnailPath directory chatJid messageId
  | .audio mimeType => messageAudioPath directory chatJid messageId mimeType
  | .document fileName => messageDocumentPath directory chatJid messageId fileName
  | .location => locationThumbnailPath directory chatJid messageId

end CacheFile

/-! ## The removals -/

/-- `std::fs::remove_file`, of the names in a directory. -/
def removeFile (directory : FileName) (names : List FileName) (path : FileName) : List FileName :=
  names.filter (fun name => join directory name ≠ path)

/-- `remove_message_media`. -/
def removeMessageMedia (directory : FileName) (names : List FileName)
    (chatJid messageId : String) : List FileName :=
  let names := [messageImagePath directory chatJid messageId,
    messageImageThumbnailPath directory chatJid messageId,
    messageVideoThumbnailPath directory chatJid messageId,
    messageStickerPath directory chatJid messageId,
    messageStickerThumbnailPath directory chatJid messageId,
    locationThumbnailPath directory chatJid messageId].foldl (removeFile directory) names
  let documentPrefix := messageStem chatJid messageId ++ ".document".toList
  let videoPrefix := messageStem chatJid messageId ++ ".video".toList
  let audioPrefix := messageStem chatJid messageId ++ ".audio".toList
  names.filter fun name => !(documentPrefix.isPrefixOf name || videoPrefix.isPrefixOf name ||
    audioPrefix.isPrefixOf name)

/-- `remove_chat_media`. -/
def removeChatMedia (names : List FileName) (chatJid : String) : List FileName :=
  names.filter fun name => !(hexKey chatJid ++ ['-']).isPrefixOf name

/-! ## What a name is made of -/

/-- What the suffix of a kind begins with, behind its dot. -/
def CacheKind.word : CacheKind → FileName
  | .image => "img".toList
  | .imageThumbnail => "thumbnail".toList
  | .sticker => "sticker".toList
  | .stickerThumbnail => "sticker-thumbnail".toList
  | .video => "video".toList
  | .videoThumbnail => "video-thumbnail".toList
  | .audio => "audio".toList
  | .document => "document".toList
  | .location => "location".toList

namespace CacheFile

/-- The rest of the suffix. -/
def extension : CacheFile → FileName
  | .image => []
  | .imageThumbnail => ".jpg".toList
  | .sticker => ".webp".toList
  | .stickerThumbnail => ".png".toList
  | .video mimeType => videoExtension mimeType
  | .videoThumbnail => ".jpg".toList
  | .audio mimeType => audioExtension mimeType
  | .document fileName => documentExtension fileName
  | .location => ".jpg".toList

def suffix (f : CacheFile) : FileName := '.' :: (f.kind.word ++ f.extension)

def name (f : CacheFile) (chatJid messageId : String) : FileName :=
  messageStem chatJid messageId ++ f.suffix

theorem path_eq (f : CacheFile) (directory : FileName) (chatJid messageId : String) :
    f.path directory chatJid messageId = join directory (f.name chatJid messageId) := by
  cases f <;> rfl

/-- An extension is empty or begins with a dot. -/
theorem head?_extension (f : CacheFile) : f.extension.head?.all (· = '.') = true := by
  cases f with
  | video mimeType =>
    dsimp only [extension]
    unfold videoExtension
    dsimp only
    split_ifs <;> rfl
  | audio mimeType =>
    dsimp only [extension]
    unfold audioExtension
    dsimp only
    split_ifs <;> rfl
  | document fileName =>
    dsimp only [extension, documentExtension]
    cases safeDocumentExtension fileName <;> rfl
  | _ => rfl

/-- The word of the kind is what stands between the first two dots of the suffix. -/
theorem takeWhile_suffix (f : CacheFile) : (f.suffix.drop 1).takeWhile (· ≠ '.') = f.kind.word := by
  have hword : ∀ c ∈ f.kind.word, decide (c ≠ '.') = true := by
    have hall : ∀ k : CacheKind, k.word.all (· ≠ '.') = true := by
      intro k
      cases k <;> decide
    exact List.all_eq_true.mp (hall f.kind)
  have hdot := head?_extension f
  rw [suffix, List.drop_one, List.tail_cons, List.takeWhile_append_of_pos hword]
  cases hextension : f.extension with
  | nil => rw [List.takeWhile_nil, List.append_nil]
  | cons c rest =>
    rw [hextension] at hdot
    have hc : c = '.' := by simpa using hdot
    rw [hc, List.takeWhile_cons_of_neg (by decide), List.append_nil]

theorem word_inj {k k' : CacheKind} (h : k.word = k'.word) : k = k' := by
  cases k <;> cases k' <;> first | rfl | exact absurd h (by decide)

theorem kind_of_suffix {f f' : CacheFile} (h : f.suffix = f'.suffix) : f.kind = f'.kind := by
  have hword := congrArg (fun s : FileName => (s.drop 1).takeWhile (· ≠ '.')) h
  rw [takeWhile_suffix, takeWhile_suffix] at hword
  exact word_inj hword

theorem name_inj {f f' : CacheFile} {chatJid messageId chatJid' messageId' : String}
    (h : f.name chatJid messageId = f'.name chatJid' messageId') :
    chatJid = chatJid' ∧ messageId = messageId' ∧ f.suffix = f'.suffix := by
  obtain ⟨hchat, hmessage, hrest⟩ := messageStem_append_inj h
  exact ⟨hchat, hmessage, congrArg (List.cons '.') hrest⟩

end CacheFile

/-! ## What is removed -/

theorem mem_foldl_removeFile {directory name : FileName} {paths : List FileName}
    {names : List FileName} :
    name ∈ paths.foldl (removeFile directory) names ↔
      name ∈ names ∧ ∀ path ∈ paths, join directory name ≠ path := by
  induction paths generalizing names with
  | nil => simp
  | cons path paths ih =>
    rw [List.foldl_cons, ih, removeFile, List.mem_filter, decide_eq_true_eq, List.forall_mem_cons,
      and_assoc]

/-- The kinds of a message's files that are removed by what their names begin with. -/
def prefixKinds : List CacheKind := [.document, .video, .audio]

/-- The files that are removed by their paths. -/
def pathFiles : List CacheFile :=
  [.image, .imageThumbnail, .videoThumbnail, .sticker, .stickerThumbnail, .location]

theorem mem_removeMessageMedia {directory name : FileName} {names : List FileName}
    {chatJid messageId : String} :
    name ∈ removeMessageMedia directory names chatJid messageId ↔
      name ∈ names ∧ (∀ f ∈ pathFiles, name ≠ f.name chatJid messageId) ∧
        ∀ k ∈ prefixKinds, ¬(messageStem chatJid messageId ++ '.' :: k.word) <+: name := by
  have hpaths : (∀ path ∈ pathFiles.map (fun f => f.path directory chatJid messageId),
      join directory name ≠ path) ↔ ∀ f ∈ pathFiles, name ≠ f.name chatJid messageId := by
    rw [List.forall_mem_map]
    refine forall₂_congr fun f _ => not_congr ?_
    rw [CacheFile.path_eq]
    exact ⟨join_inj, fun h => h ▸ rfl⟩
  have hremoved : name ∈ removeMessageMedia directory names chatJid messageId ↔
      name ∈ (pathFiles.map (fun f => f.path directory chatJid messageId)).foldl
        (removeFile directory) names ∧
      ∀ k ∈ prefixKinds, ¬(messageStem chatJid messageId ++ '.' :: k.word) <+: name := by
    have hinitial : ∀ k : CacheKind,
        (messageStem chatJid messageId ++ '.' :: k.word).isPrefixOf name = false ↔
          ¬(messageStem chatJid messageId ++ '.' :: k.word) <+: name := fun k => by
      rw [← List.isPrefixOf_iff_prefix, Bool.not_eq_true]
    refine List.mem_filter.trans (and_congr_right fun _ => ?_)
    rw [Bool.not_eq_true', Bool.or_eq_false_iff, Bool.or_eq_false_iff, and_assoc]
    refine (and_congr (hinitial .document)
      (and_congr (hinitial .video) (hinitial .audio))).trans ?_
    simp [prefixKinds]
  rw [hremoved, mem_foldl_removeFile, hpaths, and_assoc]

/-- A removed message loses all of its files. -/
theorem name_notMem_removeMessageMedia (f : CacheFile) (directory : FileName)
    (names : List FileName) (chatJid messageId : String) :
    f.name chatJid messageId ∉ removeMessageMedia directory names chatJid messageId := by
  rw [mem_removeMessageMedia]
  rintro ⟨-, hpaths, hinitials⟩
  have hinitial : ∀ k, f.kind = k →
      (messageStem chatJid messageId ++ '.' :: k.word) <+: f.name chatJid messageId := by
    rintro _ rfl
    rw [CacheFile.name, CacheFile.suffix, List.prefix_append_right_inj]
    exact List.prefix_append ('.' :: f.kind.word) f.extension
  cases f with
  | document => exact hinitials .document (by decide) (hinitial _ rfl)
  | video => exact hinitials .video (by decide) (hinitial _ rfl)
  | audio => exact hinitials .audio (by decide) (hinitial _ rfl)
  | _ => exact hpaths _ (by decide) rfl

/-- The files of other messages are left. -/
theorem name_mem_removeMessageMedia {f : CacheFile} {directory : FileName} {names : List FileName}
    {chatJid messageId chatJid' messageId' : String} (h : f.name chatJid' messageId' ∈ names)
    (hother : (chatJid', messageId') ≠ (chatJid, messageId)) :
    f.name chatJid' messageId' ∈ removeMessageMedia directory names chatJid messageId := by
  rw [mem_removeMessageMedia]
  refine ⟨h, fun g _ hname => ?_, fun k _ hinitial => ?_⟩
  · obtain ⟨rfl, rfl, -⟩ := CacheFile.name_inj hname
    exact hother rfl
  · obtain ⟨rest, hrest⟩ := hinitial
    rw [List.append_assoc, List.cons_append] at hrest
    obtain ⟨rfl, rfl, -⟩ := messageStem_append_inj hrest
    exact hother rfl

theorem name_mem_removeChatMedia {f : CacheFile} {names : List FileName}
    {chatJid chatJid' messageId : String} :
    f.name chatJid' messageId ∈ removeChatMedia names chatJid ↔
      f.name chatJid' messageId ∈ names ∧ chatJid' ≠ chatJid := by
  rw [removeChatMedia, List.mem_filter]
  refine and_congr_right fun _ => ?_
  rw [Bool.not_eq_true', ← Bool.not_eq_true, List.isPrefixOf_iff_prefix]
  refine not_congr ⟨?_, ?_⟩
  · rintro ⟨rest, hrest⟩
    rw [CacheFile.name, messageStem, List.append_assoc, List.append_assoc] at hrest
    exact (hexKey_inj (append_separator_inj (dash_notMem_hexKey chatJid)
      (dash_notMem_hexKey chatJid') hrest).1).symm
  · rintro rfl
    rw [CacheFile.name, messageStem, List.append_assoc, List.prefix_append_right_inj]
    exact List.prefix_append ['-'] (hexKey messageId ++ f.suffix)

/-- Paths tell the chat, the message and the kind; removing the media of a message or of a chat
removes all of its files and no others. -/
theorem mediaRemoval_exact (directory : FileName) (names : List FileName) :
    (∀ (f f' : CacheFile) (chatJid messageId chatJid' messageId' : String),
      f.path directory chatJid messageId = f'.path directory chatJid' messageId' →
        chatJid = chatJid' ∧ messageId = messageId' ∧ f.kind = f'.kind) ∧
    (∀ (f : CacheFile) (chatJid messageId chatJid' messageId' : String),
      f.name chatJid' messageId' ∈ removeMessageMedia directory names chatJid messageId ↔
        f.name chatJid' messageId' ∈ names ∧ (chatJid', messageId') ≠ (chatJid, messageId)) ∧
    ∀ (f : CacheFile) (chatJid chatJid' messageId' : String),
      f.name chatJid' messageId' ∈ removeChatMedia names chatJid ↔
        f.name chatJid' messageId' ∈ names ∧ chatJid' ≠ chatJid := by
  refine ⟨fun f f' chatJid messageId chatJid' messageId' h => ?_,
    fun f chatJid messageId chatJid' messageId' => ⟨fun h => ⟨?_, ?_⟩, fun h => ?_⟩,
    fun f chatJid chatJid' messageId' => name_mem_removeChatMedia⟩
  · rw [CacheFile.path_eq, CacheFile.path_eq] at h
    obtain ⟨hchat, hmessage, hsuffix⟩ := CacheFile.name_inj (join_inj h)
    exact ⟨hchat, hmessage, CacheFile.kind_of_suffix hsuffix⟩
  · exact (mem_removeMessageMedia.mp h).1
  · intro hsame
    obtain ⟨rfl, rfl⟩ := Prod.mk.inj hsame
    exact name_notMem_removeMessageMedia f directory names _ _ h
  · exact name_mem_removeMessageMedia h.1 h.2

end OmarchyWhatsapp
