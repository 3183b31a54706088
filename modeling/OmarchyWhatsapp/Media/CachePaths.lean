import Mathlib.Data.List.TakeWhile
import OmarchyWhatsapp.Protocol
import OmarchyWhatsapp.Text.Hex

/-!
# The files of the media cache

The name of a cached file has the JIDs and IDs in hexadecimal digits, and a suffix for what it
holds. A name or a path is the list of its characters.
-/

namespace OmarchyWhatsapp

open Text

abbrev FileName := List Char

/-! ## Paths -/

/-- `Path::join` of a relative name. -/
def join (directory name : FileName) : FileName :=
  if directory = [] ∨ directory.getLast? = some '/' then directory ++ name
  else directory ++ '/' :: name

/-- `Path::file_name`: the last component of the path, which `.` never is. -/
def pathFileName (path : FileName) : Option FileName :=
  ((path.splitOn '/').reverse.find? (fun part => part ≠ [] && part ≠ ['.'])).filter
    (· ≠ ['.', '.'])

/-- What stands before the last dot of a file name and what behind it; the dot of a hidden file
splits nothing. -/
def rsplitFileAtDot (file : FileName) : Option FileName × Option FileName :=
  let after := (file.reverse.takeWhile (· ≠ '.')).reverse
  match file.reverse.dropWhile (· ≠ '.') with
  | [] => (none, some after)
  | _ :: before => if before = [] then (some file, none) else (some before.reverse, some after)

/-- `Path::extension`. -/
def pathExtension (path : FileName) : Option FileName :=
  (pathFileName path).bind fun file => (rsplitFileAtDot file).1.bind fun _ =>
    (rsplitFileAtDot file).2

/-- `Path::file_stem`. -/
def pathFileStem (path : FileName) : Option FileName :=
  (pathFileName path).bind fun file => (rsplitFileAtDot file).1.or (rsplitFileAtDot file).2

/-- `str::len`, in bytes. -/
def byteLength (text : List Char) : ℕ := (text.map Char.utf8Size).sum

/-- `str::to_ascii_lowercase`. -/
def toAsciiLowercase (text : List Char) : List Char := text.map Char.toLower

/-- A name that an entry of a directory can have. -/
structure EntryName where
  name : FileName
  ne_nil : name ≠ []
  ne_dot : name ≠ ['.']
  ne_dotdot : name ≠ ['.', '.']
  separator : '/' ∉ name

/-! ## Names of cached files -/

/-- `hex_key`. -/
def hexKey (value : String) : FileName := hexText value.toUTF8.toList

/-- What the names of a message's files begin with. -/
def messageStem (chatJid messageId : String) : FileName :=
  hexKey chatJid ++ '-' :: hexKey messageId

def mediaPath (directory : FileName) (chatJid messageId : String) (suffix : FileName) : FileName :=
  join directory (messageStem chatJid messageId ++ suffix)

/-- `avatar_path`. -/
def avatarPath (directory : FileName) (jid : String) : FileName :=
  join directory (hexKey jid ++ ".img".toList)

/-- `avatar_missing_path`. -/
def avatarMissingPath (directory : FileName) (jid : String) : FileName :=
  join directory (hexKey jid ++ ".none".toList)

/-- `video_extension`. -/
def videoExtension (mimeType : Option String) : FileName :=
  let value := String.ofList (toAsciiLowercase (mimeType.getD "").toList)
  if value = "video/mp4" then ".mp4".toList
  else if value = "video/quicktime" then ".mov".toList
  else if value = "video/webm" then ".webm".toList
  else if value = "video/3gpp" then ".3gp".toList
  else []

/-- `audio_extension`, of a type whose parameters do not count. -/
def audioExtension (mimeType : Option String) : FileName :=
  let essence := String.ofList ((mimeType.getD "").toList.takeWhile (· ≠ ';'))
  let value := String.ofList (toAsciiLowercase (trim essence).toList)
  if value = "audio/ogg" then ".ogg".toList
  else if value = "audio/mpeg" then ".mp3".toList
  else if value = "audio/mp4" ∨ value = "audio/x-m4a" then ".m4a".toList
  else if value = "audio/aac" then ".aac".toList
  else if value = "audio/wav" ∨ value = "audio/x-wav" then ".wav".toList
  else []

/-- `EXECUTABLE_DOCUMENT_EXTENSIONS`. -/
def executableDocumentExtensions : List String :=
  ["appimage", "bash", "bat", "bin", "cmd", "com", "csh", "desktop", "dll", "elf", "exe", "fish",
    "jar", "js", "jse", "ksh", "msi", "pif", "ps1", "psm1", "py", "run", "scf", "scr", "sh", "so",
    "vbe", "vbs", "wsf", "wsh", "zsh"]

/-- `safe_document_extension`. -/
def safeDocumentExtension (fileName : String) : Option FileName :=
  (pathExtension fileName.toList).bind fun extension =>
    if extension ≠ [] && byteLength extension ≤ 12 && extension.all Char.isAlphanum then
      some (toAsciiLowercase extension) |>.filter
        (fun lower => !executableDocumentExtensions.contains (String.ofList lower))
    else none

/-- The suffix of a document. -/
def documentExtension (fileName : String) : FileName :=
  ((safeDocumentExtension fileName).map ('.' :: ·)).getD []

section Messages

variable (directory : FileName) (chatJid messageId : String)

/-- `message_image_path`. -/
def messageImagePath : FileName := mediaPath directory chatJid messageId ".img".toList

/-- `message_image_thumbnail_path`. -/
def messageImageThumbnailPath : FileName :=
  mediaPath directory chatJid messageId ".thumbnail.jpg".toList

/-- `message_sticker_path`. -/
def messageStickerPath : FileName := mediaPath directory chatJid messageId ".sticker.webp".toList

/-- `message_sticker_thumbnail_path`. -/
def messageStickerThumbnailPath : FileName :=
  mediaPath directory chatJid messageId ".sticker-thumbnail.png".toList

/-- `message_video_path`. -/
def messageVideoPath (mimeType : Option String) : FileName :=
  mediaPath directory chatJid messageId (".video".toList ++ videoExtension mimeType)

/-- `message_video_thumbnail_path`. -/
def messageVideoThumbnailPath : FileName :=
  mediaPath directory chatJid messageId ".video-thumbnail.jpg".toList

/-- `message_audio_path`. -/
def messageAudioPath (mimeType : Option String) : FileName :=
  mediaPath directory chatJid messageId (".audio".toList ++ audioExtension mimeType)

/-- `message_document_path`. -/
def messageDocumentPath (fileName : String) : FileName :=
  mediaPath directory chatJid messageId (".document".toList ++ documentExtension fileName)

/-- `location_thumbnail_path`. -/
def locationThumbnailPath : FileName :=
  mediaPath directory chatJid messageId ".location.jpg".toList

end Messages

/-! ## What the names tell -/

theorem subset_of_mem_splitOn {a : Char} {path part : FileName} (h : part ∈ path.splitOn a) :
    part ⊆ path := by
  induction path generalizing part with
  | nil =>
    rw [List.splitOn_nil, List.mem_singleton] at h
    rw [h]
    exact List.Subset.refl _
  | cons c path ih =>
    rw [List.splitOn_cons_eq_if_modifyHead] at h
    split at h
    · rcases List.mem_cons.mp h with rfl | h
      · exact List.nil_subset _
      · exact fun d hd => List.mem_cons_of_mem _ (ih h hd)
    · cases hsplit : path.splitOn a with
      | nil => exact absurd hsplit (List.splitOn_ne_nil _ _)
      | cons first rest =>
        rw [hsplit] at h ih
        rcases List.mem_cons.mp h with rfl | h
        · exact List.cons_subset_cons _ (ih List.mem_cons_self)
        · exact fun d hd => List.mem_cons_of_mem _ (ih (List.mem_cons_of_mem _ h) hd)

theorem notMem_of_mem_splitOn {a : Char} {path part : FileName} (h : part ∈ path.splitOn a) :
    a ∉ part := by
  induction path generalizing part with
  | nil =>
    rw [List.splitOn_nil, List.mem_singleton] at h
    rw [h]
    exact List.not_mem_nil
  | cons c path ih =>
    rw [List.splitOn_cons_eq_if_modifyHead] at h
    split at h
    · rcases List.mem_cons.mp h with rfl | h
      · exact List.not_mem_nil
      · exact ih h
    · next hc =>
      cases hsplit : path.splitOn a with
      | nil => exact absurd hsplit (List.splitOn_ne_nil _ _)
      | cons first rest =>
        rw [hsplit] at h ih
        rcases List.mem_cons.mp h with rfl | h
        · intro hmem
          rcases List.mem_cons.mp hmem with rfl | hmem
          · exact hc (beq_self_eq_true a)
          · exact ih List.mem_cons_self hmem
        · exact ih (List.mem_cons_of_mem _ h)

/-- A file name is not empty and has no separator. -/
theorem pathFileName_spec {path file : FileName} (h : pathFileName path = some file) :
    file ≠ [] ∧ '/' ∉ file := by
  obtain ⟨hfind, -⟩ := Option.filter_eq_some_iff.mp h
  refine ⟨?_, notMem_of_mem_splitOn (List.mem_reverse.mp (List.mem_of_find?_eq_some hfind))⟩
  rintro rfl
  cases List.find?_some hfind

theorem subset_of_pathFileName {path file : FileName} (h : pathFileName path = some file) :
    file ⊆ path := by
  obtain ⟨hfind, -⟩ := Option.filter_eq_some_iff.mp h
  exact subset_of_mem_splitOn (List.mem_reverse.mp (List.mem_of_find?_eq_some hfind))

theorem splitOn_join (directory : FileName) {name : FileName} (h : '/' ∉ name) :
    ∃ before, (join directory name).splitOn '/' = before ++ [name] := by
  have hname : name.splitOn '/' = [name] := List.splitOn_eq_singleton h
  unfold join
  split
  · next hdirectory =>
    rcases hdirectory with rfl | hlast
    · exact ⟨[], hname⟩
    · obtain ⟨parent, rfl⟩ := List.getLast?_eq_some_iff.mp hlast
      refine ⟨parent.splitOn '/', ?_⟩
      rw [List.append_assoc, List.cons_append, List.nil_append, List.splitOn_append_cons_self,
        hname]
  · exact ⟨directory.splitOn '/', by rw [List.splitOn_append_cons_self, hname]⟩

/-- The file name of an entry's path is the name of the entry. -/
theorem pathFileName_entry (directory : FileName) (entry : EntryName) :
    pathFileName (join directory entry.name) = some entry.name := by
  obtain ⟨before, hsplit⟩ := splitOn_join directory entry.separator
  have hfind := List.find?_cons_of_pos (p := fun part => part ≠ [] && part ≠ ['.'])
    (l := before.reverse) (a := entry.name) (by simp [entry.ne_nil, entry.ne_dot])
  rw [pathFileName, hsplit, List.reverse_append, List.reverse_singleton, List.singleton_append,
    hfind, Option.filter_some, if_pos (decide_eq_true entry.ne_dotdot)]

/-- A path without a dot has no extension. -/
theorem pathExtension_of_notMem {path : FileName} (h : '.' ∉ path) : pathExtension path = none := by
  unfold pathExtension
  cases hfile : pathFileName path with
  | none => rfl
  | some file =>
    have hdot : ∀ c ∈ file.reverse, decide (c ≠ '.') = true := by
      intro c hc
      refine decide_eq_true ?_
      rintro rfl
      exact h (subset_of_pathFileName hfile (List.mem_reverse.mp hc))
    rw [Option.bind_some, rsplitFileAtDot, List.dropWhile_eq_nil_iff.mpr hdot]
    rfl

theorem join_inj {directory name name' : FileName}
    (h : join directory name = join directory name') : name = name' := by
  unfold join at h
  split at h
  · exact List.append_cancel_left h
  · exact (List.cons.inj (List.append_cancel_left h)).2

theorem hexKey_inj {value value' : String} (h : hexKey value = hexKey value') : value = value' :=
  toUTF8_inj (hexText_inj h)

theorem mem_hexKey {value : String} {c : Char} (h : c ∈ hexKey value) : c ∈ lowerHexDigits :=
  mem_hexText h

theorem dash_notMem_hexKey (value : String) : '-' ∉ hexKey value := fun h =>
  absurd (mem_hexKey h) (by decide)

theorem dot_notMem_hexKey (value : String) : '.' ∉ hexKey value := fun h =>
  absurd (mem_hexKey h) (by decide)

/-- The stem of a message and what follows its first dot are read off a name. -/
theorem messageStem_append_inj {chatJid messageId chatJid' messageId' : String} {x y : FileName}
    (h : messageStem chatJid messageId ++ '.' :: x = messageStem chatJid' messageId' ++ '.' :: y) :
    chatJid = chatJid' ∧ messageId = messageId' ∧ x = y := by
  unfold messageStem at h
  rw [List.append_assoc, List.append_assoc] at h
  obtain ⟨hchat, hrest⟩ := append_separator_inj (dash_notMem_hexKey chatJid)
    (dash_notMem_hexKey chatJid') h
  obtain ⟨hmessage, hsuffix⟩ := append_separator_inj (dot_notMem_hexKey messageId)
    (dot_notMem_hexKey messageId') hrest
  exact ⟨hexKey_inj hchat, hexKey_inj hmessage, hsuffix⟩

theorem mediaPath_inj {directory : FileName} {chatJid messageId : String}
    {suffix suffix' : FileName} (h : mediaPath directory chatJid messageId suffix
      = mediaPath directory chatJid messageId suffix') : suffix = suffix' :=
  List.append_cancel_left (join_inj h)

end OmarchyWhatsapp
