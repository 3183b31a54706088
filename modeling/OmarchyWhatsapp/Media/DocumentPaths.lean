import OmarchyWhatsapp.Media.CachePaths
import OmarchyWhatsapp.Text.Trim

/-!
# Where a document is cached

A message shows the path that `message_media` builds. `receive_message` and `ingest_history`
download the document to a path of their own making.
-/

namespace OmarchyWhatsapp

structure DocumentMessage where
  fileName : Option String
  title : Option String
  mimetype : Option String
  fileLength : Option ℕ
  pageCount : Option ℕ

namespace DocumentMessage

variable (directory : FileName) (chatJid messageId : String) (d : DocumentMessage)

/-- The file name that the message shows. -/
def shownName : String :=
  ((d.fileName.bind nonempty).or (d.title.bind nonempty)).getD "Document"

/-- `message_media` of a document. -/
def media : MessageMedia :=
  .document (String.ofList (messageDocumentPath directory chatJid messageId d.shownName))
    d.shownName (d.mimetype.getD "application/octet-stream") (d.fileLength.getD 0) (d.pageCount.getD 0)

/-- The path that a message hands to `download_message_document`. -/
def downloadPath : FileName := messageDocumentPath directory chatJid messageId (d.fileName.getD "")

/-- The path in `receive_message`. -/
def receivePath : FileName := downloadPath directory chatJid messageId d

/-- The path in `ingest_history`. -/
def historyPath : FileName := downloadPath directory chatJid messageId d

end DocumentMessage

/-- The path of a cached document. -/
def MessageMedia.documentPath : MessageMedia → Option String
  | .document path _ _ _ _ => some path
  | _ => none

/-- The document is downloaded to the path that its message shows, live and from history. -/
def DocumentMessage.DownloadsToShownPath (d : DocumentMessage) (directory : FileName)
    (chatJid messageId : String) : Prop :=
  (d.media directory chatJid messageId).documentPath
      = some (String.ofList (d.receivePath directory chatJid messageId)) ∧
    (d.media directory chatJid messageId).documentPath
      = some (String.ofList (d.historyPath directory chatJid messageId))

/-- A file name that is not blank has the same extension with and without the white space around
it, and a title that stands in for one has no extension. -/
def DocumentMessage.KeepsExtension (d : DocumentMessage) : Prop :=
  match d.fileName.bind nonempty with
  | some trimmed => safeDocumentExtension (d.fileName.getD "") = safeDocumentExtension trimmed
  | none => ∀ title ∈ d.title.bind nonempty, safeDocumentExtension title = none

/-! ## The extension of a name -/

theorem safeDocumentExtension_of_notMem {fileName : String} (h : '.' ∉ fileName.toList) :
    safeDocumentExtension fileName = none := by
  rw [safeDocumentExtension, pathExtension_of_notMem h]
  rfl

/-- A blank file name has no extension. -/
theorem safeDocumentExtension_of_blank {fileName : String} (h : nonempty fileName = none) :
    safeDocumentExtension fileName = none := by
  refine safeDocumentExtension_of_notMem fun hdot => ?_
  have hkept := mem_trim hdot (by decide)
  unfold nonempty at h
  split at h
  · rename_i htrim
    rw [htrim] at hkept
    exact List.not_mem_nil hkept
  · cases h

theorem documentExtension_inj {fileName fileName' : String}
    (h : documentExtension fileName = documentExtension fileName') :
    safeDocumentExtension fileName = safeDocumentExtension fileName' := by
  unfold documentExtension at h
  cases hx : safeDocumentExtension fileName with
  | none =>
    cases hy : safeDocumentExtension fileName' with
    | none => rfl
    | some y => rw [hx, hy] at h; cases h
  | some x =>
    cases hy : safeDocumentExtension fileName' with
    | none => rw [hx, hy] at h; cases h
    | some y =>
      rw [hx, hy] at h
      exact congrArg some (List.cons.inj h).2

/-- Two names of a document lead to one path exactly if they have one extension. -/
theorem messageDocumentPath_eq_iff {directory : FileName} {chatJid messageId : String}
    {fileName fileName' : String} :
    messageDocumentPath directory chatJid messageId fileName
      = messageDocumentPath directory chatJid messageId fileName' ↔
    safeDocumentExtension fileName = safeDocumentExtension fileName' := by
  constructor
  · exact fun h => documentExtension_inj (List.append_cancel_left (mediaPath_inj h))
  · intro h
    unfold messageDocumentPath documentExtension
    rw [h]

namespace DocumentMessage

variable {d : DocumentMessage}

/-- The name that is shown and the one that is downloaded have one extension. -/
theorem safeDocumentExtension_shownName_iff :
    safeDocumentExtension d.shownName = safeDocumentExtension (d.fileName.getD "") ↔
      d.KeepsExtension := by
  unfold shownName KeepsExtension
  cases hname : d.fileName.bind nonempty with
  | some trimmed => exact eq_comm
  | none =>
    have hblank : safeDocumentExtension (d.fileName.getD "") = none := by
      cases hfile : d.fileName with
      | none => exact safeDocumentExtension_of_notMem List.not_mem_nil
      | some fileName =>
        rw [hfile] at hname
        exact safeDocumentExtension_of_blank hname
    rw [hblank]
    cases d.title.bind nonempty with
    | none =>
      refine iff_of_true ?_ (fun _ h => by cases h)
      exact safeDocumentExtension_of_notMem (by decide +kernel)
    | some title =>
      constructor
      · rintro h _ ⟨⟩
        exact h
      · exact fun h => h title rfl

/-- A document is downloaded to the path that its message shows exactly if trimming its file name
keeps the extension, or the title that stands in for a missing one has none. -/
theorem downloadsToShownPath_iff (directory : FileName) (chatJid messageId : String) :
    d.DownloadsToShownPath directory chatJid messageId ↔ d.KeepsExtension := by
  have hpath := @messageDocumentPath_eq_iff directory chatJid messageId d.shownName
    (d.fileName.getD "")
  rw [← safeDocumentExtension_shownName_iff, ← hpath]
  have hofList : ∀ path path' : FileName,
      some (String.ofList path) = some (String.ofList path') ↔ path = path' := fun _ _ =>
    ⟨fun h => String.ofList_injective (Option.some.inj h), fun h => h ▸ rfl⟩
  exact (and_congr (hofList _ _) (hofList _ _)).trans and_self_iff

/-- A document that has a title and no file name. -/
def titled : DocumentMessage where
  fileName := none
  title := some "invoice.pdf"
  mimetype := some "application/pdf"
  fileLength := some 42
  pageCount := some 1

theorem not_downloadsToShownPath_titled :
    ¬ ∀ (d : DocumentMessage) (directory : FileName) (chatJid messageId : String),
      d.DownloadsToShownPath directory chatJid messageId := by
  intro h
  have hpath := (h titled "media".toList "1@s.whatsapp.net" "D1").1
  have hname := messageDocumentPath_eq_iff.mp (String.ofList_injective (Option.some.inj hpath))
  exact absurd hname (by decide +kernel)

end DocumentMessage

end OmarchyWhatsapp
