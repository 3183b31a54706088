import OmarchyWhatsapp.Media.CachePaths
import OmarchyWhatsapp.Media.JpegDimensions

/-!
# Staged attachments

`stage_local_file` and `stage_bytes` decide whether a file becomes an image or a document, and
`send_image` looks at the staged copy again. A converter turns HEIF bytes into a JPEG where it can.
-/

namespace OmarchyWhatsapp

open Relational

/-! ## Images -/

/-- `MAX_IMAGE_BYTES`. -/
def maxImageBytes : ℕ := 25 * 1024 * 1024

/-- `MAX_DOCUMENT_BYTES`. -/
def maxDocumentBytes : ℕ := 100 * 1024 * 1024

def pngSignature : List UInt8 := [0x89, 0x50, 0x4E, 0x47, 0x0D, 0x0A, 0x1A, 0x0A]

/-- `sniff_image_mime`. -/
def sniffImageMime (bytes : List UInt8) : Option String :=
  if pngSignature.isPrefixOf bytes then some "image/png"
  else if [0xFF, 0xD8, 0xFF].isPrefixOf bytes then some "image/jpeg"
  else none

/-- `validate_pasted_bytes`. -/
def validatePastedBytes (bytes : List UInt8) (mimeType : String) : Except Halt Unit := do
  bailIf (bytes = []) "clipboard image is empty"
  bailIf (¬bytes.length ≤ maxImageBytes) "pasted image exceeds the 25 MB limit"
  bailIf (sniffImageMime bytes ≠ some mimeType)
    ("clipboard image is not a valid " ++ mimeType ++ " file")

/-- `png_dimensions`. -/
def pngDimensions (bytes : List UInt8) : Except Halt (ℕ × ℕ) := do
  bailIf (¬24 ≤ bytes.length) "truncated PNG header"
  bailIf (pngSignature.isPrefixOf bytes = false) "not a PNG file"
  let chunk ← atRange bytes 12 16
  bailIf (chunk ≠ [0x49, 0x48, 0x44, 0x52]) "PNG is missing its IHDR chunk"
  let width ← beNat <$> [16, 17, 18, 19].mapM (atIndex bytes)
  let height ← beNat <$> [20, 21, 22, 23].mapM (atIndex bytes)
  bailIf (¬(0 < width ∧ 0 < height)) "PNG has zero dimensions"
  return (width, height)

/-- `pasted_image_dimensions`. -/
def pastedImageDimensions (bytes : BytesRef) (mimeType : String) : Except Halt (ℕ × ℕ) :=
  if mimeType = "image/png" then pngDimensions bytes.bytes
  else if mimeType = "image/jpeg" then jpegDimensions bytes
  else .error (.error ("unsupported pasted image type: " ++ mimeType))

/-- `b"heic"`, `b"heix"`, `b"heim"`, `b"heis"` and `b"mif1"`. -/
def heifBrands : List (List UInt8) :=
  [[0x68, 0x65, 0x69, 0x63], [0x68, 0x65, 0x69, 0x78], [0x68, 0x65, 0x69, 0x6D],
    [0x68, 0x65, 0x69, 0x73], [0x6D, 0x69, 0x66, 0x31]]

/-- `is_heif`: `b"ftyp"` and a brand of still images. -/
def isHeif (bytes : List UInt8) : Bool :=
  getRange bytes 4 8 = some [0x66, 0x74, 0x79, 0x70] &&
    (getRange bytes 8 12).any heifBrands.contains

/-! ## Staging -/

/-- What a document's type is guessed from. -/
def documentMimeTypes : List (List String × String) :=
  [(["pdf"], "application/pdf"),
    (["txt", "log", "md"], "text/plain"),
    (["csv"], "text/csv"),
    (["json"], "application/json"),
    (["zip"], "application/zip"),
    (["doc"], "application/msword"),
    (["docx"], "application/vnd.openxmlformats-officedocument.wordprocessingml.document"),
    (["xls"], "application/vnd.ms-excel"),
    (["xlsx"], "application/vnd.openxmlformats-officedocument.spreadsheetml.sheet"),
    (["ppt"], "application/vnd.ms-powerpoint"),
    (["pptx"], "application/vnd.openxmlformats-officedocument.presentationml.presentation"),
    (["odt"], "application/vnd.oasis.opendocument.text"),
    (["ods"], "application/vnd.oasis.opendocument.spreadsheet"),
    (["gif"], "image/gif"),
    (["webp"], "image/webp"),
    (["heic"], "image/heic"),
    (["heif"], "image/heif"),
    (["mp3"], "audio/mpeg"),
    (["mp4"], "video/mp4")]

/-- `document_mime`. -/
def documentMime (fileName : FileName) : String :=
  let extension := String.ofList (toAsciiLowercase ((pathExtension fileName).getD []))
  ((documentMimeTypes.find? (·.1.contains extension)).map (·.2)).getD "application/octet-stream"

/-- A staged file, with the bytes of the copy that its path leads to. -/
inductive StagedFile where
  | image (copy : BytesRef) (width height : ℕ) (mimeType : String)
  | document (copy : BytesRef) (fileName : FileName) (mimeType : String) (fileSize : ℕ)

/-- What a path leads to. -/
structure SourceFile where
  isFile : Bool
  /-- Nothing where the file cannot be opened or read. -/
  content : Option (List UInt8)

section Staging

-- what `ffmpeg` leaves where it ends well
variable (ffmpeg : BytesRef → Option BytesRef)

/-- `heif_as_jpeg`. -/
def heifAsJpeg (bytes : BytesRef) : Option BytesRef :=
  if isHeif bytes.bytes then
    (ffmpeg bytes).filter fun jpeg => sniffImageMime jpeg.bytes = some "image/jpeg"
  else none

/-- The bytes that are staged. -/
def stagedCopy (bytes : BytesRef) : BytesRef := (heifAsJpeg ffmpeg bytes).getD bytes

/-- The image that bytes are staged as. -/
def stagedImage? (copy : BytesRef) : Except Halt (Option (String × ℕ × ℕ)) :=
  match sniffImageMime copy.bytes with
  | none => .ok none
  | some mimeType =>
    if (validatePastedBytes copy.bytes mimeType).isOk then
      match pastedImageDimensions copy mimeType with
      | .ok dimensions => .ok (some (mimeType, dimensions))
      | .error (.error _) => .ok none
      | .error .fault => .error .fault
    else .ok none

/-- `stage_bytes`. -/
def stageBytes (bytes : BytesRef) (fileName : FileName) : Except Halt StagedFile := do
  let copy := stagedCopy ffmpeg bytes
  match ← stagedImage? copy with
  | some (mimeType, width, height) => return .image copy width height mimeType
  | none => return .document copy fileName (documentMime fileName) copy.bytes.length

/-- `take(MAX_DOCUMENT_BYTES + 1)` of a file. -/
def takeFile (content : List UInt8) : BytesRef where
  bytes := content.take (maxDocumentBytes + 1)
  bounded := (List.length_take_le _ content).trans_lt (by decide)

/-- What `stage_local_file` reads before it stages anything. -/
def readLocalFile (source : FileName) (file : Option SourceFile) :
    Except Halt (FileName × BytesRef) := do
  bailIf (source.head? ≠ some '/') "file path must be absolute"
  let fileName ← context (pathFileName source) "file name is not valid UTF-8"
  let file ← context file "file is not available"
  bailIf (file.isFile = false) "only regular files can be attached"
  let content ← context file.content "file is not readable"
  let bytes := takeFile content
  bailIf (bytes.bytes = []) "file is empty"
  bailIf (¬bytes.bytes.length ≤ maxDocumentBytes) "file exceeds the 100 MB limit"
  return (fileName, bytes)

/-- `stage_local_file`. -/
def stageLocalFile (source : FileName) (file : Option SourceFile) : Except Halt StagedFile := do
  let (fileName, bytes) ← readLocalFile source file
  stageBytes ffmpeg bytes fileName

end Staging

/-! ## Sending -/

/-- `char::is_control`. -/
def isControl (c : Char) : Bool := c.val < 0x20 || (0x7F ≤ c.val && c.val ≤ 0x9F)

/-- `validate_document_name`. -/
def validateDocumentName (fileName : FileName) : Except Halt Unit :=
  bailIf (¬(fileName ≠ [] ∧ byteLength fileName ≤ 255 ∧ '/' ∉ fileName ∧
    fileName.any isControl = false)) "invalid document file name"

/-- What `send_image` makes of a staged copy: the type and the dimensions that it sends. -/
def sendImageContent (documentName : Option FileName) (bytes : BytesRef) :
    Except Halt (String × ℕ × ℕ) :=
  match documentName with
  | some fileName => do
    validateDocumentName fileName
    bailIf (¬(bytes.bytes ≠ [] ∧ bytes.bytes.length ≤ maxDocumentBytes))
      "staged document has an invalid size"
    return (documentMime fileName, 0, 0)
  | none => do
    let mimeType ← context (sniffImageMime bytes.bytes) "staged image is not a supported image"
    validatePastedBytes bytes.bytes mimeType
    let (width, height) ← pastedImageDimensions bytes mimeType
    return (mimeType, width, height)

/-- What is staged can be sent, as what it is staged. -/
def StagedFile.Sendable : StagedFile → Prop
  | .image copy width height mimeType =>
    sendImageContent none copy = .ok (mimeType, width, height)
  | .document copy fileName mimeType _ =>
    sendImageContent (some fileName) copy = .ok (mimeType, 0, 0)

/-! ## Staged images -/

theorem pngDimensions_ne_fault (bytes : List UInt8) : pngDimensions bytes ≠ .error .fault := by
  have hread (indices : List ℕ) (hlong : ∀ i ∈ indices, i < bytes.length) :
      ∃ value, beNat <$> indices.mapM (atIndex bytes) = .ok value := by
    obtain ⟨part, hpart, -⟩ := exists_mapM (f := atIndex bytes) (l := indices) fun i hi => by
      obtain ⟨b, -, hb⟩ := exists_atIndex (hlong i hi)
      exact ⟨b, hb⟩
    exact ⟨beNat part, by rw [hpart]; rfl⟩
  unfold pngDimensions
  by_cases hlong : 24 ≤ bytes.length
  · obtain ⟨width, hwidth⟩ := hread [16, 17, 18, 19] (by simp; omega)
    obtain ⟨height, hheight⟩ := hread [20, 21, 22, 23] (by simp; omega)
    have hchunk : ∃ chunk, atRange bytes 12 16 = .ok chunk := by
      rw [atRange, getRange, if_pos ⟨by omega, by omega⟩]
      exact ⟨_, rfl⟩
    obtain ⟨chunk, hchunk⟩ := hchunk
    rw [bailIf_false (not_not.mpr hlong), ok_bind, hchunk, ok_bind, hwidth, ok_bind, hheight,
      ok_bind]
    refine bind_ne_fault (bailIf_ne_fault _ _) fun _ => ?_
    refine bind_ne_fault (bailIf_ne_fault _ _) fun _ => ?_
    exact bind_ne_fault (bailIf_ne_fault _ _) fun _ h => (by cases h)
  · rw [bailIf_true hlong]
    intro h
    cases h

theorem pastedImageDimensions_ne_fault (bytes : BytesRef) (mimeType : String) :
    pastedImageDimensions bytes mimeType ≠ .error .fault := by
  unfold pastedImageDimensions
  split_ifs
  · exact pngDimensions_ne_fault bytes.bytes
  · exact jpegDimensions_ne_fault bytes
  · intro h
    cases h

/-- The type is known, the size is allowed and the dimensions can be read. -/
def ReadsAsImage (copy : BytesRef) (mimeType : String) (dimensions : ℕ × ℕ) : Prop :=
  sniffImageMime copy.bytes = some mimeType ∧ validatePastedBytes copy.bytes mimeType = .ok () ∧
    pastedImageDimensions copy mimeType = .ok dimensions

/-- Bytes are staged as the image that they read as, if any. -/
theorem stagedImage?_cases (copy : BytesRef) :
    (∃ mimeType dimensions, ReadsAsImage copy mimeType dimensions ∧
      stagedImage? copy = .ok (some (mimeType, dimensions))) ∨
    (¬∃ mimeType dimensions, ReadsAsImage copy mimeType dimensions) ∧
      stagedImage? copy = .ok none := by
  cases hsniff : sniffImageMime copy.bytes with
  | none =>
    refine Or.inr ⟨?_, by rw [stagedImage?, hsniff]⟩
    rintro ⟨mimeType, dimensions, h, -⟩
    rw [hsniff] at h
    cases h
  | some mimeType =>
    have hreads {mimeType' : String} {dimensions : ℕ × ℕ}
        (h : ReadsAsImage copy mimeType' dimensions) :
        validatePastedBytes copy.bytes mimeType = .ok () ∧
          pastedImageDimensions copy mimeType = .ok dimensions := by
      rw [← Option.some.inj (hsniff.symm.trans h.1)] at h
      exact h.2
    unfold stagedImage?
    rw [hsniff]
    dsimp only
    cases hvalid : validatePastedBytes copy.bytes mimeType with
    | error e =>
      refine Or.inr ⟨?_, rfl⟩
      rintro ⟨mimeType', dimensions, h⟩
      rw [hvalid] at hreads
      cases (hreads h).1
    | ok _ =>
      cases hdimensions : pastedImageDimensions copy mimeType with
      | ok dimensions =>
        exact Or.inl ⟨mimeType, dimensions, ⟨hsniff, hvalid, hdimensions⟩, rfl⟩
      | error e =>
        cases e with
        | fault => exact absurd hdimensions (pastedImageDimensions_ne_fault copy mimeType)
        | error message =>
          refine Or.inr ⟨?_, rfl⟩
          rintro ⟨mimeType', dimensions, h⟩
          cases hdimensions.symm.trans (hreads h).2

/-! ## What can be sent -/

/-- The checks on a document. -/
structure FitsDocument (fileName : FileName) (copy : BytesRef) : Prop where
  named : fileName ≠ []
  short : byteLength fileName ≤ 255
  oneComponent : '/' ∉ fileName
  printable : fileName.any isControl = false
  nonempty : copy.bytes ≠ []
  small : copy.bytes.length ≤ maxDocumentBytes

theorem sendable_image {copy : BytesRef} {width height : ℕ} {mimeType : String}
    (h : ReadsAsImage copy mimeType (width, height)) :
    (StagedFile.image copy width height mimeType).Sendable := by
  obtain ⟨hsniff, hvalid, hdimensions⟩ := h
  show sendImageContent none copy = _
  rw [sendImageContent, hsniff, context_some, ok_bind, hvalid, ok_bind, hdimensions]
  rfl

theorem sendable_document_iff {copy : BytesRef} {fileName : FileName} {fileSize : ℕ} :
    (StagedFile.document copy fileName (documentMime fileName) fileSize).Sendable ↔
      FitsDocument fileName copy := by
  show sendImageContent (some fileName) copy = _ ↔ _
  rw [sendImageContent]
  constructor
  · intro h
    obtain ⟨_, hname, h⟩ := bind_eq_ok.mp h
    obtain ⟨_, hsize, -⟩ := bind_eq_ok.mp h
    obtain ⟨hnamed, hshort, hone, hprintable⟩ := bailIf_eq_ok.mp hname
    obtain ⟨hnonempty, hsmall⟩ := bailIf_eq_ok.mp hsize
    exact ⟨hnamed, hshort, hone, hprintable, hnonempty, hsmall⟩
  · intro h
    have hname : validateDocumentName fileName = .ok () :=
      bailIf_eq_ok.mpr ⟨h.named, h.short, h.oneComponent, h.printable⟩
    rw [hname, ok_bind, bailIf_false (not_not.mpr ⟨h.nonempty, h.small⟩), ok_bind]
    rfl

section Agreement

variable (ffmpeg : BytesRef → Option BytesRef)

/-- Staged bytes can be sent if they read as an image, or fit a document. -/
theorem stageBytes_sendable_iff (bytes : BytesRef) (fileName : FileName) :
    (∀ staged, stageBytes ffmpeg bytes fileName = .ok staged → staged.Sendable) ↔
      (∃ mimeType dimensions, ReadsAsImage (stagedCopy ffmpeg bytes) mimeType dimensions) ∨
        FitsDocument fileName (stagedCopy ffmpeg bytes) := by
  rcases stagedImage?_cases (stagedCopy ffmpeg bytes) with
    ⟨mimeType, ⟨width, height⟩, hreads, hstaged⟩ | ⟨hnone, hstaged⟩
  · have hbytes : stageBytes ffmpeg bytes fileName
        = .ok (.image (stagedCopy ffmpeg bytes) width height mimeType) := by
      rw [stageBytes, hstaged]
      rfl
    refine iff_of_true (fun staged h => ?_) (Or.inl ⟨mimeType, _, hreads⟩)
    rw [← Except.ok.inj (hbytes.symm.trans h)]
    exact sendable_image hreads
  · have hbytes : stageBytes ffmpeg bytes fileName
        = .ok (.document (stagedCopy ffmpeg bytes) fileName (documentMime fileName)
          (stagedCopy ffmpeg bytes).bytes.length) := by
      rw [stageBytes, hstaged]
      rfl
    rw [or_iff_right hnone, ← sendable_document_iff]
    constructor
    · exact fun h => h _ hbytes
    · intro hsendable staged h
      rw [← Except.ok.inj (hbytes.symm.trans h)]
      exact hsendable

/-! ## Local files -/

variable {ffmpeg} in
/-- A converted image is never empty. -/
theorem stagedCopy_ne_nil {bytes : BytesRef} (h : bytes.bytes ≠ []) :
    (stagedCopy ffmpeg bytes).bytes ≠ [] := by
  unfold stagedCopy
  cases hjpeg : heifAsJpeg ffmpeg bytes with
  | none => exact h
  | some jpeg =>
    unfold heifAsJpeg at hjpeg
    split at hjpeg
    · have hsniff := (Option.filter_eq_some_iff.mp hjpeg).2
      intro hempty
      rw [Option.getD_some] at hempty
      rw [hempty] at hsniff
      cases hsniff
    · cases hjpeg

theorem readLocalFile_spec {source fileName : FileName} {file : Option SourceFile}
    {bytes : BytesRef} (h : readLocalFile source file = .ok (fileName, bytes)) :
    pathFileName source = some fileName ∧ bytes.bytes ≠ [] ∧
      bytes.bytes.length ≤ maxDocumentBytes := by
  obtain ⟨_, -, h⟩ := bind_eq_ok.mp h
  obtain ⟨name, hname, h⟩ := bind_eq_ok.mp h
  obtain ⟨found, -, h⟩ := bind_eq_ok.mp h
  obtain ⟨_, -, h⟩ := bind_eq_ok.mp h
  obtain ⟨content, -, h⟩ := bind_eq_ok.mp h
  obtain ⟨_, hempty, h⟩ := bind_eq_ok.mp h
  obtain ⟨_, hsmall, h⟩ := bind_eq_ok.mp h
  obtain ⟨rfl, rfl⟩ := Prod.mk.inj (pure_eq_ok.mp h)
  refine ⟨context_eq_ok.mp hname, fun hnil => ?_, bailIf_eq_ok.mp hsmall⟩
  rw [bailIf_true hnil] at hempty
  cases hempty

/-- Of a file that is read, the name can be too long or have control characters in it, and what it
is converted to can be too large. -/
theorem fitsDocument_readLocalFile_iff {source fileName : FileName} {file : Option SourceFile}
    {bytes : BytesRef} (h : readLocalFile source file = .ok (fileName, bytes)) :
    FitsDocument fileName (stagedCopy ffmpeg bytes) ↔
      byteLength fileName ≤ 255 ∧ fileName.any isControl = false ∧
        ∀ jpeg ∈ heifAsJpeg ffmpeg bytes, jpeg.bytes.length ≤ maxDocumentBytes := by
  obtain ⟨hname, hnonempty, hsmall⟩ := readLocalFile_spec h
  obtain ⟨hnamed, hone⟩ := pathFileName_spec hname
  have hsize : (stagedCopy ffmpeg bytes).bytes.length ≤ maxDocumentBytes ↔
      ∀ jpeg ∈ heifAsJpeg ffmpeg bytes, jpeg.bytes.length ≤ maxDocumentBytes := by
    unfold stagedCopy
    cases heifAsJpeg ffmpeg bytes with
    | none => exact iff_of_true hsmall fun _ hjpeg => (by cases hjpeg)
    | some jpeg =>
      constructor
      · rintro hle _ ⟨⟩
        exact hle
      · exact fun hle => hle jpeg rfl
  rw [← hsize]
  constructor
  · exact fun hfits => ⟨hfits.short, hfits.printable, hfits.small⟩
  · rintro ⟨hshort, hprintable, hle⟩
    exact ⟨hnamed, hshort, hone, hprintable, stagedCopy_ne_nil hnonempty, hle⟩

/-- What a local file is staged as can be sent exactly if it reads as an image, or its name has at
most 255 bytes and no control characters and a converted copy is not too large. -/
theorem stageLocalFile_sendable_iff (source : FileName) (file : Option SourceFile) :
    (∀ staged, stageLocalFile ffmpeg source file = .ok staged → staged.Sendable) ↔
      ∀ fileName bytes, readLocalFile source file = .ok (fileName, bytes) →
        (∃ mimeType dimensions, ReadsAsImage (stagedCopy ffmpeg bytes) mimeType dimensions) ∨
          (byteLength fileName ≤ 255 ∧ fileName.any isControl = false ∧
            ∀ jpeg ∈ heifAsJpeg ffmpeg bytes, jpeg.bytes.length ≤ maxDocumentBytes) := by
  constructor
  · intro h fileName bytes hread
    rw [← fitsDocument_readLocalFile_iff ffmpeg hread, ← stageBytes_sendable_iff]
    intro staged hstaged
    refine h staged ?_
    rw [stageLocalFile, hread]
    exact hstaged
  · intro h staged hstaged
    obtain ⟨⟨fileName, bytes⟩, hread, hbytes⟩ := bind_eq_ok.mp hstaged
    have hcondition := h fileName bytes hread
    rw [← fitsDocument_readLocalFile_iff ffmpeg hread, ← stageBytes_sendable_iff] at hcondition
    exact hcondition staged hbytes

/-- When staging and sending agree, for local files and for the bytes of any other source. -/
theorem staging_agrees_iff :
    (∀ source file, (∀ staged, stageLocalFile ffmpeg source file = .ok staged →
      staged.Sendable) ↔
      ∀ fileName bytes, readLocalFile source file = .ok (fileName, bytes) →
        (∃ mimeType dimensions, ReadsAsImage (stagedCopy ffmpeg bytes) mimeType dimensions) ∨
          (byteLength fileName ≤ 255 ∧ fileName.any isControl = false ∧
            ∀ jpeg ∈ heifAsJpeg ffmpeg bytes, jpeg.bytes.length ≤ maxDocumentBytes)) ∧
    ∀ bytes fileName, (∀ staged, stageBytes ffmpeg bytes fileName = .ok staged →
      staged.Sendable) ↔
      (∃ mimeType dimensions, ReadsAsImage (stagedCopy ffmpeg bytes) mimeType dimensions) ∨
        FitsDocument fileName (stagedCopy ffmpeg bytes) :=
  ⟨stageLocalFile_sendable_iff ffmpeg, stageBytes_sendable_iff ffmpeg⟩

end Agreement

/-- A text file with a line break in its name is staged as a document that cannot be sent. -/
theorem not_sendable_lineBreak : ∃ staged,
    stageLocalFile (fun _ => none) "/home/user/a\nb.txt".toList (some ⟨true, some [0x78]⟩)
      = .ok staged ∧ ¬staged.Sendable := by
  refine ⟨.document (takeFile [0x78]) "a\nb.txt".toList "text/plain" 1, ?_, ?_⟩
  · rfl
  · intro h
    cases h

end OmarchyWhatsapp
