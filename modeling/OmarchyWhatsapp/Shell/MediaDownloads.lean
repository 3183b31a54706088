import OmarchyWhatsapp.Shell.Service

/-!
# Downloading media

The shell marks a download as busy when it asks for it. The daemon checks the request, answers
with an ack and leaves the transfer to a job; one job runs for each canonical chat and message.
Every client learns the outcome from a broadcast, which the connection may lose.
-/

namespace OmarchyWhatsapp

/-- `MAX_PENDING_MEDIA_DOWNLOADS`. -/
def maxPendingMediaDownloads : ℕ := 64

inductive MediaDownloadKind where
  | image
  | sticker
  | video
  | audio
deriving DecidableEq, Repr

def MediaDownloadKind.fromLabel (label : String) : Option MediaDownloadKind :=
  match label with
  | "image" => some .image
  | "sticker" => some .sticker
  | "video" => some .video
  | "audio" => some .audio
  | _ => none

/-- What `start_media_download` looks up for a request. -/
structure MediaLookup where
  /-- Whether there is a WhatsApp client. -/
  client : Bool := true
  /-- The answer of `canonical_requested_jid`. -/
  chatJid : String
  /-- The answer of `message_media_kind`. -/
  storedKind : Option String := some "image"
deriving DecidableEq, Repr

/-- A transfer in the background. -/
structure MediaJob where
  chatJid : String
  messageId : String
  /-- It has left `media_downloads`, and its outcome is not published yet. -/
  ended : Bool := false
deriving DecidableEq, Repr

structure MediaSession where
  shell : Service := {}
  generation : ℕ := 0
  revision : ℕ := 0
  /-- The stamped frames on their way to the shell. -/
  wire : List ServerFrame := []
  /-- The requests that the daemon handles. -/
  handling : List ClientFrame := []
  /-- The answers that are not stamped yet. -/
  answers : List (ℕ × ServerEvent) := []
  /-- `media_downloads`. -/
  downloads : List (String × String) := []
  jobs : List MediaJob := []

inductive MediaStep where
  /-- A message is clicked, or a sticker is downloaded by itself. -/
  | download (message : Message)
  /-- The deadline of a request passes in the shell. -/
  | expire (id : ℕ)
  /-- The daemon reads the next request. -/
  | receive
  /-- `download_media` runs. -/
  | start (request : ClientFrame) (found : MediaLookup)
  /-- A request is refused, runs into its deadline, or fails in the database. -/
  | fail (request : ClientFrame) (message : String)
  /-- Another command is done. -/
  | answer (request : ClientFrame) (event : ServerEvent)
  | respond (id : ℕ) (event : ServerEvent)
  /-- Another client asks for a download. -/
  | startOther (messageId : String) (found : MediaLookup)
  /-- A transfer ends, and leaves `media_downloads`. -/
  | finish (job : MediaJob)
  /-- Its outcome is published. -/
  | announce (job : MediaJob) (downloaded : Bool)
  /-- `clear_local_account_data`. -/
  | clearAccount
  /-- Something else is published. -/
  | broadcast (event : ServerEvent)
  | beginGeneration
  | deliver (frame : ServerFrame)
  /-- The connection lags: broadcasts are lost, and the hello is repeated. -/
  | lag (lost : List ServerFrame)
  | disconnect
  | connect
  /-- The daemon starts again. -/
  | restart

/-- The download that an event ends. -/
def ServerEvent.endedDownload : ServerEvent → Option String
  | .mediaDownloaded chatJid messageId => some (mediaDownloadKey chatJid messageId)
  | .mediaDownloadFailed chatJid messageId => some (mediaDownloadKey chatJid messageId)
  | _ => none

namespace MediaSession

/-- A frame is stamped; it is on its way if there is a connection. -/
def stamp (s : MediaSession) (id : Option ℕ) (event : ServerEvent) : MediaSession :=
  { s with
    revision := s.revision + 1
    wire := if s.shell.connected then s.wire ++ [⟨id, s.generation, s.revision + 1, event⟩]
      else s.wire }

/-- `start_media_download` up to the job: the reason it is refused, or the session with its job. -/
def startMediaDownload (s : MediaSession) (messageId : String) (found : MediaLookup) :
    Except String MediaSession :=
  if messageId = "" ∨ 512 < messageId.utf8ByteSize then .error "invalid media message ID"
  else if found.client = false then .error "WhatsApp is not connected"
  else match found.storedKind with
    | none => .error "message does not contain downloadable media"
    | some storedKind => match MediaDownloadKind.fromLabel storedKind with
      | none => .error "this media type does not require a download"
      | some _ =>
        -- the pending job for this message broadcasts the outcome
        if (found.chatJid, messageId) ∈ s.downloads then .ok s
        else if maxPendingMediaDownloads ≤ s.downloads.length then
          .error "too many downloads are already queued"
        else
          .ok { s with
            downloads := (found.chatJid, messageId) :: s.downloads
            jobs := s.jobs ++ [{ chatJid := found.chatJid, messageId }] }

/-- The request is answered. -/
def answered (s : MediaSession) (request : ClientFrame) (event : ServerEvent) : MediaSession :=
  { s with
    handling := s.handling.erase request
    answers := s.answers ++ [(request.id, event)] }

/-- The connection ends, and with it what is on its way. -/
def drop (s : MediaSession) : MediaSession := { s with wire := [], handling := [], answers := [] }

def isDownload (request : ClientFrame) : Bool :=
  match request.command with
  | .downloadMedia .. => true
  | _ => false

def step (s : MediaSession) : MediaStep → MediaSession
  | .download message => { s with shell := s.shell.downloadMedia message }
  | .expire id => { s with shell := s.shell.expireRequest id }
  | .receive => match s.shell.requests with
    | request :: rest =>
      { s with
        shell := { s.shell with requests := rest }
        handling := s.handling ++ [request] }
    | [] => s
  | .start request found => match request.command with
    | .downloadMedia _ messageId =>
      if request ∈ s.handling then
        match s.startMediaDownload messageId found with
        | .ok started => started.answered request .ack
        | .error message => s.answered request (.error message)
      else s
    | _ => s
  | .fail request message =>
    if request ∈ s.handling then s.answered request (.error message) else s
  | .answer request event =>
    if request ∈ s.handling ∧ isDownload request = false ∧ isHello event = false then
      s.answered request event
    else s
  | .respond id event =>
    if (id, event) ∈ s.answers then
      { s with answers := s.answers.erase (id, event) }.stamp (some id) event
    else s
  | .startOther messageId found => match s.startMediaDownload messageId found with
    | .ok started => started
    | .error _ => s
  | .finish job =>
    if job ∈ s.jobs ∧ job.ended = false then
      { s with
        downloads := s.downloads.filter (fun d => d ≠ (job.chatJid, job.messageId))
        jobs := s.jobs.erase job ++ [{ job with ended := true }] }
    else s
  | .announce job downloaded =>
    if job ∈ s.jobs ∧ job.ended = true then
      { s with jobs := s.jobs.erase job }.stamp none
        (if downloaded then .mediaDownloaded job.chatJid job.messageId
          else .mediaDownloadFailed job.chatJid job.messageId)
    else s
  | .clearAccount => { s with downloads := [] }
  | .broadcast event =>
    if isHello event = false ∧ event.endedDownload = none then s.stamp none event else s
  | .beginGeneration => { s with generation := s.generation + 1 }
  | .deliver frame =>
    if frame ∈ s.wire then
      { s with wire := s.wire.erase frame, shell := s.shell.handleLine frame }
    else s
  | .lag lost =>
    { s with wire := s.wire.filter (survives lost) }.stamp none (.hello protocolVersion)
  | .disconnect => { s with shell := s.shell.disconnect }.drop
  | .connect => { s with shell := s.shell.connect }.drop.stamp none (.hello protocolVersion)
  | .restart =>
    { s with
      shell := s.shell.disconnect
      generation := 0
      revision := 0
      downloads := []
      jobs := [] }.drop

end MediaSession

end OmarchyWhatsapp
