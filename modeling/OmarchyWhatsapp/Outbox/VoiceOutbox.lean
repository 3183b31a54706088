import Mathlib.Algebra.Ring.Nat
import OmarchyWhatsapp.Relational.Order
import OmarchyWhatsapp.Relational.Table

/-!
# The voice outbox

A recording is a file that the shell writes. `send_voice_message` puts a job file next to it
before the upload and settles the job at its end. The writes run on the blocking pool: a command
that is dropped at an await is gone, and a write that it had started still happens.
-/

namespace OmarchyWhatsapp

open Relational

/-! ## Files -/

def jobVersion : ℕ := 1

def minDurationMs : ℕ := 250

def maxDurationMs : ℕ := 15 * 60 * 1000

def orphanTtlSeconds : ℤ := 24 * 60 * 60

def jobTtlSeconds : ℤ := 7 * 24 * 60 * 60

def activeSendGraceSeconds : ℤ := 15 * 60

def maxJobs : ℕ := 8

def maxOutboxBytes : ℕ := 64 * 1024 * 1024

def maxErrorChars : ℕ := 512

inductive StoredStatus where
  | sending
  | failed
  | sent
deriving DecidableEq, Repr

structure VoiceJob where
  version : ℕ := jobVersion
  recordingId : String
  chatJid : String
  durationMs : ℕ
  messageId : Option String := none
  status : StoredStatus := .sending
  error : Option String := none
  attempts : ℕ := 0
  createdAt : ℤ
  updatedAt : ℤ
deriving DecidableEq, Repr

def recordingIdIsValid (recordingId : String) : Bool :=
  decide (1 ≤ recordingId.utf8ByteSize) && decide (recordingId.utf8ByteSize ≤ 80) &&
    decide (recordingId.toList.head? ≠ some '-') &&
    decide (recordingId.toList.getLast? ≠ some '-') &&
    recordingId.toList.all (fun c => c.isAlphanum || c = '-')

/-- `validate_job`, for a job under the name of its recording. -/
def VoiceJob.valid (job : VoiceJob) : Bool :=
  decide (job.version = jobVersion) && recordingIdIsValid job.recordingId &&
    decide (job.chatJid ≠ "") && decide (minDurationMs ≤ job.durationMs) &&
    decide (job.durationMs ≤ maxDurationMs) && decide (job.messageId ≠ some "")

/-- A job as it stands in its file. -/
abbrev StoredJob := { job : VoiceJob // job.valid = true }

/-- A recording, with what `checked_recording_bytes` makes of it: its duration, or why it is
refused. -/
structure VoiceRecording where
  recordingId : String
  bytes : ℕ
  modified : ℤ
  checked : Except String ℕ

structure VoiceOutbox where
  audio : Table VoiceRecording VoiceRecording.recordingId := ∅
  jobs : Table StoredJob (fun job => job.val.recordingId) := ∅

namespace VoiceOutbox

/-- `remove_job_files`. -/
def removeJobFiles (dir : VoiceOutbox) (recordingId : String) : VoiceOutbox where
  audio := dir.audio.deleteWhere (fun a => a.recordingId = recordingId)
  jobs := dir.jobs.deleteWhere (fun job => job.val.recordingId = recordingId)

/-- `save_job`; `writes` says whether the file can be written. -/
def saveJob (writes : Bool) (dir : VoiceOutbox) (job : VoiceJob) :
    Except String (VoiceOutbox × StoredJob) :=
  if h : job.valid = true then
    if writes then
      .ok ({ dir with jobs := (dir.jobs.deleteWhere
        (fun x => x.val.recordingId = job.recordingId)).insertOrIgnore ⟨job, h⟩ }, ⟨job, h⟩)
    else .error "writing voice outbox metadata"
  else .error "voice outbox metadata is invalid"

/-! ## Retention -/

/-- `is_actively_sending`. -/
def isActivelySending (job : VoiceJob) (now : ℤ) : Bool :=
  decide (job.status = .sending) && decide (now - job.updatedAt ≤ activeSendGraceSeconds)

structure RetainedJob where
  createdAt : ℤ
  recordingId : String
  audioBytes : ℕ
  activelySending : Bool
deriving DecidableEq, Repr

/-- The jobs that are evicted, oldest first, until the caps are met. -/
def evictedJobs (preserve : Option String) : List RetainedJob → ℕ → ℕ → List String
  | [], _, _ => []
  | job :: rest, count, totalBytes =>
    if maxJobs < count ∨ maxOutboxBytes < totalBytes then
      if preserve ≠ some job.recordingId ∧ job.activelySending = false then
        job.recordingId :: evictedJobs preserve rest (count - 1) (totalBytes - job.audioBytes)
      else evictedJobs preserve rest count totalBytes
    else []

variable (plan : QueryPlan)

/-- `cleanup_inner`. -/
def cleanup (dir : VoiceOutbox) (now : ℤ) (preserve : Option String) : VoiceOutbox :=
  let scanned : VoiceOutbox :=
    { audio := dir.audio.deleteWhere (fun a => decide (dir.jobs.find? a.recordingId = none) &&
        decide (orphanTtlSeconds < now - a.modified))
      jobs := dir.jobs.deleteWhere (fun job => (dir.audio.find? job.val.recordingId).isNone) }
  let expired := fun job : StoredJob => decide (preserve ≠ some job.val.recordingId) &&
    decide (jobTtlSeconds < now - job.val.updatedAt)
  let jobs := plan.scan scanned.jobs.rows
  let retained := plan.orderBy (fun a b => decide (a.createdAt ≤ b.createdAt))
    ((jobs.filter (fun job => !expired job)).map (fun job =>
      { createdAt := job.val.createdAt, recordingId := job.val.recordingId
        audioBytes := ((dir.audio.find? job.val.recordingId).map (·.bytes)).getD 0
        activelySending := isActivelySending job.val now }))
  let dropped := (jobs.filter expired).map (·.val.recordingId) ++
    evictedJobs preserve retained retained.length (retained.map (·.audioBytes)).sum
  dropped.foldl removeJobFiles scanned

/-! ## Jobs -/

/-- `prepare`. -/
def prepare (writes : Bool) (dir : VoiceOutbox) (recordingId chatJid : String) (now : ℤ) :
    VoiceOutbox × Except String StoredJob :=
  if chatJid = "" then (dir, .error "voice message chat is empty")
  else
    let cleaned := cleanup plan dir now (some recordingId)
    if recordingIdIsValid recordingId = false then
      (cleaned, .error "voice recording ID is invalid")
    else match cleaned.audio.find? recordingId with
    | none => (cleaned, .error "resolving the voice recording")
    | some audio => match audio.checked with
      | .error message => (cleaned, .error message)
      | .ok durationMs =>
        let job := ((cleaned.jobs.find? recordingId).map Subtype.val).getD
          { recordingId, chatJid, durationMs, createdAt := now, updatedAt := now }
        if job.durationMs ≠ durationMs then
          (cleaned, .error "voice recording changed after it entered the outbox")
        else match saveJob writes cleaned { job with
            status := .sending, error := none, attempts := job.attempts + 1, updatedAt := now } with
          | .ok (saved, job) => (saved, .ok job)
          | .error message => (cleaned, .error message)

/-- `assign_delivery`. -/
def assignDelivery (writes : Bool) (dir : VoiceOutbox) (job : VoiceJob)
    (chatJid messageId : String) (now : ℤ) : Except String (VoiceOutbox × StoredJob) :=
  if chatJid = "" ∨ messageId = "" then
    .error "voice message delivery identity is incomplete"
  else if (job.messageId.getD messageId) ≠ messageId then
    .error "voice message already has a different delivery ID"
  else saveJob writes dir { job with chatJid, messageId := some messageId, updatedAt := now }

/-- `mark_failed`. -/
def markFailed (writes : Bool) (dir : VoiceOutbox) (job : VoiceJob) (error : String) (now : ℤ) :
    Except String (VoiceOutbox × StoredJob) :=
  saveJob writes dir { job with
    status := .failed, error := some (String.ofList (error.toList.take maxErrorChars))
    updatedAt := now }

/-- `finish_sent`. -/
def finishSent (writes : Bool) (dir : VoiceOutbox) (job : VoiceJob) (now : ℤ) :
    Except String (VoiceOutbox × StoredJob) :=
  (saveJob writes dir { job with status := .sent, error := none, updatedAt := now }).map
    (fun (saved, job) => (saved.removeJobFiles job.val.recordingId, job))

/-- The jobs that `recover_interrupted` goes through; it stops at a job it cannot write. -/
def recoverJobs (writes : Bool) (now : ℤ) : List StoredJob → VoiceOutbox → VoiceOutbox
  | [], dir => dir
  | job :: rest, dir =>
    match job.val.status with
    | .sent => recoverJobs writes now rest (dir.removeJobFiles job.val.recordingId)
    | .failed => recoverJobs writes now rest dir
    | .sending => match saveJob writes dir { job.val with
        status := .failed, error := some "Send was interrupted; retry is safe"
        updatedAt := now } with
      | .ok (saved, _) => recoverJobs writes now rest saved
      | .error _ => dir

/-- `recover_interrupted`. -/
def recoverInterrupted (writes : Bool) (dir : VoiceOutbox) (now : ℤ) : VoiceOutbox :=
  let cleaned := cleanup plan dir now none
  recoverJobs writes now (plan.scan cleaned.jobs.rows) cleaned

end VoiceOutbox

/-! ## Commands -/

/-- A write on the blocking pool. -/
inductive VoiceWrite where
  | prepare (recordingId chatJid : String)
  | assignDelivery (job : StoredJob) (chatJid messageId : String)
  | markFailed (job : StoredJob) (error : String)
  | finishSent (job : StoredJob)
deriving DecidableEq, Repr

/-- Where `send_voice_message` stands. -/
inductive VoicePhase where
  /-- It waits for a permit and for the gates. -/
  | waiting
  /-- It awaits a write. -/
  | writing (write : VoiceWrite)
  /-- The job is written: it looks up the chat, or uploads and sends the recording. -/
  | prepared (job : StoredJob)
  | assigned (job : StoredJob)
deriving DecidableEq, Repr

/-- The write that the command awaits. -/
def VoicePhase.write : VoicePhase → Option VoiceWrite
  | .writing write => some write
  | _ => none

structure VoiceSend where
  id : ℕ
  connection : ℕ
  recordingId : String
  chatJid : String
  phase : VoicePhase := .waiting
deriving DecidableEq, Repr

structure VoiceDaemon where
  outbox : VoiceOutbox := {}
  sends : Table VoiceSend VoiceSend.id := ∅
  /-- The writes whose command was dropped. -/
  orphans : List VoiceWrite := []

inductive VoiceStep where
  /-- The shell stores a recording. -/
  | record (recording : VoiceRecording)
  | request (id connection : ℕ) (recordingId chatJid : String)
  /-- The chat JID of a request does not parse. -/
  | reject (id : ℕ)
  /-- The gates are free and the preparation starts. -/
  | start (id : ℕ)
  /-- The write that the command awaits is done. -/
  | written (id : ℕ) (writes : Bool) (now : ℤ)
  /-- The chat is looked up and the job gets its delivery identity. -/
  | assign (id : ℕ) (chatJid messageId : String)
  /-- The recording is sent, or was sent before. -/
  | succeed (id : ℕ)
  /-- An error on the way, as a lost connection or a refused upload. -/
  | fail (id : ℕ) (error : String)
  /-- The deadline of the command passes. -/
  | timeOut (id : ℕ)
  /-- The client disconnects and its commands are aborted. -/
  | disconnect (connection : ℕ)
  /-- A write whose command was dropped is done. -/
  | orphanWritten (write : VoiceWrite) (writes : Bool) (now : ℤ)
  | discard (recordingId : String)
  /-- The daemon starts again and recovers the outbox. -/
  | restart (writes : Bool) (now : ℤ)

namespace VoiceDaemon

/-- Where a command goes on after a write. -/
def settled : VoiceWrite → Except String StoredJob → Option VoicePhase
  | .prepare _ _, .ok job => some (.prepared job)
  | .prepare _ _, .error _ => none
  | .assignDelivery _ _ _, .ok job => some (.assigned job)
  | .assignDelivery job _ _, .error error => some (.writing (.markFailed job error))
  | .markFailed _ _, _ => none
  | .finishSent _, _ => none

variable (plan : QueryPlan)

/-- A write, with what it leaves and what the command learns of it. -/
def performed (writes : Bool) (now : ℤ) (dir : VoiceOutbox) :
    VoiceWrite → VoiceOutbox × Except String StoredJob
  | .prepare recordingId chatJid => dir.prepare plan writes recordingId chatJid now
  | .assignDelivery job chatJid messageId =>
    written dir (dir.assignDelivery writes job chatJid messageId now)
  | .markFailed job error => written dir (dir.markFailed writes job error now)
  | .finishSent job => written dir (dir.finishSent writes job now)
where
  written (dir : VoiceOutbox) :
      Except String (VoiceOutbox × StoredJob) → VoiceOutbox × Except String StoredJob
    | .ok (saved, job) => (saved, .ok job)
    | .error message => (dir, .error message)

/-- The command goes on in another phase, or is finished. -/
def moveTo (s : VoiceDaemon) (id : ℕ) : Option VoicePhase → VoiceDaemon
  | some phase =>
    { s with sends := s.sends.updateWhere (fun x => x.id = id) (fun x => { x with phase }) }
  | none => { s with sends := s.sends.deleteWhere (fun x => x.id = id) }

/-- The command vanishes at its await; the write it had started is left behind. -/
def drop (s : VoiceDaemon) (p : VoiceSend → Bool) : VoiceDaemon :=
  { s with
    sends := s.sends.deleteWhere p
    orphans := s.orphans ++ (s.sends.rows.filter p).filterMap (fun x => x.phase.write) }

/-- The gate of the recording and the gate of the outbox are free. -/
def gatesFree (s : VoiceDaemon) (recordingId : String) : Bool :=
  s.sends.rows.all (fun x => match x.phase with
    | .waiting => true
    | .writing (.prepare _ _) => false
    | _ => x.recordingId ≠ recordingId)

def step (s : VoiceDaemon) : VoiceStep → VoiceDaemon
  | .record recording => { s with outbox := { s.outbox with
      audio := (s.outbox.audio.deleteWhere
        (fun a => a.recordingId = recording.recordingId)).insertOrIgnore recording } }
  | .request id connection recordingId chatJid =>
    { s with sends := s.sends.insertOrIgnore { id, connection, recordingId, chatJid } }
  | .reject id => match s.sends.find? id with
    | some ⟨_, _, _, _, .waiting⟩ => s.moveTo id none
    | _ => s
  | .start id => match s.sends.find? id with
    | some ⟨_, _, recordingId, chatJid, .waiting⟩ =>
      if s.gatesFree recordingId then s.moveTo id (some (.writing (.prepare recordingId chatJid)))
      else s
    | _ => s
  | .written id writes now => match s.sends.find? id with
    | some ⟨_, _, _, _, .writing write⟩ =>
      let (outbox, result) := performed plan writes now s.outbox write
      { s with outbox }.moveTo id (settled write result)
    | _ => s
  | .assign id chatJid messageId => match s.sends.find? id with
    | some ⟨_, _, _, _, .prepared job⟩ =>
      s.moveTo id (some (.writing (.assignDelivery job chatJid messageId)))
    | _ => s
  | .succeed id => match s.sends.find? id with
    | some ⟨_, _, _, _, .assigned job⟩ => s.moveTo id (some (.writing (.finishSent job)))
    | _ => s
  | .fail id error => match s.sends.find? id with
    | some ⟨_, _, _, _, .prepared job⟩ => s.moveTo id (some (.writing (.markFailed job error)))
    | some ⟨_, _, _, _, .assigned job⟩ => s.moveTo id (some (.writing (.markFailed job error)))
    | _ => s
  | .timeOut id => s.drop (fun x => x.id = id)
  | .disconnect connection => s.drop (fun x => x.connection = connection)
  | .orphanWritten write writes now =>
    if write ∈ s.orphans then
      { s with
        outbox := (performed plan writes now s.outbox write).1
        orphans := s.orphans.erase write }
    else s
  | .discard recordingId =>
    if s.gatesFree recordingId then
      { s with outbox := s.outbox.removeJobFiles recordingId }
    else s
  -- the commands and the blocking pool die with the process
  | .restart writes now => { outbox := s.outbox.recoverInterrupted plan writes now }

end VoiceDaemon

end OmarchyWhatsapp
