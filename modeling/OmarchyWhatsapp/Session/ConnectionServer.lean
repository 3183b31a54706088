import OmarchyWhatsapp.Protocol.FrameCodecs
import OmarchyWhatsapp.Relational.Progress
import OmarchyWhatsapp.Session.CommandGates
import OmarchyWhatsapp.Session.RevisionClock
import OmarchyWhatsapp.Shell.Service

/-!
# The connection of a client

`serve_connection_inner`: the loop reads lines, writes what is broadcast and writes what the jobs
of its commands have to say. A job holds one of 64 queue slots until its response is in the queue
of responses, and a permit while it is handled. The commands themselves, and the gates they wait
for, are steps here.
-/

namespace OmarchyWhatsapp

open Relational

def maxIpcFrameBytes : ℕ := 16 * 1024 * 1024

/-- The capacity of the queue of responses. -/
def responseCapacity : ℕ := 32

/-- The capacity of the broadcast channel. -/
def broadcastCapacity : ℕ := 256

/-- `Shared::response`. -/
def FrameStamp.response (stamp : FrameStamp) (id : Option ℕ) (event : Wire.ServerEvent) :
    Wire.ServerFrame :=
  (Wire.ServerFrame.response id event).withMetadata stamp.generation stamp.sequence

/-! ## State -/

inductive ServerJobPhase where
  /-- It waits for a permit. -/
  | queued
  /-- It waits for its gate or is handled. -/
  | permitted
  /-- It waits for room in the queue of responses. -/
  | answered (frame : Wire.ServerFrame)
deriving DecidableEq, Repr

/-- A job, with the number of its line. -/
structure ServerJob where
  number : ℕ
  id : Option ℕ
  phase : ServerJobPhase := .queued
deriving DecidableEq, Repr

/-- Why a frame is written. -/
inductive FrameSource where
  /-- `write_connection_sync`. -/
  | sync
  /-- The response to a line. -/
  | reply (number : ℕ)
  | broadcast (index : ℕ)
deriving DecidableEq, Repr

structure WrittenFrame where
  source : FrameSource
  frame : Wire.ServerFrame
deriving DecidableEq, Repr

structure ConnectionServer where
  closed : Bool := false
  /-- The request id of each line that was read, `none` where the line has none. -/
  received : List (Option ℕ) := []
  jobs : Table ServerJob ServerJob.number := ∅
  /-- The queue of responses, each with the number of its line. -/
  responses : List (ℕ × Wire.ServerFrame) := []
  written : List WrittenFrame := []
  /-- What has been broadcast since the connection subscribed, and how much of it was received. -/
  published : List Wire.ServerFrame := []
  position : ℕ := 0

/-- What `write_connection_sync` reads, and the stamps of its frames. -/
structure SyncSnapshot where
  status : Wire.ConnectionStatus
  unreadTotal : ℕ
  resync : Wire.ChatStateResyncStatus
  message : Option String
  helloStamp : FrameStamp
  stateStamp : FrameStamp
  resyncStamp : FrameStamp

inductive ServerStep where
  /-- A line: a request, or the error of its decoder. -/
  | receive (line : Except String Wire.ClientFrame) (stamp : FrameStamp)
  | acquirePermit (number : ℕ)
  /-- `handle_command` returns. -/
  | finish (number : ℕ) (result : Except String Wire.ServerEvent) (stamp : FrameStamp)
  /-- The deadline passes. -/
  | timeOut (number : ℕ) (stamp : FrameStamp)
  /-- There is room for the response of a job. -/
  | send (number : ℕ)
  /-- The loop takes a response. -/
  | respond
  /-- Something is published. -/
  | publish (frame : Wire.ServerFrame)
  /-- The loop takes a broadcast, or learns that it has missed some. -/
  | recv (snapshot : SyncSnapshot)
  /-- The client hangs up, or a line is too long. -/
  | hangUp

/-! ## Steps -/

/-- `write_connection_sync`. -/
def SyncSnapshot.frames (snapshot : SyncSnapshot) : List WrittenFrame :=
  [⟨.sync, snapshot.helloStamp.response none (.hello protocolVersion)⟩,
    ⟨.sync, snapshot.stateStamp.response none (.state snapshot.status snapshot.unreadTotal)⟩,
    ⟨.sync, snapshot.resyncStamp.response none (.chatStateResync snapshot.resync snapshot.message)⟩]

namespace ConnectionServer

-- the length of the JSON of a frame
variable (frameBytes : Wire.ServerFrame → ℕ)

/-- `write_frame`: a frame that is too long ends the connection. -/
def write (s : ConnectionServer) (entry : WrittenFrame) : ConnectionServer :=
  if s.closed then s
  else if maxIpcFrameBytes < frameBytes entry.frame then { s with closed := true }
  else { s with written := s.written ++ [entry] }

def sync (s : ConnectionServer) (snapshot : SyncSnapshot) : ConnectionServer :=
  snapshot.frames.foldl (write frameBytes) s

def moveTo (s : ConnectionServer) (number : ℕ) (phase : ServerJobPhase) : ConnectionServer :=
  { s with jobs := s.jobs.updateWhere (fun x => x.number = number) (fun x => { x with phase }) }

/-- The event of a job whose command has returned. -/
def resultEvent : Except String Wire.ServerEvent → Wire.ServerEvent
  | .ok event => event
  | .error message => .error message

/-- The loop reads a line. -/
def receive (s : ConnectionServer) (line : Except String Wire.ClientFrame) (stamp : FrameStamp) :
    ConnectionServer :=
  match line with
  | .error message =>
    write frameBytes { s with received := s.received ++ [none] }
      ⟨.reply s.received.length, stamp.response none (.error ("invalid request: " ++ message))⟩
  | .ok frame =>
    if s.jobs.rows.length < maxQueuedConnectionJobs then
      { s with
        received := s.received ++ [frame.id]
        jobs := s.jobs.insertOrIgnore { number := s.received.length, id := frame.id } }
    else
      write frameBytes { s with received := s.received ++ [frame.id] }
        ⟨.reply s.received.length, stamp.response frame.id (.error "too many active requests")⟩

/-- The loop takes a broadcast. A receiver that has fallen behind goes on with the oldest one that
is kept. -/
def recv (s : ConnectionServer) (snapshot : SyncSnapshot) : ConnectionServer :=
  if s.position + broadcastCapacity < s.published.length then
    sync frameBytes { s with position := s.published.length - broadcastCapacity } snapshot
  else match s.published[s.position]? with
    | some frame =>
      write frameBytes { s with position := s.position + 1 } ⟨.broadcast s.position, frame⟩
    | none => s

/-- Everything that happens to an open connection. -/
def stepOpen (s : ConnectionServer) : ServerStep → ConnectionServer
  | .receive line stamp => s.receive frameBytes line stamp
  | .acquirePermit number => match s.jobs.find? number with
    | some ⟨_, _, .queued⟩ =>
      if s.jobs.rows.countP (fun x => x.phase = .permitted) < maxConnectionJobs then
        s.moveTo number .permitted
      else s
    | _ => s
  | .finish number result stamp => match s.jobs.find? number with
    | some ⟨_, id, .permitted⟩ =>
      s.moveTo number (.answered (stamp.response id (resultEvent result)))
    | _ => s
  | .timeOut number stamp => match s.jobs.find? number with
    | some ⟨_, id, .queued⟩ | some ⟨_, id, .permitted⟩ =>
      s.moveTo number (.answered (stamp.response id (.error "request timed out")))
    | _ => s
  | .send number => match s.jobs.find? number with
    | some ⟨_, _, .answered frame⟩ =>
      if s.responses.length < responseCapacity then
        { s with
          jobs := s.jobs.deleteWhere (fun x => x.number = number)
          responses := s.responses ++ [(number, frame)] }
      else s
    | _ => s
  | .respond => match s.responses with
    | (number, frame) :: responses =>
      write frameBytes { s with responses } ⟨.reply number, frame⟩
    | [] => s
  | .publish frame => { s with published := s.published ++ [frame] }
  | .recv snapshot => s.recv frameBytes snapshot
  | .hangUp => { s with closed := true }

/-- The jobs of a connection that has ended are aborted. -/
def step (s : ConnectionServer) (a : ServerStep) : ConnectionServer :=
  if s.closed then s else s.stepOpen frameBytes a

/-- A connection that begins. -/
def opened (snapshot : SyncSnapshot) : ConnectionServer := sync frameBytes {} snapshot

end ConnectionServer

end OmarchyWhatsapp
