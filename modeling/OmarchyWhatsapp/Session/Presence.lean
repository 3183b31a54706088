import Mathlib.Data.Finset.Basic
import OmarchyWhatsapp.Relational.Table

/-!
# Presence and active chats

The connections of the shell each have an intent: whether they are in focus, and on which chat.
A change of intents is taken atomically, as the states before and after it; the difference is sent
to WhatsApp afterwards, one call at a time. The device stays unavailable while the offline
catch-up of its generation is pending.
-/

namespace OmarchyWhatsapp

open Relational

/-! ## The intents of the connections -/

structure ConnectionIntent where
  activeChat : Option String := none
  available : Bool := false
deriving DecidableEq, Repr

structure ConnectionState where
  available : Bool := false
  activeChats : Finset String := ∅
deriving DecidableEq

abbrev ConnectionIntents := Table (ℕ × ConnectionIntent) Prod.fst

namespace ConnectionIntents

def connect (intents : ConnectionIntents) (id : ℕ) : ConnectionIntents :=
  intents.insertOrIgnore (id, {})

def setActiveChat (intents : ConnectionIntents) (id : ℕ) (chat : Option String) :
    ConnectionIntents :=
  intents.updateWhere (fun c => c.1 = id) (fun c => (c.1, { c.2 with activeChat := chat }))

def setAvailable (intents : ConnectionIntents) (id : ℕ) (available : Bool) : ConnectionIntents :=
  intents.updateWhere (fun c => c.1 = id) (fun c => (c.1, { c.2 with available }))

def disconnect (intents : ConnectionIntents) (id : ℕ) : ConnectionIntents :=
  intents.deleteWhere (fun c => c.1 = id)

def state (intents : ConnectionIntents) : ConnectionState where
  available := intents.rows.any (fun c => c.2.available)
  activeChats := (intents.rows.filterMap (fun c => c.2.activeChat)).toFinset

end ConnectionIntents

/-! ## Reconciliations -/

/-- Who runs a `reconcile_connection_intent_inner`. -/
inductive ReconcileOwner where
  /-- `SetActiveChat` or `SetPresence`, under the gate "connection-intent". -/
  | command (connection : ℕ)
  /-- `serve_connection`, after the connection is closed. -/
  | closing
  /-- The task that `on_connected` spawns. -/
  | connected
  /-- The handler of `OfflineSyncCompleted`. -/
  | event
deriving DecidableEq, Repr

inductive ReconcilePhase where
  /-- A spawned task that has not read the intents yet. -/
  | starting
  /-- The client is to be read, and the presence to be set. -/
  | reading
  /-- The calls that are left. -/
  | calling (unsubscribes subscribes : Finset String)
deriving DecidableEq

structure Reconciliation where
  owner : ReconcileOwner
  before : ConnectionState := {}
  after : ConnectionState := {}
  forcePresence : Bool := false
  phase : ReconcilePhase := .reading
deriving DecidableEq

def effectivePresenceAvailable (requested syncPending : Bool) : Bool := requested && !syncPending

/-! ## The daemon and its upstream client -/

/-- Where the run loop stands. -/
inductive PresenceLoop where
  | halted
  /-- The client of the current generation runs. -/
  | running
  /-- The generation is retired, and its client is still installed. -/
  | retired
deriving DecidableEq, Repr

/-- What the upstream client reports. -/
inductive UpstreamEvent where
  | connected
  /-- `Disconnected`, `ConnectFailure`, `StreamError` or `LoggedOut`. -/
  | disconnected
  | offlineSyncCompleted
  | selfPushNameUpdated (newName : String)
deriving DecidableEq, Repr

/-- What happens on the connection, in order: the calls that are made on the transport, and when
a connection is established, caught up and lost. -/
inductive PresenceMark where
  | established
  | caughtUp
  | lost
  | setAvailable
  | setUnavailable
  | subscribed (jid : String)
  | unsubscribed (jid : String)
deriving DecidableEq, Repr

structure PresenceDaemon where
  generation : ℕ := 0
  loop : PresenceLoop := .halted
  /-- `presence_sync_generation`. -/
  syncGeneration : ℕ := 0
  /-- The established connection, and whether its catch-up is complete. -/
  connection : Option Bool := none
  /-- The push name that the client knows. -/
  pushName : String := ""
  /-- The events on their way to the handlers, each with the generation it belongs to. -/
  inbox : List (ℕ × UpstreamEvent) := []
  /-- The events before the app-event reducer. -/
  appEvents : List (ℕ × UpstreamEvent) := []
  /-- `Shared::client`: a client is installed. -/
  client : Bool := false
  /-- The runs of `on_connected` that have installed their client and spawned nothing yet. -/
  connecting : ℕ := 0
  intents : ConnectionIntents := ∅
  tasks : List Reconciliation := []
  trace : List PresenceMark := []

inductive PresenceStep where
  /-- A generation begins, and its client runs. -/
  | begin
  /-- The client has stopped: the generation is retired and its jobs are aborted. -/
  | retire
  /-- `*shared.client = None`, before the next generation. -/
  | clearClient
  | establish
  | lose
  /-- The catch-up of the connection is complete. -/
  | catchUp
  | rename (newName : String)
  /-- The next event reaches its handler. -/
  | deliver
  /-- `on_connected` goes on to spawn its reconciliation. -/
  | spawn
  /-- The app-event reducer takes the next event. -/
  | reduce
  | connect (id : ℕ)
  | setActiveChat (id : ℕ) (chat : Option String)
  | setPresence (id : ℕ) (available : Bool)
  | close (id : ℕ)
  /-- A reconciliation goes on to its presence, or past it. -/
  | advance (task : Reconciliation)
  /-- A reconciliation makes its call for one chat. -/
  | call (task : Reconciliation) (jid : String)
  | finish (task : Reconciliation)
  /-- A command is dropped at its deadline. -/
  | timeOut (task : Reconciliation)
deriving DecidableEq

namespace PresenceDaemon

variable (direct : String → Bool)

/-- `RevisionClock::is_current`. -/
def isCurrent (s : PresenceDaemon) (generation : ℕ) : Bool :=
  decide (generation ≠ 0) && decide (s.generation = generation)

def presenceSyncPending (s : PresenceDaemon) : Bool := s.isCurrent s.syncGeneration

/-- `finish_presence_sync`. -/
def finishPresenceSync (s : PresenceDaemon) (generation : ℕ) : PresenceDaemon × Bool :=
  if s.syncGeneration = generation then ({ s with syncGeneration := 0 }, true) else (s, false)

def mark (s : PresenceDaemon) (event : PresenceMark) : PresenceDaemon :=
  { s with trace := s.trace ++ [event] }

/-- The connection, if there is one, is lost. -/
def loseConnection (s : PresenceDaemon) : PresenceDaemon :=
  if s.connection = none then s else { s.mark .lost with connection := none }

/-- An upstream event of the running client. -/
def report (s : PresenceDaemon) (event : UpstreamEvent) : PresenceDaemon :=
  { s with inbox := s.inbox ++ [(s.generation, event)] }

def spawnTask (s : PresenceDaemon) (task : Reconciliation) : PresenceDaemon :=
  { s with tasks := task :: s.tasks }

/-- A task goes on as `next`. -/
def moveTo (s : PresenceDaemon) (task next : Reconciliation) : PresenceDaemon :=
  { s with tasks := next :: s.tasks.erase task }

/-- The intents change, and the change is to be reconciled by `owner`. -/
def changeIntents (s : PresenceDaemon) (owner : ReconcileOwner) (intents : ConnectionIntents) :
    PresenceDaemon :=
  { s with
    intents
    tasks := { owner, before := s.intents.state, after := intents.state } :: s.tasks }

/-- The jobs of a connection that goes away are aborted. -/
def dropCommands (s : PresenceDaemon) (id : ℕ) : PresenceDaemon :=
  { s with
    tasks := s.tasks.filter (fun task => decide (task.owner ≠ ReconcileOwner.command id)) }

def isCommand (task : Reconciliation) : Bool :=
  match task.owner with
  | .command _ => true
  | _ => false

/-- The gate "connection-intent" is free. -/
def gateFree (s : PresenceDaemon) : Bool := s.tasks.all (fun task => !isCommand task)

/-- The presence of a reconciliation: what is called depends on what is pending now. -/
def callPresence (s : PresenceDaemon) (task : Reconciliation) : PresenceDaemon :=
  if task.forcePresence = true ∨ task.before.available ≠ task.after.available then
    if effectivePresenceAvailable task.after.available s.presenceSyncPending then
      if s.pushName = "" then s else s.mark .setAvailable
    else s.mark .setUnavailable
  else s

/-- The direct chats that only the first state has. -/
def leftChats (s s' : ConnectionState) : Finset String :=
  (s.activeChats \ s'.activeChats).filter (fun raw => direct raw = true)

/-- `reconcile_connection_intent_inner` from its start to its first await after the presence. -/
def advance (s : PresenceDaemon) (task : Reconciliation) : PresenceDaemon :=
  match task.phase with
  | .starting => s.moveTo task { task with after := s.intents.state, phase := .reading }
  | .reading =>
    if s.client = false then { s with tasks := s.tasks.erase task }
    else (s.callPresence task).moveTo task { task with
      phase := .calling (leftChats direct task.before task.after)
        (leftChats direct task.after task.before) }
  | .calling _ _ => s

/-- One call of the two loops over the chats; a hash set is traversed in any order. -/
def callChat (s : PresenceDaemon) (task : Reconciliation) (jid : String) : PresenceDaemon :=
  match task.phase with
  | .calling unsubscribes subscribes =>
    if jid ∈ unsubscribes then
      (s.mark (.unsubscribed jid)).moveTo task
        { task with phase := .calling (unsubscribes.erase jid) subscribes }
    else if unsubscribes = ∅ ∧ jid ∈ subscribes then
      (s.mark (.subscribed jid)).moveTo task
        { task with phase := .calling ∅ (subscribes.erase jid) }
    else s
  | _ => s

/-- `handle_app_event`, for an event of the current generation. -/
def handleAppEvent (s : PresenceDaemon) (generation : ℕ) : UpstreamEvent → PresenceDaemon
  | .offlineSyncCompleted => match s.finishPresenceSync generation with
    | (finished, true) =>
      finished.spawnTask { owner := .event, after := finished.intents.state, forcePresence := true }
    | (finished, false) => finished
  | .selfPushNameUpdated newName =>
    if effectivePresenceAvailable s.intents.state.available s.presenceSyncPending = true ∧
        newName ≠ "" then s.mark .setAvailable
    else s
  | _ => s

/-- The handlers of the upstream events, each guarded by its generation. -/
def handleEvent (s : PresenceDaemon) (generation : ℕ) (event : UpstreamEvent) : PresenceDaemon :=
  if s.isCurrent generation = false then s
  else match event with
    | .connected => { s with client := true, connecting := s.connecting + 1 }
    | .disconnected => { s with client := false }
    | _ => { s with appEvents := s.appEvents ++ [(generation, event)] }

def step (s : PresenceDaemon) : PresenceStep → PresenceDaemon
  | .begin =>
    if s.loop = .halted then
      { s with
        generation := s.generation + 1, loop := .running, syncGeneration := s.generation + 1 }
    else s
  | .retire =>
    if s.loop = .running then
      { s.loseConnection with
        generation := s.generation + 1, loop := .retired
        tasks := s.tasks.filter
          (fun task => decide (task.owner ≠ .connected) && decide (task.owner ≠ .event)) }
    else s
  | .clearClient => if s.loop = .retired then { s with loop := .halted, client := false } else s
  | .establish =>
    if s.loop = .running ∧ s.connection = none then
      { (s.mark .established).report .connected with connection := some false }
    else s
  | .lose => if s.connection = none then s else s.loseConnection.report .disconnected
  | .catchUp =>
    if s.connection = some false then
      { (s.mark .caughtUp).report .offlineSyncCompleted with connection := some true }
    else s
  | .rename newName =>
    if s.connection = none then s
    else { s.report (.selfPushNameUpdated newName) with pushName := newName }
  | .deliver => match s.inbox with
    | (generation, event) :: rest => { s with inbox := rest }.handleEvent generation event
    | [] => s
  | .spawn =>
    if s.connecting = 0 then s
    else { s with connecting := s.connecting - 1 }.spawnTask
      { owner := .connected, forcePresence := true, phase := .starting }
  | .reduce => match s.appEvents with
    | (generation, event) :: rest =>
      if s.tasks.any (fun task => decide (task.owner = .event)) then s
      else if s.isCurrent generation = false then { s with appEvents := rest }
      else { s with appEvents := rest }.handleAppEvent generation event
    | [] => s
  | .connect id => { s with intents := s.intents.connect id }
  | .setActiveChat id chat =>
    if s.gateFree = true ∧ (s.intents.find? id).isSome then
      s.changeIntents (.command id) (s.intents.setActiveChat id chat)
    else s
  | .setPresence id available =>
    if s.gateFree = true ∧ (s.intents.find? id).isSome then
      s.changeIntents (.command id) (s.intents.setAvailable id available)
    else s
  | .close id =>
    if (s.intents.find? id).isSome then
      (s.dropCommands id).changeIntents .closing (s.intents.disconnect id)
    else s
  | .advance task => if task ∈ s.tasks then s.advance direct task else s
  | .call task jid => if task ∈ s.tasks then s.callChat task jid else s
  | .finish task =>
    if task ∈ s.tasks ∧ task.phase = .calling ∅ ∅ then { s with tasks := s.tasks.erase task } else s
  | .timeOut task =>
    if task ∈ s.tasks ∧ isCommand task = true then { s with tasks := s.tasks.erase task } else s

end PresenceDaemon

end OmarchyWhatsapp
