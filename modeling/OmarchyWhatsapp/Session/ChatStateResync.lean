import Mathlib.Data.List.Basic

/-!
# The chat-state resync

`ResyncChatState` arms one flag, publishes a status and notifies the run loop, which restarts the
client. The outcome is published by whoever takes the flag back: a waiter for the app-state
replay, a failed sync, or a generation that cannot prepare the replay. The waiters of the
connection from before the request can take it as well.
-/

namespace OmarchyWhatsapp

inductive ChatStateResyncStatus where
  | idle
  | requested
  | syncing
  | succeeded
  | failed
deriving DecidableEq, Repr

/-- Where the run loop of the daemon stands. -/
inductive RunLoop where
  /-- In the select of a generation. -/
  | running
  /-- The notification is taken and `Syncing` is not published yet. -/
  | announcing
  /-- The client shuts down for the resync. -/
  | stopping
  /-- The generation is retired, for the resync or for another reason. -/
  | halted (resync : Bool)
deriving DecidableEq, Repr

/-- How a waiter for the replay ends. -/
inductive ReplayOutcome where
  /-- The counters are reconciled; `complete` says whether the marker could be written. -/
  | reconciled (complete : Bool)
  | unreconciled
  | expired
deriving DecidableEq, Repr

/-- What happens to a request, in order. -/
inductive ResyncEvent where
  | published (status : ChatStateResyncStatus) (message : String)
  /-- A request is turned down because the marker cannot be removed. -/
  | refused (message : String)
  /-- The generation after a controlled restart begins. -/
  | restarted
deriving DecidableEq, Repr

structure Resync where
  generation : ℕ := 0
  loop : RunLoop := .halted false
  /-- The published connection status is `Connected`. -/
  connected : Bool := false
  /-- `event_sync_marker` exists. -/
  marker : Bool
  appStateFailed : Bool := false
  /-- `chat_state_resync_requested`. -/
  requested : Bool := false
  status : ChatStateResyncStatus := .idle
  /-- The permit of `chat_state_resync_notify`. -/
  permit : Bool := false
  /-- A `ResyncChatState` has armed the flag and awaits the status lock. -/
  command : Bool := false
  /-- The generations of the running waiters. -/
  waiters : List ℕ := []
  /-- The outcomes that took the flag and await the status lock. -/
  settling : List (ChatStateResyncStatus × String) := []
  trace : List ResyncEvent := []
deriving Repr

/-- `suspends` says that the status lock is held, so that the task waits for it. -/
inductive ResyncStep where
  | request (removes suspends : Bool)
  /-- The command gets the status lock. -/
  | resume
  /-- The command is dropped at its await. -/
  | cancel
  /-- The run loop takes the notification. -/
  | notified
  | announce
  /-- The client is shut down and its generation retired. -/
  | stop
  /-- The run loop leaves its select for another reason. -/
  | halt
  | begin (prepareFails suspends : Bool)
  /-- `on_connected`. -/
  | connect
  | disconnect
  /-- A waiter reaches its end. -/
  | wake (generation : ℕ) (outcome : ReplayOutcome) (suspends : Bool)
  /-- `AppStateSyncFailed`; `fatal` says that the connection goes with it. -/
  | syncFailed (generation : ℕ) (fatal suspends : Bool)
  /-- An outcome gets the status lock. -/
  | settled
  /-- The account data are cleared after a logout. -/
  | clearAccountData
deriving DecidableEq, Repr

namespace Resync

/-- `RevisionClock::is_current`. -/
def isCurrent (s : Resync) (generation : ℕ) : Bool :=
  decide (generation ≠ 0) && decide (s.generation = generation)

/-- A client of the current generation runs. -/
def live (s : Resync) : Bool :=
  match s.loop with
  | .halted _ => false
  | _ => true

/-- `set_chat_state_resync` with the lock in hand. -/
def publish (s : Resync) (status : ChatStateResyncStatus) (message : String) : Resync :=
  { s with status, trace := s.trace ++ [.published status message] }

/-- The flag is swapped, and if it was set the outcome is published. -/
def settle (s : Resync) (status : ChatStateResyncStatus) (message : String) (suspends : Bool) :
    Resync :=
  if s.requested = false then s
  else if suspends then
    { s with requested := false, settling := s.settling ++ [(status, message)] }
  else { s with requested := false }.publish status message

/-- `publish Requested`, then `notify_one`. -/
def announceRequest (s : Resync) : Resync :=
  { s.publish .requested "Chat-state resync requested" with permit := true, command := false }

/-- `Command::ResyncChatState`. -/
def request (s : Resync) (removes suspends : Bool) : Resync :=
  if s.connected = false ∨ s.requested = true then s
  else if removes = false then
    { s with
      status := .failed
      trace := s.trace ++ [.refused "Could not schedule the WhatsApp chat-state replay"] }
  else
    let armed := { s with requested := true, marker := false }
    if suspends then { armed with command := true } else armed.announceRequest

/-- What a waiter does when the replay is quiet, fails or is out of time. -/
def finishWaiter (s : Resync) (outcome : ReplayOutcome) (suspends : Bool) : Resync :=
  match outcome with
  | .reconciled complete => { s with marker := s.marker || complete }.settle .succeeded
      "WhatsApp chat state is up to date" suspends
  | .unreconciled => s.settle .failed
      "Could not reconcile the replayed WhatsApp chat state" suspends
  | .expired => s.settle .failed "WhatsApp did not finish the chat-state replay" suspends

/-- `retire_generation` and `abort_all`. -/
def retire (s : Resync) (resync : Bool) : Resync :=
  { s with
    generation := s.generation + 1, loop := .halted resync, waiters := [], settling := [] }

/-- The start of a generation; `prepare_event_state_resync` has nothing to do while the marker
exists. -/
def beginGeneration (s : Resync) (resync prepareFails suspends : Bool) : Resync :=
  let begun := { s with
    generation := s.generation + 1, loop := .running, appStateFailed := false
    trace := if resync then s.trace ++ [.restarted] else s.trace }
  if prepareFails = true ∧ s.marker = false then
    begun.settle .failed "Could not prepare the WhatsApp chat-state replay" suspends
  else begun

def step (s : Resync) : ResyncStep → Resync
  | .request removes suspends => s.request removes suspends
  | .resume => if s.command then s.announceRequest else s
  | .cancel => { s with command := false }
  | .notified =>
    if s.loop = .running ∧ s.permit = true then { s with loop := .announcing, permit := false }
    else s
  | .announce =>
    if s.loop = .announcing then
      { s.publish .syncing "Requesting authoritative chat state from WhatsApp" with
        loop := .stopping, connected := false }
    else s
  | .stop => if s.loop = .stopping then s.retire true else s
  | .halt => if s.loop = .running then s.retire false else s
  | .begin prepareFails suspends => match s.loop with
    | .halted resync => s.beginGeneration resync prepareFails suspends
    | _ => s
  | .connect =>
    if s.live = true then
      { s with
        connected := true
        waiters := if s.marker then s.waiters else s.waiters ++ [s.generation] }
    else s
  | .disconnect => { s with connected := false }
  | .wake generation outcome suspends =>
    if generation ∈ s.waiters then
      let woken := { s with waiters := s.waiters.erase generation }
      if s.isCurrent generation = false ∨ s.appStateFailed = true then woken
      else woken.finishWaiter outcome suspends
    else s
  | .syncFailed generation fatal suspends =>
    if s.isCurrent generation = true then
      { s with
        appStateFailed := true, marker := false
        connected := s.connected && !fatal }.settle .failed
          "WhatsApp could not complete the chat-state replay" suspends
    else s
  | .settled => match s.settling with
    | (status, message) :: rest => { s with settling := rest }.publish status message
    | [] => s
  | .clearAccountData => if s.live = true then s else { s with marker := false }

end Resync

end OmarchyWhatsapp
