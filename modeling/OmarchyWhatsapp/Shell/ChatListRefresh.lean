import OmarchyWhatsapp.Shell.Service

/-!
# Refreshing the chat list

A change of the chats is followed by an invalidation, which is coalesced in a window; the shell
asks for the list on each invalidation and on each hello. `list_chats` reads the list, looks up
phone numbers that are missing, and is stamped when it is done. The frames that are stamped reach
the shell in any order.
-/

namespace OmarchyWhatsapp

/-- A `list_chats` that the daemon handles, and the list it has read. -/
structure ListRequest where
  id : ℕ
  chats : Option (List Chat) := none
deriving DecidableEq, Repr

structure ChatListSession where
  shell : Service
  /-- What `Database::list_chats` answers now. -/
  list : List Chat
  /-- The changes whose invalidation is not scheduled yet. -/
  unscheduled : ℕ := 0
  /-- The window of "chats", and whether its trailing publish is due. -/
  window : Option Bool := none
  /-- The publishes that are recorded and not stamped. -/
  publishing : ℕ := 0
  generation : ℕ
  revision : ℕ
  /-- The stamped frames on their way to the shell. -/
  wire : List ServerFrame := []
  handling : List ListRequest := []
  /-- The chats that have been selected, newest first. -/
  selections : List String := [""]

inductive ChatListStep where
  | change (list : List Chat)
  | schedule
  | publish
  | finishWindow
  /-- Another resource is published, or another request answered. -/
  | broadcast (event : ServerEvent)
  /-- The daemon reads the next request. -/
  | receive
  | read (request : ListRequest)
  /-- A phone number is found for a chat without one, and cached. -/
  | lookUp (request : ListRequest) (jid phoneNumber : String)
  | respond (request : ListRequest)
  /-- A request is refused or runs into its deadline. -/
  | fail (request : ListRequest) (message : String)
  | deliver (frame : ServerFrame)
  /-- The connection lags: broadcasts are lost, and the hello is repeated. -/
  | lag (lost : List ServerFrame)
  | select (chatJid : String)

namespace ChatListSession

/-- The selection as it is now is remembered. -/
def noteSelection (s : ChatListSession) : ChatListSession :=
  { s with selections := s.shell.selectedChatJid :: s.selections }

def stamp (s : ChatListSession) (id : Option ℕ) (event : ServerEvent) : ChatListSession :=
  { s with
    revision := s.revision + 1
    wire := s.wire ++ [⟨id, s.generation, s.revision + 1, event⟩] }

/-- `InvalidationCoalescer::record`. -/
def record (s : ChatListSession) : ChatListSession :=
  match s.window with
  | some _ => { s with window := some true }
  | none => { s with window := some false, publishing := s.publishing + 1 }

/-- `InvalidationCoalescer::finish`. -/
def finish (s : ChatListSession) : ChatListSession :=
  match s.window with
  | some true => { s with window := some false, publishing := s.publishing + 1 }
  | _ => { s with window := none }

/-- `update_chat_phone_number`, on a list. -/
def withPhoneNumber (jid phoneNumber : String) (list : List Chat) : List Chat :=
  list.map fun chat =>
    if chat.jid = jid then { chat with phoneNumber := some phoneNumber } else chat

/-- An event of another resource. -/
def isOther (event : ServerEvent) : Bool :=
  match event with
  | .hello _ => false
  | _ => decide (ServerFrame.resourceKey ⟨none, 0, 0, event⟩ ≠ "chats")

def isListChats (request : ClientFrame) : Bool :=
  match request.command with
  | .listChats _ => true
  | _ => false

def step (s : ChatListSession) : ChatListStep → ChatListSession
  | .change list => { s with list, unscheduled := s.unscheduled + 1 }
  | .schedule =>
    if s.unscheduled = 0 then s else { s with unscheduled := s.unscheduled - 1 }.record
  | .publish =>
    if s.publishing = 0 then s
    else { s with publishing := s.publishing - 1 }.stamp none (.invalidated .chats none)
  | .finishWindow => s.finish
  | .broadcast event => if isOther event then s.stamp none event else s
  | .receive => match s.shell.requests with
    | request :: rest =>
      { s with
        shell := { s.shell with requests := rest }
        handling := if isListChats request then s.handling ++ [{ id := request.id }]
          else s.handling }
    | [] => s
  | .read request =>
    if request ∈ s.handling ∧ request.chats = none then
      { s with handling := s.handling.erase request ++ [{ request with chats := some s.list }] }
    else s
  | .lookUp request jid phoneNumber =>
    if request ∈ s.handling ∧ phoneNumber ≠ "" ∧ (request.chats.getD []).any (fun chat =>
        decide (chat.jid = jid) && !chat.isGroup && chat.phoneNumber.isNone) = true then
      { s with
        list := withPhoneNumber jid phoneNumber s.list
        handling := s.handling.erase request ++
          [{ request with chats := request.chats.map (withPhoneNumber jid phoneNumber) }] }
    else s
  | .respond request => match request.chats with
    | some chats =>
      if request ∈ s.handling then
        { s with handling := s.handling.erase request }.stamp (some request.id) (.chats chats)
      else s
    | none => s
  | .fail request message =>
    if request ∈ s.handling then
      { s with handling := s.handling.erase request }.stamp (some request.id) (.error message)
    else s
  | .deliver frame =>
    if frame ∈ s.wire then
      { s with wire := s.wire.erase frame, shell := s.shell.handleLine frame }.noteSelection
    else s
  | .lag lost =>
    { s with wire := s.wire.filter (survives lost) }.stamp none (.hello protocolVersion)
  | .select chatJid =>
    { s with shell := { s.shell with selectedChatJid := chatJid } }.noteSelection

/-- A shell that has just connected: the hello is on its way. -/
def opened (generation revision : ℕ) (list : List Chat) : ChatListSession :=
  stamp { shell := { connected := true }, list, generation, revision } none (.hello protocolVersion)

end ChatListSession

end OmarchyWhatsapp
