import OmarchyWhatsapp.Relational.Run
import OmarchyWhatsapp.Relational.WeakMap

/-!
# The gates of conflicting commands

Each command of a client is a job: it waits for a permit of its connection, gets the gate of its
conflict key from a map of weak references, and locks the gate before it is handled. A deadline or
a disconnect drops the job wherever it awaits; its guard goes first and its reference to the gate
after that. A reference counts as long as its job has it.
-/

namespace OmarchyWhatsapp

open Relational

def maxConnectionJobs : ℕ := 8

def maxQueuedConnectionJobs : ℕ := 64

/-- The commands, with the fields that `conflict_key` reads. -/
inductive Command where
  | getState
  | listChats
  | getMessages
  | getGroupParticipants
  | sendMessage (chatJid : String)
  | sendVoiceMessage (recordingId : String)
  | pasteImage
  | stageFile
  | sendImage (chatJid : String)
  | sendDocument (chatJid : String)
  | discardVoiceRecording (recordingId : String)
  | listVoiceOutbox
  | listTextOutbox
  | retryTextMessage (deliveryId : String)
  | discardTextMessage (deliveryId : String)
  | createPoll (chatJid : String)
  | votePoll (chatJid : String)
  | downloadMedia
  | react (chatJid : String)
  | markRead (chatJid : String)
  | setChatPinned (chatJid : String)
  | requestAvatar
  | listAvatars
  | setActiveChat
  | setPresence
  | setChatState (chatJid : String)
  | resyncChatState
  | logout
  | ping
deriving DecidableEq, Repr

def conflictKey : Command → Option String
  | .sendMessage chatJid | .sendImage chatJid | .sendDocument chatJid | .createPoll chatJid
  | .votePoll chatJid | .react chatJid | .markRead chatJid | .setChatPinned chatJid
  | .setChatState chatJid => some ("chat:" ++ chatJid)
  | .sendVoiceMessage recordingId | .discardVoiceRecording recordingId =>
    some ("voice:" ++ recordingId)
  | .retryTextMessage deliveryId | .discardTextMessage deliveryId => some ("text:" ++ deliveryId)
  | .setActiveChat | .setPresence => some "connection-intent"
  | .resyncChatState | .logout => some "global-session"
  | .downloadMedia | .pasteImage | .stageFile | .requestAvatar | .getState | .listChats
  | .getMessages | .getGroupParticipants | .listVoiceOutbox | .listTextOutbox | .listAvatars
  | .ping => none

/-! ## Jobs -/

inductive CommandPhase where
  /-- It waits for a permit. -/
  | queued
  | permitted
  /-- `command_gate` has locked the map and pruned it. -/
  | looking
  /-- It has a reference to the gate and waits for the lock. -/
  | gated (gate : ℕ)
  /-- In `handle_command`. -/
  | running (gate : Option ℕ)
  /-- The guard is dropped and the reference is still there. -/
  | leaving (gate : Option ℕ) (responds : Bool)
  | responding
deriving DecidableEq, Repr

/-- The gate that the job has a reference to. -/
def CommandPhase.gate : CommandPhase → Option ℕ
  | .gated gate => some gate
  | .running gate | .leaving gate _ => gate
  | _ => none

def CommandPhase.hasPermit : CommandPhase → Bool
  | .queued | .responding => false
  | _ => true

def CommandPhase.isRunning : CommandPhase → Bool
  | .running _ => true
  | _ => false

structure CommandJob where
  id : ℕ
  connection : ℕ
  command : Command
  phase : CommandPhase := .queued
deriving DecidableEq, Repr

structure CommandGates where
  jobs : Table CommandJob CommandJob.id := ∅
  gates : WeakMap String := {}

inductive CommandStep where
  /-- A client sends a command. -/
  | request (id connection : ℕ) (command : Command)
  | acquirePermit (id : ℕ)
  /-- The first half of `command_gate`, for a command that has a key. -/
  | prune (id : ℕ)
  | upgrade (id : ℕ)
  | lock (id : ℕ)
  /-- `handle_command` returns. -/
  | finish (id : ℕ)
  /-- The deadline passes. -/
  | timeOut (id : ℕ)
  /-- The client has disconnected, and its jobs are aborted one after another. -/
  | abort (id : ℕ)
  /-- The reference to the gate is dropped. -/
  | release (id : ℕ)
  | respond (id : ℕ)

namespace CommandGates

/-- Whether the gate has a strong reference. -/
def alive (s : CommandGates) (gate : ℕ) : Bool := s.jobs.rows.any (·.phase.gate = some gate)

def moveTo (s : CommandGates) (id : ℕ) (phase : CommandPhase) : CommandGates :=
  { s with jobs := s.jobs.updateWhere (fun x => x.id = id) (fun x => { x with phase }) }

def remove (s : CommandGates) (id : ℕ) : CommandGates :=
  { s with jobs := s.jobs.deleteWhere (fun x => x.id = id) }

def step (s : CommandGates) : CommandStep → CommandGates
  | .request id connection command =>
    if s.jobs.rows.countP (·.connection = connection) < maxQueuedConnectionJobs then
      { s with jobs := s.jobs.insertOrIgnore { id, connection, command } }
    else s
  | .acquirePermit id => match s.jobs.find? id with
    | some ⟨_, connection, _, .queued⟩ =>
      if s.jobs.rows.countP (fun x => x.connection = connection && x.phase.hasPermit)
          < maxConnectionJobs then
        s.moveTo id .permitted
      else s
    | _ => s
  | .prune id => match s.jobs.find? id with
    | some ⟨_, _, command, .permitted⟩ =>
      if conflictKey command = none then s.moveTo id (.running none)
      else if s.jobs.rows.any (·.phase = .looking) then s
      else { s with gates := s.gates.prune s.alive }.moveTo id .looking
    | _ => s
  | .upgrade id => match s.jobs.find? id with
    | some ⟨_, _, command, .looking⟩ => match conflictKey command with
      | some key =>
        let (gates, gate) := s.gates.upgrade s.alive key
        { s with gates }.moveTo id (.gated gate)
      | none => s
    | _ => s
  | .lock id => match s.jobs.find? id with
    | some ⟨_, _, _, .gated gate⟩ =>
      if s.jobs.rows.any (·.phase = .running (some gate)) then s
      else s.moveTo id (.running (some gate))
    | _ => s
  | .finish id => match s.jobs.find? id with
    | some ⟨_, _, _, .running gate⟩ => s.moveTo id (.leaving gate true)
    | _ => s
  | .timeOut id => match s.jobs.find? id with
    | some ⟨_, _, _, .queued⟩ | some ⟨_, _, _, .permitted⟩ => s.moveTo id .responding
    | some ⟨_, _, _, .gated gate⟩ => s.moveTo id (.leaving (some gate) true)
    | some ⟨_, _, _, .running gate⟩ => s.moveTo id (.leaving gate true)
    | _ => s
  | .abort id => match s.jobs.find? id with
    | some ⟨_, _, _, .queued⟩ | some ⟨_, _, _, .permitted⟩ | some ⟨_, _, _, .responding⟩ =>
      s.remove id
    | some ⟨_, _, _, .gated gate⟩ => s.moveTo id (.leaving (some gate) false)
    | some ⟨_, _, _, .running gate⟩ => s.moveTo id (.leaving gate false)
    | _ => s
  | .release id => match s.jobs.find? id with
    | some ⟨_, _, _, .leaving _ responds⟩ =>
      if responds then s.moveTo id .responding else s.remove id
    | _ => s
  | .respond id => match s.jobs.find? id with
    | some ⟨_, _, _, .responding⟩ => s.remove id
    | _ => s

/-- The jobs that execute `handle_command` for a command with this key. -/
def executing (s : CommandGates) (key : String) : List CommandJob :=
  s.jobs.rows.filter (fun x => decide (conflictKey x.command = some key) && x.phase.isRunning)

end CommandGates

/-- The key of the job with the gate that it has a reference to. -/
def CommandJob.reference (x : CommandJob) : Option (String × ℕ) :=
  match conflictKey x.command, x.phase.gate with
  | some key, some gate => some (key, gate)
  | _, _ => none

theorem CommandJob.reference_eq_some {x : CommandJob} {ref : String × ℕ} :
    x.reference = some ref ↔ conflictKey x.command = some ref.1 ∧ x.phase.gate = some ref.2 := by
  unfold reference
  cases conflictKey x.command <;> cases x.phase.gate <;> simp [Prod.ext_iff]

namespace CommandGates

variable {s : CommandGates} {x y : CommandJob} {id : ℕ} {phase : CommandPhase}

def references (s : CommandGates) : List (String × ℕ) :=
  s.jobs.rows.filterMap CommandJob.reference

/-- The invariant: the references of a key are to one gate, and a gate has one guard. -/
structure Exclusive (s : CommandGates) : Prop where
  names : s.gates.Names s.references
  keyed : ∀ x ∈ s.jobs.rows, x.phase = .running none → conflictKey x.command = none
  locked : ∀ x ∈ s.jobs.rows, ∀ y ∈ s.jobs.rows, ∀ gate, x.phase = .running (some gate) →
    y.phase = .running (some gate) → x = y

/-- A gate with a reference is alive. -/
theorem alive_of_reference {ref : String × ℕ} (h : ref ∈ s.references) : s.alive ref.2 = true := by
  obtain ⟨x, hx, href⟩ := List.mem_filterMap.mp h
  refine List.any_eq_true.mpr ⟨x, hx, ?_⟩
  rw [(CommandJob.reference_eq_some.mp href).2]
  exact decide_eq_true rfl

theorem mem_moveTo (hx : s.jobs.find? id = some x) (hy : y ∈ (s.moveTo id phase).jobs.rows) :
    (y ∈ s.jobs.rows ∧ y.id ≠ id) ∨ y = { x with phase } := by
  rw [moveTo, Table.mem_updateWhere] at hy
  obtain ⟨z, hz, rfl⟩ := hy
  split
  · rename_i hid
    have hzx : z = x := s.jobs.key_inj hz (Table.mem_of_find? hx)
      ((of_decide_eq_true hid).trans (Table.key_of_find? hx).symm)
    exact Or.inr (by rw [hzx])
  · rename_i hid
    exact Or.inl ⟨hz, by simpa using hid⟩

/-- A job that goes on: its reference is named, and nobody else has the guard that it takes. -/
theorem Exclusive.moveTo (h : s.Exclusive) (hx : s.jobs.find? id = some x)
    {gates : WeakMap String}
    (hnames : gates.Names ((CommandJob.reference { x with phase }).toList ++ s.references))
    (hkeyed : phase = .running none → conflictKey x.command = none)
    (hlocked : ∀ gate, phase = .running (some gate) →
      ∀ y ∈ s.jobs.rows, y.phase ≠ .running (some gate)) :
    ({ s with gates }.moveTo id phase).Exclusive := by
  refine ⟨hnames.subset fun ref href => ?_, fun y hy hrunning => ?_,
    fun y hy z hz gate hyrunning hzrunning => ?_⟩
  · obtain ⟨y, hy, href⟩ := List.mem_filterMap.mp href
    rcases mem_moveTo hx hy with ⟨hy, -⟩ | rfl
    · exact List.mem_append_right _ (List.mem_filterMap.mpr ⟨y, hy, href⟩)
    · exact List.mem_append_left _ (Option.mem_toList.mpr href)
  · rcases mem_moveTo hx hy with ⟨hy, -⟩ | rfl
    · exact h.keyed y hy hrunning
    · exact hkeyed hrunning
  · rcases mem_moveTo hx hy with ⟨hy, -⟩ | rfl
    · rcases mem_moveTo hx hz with ⟨hz, -⟩ | rfl
      · exact h.locked y hy z hz gate hyrunning hzrunning
      · exact absurd hyrunning (hlocked gate hzrunning y hy)
    · rcases mem_moveTo hx hz with ⟨hz, -⟩ | rfl
      · exact absurd hzrunning (hlocked gate hyrunning z hz)
      · rfl

/-- A job that takes no guard and keeps its reference, or gives it up. -/
theorem Exclusive.keepGate (h : s.Exclusive) (hx : s.jobs.find? id = some x)
    (hgate : phase.gate = x.phase.gate ∨ phase.gate = none)
    (hphase : phase.isRunning = false) : (s.moveTo id phase).Exclusive := by
  have hnot : ∀ gate, phase ≠ .running gate := fun gate hrunning => by
    rw [hrunning] at hphase
    cases hphase
  refine h.moveTo hx (h.names.subset fun ref href => ?_) (fun hrunning => absurd hrunning (hnot _))
    fun gate hrunning => absurd hrunning (hnot _)
  rcases List.mem_append.mp href with href | href
  · obtain ⟨hkey, hgate'⟩ := CommandJob.reference_eq_some.mp (Option.mem_toList.mp href)
    refine List.mem_filterMap.mpr ⟨x, Table.mem_of_find? hx, CommandJob.reference_eq_some.mpr ?_⟩
    rcases hgate with hgate | hgate
    · exact ⟨hkey, hgate ▸ hgate'⟩
    · rw [hgate] at hgate'
      cases hgate'
  · exact href

theorem Exclusive.remove (h : s.Exclusive) (id : ℕ) : (s.remove id).Exclusive := by
  have hsub : ∀ x ∈ (s.remove id).jobs.rows, x ∈ s.jobs.rows :=
    fun x hx => (Table.mem_deleteWhere.mp hx).1
  refine ⟨h.names.subset fun ref href => ?_, fun x hx => h.keyed x (hsub x hx),
    fun x hx y hy => h.locked x (hsub x hx) y (hsub y hy)⟩
  obtain ⟨x, hx, href⟩ := List.mem_filterMap.mp href
  exact List.mem_filterMap.mpr ⟨x, hsub x hx, href⟩

theorem Exclusive.step (h : s.Exclusive) (a : CommandStep) : (s.step a).Exclusive := by
  cases a with
  | request id connection command =>
    simp only [CommandGates.step]
    split
    · refine ⟨h.names.subset fun ref href => ?_, fun x hx hrunning => ?_,
        fun x hx y hy gate hxrunning hyrunning => ?_⟩
      · obtain ⟨x, hx, href⟩ := List.mem_filterMap.mp href
        rcases Table.mem_insertOrIgnore.mp hx with hx | ⟨rfl, -⟩
        · exact List.mem_filterMap.mpr ⟨x, hx, href⟩
        · cases (CommandJob.reference_eq_some.mp href).2
      · rcases Table.mem_insertOrIgnore.mp hx with hx | ⟨rfl, -⟩
        · exact h.keyed x hx hrunning
        · cases hrunning
      · rcases Table.mem_insertOrIgnore.mp hx with hx | ⟨rfl, -⟩
        · rcases Table.mem_insertOrIgnore.mp hy with hy | ⟨rfl, -⟩
          · exact h.locked x hx y hy gate hxrunning hyrunning
          · cases hyrunning
        · cases hxrunning
    · exact h
  | acquirePermit id =>
    simp only [CommandGates.step]
    split
    · split
      · exact h.keepGate ‹_› (Or.inl rfl) rfl
      · exact h
    · exact h
  | prune id =>
    simp only [CommandGates.step]
    split
    · rename_i own connection command hx
      split
      · rename_i hkey
        exact h.moveTo hx (h.names.subset fun ref href => by
          rcases List.mem_append.mp href with href | href
          · cases (CommandJob.reference_eq_some.mp (Option.mem_toList.mp href)).2
          · exact href) (fun _ => hkey) fun _ h => (by cases h)
      · split
        · exact h
        · refine h.moveTo hx ?_ (fun h => (by cases h)) fun _ h => (by cases h)
          refine (h.names.prune fun ref href => alive_of_reference href).subset fun ref href => ?_
          rcases List.mem_append.mp href with href | href
          · cases (CommandJob.reference_eq_some.mp (Option.mem_toList.mp href)).2
          · exact href
    · exact h
  | upgrade id =>
    simp only [CommandGates.step]
    split
    · rename_i own connection command hx
      split
      · rename_i key hkey
        refine h.moveTo hx ?_ (fun h => (by cases h)) fun _ h => (by cases h)
        refine (h.names.upgrade fun ref href => alive_of_reference href).subset fun ref href => ?_
        rcases List.mem_append.mp href with href | href
        · obtain ⟨hkey', hgate⟩ := CommandJob.reference_eq_some.mp (Option.mem_toList.mp href)
          refine List.mem_cons.mpr (Or.inl (Prod.ext ?_ ?_))
          · exact Option.some.inj (hkey'.symm.trans hkey)
          · exact (Option.some.inj hgate).symm
        · exact List.mem_cons_of_mem _ href
      · exact h
    · exact h
  | lock id =>
    simp only [CommandGates.step]
    split
    · rename_i own connection command gate hx
      split
      · exact h
      · rename_i hfree
        refine h.moveTo hx ?_ (fun h => (by cases h)) fun gate' hrunning y hy hyrunning => hfree ?_
        · refine h.names.subset fun ref href => ?_
          rcases List.mem_append.mp href with href | href
          · obtain ⟨hkey, hgate⟩ := CommandJob.reference_eq_some.mp (Option.mem_toList.mp href)
            exact List.mem_filterMap.mpr ⟨_, Table.mem_of_find? hx,
              CommandJob.reference_eq_some.mpr ⟨hkey, hgate⟩⟩
          · exact href
        · cases hrunning
          exact List.any_eq_true.mpr ⟨y, hy, decide_eq_true hyrunning⟩
    · exact h
  | finish id =>
    simp only [CommandGates.step]
    split
    · exact h.keepGate ‹_› (Or.inl rfl) rfl
    · exact h
  | timeOut id =>
    simp only [CommandGates.step]
    split
    · exact h.keepGate ‹_› (Or.inr rfl) rfl
    · exact h.keepGate ‹_› (Or.inr rfl) rfl
    · exact h.keepGate ‹_› (Or.inl rfl) rfl
    · exact h.keepGate ‹_› (Or.inl rfl) rfl
    · exact h
  | abort id =>
    simp only [CommandGates.step]
    split
    · exact h.remove id
    · exact h.remove id
    · exact h.remove id
    · exact h.keepGate ‹_› (Or.inl rfl) rfl
    · exact h.keepGate ‹_› (Or.inl rfl) rfl
    · exact h
  | release id =>
    simp only [CommandGates.step]
    split
    · split
      · exact h.keepGate ‹_› (Or.inr rfl) rfl
      · exact h.remove id
    · exact h
  | respond id =>
    simp only [CommandGates.step]
    split
    · exact h.remove id
    · exact h

/-- The jobs that execute commands of one key have one gate, and only one of them has its guard. -/
theorem Exclusive.length_executing (h : s.Exclusive) (key : String) :
    (s.executing key).length ≤ 1 := by
  have hrunning : ∀ x ∈ s.executing key, ∃ gate, x ∈ s.jobs.rows ∧
      x.phase = .running (some gate) ∧ (key, gate) ∈ s.references := by
    intro x hx
    obtain ⟨hx, hexecuting⟩ := List.mem_filter.mp hx
    rw [Bool.and_eq_true, decide_eq_true_iff] at hexecuting
    obtain ⟨hkey, hphase⟩ := hexecuting
    unfold CommandPhase.isRunning at hphase
    split at hphase
    · rename_i gate hphase
      cases gate with
      | none => rw [h.keyed x hx hphase] at hkey; cases hkey
      | some gate =>
        refine ⟨gate, hx, hphase, List.mem_filterMap.mpr ⟨x, hx, ?_⟩⟩
        exact CommandJob.reference_eq_some.mpr ⟨hkey, by rw [hphase]; rfl⟩
    · cases hphase
  have hsame : ∀ x ∈ s.executing key, ∀ y ∈ s.executing key, x = y := by
    intro x hx y hy
    obtain ⟨gate, hx, hxrunning, hxref⟩ := hrunning x hx
    obtain ⟨gate', hy, hyrunning, hyref⟩ := hrunning y hy
    have hgate := h.names.target_eq hxref hyref
    subst hgate
    exact h.locked x hx y hy gate hxrunning hyrunning
  have hnodup : (s.executing key).Nodup := (List.Nodup.of_map _ s.jobs.nodup).filter _
  rcases hlist : s.executing key with _ | ⟨x, _ | ⟨y, rest⟩⟩
  · exact Nat.zero_le 1
  · exact Nat.le_refl 1
  · rw [hlist] at hsame hnodup
    have hxy := hsame x List.mem_cons_self y (List.mem_cons_of_mem _ List.mem_cons_self)
    exact absurd (hxy ▸ List.mem_cons_self) (List.nodup_cons.mp hnodup).1

/-- At most one command of a key is handled at a time, in every run. -/
theorem oneExecutes (as : List CommandStep) :
    ∀ s ∈ states step {} as, ∀ key, (s.executing key).length ≤ 1 := by
  intro s hs key
  have hinit : Exclusive {} := ⟨WeakMap.Names.nil, fun _ h => (by cases h), fun _ h => (by cases h)⟩
  exact (invariant_states_of_step (fun _ a h => h.step a) hinit as s hs).length_executing key

/-- The second command gets the guard once the first one has run into its deadline. -/
def timedOutHolder : List CommandStep :=
  [.request 1 1 (.markRead "1"), .request 2 2 (.react "1"), .acquirePermit 1, .acquirePermit 2,
    .prune 1, .upgrade 1, .lock 1, .prune 2, .upgrade 2, .lock 2, .timeOut 1, .lock 2, .release 1]

theorem oneExecutes_timedOutHolder :
    (((states step {} timedOutHolder).map fun s => (s.executing "chat:1").map (·.id))
      = [[], [], [], [], [], [], [], [1], [1], [1], [1], [], [2], [2]]) ∧
    ((run step {} timedOutHolder).executing "chat:1").length ≤ 1 :=
  ⟨by decide, oneExecutes timedOutHolder _ (run_mem_states _ _ _) "chat:1"⟩

end CommandGates

end OmarchyWhatsapp
