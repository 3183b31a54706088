import OmarchyWhatsapp.Database.Operations
import OmarchyWhatsapp.Inbound.DurableInbox
import OmarchyWhatsapp.Outbox.TextOutbox
import OmarchyWhatsapp.Relational.Tasks

/-!
# Logging out

When a connection is over the main loop retires its generation, aborts the jobs of the generation
and waits for the message reducer to reach a barrier; after a logout it then clears the account
data. The jobs, the history ingestion in the thread pool, the delivery of a text and the reducer
go on meanwhile, each as far as its `await`s and its checks of the generation allow.
-/

namespace OmarchyWhatsapp

open Relational

variable (plan : QueryPlan)

/-! ## The account data -/

/-- The tables that `clear_account_data` empties. -/
structure AccountData where
  store : Store := {}
  inbox : InboundInbox := ∅
  textOutbox : TextOutbox := ∅

inductive AccountWrite where
  | op (op : Op)
  | commitInbound (records : List DurableInbound)
  | finishInbound (key : InboundKey)
  | enqueueText (message : PendingTextMessage) (createdAt : ℤ)
  | retryAllTexts
  | completeText (deliveryId : String)
  | failText (deliveryId error : String)

def AccountData.apply (d : AccountData) : AccountWrite → AccountData
  | .op op => { d with store := d.store.apply plan op }
  | .commitInbound records => { d with inbox := (commitInboundBatch d.inbox records).1 }
  | .finishInbound key => { d with inbox := (OmarchyWhatsapp.finishInbound d.inbox key).1 }
  | .enqueueText message createdAt =>
    { d with textOutbox := ((enqueueTextMessage plan d.textOutbox message
        createdAt).toOption.map Prod.fst).getD d.textOutbox }
  | .retryAllTexts => { d with textOutbox := (retryAllTextMessages d.textOutbox).1 }
  | .completeText deliveryId =>
    { d with textOutbox := (completeTextMessage d.textOutbox deliveryId).1 }
  | .failText deliveryId error =>
    { d with textOutbox := (failTextMessage d.textOutbox deliveryId error).1 }

/-! ## What the workers do -/

/-- The work of one piece of code, with its awaits, its checks of the generation and its writes. -/
abbrev AccountItems := List (TaskItem AccountWrite)

abbrev AccountTask := Task ℕ AccountWrite

/-- `canonical_contact_jid`, and what it learns of the contact. -/
def canonicalContactJid (learned : List AccountWrite) : AccountItems :=
  .await :: learned.map .write

/-- `process_history_event`: the identities are scanned in the thread pool and looked up one by
one, and `ingest_history` runs in the thread pool again. -/
def processHistoryEvent (lookups : List (List AccountWrite)) (ingested : List AccountWrite) :
    AccountItems :=
  [.register, .await, .check] ++
    lookups.flatMap (fun learned => .check :: canonicalContactJid learned) ++
    [.detach ingested, .await, .check]

/-- `process_contact_event`. -/
def processContactEvent (names learned : List AccountWrite) : AccountItems :=
  [.register, .check] ++ names.map .write ++ canonicalContactJid learned

/-- `send_claimed_text` with a successful `send_message`, and the completion of the text. -/
def sendClaimedText (learned : List AccountWrite) (message : Message) (chatName : String)
    (isGroup : Bool) (deliveryId : String) : AccountItems :=
  canonicalContactJid learned ++
    [.await, .write (.op (.insertMessage message chatName isGroup false)),
      .write (.completeText deliveryId)]

/-- `receive_message` of an accepted message and `finish_inbound_reduction`. -/
def receiveInbound (learned persisted : List AccountWrite) (key : InboundKey) : AccountItems :=
  canonicalContactJid learned ++ [.await, .check] ++ persisted.map .write ++
    [.write (.finishInbound key)]

/-! ## The main loop -/

inductive LoopPhase where
  | connecting
  | running
  | retired
  | aborted
  | draining
  | drained
  | loggedOut
deriving DecidableEq, Repr

/-- The queue of the message reducer. -/
inductive ReducerWork where
  | message (generation : ℕ) (items : AccountItems)
  | barrier

/-- The account data, the main loop with the generation that has begun last, and the workers.
`commands` are the writes of the user's commands since the data was cleared. -/
structure Logout where
  data : AccountData := {}
  clock : RevisionClock := {}
  generation : ℕ := 0
  phase : LoopPhase := .connecting
  /-- Handlers, jobs and what runs in the thread pool. -/
  tasks : List AccountTask := []
  queue : List ReducerWork := []
  reducing : Option AccountTask := none
  delivering : Option AccountTask := none
  commands : List AccountWrite := []

inductive LogoutStep where
  | beginGeneration
  | retireGeneration
  | abortAll
  | sendBarrier
  /-- `clear_account_data`. -/
  | clear
  /-- A handler of the client runs for an event. -/
  | event (items : AccountItems)
  /-- The durability hook of the client commits a batch. -/
  | commitInbound (records : List DurableInbound)
  | queueMessage (items : AccountItems)
  | takeWork
  /-- The text outbox claims a text; `items` are its delivery. -/
  | claimText (items : AccountItems)
  | command (write : AccountWrite)
  | advanceTask (i : ℕ)
  | advanceReducer
  | advanceDelivery

namespace Logout

/-- The task runs its next item. -/
def advance (s : Logout) (t : AccountTask) : Task.Progress ℕ AccountWrite :=
  t.advance (s.clock.isCurrent t.owner)

/-- Writes of a worker. -/
def write (s : Logout) (written : Option AccountWrite) : Logout :=
  { s with data := written.elim s.data (s.data.apply plan) }

def takeWork (s : Logout) : Logout :=
  match s.queue with
  | .message generation items :: queue =>
    -- `reduce_message` and the drain pass look at the generation first
    { s with queue, reducing := some { owner := generation, items := .check :: items } }
  | .barrier :: queue =>
    { s with queue, phase := if s.phase = .draining then .drained else s.phase }
  | [] => s

def step (s : Logout) : LogoutStep → Logout
  | .beginGeneration =>
    if s.phase = .connecting ∨ s.phase = .drained ∨ s.phase = .loggedOut then
      { s with
        clock := s.clock.beginGeneration.1
        generation := s.clock.beginGeneration.2
        phase := .running }
    else s
  | .retireGeneration =>
    if s.phase = .running then
      { s with clock := s.clock.retireGeneration s.generation, phase := .retired }
    else s
  | .abortAll =>
    if s.phase = .retired then
      { s with
        tasks := s.tasks.map (fun t => if t.owner = s.generation then t.cancel else t)
        phase := .aborted }
    else s
  | .sendBarrier =>
    if s.phase = .aborted then { s with queue := s.queue ++ [.barrier], phase := .draining } else s
  | .clear =>
    if s.phase = .drained then { s with data := {}, commands := [], phase := .loggedOut } else s
  | .event items =>
    { s with tasks := s.tasks ++ [{ owner := s.generation, items := .check :: items }] }
  | .commitInbound records =>
    -- the client is shut down before its generation is retired
    if s.phase = .running then
      { s with tasks := s.tasks ++
          [{ owner := s.generation, items := [.write (.commitInbound records)] }] }
    else s
  | .queueMessage items => { s with queue := s.queue ++ [.message s.generation items] }
  | .takeWork => if s.reducing.isNone then s.takeWork else s
  | .claimText items =>
    match s.delivering, claimTextMessage plan s.data.textOutbox with
    | none, (textOutbox, some _) =>
      { s with
        data := { s.data with textOutbox }
        delivering := some { owner := s.generation, items } }
    | _, _ => s
  | .command write =>
    { s with data := s.data.apply plan write, commands := s.commands ++ [write] }
  | .advanceTask i =>
    match s.tasks[i]? with
    | some t =>
      let progress := s.advance t
      { s with tasks := progress.left.toList ++ s.tasks.eraseIdx i ++ progress.started.toList }.write
        plan progress.written
    | none => s
  | .advanceReducer =>
    match s.reducing with
    | some t => { s with reducing := (s.advance t).left }.write plan (s.advance t).written
    | none => s
  | .advanceDelivery =>
    match s.delivering with
    | some t => { s with delivering := (s.advance t).left }.write plan (s.advance t).written
    | none => s

/-- From the clearing of the account data until the next account connects the tables hold what
the user's commands have put there, and nothing else. -/
def Isolated (s : Logout) : Prop :=
  s.phase = .loggedOut → s.data = s.commands.foldl (AccountData.apply plan) {}

/-- When the data is cleared, no handler, no job, no ingestion in the thread pool and no delivery
of a text comes to a write before an await at which it is aborted or a check of the generation;
and no text that was queued after that is claimed by the old connection. -/
def Undisturbed (s : Logout) : LogoutStep → Prop
  | .retireGeneration => s.clock.generation < u64Max
  | .clear => s.phase = .drained →
    (∀ t ∈ s.tasks, t.stopped = true) ∧ ∀ t ∈ s.delivering, t.stopped = true
  | .claimText _ => s.phase = .loggedOut → nextText plan s.data.textOutbox = none
  | _ => True

/-! ## Steps -/

variable {plan : QueryPlan} {s : Logout}

/-- What is known of the generations of the workers, and of the workers once the reducer is
drained and the data is cleared. -/
structure Sound (plan : QueryPlan) (s : Logout) : Prop where
  begun : s.generation ≤ s.clock.generation
  bounded : s.clock.generation ≤ u64Max
  running : s.phase = .running → s.clock.generation = s.generation
  ended : s.phase ≠ .running → ∀ generation ≤ s.generation, s.clock.isCurrent generation = false
  tasks : ∀ t ∈ s.tasks, t.owner ≤ s.generation
  reducing : ∀ t ∈ s.reducing, t.owner ≤ s.generation
  delivering : ∀ t ∈ s.delivering, t.owner ≤ s.generation
  queue : ∀ generation items, .message generation items ∈ s.queue → generation ≤ s.generation
  drained : s.phase = .drained ∨ s.phase = .loggedOut → ∀ t ∈ s.reducing, t.stopped = true
  cleared : s.phase = .loggedOut →
    (∀ t ∈ s.tasks, t.stopped = true) ∧ ∀ t ∈ s.delivering, t.stopped = true
  isolated : s.Isolated plan

theorem saturatingSucc_le (value : ℕ) : saturatingSucc value ≤ u64Max := Nat.min_le_right _ _

theorem le_saturatingSucc {value : ℕ} (h : value ≤ u64Max) : value ≤ saturatingSucc value :=
  le_min (Nat.le_succ value) h

/-- The owner of a task is not current once its generation is over. -/
theorem Sound.advance (h : s.Sound plan) (hover : s.phase ≠ .running) {t : AccountTask}
    (howner : t.owner ≤ s.generation) : s.advance t = t.advance false := by
  rw [Logout.advance, h.ended hover t.owner howner]

theorem Sound.beginGeneration (h : s.Sound plan) :
    (s.step plan .beginGeneration).Sound plan := by
  rw [Logout.step]
  split_ifs
  · have hgrown : s.generation ≤ saturatingSucc s.clock.generation :=
      h.begun.trans (le_saturatingSucc h.bounded)
    exact {
      begun := Nat.le_refl _
      bounded := saturatingSucc_le _
      running := fun _ => rfl
      ended := fun hover => absurd rfl hover
      tasks := fun t ht => (h.tasks t ht).trans hgrown
      reducing := fun t ht => (h.reducing t ht).trans hgrown
      delivering := fun t ht => (h.delivering t ht).trans hgrown
      queue := fun generation items hwork => (h.queue generation items hwork).trans hgrown
      drained := by simp
      cleared := by simp
      isolated := fun hphase => by cases hphase }
  · exact h

theorem Sound.retireGeneration (h : s.Sound plan) (hbelow : s.clock.generation < u64Max) :
    (s.step plan .retireGeneration).Sound plan := by
  rw [Logout.step]
  split_ifs with hrunning
  · have hclock : (s.clock.retireGeneration s.generation).generation = s.generation + 1 := by
      rw [RevisionClock.retireGeneration, if_pos (h.running hrunning), h.running hrunning]
      exact saturatingSucc_of_lt (h.running hrunning ▸ hbelow)
    exact { h with
      begun := by
        show s.generation ≤ (s.clock.retireGeneration s.generation).generation
        omega
      bounded := by
        show (s.clock.retireGeneration s.generation).generation ≤ u64Max
        have hcurrent := h.running hrunning
        omega
      running := fun hphase => by cases hphase
      ended := fun _ generation hle => by
        show (s.clock.retireGeneration s.generation).isCurrent generation = false
        have hne : s.generation + 1 ≠ generation := (Nat.lt_succ_of_le hle).ne'
        rw [RevisionClock.isCurrent, hclock, beq_false_of_ne hne, Bool.and_false]
      drained := by simp
      cleared := by simp
      isolated := fun hphase => by cases hphase }
  · exact h

theorem Sound.abortAll (h : s.Sound plan) : (s.step plan .abortAll).Sound plan := by
  rw [Logout.step]
  split_ifs with hretired
  · exact { h with
      running := fun hphase => by cases hphase
      ended := fun _ => h.ended (by rw [hretired]; decide)
      tasks := fun t ht => by
        obtain ⟨t', ht', rfl⟩ := List.mem_map.mp ht
        split_ifs
        · exact h.tasks t' ht'
        · exact h.tasks t' ht'
      drained := by simp
      cleared := by simp
      isolated := fun hphase => by cases hphase }
  · exact h

theorem Sound.sendBarrier (h : s.Sound plan) : (s.step plan .sendBarrier).Sound plan := by
  rw [Logout.step]
  split_ifs with haborted
  · exact { h with
      running := fun hphase => by cases hphase
      ended := fun _ => h.ended (by rw [haborted]; decide)
      queue := fun generation items hwork => by
        rcases List.mem_append.mp hwork with hwork | hbarrier
        · exact h.queue generation items hwork
        · simp at hbarrier
      drained := by simp
      cleared := by simp
      isolated := fun hphase => by cases hphase }
  · exact h

theorem Sound.clear (h : s.Sound plan) (hguard : s.Undisturbed plan .clear) :
    (s.step plan .clear).Sound plan := by
  rw [Logout.step]
  split_ifs with hdrained
  · exact { h with
      running := fun hphase => by cases hphase
      ended := fun _ => h.ended (by rw [hdrained]; decide)
      drained := fun _ => h.drained (Or.inl hdrained)
      cleared := fun _ => hguard hdrained
      isolated := fun _ => rfl }
  · exact h

theorem Sound.takeWork (h : s.Sound plan) : (s.step plan .takeWork).Sound plan := by
  rw [Logout.step]
  split_ifs with hidle
  · rw [Option.isNone_iff_eq_none] at hidle
    unfold Logout.takeWork
    split
    · rename_i generation items queue hqueue
      have hrest : ∀ work ∈ queue, work ∈ s.queue :=
        fun work hwork => hqueue ▸ List.mem_cons_of_mem _ hwork
      exact { h with
        reducing := fun t ht => by
          cases ht
          exact h.queue generation items (hqueue ▸ List.mem_cons_self)
        queue := fun generation items hwork => h.queue generation items (hrest _ hwork)
        drained := fun _ t ht => by
          cases ht
          rfl }
    · rename_i queue hqueue
      have hrest : ∀ work ∈ queue, work ∈ s.queue :=
        fun work hwork => hqueue ▸ List.mem_cons_of_mem _ hwork
      by_cases hdraining : s.phase = .draining
      · rw [if_pos hdraining]
        exact { h with
          running := fun hphase => by cases hphase
          ended := fun _ => h.ended (by rw [hdraining]; decide)
          queue := fun generation items hwork => h.queue generation items (hrest _ hwork)
          -- the reducer reaches the barrier with nothing in hand
          drained := fun _ t ht => by
            rw [hidle] at ht
            cases ht
          cleared := fun hphase => by cases hphase
          isolated := fun hphase => by cases hphase }
      · rw [if_neg hdraining]
        exact { h with
          queue := fun generation items hwork => h.queue generation items (hrest _ hwork) }
    · exact h
  · exact h

theorem Sound.event (h : s.Sound plan) (items : AccountItems) :
    (s.step plan (.event items)).Sound plan := by
  rw [Logout.step]
  exact { h with
    tasks := fun t ht => by
      rcases List.mem_append.mp ht with ht | hnew
      · exact h.tasks t ht
      · rw [List.mem_singleton.mp hnew]
    cleared := fun hphase => by
      refine ⟨fun t ht => ?_, (h.cleared hphase).2⟩
      rcases List.mem_append.mp ht with ht | hnew
      · exact (h.cleared hphase).1 t ht
      · rw [List.mem_singleton.mp hnew]
        rfl }

theorem Sound.commitInbound (h : s.Sound plan) (records : List DurableInbound) :
    (s.step plan (.commitInbound records)).Sound plan := by
  rw [Logout.step]
  split_ifs with hrunning
  · exact { h with
      tasks := fun t ht => by
        rcases List.mem_append.mp ht with ht | hnew
        · exact h.tasks t ht
        · rw [List.mem_singleton.mp hnew]
      cleared := fun hphase => by
        rw [show s.phase = .loggedOut from hphase] at hrunning
        cases hrunning }
  · exact h

theorem Sound.queueMessage (h : s.Sound plan) (items : AccountItems) :
    (s.step plan (.queueMessage items)).Sound plan := by
  rw [Logout.step]
  exact { h with
    queue := fun generation items' hwork => by
      rcases List.mem_append.mp hwork with hwork | hnew
      · exact h.queue generation items' hwork
      · cases List.mem_singleton.mp hnew
        exact Nat.le_refl _ }

theorem Sound.claimText (h : s.Sound plan) {items : AccountItems}
    (hguard : s.Undisturbed plan (.claimText items)) :
    (s.step plan (.claimText items)).Sound plan := by
  rw [Logout.step]
  split
  · rename_i textOutbox message hidle hclaim
    have hphase : s.phase ≠ .loggedOut := by
      intro hphase
      rw [claimTextMessage, hguard hphase] at hclaim
      cases hclaim
    exact { h with
      delivering := fun t ht => by
        cases ht
        exact Nat.le_refl _
      cleared := fun hcleared => absurd hcleared hphase
      isolated := fun hcleared => absurd hcleared hphase }
  · exact h

theorem Sound.command (h : s.Sound plan) (write : AccountWrite) :
    (s.step plan (.command write)).Sound plan := by
  rw [Logout.step]
  exact { h with
    isolated := fun hphase => by
      show s.data.apply plan write = (s.commands ++ [write]).foldl (AccountData.apply plan) {}
      rw [List.foldl_append, ← h.isolated hphase]
      rfl }

/-- The data stays as it is if a worker writes nothing once the data is cleared. -/
theorem isolated_write (h : s.Sound plan) {s' : Logout} {written : Option AccountWrite}
    (hdata : s'.data = written.elim s.data (s.data.apply plan)) (hphase : s'.phase = s.phase)
    (hcommands : s'.commands = s.commands) (hnone : s.phase = .loggedOut → written = none) :
    s'.Isolated plan := by
  intro hcleared
  rw [hphase] at hcleared
  rw [hdata, hcommands, hnone hcleared]
  exact h.isolated hcleared

theorem Sound.advanceTask (h : s.Sound plan) (i : ℕ) :
    (s.step plan (.advanceTask i)).Sound plan := by
  rw [Logout.step]
  split
  · rename_i t hi
    have ht : t ∈ s.tasks := List.mem_of_getElem? hi
    have howner := h.tasks t ht
    have hquiet : s.phase = .loggedOut → (s.advance t).written = none ∧
        (∀ left ∈ (s.advance t).left, left.stopped = true) ∧
        ∀ started ∈ (s.advance t).started, started.stopped = true := by
      intro hphase
      rw [h.advance (by rw [hphase]; decide) howner]
      exact Task.stopped_advance ((h.cleared hphase).1 t ht)
    have hcases : ∀ t' ∈ (s.advance t).left.toList ++ s.tasks.eraseIdx i ++
        (s.advance t).started.toList, t' ∈ (s.advance t).left ∨ t' ∈ s.tasks ∨
          t' ∈ (s.advance t).started := by
      intro t' ht'
      rcases List.mem_append.mp ht' with ht' | hstarted
      · rcases List.mem_append.mp ht' with hleft | hother
        · exact Or.inl (Option.mem_toList.mp hleft)
        · exact Or.inr (Or.inl (List.mem_of_mem_eraseIdx hother))
      · exact Or.inr (Or.inr (Option.mem_toList.mp hstarted))
    exact { h with
      tasks := fun t' ht' => by
        rcases hcases t' ht' with hleft | hother | hstarted
        · exact (Task.owner_left hleft).trans_le howner
        · exact h.tasks t' hother
        · exact (Task.owner_started hstarted).trans_le howner
      cleared := fun hphase => by
        obtain ⟨-, hleft, hstarted⟩ := hquiet hphase
        refine ⟨fun t' ht' => ?_, (h.cleared hphase).2⟩
        rcases hcases t' ht' with ht' | ht' | ht'
        · exact hleft t' ht'
        · exact (h.cleared hphase).1 t' ht'
        · exact hstarted t' ht'
      isolated := isolated_write h rfl rfl rfl fun hphase => (hquiet hphase).1 }
  · exact h

theorem Sound.advanceReducer (h : s.Sound plan) : (s.step plan .advanceReducer).Sound plan := by
  rw [Logout.step]
  split
  · rename_i t hreducing
    have howner := h.reducing t hreducing
    have hquiet : s.phase = .drained ∨ s.phase = .loggedOut → (s.advance t).written = none ∧
        ∀ left ∈ (s.advance t).left, left.stopped = true := by
      intro hphase
      have hover : s.phase ≠ .running := by
        rcases hphase with hphase | hphase <;> rw [hphase] <;> decide
      rw [h.advance hover howner]
      obtain ⟨hwritten, hleft, -⟩ := Task.stopped_advance (h.drained hphase t hreducing)
      exact ⟨hwritten, hleft⟩
    exact { h with
      reducing := fun left hleft => (Task.owner_left hleft).trans_le howner
      drained := fun hphase => (hquiet hphase).2
      isolated := isolated_write h rfl rfl rfl fun hphase => (hquiet (Or.inr hphase)).1 }
  · exact h

theorem Sound.advanceDelivery (h : s.Sound plan) : (s.step plan .advanceDelivery).Sound plan := by
  rw [Logout.step]
  split
  · rename_i t hdelivering
    have howner := h.delivering t hdelivering
    have hquiet : s.phase = .loggedOut → (s.advance t).written = none ∧
        ∀ left ∈ (s.advance t).left, left.stopped = true := by
      intro hphase
      rw [h.advance (by rw [hphase]; decide) howner]
      obtain ⟨hwritten, hleft, -⟩ :=
        Task.stopped_advance ((h.cleared hphase).2 t hdelivering)
      exact ⟨hwritten, hleft⟩
    exact { h with
      delivering := fun left hleft => (Task.owner_left hleft).trans_le howner
      cleared := fun hphase => ⟨(h.cleared hphase).1, (hquiet hphase).2⟩
      isolated := isolated_write h rfl rfl rfl fun hphase => (hquiet hphase).1 }
  · exact h

theorem Sound.step (h : s.Sound plan) (a : LogoutStep) (hguard : s.Undisturbed plan a) :
    (s.step plan a).Sound plan := by
  cases a with
  | beginGeneration => exact h.beginGeneration
  | retireGeneration => exact h.retireGeneration hguard
  | abortAll => exact h.abortAll
  | sendBarrier => exact h.sendBarrier
  | clear => exact h.clear hguard
  | event items => exact h.event items
  | commitInbound records => exact h.commitInbound records
  | queueMessage items => exact h.queueMessage items
  | takeWork => exact h.takeWork
  | claimText items => exact h.claimText hguard
  | command write => exact h.command write
  | advanceTask i => exact h.advanceTask i
  | advanceReducer => exact h.advanceReducer
  | advanceDelivery => exact h.advanceDelivery

/-! ## Runs -/

theorem sound_start (plan : QueryPlan) : ({} : Logout).Sound plan where
  begun := Nat.le_refl _
  bounded := Nat.zero_le _
  running := by simp
  ended := fun _ generation hle => by
    rw [Nat.le_zero.mp hle]
    rfl
  tasks := by simp
  reducing := by simp
  delivering := by simp
  queue := by simp
  drained := by simp
  cleared := by simp
  isolated := fun _ => rfl

/-- In a run whose steps are undisturbed the cleared tables hold nothing of the old account until
the next one connects. -/
theorem isolated_of_undisturbed (plan : QueryPlan) (as : List LogoutStep)
    (hguarded : Guarded (step plan) (Undisturbed plan) {} as) :
    ∀ s ∈ states (step plan) {} as, s.Isolated plan := fun s hs =>
  (invariant_states (fun _ a h hguard => h.step a hguard) (sound_start plan) hguarded s hs).isolated

/-- The handler and the job of a history event with one conversation, up to the start of the
ingestion in the thread pool. -/
def historyStarted : List LogoutStep :=
  [.beginGeneration,
    .event (processHistoryEvent []
      [.op (.insertHistoryConversation (directConversation "1" "Ann" [("A1", "hello", 10)]))]),
    .advanceTask 0, .advanceTask 0, .advanceTask 0, .advanceTask 0, .advanceTask 0]

/-- The end of a connection, and the clearing of the account data. -/
def logoutSequence : List LogoutStep :=
  [.retireGeneration, .abortAll, .sendBarrier, .takeWork, .clear]

/-- The ingestion ends before the logout; the job that awaits it is aborted, a contact event has
not reached its check, and the reducer gives up a message on its way to the barrier. -/
def quietLogout : List LogoutStep :=
  historyStarted ++ [.advanceTask 1, .advanceTask 0,
    .event (processContactEvent [.op (.updateContactName "1" "Ann")] []), .advanceTask 1,
    .queueMessage (receiveInbound []
      [.op (.insertMessage (directMessage "1" "A2" "hi" 11) "Ann" false true)] ⟨"1", "1", "A2"⟩),
    .takeWork, .advanceReducer, .advanceReducer,
    .retireGeneration, .abortAll, .sendBarrier, .advanceReducer, .advanceReducer, .takeWork, .clear]

theorem isolated_of_undisturbed_quiet :
    (run (step .stable) {} quietLogout).phase = .loggedOut ∧
      ∀ s ∈ states (step .stable) {} quietLogout, s.Isolated .stable := by
  refine ⟨by decide, isolated_of_undisturbed .stable quietLogout ?_⟩
  simp only [quietLogout, historyStarted, List.cons_append, List.nil_append, Guarded,
    Undisturbed, true_and, and_true]
  exact ⟨by decide, fun _ => by decide⟩

/-- The text that the user sends before the logout. -/
def queuedText : PendingTextMessage := ⟨none, [], "D1", "1", "hello", "A1"⟩

/-- A history ingestion, and the delivery of a text, go on after the data is cleared. -/
theorem ingestion_and_delivery_outlive_logout :
    (¬∀ s ∈ states (step .stable) {} (historyStarted ++ logoutSequence ++ [.advanceTask 1]),
      s.Isolated .stable) ∧
    ¬∀ s ∈ states (step .stable) {} ([.beginGeneration, .command (.enqueueText queuedText 10),
        .claimText (sendClaimedText [] (directMessage "1" "A1" "hello" 11) "1" false "D1"),
        .advanceDelivery] ++ logoutSequence ++ [.advanceDelivery, .advanceDelivery]),
      s.Isolated .stable := by
  constructor
  · intro h
    have hcleared := h _ (run_mem_states _ _ _) (by decide)
    exact absurd (congrArg (·.store.messages.rows.length) hcleared) (by decide)
  · intro h
    have hcleared := h _ (run_mem_states _ _ _) (by decide)
    exact absurd (congrArg (·.store.messages.rows.length) hcleared) (by decide)

end Logout

end OmarchyWhatsapp
