import OmarchyWhatsapp.Relational.Run
import OmarchyWhatsapp.Session.Presence

/-!
# The device stays unavailable during the catch-up

The mark of a pending catch-up is armed when a generation begins and cleared by its first
`OfflineSyncCompleted`. A connection is covered by it only if it is established while the mark is
armed and no completion of the generation is on its way.
-/

namespace OmarchyWhatsapp

open Relational

/-! ## The catch-up of a connection -/

/-- Whether a catch-up is pending after a mark; `none` if the device is advertised during one. -/
def PresenceMark.next : Bool → PresenceMark → Option Bool
  | _, .established => some true
  | _, .caughtUp => some false
  | _, .lost => some false
  | true, .setAvailable => none
  | pending, _ => some pending

def catchingUp (trace : List PresenceMark) : Option Bool := trace.foldlM PresenceMark.next false

theorem catchingUp_append {trace : List PresenceMark} {pending : Bool}
    (h : catchingUp trace = some pending) (m : PresenceMark) :
    catchingUp (trace ++ [m]) = PresenceMark.next pending m := by
  unfold catchingUp at h ⊢
  rw [List.foldlM_append, h]
  show (PresenceMark.next pending m).bind some = PresenceMark.next pending m
  cases PresenceMark.next pending m <;> rfl

namespace PresenceDaemon

variable {direct : String → Bool} {s : PresenceDaemon}

/-- The catch-up is marked as pending, and no completion is on its way that would clear the
mark. -/
def Armed (s : PresenceDaemon) : Prop :=
  s.presenceSyncPending = true ∧
    ∀ event ∈ s.inbox ++ s.appEvents, event ≠ (s.generation, .offlineSyncCompleted)

instance (s : PresenceDaemon) : Decidable s.Armed := inferInstanceAs (Decidable (_ ∧ _))

/-- Every connection is established while the mark is armed. -/
def Covered (s : PresenceDaemon) : PresenceStep → Prop
  | .establish => s.loop = .running → s.connection = none → s.Armed
  | _ => True

instance (s : PresenceDaemon) (a : PresenceStep) : Decidable (s.Covered a) := by
  apply PresenceStep.casesOn (motive := fun a => Decidable (s.Covered a)) a
  all_goals
    intros
    dsimp only [Covered]
    infer_instance

/-- The device was never advertised during a catch-up, and the mark covers the catch-up that is
pending now. -/
structure Respected (s : PresenceDaemon) : Prop where
  trace : catchingUp s.trace = some (decide (s.connection = some false))
  armed : s.connection = some false → s.Armed
  running : s.connection ≠ none → s.loop = .running

/-! ## Steps -/

theorem Armed.of_events (h : s.Armed) {s' : PresenceDaemon}
    (hgeneration : s'.generation = s.generation)
    (hsync : s'.syncGeneration = s.syncGeneration)
    (hevents : ∀ event ∈ s'.inbox ++ s'.appEvents,
      event ∈ s.inbox ++ s.appEvents ∨ event.2 ≠ .offlineSyncCompleted) : s'.Armed := by
  refine ⟨?_, fun event hevent => ?_⟩
  · rw [presenceSyncPending, isCurrent, hgeneration, hsync]
    exact h.1
  · rw [hgeneration]
    rcases hevents event hevent with hold | hother
    · exact h.2 event hold
    · rintro rfl
      exact hother rfl

/-- Only the event that is reported is new. -/
theorem mem_report {event : UpstreamEvent} {x : ℕ × UpstreamEvent}
    (hx : x ∈ (s.report event).inbox ++ (s.report event).appEvents) :
    x ∈ s.inbox ++ s.appEvents ∨ x.2 = event := by
  rcases List.mem_append.mp hx with hx | hx
  · rcases List.mem_append.mp hx with hx | hx
    · exact Or.inl (List.mem_append_left _ hx)
    · rw [List.mem_singleton.mp hx]
      exact Or.inr rfl
  · exact Or.inl (List.mem_append_right _ hx)

/-- What does not touch the connection keeps the mark, if it adds no completion. -/
theorem Respected.quiet (h : s.Respected) {s' : PresenceDaemon} (htrace : s'.trace = s.trace)
    (hconnection : s'.connection = s.connection) (hloop : s'.loop = s.loop)
    (hgeneration : s'.generation = s.generation) (hsync : s'.syncGeneration = s.syncGeneration)
    (hevents : ∀ event ∈ s'.inbox ++ s'.appEvents,
      event ∈ s.inbox ++ s.appEvents ∨ event.2 ≠ .offlineSyncCompleted) : s'.Respected where
  trace := by
    rw [htrace, hconnection]
    exact h.trace
  armed := fun hpending => (h.armed (hconnection ▸ hpending)).of_events hgeneration hsync hevents
  running := fun hup => hloop.trans (h.running (hconnection ▸ hup))

theorem Respected.report (h : s.Respected) {event : UpstreamEvent}
    (hevent : event ≠ .offlineSyncCompleted) : (s.report event).Respected :=
  h.quiet rfl rfl rfl rfl rfl fun _ hx => (mem_report hx).imp_right fun hnew => by
    rw [hnew]
    exact hevent

/-- The tasks and the intents of the connections are not part of it. -/
theorem Respected.of_tasks (h : s.Respected) (tasks : List Reconciliation)
    (intents : ConnectionIntents) : Respected { s with tasks, intents } :=
  h.quiet rfl rfl rfl rfl rfl fun _ hevent => Or.inl hevent

/-- A call that is allowed at any time. -/
theorem Respected.mark (h : s.Respected) {m : PresenceMark}
    (hm : ∀ pending, PresenceMark.next pending m = some pending) : (s.mark m).Respected where
  trace := (catchingUp_append h.trace m).trans (hm _)
  armed := h.armed
  running := h.running

/-- The device is advertised when nothing is pending. -/
theorem Respected.setAvailable (h : s.Respected) (hpending : s.presenceSyncPending = false) :
    (s.mark .setAvailable).Respected where
  trace := by
    have hup : s.connection ≠ some false := by
      intro hup
      rw [(h.armed hup).1] at hpending
      cases hpending
    refine (catchingUp_append h.trace .setAvailable).trans ?_
    show _ = some (decide (s.connection = some false))
    rw [decide_eq_false hup]
    rfl
  armed := h.armed
  running := h.running

theorem effective_iff {requested pending : Bool} :
    effectivePresenceAvailable requested pending = true ↔ requested = true ∧ pending = false := by
  cases requested <;> cases pending <;> decide

theorem Respected.callPresence (h : s.Respected) (task : Reconciliation) :
    (s.callPresence task).Respected := by
  unfold PresenceDaemon.callPresence
  split
  · split
    · rename_i heffective
      split
      · exact h
      · exact h.setAvailable (effective_iff.mp heffective).2
    · exact h.mark fun pending => by cases pending <;> rfl
  · exact h

theorem Respected.advance (h : s.Respected) (task : Reconciliation) :
    (s.advance direct task).Respected := by
  unfold PresenceDaemon.advance
  split
  · exact h.of_tasks _ _
  · split
    · exact h.of_tasks _ _
    · exact (h.callPresence task).of_tasks _ _
  · exact h

theorem Respected.callChat (h : s.Respected) (task : Reconciliation) (jid : String) :
    (s.callChat task jid).Respected := by
  unfold PresenceDaemon.callChat
  split
  · split
    · exact (h.mark fun pending => by cases pending <;> rfl).of_tasks _ _
    · split
      · exact (h.mark fun pending => by cases pending <;> rfl).of_tasks _ _
      · exact h
  · exact h

/-- The first completion of a generation clears the mark: then no catch-up is pending. -/
theorem Respected.handleAppEvent (h : s.Respected) {generation : ℕ} {event : UpstreamEvent}
    (hcompleted : s.connection = some false → s.isCurrent generation = true →
      event ≠ .offlineSyncCompleted) (hcurrent : s.isCurrent generation = true) :
    (s.handleAppEvent generation event).Respected := by
  cases event with
  | connected => exact h
  | disconnected => exact h
  | selfPushNameUpdated newName =>
    rw [PresenceDaemon.handleAppEvent]
    split
    · rename_i heffective
      exact h.setAvailable (effective_iff.mp heffective.1).2
    · exact h
  | offlineSyncCompleted =>
    have hup : s.connection ≠ some false := fun hup => hcompleted hup hcurrent rfl
    by_cases hfirst : s.syncGeneration = generation
    · rw [PresenceDaemon.handleAppEvent, finishPresenceSync, if_pos hfirst]
      exact ⟨h.trace, fun hpending => absurd hpending hup, h.running⟩
    · rw [PresenceDaemon.handleAppEvent, finishPresenceSync, if_neg hfirst]
      exact h

theorem Respected.handleEvent (h : s.Respected) {generation : ℕ} {event : UpstreamEvent}
    (hcompleted : s.connection = some false → s.isCurrent generation = true →
      event ≠ .offlineSyncCompleted) : (s.handleEvent generation event).Respected := by
  unfold PresenceDaemon.handleEvent
  split
  · exact h
  · rename_i hcurrent
    rw [Bool.not_eq_false] at hcurrent
    split
    · exact h.quiet rfl rfl rfl rfl rfl fun _ hevent => Or.inl hevent
    · exact h.quiet rfl rfl rfl rfl rfl fun _ hevent => Or.inl hevent
    · refine ⟨h.trace, fun hup => ?_, h.running⟩
      refine (h.armed hup).of_events rfl rfl fun x hx => ?_
      rw [← List.append_assoc, List.mem_append, List.mem_singleton] at hx
      rcases hx with hx | rfl
      · exact Or.inl hx
      · exact Or.inr (hcompleted hup hcurrent)

theorem Respected.loseConnection (h : s.Respected) : s.loseConnection.Respected := by
  unfold PresenceDaemon.loseConnection
  split
  · exact h
  · exact ⟨(catchingUp_append h.trace .lost).trans rfl, nofun, fun hup => absurd rfl hup⟩

theorem connection_loseConnection (s : PresenceDaemon) : s.loseConnection.connection = none := by
  unfold PresenceDaemon.loseConnection
  split
  · assumption
  · rfl

/-- A completion of the current generation is not on its way while a catch-up is pending. -/
theorem Respected.not_completed (h : s.Respected) {generation : ℕ} {event : UpstreamEvent}
    (hmem : (generation, event) ∈ s.inbox ++ s.appEvents) :
    s.connection = some false → s.isCurrent generation = true →
      event ≠ .offlineSyncCompleted := by
  rintro hup hcurrent rfl
  have hgeneration : s.generation = generation :=
    of_decide_eq_true (Bool.and_eq_true_iff.mp hcurrent).2
  exact (h.armed hup).2 _ hmem (by rw [hgeneration])

/-- There is a connection only while the loop runs. -/
theorem Respected.down (h : s.Respected) (hloop : s.loop ≠ .running) : s.connection = none := by
  by_contra hup
  exact hloop (h.running hup)

/-- The oldest event of the connection reaches the daemon. -/
theorem Respected.deliver (h : s.Respected) {generation : ℕ} {event : UpstreamEvent}
    {rest : List (ℕ × UpstreamEvent)} (hinbox : s.inbox = (generation, event) :: rest) :
    ({ s with inbox := rest }.handleEvent generation event).Respected := by
  have hrest : Respected { s with inbox := rest } := by
    refine h.quiet rfl rfl rfl rfl rfl fun x hx => Or.inl ?_
    rw [hinbox]
    exact List.mem_cons_of_mem _ hx
  refine hrest.handleEvent (h.not_completed ?_)
  rw [hinbox]
  exact List.mem_cons_self

/-- The oldest app event is taken from the queue. -/
theorem Respected.dequeue (h : s.Respected) {event : ℕ × UpstreamEvent}
    {rest : List (ℕ × UpstreamEvent)} (hevents : s.appEvents = event :: rest) :
    Respected { s with appEvents := rest } := by
  refine h.quiet rfl rfl rfl rfl rfl fun x hx => Or.inl ?_
  rw [hevents]
  exact (List.mem_append.mp hx).elim (List.mem_append_left _) fun hx =>
    List.mem_append_right _ (List.mem_cons_of_mem _ hx)

theorem Respected.step (h : s.Respected) {a : PresenceStep} (ha : s.Covered a) :
    (s.step direct a).Respected := by
  cases a with
  | begin =>
    rw [PresenceDaemon.step]
    split
    · rename_i hhalted
      have hdown : s.connection = none := h.down (by rw [hhalted]; decide)
      exact ⟨h.trace, fun hup => absurd (hdown.symm.trans hup) nofun, fun _ => rfl⟩
    · exact h
  | retire =>
    rw [PresenceDaemon.step]
    split
    · have hdown := connection_loseConnection s
      exact ⟨h.loseConnection.trace, fun hup => absurd (hdown.symm.trans hup) nofun,
        fun hup => absurd hdown hup⟩
    · exact h
  | clearClient =>
    rw [PresenceDaemon.step]
    split
    · rename_i hretired
      have hdown : s.connection = none := h.down (by rw [hretired]; decide)
      exact ⟨h.trace, h.armed, fun hup => absurd hdown hup⟩
    · exact h
  | establish =>
    rw [PresenceDaemon.step]
    split
    · rename_i hready
      refine ⟨(catchingUp_append h.trace .established).trans rfl, fun _ => ?_, fun _ => hready.1⟩
      refine (ha hready.1 hready.2).of_events rfl rfl fun event hevent => ?_
      rcases mem_report (s := s.mark .established) hevent with hold | hnew
      · exact Or.inl hold
      · exact Or.inr (hnew ▸ nofun)
    · exact h
  | lose =>
    rw [PresenceDaemon.step]
    split
    · exact h
    · exact h.loseConnection.report nofun
  | catchUp =>
    rw [PresenceDaemon.step]
    split
    · rename_i hup
      exact ⟨(catchingUp_append h.trace .caughtUp).trans rfl, nofun,
        fun _ => h.running (hup ▸ nofun)⟩
    · exact h
  | rename newName =>
    rw [PresenceDaemon.step]
    split
    · exact h
    · have hreported : (s.report (.selfPushNameUpdated newName)).Respected := h.report nofun
      exact hreported.quiet rfl rfl rfl rfl rfl fun _ hevent => Or.inl hevent
  | deliver =>
    rw [PresenceDaemon.step]
    split
    · exact h.deliver ‹_›
    · exact h
  | spawn =>
    rw [PresenceDaemon.step]
    split
    · exact h
    · exact h.quiet rfl rfl rfl rfl rfl fun _ hevent => Or.inl hevent
  | reduce =>
    rw [PresenceDaemon.step]
    split
    · rename_i generation event rest hevents
      split
      · exact h
      · split
        · exact h.dequeue hevents
        · rename_i hcurrent
          rw [Bool.not_eq_false] at hcurrent
          refine (h.dequeue hevents).handleAppEvent (h.not_completed ?_) hcurrent
          rw [hevents]
          exact List.mem_append_right _ List.mem_cons_self
    · exact h
  | connect id => exact h.of_tasks _ _
  | setActiveChat id chat =>
    rw [PresenceDaemon.step]
    split
    · exact h.of_tasks _ _
    · exact h
  | setPresence id available =>
    rw [PresenceDaemon.step]
    split
    · exact h.of_tasks _ _
    · exact h
  | close id =>
    rw [PresenceDaemon.step]
    split
    · exact h.of_tasks _ _
    · exact h
  | advance task =>
    rw [PresenceDaemon.step]
    split
    · exact h.advance task
    · exact h
  | call task jid =>
    rw [PresenceDaemon.step]
    split
    · exact h.callChat task jid
    · exact h
  | finish task =>
    rw [PresenceDaemon.step]
    split
    · exact h.of_tasks _ _
    · exact h
  | timeOut task =>
    rw [PresenceDaemon.step]
    split
    · exact h.of_tasks _ _
    · exact h

/-! ## Runs -/

/-- In every run in which each connection is established while the catch-up is marked as pending
and no earlier completion of the generation is on its way, the device is never advertised between
the establishment of a connection and the end of its catch-up. -/
theorem unavailable_of_covered (direct : String → Bool) (steps : List PresenceStep)
    (hg : Guarded (PresenceDaemon.step direct) Covered {} steps) :
    ∀ s ∈ states (PresenceDaemon.step direct) {} steps, (catchingUp s.trace).isSome := by
  have hstart : Respected {} := ⟨rfl, nofun, fun hup => absurd rfl hup⟩
  intro s hs
  have hrespected : s.Respected :=
    invariant_states (I := Respected) (fun _ _ h ha => h.step ha) hstart hg s hs
  rw [hrespected.trace]
  rfl

/-- A JID of a person. -/
def ofPerson (jid : String) : Bool := decide (¬"@g.us".toList <:+ jid.toList)

/-- The presence that a client in focus asks for. -/
def focused (owner : ReconcileOwner) : Reconciliation :=
  { owner, after := { available := true }, forcePresence := true }

/-- A client in focus, a connection that is lost before its catch-up, and one that catches up. -/
theorem unavailable_of_covered_reconnect :
    (catchingUp (run (PresenceDaemon.step ofPerson) {}
      [.begin, .connect 1, .setPresence 1 true, .establish, .rename "Ada", .deliver, .spawn,
        .advance { owner := .connected, forcePresence := true, phase := .starting },
        .advance (focused .connected), .deliver, .reduce, .lose, .deliver, .establish, .deliver,
        .catchUp, .deliver, .reduce, .advance (focused .event)]).trace).isSome :=
  unavailable_of_covered ofPerson _ (by decide) _ (run_mem_states _ _ _)

/-- The client reconnects by itself after a catch-up: the mark of the generation is gone, and the
device is advertised before the second connection is caught up. -/
theorem reconnect_advertises_early :
    ¬∀ s ∈ states (PresenceDaemon.step ofPerson) {}
      [.begin, .connect 1, .setPresence 1 true, .establish, .rename "Ada", .deliver, .deliver,
        .catchUp, .deliver, .reduce, .reduce, .lose, .deliver, .establish, .deliver, .spawn,
        .advance { owner := .connected, forcePresence := true, phase := .starting },
        .advance (focused .connected)],
      (catchingUp s.trace).isSome := by
  intro h
  exact absurd (h _ (run_mem_states _ _ _)) (by decide)

end PresenceDaemon

end OmarchyWhatsapp
