import OmarchyWhatsapp.Relational.Progress
import OmarchyWhatsapp.Session.CommandGates

/-!
# Commands get on

A connection has at most 64 jobs and 8 permits. No job waits for ever on another one: whatever the
clients have sent and whatever has been dropped, the jobs that are left can all be handled without
a deadline that passes.
-/

namespace OmarchyWhatsapp

open Relational

/-- What a job has left to do. -/
def CommandPhase.work : CommandPhase → ℕ
  | .queued => 7
  | .permitted => 6
  | .looking => 5
  | .gated _ => 4
  | .running _ => 3
  | .leaving _ _ => 2
  | .responding => 1

/-- For a permit, for the lock of the map, or for a gate. -/
def CommandPhase.waits : CommandPhase → Bool
  | .queued | .permitted | .gated _ => true
  | _ => false

/-- The steps of the daemon: no client does anything and no deadline passes. -/
def CommandStep.isHandling : CommandStep → Bool
  | .request _ _ _ | .timeOut _ | .abort _ => false
  | _ => true

namespace CommandGates

variable {s : CommandGates} {x : CommandJob} {id : ℕ} {phase : CommandPhase}

def jobsOf (s : CommandGates) (connection : ℕ) : ℕ :=
  s.jobs.rows.countP (·.connection = connection)

def permitsOf (s : CommandGates) (connection : ℕ) : ℕ :=
  s.jobs.rows.countP (fun x => x.connection = connection && x.phase.hasPermit)

/-- What a step can do to the jobs. -/
inductive Moves (s : CommandGates) : CommandGates → Prop where
  | stay : Moves s s
  | enter (id connection : ℕ) (command : Command)
      (hfree : s.jobsOf connection < maxQueuedConnectionJobs) :
      Moves s { s with jobs := s.jobs.insertOrIgnore { id, connection, command } }
  | leave (id : ℕ) : Moves s (s.remove id)
  | move {id : ℕ} {x : CommandJob} (gates : WeakMap String) (phase : CommandPhase)
      (hx : s.jobs.find? id = some x)
      (hpermit : phase.hasPermit = true →
        x.phase.hasPermit = true ∨ s.permitsOf x.connection < maxConnectionJobs)
      (hkey : phase = .looking → conflictKey x.command ≠ none) :
      Moves s ({ s with gates }.moveTo id phase)

/-- A job that has its permit, or needs none for what comes next. -/
theorem Moves.keep (hx : s.jobs.find? id = some x)
    (hpermit : phase.hasPermit = true → x.phase.hasPermit = true)
    (hphase : phase ≠ .looking) (gates : WeakMap String) :
    Moves s ({ s with gates }.moveTo id phase) :=
  .move gates phase hx (fun h => Or.inl (hpermit h)) fun h => absurd h hphase

theorem moves_step (s : CommandGates) (a : CommandStep) : Moves s (s.step a) := by
  cases a with
  | request id connection command =>
    simp only [CommandGates.step]
    split
    · exact .enter id connection command ‹_›
    · exact .stay
  | acquirePermit id =>
    simp only [CommandGates.step]
    split
    · split
      · exact .move s.gates _ ‹_› (fun _ => Or.inr ‹_›) fun h => (by cases h)
      · exact .stay
    · exact .stay
  | prune id =>
    simp only [CommandGates.step]
    split
    · rename_i hx
      split
      · exact .keep hx (fun _ => rfl) (fun h => (by cases h)) _
      · rename_i hkey
        split
        · exact .stay
        · exact .move _ _ hx (fun _ => Or.inl rfl) fun _ => hkey
    · exact .stay
  | upgrade id =>
    simp only [CommandGates.step]
    split
    · rename_i hx
      split
      · exact .keep hx (fun _ => rfl) (fun h => (by cases h)) _
      · exact .stay
    · exact .stay
  | lock id =>
    simp only [CommandGates.step]
    split
    · rename_i hx
      split
      · exact .stay
      · exact .keep hx (fun _ => rfl) (fun h => (by cases h)) _
    · exact .stay
  | finish id =>
    simp only [CommandGates.step]
    split
    · rename_i hx
      exact .keep hx (fun _ => rfl) (fun h => (by cases h)) _
    · exact .stay
  | timeOut id =>
    simp only [CommandGates.step]
    split
    · exact .keep ‹_› (fun h => (by cases h)) (fun h => (by cases h)) _
    · exact .keep ‹_› (fun h => (by cases h)) (fun h => (by cases h)) _
    · exact .keep ‹_› (fun _ => rfl) (fun h => (by cases h)) _
    · exact .keep ‹_› (fun _ => rfl) (fun h => (by cases h)) _
    · exact .stay
  | abort id =>
    simp only [CommandGates.step]
    split
    · exact .leave id
    · exact .leave id
    · exact .leave id
    · exact .keep ‹_› (fun _ => rfl) (fun h => (by cases h)) _
    · exact .keep ‹_› (fun _ => rfl) (fun h => (by cases h)) _
    · exact .stay
  | release id =>
    simp only [CommandGates.step]
    split
    · rename_i hx
      split
      · exact .keep hx (fun h => (by cases h)) (fun h => (by cases h)) _
      · exact .leave id
    · exact .stay
  | respond id =>
    simp only [CommandGates.step]
    split
    · exact .leave id
    · exact .stay

/-! ## Bounds -/

/-- The invariant: the semaphores count the jobs, and only a command that has a key looks for its
gate. -/
structure Bounded (s : CommandGates) : Prop where
  jobs : ∀ connection, s.jobsOf connection ≤ maxQueuedConnectionJobs
  permits : ∀ connection, s.permitsOf connection ≤ maxConnectionJobs
  keyed : ∀ x ∈ s.jobs.rows, x.phase = .looking → conflictKey x.command ≠ none

theorem Bounded.moves (h : s.Bounded) {s' : CommandGates} (hmoves : Moves s s') : s'.Bounded := by
  cases hmoves with
  | stay => exact h
  | enter id connection command hfree =>
    refine ⟨fun other => ?_, fun other => ?_, fun x hx hlooking => ?_⟩
    · have hle := Table.countP_insertOrIgnore_le (·.connection = other) s.jobs
        { id, connection, command }
      by_cases hconnection : connection = other
      · subst hconnection
        rw [decide_eq_true rfl] at hle
        exact hle.trans hfree
      · rw [decide_eq_false hconnection] at hle
        exact hle.trans (h.jobs other)
    · have hle := Table.countP_insertOrIgnore_le
        (fun x => x.connection = other && x.phase.hasPermit) s.jobs { id, connection, command }
      rw [show CommandPhase.hasPermit .queued = false from rfl, Bool.and_false] at hle
      exact hle.trans (h.permits other)
    · rcases Table.mem_insertOrIgnore.mp hx with hx | ⟨rfl, -⟩
      · exact h.keyed x hx hlooking
      · cases hlooking
  | leave id =>
    refine ⟨fun other => ?_, fun other => ?_, fun x hx => ?_⟩
    · exact (Table.countP_deleteWhere_le _ _ _).trans (h.jobs other)
    · exact (Table.countP_deleteWhere_le _ _ _).trans (h.permits other)
    · exact h.keyed x (Table.mem_deleteWhere.mp hx).1
  | @move id x gates phase hx hpermit hkey =>
    refine ⟨fun other => ?_, fun other => ?_, fun y hy hlooking => ?_⟩
    · have hcount := Table.countP_updateWhere_key (·.connection = other) hx
        (fun x => { x with phase }) fun _ => rfl
      exact (Nat.add_right_cancel hcount).trans_le (h.jobs other)
    · have hbound := h.permits other
      have hcount := Table.countP_updateWhere_key
        (fun x => x.connection = other && x.phase.hasPermit) hx (fun x => { x with phase })
        fun _ => rfl
      -- a permit that is new was free
      have hnew : (decide (x.connection = other) && phase.hasPermit) = true →
          (decide (x.connection = other) && x.phase.hasPermit) = true ∨
            s.permitsOf other < maxConnectionJobs := by
        intro hnew
        obtain ⟨hconnection, hphase⟩ := Bool.and_eq_true_iff.mp hnew
        rcases hpermit hphase with hhas | hfree
        · exact Or.inl (Bool.and_eq_true_iff.mpr ⟨hconnection, hhas⟩)
        · exact Or.inr (of_decide_eq_true hconnection ▸ hfree)
      show List.countP _ _ ≤ _
      unfold permitsOf at hbound hnew
      cases hafter : (decide (x.connection = other) && phase.hasPermit) with
      | false =>
        rw [show (decide (({ x with phase } : CommandJob).connection = other) &&
          ({ x with phase } : CommandJob).phase.hasPermit) = false from hafter] at hcount
        exact (Nat.le_add_right _ _).trans (hcount.trans_le hbound)
      | true =>
        rw [show (decide (({ x with phase } : CommandJob).connection = other) &&
          ({ x with phase } : CommandJob).phase.hasPermit) = true from hafter] at hcount
        rcases hnew hafter with hbefore | hfree
        · rw [hbefore] at hcount
          exact (Nat.add_right_cancel hcount).trans_le hbound
        · exact (Nat.le_add_right _ _).trans (hcount.trans_le hfree)
    · rcases mem_moveTo hx hy with ⟨hy, -⟩ | rfl
      · exact h.keyed y hy hlooking
      · exact hkey hlooking

theorem bounded_states (as : List CommandStep) : ∀ s ∈ states step {} as, s.Bounded := by
  have hinit : Bounded {} :=
    ⟨fun _ => Nat.zero_le _, fun _ => Nat.zero_le _, fun _ hx => (by cases hx)⟩
  exact invariant_states_of_step (fun s a h => h.moves (moves_step s a)) hinit as

/-- A connection never has more than 64 commands, and never executes more than 8 of them. -/
theorem connectionsBounded (as : List CommandStep) : ∀ s ∈ states step {} as, ∀ connection,
    s.jobsOf connection ≤ maxQueuedConnectionJobs ∧
      s.permitsOf connection ≤ maxConnectionJobs :=
  fun s hs connection => ⟨(bounded_states as s hs).jobs connection,
    (bounded_states as s hs).permits connection⟩

theorem connectionsBounded_ping : (run step {} [.request 1 1 .ping]).jobsOf 1 ≤ 64 :=
  (connectionsBounded [.request 1 1 .ping] _ (run_mem_states _ _ _) 1).1

/-! ## Progress -/

def workLeft (s : CommandGates) : ℕ := s.jobs.weight (fun x => x.phase.work)

theorem work_pos (phase : CommandPhase) : 0 < phase.work := by
  cases phase <;> exact Nat.succ_pos _

theorem workLeft_moveTo (hx : s.jobs.find? id = some x) (gates : WeakMap String)
    (hless : phase.work < x.phase.work) :
    ({ s with gates }.moveTo id phase).workLeft < s.workLeft := by
  have hweight : ({ s with gates }.moveTo id phase).workLeft + x.phase.work
      = s.workLeft + phase.work :=
    Table.weight_updateWhere_key _ hx (fun x => { x with phase }) fun _ => rfl
  omega

theorem workLeft_remove (hx : s.jobs.find? id = some x) : (s.remove id).workLeft < s.workLeft := by
  have hweight : (s.remove id).workLeft + x.phase.work = s.workLeft :=
    Table.weight_deleteWhere_key _ hx
  have hpos := work_pos x.phase
  omega

/-- A job that waits for nobody: it answers, or leaves its gate, or is handled, or has the lock of
the map. -/
theorem exists_step_of_busy (h : s.Bounded) {x : CommandJob} (hx : x ∈ s.jobs.rows)
    (hbusy : x.phase.waits = false) :
    ∃ a, CommandStep.isHandling a = true ∧ (s.step a).workLeft < s.workLeft := by
  have hfind := Table.find?_of_mem hx
  obtain ⟨id, connection, command, phase⟩ := x
  change s.jobs.find? id = _ at hfind
  cases phase with
  | queued => cases hbusy
  | permitted => cases hbusy
  | gated gate => cases hbusy
  | looking =>
    obtain ⟨key, hkey⟩ := Option.ne_none_iff_exists'.mp (h.keyed _ hx rfl)
    change conflictKey command = some key at hkey
    refine ⟨.upgrade id, rfl, ?_⟩
    simp only [CommandGates.step, hfind, hkey]
    exact workLeft_moveTo hfind _ (show 4 < 5 by decide)
  | running gate =>
    refine ⟨.finish id, rfl, ?_⟩
    simp only [CommandGates.step, hfind]
    exact workLeft_moveTo hfind s.gates (show 2 < 3 by decide)
  | leaving gate responds =>
    refine ⟨.release id, rfl, ?_⟩
    simp only [CommandGates.step, hfind]
    split
    · exact workLeft_moveTo hfind s.gates (show 1 < 2 by decide)
    · exact workLeft_remove hfind
  | responding =>
    refine ⟨.respond id, rfl, ?_⟩
    simp only [CommandGates.step, hfind]
    exact workLeft_remove hfind

/-- A job that waits: for the lock of the map, for a gate or for a permit that nobody has. -/
theorem exists_step_of_waiting {x : CommandJob} (hx : x ∈ s.jobs.rows)
    (hidle : ∀ y ∈ s.jobs.rows, y.phase.waits = true)
    (hfirst : x.phase = .queued → ∀ y ∈ s.jobs.rows, y.phase = .queued) :
    ∃ a, CommandStep.isHandling a = true ∧ (s.step a).workLeft < s.workLeft := by
  have hfind := Table.find?_of_mem hx
  have hwaits := hidle x hx
  obtain ⟨id, connection, command, phase⟩ := x
  change s.jobs.find? id = _ at hfind
  cases phase with
  | queued =>
    refine ⟨.acquirePermit id, rfl, ?_⟩
    have hnone : s.jobs.rows.countP
        (fun x => x.connection = connection && x.phase.hasPermit) = 0 := by
      refine List.countP_eq_zero.mpr fun y hy => ?_
      rw [hfirst rfl y hy]
      exact fun hpermit => absurd (Bool.and_eq_true_iff.mp hpermit).2 Bool.false_ne_true
    simp only [CommandGates.step, hfind, hnone, show 0 < maxConnectionJobs by decide, if_true]
    exact workLeft_moveTo hfind s.gates (show 6 < 7 by decide)
  | permitted =>
    refine ⟨.prune id, rfl, ?_⟩
    have hnone : s.jobs.rows.any (·.phase = .looking) = false :=
      List.any_eq_false.mpr fun y hy h => by
        have hwaits := hidle y hy
        rw [of_decide_eq_true h] at hwaits
        cases hwaits
    simp only [CommandGates.step, hfind, hnone, Bool.false_eq_true, if_false]
    split
    · exact workLeft_moveTo hfind s.gates (show 3 < 6 by decide)
    · exact workLeft_moveTo hfind _ (show 5 < 6 by decide)
  | gated gate =>
    refine ⟨.lock id, rfl, ?_⟩
    have hnone : s.jobs.rows.any (·.phase = .running (some gate)) = false :=
      List.any_eq_false.mpr fun y hy h => by
        have hwaits := hidle y hy
        rw [of_decide_eq_true h] at hwaits
        cases hwaits
    simp only [CommandGates.step, hfind, hnone, Bool.false_eq_true, if_false]
    exact workLeft_moveTo hfind s.gates (show 3 < 4 by decide)
  | looking => cases hwaits
  | running gate => cases hwaits
  | leaving gate responds => cases hwaits
  | responding => cases hwaits

/-- Where there are jobs, the daemon gets on with one of them. -/
theorem Bounded.progress (h : s.Bounded) (hwork : 0 < s.workLeft) :
    ∃ a, CommandStep.isHandling a = true ∧ (s.step a).Bounded ∧
      (s.step a).workLeft < s.workLeft := by
  suffices hstep : ∃ a, CommandStep.isHandling a = true ∧ (s.step a).workLeft < s.workLeft by
    obtain ⟨a, ha, hless⟩ := hstep
    exact ⟨a, ha, h.moves (moves_step s a), hless⟩
  by_cases hbusy : ∃ x ∈ s.jobs.rows, x.phase.waits = false
  · obtain ⟨x, hx, hphase⟩ := hbusy
    exact exists_step_of_busy h hx hphase
  · have hidle : ∀ y ∈ s.jobs.rows, y.phase.waits = true := fun y hy =>
      Bool.of_not_eq_false fun hphase => hbusy ⟨y, hy, hphase⟩
    by_cases hqueued : ∀ y ∈ s.jobs.rows, y.phase = .queued
    · obtain ⟨x, hx⟩ := Table.exists_mem_of_weight _ hwork
      exact exists_step_of_waiting hx hidle fun _ => hqueued
    · obtain ⟨x, hx, hphase⟩ := not_forall₂.mp hqueued
      exact exists_step_of_waiting hx hidle fun h => absurd h hphase

/-- Whatever has happened, the commands that are left can all be answered, and no deadline has to
pass for it. -/
theorem commandsNeverStuck (as : List CommandStep) :
    ∃ bs, (∀ b ∈ bs, CommandStep.isHandling b = true) ∧
      (run step (run step {} as) bs).jobs.rows = [] := by
  have hreached := bounded_states as _ (run_mem_states step {} as)
  obtain ⟨bs, hbs, -, hzero⟩ :=
    exists_run_of_progress (m := workLeft) (fun s h hwork => h.progress hwork) hreached
  exact ⟨bs, hbs, Table.weight_eq_zero _ (fun x _ => work_pos x.phase) hzero⟩

end CommandGates

end OmarchyWhatsapp
