import OmarchyWhatsapp.Relational.Run
import OmarchyWhatsapp.Session.ChatStateResync

/-!
# What a resync reports

A request goes through `Requested` and `Syncing`, the controlled restart, and one outcome. The
flag does not say which restart it waits for: a waiter or a failure from before the restart takes
it as well, and then the restart has nobody left to report.
-/

namespace OmarchyWhatsapp

open Relational

/-! ## The order of a request -/

/-- How far the open request is. -/
inductive ResyncStage where
  | idle
  | requested
  | syncing
  | restarted
deriving DecidableEq, Repr

/-- The next stage, if the event is due. -/
def ResyncStage.next : ResyncStage → ResyncEvent → Option ResyncStage
  | .idle, .published .requested _ => some .requested
  | .requested, .published .syncing _ => some .syncing
  | .syncing, .restarted => some .restarted
  | .restarted, .published .succeeded _ => some .idle
  | .restarted, .published .failed _ => some .idle
  | .idle, .refused _ => some .idle
  | _, _ => none

/-- The stage after a trace in which every event was due. -/
def resyncStage (trace : List ResyncEvent) : Option ResyncStage :=
  trace.foldlM ResyncStage.next .idle

theorem resyncStage_append {trace : List ResyncEvent} {stage : ResyncStage}
    (h : resyncStage trace = some stage) (event : ResyncEvent) :
    resyncStage (trace ++ [event]) = stage.next event := by
  unfold resyncStage at h ⊢
  rw [List.foldlM_append, h]
  show (stage.next event).bind some = stage.next event
  cases stage.next event <;> rfl

namespace Resync

variable {s : Resync}

/-- The restart that the open request asked for is still to come. -/
def RestartPending (s : Resync) : Prop :=
  s.command = true ∨ s.permit = true ∨ s.loop = .announcing ∨ s.loop = .stopping ∨
    s.loop = .halted true

instance (s : Resync) : Decidable s.RestartPending := inferInstanceAs (Decidable (_ ∨ _))

/-- The run loop is in its select, or between two generations for another reason. -/
def Elsewhere (s : Resync) : Prop := s.loop = .running ∨ s.loop = .halted false

/-- What the daemon holds at each stage. -/
def AtStage (s : Resync) : ResyncStage → Prop
  | .idle => s.status ≠ .requested ∧ s.status ≠ .syncing ∧ s.requested = s.command ∧
      s.permit = false ∧ s.Elsewhere ∧ (s.command = true → s.marker = false)
  | .requested => s.status = .requested ∧ s.requested = true ∧ s.command = false ∧
      s.marker = false ∧
      ((s.permit = true ∧ s.Elsewhere) ∨ (s.permit = false ∧ s.loop = .announcing))
  | .syncing => s.status = .syncing ∧ s.requested = true ∧ s.command = false ∧
      s.marker = false ∧ s.permit = false ∧
      (s.loop = .stopping ∨ s.loop = .halted true)
  | .restarted => s.status = .syncing ∧ s.requested = true ∧ s.command = false ∧
      s.marker = false ∧ s.appStateFailed = false ∧ s.permit = false ∧ s.Elsewhere

/-- Every event so far was due, and the daemon is at the stage they led to. -/
def Ordered (s : Resync) : Prop :=
  ∃ stage, resyncStage s.trace = some stage ∧ s.settling = [] ∧ s.AtStage stage

/-- The steps that do not get in the way of a request: its command is not dropped between arming
the flag and notifying; while the restart is still to come no waiter reaches its end, no sync
fails and no other generation fails to prepare; and an outcome that takes the flag finds the
status lock free. -/
def Undisturbed (s : Resync) : ResyncStep → Prop
  | .cancel => s.command = false
  | .begin prepareFails suspends => prepareFails = true → s.marker = false →
      s.requested = true → s.command = false ∧ s.permit = false ∧ suspends = false
  | .wake generation _ suspends => generation ∈ s.waiters → s.isCurrent generation = true →
      s.appStateFailed = false → s.requested = true → ¬s.RestartPending ∧ suspends = false
  | .syncFailed generation _ suspends => s.isCurrent generation = true →
      s.requested = true → ¬s.RestartPending ∧ suspends = false
  | _ => True

instance (s : Resync) (a : ResyncStep) : Decidable (s.Undisturbed a) := by
  apply ResyncStep.casesOn (motive := fun a => Decidable (s.Undisturbed a)) a
  all_goals
    intros
    dsimp only [Undisturbed]
    infer_instance

/-! ## Steps -/

/-- The flag is not set outside a request. -/
theorem AtStage.idle_of_not_requested {stage : ResyncStage} (h : s.AtStage stage)
    (hrequested : s.requested = false) : stage = .idle ∧ s.command = false := by
  cases stage with
  | idle => exact ⟨rfl, h.2.2.1 ▸ hrequested⟩
  | requested => exact absurd (h.2.1.symm.trans hrequested) (by decide)
  | syncing => exact absurd (h.2.1.symm.trans hrequested) (by decide)
  | restarted => exact absurd (h.2.1.symm.trans hrequested) (by decide)

theorem AtStage.idle_of_command {stage : ResyncStage} (h : s.AtStage stage)
    (hcommand : s.command = true) : stage = .idle := by
  cases stage with
  | idle => rfl
  | requested => exact absurd (h.2.2.1.symm.trans hcommand) (by decide)
  | syncing => exact absurd (h.2.2.1.symm.trans hcommand) (by decide)
  | restarted => exact absurd (h.2.2.1.symm.trans hcommand) (by decide)

/-- A request whose restart is not pending is at its last stage. -/
theorem AtStage.restarted_of_not_pending {stage : ResyncStage} (h : s.AtStage stage)
    (hrequested : s.requested = true) (hpending : ¬s.RestartPending) : stage = .restarted := by
  cases stage with
  | idle => exact absurd (Or.inl (h.2.2.1 ▸ hrequested)) hpending
  | requested =>
    rcases h.2.2.2.2 with ⟨hpermit, -⟩ | ⟨-, hloop⟩
    · exact absurd (Or.inr (Or.inl hpermit)) hpending
    · exact absurd (Or.inr (Or.inr (Or.inl hloop))) hpending
  | syncing =>
    rcases h.2.2.2.2.2 with hloop | hloop
    · exact absurd (Or.inr (Or.inr (Or.inr (Or.inl hloop)))) hpending
    · exact absurd (Or.inr (Or.inr (Or.inr (Or.inr hloop)))) hpending
  | restarted => rfl

/-- Where the run loop is at each stage. -/
theorem AtStage.loop_cases {stage : ResyncStage} (h : s.AtStage stage) :
    (s.Elsewhere ∧ stage ≠ .syncing) ∨
      (s.loop = .announcing ∧ stage = .requested ∧ s.permit = false) ∨
      ((s.loop = .stopping ∨ s.loop = .halted true) ∧ stage = .syncing) := by
  cases stage with
  | idle => exact Or.inl ⟨h.2.2.2.2.1, nofun⟩
  | requested =>
    rcases h.2.2.2.2 with ⟨-, hloop⟩ | ⟨hpermit, hloop⟩
    · exact Or.inl ⟨hloop, nofun⟩
    · exact Or.inr (Or.inl ⟨hloop, rfl, hpermit⟩)
  | syncing => exact Or.inr (Or.inr ⟨h.2.2.2.2.2, rfl⟩)
  | restarted => exact Or.inl ⟨h.2.2.2.2.2.2, nofun⟩

/-- The run loop is in its select or halted for another reason only if it is nowhere else. -/
theorem Elsewhere.loop_ne (h : s.Elsewhere) :
    s.loop ≠ .announcing ∧ s.loop ≠ .stopping ∧ s.loop ≠ .halted true := by
  rcases h with h | h <;> rw [h] <;> exact ⟨nofun, nofun, nofun⟩

/-- What neither touches the request nor publishes anything keeps the stage. -/
theorem Ordered.quiet (h : s.Ordered) {s' : Resync} (htrace : s'.trace = s.trace)
    (hsettling : s'.settling = []) (hstatus : s'.status = s.status)
    (hrequested : s'.requested = s.requested) (hcommand : s'.command = s.command)
    (hpermit : s'.permit = s.permit)
    (hloop : s'.loop = s.loop ∨ (s.Elsewhere ∧ s'.Elsewhere))
    (hmarker : s.requested = true → s.marker = false → s'.marker = false)
    (hfailed : s.requested = true → s.appStateFailed = false → s'.appStateFailed = false) :
    s'.Ordered := by
  obtain ⟨stage, hstage, -, hat⟩ := h
  refine ⟨stage, htrace ▸ hstage, hsettling, ?_⟩
  have helsewhere : s.Elsewhere → s'.Elsewhere := by
    intro he
    rcases hloop with hsame | ⟨-, he'⟩
    · unfold Elsewhere
      rw [hsame]
      exact he
    · exact he'
  cases stage with
  | idle =>
    obtain ⟨hnot, hnot', hflag, hp, he, hc⟩ := hat
    refine ⟨hstatus ▸ hnot, hstatus ▸ hnot', ?_, hpermit.trans hp, helsewhere he, fun hcmd => ?_⟩
    · rw [hrequested, hcommand, hflag]
    · rw [hcommand] at hcmd
      exact hmarker (hflag.trans hcmd) (hc hcmd)
  | requested =>
    obtain ⟨hst, hflag, hcmd, hm, hrest⟩ := hat
    refine ⟨hstatus.trans hst, hrequested.trans hflag, hcommand.trans hcmd, hmarker hflag hm, ?_⟩
    rcases hrest with ⟨hp, he⟩ | ⟨hp, hl⟩
    · exact Or.inl ⟨hpermit.trans hp, helsewhere he⟩
    · rcases hloop with hsame | ⟨he, -⟩
      · exact Or.inr ⟨hpermit.trans hp, hsame.trans hl⟩
      · exact absurd hl he.loop_ne.1
  | syncing =>
    obtain ⟨hst, hflag, hcmd, hm, hp, hl⟩ := hat
    refine ⟨hstatus.trans hst, hrequested.trans hflag, hcommand.trans hcmd, hmarker hflag hm,
      hpermit.trans hp, ?_⟩
    rcases hloop with hsame | ⟨he, -⟩
    · rwa [hsame]
    · rcases hl with hl | hl
      · exact absurd hl he.loop_ne.2.1
      · exact absurd hl he.loop_ne.2.2
  | restarted =>
    obtain ⟨hst, hflag, hcmd, hm, hf, hp, he⟩ := hat
    exact ⟨hstatus.trans hst, hrequested.trans hflag, hcommand.trans hcmd, hmarker hflag hm,
      hfailed hflag hf, hpermit.trans hp, helsewhere he⟩

/-- The outcome of a request that was restarted. -/
theorem Ordered.settle {status : ChatStateResyncStatus}
    (hstatus : status = .succeeded ∨ status = .failed) (message : String)
    (htrace : resyncStage s.trace = some .restarted) (hsettling : s.settling = [])
    (hcommand : s.command = false) (hpermit : s.permit = false) (hloop : s.Elsewhere)
    (hrequested : s.requested = true) : (s.settle status message false).Ordered := by
  unfold Resync.settle
  rw [if_neg (by rw [hrequested]; decide), if_neg (by decide)]
  refine ⟨.idle, ?_, hsettling, ?_⟩
  · show resyncStage (s.trace ++ [_]) = _
    rw [resyncStage_append htrace]
    rcases hstatus with rfl | rfl <;> rfl
  · rcases hstatus with rfl | rfl
    · exact ⟨nofun, nofun, hcommand.symm, hpermit, hloop,
        fun h => absurd (hcommand.symm.trans h) (by decide)⟩
    · exact ⟨nofun, nofun, hcommand.symm, hpermit, hloop,
        fun h => absurd (hcommand.symm.trans h) (by decide)⟩

theorem Ordered.request (h : s.Ordered) {removes suspends : Bool} :
    (s.request removes suspends).Ordered := by
  unfold Resync.request
  by_cases hopen : s.connected = false ∨ s.requested = true
  · rwa [if_pos hopen]
  rw [if_neg hopen]
  rw [not_or, Bool.not_eq_false, Bool.not_eq_true] at hopen
  obtain ⟨stage, htrace, hsettling, hat⟩ := h
  obtain ⟨rfl, hcommand⟩ := hat.idle_of_not_requested hopen.2
  obtain ⟨hnot, hnot', -, hpermit, hloop, -⟩ := hat
  split
  · refine ⟨.idle, ?_, hsettling, nofun, nofun, hopen.2.trans hcommand.symm, hpermit, hloop,
      fun hc => absurd (hcommand.symm.trans hc) (by decide)⟩
    show resyncStage (s.trace ++ [_]) = _
    rw [resyncStage_append htrace]
    rfl
  · dsimp only
    split
    · exact ⟨.idle, htrace, hsettling, hnot, hnot', rfl, hpermit, hloop, fun _ => rfl⟩
    · refine ⟨.requested, ?_, hsettling, rfl, rfl, rfl, rfl, Or.inl ⟨rfl, hloop⟩⟩
      show resyncStage (s.trace ++ [_]) = _
      rw [resyncStage_append htrace]
      rfl

theorem Ordered.begin (h : s.Ordered) {resync prepareFails suspends : Bool}
    (hloop : s.loop = .halted resync)
    (hprepare : prepareFails = true → s.marker = false → s.requested = true →
      s.command = false ∧ s.permit = false ∧ suspends = false) :
    (s.beginGeneration resync prepareFails suspends).Ordered := by
  unfold beginGeneration
  set begun : Resync := { s with
    generation := s.generation + 1, loop := .running, appStateFailed := false
    trace := if resync then s.trace ++ [.restarted] else s.trace } with hbegun
  have hordered : begun.Ordered := by
    obtain ⟨stage, htrace, hsettling, hat⟩ := h
    rcases hat.loop_cases with ⟨he, -⟩ | ⟨hl, -⟩ | ⟨-, rfl⟩
    · -- another restart
      have hresync : resync = false := by
        rcases he with he | he <;> rw [hloop] at he <;> cases he
        rfl
      subst hresync
      exact Ordered.quiet ⟨stage, htrace, hsettling, hat⟩ rfl hsettling rfl rfl rfl rfl
        (Or.inr ⟨he, Or.inl rfl⟩) (fun _ hm => hm) (fun _ _ => rfl)
    · rw [hloop] at hl
      cases hl
    · -- the restart that the request asked for
      obtain ⟨hst, hflag, hcmd, hm, hp, hl⟩ := hat
      have hresync : resync = true := by
        rcases hl with hl | hl <;> rw [hloop] at hl <;> cases hl
        rfl
      subst hresync
      refine ⟨.restarted, ?_, hsettling, hst, hflag, hcmd, hm, rfl, hp, Or.inl rfl⟩
      show resyncStage (s.trace ++ [_]) = _
      rw [resyncStage_append htrace]
      rfl
  dsimp only
  split
  · rename_i hfails
    by_cases hrequested : s.requested = true
    · obtain ⟨hcmd, hp, hsuspends⟩ := hprepare hfails.1 hfails.2 hrequested
      obtain ⟨stage, htrace, hsettling, hat⟩ := hordered
      have hpending : ¬begun.RestartPending := by
        rintro (hc | hc | hc | hc | hc)
        · exact absurd (hcmd.symm.trans hc) (by decide)
        · exact absurd (hp.symm.trans hc) (by decide)
        all_goals cases hc
      obtain rfl := hat.restarted_of_not_pending hrequested hpending
      subst hsuspends
      exact Ordered.settle (Or.inr rfl) _ htrace hsettling hcmd hp (Or.inl rfl) hrequested
    · rw [Resync.settle, if_pos (Bool.not_eq_true _ ▸ hrequested)]
      exact hordered
  · exact hordered

theorem Ordered.wake (h : s.Ordered) {generation : ℕ} {outcome : ReplayOutcome} {suspends : Bool}
    (hdue : generation ∈ s.waiters → s.isCurrent generation = true → s.appStateFailed = false →
      s.requested = true → ¬s.RestartPending ∧ suspends = false) :
    (s.step (.wake generation outcome suspends)).Ordered := by
  rw [Resync.step]
  split
  · rename_i hwaiter
    have hwoken : Ordered { s with waiters := s.waiters.erase generation } :=
      h.quiet rfl h.choose_spec.2.1 rfl rfl rfl rfl (Or.inl rfl) (fun _ hm => hm)
        fun _ hf => hf
    dsimp only
    split
    · exact hwoken
    · rename_i hends
      rw [not_or, Bool.not_eq_false, Bool.not_eq_true] at hends
      by_cases hrequested : s.requested = true
      · -- a waiter takes the flag: the restart is over
        obtain ⟨hpending, rfl⟩ := hdue hwaiter hends.1 hends.2 hrequested
        obtain ⟨stage, htrace, hsettling, hat⟩ := h
        obtain rfl := hat.restarted_of_not_pending hrequested hpending
        obtain ⟨-, -, hcmd, -, -, hp, he⟩ := hat
        cases outcome with
        | reconciled complete =>
          exact Ordered.settle (Or.inl rfl) _ htrace hsettling hcmd hp he hrequested
        | unreconciled =>
          exact Ordered.settle (Or.inr rfl) _ htrace hsettling hcmd hp he hrequested
        | expired =>
          exact Ordered.settle (Or.inr rfl) _ htrace hsettling hcmd hp he hrequested
      · rw [Bool.not_eq_true] at hrequested
        cases outcome with
        | reconciled complete =>
          rw [finishWaiter, Resync.settle, if_pos hrequested]
          exact hwoken.quiet rfl hwoken.choose_spec.2.1 rfl rfl rfl rfl (Or.inl rfl)
            (fun hr => absurd (hrequested.symm.trans hr) (by decide)) fun _ hf => hf
        | unreconciled =>
          rw [finishWaiter, Resync.settle, if_pos hrequested]
          exact hwoken
        | expired =>
          rw [finishWaiter, Resync.settle, if_pos hrequested]
          exact hwoken
  · exact h

theorem Ordered.step (h : s.Ordered) {a : ResyncStep} (ha : s.Undisturbed a) :
    (s.step a).Ordered := by
  have hsettling := h.choose_spec.2.1
  cases a with
  | request removes suspends => exact h.request
  | resume =>
    rw [Resync.step]
    split
    · rename_i hcommand
      obtain ⟨stage, htrace, -, hat⟩ := h
      obtain rfl := hat.idle_of_command hcommand
      obtain ⟨-, -, hrequested, hpermit, hloop, hmarker⟩ := hat
      refine ⟨.requested, ?_, hsettling, rfl, hrequested.trans hcommand, rfl,
        hmarker hcommand, Or.inl ⟨rfl, hloop⟩⟩
      show resyncStage (s.trace ++ [_]) = _
      rw [resyncStage_append htrace]
      rfl
    · exact h
  | cancel =>
    exact h.quiet rfl hsettling rfl rfl ha.symm rfl (Or.inl rfl) (fun _ hm => hm)
      fun _ hf => hf
  | notified =>
    rw [Resync.step]
    split
    · rename_i hready
      obtain ⟨stage, htrace, -, hat⟩ := h
      cases stage with
      | idle => exact absurd (hat.2.2.2.1.symm.trans hready.2) (by decide)
      | requested =>
        obtain ⟨hstatus, hrequested, hcommand, hmarker, -⟩ := hat
        exact ⟨.requested, htrace, hsettling, hstatus, hrequested, hcommand, hmarker,
          Or.inr ⟨rfl, rfl⟩⟩
      | syncing => exact absurd (hat.2.2.2.2.1.symm.trans hready.2) (by decide)
      | restarted => exact absurd (hat.2.2.2.2.2.1.symm.trans hready.2) (by decide)
    · exact h
  | announce =>
    rw [Resync.step]
    split
    · rename_i hloop
      obtain ⟨stage, htrace, -, hat⟩ := h
      rcases hat.loop_cases with ⟨he, -⟩ | ⟨-, rfl, hp⟩ | ⟨hl | hl, -⟩
      · exact absurd hloop he.loop_ne.1
      · obtain ⟨-, hrequested, hcommand, hmarker, -⟩ := hat
        refine ⟨.syncing, ?_, hsettling, rfl, hrequested, hcommand, hmarker, hp, Or.inl rfl⟩
        show resyncStage (s.trace ++ [_]) = _
        rw [resyncStage_append htrace]
        rfl
      · rw [hloop] at hl
        cases hl
      · rw [hloop] at hl
        cases hl
    · exact h
  | stop =>
    rw [Resync.step]
    split
    · rename_i hloop
      obtain ⟨stage, htrace, -, hat⟩ := h
      rcases hat.loop_cases with ⟨he, -⟩ | ⟨hl, -⟩ | ⟨-, rfl⟩
      · exact absurd hloop he.loop_ne.2.1
      · rw [hloop] at hl
        cases hl
      · obtain ⟨hst, hflag, hcmd, hm, hp, -⟩ := hat
        exact ⟨.syncing, htrace, rfl, hst, hflag, hcmd, hm, hp, Or.inr rfl⟩
    · exact h
  | halt =>
    rw [Resync.step]
    split
    · rename_i hloop
      exact h.quiet rfl rfl rfl rfl rfl rfl (Or.inr ⟨Or.inl hloop, Or.inr rfl⟩)
        (fun _ hm => hm) fun _ hf => hf
    · exact h
  | begin prepareFails suspends =>
    rw [Resync.step]
    split
    · exact h.begin ‹_› ha
    · exact h
  | connect =>
    rw [Resync.step]
    split
    · exact h.quiet rfl hsettling rfl rfl rfl rfl (Or.inl rfl) (fun _ hm => hm) fun _ hf => hf
    · exact h
  | disconnect =>
    exact h.quiet rfl hsettling rfl rfl rfl rfl (Or.inl rfl) (fun _ hm => hm) fun _ hf => hf
  | wake generation outcome suspends => exact h.wake ha
  | syncFailed generation fatal suspends =>
    rw [Resync.step]
    split
    · rename_i hcurrent
      by_cases hrequested : s.requested = true
      · obtain ⟨hpending, rfl⟩ := ha hcurrent hrequested
        obtain ⟨stage, htrace, -, hat⟩ := h
        obtain rfl := hat.restarted_of_not_pending hrequested hpending
        obtain ⟨-, -, hcmd, -, -, hp, he⟩ := hat
        exact Ordered.settle (Or.inr rfl) _ htrace hsettling hcmd hp he hrequested
      · rw [Bool.not_eq_true] at hrequested
        rw [Resync.settle, if_pos hrequested]
        exact h.quiet rfl hsettling rfl rfl rfl rfl (Or.inl rfl) (fun _ _ => rfl)
          fun hr => absurd (hrequested.symm.trans hr) (by decide)
    · exact h
  | settled =>
    rw [Resync.step, hsettling]
    exact h
  | clearAccountData =>
    rw [Resync.step]
    split
    · exact h
    · exact h.quiet rfl hsettling rfl rfl rfl rfl (Or.inl rfl) (fun _ _ => rfl) fun _ hf => hf

/-! ## Runs -/

/-- While a request is open its flag is set, and the flag is not left behind: its restart is still
to come, or the next connection waits for the replay. -/
theorem Ordered.requested (h : s.Ordered) :
    ((s.status = .requested ∨ s.status = .syncing) → s.requested = true) ∧
      (s.requested = true → s.RestartPending ∨ (s.marker = false ∧ s.appStateFailed = false)) := by
  obtain ⟨stage, -, -, hat⟩ := h
  refine ⟨fun hopen => ?_, fun hrequested => ?_⟩
  · cases stage with
    | idle => exact absurd hopen (not_or.mpr ⟨hat.1, hat.2.1⟩)
    | requested => exact hat.2.1
    | syncing => exact hat.2.1
    | restarted => exact hat.2.1
  · by_cases hpending : s.RestartPending
    · exact Or.inl hpending
    · obtain rfl := hat.restarted_of_not_pending hrequested hpending
      exact Or.inr ⟨hat.2.2.2.1, hat.2.2.2.2.1⟩

/-- In every run in which no request is disturbed, the published states of each request come in
order: `Requested`, `Syncing`, the restart, and one outcome. The flag is set while `Requested` or
`Syncing` stands, and whoever is to take it is still to come. -/
theorem ordered_of_undisturbed (marker : Bool) (steps : List ResyncStep)
    (hg : Guarded Resync.step Undisturbed { marker } steps) :
    ∀ s ∈ states Resync.step { marker } steps,
      (resyncStage s.trace).isSome ∧
        ((s.status = .requested ∨ s.status = .syncing) → s.requested = true) ∧
        (s.requested = true → s.RestartPending ∨ (s.marker = false ∧ s.appStateFailed = false)) := by
  have hstart : Ordered { marker } :=
    ⟨.idle, rfl, rfl, nofun, nofun, rfl, rfl, Or.inr rfl, nofun⟩
  intro s hs
  have hordered : s.Ordered :=
    invariant_states (I := Ordered) (fun _ _ h ha => h.step ha) hstart hg s hs
  refine ⟨?_, hordered.requested⟩
  obtain ⟨stage, htrace, -⟩ := hordered
  rw [htrace]
  rfl

/-- A request, its restart and a replay that settles, with a waiter left from the connection
before the request. -/
theorem ordered_of_undisturbed_replay :
    (resyncStage (run Resync.step { marker := false }
      [.begin false false, .connect, .request true true, .resume, .notified, .announce, .stop,
        .begin false false, .connect, .wake 3 (.reconciled true) false]).trace).isSome :=
  (ordered_of_undisturbed false _ (by decide) _ (run_mem_states _ _ _)).1

/-- The waiter from before the request ends first: the request is reported as done before its
restart, and after the restart `Syncing` stands with nobody left to settle it. -/
theorem earlier_waiter_settles_request :
    ¬∀ s ∈ states Resync.step { marker := false }
      [.begin false false, .connect, .request true false, .wake 1 (.reconciled true) false,
        .notified, .announce, .stop, .begin false false, .connect],
      (resyncStage s.trace).isSome ∧
        ((s.status = .requested ∨ s.status = .syncing) → s.requested = true) := by
  intro h
  exact absurd (h _ (run_mem_states _ _ _)).2 (by decide)

end Resync

end OmarchyWhatsapp
