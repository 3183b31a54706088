import OmarchyWhatsapp.Outbox.VoiceRetention

/-!
# The delivery identity of a recording

The first `assign_delivery` writes a message id into the job file, and a retry reads it from there.
Each write carries the id of the copy that its command has in hand. So the id stays the same as
long as no copy is older than the file. The gate of the recording sees to that, until a command is
dropped at its await: the gate is free then, and the write that is left behind still happens.
-/

namespace OmarchyWhatsapp

open Relational

namespace VoiceOutbox

variable {plan : QueryPlan} {dir : VoiceOutbox}

/-- The message id in the job file of a recording. -/
def identity (dir : VoiceOutbox) (recordingId : String) : Option String :=
  (dir.jobs.find? recordingId).bind (fun job => job.val.messageId)

theorem identity_eq_some {recordingId messageId : String} :
    dir.identity recordingId = some messageId ↔
      ∃ job, dir.jobs.find? recordingId = some job ∧ job.val.messageId = some messageId :=
  Option.bind_eq_some_iff

end VoiceOutbox

/-! ## Writes -/

/-- The recording whose job a write is about. -/
def VoiceWrite.recordingId : VoiceWrite → String
  | .prepare recordingId _ => recordingId
  | .assignDelivery job _ _ => job.val.recordingId
  | .markFailed job _ => job.val.recordingId
  | .finishSent job => job.val.recordingId

/-- The message id that a write puts into the job file. -/
def VoiceWrite.identity (dir : VoiceOutbox) : VoiceWrite → Option String
  | .prepare recordingId _ => dir.identity recordingId
  | .assignDelivery _ _ messageId => some messageId
  | .markFailed job _ => job.val.messageId
  | .finishSent job => job.val.messageId

namespace VoiceDaemon

/-- The message id agrees with the job file and with the jobs that commands have in hand. -/
def Agrees (s : VoiceDaemon) (recordingId : String) (messageId : Option String) : Prop :=
  (∀ stored ∈ s.outbox.identity recordingId, messageId = some stored) ∧
    ∀ x ∈ s.sends.rows, x.recordingId = recordingId → ∀ held ∈ x.phase.job,
      ∀ written ∈ messageId, held.val.messageId = some written

instance (s : VoiceDaemon) (recordingId : String) (messageId : Option String) :
    Decidable (s.Agrees recordingId messageId) := inferInstanceAs (Decidable (_ ∧ _))

/-- A write that a dropped command has left behind changes no message id when it happens. -/
def LandsInPlace (s : VoiceDaemon) : VoiceStep → Prop
  | .orphanWritten (.finishSent _) _ _ => True
  | .orphanWritten write writes _ => writes = true → write ∈ s.orphans →
      s.Agrees write.recordingId (write.identity s.outbox)
  | _ => True

instance (s : VoiceDaemon) (a : VoiceStep) : Decidable (s.LandsInPlace a) := by
  apply VoiceStep.casesOn (motive := fun a => Decidable (s.LandsInPlace a)) a
  case orphanWritten =>
    intro write writes now
    apply VoiceWrite.casesOn
      (motive := fun write => Decidable (s.LandsInPlace (.orphanWritten write writes now))) write
    all_goals
      intros
      dsimp only [LandsInPlace]
      infer_instance
  all_goals
    intros
    dsimp only [LandsInPlace]
    infer_instance

end VoiceDaemon

namespace VoiceOutbox

variable {plan : QueryPlan} {dir : VoiceOutbox}

/-! ## What a write leaves -/

theorem find?_saveJob {writes : Bool} {job : VoiceJob} {saved : VoiceOutbox} {stored : StoredJob}
    (h : saveJob writes dir job = .ok (saved, stored)) (recordingId : String) :
    saved.jobs.find? recordingId
      = if recordingId = job.recordingId then some stored else dir.jobs.find? recordingId := by
  unfold saveJob at h
  split at h
  · split at h
    · cases h
      rw [Table.find?_insertOrIgnore, Table.find?_deleteWhere_key]
      by_cases hid : recordingId = job.recordingId
      · rw [if_pos hid, if_pos hid]
        simp [hid]
      · simp [hid]
    · cases h
  · cases h

/-- A job that is left where nothing is written. -/
theorem find?_of_subset {dir' : VoiceOutbox} (h : ∀ job ∈ dir'.jobs.rows, job ∈ dir.jobs.rows)
    {recordingId : String} {job : StoredJob} (hjob : dir'.jobs.find? recordingId = some job) :
    dir.jobs.find? recordingId = some job := by
  obtain ⟨hmem, hid⟩ := Table.find?_eq_some.mp hjob
  exact Table.find?_eq_some.mpr ⟨h job hmem, hid⟩

/-- A preparation takes the message id over from the job file. -/
theorem identity_prepare {writes : Bool} {recordingId chatJid : String} {now : ℤ}
    {saved : VoiceOutbox} {stored : StoredJob}
    (h : prepare plan writes dir recordingId chatJid now = (saved, .ok stored)) :
    writes = true ∧ stored.val.messageId = dir.identity recordingId ∧
      ∀ r, ∀ job, saved.jobs.find? r = some job →
      if r = recordingId then job = stored else dir.jobs.find? r = some job := by
  have hcleaned : ∀ x ∈ (cleanup plan dir now (some recordingId)).jobs.rows,
      x ∈ dir.jobs.rows := fun _ h => mem_cleanup h
  unfold prepare at h
  split at h
  · cases h
  dsimp only at h
  split at h
  · cases h
  split at h
  · cases h
  rename_i audio haudio
  split at h
  · cases h
  rename_i durationMs _
  split at h
  · cases h
  split at h
  · rename_i saved' stored' hsaved
    cases h
    set cleaned := cleanup plan dir now (some recordingId) with hc
    have hstored := (mem_saveJob hsaved).1
    have hfind := find?_saveJob hsaved
    have hjob : cleaned.jobs.find? recordingId = dir.jobs.find? recordingId := by
      rcases hdir : dir.jobs.find? recordingId with _ | job
      · rcases hfound : cleaned.jobs.find? recordingId with _ | job
        · rfl
        · rw [find?_of_subset hcleaned hfound] at hdir
          cases hdir
      · refine find?_jobs_cleanup hdir ?_
        rw [← hc, haudio]
        exact Option.some_ne_none _
    have hname : (((cleaned.jobs.find? recordingId).map Subtype.val).getD
        { recordingId, chatJid, durationMs, createdAt := now, updatedAt := now } :
          VoiceJob).recordingId = recordingId := by
      rcases hfound : cleaned.jobs.find? recordingId with _ | found
      · rfl
      · have hid := Table.key_of_find? hfound
        exact hid
    refine ⟨(ok_of_saveJob hsaved).1, ?_, fun r job hr => ?_⟩
    · rw [hstored, hjob, identity]
      cases dir.jobs.find? recordingId <;> rfl
    · rw [hfind r] at hr
      dsimp only at hr
      rw [hname] at hr
      split
      · rename_i hid
        rw [if_pos hid] at hr
        exact (Option.some.inj hr).symm
      · rename_i hid
        rw [if_neg hid] at hr
        exact find?_of_subset hcleaned hr
  · cases h

end VoiceOutbox

namespace VoiceDaemon

variable {plan : QueryPlan} {dir : VoiceOutbox}

/-- A job after a write was there before, or the write has put its message id into it. -/
theorem find?_performed {write : VoiceWrite} {writes : Bool} {now : ℤ} {recordingId : String}
    {job : StoredJob}
    (h : (performed plan writes now dir write).1.jobs.find? recordingId = some job) :
    dir.jobs.find? recordingId = some job ∨
      (write.recordingId = recordingId ∧ writes = true ∧
        job.val.messageId = write.identity dir ∧
        (∀ held ∈ write.job, ∀ messageId ∈ held.val.messageId,
          write.identity dir = some messageId) ∧ ∀ held, write ≠ .finishSent held) := by
  cases write with
  | prepare own chatJid =>
    rcases VoiceOutbox.prepare_cases plan writes dir own chatJid now with
      ⟨cleaned, message, hprepared, hrows⟩ | ⟨saved, stored, hprepared, -, -⟩
    · simp only [performed, hprepared] at h
      exact Or.inl (VoiceOutbox.find?_of_subset hrows h)
    · simp only [performed, hprepared] at h
      obtain ⟨hwrites, hid, hrest⟩ := VoiceOutbox.identity_prepare hprepared
      have hjob := hrest recordingId job h
      split at hjob
      · rename_i hown
        exact Or.inr ⟨hown.symm, hwrites, hjob ▸ hid, fun _ h => (by cases h),
          fun _ h => (by cases h)⟩
      · exact Or.inl hjob
  | assignDelivery held chatJid messageId =>
    simp only [performed] at h
    rcases hassigned : dir.assignDelivery writes held chatJid messageId now with
      message | ⟨saved, stored⟩
    · rw [hassigned] at h
      exact Or.inl h
    · rw [hassigned] at h
      unfold VoiceOutbox.assignDelivery at hassigned
      split at hassigned
      · cases hassigned
      split at hassigned
      · cases hassigned
      rename_i hsame
      have hstored := (VoiceOutbox.mem_saveJob hassigned).1
      replace h : saved.jobs.find? recordingId = some job := h
      rw [VoiceOutbox.find?_saveJob hassigned] at h
      split at h
      · rename_i hown
        cases h
        refine Or.inr ⟨hown.symm, (VoiceOutbox.ok_of_saveJob hassigned).1, by rw [hstored]; rfl,
          fun held' hheld m hm => ?_, fun _ h => (by cases h)⟩
        cases hheld
        rw [Option.mem_def] at hm
        rw [hm, Option.getD_some] at hsame
        exact congrArg some (not_not.mp hsame).symm
      · exact Or.inl h
  | markFailed held error =>
    simp only [performed] at h
    rcases hfailed : dir.markFailed writes held error now with message | ⟨saved, stored⟩
    · rw [hfailed] at h
      exact Or.inl h
    · rw [hfailed] at h
      have hstored := (VoiceOutbox.mem_saveJob hfailed).1
      replace h : saved.jobs.find? recordingId = some job := h
      rw [VoiceOutbox.find?_saveJob hfailed] at h
      split at h
      · rename_i hown
        cases h
        refine Or.inr ⟨hown.symm, (VoiceOutbox.ok_of_saveJob hfailed).1, by rw [hstored]; rfl,
          fun held' hheld m hm => ?_, fun _ h => (by cases h)⟩
        cases hheld
        exact hm
      · exact Or.inl h
  | finishSent held =>
    -- the job is saved once more, and removed
    left
    simp only [performed, VoiceOutbox.finishSent] at h
    rcases hsaved : VoiceOutbox.saveJob writes dir
        { held.val with status := .sent, error := none, updatedAt := now } with
      message | ⟨saved, stored⟩
    · rw [hsaved] at h
      exact h
    · rw [hsaved] at h
      have hid : stored.val.recordingId = held.val.recordingId := by
        rw [(VoiceOutbox.mem_saveJob hsaved).1]
      replace h : (saved.removeJobFiles stored.val.recordingId).jobs.find? recordingId
          = some job := h
      rw [hid, VoiceOutbox.removeJobFiles_saveJob hsaved] at h
      exact VoiceOutbox.find?_of_subset
        (fun x hx => (VoiceOutbox.mem_removeJobFiles.mp hx).1) h

end VoiceDaemon

namespace VoiceOutbox

variable {plan : QueryPlan} {dir dir' : VoiceOutbox}

/-! ## What keeps the message ids -/

/-- No job that is still there has lost its message id, or got another. -/
def Keeps (dir dir' : VoiceOutbox) : Prop :=
  ∀ recordingId, ∀ messageId ∈ dir.identity recordingId,
    ∀ job ∈ dir'.jobs.find? recordingId, job.val.messageId = some messageId

theorem keeps_of_find? (h : ∀ recordingId job, dir'.jobs.find? recordingId = some job →
      ∃ old, dir.jobs.find? recordingId = some old ∧ old.val.messageId = job.val.messageId) :
    dir.Keeps dir' := by
  intro recordingId messageId hid job hjob
  obtain ⟨old, hold, hsame⟩ := h recordingId job hjob
  obtain ⟨old', hold', hid'⟩ := identity_eq_some.mp hid
  rw [hold] at hold'
  cases hold'
  rw [← hsame, hid']

theorem keeps_of_subset (h : ∀ job ∈ dir'.jobs.rows, job ∈ dir.jobs.rows) : dir.Keeps dir' :=
  keeps_of_find? fun _ job hjob => ⟨job, find?_of_subset h hjob, rfl⟩

/-- The ids of jobs that are left are those that were there. -/
theorem identity_of_subset (h : ∀ job ∈ dir'.jobs.rows, job ∈ dir.jobs.rows)
    {recordingId messageId : String} (hid : dir'.identity recordingId = some messageId) :
    dir.identity recordingId = some messageId := by
  obtain ⟨job, hjob, hm⟩ := identity_eq_some.mp hid
  exact identity_eq_some.mpr ⟨job, find?_of_subset h hjob, hm⟩

/-- A recovery rewrites a job with the message id that it has read. -/
theorem find?_recoverJobs (writes : Bool) (now : ℤ) (jobs : List StoredJob)
    (hdistinct : (jobs.map (·.val.recordingId)).Nodup) (hmem : ∀ job ∈ jobs, job ∈ dir.jobs.rows)
    {recordingId : String} {job : StoredJob}
    (h : (recoverJobs writes now jobs dir).jobs.find? recordingId = some job) :
    ∃ old, dir.jobs.find? recordingId = some old ∧ old.val.messageId = job.val.messageId := by
  induction jobs generalizing dir with
  | nil => exact ⟨job, h, rfl⟩
  | cons first rest ih =>
    obtain ⟨hother, hdistinct⟩ := List.nodup_cons.mp hdistinct
    obtain ⟨hfirst, hrest⟩ := List.forall_mem_cons.mp hmem
    have hne : ∀ x ∈ rest, x.val.recordingId ≠ first.val.recordingId := fun x hx heq =>
      hother (List.mem_map.mpr ⟨x, hx, heq⟩)
    unfold recoverJobs at h
    split at h
    · obtain ⟨old, hold, hsame⟩ := ih hdistinct
        (fun x hx => mem_removeJobFiles.mpr ⟨hrest x hx, hne x hx⟩) h
      exact ⟨old, find?_of_subset (fun x hx => (mem_removeJobFiles.mp hx).1) hold, hsame⟩
    · exact ih hdistinct hrest h
    · split at h
      · rename_i saved stored hsaved
        obtain ⟨hstored, hrows⟩ := mem_saveJob hsaved
        obtain ⟨old, hold, hsame⟩ := ih hdistinct
          (fun x hx => (hrows x).mpr (Or.inl ⟨hrest x hx, hne x hx⟩)) h
        rw [find?_saveJob hsaved] at hold
        split at hold
        · rename_i hid
          cases hold
          refine ⟨first, ?_, by rw [← hsame, hstored]⟩
          rw [hid]
          exact Table.find?_of_mem hfirst
        · exact ⟨old, hold, hsame⟩
      · exact ⟨job, h, rfl⟩

theorem keeps_recoverInterrupted (writes : Bool) (now : ℤ) :
    dir.Keeps (dir.recoverInterrupted plan writes now) := by
  refine keeps_of_find? fun recordingId job hjob => ?_
  set cleaned := dir.cleanup plan now none with hc
  have hdistinct : ((plan.scan cleaned.jobs.rows).map (·.val.recordingId)).Nodup :=
    ((plan.scan_perm cleaned.jobs.rows).map _).nodup_iff.mpr cleaned.jobs.nodup
  obtain ⟨old, hold, hsame⟩ := find?_recoverJobs writes now (plan.scan cleaned.jobs.rows) hdistinct
    (fun job hjob => plan.mem_scan.mp hjob) hjob
  exact ⟨old, find?_of_subset (fun _ h => mem_cleanup h) hold, hsame⟩

end VoiceOutbox

namespace VoiceDaemon

variable {plan : QueryPlan} {s : VoiceDaemon} {x : VoiceSend} {id : ℕ}

/-- A write keeps the message ids if its own is the one in the job file. -/
theorem keeps_performed {dir : VoiceOutbox} {write : VoiceWrite} (writes : Bool) (now : ℤ)
    (h : ∀ messageId ∈ dir.identity write.recordingId, writes = true →
      (∀ held, write ≠ .finishSent held) →
      (∃ held ∈ write.job, held.val.messageId = some messageId) ∨
        write.identity dir = some messageId) :
    dir.Keeps (performed plan writes now dir write).1 := by
  intro recordingId messageId hid job hjob
  rcases find?_performed hjob with hold | ⟨rfl, hwrites, hwritten, hheld, hunfinished⟩
  · obtain ⟨old, hold', hm⟩ := VoiceOutbox.identity_eq_some.mp hid
    rw [hold] at hold'
    cases hold'
    exact hm
  · rw [hwritten]
    rcases h messageId hid hwrites hunfinished with ⟨held, hmem, hm⟩ | hsame
    · exact hheld held hmem messageId hm
    · exact hsame

/-! ## Runs -/

/-- The invariant: past its gates a command has its recording to itself, and has the message id of
the job file in hand, where that has one. -/
structure Identified (s : VoiceDaemon) : Prop where
  own : s.OwnRecording
  exclusive : ∀ x ∈ s.sends.rows, ∀ y ∈ s.sends.rows, x.phase ≠ .waiting → y.phase ≠ .waiting →
    x.recordingId = y.recordingId → x = y
  carries : ∀ x ∈ s.sends.rows, ∀ held ∈ x.phase.job,
    ∀ messageId ∈ s.outbox.identity x.recordingId, held.val.messageId = some messageId

theorem Identified.of_idle (h : s.sends = ∅) : s.Identified := by
  have hnone : ∀ x, x ∉ s.sends.rows := fun x hx => by rw [h] at hx; cases hx
  exact ⟨fun x hx => absurd hx (hnone x), fun x hx => absurd hx (hnone x),
    fun x hx => absurd hx (hnone x)⟩

/-- Commands and jobs may go. -/
theorem Identified.shrinks (h : s.Identified) {s' : VoiceDaemon}
    (hsends : ∀ x ∈ s'.sends.rows, x ∈ s.sends.rows)
    (hjobs : ∀ job ∈ s'.outbox.jobs.rows, job ∈ s.outbox.jobs.rows) : s'.Identified where
  own x hx := h.own x (hsends x hx)
  exclusive x hx y hy := h.exclusive x (hsends x hx) y (hsends y hy)
  carries x hx held hheld messageId hid :=
    h.carries x (hsends x hx) held hheld messageId (VoiceOutbox.identity_of_subset hjobs hid)

/-- A command that goes on, where no other one is past its gates for the recording. -/
theorem Identified.moveTo (h : s.Identified) (hx : s.sends.find? id = some x) (s' : VoiceDaemon)
    (hsends : s'.sends = s.sends) {phase : Option VoicePhase}
    (halone : ∀ y ∈ s.sends.rows, y.phase ≠ .waiting → y.recordingId = x.recordingId → y = x)
    (hown : ∀ next ∈ phase, ∀ recordingId ∈ next.recording, recordingId = x.recordingId)
    (hothers : ∀ y ∈ s.sends.rows, y.id ≠ id → ∀ held ∈ y.phase.job,
      ∀ messageId ∈ s'.outbox.identity y.recordingId, held.val.messageId = some messageId)
    (hnext : ∀ next ∈ phase, ∀ held ∈ next.job,
      ∀ messageId ∈ s'.outbox.identity x.recordingId, held.val.messageId = some messageId) :
    (s'.moveTo id phase).Identified := by
  have hx' : s'.sends.find? id = some x := hsends ▸ hx
  have hid : x.id = id := (mem_of_find? hx).2
  refine ⟨fun y hy => ?_, fun y hy z hz hypast hzpast hsame => ?_, fun y hy held hheld => ?_⟩
  · rcases moveTo_cases hx' hy with ⟨hy, -⟩ | ⟨next, rfl, rfl⟩
    · exact h.own y (hsends ▸ hy)
    · exact hown next rfl
  · rcases moveTo_cases hx' hy with ⟨hy', hyne⟩ | ⟨next, rfl, rfl⟩
    · rcases moveTo_cases hx' hz with ⟨hz', -⟩ | ⟨next, rfl, rfl⟩
      · exact h.exclusive y (hsends ▸ hy') z (hsends ▸ hz') hypast hzpast hsame
      · exact absurd (halone y (hsends ▸ hy') hypast hsame ▸ hid) hyne
    · rcases moveTo_cases hx' hz with ⟨hz, hzne⟩ | ⟨next', hnext', rfl⟩
      · exact absurd (halone z (hsends ▸ hz) hzpast hsame.symm ▸ hid) hzne
      · cases hnext'
        rfl
  · rw [(outbox_moveTo s' id phase).1]
    rcases moveTo_cases hx' hy with ⟨hy, hne⟩ | ⟨next, rfl, rfl⟩
    · exact hothers y (hsends ▸ hy) hne held hheld
    · exact hnext next rfl held hheld

/-- A command that goes on with the job it has in hand. -/
theorem Identified.keepJob (h : s.Identified) (hx : s.sends.find? id = some x) {next : VoicePhase}
    (hrecording : next.recording = x.phase.recording) (hjob : next.job = x.phase.job)
    (hpast : x.phase ≠ .waiting) : (s.moveTo id (some next)).Identified := by
  have hmem := (mem_of_find? hx).1
  refine h.moveTo hx _ rfl (fun y hy hypast hsame => h.exclusive y hy x hmem hypast hpast hsame)
    (fun next' hnext => ?_) (fun y hy _ => h.carries y hy) (fun next' hnext => ?_)
  · cases hnext
    rw [hrecording]
    exact h.own x hmem
  · cases hnext
    rw [hjob]
    exact h.carries x hmem

/-- A write belongs to the recording of its command. -/
theorem recordingId_write (h : s.Identified) (hx : x ∈ s.sends.rows) {write : VoiceWrite}
    (hphase : x.phase = .writing write) : write.recordingId = x.recordingId := by
  have hown := h.own x hx
  rw [hphase] at hown
  cases write <;> exact hown _ rfl

/-- After a write the command has the message id of the job file in hand. -/
theorem carries_settled {dir : VoiceOutbox} {write : VoiceWrite} {writes : Bool} {now : ℤ}
    (hfresh : ∀ held ∈ write.job, ∀ messageId ∈ dir.identity write.recordingId,
      held.val.messageId = some messageId) :
    ∀ next ∈ settled write (performed plan writes now dir write).2, ∀ held ∈ next.job,
      ∀ messageId ∈ (performed plan writes now dir write).1.identity write.recordingId,
        held.val.messageId = some messageId := by
  intro next hnext held hheld messageId hid
  cases write with
  | prepare own chatJid =>
    rcases VoiceOutbox.prepare_cases plan writes dir own chatJid now with
      ⟨cleaned, message, hprepared, -⟩ | ⟨saved, stored, hprepared, -, -⟩
    · simp only [performed, hprepared] at hnext
      cases hnext
    · simp only [performed, hprepared] at hnext hid
      cases hnext
      cases hheld
      obtain ⟨job, hjob, hm⟩ := VoiceOutbox.identity_eq_some.mp hid
      have hsame := (VoiceOutbox.identity_prepare hprepared).2.2 own job hjob
      rw [if_pos rfl] at hsame
      exact hsame ▸ hm
  | assignDelivery held' chatJid messageId' =>
    simp only [performed] at hnext hid
    rcases hassigned : dir.assignDelivery writes held' chatJid messageId' now with
      message | ⟨saved, stored⟩
    · rw [hassigned] at hnext hid
      cases hnext
      exact hfresh held hheld messageId hid
    · rw [hassigned] at hnext hid
      cases hnext
      cases hheld
      unfold VoiceOutbox.assignDelivery at hassigned
      split at hassigned
      · cases hassigned
      split at hassigned
      · cases hassigned
      obtain ⟨job, hjob, hm⟩ := VoiceOutbox.identity_eq_some.mp hid
      replace hjob : saved.jobs.find? held'.val.recordingId = some job := hjob
      rw [VoiceOutbox.find?_saveJob hassigned, if_pos rfl] at hjob
      cases hjob
      exact hm
  | markFailed => cases hnext
  | finishSent => cases hnext

theorem Identified.step (h : s.Identified) {a : VoiceStep} (ha : s.LandsInPlace a) :
    (s.step plan a).Identified ∧ s.outbox.Keeps (s.step plan a).outbox := by
  have hsame : s.outbox.Keeps s.outbox := VoiceOutbox.keeps_of_subset fun _ h => h
  have hmoved (id : ℕ) (phase : Option VoicePhase) : s.outbox.Keeps (s.moveTo id phase).outbox := by
    rw [(outbox_moveTo s id phase).1]
    exact hsame
  cases a with
  | record recording => exact ⟨h.shrinks (fun _ h => h) (fun _ h => h), hsame⟩
  | request id connection recordingId chatJid =>
    refine ⟨⟨fun x hx => ?_, fun x hx y hy hxpast hypast => ?_, fun x hx => ?_⟩, hsame⟩
    · rcases Table.mem_insertOrIgnore.mp hx with hx | ⟨rfl, -⟩
      · exact h.own x hx
      · exact fun _ h => (by cases h)
    · rcases Table.mem_insertOrIgnore.mp hx with hx | ⟨rfl, -⟩
      · rcases Table.mem_insertOrIgnore.mp hy with hy | ⟨rfl, -⟩
        · exact h.exclusive x hx y hy hxpast hypast
        · exact absurd rfl hypast
      · exact absurd rfl hxpast
    · rcases Table.mem_insertOrIgnore.mp hx with hx | ⟨rfl, -⟩
      · exact h.carries x hx
      · exact fun _ h => (by cases h)
  | reject id =>
    rw [VoiceDaemon.step]
    split
    · exact ⟨h.shrinks (fun _ hx => (Table.mem_deleteWhere.mp hx).1) (fun _ h => h), hsame⟩
    · exact ⟨h, hsame⟩
  | start id =>
    rw [VoiceDaemon.step]
    split
    · rename_i connection recordingId chatJid hx
      split
      · rename_i hfree
        refine ⟨h.moveTo hx _ rfl (fun y hy hpast hrecording => ?_) ?_
          (fun y hy _ => h.carries y hy) ?_, hmoved _ _⟩
        · -- the gates are not free of `y`
          have hgate := List.all_eq_true.mp hfree y hy
          split at hgate
          · exact absurd ‹_› hpast
          · cases hgate
          · exact absurd hrecording (of_decide_eq_true hgate)
        · intro next hnext r hr
          cases hnext
          cases hr
          rfl
        · intro next hnext held hheld
          cases hnext
          cases hheld
      · exact ⟨h, hsame⟩
    · exact ⟨h, hsame⟩
  | written id writes now =>
    rw [VoiceDaemon.step]
    split
    · rename_i own connection recordingId chatJid write hx
      have hmem := (mem_of_find? hx).1
      have hpast : VoicePhase.writing write ≠ .waiting := fun hw => by cases hw
      have hrecording := recordingId_write h hmem rfl
      have hfresh : ∀ held ∈ write.job, ∀ messageId ∈ s.outbox.identity write.recordingId,
          held.val.messageId = some messageId := by
        rw [hrecording]
        exact h.carries _ hmem
      have hkeeps : s.outbox.Keeps (performed plan writes now s.outbox write).1 := by
        refine keeps_performed writes now fun messageId hid _ _ => ?_
        cases write with
        | prepare own chatJid => exact Or.inr hid
        | assignDelivery held => exact Or.inl ⟨held, rfl, hfresh held rfl messageId hid⟩
        | markFailed held => exact Or.inl ⟨held, rfl, hfresh held rfl messageId hid⟩
        | finishSent held => exact Or.inl ⟨held, rfl, hfresh held rfl messageId hid⟩
      have hmoved : ({ s with outbox := (performed plan writes now s.outbox write).1 }.moveTo id
          (settled write (performed plan writes now s.outbox write).2)).Identified := by
        refine h.moveTo hx { s with outbox := (performed plan writes now s.outbox write).1 } rfl
          (fun y hy hypast hr => h.exclusive y hy _ hmem hypast hpast hr)
          (settled_recording rfl (h.own _ hmem) writes now s.outbox) ?_ ?_
        · intro y hy hne held hheld messageId hid
          obtain ⟨job, hjob, hm⟩ := VoiceOutbox.identity_eq_some.mp hid
          rcases find?_performed hjob with hold | ⟨hsame, -⟩
          · exact h.carries y hy held hheld messageId
              (VoiceOutbox.identity_eq_some.mpr ⟨job, hold, hm⟩)
          · -- another command past its gates for the recording
            have hypast : y.phase ≠ .waiting := fun hw => by rw [hw] at hheld; cases hheld
            have hyx := h.exclusive y hy _ hmem hypast hpast (hsame.symm.trans hrecording)
            exact absurd (hyx ▸ (mem_of_find? hx).2) hne
        · rw [← hrecording]
          exact carries_settled hfresh
      refine ⟨hmoved, ?_⟩
      show s.outbox.Keeps (VoiceDaemon.moveTo _ id _).outbox
      rw [(outbox_moveTo _ id _).1]
      exact hkeeps
    · exact ⟨h, hsame⟩
  | assign id chatJid messageId =>
    rw [VoiceDaemon.step]
    split
    · exact ⟨h.keepJob ‹_› rfl rfl (fun hw => by cases hw), hmoved _ _⟩
    · exact ⟨h, hsame⟩
  | succeed id =>
    rw [VoiceDaemon.step]
    split
    · exact ⟨h.keepJob ‹_› rfl rfl (fun hw => by cases hw), hmoved _ _⟩
    · exact ⟨h, hsame⟩
  | fail id error =>
    rw [VoiceDaemon.step]
    split
    · exact ⟨h.keepJob ‹_› rfl rfl (fun hw => by cases hw), hmoved _ _⟩
    · exact ⟨h.keepJob ‹_› rfl rfl (fun hw => by cases hw), hmoved _ _⟩
    · exact ⟨h, hsame⟩
  | timeOut id =>
    exact ⟨h.shrinks (fun _ hx => (Table.mem_deleteWhere.mp hx).1) (fun _ h => h), hsame⟩
  | disconnect connection =>
    exact ⟨h.shrinks (fun _ hx => (Table.mem_deleteWhere.mp hx).1) (fun _ h => h), hsame⟩
  | orphanWritten write writes now =>
    rw [VoiceDaemon.step]
    split
    · rename_i horphan
      have hagrees : writes = true → (∀ held, write ≠ .finishSent held) →
          s.Agrees write.recordingId (write.identity s.outbox) := by
        intro hwrites hunfinished
        cases write with
        | finishSent held => exact absurd rfl (hunfinished held)
        | prepare => exact ha hwrites horphan
        | assignDelivery => exact ha hwrites horphan
        | markFailed => exact ha hwrites horphan
      refine ⟨⟨h.own, h.exclusive, fun x hx held hheld messageId hid => ?_⟩, ?_⟩
      · obtain ⟨job, hjob, hm⟩ := VoiceOutbox.identity_eq_some.mp hid
        rcases find?_performed hjob with hold | ⟨hrecording, hwrites, hwritten, -, hunfinished⟩
        · exact h.carries x hx held hheld messageId
            (VoiceOutbox.identity_eq_some.mpr ⟨job, hold, hm⟩)
        · exact (hagrees hwrites hunfinished).2 x hx hrecording.symm held hheld messageId
            (hwritten ▸ hm)
      · exact keeps_performed writes now fun messageId hid hwrites hunfinished =>
          Or.inr ((hagrees hwrites hunfinished).1 messageId hid)
    · exact ⟨h, hsame⟩
  | discard recordingId =>
    rw [VoiceDaemon.step]
    split
    · have hjobs : ∀ job ∈ (s.outbox.removeJobFiles recordingId).jobs.rows,
          job ∈ s.outbox.jobs.rows := fun _ hjob => (VoiceOutbox.mem_removeJobFiles.mp hjob).1
      exact ⟨h.shrinks (fun _ h => h) hjobs, VoiceOutbox.keeps_of_subset hjobs⟩
    · exact ⟨h, hsame⟩
  | restart writes now =>
    exact ⟨.of_idle rfl, VoiceOutbox.keeps_recoverInterrupted writes now⟩

/-- After `before`, as long as the job file of the recording stays, its message id does, and every
command that sends the recording sends it with that id. -/
def HasOneIdentity (plan : QueryPlan) (before after : List VoiceStep) : Prop :=
  ∀ recordingId, ∀ messageId ∈ (run (step plan) {} before).outbox.identity recordingId,
    (∀ s ∈ states (step plan) (run (step plan) {} before) after,
      (s.outbox.jobs.find? recordingId).isSome) →
    ∀ s ∈ states (step plan) (run (step plan) {} before) after,
      s.outbox.identity recordingId = some messageId ∧
        ∀ x ∈ s.sends.rows, x.recordingId = recordingId → ∀ job, x.phase = .assigned job →
          job.val.messageId = some messageId

/-- Where the writes of dropped commands change no message id, a recording has one identity. -/
theorem hasOneIdentity_of_landsInPlace (plan : QueryPlan) (before after : List VoiceStep)
    (hg : Guarded (step plan) LandsInPlace {} (before ++ after)) :
    HasOneIdentity plan before after := by
  intro recordingId messageId hid hstays
  obtain ⟨hbefore, hafter⟩ := (guarded_append (step plan)).mp hg
  have hstart : Identified (run (step plan) {} before) :=
    invariant_run (I := Identified) (fun _ _ h ha => (h.step ha).1) (.of_idle rfl) hbefore
  clear hg hbefore
  generalize run (step plan) {} before = s at hid hstays hafter hstart
  induction after generalizing s with
  | nil =>
    intro s' hs'
    rw [states, List.mem_singleton] at hs'
    subst hs'
    refine ⟨hid, fun x hx hrecording job hphase => ?_⟩
    exact hstart.carries x hx job (by rw [hphase]; rfl) messageId (hrecording ▸ hid)
  | cons a after ih =>
    obtain ⟨hnext, hkeeps⟩ := hstart.step hafter.1
    have hid' : (step plan s a).outbox.identity recordingId = some messageId := by
      obtain ⟨job, hjob⟩ := Option.isSome_iff_exists.mp
        (hstays (step plan s a) (List.mem_cons_of_mem _ (start_mem_states _ _ _)))
      exact VoiceOutbox.identity_eq_some.mpr ⟨job, hjob, hkeeps recordingId messageId hid job hjob⟩
    intro s' hs'
    rw [states, List.mem_cons] at hs'
    rcases hs' with rfl | hs'
    · refine ⟨hid, fun x hx hrecording job hphase => ?_⟩
      exact hstart.carries x hx job (by rw [hphase]; rfl) messageId (hrecording ▸ hid)
    · exact ih _ hid' (fun s hs => hstays s (List.mem_cons_of_mem _ hs)) hafter.2 hnext s' hs'

/-- The job of a recording after its first preparation. -/
def firstJob : StoredJob :=
  ⟨{ recordingId := "a", chatJid := "1@s.whatsapp.net", durationMs := 1000, attempts := 1
     createdAt := 10, updatedAt := 10 }, by decide⟩

/-- The first client leaves during its `assign_delivery`, and the file is written before the second
one reads it. -/
theorem hasOneIdentity_retry :
    HasOneIdentity .stable
      [.record (shortRecording "a"), .request 1 1 "a" "1@s.whatsapp.net", .start 1,
        .written 1 true 10, .assign 1 "1@s.whatsapp.net" "A1", .disconnect 1,
        .orphanWritten (.assignDelivery firstJob "1@s.whatsapp.net" "A1") true 11]
      [.request 2 2 "a" "1@s.whatsapp.net", .start 2, .written 2 true 12,
        .assign 2 "1@s.whatsapp.net" "A1", .written 2 true 12, .fail 2 "uploading voice message",
        .written 2 true 13] :=
  hasOneIdentity_of_landsInPlace .stable _ _ (by decide)

/-- The second client reads the file before the write of the first one happens, and sends the
recording with another id. -/
theorem late_assignDelivery_two_identities :
    ¬HasOneIdentity .stable
      [.record (shortRecording "a"), .request 1 1 "a" "1@s.whatsapp.net", .start 1,
        .written 1 true 10, .assign 1 "1@s.whatsapp.net" "A1", .disconnect 1,
        .request 2 2 "a" "1@s.whatsapp.net", .start 2, .written 2 true 10,
        .orphanWritten (.assignDelivery firstJob "1@s.whatsapp.net" "A1") true 11]
      [.assign 2 "1@s.whatsapp.net" "B2", .written 2 true 12] := by
  intro h
  have hlast := h "a" "A1" (by decide) (by decide) _ (run_mem_states _ _ _)
  exact absurd hlast.1 (by decide)

end VoiceDaemon

end OmarchyWhatsapp
