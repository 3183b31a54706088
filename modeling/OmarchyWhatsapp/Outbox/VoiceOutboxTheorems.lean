import OmarchyWhatsapp.Outbox.VoiceOutbox
import OmarchyWhatsapp.Relational.Run

/-!
# Who attends to a voice job

A job is `sending` from its preparation until the command that sends it settles it. A command
that is dropped in between leaves it so: nothing but the next start of the daemon, or another
send of the same recording, gives the job another status.
-/

namespace OmarchyWhatsapp

open Relational

variable {plan : QueryPlan}

/-! ## Files -/

namespace VoiceOutbox

variable {dir : VoiceOutbox} {x : StoredJob}

theorem mem_removeJobFiles {recordingId : String} :
    x ∈ (dir.removeJobFiles recordingId).jobs.rows ↔
      x ∈ dir.jobs.rows ∧ x.val.recordingId ≠ recordingId := by
  rw [removeJobFiles, Table.mem_deleteWhere, decide_eq_false_iff_not]

theorem mem_foldl_removeJobFiles {ids : List String}
    (h : x ∈ (ids.foldl removeJobFiles dir).jobs.rows) : x ∈ dir.jobs.rows := by
  induction ids generalizing dir with
  | nil => exact h
  | cons id ids ih => exact (mem_removeJobFiles.mp (ih h)).1

/-- The retention caps change no job. -/
theorem mem_cleanup {now : ℤ} {preserve : Option String}
    (h : x ∈ (cleanup plan dir now preserve).jobs.rows) : x ∈ dir.jobs.rows :=
  (Table.mem_deleteWhere.mp (mem_foldl_removeJobFiles h)).1

/-- A job that is saved is there, and no other job changes. -/
theorem mem_saveJob {writes : Bool} {job : VoiceJob} {saved : VoiceOutbox} {stored : StoredJob}
    (h : saveJob writes dir job = .ok (saved, stored)) :
    stored.val = job ∧ ∀ x, x ∈ saved.jobs.rows ↔
      (x ∈ dir.jobs.rows ∧ x.val.recordingId ≠ job.recordingId) ∨ x = stored := by
  unfold saveJob at h
  split at h
  · rename_i hvalid
    split at h
    · cases h
      refine ⟨rfl, fun x => ?_⟩
      have hnew : (dir.jobs.deleteWhere (fun x => x.val.recordingId = job.recordingId)).find?
          job.recordingId = none := by
        rw [Table.find?_eq_none]
        intro y hy
        exact of_decide_eq_false (Table.mem_deleteWhere.mp hy).2
      rw [Table.mem_insertOrIgnore, Table.mem_deleteWhere, decide_eq_false_iff_not]
      exact or_congr_right (and_iff_left hnew)
    · cases h
  · cases h

/-- A job that is saved with another status is not being sent any more. -/
theorem sending_of_saveJob {writes : Bool} {job : VoiceJob} {saved : VoiceOutbox}
    {stored : StoredJob} (h : saveJob writes dir job = .ok (saved, stored))
    (hstatus : job.status ≠ .sending) (hx : x ∈ saved.jobs.rows)
    (hsending : x.val.status = .sending) :
    x ∈ dir.jobs.rows ∧ x.val.recordingId ≠ job.recordingId := by
  obtain ⟨hstored, hrows⟩ := mem_saveJob h
  rcases (hrows x).mp hx with hold | rfl
  · exact hold
  · exact absurd (hstored ▸ hsending) hstatus

/-- A stored job can be settled as long as its file can be written. -/
theorem exists_saveJob (dir : VoiceOutbox) {job : VoiceJob} (h : job.valid = true) :
    ∃ saved stored, saveJob true dir job = .ok (saved, stored) := by
  rw [saveJob, dif_pos h]
  exact ⟨_, _, rfl⟩

theorem valid_failed (job : StoredJob) (error : Option String) (now : ℤ) :
    ({ job.val with status := .failed, error, updatedAt := now } : VoiceJob).valid = true :=
  job.property

theorem valid_sent (job : StoredJob) (now : ℤ) :
    ({ job.val with status := .sent, error := none, updatedAt := now } : VoiceJob).valid
      = true :=
  job.property

variable (plan) in
/-- A preparation fails and writes no job, or it writes the job of its recording. -/
theorem prepare_cases (writes : Bool) (dir : VoiceOutbox) (recordingId chatJid : String)
    (now : ℤ) :
    (∃ cleaned message,
      prepare plan writes dir recordingId chatJid now = (cleaned, .error message) ∧
        ∀ x ∈ cleaned.jobs.rows, x ∈ dir.jobs.rows) ∨
    ∃ saved stored,
      prepare plan writes dir recordingId chatJid now = (saved, .ok stored) ∧
        stored.val.recordingId = recordingId ∧
        ∀ x ∈ saved.jobs.rows, x ∈ dir.jobs.rows ∨ x = stored := by
  have hcleaned : ∀ x ∈ (cleanup plan dir now (some recordingId)).jobs.rows,
      x ∈ dir.jobs.rows := fun _ h => mem_cleanup h
  unfold prepare
  split
  · exact Or.inl ⟨_, _, rfl, fun _ h => h⟩
  dsimp only
  split
  · exact Or.inl ⟨_, _, rfl, hcleaned⟩
  split
  · exact Or.inl ⟨_, _, rfl, hcleaned⟩
  split
  · exact Or.inl ⟨_, _, rfl, hcleaned⟩
  split
  · exact Or.inl ⟨_, _, rfl, hcleaned⟩
  split
  · rename_i hsaved
    obtain ⟨hstored, hrows⟩ := mem_saveJob hsaved
    refine Or.inr ⟨_, _, rfl, ?_, fun x hx => ?_⟩
    · -- the job is the stored one of the recording, or a new one for it
      rw [hstored]
      rcases hfound : (cleanup plan dir now (some recordingId)).jobs.find? recordingId
        with _ | found
      · rfl
      · have hid := Table.key_of_find? hfound
        exact hid
    · exact ((hrows x).mp hx).imp_left fun h => hcleaned x h.1
  · exact Or.inl ⟨_, _, rfl, hcleaned⟩

/-- The recovery leaves failed jobs only. -/
theorem failed_recoverJobs (now : ℤ) (jobs : List StoredJob)
    (hnodup : (jobs.map (·.val.recordingId)).Nodup) (hmem : ∀ job ∈ jobs, job ∈ dir.jobs.rows)
    (h : ∀ x ∈ dir.jobs.rows, x.val.status ≠ .failed → x ∈ jobs) :
    ∀ x ∈ (recoverJobs true now jobs dir).jobs.rows, x.val.status = .failed := by
  induction jobs generalizing dir with
  | nil =>
    intro x hx
    by_contra hstatus
    cases h x hx hstatus
  | cons job rest ih =>
    rw [List.map_cons, List.nodup_cons] at hnodup
    have hother : ∀ x ∈ rest, x.val.recordingId ≠ job.val.recordingId := fun x hx heq =>
      hnodup.1 (List.mem_map.mpr ⟨x, hx, heq⟩)
    have hrest : ∀ x ∈ rest, x ∈ dir.jobs.rows := fun x hx =>
      hmem x (List.mem_cons_of_mem _ hx)
    unfold recoverJobs
    split
    · refine ih hnodup.2 (fun x hx => ?_) fun x hx hstatus => ?_
      · exact mem_removeJobFiles.mpr ⟨hrest x hx, hother x hx⟩
      · obtain ⟨hx, hne⟩ := mem_removeJobFiles.mp hx
        exact (List.mem_cons.mp (h x hx hstatus)).resolve_left fun heq => hne (heq ▸ rfl)
    · rename_i hfailed
      refine ih hnodup.2 hrest fun x hx hstatus => ?_
      exact (List.mem_cons.mp (h x hx hstatus)).resolve_left fun heq => hstatus (heq ▸ hfailed)
    · obtain ⟨saved, stored, hsaved⟩ := exists_saveJob dir (valid_failed job
        (some "Send was interrupted; retry is safe") now)
      obtain ⟨hstored, hrows⟩ := mem_saveJob hsaved
      rw [hsaved]
      refine ih hnodup.2 (fun x hx => ?_) fun x hx hstatus => ?_
      · exact (hrows x).mpr (Or.inl ⟨hrest x hx, hother x hx⟩)
      · rcases (hrows x).mp hx with ⟨hx, hne⟩ | rfl
        · exact (List.mem_cons.mp (h x hx hstatus)).resolve_left fun heq => hne (heq ▸ rfl)
        · exact absurd (hstored ▸ rfl) hstatus

/-- A daemon that can write its files starts with failed jobs only. -/
theorem failed_recoverInterrupted (dir : VoiceOutbox) (now : ℤ) :
    ∀ x ∈ (recoverInterrupted plan true dir now).jobs.rows, x.val.status = .failed := by
  set cleaned := cleanup plan dir now none with hcleaned
  refine failed_recoverJobs now _ ?_ (fun job hjob => plan.mem_scan.mp hjob)
    fun x hx _ => plan.mem_scan.mpr hx
  exact ((plan.scan_perm cleaned.jobs.rows).map _).nodup_iff.mpr cleaned.jobs.nodup

end VoiceOutbox

/-! ## Commands -/

/-- The job that a command has in hand. -/
def VoiceWrite.job : VoiceWrite → Option StoredJob
  | .prepare _ _ => none
  | .assignDelivery job _ _ => some job
  | .markFailed job _ => some job
  | .finishSent job => some job

def VoicePhase.job : VoicePhase → Option StoredJob
  | .waiting => none
  | .writing write => write.job
  | .prepared job => some job
  | .assigned job => some job

/-- The recording that a command works on. -/
def VoicePhase.recording : VoicePhase → Option String
  | .writing (.prepare recordingId _) => some recordingId
  | phase => phase.job.map (·.val.recordingId)

/-- The write gives the job its last status. -/
def VoiceWrite.settles : VoiceWrite → Bool
  | .markFailed _ _ => true
  | .finishSent _ => true
  | _ => false

namespace VoiceDaemon

variable {s : VoiceDaemon} {x y : VoiceSend} {id : ℕ}

/-- Every job that is being sent has a command that sends it. -/
def Attended (s : VoiceDaemon) : Prop :=
  ∀ job ∈ s.outbox.jobs.rows, job.val.status = .sending →
    ∃ x ∈ s.sends.rows, x.recordingId = job.val.recordingId ∧ x.phase.job.isSome

/-- Every command works on its own recording. -/
def OwnRecording (s : VoiceDaemon) : Prop :=
  ∀ x ∈ s.sends.rows, ∀ recordingId ∈ x.phase.recording, recordingId = x.recordingId

instance (s : VoiceDaemon) : Decidable s.Attended :=
  inferInstanceAs (Decidable (∀ job ∈ s.outbox.jobs.rows, _ → _))

theorem mem_of_find? (h : s.sends.find? id = some x) : x ∈ s.sends.rows ∧ x.id = id :=
  ⟨Table.mem_of_find? h, Table.key_of_find? h⟩

theorem outbox_moveTo (s : VoiceDaemon) (id : ℕ) (phase : Option VoicePhase) :
    (s.moveTo id phase).outbox = s.outbox ∧ (s.moveTo id phase).orphans = s.orphans := by
  cases phase <;> exact ⟨rfl, rfl⟩

/-- The other commands stay as they are. -/
theorem mem_moveTo_of_ne (hx : x ∈ s.sends.rows) (hne : x.id ≠ id) (phase : Option VoicePhase) :
    x ∈ (s.moveTo id phase).sends.rows := by
  cases phase with
  | none => exact Table.mem_deleteWhere.mpr ⟨hx, decide_eq_false hne⟩
  | some phase =>
    dsimp only [VoiceDaemon.moveTo]
    rw [Table.mem_updateWhere]
    exact ⟨x, hx, if_neg (by simpa using hne)⟩

theorem mem_moveTo_self (h : s.sends.find? id = some x) (phase : VoicePhase) :
    { x with phase } ∈ (s.moveTo id (some phase)).sends.rows := by
  obtain ⟨hx, hid⟩ := mem_of_find? h
  dsimp only [VoiceDaemon.moveTo]
  rw [Table.mem_updateWhere]
  exact ⟨x, hx, if_pos (by simpa using hid)⟩

theorem moveTo_cases (h : s.sends.find? id = some x) {phase : Option VoicePhase}
    (hy : y ∈ (s.moveTo id phase).sends.rows) :
    (y ∈ s.sends.rows ∧ y.id ≠ id) ∨ ∃ next, phase = some next ∧ y = { x with phase := next } := by
  cases phase with
  | none =>
    obtain ⟨hy, hne⟩ := Table.mem_deleteWhere.mp hy
    exact Or.inl ⟨hy, of_decide_eq_false hne⟩
  | some next =>
    dsimp only [VoiceDaemon.moveTo] at hy
    rw [Table.mem_updateWhere] at hy
    obtain ⟨z, hz, rfl⟩ := hy
    split
    · rename_i hid
      refine Or.inr ⟨next, rfl, ?_⟩
      have hzx : z = x := s.sends.key_inj hz (mem_of_find? h).1
        ((of_decide_eq_true hid).trans (mem_of_find? h).2.symm)
      rw [hzx]
    · rename_i hid
      exact Or.inl ⟨hz, by simpa using hid⟩

/-- A command that goes on with its own recording. -/
theorem OwnRecording.moveTo (h : s.OwnRecording) (hx : s.sends.find? id = some x)
    {phase : Option VoicePhase}
    (hphase : ∀ next ∈ phase, ∀ recordingId ∈ next.recording, recordingId = x.recordingId) :
    (s.moveTo id phase).OwnRecording := by
  intro y hy
  rcases moveTo_cases hx hy with ⟨hy, -⟩ | ⟨next, rfl, rfl⟩
  · exact h y hy
  · exact hphase next rfl

/-- The jobs of the other commands stay attended. -/
theorem Attended.moveTo (h : s.Attended) (hx : s.sends.find? id = some x) {s' : VoiceDaemon}
    {phase : Option VoicePhase} (hsends : s'.sends = s.sends)
    (hjobs : ∀ job ∈ s'.outbox.jobs.rows, job.val.status = .sending →
      (job ∈ s.outbox.jobs.rows ∧ (x.phase.job.isSome → x.recordingId ≠ job.val.recordingId)) ∨
        (x.recordingId = job.val.recordingId ∧ ∃ next ∈ phase, next.job.isSome)) :
    (s'.moveTo id phase).Attended := by
  intro job hjob hsending
  rw [(outbox_moveTo s' id phase).1] at hjob
  have hx' : s'.sends.find? id = some x := hsends ▸ hx
  rcases hjobs job hjob hsending with ⟨hjob, hother⟩ | ⟨hrecording, next, hnext, hheld⟩
  · obtain ⟨y, hy, hrecording, hheld⟩ := h job hjob hsending
    have hne : y.id ≠ id := by
      intro hid
      have hyx : y = x := s.sends.key_inj hy (mem_of_find? hx).1
        (hid.trans (mem_of_find? hx).2.symm)
      subst hyx
      exact hother hheld hrecording
    exact ⟨y, mem_moveTo_of_ne (hsends ▸ hy) hne phase, hrecording, hheld⟩
  · rw [Option.mem_def] at hnext
    subst hnext
    exact ⟨_, mem_moveTo_self hx' next, hrecording, hheld⟩

/-! ## Writes -/

theorem assignDelivery_eq_ok {writes : Bool} {dir saved : VoiceOutbox} {job stored : StoredJob}
    {chatJid messageId : String} {now : ℤ}
    (h : dir.assignDelivery writes job chatJid messageId now = .ok (saved, stored)) :
    stored.val.recordingId = job.val.recordingId ∧ ∀ x ∈ saved.jobs.rows,
      (x ∈ dir.jobs.rows ∧ x.val.recordingId ≠ job.val.recordingId) ∨ x = stored := by
  unfold VoiceOutbox.assignDelivery at h
  split at h
  · cases h
  · split at h
    · cases h
    · obtain ⟨hstored, hrows⟩ := VoiceOutbox.mem_saveJob h
      exact ⟨hstored ▸ rfl, fun x hx => (hrows x).mp hx⟩

/-- What a write of a command leaves: the jobs that are being sent are the earlier ones of other
recordings and the one that the command goes on with. -/
theorem performed_jobs {write : VoiceWrite} (hphase : x.phase = .writing write)
    (hown : ∀ recordingId ∈ x.phase.recording, recordingId = x.recordingId) {writes : Bool}
    (hwrites : write.settles = true → writes = true) (now : ℤ) (dir : VoiceOutbox) :
    ∀ job ∈ (performed plan writes now dir write).1.jobs.rows, job.val.status = .sending →
      (job ∈ dir.jobs.rows ∧ (x.phase.job.isSome → x.recordingId ≠ job.val.recordingId)) ∨
        (x.recordingId = job.val.recordingId ∧
          ∃ next ∈ settled write (performed plan writes now dir write).2, next.job.isSome) := by
  intro job hjob hsending
  rw [hphase] at hown ⊢
  cases write with
  | prepare recordingId chatJid =>
    have hrecording : recordingId = x.recordingId := hown recordingId rfl
    rcases VoiceOutbox.prepare_cases plan writes dir recordingId chatJid now with
      ⟨cleaned, message, hprepared, hrows⟩ | ⟨saved, stored, hprepared, hid, hrows⟩
    · simp only [performed, hprepared] at hjob ⊢
      exact Or.inl ⟨hrows job hjob, nofun⟩
    · simp only [performed, hprepared] at hjob ⊢
      rcases hrows job hjob with hjob | rfl
      · exact Or.inl ⟨hjob, nofun⟩
      · refine Or.inr ⟨?_, _, rfl, rfl⟩
        rw [hid, hrecording]
  | assignDelivery held chatJid messageId =>
    have hrecording : held.val.recordingId = x.recordingId := hown _ rfl
    simp only [performed] at hjob ⊢
    rcases hassigned : dir.assignDelivery writes held chatJid messageId now with
      message | ⟨saved, stored⟩
    · rw [hassigned] at hjob
      by_cases hsame : x.recordingId = job.val.recordingId
      · exact Or.inr ⟨hsame, _, rfl, rfl⟩
      · exact Or.inl ⟨hjob, fun _ => hsame⟩
    · rw [hassigned] at hjob
      obtain ⟨hstored, hmem⟩ := assignDelivery_eq_ok hassigned
      rcases hmem job hjob with ⟨hjob, hne⟩ | rfl
      · exact Or.inl ⟨hjob, fun _ => hrecording ▸ hne.symm⟩
      · exact Or.inr ⟨by rw [hstored, hrecording], _, rfl, rfl⟩
  | markFailed held error =>
    have hrecording : held.val.recordingId = x.recordingId := hown _ rfl
    obtain ⟨saved, stored, hsaved⟩ := VoiceOutbox.exists_saveJob dir
      (VoiceOutbox.valid_failed held (some (String.ofList (error.toList.take maxErrorChars))) now)
    rw [hwrites rfl] at hjob
    simp only [performed, VoiceOutbox.markFailed, hsaved, performed.written] at hjob
    obtain ⟨hjob, hne⟩ := VoiceOutbox.sending_of_saveJob hsaved nofun hjob hsending
    exact Or.inl ⟨hjob, fun _ => hrecording ▸ hne.symm⟩
  | finishSent held =>
    have hrecording : held.val.recordingId = x.recordingId := hown _ rfl
    obtain ⟨saved, stored, hsaved⟩ := VoiceOutbox.exists_saveJob dir
      (VoiceOutbox.valid_sent held now)
    rw [hwrites rfl] at hjob
    simp only [performed, VoiceOutbox.finishSent, hsaved, performed.written, Except.map] at hjob
    have hsaved' := (VoiceOutbox.mem_removeJobFiles.mp hjob).1
    obtain ⟨hjob, hne⟩ := VoiceOutbox.sending_of_saveJob hsaved nofun hsaved' hsending
    exact Or.inl ⟨hjob, fun _ => hrecording ▸ hne.symm⟩

/-- After a write the command goes on with its own recording. -/
theorem settled_recording {write : VoiceWrite} (hphase : x.phase = .writing write)
    (hown : ∀ recordingId ∈ x.phase.recording, recordingId = x.recordingId) (writes : Bool)
    (now : ℤ) (dir : VoiceOutbox) :
    ∀ next ∈ settled write (performed plan writes now dir write).2,
      ∀ recordingId ∈ next.recording, recordingId = x.recordingId := by
  rw [hphase] at hown
  intro next hnext recordingId hrecording
  cases write with
  | prepare own chatJid =>
    rcases VoiceOutbox.prepare_cases plan writes dir own chatJid now with
      ⟨cleaned, message, hprepared, -⟩ | ⟨saved, stored, hprepared, hid, -⟩
    · simp only [performed, hprepared] at hnext
      cases hnext
    · simp only [performed, hprepared] at hnext
      cases hnext
      cases hrecording
      show stored.val.recordingId = x.recordingId
      rw [hid]
      exact hown own rfl
  | assignDelivery held chatJid messageId =>
    simp only [performed] at hnext
    rcases hassigned : dir.assignDelivery writes held chatJid messageId now with
      message | ⟨saved, stored⟩
    · rw [hassigned] at hnext
      cases hnext
      exact hown recordingId hrecording
    · rw [hassigned] at hnext
      cases hnext
      cases hrecording
      show stored.val.recordingId = x.recordingId
      rw [(assignDelivery_eq_ok hassigned).1]
      exact hown _ rfl
  | markFailed => cases hnext
  | finishSent => cases hnext

/-! ## Runs without interruption -/

/-- The steps that leave no job behind: a command is dropped only while it still waits for its
gates, and the files that settle a job or recover it can be written. -/
def Uninterrupted (s : VoiceDaemon) : VoiceStep → Prop
  | .timeOut id => ∀ x ∈ s.sends.rows, x.id = id → x.phase = .waiting
  | .disconnect connection => ∀ x ∈ s.sends.rows, x.connection = connection → x.phase = .waiting
  | .written id writes _ => ∀ x ∈ s.sends.rows, x.id = id → ∀ write ∈ x.phase.write,
      write.settles = true → writes = true
  | .restart writes _ => writes = true
  | _ => True

instance (s : VoiceDaemon) (a : VoiceStep) : Decidable (s.Uninterrupted a) := by
  apply VoiceStep.casesOn (motive := fun a => Decidable (s.Uninterrupted a)) a
  all_goals
    intros
    dsimp only [Uninterrupted]
    infer_instance

/-- The invariant of such runs. -/
structure Settled (s : VoiceDaemon) : Prop where
  attended : s.Attended
  own : s.OwnRecording
  orphans : s.orphans = []

/-- Dropping a command that waits leaves no write behind. -/
theorem Settled.drop (h : s.Settled) {p : VoiceSend → Bool}
    (hp : ∀ x ∈ s.sends.rows, p x = true → x.phase = .waiting) : (s.drop p).Settled := by
  refine ⟨fun job hjob hsending => ?_, fun x hx => ?_, ?_⟩
  · obtain ⟨x, hx, hrecording, hheld⟩ := h.attended job hjob hsending
    refine ⟨x, Table.mem_deleteWhere.mpr ⟨hx, ?_⟩, hrecording, hheld⟩
    rw [Bool.eq_false_iff]
    intro hdropped
    rw [hp x hx hdropped] at hheld
    cases hheld
  · exact h.own x (Table.mem_deleteWhere.mp hx).1
  · have hnone : (s.sends.rows.filter p).filterMap (fun x => x.phase.write) = [] := by
      rw [List.filterMap_eq_nil_iff]
      intro x hx
      obtain ⟨hx, hdropped⟩ := List.mem_filter.mp hx
      rw [hp x hx hdropped]
      rfl
    show s.orphans ++ _ = []
    rw [h.orphans, hnone]
    rfl

/-- A command that goes on without a write. -/
theorem Settled.moveTo (h : s.Settled) (hx : s.sends.find? id = some x)
    {phase : Option VoicePhase}
    (hown : ∀ next ∈ phase, ∀ recordingId ∈ next.recording, recordingId = x.recordingId)
    (hheld : x.phase.job.isSome → ∃ next ∈ phase, next.job.isSome) :
    (s.moveTo id phase).Settled := by
  refine ⟨h.attended.moveTo hx rfl fun job hjob hsending => ?_, h.own.moveTo hx hown, ?_⟩
  · by_cases hmine : x.phase.job.isSome ∧ x.recordingId = job.val.recordingId
    · exact Or.inr ⟨hmine.2, hheld hmine.1⟩
    · exact Or.inl ⟨hjob, fun hsome heq => hmine ⟨hsome, heq⟩⟩
  · rw [(outbox_moveTo s id phase).2, h.orphans]

/-- A command that goes on with the job it has in hand. -/
theorem Settled.keepJob (h : s.Settled) (hx : s.sends.find? id = some x) {next : VoicePhase}
    (hrecording : next.recording = x.phase.recording) (hjob : next.job.isSome) :
    (s.moveTo id (some next)).Settled := by
  refine h.moveTo hx (fun next' hnext => ?_) fun _ => ⟨next, rfl, hjob⟩
  rw [Option.mem_some_iff] at hnext
  subst hnext
  rw [hrecording]
  exact h.own x (mem_of_find? hx).1

/-- Jobs may go. -/
theorem Settled.of_jobs (h : s.Settled) {s' : VoiceDaemon} (hsends : s'.sends = s.sends)
    (horphans : s'.orphans = s.orphans)
    (hjobs : ∀ job ∈ s'.outbox.jobs.rows, job ∈ s.outbox.jobs.rows) : s'.Settled := by
  refine ⟨fun job hjob hsending => ?_, fun x hx => h.own x (hsends ▸ hx), horphans ▸ h.orphans⟩
  obtain ⟨x, hx, hrest⟩ := h.attended job (hjobs job hjob) hsending
  exact ⟨x, hsends ▸ hx, hrest⟩

theorem Settled.step (h : s.Settled) {a : VoiceStep} (ha : s.Uninterrupted a) :
    (s.step plan a).Settled := by
  cases a with
  | record recording => exact h.of_jobs rfl rfl fun _ hjob => hjob
  | request id connection recordingId chatJid =>
    refine ⟨fun job hjob hsending => ?_, fun x hx => ?_, h.orphans⟩
    · obtain ⟨x, hx, hrest⟩ := h.attended job hjob hsending
      exact ⟨x, Table.mem_insertOrIgnore.mpr (Or.inl hx), hrest⟩
    · rcases Table.mem_insertOrIgnore.mp hx with hx | ⟨rfl, -⟩
      · exact h.own x hx
      · exact nofun
  | reject id =>
    rw [VoiceDaemon.step]
    split
    · rename_i hx
      exact h.moveTo hx nofun nofun
    · exact h
  | start id =>
    rw [VoiceDaemon.step]
    split
    · rename_i hx
      split
      · refine h.moveTo hx ?_ nofun
        rintro next hnext recordingId hrecording
        cases hnext
        cases hrecording
        rfl
      · exact h
    · exact h
  | written id writes now =>
    rw [VoiceDaemon.step]
    split
    · rename_i own chatJid write hx
      have hmem := mem_of_find? hx
      refine ⟨?_, ?_, ?_⟩
      · exact h.attended.moveTo hx rfl (performed_jobs rfl (h.own _ hmem.1)
          (ha _ hmem.1 hmem.2 write rfl) now s.outbox)
      · exact OwnRecording.moveTo (s := { s with
          outbox := (performed plan writes now s.outbox write).1 }) h.own hx
          (settled_recording rfl (h.own _ hmem.1) writes now s.outbox)
      · rw [(outbox_moveTo _ id _).2, h.orphans]
    · exact h
  | assign id chatJid messageId =>
    rw [VoiceDaemon.step]
    split
    · exact h.keepJob ‹_› rfl rfl
    · exact h
  | succeed id =>
    rw [VoiceDaemon.step]
    split
    · exact h.keepJob ‹_› rfl rfl
    · exact h
  | fail id error =>
    rw [VoiceDaemon.step]
    split
    · exact h.keepJob ‹_› rfl rfl
    · exact h.keepJob ‹_› rfl rfl
    · exact h
  | timeOut id => exact h.drop fun x hx hid => ha x hx (of_decide_eq_true hid)
  | disconnect connection => exact h.drop fun x hx hid => ha x hx (of_decide_eq_true hid)
  | orphanWritten write writes now =>
    rw [VoiceDaemon.step, if_neg (by rw [h.orphans]; exact List.not_mem_nil)]
    exact h
  | discard recordingId =>
    rw [VoiceDaemon.step]
    split
    · exact h.of_jobs rfl rfl fun _ hjob => (VoiceOutbox.mem_removeJobFiles.mp hjob).1
    · exact h
  | restart writes now =>
    subst ha
    refine ⟨fun job hjob hsending => ?_, fun x hx => ?_, rfl⟩
    · rw [VoiceOutbox.failed_recoverInterrupted s.outbox now job hjob] at hsending
      cases hsending
    · cases hx

/-- In every run in which no command is dropped between its gates and its end and the settling
writes succeed, every job that is being sent has a running command that sends it; and whatever
a stop of the daemon interrupts is failed, and so can be retried, when it runs again. -/
theorem attended_of_uninterrupted (plan : QueryPlan) (steps : List VoiceStep)
    (hg : Guarded (VoiceDaemon.step plan) Uninterrupted {} steps) :
    ∀ s ∈ states (VoiceDaemon.step plan) {} steps, s.Attended ∧
      ∀ now, ∀ job ∈ (s.step plan (.restart true now)).outbox.jobs.rows,
        job.val.status = .failed := by
  have hempty : Settled {} := ⟨fun _ h => absurd h List.not_mem_nil,
    fun _ h => absurd h List.not_mem_nil, rfl⟩
  intro s hs
  have hsettled : s.Settled :=
    invariant_states (I := Settled) (fun _ _ h ha => h.step ha) hempty hg s hs
  exact ⟨hsettled.attended, fun now => VoiceOutbox.failed_recoverInterrupted s.outbox now⟩

/-- A recording of one second. -/
def shortRecording (recordingId : String) : VoiceRecording :=
  { recordingId, bytes := 2000, modified := 10, checked := .ok 1000 }

/-- A send that fails, a client that leaves with a waiting command, and a restart. -/
theorem attended_of_uninterrupted_failed_upload :
    (run (VoiceDaemon.step .stable) {}
      [.record (shortRecording "a"), .request 1 1 "a" "1@s.whatsapp.net", .start 1,
        .written 1 true 10, .assign 1 "1@s.whatsapp.net" "3EB0", .written 1 true 10,
        .request 2 2 "a" "1@s.whatsapp.net", .disconnect 2, .fail 1 "uploading voice message",
        .written 1 true 11, .restart true 20]).Attended :=
  (attended_of_uninterrupted .stable _ (by decide) _ (run_mem_states _ _ _)).1

/-- The deadline passes during the upload: the job stays behind as being sent. -/
theorem timeOut_strands_job :
    ¬∀ s ∈ states (VoiceDaemon.step .stable) {}
      [.record (shortRecording "a"), .request 1 1 "a" "1@s.whatsapp.net", .start 1,
        .written 1 true 10, .assign 1 "1@s.whatsapp.net" "3EB0", .written 1 true 10,
        .timeOut 1], s.Attended := by
  intro h
  exact absurd (h _ (run_mem_states _ _ _)) (by decide)

end VoiceDaemon

end OmarchyWhatsapp
