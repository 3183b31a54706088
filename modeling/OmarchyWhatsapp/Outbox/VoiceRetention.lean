import Mathlib.Algebra.Order.BigOperators.Group.List
import Mathlib.Algebra.Order.Ring.Nat
import OmarchyWhatsapp.Outbox.VoiceOutboxTheorems

/-!
# The caps of the voice outbox

`cleanup_inner` evicts the oldest jobs until eight jobs and 64 MiB are left. It runs at the start of
a preparation and of a recovery, before they write jobs of their own, and spares the recording
that is prepared and the jobs that are being sent.
-/

namespace OmarchyWhatsapp

open Relational

/-- What the outbox is asked to do. -/
inductive OutboxOp where
  /-- The shell stores a recording. -/
  | record (recording : VoiceRecording)
  | write (write : VoiceWrite) (writes : Bool) (now : ℤ)
  | discard (recordingId : String)
  | cleanup (now : ℤ)
  | recover (writes : Bool) (now : ℤ)

namespace VoiceOutbox

def step (plan : QueryPlan) (dir : VoiceOutbox) : OutboxOp → VoiceOutbox
  | .record recording => { dir with
      audio := (dir.audio.deleteWhere
        (fun a => a.recordingId = recording.recordingId)).insertOrIgnore recording }
  | .write write writes now => (VoiceDaemon.performed plan writes now dir write).1
  | .discard recordingId => dir.removeJobFiles recordingId
  | .cleanup now => dir.cleanup plan now none
  | .recover writes now => dir.recoverInterrupted plan writes now

/-! ## What is retained -/

def bytesOf (dir : VoiceOutbox) (recordingId : String) : ℕ :=
  ((dir.audio.find? recordingId).map (·.bytes)).getD 0

def failedAmong (jobs : List StoredJob) : ℕ := jobs.countP (fun job => job.val.status = .failed)

def bytesAmong (dir : VoiceOutbox) (jobs : List StoredJob) : ℕ :=
  (jobs.map (fun job => dir.bytesOf job.val.recordingId)).sum

/-- At most eight failed jobs, and at most 64 MiB of audio that jobs refer to. -/
def Within (dir : VoiceOutbox) : Prop :=
  failedAmong dir.jobs.rows ≤ maxJobs ∧ dir.bytesAmong dir.jobs.rows ≤ maxOutboxBytes

instance (dir : VoiceOutbox) : Decidable dir.Within := inferInstanceAs (Decidable (_ ∧ _))

/-- The jobs of the other recordings. -/
def others (dir : VoiceOutbox) (recordingId : String) : List StoredJob :=
  dir.jobs.rows.filter (fun job => job.val.recordingId ≠ recordingId)

/-- There is room for a job of the recording beside those of the others. -/
def Admits (dir : VoiceOutbox) (recordingId : String) (status : StoredStatus) : Prop :=
  failedAmong (dir.others recordingId) + (if status = .failed then 1 else 0) ≤ maxJobs ∧
    dir.bytesAmong (dir.others recordingId) + dir.bytesOf recordingId ≤ maxOutboxBytes

instance (dir : VoiceOutbox) (recordingId : String) (status : StoredStatus) :
    Decidable (dir.Admits recordingId status) := inferInstanceAs (Decidable (_ ∧ _))

/-! ## What a cleanup keeps -/

def retainedJob (dir : VoiceOutbox) (now : ℤ) (job : StoredJob) : RetainedJob where
  createdAt := job.val.createdAt
  recordingId := job.val.recordingId
  audioBytes := ((dir.audio.find? job.val.recordingId).map (·.bytes)).getD 0
  activelySending := isActivelySending job.val now

/-- The job has been stored for more than seven days and is not the one that is prepared. -/
def expired (now : ℤ) (preserve : Option String) (job : StoredJob) : Bool :=
  decide (preserve ≠ some job.val.recordingId) && decide (jobTtlSeconds < now - job.val.updatedAt)

/-- The outbox without old recordings that have no job, and jobs that have no recording. -/
def scanned (dir : VoiceOutbox) (now : ℤ) : VoiceOutbox where
  audio := dir.audio.deleteWhere (fun a => decide (dir.jobs.find? a.recordingId = none) &&
    decide (orphanTtlSeconds < now - a.modified))
  jobs := dir.jobs.deleteWhere (fun job => (dir.audio.find? job.val.recordingId).isNone)

/-- The jobs with a recording that are not expired, the oldest first. -/
def retainedJobs (plan : QueryPlan) (dir : VoiceOutbox) (now : ℤ) (preserve : Option String) :
    List RetainedJob :=
  plan.orderBy (fun a b => decide (a.createdAt ≤ b.createdAt))
    (((plan.scan (dir.scanned now).jobs.rows).filter (fun job => !expired now preserve job)).map
      (dir.retainedJob now))

/-- A cleanup may evict the job. -/
def evictable (preserve : Option String) (job : RetainedJob) : Bool :=
  decide (preserve ≠ some job.recordingId) && !job.activelySending

/-- The jobs that stay when more than eight are there: those that may not be evicted, and the
newest of the others. -/
def keptJobs (preserve : Option String) (jobs : List RetainedJob) : List RetainedJob :=
  jobs.filter (fun job => !evictable preserve job) ++
    (jobs.filter (evictable preserve)).drop (jobs.length - maxJobs)

def retainedBytes (jobs : List RetainedJob) : ℕ := (jobs.map (·.audioBytes)).sum

/-- The recording can be read and is neither too short nor too long. -/
def playable (a : VoiceRecording) : Bool :=
  match a.checked with
  | .ok durationMs => decide (minDurationMs ≤ durationMs) && decide (durationMs ≤ maxDurationMs)
  | .error _ => false

/-- The recording that a preparation stores a first job of. -/
def newRecording (dir : VoiceOutbox) (writes : Bool) (recordingId chatJid : String) (now : ℤ) :
    Option VoiceRecording :=
  if chatJid ≠ "" ∧ recordingIdIsValid recordingId = true ∧ writes = true ∧
      dir.jobs.find? recordingId = none then
    ((dir.audio.find? recordingId).filter (fun a =>
      decide (now - a.modified ≤ orphanTtlSeconds))).filter playable
  else none

/-- The jobs that are being sent, with their recordings. -/
def activeJobs (dir : VoiceOutbox) (now : ℤ) : List StoredJob :=
  dir.jobs.rows.filter (fun job => isActivelySending job.val now &&
    (dir.audio.find? job.val.recordingId).isSome)

/-- The outbox has room for what the operation stores. -/
def Fits (plan : QueryPlan) (dir : VoiceOutbox) : OutboxOp → Prop
  | .record recording => (dir.jobs.find? recording.recordingId).isSome →
      dir.bytesAmong (dir.others recording.recordingId) + recording.bytes ≤ maxOutboxBytes
  | .write (.prepare recordingId chatJid) writes now =>
    ∀ a ∈ dir.newRecording writes recordingId chatJid now,
      retainedBytes (keptJobs (some recordingId) (retainedJobs plan dir now (some recordingId))) +
        a.bytes ≤ maxOutboxBytes
  | .write (.assignDelivery job chatJid messageId) writes _ =>
    writes = true → chatJid ≠ "" → messageId ≠ "" →
      job.val.messageId.getD messageId = messageId →
        dir.Admits job.val.recordingId job.val.status
  | .write (.markFailed job _) writes _ => writes = true → dir.Admits job.val.recordingId .failed
  | .write (.finishSent _) _ _ => True
  | .discard _ => True
  | .cleanup _ => True
  | .recover writes now => writes = true → (dir.activeJobs now).length ≤ maxJobs

/-! ## Counting jobs -/

variable {plan : QueryPlan} {dir : VoiceOutbox}

theorem others_sublist (recordingId : String) :
    (dir.others recordingId).Sublist dir.jobs.rows := List.filter_sublist

theorem failedAmong_le_of_sublist {jobs jobs' : List StoredJob} (h : jobs'.Sublist jobs) :
    failedAmong jobs' ≤ failedAmong jobs := h.countP_le

theorem bytesAmong_le_of_sublist {jobs jobs' : List StoredJob} (h : jobs'.Sublist jobs) :
    dir.bytesAmong jobs' ≤ dir.bytesAmong jobs :=
  (h.map _).sum_le_sum fun _ _ => Nat.zero_le _

theorem bytesAmong_congr {dir' : VoiceOutbox} {jobs : List StoredJob}
    (h : ∀ job ∈ jobs, dir'.bytesOf job.val.recordingId = dir.bytesOf job.val.recordingId) :
    dir'.bytesAmong jobs = dir.bytesAmong jobs := by
  rw [bytesAmong, bytesAmong, List.map_congr_left h]

/-- A stored job counts besides the others. -/
theorem rows_perm_others {job : StoredJob} (hjob : job ∈ dir.jobs.rows) :
    dir.jobs.rows.Perm (job :: dir.others job.val.recordingId) := by
  have hsplit := List.filter_append_perm
    (fun x : StoredJob => decide (x.val.recordingId = job.val.recordingId)) dir.jobs.rows
  have hkey := Table.filter_key dir.jobs job.val.recordingId
  rw [Table.find?_of_mem hjob] at hkey
  rw [hkey] at hsplit
  simpa only [others, decide_not, ne_eq, Option.toList_some, List.singleton_append]
    using hsplit.symm

theorem bytesAmong_others {job : StoredJob} (hjob : job ∈ dir.jobs.rows) :
    dir.bytesAmong (dir.others job.val.recordingId) + dir.bytesOf job.val.recordingId
      = dir.bytesAmong dir.jobs.rows := by
  have hsum := ((rows_perm_others hjob).map (fun x => dir.bytesOf x.val.recordingId)).sum_nat
  rw [List.map_cons, List.sum_cons] at hsum
  rw [bytesAmong, bytesAmong, hsum, Nat.add_comm]

/-- A recording without a job. -/
theorem others_eq_rows {recordingId : String} (h : dir.jobs.find? recordingId = none) :
    dir.others recordingId = dir.jobs.rows := by
  rw [others, List.filter_eq_self]
  intro job hjob
  exact decide_eq_true (Table.find?_eq_none.mp h job hjob)

/-! ## Removing and saving -/

theorem rows_removeJobFiles (recordingId : String) :
    (dir.removeJobFiles recordingId).jobs.rows = dir.others recordingId := by
  rw [removeJobFiles, Table.rows_deleteWhere, others]
  simp only [ne_eq, decide_not]

theorem bytesOf_removeJobFiles {recordingId x : String} (h : x ≠ recordingId) :
    (dir.removeJobFiles recordingId).bytesOf x = dir.bytesOf x := by
  rw [bytesOf, removeJobFiles, Table.find?_deleteWhere_key, if_neg h, bytesOf]

theorem bytesOf_removeJobFiles_le (recordingId x : String) :
    (dir.removeJobFiles recordingId).bytesOf x ≤ dir.bytesOf x := by
  by_cases h : x = recordingId
  · rw [bytesOf, removeJobFiles, Table.find?_deleteWhere_key, if_pos h]
    exact Nat.zero_le _
  · exact (bytesOf_removeJobFiles h).le

theorem Within.removeJobFiles (h : dir.Within) (recordingId : String) :
    (dir.removeJobFiles recordingId).Within := by
  have hsub : (dir.others recordingId).Sublist dir.jobs.rows := others_sublist recordingId
  have hbytes : (dir.removeJobFiles recordingId).bytesAmong (dir.others recordingId)
      = dir.bytesAmong (dir.others recordingId) := by
    refine bytesAmong_congr fun job hjob => bytesOf_removeJobFiles ?_
    exact of_decide_eq_true (List.mem_filter.mp hjob).2
  rw [Within, rows_removeJobFiles, hbytes]
  exact ⟨(failedAmong_le_of_sublist hsub).trans h.1, (bytesAmong_le_of_sublist hsub).trans h.2⟩

/-- What is stored once a job is saved. -/
theorem rows_saveJob {writes : Bool} {job : VoiceJob} {saved : VoiceOutbox} {stored : StoredJob}
    (h : saveJob writes dir job = .ok (saved, stored)) :
    stored.val = job ∧ saved.audio = dir.audio ∧
      saved.jobs.rows = dir.others job.recordingId ++ [stored] := by
  unfold saveJob at h
  split at h
  · rename_i hvalid
    split at h
    · cases h
      refine ⟨rfl, rfl, ?_⟩
      have hnew : (dir.jobs.deleteWhere (fun x => x.val.recordingId = job.recordingId)).find?
          job.recordingId = none := by
        rw [Table.find?_deleteWhere_key, if_pos rfl]
      rw [Table.rows_insertOrIgnore, if_pos hnew, Table.rows_deleteWhere, others]
      simp only [ne_eq, decide_not]
    · cases h
  · cases h

theorem ok_of_saveJob {writes : Bool} {job : VoiceJob} {saved : VoiceOutbox} {stored : StoredJob}
    (h : saveJob writes dir job = .ok (saved, stored)) : writes = true ∧ job.valid = true := by
  unfold saveJob at h
  split at h
  · rename_i hvalid
    split at h
    · rename_i hwrites
      exact ⟨hwrites, hvalid⟩
    · cases h
  · cases h

theorem within_saved_iff {writes : Bool} {job : VoiceJob} {saved : VoiceOutbox}
    {stored : StoredJob} (h : saveJob writes dir job = .ok (saved, stored)) :
    saved.Within ↔ dir.Admits job.recordingId job.status := by
  obtain ⟨hstored, haudio, hrows⟩ := rows_saveJob h
  have hbytes (jobs : List StoredJob) : saved.bytesAmong jobs = dir.bytesAmong jobs :=
    bytesAmong_congr fun x _ => by rw [bytesOf, haudio, bytesOf]
  rw [Within, Admits, hbytes, hrows, bytesAmong, List.map_append, List.sum_append, failedAmong,
    List.countP_append, List.countP_singleton, hstored, List.map_singleton, List.sum_singleton]
  simp only [hstored, decide_eq_true_eq]
  rfl

/-- A stored job can be saved with a status that is not failed. -/
theorem Within.admits (h : dir.Within) {job : StoredJob} (hjob : job ∈ dir.jobs.rows)
    {status : StoredStatus} (hstatus : status ≠ .failed) :
    dir.Admits job.val.recordingId status := by
  refine ⟨?_, (bytesAmong_others hjob).le.trans h.2⟩
  rw [if_neg hstatus, Nat.add_zero]
  exact (failedAmong_le_of_sublist (others_sublist job.val.recordingId)).trans h.1

/-! ## Cleaning up -/

theorem rows_foldl_removeJobFiles (recordingIds : List String) :
    (recordingIds.foldl VoiceOutbox.removeJobFiles dir).jobs.rows
      = dir.jobs.rows.filter (fun job => !recordingIds.contains job.val.recordingId) := by
  induction recordingIds generalizing dir with
  | nil => simp
  | cons recordingId recordingIds ih =>
    rw [List.foldl_cons, ih, rows_removeJobFiles, others, List.filter_filter]
    congr 1
    funext job
    simp [Bool.and_comm, decide_not]

theorem find?_audio_foldl (recordingIds : List String) (x : String) :
    (recordingIds.foldl VoiceOutbox.removeJobFiles dir).audio.find? x
      = if x ∈ recordingIds then none else dir.audio.find? x := by
  induction recordingIds generalizing dir with
  | nil => rfl
  | cons recordingId recordingIds ih =>
    rw [List.foldl_cons, ih, VoiceOutbox.removeJobFiles, Table.find?_deleteWhere_key]
    by_cases hx : x = recordingId <;> by_cases hmem : x ∈ recordingIds <;> simp [hx, hmem]

theorem Within.foldl_removeJobFiles (h : dir.Within) (recordingIds : List String) :
    (recordingIds.foldl VoiceOutbox.removeJobFiles dir).Within := by
  induction recordingIds generalizing dir with
  | nil => exact h
  | cons recordingId recordingIds ih => exact ih (h.removeJobFiles recordingId)

theorem bytesOf_scanned_le (now : ℤ) (x : String) :
    (dir.scanned now).bytesOf x ≤ dir.bytesOf x := by
  rw [bytesOf, scanned, Table.find?_deleteWhere, bytesOf]
  rcases dir.audio.find? x with _ | a
  · exact le_rfl
  · rw [Option.filter_some]
    split
    · exact le_rfl
    · exact Nat.zero_le _

theorem Within.scanned (h : dir.Within) (now : ℤ) : (dir.scanned now).Within := by
  have hsub : (dir.scanned now).jobs.rows.Sublist dir.jobs.rows := List.filter_sublist
  refine ⟨(failedAmong_le_of_sublist hsub).trans h.1, ?_⟩
  calc (dir.scanned now).bytesAmong (dir.scanned now).jobs.rows
      ≤ dir.bytesAmong (dir.scanned now).jobs.rows :=
        List.sum_le_sum fun job _ => bytesOf_scanned_le now job.val.recordingId
    _ ≤ dir.bytesAmong dir.jobs.rows := bytesAmong_le_of_sublist hsub
    _ ≤ maxOutboxBytes := h.2

/-- The jobs that a cleanup drops. -/
def droppedJobs (plan : QueryPlan) (dir : VoiceOutbox) (now : ℤ) (preserve : Option String) :
    List String :=
  let retained := retainedJobs plan dir now preserve
  ((plan.scan (dir.scanned now).jobs.rows).filter (expired now preserve)).map
      (·.val.recordingId) ++
    evictedJobs preserve retained retained.length (retainedBytes retained)

theorem cleanup_eq (now : ℤ) (preserve : Option String) :
    dir.cleanup plan now preserve
      = (droppedJobs plan dir now preserve).foldl VoiceOutbox.removeJobFiles
          (dir.scanned now) := rfl

theorem Within.cleanup (h : dir.Within) (now : ℤ) (preserve : Option String) :
    (dir.cleanup plan now preserve).Within := by
  rw [cleanup_eq]
  exact (h.scanned now).foldl_removeJobFiles _

/-! ## Evictions by count -/

/-- As long as the recordings fit, the oldest jobs are evicted that exceed the number of jobs. -/
theorem evictedJobs_eq (preserve : Option String) (jobs : List RetainedJob) {count totalBytes : ℕ}
    (h : totalBytes ≤ maxOutboxBytes) :
    evictedJobs preserve jobs count totalBytes
      = ((jobs.filter (evictable preserve)).take (count - maxJobs)).map (·.recordingId) := by
  induction jobs generalizing count totalBytes with
  | nil => simp [evictedJobs]
  | cons job rest ih =>
    rw [evictedJobs]
    by_cases hcount : maxJobs < count
    · rw [if_pos (Or.inl hcount)]
      by_cases hevict : preserve ≠ some job.recordingId ∧ job.activelySending = false
      · have hhere : evictable preserve job = true := by
          simpa [evictable] using hevict
        rw [if_pos hevict, ih ((Nat.sub_le _ _).trans h), List.filter_cons_of_pos hhere,
          show count - maxJobs = (count - 1 - maxJobs) + 1 by omega, List.take_succ_cons,
          List.map_cons]
      · have hhere : ¬evictable preserve job = true := by
          simpa [evictable] using hevict
        rw [if_neg hevict, ih h, List.filter_cons_of_neg hhere]
    · have hnone : ¬(maxJobs < count ∨ maxOutboxBytes < totalBytes) := by omega
      rw [if_neg hnone, show count - maxJobs = 0 by omega, List.take_zero, List.map_nil]

/-- What is left of jobs of different recordings when the first `n` that may be evicted go. -/
theorem filter_not_evicted_perm {jobs : List RetainedJob}
    (hdistinct : (jobs.map (·.recordingId)).Nodup) (p : RetainedJob → Bool) (n : ℕ) :
    (jobs.filter (fun job => !(((jobs.filter p).take n).map (·.recordingId)).contains
        job.recordingId)).Perm
      (jobs.filter (fun job => !p job) ++ (jobs.filter p).drop n) := by
  set gone := (jobs.filter p).take n with hgone
  have hsub : gone.Sublist jobs := (List.take_sublist _ _).trans List.filter_sublist
  have hmem {job : RetainedJob} (hjob : job ∈ jobs) :
      (gone.map (·.recordingId)).contains job.recordingId = true ↔ job ∈ gone := by
    rw [List.contains_iff_mem, List.mem_map]
    constructor
    · rintro ⟨other, hother, hid⟩
      exact List.inj_on_of_nodup_map hdistinct (hsub.subset hother) hjob hid ▸ hother
    · exact fun h => ⟨job, h, rfl⟩
  have hjobs : jobs.Nodup := List.Nodup.of_map _ hdistinct
  have hsplit : (jobs.filter p ++ jobs.filter (fun job => !p job)).Perm jobs :=
    List.filter_append_perm p jobs
  have hwhole : (gone ++ ((jobs.filter p).drop n ++ jobs.filter (fun job => !p job))).Perm
      jobs := by
    rw [← List.append_assoc, hgone, List.take_append_drop]
    exact hsplit
  have hnodup := (hwhole.nodup_iff.mpr hjobs)
  refine (hwhole.filter _).symm.trans ?_
  have hdropped : gone.filter (fun job => !(gone.map (·.recordingId)).contains job.recordingId)
      = [] := by
    rw [List.filter_eq_nil_iff]
    intro job hjob
    simp only [(hmem (hsub.subset hjob)).mpr hjob, Bool.not_true, Bool.false_eq_true, not_false_iff]
  have hkept : ((jobs.filter p).drop n ++ jobs.filter (fun job => !p job)).filter
      (fun job => !(gone.map (·.recordingId)).contains job.recordingId)
        = (jobs.filter p).drop n ++ jobs.filter (fun job => !p job) := by
    rw [List.filter_eq_self]
    intro job hjob
    have hnot : job ∉ gone := fun h => (List.disjoint_of_nodup_append hnodup) h hjob
    have hin : job ∈ jobs := hwhole.subset (List.mem_append_right _ hjob)
    rw [Bool.not_eq_true', Bool.eq_false_iff]
    exact fun h => hnot ((hmem hin).mp h)
  rw [List.filter_append, hdropped, hkept, List.nil_append]
  exact List.perm_append_comm

/-! ## The jobs that a cleanup keeps -/

theorem retainedJobs_perm (now : ℤ) (preserve : Option String) :
    (retainedJobs plan dir now preserve).Perm
      (((dir.scanned now).jobs.rows.filter (fun job => !expired now preserve job)).map
        (dir.retainedJob now)) :=
  (plan.perm _ _).trans (((plan.scan_perm _).filter _).map _)

theorem nodup_retainedJobs (now : ℤ) (preserve : Option String) :
    ((retainedJobs plan dir now preserve).map (·.recordingId)).Nodup := by
  refine (((retainedJobs_perm now preserve).map _).nodup_iff).mpr ?_
  rw [List.map_map]
  exact (List.filter_sublist.map _).nodup (dir.scanned now).jobs.nodup

/-- The retained recordings are among those that jobs refer to. -/
theorem retainedBytes_le (now : ℤ) (preserve : Option String) :
    retainedBytes (retainedJobs plan dir now preserve) ≤ dir.bytesAmong dir.jobs.rows := by
  have hsum := ((@retainedJobs_perm plan dir now preserve).map (·.audioBytes)).sum_nat
  rw [retainedBytes, hsum, List.map_map]
  have hsub : ((dir.scanned now).jobs.rows.filter (fun job => !expired now preserve job)).Sublist
      dir.jobs.rows := List.filter_sublist.trans List.filter_sublist
  exact bytesAmong_le_of_sublist hsub

/-- Which of the jobs are picked can be told from their recordings. -/
theorem contains_scan_filter {p : StoredJob → Bool} {job : StoredJob} (hjob : job ∈ dir.jobs.rows) :
    (((plan.scan dir.jobs.rows).filter p).map (·.val.recordingId)).contains job.val.recordingId
      = p job := by
  rw [Bool.eq_iff_iff, List.contains_iff_mem, List.mem_map]
  constructor
  · rintro ⟨other, hother, hid⟩
    obtain ⟨hscanned, hp⟩ := List.mem_filter.mp hother
    exact dir.jobs.key_inj (plan.mem_scan.mp hscanned) hjob hid ▸ hp
  · exact fun hp => ⟨job, List.mem_filter.mpr ⟨plan.mem_scan.mpr hjob, hp⟩, rfl⟩

/-- What a cleanup leaves that evicts the first `n` jobs it may evict. -/
theorem cleanup_perm_of_evicted {now : ℤ} {preserve : Option String} {n : ℕ}
    (hevicted : evictedJobs preserve (retainedJobs plan dir now preserve)
        (retainedJobs plan dir now preserve).length
        (retainedBytes (retainedJobs plan dir now preserve))
      = (((retainedJobs plan dir now preserve).filter (evictable preserve)).take n).map
          (·.recordingId)) :
    ((dir.cleanup plan now preserve).jobs.rows.map (dir.retainedJob now)).Perm
      ((retainedJobs plan dir now preserve).filter (fun job => !evictable preserve job) ++
        ((retainedJobs plan dir now preserve).filter (evictable preserve)).drop n) := by
  set R := retainedJobs plan dir now preserve with hR
  rw [cleanup_eq, rows_foldl_removeJobFiles, droppedJobs, ← hR, hevicted]
  set gone := ((R.filter (evictable preserve)).take n).map (·.recordingId)
  have hsplit : ∀ job ∈ (dir.scanned now).jobs.rows,
      (!(((plan.scan (dir.scanned now).jobs.rows).filter (expired now preserve)).map
          (·.val.recordingId) ++ gone).contains job.val.recordingId)
        = (!gone.contains job.val.recordingId && !expired now preserve job) := by
    intro job hjob
    rw [List.contains_append, contains_scan_filter hjob, Bool.not_or, Bool.and_comm]
  rw [List.filter_congr hsplit, ← List.filter_filter]
  have hmap := List.filter_map (f := dir.retainedJob now)
    (p := fun job => !gone.contains job.recordingId)
    (l := (dir.scanned now).jobs.rows.filter (fun job => !expired now preserve job))
  exact (hmap.symm ▸ ((retainedJobs_perm now preserve).filter _).symm).trans
    (filter_not_evicted_perm (nodup_retainedJobs now preserve) _ _)

/-- Where the recordings fit, a cleanup evicts the oldest jobs beyond eight and no other. -/
theorem cleanup_perm (h : dir.Within) (now : ℤ) (preserve : Option String) :
    ((dir.cleanup plan now preserve).jobs.rows.map (dir.retainedJob now)).Perm
      (keptJobs preserve (retainedJobs plan dir now preserve)) :=
  cleanup_perm_of_evicted
    (evictedJobs_eq preserve _ ((retainedBytes_le now preserve).trans h.2))

/-! ## Preparing -/

theorem find?_audio_scanned (now : ℤ) (x : String) :
    (dir.scanned now).audio.find? x = (dir.audio.find? x).filter (fun a =>
      !(decide (dir.jobs.find? x = none) && decide (orphanTtlSeconds < now - a.modified))) := by
  rw [scanned, Table.find?_deleteWhere]
  rcases ha : dir.audio.find? x with _ | a
  · rfl
  · have hid : a.recordingId = x := Table.key_of_find? ha
    simp only [Option.filter_some, hid]

theorem mem_droppedJobs {now : ℤ} {preserve : Option String} {x : String}
    (h : x ∈ droppedJobs plan dir now preserve) : (dir.jobs.find? x).isSome := by
  have hjobs {job : StoredJob} (hjob : job ∈ (dir.scanned now).jobs.rows) :
      (dir.jobs.find? job.val.recordingId).isSome := by
    rw [Table.find?_of_mem (List.mem_of_mem_filter hjob), Option.isSome_some]
  have hevicted : ∀ (jobs : List RetainedJob) (count totalBytes : ℕ),
      ∀ x ∈ evictedJobs preserve jobs count totalBytes, ∃ job ∈ jobs, job.recordingId = x := by
    intro jobs
    induction jobs with
    | nil => exact fun _ _ _ h => absurd h List.not_mem_nil
    | cons job rest ih =>
      intro count totalBytes x hx
      rw [evictedJobs] at hx
      split at hx
      · split at hx
        · rcases List.mem_cons.mp hx with rfl | hx
          · exact ⟨job, List.mem_cons_self, rfl⟩
          · obtain ⟨other, hother, hid⟩ := ih _ _ x hx
            exact ⟨other, List.mem_cons_of_mem _ hother, hid⟩
        · obtain ⟨other, hother, hid⟩ := ih _ _ x hx
          exact ⟨other, List.mem_cons_of_mem _ hother, hid⟩
      · cases hx
  rcases List.mem_append.mp h with h | h
  · obtain ⟨job, hjob, rfl⟩ := List.mem_map.mp h
    exact hjobs (plan.mem_scan.mp (List.mem_of_mem_filter hjob))
  · obtain ⟨retained, hretained, rfl⟩ := hevicted _ _ _ x h
    obtain ⟨job, hjob, rfl⟩ :=
      List.mem_map.mp ((retainedJobs_perm now preserve).mem_iff.mp hretained)
    exact hjobs (List.mem_of_mem_filter hjob)

/-- A recording without a job stays unless it is too old. -/
theorem find?_audio_cleanup {x : String} (h : dir.jobs.find? x = none) (now : ℤ)
    (preserve : Option String) :
    (dir.cleanup plan now preserve).audio.find? x
      = (dir.audio.find? x).filter (fun a => decide (now - a.modified ≤ orphanTtlSeconds)) := by
  have hnot : x ∉ droppedJobs plan dir now preserve := fun hx => by
    have hsome := mem_droppedJobs hx
    rw [h] at hsome
    cases hsome
  rw [cleanup_eq, find?_audio_foldl, if_neg hnot, find?_audio_scanned, h]
  congr 1
  funext a
  simp [← decide_not]

/-- A job whose recording stays is kept with it. -/
theorem find?_jobs_cleanup {x : String} {job : StoredJob} (hjob : dir.jobs.find? x = some job)
    {now : ℤ} {preserve : Option String}
    (haudio : (dir.cleanup plan now preserve).audio.find? x ≠ none) :
    (dir.cleanup plan now preserve).jobs.find? x = some job := by
  obtain ⟨hmem, hid⟩ := Table.find?_eq_some.mp hjob
  rw [cleanup_eq, find?_audio_foldl] at haudio
  split at haudio
  · exact absurd rfl haudio
  · rename_i hnot
    rw [find?_audio_scanned] at haudio
    have hstored : dir.audio.find? x ≠ none := by
      intro hnone
      rw [hnone] at haudio
      exact haudio rfl
    rw [Table.find?_eq_some, cleanup_eq, rows_foldl_removeJobFiles]
    refine ⟨List.mem_filter.mpr ⟨Table.mem_deleteWhere.mpr ⟨hmem, ?_⟩, ?_⟩, hid⟩
    · rw [hid, Option.isNone_eq_false_iff]
      exact Option.isSome_iff_ne_none.mpr hstored
    · rw [hid]
      simpa using hnot

/-- The recordings that the jobs refer to after a cleanup. -/
theorem bytesAmong_cleanup (h : dir.Within) (now : ℤ) (preserve : Option String) :
    (dir.cleanup plan now preserve).bytesAmong (dir.cleanup plan now preserve).jobs.rows
      = retainedBytes (keptJobs preserve (retainedJobs plan dir now preserve)) := by
  rw [retainedBytes, ← ((cleanup_perm h now preserve).map (·.audioBytes)).sum_nat, List.map_map]
  refine bytesAmong_congr fun job hjob => ?_
  rw [cleanup_eq, rows_foldl_removeJobFiles] at hjob
  obtain ⟨hscanned, hnot⟩ := List.mem_filter.mp hjob
  have hnot' : job.val.recordingId ∉ droppedJobs plan dir now preserve := by simpa using hnot
  have hmem : job ∈ dir.jobs.rows := List.mem_of_mem_filter hscanned
  rw [bytesOf, cleanup_eq, find?_audio_foldl, if_neg hnot', find?_audio_scanned,
    Table.find?_of_mem hmem, bytesOf]
  rcases dir.audio.find? job.val.recordingId with _ | a
  · rfl
  · simp [Option.filter_some]

variable (plan) in
/-- A preparation for a job that is stored exceeds no cap. -/
theorem within_prepare_again (h : dir.Within) {recordingId : String} {job : StoredJob}
    (hjob : dir.jobs.find? recordingId = some job) (writes : Bool) (chatJid : String) (now : ℤ) :
    (dir.prepare plan writes recordingId chatJid now).1.Within := by
  have hcleaned : (dir.cleanup plan now (some recordingId)).Within := h.cleanup now _
  unfold prepare
  split
  · exact h
  dsimp only
  split
  · exact hcleaned
  split
  · exact hcleaned
  rename_i audio haudio
  split
  · exact hcleaned
  split
  · exact hcleaned
  have hsome : (dir.cleanup plan now (some recordingId)).audio.find? recordingId ≠ none := by
    rw [haudio]
    exact Option.some_ne_none _
  have hkept := find?_jobs_cleanup hjob hsome
  split
  · rename_i hsaved
    rw [within_saved_iff hsaved, hkept]
    exact hcleaned.admits (Table.mem_of_find? hkept) (fun h => StoredStatus.noConfusion h)
  · exact hcleaned

variable (plan) in
/-- A preparation that stores a new job exceeds no cap if and only if its recording fits beside
those of the jobs that the cleanup keeps. -/
theorem within_prepare_iff (h : dir.Within) {recordingId : String}
    (hnone : dir.jobs.find? recordingId = none) (writes : Bool) (chatJid : String) (now : ℤ) :
    (dir.prepare plan writes recordingId chatJid now).1.Within ↔
      ∀ a ∈ dir.newRecording writes recordingId chatJid now,
        retainedBytes (keptJobs (some recordingId)
          (retainedJobs plan dir now (some recordingId))) + a.bytes ≤ maxOutboxBytes := by
  set cleaned := dir.cleanup plan now (some recordingId) with hcleaned
  have hwithin : cleaned.Within := h.cleanup now _
  have hnew : dir.newRecording writes recordingId chatJid now
      = if chatJid ≠ "" ∧ recordingIdIsValid recordingId = true ∧ writes = true then
          (cleaned.audio.find? recordingId).filter playable else none := by
    rw [newRecording, hcleaned, find?_audio_cleanup hnone]
    simp only [hnone, and_true]
  have hjobs : cleaned.jobs.find? recordingId = none := by
    rw [Table.find?_eq_none] at hnone ⊢
    exact fun job hjob => hnone job (mem_cleanup hjob)
  have hnothing (hr : dir.newRecording writes recordingId chatJid now = none) :
      ∀ a ∈ dir.newRecording writes recordingId chatJid now,
        retainedBytes (keptJobs (some recordingId)
          (retainedJobs plan dir now (some recordingId))) + a.bytes ≤ maxOutboxBytes := by
    rw [hr]
    exact fun _ ha => absurd ha (Option.not_mem_none _)
  unfold prepare
  rw [← hcleaned]
  split
  · rename_i hchat
    exact iff_of_true h (hnothing (by rw [hnew, if_neg (by simp [hchat])]))
  rename_i hchat
  dsimp only
  split
  · rename_i hid
    exact iff_of_true hwithin (hnothing (by rw [hnew, if_neg (by simp [hid])]))
  rename_i hid
  split
  · rename_i haudio
    exact iff_of_true hwithin (hnothing (by rw [hnew, haudio]; simp))
  rename_i audio haudio
  split
  · rename_i hchecked
    exact iff_of_true hwithin (hnothing (by rw [hnew, haudio]; simp [playable, hchecked]))
  rename_i durationMs hchecked
  rw [hjobs]
  split
  · rename_i hchanged
    exact absurd rfl hchanged
  have hid' : recordingIdIsValid recordingId = true := by simpa using hid
  have hvalid (attempts : ℕ) : VoiceJob.valid
      { recordingId, chatJid, durationMs, attempts, createdAt := now, updatedAt := now }
        = playable audio := by
    simp [VoiceJob.valid, playable, hchecked, hid', hchat]
  split
  · rename_i saved stored hsaved
    obtain ⟨hwrites, hplayable⟩ := ok_of_saveJob hsaved
    have hadded : dir.newRecording writes recordingId chatJid now = some audio := by
      rw [hnew, if_pos ⟨hchat, hid', hwrites⟩, haudio, Option.filter_some,
        if_pos ((hvalid _).symm.trans hplayable)]
    have hbytes : cleaned.bytesOf recordingId = audio.bytes := by
      rw [bytesOf, haudio, Option.map_some, Option.getD_some]
    have hfailed : failedAmong cleaned.jobs.rows ≤ maxJobs := hwithin.1
    have hiff : saved.Within ↔ cleaned.Admits recordingId .sending := within_saved_iff hsaved
    rw [hiff, hadded, Admits, others_eq_rows hjobs, hbytes, hcleaned, bytesAmong_cleanup h,
      ← hcleaned]
    simp only [Option.mem_some_iff, forall_eq', reduceCtorEq, if_false, Nat.add_zero,
      and_iff_right hfailed]
  · rename_i hsaved
    refine iff_of_true hwithin (hnothing ?_)
    rw [hnew, haudio, Option.filter_some]
    split
    · rename_i hready
      rw [if_neg]
      intro hplayable
      obtain ⟨saved, stored, hok⟩ := exists_saveJob cleaned ((hvalid 1).trans hplayable)
      rw [hready.2.2] at hsaved
      cases hok.symm.trans hsaved
    · rfl

/-! ## Recovering -/

/-- The recovery gives every job another status, and removes the sent ones. -/
theorem recoverJobs_sizes (writes : Bool) (now : ℤ) (jobs : List StoredJob)
    (hdistinct : (jobs.map (·.val.recordingId)).Nodup) (hmem : ∀ job ∈ jobs, job ∈ dir.jobs.rows) :
    let recovered := recoverJobs writes now jobs dir
    recovered.bytesAmong recovered.jobs.rows ≤ dir.bytesAmong dir.jobs.rows ∧
      recovered.jobs.rows.length ≤ dir.jobs.rows.length ∧
      (writes = true → (∀ job ∈ jobs, job.val.status ≠ .sent) →
        recovered.jobs.rows.length = dir.jobs.rows.length) := by
  induction jobs generalizing dir with
  | nil => exact ⟨le_rfl, le_rfl, fun _ _ => rfl⟩
  | cons job rest ih =>
    obtain ⟨hother, hdistinct⟩ := List.nodup_cons.mp hdistinct
    obtain ⟨hjob, hrest⟩ := List.forall_mem_cons.mp hmem
    have hne : ∀ x ∈ rest, x.val.recordingId ≠ job.val.recordingId := fun x hx heq =>
      hother (List.mem_map.mpr ⟨x, hx, heq⟩)
    have hothers : ∀ x ∈ rest, x ∈ dir.others job.val.recordingId := fun x hx =>
      List.mem_filter.mpr ⟨hrest x hx, decide_eq_true (hne x hx)⟩
    have hlength : dir.jobs.rows.length = (dir.others job.val.recordingId).length + 1 :=
      (rows_perm_others hjob).length_eq
    unfold recoverJobs
    split
    · rename_i hsent
      have hbytes : (dir.removeJobFiles job.val.recordingId).bytesAmong
          (dir.others job.val.recordingId) ≤ dir.bytesAmong dir.jobs.rows := by
        refine le_trans ?_ (bytesAmong_le_of_sublist (others_sublist job.val.recordingId))
        exact List.sum_le_sum fun x _ => bytesOf_removeJobFiles_le _ _
      have hrows := @rows_removeJobFiles dir job.val.recordingId
      obtain ⟨hb, hl, -⟩ := @ih (dir.removeJobFiles job.val.recordingId) hdistinct
        (fun x hx => hrows ▸ hothers x hx)
      rw [hrows] at hb hl
      refine ⟨hb.trans hbytes, hl.trans (by omega), fun _ hnone => ?_⟩
      exact absurd hsent (hnone job List.mem_cons_self)
    · obtain ⟨hb, hl, heq⟩ := ih hdistinct hrest
      exact ⟨hb, hl, fun hw hnone => heq hw fun x hx => hnone x (List.mem_cons_of_mem _ hx)⟩
    · split
      · rename_i saved stored hsaved
        obtain ⟨hstored, haudio, hrows⟩ := rows_saveJob hsaved
        have hrows' : saved.jobs.rows = dir.others job.val.recordingId ++ [stored] := hrows
        have hid : stored.val.recordingId = job.val.recordingId := by rw [hstored]
        have hbytes : saved.bytesAmong saved.jobs.rows = dir.bytesAmong dir.jobs.rows := by
          rw [← bytesAmong_others hjob, hrows']
          have hsame (jobs : List StoredJob) : saved.bytesAmong jobs = dir.bytesAmong jobs :=
            bytesAmong_congr fun x _ => by rw [bytesOf, haudio, bytesOf]
          rw [hsame, bytesAmong, List.map_append, List.sum_append, List.map_singleton,
            List.sum_singleton, hid, bytesAmong]
        have hsize : saved.jobs.rows.length = dir.jobs.rows.length := by
          rw [hrows', hlength, List.length_append, List.length_singleton]
        obtain ⟨hb, hl, heq⟩ := @ih saved hdistinct
          (fun x hx => hrows' ▸ List.mem_append_left _ (hothers x hx))
        rw [hbytes] at hb
        rw [hsize] at hl heq
        exact ⟨hb, hl, fun hw hnone => heq hw fun x hx => hnone x (List.mem_cons_of_mem _ hx)⟩
      · exact ⟨le_rfl, le_rfl, fun _ _ => rfl⟩

/-- A recovery that cannot write only removes jobs. -/
theorem failedAmong_recoverJobs (now : ℤ) (jobs : List StoredJob) :
    failedAmong (recoverJobs false now jobs dir).jobs.rows ≤ failedAmong dir.jobs.rows := by
  induction jobs generalizing dir with
  | nil => exact le_rfl
  | cons job rest ih =>
    unfold recoverJobs
    split
    · refine ih.trans ?_
      rw [rows_removeJobFiles]
      exact failedAmong_le_of_sublist (others_sublist job.val.recordingId)
    · exact ih
    · split
      · rename_i hsaved
        cases (ok_of_saveJob hsaved).1
      · exact le_rfl

/-- What may not be evicted at a recovery is being sent. -/
theorem length_activeJobs (now : ℤ) :
    ((retainedJobs plan dir now none).filter (fun job => !evictable none job)).length
      = (dir.activeJobs now).length := by
  rw [((retainedJobs_perm now none).filter _).length_eq, List.filter_map, List.length_map,
    List.filter_filter, activeJobs, scanned, Table.rows_deleteWhere, List.filter_filter]
  congr 2
  funext job
  have hactive : isActivelySending job.val now = true → expired now none job = false := by
    intro h
    have hrecent : now - job.val.updatedAt ≤ 15 * 60 :=
      of_decide_eq_true ((Bool.and_eq_true _ _).mp h).2
    refine Bool.and_eq_false_iff.mpr (Or.inr (decide_eq_false ?_))
    rw [jobTtlSeconds]
    omega
  by_cases h : isActivelySending job.val now = true
  · simp [h, hactive h, evictable, retainedJob]
  · simp [h, evictable, retainedJob]

variable (plan) in
/-- A recovery exceeds no cap if and only if at most eight jobs are being sent. -/
theorem within_recover_iff (h : dir.Within) (writes : Bool) (now : ℤ) :
    (dir.recoverInterrupted plan writes now).Within ↔
      (writes = true → (dir.activeJobs now).length ≤ maxJobs) := by
  set cleaned := dir.cleanup plan now none with hcleaned
  have hwithin : cleaned.Within := h.cleanup now none
  have hdistinct : ((plan.scan cleaned.jobs.rows).map (·.val.recordingId)).Nodup :=
    ((plan.scan_perm cleaned.jobs.rows).map _).nodup_iff.mpr cleaned.jobs.nodup
  obtain ⟨hbytes, hlength, hsame⟩ := @recoverJobs_sizes cleaned writes now
    (plan.scan cleaned.jobs.rows) hdistinct (fun job hjob => plan.mem_scan.mp hjob)
  have hperm := @cleanup_perm plan dir h now none
  rw [← hcleaned] at hperm
  have hcount := hperm.length_eq
  rw [List.length_map, keptJobs, List.length_append, List.length_drop,
    length_activeJobs] at hcount
  have hsplit : (retainedJobs plan dir now none).length
      = ((retainedJobs plan dir now none).filter (evictable none)).length
        + (dir.activeJobs now).length := by
    rw [← @length_activeJobs plan, ← List.length_append,
      (List.filter_append_perm _ _).length_eq]
  cases writes with
  | false =>
    refine iff_of_true ⟨?_, hbytes.trans hwithin.2⟩ fun h => absurd h Bool.false_ne_true
    exact (failedAmong_recoverJobs now _).trans hwithin.1
  | true =>
    have hfailed := @failed_recoverInterrupted plan dir now
    have hall : failedAmong (dir.recoverInterrupted plan true now).jobs.rows
        = (dir.recoverInterrupted plan true now).jobs.rows.length :=
      List.countP_eq_length.mpr fun job hjob => decide_eq_true (hfailed job hjob)
    rw [Within, hall]
    constructor
    · rintro ⟨hle, -⟩ -
      by_contra hactive
      -- only jobs that are being sent are left
      have hdropped : ((retainedJobs plan dir now none).filter (evictable none)).drop
          ((retainedJobs plan dir now none).length - maxJobs) = [] :=
        List.drop_eq_nil_of_le (by omega)
      rw [keptJobs, hdropped, List.append_nil] at hperm
      have hsending : ∀ job ∈ plan.scan cleaned.jobs.rows, job.val.status ≠ .sent := by
        intro job hjob hsent
        have hkept := hperm.mem_iff.mp
          (List.mem_map_of_mem (f := dir.retainedJob now) (plan.mem_scan.mp hjob))
        have hactive := (List.mem_filter.mp hkept).2
        simp [evictable, retainedJob, isActivelySending, hsent] at hactive
      have hle' : (dir.recoverInterrupted plan true now).jobs.rows.length
          = cleaned.jobs.rows.length := hsame rfl hsending
      omega
    · intro hactive
      refine ⟨?_, hbytes.trans hwithin.2⟩
      refine hlength.trans ?_
      simp only [forall_const] at hactive
      omega

/-! ## Runs -/

variable (plan) in
theorem within_record_iff (h : dir.Within) (recording : VoiceRecording) :
    (dir.step plan (.record recording)).Within ↔ dir.Fits plan (.record recording) := by
  have hfind (x : String) : (dir.step plan (.record recording)).bytesOf x
      = if x = recording.recordingId then recording.bytes else dir.bytesOf x := by
    rw [bytesOf, step, Table.find?_insertOrIgnore, Table.find?_deleteWhere_key]
    by_cases hx : x = recording.recordingId
    · rw [if_pos hx, if_pos hx, if_pos hx]
      rfl
    · rw [if_neg hx, if_neg hx, if_neg hx, bytesOf]
  have hothers : (dir.step plan (.record recording)).bytesAmong (dir.others recording.recordingId)
      = dir.bytesAmong (dir.others recording.recordingId) := by
    refine bytesAmong_congr fun job hjob => ?_
    rw [hfind, if_neg (of_decide_eq_true (List.mem_filter.mp hjob).2)]
  have hfailed : failedAmong (dir.step plan (.record recording)).jobs.rows ≤ maxJobs := h.1
  rw [Within, and_iff_right hfailed, Fits]
  rcases hjob : dir.jobs.find? recording.recordingId with _ | job
  · have hrows : (dir.step plan (.record recording)).jobs.rows = dir.others recording.recordingId :=
      (others_eq_rows hjob).symm
    rw [hrows, hothers, others_eq_rows hjob]
    exact iff_of_true h.2 fun h => absurd h Bool.false_ne_true
  · obtain ⟨hmem, hid⟩ := Table.find?_eq_some.mp hjob
    have hmem' : job ∈ (dir.step plan (.record recording)).jobs.rows := hmem
    have hid' : job.val.recordingId = recording.recordingId := hid
    rw [← bytesAmong_others hmem', hid', hfind, if_pos rfl]
    simp only [Option.isSome_some, forall_const]
    exact iff_of_eq (congrArg (· + recording.bytes ≤ maxOutboxBytes) hothers)

theorem within_written_iff {writes : Bool} {job : VoiceJob} (h : dir.Within)
    (hvalid : job.valid = true) :
    (VoiceDaemon.performed.written dir (saveJob writes dir job)).1.Within ↔
      (writes = true → dir.Admits job.recordingId job.status) := by
  cases writes with
  | false =>
    rw [saveJob, dif_pos hvalid]
    exact iff_of_true h fun h => absurd h Bool.false_ne_true
  | true =>
    obtain ⟨saved, stored, hsaved⟩ := exists_saveJob dir hvalid
    rw [hsaved]
    exact (within_saved_iff hsaved).trans ⟨fun h _ => h, fun h => h rfl⟩

/-- A job that is saved and removed at once leaves what its removal would leave. -/
theorem removeJobFiles_saveJob {writes : Bool} {job : VoiceJob} {saved : VoiceOutbox}
    {stored : StoredJob} (h : saveJob writes dir job = .ok (saved, stored)) :
    saved.removeJobFiles job.recordingId = dir.removeJobFiles job.recordingId := by
  obtain ⟨hstored, haudio, hrows⟩ := rows_saveJob h
  have hjobs : (saved.removeJobFiles job.recordingId).jobs.rows
      = (dir.removeJobFiles job.recordingId).jobs.rows := by
    rw [rows_removeJobFiles, rows_removeJobFiles, others, hrows, List.filter_append]
    simp [others, hstored]
  rw [removeJobFiles, removeJobFiles, haudio]
  exact congrArg _ (Table.ext hjobs)

variable (plan) in
theorem within_step_iff (h : dir.Within) (op : OutboxOp) :
    (dir.step plan op).Within ↔ dir.Fits plan op := by
  cases op with
  | record recording => exact within_record_iff plan h recording
  | discard recordingId => exact iff_of_true (h.removeJobFiles recordingId) trivial
  | cleanup now => exact iff_of_true (h.cleanup now none) trivial
  | recover writes now => exact within_recover_iff plan h writes now
  | write write writes now =>
    cases write with
    | prepare recordingId chatJid =>
      rcases hjob : dir.jobs.find? recordingId with _ | job
      · exact within_prepare_iff plan h hjob writes chatJid now
      · refine iff_of_true (within_prepare_again plan h hjob writes chatJid now) ?_
        intro a ha
        rw [newRecording, if_neg (by simp [hjob])] at ha
        cases ha
    | markFailed job error => exact within_written_iff h (valid_failed job _ now)
    | finishSent job =>
      refine iff_of_true ?_ trivial
      show (VoiceDaemon.performed.written dir (dir.finishSent writes job now)).1.Within
      rw [finishSent]
      rcases hsaved : saveJob writes dir { job.val with
          status := .sent, error := none, updatedAt := now } with error | ⟨saved, stored⟩
      · exact h
      · have hid : stored.val.recordingId = job.val.recordingId := by
          rw [(rows_saveJob hsaved).1]
        show (saved.removeJobFiles stored.val.recordingId).Within
        rw [hid]
        exact (removeJobFiles_saveJob hsaved).symm ▸ h.removeJobFiles job.val.recordingId
    | assignDelivery job chatJid messageId =>
      show (VoiceDaemon.performed.written dir
        (dir.assignDelivery writes job chatJid messageId now)).1.Within ↔ _
      rw [assignDelivery, Fits]
      by_cases hidentity : chatJid = "" ∨ messageId = ""
      · rw [if_pos hidentity]
        refine iff_of_true h fun _ hchat hmessage => ?_
        exact absurd hidentity (not_or.mpr ⟨hchat, hmessage⟩)
      · rw [if_neg hidentity]
        obtain ⟨hchat, hmessage⟩ := not_or.mp hidentity
        by_cases hsame : job.val.messageId.getD messageId = messageId
        · rw [if_neg (not_not.mpr hsame)]
          have hvalid : ({ job.val with chatJid, messageId := some messageId, updatedAt := now } :
              VoiceJob).valid = true := by
            have hjob := job.property
            simp only [VoiceJob.valid, Bool.and_eq_true, decide_eq_true_eq] at hjob ⊢
            exact ⟨⟨⟨⟨hjob.1.1.1.1, hchat⟩, hjob.1.1.2⟩, hjob.1.2⟩, by simpa using hmessage⟩
          refine (within_written_iff h hvalid).trans ?_
          exact ⟨fun hadmits hw _ _ _ => hadmits hw,
            fun hadmits hw => hadmits hw hchat hmessage hsame⟩
        · rw [if_pos hsame]
          exact iff_of_true h fun _ _ _ hid => absurd hid hsame

variable (plan) in
/-- The caps hold after every operation of a run if and only if every operation finds room. -/
theorem within_iff_fits (ops : List OutboxOp) :
    (∀ dir ∈ states (step plan) {} ops, dir.Within) ↔ Guarded (step plan) (Fits plan) {} ops :=
  invariant_states_iff_guarded (fun _ op h => within_step_iff plan h op)
    ⟨Nat.zero_le _, Nat.zero_le _⟩ ops

/-- A recording of the largest size that is accepted. -/
def longRecording (recordingId : String) : VoiceRecording :=
  { recordingId, bytes := 25 * 1024 * 1024, modified := 10, checked := .ok 600000 }

def preparedNote (recording : VoiceRecording) : List OutboxOp :=
  [.record recording, .write (.prepare recording.recordingId "1@s.whatsapp.net") true 10]

/-- The job of a short recording after its preparation. -/
def shortJob (recordingId : String) : VoiceJob :=
  { recordingId, chatJid := "1@s.whatsapp.net", durationMs := 1000, attempts := 1, createdAt := 10,
    updatedAt := 10 }

def failedNote (recordingId : String) : List OutboxOp :=
  preparedNote (VoiceDaemon.shortRecording recordingId) ++
    if h : (shortJob recordingId).valid = true then
      [.write (.markFailed ⟨shortJob recordingId, h⟩ "uploading voice message") true 11]
    else []

/-- The ninth failed note stays beside the eight before it, and the third long recording beside the
two before it. -/
theorem failed_notes_exceed_caps :
    (∃ dir ∈ states (step .stable) {}
        (["a", "b", "c", "d", "e", "f", "g", "h", "i"].flatMap failedNote),
      maxJobs < failedAmong dir.jobs.rows) ∧
    ∃ dir ∈ states (step .stable) {}
        (["a", "b", "c"].flatMap fun recordingId => preparedNote (longRecording recordingId)),
      maxOutboxBytes < dir.bytesAmong dir.jobs.rows := by
  decide +kernel

end VoiceOutbox

end OmarchyWhatsapp
