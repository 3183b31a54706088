import OmarchyWhatsapp.Outbox.VoiceRetention

/-!
# What a cleanup evicts

The loop of `cleanup_inner` takes the oldest job that it may evict as long as a cap is exceeded. So
it evicts the first `k` of those jobs (`evictedJobs_take`), where `k` is the least number that meets
the caps, or all of them.
-/

namespace OmarchyWhatsapp

open Relational

namespace VoiceOutbox

variable {plan : QueryPlan} {dir : VoiceOutbox} {now : ℤ} {preserve : Option String}

/-- A cap is exceeded. -/
def Exceeded (count bytes : ℕ) : Prop := maxJobs < count ∨ maxOutboxBytes < bytes

/-- Both caps hold of the jobs. -/
def MeetsCaps (dir : VoiceOutbox) (jobs : List StoredJob) : Prop :=
  jobs.length ≤ maxJobs ∧ dir.bytesAmong jobs ≤ maxOutboxBytes

instance (dir : VoiceOutbox) (jobs : List StoredJob) : Decidable (dir.MeetsCaps jobs) :=
  inferInstanceAs (Decidable (_ ∧ _))

/-- The jobs with their recordings, less those that are expired. -/
def liveJobs (dir : VoiceOutbox) (now : ℤ) (preserve : Option String) : List StoredJob :=
  dir.jobs.rows.filter (fun job =>
    (dir.audio.find? job.val.recordingId).isSome && !expired now preserve job)

/-- The job of the preserved recording, or one that is being sent. -/
def spared (now : ℤ) (preserve : Option String) (job : StoredJob) : Bool :=
  decide (preserve = some job.val.recordingId) || isActivelySending job.val now

/-- `after` is left when the oldest jobs are evicted from `dir`, as many as the caps require. -/
structure EvictsOldest (dir after : VoiceOutbox) (now : ℤ) (preserve : Option String) : Prop where
  /-- What stays was live, and its recording stays with it. -/
  stays : ∀ job ∈ after.jobs.rows, job ∈ dir.liveJobs now preserve ∧
    after.audio.find? job.val.recordingId = dir.audio.find? job.val.recordingId
  /-- The preserved job and the jobs that are being sent stay. -/
  spares : ∀ job ∈ dir.jobs.rows, (dir.audio.find? job.val.recordingId).isSome →
    spared now preserve job = true → job ∈ after.jobs.rows
  /-- With a job, every older one that may be evicted is gone. -/
  oldestFirst : ∀ old ∈ dir.liveJobs now preserve, ∀ new ∈ dir.liveJobs now preserve,
    spared now preserve old = false → old.val.createdAt < new.val.createdAt →
      new ∉ after.jobs.rows → old ∉ after.jobs.rows
  /-- A cap is exceeded as long as only older jobs are evicted. -/
  needed : ∀ job ∈ dir.liveJobs now preserve, job ∉ after.jobs.rows →
    ¬dir.MeetsCaps ((dir.liveJobs now preserve).filter (fun other =>
      spared now preserve other || decide (job.val.createdAt ≤ other.val.createdAt)))
  /-- The caps are met, or nothing is left to evict. -/
  meets : after.MeetsCaps after.jobs.rows ∨
    ∀ job ∈ after.jobs.rows, spared now preserve job = true

/-- The loop evicts as few as it can. -/
theorem evictedJobs_take (preserve : Option String) (jobs : List RetainedJob)
    (count totalBytes : ℕ) :
    ∃ k, evictedJobs preserve jobs count totalBytes
        = ((jobs.filter (evictable preserve)).take k).map (·.recordingId) ∧
      (∀ j < k, Exceeded (count - j)
        (totalBytes - retainedBytes ((jobs.filter (evictable preserve)).take j))) ∧
      ((jobs.filter (evictable preserve)).length ≤ k ∨ ¬Exceeded (count - k)
        (totalBytes - retainedBytes ((jobs.filter (evictable preserve)).take k))) := by
  induction jobs generalizing count totalBytes with
  | nil => exact ⟨0, rfl, fun j hj => absurd hj (Nat.not_lt_zero j), Or.inl le_rfl⟩
  | cons job rest ih =>
    rw [evictedJobs]
    by_cases hover : maxJobs < count ∨ maxOutboxBytes < totalBytes
    · rw [if_pos hover]
      by_cases hevict : preserve ≠ some job.recordingId ∧ job.activelySending = false
      · have hhere : evictable preserve job = true := by simpa [evictable] using hevict
        obtain ⟨k, hk, hbefore, hend⟩ := ih (count - 1) (totalBytes - job.audioBytes)
        have hbytes (j : ℕ) : retainedBytes ((job :: rest.filter (evictable preserve)).take (j + 1))
            = job.audioBytes + retainedBytes ((rest.filter (evictable preserve)).take j) := by
          rw [List.take_succ_cons, retainedBytes, List.map_cons, List.sum_cons, retainedBytes]
        rw [if_pos hevict, List.filter_cons_of_pos hhere]
        refine ⟨k + 1, by rw [hk, List.take_succ_cons, List.map_cons], fun j hj => ?_, ?_⟩
        · cases j with
          | zero => exact hover
          | succ j =>
            rw [hbytes, Nat.add_comm j 1, ← Nat.sub_sub, ← Nat.sub_sub]
            exact hbefore j (by omega)
        · rw [hbytes, Nat.add_comm k 1, ← Nat.sub_sub, ← Nat.sub_sub, List.length_cons]
          exact hend.imp (fun h => by omega) id
      · have hhere : ¬evictable preserve job = true := by simpa [evictable] using hevict
        rw [if_neg hevict, List.filter_cons_of_neg hhere]
        exact ih count totalBytes
    · rw [if_neg hover]
      exact ⟨0, rfl, fun j hj => absurd hj (Nat.not_lt_zero j), Or.inr hover⟩

theorem liveJobs_eq (dir : VoiceOutbox) (now : ℤ) (preserve : Option String) :
    dir.liveJobs now preserve
      = (dir.scanned now).jobs.rows.filter (fun job => !expired now preserve job) := by
  rw [liveJobs, scanned, Table.rows_deleteWhere, List.filter_filter]
  refine List.filter_congr fun job _ => ?_
  rw [Bool.and_comm, Option.not_isNone]

theorem liveJobs_sublist (dir : VoiceOutbox) (now : ℤ) (preserve : Option String) :
    (dir.liveJobs now preserve).Sublist dir.jobs.rows := List.filter_sublist

/-- A job that is being sent is not expired. -/
theorem expired_of_spared {job : StoredJob} (h : spared now preserve job = true) :
    expired now preserve job = false := by
  rcases (Bool.or_eq_true _ _).mp h with hpreserve | hactive
  · simp [expired, of_decide_eq_true hpreserve]
  · have hrecent : now - job.val.updatedAt ≤ 15 * 60 :=
      of_decide_eq_true ((Bool.and_eq_true _ _).mp hactive).2
    refine Bool.and_eq_false_iff.mpr (Or.inr (decide_eq_false ?_))
    rw [jobTtlSeconds]
    omega

theorem evictable_retainedJob (job : StoredJob) :
    evictable preserve (dir.retainedJob now job) = !spared now preserve job := by
  rw [evictable, spared, retainedJob, Bool.not_or, decide_not]

theorem retainedJobs_perm_live :
    (retainedJobs plan dir now preserve).Perm
      ((dir.liveJobs now preserve).map (dir.retainedJob now)) := by
  rw [liveJobs_eq]
  exact retainedJobs_perm now preserve

theorem bytesAmong_eq (dir : VoiceOutbox) (now : ℤ) (jobs : List StoredJob) :
    dir.bytesAmong jobs = retainedBytes (jobs.map (dir.retainedJob now)) := by
  rw [bytesAmong, retainedBytes, List.map_map]
  rfl

theorem meetsCaps_iff {jobs : List StoredJob} {retained : List RetainedJob}
    (h : (jobs.map (dir.retainedJob now)).Perm retained) :
    dir.MeetsCaps jobs ↔ ¬Exceeded retained.length (retainedBytes retained) := by
  have hcount : jobs.length = retained.length := by rw [← h.length_eq, List.length_map]
  have hbytes : dir.bytesAmong jobs = retainedBytes retained := by
    rw [bytesAmong_eq dir now, retainedBytes, (h.map _).sum_nat, retainedBytes]
  rw [MeetsCaps, Exceeded, not_or, not_lt, not_lt, hcount, hbytes]

theorem retainedBytes_append (jobs jobs' : List RetainedJob) :
    retainedBytes (jobs ++ jobs') = retainedBytes jobs + retainedBytes jobs' := by
  rw [retainedBytes, List.map_append, List.sum_append, retainedBytes, retainedBytes]

/-- Jobs with distinct times are retained in the order of these. -/
theorem retainedJobs_pairwise (hdistinct : (dir.jobs.rows.map (·.val.createdAt)).Nodup) :
    (retainedJobs plan dir now preserve).Pairwise (fun a b => a.createdAt < b.createdAt) := by
  have hle : (retainedJobs plan dir now preserve).Pairwise
      (fun a b => a.createdAt ≤ b.createdAt) := by
    refine (plan.sorted _ (fun a b => ?_) (fun a b c hab hbc => ?_) _).imp of_decide_eq_true
    · rw [Bool.or_eq_true, decide_eq_true_eq, decide_eq_true_eq]
      exact le_total _ _
    · rw [decide_eq_true_eq] at hab hbc ⊢
      exact hab.trans hbc
  have hne : (retainedJobs plan dir now preserve).Pairwise
      (fun a b => a.createdAt ≠ b.createdAt) := by
    have hnodup : ((retainedJobs plan dir now preserve).map (·.createdAt)).Nodup := by
      refine ((retainedJobs_perm_live.map _).nodup_iff).mpr ?_
      rw [List.map_map]
      exact ((liveJobs_sublist dir now preserve).map _).nodup hdistinct
    exact List.pairwise_map.mp hnodup
  exact hle.imp₂ (fun _ _ h hne => lt_of_le_of_ne h hne) hne

/-- What stays was live, and its recording stays with it. -/
theorem stays_cleanup {job : StoredJob} (h : job ∈ (dir.cleanup plan now preserve).jobs.rows) :
    job ∈ dir.liveJobs now preserve ∧
      (dir.cleanup plan now preserve).audio.find? job.val.recordingId
        = dir.audio.find? job.val.recordingId := by
  rw [cleanup_eq, rows_foldl_removeJobFiles] at h
  obtain ⟨hscanned, hkept⟩ := List.mem_filter.mp h
  have hnot : job.val.recordingId ∉ droppedJobs plan dir now preserve := by simpa using hkept
  have hmem : job ∈ dir.jobs.rows := List.mem_of_mem_filter hscanned
  constructor
  · rw [liveJobs_eq]
    refine List.mem_filter.mpr ⟨hscanned, ?_⟩
    by_contra hexpired
    refine hnot (List.mem_append_left _ (List.mem_map.mpr ⟨job, ?_, rfl⟩))
    exact List.mem_filter.mpr ⟨plan.mem_scan.mpr hscanned, by simpa using hexpired⟩
  · rw [cleanup_eq, find?_audio_foldl, if_neg hnot, find?_audio_scanned, Table.find?_of_mem hmem]
    cases dir.audio.find? job.val.recordingId <;> simp [Option.filter]

/-- A live job stays exactly when the cleanup keeps what it has retained of it. -/
theorem mem_cleanup_iff {kept : List RetainedJob}
    (hperm : ((dir.cleanup plan now preserve).jobs.rows.map (dir.retainedJob now)).Perm kept)
    {job : StoredJob} (hlive : job ∈ dir.liveJobs now preserve) :
    job ∈ (dir.cleanup plan now preserve).jobs.rows ↔ dir.retainedJob now job ∈ kept := by
  rw [← hperm.mem_iff, List.mem_map]
  constructor
  · exact fun h => ⟨job, h, rfl⟩
  · rintro ⟨other, hother, hsame⟩
    have hid : other.val.recordingId = job.val.recordingId :=
      congrArg RetainedJob.recordingId hsame
    have hsub := (liveJobs_sublist dir now preserve).subset
    exact dir.jobs.key_inj (hsub (stays_cleanup hother).1) (hsub hlive) hid ▸ hother

/-- The jobs that would be left if only older jobs than the `j`-th were evicted. -/
theorem live_from_perm (hdistinct : (dir.jobs.rows.map (·.val.createdAt)).Nodup) {j : ℕ}
    {job : StoredJob}
    (hj : j < ((retainedJobs plan dir now preserve).filter (evictable preserve)).length)
    (hjob : ((retainedJobs plan dir now preserve).filter (evictable preserve))[j]
      = dir.retainedJob now job) :
    (((dir.liveJobs now preserve).filter (fun other =>
        spared now preserve other || decide (job.val.createdAt ≤ other.val.createdAt))).map
          (dir.retainedJob now)).Perm
      ((retainedJobs plan dir now preserve).filter (fun other => !evictable preserve other) ++
        ((retainedJobs plan dir now preserve).filter (evictable preserve)).drop j) := by
  set R := retainedJobs plan dir now preserve with hR
  set left : RetainedJob → Bool := fun other =>
    !evictable preserve other || decide (job.val.createdAt ≤ other.createdAt) with hleft
  have hmap : ((dir.liveJobs now preserve).filter (fun other =>
      spared now preserve other || decide (job.val.createdAt ≤ other.val.createdAt))).map
        (dir.retainedJob now)
      = ((dir.liveJobs now preserve).map (dir.retainedJob now)).filter left := by
    rw [List.filter_map]
    congr 1
    refine List.filter_congr fun other _ => ?_
    rw [Function.comp_apply, hleft]
    simp only [evictable_retainedJob, Bool.not_not]
    rfl
  have hspared : (R.filter left).filter (fun other => !evictable preserve other)
      = R.filter (fun other => !evictable preserve other) := by
    rw [List.filter_filter]
    refine List.filter_congr fun other _ => ?_
    cases hother : evictable preserve other <;> simp [hleft, hother]
  have hrest : (R.filter left).filter (evictable preserve)
      = (R.filter (evictable preserve)).drop j := by
    have hsorted := (@retainedJobs_pairwise plan dir now preserve hdistinct).filter
      (evictable preserve)
    rw [← filter_getElem_le hsorted hj, hjob, List.filter_filter, List.filter_filter]
    refine List.filter_congr fun other _ => ?_
    cases hother : evictable preserve other with
    | false => simp
    | true =>
      simp only [hleft, hother, Bool.not_true, Bool.false_or, Bool.true_and, Bool.and_true,
        decide_eq_decide]
      rfl
  have hsplit := List.filter_append_perm (evictable preserve) (R.filter left)
  rw [hspared, hrest] at hsplit
  rw [hmap]
  exact (retainedJobs_perm_live.symm.filter left).trans
    (hsplit.symm.trans List.perm_append_comm)

/-- A cleanup evicts the oldest jobs, and no more of them than the caps require. -/
theorem cleanup_evictsOldest (plan : QueryPlan) (dir : VoiceOutbox)
    (hdistinct : (dir.jobs.rows.map (·.val.createdAt)).Nodup) (now : ℤ)
    (preserve : Option String) :
    EvictsOldest dir (dir.cleanup plan now preserve) now preserve := by
  set R := retainedJobs plan dir now preserve with hR
  set E := R.filter (evictable preserve) with hE
  set S := R.filter (fun job => !evictable preserve job) with hS
  obtain ⟨k, hk, hbefore, hend⟩ := evictedJobs_take preserve R R.length (retainedBytes R)
  have hperm : ((dir.cleanup plan now preserve).jobs.rows.map (dir.retainedJob now)).Perm
      (S ++ E.drop k) := cleanup_perm_of_evicted hk
  have hsorted : E.Pairwise (fun a b => a.createdAt < b.createdAt) :=
    (retainedJobs_pairwise hdistinct).filter _
  have hretained {job : StoredJob} (h : job ∈ dir.liveJobs now preserve) :
      dir.retainedJob now job ∈ R := by
    rw [hR, retainedJobs_perm_live.mem_iff]
    exact List.mem_map_of_mem h
  -- how many jobs are left, and how large they are, when the first `j` are evicted
  have hsplit : (S ++ E).Perm R :=
    List.perm_append_comm.trans (List.filter_append_perm (evictable preserve) R)
  have hcount (j : ℕ) (hj : j ≤ E.length) : R.length - j = (S ++ E.drop j).length := by
    rw [← hsplit.length_eq, List.length_append, List.length_append, List.length_drop]
    omega
  have hbytes (j : ℕ) :
      retainedBytes R - retainedBytes (E.take j) = retainedBytes (S ++ E.drop j) := by
    have hsum : retainedBytes R = retainedBytes (S ++ E) := (hsplit.symm.map _).sum_nat
    have hE : retainedBytes E = retainedBytes (E.take j) + retainedBytes (E.drop j) := by
      rw [← retainedBytes_append, List.take_append_drop]
    rw [hsum, retainedBytes_append, retainedBytes_append, hE]
    omega
  have hstays {job : StoredJob} (h : job ∈ dir.liveJobs now preserve) :
      job ∈ (dir.cleanup plan now preserve).jobs.rows ↔ dir.retainedJob now job ∈ S ++ E.drop k :=
    mem_cleanup_iff hperm h
  -- an evicted job is one of the first `k`
  have hgone {job : StoredJob} (h : job ∈ dir.liveJobs now preserve)
      (hnot : job ∉ (dir.cleanup plan now preserve).jobs.rows) :
      dir.retainedJob now job ∈ E.take k := by
    have hmem := hsplit.mem_iff.mpr (hretained h)
    rw [← List.take_append_drop k E, ← List.append_assoc, List.append_assoc, List.mem_append,
      List.mem_append] at hmem
    rw [hstays h, List.mem_append, not_or] at hnot
    rcases hmem with hmem | hmem | hmem
    · exact absurd hmem hnot.1
    · exact hmem
    · exact absurd hmem hnot.2
  constructor
  · exact fun job hjob => stays_cleanup hjob
  · intro job hjob haudio hspared
    have hlive : job ∈ dir.liveJobs now preserve :=
      List.mem_filter.mpr ⟨hjob, by rw [haudio, expired_of_spared hspared]; rfl⟩
    rw [hstays hlive]
    refine List.mem_append_left _ (List.mem_filter.mpr ⟨hretained hlive, ?_⟩)
    rw [evictable_retainedJob, hspared]
    rfl
  · intro old hold new hnew hevictable hlt hnot hkept
    have hnewer := hgone hnew hnot
    rcases List.mem_append.mp ((hstays hold).mp hkept) with hS' | hdrop
    · have hno := (List.mem_filter.mp hS').2
      rw [evictable_retainedJob, hevictable] at hno
      cases hno
    · rw [← List.take_append_drop k E, List.pairwise_append] at hsorted
      have hless : new.val.createdAt < old.val.createdAt := hsorted.2.2 _ hnewer _ hdrop
      omega
  · intro job hlive hnot
    obtain ⟨j, hj, hjob⟩ := List.mem_take_iff_getElem.mp (hgone hlive hnot)
    have hjk : j < k := (lt_min_iff.mp hj).1
    have hjE : j < E.length := (lt_min_iff.mp hj).2
    have hexceeded := hbefore j hjk
    rw [hcount j hjE.le, hbytes j] at hexceeded
    rw [meetsCaps_iff (live_from_perm hdistinct hjE hjob)]
    exact not_not.mpr hexceeded
  · by_cases hall : E.length ≤ k
    · -- nothing is left to evict
      right
      intro job hjob
      have hkept := (hstays (stays_cleanup hjob).1).mp hjob
      rw [List.drop_eq_nil_of_le hall, List.append_nil] at hkept
      have hno := (List.mem_filter.mp hkept).2
      rw [evictable_retainedJob, Bool.not_not] at hno
      exact hno
    · left
      have hmet := hend.resolve_left hall
      rw [hcount k (by omega), hbytes k] at hmet
      have hcaps := (meetsCaps_iff hperm).mpr hmet
      refine ⟨hcaps.1, le_of_eq_of_le ?_ hcaps.2⟩
      refine bytesAmong_congr fun job hjob => ?_
      rw [bytesOf, (stays_cleanup hjob).2, bytesOf]

/-- Nine notes, one a second, whose uploads do not end. -/
def nineNotes : VoiceOutbox :=
  run (step .stable) {} (["a", "b", "c", "d", "e", "f", "g", "h", "i"].zipIdx.flatMap
    fun note => [.record (VoiceDaemon.shortRecording note.1),
      .write (.prepare note.1 "1@s.whatsapp.net") true (10 + note.2)])

/-- Half an hour later the cleanup evicts the second note when the first one is preserved. -/
theorem cleanup_evictsOldest_nine :
    EvictsOldest nineNotes (nineNotes.cleanup .stable 2000 (some "a")) 2000 (some "a") ∧
      (nineNotes.cleanup .stable 2000 (some "a")).jobs.rows.map (·.val.recordingId)
        = ["a", "c", "d", "e", "f", "g", "h", "i"] :=
  ⟨cleanup_evictsOldest .stable nineNotes (by decide +kernel) 2000 (some "a"), by decide +kernel⟩

end VoiceOutbox

end OmarchyWhatsapp
