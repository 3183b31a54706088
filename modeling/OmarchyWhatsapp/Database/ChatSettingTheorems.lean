import OmarchyWhatsapp.Database.MigrateTheorems

/-!
# Pin, archive and mute across a migration

Each of the three settings is a value with an update time of its own, and on one chat it is
a last-writer-wins register. The migration takes the value of the alias over and leaves the
update times behind. What follows from that is the same for the three settings, so it is
proved once, for a setting as a pair of columns.
-/

namespace OmarchyWhatsapp

open Relational

/-! ## Events -/

inductive SettingChange where
  | pin (pinned : Bool)
  | archive (archived : Bool)
  | mute (muted : Bool) (muteEnd : ℤ)
deriving DecidableEq, Repr

/-- An `apply_pin_at`, `apply_archive_at` or `apply_mute_at`. -/
structure SettingEvent where
  jid : String
  change : SettingChange
  updatedAt : ℤ
deriving DecidableEq, Repr

namespace SettingEvent

def apply (s : Store) (e : SettingEvent) : Store :=
  match e.change with
  | .pin pinned => applyPinAt s e.jid pinned e.updatedAt
  | .archive archived => applyArchiveAt s e.jid archived e.updatedAt
  | .mute muted muteEnd => applyMuteAt s e.jid muted muteEnd e.updatedAt

/-- The row the event proposes. -/
def row (e : SettingEvent) : ChatSettingsRow :=
  match e.change with
  | .pin pinned => { jid := e.jid, pinned := some pinned, pinnedUpdatedAt := e.updatedAt }
  | .archive archived =>
    { jid := e.jid, archived := some archived, archivedUpdatedAt := e.updatedAt }
  | .mute muted muteEnd =>
    { jid := e.jid, muted := some muted, muteEnd := some muteEnd, muteUpdatedAt := e.updatedAt }

/-- A stored row after the event. -/
def update (e : SettingEvent) (r : ChatSettingsRow) : ChatSettingsRow :=
  match e.change with
  | .pin pinned =>
    { r with
      pinned := if r.pinnedUpdatedAt ≤ e.updatedAt then some pinned else r.pinned
      pinnedUpdatedAt := max r.pinnedUpdatedAt e.updatedAt }
  | .archive archived =>
    { r with
      archived := if r.archivedUpdatedAt ≤ e.updatedAt then some archived else r.archived
      archivedUpdatedAt := max r.archivedUpdatedAt e.updatedAt }
  | .mute muted muteEnd =>
    { r with
      muted := if r.muteUpdatedAt ≤ e.updatedAt then some muted else r.muted
      muteEnd := if r.muteUpdatedAt ≤ e.updatedAt then some muteEnd else r.muteEnd
      muteUpdatedAt := max r.muteUpdatedAt e.updatedAt }

theorem find?_apply (s : Store) (e : SettingEvent) (jid : String) :
    (e.apply s).chatSettings.find? jid
      = if jid = e.jid then some ((s.chatSettings.find? jid).elim e.row e.update)
        else s.chatSettings.find? jid := by
  obtain ⟨chatJid, change, updatedAt⟩ := e
  cases change with
  | pin pinned =>
    exact Table.find?_upsert s.chatSettings (SettingEvent.row ⟨chatJid, .pin pinned, updatedAt⟩)
      (fun old new =>
        { old with
          pinned := if old.pinnedUpdatedAt ≤ new.pinnedUpdatedAt then new.pinned
            else old.pinned
          pinnedUpdatedAt := max old.pinnedUpdatedAt new.pinnedUpdatedAt })
      (fun _ _ => rfl) jid
  | archive archived =>
    exact Table.find?_upsert s.chatSettings
      (SettingEvent.row ⟨chatJid, .archive archived, updatedAt⟩)
      (fun old new =>
        { old with
          archived := if old.archivedUpdatedAt ≤ new.archivedUpdatedAt then new.archived
            else old.archived
          archivedUpdatedAt := max old.archivedUpdatedAt new.archivedUpdatedAt })
      (fun _ _ => rfl) jid
  | mute muted muteEnd =>
    exact Table.find?_upsert s.chatSettings
      (SettingEvent.row ⟨chatJid, .mute muted muteEnd, updatedAt⟩)
      (fun old new =>
        { old with
          muted := if old.muteUpdatedAt ≤ new.muteUpdatedAt then new.muted else old.muted
          muteEnd := if old.muteUpdatedAt ≤ new.muteUpdatedAt then new.muteEnd
            else old.muteEnd
          muteUpdatedAt := max old.muteUpdatedAt new.muteUpdatedAt })
      (fun _ _ => rfl) jid

end SettingEvent

/-! ## A setting -/

/-- A setting: its value, its update time, and what events and the migration do to them. -/
structure Setting (V : Type) where
  value : ChatSettingsRow → V
  clock : ChatSettingsRow → ℤ
  /-- The value of a row that has none. -/
  null : V
  /-- `COALESCE`: the first value where it has one. -/
  coalesce : V → V → V
  /-- The value an event writes, if it is an event of this setting. -/
  write : SettingChange → Option V
  coalesce_null : ∀ v, coalesce v null = v
  null_coalesce : ∀ v, coalesce null v = v
  coalesce_write : ∀ c v w, write c = some v → coalesce v w = v
  row : ∀ e : SettingEvent, (value e.row, clock e.row)
    = (write e.change).elim (null, 0) (fun v => (v, e.updatedAt))
  update : ∀ (e : SettingEvent) (r : ChatSettingsRow), (value (e.update r), clock (e.update r))
    = (write e.change).elim (value r, clock r)
      (fun v => if clock r ≤ e.updatedAt then (v, e.updatedAt) else (value r, clock r))
  migrated : ∀ newJid r, (value (migratedSettings newJid r), clock (migratedSettings newJid r))
    = (value r, 0)
  merged : ∀ old new, (value (mergeSettings old new), clock (mergeSettings old new))
    = (coalesce (value new) (value old), clock old)

/-- `pinned`. -/
def pinnedSetting : Setting (Option Bool) where
  value := (·.pinned)
  clock := (·.pinnedUpdatedAt)
  null := none
  coalesce v w := v.or w
  write c := match c with
    | .pin pinned => some (some pinned)
    | _ => none
  coalesce_null v := Option.or_none
  null_coalesce v := Option.none_or
  coalesce_write c v w h := by
    cases c <;> cases h
    rfl
  row e := by
    obtain ⟨jid, change, updatedAt⟩ := e
    cases change <;> rfl
  update e r := by
    obtain ⟨jid, change, updatedAt⟩ := e
    cases change with
    | pin pinned =>
      by_cases h : r.pinnedUpdatedAt ≤ updatedAt
      · simp [SettingEvent.update, h]
      · simp [SettingEvent.update, h, (not_le.mp h).le]
    | archive archived => rfl
    | mute muted muteEnd => rfl
  migrated newJid r := rfl
  merged old new := rfl

/-- `archived`. -/
def archivedSetting : Setting (Option Bool) where
  value := (·.archived)
  clock := (·.archivedUpdatedAt)
  null := none
  coalesce v w := v.or w
  write c := match c with
    | .archive archived => some (some archived)
    | _ => none
  coalesce_null v := Option.or_none
  null_coalesce v := Option.none_or
  coalesce_write c v w h := by
    cases c <;> cases h
    rfl
  row e := by
    obtain ⟨jid, change, updatedAt⟩ := e
    cases change <;> rfl
  update e r := by
    obtain ⟨jid, change, updatedAt⟩ := e
    cases change with
    | pin pinned => rfl
    | archive archived =>
      by_cases h : r.archivedUpdatedAt ≤ updatedAt
      · simp [SettingEvent.update, h]
      · simp [SettingEvent.update, h, (not_le.mp h).le]
    | mute muted muteEnd => rfl
  migrated newJid r := rfl
  merged old new := rfl

/-- `muted` with `mute_end`. -/
def muteSetting : Setting (Option Bool × Option ℤ) where
  value r := (r.muted, r.muteEnd)
  clock := (·.muteUpdatedAt)
  null := (none, none)
  coalesce v w := (v.1.or w.1, v.2.or w.2)
  write c := match c with
    | .mute muted muteEnd => some (some muted, some muteEnd)
    | _ => none
  coalesce_null v := by simp
  null_coalesce v := by simp
  coalesce_write c v w h := by
    cases c <;> cases h
    rfl
  row e := by
    obtain ⟨jid, change, updatedAt⟩ := e
    cases change <;> rfl
  update e r := by
    obtain ⟨jid, change, updatedAt⟩ := e
    cases change with
    | pin pinned => rfl
    | archive archived => rfl
    | mute muted muteEnd =>
      by_cases h : r.muteUpdatedAt ≤ updatedAt
      · simp [SettingEvent.update, h]
      · simp [SettingEvent.update, h, (not_le.mp h).le]
  migrated newJid r := rfl
  merged old new := rfl

namespace Setting

variable {V : Type} (S : Setting V) {s : Store} {oldJid newJid : String}

/-- The setting of a chat with its update time; a chat without settings has none, of time 0. -/
def entry (s : Store) (jid : String) : V × ℤ :=
  (s.chatSettings.find? jid).elim (S.null, 0) (fun r => (S.value r, S.clock r))

/-- What the events of the setting write, with their times. -/
def writes (es : List SettingEvent) : List (V × ℤ) :=
  es.filterMap (fun e => (S.write e.change).map (fun v => (v, e.updatedAt)))

/-- What they write for one chat. -/
def writesTo (jid : String) (es : List SettingEvent) : List (V × ℤ) :=
  S.writes (es.filter (fun e => e.jid = jid))

theorem entry_apply (e : SettingEvent) (jid : String) (he : 0 ≤ e.updatedAt) :
    S.entry (e.apply s) jid = latestFrom Prod.snd (S.entry s jid) (S.writesTo jid [e]) := by
  rw [entry, SettingEvent.find?_apply]
  by_cases hjid : e.jid = jid
  · subst hjid
    have hwrites : S.writesTo e.jid [e]
        = ((S.write e.change).map (fun v => (v, e.updatedAt))).toList := by
      rw [writesTo, List.filter_cons_of_pos (by simp), List.filter_nil, writes,
        List.filterMap_cons, List.filterMap_nil]
      cases S.write e.change <;> rfl
    rw [if_pos rfl, hwrites, entry]
    rcases s.chatSettings.find? e.jid with _ | r
    · -- the columns of a new row start at time 0
      have hrow := S.row e
      cases hw : S.write e.change with
      | none => simpa [hw] using hrow
      | some v => simpa [hw, he] using hrow
    · have hupdate := S.update e r
      cases hw : S.write e.change with
      | none => simpa [hw] using hupdate
      | some v => simpa [hw] using hupdate
  · have hwrites : S.writesTo jid [e] = [] := by
      rw [writesTo, List.filter_cons_of_neg (by simpa using hjid)]
      rfl
    rw [if_neg (Ne.symm hjid), hwrites]
    rfl

/-- Without a migration each chat is a last-writer-wins register. -/
theorem entry_foldl {es : List SettingEvent} (jid : String) (hes : ∀ e ∈ es, 0 ≤ e.updatedAt) :
    S.entry (es.foldl SettingEvent.apply s) jid
      = latestFrom Prod.snd (S.entry s jid) (S.writesTo jid es) := by
  induction es generalizing s with
  | nil => rfl
  | cons e es ih =>
    have hsplit : S.writesTo jid (e :: es) = S.writesTo jid [e] ++ S.writesTo jid es := by
      rw [writesTo, writesTo, writesTo, writes, writes, writes, ← List.filterMap_append,
        ← List.filter_append]
      rfl
    rw [List.foldl_cons, ih (fun e' he' => hes e' (List.mem_cons_of_mem _ he')),
      S.entry_apply e jid (hes e List.mem_cons_self), hsplit, latestFrom_append]

/-- The migration lets the value of the alias win and keeps the time of the canonical chat. -/
theorem entry_migrate (plan : QueryPlan) (hne : oldJid ≠ newJid) :
    S.entry (migrateContactJid plan s oldJid newJid).1 newJid
      = (S.coalesce (S.entry s oldJid).1 (S.entry s newJid).1, (S.entry s newJid).2) := by
  by_cases h : Migrates s oldJid newJid
  · rw [entry, migrateContactJid_settings plan h, if_neg hne.symm, if_pos rfl, mergedSettings,
      entry, entry]
    rcases s.chatSettings.find? oldJid with _ | o
    · exact (congrArg (·, _) (S.null_coalesce _)).symm
    · have hmigrated : S.value (migratedSettings newJid o) = S.value o :=
        congrArg Prod.fst (S.migrated newJid o)
      rcases s.chatSettings.find? newJid with _ | n
      · exact (S.migrated newJid o).trans (congrArg (·, (0 : ℤ)) (S.coalesce_null _).symm)
      · have hmerged := S.merged n (migratedSettings newJid o)
        rw [hmigrated] at hmerged
        exact hmerged
  · -- nothing is stored under the alias, its settings included
    have halias : s.chatSettings.find? oldJid = none := by
      rw [Table.find?_eq_none]
      intro r hr hk
      refine h ⟨hne, ?_⟩
      have hany : s.chatSettings.rows.any (fun c => c.jid = oldJid) = true :=
        List.any_eq_true.mpr ⟨r, hr, decide_eq_true hk⟩
      simp [migrationSourceExists, hany]
    rw [migrateContactJid_of_not_migrates plan h]
    unfold entry
    rw [halias]
    exact (congrArg (·, _) (S.null_coalesce _)).symm

/-! ## Runs with a migration -/

/-- The setting of the canonical chat after `pre`, the migration and `post`. -/
def final (plan : QueryPlan) (s : Store) (oldJid newJid : String) (pre post : List SettingEvent) :
    V :=
  (S.entry (post.foldl SettingEvent.apply
    (migrateContactJid plan (pre.foldl SettingEvent.apply s) oldJid newJid).1) newJid).1

/-- The value of the newest event, where the initial value counts as written at its own
update time. -/
def newest (s : Store) (newJid : String) (es : List SettingEvent) : V :=
  (latestFrom Prod.snd (S.entry s newJid) (S.writes es)).1

/-- What the alias and the canonical chat hold when the migration comes. -/
def held (s : Store) (jid : String) (pre : List SettingEvent) : V × ℤ :=
  latestFrom Prod.snd (S.entry s jid) (S.writesTo jid pre)

/-- The newest event comes after the migration; or it is the canonical chat's own, and the
alias holds no other value; or it is the alias's, and nothing that counts after the
migration has another value. -/
def Kept (s : Store) (oldJid newJid : String) (pre post : List SettingEvent) : Prop :=
  let ofAlias := latest Prod.snd (S.writesTo oldJid pre)
  let after := latest Prod.snd (S.writes post)
  let merged := S.coalesce (S.held s oldJid pre).1 (S.held s newJid pre).1
  let own := S.held s newJid pre
  (∃ q ∈ after, own.2 ≤ q.2 ∧ ∀ p ∈ ofAlias, p.2 < q.2) ∨
  ((∀ p ∈ ofAlias, p.2 < own.2) ∧ (∀ q ∈ after, q.2 < own.2) ∧ merged = own.1) ∨
  ∃ p ∈ ofAlias, own.2 ≤ p.2 ∧ (∀ q ∈ after, own.2 ≤ q.2 → q.2 < p.2 ∧ q.1 = p.1) ∧
    ((∀ q ∈ after, q.2 < own.2) → merged = p.1)

theorem final_eq (plan : QueryPlan) (hne : oldJid ≠ newJid) {pre post : List SettingEvent}
    (hpre : ∀ e ∈ pre, 0 ≤ e.updatedAt) (hpost : ∀ e ∈ post, 0 ≤ e.updatedAt ∧ e.jid = newJid) :
    S.final plan s oldJid newJid pre post
      = (latestFrom Prod.snd (S.coalesce (S.held s oldJid pre).1 (S.held s newJid pre).1,
          (S.held s newJid pre).2) (S.writes post)).1 := by
  have hall : S.writesTo newJid post = S.writes post := by
    rw [writesTo, List.filter_eq_self.mpr fun e he => decide_eq_true (hpost e he).2]
  rw [final, S.entry_foldl newJid fun e he => (hpost e he).1, hall, S.entry_migrate plan hne,
    S.entry_foldl oldJid hpre, S.entry_foldl newJid hpre]
  rfl

/-- No two writes of the setting have one time. -/
theorem writes_inj {es : List SettingEvent} (htimes : (es.map (·.updatedAt)).Nodup)
    {w w' : V × ℤ} (hw : w ∈ S.writes es) (hw' : w' ∈ S.writes es) (ht : w.2 = w'.2) : w = w' := by
  obtain ⟨e, he, hwe⟩ := List.mem_filterMap.mp hw
  obtain ⟨e', he', hwe'⟩ := List.mem_filterMap.mp hw'
  obtain ⟨v, hv, rfl⟩ := Option.map_eq_some_iff.mp hwe
  obtain ⟨v', hv', rfl⟩ := Option.map_eq_some_iff.mp hwe'
  obtain rfl := List.inj_on_of_nodup_map htimes he he' ht
  rw [Option.some_inj.mp (hv.symm.trans hv')]

/-- The events before the migration are those of the canonical chat and those of the alias. -/
theorem newest_eq (hne : oldJid ≠ newJid) {pre post : List SettingEvent}
    (hpre : ∀ e ∈ pre, e.jid = oldJid ∨ e.jid = newJid)
    (htimes : ((pre ++ post).map (·.updatedAt)).Nodup) :
    S.newest s newJid (pre ++ post)
      = (latestFrom Prod.snd (latestFrom Prod.snd (S.held s newJid pre) (S.writesTo oldJid pre))
          (S.writes post)).1 := by
  have hsplit : pre.Perm (pre.filter (fun e => e.jid = newJid) ++
      pre.filter (fun e => e.jid = oldJid)) := by
    refine (List.filter_append_perm (fun e => e.jid = newJid) pre).symm.trans ?_
    refine List.Perm.append_left _ (List.Perm.of_eq (List.filter_congr fun e he => ?_))
    rcases hpre e he with hjid | hjid <;> simp [hjid, hne, hne.symm]
  have hperm : (S.writes (pre ++ post)).Perm
      (S.writesTo newJid pre ++ (S.writesTo oldJid pre ++ S.writes post)) := by
    have hwrites : ∀ l l' : List SettingEvent, S.writes (l ++ l') = S.writes l ++ S.writes l' :=
      fun l l' => List.filterMap_append
    rw [hwrites pre, ← List.append_assoc, writesTo, writesTo, ← hwrites (List.filter _ _)]
    exact (hsplit.filterMap _).append_right _
  rw [newest, latestFrom_perm _ _ hperm fun w hw w' hw' => S.writes_inj htimes hw hw',
    latestFrom_append, latestFrom_append]
  rfl

/-- The setting is last-writer-wins across the migration exactly when it is `Kept`. -/
theorem final_eq_newest_iff (plan : QueryPlan) (hne : oldJid ≠ newJid)
    {pre post : List SettingEvent} (hpre : ∀ e ∈ pre, e.jid = oldJid ∨ e.jid = newJid)
    (hpost : ∀ e ∈ post, e.jid = newJid) (hpos : ∀ e ∈ pre ++ post, 0 ≤ e.updatedAt)
    (htimes : ((pre ++ post).map (·.updatedAt)).Nodup) :
    S.final plan s oldJid newJid pre post = S.newest s newJid (pre ++ post) ↔
      S.Kept s oldJid newJid pre post := by
  have hdistinct : ∀ p ∈ latest Prod.snd (S.writesTo oldJid pre),
      ∀ q ∈ latest Prod.snd (S.writes post), p.2 ≠ q.2 := by
    intro p hp q hq heq
    obtain ⟨e, he, hpe⟩ := List.mem_filterMap.mp (latest_mem _ hp)
    obtain ⟨e', he', hqe⟩ := List.mem_filterMap.mp (latest_mem _ hq)
    obtain ⟨v, -, rfl⟩ := Option.map_eq_some_iff.mp hpe
    obtain ⟨v', -, rfl⟩ := Option.map_eq_some_iff.mp hqe
    rw [List.map_append, List.nodup_append] at htimes
    exact htimes.2.2 _ (List.mem_map_of_mem (List.mem_of_mem_filter he)) _
      (List.mem_map_of_mem he') heq
  rw [S.final_eq plan hne (fun e he => hpos e (List.mem_append_left _ he))
      (fun e he => ⟨hpos e (List.mem_append_right _ he), hpost e he⟩),
    S.newest_eq hne hpre htimes, latestFrom_eq _ _ (S.writes post),
    latestFrom_eq _ _ (S.writes post), latestFrom_eq _ _ (S.writesTo oldJid pre)]
  unfold Kept
  dsimp only
  generalize S.held s newJid pre = own
  generalize S.coalesce (S.held s oldJid pre).1 own.1 = merged
  generalize latest Prod.snd (S.writesTo oldJid pre) = ofAlias at hdistinct ⊢
  generalize latest Prod.snd (S.writes post) = after at hdistinct ⊢
  rcases ofAlias with _ | p <;> rcases after with _ | q
  · simp
  · by_cases hq : own.2 ≤ q.2 <;> simp [hq, not_le.mp]
  · by_cases hp : own.2 ≤ p.2 <;> simp [hp, not_le.mp]
  · have hpq : p.2 ≠ q.2 := hdistinct p rfl q rfl
    simp only [Option.elim_some, Option.mem_def, Option.some_inj, forall_eq', exists_eq_left']
    by_cases hp : own.2 ≤ p.2 <;> by_cases hq : own.2 ≤ q.2
    · rcases lt_or_gt_of_ne hpq with hlt | hlt
      · simp [hlt.le, hlt, hp, hq]
      · simp [hp, hq, hlt, not_le.mpr hlt, not_lt.mpr hlt.le, not_lt.mpr hp, not_lt.mpr hq]
    · -- the later event is older than what the canonical chat holds
      have hlt : q.2 < p.2 := (not_le.mp hq).trans_le hp
      simp [hp, hq, not_lt.mpr hp, not_le.mpr hlt, not_le.mp hq]
    · have hlt : p.2 < q.2 := (not_le.mp hp).trans_le hq
      simp [hp, hq, hlt]
    · simp [hp, hq, not_le.mp hp, not_le.mp hq]

end Setting

/-! ## The three settings -/

variable (plan : QueryPlan) {s : Store} {oldJid newJid : String} {pre post : List SettingEvent}

/-- Each of the three settings of the canonical chat ends with the value of its newest event
exactly when the setting is `Kept`. -/
theorem settings_newest_iff (hne : oldJid ≠ newJid)
    (hpre : ∀ e ∈ pre, e.jid = oldJid ∨ e.jid = newJid) (hpost : ∀ e ∈ post, e.jid = newJid)
    (hpos : ∀ e ∈ pre ++ post, 0 ≤ e.updatedAt)
    (htimes : ((pre ++ post).map (·.updatedAt)).Nodup) :
    (pinnedSetting.final plan s oldJid newJid pre post = pinnedSetting.newest s newJid (pre ++ post)
      ↔ pinnedSetting.Kept s oldJid newJid pre post) ∧
    (archivedSetting.final plan s oldJid newJid pre post
        = archivedSetting.newest s newJid (pre ++ post)
      ↔ archivedSetting.Kept s oldJid newJid pre post) ∧
    (muteSetting.final plan s oldJid newJid pre post = muteSetting.newest s newJid (pre ++ post)
      ↔ muteSetting.Kept s oldJid newJid pre post) :=
  ⟨pinnedSetting.final_eq_newest_iff plan hne hpre hpost hpos htimes,
    archivedSetting.final_eq_newest_iff plan hne hpre hpost hpos htimes,
    muteSetting.final_eq_newest_iff plan hne hpre hpost hpos htimes⟩

/-- A pin of the alias that is older than the unpin of the canonical chat wins, and the time
it is stored with is that of the unpin. -/
theorem migrateContactJid_restores_older_pin :
    let pre : List SettingEvent := [⟨"1@lid", .pin true, 10⟩, ⟨"1", .pin false, 20⟩]
    pinnedSetting.final .stable .empty "1@lid" "1" pre [] = some true ∧
      pinnedSetting.newest .empty "1" (pre ++ []) = some false := by
  decide

/-- The alias was pinned last, and what comes after the migration is another setting. -/
theorem settings_newest_iff_pin_of_alias :
    pinnedSetting.final .stable .empty "1@lid" "1"
      [⟨"1", .pin false, 10⟩, ⟨"1@lid", .pin true, 20⟩] [⟨"1", .archive true, 15⟩]
        = some true :=
  (@settings_newest_iff .stable .empty "1@lid" "1"
    [⟨"1", .pin false, 10⟩, ⟨"1@lid", .pin true, 20⟩] [⟨"1", .archive true, 15⟩]
    (by decide) (by decide) (by decide) (by decide) (by decide)).1.mpr
    (Or.inr (Or.inr ⟨(some true, 20), by decide, by decide, by decide, by decide⟩))

end OmarchyWhatsapp
