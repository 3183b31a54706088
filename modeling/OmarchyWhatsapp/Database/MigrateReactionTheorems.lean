import OmarchyWhatsapp.Database.MigrateKeys
import OmarchyWhatsapp.Database.ReactionTheorems

/-!
# Reactions across a migration

The migration moves the visible reactions of the alias where the canonical identity shows
none, whatever their times, and it leaves the tombstones of the alias where they are. After
it the register of a key shows the first visible reaction of the identities, and knows of
the removals of the canonical identity only.
-/

namespace OmarchyWhatsapp

open Relational

/-! ## Moved reactions -/

/-- The event, addressed to the canonical identity. -/
def ReactionRow.renamed (oldJid newJid : String) (e : ReactionRow) : ReactionRow :=
  { e with chatJid := OmarchyWhatsapp.renamed oldJid newJid e.chatJid
           reactorJid := OmarchyWhatsapp.renamed oldJid newJid e.reactorJid }

/-- The keys whose reactions the migration moves to `k`, in the order in which they win. -/
def reactionSources (oldJid newJid : String) (k : String × String × String) :
    List (String × String × String) :=
  (if k.1 = newJid then [k.1, oldJid] else [k.1]).flatMap (fun c =>
    (if k.2.2 = newJid then [k.2.2, oldJid] else [k.2.2]).map (fun x => (c, k.2.1, x)))

/-- The reaction that a key shows after the migration. -/
def migratedReaction (s : Store) (oldJid newJid : String) (k : String × String × String) :
    Option ReactionRow :=
  ((reactionSources oldJid newJid k).findSome? s.reactions.find?).map (·.renamed oldJid newJid)

section Migration

variable (plan : QueryPlan) {s : Store} {oldJid newJid : String}

theorem reactions_migrateContactJid (h : Migrates s oldJid newJid) :
    (migrateContactJid plan s oldJid newJid).1.reactions
      = (migrateAttachments plan (migrateParticipants s oldJid newJid)
          oldJid newJid).reactions := by
  rw [migrateContactJid_of_migrates plan h, dropAlias, applyMigratedName]
  split <;> rfl

/-- The tombstones stay where they are. -/
theorem reactionTombstones_migrateContactJid :
    (migrateContactJid plan s oldJid newJid).1.reactionTombstones = s.reactionTombstones := by
  by_cases h : Migrates s oldJid newJid
  · rw [migrateContactJid_of_migrates plan h, dropAlias, applyMigratedName]
    split <;> rfl
  · rw [migrateContactJid_of_not_migrates plan h]

/-- What the reactor pass leaves for a key, renamed in full. -/
theorem find?_migrateParticipants_reactions (hne : oldJid ≠ newJid) {x : String}
    (hx : x ≠ oldJid) (c m : String) :
    ((migrateParticipants s oldJid newJid).reactions.find? (c, m, x)).map
        (fun r => { r with chatJid := renamed oldJid newJid c })
      = (((if x = newJid then [x, oldJid] else [x]).map (fun y => (c, m, y))).findSome?
          s.reactions.find?).map (·.renamed oldJid newJid) := by
  have hpass := find?_participantPass s.reactions (fun r => decide (r.reactorJid = oldJid))
    (fun r => { r with reactorJid := newJid }) hne (fun _ => rfl) (fun _ => rfl) c m x
  rw [if_neg hx] at hpass
  have hown : (s.reactions.find? (c, m, x)).map
      (fun r => { r with chatJid := renamed oldJid newJid c })
        = (s.reactions.find? (c, m, x)).map (·.renamed oldJid newJid) := by
    refine Table.map_find?_congr fun r hr => ?_
    simp only [ReactionRow.key, Prod.mk.injEq] at hr
    rw [ReactionRow.renamed, hr.1, hr.2.2, renamed_of_ne hx, ← hr.2.2]
  have halias : ((s.reactions.find? (c, m, oldJid)).map
      (fun r : ReactionRow => { r with reactorJid := newJid })).map
        (fun r => { r with chatJid := renamed oldJid newJid c })
          = (s.reactions.find? (c, m, oldJid)).map (·.renamed oldJid newJid) := by
    rw [Option.map_map]
    refine Table.map_find?_congr fun r hr => ?_
    simp only [ReactionRow.key, Prod.mk.injEq] at hr
    rw [ReactionRow.renamed, hr.1, hr.2.2, renamed_old]
    rfl
  refine (congrArg (Option.map _) hpass).trans ?_
  by_cases hnew : x = newJid
  · subst hnew
    have hpair : ([x, oldJid].map (fun y => (c, m, y))).findSome? s.reactions.find?
        = (s.reactions.find? (c, m, x)).or (s.reactions.find? (c, m, oldJid)) := by
      simp only [List.map_cons, List.map_nil, List.findSome?_cons, List.findSome?_nil]
      cases s.reactions.find? (c, m, x) <;> cases s.reactions.find? (c, m, oldJid) <;> rfl
    rw [if_pos rfl, if_pos rfl, Option.map_or, hown, halias, hpair, Option.map_or]
  · rw [if_neg hnew, if_neg hnew, hown]
    cases h : s.reactions.find? (c, m, x) <;> simp [h]

/-- The keys of the alias are empty, and the others show the first reaction there was. -/
theorem find?_reactions_migrateContactJid (h : Migrates s oldJid newJid)
    (k : String × String × String) :
    (migrateContactJid plan s oldJid newJid).1.reactions.find? k
      = if k.1 = oldJid ∨ k.2.2 = oldJid then none
        else migratedReaction s oldJid newJid k := by
  obtain ⟨c, m, x⟩ := k
  have hchats := find?_chatPass (migrateParticipants s oldJid newJid).reactions
    (fun r => decide (r.chatJid = oldJid)) (fun r => { r with chatJid := newJid }) plan keepStored
    (fun _ _ => rfl) (fun _ => rfl) (fun _ => rfl) c m x
  rw [reactions_migrateContactJid plan h]
  refine hchats.trans ?_
  by_cases hc : c = oldJid
  · rw [if_pos hc, if_pos (Or.inl hc)]
  by_cases hx : x = oldJid
  · -- the reactor pass left nothing under the alias
    have hnone : ∀ c, (migrateParticipants s oldJid newJid).reactions.find? (c, m, x) = none := by
      intro c
      have hpass := find?_participantPass s.reactions (fun r => decide (r.reactorJid = oldJid))
        (fun r => { r with reactorJid := newJid }) h.1 (fun _ => rfl) (fun _ => rfl) c m x
      rw [if_pos hx] at hpass
      exact hpass
    rw [if_neg hc, if_pos (Or.inr hx), hnone, hnone, hnone]
    split <;> rfl
  rw [if_neg hc, if_neg (not_or.mpr ⟨hc, hx⟩)]
  have hreactors := fun c => find?_migrateParticipants_reactions (s := s) h.1 hx c m
  have hkept : ∀ c, c ≠ oldJid → ((migrateParticipants s oldJid newJid).reactions.find?
      (c, m, x)).map (fun r => { r with chatJid := renamed oldJid newJid c })
        = (migrateParticipants s oldJid newJid).reactions.find? (c, m, x) := by
    intro c hc
    refine (Table.map_find?_congr (g := id) fun r hr => ?_).trans Option.map_id_apply
    simp only [ReactionRow.key, Prod.mk.injEq] at hr
    rw [renamed_of_ne hc, ← hr.1]
    rfl
  rw [migratedReaction, reactionSources]
  by_cases hnew : c = newJid
  · subst hnew
    rw [if_pos rfl, if_pos rfl]
    simp only [List.flatMap_cons, List.flatMap_nil, List.append_nil]
    rw [List.findSome?_append, Option.map_or, ← hreactors, ← hreactors, hkept c hc, renamed_old]
    cases (migrateParticipants s oldJid c).reactions.find? (c, m, x) <;>
      cases (migrateParticipants s oldJid c).reactions.find? (oldJid, m, x) <;> rfl
  · rw [if_neg hnew, if_neg hnew]
    simp only [List.flatMap_cons, List.flatMap_nil, List.append_nil]
    rw [← hreactors, hkept c hc]

end Migration

/-! ## Runs with a migration -/

section Runs

variable (plan : QueryPlan) (s : Store) (oldJid newJid : String) (pre post : List ReactionRow)

/-- Events, the migration, and events again. -/
def reactionRun : Store :=
  post.foldl receiveReaction
    (migrateContactJid plan (pre.foldl receiveReaction s) oldJid newJid).1

/-- The same events, addressed to the canonical identity from the start. -/
def directRun : Store :=
  ((pre ++ post).map (·.renamed oldJid newJid)).foldl receiveReaction s

/-- The events of `es` that belong to the key `k` once they are renamed. -/
def eventsAt (k : String × String × String) (es : List ReactionRow) : List ReactionRow :=
  es.filter (fun e => (e.renamed oldJid newJid).key = k)

/-- The reaction of a key right after a migration of `m`. -/
def reactionAfter (m : Store) (k : String × String × String) : Option ReactionRow :=
  if Migrates m oldJid newJid then
    if k.1 = oldJid ∨ k.2.2 = oldJid then none else migratedReaction m oldJid newJid k
  else m.reactions.find? k

/-- A removal among the events takes back a reaction of the key. -/
def RemovedBy (es : List ReactionRow) (k : String × String × String) (r : ReactionRow) : Prop :=
  ∃ e ∈ es, e.key = k ∧ e.removes = true ∧ r.timestamp ≤ e.timestamp

instance (es : List ReactionRow) (k : String × String × String) (r : ReactionRow) :
    Decidable (RemovedBy es k r) :=
  inferInstanceAs (Decidable (∃ e ∈ es, _))

/-- The newest event of a key comes after the migration; or it is a reaction, and the one
that the migration keeps; or it is a removal, and what the migration keeps and what comes
after it is removed by the tombstone of the canonical identity or by a later removal. -/
def ReactionKept (k : String × String × String) : Prop :=
  let m := pre.foldl receiveReaction s
  let shown := reactionAfter oldJid newJid m k
  if k.1 = oldJid ∨ k.2.2 = oldJid then shown = none
  else ∀ n ∈ latest ReactionRow.timestamp (eventsAt oldJid newJid k (pre ++ post)),
    n ∈ post ∨
    (n.removes = false ∧ shown = some (n.renamed oldJid newJid)) ∨
    (n.removes = true ∧ (∀ r ∈ shown, RemovedBy post k r) ∧
      ∀ e ∈ post, e.key = k → e.removes = false →
        (∃ t ∈ m.reactionTombstones.find? k, e.timestamp ≤ t.timestamp) ∨ RemovedBy post k e)

variable {s oldJid newJid pre post} {k : String × String × String}

theorem renamed_of_key {e : ReactionRow} (hk : ¬(e.chatJid = oldJid ∨ e.reactorJid = oldJid)) :
    e.renamed oldJid newJid = e := by
  rw [not_or] at hk
  rw [ReactionRow.renamed, renamed_of_ne hk.1, renamed_of_ne hk.2]

theorem mem_reactionSources {k' : String × String × String} (hk : ¬(k.1 = oldJid ∨ k.2.2 = oldJid))
    (hk' : k' ∈ reactionSources oldJid newJid k) :
    (renamed oldJid newJid k'.1, k'.2.1, renamed oldJid newJid k'.2.2) = k := by
  rw [not_or] at hk
  have hmem : ∀ {y z : String}, y ≠ oldJid →
      z ∈ (if y = newJid then [y, oldJid] else [y]) → renamed oldJid newJid z = y := by
    intro y z hy hz
    split at hz
    · rename_i hnew
      rcases List.mem_pair.mp hz with rfl | rfl
      · exact renamed_of_ne hy
      · rw [renamed_old, hnew]
    · rw [List.mem_singleton.mp hz, renamed_of_ne hy]
  obtain ⟨c, hc, hx⟩ := List.mem_flatMap.mp hk'
  obtain ⟨x, hmemx, rfl⟩ := List.mem_map.mp hx
  rw [hmem hk.1 hc, hmem hk.2 hmemx]

/-- What is stored comes from an event. -/
theorem mem_of_shown (hfresh : ∀ k, s.reaction k = {}) {r : ReactionRow}
    (hr : (pre.foldl receiveReaction s).reactions.find? k = some r) : r ∈ pre ∧ r.key = k := by
  rw [find?_reactions_foldl (hfresh k)] at hr
  have hsurvives := (mem_survivors_iff.mp (latest_mem _ hr)).1
  exact ⟨hsurvives.1, hsurvives.2.1⟩

/-- What is shown after the migration is a renamed event of the key. -/
theorem mem_of_reactionAfter (hfresh : ∀ k, s.reaction k = {})
    (hk : ¬(k.1 = oldJid ∨ k.2.2 = oldJid)) {r : ReactionRow}
    (hr : r ∈ reactionAfter oldJid newJid (pre.foldl receiveReaction s) k) :
    ∃ e ∈ pre, e ∈ eventsAt oldJid newJid k (pre ++ post) ∧ e.renamed oldJid newJid = r := by
  unfold reactionAfter at hr
  split at hr
  · rw [Option.mem_def, migratedReaction] at hr
    obtain ⟨e, he, rfl⟩ := Option.map_eq_some_iff.mp hr
    obtain ⟨k', hk', hfound⟩ := List.exists_of_findSome?_eq_some he
    obtain ⟨hpre, hkey⟩ := mem_of_shown hfresh hfound
    refine ⟨e, hpre, List.mem_filter.mpr ⟨List.mem_append_left _ hpre, decide_eq_true ?_⟩, rfl⟩
    rw [← mem_reactionSources hk hk', ← hkey]
    rfl
  · obtain ⟨hpre, hkey⟩ := mem_of_shown hfresh hr
    rw [← hkey] at hk
    have hsame : r.renamed oldJid newJid = r := renamed_of_key hk
    refine ⟨r, hpre, List.mem_filter.mpr ⟨List.mem_append_left _ hpre, decide_eq_true ?_⟩, hsame⟩
    rw [hsame, hkey]

/-- A tombstone is that of a removal of the key. -/
theorem mem_of_tombstone (hfresh : ∀ k, s.reaction k = {})
    (hk : ¬(k.1 = oldJid ∨ k.2.2 = oldJid)) {t : ℤ}
    (ht : t ∈ ((pre.foldl receiveReaction s).reactionTombstones.find? k).map (·.timestamp)) :
    ∃ e ∈ pre, e ∈ eventsAt oldJid newJid k (pre ++ post) ∧ e.timestamp = t := by
  have hsettled : Register.Settled ReactionRow.timestamp ReactionRow.removes (s.reaction k)
      (pre.filter (fun e => e.key = k))
      ((pre.filter (fun e => e.key = k)).foldl arrive (s.reaction k)) :=
    Register.settled_foldl _ _
  have hreg := reaction_foldl s pre k
  have hremoved : t ∈ ((pre.filter (fun e => e.key = k)).foldl arrive
      (s.reaction k)).removedAt := by
    rw [← hreg]
    exact ht
  rcases hsettled.genuine _ hremoved with hbefore | ⟨e, he, -, htime⟩
  · rw [hfresh k] at hbefore
    cases hbefore
  · obtain ⟨hpre, hkey⟩ := List.mem_filter.mp he
    rw [decide_eq_true_eq] at hkey
    refine ⟨e, hpre, List.mem_filter.mpr ⟨List.mem_append_left _ hpre, decide_eq_true ?_⟩, htime⟩
    rw [← hkey] at hk
    rw [renamed_of_key hk, hkey]

/-- No renamed event belongs to a key of the alias. -/
theorem eventsAt_of_alias (hne : oldJid ≠ newJid) (hk : k.1 = oldJid ∨ k.2.2 = oldJid)
    (es : List ReactionRow) : eventsAt oldJid newJid k es = [] := by
  rw [eventsAt, List.filter_eq_nil_iff]
  intro e _ hkey
  rw [decide_eq_true_eq] at hkey
  rcases hk with hk | hk
  · exact renamed_ne hne e.chatJid ((congrArg (·.1) hkey).trans hk)
  · exact renamed_ne hne e.reactorJid ((congrArg (·.2.2) hkey).trans hk)

/-- The events after the migration have their own keys. -/
theorem mem_eventsAt_of_post (hsame : ∀ e ∈ post, e.renamed oldJid newJid = e) {e : ReactionRow}
    (he : e ∈ post) (hkey : e.key = k) : e ∈ eventsAt oldJid newJid k (pre ++ post) := by
  refine List.mem_filter.mpr ⟨List.mem_append_right _ he, decide_eq_true ?_⟩
  rw [hsame e he, hkey]

theorem filter_post_eq_nil (hsame : ∀ e ∈ post, e.renamed oldJid newJid = e)
    (hnone : eventsAt oldJid newJid k (pre ++ post) = []) :
    post.filter (fun e => e.key = k) = [] := by
  rw [List.filter_eq_nil_iff]
  intro e he hkey
  exact List.eq_nil_iff_forall_not_mem.mp hnone e
    (mem_eventsAt_of_post hsame he (of_decide_eq_true hkey))

/-- The register of a key right after the migration. -/
theorem reaction_migrateContactJid (m : Store) :
    (migrateContactJid plan m oldJid newJid).1.reaction k
      = { shown := reactionAfter oldJid newJid m k
          removedAt := (m.reactionTombstones.find? k).map (·.timestamp) } := by
  rw [Store.reaction, reactionTombstones_migrateContactJid, reactionAfter]
  congr 1
  split
  · rename_i h
    exact find?_reactions_migrateContactJid plan h k
  · rename_i h
    rw [migrateContactJid_of_not_migrates plan h]

/-- What a key shows at the end: the latest survivor of what the migration kept and of the
events after it. -/
theorem find?_reactionRun :
    (reactionRun plan s oldJid newJid pre post).reactions.find? k
      = latest ReactionRow.timestamp (Register.survivors ReactionRow.timestamp ReactionRow.removes
          { shown := reactionAfter oldJid newJid (pre.foldl receiveReaction s) k
            removedAt := ((pre.foldl receiveReaction s).reactionTombstones.find? k).map
              (·.timestamp) }
          (post.filter (fun e => e.key = k))) := by
  have hrun := congrArg Register.shown (reaction_foldl
    (migrateContactJid plan (pre.foldl receiveReaction s) oldJid newJid).1 post k)
  rw [reaction_migrateContactJid, Register.shown_foldl] at hrun
  exact hrun

/-- And what it shows when every event was addressed to the canonical identity. -/
theorem find?_directRun (hfresh : ∀ k, s.reaction k = {}) :
    (directRun s oldJid newJid pre post).reactions.find? k
      = latest ReactionRow.timestamp (Register.survivors ReactionRow.timestamp ReactionRow.removes
          {} ((eventsAt oldJid newJid k (pre ++ post)).map (·.renamed oldJid newJid))) := by
  rw [directRun, find?_reactions_foldl (hfresh k), List.filter_map]
  rfl

/-- Addressed to the canonical identity, the newest event of a key decides what it shows. -/
theorem find?_directRun_of_newest (hfresh : ∀ k, s.reaction k = {}) {n : ReactionRow}
    (hn : n ∈ eventsAt oldJid newJid k (pre ++ post))
    (hnewest : ∀ e ∈ eventsAt oldJid newJid k (pre ++ post),
      e = n ∨ e.timestamp < n.timestamp) :
    (directRun s oldJid newJid pre post).reactions.find? k
      = if n.removes then none else some (n.renamed oldJid newJid) := by
  rw [find?_directRun hfresh]
  refine Register.latest_survivors_of_newest (List.mem_map_of_mem hn) ?_
    (fun x hx => by cases hx) (fun t ht => by cases ht)
  intro x hx
  obtain ⟨e, he, rfl⟩ := List.mem_map.mp hx
  exact (hnewest e he).imp_left fun heq => by rw [heq]

/-- If the newest event comes after the migration, it decides there as well. -/
theorem find?_reactionRun_of_late (hfresh : ∀ k, s.reaction k = {})
    (hk : ¬(k.1 = oldJid ∨ k.2.2 = oldJid)) (hsame : ∀ e ∈ post, e.renamed oldJid newJid = e)
    (hapart : ∀ e ∈ pre, ∀ e' ∈ post, e.timestamp ≠ e'.timestamp) {n : ReactionRow}
    (hn : n ∈ eventsAt oldJid newJid k (pre ++ post)) (hpost : n ∈ post)
    (hnewest : ∀ e ∈ eventsAt oldJid newJid k (pre ++ post),
      e = n ∨ e.timestamp < n.timestamp) :
    (reactionRun plan s oldJid newJid pre post).reactions.find? k
      = if n.removes then none else some n := by
  have hkey : n.key = k := by
    rw [← hsame n hpost]
    exact of_decide_eq_true (List.mem_filter.mp hn).2
  have holder : ∀ e ∈ pre, e ∈ eventsAt oldJid newJid k (pre ++ post) →
      e.timestamp < n.timestamp := fun e he hmem =>
    (hnewest e hmem).resolve_left fun heq => hapart e he n hpost (heq ▸ rfl)
  rw [find?_reactionRun plan]
  refine Register.latest_survivors_of_newest (List.mem_filter.mpr ⟨hpost, decide_eq_true hkey⟩)
    (fun e he => ?_) (fun x hx => ?_) fun t ht => ?_
  · obtain ⟨he, hke⟩ := List.mem_filter.mp he
    exact hnewest e (mem_eventsAt_of_post hsame he (of_decide_eq_true hke))
  · obtain ⟨e, he, hmem, rfl⟩ := mem_of_reactionAfter hfresh hk hx
    exact holder e he hmem
  · obtain ⟨e, he, hmem, rfl⟩ := mem_of_tombstone hfresh hk ht
    exact holder e he hmem

/-- Removing, in a run without a newer event. -/
theorem survivors_eq_nil_iff {r : Register ReactionRow ℤ} :
    latest ReactionRow.timestamp (Register.survivors ReactionRow.timestamp ReactionRow.removes r
        (post.filter (fun e => e.key = k))) = none ↔
      (∀ x ∈ r.shown, RemovedBy post k x) ∧ ∀ e ∈ post, e.key = k → e.removes = false →
        (∃ t ∈ r.removedAt, e.timestamp ≤ t) ∨ RemovedBy post k e := by
  have hcovered : ∀ x, Register.Covered ReactionRow.timestamp ReactionRow.removes
      (post.filter (fun e => e.key = k)) x ↔ RemovedBy post k x := by
    intro x
    simp only [Register.Covered, RemovedBy, List.mem_filter, decide_eq_true_eq, and_assoc]
  rw [latest_eq_none, List.eq_nil_iff_forall_not_mem]
  simp only [Register.mem_survivors, hcovered, List.mem_filter, decide_eq_true_eq]
  constructor
  · intro hnone
    refine ⟨fun x hx => ?_, fun e he hk hrem => ?_⟩
    · by_contra hnot
      exact hnone x ⟨Or.inl hx, hnot⟩
    · by_contra hnot
      rw [not_or] at hnot
      refine hnone e ⟨Or.inr ⟨⟨he, hk⟩, hrem, fun t ht => ?_⟩, hnot.2⟩
      exact not_le.mp fun hle => hnot.1 ⟨t, ht, hle⟩
  · rintro ⟨hshown, hpost⟩ x ⟨hx | ⟨⟨hx, hk⟩, hrem, hnewer⟩, hnot⟩
    · exact hnot (hshown x hx)
    · rcases hpost x hx hk hrem with ⟨t, ht, hle⟩ | hback
      · exact absurd (hnewer t ht) (not_lt.mpr hle)
      · exact hnot hback

/-- The visible reactions at the end are those of the events addressed to the canonical
identity from the start, at exactly the keys that are `ReactionKept`. -/
theorem reactions_migrated_iff (hne : oldJid ≠ newJid) (hfresh : ∀ k, s.reaction k = {})
    (hpost : ∀ e ∈ post, e.chatJid ≠ oldJid ∧ e.reactorJid ≠ oldJid)
    (htimes : ((pre ++ post).map (·.timestamp)).Nodup) (k : String × String × String) :
    (reactionRun plan s oldJid newJid pre post).reactions.find? k
        = (directRun s oldJid newJid pre post).reactions.find? k ↔
      ReactionKept s oldJid newJid pre post k := by
  have hsame : ∀ e ∈ post, e.renamed oldJid newJid = e := fun e he =>
    renamed_of_key (not_or.mpr (hpost e he))
  have hapart : ∀ e ∈ pre, ∀ e' ∈ post, e.timestamp ≠ e'.timestamp := by
    intro e he e' he'
    rw [List.map_append, List.nodup_append] at htimes
    exact htimes.2.2 _ (List.mem_map_of_mem he) _ (List.mem_map_of_mem he')
  rw [ReactionKept]
  by_cases hk : k.1 = oldJid ∨ k.2.2 = oldJid
  · simp only [if_pos hk]
    rw [find?_reactionRun plan, find?_directRun hfresh, eventsAt_of_alias hne hk,
      filter_post_eq_nil hsame (eventsAt_of_alias hne hk (pre ++ post)), List.map_nil,
      ← Register.settled_nil.shown, ← Register.settled_nil.shown]
  simp only [if_neg hk]
  rcases hn : latest ReactionRow.timestamp (eventsAt oldJid newJid k (pre ++ post)) with _ | n
  · -- without events nothing is shown in either run
    rw [latest_eq_none] at hn
    have hshown : reactionAfter oldJid newJid (pre.foldl receiveReaction s) k = none := by
      rw [Option.eq_none_iff_forall_not_mem]
      intro x hx
      obtain ⟨e, he⟩ : ∃ e, e ∈ eventsAt oldJid newJid k (pre ++ post) := by
        obtain ⟨e, -, he, -⟩ := mem_of_reactionAfter hfresh hk hx
        exact ⟨e, he⟩
      rw [hn] at he
      cases he
    rw [find?_reactionRun plan, find?_directRun hfresh, hn, filter_post_eq_nil hsame hn,
      List.map_nil, ← Register.settled_nil.shown, ← Register.settled_nil.shown, hshown]
    simp
  have hnmem := latest_mem _ hn
  have hnewest : ∀ e ∈ eventsAt oldJid newJid k (pre ++ post),
      e = n ∨ e.timestamp < n.timestamp := by
    intro e he
    refine (le_latest _ hn he).eq_or_lt.imp_left fun heq => ?_
    exact List.inj_on_of_nodup_map htimes (List.mem_of_mem_filter he)
      (List.mem_of_mem_filter hnmem) heq
  rw [find?_directRun_of_newest hfresh hnmem hnewest]
  by_cases hpostn : n ∈ post
  · -- the newest event decides in both runs
    rw [find?_reactionRun_of_late plan hfresh hk hsame hapart hnmem hpostn hnewest,
      hsame n hpostn]
    exact ⟨fun _ n' hn' => Or.inl (Option.some_inj.mp hn' ▸ hpostn), fun _ => rfl⟩
  have holder : ∀ e ∈ post, e.key = k → e.timestamp < n.timestamp := fun e he hke =>
    (hnewest e (mem_eventsAt_of_post hsame he hke)).resolve_left fun heq => hpostn (heq ▸ he)
  rw [find?_reactionRun plan]
  simp only [Option.mem_def, Option.some_inj, forall_eq', hpostn, false_or]
  cases hrem : n.removes with
  | true =>
    -- a removal: nothing may be left to show
    simp only [if_true, Bool.true_eq_false, false_and, false_or, true_and]
    refine survivors_eq_nil_iff.trans (and_congr_right fun _ => ?_)
    simp only [Option.mem_def, Option.map_eq_some_iff, exists_exists_and_eq_and]
  | false =>
    -- a reaction: the migration has to have kept it
    simp only [Bool.false_eq_true, if_false, false_and, or_false, true_and]
    refine Register.latest_survivors_eq_some_of_older fun e he => ?_
    obtain ⟨he, hke⟩ := List.mem_filter.mp he
    exact holder e he (of_decide_eq_true hke)

/-- An older reaction of the canonical identity wins over the one of the alias, and a removal
by the alias does not hold back an older reaction. -/
theorem migrateContactJid_keeps_older_reaction :
    let known : Store := { contacts := ⟨[{ jid := "2@lid", name := "x" }], by decide⟩ }
    let reacted : List ReactionRow :=
      [⟨"1", "a", "2", "x", false, 10⟩, ⟨"1", "a", "2@lid", "y", false, 20⟩]
    let removed : List ReactionRow := [⟨"1", "a", "2@lid", "", false, 20⟩]
    let late : List ReactionRow := [⟨"1", "a", "2", "x", false, 10⟩]
    ((reactionRun .stable known "2@lid" "2" reacted []).visibleReaction ("1", "a", "2")
        = some ("x", 10) ∧
      (directRun known "2@lid" "2" reacted []).visibleReaction ("1", "a", "2")
        = some ("y", 20)) ∧
    (reactionRun .stable known "2@lid" "2" removed late).visibleReaction ("1", "a", "2")
        = some ("x", 10) ∧
      (directRun known "2@lid" "2" removed late).visibleReaction ("1", "a", "2") = none := by
  decide

/-- The alias reacted last, and an older reaction comes after the migration. -/
theorem reactions_migrated_iff_late_reaction :
    (reactionRun .stable .empty "2@lid" "2" [⟨"1", "a", "2@lid", "y", false, 20⟩]
        [⟨"1", "a", "2", "x", false, 10⟩]).reactions.find? ("1", "a", "2")
      = some ⟨"1", "a", "2", "y", false, 20⟩ := by
  refine ((@reactions_migrated_iff .stable .empty "2@lid" "2"
    [⟨"1", "a", "2@lid", "y", false, 20⟩] [⟨"1", "a", "2", "x", false, 10⟩]
    (by decide) (fun _ => rfl) (by decide) (by decide) ("1", "a", "2")).mpr ?_).trans (by decide)
  unfold ReactionKept
  decide

end Runs

end OmarchyWhatsapp
