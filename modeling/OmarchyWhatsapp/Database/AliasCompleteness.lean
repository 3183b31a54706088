import OmarchyWhatsapp.Database.MigrateReactionTheorems
import OmarchyWhatsapp.Database.MigrateReceiptTheorems
import OmarchyWhatsapp.Relational.Rows

/-!
# What a migration leaves under the alias

`migrate_contact_jid` renames the alias in most tables, but looks for it in six columns only before
it does so, and leaves the tombstones of reactions, the pending reads and the creators of polls as
they are. A second migration has nothing to do in any case.
-/

namespace OmarchyWhatsapp

open Relational

/-- No row refers to `jid`. -/
structure Unreferenced (s : Store) (jid : String) : Prop where
  chats : ∀ c ∈ s.chats.rows, c.jid ≠ jid
  contacts : ∀ c ∈ s.contacts.rows, c.jid ≠ jid
  messages : ∀ m ∈ s.messages.rows, m.chatJid ≠ jid ∧ m.senderJid ≠ jid
  messageReads : ∀ r ∈ s.messageReads.rows, r.chatJid ≠ jid ∧ r.readerJid ≠ jid
  reactions : ∀ r ∈ s.reactions.rows, r.chatJid ≠ jid ∧ r.reactorJid ≠ jid
  reactionTombstones : ∀ r ∈ s.reactionTombstones.rows, r.chatJid ≠ jid ∧ r.reactorJid ≠ jid
  pollVotes : ∀ v ∈ s.pollVotes.rows, v.chatJid ≠ jid ∧ v.voterJid ≠ jid
  pollSecrets : ∀ p ∈ s.pollSecrets.rows, p.chatJid ≠ jid ∧ p.creatorJid ≠ jid
  messageTombstones : ∀ t ∈ s.messageTombstones.rows, t.chatJid ≠ jid
  chatSettings : ∀ c ∈ s.chatSettings.rows, c.jid ≠ jid
  pendingReadChats : ∀ p ∈ s.pendingReadChats.rows, p.chatJid ≠ jid
  pendingReadMessages : ∀ p ∈ s.pendingReadMessages.rows, p.chatJid ≠ jid ∧ p.senderJid ≠ jid

/-- What the migration does not rename: the tombstones of reactions and the pending reads, and the
creator of a poll, which is replaced when its chat is merged with one that has another secret for
the poll. -/
structure NothingLeft (s : Store) (oldJid newJid : String) : Prop where
  reactionTombstones : ∀ r ∈ s.reactionTombstones.rows,
    r.chatJid ≠ oldJid ∧ r.reactorJid ≠ oldJid
  pendingReadChats : ∀ p ∈ s.pendingReadChats.rows, p.chatJid ≠ oldJid
  pendingReadMessages : ∀ p ∈ s.pendingReadMessages.rows,
    p.chatJid ≠ oldJid ∧ p.senderJid ≠ oldJid
  creators : ∀ p ∈ s.pollSecrets.rows, p.creatorJid = oldJid → p.chatJid = newJid ∧
    ∃ q ∈ s.pollSecrets.rows, q.chatJid = oldJid ∧ q.messageId = p.messageId ∧
      q.creatorJid ≠ oldJid

theorem Unreferenced.nothingLeft {s : Store} {oldJid newJid : String} (h : Unreferenced s oldJid) :
    NothingLeft s oldJid newJid where
  reactionTombstones := h.reactionTombstones
  pendingReadChats := h.pendingReadChats
  pendingReadMessages := h.pendingReadMessages
  creators := fun p hp hcreator => absurd hcreator (h.pollSecrets p hp).2

section Migration

variable (plan : QueryPlan) {s : Store} {oldJid newJid : String}

/-- The tables that the names are not applied to. -/
theorem tables_migrateContactJid (h : Migrates s oldJid newJid) :
    (migrateContactJid plan s oldJid newJid).1.contacts
        = (migrateContact plan s oldJid newJid).contacts.deleteWhere (fun c => c.jid = oldJid) ∧
      (migrateContactJid plan s oldJid newJid).1.pollVotes
        = (migrateAttachments plan (migrateParticipants s oldJid newJid) oldJid newJid).pollVotes ∧
      (migrateContactJid plan s oldJid newJid).1.pollSecrets
        = (migrateAttachments plan s oldJid newJid).pollSecrets ∧
      (migrateContactJid plan s oldJid newJid).1.messageTombstones
        = (migrateTombstones plan s oldJid newJid).messageTombstones ∧
      (migrateContactJid plan s oldJid newJid).1.chatSettings
        = (migrateSettings plan s oldJid newJid).chatSettings ∧
      (migrateContactJid plan s oldJid newJid).1.pendingReadChats = s.pendingReadChats ∧
      (migrateContactJid plan s oldJid newJid).1.pendingReadMessages = s.pendingReadMessages := by
  rw [migrateContactJid_of_migrates plan h, dropAlias, applyMigratedName]
  split <;> exact ⟨rfl, rfl, rfl, rfl, rfl, rfl, rfl⟩

section Renamed

variable (h : Migrates s oldJid newJid)

include h

theorem chats_ne_alias : ∀ c ∈ (migrateContactJid plan s oldJid newJid).1.chats.rows,
    c.jid ≠ oldJid := by
  intro c hc
  rw [migrateContactJid_of_migrates plan h, dropAlias] at hc
  exact of_decide_eq_false (Table.mem_deleteWhere.mp hc).2

theorem contacts_ne_alias : ∀ c ∈ (migrateContactJid plan s oldJid newJid).1.contacts.rows,
    c.jid ≠ oldJid := by
  intro c hc
  rw [(tables_migrateContactJid plan h).1] at hc
  exact of_decide_eq_false (Table.mem_deleteWhere.mp hc).2

theorem messages_ne_alias : ∀ m ∈ (migrateContactJid plan s oldJid newJid).1.messages.rows,
    m.chatJid ≠ oldJid ∧ m.senderJid ≠ oldJid := by
  intro m hm
  obtain ⟨m₀, -, hk, -⟩ := migrateContactJid_origin plan h hm
  constructor
  · intro hc
    exact renamed_ne h.1 m₀.chatJid ((congrArg (·.1) hk).trans hc)
  · intro hsender
    exact renamed_ne h.1 m₀.senderJid ((congrArg (·.2.1) hk).trans hsender)

theorem reactions_ne_alias : ∀ r ∈ (migrateContactJid plan s oldJid newJid).1.reactions.rows,
    r.chatJid ≠ oldJid ∧ r.reactorJid ≠ oldJid := by
  intro r hr
  rw [reactions_migrateContactJid plan h] at hr
  have hpass : ∀ r ∈ (migrateParticipants s oldJid newJid).reactions.rows,
      r.reactorJid ≠ oldJid := fun r hr => of_decide_eq_false (Table.mem_deleteWhere.mp hr).2
  have hrelocated : ∀ r ∈ ((migrateParticipants s oldJid newJid).reactions.relocate plan.scan
      (fun r => r.chatJid = oldJid) (fun r => { r with chatJid := newJid }) keepStored).rows,
      r.reactorJid ≠ oldJid ∧ decide (r.chatJid = oldJid) = false :=
    Table.forall_relocate hpass (fun l => plan.scan_perm l) (fun _ hr => hr)
      (fun _ _ hold _ => hold)
  obtain ⟨hreactor, hchat⟩ := hrelocated r hr
  exact ⟨of_decide_eq_false hchat, hreactor⟩

theorem pollVotes_ne_alias : ∀ v ∈ (migrateContactJid plan s oldJid newJid).1.pollVotes.rows,
    v.chatJid ≠ oldJid ∧ v.voterJid ≠ oldJid := by
  intro v hv
  rw [(tables_migrateContactJid plan h).2.1] at hv
  have hpass : ∀ v ∈ (migrateParticipants s oldJid newJid).pollVotes.rows,
      v.voterJid ≠ oldJid := fun v hv => of_decide_eq_false (Table.mem_deleteWhere.mp hv).2
  have hmerge (old new : PollVoteRow) (hold : old.voterJid ≠ oldJid) :
      (mergePollVotes old new).voterJid ≠ oldJid := by
    unfold mergePollVotes
    split <;> exact hold
  have hrelocated : ∀ v ∈ ((migrateParticipants s oldJid newJid).pollVotes.relocate plan.scan
      (fun v => v.chatJid = oldJid) (fun v => { v with chatJid := newJid }) mergePollVotes
      key_mergePollVotes).rows, v.voterJid ≠ oldJid ∧ decide (v.chatJid = oldJid) = false :=
    Table.forall_relocate hpass (fun l => plan.scan_perm l) (fun _ hv => hv)
      (fun old new hold _ => hmerge old new hold)
  obtain ⟨hvoter, hchat⟩ := hrelocated v hv
  exact ⟨of_decide_eq_false hchat, hvoter⟩

theorem messageTombstones_ne_alias :
    ∀ t ∈ (migrateContactJid plan s oldJid newJid).1.messageTombstones.rows,
      t.chatJid ≠ oldJid := by
  intro t ht
  rw [(tables_migrateContactJid plan h).2.2.2.1] at ht
  exact of_decide_eq_false (Table.mem_deleteWhere.mp ht).2

theorem chatSettings_ne_alias :
    ∀ c ∈ (migrateContactJid plan s oldJid newJid).1.chatSettings.rows, c.jid ≠ oldJid := by
  intro c hc
  rw [(tables_migrateContactJid plan h).2.2.2.2.1] at hc
  exact of_decide_eq_false (Table.mem_deleteWhere.mp hc).2

/-- The secret of a poll after the migration. -/
theorem find?_pollSecrets_migrateContactJid (c m : String) :
    (migrateContactJid plan s oldJid newJid).1.pollSecrets.find? (c, m)
      = if c = oldJid then none
        else if c = newJid then
          (s.pollSecrets.find? (oldJid, m)).elim (s.pollSecrets.find? (newJid, m))
            (fun a => some { a with chatJid := newJid })
        else s.pollSecrets.find? (c, m) := by
  rw [(tables_migrateContactJid plan h).2.2.1]
  refine (find?_renamePass s.pollSecrets _ _ plan _ key_mergePollSecret (·.1)
    (fun j k => (j, k.2)) (fun _ _ => rfl) (fun _ => rfl) (fun _ _ _ => rfl) (fun _ => rfl)
    (fun _ => rfl) (c, m)).trans ?_
  by_cases hold : c = oldJid
  · rw [if_pos hold, if_pos hold]
  · rw [if_neg hold, if_neg hold]
    by_cases hnew : c = newJid
    · subst hnew
      rw [if_pos rfl, if_pos rfl]
      rcases ha : s.pollSecrets.find? (oldJid, m) with _ | a
      · rfl
      · rcases hr : s.pollSecrets.find? (c, m) with _ | r
        · rfl
        · -- the row of the alias takes over the creator and the secret
          have hak : a.key = (oldJid, m) := Table.key_of_find? ha
          have hrk : r.key = (c, m) := Table.key_of_find? hr
          obtain ⟨-, ham⟩ := Prod.mk.inj hak
          obtain ⟨hrc, hrm⟩ := Prod.mk.inj hrk
          show some { r with creatorJid := a.creatorJid, messageSecret := a.messageSecret }
            = some { a with chatJid := c }
          rw [hrc, hrm, ← ham]
    · rw [if_neg hnew, if_neg hnew]

/-- The creators that stay are those of polls that no secret of the alias's chat replaces. -/
theorem pollSecrets_ne_alias_iff :
    (∀ p ∈ (migrateContactJid plan s oldJid newJid).1.pollSecrets.rows,
        p.chatJid ≠ oldJid ∧ p.creatorJid ≠ oldJid) ↔
      ∀ p ∈ s.pollSecrets.rows, p.creatorJid = oldJid → p.chatJid = newJid ∧
        ∃ q ∈ s.pollSecrets.rows, q.chatJid = oldJid ∧ q.messageId = p.messageId ∧
          q.creatorJid ≠ oldJid := by
  have hfind := find?_pollSecrets_migrateContactJid plan h
  constructor
  · intro hs' p hp hcreator
    have hrow : s.pollSecrets.find? (p.chatJid, p.messageId) = some p := Table.find?_of_mem hp
    have hkept {p' : PollSecretRow} {k : String × String}
        (hp' : (migrateContactJid plan s oldJid newJid).1.pollSecrets.find? k = some p') :
        p'.creatorJid ≠ oldJid := (hs' p' (Table.mem_of_find? hp')).2
    by_cases hold : p.chatJid = oldJid
    · -- the secret is moved with its creator
      have hmoved := hfind newJid p.messageId
      rw [hold] at hrow
      rw [if_neg (Ne.symm h.1), if_pos rfl, hrow] at hmoved
      have hcreator' : { p with chatJid := newJid }.creatorJid ≠ oldJid := hkept hmoved
      exact absurd hcreator hcreator'
    · by_cases hnew : p.chatJid = newJid
      · have hmerged := hfind newJid p.messageId
        rw [hnew] at hrow
        rw [if_neg (Ne.symm h.1), if_pos rfl, hrow] at hmerged
        rcases ha : s.pollSecrets.find? (oldJid, p.messageId) with _ | a
        · rw [ha] at hmerged
          exact absurd hcreator (hkept hmerged)
        · rw [ha] at hmerged
          have hak : a.key = (oldJid, p.messageId) := Table.key_of_find? ha
          obtain ⟨hchat, hmessage⟩ := Prod.mk.inj hak
          have hcreator' : { a with chatJid := newJid }.creatorJid ≠ oldJid := hkept hmerged
          exact ⟨hnew, a, Table.mem_of_find? ha, hchat, hmessage, hcreator'⟩
      · have hother := hfind p.chatJid p.messageId
        rw [if_neg hold, if_neg hnew, hrow] at hother
        exact absurd hcreator (hkept hother)
  · intro hs p' hp'
    have hrow : (migrateContactJid plan s oldJid newJid).1.pollSecrets.find?
        (p'.chatJid, p'.messageId) = some p' := Table.find?_of_mem hp'
    rw [hfind] at hrow
    by_cases hold : p'.chatJid = oldJid
    · rw [if_pos hold] at hrow
      cases hrow
    · refine ⟨hold, fun hcreator => ?_⟩
      rw [if_neg hold] at hrow
      by_cases hnew : p'.chatJid = newJid
      · rw [if_pos hnew] at hrow
        rcases ha : s.pollSecrets.find? (oldJid, p'.messageId) with _ | a
        · rw [ha] at hrow
          obtain ⟨-, q, hq, hchat, hmessage, -⟩ := hs p' (Table.mem_of_find? hrow) hcreator
          have hqk : q.key = (oldJid, p'.messageId) := Prod.ext hchat hmessage
          exact Table.find?_eq_none.mp ha q hq hqk
        · rw [ha] at hrow
          have hap : { a with chatJid := newJid } = p' := Option.some.inj hrow
          have hak : a.key = (oldJid, p'.messageId) := Table.key_of_find? ha
          have hacreator : a.creatorJid = oldJid := by
            rw [← hcreator, ← hap]
          have hachat : a.chatJid = newJid := (hs a (Table.mem_of_find? ha) hacreator).1
          exact h.1 ((congrArg (·.1) hak).symm.trans hachat)
      · rw [if_neg hnew] at hrow
        exact hnew (hs p' (Table.mem_of_find? hrow) hcreator).1

end Renamed

/-- A second migration finds nothing to do. -/
theorem migrateContactJid_twice :
    migrateContactJid plan (migrateContactJid plan s oldJid newJid).1 oldJid newJid
      = ((migrateContactJid plan s oldJid newJid).1, false) := by
  apply migrateContactJid_of_not_migrates
  by_cases h : Migrates s oldJid newJid
  · rintro ⟨-, hsource⟩
    simp only [migrationSourceExists, Bool.or_eq_true, List.any_eq_true, decide_eq_true_eq]
      at hsource
    rcases hsource with ((((⟨c, hc, hj⟩ | ⟨c, hc, hj⟩) | ⟨c, hc, hj⟩) | ⟨m, hm, hj⟩) |
      ⟨r, hr, hj⟩) | ⟨v, hv, hj⟩
    · exact chats_ne_alias plan h c hc hj
    · exact contacts_ne_alias plan h c hc hj
    · exact chatSettings_ne_alias plan h c hc hj
    · exact (messages_ne_alias plan h m hm).2 hj
    · exact (reactions_ne_alias plan h r hr).2 hj
    · exact (pollVotes_ne_alias plan h v hv).2 hj
  · rw [migrateContactJid_of_not_migrates plan h]
    exact h

theorem unreferenced_migrateContactJid_iff (h : Migrates s oldJid newJid) :
    Unreferenced (migrateContactJid plan s oldJid newJid).1 oldJid ↔
      NothingLeft s oldJid newJid := by
  obtain ⟨-, -, -, -, -, hpendingChats, hpendingMessages⟩ := tables_migrateContactJid plan h
  have htombstones : (migrateContactJid plan s oldJid newJid).1.reactionTombstones
      = s.reactionTombstones := reactionTombstones_migrateContactJid plan
  constructor
  · intro hs'
    exact
      { reactionTombstones := htombstones ▸ hs'.reactionTombstones
        pendingReadChats := hpendingChats ▸ hs'.pendingReadChats
        pendingReadMessages := hpendingMessages ▸ hs'.pendingReadMessages
        creators := (pollSecrets_ne_alias_iff plan h).mp hs'.pollSecrets }
  · intro hs
    exact
      { chats := chats_ne_alias plan h
        contacts := contacts_ne_alias plan h
        messages := messages_ne_alias plan h
        messageReads := fun _ hr => messageReads_ne_alias plan h hr
        reactions := reactions_ne_alias plan h
        reactionTombstones := by
          rw [htombstones]
          exact hs.reactionTombstones
        pollVotes := pollVotes_ne_alias plan h
        pollSecrets := (pollSecrets_ne_alias_iff plan h).mpr hs.creators
        messageTombstones := messageTombstones_ne_alias plan h
        chatSettings := chatSettings_ne_alias plan h
        pendingReadChats := by
          rw [hpendingChats]
          exact hs.pendingReadChats
        pendingReadMessages := by
          rw [hpendingMessages]
          exact hs.pendingReadMessages }

/-- No row refers to the alias after a migration, and a second one has nothing to do, if and only
if no row referred to it before, or the migration saw the alias and renames all that refers to
it. -/
theorem alias_completeness_iff (hne : oldJid ≠ newJid) :
    (Unreferenced (migrateContactJid plan s oldJid newJid).1 oldJid ∧
        migrateContactJid plan (migrateContactJid plan s oldJid newJid).1 oldJid newJid
          = ((migrateContactJid plan s oldJid newJid).1, false)) ↔
      Unreferenced s oldJid ∨
        (migrationSourceExists s oldJid = true ∧ NothingLeft s oldJid newJid) := by
  rw [and_iff_left (migrateContactJid_twice plan)]
  by_cases hsource : migrationSourceExists s oldJid = true
  · rw [unreferenced_migrateContactJid_iff plan ⟨hne, hsource⟩]
    constructor
    · intro hs
      exact Or.inr ⟨hsource, hs⟩
    · rintro (hs | ⟨-, hs⟩)
      · exact hs.nothingLeft
      · exact hs
  · rw [migrateContactJid_of_not_migrates plan (fun h => hsource h.2)]
    constructor
    · exact Or.inl
    · rintro (hs | ⟨h, -⟩)
      · exact hs
      · exact absurd h hsource

end Migration

/-- A contact that is named, that reacts to a message and then takes its reaction back. -/
def reactionTakenBack : Store :=
  let s := (updateContactName Store.empty "7@lid" "Ana").1
  let s := (applyReaction s "1@s.whatsapp.net" "M1" "7@lid" "+1" false 10).1
  (applyReaction s "1@s.whatsapp.net" "M1" "7@lid" "" false 11).1

theorem alias_completeness_iff_named :
    Unreferenced (migrateContactJid QueryPlan.stable
        (updateContactName Store.empty "7@lid" "Ana").1 "7@lid" "7@s.whatsapp.net").1 "7@lid" :=
  ((alias_completeness_iff QueryPlan.stable
    (s := (updateContactName Store.empty "7@lid" "Ana").1) (by decide)).mpr
      (Or.inr ⟨by decide +kernel, by decide +kernel, by decide +kernel, by decide +kernel,
        by decide +kernel⟩)).1

/-- The tombstone of the reaction keeps the alias. -/
theorem tombstone_keeps_alias :
    migrationSourceExists reactionTakenBack "7@lid" = true ∧
      ¬Unreferenced (migrateContactJid QueryPlan.stable reactionTakenBack "7@lid"
        "7@s.whatsapp.net").1 "7@lid" := by
  refine ⟨by decide +kernel, fun h => ?_⟩
  have htombstones : ∀ r ∈ reactionTakenBack.reactionTombstones.rows,
      r.chatJid ≠ "7@lid" ∧ r.reactorJid ≠ "7@lid" := by
    have := h.reactionTombstones
    rwa [reactionTombstones_migrateContactJid] at this
  exact (htombstones ⟨"1@s.whatsapp.net", "M1", "7@lid", 11⟩ (by decide +kernel)).2 rfl

end OmarchyWhatsapp
