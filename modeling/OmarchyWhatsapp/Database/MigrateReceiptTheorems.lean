import OmarchyWhatsapp.Database.MigrateKeys
import OmarchyWhatsapp.Database.ReceiptTheorems

/-!
# Receipts across a migration

Each pass of the migration merges the receipts of two identities in its own way: the reader
pass keeps the canonical reader's row as it is, and the chat pass keeps the delivery time of
the canonical chat's row and the later of the two read times. The least positive times
survive when the rows that count already hold them.
-/

namespace OmarchyWhatsapp

open Relational

variable (plan : QueryPlan) (s : Store) (oldJid newJid : String)

/-- The rows recorded for a reader of a message under either identity. -/
def recordedReceipts (chatJid messageId readerJid : String) : List MessageReadRow :=
  s.messageReads.rows.filter (fun r => renamed oldJid newJid r.chatJid = chatJid &&
    r.messageId = messageId && renamed oldJid newJid r.readerJid = readerJid)

/-- The row that the reader pass leaves: the alias's only where the canonical reader has none. -/
def survivingReader (chatJid messageId readerJid : String) : Option MessageReadRow :=
  if readerJid = newJid then
    (s.messageReads.find? (chatJid, messageId, newJid)).or
      (s.messageReads.find? (chatJid, messageId, oldJid))
  else s.messageReads.find? (chatJid, messageId, readerJid)

/-- The row of the alias chat that the chat pass merges into the canonical chat's. -/
def survivingAlias (chatJid messageId readerJid : String) : Option MessageReadRow :=
  if chatJid = newJid then survivingReader s oldJid newJid oldJid messageId readerJid else none

/-- The rows whose read times the migration looks at. -/
def survivingReceipts (chatJid messageId readerJid : String) : List MessageReadRow :=
  (survivingReader s oldJid newJid chatJid messageId readerJid).toList ++
    (survivingAlias s oldJid newJid chatJid messageId readerJid).toList

/-- The surviving row of the canonical chat has the earliest delivery time, and the surviving
rows agree on the earliest read time. -/
def ReceiptsKept (chatJid messageId readerJid : String) : Prop :=
  let recorded := recordedReceipts s oldJid newJid chatJid messageId readerJid
  let own := survivingReader s oldJid newJid chatJid messageId readerJid
  let surviving := survivingReceipts s oldJid newJid chatJid messageId readerJid
  ((∀ o ∈ own, 0 ≤ o.deliveredAt) ∧
    ∀ r ∈ recorded, 0 < r.deliveredAt →
      ∃ o ∈ own, 0 < o.deliveredAt ∧ o.deliveredAt ≤ r.deliveredAt) ∧
  (surviving ≠ [] → ∃ o ∈ surviving, 0 ≤ o.readAt) ∧
    ∀ r ∈ recorded, 0 < r.readAt →
      (∃ o ∈ surviving, 0 < o.readAt) ∧ ∀ o ∈ surviving, o.readAt ≤ r.readAt

section Migration

variable {s oldJid newJid}

theorem messageReads_migrateContactJid (h : Migrates s oldJid newJid) :
    (migrateContactJid plan s oldJid newJid).1.messageReads
      = (migrateMessageReads plan (migrateParticipants s oldJid newJid)
          oldJid newJid).messageReads := by
  rw [migrateContactJid_of_migrates plan h, dropAlias, applyMigratedName]
  split <;> rfl

theorem find?_migrateParticipants_messageReads (hne : oldJid ≠ newJid) (c m x : String) :
    (migrateParticipants s oldJid newJid).messageReads.find? (c, m, x)
      = if x = oldJid then none
        else if x = newJid then
          (s.messageReads.find? (c, m, newJid)).or ((s.messageReads.find? (c, m, oldJid)).map
            (fun r => { r with readerJid := newJid }))
        else s.messageReads.find? (c, m, x) :=
  find?_participantPass s.messageReads _ _ hne (fun _ => rfl) (fun _ => rfl) c m x

/-- The two times of a row. -/
def MessageReadRow.times (r : MessageReadRow) : ℤ × ℤ := (r.deliveredAt, r.readAt)

/-- What the chat pass makes of the times under the two chats. -/
def passedTimes (own ofAlias : Option (ℤ × ℤ)) : ℤ × ℤ :=
  (own.elim 0 (·.1), ((own.toList ++ ofAlias.toList).map (·.2)).max?.getD 0)

theorem passedTimes_map (own ofAlias : Option MessageReadRow) :
    passedTimes (own.map (·.times)) (ofAlias.map (·.times))
      = (own.elim 0 (·.deliveredAt),
        ((own.toList ++ ofAlias.toList).map (·.readAt)).max?.getD 0) := by
  cases own <;> cases ofAlias <;> rfl

/-- The times that the chat pass leaves. -/
theorem readerTimes_migrateMessageReads (hne : oldJid ≠ newJid) {c : String} (hc : c ≠ oldJid)
    (m x : String) :
    (migrateMessageReads plan s oldJid newJid).readerTimes c m x
      = passedTimes ((s.messageReads.find? (c, m, x)).map (·.times))
          (if c = newJid then (s.messageReads.find? (oldJid, m, x)).map (·.times) else none) := by
  have hpass := find?_chatPass s.messageReads (fun r => decide (r.chatJid = oldJid))
    (fun r => { r with chatJid := newJid, deliveredAt := 0 }) plan
    (fun old new => { old with readAt := max old.readAt new.readAt }) (fun _ _ => rfl)
    (fun _ => rfl) (fun _ => rfl) c m x
  rw [if_neg hc] at hpass
  rw [Store.readerTimes]
  refine (congrArg (Option.elim · (0, 0) MessageReadRow.times) hpass).trans ?_
  by_cases hnew : c = newJid
  · subst hnew
    rw [if_pos rfl, if_pos rfl]
    cases s.messageReads.find? (c, m, x) <;> cases s.messageReads.find? (oldJid, m, x) <;> rfl
  · rw [if_neg hnew, if_neg hnew]
    cases s.messageReads.find? (c, m, x) <;> rfl

/-- The times that the reader pass leaves are those of the surviving row. -/
theorem times_migrateParticipants (hne : oldJid ≠ newJid) {x : String} (hx : x ≠ oldJid)
    (c m : String) :
    ((migrateParticipants s oldJid newJid).messageReads.find? (c, m, x)).map (·.times)
      = (survivingReader s oldJid newJid c m x).map (·.times) := by
  rw [find?_migrateParticipants_messageReads hne, if_neg hx, survivingReader]
  split
  · cases s.messageReads.find? (c, m, newJid) <;>
      cases s.messageReads.find? (c, m, oldJid) <;> rfl
  · rfl

/-- The times of a reader after the migration. -/
theorem readerTimes_migrateContactJid (h : Migrates s oldJid newJid) {c x : String}
    (hc : c ≠ oldJid) (hx : x ≠ oldJid) (m : String) :
    (migrateContactJid plan s oldJid newJid).1.readerTimes c m x
      = ((survivingReader s oldJid newJid c m x).elim 0 (·.deliveredAt),
        ((survivingReceipts s oldJid newJid c m x).map (·.readAt)).max?.getD 0) := by
  have hreads : (migrateContactJid plan s oldJid newJid).1.readerTimes c m x
      = (migrateMessageReads plan (migrateParticipants s oldJid newJid)
          oldJid newJid).readerTimes c m x := by
    rw [Store.readerTimes, Store.readerTimes, messageReads_migrateContactJid plan h]
  have halias : (if c = newJid then (survivingReader s oldJid newJid oldJid m x).map (·.times)
      else none) = (survivingAlias s oldJid newJid c m x).map (·.times) := by
    rw [survivingAlias]
    split <;> rfl
  rw [hreads, readerTimes_migrateMessageReads plan h.1 hc, times_migrateParticipants h.1 hx,
    times_migrateParticipants h.1 hx, halias, passedTimes_map]
  rfl

theorem mem_recordedReceipts {c m x : String} {r : MessageReadRow} :
    r ∈ recordedReceipts s oldJid newJid c m x ↔ r ∈ s.messageReads.rows ∧
      renamed oldJid newJid r.chatJid = c ∧ r.messageId = m ∧
      renamed oldJid newJid r.readerJid = x := by
  simp [recordedReceipts, and_assoc]

theorem survivingReader_recorded {c m x : String} {r : MessageReadRow}
    (hr : r ∈ survivingReader s oldJid newJid c m x) (hx : x ≠ oldJid) :
    r ∈ s.messageReads.rows ∧ r.chatJid = c ∧ r.messageId = m ∧
      renamed oldJid newJid r.readerJid = x := by
  have hkey : ∀ y, s.messageReads.find? (c, m, y) = some r →
      r ∈ s.messageReads.rows ∧ r.chatJid = c ∧ r.messageId = m ∧ r.readerJid = y := by
    intro y hy
    obtain ⟨hmem, hk⟩ := Table.find?_eq_some.mp hy
    simp only [MessageReadRow.key, Prod.mk.injEq] at hk
    exact ⟨hmem, hk⟩
  unfold survivingReader at hr
  split at hr
  · rename_i hnew
    rcases Option.or_eq_some_iff.mp hr with hr | ⟨-, hr⟩
    · obtain ⟨hmem, hc, hm, hreader⟩ := hkey _ hr
      rw [hnew] at hx
      exact ⟨hmem, hc, hm, by rw [hreader, renamed_of_ne hx, hnew]⟩
    · obtain ⟨hmem, hc, hm, hreader⟩ := hkey _ hr
      exact ⟨hmem, hc, hm, by rw [hreader, renamed_old, hnew]⟩
  · obtain ⟨hmem, hc, hm, hreader⟩ := hkey _ hr
    exact ⟨hmem, hc, hm, by rw [hreader, renamed_of_ne hx]⟩

/-- The surviving rows are among the recorded ones. -/
theorem survivingReceipts_subset {c m x : String} (hc : c ≠ oldJid) (hx : x ≠ oldJid) :
    survivingReceipts s oldJid newJid c m x ⊆ recordedReceipts s oldJid newJid c m x := by
  intro r hr
  rw [survivingReceipts, List.mem_append, Option.mem_toList, Option.mem_toList] at hr
  rw [mem_recordedReceipts]
  rcases hr with hr | hr
  · obtain ⟨hmem, hchat, hrest⟩ := survivingReader_recorded hr hx
    exact ⟨hmem, by rw [hchat, renamed_of_ne hc], hrest⟩
  · unfold survivingAlias at hr
    split at hr
    · rename_i hnew
      obtain ⟨hmem, hchat, hrest⟩ := survivingReader_recorded hr hx
      exact ⟨hmem, by rw [hchat, renamed_old, hnew], hrest⟩
    · cases hr

/-- Nothing is recorded under the alias any more. -/
theorem messageReads_ne_alias (h : Migrates s oldJid newJid) {r : MessageReadRow}
    (hr : r ∈ (migrateContactJid plan s oldJid newJid).1.messageReads.rows) :
    r.chatJid ≠ oldJid ∧ r.readerJid ≠ oldJid := by
  rw [messageReads_migrateContactJid plan h] at hr
  have hfind := Table.find?_of_mem hr
  have hpass := find?_chatPass (migrateParticipants s oldJid newJid).messageReads
    (fun r => decide (r.chatJid = oldJid))
    (fun r => { r with chatJid := newJid, deliveredAt := 0 }) plan
    (fun old new => { old with readAt := max old.readAt new.readAt }) (fun _ _ => rfl)
    (fun _ => rfl) (fun _ => rfl) r.chatJid r.messageId r.readerJid
  have hrow := hpass.symm.trans hfind
  constructor
  · intro hc
    rw [if_pos hc] at hrow
    cases hrow
  · intro hx
    have hnone : ∀ c, (migrateParticipants s oldJid newJid).messageReads.find?
        (c, r.messageId, r.readerJid) = none := by
      intro c
      rw [find?_migrateParticipants_messageReads h.1, if_pos hx]
    rw [hnone, hnone, hnone] at hrow
    split at hrow
    · cases hrow
    · split at hrow <;> cases hrow

theorem delivered_kept_iff {own : Option MessageReadRow} {recorded : List MessageReadRow}
    (hsub : own.toList ⊆ recorded) :
    own.elim 0 (·.deliveredAt) = (leastPositive (recorded.map (·.deliveredAt))).getD 0 ↔
      (∀ o ∈ own, 0 ≤ o.deliveredAt) ∧ ∀ r ∈ recorded, 0 < r.deliveredAt →
        ∃ o ∈ own, 0 < o.deliveredAt ∧ o.deliveredAt ≤ r.deliveredAt := by
  rw [eq_leastPositive_getD_iff]
  · rcases own with _ | o
    · simp
    · simp
  · rcases own with _ | o
    · exact Or.inr rfl
    · exact Or.inl (List.mem_map_of_mem (hsub List.mem_cons_self))

theorem read_kept_iff {surviving recorded : List MessageReadRow} (hsub : surviving ⊆ recorded) :
    (surviving.map (·.readAt)).max?.getD 0
        = (leastPositive (recorded.map (·.readAt))).getD 0 ↔
      (surviving ≠ [] → ∃ o ∈ surviving, 0 ≤ o.readAt) ∧ ∀ r ∈ recorded, 0 < r.readAt →
        (∃ o ∈ surviving, 0 < o.readAt) ∧ ∀ o ∈ surviving, o.readAt ≤ r.readAt := by
  rcases hmax : (surviving.map (·.readAt)).max? with _ | t
  · have hnil : surviving = [] := by
      simpa using List.max?_eq_none_iff.mp hmax
    subst hnil
    rw [hmax, Option.getD_none, eq_leastPositive_getD_iff (Or.inr rfl)]
    simp
  · obtain ⟨hmem, hle⟩ := List.max?_eq_some_iff.mp hmax
    obtain ⟨o, ho, rfl⟩ := List.mem_map.mp hmem
    have hbelow : ∀ o' ∈ surviving, o'.readAt ≤ o.readAt := fun o' ho' =>
      hle _ (List.mem_map_of_mem ho')
    rw [hmax, Option.getD_some, eq_leastPositive_getD_iff (Or.inl (List.mem_map_of_mem (hsub ho)))]
    constructor
    · rintro ⟨hnonneg, hall⟩
      refine ⟨fun _ => ⟨o, ho, hnonneg⟩, fun r hr hpos => ?_⟩
      obtain ⟨hopos, hor⟩ := hall _ (List.mem_map_of_mem hr) hpos
      exact ⟨⟨o, ho, hopos⟩, fun o' ho' => (hbelow o' ho').trans hor⟩
    · rintro ⟨hnonneg, hall⟩
      refine ⟨?_, fun u hu hpos => ?_⟩
      · obtain ⟨o', ho', hle'⟩ := hnonneg (List.ne_nil_of_mem ho)
        exact hle'.trans (hbelow o' ho')
      · obtain ⟨r, hr, rfl⟩ := List.mem_map.mp hu
        obtain ⟨⟨o', ho', hpos'⟩, hle'⟩ := hall r hr hpos
        exact ⟨hpos'.trans_le (hbelow o' ho'), hle' o ho⟩

/-- A migration that succeeds leaves the least positive times of the two identities for a
reader of a message exactly when the rows that count hold them already. -/
theorem receipts_migrated_iff (hdone : (migrateContactJid plan s oldJid newJid).2 = true) :
    (∀ r ∈ (migrateContactJid plan s oldJid newJid).1.messageReads.rows,
      r.chatJid ≠ oldJid ∧ r.readerJid ≠ oldJid) ∧
    ∀ chatJid messageId readerJid, chatJid ≠ oldJid → readerJid ≠ oldJid →
      let recorded := recordedReceipts s oldJid newJid chatJid messageId readerJid
      ((migrateContactJid plan s oldJid newJid).1.readerTimes chatJid messageId readerJid
          = ((leastPositive (recorded.map (·.deliveredAt))).getD 0,
            (leastPositive (recorded.map (·.readAt))).getD 0) ↔
        ReceiptsKept s oldJid newJid chatJid messageId readerJid) := by
  have h : Migrates s oldJid newJid := by
    by_contra hnot
    rw [migrateContactJid_of_not_migrates plan hnot] at hdone
    cases hdone
  refine ⟨fun r hr => messageReads_ne_alias plan h hr, fun c m x hc hx => ?_⟩
  have hsub : survivingReceipts s oldJid newJid c m x ⊆ recordedReceipts s oldJid newJid c m x :=
    survivingReceipts_subset hc hx
  dsimp only
  rw [readerTimes_migrateContactJid plan h hc hx, Prod.mk.injEq,
    delivered_kept_iff (List.Subset.trans (List.subset_append_left _ _) hsub), read_kept_iff hsub]
  exact Iff.rfl

/-- The chat pass drops the delivery time and keeps the later of the two read times. -/
theorem migrateContactJid_loses_receipts :
    let sent : MessageRow :=
      { chatJid := "1", id := "a", senderJid := "me", senderName := "Me", text := "hi",
        timestamp := 5, fromMe := true }
    let s : Store := { messages := ⟨[sent, { sent with chatJid := "1@lid" }], by decide⟩,
                       chats := ⟨[{ jid := "1@lid", name := "x" }], by decide⟩ }
    let delivered := (updateReceipts s "1@lid" ["a"] 2 (some "2") 10).1
    let read := (updateReceipts (updateReceipts s "1@lid" ["a"] 3 (some "2") 20).1
      "1" ["a"] 3 (some "2") 30).1
    (delivered.readerTimes "1@lid" "a" "2" = (10, 0) ∧
      (migrateContactJid .stable delivered "1@lid" "1").1.readerTimes "1" "a" "2" = (0, 0)) ∧
    (read.readerTimes "1@lid" "a" "2" = (0, 20) ∧ read.readerTimes "1" "a" "2" = (0, 30) ∧
      (migrateContactJid .stable read "1@lid" "1").1.readerTimes "1" "a" "2" = (0, 30)) := by
  decide

/-- Both identities of the reader got the message, the canonical one first. -/
theorem receipts_migrated_iff_reader :
    let s : Store :=
      { contacts := ⟨[{ jid := "2@lid", name := "x" }], by decide⟩
        messageReads := ⟨[{ chatJid := "1", messageId := "a", readerJid := "2", deliveredAt := 5 },
          { chatJid := "1", messageId := "a", readerJid := "2@lid", deliveredAt := 10 }],
          by decide⟩ }
    (migrateContactJid .stable s "2@lid" "2").1.readerTimes "1" "a" "2" = (5, 0) := by
  intro s
  have hdone : (migrateContactJid .stable s "2@lid" "2").2 = true := by decide
  refine (((receipts_migrated_iff .stable hdone).2 "1" "a" "2" (by decide) (by decide)).mpr
    ?_).trans (by decide)
  unfold ReceiptsKept
  decide

end Migration

end OmarchyWhatsapp
