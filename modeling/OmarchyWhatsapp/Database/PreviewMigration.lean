import OmarchyWhatsapp.Database.MigrateTheorems
import OmarchyWhatsapp.Database.PreviewArrivals

/-!
# Previews and migration

A migration gives the merged chat the later preview of the two identities, and moves the
messages to the end of the table. The preview is right when the newest messages stay where they
are, or when all of them, with their copies under the other identity, have one text.
-/

namespace OmarchyWhatsapp

open Relational

variable (plan : QueryPlan)

/-! ## The messages that a migration merges into a chat -/

section Guard

variable (s : Store) (oldJid newJid jid : String)

/-- The messages that a chat has after the migration, copies included. -/
def mergingRows : List MessageRow :=
  s.messages.rows.filter (fun m => renamed oldJid newJid m.chatJid = jid)

/-- Two rows are copies of one message. -/
def CopyOf (m c : MessageRow) : Prop :=
  renameIdentity oldJid newJid c.key = renameIdentity oldJid newJid m.key

instance (m c : MessageRow) : Decidable (CopyOf oldJid newJid m c) :=
  inferInstanceAs (Decidable (_ = _))

/-- The preview of a chat after the migration. -/
def mergedTail : Option (String × ℤ) :=
  if jid = newJid then (mergedChat s oldJid newJid).map ChatRow.tail else s.tail jid

/-- The chat keeps its preview, and the newest messages neither move nor take a text. -/
def FrontStays (p : String × ℤ) : Prop :=
  s.tail jid = some p ∧ (∃ m ∈ mergingRows s oldJid newJid jid, m.timestamp = p.2) ∧
    ∀ m ∈ mergingRows s oldJid newJid jid, m.timestamp = p.2 →
      m.chatJid ≠ oldJid ∧ m.senderJid ≠ oldJid ∧ (m.text = "" →
        ∀ c ∈ mergingRows s oldJid newJid jid, CopyOf oldJid newJid m c → c.text = "")

/-- A newest message keeps its time, and all of them have the text of the preview. -/
def FrontAgrees (p : String × ℤ) : Prop :=
  (∃ m ∈ mergingRows s oldJid newJid jid, m.timestamp = p.2 ∧
    ∀ c ∈ mergingRows s oldJid newJid jid, CopyOf oldJid newJid m c → c.timestamp = p.2) ∧
  ∀ m ∈ mergingRows s oldJid newJid jid, m.timestamp = p.2 →
    ∀ c ∈ mergingRows s oldJid newJid jid, CopyOf oldJid newJid m c → c.text = p.1

/-- The merged chat is not crowded by its newest messages. -/
def FrontFits (p : String × ℤ) : Prop :=
  (((mergingRows s oldJid newJid newJid).filter (fun m => m.timestamp = p.2)).map
    (fun m => renameIdentity oldJid newJid m.key)).toFinset.card ≤ retention

instance (p : String × ℤ) : Decidable (FrontStays s oldJid newJid jid p) :=
  inferInstanceAs (Decidable (_ ∧ _))

instance (p : String × ℤ) : Decidable (FrontAgrees s oldJid newJid jid p) :=
  inferInstanceAs (Decidable (_ ∧ _))

instance (p : String × ℤ) : Decidable (FrontFits s oldJid newJid p) :=
  inferInstanceAs (Decidable (_ ≤ _))

/-- The migrations after which the previews are right. -/
def PreviewMergeGuard : Prop :=
  ∀ c ∈ s.chats.rows, ∀ p ∈ mergedTail s oldJid newJid (renamed oldJid newJid c.jid),
    mergingRows s oldJid newJid (renamed oldJid newJid c.jid) = [] ∨
      ((renamed oldJid newJid c.jid = newJid → FrontFits s oldJid newJid p) ∧
        (FrontStays s oldJid newJid (renamed oldJid newJid c.jid) p ∨
          FrontAgrees s oldJid newJid (renamed oldJid newJid c.jid) p))

instance : Decidable (PreviewMergeGuard s oldJid newJid) :=
  inferInstanceAs (Decidable (∀ _ ∈ s.chats.rows, _))

end Guard

section Rows

variable {s : Store} {oldJid newJid jid : String} {p : String × ℤ}

theorem mem_mergingRows {m : MessageRow} : m ∈ mergingRows s oldJid newJid jid ↔
    m ∈ s.messages.rows ∧ renamed oldJid newJid m.chatJid = jid := by
  rw [mergingRows, List.mem_filter, decide_eq_true_eq]

/-- The messages of both identities, before retention. -/
def mergedStore (s : Store) (oldJid newJid : String) : Store :=
  { s with messages := mergedMessages plan s oldJid newJid }

/-- A merged row has the time of one of the rows that were merged. -/
theorem mergedStore_time (hne : oldJid ≠ newJid) {m' : MessageRow}
    (hm' : m' ∈ (mergedStore plan s oldJid newJid).chatMessages jid) :
    ∃ m ∈ mergingRows s oldJid newJid jid, renameIdentity oldJid newJid m.key = m'.key ∧
      m.timestamp = m'.timestamp := by
  obtain ⟨hm', hj⟩ := Store.mem_chatMessages.mp hm'
  obtain ⟨m, hm, hk, ht, -⟩ := (mergedMessages_mergedBy plan hne).origin m' hm'
  exact ⟨m, mem_mergingRows.mpr ⟨hm, (congrArg Prod.fst hk).trans hj⟩, hk, ht⟩

theorem migrateSender_text (hne : oldJid ≠ newJid) {m' : MessageRow}
    (hm' : m' ∈ (migrateSender plan s oldJid newJid).messages.rows) :
    ∃ m ∈ s.messages.rows, renameSender oldJid newJid m.key = m'.key ∧ m.text = m'.text := by
  have hstay : ∀ m : MessageRow, decide (m.senderJid = oldJid) = false →
      renameSender oldJid newJid m.key = m.key := fun m hm => by
    rw [renameSender, MessageRow.key, renamed_of_ne (of_decide_eq_false hm)]
  have hmove : ∀ m : MessageRow, decide (m.senderJid = oldJid) = true →
      renameSender oldJid newJid m.key = (m.withSender newJid).key := fun m hm => by
    rw [renameSender, MessageRow.key, of_decide_eq_true hm, renamed_old]
    rfl
  rcases (mem_migrateSender plan hne m').mp hm' with
    ⟨hm, hp, -⟩ | ⟨r, hr, a, ha, hpr, hpa, hk, rfl⟩ | ⟨a, ha, hpa, -, rfl⟩
  · exact ⟨m', hm, hstay m' hp, rfl⟩
  · by_cases hempty : r.text = ""
    · refine ⟨a, ha, (hmove a hpa).trans hk, ?_⟩
      simp [mergeSenderCopies, hempty, MessageRow.withSender]
    · exact ⟨r, hr, hstay r hpr, by simp [mergeSenderCopies, hempty]⟩
  · exact ⟨a, ha, hmove a hpa, rfl⟩

theorem migrateMessages_text (hne : oldJid ≠ newJid) {m' : MessageRow}
    (hm' : m' ∈ (migrateMessages plan s oldJid newJid).messages.rows) :
    ∃ m ∈ s.messages.rows, renameChat oldJid newJid m.key = m'.key ∧ m.text = m'.text := by
  have hstay : ∀ m : MessageRow, decide (m.chatJid = oldJid) = false →
      renameChat oldJid newJid m.key = m.key := fun m hm => by
    rw [renameChat, MessageRow.key, renamed_of_ne (of_decide_eq_false hm)]
  rcases (mem_migrateMessages plan hne m').mp hm' with
    ⟨hm, hp, -⟩ | ⟨r, hr, a, ha, hpr, hpa, hk, rfl⟩ | ⟨a, ha, hpa, -, rfl⟩
  · exact ⟨m', hm, hstay m' hp, rfl⟩
  · exact ⟨r, hr, hstay r hpr, rfl⟩
  · refine ⟨a, ha, ?_, rfl⟩
    rw [renameChat, MessageRow.key, of_decide_eq_true hpa, renamed_old]
    rfl

/-- A merged row has the text of one of the rows that were merged. -/
theorem mergedStore_text (hne : oldJid ≠ newJid) {m' : MessageRow}
    (hm' : m' ∈ (mergedStore plan s oldJid newJid).chatMessages jid) :
    ∃ m ∈ mergingRows s oldJid newJid jid, renameIdentity oldJid newJid m.key = m'.key ∧
      m.text = m'.text := by
  obtain ⟨hm', hj⟩ := Store.mem_chatMessages.mp hm'
  obtain ⟨m₁, hm₁, hk₁, ht₁⟩ := migrateMessages_text plan hne hm'
  obtain ⟨m, hm, hk, ht⟩ := migrateSender_text plan hne hm₁
  have hkey : renameIdentity oldJid newJid m.key = m'.key := by
    rw [← hk₁, ← hk]
    rfl
  exact ⟨m, mem_mergingRows.mpr ⟨hm, (congrArg Prod.fst hkey).trans hj⟩, hkey, ht.trans ht₁⟩

theorem mergedStore_total (hne : oldJid ≠ newJid) {m : MessageRow}
    (hm : m ∈ mergingRows s oldJid newJid jid) :
    ∃ m' ∈ (mergedStore plan s oldJid newJid).chatMessages jid,
      renameIdentity oldJid newJid m.key = m'.key := by
  obtain ⟨hm, hj⟩ := mem_mergingRows.mp hm
  obtain ⟨m', hm', hk⟩ := (mergedMessages_mergedBy plan hne).total m hm
  exact ⟨m', Store.mem_chatMessages.mpr ⟨hm', (congrArg Prod.fst hk).symm.trans hj⟩, hk⟩

/-- Newest messages that agree are shown by their text. -/
theorem FrontAgrees.shows (hne : oldJid ≠ newJid) (h : FrontAgrees s oldJid newJid jid p)
    (hle : ∀ m ∈ mergingRows s oldJid newJid jid, m.timestamp ≤ p.2) :
    ShowsEntries ((mergedStore plan s oldJid newJid).entries jid) p := by
  obtain ⟨⟨m, hm, htime, hcopies⟩, hagree⟩ := h
  refine shows_of_uniform (fun e he => ?_) ?_ fun e he hfront => ?_
  · obtain ⟨m', hm', rfl⟩ := List.mem_map.mp he
    obtain ⟨c, hc, -, ht⟩ := mergedStore_time plan hne hm'
    exact ht.ge.trans (hle c hc)
  · obtain ⟨m', hm', hk⟩ := mergedStore_total plan hne hm
    obtain ⟨c, hc, hck, ht⟩ := mergedStore_time plan hne hm'
    refine ⟨m'.entry, List.mem_map_of_mem hm', ?_⟩
    exact ht.symm.trans (hcopies c hc (hck.trans hk.symm))
  · obtain ⟨m', hm', rfl⟩ := List.mem_map.mp he
    obtain ⟨c, hc, hck, ht⟩ := mergedStore_time plan hne hm'
    obtain ⟨d, hd, hdk, hdt⟩ := mergedStore_text plan hne hm'
    exact hdt.symm.trans (hagree c hc (ht.trans hfront) d hd (hdk.trans hck.symm))

/-! ## Newest messages that stay -/

/-- The newest message of a chat after the senders are merged. -/
theorem latest_migrateSender (hne : oldJid ≠ newJid) {r : MessageRow}
    (hr : newestMessage s jid = some r) (hstay : r.senderJid ≠ oldJid)
    (hmoved : ∀ a ∈ s.messages.rows, a.chatJid = jid → a.senderJid = oldJid →
      a.timestamp < r.timestamp)
    (htext : r.text = "" → ∀ a ∈ s.messages.rows, a.senderJid = oldJid →
      (a.withSender newJid).key = r.key → a.text = "") :
    ∃ r', newestMessage (migrateSender plan s oldJid newJid) jid = some r' ∧
      r'.entry = r.entry := by
  have hchat : r.chatJid = jid := (Store.mem_chatMessages.mp (latest_mem _ hr)).2
  let moved := (plan.scan (s.messages.rows.filter fun m => m.senderJid = oldJid)).map
    (MessageRow.withSender newJid)
  have hlatest : newestMessage (migrateSender plan s oldJid newJid) jid
      = some (Table.absorb MessageRow.key moved mergeSenderCopies r) :=
    latest_relocate s.messages MessageRow.timestamp (MessageRow.withSender newJid) mergeSenderCopies
      (fun _ _ => rfl) (q := fun m : MessageRow => decide (m.chatJid = jid))
      (fun l => plan.scan_perm l) withSender_key_inj (fun _ _ => decide_eq_false hne.symm)
      (fun _ _ => rfl)
      (fun x y hk => by rw [show x.chatJid = y.chatJid from congrArg Prod.fst hk]) hr
      (decide_eq_false hstay)
      (fun a ha hs hc => hmoved a ha (of_decide_eq_true hc) (of_decide_eq_true hs))
      (fun x a => ⟨le_rfl, le_max_left _ _⟩)
  refine ⟨_, hlatest, ?_⟩
  rcases Table.absorb_cases MessageRow.key moved mergeSenderCopies r with
    ⟨h, -⟩ | ⟨a, ha, hk, h⟩
  · rw [h]
  · rw [h]
    obtain ⟨b, hb, rfl⟩ := List.mem_map.mp ha
    obtain ⟨hb, hs⟩ := List.mem_filter.mp ((plan.scan_perm _).mem_iff.mp hb)
    have hs := of_decide_eq_true hs
    have hbchat : b.chatJid = jid := (congrArg Prod.fst hk).trans hchat
    have htime : (mergeSenderCopies r (b.withSender newJid)).timestamp = r.timestamp :=
      max_eq_left (hmoved b hb hbchat hs).le
    have hsame : (mergeSenderCopies r (b.withSender newJid)).text = r.text := by
      by_cases hempty : r.text = ""
      · simp [mergeSenderCopies, hempty, MessageRow.withSender, htext hempty b hb hs hk]
      · simp [mergeSenderCopies, hempty]
    rw [MessageRow.entry, hsame, htime]
    rfl

/-- The newest message of a chat after the chats are merged. -/
theorem latest_migrateMessages (hne : oldJid ≠ newJid) {r : MessageRow} (hj : jid ≠ oldJid)
    (hr : newestMessage s jid = some r)
    (hmoved : ∀ a ∈ s.messages.rows, a.chatJid = oldJid → newJid = jid →
      a.timestamp < r.timestamp) :
    ∃ r', newestMessage (migrateMessages plan s oldJid newJid) jid = some r' ∧
      r'.entry = r.entry := by
  have hchat : r.chatJid = jid := (Store.mem_chatMessages.mp (latest_mem _ hr)).2
  let moved := (plan.scan (s.messages.rows.filter fun m => m.chatJid = oldJid)).map
    (MessageRow.withChat newJid)
  have hlatest : newestMessage (migrateMessages plan s oldJid newJid) jid
      = some (Table.absorb MessageRow.key moved mergeChatCopies r) :=
    latest_relocate s.messages MessageRow.timestamp (MessageRow.withChat newJid) mergeChatCopies
      (fun _ _ => rfl) (q := fun m : MessageRow => decide (m.chatJid = jid))
      (fun l => plan.scan_perm l) withChat_key_inj (fun _ _ => decide_eq_false hne.symm)
      (fun _ _ => rfl)
      (fun x y hk => by rw [show x.chatJid = y.chatJid from congrArg Prod.fst hk]) hr
      (decide_eq_false (hchat ▸ hj))
      (fun a ha hc hq => hmoved a ha (of_decide_eq_true hc) (of_decide_eq_true hq))
      (fun x a => ⟨le_max_left _ _, le_rfl⟩)
  refine ⟨_, hlatest, ?_⟩
  rcases Table.absorb_cases MessageRow.key moved mergeChatCopies r with
    ⟨h, -⟩ | ⟨a, -, -, h⟩
  · rw [h]
  · rw [h]
    rfl

/-- Newest messages that stay are shown as before. -/
theorem FrontStays.shows (hne : oldJid ≠ newJid) (hj : jid ≠ oldJid) (hs : PreviewsShown s)
    (h : FrontStays s oldJid newJid jid p)
    (hle : ∀ m ∈ mergingRows s oldJid newJid jid, m.timestamp ≤ p.2) :
    ShowsEntries ((mergedStore plan s oldJid newJid).entries jid) p := by
  obtain ⟨htail, ⟨m, hm, htime⟩, hstay⟩ := h
  have hrow : ∀ m ∈ s.messages.rows, m.chatJid = jid → m ∈ mergingRows s oldJid newJid jid :=
    fun m hm hc => mem_mergingRows.mpr ⟨hm, by rw [hc, renamed_of_ne hj]⟩
  have hshown := hs jid p htail
  -- the newest message of the chat is one of those that stay
  obtain ⟨r, hr⟩ : ∃ r, newestMessage s jid = some r := by
    obtain ⟨hmem, hc⟩ := mem_mergingRows.mp hm
    rw [renamed_of_ne (hstay m hm htime).1] at hc
    exact exists_latest _ (Store.mem_chatMessages.mpr ⟨hmem, hc⟩)
  have hp := showsEntries_iff.mp hshown r hr
  have hrt : r.timestamp = p.2 := (congrArg Prod.snd hp).symm
  obtain ⟨hmem, hchat⟩ := Store.mem_chatMessages.mp (latest_mem _ hr)
  obtain ⟨-, hsender, htext⟩ := hstay r (hrow r hmem hchat) hrt
  have hbelow : ∀ a ∈ mergingRows s oldJid newJid jid, a.chatJid = oldJid ∨ a.senderJid = oldJid →
      a.timestamp < r.timestamp := by
    intro a ha hmoves
    refine lt_of_le_of_ne (hrt ▸ hle a ha) fun heq => ?_
    obtain ⟨hchat', hsender', -⟩ := hstay a ha (heq.trans hrt)
    exact hmoves.elim hchat' hsender'
  obtain ⟨r₁, hr₁, he₁⟩ := latest_migrateSender plan hne hr hsender
    (fun a ha hc hs => hbelow a (hrow a ha hc) (Or.inr hs)) fun hempty a ha hs hk => by
      have hc : a.chatJid = jid := (congrArg Prod.fst hk).trans hchat
      refine htext hempty a (hrow a ha hc) ?_
      rw [CopyOf, ← hk]
      simp [renameIdentity, MessageRow.key, MessageRow.withSender, hs, renamed_of_ne hne.symm]
  obtain ⟨r₂, hr₂, he₂⟩ := latest_migrateMessages plan hne hj hr₁ fun a ha hc hnew => by
    obtain ⟨b, hb, hk, ht, -⟩ := (migrateSender_mergedBy plan hne).origin a ha
    have hb' : b.chatJid = oldJid := (congrArg Prod.fst hk).trans hc
    have hlt := hbelow b (mem_mergingRows.mpr ⟨hb, by rw [hb', renamed_old, hnew]⟩) (Or.inl hb')
    have htime₁ : r₁.timestamp = r.timestamp := congrArg Entry.timestamp he₁
    rw [htime₁, ← ht]
    exact hlt
  refine showsEntries_iff.mpr fun r' hr' => ?_
  obtain rfl : r₂ = r' := Option.some_inj.mp (hr₂.symm.trans hr')
  have he : r₂.entry = r.entry := he₂.trans he₁
  rw [hp, show r₂.text = r.text from congrArg Entry.text he,
    show r₂.timestamp = r.timestamp from congrArg Entry.timestamp he]

/-! ## The migration -/

/-- No merged message is later than the merged preview. -/
theorem le_mergedTail (hw : WellFormed s) (hs : PreviewsShown s)
    (hp : mergedTail s oldJid newJid jid = some p) :
    ∀ m ∈ mergingRows s oldJid newJid jid, m.timestamp ≤ p.2 := by
  intro m hm
  obtain ⟨hm, hrenamed⟩ := mem_mergingRows.mp hm
  have hrow : ∃ c, s.chats.find? m.chatJid = some c ∧ m.timestamp ≤ c.lastTimestamp := by
    obtain ⟨c, hc⟩ := hasChat_iff_find?.mp (hw.chatOfMessage m hm)
    have htail : s.tail m.chatJid = some c.tail := by rw [Store.tail, hc, Option.map_some]
    have hentry : m.entry ∈ s.entries m.chatJid :=
      List.mem_map_of_mem (Store.mem_chatMessages.mpr ⟨hm, rfl⟩)
    exact ⟨c, hc, (hs _ _ htail).leads.le hentry⟩
  obtain ⟨c, hc, hle⟩ := hrow
  by_cases hnew : jid = newJid
  · rw [mergedTail, if_pos hnew, mergedChat] at hp
    rcases renamed_eq.mp hrenamed with ⟨hold, -⟩ | ⟨-, hchat⟩
    · -- the alias: its row is merged into the other one
      rw [hold] at hc
      rw [hc, Option.elim_some, Option.map_some, Option.some_inj] at hp
      rw [← hp]
      rcases s.chats.find? newJid with _ | c'
      · exact hle
      · exact hle.trans (le_max_right _ _)
    · rw [hchat, hnew] at hc
      rcases hold : s.chats.find? oldJid with _ | c'
      · rw [hc, hold] at hp
        rw [Option.elim_none, Option.map_some, Option.some_inj] at hp
        rw [← hp]
        exact hle
      · rw [hc, hold] at hp
        rw [Option.elim_some, Option.elim_some, Option.map_some, Option.some_inj] at hp
        rw [← hp]
        exact hle.trans (le_max_left _ _)
  · rw [mergedTail, if_neg hnew, Store.tail] at hp
    have hchat : m.chatJid = jid := by
      rcases renamed_eq.mp hrenamed with ⟨-, hnew'⟩ | ⟨-, hchat⟩
      · exact absurd hnew'.symm hnew
      · exact hchat
    rw [← hchat, hc, Option.map_some, Option.some_inj] at hp
    rw [← hp]
    exact hle

/-- A chat with a preview after the migration had a row before it. -/
theorem exists_chat_of_mergedTail (hne : oldJid ≠ newJid) (hj : jid ≠ oldJid)
    (hp : mergedTail s oldJid newJid jid = some p) :
    ∃ c ∈ s.chats.rows, renamed oldJid newJid c.jid = jid := by
  have hfound : ∀ {j c}, s.chats.find? j = some c → c ∈ s.chats.rows ∧ c.jid = j := fun h =>
    Table.find?_eq_some.mp h
  by_cases hnew : jid = newJid
  · rw [mergedTail, if_pos hnew, mergedChat] at hp
    rcases hold : s.chats.find? oldJid with _ | c
    · rw [hold, Option.elim_none, Option.map_eq_some_iff] at hp
      obtain ⟨c, hc, -⟩ := hp
      obtain ⟨hmem, hcj⟩ := hfound hc
      exact ⟨c, hmem, by rw [hcj, renamed_of_ne hne.symm, hnew]⟩
    · obtain ⟨hmem, hcj⟩ := hfound hold
      exact ⟨c, hmem, by rw [hcj, renamed_old, hnew]⟩
  · rw [mergedTail, if_neg hnew, Store.tail, Option.map_eq_some_iff] at hp
    obtain ⟨c, hc, -⟩ := hp
    obtain ⟨hmem, hcj⟩ := hfound hc
    exact ⟨c, hmem, by rw [hcj, renamed_of_ne hj]⟩

theorem tail_migrateContactJid (hmig : Migrates s oldJid newJid) (jid : String) :
    (migrateContactJid plan s oldJid newJid).1.tail jid
      = if jid = oldJid then none else mergedTail s oldJid newJid jid := by
  have hname : ∀ s' : Store, (applyMigratedName s' newJid).tail jid = s'.tail jid := by
    intro s'
    unfold applyMigratedName
    split
    · rfl
    · refine tail_of_update rfl ?_ jid
      exact fun _ => ⟨rfl, rfl⟩
  have hmerged : (migratedStore plan s oldJid newJid).tail jid
      = mergedTail s oldJid newJid jid := by
    have hfind : (migrateChat plan s oldJid newJid).chats.find? jid
        = if jid = newJid then mergedChat s oldJid newJid else s.chats.find? jid :=
      find?_migrateChat plan jid
    rw [mergedTail]
    refine (congrArg (Option.map ChatRow.tail) hfind).trans ?_
    split <;> rfl
  rw [migrateContactJid_of_migrates plan hmig,
    tail_deleteWhere_chat _ (dropAlias _ oldJid) oldJid rfl, hname, hmerged]

theorem entries_migrateContactJid (hmig : Migrates s oldJid newJid) (jid : String) :
    (migrateContactJid plan s oldJid newJid).1.entries jid
      = (keepNewest plan (mergedStore plan s oldJid newJid) newJid).entries jid := by
  have hname : ∀ s' : Store, (applyMigratedName s' newJid).entries jid = s'.entries jid := by
    intro s'
    unfold applyMigratedName
    split
    · rfl
    · refine entries_of_update rfl ?_ jid
      exact fun _ => ⟨rfl, rfl⟩
  rw [migrateContactJid_of_migrates plan hmig]
  exact hname _

/-- Retention keeps a newest merged message. -/
theorem FrontFits.withinRetention (hne : oldJid ≠ newJid) (h : FrontFits s oldJid newJid p)
    (hle : ∀ m ∈ mergingRows s oldJid newJid newJid, m.timestamp ≤ p.2) {r : MessageRow}
    (hrt : r.timestamp = p.2) :
    WithinRetention ((mergedStore plan s oldJid newJid).chatMessages newJid) r := by
  refine le_trans ?_ h
  rw [Store.chatMessages, List.countP_filter, countP_rows_eq_card]
  refine Finset.card_le_card fun k hk => ?_
  simp only [List.mem_toFinset, List.mem_map, List.mem_filter, Bool.and_eq_true,
    decide_eq_true_eq] at hk ⊢
  obtain ⟨m', ⟨hm', htime, hchat⟩, rfl⟩ := hk
  obtain ⟨m, hm, hk, ht⟩ :=
    mergedStore_time plan hne (Store.mem_chatMessages.mpr ⟨hm', hchat⟩)
  exact ⟨m, ⟨hm, le_antisymm (hle m hm) (by rw [ht, ← hrt]; exact htime)⟩, hk⟩

theorem PreviewsShown.migrateContactJid (hs : PreviewsShown s) (hw : WellFormed s)
    (hguard : Migrates s oldJid newJid → PreviewMergeGuard s oldJid newJid) :
    PreviewsShown (migrateContactJid plan s oldJid newJid).1 := by
  by_cases hmig : Migrates s oldJid newJid
  swap
  · rw [migrateContactJid_of_not_migrates plan hmig]
    exact hs
  intro jid p hp
  rw [tail_migrateContactJid plan hmig] at hp
  split at hp
  · cases hp
  rename_i hj
  have hne := hmig.1
  have hle := le_mergedTail hw hs hp
  rw [entries_migrateContactJid plan hmig]
  obtain ⟨c, hc, rfl⟩ := exists_chat_of_mergedTail hne hj hp
  rcases hguard hmig c hc p hp with hnil | ⟨hfits, hfront⟩
  · -- no message is merged into this chat
    rw [showsEntries_iff]
    intro r hr
    obtain ⟨hr, hchat⟩ := Store.mem_chatMessages.mp (latest_mem _ hr)
    obtain ⟨m, hm, -⟩ := mergedStore_time plan hne
      (Store.mem_chatMessages.mpr ⟨(Table.mem_deleteWhere.mp hr).1, hchat⟩)
    rw [hnil] at hm
    cases hm
  · have hshown := showsEntries_iff.mp
      (hfront.elim (fun h => h.shows plan hne hj hs hle) fun h => h.shows plan hne hle)
    rw [showsEntries_iff]
    intro r hr
    refine hshown r ?_
    by_cases hnew : renamed oldJid newJid c.jid = newJid
    · rw [hnew] at hr hshown hle ⊢
      rwa [newestMessage_keepNewest] at hr
      intro r' hr'
      have htime : r'.timestamp = p.2 := (congrArg Prod.snd (hshown r' hr')).symm
      exact (hfits hnew).withinRetention plan hne hle htime
    · rwa [newestMessage, chatMessages_keepNewest_of_ne plan _ hnew] at hr

end Rows

/-! ## Runs -/

/-- The steps after which every preview is that of the newest message. -/
def PreviewGuard (s : Store) : Op → Prop
  | .insertMessage message _ _ _ => ArrivalGuard s message
  | .insertMessageWithReadIntent message _ _ _ => ArrivalGuard s message
  | .insertHistoryConversation conversation => HistoryGuard plan s conversation
  | .updateMessageMedia chatJid messageId media => ∀ p ∈ s.tail chatJid,
    GifTies (s.entries chatJid) p (isGif media) messageId
  | .deleteMessage chatJid messageId => TiesAgree s chatJid messageId
  | .migrateContactJid oldJid newJid =>
    Migrates s oldJid newJid → PreviewMergeGuard s oldJid newJid
  | _ => True

instance (s : Store) (op : Op) : Decidable (PreviewGuard plan s op) := by
  apply Op.casesOn (motive := fun op => Decidable (PreviewGuard plan s op)) op
  all_goals
    intros
    dsimp only [PreviewGuard]
    infer_instance

section Runs

variable {s : Store}

theorem PreviewsShown.apply (h : PreviewsShown s) (hw : WellFormed s) {op : Op}
    (hg : PreviewGuard plan s op) : PreviewsShown (s.apply plan op) := by
  cases hop : op.keepsPreviews with
  | true => exact h.of_same (apply_samePreviews plan s hop)
  | false =>
    cases op with
    | insertMessage => exact h.insertMessageInner plan hw hg
    | insertMessageWithReadIntent => exact h.insertMessageInner plan hw hg
    | insertHistoryConversation => exact h.insertHistoryConversation plan hw hg
    | updateMessageMedia => exact h.updateMessageMedia plan hg
    | deleteChat => exact h.deleteChat _ _
    | clearChat => exact h.clearChat _ _
    | deleteMessage => exact h.deleteMessage plan hg
    | migrateContactJid => exact h.migrateContactJid plan hw hg
    | _ => cases hop

/-- The chat list shows the newest message of every chat that has one. -/
def ListsNewest (s : Store) : Prop :=
  ∀ now limit, ∀ chat ∈ listChats plan s now limit, ∀ r ∈ newestMessage s chat.jid,
    chat.lastMessage = r.text ∧ chat.lastTimestamp = r.timestamp ∧
      chat.lastSenderName = r.senderName

theorem PreviewsShown.listsNewest (h : PreviewsShown s) : ListsNewest plan s := by
  intro now limit chat hchat r hr
  obtain ⟨c, hc, rfl⟩ := mem_listChats plan hchat
  have htail : s.tail c.jid = some c.tail := tail_eq_some.mpr ⟨c, hc, rfl, rfl⟩
  have hshown := showsEntries_iff.mp (h c.jid c.tail htail) r hr
  refine ⟨congrArg Prod.fst hshown, congrArg Prod.snd hshown, ?_⟩
  have hnewest : newestMessage s c.jid = some r := hr
  simp only [listedChat, hnewest, Option.elim_some]

end Runs

/-- In every run whose steps the guard admits, the chat list shows in every state the newest
message of every chat that has one. -/
theorem listsNewest_of_guarded (ops : List Op)
    (hg : Guarded (Store.apply plan) (PreviewGuard plan) Store.empty ops) :
    ∀ s ∈ states (Store.apply plan) Store.empty ops, ListsNewest plan s := by
  have hempty : PreviewsShown Store.empty := fun _ _ hp => by cases hp
  have hstep : ∀ s op, (PreviewsShown s ∧ WellFormed s) → PreviewGuard plan s op →
      PreviewsShown (s.apply plan op) ∧ WellFormed (s.apply plan op) := fun s op hs hop =>
    ⟨hs.1.apply plan hs.2 hop, hs.2.apply plan op⟩
  intro s hs
  exact (invariant_states hstep ⟨hempty, wellFormed_empty⟩ hg s hs).1.listsNewest plan

/-- The guard admits a run that replays a conversation, receives messages in two chats of one
contact, receives one of them again, deletes the newest one and merges the chats. -/
theorem listsNewest_of_guarded_merged_chat :
    let ops : List Op :=
      [.insertHistoryConversation
          (directConversation "1" "Ann" [("b", "two", 20), ("a", "one", 10)]),
        .insertMessage (directMessage "1@lid" "c" "three" 30) "Ann" false true,
        .insertMessage (directMessage "1" "a" "one" 10) "Ann" false true,
        .insertMessage (directMessage "1" "d" "four" 40) "Ann" false true,
        .deleteMessage "1" "d", .migrateContactJid "1@lid" "1"]
    ∀ s ∈ states (Store.apply .stable) Store.empty ops, ListsNewest .stable s :=
  listsNewest_of_guarded .stable _ (by decide)

/-- A message that is delivered again is shown in place of a newer one of the same time. -/
theorem insertMessage_shows_redelivered :
    ¬∀ s ∈ states (Store.apply .stable) Store.empty
      [.insertMessage (directMessage "1" "a" "one" 10) "Ann" false true,
        .insertMessage (directMessage "1" "b" "two" 10) "Ann" false true,
        .insertMessage (directMessage "1" "a" "one" 10) "Ann" false true],
      ListsNewest .stable s := by
  intro h
  have hlast := h _ (run_mem_states _ _ _) 0 10
  exact absurd hlast (by decide)

end OmarchyWhatsapp
