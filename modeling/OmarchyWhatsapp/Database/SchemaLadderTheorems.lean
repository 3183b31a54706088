import OmarchyWhatsapp.Database.PollTheorems
import OmarchyWhatsapp.Database.SchemaLadder

/-!
# An interrupted start is made up for

Whatever a start commits it commits in one of the actions of `openActions`, and each of them finds
out from the database whether it is done: a table or an index that exists, no delivery in flight,
the recorded version, cards that agree with the votes. No later action undoes an earlier one
(`Advances`), so a start that is interrupted anywhere and repeated ends as one that was not.

The repair of the poll cards is the last action, and the one whose end is not read from its first
lines: the cards of several senders under one id are overwritten by one another. The rows it leaves
are settled all the same (`Settled`).
-/

namespace OmarchyWhatsapp

open Relational

namespace SchemaLadder

/-! ## What every action keeps -/

/-- An index under a name of the schema is on the table of the schema. -/
def Placed (db : HistoryDb) : Prop :=
  ∀ name i index, Creation.index name i ∈ bootstrap → db.indexes name = some index →
    index.table = i.table

/-- No delivery is recorded as in flight. -/
def Requeued (db : HistoryDb) : Prop :=
  ∃ t, db.tables "text_outbox" = some t ∧ t.requireColumns ["status", "error"] = .ok () ∧
    ∀ r ∈ t.rows, (r "status").eq (.integer 1) = false

/-- What no action of a start takes back. -/
structure Advances (db db' : HistoryDb) : Prop where
  tables : ∀ name, (db.tables name).isSome → (db'.tables name).isSome
  placed : Placed db → Placed db'
  indexes : Placed db → ∀ name i, Creation.index name i ∈ bootstrap → (db.indexes name).isSome →
    (db'.indexes name).isSome
  version : db.userVersion ≤ db'.userVersion
  requeued : Requeued db → Requeued db'

namespace Advances

variable {db db₁ db₂ : HistoryDb}

theorem refl (db : HistoryDb) : Advances db db :=
  ⟨fun _ h => h, fun h => h, fun _ _ _ _ h => h, le_rfl, fun h => h⟩

theorem trans (h₁ : Advances db db₁) (h₂ : Advances db₁ db₂) : Advances db db₂ where
  tables name h := h₂.tables name (h₁.tables name h)
  placed h := h₂.placed (h₁.placed h)
  indexes h name i hi hsome := h₂.indexes (h₁.placed h) name i hi (h₁.indexes h name i hi hsome)
  version := h₁.version.trans h₂.version
  requeued h := h₂.requeued (h₁.requeued h)

/-- A table other than the outbox is written. -/
theorem setTable {name : String} {t : SqlTable Document} (hname : name ≠ "text_outbox") :
    Advances db (db.setTable name t) where
  tables other h := SqlDatabase.isSome_setTable h
  placed h := h
  indexes _ _ _ _ h := h
  version := le_rfl
  requeued := by
    rintro ⟨outbox, houtbox, h⟩
    exact ⟨outbox, by rwa [SqlDatabase.setTable_tables_of_ne hname.symm], h⟩

theorem alter {name : String} {f : SqlTable Document → Except String (SqlTable Document)}
    (hname : name ≠ "text_outbox") (h : db.alter name f = .ok db₁) : Advances db db₁ := by
  obtain ⟨t, t', -, -, rfl⟩ := SqlDatabase.alter_ok.mp h
  exact setTable hname

theorem insertRows {foreignKeys : Bool} {name : String}
    {conflict : Option (SqlTable.Conflict Document)} {columns : List String}
    {rows : List (List (String × HistoryValue))} (hname : name ≠ "text_outbox")
    (h : db.insertRows foreignKeys name conflict columns rows = .ok db₁) : Advances db db₁ :=
  alter hname h

theorem foldlM {α : Type} {f : HistoryDb → α → Except String HistoryDb} {l : List α}
    (hf : ∀ a db db₁, f db a = .ok db₁ → Advances db db₁) (h : l.foldlM f db = .ok db₁) :
    Advances db db₁ := by
  induction l generalizing db with
  | nil =>
    cases h
    exact refl _
  | cons a l ih =>
    obtain ⟨db', hdb', h⟩ := bind_eq_ok.mp h
    exact (hf a _ db' hdb').trans (ih h)

end Advances

/-! ## The migrations -/

section Migrations

variable {plan : QueryPlan} {foreignKeys : Bool} {storeJson : Option (List StoredChat)}
  {db db' : HistoryDb}

/-- A new column of the outbox leaves the statuses alone. -/
theorem Requeued.addColumn {t : SqlTable Document} {column : SqlColumn Document}
    (h : Requeued db) (ht : db.tables "text_outbox" = some t)
    (hcolumn : t.hasColumn column.name = false) :
    Requeued (db.setTable "text_outbox" (t.addColumn column)) := by
  obtain ⟨t', ht', hcolumns, hrows⟩ := h
  obtain rfl : t' = t := Option.some.inj (ht'.symm.trans ht)
  rw [SqlTable.requireColumns_ok] at hcolumns
  refine ⟨_, SqlDatabase.setTable_tables_self, SqlTable.requireColumns_ok.mpr fun c hc => ?_, ?_⟩
  · have hold := hcolumns c hc
    simp only [SqlTable.hasColumn, SqlTable.addColumn, List.any_append, Bool.or_eq_true] at hold ⊢
    exact Or.inl hold
  · intro r hr
    obtain ⟨r₀, hr₀, rfl⟩ := List.mem_map.mp hr
    have hne : "status" ≠ column.name := by
      intro heq
      rw [← heq, hcolumns "status" List.mem_cons_self] at hcolumn
      cases hcolumn
    rw [SqlRow.set_of_ne _ _ hne]
    exact hrows r₀ hr₀

theorem advances_ensureColumn {name : String} {column : SqlColumn Document}
    (h : ensureColumn name column db = .ok db') : Advances db db' := by
  unfold ensureColumn at h
  split at h
  · cases h
    exact Advances.refl db
  · rename_i habsent
    by_cases hname : name = "text_outbox"
    · subst hname
      obtain ⟨t, t', ht, ht', rfl⟩ := SqlDatabase.alter_ok.mp h
      cases ht'
      have hcolumn : t.hasColumn column.name = false := by simpa [ht] using habsent
      exact ⟨fun _ h => SqlDatabase.isSome_setTable h, fun h => h, fun _ _ _ _ h => h, le_rfl,
        fun h => h.addColumn ht hcolumn⟩
    · exact Advances.alter hname h

theorem advances_ensureColumns {columns : List (String × SqlColumn Document)}
    (h : ensureColumns columns db = .ok db') : Advances db db' :=
  Advances.foldlM (fun _ _ _ => advances_ensureColumn) h

theorem advances_migrateDirectReceipts (h : migrateDirectReceipts plan foreignKeys db = .ok db') :
    Advances db db' := by
  obtain ⟨messages, -, h⟩ := bind_eq_ok.mp h
  obtain ⟨chats, -, h⟩ := bind_eq_ok.mp h
  exact Advances.insertRows (by decide) h

/-- The indexes of the schema on `messages` are the two that the rebuilt table gets. -/
theorem index_of_messages {name : String} {i : SqlIndex}
    (h : Creation.index name i ∈ bootstrap) :
    (name = "messages_by_chat_time" ∧ i.table = "messages") ∨
      (name = "messages_by_sender" ∧ i.table = "messages") ∨
      (name ≠ "messages_by_chat_time" ∧ name ≠ "messages_by_sender" ∧ i.table ≠ "messages" ∧
        i.table ≠ "messages_legacy_identity") := by
  simp only [bootstrap, List.mem_cons, reduceCtorEq, false_or, Creation.index.injEq,
    List.not_mem_nil, or_false] at h
  rcases h with ⟨rfl, rfl⟩ | ⟨rfl, rfl⟩ | ⟨rfl, rfl⟩ | ⟨rfl, rfl⟩ | ⟨rfl, rfl⟩ | ⟨rfl, rfl⟩ |
    ⟨rfl, rfl⟩ | ⟨rfl, rfl⟩ <;> decide

/-- The rebuilt table takes the place of the old one, and its indexes of the old ones. -/
theorem rebuildMessages_ok (h : rebuildMessages plan foreignKeys db = .ok db') :
    db.tables "messages_legacy_identity" = none ∧
      (∃ t, db'.tables = Function.update db.tables "messages" (some t)) ∧
      db'.userVersion = db.userVersion ∧
      db'.indexes = Function.update
        (Function.update
          (fun i => (db.indexes i).filter (fun index =>
            index.table != "messages" && index.table != "messages_legacy_identity"))
          "messages_by_chat_time" (some ⟨"messages", ["chat_jid", "timestamp"]⟩))
        "messages_by_sender" (some ⟨"messages", ["sender_jid"]⟩) := by
  obtain ⟨db₁, h₁, h⟩ := bind_eq_ok.mp h
  obtain ⟨db₂, h₂, h⟩ := bind_eq_ok.mp h
  obtain ⟨legacy, -, h⟩ := bind_eq_ok.mp h
  obtain ⟨db₃, h₃, h⟩ := bind_eq_ok.mp h
  obtain ⟨db₄, h₄, h⟩ := bind_eq_ok.mp h
  obtain ⟨db₅, h₅, h₆⟩ := bind_eq_ok.mp h
  obtain ⟨old, hold, hlegacy, rfl⟩ := SqlDatabase.renameTable_ok h₁
  obtain ⟨-, rfl⟩ := SqlDatabase.createTable_ok h₂
  obtain ⟨t, t', -, -, rfl⟩ := SqlDatabase.alter_ok.mp h₃
  obtain rfl := SqlDatabase.dropTable_ok h₄
  obtain rfl := SqlDatabase.createIndex_ok h₅
  obtain rfl := SqlDatabase.createIndex_ok h₆
  refine ⟨hlegacy, ⟨t', ?_⟩, rfl, ?_⟩
  · funext name
    simp only [SqlDatabase.setTable, SqlDatabase.dropIndex, Function.update_apply]
    by_cases hname : name = "messages_legacy_identity"
    · subst hname
      exact hlegacy.symm
    · by_cases hmessages : name = "messages"
      · simp [hmessages]
      · simp [hname, hmessages]
  · funext name
    simp only [SqlDatabase.setTable, SqlDatabase.dropIndex, Function.update_apply]
    by_cases hsender : name = "messages_by_sender"
    · simp [hsender]
    · by_cases htime : name = "messages_by_chat_time"
      · simp [htime]
      · simp only [hsender, htime, if_false]
        rcases db.indexes name with _ | index
        · rfl
        · by_cases hmessages : index.table = "messages"
          · simp [hmessages, Option.filter]
          · simp [hmessages, Option.filter]

theorem advances_rebuildMessages (h : rebuildMessages plan foreignKeys db = .ok db') :
    Advances db db' := by
  obtain ⟨hlegacy, ⟨t, htables⟩, hversion, hindexes⟩ := rebuildMessages_ok h
  refine ⟨fun name hname => ?_, fun hplaced name i index hi hindex => ?_,
    fun hplaced name i hi hsome => ?_, hversion.ge, ?_⟩
  · rw [htables, Function.update_apply]
    split
    · rfl
    · exact hname
  · rw [hindexes] at hindex
    rcases index_of_messages hi with ⟨rfl, htable⟩ | ⟨rfl, htable⟩ | ⟨htime, hsender, -, -⟩
    · rw [Function.update_of_ne (by decide), Function.update_self] at hindex
      rw [htable, ← Option.some.inj hindex]
    · rw [Function.update_self] at hindex
      rw [htable, ← Option.some.inj hindex]
    · rw [Function.update_of_ne hsender, Function.update_of_ne htime,
        Option.filter_eq_some_iff] at hindex
      exact hplaced name i index hi hindex.1
  · rw [hindexes]
    rcases index_of_messages hi with ⟨rfl, -⟩ | ⟨rfl, -⟩ | ⟨htime, hsender, hmessages, hnew⟩
    · rfl
    · rfl
    · obtain ⟨index, hindex⟩ := Option.isSome_iff_exists.mp hsome
      have htable := hplaced name i index hi hindex
      rw [Function.update_of_ne hsender, Function.update_of_ne htime, hindex]
      simp [htable, hmessages, hnew]
  · rintro ⟨outbox, houtbox, h⟩
    refine ⟨outbox, ?_, h⟩
    rw [htables, Function.update_of_ne (by decide), houtbox]

theorem advances_ensureMessageIdentitySchema
    (h : ensureMessageIdentitySchema plan foreignKeys db = .ok db') : Advances db db' := by
  unfold ensureMessageIdentitySchema at h
  extract_lets primaryKey at h
  split at h
  · cases h
    exact Advances.refl db
  · split at h
    · exact advances_rebuildMessages h
    · cases h

theorem advances_restoreLegacyChatNames (h : restoreLegacyChatNames storeJson db = .ok db') :
    Advances db db' := by
  unfold restoreLegacyChatNames at h
  split at h
  · cases h
    exact Advances.refl db
  · exact Advances.foldlM (fun _ _ _ => Advances.alter (by decide)) h

theorem advances_migrateChatNames (h : migrateChatNames plan storeJson db = .ok db') :
    Advances db db' := by
  obtain ⟨db₁, h₁, h⟩ := bind_eq_ok.mp h
  obtain ⟨db₂, h₂, h⟩ := bind_eq_ok.mp h
  obtain ⟨contacts, -, h⟩ := bind_eq_ok.mp h
  obtain ⟨db₃, h₃, h⟩ := bind_eq_ok.mp h
  obtain ⟨db₄, h₄, h₅⟩ := bind_eq_ok.mp h
  have hchats : ("chats" : String) ≠ "text_outbox" := by decide
  have hmessages : ("messages" : String) ≠ "text_outbox" := by decide
  exact (((Advances.alter hchats h₁).trans (Advances.alter hchats h₂)).trans
    (Advances.alter hchats h₃)).trans ((Advances.alter hmessages h₄).trans
      (advances_restoreLegacyChatNames h₅))

theorem advances_migrateControlBubbles (h : migrateControlBubbles plan db = .ok db') :
    Advances db db' := by
  obtain ⟨db₁, h₁, h⟩ := bind_eq_ok.mp h
  obtain ⟨messages, -, h₂⟩ := bind_eq_ok.mp h
  exact (Advances.alter (by decide) h₁).trans (Advances.alter (by decide) h₂)

/-- Every step of the ladder advances the database. -/
theorem advances_migrations {step : ℤ × (HistoryDb → Except String HistoryDb)}
    (hstep : step ∈ migrations plan foreignKeys storeJson) (h : step.2 db = .ok db') :
    Advances db db' := by
  simp only [migrations, List.mem_cons, List.not_mem_nil, or_false] at hstep
  rcases hstep with rfl | rfl | rfl | rfl | rfl | rfl | rfl | rfl | rfl
  · exact advances_ensureColumns h
  · exact advances_migrateDirectReceipts h
  · exact advances_ensureColumns h
  · exact advances_ensureMessageIdentitySchema h
  · exact advances_ensureColumns h
  · exact advances_migrateChatNames h
  · exact advances_migrateControlBubbles h
  · exact advances_ensureColumn h
  · exact advances_ensureColumns h

theorem advances_runMigration {target : ℤ} {apply : HistoryDb → Except String HistoryDb}
    (happly : ∀ db₁, apply db = .ok db₁ → Advances db db₁)
    (h : runMigration target apply db = .ok db') : Advances db db' := by
  unfold runMigration at h
  split at h
  · cases h
    exact Advances.refl db
  · rename_i hversion
    obtain ⟨db₁, h₁, h⟩ := bind_eq_ok.mp h
    obtain rfl := pure_eq_ok.mp h
    have hadvances := happly db₁ h₁
    exact ⟨hadvances.tables, hadvances.placed, hadvances.indexes, (not_le.mp hversion).le,
      hadvances.requeued⟩

end Migrations

/-! ## The repair of the poll cards -/

section Repair

variable {plan : QueryPlan} {db db' : HistoryDb}

theorem getText_ok {v : HistoryValue} {s : String} : getText v = .ok s ↔ v = .text s := by
  cases v <;> simp [getText]

theorem eq_text {v : HistoryValue} {s : String} : v.eq (.text s) = true ↔ v = .text s := by
  cases v <;> simp [SqlValue.eq]

theorem readVotedMessage_ok {r : HistoryRow} {target : VotedMessage} :
    readVotedMessage r = .ok target ↔ r "chat_jid" = .text target.chatJid ∧
      r "id" = .text target.messageId ∧ getDocument (r "media_json") = .ok target.media := by
  constructor
  · intro h
    obtain ⟨chatJid, hchat, h⟩ := bind_eq_ok.mp h
    obtain ⟨messageId, hid, h⟩ := bind_eq_ok.mp h
    obtain ⟨media, hmedia, h⟩ := bind_eq_ok.mp h
    obtain rfl := pure_eq_ok.mp h
    exact ⟨getText_ok.mp hchat, getText_ok.mp hid, hmedia⟩
  · rintro ⟨hchat, hid, hmedia⟩
    exact bind_eq_ok.mpr ⟨_, getText_ok.mpr hchat,
      bind_eq_ok.mpr ⟨_, getText_ok.mpr hid, bind_eq_ok.mpr ⟨_, hmedia, rfl⟩⟩⟩

/-- A card is reconciled with the votes and nothing else. -/
theorem reconciledCard_congr (h : db'.tables "poll_votes" = db.tables "poll_votes")
    (chatJid messageId : String) (media : MessageMedia) :
    reconciledCard plan db' chatJid messageId media
      = reconciledCard plan db chatJid messageId media := by
  cases media with
  | poll => simp only [reconciledCard, SqlDatabase.select, SqlDatabase.table, h]
  | _ => rfl

/-- A card that was reconciled needs no other. -/
theorem reconciledCard_again {chatJid messageId : String} {media card : MessageMedia}
    (h : reconciledCard plan db chatJid messageId media = .ok (some card)) :
    reconciledCard plan db chatJid messageId card = .ok none := by
  cases media with
  | poll question options selectable total quiz correct endTimestamp =>
    obtain ⟨rows, hrows, h⟩ := bind_eq_ok.mp h
    obtain ⟨votes, hvotes, h⟩ := bind_eq_ok.mp h
    have hcard := pure_eq_ok.mp h
    split at hcard
    · obtain rfl := Option.some.inj hcard
      have htallied := tallied_retally
        (.poll question options selectable total quiz correct endTimestamp) votes
      refine bind_eq_ok.mpr ⟨rows, hrows, bind_eq_ok.mpr ⟨votes, hvotes, pure_eq_ok.mpr ?_⟩⟩
      rw [if_neg]
      exact Bool.not_eq_true _ ▸ htallied
    · cases hcard
  | _ => cases h

/-- The card that the repair gives a message, if any. -/
def newCard (plan : QueryPlan) (db : HistoryDb) (target : VotedMessage) : Option MessageMedia :=
  match target.media with
  | some (.media media) =>
    (reconciledCard plan db target.chatJid target.messageId media).toOption.join
  | _ => none

/-- A row after the repair of one message. -/
def dealRow (plan : QueryPlan) (db : HistoryDb) (r : HistoryRow) (target : VotedMessage) :
    HistoryRow :=
  match newCard plan db target with
  | some card => if sharesId target r then r.set "media_json" (.json (.media card)) else r
  | none => r

/-- The votes on the message can be read. -/
def Readable (plan : QueryPlan) (db : HistoryDb) (target : VotedMessage) : Prop :=
  ∀ media, target.media = some (.media media) →
    ∃ card, reconciledCard plan db target.chatJid target.messageId media = .ok card

theorem newCard_congr (h : db'.tables "poll_votes" = db.tables "poll_votes") :
    newCard plan db' = newCard plan db := by
  funext target
  unfold newCard
  split
  · rw [reconciledCard_congr h]
  · rfl

theorem reconcileTarget_ok {target : VotedMessage} {t : SqlTable Document}
    (ht : db.tables "messages" = some t) (h : reconcileTarget plan db target = .ok db') :
    db' = db.setTable "messages"
        { t with rows := t.rows.map (fun r => dealRow plan db r target) } ∧
      Readable plan db target := by
  have hsame : db = db.setTable "messages" { t with rows := t.rows.map (fun r => r) } := by
    rw [List.map_id', SqlDatabase.setTable_self ht]
  unfold reconcileTarget at h
  split at h
  · rename_i media hmedia
    obtain ⟨card, hcard, h⟩ := bind_eq_ok.mp h
    have hreadable : Readable plan db target := by
      intro media' hmedia'
      rw [hmedia] at hmedia'
      cases hmedia'
      exact ⟨card, hcard⟩
    have hnew : newCard plan db target = card := by
      simp only [newCard, hmedia, hcard]
      rfl
    simp only [dealRow, hnew]
    split at h
    · obtain rfl := pure_eq_ok.mp h
      exact ⟨hsame, hreadable⟩
    · obtain ⟨t₁, t₂, ht₁, ht₂, rfl⟩ := SqlDatabase.alter_ok.mp h
      obtain rfl : t₁ = t := Option.some.inj (ht₁.symm.trans ht)
      rw [(SqlTable.update_ok ht₂).2]
      exact ⟨rfl, hreadable⟩
  · rename_i hmedia
    have hnew : newCard plan db target = none := by
      unfold newCard
      split
      · rename_i hsome
        exact absurd hsome (hmedia _)
      · rfl
    simp only [dealRow, hnew]
    cases h
    exact ⟨hsame, fun media hsome => absurd hsome (hmedia media)⟩

/-- The repair deals with the rows one by one, and with each message in each of them. -/
theorem reconcileTargets_ok {targets : List VotedMessage} {t : SqlTable Document}
    (ht : db.tables "messages" = some t)
    (h : targets.foldlM (reconcileTarget plan) db = .ok db') :
    db' = db.setTable "messages"
        { t with rows := t.rows.map (fun r => targets.foldl (dealRow plan db) r) } ∧
      ∀ target ∈ targets, Readable plan db target := by
  induction targets generalizing db t with
  | nil =>
    cases h
    refine ⟨?_, fun _ h => absurd h List.not_mem_nil⟩
    simp only [List.foldl_nil, List.map_id', SqlDatabase.setTable_self ht]
  | cons target targets ih =>
    obtain ⟨db₁, h₁, h⟩ := bind_eq_ok.mp h
    obtain ⟨rfl, hreadable⟩ := reconcileTarget_ok ht h₁
    have hvotes : (db.setTable "messages"
        { t with rows := t.rows.map (fun r => dealRow plan db r target) }).tables "poll_votes"
          = db.tables "poll_votes" := SqlDatabase.setTable_tables_of_ne (by decide)
    have hdeal : ∀ db₁ : HistoryDb, db₁.tables "poll_votes" = db.tables "poll_votes" →
        dealRow plan db₁ = dealRow plan db := by
      intro db₁ hdb₁
      funext r target
      simp only [dealRow, newCard_congr hdb₁]
    obtain ⟨rfl, hrest⟩ := ih SqlDatabase.setTable_tables_self h
    refine ⟨?_, fun other hother => ?_⟩
    · simp only [SqlDatabase.setTable_setTable, List.map_map, hdeal _ hvotes, List.foldl_cons]
      rfl
    · rcases List.mem_cons.mp hother with rfl | hother
      · exact hreadable
      · intro media hmedia
        obtain ⟨card, hcard⟩ := hrest other hother media hmedia
        exact ⟨card, (reconciledCard_congr hvotes ..).symm.trans hcard⟩

/-- The row can be read, and the repair has nothing to change in it. -/
def Settled (plan : QueryPlan) (db : HistoryDb) (r : HistoryRow) : Prop :=
  ∃ target, readVotedMessage r = .ok target ∧ ∀ media, target.media = some (.media media) →
    reconciledCard plan db target.chatJid target.messageId media = .ok none

/-- A row that got a card is settled. -/
theorem settled_of_newCard {r : HistoryRow} {target : VotedMessage} {card : MessageMedia}
    (hcard : newCard plan db target = some card) (hshares : sharesId target r = true) :
    Settled plan db (r.set "media_json" (.json (.media card))) := by
  rw [sharesId, Bool.and_eq_true, eq_text, eq_text] at hshares
  refine ⟨⟨target.chatJid, target.messageId, some (.media card)⟩,
    readVotedMessage_ok.mpr ⟨?_, ?_, ?_⟩, ?_⟩
  · rw [SqlRow.set_of_ne _ _ (by decide)]
    exact hshares.1
  · rw [SqlRow.set_of_ne _ _ (by decide)]
    exact hshares.2
  · rw [SqlRow.set_self]
    rfl
  · rintro _ ⟨⟩
    unfold newCard at hcard
    split at hcard
    · rename_i media hmedia
      rcases hreconciled : reconciledCard plan db target.chatJid target.messageId media
        with e | card'
      · rw [hreconciled] at hcard
        cases hcard
      · rw [hreconciled] at hcard
        obtain rfl : card' = some card := hcard
        exact reconciledCard_again hreconciled
    · cases hcard

/-- After any messages were dealt with, a row is settled, or none of them had a card for it. -/
theorem settled_or_untouched (targets : List VotedMessage) (r : HistoryRow) :
    Settled plan db (targets.foldl (dealRow plan db) r) ∨
      (targets.foldl (dealRow plan db) r = r ∧
        ∀ target ∈ targets, sharesId target r = true → newCard plan db target = none) := by
  induction targets generalizing r with
  | nil => exact Or.inr ⟨rfl, fun _ h => absurd h List.not_mem_nil⟩
  | cons target targets ih =>
    rw [List.foldl_cons]
    by_cases hdealt : sharesId target r = true ∧ (newCard plan db target).isSome
    · obtain ⟨hshares, hsome⟩ := hdealt
      obtain ⟨card, hcard⟩ := Option.isSome_iff_exists.mp hsome
      have hrow : dealRow plan db r target = r.set "media_json" (.json (.media card)) := by
        rw [dealRow, hcard]
        exact if_pos hshares
      rw [hrow]
      rcases ih (r.set "media_json" (.json (.media card))) with hsettled | ⟨hsame, -⟩
      · exact Or.inl hsettled
      · rw [hsame]
        exact Or.inl (settled_of_newCard hcard hshares)
    · have hnone : sharesId target r = true → newCard plan db target = none := fun hshares =>
        Option.not_isSome_iff_eq_none.mp fun hsome => hdealt ⟨hshares, hsome⟩
      have hrow : dealRow plan db r target = r := by
        unfold dealRow
        split
        · rename_i card hcard
          rw [if_neg]
          intro hshares
          rw [hnone hshares] at hcard
          cases hcard
        · rfl
      rw [hrow]
      refine (ih r).imp_right fun h => ⟨h.1, fun other hother => ?_⟩
      rcases List.mem_cons.mp hother with rfl | hother
      · exact hnone
      · exact h.2 other hother

theorem sharesId_of_read {r : HistoryRow} {target : VotedMessage}
    (h : readVotedMessage r = .ok target) : sharesId target r = true := by
  obtain ⟨hchat, hid, -⟩ := readVotedMessage_ok.mp h
  rw [sharesId, Bool.and_eq_true, eq_text, eq_text]
  exact ⟨hchat, hid⟩

/-- Rows that are settled are passed over. -/
theorem reconcileTargets_of_settled {targets : List VotedMessage}
    (h : ∀ target ∈ targets, ∃ r, readVotedMessage r = .ok target ∧ Settled plan db r) :
    targets.foldlM (reconcileTarget plan) db = .ok db := by
  induction targets with
  | nil => rfl
  | cons target targets ih =>
    obtain ⟨r, hread, target', hread', hsettled⟩ := h target List.mem_cons_self
    obtain rfl : target' = target := Except.ok.inj (hread'.symm.trans hread)
    have htarget : reconcileTarget plan db target' = .ok db := by
      unfold reconcileTarget
      split
      · rename_i media hmedia
        rw [hsettled media hmedia]
        rfl
      · rfl
    rw [List.foldlM_cons, htarget]
    exact ih fun other hother => h other (List.mem_cons_of_mem _ hother)

theorem advances_reconcileAllPollTallies (h : reconcileAllPollTallies plan db = .ok db') :
    Advances db db' := by
  obtain ⟨messages, hmessages, h⟩ := bind_eq_ok.mp h
  obtain ⟨votes, -, h⟩ := bind_eq_ok.mp h
  obtain ⟨targets, -, h⟩ := bind_eq_ok.mp h
  obtain ⟨t, ht, -, -⟩ := SqlDatabase.select_ok.mp hmessages
  rw [(reconcileTargets_ok ht h).1]
  exact Advances.setTable (by decide)

/-- A second repair finds nothing to do. -/
theorem reconcileAllPollTallies_again (h : reconcileAllPollTallies plan db = .ok db') :
    reconcileAllPollTallies plan db' = .ok db' := by
  obtain ⟨messages, hmessages, h₁⟩ := bind_eq_ok.mp h
  obtain ⟨votes, hvotes, h₂⟩ := bind_eq_ok.mp h₁
  obtain ⟨targets, htargets, h₃⟩ := bind_eq_ok.mp h₂
  obtain ⟨t, ht, hcolumns, rfl⟩ := SqlDatabase.select_ok.mp hmessages
  obtain ⟨hdb', hreadable⟩ := reconcileTargets_ok ht h₃
  have hpolls : db'.tables "poll_votes" = db.tables "poll_votes" := by
    rw [hdb']
    exact SqlDatabase.setTable_tables_of_ne (by decide)
  have hsettled : ∀ r ∈ votedRows (t.rows.map fun r => targets.foldl (dealRow plan db) r) votes,
      Settled plan db' r := by
    intro r' hr'
    obtain ⟨hmem, hvoted⟩ := List.mem_filter.mp hr'
    obtain ⟨r, hr, rfl⟩ := List.mem_map.mp hmem
    have hrow : Settled plan db (targets.foldl (dealRow plan db) r) := by
      refine (settled_or_untouched targets r).elim id fun ⟨hsame, hnone⟩ => ?_
      -- the row was one of those that were read, with the media it still has
      rw [hsame] at hvoted ⊢
      obtain ⟨target, htarget, hread⟩ := mapM_eq_ok htargets r
        (plan.mem_scan.mpr (List.mem_filter.mpr ⟨hr, hvoted⟩))
      refine ⟨target, hread, fun media hmedia => ?_⟩
      obtain ⟨card, hcard⟩ := hreadable target htarget media hmedia
      have hnew := hnone target htarget (sharesId_of_read hread)
      simp only [newCard, hmedia, hcard] at hnew
      rw [hcard]
      exact congrArg Except.ok hnew
    obtain ⟨target, hread, hcard⟩ := hrow
    exact ⟨target, hread, fun media hmedia =>
      (reconciledCard_congr hpolls ..).trans (hcard media hmedia)⟩
  obtain ⟨targets', htargets', hfrom⟩ := exists_mapM (f := readVotedMessage)
    (l := plan.scan (votedRows (t.rows.map fun r => targets.foldl (dealRow plan db) r) votes))
    fun r hr => (hsettled r (plan.mem_scan.mp hr)).imp fun _ h => h.1
  have hmessages' : db'.select "messages" ["chat_jid", "id", "media_json"]
      = .ok (t.rows.map fun r => targets.foldl (dealRow plan db) r) := by
    refine SqlDatabase.select_ok.mpr
      ⟨{ t with rows := t.rows.map fun r => targets.foldl (dealRow plan db) r }, ?_, hcolumns, rfl⟩
    rw [hdb', SqlDatabase.setTable_tables_self]
  have hvotes' : db'.select "poll_votes" ["chat_jid", "message_id"] = .ok votes := by
    obtain ⟨v, hv, hcolumns', hrows⟩ := SqlDatabase.select_ok.mp hvotes
    exact SqlDatabase.select_ok.mpr ⟨v, hpolls.trans hv, hcolumns', hrows⟩
  refine bind_eq_ok.mpr ⟨_, hmessages', bind_eq_ok.mpr ⟨votes, hvotes',
    bind_eq_ok.mpr ⟨targets', htargets', reconcileTargets_of_settled fun target htarget => ?_⟩⟩⟩
  obtain ⟨r, hr, hread⟩ := hfrom target htarget
  exact ⟨r, hread, hsettled r (plan.mem_scan.mp hr)⟩

end Repair

/-! ## The actions of a start -/

section Open

variable (plan : QueryPlan) (foreignKeys : Bool) (storeJson : Option (List StoredChat))

/-- The table or the index exists. -/
def Creation.Present : Creation → HistoryDb → Prop
  | .table name _, db => (db.tables name).isSome
  | .index name _, db => (db.indexes name).isSome

def creationStage (c : Creation) : Stage HistoryDb String where
  act := c.run
  done := c.Present
  skip db h := by
    cases c with
    | table name t => exact if_pos h
    | index name i => exact if_pos h
  ends db db' h := by
    cases c with
    | table name t =>
      simp only [Creation.run, SqlDatabase.createTableIfAbsent] at h
      split at h
      · rename_i hsome
        cases h
        exact hsome
      · cases h
        simp [Creation.Present]
    | index name i =>
      simp only [Creation.run, SqlDatabase.createIndexIfAbsent] at h
      split at h
      · rename_i hsome
        cases h
        exact hsome
      · rw [SqlDatabase.createIndex_ok h]
        simp [Creation.Present]

def requeueStage : Stage HistoryDb String where
  act := requeueInterrupted
  done := Requeued
  skip db := by
    rintro ⟨t, ht, hcolumns, hrows⟩
    refine SqlDatabase.alter_ok.mpr ⟨t, t, ht, bind_eq_ok.mpr ⟨(), hcolumns, ?_⟩,
      SqlDatabase.setTable_self ht⟩
    have hsame : t.rows.map (fun r => if (r "status").eq (.integer 1) then
        (r.set "status" (.integer 0)).set "error" .null else r) = t.rows := by
      refine (List.map_congr_left fun r hr => ?_).trans (List.map_id' _)
      rw [hrows r hr]
      rfl
    rw [if_pos, hsame]
    · rfl
    · rw [List.all_eq_true]
      intro r hr
      simp [hrows r hr]
  ends db db' h := by
    obtain ⟨t, t', ht, ht', rfl⟩ := SqlDatabase.alter_ok.mp h
    obtain ⟨hcolumns, rfl⟩ := SqlTable.update_ok ht'
    refine ⟨_, SqlDatabase.setTable_tables_self, hcolumns, fun r hr => ?_⟩
    obtain ⟨r₀, -, rfl⟩ := List.mem_map.mp hr
    cases hstatus : (r₀ "status").eq (.integer 1) with
    | false => exact hstatus
    | true =>
      rw [if_pos rfl, SqlRow.set_of_ne _ _ (by decide), SqlRow.set_self]
      rfl

def migrationStage (step : ℤ × (HistoryDb → Except String HistoryDb)) :
    Stage HistoryDb String where
  act := runMigration step.1 step.2
  done db := step.1 ≤ db.userVersion
  skip _ h := if_pos h
  ends db db' h := by
    unfold runMigration at h
    split at h
    · rename_i hversion
      cases h
      exact hversion
    · obtain ⟨db₁, -, h⟩ := bind_eq_ok.mp h
      obtain rfl := pure_eq_ok.mp h
      exact le_rfl

def repairStage : Stage HistoryDb String where
  act := reconcileAllPollTallies plan
  done db := reconcileAllPollTallies plan db = .ok db
  skip _ h := h
  ends _ _ h := reconcileAllPollTallies_again h

/-- The stages before the repair. -/
def upgradeStages : List (Stage HistoryDb String) :=
  bootstrap.map creationStage ++ [requeueStage] ++
    (migrations plan foreignKeys storeJson).map migrationStage

def openStages : List (Stage HistoryDb String) :=
  upgradeStages plan foreignKeys storeJson ++ [repairStage plan]

theorem openStages_act :
    (openStages plan foreignKeys storeJson).map Stage.act
      = openActions plan foreignKeys storeJson := by
  simp only [openStages, upgradeStages, openActions, ladder, List.map_append, List.map_map,
    List.map_cons, List.map_nil]
  rfl

variable {plan foreignKeys storeJson} {db db' : HistoryDb}

/-- A name of the schema names indexes on one table only. -/
theorem index_table_unique {name : String} {i j : SqlIndex}
    (hi : Creation.index name i ∈ bootstrap) (hj : Creation.index name j ∈ bootstrap) :
    i.table = j.table := by
  have hall : ∀ p ∈ bootstrap.filterMap (fun
      | .index name i => some (name, i.table)
      | .table _ _ => none), ∀ q ∈ bootstrap.filterMap (fun
      | .index name i => some (name, i.table)
      | .table _ _ => none), p.1 = q.1 → p.2 = q.2 := by decide
  exact hall (name, i.table) (List.mem_filterMap.mpr ⟨_, hi, rfl⟩) (name, j.table)
    (List.mem_filterMap.mpr ⟨_, hj, rfl⟩) rfl

theorem advances_creation {c : Creation} (hc : c ∈ bootstrap) (h : c.run db = .ok db') :
    Advances db db' := by
  cases c with
  | table name t =>
    simp only [Creation.run, SqlDatabase.createTableIfAbsent] at h
    split at h
    · cases h
      exact Advances.refl db
    · rename_i habsent
      cases h
      refine ⟨fun _ h => SqlDatabase.isSome_setTable h, fun h => h, fun _ _ _ _ h => h, le_rfl, ?_⟩
      rintro ⟨outbox, houtbox, h⟩
      refine ⟨outbox, ?_, h⟩
      rwa [SqlDatabase.setTable_tables_of_ne]
      rintro rfl
      exact habsent (by rw [houtbox]; rfl)
  | index name i =>
    simp only [Creation.run, SqlDatabase.createIndexIfAbsent] at h
    split at h
    · cases h
      exact Advances.refl db
    · rw [SqlDatabase.createIndex_ok h]
      refine ⟨fun _ h => h, fun hplaced other j index hj hindex => ?_,
        fun _ other j _ hsome => ?_, le_rfl, fun h => h⟩
      · change Function.update db.indexes name (some i) other = some index at hindex
        rw [Function.update_apply] at hindex
        split at hindex
        · rename_i hother
          rw [hother] at hj
          rw [← Option.some.inj hindex]
          exact index_table_unique hc hj
        · exact hplaced other j index hj hindex
      · change (Function.update db.indexes name (some i) other).isSome
        rw [Function.update_apply]
        split
        · rfl
        · exact hsome

theorem advances_openStages {a : Stage HistoryDb String}
    (ha : a ∈ openStages plan foreignKeys storeJson) (h : a.act db = .ok db') :
    Advances db db' := by
  rcases List.mem_append.mp ha with ha | ha
  · rcases List.mem_append.mp ha with ha | ha
    · rcases List.mem_append.mp ha with ha | ha
      · obtain ⟨c, hc, rfl⟩ := List.mem_map.mp ha
        exact advances_creation hc h
      · obtain rfl := List.mem_singleton.mp ha
        have hdone := requeueStage.ends db db' h
        obtain ⟨t, t', -, -, rfl⟩ := SqlDatabase.alter_ok.mp h
        exact ⟨fun _ h => SqlDatabase.isSome_setTable h, fun h => h, fun _ _ _ _ h => h, le_rfl,
          fun _ => hdone⟩
    · obtain ⟨step, hstep, rfl⟩ := List.mem_map.mp ha
      exact advances_runMigration (fun _ => advances_migrations hstep) h
  · obtain rfl := List.mem_singleton.mp ha
    exact advances_reconcileAllPollTallies h

/-- What was done before the repair stays done. -/
theorem done_of_advances {a : Stage HistoryDb String}
    (ha : a ∈ upgradeStages plan foreignKeys storeJson) (h : Advances db db') (hdb : Placed db)
    (hdone : a.done db) : a.done db' := by
  rcases List.mem_append.mp ha with ha | ha
  · rcases List.mem_append.mp ha with ha | ha
    · obtain ⟨c, hc, rfl⟩ := List.mem_map.mp ha
      cases c with
      | table name t => exact h.tables name hdone
      | index name i => exact h.indexes hdb name i hc hdone
    · obtain rfl := List.mem_singleton.mp ha
      exact h.requeued hdone
  · obtain ⟨step, -, rfl⟩ := List.mem_map.mp ha
    exact le_trans hdone h.version

theorem resumable_openStages : Resumable Placed (openStages plan foreignKeys storeJson) where
  keeps a ha db db' hdb h := (advances_openStages ha h).placed hdb
  kept := by
    have hkept : ∀ a ∈ upgradeStages plan foreignKeys storeJson,
        ∀ b ∈ openStages plan foreignKeys storeJson, ∀ db db', Placed db → a.done db →
          b.act db = .ok db' → a.done db' := fun a ha b hb db db' hdb hdone hact =>
      done_of_advances ha (advances_openStages hb hact) hdb hdone
    refine List.pairwise_append.mpr ⟨?_, List.pairwise_singleton _ _, fun a ha b hb => ?_⟩
    · exact List.pairwise_of_forall_mem_list fun a ha b hb =>
        hkept a ha b (List.mem_append_left _ hb)
    · exact hkept a ha b (List.mem_append_right _ hb)

/-- The versions of the ladder. -/
theorem migrations_targets :
    (migrations plan foreignKeys storeJson).map Prod.fst = [1, 2, 3, 4, 5, 6, 7, 8, 9] := rfl

/-- A database on the last version has nothing to climb. -/
theorem migrate_eq_performAll (db : HistoryDb) :
    migrate plan foreignKeys storeJson db = performAll (ladder plan foreignKeys storeJson) db := by
  unfold migrate
  split
  · rename_i hversion
    have hladder : ladder plan foreignKeys storeJson
        = ((migrations plan foreignKeys storeJson).map migrationStage).map Stage.act := by
      rw [List.map_map]
      rfl
    rw [hladder, performAll_of_done]
    intro a ha
    obtain ⟨step, hstep, rfl⟩ := List.mem_map.mp ha
    have htarget : step.1 ∈ [(1 : ℤ), 2, 3, 4, 5, 6, 7, 8, 9] :=
      migrations_targets ▸ List.mem_map_of_mem hstep
    have hlast : ∀ target ∈ [(1 : ℤ), 2, 3, 4, 5, 6, 7, 8, 9], target ≤ schemaVersion := by decide
    exact (hlast step.1 htarget).trans hversion
  · rfl

theorem openDatabase_eq_performAll (db : HistoryDb) :
    openDatabase plan foreignKeys storeJson db
      = performAll ((openStages plan foreignKeys storeJson).map Stage.act) db := by
  rw [openStages_act, openActions, performAll_append, performAll_append, openDatabase]
  rcases performAll (bootstrap.map Creation.run ++ [requeueInterrupted]) db with ⟨db₁, _ | e⟩
  · simp only [migrate_eq_performAll]
    rcases performAll (ladder plan foreignKeys storeJson) db₁ with ⟨db₂, _ | e⟩
    · rfl
    · rfl
  · rfl

end Open

/-! ## The result -/

/-- A database that builds of the program have made: no index under a name of the schema is on
another table. Its tables may lack columns, have an earlier key or be missing. -/
structure HistoryFile where
  db : HistoryDb
  placed : Placed db

/-- Whatever interrupts a start, once or several times, the next one ends with the database and
the result that it would have had; and a start after a start changes nothing. -/
theorem openDatabase_resumes (plan : QueryPlan) (foreignKeys : Bool)
    (storeJson : Option (List StoredChat)) (file : HistoryFile) (crashes : List ℕ) :
    openDatabase plan foreignKeys storeJson
        (crashes.foldl
          (fun db n => interrupt (openActions plan foreignKeys storeJson) n db) file.db)
      = openDatabase plan foreignKeys storeJson file.db ∧
    openDatabase plan foreignKeys storeJson
        (openDatabase plan foreignKeys storeJson file.db).1
      = openDatabase plan foreignKeys storeJson file.db := by
  simp only [openDatabase_eq_performAll, ← openStages_act]
  exact ⟨performAll_interrupts resumable_openStages file.placed crashes,
    performAll_again resumable_openStages file.placed⟩

/-- A start that succeeds ends on the last version of the schema. -/
theorem schemaVersion_of_open {plan : QueryPlan} {foreignKeys : Bool}
    {storeJson : Option (List StoredChat)} (file : HistoryFile) {db' : HistoryDb}
    (h : openDatabase plan foreignKeys storeJson file.db = (db', none)) :
    schemaVersion ≤ db'.userVersion := by
  rw [openDatabase_eq_performAll] at h
  have hdone := done_of_performed resumable_openStages file.placed h
  have hlast : schemaVersion ∈ (migrations plan foreignKeys storeJson).map Prod.fst := by
    rw [migrations_targets]
    decide
  obtain ⟨step, hstep, htarget⟩ := List.mem_map.mp hlast
  rw [← htarget]
  exact hdone (migrationStage step)
    (List.mem_append_left _ (List.mem_append_right _ (List.mem_map_of_mem hstep)))

end SchemaLadder

end OmarchyWhatsapp
