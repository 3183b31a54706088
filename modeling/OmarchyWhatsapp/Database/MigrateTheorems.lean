import OmarchyWhatsapp.Database.Provenance

/-!
# What a migration does to the message rows

A migration renames two columns and merges the rows that then have one identity. Each of
its two passes is a merge along a renaming of keys (`MergedBy`), and so is their
composition: every merged row has the timestamp of one of its copies, no copy is lost, and
the merged row is read as soon as one copy is.
-/

namespace OmarchyWhatsapp

open Relational

variable (plan : QueryPlan)

/-! ## Renaming identities -/

/-- The identity that stands for `jid` after the migration. -/
def renamed (oldJid newJid jid : String) : String := if jid = oldJid then newJid else jid

theorem renamed_ne {oldJid newJid : String} (h : oldJid ≠ newJid) (jid : String) :
    renamed oldJid newJid jid ≠ oldJid := by
  unfold renamed
  split
  · exact h.symm
  · assumption

@[simp] theorem renamed_old (oldJid newJid : String) : renamed oldJid newJid oldJid = newJid :=
  if_pos rfl

theorem renamed_of_ne {oldJid newJid jid : String} (h : jid ≠ oldJid) :
    renamed oldJid newJid jid = jid := if_neg h

theorem renamed_eq {oldJid newJid jid jid' : String} :
    renamed oldJid newJid jid = jid' ↔
      (jid = oldJid ∧ newJid = jid') ∨ (jid ≠ oldJid ∧ jid = jid') := by
  unfold renamed
  split <;> simp [*]

def renameSender (oldJid newJid : String) (k : String × String × String) :
    String × String × String := (k.1, renamed oldJid newJid k.2.1, k.2.2)

def renameChat (oldJid newJid : String) (k : String × String × String) :
    String × String × String := (renamed oldJid newJid k.1, k.2.1, k.2.2)

/-! ## Merging along a renaming -/

/-- `rows'` are `rows` with the rows of one key after `rename` merged into one. -/
structure MergedBy (rename : String × String × String → String × String × String)
    (rows rows' : List MessageRow) : Prop where
  origin : ∀ m' ∈ rows', ∃ m ∈ rows, rename m.key = m'.key ∧ m.timestamp = m'.timestamp ∧
    (m.fromMe = true → m'.fromMe = true)
  total : ∀ m ∈ rows, ∃ m' ∈ rows', rename m.key = m'.key
  read : ∀ m' ∈ rows', ∀ m ∈ rows, rename m.key = m'.key → m.read = true → m'.read = true
  read_origin : ∀ m' ∈ rows', m'.read = true → ∃ m ∈ rows, rename m.key = m'.key ∧ m.read = true
  fromMe_origin : ∀ m' ∈ rows', m'.fromMe = true →
    ∃ m ∈ rows, rename m.key = m'.key ∧ m.fromMe = true

theorem MergedBy.comp {f g : String × String × String → String × String × String}
    {rows rows' rows'' : List MessageRow} (h : MergedBy f rows rows')
    (h' : MergedBy g rows' rows'') : MergedBy (g ∘ f) rows rows'' where
  origin m'' hm'' := by
    obtain ⟨m', hm', hk', ht', hf'⟩ := h'.origin m'' hm''
    obtain ⟨m, hm, hk, ht, hf⟩ := h.origin m' hm'
    exact ⟨m, hm, by rw [Function.comp, hk, hk'], ht.trans ht', hf' ∘ hf⟩
  total m hm := by
    obtain ⟨m', hm', hk⟩ := h.total m hm
    obtain ⟨m'', hm'', hk'⟩ := h'.total m' hm'
    exact ⟨m'', hm'', by rw [Function.comp, hk, hk']⟩
  read m'' hm'' m hm hk hr := by
    obtain ⟨m', hm', hk'⟩ := h.total m hm
    rw [Function.comp, hk'] at hk
    exact h'.read m'' hm'' m' hm' hk (h.read m' hm' m hm hk' hr)
  read_origin m'' hm'' hr := by
    obtain ⟨m', hm', hk', hr'⟩ := h'.read_origin m'' hm'' hr
    obtain ⟨m, hm, hk, hr⟩ := h.read_origin m' hm' hr'
    exact ⟨m, hm, by rw [Function.comp, hk, hk'], hr⟩
  fromMe_origin m'' hm'' hf := by
    obtain ⟨m', hm', hk', hf'⟩ := h'.fromMe_origin m'' hm'' hf
    obtain ⟨m, hm, hk, hf⟩ := h.fromMe_origin m' hm' hf'
    exact ⟨m, hm, by rw [Function.comp, hk, hk'], hf⟩

/-- Moving rows merges them along the renaming of their keys, when `merge` keeps the time
of one of the two rows and collects their flags. -/
theorem relocate_mergedBy {t : Table MessageRow MessageRow.key} {p : MessageRow → Bool}
    {f : MessageRow → MessageRow} {merge : MessageRow → MessageRow → MessageRow}
    {hm : ∀ old new, (merge old new).key = old.key}
    {rename : String × String × String → String × String × String}
    (hmem : ∀ x, x ∈ (t.relocate plan.scan p f merge hm).rows ↔
      (x ∈ t.rows ∧ p x = false ∧ ∀ a ∈ t.rows, p a = true → (f a).key ≠ x.key) ∨
      (∃ r ∈ t.rows, ∃ a ∈ t.rows, p r = false ∧ p a = true ∧ (f a).key = r.key ∧
        merge r (f a) = x) ∨
      (∃ a ∈ t.rows, p a = true ∧ (∀ r ∈ t.rows, r.key ≠ (f a).key) ∧ f a = x))
    (hinj : ∀ a b, p a = true → p b = true → (f a).key = (f b).key → a.key = b.key)
    (hclosed : ∀ a b, p a = true → b.key = (f a).key → p b = false)
    (hstay : ∀ m, p m = false → rename m.key = m.key)
    (hmove : ∀ m, p m = true → rename m.key = (f m).key)
    (hf : ∀ m, (f m).timestamp = m.timestamp ∧ (f m).fromMe = m.fromMe ∧ (f m).read = m.read)
    (htime : ∀ r a, ((merge r a).timestamp = r.timestamp ∧
        (r.fromMe = true → (merge r a).fromMe = true)) ∨
      ((merge r a).timestamp = a.timestamp ∧ (a.fromMe = true → (merge r a).fromMe = true)))
    (hread : ∀ r a, (merge r a).read = (r.read || a.read))
    (hown : ∀ r a, (merge r a).fromMe = true → r.fromMe = true ∨ a.fromMe = true) :
    MergedBy rename t.rows (t.relocate plan.scan p f merge hm).rows where
  origin m' hm' := by
    rcases (hmem m').mp hm' with
      ⟨hmem', hp, -⟩ | ⟨r, hr, a, ha, hpr, hpa, hk, rfl⟩ | ⟨a, ha, hpa, -, rfl⟩
    · exact ⟨m', hmem', hstay m' hp, rfl, fun h => h⟩
    · rcases htime r (f a) with ⟨ht, hown⟩ | ⟨ht, hown⟩
      · exact ⟨r, hr, by rw [hstay r hpr, hm], ht.symm, hown⟩
      · exact ⟨a, ha, by rw [hmove a hpa, hm, hk], by rw [ht, (hf a).1],
          fun h => hown (by rw [(hf a).2.1, h])⟩
    · exact ⟨a, ha, hmove a hpa, (hf a).1.symm, fun h => by rw [(hf a).2.1, h]⟩
  total m hmem' := by
    by_cases hp : p m = true
    · by_cases hfree : ∀ r ∈ t.rows, r.key ≠ (f m).key
      · exact ⟨f m, (hmem _).mpr (Or.inr (Or.inr ⟨m, hmem', hp, hfree, rfl⟩)), hmove m hp⟩
      · push Not at hfree
        obtain ⟨r, hr, hk⟩ := hfree
        refine ⟨merge r (f m), (hmem _).mpr (Or.inr (Or.inl
          ⟨r, hr, m, hmem', hclosed m r hp hk, hp, hk.symm, rfl⟩)), ?_⟩
        rw [hmove m hp, hm, hk]
    · rw [Bool.not_eq_true] at hp
      by_cases hlone : ∀ a ∈ t.rows, p a = true → (f a).key ≠ m.key
      · exact ⟨m, (hmem _).mpr (Or.inl ⟨hmem', hp, hlone⟩), hstay m hp⟩
      · push Not at hlone
        obtain ⟨a, ha, hpa, hk⟩ := hlone
        refine ⟨merge m (f a), (hmem _).mpr (Or.inr (Or.inl
          ⟨m, hmem', a, ha, hp, hpa, hk, rfl⟩)), ?_⟩
        rw [hstay m hp, hm]
  read m' hm' m hmem' hk hr := by
    rcases (hmem m').mp hm' with
      ⟨hx, hpx, hlone⟩ | ⟨r, hr', a, ha, hpr, hpa, hka, rfl⟩ | ⟨a, ha, hpa, hfree, rfl⟩
    · by_cases hp : p m = true
      · exact absurd (by rw [← hmove m hp, hk]) (hlone m hmem' hp)
      · rw [Bool.not_eq_true] at hp
        rwa [← t.key_inj hmem' hx (by rw [← hstay m hp, hk])]
    · rw [hm] at hk
      rw [hread, Bool.or_eq_true]
      by_cases hp : p m = true
      · rw [hmove m hp, ← hka] at hk
        rw [t.key_inj hmem' ha (hinj m a hp hpa hk)] at hr
        exact Or.inr (by rw [(hf a).2.2, hr])
      · rw [Bool.not_eq_true] at hp
        rw [hstay m hp] at hk
        rw [t.key_inj hmem' hr' hk] at hr
        exact Or.inl hr
    · by_cases hp : p m = true
      · rw [hmove m hp] at hk
        rw [(hf a).2.2, ← t.key_inj hmem' ha (hinj m a hp hpa hk), hr]
      · rw [Bool.not_eq_true] at hp
        exact absurd (by rw [← hstay m hp, hk]) (hfree m hmem')
  read_origin m' hm' hr := by
    rcases (hmem m').mp hm' with
      ⟨hx, hpx, -⟩ | ⟨r, hr', a, ha, hpr, hpa, hka, rfl⟩ | ⟨a, ha, hpa, -, rfl⟩
    · exact ⟨m', hx, hstay m' hpx, hr⟩
    · rw [hread, Bool.or_eq_true] at hr
      rcases hr with hr | hr
      · exact ⟨r, hr', by rw [hstay r hpr, hm], hr⟩
      · exact ⟨a, ha, by rw [hmove a hpa, hm, hka], by rw [← (hf a).2.2, hr]⟩
    · exact ⟨a, ha, hmove a hpa, by rw [← (hf a).2.2, hr]⟩
  fromMe_origin m' hm' hfm := by
    rcases (hmem m').mp hm' with
      ⟨hx, hpx, -⟩ | ⟨r, hr', a, ha, hpr, hpa, hka, rfl⟩ | ⟨a, ha, hpa, -, rfl⟩
    · exact ⟨m', hx, hstay m' hpx, hfm⟩
    · rcases hown r (f a) hfm with hfm | hfm
      · exact ⟨r, hr', by rw [hstay r hpr, hm], hfm⟩
      · exact ⟨a, ha, by rw [hmove a hpa, hm, hka], by rw [← (hf a).2.1, hfm]⟩
    · exact ⟨a, ha, hmove a hpa, by rw [← (hf a).2.1, hfm]⟩

section Passes

variable {s : Store} {oldJid newJid : String}

theorem withSender_key_inj (a b : MessageRow) (ha : decide (a.senderJid = oldJid) = true)
    (hb : decide (b.senderJid = oldJid) = true)
    (h : (a.withSender newJid).key = (b.withSender newJid).key) : a.key = b.key := by
  simp only [decide_eq_true_eq, MessageRow.key, Prod.mk.injEq] at ha hb h ⊢
  exact ⟨h.1, ha.trans hb.symm, h.2.2⟩

theorem withChat_key_inj (a b : MessageRow) (ha : decide (a.chatJid = oldJid) = true)
    (hb : decide (b.chatJid = oldJid) = true)
    (h : (a.withChat newJid).key = (b.withChat newJid).key) : a.key = b.key := by
  simp only [decide_eq_true_eq, MessageRow.key, Prod.mk.injEq] at ha hb h ⊢
  exact ⟨ha.trans hb.symm, h.2⟩

theorem mem_migrateSender (hne : oldJid ≠ newJid) (x : MessageRow) :
    x ∈ (migrateSender plan s oldJid newJid).messages.rows ↔
      (x ∈ s.messages.rows ∧ decide (x.senderJid = oldJid) = false ∧ ∀ a ∈ s.messages.rows,
        decide (a.senderJid = oldJid) = true → (a.withSender newJid).key ≠ x.key) ∨
      (∃ r ∈ s.messages.rows, ∃ a ∈ s.messages.rows, decide (r.senderJid = oldJid) = false ∧
        decide (a.senderJid = oldJid) = true ∧ (a.withSender newJid).key = r.key ∧
        mergeSenderCopies r (a.withSender newJid) = x) ∨
      (∃ a ∈ s.messages.rows, decide (a.senderJid = oldJid) = true ∧
        (∀ r ∈ s.messages.rows, r.key ≠ (a.withSender newJid).key) ∧
        a.withSender newJid = x) :=
  have hmerge : ∀ old new : MessageRow, decide ((mergeSenderCopies old new).senderJid = oldJid)
      = decide (old.senderJid = oldJid) := fun _ _ => rfl
  Table.mem_relocate (fun l => plan.scan_perm l) withSender_key_inj
    (fun _ _ => decide_eq_false hne.symm) hmerge

theorem mem_migrateMessages (hne : oldJid ≠ newJid) (x : MessageRow) :
    x ∈ (migrateMessages plan s oldJid newJid).messages.rows ↔
      (x ∈ s.messages.rows ∧ decide (x.chatJid = oldJid) = false ∧ ∀ a ∈ s.messages.rows,
        decide (a.chatJid = oldJid) = true → (a.withChat newJid).key ≠ x.key) ∨
      (∃ r ∈ s.messages.rows, ∃ a ∈ s.messages.rows, decide (r.chatJid = oldJid) = false ∧
        decide (a.chatJid = oldJid) = true ∧ (a.withChat newJid).key = r.key ∧
        mergeChatCopies r (a.withChat newJid) = x) ∨
      (∃ a ∈ s.messages.rows, decide (a.chatJid = oldJid) = true ∧
        (∀ r ∈ s.messages.rows, r.key ≠ (a.withChat newJid).key) ∧
        a.withChat newJid = x) :=
  have hmerge : ∀ old new : MessageRow, decide ((mergeChatCopies old new).chatJid = oldJid)
      = decide (old.chatJid = oldJid) := fun _ _ => rfl
  Table.mem_relocate (fun l => plan.scan_perm l) withChat_key_inj
    (fun _ _ => decide_eq_false hne.symm) hmerge

theorem migrateSender_mergedBy (hne : oldJid ≠ newJid) :
    MergedBy (renameSender oldJid newJid) s.messages.rows
      (migrateSender plan s oldJid newJid).messages.rows := by
  refine relocate_mergedBy plan (mem_migrateSender plan hne) withSender_key_inj
    ?_ ?_ ?_ (fun m => ⟨rfl, rfl, rfl⟩) ?_ (fun _ _ => rfl) ?_
  · intro a b _ hk
    simp only [MessageRow.key, Prod.mk.injEq] at hk
    exact decide_eq_false (hk.2.1 ▸ hne.symm)
  · intro m hp
    simp only [renameSender, MessageRow.key, renamed_of_ne (of_decide_eq_false hp)]
  · intro m hp
    simp only [renameSender, MessageRow.key, of_decide_eq_true hp, renamed_old]
    rfl
  · intro r a
    rcases le_total a.timestamp r.timestamp with hle | hle
    · exact Or.inl ⟨max_eq_left hle, fun h => by simp [mergeSenderCopies, h]⟩
    · exact Or.inr ⟨max_eq_right hle, fun h => by simp [mergeSenderCopies, h]⟩
  · intro r a h
    simpa [mergeSenderCopies] using h

theorem migrateMessages_mergedBy (hne : oldJid ≠ newJid) :
    MergedBy (renameChat oldJid newJid) s.messages.rows
      (migrateMessages plan s oldJid newJid).messages.rows := by
  refine relocate_mergedBy plan (mem_migrateMessages plan hne) withChat_key_inj
    ?_ ?_ ?_ (fun m => ⟨rfl, rfl, rfl⟩) (fun _ _ => Or.inl ⟨rfl, fun h => h⟩)
    (fun _ _ => rfl) (fun _ _ h => Or.inl h)
  · intro a b _ hk
    simp only [MessageRow.key, Prod.mk.injEq] at hk
    exact decide_eq_false (hk.1 ▸ hne.symm)
  · intro m hp
    simp only [renameChat, MessageRow.key, renamed_of_ne (of_decide_eq_false hp)]
  · intro m hp
    simp only [renameChat, MessageRow.key, of_decide_eq_true hp, renamed_old]
    rfl

/-- The identity of a message after the migration. -/
def renameIdentity (oldJid newJid : String) (k : String × String × String) :
    String × String × String := (renamed oldJid newJid k.1, renamed oldJid newJid k.2.1, k.2.2)

/-- The messages of both identities, before retention. -/
def mergedMessages (s : Store) (oldJid newJid : String) : Table MessageRow MessageRow.key :=
  (migrateMessages plan (migrateSender plan s oldJid newJid) oldJid newJid).messages

theorem mergedMessages_mergedBy (hne : oldJid ≠ newJid) :
    MergedBy (renameIdentity oldJid newJid) s.messages.rows
      (mergedMessages plan s oldJid newJid).rows :=
  (migrateSender_mergedBy plan hne).comp (migrateMessages_mergedBy plan hne)

end Passes

/-! ## The other tables -/

section Tables

variable {s : Store} {oldJid newJid : String}

/-- Moving the one row of a key: it is merged into the row of the new key. -/
theorem find?_insertSelect_single {ρ κ : Type} [DecidableEq κ] {key : ρ → κ}
    (t : Table ρ key) (k : κ) (f : ρ → ρ) (merge : ρ → ρ → ρ)
    (hm : ∀ old new, key (merge old new) = key old) {k' : κ} (hf : ∀ r, key (f r) = k')
    (x : κ) :
    (t.insertSelect ((plan.scan (t.rows.filter (fun r => key r = k))).map f) merge hm).find? x
      = if x = k' then
          ((t.find? k).elim (t.find? k') (fun r => some ((t.find? k').elim (f r)
            (fun old => merge old (f r)))))
        else t.find? x := by
  rw [Table.filter_key]
  rcases t.find? k with _ | r
  · simp only [Option.toList_none, plan.scan_nil, List.map_nil, Table.insertSelect,
      List.foldl_nil, Option.elim_none]
    split
    · rename_i h
      rw [h]
    · rfl
  · simp only [Option.toList_some, plan.scan_singleton, List.map_cons, List.map_nil,
      Table.insertSelect, List.foldl_cons, List.foldl_nil, Option.elim_some]
    rw [Table.find?_upsert, hf]
    split
    · rename_i h
      rw [h]
    · rfl

/-- The chat row of both identities. -/
def mergedChat (s : Store) (oldJid newJid : String) : Option ChatRow :=
  (s.chats.find? oldJid).elim (s.chats.find? newJid) (fun c =>
    some ((s.chats.find? newJid).elim { c with jid := newJid }
      (fun old => mergeChats old { c with jid := newJid })))

/-- The settings of both identities. -/
def mergedSettings (s : Store) (oldJid newJid : String) : Option ChatSettingsRow :=
  (s.chatSettings.find? oldJid).elim (s.chatSettings.find? newJid) (fun c =>
    some ((s.chatSettings.find? newJid).elim (migratedSettings newJid c)
      (fun old => mergeSettings old (migratedSettings newJid c))))

theorem find?_migrateChat (jid : String) :
    (migrateChat plan s oldJid newJid).chats.find? jid
      = if jid = newJid then mergedChat s oldJid newJid else s.chats.find? jid :=
  find?_insertSelect_single plan s.chats oldJid (fun c => { c with jid := newJid }) mergeChats
    (fun _ _ => rfl) (fun _ => rfl) jid

theorem find?_migrateSettings (jid : String) :
    (migrateSettings plan s oldJid newJid).chatSettings.find? jid
      = if jid = oldJid then none
        else if jid = newJid then mergedSettings s oldJid newJid
        else s.chatSettings.find? jid := by
  have h := find?_insertSelect_single plan s.chatSettings oldJid (migratedSettings newJid)
    mergeSettings (fun _ _ => rfl) (fun _ => rfl) jid
  refine (Table.find?_deleteWhere_key _ oldJid jid).trans ?_
  rw [h]
  rfl

/-- The contact of both identities. -/
def mergedContact (s : Store) (oldJid newJid : String) : Option ContactRow :=
  (s.contacts.find? oldJid).elim (s.contacts.find? newJid) (fun c =>
    some ((s.contacts.find? newJid).elim { c with jid := newJid }
      (fun old => mergeContact old { c with jid := newJid })))

theorem find?_migrateContact (jid : String) :
    (migrateContact plan s oldJid newJid).contacts.find? jid
      = if jid = newJid then mergedContact s oldJid newJid else s.contacts.find? jid :=
  find?_insertSelect_single plan s.contacts oldJid (fun c => { c with jid := newJid })
    mergeContact (fun _ _ => rfl) (fun _ => rfl) jid

theorem tombstoned_migrateTombstones (hne : oldJid ≠ newJid) {chatJid id : String}
    (h : tombstoned (migrateTombstones plan s oldJid newJid) chatJid id = true) :
    tombstoned s chatJid id = true ∨ (chatJid = newJid ∧ tombstoned s oldJid id = true) := by
  unfold tombstoned at h ⊢
  obtain ⟨t, ht⟩ := Option.isSome_iff_exists.mp h
  obtain ⟨hmem, hk⟩ := Table.find?_eq_some.mp ht
  have hinj : ∀ a b : MessageTombstoneRow, decide (a.chatJid = oldJid) = true →
      decide (b.chatJid = oldJid) = true →
      MessageTombstoneRow.key { a with chatJid := newJid }
        = MessageTombstoneRow.key { b with chatJid := newJid } → a.key = b.key := by
    intro a b ha hb hab
    simp only [decide_eq_true_eq, MessageTombstoneRow.key, Prod.mk.injEq] at ha hb hab ⊢
    exact ⟨ha.trans hb.symm, hab.2⟩
  have hkeep : ∀ old new : MessageTombstoneRow,
      decide ((keepStored old new).chatJid = oldJid) = decide (old.chatJid = oldJid) :=
    fun _ _ => rfl
  rcases (Table.mem_relocate (fun l => plan.scan_perm l) hinj
    (fun _ _ => decide_eq_false hne.symm) hkeep).mp hmem with
    ⟨hmem, -⟩ | ⟨r, hr, _, _, _, _, _, rfl⟩ | ⟨a, ha, hpa, -, rfl⟩
  · exact Or.inl (Option.isSome_iff_exists.mpr ⟨t, Table.find?_eq_some.mpr ⟨hmem, hk⟩⟩)
  · exact Or.inl (Option.isSome_iff_exists.mpr ⟨r, Table.find?_eq_some.mpr ⟨hr, hk⟩⟩)
  · simp only [MessageTombstoneRow.key, Prod.mk.injEq] at hk
    refine Or.inr ⟨hk.1.symm, Option.isSome_iff_exists.mpr ⟨a, Table.find?_eq_some.mpr ⟨ha, ?_⟩⟩⟩
    rw [MessageTombstoneRow.key, of_decide_eq_true hpa, hk.2]

end Tables

/-! ## The whole migration -/

section Migration

variable {s : Store} {oldJid newJid : String}

/-- The migration has something to do. -/
def Migrates (s : Store) (oldJid newJid : String) : Prop :=
  oldJid ≠ newJid ∧ migrationSourceExists s oldJid = true

instance : Decidable (Migrates s oldJid newJid) := inferInstanceAs (Decidable (_ ∧ _))

theorem migrateContactJid_of_not_migrates (h : ¬Migrates s oldJid newJid) :
    migrateContactJid plan s oldJid newJid = (s, false) := by
  unfold migrateContactJid
  split
  · rfl
  · rename_i hne
    rw [if_pos]
    simpa using fun hex => h ⟨hne, hex⟩

@[simp] theorem applyMigratedName_frame (s : Store) (jid : String) :
    (applyMigratedName s jid).contacts = s.contacts ∧
    (applyMigratedName s jid).chatSettings = s.chatSettings ∧
    (applyMigratedName s jid).messageTombstones = s.messageTombstones ∧
    (applyMigratedName s jid).pendingReadMessages = s.pendingReadMessages := by
  unfold applyMigratedName
  split <;> exact ⟨rfl, rfl, rfl, rfl⟩

/-- The store before the names are applied. -/
def migratedStore (s : Store) (oldJid newJid : String) : Store :=
  migrateSettings plan
    (migrateTombstones plan
      (migrateAttachments plan (migrateConversation plan s oldJid newJid) oldJid newJid)
      oldJid newJid)
    oldJid newJid

theorem migrateContactJid_of_migrates (h : Migrates s oldJid newJid) :
    (migrateContactJid plan s oldJid newJid).1
      = dropAlias (applyMigratedName (migratedStore plan s oldJid newJid) newJid) oldJid := by
  rw [migrateContactJid, if_neg h.1, if_neg (by simp [h.2])]
  rfl

theorem applyMigratedName_messagesFrom (s : Store) (jid : String) :
    MessagesFrom s (applyMigratedName s jid) := by
  unfold applyMigratedName
  split
  · exact .of_eq rfl
  · exact .of_updateWhere rfl (fun _ => ⟨rfl, rfl, rfl, fun h => h⟩)

/-- The merged messages, pruned to the retention limit. -/
def migratedMessages (s : Store) (oldJid newJid : String) : Store :=
  keepNewest plan { s with messages := mergedMessages plan s oldJid newJid } newJid

/-- Every message row after a migration is an updated row of the merged messages that the
retention keeps. -/
theorem migrateContactJid_messagesFrom (h : Migrates s oldJid newJid) :
    MessagesFrom (migratedMessages plan s oldJid newJid)
      (migrateContactJid plan s oldJid newJid).1 := by
  rw [migrateContactJid_of_migrates plan h]
  have hkept : MessagesFrom (migratedMessages plan s oldJid newJid)
      (migratedStore plan s oldJid newJid) := .of_eq rfl
  exact hkept.trans ((applyMigratedName_messagesFrom _ newJid).trans (.of_eq rfl))

/-- Every message row after a migration has the identity and the time of a row before it. -/
theorem migrateContactJid_origin (h : Migrates s oldJid newJid) {m' : MessageRow}
    (hm' : m' ∈ (migrateContactJid plan s oldJid newJid).1.messages.rows) :
    ∃ m ∈ s.messages.rows, renameIdentity oldJid newJid m.key = m'.key ∧
      m.timestamp = m'.timestamp ∧ (m.fromMe = true → m'.fromMe = true) := by
  obtain ⟨m₁, hm₁, he⟩ := migrateContactJid_messagesFrom plan h m' hm'
  obtain ⟨m, hm, hk, ht, hf⟩ := (mergedMessages_mergedBy plan h.1).origin m₁
    (Table.mem_deleteWhere.mp hm₁).1
  exact ⟨m, hm, hk.trans he.key.symm, ht.trans he.timestamp.symm, fun hm => by
    rw [he.fromMe, hf hm]⟩

theorem migrateContactJid_settings (h : Migrates s oldJid newJid) (jid : String) :
    (migrateContactJid plan s oldJid newJid).1.chatSettings.find? jid
      = if jid = oldJid then none
        else if jid = newJid then mergedSettings s oldJid newJid
        else s.chatSettings.find? jid := by
  rw [migrateContactJid_of_migrates plan h]
  have : (dropAlias (applyMigratedName (migratedStore plan s oldJid newJid) newJid)
      oldJid).chatSettings = (migrateSettings plan s oldJid newJid).chatSettings := by
    simp only [dropAlias, applyMigratedName_frame]
    rfl
  rw [this, find?_migrateSettings]

/-- The merged chat is deleted as soon as one of the two was. -/
theorem chatDeleted_migrateContactJid (h : Migrates s oldJid newJid) (jid : String) :
    chatDeleted (migrateContactJid plan s oldJid newJid).1 jid
      = if jid = oldJid then false
        else if jid = newJid then chatDeleted s oldJid || chatDeleted s newJid
        else chatDeleted s jid := by
  unfold chatDeleted
  rw [migrateContactJid_settings plan h]
  split
  · rfl
  · split
    · cases ho : s.chatSettings.find? oldJid <;> cases hn : s.chatSettings.find? newJid <;>
        simp [mergedSettings, ho, hn, migratedSettings, mergeSettings, Bool.or_comm]
    · rfl

/-- The merged chat is cleared as far as one of the two was. -/
theorem stateSuppressed_migrateContactJid (h : Migrates s oldJid newJid) (jid : String)
    (timestamp : ℤ) :
    stateSuppressed (migrateContactJid plan s oldJid newJid).1 jid timestamp
      = if jid = oldJid then false
        else if jid = newJid then
          stateSuppressed s oldJid timestamp || stateSuppressed s newJid timestamp
        else stateSuppressed s jid timestamp := by
  unfold stateSuppressed
  rw [migrateContactJid_settings plan h]
  split
  · rfl
  · split
    · cases ho : s.chatSettings.find? oldJid <;> cases hn : s.chatSettings.find? newJid <;>
        simp [mergedSettings, ho, hn, migratedSettings, mergeSettings, Bool.or_comm]
    · rfl

theorem tombstoned_migrateContactJid (h : Migrates s oldJid newJid) {chatJid id : String}
    (ht : tombstoned (migrateContactJid plan s oldJid newJid).1 chatJid id = true) :
    tombstoned s chatJid id = true ∨ (chatJid = newJid ∧ tombstoned s oldJid id = true) := by
  refine tombstoned_migrateTombstones plan h.1 ?_
  rw [migrateContactJid_of_migrates plan h] at ht
  have : (dropAlias (applyMigratedName (migratedStore plan s oldJid newJid) newJid)
      oldJid).messageTombstones
        = (migrateTombstones plan s oldJid newJid).messageTombstones := by
    simp only [dropAlias, applyMigratedName_frame]
    rfl
  unfold tombstoned at ht ⊢
  rwa [this] at ht

end Migration

end OmarchyWhatsapp
