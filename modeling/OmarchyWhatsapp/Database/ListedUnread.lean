import OmarchyWhatsapp.Database.WellFormed

/-!
# The badge and the chat list

`unread_total` adds up the badges of all chats that are not archived, `list_chats` shows the
badges of all chats but the server's own account. The account has no place in the list, and its
messages count nevertheless.
-/

namespace OmarchyWhatsapp

open Relational

/-- The chats of the list fit into `limit` lines. -/
def FitsList (s : Store) (limit : ℕ) : Prop :=
  (s.chats.rows.filter (fun c => c.jid ≠ serverJid)).length ≤ max 1 (min limit 500)

instance (s : Store) (limit : ℕ) : Decidable (FitsList s limit) :=
  inferInstanceAs (Decidable (_ ≤ _))

/-- The server's own account is not stored as a chat, is archived, or has nothing unread. -/
def ServerRead (s : Store) : Prop :=
  ∀ c ∈ s.chats.rows, c.jid = serverJid → isArchived s c.jid = true ∨
    (c.unread = 0 ∧ (settingsOf s c.jid).explicitUnread = false)

instance (s : Store) : Decidable (ServerRead s) := inferInstanceAs (Decidable (∀ c ∈ _, _))

/-- What the lines of the chat list add up to. -/
def listedUnread (plan : QueryPlan) (s : Store) (now : ℤ) (limit : ℕ) : ℕ :=
  ((listChats plan s now limit).map (·.unread)).sum

/-- What the server's own account adds to the total. -/
def serverUnread (s : Store) : ℕ :=
  ((s.chats.rows.filter (fun c => c.jid = serverJid)).map (unreadBadge s)).sum

section Total

variable (plan : QueryPlan) {s : Store}

theorem unreadBadge_eq_zero_iff (c : ChatRow) :
    unreadBadge s c = 0 ↔ isArchived s c.jid = true ∨
      (c.unread = 0 ∧ (settingsOf s c.jid).explicitUnread = false) := by
  unfold unreadBadge
  split
  · rename_i harchived
    simp [harchived]
  · rename_i harchived
    simp [harchived, Nat.max_eq_zero_iff]

theorem serverUnread_eq_zero_iff : serverUnread s = 0 ↔ ServerRead s := by
  simp only [serverUnread, List.sum_eq_zero_iff_forall_eq_nat, List.forall_mem_map, List.mem_filter,
    decide_eq_true_eq, and_imp, unreadBadge_eq_zero_iff]
  rfl

/-- A list that fits shows all badges but that of the server's own account. -/
theorem listedUnread_eq {now : ℤ} {limit : ℕ} (hfits : FitsList s limit) :
    listedUnread plan s now limit
      = ((s.chats.rows.filter (fun c => c.jid ≠ serverJid)).map (unreadBadge s)).sum := by
  have hperm := plan.perm (listedBefore s) (s.chats.rows.filter (fun c => c.jid ≠ serverJid))
  rw [listedUnread, listChats, List.take_of_length_le (hperm.length_eq.le.trans hfits),
    List.map_map]
  exact (hperm.map _).sum_nat

theorem unreadTotal_eq {now : ℤ} {limit : ℕ} (hfits : FitsList s limit) :
    unreadTotal s = serverUnread s + listedUnread plan s now limit := by
  have hsplit := List.filter_append_perm (fun c : ChatRow => decide (c.jid = serverJid))
    s.chats.rows
  rw [unreadTotal, ← (hsplit.map (unreadBadge s)).sum_nat, List.map_append, List.sum_append,
    listedUnread_eq plan hfits, serverUnread]
  simp only [decide_not]

end Total

/-! ## Runs -/

section Runs

variable (plan : QueryPlan)

/-- The chat an operation may store. -/
def Op.addresses : Op → String → Prop
  | .insertMessage message .., jid => message.chatJid = jid
  | .insertMessageWithReadIntent message .., jid => message.chatJid = jid
  | .insertHistoryConversation conversation, jid => conversation.chat.jid = jid
  | .migrateContactJid _ newJid, jid => newJid = jid
  | _, _ => False

theorem hasChat_apply {s : Store} {op : Op} {jid : String} (h : (s.apply plan op).hasChat jid) :
    s.hasChat jid ∨ op.addresses jid := by
  by_cases hkeeps : op.keepsChats = true
  · exact Or.inl ((apply_sameChats plan s hkeeps jid).mp h)
  · cases op with
    | insertMessage =>
      rcases hasChat_insertMessageInto.mp h with h | ⟨h, -⟩
      · exact Or.inl h
      · exact Or.inr h.symm
    | insertMessageWithReadIntent =>
      rcases hasChat_insertMessageInto.mp h with h | ⟨h, -⟩
      · exact Or.inl h
      · exact Or.inr h.symm
    | insertHistoryConversation conversation =>
      rcases (hasChat_insertHistoryConversation plan conversation).mp h with h | ⟨h, -⟩
      · exact Or.inl h
      · exact Or.inr h.symm
    | deleteChat => exact Or.inl (hasChat_deleteChat.mp h).1
    | migrateContactJid oldJid newJid =>
      by_cases hmig : Migrates s oldJid newJid
      · rcases ((hasChat_migrateContactJid plan hmig).mp h).2 with h | ⟨h, -⟩
        · exact Or.inl h
        · exact Or.inr h.symm
      · refine Or.inl ?_
        rwa [Store.apply, migrateContactJid_of_not_migrates plan hmig] at h
    | _ => exact absurd rfl hkeeps

/-- Where no operation stores the server's own account, nothing of it is unread. -/
theorem serverRead_of_unaddressed {ops : List Op} (h : ∀ op ∈ ops, ¬op.addresses serverJid) :
    ∀ s ∈ states (Store.apply plan) Store.empty ops, ServerRead s := by
  intro s hs c hc hjid
  have hstep (s : Store) (op : Op) (hnone : ¬s.hasChat serverJid) (hop : ¬op.addresses serverJid) :
      ¬(s.apply plan op).hasChat serverJid :=
    fun hchat => (hasChat_apply plan hchat).elim hnone hop
  have hempty : ¬Store.empty.hasChat serverJid := by decide
  have hguarded : Guarded (Store.apply plan) (fun _ op => ¬op.addresses serverJid) Store.empty
      ops := guarded_of_forall h
  exact absurd ⟨c, hc, hjid⟩ (invariant_states hstep hempty hguarded s hs)

end Runs

/-- A message of the server's own account. -/
def serverMessage : Op :=
  .insertMessage (directMessage serverJid "M1" "internal" 10) serverJid false true

def adaMessage : Op :=
  .insertMessage (directMessage "1@s.whatsapp.net" "M1" "hello" 10) "Ada" false true

end OmarchyWhatsapp
