import Mathlib.Data.Finset.Card
import Mathlib.Data.Finset.Dedup
import OmarchyWhatsapp.Database.SettingsTheorems

/-!
# What an insertion does to the chat row and the counter

The chat row of an accepted message, the number of unread messages before and after, and
the retention pruning that follows: it changes nothing in a chat below the limit.
-/

namespace OmarchyWhatsapp

open Relational

variable (plan : QueryPlan)

/-! ## Retention below the limit -/

section Retention

variable {s : Store} {jid : String}

theorem overflow_eq_nil {rows : List MessageRow} (h : rows.length ≤ retention) :
    overflow plan rows = [] := by
  rw [overflow, List.drop_eq_nil_iff]
  exact (plan.length_orderBy _ rows).trans_le h

/-- Rows in the overflow are rows of the chat. -/
theorem mem_of_mem_overflow {rows : List MessageRow} {m : MessageRow}
    (h : m ∈ overflow plan rows) : m ∈ rows :=
  plan.mem_orderBy.mp (List.mem_of_mem_drop h)

theorem keepNewest_of_length_le (h : (s.chatMessages jid).length ≤ retention) :
    keepNewest plan s jid = s := by
  have hrows : (keepNewest plan s jid).messages = s.messages := by
    refine Table.ext (List.filter_eq_self.mpr fun m _ => ?_)
    rw [overflow_eq_nil plan h]
    simp
  calc keepNewest plan s jid
      = { s with messages := (keepNewest plan s jid).messages } := rfl
    _ = s := by rw [hrows]

/-- At most `retention` of the rows are as new as `m`: no order of ties drops it. -/
def WithinRetention (rows : List MessageRow) (m : MessageRow) : Prop :=
  rows.countP (fun r => m.timestamp ≤ r.timestamp) ≤ retention

instance (rows : List MessageRow) (m : MessageRow) : Decidable (WithinRetention rows m) :=
  inferInstanceAs (Decidable (_ ≤ _))

theorem not_mem_overflow {rows : List MessageRow} {m : MessageRow} (h : WithinRetention rows m) :
    m ∉ overflow plan rows :=
  plan.not_mem_drop (fun a b => by simpa using le_total b.timestamp a.timestamp)
    (fun a b c hab hbc => by
      simp only [decide_eq_true_eq] at hab hbc ⊢
      exact hbc.trans hab) h

/-- Distinct rows have distinct keys. -/
theorem countP_rows_eq_card (t : Table MessageRow MessageRow.key) (p : MessageRow → Bool) :
    t.rows.countP p = ((t.rows.filter p).map MessageRow.key).toFinset.card := by
  have hnodup : ((t.rows.filter p).map MessageRow.key).Nodup :=
    (List.filter_sublist.map MessageRow.key).nodup t.nodup
  rw [List.toFinset_card_of_nodup hnodup, List.length_map, List.countP_eq_length_filter]

end Retention

/-! ## The chat row of an accepted message -/

section Chats

variable {s : Store} {insert : MessageInsert}

/-- The message is new to the store and counts as unread. -/
def countsUnread (s : Store) (insert : MessageInsert) : Bool :=
  (s.messages.find? insert.message.key).isNone && messageIsUnread s insert

theorem messageIsUnread_arrival (s : Store) (insert : MessageInsert) :
    messageIsUnread (touchChat (reviveChat s insert) insert) insert
      = messageIsUnread s insert := by
  have htouch : ∀ c id ts, coveredBySelfRead (touchChat (reviveChat s insert) insert) c id ts
      = coveredBySelfRead (reviveChat s insert) c id ts :=
    fun c id ts => coveredBySelfRead_congr rfl c id ts
  simp only [messageIsUnread, htouch, coveredBySelfRead_reviveChat]

/-- The chat row after an accepted message: created or previewed, and counted up. -/
theorem find?_chats_insertMessageInto (h : suppressed s insert.message = false)
    (jid : String) :
    (insertMessageInto s insert).1.chats.find? jid
      = if jid = insert.message.chatJid then
          let row := (s.chats.find? jid).elim (proposedChat insert)
            (fun c => mergePreview c (proposedChat insert))
          some { row with unread := row.unread + (countsUnread s insert).toNat }
        else s.chats.find? jid := by
  have hbase : (touchChat (reviveChat s insert) insert).chats.find? jid
      = if jid = insert.message.chatJid then
          some ((s.chats.find? jid).elim (proposedChat insert)
            (fun c => mergePreview c (proposedChat insert)))
        else s.chats.find? jid := by
    rw [find?_touchChat, (reviveChat_frame s insert).2.1]
  have hcount : (((touchChat (reviveChat s insert) insert).messages.find?
      insert.message.key).isNone &&
        messageIsUnread (touchChat (reviveChat s insert) insert) insert)
      = countsUnread s insert := by
    rw [messageIsUnread_arrival, countsUnread, (touchChat_frame _ insert).1,
      (reviveChat_frame s insert).1]
  rw [insertMessageInto, if_neg (by simp [h])]
  simp only [queueReadIntent_frame, storeMessage, hcount]
  cases hc : countsUnread s insert with
  | false =>
    simp only [Bool.false_eq_true, if_false, hbase, Bool.toNat_false, Nat.add_zero]
  | true =>
    simp only [if_true, Table.find?_updateWhere, hbase, Bool.toNat_true]
    by_cases hj : jid = insert.message.chatJid
    · simp only [if_pos hj, Option.map_some]
      congr 1
      have hkey : ((s.chats.find? jid).elim (proposedChat insert)
          (fun c => mergePreview c (proposedChat insert))).jid = insert.message.chatJid := by
        rcases hr : s.chats.find? jid with _ | c
        · rfl
        · exact (Table.key_of_find? hr).trans hj
      rw [if_pos (decide_eq_true hkey)]
    · simp only [if_neg hj]
      rcases hr : s.chats.find? jid with _ | c
      · rfl
      · have hne : ¬c.jid = insert.message.chatJid := Table.key_of_find? hr ▸ hj
        simp [hne]

/-! ## Counting unread messages -/

/-- Rows of other chats do not count. -/
theorem unreadMessageCount_eq (s : Store) (jid : String) :
    unreadMessageCount s jid = (s.chatMessages jid).countP MessageRow.unread := by
  rw [unreadMessageCount, Store.chatMessages, List.countP_filter]
  refine List.countP_congr fun m _ => ?_
  simp [and_comm]

theorem unreadMessageCount_congr {s s' : Store} (h : s'.messages = s.messages) (jid : String) :
    unreadMessageCount s' jid = unreadMessageCount s jid := by
  rw [unreadMessageCount, h, unreadMessageCount]

/-- The messages of a chat after an accepted message. -/
theorem chatMessages_insertMessageInto (h : suppressed s insert.message = false)
    (jid : String) :
    (insertMessageInto s insert).1.chatMessages jid
      = s.chatMessages jid ++
        (if jid = insert.message.chatJid ∧ s.messages.find? insert.message.key = none
          then [proposedMessage s insert] else []) := by
  rw [Store.chatMessages, insertMessageInto_messages h, Table.rows_insertOrIgnore]
  have hkey : (proposedMessage s insert).key = insert.message.key := rfl
  have hchat : (proposedMessage s insert).chatJid = insert.message.chatJid := rfl
  rw [hkey]
  by_cases hnew : s.messages.find? insert.message.key = none
  · rw [if_pos hnew, List.filter_append, Store.chatMessages]
    congr 1
    by_cases hj : jid = insert.message.chatJid
    · simp [hj, hnew, hchat]
    · simp [hj, hchat, Ne.symm hj]
  · rw [if_neg hnew, if_neg (fun hc => hnew hc.2), List.append_nil]
    rfl

theorem unread_proposedMessage (s : Store) (insert : MessageInsert) :
    (proposedMessage s insert).unread
      = (!insert.message.fromMe && messageIsUnread s insert) := by
  simp [proposedMessage, MessageRow.unread]

/-- The unread messages of a chat after an accepted message. -/
theorem unreadMessageCount_insertMessageInto (h : suppressed s insert.message = false)
    (jid : String) :
    unreadMessageCount (insertMessageInto s insert).1 jid
      = unreadMessageCount s jid +
        (if jid = insert.message.chatJid ∧ insert.message.fromMe = false
          then (countsUnread s insert).toNat else 0) := by
  rw [unreadMessageCount_eq, chatMessages_insertMessageInto h, List.countP_append,
    ← unreadMessageCount_eq]
  congr 1
  by_cases hj : jid = insert.message.chatJid
  · by_cases hnew : s.messages.find? insert.message.key = none
    · rw [if_pos ⟨hj, hnew⟩, List.countP_singleton, unread_proposedMessage]
      cases hf : insert.message.fromMe <;> cases hu : messageIsUnread s insert <;>
        simp [hj, countsUnread, hnew, hu]
    · have hsome : (s.messages.find? insert.message.key).isNone = false :=
        Bool.eq_false_iff.mpr fun hnone => hnew (Option.isNone_iff_eq_none.mp hnone)
      rw [if_neg (fun hc => hnew hc.2)]
      simp [countsUnread, hsome]
  · rw [if_neg (fun hc => hj hc.1), if_neg (fun hc => hj hc.1)]
    rfl

end Chats

end OmarchyWhatsapp
