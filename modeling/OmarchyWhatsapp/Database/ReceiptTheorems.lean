import OmarchyWhatsapp.Database.Events
import OmarchyWhatsapp.Relational.Join

/-!
# Receipts join

A receipt event names one message, a level, a reader and a time; a batch of
`update_receipts` is the list of its events. Everything receipts write, the columns of
`messages` and the rows of `message_reads`, is a view of the store on which the events
join: order, grouping and repetition are irrelevant. The columns are the maximum of the
levels and the least positive times.
-/

namespace OmarchyWhatsapp

open Relational

/-! ## Events and batches -/

/-- One call of `update_receipts`. -/
structure ReceiptBatch where
  chatJid : String
  messageIds : List String
  receipt : ℕ
  recipientJid : Option String
  receiptAt : ℤ
  /-- The time of a receipt is not negative; 0 stands for an unknown one. -/
  nonneg : 0 ≤ receiptAt
deriving DecidableEq, Repr

/-- One receipt for one message. -/
structure ReceiptEvent where
  chatJid : String
  id : String
  receipt : ℕ
  recipientJid : Option String
  receiptAt : ℤ
  nonneg : 0 ≤ receiptAt
deriving DecidableEq, Repr

namespace ReceiptBatch

def events (b : ReceiptBatch) : List ReceiptEvent :=
  b.messageIds.map (fun id => ⟨b.chatJid, id, b.receipt, b.recipientJid, b.receiptAt, b.nonneg⟩)

def deliver (s : Store) (b : ReceiptBatch) : Store × Bool :=
  updateReceipts s b.chatJid b.messageIds b.receipt b.recipientJid b.receiptAt

end ReceiptBatch

namespace ReceiptEvent

def deliver (s : Store) (e : ReceiptEvent) : Store × Bool :=
  updateReceipt s e.chatJid e.id e.receipt e.recipientJid e.receiptAt

/-- The reader of the receipt: the empty text is none. -/
def reader (e : ReceiptEvent) : Option String := e.recipientJid.filter (fun jid => jid ≠ "")

/-- The row of `message_reads` the receipt proposes. -/
def readerRow (e : ReceiptEvent) : Option MessageReadRow :=
  e.reader.bind (fun jid => readerReceipt e.chatJid e.id jid e.receipt e.receiptAt)

/-- The receipt is for this message. -/
def addresses (e : ReceiptEvent) (m : MessageRow) : Bool :=
  m.id = e.id && m.chatJid = e.chatJid && m.fromMe

end ReceiptEvent

/-! ## The columns of an outgoing message -/

section Columns

variable {m : MessageRow} {e : ReceiptEvent}

/-- A time column meets a time. -/
def mergeTime (old : Option ℤ) (t : ℤ) : Option ℤ := if earlierTime old t then some t else old

theorem mergeTime_comm (old : Option ℤ) (t u : ℤ) :
    mergeTime (mergeTime old t) u = mergeTime (mergeTime old u) t := by
  cases old <;> grind [mergeTime, earlierTime]

theorem mergeTime_idem (old : Option ℤ) (t : ℤ) :
    mergeTime (mergeTime old t) t = mergeTime old t := by
  cases old <;> grind [mergeTime, earlierTime]

theorem mergeTime_eq_self_iff {old : Option ℤ} {t : ℤ} :
    mergeTime old t = old ↔ earlierTime old t = false := by
  cases old <;> grind [mergeTime, earlierTime]

/-- What the least positive time becomes with one more. -/
theorem leastPositive_concat_eq_mergeTime (ts : List ℤ) (t : ℤ) :
    leastPositive (ts ++ [t]) = mergeTime (leastPositive ts) t := by
  rw [leastPositive_concat, mergeTime]
  refine if_congr ?_ rfl rfl
  rcases leastPositive ts with _ | u <;> simp [earlierTime]

/-- A row of `messages` after a receipt. -/
def MessageRow.receive (m : MessageRow) (e : ReceiptEvent) : MessageRow :=
  if e.addresses m then advanceReceipt e.receipt e.receiptAt m else m

theorem advanceReceipt_eq (receipt : ℕ) (receiptAt : ℤ) (m : MessageRow) :
    advanceReceipt receipt receiptAt m =
      { m with
        receipt := max m.receipt receipt
        deliveredAt := if receipt = 2 then mergeTime m.deliveredAt receiptAt else m.deliveredAt
        receiptReadAt := if 3 ≤ receipt then mergeTime m.receiptReadAt receiptAt
          else m.receiptReadAt } := by
  simp only [advanceReceipt, mergeTime, MessageRow.mk.injEq, true_and, and_true]
  constructor
  · by_cases h : receipt = 2 <;> simp [h]
  · by_cases h : 3 ≤ receipt <;> simp [h]

/-- The rows that the `WHERE` clause leaves out would not change. -/
theorem receiptAdvances_iff :
    receiptAdvances e.chatJid e.id e.receipt e.receiptAt m = true ↔ m.receive e ≠ m := by
  have hcolumns : m.receive e ≠ m ↔ e.addresses m = true ∧
      ¬(max m.receipt e.receipt = m.receipt ∧
        (if e.receipt = 2 then mergeTime m.deliveredAt e.receiptAt else m.deliveredAt)
          = m.deliveredAt ∧
        (if 3 ≤ e.receipt then mergeTime m.receiptReadAt e.receiptAt else m.receiptReadAt)
          = m.receiptReadAt) := by
    rw [MessageRow.receive]
    cases hfor : e.addresses m with
    | false => simp
    | true =>
      rw [if_pos rfl, advanceReceipt_eq]
      cases m
      simp
  rw [hcolumns, receiptAdvances, Bool.and_eq_true]
  refine and_congr_right fun _ => ?_
  by_cases h2 : e.receipt = 2
  · simp only [h2, if_true, mergeTime_eq_self_iff]
    grind
  · by_cases h3 : 3 ≤ e.receipt
    · simp only [h2, h3, if_true, if_false, true_and, mergeTime_eq_self_iff]
      grind
    · simp only [h2, h3, if_false, and_true]
      grind

theorem receive_of_receiptAdvances (m : MessageRow) (e : ReceiptEvent) :
    (if receiptAdvances e.chatJid e.id e.receipt e.receiptAt m
      then advanceReceipt e.receipt e.receiptAt m else m) = m.receive e := by
  split
  · rename_i h
    have haddresses : e.addresses m = true := (Bool.and_eq_true_iff.mp h).1
    rw [MessageRow.receive, if_pos haddresses]
  · rename_i h
    rw [receiptAdvances_iff, ne_eq, not_not] at h
    exact h.symm

theorem addresses_receive (m : MessageRow) (e e' : ReceiptEvent) :
    e'.addresses (m.receive e) = e'.addresses m := by
  rw [MessageRow.receive]
  split <;> rfl

theorem receive_comm (m : MessageRow) (e e' : ReceiptEvent) :
    (m.receive e).receive e' = (m.receive e').receive e := by
  simp only [MessageRow.receive.eq_1 (m.receive e), MessageRow.receive.eq_1 (m.receive e'),
    addresses_receive]
  by_cases he : e.addresses m = true <;> by_cases he' : e'.addresses m = true <;>
    simp only [MessageRow.receive, he, he', if_true, if_false, Bool.false_eq_true]
  simp only [advanceReceipt_eq, MessageRow.mk.injEq, true_and, and_true]
  refine ⟨max_right_comm _ _ _, ?_, ?_⟩
  · split <;> split <;> first | rfl | exact mergeTime_comm _ _ _
  · split <;> split <;> first | rfl | exact mergeTime_comm _ _ _

theorem receive_idem (m : MessageRow) (e : ReceiptEvent) :
    (m.receive e).receive e = m.receive e := by
  rw [MessageRow.receive.eq_1 (m.receive e), addresses_receive, MessageRow.receive]
  by_cases he : e.addresses m = true
  · simp only [he, if_true, advanceReceipt_eq, MessageRow.mk.injEq, true_and, and_true]
    refine ⟨by omega, ?_, ?_⟩
    · split
      · exact mergeTime_idem _ _
      · rfl
    · split
      · exact mergeTime_idem _ _
      · rfl
  · simp only [he, if_false, Bool.false_eq_true]

end Columns

/-! ## The row of a reader -/

section Reader

variable {e : ReceiptEvent}

/-- A reader's time meets a time. -/
def mergeReaderTime (old t : ℤ) : ℤ := if earlierReaderTime old t then t else old

/-- A first row has the times that merging into 0 gives. -/
theorem mergeReaderTime_zero {t : ℤ} (ht : 0 ≤ t) : mergeReaderTime 0 t = t := by
  rcases ht.eq_or_lt with rfl | hpos
  · rfl
  · simp [mergeReaderTime, earlierReaderTime, hpos]

theorem mergeReaderTime_none (old : ℤ) : mergeReaderTime old 0 = old := rfl

theorem mergeReader_eq (old new : MessageReadRow) : mergeReader old new =
    { old with
      readAt := mergeReaderTime old.readAt new.readAt
      deliveredAt := mergeReaderTime old.deliveredAt new.deliveredAt } := rfl

/-- A reader's row meets the proposed one. -/
def joinReader (old : Option MessageReadRow) (new : MessageReadRow) : MessageReadRow :=
  old.elim new (fun old => mergeReader old new)

theorem readerRow_key {row : MessageReadRow} (h : e.readerRow = some row) :
    ∃ jid, e.reader = some jid ∧ row.key = (e.chatJid, e.id, jid) := by
  obtain ⟨jid, hjid, hrow⟩ := Option.bind_eq_some_iff.mp h
  refine ⟨jid, hjid, ?_⟩
  unfold readerReceipt at hrow
  split at hrow
  · cases hrow
    rfl
  · split at hrow <;> cases hrow
    rfl

theorem readerRow_nonneg {row : MessageReadRow} (h : e.readerRow = some row) :
    0 ≤ row.deliveredAt ∧ 0 ≤ row.readAt := by
  obtain ⟨jid, -, hrow⟩ := Option.bind_eq_some_iff.mp h
  have hnonneg := e.nonneg
  unfold readerReceipt at hrow
  split at hrow
  · cases hrow
    exact ⟨hnonneg, le_rfl⟩
  · split at hrow <;> cases hrow
    exact ⟨le_rfl, hnonneg⟩

theorem mergeReader_comm (old a b : MessageReadRow) :
    mergeReader (mergeReader old a) b = mergeReader (mergeReader old b) a := by
  simp only [mergeReader, MessageReadRow.mk.injEq, true_and]
  constructor <;> grind [earlierReaderTime]

theorem mergeReader_idem (old a : MessageReadRow) :
    mergeReader (mergeReader old a) a = mergeReader old a := by
  simp only [mergeReader, MessageReadRow.mk.injEq, true_and]
  constructor <;> grind [earlierReaderTime]

theorem mergeReader_self (a : MessageReadRow) : mergeReader a a = a := by
  cases a
  simp only [mergeReader, ite_self]

/-- Two first rows of a reader join in either order, when no time is negative. -/
theorem mergeReader_swap {a b : MessageReadRow} (hkey : a.key = b.key)
    (ha : 0 ≤ a.deliveredAt ∧ 0 ≤ a.readAt) (hb : 0 ≤ b.deliveredAt ∧ 0 ≤ b.readAt) :
    mergeReader a b = mergeReader b a := by
  simp only [MessageReadRow.key, Prod.mk.injEq] at hkey
  simp only [mergeReader, MessageReadRow.mk.injEq]
  refine ⟨hkey.1, hkey.2.1, hkey.2.2, ?_, ?_⟩ <;> grind [earlierReaderTime]

theorem joinReader_comm {e e' : ReceiptEvent} {a b : MessageReadRow}
    (ha : e.readerRow = some a) (hb : e'.readerRow = some b) (hkey : a.key = b.key)
    (old : Option MessageReadRow) :
    joinReader (some (joinReader old a)) b = joinReader (some (joinReader old b)) a := by
  cases old with
  | none => exact mergeReader_swap hkey (readerRow_nonneg ha) (readerRow_nonneg hb)
  | some old => exact mergeReader_comm old a b

theorem joinReader_idem (old : Option MessageReadRow) (a : MessageReadRow) :
    joinReader (some (joinReader old a)) a = joinReader old a := by
  cases old with
  | none => exact mergeReader_self a
  | some old => exact mergeReader_idem old a

end Reader

/-! ## The view that receipts write -/

/-- The message rows, and the row of each reader. -/
structure ReceiptView where
  messages : Table MessageRow MessageRow.key
  reads : String × String × String → Option MessageReadRow

def Store.receiptView (s : Store) : ReceiptView := ⟨s.messages, s.messageReads.find?⟩

namespace ReceiptView

/-- The row a receipt brings for its reader, when it is for an outgoing message. -/
def readerRow (v : ReceiptView) (e : ReceiptEvent) : Option MessageReadRow :=
  if v.messages.rows.any e.addresses then e.readerRow else none

def receive (v : ReceiptView) (e : ReceiptEvent) : ReceiptView where
  messages := v.messages.updateWhere e.addresses (advanceReceipt e.receipt e.receiptAt)
  reads k := (v.readerRow e).elim (v.reads k)
    (fun row => if k = row.key then some (joinReader (v.reads k) row) else v.reads k)

variable (v : ReceiptView) (e e' : ReceiptEvent)

theorem rows_receive : (v.receive e).messages.rows = v.messages.rows.map (·.receive e) := rfl

theorem readerRow_receive : (v.receive e).readerRow e' = v.readerRow e' := by
  have hany : (v.messages.rows.map (·.receive e)).any e'.addresses
      = v.messages.rows.any e'.addresses := by
    rw [List.any_map]
    exact congrArg _ (funext fun m => addresses_receive m e e')
  rw [readerRow, rows_receive, hany, readerRow]

theorem readerRow_eq_some {row : MessageReadRow} (h : v.readerRow e = some row) :
    e.readerRow = some row := by
  unfold readerRow at h
  split at h
  · exact h
  · cases h

theorem reads_receive_comm (k : String × String × String) :
    ((v.receive e).receive e').reads k = ((v.receive e').receive e).reads k := by
  change ((v.receive e).readerRow e').elim _ _ = ((v.receive e').readerRow e).elim _ _
  rw [readerRow_receive, readerRow_receive]
  simp only [receive]
  rcases ha : v.readerRow e with _ | a <;> rcases hb : v.readerRow e' with _ | b
  · rfl
  · rfl
  · rfl
  · simp only [Option.elim_some]
    by_cases hka : k = a.key <;> by_cases hkb : k = b.key
    · rw [if_pos hkb, if_pos hka, if_pos hka, if_pos hkb]
      exact congrArg some (joinReader_comm (v.readerRow_eq_some e ha)
        (v.readerRow_eq_some e' hb) (hka.symm.trans hkb) _)
    · rw [if_neg hkb, if_pos hka, if_pos hka, if_neg hkb]
    · rw [if_pos hkb, if_neg hka, if_neg hka, if_pos hkb]
    · rw [if_neg hkb, if_neg hka, if_neg hka, if_neg hkb]

theorem reads_receive_idem (k : String × String × String) :
    ((v.receive e).receive e).reads k = (v.receive e).reads k := by
  change ((v.receive e).readerRow e).elim _ _ = _
  rw [readerRow_receive]
  simp only [receive]
  rcases v.readerRow e with _ | a
  · rfl
  · simp only [Option.elim_some]
    split
    · exact congrArg some (joinReader_idem _ a)
    · rfl

/-- Receipts join. -/
theorem joins_receive : Joins receive where
  comm v e e' := by
    have hmessages : ((v.receive e).receive e').messages = ((v.receive e').receive e).messages := by
      refine Table.ext ?_
      simp only [rows_receive, List.map_map]
      exact List.map_congr_left fun m _ => receive_comm m e e'
    exact congrArg₂ ReceiptView.mk hmessages (funext (v.reads_receive_comm e e'))
  idem v e := by
    have hmessages : ((v.receive e).receive e).messages = (v.receive e).messages := by
      refine Table.ext ?_
      simp only [rows_receive, List.map_map]
      exact List.map_congr_left fun m _ => receive_idem m e
    exact congrArg₂ ReceiptView.mk hmessages (funext (v.reads_receive_idem e))

end ReceiptView

/-! ## A batch and its flag -/

section Batches

variable {s : Store}

theorem outgoing_eq (e : ReceiptEvent) :
    s.messages.rows.any (fun m => m.chatJid = e.chatJid && m.id = e.id && m.fromMe)
      = s.messages.rows.any e.addresses := by
  refine congrArg _ (funext fun m => ?_)
  rw [ReceiptEvent.addresses, Bool.and_comm (decide (m.chatJid = e.chatJid))]

theorem messages_deliver (s : Store) (e : ReceiptEvent) :
    (e.deliver s).1.messages = (s.receiptView.receive e).messages := by
  have hmessages : s.messages.updateWhere (receiptAdvances e.chatJid e.id e.receipt e.receiptAt)
      (advanceReceipt e.receipt e.receiptAt) = (s.receiptView.receive e).messages :=
    Table.ext (List.map_congr_left fun m _ => receive_of_receiptAdvances m e)
  rw [← hmessages]
  unfold ReceiptEvent.deliver updateReceipt
  dsimp only
  split
  · split <;> rfl
  · rfl

theorem messageReads_deliver (s : Store) (e : ReceiptEvent) :
    (e.deliver s).1.messageReads =
      (s.receiptView.readerRow e).elim s.messageReads (s.messageReads.upsert · mergeReader) := by
  unfold ReceiptEvent.deliver updateReceipt ReceiptView.readerRow ReceiptEvent.readerRow
    ReceiptEvent.reader
  dsimp only
  rw [outgoing_eq]
  have hmessages : s.receiptView.messages = s.messages := rfl
  rw [hmessages]
  split
  · rename_i row hrow
    rw [hrow]
    split <;> rfl
  · rename_i hrow
    rw [hrow]
    split <;> rfl

theorem changed_deliver (s : Store) (e : ReceiptEvent) :
    (e.deliver s).2 = (s.messages.rows.any (receiptAdvances e.chatJid e.id e.receipt e.receiptAt)
      || (s.receiptView.readerRow e).any (fun row =>
        (s.messageReads.find? row.key).all (fun old => mergeReader old row != old))) := by
  unfold ReceiptEvent.deliver updateReceipt ReceiptView.readerRow ReceiptEvent.readerRow
    ReceiptEvent.reader
  dsimp only
  rw [outgoing_eq]
  have hmessages : s.receiptView.messages = s.messages := rfl
  rw [hmessages]
  split
  · rename_i row hrow
    rw [hrow]
    split
    · rfl
    · exact (Bool.or_false _).symm
  · rename_i hrow
    rw [hrow]
    split <;> exact (Bool.or_false _).symm

/-- One receipt acts on the view. -/
theorem receiptView_deliver (s : Store) (e : ReceiptEvent) :
    (e.deliver s).1.receiptView = s.receiptView.receive e := by
  refine congrArg₂ ReceiptView.mk (messages_deliver s e) (funext fun k => ?_)
  rw [messageReads_deliver]
  change _ = (s.receiptView.readerRow e).elim (s.messageReads.find? k) _
  rcases s.receiptView.readerRow e with _ | row
  · rfl
  · exact Table.find?_upsert s.messageReads row mergeReader (fun _ _ => rfl) k

/-- A receipt leaves the view alone when no row advances and the reader's row is as new. -/
theorem receive_eq_self_iff (v : ReceiptView) (e : ReceiptEvent) :
    v.receive e = v ↔ (∀ m ∈ v.messages.rows, m.receive e = m) ∧
      ∀ row ∈ v.readerRow e, v.reads row.key = some (joinReader (v.reads row.key) row) := by
  have hmessages : (v.receive e).messages = v.messages ↔
      ∀ m ∈ v.messages.rows, m.receive e = m := by
    rw [Table.ext_iff, ReceiptView.rows_receive]
    conv_lhs => rhs; rw [← List.map_id v.messages.rows]
    exact List.map_inj_left
  have hreads : (v.receive e).reads = v.reads ↔
      ∀ row ∈ v.readerRow e, v.reads row.key = some (joinReader (v.reads row.key) row) := by
    rw [funext_iff]
    simp only [ReceiptView.receive]
    rcases v.readerRow e with _ | row
    · simp
    · simp only [Option.elim_some, Option.mem_some, forall_eq']
      constructor
      · intro h
        have hkey := h row.key
        rw [if_pos rfl] at hkey
        exact hkey.symm
      · intro h k
        split
        · rename_i hk
          subst hk
          exact h.symm
        · rfl
  rw [← hmessages, ← hreads]
  exact ⟨fun h => ⟨congrArg _ h, congrArg _ h⟩, fun h => congrArg₂ ReceiptView.mk h.1 h.2⟩

/-- The flag of one receipt. -/
theorem changed_deliver_iff (s : Store) (e : ReceiptEvent) :
    (e.deliver s).2 = true ↔ s.receiptView.receive e ≠ s.receiptView := by
  rw [changed_deliver, ne_eq, receive_eq_self_iff, Bool.or_eq_true, not_and_or]
  refine or_congr ?_ ?_
  · rw [List.any_eq_true]
    simp only [receiptAdvances_iff, not_forall, exists_prop]
    rfl
  · rcases s.receiptView.readerRow e with _ | row
    · simp
    · change (s.messageReads.find? row.key).all _ = true ↔ ¬∀ r ∈ some row,
        s.messageReads.find? r.key = some (joinReader (s.messageReads.find? r.key) r)
      simp only [Option.mem_some, forall_eq']
      rcases s.messageReads.find? row.key with _ | old
      · simp
      · simp only [joinReader, Option.all_some, Option.elim_some, bne_iff_ne, Option.some.injEq]
        exact not_congr eq_comm

/-- A receipt that leaves the view alone leaves the store alone. -/
theorem deliver_eq_self (e : ReceiptEvent) (h : s.receiptView.receive e = s.receiptView) :
    (e.deliver s).1 = s := by
  have hmessages : (e.deliver s).1.messages = s.messages :=
    (messages_deliver s e).trans (congrArg ReceiptView.messages h)
  have hreads : (e.deliver s).1.messageReads = s.messageReads := by
    rw [messageReads_deliver]
    have hrow := ((receive_eq_self_iff _ e).mp h).2
    rcases hnew : s.receiptView.readerRow e with _ | row
    · rfl
    · have hrow : s.messageReads.find? row.key
          = some (joinReader (s.messageReads.find? row.key) row) := hrow row hnew
      rcases hold : s.messageReads.find? row.key with _ | old
      · rw [hold] at hrow
        cases hrow
      · rw [hold] at hrow
        have hmerge : mergeReader old row = old := (Option.some.inj hrow).symm
        exact Table.upsert_eq_self mergeReader (fun _ _ => rfl) hold hmerge
  have hrest : (e.deliver s).1 = { s with
      messages := (e.deliver s).1.messages, messageReads := (e.deliver s).1.messageReads } := by
    unfold ReceiptEvent.deliver updateReceipt
    dsimp only
    split
    · split <;> rfl
    · rfl
  rw [hrest, hmessages, hreads]

/-- A batch is the run of its events, and its flag tells whether the view changed. -/
theorem foldl_deliver (es : List ReceiptEvent) (s : Store) (changed : Bool) :
    let last := es.foldl (fun acc e => ((e.deliver acc.1).1, acc.2 || (e.deliver acc.1).2))
      (s, changed)
    last.1.receiptView = es.foldl ReceiptView.receive s.receiptView ∧
      (last.2 = true ↔
        changed = true ∨ es.foldl ReceiptView.receive s.receiptView ≠ s.receiptView) ∧
      (es.foldl ReceiptView.receive s.receiptView = s.receiptView → last.1 = s) := by
  induction es generalizing s changed with
  | nil => exact ⟨rfl, by simp, fun _ => rfl⟩
  | cons e es ih =>
    obtain ⟨hview, hflag, hsame⟩ := ih (e.deliver s).1 (changed || (e.deliver s).2)
    rw [receiptView_deliver] at hview hflag hsame
    have hself : (e :: es).foldl ReceiptView.receive s.receiptView = s.receiptView ↔ _ :=
      ReceiptView.joins_receive.foldl_eq_self_iff
    have htail : es.foldl ReceiptView.receive s.receiptView = s.receiptView ↔ _ :=
      ReceiptView.joins_receive.foldl_eq_self_iff
    rw [List.forall_mem_cons, ← htail] at hself
    refine ⟨hview, ?_, fun h => ?_⟩
    · refine hflag.trans ?_
      rw [Bool.or_eq_true, changed_deliver_iff, or_assoc]
      refine or_congr_right ?_
      -- no later event of the batch undoes the first
      by_cases hstep : s.receiptView.receive e = s.receiptView
      · rw [List.foldl_cons, hstep]
        simp
      · simp only [ne_eq, hstep, not_false_eq_true, true_or, hself, false_and]
    · have hstep := hself.mp h
      rw [List.foldl_cons] at h
      rw [hstep.1] at h hsame
      exact (hsame h).trans (deliver_eq_self e hstep.1)

namespace ReceiptBatch

variable (b : ReceiptBatch)

theorem deliver_eq (s : Store) : b.deliver s =
    b.events.foldl (fun acc e => ((e.deliver acc.1).1, acc.2 || (e.deliver acc.1).2))
      (s, false) := by
  rw [deliver, updateReceipts, events, List.foldl_map]
  rfl

theorem receiptView_deliver (s : Store) :
    (b.deliver s).1.receiptView = b.events.foldl ReceiptView.receive s.receiptView := by
  rw [deliver_eq]
  exact (foldl_deliver b.events s false).1

/-- The flag of a batch is true exactly when the batch creates or changes a row. -/
theorem changed_iff (s : Store) : (b.deliver s).2 = true ↔ (b.deliver s).1 ≠ s := by
  obtain ⟨hview, hflag, hsame⟩ := foldl_deliver b.events s false
  rw [deliver_eq, hflag, or_iff_right Bool.false_ne_true]
  refine not_congr ⟨hsame, fun h => ?_⟩
  rw [← hview, h]

/-- A batch whose events leave the view alone changes nothing. -/
theorem deliver_eq_self {s : Store}
    (h : b.events.foldl ReceiptView.receive s.receiptView = s.receiptView) :
    b.deliver s = (s, false) := by
  have hstore : (b.deliver s).1 = s := by
    rw [deliver_eq]
    exact (foldl_deliver b.events s false).2.2 h
  have hflag : (b.deliver s).2 = false := by
    rw [← Bool.not_eq_true, changed_iff, not_not]
    exact hstore
  exact Prod.ext hstore hflag

end ReceiptBatch

end Batches

/-! ## What the message and its readers end with -/

section Runs

/-- The events for one message. -/
def ReceiptEvent.about (chatJid id : String) (e : ReceiptEvent) : Bool :=
  e.chatJid = chatJid && e.id = id

/-- The times of the events that `p` selects. -/
def receiptTimes (p : ReceiptEvent → Bool) (es : List ReceiptEvent) : List ℤ :=
  (es.filter p).map (·.receiptAt)

/-- The two times that `message_reads` has for a reader of a message, 0 for none. -/
def Store.readerTimes (s : Store) (chatJid id reader : String) : ℤ × ℤ :=
  (s.messageReads.find? (chatJid, id, reader)).elim (0, 0) (fun r => (r.deliveredAt, r.readAt))

/-- The run of the batches. -/
def receiveBatches (s : Store) (bs : List ReceiptBatch) : Store :=
  bs.foldl (fun s b => (b.deliver s).1) s

theorem receiptView_receiveBatches (s : Store) (bs : List ReceiptBatch) :
    (receiveBatches s bs).receiptView
      = (bs.flatMap ReceiptBatch.events).foldl ReceiptView.receive s.receiptView := by
  induction bs generalizing s with
  | nil => rfl
  | cons b bs ih =>
    rw [List.flatMap_cons, List.foldl_append, ← b.receiptView_deliver]
    exact ih _

variable {m : MessageRow}

theorem receiptTimes_concat (p : ReceiptEvent → Bool) (es : List ReceiptEvent)
    (e : ReceiptEvent) : receiptTimes p (es ++ [e]) =
      if p e then receiptTimes p es ++ [e.receiptAt] else receiptTimes p es := by
  rw [receiptTimes, List.filter_append, List.filter_singleton]
  cases p e <;> simp [receiptTimes]

/-- The columns of an outgoing message without times, after any receipts. -/
theorem foldl_receive (hout : m.fromMe = true) (hdelivered : m.deliveredAt = none)
    (hread : m.receiptReadAt = none) (es : List ReceiptEvent) :
    es.foldl MessageRow.receive m =
      { m with
        receipt := ((es.filter (·.about m.chatJid m.id)).map (·.receipt)).foldl max m.receipt
        deliveredAt := leastPositive
          (receiptTimes (fun e => e.about m.chatJid m.id && e.receipt = 2) es)
        receiptReadAt := leastPositive
          (receiptTimes (fun e => e.about m.chatJid m.id && decide (3 ≤ e.receipt)) es) } := by
  induction es using List.reverseRecOn with
  | nil =>
    cases m
    cases hdelivered
    cases hread
    rfl
  | append_singleton es e ih =>
    rw [List.foldl_append, ih, List.foldl_cons, List.foldl_nil, MessageRow.receive]
    simp only [receiptTimes_concat, List.filter_append, List.filter_singleton, List.map_append,
      List.foldl_append]
    have habout : e.addresses m = e.about m.chatJid m.id := by
      rw [ReceiptEvent.addresses, ReceiptEvent.about, hout, Bool.and_true, Bool.and_comm,
        decide_eq_decide.mpr (eq_comm (a := m.id)), decide_eq_decide.mpr (eq_comm (a := m.chatJid))]
    change (if e.addresses m then _ else _) = _
    rw [habout]
    cases e.about m.chatJid m.id with
    | false => simp
    | true =>
      rw [if_pos rfl, advanceReceipt_eq]
      simp only [Bool.true_and, cond_true, List.map_cons, List.map_nil, List.foldl_cons,
        List.foldl_nil, decide_eq_true_eq, MessageRow.mk.injEq, true_and, and_true]
      constructor
      · split
        · exact (leastPositive_concat_eq_mergeTime _ _).symm
        · rfl
      · split
        · exact (leastPositive_concat_eq_mergeTime _ _).symm
        · rfl

/-- The two times of a reader in the view. -/
def ReceiptView.times (v : ReceiptView) (k : String × String × String) : ℤ × ℤ :=
  (v.reads k).elim (0, 0) (fun r => (r.deliveredAt, r.readAt))

theorem leastPositive_concat_getD (ts : List ℤ) (t : ℤ) :
    (leastPositive (ts ++ [t])).getD 0 = mergeReaderTime ((leastPositive ts).getD 0) t := by
  rw [leastPositive_concat, mergeReaderTime]
  rcases hleast : leastPositive ts with _ | u
  · by_cases ht : 0 < t <;> simp [earlierReaderTime, ht]
  · have hpos := (leastPositive_eq_some.mp hleast).1.2
    by_cases ht : 0 < t ∧ t < u
    · simp [earlierReaderTime, ht]
    · rw [if_neg (by simpa using ht), if_neg]
      simp only [earlierReaderTime, Option.getD_some, Bool.and_eq_true, Bool.or_eq_true,
        decide_eq_true_eq]
      omega

theorem times_receive (v : ReceiptView) (e : ReceiptEvent) {chatJid id : String}
    (hout : e.about chatJid id = true → v.messages.rows.any e.addresses = true)
    (reader : String) :
    (v.receive e).times (chatJid, id, reader) =
      if e.about chatJid id && e.reader = some reader then
        (if e.receipt = 2 then mergeReaderTime (v.times (chatJid, id, reader)).1 e.receiptAt
          else (v.times (chatJid, id, reader)).1,
        if 3 ≤ e.receipt then mergeReaderTime (v.times (chatJid, id, reader)).2 e.receiptAt
          else (v.times (chatJid, id, reader)).2)
      else v.times (chatJid, id, reader) := by
  set k := (chatJid, id, reader) with hk
  by_cases hfor : e.about chatJid id = true ∧ e.reader = some reader
  · obtain ⟨habout, hreader⟩ := hfor
    have hkey : k = (e.chatJid, e.id, reader) := by
      simp only [ReceiptEvent.about, Bool.and_eq_true, decide_eq_true_eq] at habout
      rw [hk, habout.1, habout.2]
    have hrow : v.readerRow e = readerReceipt e.chatJid e.id reader e.receipt e.receiptAt := by
      rw [ReceiptView.readerRow, if_pos (hout habout), ReceiptEvent.readerRow, hreader]
      rfl
    rw [if_pos (by simp [habout, hreader])]
    simp only [ReceiptView.times, ReceiptView.receive, hrow, readerReceipt]
    by_cases h2 : e.receipt = 2
    · simp only [h2, if_true, Option.elim_some, MessageReadRow.key, ← hkey]
      rcases v.reads k with _ | old
      · simp [joinReader, mergeReaderTime_zero e.nonneg]
      · simp [joinReader, mergeReader_eq, mergeReaderTime_none]
    · by_cases h3 : 3 ≤ e.receipt
      · simp only [h2, h3, if_true, if_false, Option.elim_some, MessageReadRow.key, ← hkey]
        rcases v.reads k with _ | old
        · simp [joinReader, mergeReaderTime_zero e.nonneg]
        · simp [joinReader, mergeReader_eq, mergeReaderTime_none]
      · simp [h2, h3]
  · rw [if_neg (by simpa using hfor)]
    rcases hrow : v.readerRow e with _ | row
    · simp [ReceiptView.times, ReceiptView.receive, hrow]
    · obtain ⟨jid, hjid, hkey⟩ := readerRow_key (v.readerRow_eq_some e hrow)
      have hne : k ≠ row.key := by
        rintro heq
        rw [hkey, hk, Prod.mk.injEq, Prod.mk.injEq] at heq
        refine hfor ⟨?_, hjid.trans (congrArg some heq.2.2.symm)⟩
        simp [ReceiptEvent.about, heq.1, heq.2.1]
      simp [ReceiptView.times, ReceiptView.receive, hrow, hne]

/-- The times of each reader, after any receipts. -/
theorem times_foldl {v : ReceiptView} (hm : m ∈ v.messages.rows) (hout : m.fromMe = true)
    {reader : String} (hnone : v.times (m.chatJid, m.id, reader) = (0, 0))
    (es : List ReceiptEvent) :
    (es.foldl ReceiptView.receive v).times (m.chatJid, m.id, reader) =
      ((leastPositive (receiptTimes (fun e => e.about m.chatJid m.id &&
          e.reader = some reader && e.receipt = 2) es)).getD 0,
        (leastPositive (receiptTimes (fun e => e.about m.chatJid m.id &&
          e.reader = some reader && decide (3 ≤ e.receipt)) es)).getD 0) := by
  have hkept : ∀ es : List ReceiptEvent, ∃ m' ∈ (es.foldl ReceiptView.receive v).messages.rows,
      m'.chatJid = m.chatJid ∧ m'.id = m.id ∧ m'.fromMe = true := by
    intro es
    induction es using List.reverseRecOn with
    | nil => exact ⟨m, hm, rfl, rfl, hout⟩
    | append_singleton es e ih =>
      obtain ⟨m', hm', hc, hid, hf⟩ := ih
      rw [List.foldl_append, List.foldl_cons, List.foldl_nil, ReceiptView.rows_receive]
      refine ⟨m'.receive e, List.mem_map_of_mem hm', ?_⟩
      rw [MessageRow.receive]
      split <;> exact ⟨hc, hid, hf⟩
  induction es using List.reverseRecOn with
  | nil => exact hnone
  | append_singleton es e ih =>
    rw [List.foldl_append, List.foldl_cons, List.foldl_nil,
      times_receive _ e (fun habout => ?_) reader, ih]
    · simp only [receiptTimes_concat]
      by_cases hfor : (e.about m.chatJid m.id && decide (e.reader = some reader)) = true
      · rw [if_pos hfor]
        simp only [hfor, Bool.true_and, decide_eq_true_eq]
        refine congrArg₂ Prod.mk ?_ ?_
        · split
          · exact (leastPositive_concat_getD _ _).symm
          · rfl
        · split
          · exact (leastPositive_concat_getD _ _).symm
          · rfl
      · rw [if_neg hfor]
        rw [Bool.not_eq_true] at hfor
        simp only [hfor, Bool.false_and, Bool.false_eq_true, if_false]
    · obtain ⟨m', hm', hc, hid, hf⟩ := hkept es
      simp only [ReceiptEvent.about, Bool.and_eq_true, decide_eq_true_eq] at habout
      refine List.any_eq_true.mpr ⟨m', hm', ?_⟩
      simp [ReceiptEvent.addresses, hc, hid, hf, habout]

theorem messages_foldl (v : ReceiptView) (es : List ReceiptEvent) :
    (es.foldl ReceiptView.receive v).messages.rows
      = v.messages.rows.map (fun m => es.foldl MessageRow.receive m) := by
  induction es generalizing v with
  | nil => simp
  | cons e es ih =>
    rw [List.foldl_cons, ih, ReceiptView.rows_receive, List.map_map]
    rfl

/-- Receipts form a join-semilattice: whatever the order, the batches and the repetitions,
an outgoing message ends with the maximum of the levels and the least positive times, each
of its readers with theirs, an event that comes again changes nothing, and the flag of a
batch tells whether it created or changed a row. -/
theorem receipts_join {s : Store} (hm : m ∈ s.messages.rows) (hout : m.fromMe = true)
    (hdelivered : m.deliveredAt = none) (hread : m.receiptReadAt = none)
    (hreaders : ∀ r ∈ s.messageReads.rows, r.chatJid = m.chatJid → r.messageId = m.id →
      r.deliveredAt = 0 ∧ r.readAt = 0) (bs : List ReceiptBatch) :
    let es := bs.flatMap ReceiptBatch.events
    let last := receiveBatches s bs
    last.messages.find? m.key = some
      { m with
        receipt := ((es.filter (·.about m.chatJid m.id)).map (·.receipt)).foldl max m.receipt
        deliveredAt := leastPositive
          (receiptTimes (fun e => e.about m.chatJid m.id && e.receipt = 2) es)
        receiptReadAt := leastPositive
          (receiptTimes (fun e => e.about m.chatJid m.id && decide (3 ≤ e.receipt)) es) } ∧
    (∀ reader, last.readerTimes m.chatJid m.id reader =
      ((leastPositive (receiptTimes (fun e => e.about m.chatJid m.id &&
          e.reader = some reader && e.receipt = 2) es)).getD 0,
        (leastPositive (receiptTimes (fun e => e.about m.chatJid m.id &&
          e.reader = some reader && decide (3 ≤ e.receipt)) es)).getD 0)) ∧
    (∀ bs' : List ReceiptBatch, (bs'.flatMap ReceiptBatch.events).Perm es →
      (receiveBatches s bs').messages = last.messages ∧
      (receiveBatches s bs').messageReads.find? = last.messageReads.find?) ∧
    (∀ b : ReceiptBatch, b.events ⊆ es → b.deliver last = (last, false)) ∧
    ∀ (s' : Store) (b : ReceiptBatch), (b.deliver s').2 = true ↔ (b.deliver s').1 ≠ s' := by
  have hview := receiptView_receiveBatches s bs
  refine ⟨?_, fun reader => ?_, fun bs' hperm => ?_, fun b hb => ?_, fun s' b => b.changed_iff s'⟩
  · have hrows : (receiveBatches s bs).messages.rows = s.messages.rows.map
        (fun m => (bs.flatMap ReceiptBatch.events).foldl MessageRow.receive m) :=
      (congrArg (·.messages.rows) hview).trans (messages_foldl _ _)
    have hlast := foldl_receive hout hdelivered hread (bs.flatMap ReceiptBatch.events)
    refine Table.find?_eq_some.mpr ⟨?_, rfl⟩
    rw [hrows, ← hlast]
    exact List.mem_map_of_mem hm
  · have hnone : s.receiptView.times (m.chatJid, m.id, reader) = (0, 0) := by
      unfold ReceiptView.times
      rcases hrow : s.receiptView.reads (m.chatJid, m.id, reader) with _ | r
      · rfl
      · obtain ⟨hr, hk⟩ := Table.find?_eq_some.mp hrow
        simp only [MessageReadRow.key, Prod.mk.injEq] at hk
        obtain ⟨hd, hrd⟩ := hreaders r hr hk.1 hk.2.1
        simp [hd, hrd]
    exact (congrArg (·.times (m.chatJid, m.id, reader)) hview).trans
      (times_foldl (v := s.receiptView) hm hout hnone _)
  · have hviews : (receiveBatches s bs').receiptView = (receiveBatches s bs).receiptView := by
      rw [hview, receiptView_receiveBatches]
      exact ReceiptView.joins_receive.foldl_perm hperm
    exact ⟨congrArg ReceiptView.messages hviews, congrArg ReceiptView.reads hviews⟩
  · refine b.deliver_eq_self ?_
    rw [hview]
    exact ReceiptView.joins_receive.foldl_foldl_of_subset hb

/-- A read receipt, then the delivery receipt of the same reader twice in one batch. -/
theorem receipts_join_late_delivery :
    let sent : MessageRow :=
      { chatJid := "1", id := "a", senderJid := "me", senderName := "Me", text := "hi",
        timestamp := 5, fromMe := true }
    let last := receiveBatches { messages := ⟨[sent], by decide⟩ }
      [⟨"1", ["a"], 3, some "2", 20, by decide⟩, ⟨"1", ["a", "a"], 2, some "2", 10, by decide⟩]
    last.messages.find? sent.key
        = some { sent with receipt := 3, deliveredAt := some 10, receiptReadAt := some 20 } ∧
      last.readerTimes "1" "a" "2" = (10, 20) := by
  intro sent last
  have h := receipts_join (m := sent)
    (s := { messages := ⟨[sent], by decide⟩ }) (by decide) rfl rfl rfl (fun r hr => by cases hr)
    [⟨"1", ["a"], 3, some "2", 20, by decide⟩, ⟨"1", ["a", "a"], 2, some "2", 10, by decide⟩]
  exact ⟨h.1.trans (by decide), (h.2.1 "2").trans (by decide)⟩

end Runs

end OmarchyWhatsapp
