import Mathlib.Data.List.Pairwise
import OmarchyWhatsapp.Database.SettingsTheorems

/-!
# Read events in any order

A synchronized read-state action that is older than the last one applied is ignored, its
boundary included, and a self-read receipt clears the explicit mark whenever it comes. What a
list of such events leaves is a function of those that took effect (`effective`). Every order
ends with what the newest action decides and with everything that the actions and receipts
cover exactly when the newest action and the receipts cover as much as all of them.
-/

namespace OmarchyWhatsapp

open Relational

variable (plan : QueryPlan)

/-! ## Events -/

/-- A read-state action with its own clock and message boundary, or a self-read receipt. -/
inductive ReadEvent where
  | synced (read : Bool) (boundaryTimestamp : ℤ) (boundaryIds : List String) (eventTimestamp : ℤ)
  | receipt (messageIds : List String) (receiptTimestamp : ℤ)
deriving DecidableEq, Repr

/-- One event of the chat arrives. -/
def Store.receiveRead (chatJid : String) (s : Store) : ReadEvent → Store
  | .synced read boundaryTimestamp boundaryIds eventTimestamp =>
    s.apply plan (.applySyncedReadState chatJid read (some boundaryTimestamp) boundaryIds
      eventTimestamp)
  | .receipt messageIds receiptTimestamp =>
    s.apply plan (.applySelfReadReceipt chatJid messageIds receiptTimestamp)

/-- The events of a chat arrive in this order. -/
def Store.receiveReads (s : Store) (chatJid : String) (events : List ReadEvent) : Store :=
  events.foldl (Store.receiveRead plan chatJid) s

namespace ReadEvent

def isSynced : ReadEvent → Bool
  | synced .. => true
  | receipt .. => false

/-- The time of the action. -/
def clock : ReadEvent → ℤ
  | synced _ _ _ eventTimestamp => eventTimestamp
  | receipt .. => 0

/-- The action marks the chat unread. -/
def marksUnread : ReadEvent → Bool
  | synced read .. => !read
  | receipt .. => false

def ids : ReadEvent → List String
  | synced _ _ boundaryIds _ => boundaryIds
  | receipt messageIds _ => messageIds

/-- The event is not ignored by a chat whose last action was at `clock`. -/
def applies (clock : ℤ) : ReadEvent → Bool
  | synced _ _ _ eventTimestamp => decide (clock ≤ eventTimestamp)
  | receipt messageIds _ => !messageIds.isEmpty

/-- The time of the last action, once this event took effect. -/
def clockAfter (clock : ℤ) : ReadEvent → ℤ
  | synced _ _ _ eventTimestamp => eventTimestamp
  | receipt .. => clock

/-- The boundary that a reading event moves the chat to. -/
def boundary (s : Store) (chatJid : String) : ReadEvent → ℤ
  | synced _ boundaryTimestamp boundaryIds _ => candidateBoundary boundaryTimestamp boundaryIds
  | receipt messageIds receiptTimestamp =>
    candidateBoundary (receiptBoundary plan s chatJid messageIds receiptTimestamp) messageIds

end ReadEvent

/-- The events that take effect, in an order of arrival. -/
def effective (clock : ℤ) : List ReadEvent → List ReadEvent
  | [] => []
  | e :: es => if e.applies clock then e :: effective (e.clockAfter clock) es
    else effective clock es

/-! ## What events cover -/

section Coverage

variable (s : Store) (chatJid : String) (es : List ReadEvent)

/-- The boundary that the chat has after some events. -/
def reachedBoundary : ℤ :=
  ((es.filter (fun e => !e.marksUnread)).map (·.boundary plan s chatJid)).foldl max
    (settingsOf s chatJid).readBoundary

/-- The incoming messages of the chat that some events cover. -/
def coversMessage (m : MessageRow) : Bool :=
  m.chatJid = chatJid && !m.fromMe && es.any (fun e => !e.marksUnread &&
    (decide (m.timestamp ≤ reachedBoundary plan s chatJid es) || e.ids.contains m.id))

/-- `s'` has the given mark, the boundary of the events `es`, and reads what they cover. -/
structure ReadOutcome (s' : Store) (explicitUnread : Bool) : Prop where
  mark : (settingsOf s' chatJid).explicitUnread = explicitUnread
  boundary : (settingsOf s' chatJid).readBoundary = reachedBoundary plan s chatJid es
  messages : s'.messages = s.messages.updateWhere (coversMessage plan s chatJid es)
    (fun m => { m with read := true })

/-- The time of the last read-state action of the chat. -/
def readClock : ℤ := (settingsOf s chatJid).readStateUpdatedAt

/-- The events that are not ignored from the start. -/
def freshEvents : List ReadEvent := es.filter (·.applies (readClock s chatJid))

/-- The newest of the actions that are not ignored from the start. -/
def newestAction : Option ReadEvent :=
  latest (·.clock) ((freshEvents s chatJid es).filter (·.isSynced))

/-- The newest action, and the receipts. -/
def decidingEvents : List ReadEvent :=
  (freshEvents s chatJid es).filter (fun e => !e.isSynced || newestAction s chatJid es = some e)

/-- The mark that the newest action decides; without one a receipt clears it. -/
def decidedMark : Bool :=
  (newestAction s chatJid es).elim
    ((freshEvents s chatJid es).isEmpty && (settingsOf s chatJid).explicitUnread) (·.marksUnread)

/-- No receipt meets a newest action that marks the chat unread, and the newest action and the
receipts reach the boundary and cover the unread messages that all events do. -/
def Subsumed : Prop :=
  (∀ n ∈ newestAction s chatJid es, n.marksUnread = true →
    ∀ e ∈ freshEvents s chatJid es, e.isSynced = true) ∧
  reachedBoundary plan s chatJid (freshEvents s chatJid es)
    ≤ reachedBoundary plan s chatJid (decidingEvents s chatJid es) ∧
  ∀ m ∈ s.messages.rows, m.read = false →
    coversMessage plan s chatJid (freshEvents s chatJid es) m = true →
      coversMessage plan s chatJid (decidingEvents s chatJid es) m = true

instance : Decidable (Subsumed plan s chatJid es) := inferInstanceAs (Decidable (_ ∧ _))

end Coverage

/-- The order in which the engine finds messages does not depend on their read flags. -/
def IgnoresReadFlags : Prop :=
  ∀ (p : MessageRow → Bool) (l : List MessageRow),
    plan.scan (l.map (fun m => if p m then { m with read := true } else m))
      = (plan.scan l).map (fun m => if p m then { m with read := true } else m)

/-! ## What a list of events covers -/

section Covers

variable {plan} {s : Store} {chatJid : String} {es es' : List ReadEvent}

theorem le_foldl_max {t a : ℤ} {l : List ℤ} :
    t ≤ l.foldl max a ↔ t ≤ a ∨ ∃ x ∈ l, t ≤ x := by
  induction l generalizing a with
  | nil => simp
  | cons b l ih =>
    rw [List.foldl_cons, ih, le_max_iff, List.exists_mem_cons_iff, or_assoc]

theorem le_reachedBoundary {t : ℤ} :
    t ≤ reachedBoundary plan s chatJid es ↔ t ≤ (settingsOf s chatJid).readBoundary ∨
      ∃ e ∈ es, e.marksUnread = false ∧ t ≤ e.boundary plan s chatJid := by
  simp [reachedBoundary, le_foldl_max, and_assoc]

theorem coversMessage_iff {m : MessageRow} : coversMessage plan s chatJid es m = true ↔
    m.chatJid = chatJid ∧ m.fromMe = false ∧ ∃ e ∈ es, e.marksUnread = false ∧
      (m.timestamp ≤ reachedBoundary plan s chatJid es ∨ m.id ∈ e.ids) := by
  simp [coversMessage, and_assoc]

/-- More events reach further. -/
theorem reachedBoundary_mono (h : es ⊆ es') :
    reachedBoundary plan s chatJid es ≤ reachedBoundary plan s chatJid es' := by
  rw [le_reachedBoundary]
  rcases le_reachedBoundary.mp (le_refl (reachedBoundary plan s chatJid es)) with hle | ⟨e, he, hr⟩
  · exact Or.inl hle
  · exact Or.inr ⟨e, h he, hr⟩

/-- More events cover more messages. -/
theorem coversMessage_mono {m : MessageRow} (h : es ⊆ es')
    (hm : coversMessage plan s chatJid es m = true) :
    coversMessage plan s chatJid es' m = true := by
  rw [coversMessage_iff] at hm ⊢
  obtain ⟨hc, hown, e, he, hread, hcov⟩ := hm
  refine ⟨hc, hown, e, h he, hread, ?_⟩
  exact hcov.imp_left fun hle => hle.trans (reachedBoundary_mono h)

theorem reachedBoundary_append : reachedBoundary plan s chatJid (es ++ es')
    = ((es'.filter (fun e => !e.marksUnread)).map (·.boundary plan s chatJid)).foldl max
        (reachedBoundary plan s chatJid es) := by
  rw [reachedBoundary, List.filter_append, List.map_append, List.foldl_append, reachedBoundary]

/-- Events that mark the chat unread reach no further. -/
theorem reachedBoundary_append_of_unread (h : ∀ e ∈ es', e.marksUnread = true) :
    reachedBoundary plan s chatJid (es ++ es') = reachedBoundary plan s chatJid es := by
  have hnone : es'.filter (fun e => !e.marksUnread) = [] :=
    List.filter_eq_nil_iff.mpr fun e he => by simp [h e he]
  rw [reachedBoundary_append, hnone]
  rfl

end Covers

/-! ## The read flags of the messages -/

section Flags

variable {plan} {s s₁ s₂ : Store} {chatJid : String} {es es' : List ReadEvent} {u u' : Bool}
  {p : MessageRow → Bool}

theorem rows_of_flags
    (h : s₁.messages = s.messages.updateWhere p (fun m => { m with read := true })) :
    s₁.messages.rows
      = s.messages.rows.map (fun m => if p m then { m with read := true } else m) := by
  rw [h]
  rfl

/-- The time of a message does not depend on what is read. -/
theorem messageTimestamp_of_flags (hplan : IgnoresReadFlags plan)
    (h : s₁.messages = s.messages.updateWhere p (fun m => { m with read := true }))
    (id : String) : messageTimestamp plan s₁ chatJid id = messageTimestamp plan s chatJid id := by
  have hrows : s₁.messagesById chatJid id = (s.messagesById chatJid id).map
      (fun m => if p m then { m with read := true } else m) := by
    rw [Store.messagesById, rows_of_flags h, List.filter_map, Store.messagesById]
    congr 2
    funext m
    simp only [Function.comp]
    split <;> rfl
  rw [messageTimestamp, hrows, hplan, List.head?_map, Option.map_map, messageTimestamp]
  congr 1
  funext m
  simp only [Function.comp]
  split <;> rfl

theorem boundary_of_flags (hplan : IgnoresReadFlags plan)
    (h : s₁.messages = s.messages.updateWhere p (fun m => { m with read := true }))
    (e : ReadEvent) : e.boundary plan s₁ chatJid = e.boundary plan s chatJid := by
  cases e with
  | synced => rfl
  | receipt ids timestamp =>
    have htimes : messageTimestamp plan s₁ chatJid = messageTimestamp plan s chatJid :=
      funext (messageTimestamp_of_flags hplan h)
    simp only [ReadEvent.boundary, receiptBoundary, htimes]

/-- Nothing arrives. -/
theorem ReadOutcome.nil :
    ReadOutcome plan s chatJid [] s (settingsOf s chatJid).explicitUnread where
  mark := rfl
  boundary := rfl
  messages := by
    ext1
    exact (List.map_id'' (fun m => by simp [coversMessage]) s.messages.rows).symm

theorem reachedBoundary_of_outcome (hplan : IgnoresReadFlags plan)
    (h : ReadOutcome plan s chatJid es s₁ u) :
    reachedBoundary plan s₁ chatJid es' = reachedBoundary plan s chatJid (es ++ es') := by
  rw [reachedBoundary_append, reachedBoundary, h.boundary]
  simp only [boundary_of_flags hplan h.messages]

/-- The later events cover what they cover before the earlier ones, or the earlier ones do. -/
theorem coversMessage_append (hplan : IgnoresReadFlags plan)
    (h : ReadOutcome plan s chatJid es s₁ u) (m : MessageRow) :
    coversMessage plan s chatJid (es ++ es') m
      = (coversMessage plan s chatJid es m || coversMessage plan s₁ chatJid es' m) := by
  rw [Bool.eq_iff_iff, Bool.or_eq_true]
  constructor
  · intro hm
    obtain ⟨hc, hown, e, he, hread, hcov⟩ := coversMessage_iff.mp hm
    simp only [coversMessage_iff, reachedBoundary_of_outcome hplan h]
    rcases List.mem_append.mp he with he | he
    · by_cases hlater : ∃ x ∈ es', x.marksUnread = false
      · obtain ⟨x, hx, hxread⟩ := hlater
        rcases hcov with hle | hid
        · exact Or.inr ⟨hc, hown, x, hx, hxread, Or.inl hle⟩
        · exact Or.inl ⟨hc, hown, e, he, hread, Or.inr hid⟩
      · -- the later events mark the chat unread, and the boundary is that of the earlier ones
        push Not at hlater
        rw [reachedBoundary_append_of_unread (by simpa using hlater)] at hcov
        exact Or.inl ⟨hc, hown, e, he, hread, hcov⟩
    · exact Or.inr ⟨hc, hown, e, he, hread, hcov⟩
  · rintro (hm | hm)
    · exact coversMessage_mono (List.subset_append_left es es') hm
    · rw [coversMessage_iff, reachedBoundary_of_outcome hplan h] at hm
      obtain ⟨hc, hown, e, he, hcov⟩ := hm
      exact coversMessage_iff.mpr ⟨hc, hown, e, List.mem_append_right es he, hcov⟩

/-- What earlier and later events leave is what both leave together. -/
theorem ReadOutcome.append (hplan : IgnoresReadFlags plan)
    (h : ReadOutcome plan s chatJid es s₁ u) (h' : ReadOutcome plan s₁ chatJid es' s₂ u') :
    ReadOutcome plan s chatJid (es ++ es') s₂ u' where
  mark := h'.mark
  boundary := by rw [h'.boundary, reachedBoundary_of_outcome hplan h]
  messages := by
    ext1
    rw [rows_of_flags h'.messages, rows_of_flags h.messages, List.map_map]
    refine List.map_congr_left fun m _ => ?_
    have hflag : coversMessage plan s₁ chatJid es' { m with read := true }
        = coversMessage plan s₁ chatJid es' m := rfl
    rw [Function.comp, coversMessage_append hplan h m]
    cases coversMessage plan s chatJid es m <;> simp [hflag]

end Flags

/-! ## One event -/

section Step

variable {plan} {s : Store} {chatJid : String}

/-- An ignored event leaves the store as it is. -/
theorem receiveRead_of_ignored {e : ReadEvent} (h : e.applies (readClock s chatJid) = false) :
    s.receiveRead plan chatJid e = s := by
  cases e with
  | synced read boundary ids time =>
    have hstale : time < (settingsOf s chatJid).readStateUpdatedAt :=
      not_le.mp (of_decide_eq_false h)
    simp only [Store.receiveRead, Store.apply, applySyncedReadState, if_pos hstale]
  | receipt ids time =>
    have hempty : ids.isEmpty = true := by simpa [ReadEvent.applies] using h
    simp only [Store.receiveRead, Store.apply, applySelfReadReceipt, if_pos hempty]

theorem settingsOf_stampReadState {eventTimestamp : ℤ} (h : s.hasSettings chatJid) :
    settingsOf (stampReadState s chatJid eventTimestamp) chatJid
      = { settingsOf s chatJid with readStateUpdatedAt := eventTimestamp } := by
  obtain ⟨c, hc⟩ := hasSettings_iff_find?.mp h
  have hjid : c.jid = chatJid := Table.key_of_find? hc
  simp [settingsOf, stampReadState, Table.find?_updateWhere, hc, hjid]

/-- What `apply_read_boundary` leaves for a boundary event of the chat. -/
theorem ReadOutcome.applyReadBoundary {e : ReadEvent} {timestamp : ℤ}
    (hread : e.marksUnread = false)
    (hboundary : e.boundary plan s chatJid = candidateBoundary timestamp e.ids) :
    ReadOutcome plan s chatJid [e] (applyReadBoundary plan s chatJid timestamp e.ids).1 false where
  mark := by rw [settingsOf_applyReadBoundary, if_pos rfl]
  boundary := by
    rw [settingsOf_applyReadBoundary, if_pos rfl]
    simp [reachedBoundary, hread, hboundary]
  messages := by
    ext1
    refine List.map_congr_left fun m _ => ?_
    have hreached : reachedBoundary plan s chatJid [e]
        = max (settingsOf s chatJid).readBoundary (candidateBoundary timestamp e.ids) := by
      simp [reachedBoundary, hread, hboundary]
    rw [← hreached]
    -- the mark is set on unread messages only, and leaves a read one as it is
    rcases hm : m.read with _ | _
    · simp [boundaryMarks, coversMessage, MessageRow.unread, hread, hm]
    · have hself : ({ m with read := true } : MessageRow) = m := by rw [← hm]
      simp [hself]

theorem ReadOutcome.stampReadState {es : List ReadEvent} {s' : Store} {u : Bool} {time : ℤ}
    (h : ReadOutcome plan s chatJid es s' u) (hrow : s'.hasSettings chatJid) :
    ReadOutcome plan s chatJid es (stampReadState s' chatJid time) u where
  mark := by rw [settingsOf_stampReadState hrow, ← h.mark]
  boundary := by rw [settingsOf_stampReadState hrow, ← h.boundary]
  messages := h.messages

/-- A mark-unread action moves neither the boundary nor a flag. -/
theorem ReadOutcome.applyReadState {e : ReadEvent} (hunread : e.marksUnread = true) :
    ReadOutcome plan s chatJid [e] (applyReadState plan s chatJid false).1 true where
  mark := by
    simp only [settingsOf, OmarchyWhatsapp.applyReadState, Bool.false_eq_true, if_false]
    rw [Table.find?_upsert, if_pos rfl]
    rcases s.chatSettings.find? chatJid with _ | c <;> rfl
  boundary := by
    simp only [settingsOf, OmarchyWhatsapp.applyReadState, Bool.false_eq_true, if_false]
    rw [Table.find?_upsert, if_pos rfl]
    simp only [reachedBoundary, settingsOf, List.filter_cons, hunread]
    rcases s.chatSettings.find? chatJid with _ | c <;> rfl
  messages := by
    ext1
    exact (List.map_id'' (fun m => by simp [coversMessage, hunread]) s.messages.rows).symm

/-- What an event that takes effect leaves. -/
theorem receiveRead_outcome {e : ReadEvent} (h : e.applies (readClock s chatJid) = true) :
    ReadOutcome plan s chatJid [e] (s.receiveRead plan chatJid e) e.marksUnread ∧
      readClock (s.receiveRead plan chatJid e) chatJid
        = e.clockAfter (readClock s chatJid) := by
  cases e with
  | synced read boundary ids time =>
    have hfresh : ¬time < (settingsOf s chatJid).readStateUpdatedAt :=
      not_lt.mpr (of_decide_eq_true h)
    cases read with
    | false =>
      have hrow : (applyReadState plan s chatJid false).1.hasSettings chatJid :=
        (hasSettings_applyReadState plan s).mpr (Or.inr rfl)
      simp only [Store.receiveRead, Store.apply, applySyncedReadState, if_neg hfresh,
        Bool.false_eq_true, if_false]
      refine ⟨(ReadOutcome.applyReadState rfl).stampReadState hrow, ?_⟩
      rw [readClock, settingsOf_stampReadState hrow]
      rfl
    | true =>
      have hrow : (applyReadBoundary plan s chatJid boundary ids).1.hasSettings chatJid :=
        (hasSettings_applyReadBoundary plan s).mpr (Or.inr rfl)
      simp only [Store.receiveRead, Store.apply, applySyncedReadState, if_neg hfresh, if_true,
        syncedBoundary]
      refine ⟨ReadOutcome.stampReadState
        (ReadOutcome.applyReadBoundary (e := .synced true boundary ids time) rfl rfl) hrow, ?_⟩
      rw [readClock, settingsOf_stampReadState hrow]
      rfl
  | receipt ids time =>
    have hids : ¬ids.isEmpty = true := by simpa [ReadEvent.applies] using h
    simp only [Store.receiveRead, Store.apply, applySelfReadReceipt, if_neg hids]
    refine ⟨ReadOutcome.applyReadBoundary (e := .receipt ids time) rfl rfl, ?_⟩
    rw [readClock, settingsOf_applyReadBoundary, if_pos rfl]
    rfl

end Step

/-! ## Runs -/

/-- The mark that the last effective event leaves. -/
def lastMark (s : Store) (chatJid : String) (es : List ReadEvent) : Bool :=
  es.getLast?.elim (settingsOf s chatJid).explicitUnread (·.marksUnread)

/-- Every run leaves what the events that took effect cover, and the mark of the last one. -/
theorem receiveReads_outcome {plan} (hplan : IgnoresReadFlags plan) (s : Store) (chatJid : String)
    (es : List ReadEvent) :
    ReadOutcome plan s chatJid (effective (readClock s chatJid) es)
      (s.receiveReads plan chatJid es)
      (lastMark s chatJid (effective (readClock s chatJid) es)) := by
  induction es generalizing s with
  | nil => exact .nil
  | cons e es ih =>
    rw [effective, Store.receiveReads, List.foldl_cons]
    split
    · rename_i happ
      obtain ⟨hstep, hclock⟩ := @receiveRead_outcome plan s chatJid e happ
      have hrest := ih (s.receiveRead plan chatJid e)
      rw [hclock] at hrest
      have hboth := hstep.append hplan hrest
      have hmark : lastMark (s.receiveRead plan chatJid e) chatJid
          (effective (e.clockAfter (readClock s chatJid)) es)
          = lastMark s chatJid (e :: effective (e.clockAfter (readClock s chatJid)) es) := by
        rw [lastMark, lastMark, List.getLast?_cons, hstep.mark]
        rcases (effective (e.clockAfter (readClock s chatJid)) es).getLast? with _ | x <;> rfl
      rw [hmark] at hboth
      exact hboth
    · rename_i happ
      rw [receiveRead_of_ignored (by simpa using happ)]
      exact ih s

/-! ## The events that take effect -/

section Effective

variable {clock : ℤ} {es : List ReadEvent} {e n : ReadEvent}

/-- Once an event took effect, fewer events do. -/
theorem ReadEvent.applies_of_clockAfter (h : n.applies clock = true)
    (he : e.applies (n.clockAfter clock) = true) : e.applies clock = true := by
  cases e with
  | receipt => exact he
  | synced read boundary ids time =>
    cases n with
    | receipt => exact he
    | synced read' boundary' ids' time' =>
      have hle : clock ≤ time' := of_decide_eq_true h
      exact decide_eq_true (hle.trans (of_decide_eq_true he))

/-- An event that takes effect is one of the list that is not ignored from the start. -/
theorem mem_of_effective (h : e ∈ effective clock es) : e ∈ es ∧ e.applies clock = true := by
  induction es generalizing clock with
  | nil => cases h
  | cons x es ih =>
    rw [effective] at h
    split at h
    · rename_i hx
      rcases List.mem_cons.mp h with rfl | h
      · exact ⟨List.mem_cons_self, hx⟩
      · obtain ⟨hmem, happ⟩ := ih h
        exact ⟨List.mem_cons_of_mem _ hmem, ReadEvent.applies_of_clockAfter hx happ⟩
    · obtain ⟨hmem, happ⟩ := ih h
      exact ⟨List.mem_cons_of_mem _ hmem, happ⟩

/-- A receipt takes effect whenever it comes. -/
theorem effective_of_receipt (hmem : e ∈ es) (hreceipt : e.isSynced = false)
    (happ : e.applies clock = true) : e ∈ effective clock es := by
  have hany : ∀ clock', e.applies clock' = true := fun clock' => by
    cases e with
    | synced => cases hreceipt
    | receipt => exact happ
  clear happ
  induction es generalizing clock with
  | nil => cases hmem
  | cons x es ih =>
    rw [effective]
    rcases List.mem_cons.mp hmem with rfl | hmem
    · rw [if_pos (hany clock)]
      exact List.mem_cons_self
    · split
      · exact List.mem_cons_of_mem _ (ih hmem)
      · exact ih hmem

/-- The newest action takes effect whenever it comes. -/
theorem effective_of_newest (hmem : n ∈ es) (hsync : n.isSynced = true) (hclock : clock ≤ n.clock)
    (hnewest : ∀ x ∈ es, x.isSynced = true → x.clock ≤ n.clock) : n ∈ effective clock es := by
  induction es generalizing clock with
  | nil => cases hmem
  | cons x es ih =>
    have hrest := fun y hy => hnewest y (List.mem_cons_of_mem x hy)
    rw [effective]
    rcases List.mem_cons.mp hmem with rfl | hmem
    · have happ : n.applies clock = true := by
        cases n with
        | synced => exact decide_eq_true hclock
        | receipt => cases hsync
      rw [if_pos happ]
      exact List.mem_cons_self
    · split
      · have hafter : x.clockAfter clock ≤ n.clock := by
          cases hx : x with
          | synced read boundary ids time =>
            have := hnewest x List.mem_cons_self
            rw [hx] at this
            exact this rfl
          | receipt => exact hclock
        exact List.mem_cons_of_mem _ (ih hmem hafter hrest)
      · exact ih hmem hclock hrest

/-- The actions that take effect come in the order of their clocks. -/
theorem effective_sorted (clock : ℤ) (es : List ReadEvent) : (effective clock es).Pairwise
    (fun a b => a.isSynced = true → b.isSynced = true → a.clock ≤ b.clock) := by
  induction es generalizing clock with
  | nil => exact List.Pairwise.nil
  | cons x es ih =>
    rw [effective]
    split
    · refine List.pairwise_cons.mpr ⟨?_, ih _⟩
      intro y hy hx hsync
      have happ := (mem_of_effective hy).2
      cases x with
      | receipt => cases hx
      | synced =>
        cases y with
        | receipt => cases hsync
        | synced => exact of_decide_eq_true happ
    · exact ih clock

/-- The last action that takes effect is the newest one. -/
theorem le_clock_of_getLast? (hlast : (effective clock es).getLast? = some e)
    (hsync : e.isSynced = true) (hn : n ∈ effective clock es) (hnsync : n.isSynced = true) :
    n.clock ≤ e.clock := by
  obtain ⟨front, hfront⟩ := List.getLast?_eq_some_iff.mp hlast
  have hsorted := effective_sorted clock es
  rw [hfront, List.pairwise_append] at hsorted
  rw [hfront, List.mem_append, List.mem_singleton] at hn
  rcases hn with hn | rfl
  · exact hsorted.2.2 n hn e (List.mem_singleton_self e) hnsync hsync
  · exact le_rfl

end Effective

/-! ## Every order -/

section Orders

variable {plan} {s s' : Store} {chatJid : String} {es es' events order : List ReadEvent}
  {e n : ReadEvent} {u u' : Bool}

theorem mem_freshEvents : e ∈ freshEvents s chatJid events ↔
    e ∈ events ∧ e.applies (readClock s chatJid) = true := List.mem_filter

/-- The newest action is fresh, and no action of the list is newer. -/
theorem newestAction_spec (h : newestAction s chatJid events = some n) :
    n ∈ freshEvents s chatJid events ∧ n.isSynced = true ∧ readClock s chatJid ≤ n.clock ∧
      ∀ x ∈ events, x.isSynced = true → x.clock ≤ n.clock := by
  obtain ⟨hfresh, hsync⟩ := List.mem_filter.mp (latest_mem _ h)
  have hclock : readClock s chatJid ≤ n.clock := by
    have happ := (mem_freshEvents.mp hfresh).2
    cases n with
    | synced => exact of_decide_eq_true happ
    | receipt => cases hsync
  refine ⟨hfresh, hsync, hclock, fun x hx hxsync => ?_⟩
  by_cases happ : x.applies (readClock s chatJid) = true
  · exact le_latest _ h (List.mem_filter.mpr ⟨mem_freshEvents.mpr ⟨hx, happ⟩, hxsync⟩)
  · cases x with
    | synced =>
      have hold : ¬readClock s chatJid ≤ _ := fun hle => happ (decide_eq_true hle)
      exact (not_le.mp hold).le.trans hclock
    | receipt => cases hxsync

theorem newestAction_of_fresh (h : e ∈ freshEvents s chatJid events) (hsync : e.isSynced = true) :
    ∃ n, newestAction s chatJid events = some n :=
  exists_latest _ (List.mem_filter.mpr ⟨h, hsync⟩)

/-- Only fresh events take effect. -/
theorem effective_subset (hperm : order.Perm events) :
    effective (readClock s chatJid) order ⊆ freshEvents s chatJid events := fun _ h =>
  mem_freshEvents.mpr ⟨hperm.mem_iff.mp (mem_of_effective h).1, (mem_of_effective h).2⟩

/-- The newest action and the receipts take effect in every order. -/
theorem deciding_subset (hperm : order.Perm events) :
    decidingEvents s chatJid events ⊆ effective (readClock s chatJid) order := by
  intro e he
  obtain ⟨hfresh, hkind⟩ := List.mem_filter.mp he
  obtain ⟨hmem, happ⟩ := mem_freshEvents.mp hfresh
  rw [Bool.or_eq_true, decide_eq_true_eq] at hkind
  rcases hkind with hreceipt | hnewest
  · exact effective_of_receipt (hperm.mem_iff.mpr hmem) (by simpa using hreceipt) happ
  · obtain ⟨-, hsync, hclock, hmax⟩ := newestAction_spec hnewest
    exact effective_of_newest (hperm.mem_iff.mpr hmem) hsync hclock
      fun x hx => hmax x (hperm.mem_iff.mp hx)

/-- Where the newest action comes first, only receipts take effect after it. -/
theorem effective_newest_first (htimes : (events.filter (·.isSynced)).Pairwise
      (fun a b => a.clock ≠ b.clock)) (h : newestAction s chatJid events = some n) :
    ∃ rest, effective (readClock s chatJid) (n :: events.erase n) = n :: rest ∧
      ∀ e ∈ rest, e.isSynced = false := by
  obtain ⟨hfresh, hsync, hclock, hmax⟩ := newestAction_spec h
  obtain ⟨hmem, happ⟩ := mem_freshEvents.mp hfresh
  refine ⟨_, by rw [effective, if_pos happ], fun e he => ?_⟩
  by_contra hkind
  rw [Bool.not_eq_false] at hkind
  obtain ⟨hrest, hlate⟩ := mem_of_effective he
  -- an action after the newest one would need a clock as new as its own
  have hle : n.clock ≤ e.clock := by
    cases e with
    | synced =>
      cases n with
      | synced => exact of_decide_eq_true hlate
      | receipt => cases hsync
    | receipt => cases hkind
  have hdistinct : ((n :: events.erase n).filter (·.isSynced)).Pairwise
      (fun a b => a.clock ≠ b.clock) :=
    htimes.perm ((List.perm_cons_erase hmem).filter _) fun hab => hab.symm
  rw [List.filter_cons, if_pos hsync, List.pairwise_cons] at hdistinct
  exact hdistinct.1 e (List.mem_filter.mpr ⟨hrest, hkind⟩)
    (le_antisymm hle (hmax e (List.mem_of_mem_erase hrest) hkind))

/-- The mark after any order, where no receipt meets a newest action that marks unread. -/
theorem lastMark_effective (hperm : order.Perm events)
    (htimes : (events.filter (·.isSynced)).Pairwise (fun a b => a.clock ≠ b.clock))
    (hclear : ∀ n ∈ newestAction s chatJid events, n.marksUnread = true →
      ∀ e ∈ freshEvents s chatJid events, e.isSynced = true) :
    lastMark s chatJid (effective (readClock s chatJid) order)
      = decidedMark s chatJid events := by
  have hsub : effective (readClock s chatJid) order ⊆ freshEvents s chatJid events :=
    effective_subset hperm
  have hdec : decidingEvents s chatJid events ⊆ effective (readClock s chatJid) order :=
    deciding_subset hperm
  have hnewest : ∀ n, newestAction s chatJid events = some n →
      n ∈ effective (readClock s chatJid) order := fun n hn =>
    hdec (List.mem_filter.mpr ⟨(newestAction_spec hn).1, by simp [hn]⟩)
  rcases hlast : (effective (readClock s chatJid) order).getLast? with _ | e
  · -- nothing took effect, so there is no receipt and no newest action
    have hnil := List.getLast?_eq_none_iff.mp hlast
    have hnone : newestAction s chatJid events = none :=
      Option.eq_none_iff_forall_ne_some.mpr fun n hn => by simpa [hnil] using hnewest n hn
    have hempty : freshEvents s chatJid events = [] := by
      refine List.eq_nil_iff_forall_not_mem.mpr fun x hx => ?_
      cases hkind : x.isSynced with
      | true =>
        obtain ⟨n, hn⟩ := newestAction_of_fresh hx hkind
        rw [hnone] at hn
        cases hn
      | false =>
        have := hdec (List.mem_filter.mpr ⟨hx, by simp [hkind]⟩)
        rw [hnil] at this
        cases this
    simp [lastMark, hlast, decidedMark, hnone, hempty]
  · have he := List.mem_of_getLast? hlast
    have hfresh := hsub he
    rw [lastMark, hlast, decidedMark, Option.elim_some]
    rcases hn : newestAction s chatJid events with _ | n
    · -- without an action every effective event is a receipt
      have hreceipt : e.marksUnread = false := by
        cases e with
        | receipt => rfl
        | synced =>
          obtain ⟨n, hn'⟩ := newestAction_of_fresh hfresh rfl
          rw [hn] at hn'
          cases hn'
      have hne : (freshEvents s chatJid events).isEmpty = false :=
        List.isEmpty_eq_false_iff.mpr (List.ne_nil_of_mem hfresh)
      rw [hreceipt, hne]
      rfl
    · rw [Option.elim_some]
      obtain ⟨hnfresh, hnsync, -, hmax⟩ := newestAction_spec hn
      cases hkind : e.isSynced with
      | true =>
        -- the last action that takes effect is the newest one
        have heq : n = e := by
          by_contra hne
          have hle := le_clock_of_getLast? hlast hkind (hnewest n hn) hnsync
          have hge := hmax e (mem_freshEvents.mp hfresh).1 hkind
          have hmem : ∀ x ∈ freshEvents s chatJid events, x.isSynced = true →
              x ∈ events.filter (·.isSynced) := fun x hx hsync =>
            List.mem_filter.mpr ⟨(mem_freshEvents.mp hx).1, hsync⟩
          have hsymm : Std.Symm (fun a b : ReadEvent => a.clock ≠ b.clock) :=
            ⟨fun _ _ hab => hab.symm⟩
          exact htimes.forall (hmem n hnfresh hnsync) (hmem e hfresh hkind) hne
            (le_antisymm hle hge)
        rw [heq]
      | false =>
        have hreceipt : e.marksUnread = false := by
          cases e with
          | receipt => rfl
          | synced => cases hkind
        rw [hreceipt]
        by_contra hunread
        rw [hclear n hn (by simpa using Ne.symm hunread) e hfresh] at hkind
        cases hkind

/-- Events that reach and cover the same leave the same. -/
theorem ReadOutcome.congr (h : ReadOutcome plan s chatJid es s' u)
    (hreach : reachedBoundary plan s chatJid es = reachedBoundary plan s chatJid es')
    (hcover : ∀ m ∈ s.messages.rows, m.read = false →
      coversMessage plan s chatJid es m = coversMessage plan s chatJid es' m) :
    ReadOutcome plan s chatJid es' s' u where
  mark := h.mark
  boundary := h.boundary.trans hreach
  messages := by
    ext1
    rw [rows_of_flags h.messages]
    refine List.map_congr_left fun m hm => ?_
    cases hread : m.read with
    | false => rw [hcover m hm hread]
    | true =>
      have hself : ({ m with read := true } : MessageRow) = m := by rw [← hread]
      simp [hself]

/-- What is left tells what was covered. -/
theorem ReadOutcome.covers_eq (h : ReadOutcome plan s chatJid es s' u)
    (h' : ReadOutcome plan s chatJid es' s' u') {m : MessageRow} (hm : m ∈ s.messages.rows)
    (hread : m.read = false) :
    coversMessage plan s chatJid es m = coversMessage plan s chatJid es' m := by
  have hrows := (rows_of_flags h.messages).symm.trans (rows_of_flags h'.messages)
  have hrow := congrArg MessageRow.read (List.map_inj_left.mp hrows m hm)
  cases hc : coversMessage plan s chatJid es m <;>
    cases hc' : coversMessage plan s chatJid es' m <;> simp_all

/-- The newest action and the receipts cover everything, so every order covers it. -/
theorem ReadOutcome.of_subsumed (h : Subsumed plan s chatJid events)
    (hdec : decidingEvents s chatJid events ⊆ es) (hsub : es ⊆ freshEvents s chatJid events)
    (houtcome : ReadOutcome plan s chatJid es s' u) :
    ReadOutcome plan s chatJid (freshEvents s chatJid events) s' u := by
  refine houtcome.congr ?_ fun m hm hread => ?_
  · exact le_antisymm (reachedBoundary_mono hsub) (h.2.1.trans (reachedBoundary_mono hdec))
  · rw [Bool.eq_iff_iff]
    exact ⟨coversMessage_mono hsub, fun hc => coversMessage_mono hdec (h.2.2 m hm hread hc)⟩

/-- A newest action that comes first shows what every order has to cover. -/
theorem subsumed_of_outcomes (hplan : IgnoresReadFlags plan)
    (htimes : (events.filter (·.isSynced)).Pairwise (fun a b => a.clock ≠ b.clock))
    (h : ∀ order, order.Perm events → ReadOutcome plan s chatJid (freshEvents s chatJid events)
      (s.receiveReads plan chatJid order) (decidedMark s chatJid events)) :
    Subsumed plan s chatJid events := by
  rcases hn : newestAction s chatJid events with _ | n
  · -- without an action all fresh events are receipts
    have hall : decidingEvents s chatJid events = freshEvents s chatJid events := by
      refine List.filter_eq_self.mpr fun e he => ?_
      cases hkind : e.isSynced with
      | false => rfl
      | true =>
        obtain ⟨n, hn'⟩ := newestAction_of_fresh he hkind
        rw [hn] at hn'
        cases hn'
    refine ⟨fun n hn' => ?_, ?_, fun m _ _ hc => ?_⟩
    · rw [hn] at hn'
      cases hn'
    · rw [hall]
    · rwa [hall]
  · obtain ⟨hfresh, hsync, -, -⟩ := newestAction_spec hn
    have hmem : n ∈ events := (mem_freshEvents.mp hfresh).1
    have hperm : (n :: events.erase n).Perm events := (List.perm_cons_erase hmem).symm
    obtain ⟨rest, heff, hrest⟩ := effective_newest_first htimes hn
    have hrun := receiveReads_outcome hplan s chatJid (n :: events.erase n)
    have hall := h _ hperm
    have hfirst : effective (readClock s chatJid) (n :: events.erase n)
        ⊆ decidingEvents s chatJid events := fun e he => by
      refine List.mem_filter.mpr ⟨effective_subset hperm he, ?_⟩
      rw [heff] at he
      rcases List.mem_cons.mp he with rfl | he
      · simp [hn]
      · simp [hrest e he]
    refine ⟨fun n' hn' hunread e he => ?_, ?_, fun m hm hread hc => ?_⟩
    · -- a receipt would come after the newest action and clear its mark
      obtain rfl : n = n' := Option.some_inj.mp (hn.symm.trans hn')
      by_contra hreceipt
      rw [Bool.not_eq_true] at hreceipt
      have hlate : e ∈ rest := by
        have hmem := deciding_subset hperm (List.mem_filter.mpr ⟨he, by simp [hreceipt]⟩)
        rw [heff] at hmem
        refine (List.mem_cons.mp hmem).resolve_left ?_
        rintro rfl
        rw [hsync] at hreceipt
        cases hreceipt
      have hz := List.getLast?_eq_some_getLast (List.ne_nil_of_mem hlate)
      generalize rest.getLast (List.ne_nil_of_mem hlate) = z at hz
      have hmark := hrun.mark.symm.trans hall.mark
      rw [heff, lastMark, List.getLast?_cons, hz, decidedMark, hn] at hmark
      have hclears : z.marksUnread = false := by
        have := hrest z (List.mem_of_getLast? hz)
        cases z with
        | receipt => rfl
        | synced => cases this
      simp [hclears, hunread] at hmark
    · rw [← hall.boundary, hrun.boundary]
      exact reachedBoundary_mono hfirst
    · rw [← hrun.covers_eq hall hm hread] at hc
      exact coversMessage_mono hfirst hc

end Orders


/-- In every order the events leave what those that took effect cover. Every order leaves the
newest mark and all that the events cover exactly when newest action and receipts cover it. -/
theorem readState_converges_iff (hplan : IgnoresReadFlags plan) (s : Store) (chatJid : String)
    (events : List ReadEvent)
    (htimes : (events.filter (·.isSynced)).Pairwise (fun a b => a.clock ≠ b.clock)) :
    (∀ order, order.Perm events →
      ReadOutcome plan s chatJid (effective (readClock s chatJid) order)
        (s.receiveReads plan chatJid order)
        (lastMark s chatJid (effective (readClock s chatJid) order))) ∧
    ((∀ order, order.Perm events →
      ReadOutcome plan s chatJid (freshEvents s chatJid events)
        (s.receiveReads plan chatJid order) (decidedMark s chatJid events)) ↔
      Subsumed plan s chatJid events) := by
  refine ⟨fun order _ => receiveReads_outcome hplan s chatJid order, ?_, ?_⟩
  · exact subsumed_of_outcomes hplan htimes
  · intro h order hperm
    have hrun := receiveReads_outcome hplan s chatJid order
    rw [lastMark_effective hperm htimes h.1] at hrun
    exact hrun.of_subsumed h (deciding_subset hperm) (effective_subset hperm)

/-- The plan that breaks ties by insertion order looks at no read flag. -/
theorem stable_ignoresReadFlags : IgnoresReadFlags .stable := by
  have hscan : ∀ l : List MessageRow, QueryPlan.stable.scan l = l := fun l =>
    List.Pairwise.insertionSort_eq (List.pairwise_of_forall fun _ _ => rfl)
  intro p l
  rw [hscan, hscan]

/-- The newest of two actions and a receipt cover an older mark-read action, in every order. -/
theorem readState_converges_on_newest_read :
    let s := run (Store.apply .stable) Store.empty
      [.insertMessage (directMessage "1" "a" "hi" 10) "Ann" false true,
        .insertMessage (directMessage "1" "b" "there" 20) "Ann" false true]
    let events := [.synced false 0 [] 15, .synced true 10 [] 20, .synced true 20 [] 30,
      .receipt ["a"] 10]
    Subsumed .stable s "1" events ∧ ∀ order, order.Perm events →
      ReadOutcome .stable s "1" (freshEvents s "1" events) (s.receiveReads .stable "1" order)
        (decidedMark s "1" events) :=
  ⟨by decide, (readState_converges_iff .stable stable_ignoresReadFlags _ _ _ (by decide)).2.mpr
    (by decide)⟩

/-- A mark-read action that comes after a newer mark-unread action reads nothing, and a
receipt that comes after a mark-unread action clears the mark. -/
theorem receiveReads_depends_on_order :
    let s := run (Store.apply .stable) Store.empty
      [.insertMessage (directMessage "1" "a" "hi" 10) "Ann" false true]
    let read : ReadEvent := .synced true 10 [] 20
    let unread : ReadEvent := .synced false 0 [] 30
    let receipt : ReadEvent := .receipt ["a"] 10
    let readFlags := fun order =>
      (s.receiveReads .stable "1" order).messages.rows.map (·.read)
    let settings := fun order => settingsOf (s.receiveReads .stable "1" order) "1"
    (settings [read, unread]).readBoundary = 10 ∧ (settings [unread, read]).readBoundary = 0 ∧
      readFlags [read, unread] = [true] ∧ readFlags [unread, read] = [false] ∧
      (settings [receipt, unread]).explicitUnread = true ∧
      (settings [unread, receipt]).explicitUnread = false := by
  decide

end OmarchyWhatsapp
