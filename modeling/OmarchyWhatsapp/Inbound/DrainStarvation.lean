import OmarchyWhatsapp.Inbound.DurableInbox
import OmarchyWhatsapp.Relational.Backlog

/-!
# Which records a drain comes to

A drain pass reads the first 10,000 records of the inbox and goes through them one by one. A record
that cannot be decoded, or that `receive_message` does not accept, stays in the inbox and takes its
place again in the next pass.
-/

namespace OmarchyWhatsapp

open Relational

namespace DurableInbox

variable (decodes accepts : DurableInbound → Bool)

/-- The record that the loop of a pass is about to hand over, or to report. -/
def comesTo (s : DurableInbox) : Option DurableInbound :=
  match s.pass, s.reduction with
  | some pass, .idle => if s.clock.isCurrent pass.generation then pass.pending.head? else none
  | _, _ => none

/-- The records that are handed over or reported in a run. -/
def handled (s : DurableInbox) : List InboxStep → List DurableInbound
  | [] => []
  | a :: as => (if a = .nextRecord then s.comesTo.toList else []) ++ handled (s.step decodes a) as

/-- The turn of the loop for one record. -/
def recordSteps (record : DurableInbound) : List InboxStep :=
  [.nextRecord, .reduceMessage, .received (accepts record), .finish true]

/-- A whole pass over the inbox. -/
def drainSteps (generation : ℕ) (inbox : InboundInbox) : List InboxStep :=
  [.send (.drain generation), .startWork true] ++
    (pendingInbound inbox 10000).flatMap (recordSteps accepts) ++ [.nextRecord]

/-- Passes one after the other. -/
def drains (generation : ℕ) : ℕ → DurableInbox → List InboxStep
  | 0, _ => []
  | n + 1, s =>
    let pass := drainSteps accepts generation s.inbox
    pass ++ drains generation n (run (step decodes) s pass)

/-- The record stays in the inbox when a pass has come to it. -/
def stuck (record : DurableInbound) : Bool := !(decodes record && accepts record)

/-- How many of the records that come before one stay in the inbox. -/
def stuckBefore (inbox : InboundInbox) (record : DurableInbound) : ℕ :=
  ((orderByThenRow (·.committedAt) inbox.rows).takeWhile (· ≠ record)).countP
    (stuck decodes accepts)

/-- The reducer waits for work, and the generation is current. -/
structure Resting (s : DurableInbox) (generation : ℕ) : Prop where
  pass : s.pass = none
  reduction : s.reduction = .idle
  queue : s.queue = []
  current : s.clock.isCurrent generation = true

/-- A pass is about to go on with these records. -/
structure Draining (s : DurableInbox) (generation : ℕ) (pending : List DurableInbound) : Prop where
  pass : ∃ handed, s.pass = some ⟨generation, pending, handed⟩
  reduction : s.reduction = .idle
  queue : s.queue = []
  current : s.clock.isCurrent generation = true

variable {s : DurableInbox} {generation : ℕ}

theorem handled_append (as bs : List InboxStep) :
    s.handled decodes (as ++ bs)
      = s.handled decodes as ++ (run (step decodes) s as).handled decodes bs := by
  induction as generalizing s with
  | nil => rfl
  | cons a as ih => rw [List.cons_append, handled, ih, handled, run_cons, List.append_assoc]

/-- The turn of one record. -/
theorem Draining.record {record : DurableInbound} {pending : List DurableInbound}
    (h : s.Draining generation (record :: pending)) :
    s.handled decodes (recordSteps accepts record) = [record] ∧
      (run (step decodes) s (recordSteps accepts record)).Draining generation pending ∧
      (run (step decodes) s (recordSteps accepts record)).inbox
        = if stuck decodes accepts record then s.inbox
          else s.inbox.deleteWhere (fun r => r.key = record.key) := by
  obtain ⟨⟨handed, hpass⟩, hreduction, hqueue, hcurrent⟩ := h
  obtain ⟨inbox, clock, queue, pass, reduction, committed, accepted⟩ := s
  dsimp only at hpass hreduction hqueue hcurrent
  subst hpass hreduction hqueue
  cases hdecodes : decodes record with
  | false =>
    simp only [recordSteps, handled, run_cons, run_nil, step, comesTo, nextRecord, reduceMessage,
      received, finishInboundReduction, hcurrent, hdecodes, stuck]
    exact ⟨rfl, ⟨⟨_, rfl⟩, rfl, rfl, hcurrent⟩, rfl⟩
  | true =>
    cases haccepts : accepts record with
    | false =>
      simp [recordSteps, handled, step, comesTo, nextRecord, reduceMessage,
        received, finishInboundReduction, hcurrent, hdecodes, haccepts, stuck]
      exact ⟨⟨_, rfl⟩, rfl, rfl, hcurrent⟩
    | true =>
      simp [recordSteps, handled, step, comesTo, nextRecord, reduceMessage,
        received, finishInboundReduction, hcurrent, hdecodes, haccepts, stuck]
      exact ⟨⟨⟨_, rfl⟩, rfl, rfl, hcurrent⟩, rfl⟩

/-- The turns of all the records that a pass has read. -/
theorem Draining.records {pending : List DurableInbound} (h : s.Draining generation pending) :
    s.handled decodes (pending.flatMap (recordSteps accepts)) = pending ∧
      (run (step decodes) s (pending.flatMap (recordSteps accepts))).Draining generation [] ∧
      (run (step decodes) s (pending.flatMap (recordSteps accepts))).inbox.rows
        = s.inbox.rows.filter (fun r =>
          !pending.any (fun p => !stuck decodes accepts p && decide (p.key = r.key))) := by
  induction pending generalizing s with
  | nil => exact ⟨rfl, h, by simp⟩
  | cons record pending ih =>
    obtain ⟨hhandled, hnext, hinbox⟩ := h.record decodes accepts
    obtain ⟨hrest, hend, hrows⟩ := ih hnext
    rw [List.flatMap_cons, handled_append, run_append, hhandled, hrest]
    refine ⟨rfl, hend, hrows.trans ?_⟩
    rw [hinbox]
    cases hstuck : stuck decodes accepts record with
    | true => simp [hstuck]
    | false =>
      simp only [Bool.false_eq_true, if_false, Table.rows_deleteWhere, List.filter_filter,
        List.any_cons, hstuck, Bool.not_false, Bool.true_and, Bool.not_or]
      refine List.filter_congr fun r _ => ?_
      rw [Bool.and_comm, decide_eq_decide.mpr (eq_comm (a := r.key))]

/-- The loop of a pass has come to its end. -/
theorem Draining.ends (h : s.Draining generation []) :
    s.handled decodes [.nextRecord] = [] ∧
      (run (step decodes) s [.nextRecord]).Resting generation ∧
      (run (step decodes) s [.nextRecord]).inbox = s.inbox := by
  obtain ⟨⟨handed, hpass⟩, hreduction, hqueue, hcurrent⟩ := h
  obtain ⟨inbox, clock, queue, pass, reduction, committed, accepted⟩ := s
  dsimp only at hpass hreduction hqueue hcurrent
  subst hpass hreduction hqueue
  refine ⟨?_, ⟨rfl, rfl, rfl, hcurrent⟩, rfl⟩
  simp [handled, comesTo]

/-- A pass begins. -/
theorem Resting.startWork (h : s.Resting generation) :
    s.handled decodes [.send (.drain generation), .startWork true] = [] ∧
      (run (step decodes) s [.send (.drain generation), .startWork true]).Draining generation
        (pendingInbound s.inbox 10000) ∧
      (run (step decodes) s [.send (.drain generation), .startWork true]).inbox = s.inbox := by
  obtain ⟨hpass, hreduction, hqueue, hcurrent⟩ := h
  obtain ⟨inbox, clock, queue, pass, reduction, committed, accepted⟩ := s
  dsimp only at hpass hreduction hqueue hcurrent
  subst hpass hreduction hqueue
  have hstart : run (step decodes) ⟨inbox, clock, [], none, .idle, committed, accepted⟩
      [.send (.drain generation), .startWork true]
      = ⟨inbox, clock, [], some ⟨generation, pendingInbound inbox 10000, []⟩, .idle, committed,
        accepted⟩ := by
    simp [step, DurableInbox.startWork, hcurrent]
  rw [hstart]
  exact ⟨rfl, ⟨⟨_, rfl⟩, rfl, rfl, hcurrent⟩, rfl⟩

/-- A whole pass: it comes to the records of its window, and leaves the stuck ones of them and
what is behind the window. -/
theorem Resting.drainSteps (h : s.Resting generation) :
    s.handled decodes (drainSteps accepts generation s.inbox)
        = (orderByThenRow (·.committedAt) s.inbox.rows).take 10000 ∧
      (run (step decodes) s (DurableInbox.drainSteps accepts generation s.inbox)).Resting
        generation ∧
      orderByThenRow (·.committedAt)
          (run (step decodes) s
            (DurableInbox.drainSteps accepts generation s.inbox)).inbox.rows
        = afterPass 10000 (stuck decodes accepts)
          (orderByThenRow (·.committedAt) s.inbox.rows) := by
  have hwindow : pendingInbound s.inbox 10000
      = (orderByThenRow (·.committedAt) s.inbox.rows).take 10000 := by
    rw [pendingInbound, Nat.min_self, Nat.max_eq_right (by omega)]
  have hperm := perm_orderByThenRow (·.committedAt) s.inbox.rows
  have hnodup : (orderByThenRow (·.committedAt) s.inbox.rows).Nodup :=
    hperm.nodup_iff.mpr (List.Nodup.of_map _ s.inbox.nodup)
  obtain ⟨hbegin, hdraining, hinbox⟩ := h.startWork decodes
  obtain ⟨hhandled, hdrained, hrows⟩ := hdraining.records decodes accepts
  obtain ⟨hnone, hresting, hsame⟩ := hdrained.ends decodes
  simp only [DurableInbox.drainSteps, handled_append, run_append]
  rw [hbegin, hhandled, hnone, hsame, hrows, hinbox, orderByThenRow_filter,
    afterPass_eq_filter hnodup, hwindow]
  refine ⟨by rw [List.nil_append, List.append_nil], hresting, ?_⟩
  -- a key names one record, so a pass deletes the accepted records of its window
  refine List.filter_congr fun r hr => ?_
  have hsame : ∀ p ∈ (orderByThenRow (·.committedAt) s.inbox.rows).take 10000,
      p.key = r.key → p = r := fun p hp hkey =>
    s.inbox.key_inj (hperm.mem_iff.mp (List.mem_of_mem_take hp)) (hperm.mem_iff.mp hr) hkey
  generalize (orderByThenRow (·.committedAt) s.inbox.rows).take 10000 = window at hsame
  rw [Bool.eq_iff_iff]
  simp only [Bool.not_eq_true', List.any_eq_false, Bool.and_eq_true, decide_eq_true_eq,
    Bool.or_eq_true, decide_eq_false_iff_not]
  constructor
  · intro h
    cases hstuck : stuck decodes accepts r with
    | true => exact Or.inl rfl
    | false => exact Or.inr fun hr => h r hr ⟨hstuck, rfl⟩
  · rintro h p hp ⟨hstuck, hkey⟩
    obtain rfl := hsame p hp hkey
    rcases h with h | h
    · exact absurd h (by rw [hstuck]; exact Bool.false_ne_true)
    · exact h hp

variable {decodes accepts}

/-- Passes one after the other come to what the windows over the backlog reach. -/
theorem Resting.mem_handled_drains {record : DurableInbound} (h : s.Resting generation) (n : ℕ) :
    record ∈ s.handled decodes (drains decodes accepts generation n s) ↔
      ∃ k < n, record ∈ ((afterPass 10000 (stuck decodes accepts))^[k]
        (orderByThenRow (·.committedAt) s.inbox.rows)).take 10000 := by
  induction n generalizing s with
  | zero => simp [drains, handled]
  | succ n ih =>
    obtain ⟨hhandled, hresting, hrows⟩ := h.drainSteps decodes accepts
    rw [drains, handled_append, List.mem_append, hhandled, ih hresting, hrows]
    constructor
    · rintro (hmem | ⟨k, hk, hmem⟩)
      · exact ⟨0, by omega, hmem⟩
      · exact ⟨k + 1, by omega, hmem⟩
    · rintro ⟨k, hk, hmem⟩
      cases k with
      | zero => exact Or.inl hmem
      | succ k => exact Or.inr ⟨k, by omega, hmem⟩

/-- Where 10,000 stuck records come before a record, no pass comes to it. -/
theorem Resting.not_mem_handled_drains {record : DurableInbound} (h : s.Resting generation)
    (hrecord : record ∈ s.inbox.rows) (hstuck : 10000 ≤ stuckBefore decodes accepts s.inbox record)
    (n : ℕ) : record ∉ s.handled decodes (drains decodes accepts generation n s) := by
  rw [h.mem_handled_drains]
  rintro ⟨k, -, hmem⟩
  obtain ⟨after, hsplit⟩ := exists_eq_takeWhile_append
    ((perm_orderByThenRow (·.committedAt) s.inbox.rows).mem_iff.mpr hrecord)
  rw [hsplit] at hmem
  refine not_mem_take after (fun hbefore => ?_) hstuck k hmem
  simpa using List.mem_takeWhile_imp hbefore

/-- Repeated passes under a current generation come to a pending record exactly if fewer than
10,000 of the records that come before it cannot be decoded or are not accepted. -/
theorem comesTo_iff_stuckBefore {record : DurableInbound} (h : s.Resting generation)
    (hrecord : record ∈ s.inbox.rows) :
    (∃ n, record ∈ s.handled decodes (drains decodes accepts generation n s)) ↔
      stuckBefore decodes accepts s.inbox record < 10000 := by
  constructor
  · rintro ⟨n, hmem⟩
    by_contra hle
    exact h.not_mem_handled_drains hrecord (not_lt.mp hle) n hmem
  · intro hstuck
    obtain ⟨after, hsplit⟩ := exists_eq_takeWhile_append
      ((perm_orderByThenRow (·.committedAt) s.inbox.rows).mem_iff.mpr hrecord)
    obtain ⟨k, hk⟩ := exists_mem_take record _ after hstuck
    rw [← hsplit] at hk
    exact ⟨k + 1, h.mem_handled_drains (k + 1) |>.mpr ⟨k, by omega, hk⟩⟩

/-- Two unreadable records do not keep the passes from a third one. -/
theorem comesTo_iff_behindTwo :
    let unread (id : String) (time : ℤ) : DurableInbound :=
      ⟨⟨"1@s.whatsapp.net", "1@s.whatsapp.net", id⟩, [], "", 0, "text", false, false, true, time⟩
    let last : DurableInbound := { unread "C" 3 with message := [10] }
    let s : DurableInbox := {
      inbox := ⟨[unread "A" 1, last, unread "B" 2], by decide⟩
      clock := ({} : RevisionClock).beginGeneration.1 }
    ∃ n, last ∈ s.handled (fun r => !r.message.isEmpty)
      (drains (fun r => !r.message.isEmpty) (fun _ => true) 1 n s) :=
  (comesTo_iff_stuckBefore ⟨rfl, rfl, rfl, rfl⟩ (by decide)).mpr (by decide)

/-- The `i`-th of the records that were written by a version of the client library that this one
cannot read. -/
def unreadableRecord (i : ℕ) : DurableInbound where
  key := ⟨"1@s.whatsapp.net", "1@s.whatsapp.net", String.ofList (List.replicate i 'A')⟩
  message := []
  pushName := ""
  timestamp := 0
  mediaType := "text"
  isFromMe := false
  isGroup := false
  isOffline := true
  committedAt := i

def readableRecord : DurableInbound :=
  { unreadableRecord 10000 with message := [10, 2, 104, 105] }

theorem nodup_unreadableRecord :
    (((List.range 10000).map unreadableRecord ++ [readableRecord]).map
      DurableInbound.key).Nodup := by
  have hinj : Function.Injective fun i => (unreadableRecord i).key := by
    intro i j h
    have hid := congrArg (fun key => key.messageId.toList.length) h
    simpa [unreadableRecord] using hid
  have hkeys : ((List.range 10000).map unreadableRecord ++ [readableRecord]).map
      DurableInbound.key = (List.range 10001).map fun i => (unreadableRecord i).key := by
    have hsucc : List.range 10001 = List.range 10000 ++ [10000] := List.range_succ
    rw [hsucc, List.map_append, List.map_append, List.map_map]
    rfl
  rw [hkeys]
  exact List.Nodup.map hinj List.nodup_range

/-- An inbox whose first 10,000 records are unreadable. -/
def blockedInbox : DurableInbox where
  inbox := ⟨(List.range 10000).map unreadableRecord ++ [readableRecord], nodup_unreadableRecord⟩
  clock := ({} : RevisionClock).beginGeneration.1

theorem stuckBefore_blockedInbox :
    stuckBefore (fun r => !r.message.isEmpty) (fun _ => true) blockedInbox.inbox readableRecord
      = 10000 := by
  have hordered : orderByThenRow (·.committedAt) blockedInbox.inbox.rows
      = (List.range 10000).map unreadableRecord ++ [readableRecord] := by
    refine orderByThenRow_of_pairwise _ (List.pairwise_append.mpr ⟨?_, by simp, ?_⟩)
    · rw [List.pairwise_map]
      exact List.pairwise_lt_range.imp fun hlt => Int.ofNat_le.mpr (Nat.le_of_lt hlt)
    · intro r hr last hlast
      obtain ⟨i, hi, rfl⟩ := List.mem_map.mp hr
      rw [List.mem_singleton.mp hlast]
      exact Int.ofNat_le.mpr (Nat.le_of_lt (List.mem_range.mp hi))
  have hbefore : ∀ r ∈ (List.range 10000).map unreadableRecord,
      decide (r ≠ readableRecord) = true := by
    intro r hr
    obtain ⟨i, -, rfl⟩ := List.mem_map.mp hr
    refine decide_eq_true fun h => ?_
    have hmessage := congrArg DurableInbound.message h
    cases hmessage
  have hstuck : ∀ r ∈ (List.range 10000).map unreadableRecord,
      stuck (fun r => !r.message.isEmpty) (fun _ => true) r = true := by
    intro r hr
    obtain ⟨i, -, rfl⟩ := List.mem_map.mp hr
    rfl
  rw [stuckBefore, hordered, List.takeWhile_append_of_pos hbefore, List.takeWhile_cons_of_neg
    (by simp), List.append_nil, List.countP_eq_length.mpr hstuck, List.length_map,
    List.length_range]

theorem not_comesTo_blockedInbox :
    ¬ ∀ (decodes accepts : DurableInbound → Bool) (generation : ℕ) (s : DurableInbox)
      (record : DurableInbound), s.Resting generation → record ∈ s.inbox.rows →
      ∃ n, record ∈ s.handled decodes (drains decodes accepts generation n s) := by
  intro h
  have hresting : blockedInbox.Resting 1 := ⟨rfl, rfl, rfl, rfl⟩
  have hrecord : readableRecord ∈ blockedInbox.inbox.rows :=
    List.mem_append_right _ List.mem_cons_self
  obtain ⟨n, hn⟩ := h (fun r => !r.message.isEmpty) (fun _ => true) 1 blockedInbox readableRecord
    hresting hrecord
  exact hresting.not_mem_handled_drains hrecord stuckBefore_blockedInbox.ge n hn

end DurableInbox

end OmarchyWhatsapp
