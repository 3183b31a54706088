import OmarchyWhatsapp.Relational.Run
import OmarchyWhatsapp.Shell.Drafts

/-!
# How often a draft is accepted

Every send of a draft has a delivery id of its own, so the outbox cannot tell a repeated draft
from a new one: a draft is accepted once for each of its requests that reaches the daemon.
-/

namespace OmarchyWhatsapp

open Relational

namespace DraftSession

variable {plan : QueryPlan} {context : SendContext} {s : DraftSession}

/-! ## Requests for a draft -/

/-- The texts that were accepted or may still be accepted for a draft. -/
def claims (s : DraftSession) (n : ℕ) : ℕ :=
  s.accepted.count n + s.lines.countP (fun x => x.draft = n) +
    s.jobs.countP (fun x => x.draft = n)

theorem claims_congr {s' : DraftSession} (haccepted : s'.accepted = s.accepted)
    (hlines : s'.lines = s.lines) (hjobs : s'.jobs = s.jobs) (n : ℕ) :
    s'.claims n = s.claims n := by
  rw [claims, haccepted, hlines, hjobs, claims]

theorem countP_erase_of_mem {l : List Submission} {x : Submission} (h : x ∈ l)
    (p : Submission → Bool) : (l.erase x).countP p + (if p x then 1 else 0) = l.countP p := by
  rw [(List.perm_cons_erase h).countP_eq, List.countP_cons]

/-- The acknowledgement and the watchdog leave the requests on their way alone. -/
theorem claims_finishTextMessageRequest (id : ℕ) (response : TextResponse) (n : ℕ) :
    (s.finishTextMessageRequest id response).claims n = s.claims n := by
  have haccepted : ∀ (s : DraftSession) (pending : TextMessageRequest),
      (s.textMessageAccepted pending).claims n = s.claims n := by
    intro s pending
    unfold textMessageAccepted
    generalize (if s.draft.replyTarget = pending.replyTarget then none
      else s.draft.replyTarget) = replyTarget
    dsimp only
    split
    · exact claims_congr rfl rfl rfl n
    · split
      · rfl
      · exact claims_congr rfl rfl rfl n
  unfold finishTextMessageRequest
  split
  · rfl
  · split
    · rw [haccepted]
      exact claims_congr rfl rfl rfl n
    · exact claims_congr rfl rfl rfl n

/-- A job that runs is accepted at most once. -/
theorem claims_handleSendMessage_le (x : Submission) (now : ℤ) (n : ℕ) :
    (s.handleSendMessage plan context x now).claims n
      ≤ s.claims n + if x.draft = n then 1 else 0 := by
  have hanswer : ∀ (s : DraftSession) (response : TextResponse),
      (s.answer x response).claims n = s.claims n := fun s response =>
    claims_congr rfl rfl rfl n
  unfold handleSendMessage
  split
  · rw [hanswer]
    omega
  · split
    · rw [hanswer]
      omega
    · rw [hanswer]
      simp only [claims]
      split
      · rw [List.count_append, List.count_singleton]
        simp only [beq_iff_eq]
        omega
      · omega

/-- Sending adds one request for the draft. -/
theorem claims_sendMessage (now : ℕ) (n : ℕ) :
    (s.sendMessage context now).claims n
      ≤ s.claims n + if s.connected = true ∧ s.drafts = n then 1 else 0 := by
  unfold sendMessage
  split
  · omega
  · dsimp only
    split
    · rename_i hconnected
      simp only [claims, List.countP_append, List.countP_singleton, hconnected, true_and,
        decide_eq_true_eq]
      omega
    · exact (claims_congr rfl rfl rfl n).le.trans (Nat.le_add_right _ _)

/-- Only a send adds a request for a draft. -/
theorem claims_step_le {a : DraftStep} (ha : ∀ now, a ≠ .send now) (n : ℕ) :
    (s.step plan context a).claims n ≤ s.claims n := by
  cases a with
  | edit draft => exact le_of_eq (claims_congr rfl rfl rfl n)
  | send now => exact absurd rfl (ha now)
  | read connection =>
    rw [step]
    split
    · rename_i x hx
      have hcount := countP_erase_of_mem (List.mem_of_find?_eq_some hx) (fun x => x.draft = n)
      simp only [claims, List.countP_append, List.countP_singleton] at hcount ⊢
      omega
    · exact le_refl _
  | refuse connection =>
    rw [step]
    split
    · rename_i x hx
      have hcount := countP_erase_of_mem (List.mem_of_find?_eq_some hx) (fun x => x.draft = n)
      simp only [answer, claims] at hcount ⊢
      omega
    · exact le_refl _
  | handle id now =>
    rw [step]
    split
    · rename_i x hx
      have hcount := countP_erase_of_mem (List.mem_of_find?_eq_some hx) (fun x => x.draft = n)
      refine (claims_handleSendMessage_le x now n).trans ?_
      simp only [claims, decide_eq_true_eq] at hcount ⊢
      omega
    · exact le_refl _
  | timeOut id =>
    rw [step]
    split
    · rename_i x hx
      have hcount := countP_erase_of_mem (List.mem_of_find?_eq_some hx) (fun x => x.draft = n)
      simp only [answer, claims] at hcount ⊢
      omega
    · exact le_refl _
  | hangUp connection =>
    have hlines : (s.lines.filter (fun x => x.connection ≠ connection)).countP
        (fun x => x.draft = n) ≤ s.lines.countP (fun x => x.draft = n) :=
      List.filter_sublist.countP_le
    have hjobs : (s.jobs.filter (fun x => x.connection ≠ connection)).countP
        (fun x => x.draft = n) ≤ s.jobs.countP (fun x => x.draft = n) :=
      List.filter_sublist.countP_le
    simp only [step, claims]
    omega
  | receive =>
    rw [step]
    split
    · rw [claims_finishTextMessageRequest]
      exact le_of_eq (claims_congr rfl rfl rfl n)
    · exact le_refl _
  | expire id => exact le_of_eq (claims_finishTextMessageRequest id _ n)
  | newGeneration => exact le_of_eq (claims_congr rfl rfl rfl n)
  | disconnect => exact le_of_eq (claims_congr rfl rfl rfl n)
  | connect => exact le_of_eq (claims_congr rfl rfl rfl n)
  | outbox a => exact le_of_eq (claims_congr rfl rfl rfl n)

/-! ## Safe repetition -/

/-- The user sends a draft only when no request for it was accepted, is on its way or is being
handled. A send without a connection writes nothing. -/
def RepeatsSafely (s : DraftSession) (a : DraftStep) : Prop :=
  a.isSend = true → s.connected = true →
    s.drafts ∉ s.accepted ∧ ∀ x ∈ s.lines ++ s.jobs, x.draft ≠ s.drafts

instance (s : DraftSession) (a : DraftStep) : Decidable (RepeatsSafely s a) :=
  inferInstanceAs (Decidable (_ → _ → _))

theorem claims_eq_zero {n : ℕ} (haccepted : n ∉ s.accepted)
    (hpending : ∀ x ∈ s.lines ++ s.jobs, x.draft ≠ n) : s.claims n = 0 := by
  have hlines : s.lines.countP (fun x => x.draft = n) = 0 :=
    List.countP_eq_zero.mpr fun x hx => by
      simpa using hpending x (List.mem_append_left _ hx)
  have hjobs : s.jobs.countP (fun x => x.draft = n) = 0 :=
    List.countP_eq_zero.mpr fun x hx => by
      simpa using hpending x (List.mem_append_right _ hx)
  rw [claims, List.count_eq_zero.mpr haccepted, hlines, hjobs]

theorem claims_step_le_one (h : ∀ n, s.claims n ≤ 1) {a : DraftStep} (ha : RepeatsSafely s a)
    (n : ℕ) : (s.step plan context a).claims n ≤ 1 := by
  by_cases hsend : ∃ now, a = .send now
  · obtain ⟨now, rfl⟩ := hsend
    have hadds : (s.step plan context (.send now)).claims n
        ≤ s.claims n + if s.connected = true ∧ s.drafts = n then 1 else 0 :=
      claims_sendMessage now n
    by_cases hnew : s.connected = true ∧ s.drafts = n
    · obtain ⟨haccepted, hpending⟩ := ha rfl hnew.1
      have hzero := claims_eq_zero haccepted hpending
      rw [if_pos hnew, ← hnew.2, hzero] at hadds
      exact hnew.2 ▸ hadds
    · rw [if_neg hnew] at hadds
      exact hadds.trans (h n)
  · exact (claims_step_le (not_exists.mp hsend) n).trans (h n)

/-- In every run in which no draft is repeated while a request for it may still be accepted or
was accepted, the outbox accepts each draft at most once. -/
theorem accepted_nodup_of_guarded (plan : QueryPlan) (context : SendContext) (draft : Draft)
    (steps : List DraftStep)
    (hg : Guarded (DraftSession.step plan context) RepeatsSafely { draft } steps) :
    ∀ s ∈ states (DraftSession.step plan context) { draft } steps, s.accepted.Nodup := by
  intro s hs
  have hclaims : ∀ n, s.claims n ≤ 1 :=
    invariant_states (I := fun s => ∀ n, s.claims n ≤ 1)
      (fun _ _ h ha => claims_step_le_one h ha) (fun n => Nat.zero_le 1) hg s hs
  refine List.nodup_iff_count_le_one.mpr fun n => ?_
  have hn := hclaims n
  unfold claims at hn
  omega

/-- A context for plain texts under the first two ids. -/
def plainContext : SendContext where
  composeMentions text _ := (text, [])
  parseJid jid := .ok jid
  validateMentions _ _ mentions := .ok mentions
  resolveReply _ _ := .ok none
  stableMessageId deliveryId :=
    if deliveryId = "qml-1000-1" then "3EB0970F638E6BC6881485BE" else "3EB03781F15078D357DBB85E"

/-- The draft `hi` to a direct chat. -/
def hiDraft : Draft := { chatJid := "1@s.whatsapp.net", text := "hi" }

/-- The connection is lost before the daemon reads the request, and the draft is sent again. -/
theorem accepted_nodup_of_guarded_lost_request :
    (run (DraftSession.step .stable plainContext) { draft := hiDraft }
      [.connect, .send 1000, .disconnect, .hangUp 1, .connect, .send 2000, .read 2,
        .handle 2 11, .receive]).accepted.Nodup :=
  accepted_nodup_of_guarded .stable plainContext hiDraft _ (by decide) _ (run_mem_states _ _ _)

/-- The connection is lost after the daemon accepted the draft: sent again, the draft is accepted
again. -/
theorem lost_acknowledgement_accepts_twice :
    ¬∀ s ∈ states (DraftSession.step .stable plainContext) { draft := hiDraft }
      [.connect, .send 1000, .read 1, .handle 1 10, .disconnect, .hangUp 1, .connect,
        .send 2000, .read 2, .handle 2 11], s.accepted.Nodup := by
  intro h
  exact absurd (h _ (run_mem_states _ _ _)) (by decide)

end DraftSession

end OmarchyWhatsapp
