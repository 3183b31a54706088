import Mathlib.Data.String.Basic
import OmarchyWhatsapp.Outbox.TextOutboxTheorems

/-!
# The order in which texts leave

The worker claims the queued text with the least `created_at`, and of several the one with the
least delivery id. `created_at` counts seconds and the id is chosen by the client, so two texts
that are accepted in one second leave in the order of their ids.
-/

namespace OmarchyWhatsapp

open Relational

variable {plan : QueryPlan}

/-! ## The queue -/

section Queue

variable {t : TextOutbox} {r x : TextOutboxRow}

/-- No queued text comes before the next one. -/
theorem nextText_le (h : nextText plan t = some r) (hx : x ∈ t.rows)
    (hqueued : x.status = .queued) :
    r.createdAt < x.createdAt ∨ (r.createdAt = x.createdAt ∧ r.deliveryId ≤ x.deliveryId) := by
  set queued := t.rows.filter (fun r => r.status = .queued) with hqueuedRows
  set before : TextOutboxRow → TextOutboxRow → Bool := fun a b =>
    decide (a.createdAt < b.createdAt) ||
      (decide (a.createdAt = b.createdAt) && decide (a.deliveryId ≤ b.deliveryId)) with hbefore
  have hiff : ∀ a b, before a b = true ↔
      a.createdAt < b.createdAt ∨ (a.createdAt = b.createdAt ∧ a.deliveryId ≤ b.deliveryId) := by
    intro a b
    simp only [hbefore, Bool.or_eq_true, Bool.and_eq_true, decide_eq_true_eq]
  have hsorted := plan.sorted before (fun a b => ?_) (fun a b c hab hbc => ?_) queued
  · have hmem : x ∈ plan.orderBy before queued :=
      plan.mem_orderBy.mpr (List.mem_filter.mpr ⟨hx, decide_eq_true hqueued⟩)
    obtain ⟨rest, hrows⟩ := List.head?_eq_some_iff.mp h
    change plan.orderBy before queued = r :: rest at hrows
    rw [hrows] at hsorted hmem
    rcases List.mem_cons.mp hmem with rfl | hrest
    · exact Or.inr ⟨rfl, le_refl _⟩
    · exact (hiff r x).mp ((List.pairwise_cons.mp hsorted).1 x hrest)
  · rw [Bool.or_eq_true, hiff, hiff]
    rcases lt_trichotomy a.createdAt b.createdAt with hlt | heq | hgt
    · exact Or.inl (Or.inl hlt)
    · exact (le_total a.deliveryId b.deliveryId).imp (fun hle => Or.inr ⟨heq, hle⟩)
        fun hle => Or.inr ⟨heq.symm, hle⟩
    · exact Or.inr (Or.inl hgt)
  · rw [hiff] at hab hbc ⊢
    rcases hab with hab | ⟨hab, hida⟩ <;> rcases hbc with hbc | ⟨hbc, hidb⟩
    · exact Or.inl (hab.trans hbc)
    · exact Or.inl (hbc ▸ hab)
    · exact Or.inl (hab ▸ hbc)
    · exact Or.inr ⟨hab.trans hbc, hida.trans hidb⟩

/-- There is a next text as long as one is queued. -/
theorem exists_nextText (plan : QueryPlan) (hx : x ∈ t.rows) (hqueued : x.status = .queued) :
    ∃ r, nextText plan t = some r := by
  rcases hnext : nextText plan t with _ | r
  · have hmem : x ∈ t.rows.filter (fun r => r.status = .queued) :=
      List.mem_filter.mpr ⟨hx, decide_eq_true hqueued⟩
    have hempty := List.head?_eq_none_iff.mp hnext
    have hnone : x ∈ [] := hempty ▸ plan.mem_orderBy.mpr hmem
    cases hnone
  · exact ⟨r, rfl⟩

end Queue

namespace TextDelivery

variable {s : TextDelivery} {d : String} {r : TextOutboxRow}

/-- The text gets a row of its own. -/
def Accepts (plan : QueryPlan) (s : TextDelivery) (message : PendingTextMessage)
    (createdAt : ℤ) : Prop :=
  (enqueueTextMessage plan s.outbox message createdAt).toOption.map Prod.snd = some true

instance (s : TextDelivery) (message : PendingTextMessage) (createdAt : ℤ) :
    Decidable (s.Accepts plan message createdAt) := inferInstanceAs (Decidable (_ = _))

theorem accepts_iff {message : PendingTextMessage} {createdAt : ℤ} :
    s.Accepts plan message createdAt ↔ s.outbox.find? message.deliveryId = none := by
  unfold Accepts
  rcases hr : s.outbox.find? message.deliveryId with _ | r
  · rw [enqueueTextMessage_of_new hr]
    simp [Except.toOption]
  · rw [enqueueTextMessage_of_used hr]
    split <;> simp [Except.toOption]

/-- The worker is at its claim, and the claim hands the delivery out. -/
def HandsOut (plan : QueryPlan) (d : String) (s : TextDelivery) : Prop :=
  s.sender = .idle ∧ (claimTextMessage plan s.outbox).2.map (·.deliveryId) = some d

instance : Decidable (HandsOut plan d s) := inferInstanceAs (Decidable (_ ∧ _))

/-- A claim in the run hands the delivery out. -/
def HandedOut (plan : QueryPlan) (d : String) (s : TextDelivery) (steps : List TextStep) : Prop :=
  ∃ l l', steps = l ++ .claim :: l' ∧ HandsOut plan d (run (TextDelivery.step plan) s l)

/-- The user discards the text, or wipes the account. -/
def Withdrawn (d : String) (steps : List TextStep) : Prop :=
  .discard d ∈ steps ∨ .clearAccountData ∈ steps

instance (steps : List TextStep) : Decidable (Withdrawn d steps) :=
  inferInstanceAs (Decidable (_ ∨ _))

theorem HandedOut.append {l : List TextStep} (h : HandedOut plan d s l) (l' : List TextStep) :
    HandedOut plan d s (l ++ l') := by
  obtain ⟨before, after, rfl, hout⟩ := h
  exact ⟨before, after ++ l', by simp, hout⟩

theorem HandedOut.of_run {l l' : List TextStep}
    (h : HandedOut plan d (run (TextDelivery.step plan) s l) l') :
    HandedOut plan d s (l ++ l') := by
  obtain ⟨before, after, rfl, hout⟩ := h
  exact ⟨l ++ before, after, by simp, by rwa [run_append]⟩

/-- A claim of the run is in one part of it. -/
theorem handedOut_append {l l' : List TextStep} (h : HandedOut plan d s (l ++ l')) :
    HandedOut plan d s l ∨ HandedOut plan d (run (TextDelivery.step plan) s l) l' := by
  obtain ⟨before, after, hsplit, hout⟩ := h
  rcases List.append_eq_append_iff.mp hsplit with ⟨m, rfl, hl'⟩ | ⟨m, rfl, hafter⟩
  · refine Or.inr ⟨m, after, hl', ?_⟩
    rwa [run_append] at hout
  · rcases m with _ | ⟨a, m⟩
    · refine Or.inr ⟨[], after, hafter.symm, ?_⟩
      rwa [List.append_nil]
    · obtain ⟨rfl, rfl⟩ := List.cons.inj hafter
      exact Or.inl ⟨before, m, rfl, hout⟩

/-- Accepting a text hands none out. -/
theorem handedOut_enqueue {message : PendingTextMessage} {createdAt : ℤ} {l : List TextStep} :
    HandedOut plan d s (.enqueue message createdAt :: l) ↔
      HandedOut plan d (s.step plan (.enqueue message createdAt)) l := by
  constructor
  · rintro ⟨before, after, hsplit, hout⟩
    rcases before with _ | ⟨a, before⟩
    · cases hsplit
    · obtain ⟨rfl, rfl⟩ := List.cons.inj hsplit
      exact ⟨before, after, rfl, hout⟩
  · rintro ⟨before, after, rfl, hout⟩
    exact ⟨.enqueue message createdAt :: before, after, rfl, hout⟩

theorem handsOut_iff : HandsOut plan d s ↔
    s.sender = .idle ∧ ∃ r, nextText plan s.outbox = some r ∧ r.deliveryId = d := by
  unfold HandsOut
  rcases hnext : nextText plan s.outbox with _ | r
  · rw [claimTextMessage_of_none hnext]
    simp
  · rw [claimTextMessage_of_next hnext]
    simp [TextOutboxRow.pending]

/-! ## Waiting -/

/-- What ends the wait of a queued text. -/
def Departs (plan : QueryPlan) (d : String) (s : TextDelivery) (a : TextStep) : Prop :=
  (a = .claim ∧ HandsOut plan d s) ∨ a = .discard d ∨ a = .clearAccountData

variable (plan) in
/-- A queued text keeps its row as it is until a claim hands it out or it is withdrawn. -/
theorem queued_step (h : s.outbox.find? d = some r) (hqueued : r.status = .queued)
    (a : TextStep) : (s.step plan a).outbox.find? d = some r ∨ Departs plan d s a := by
  have hid : r.deliveryId = d := Table.key_of_find? h
  have hset : ∀ (p : TextOutboxRow → Bool) (status : TextOutboxStatus) (error : Option String),
      p r = false → (setStatus s.outbox p status error).find? d = some r :=
    fun p status error hp => find?_setStatus_of_not h hp status error
  have hdelete : ∀ p : TextOutboxRow → Bool, p r = false →
      (s.outbox.deleteWhere p).find? d = some r := fun p hp => find?_deleteWhere_of_not h hp
  cases a with
  | enqueue message createdAt =>
    refine Or.inl ?_
    rw [outbox_enqueue]
    split
    · refine (find?_acceptedOutbox plan message createdAt h).resolve_right fun hfailed => ?_
      rw [hqueued] at hfailed
      cases hfailed.1
    · exact h
  | claim =>
    by_cases hidle : s.sender = .idle
    · rcases hnext : nextText plan s.outbox with _ | next
      · rw [step_claim_of_none hidle hnext]
        exact Or.inl h
      · by_cases hsame : next.deliveryId = d
        · exact Or.inr (Or.inl ⟨rfl, handsOut_iff.mpr ⟨hidle, next, hnext, hsame⟩⟩)
        · rw [step_claim_of_next hidle hnext]
          exact Or.inl (hset _ _ _ (decide_eq_false fun heq => hsame (heq ▸ hid)))
    · rw [step_claim_of_busy hidle]
      exact Or.inl h
  | networkOk =>
    rw [outbox_networkOk]
    exact Or.inl h
  | networkError error =>
    rw [outbox_networkError]
    exact Or.inl h
  | complete =>
    refine Or.inl ?_
    by_cases hs : ∃ message, s.sender = .succeeded message
    · obtain ⟨message, hs⟩ := hs
      rw [step_complete_of_succeeded hs]
      exact hdelete _ (by rw [hqueued]; simp)
    · rw [step_complete_of_not (not_exists.mp hs)]
      exact h
  | fail =>
    refine Or.inl ?_
    by_cases hs : ∃ message error, s.sender = .refused message error
    · obtain ⟨message, error, hs⟩ := hs
      rw [step_fail_of_refused hs]
      exact hset _ _ _ (by rw [hqueued]; simp)
    · rw [step_fail_of_not fun message error heq => hs ⟨message, error, heq⟩]
      exact h
  | retry deliveryId => exact Or.inl (hset _ _ _ (by rw [hqueued]; simp))
  | discard deliveryId =>
    by_cases hsame : deliveryId = d
    · exact Or.inr (Or.inr (Or.inl (hsame ▸ rfl)))
    · refine Or.inl (hdelete _ ?_)
      rw [hid]
      simp [Ne.symm hsame]
  | retryAll => exact Or.inl (hset _ _ _ (by rw [hqueued]; rfl))
  | reopen => exact Or.inl (hset _ _ _ (by rw [hqueued]; rfl))
  | clearAccountData => exact Or.inr (Or.inr (Or.inr rfl))

variable (plan) in
/-- The same in a run. -/
theorem queued_run (h : s.outbox.find? d = some r) (hqueued : r.status = .queued)
    {steps : List TextStep} (hkept : ¬Withdrawn d steps) :
    (run (TextDelivery.step plan) s steps).outbox.find? d = some r ∨
      HandedOut plan d s steps := by
  rcases run_until (P := fun s => s.outbox.find? d = some r) (E := Departs plan d)
      (fun _ a hs => queued_step plan hs hqueued a) h steps with hrow | ⟨l, a, l', rfl, -, hdeparts⟩
  · exact Or.inl hrow
  · rcases hdeparts with ⟨rfl, hout⟩ | rfl | rfl
    · exact Or.inr ⟨l, l', rfl, hout⟩
    · exact absurd (Or.inl (by simp)) hkept
    · exact absurd (Or.inr (by simp)) hkept

/-! ## The order of two texts -/

variable {first second : PendingTextMessage} {t₁ t₂ : ℤ}

/-- The claim prefers the first text to the second one. -/
def ComesFirst (first second : PendingTextMessage) (t₁ t₂ : ℤ) : Prop :=
  t₁ < t₂ ∨ (t₁ = t₂ ∧ first.deliveryId < second.deliveryId)

/-- The worker does not claim the second text while the first one waits. -/
theorem not_handsOut_second (hbefore : ComesFirst first second t₁ t₂)
    (hfirst : s.outbox.find? first.deliveryId = some (queuedRow first t₁))
    (hsecond : s.outbox.find? second.deliveryId = some (queuedRow second t₂)) :
    ¬HandsOut plan second.deliveryId s := by
  intro hout
  obtain ⟨-, r, hnext, hid⟩ := handsOut_iff.mp hout
  obtain ⟨hr, -⟩ := nextText_eq_some hnext
  rw [hid, hsecond, Option.some.injEq] at hr
  subst hr
  have hle : t₂ < t₁ ∨ (t₂ = t₁ ∧ second.deliveryId ≤ first.deliveryId) :=
    nextText_le hnext (Table.mem_of_find? hfirst) rfl
  rcases hbefore with hlt | ⟨heq, hlt⟩
  · omega
  · rcases hle with hlt' | ⟨-, hle⟩
    · omega
    · exact absurd hlt (not_lt.mpr hle)

/-- Two texts that wait leave in the order of their keys. -/
theorem handedOut_first (hbefore : ComesFirst first second t₁ t₂)
    (hfirst : s.outbox.find? first.deliveryId = some (queuedRow first t₁))
    (hsecond : s.outbox.find? second.deliveryId = some (queuedRow second t₂))
    {after : List TextStep} (hkept₁ : ¬Withdrawn first.deliveryId after)
    (hkept₂ : ¬Withdrawn second.deliveryId after)
    (hout : HandsOut plan second.deliveryId (run (TextDelivery.step plan) s after)) :
    HandedOut plan first.deliveryId s after := by
  have hstep : ∀ (s : TextDelivery) (a : TextStep),
      (s.outbox.find? first.deliveryId = some (queuedRow first t₁) ∧
        s.outbox.find? second.deliveryId = some (queuedRow second t₂)) →
      ((s.step plan a).outbox.find? first.deliveryId = some (queuedRow first t₁) ∧
        (s.step plan a).outbox.find? second.deliveryId = some (queuedRow second t₂)) ∨
      ((a = .claim ∧ HandsOut plan first.deliveryId s) ∨ a = .discard first.deliveryId ∨
        a = .discard second.deliveryId ∨ a = .clearAccountData) := by
    intro s a ⟨h₁, h₂⟩
    rcases queued_step plan h₁ rfl a with h₁' | hout | hdiscard | hclear
    · rcases queued_step plan h₂ rfl a with h₂' | hout | hdiscard | hclear
      · exact Or.inl ⟨h₁', h₂'⟩
      · exact absurd hout.2 (not_handsOut_second hbefore h₁ h₂)
      · exact Or.inr (Or.inr (Or.inr (Or.inl hdiscard)))
      · exact Or.inr (Or.inr (Or.inr (Or.inr hclear)))
    · exact Or.inr (Or.inl hout)
    · exact Or.inr (Or.inr (Or.inl hdiscard))
    · exact Or.inr (Or.inr (Or.inr (Or.inr hclear)))
  rcases run_until hstep ⟨hfirst, hsecond⟩ after with ⟨h₁, h₂⟩ | ⟨l, a, l', rfl, -, hends⟩
  · exact absurd hout (not_handsOut_second hbefore h₁ h₂)
  · rcases hends with ⟨rfl, hfirstOut⟩ | rfl | rfl | rfl
    · exact ⟨l, l', rfl, hfirstOut⟩
    · exact absurd (Or.inl (by simp)) hkept₁
    · exact absurd (Or.inl (by simp)) hkept₂
    · exact absurd (Or.inr (by simp)) hkept₁

/-! ## When the second text overtakes the first one -/

variable (plan) in
/-- Discarding takes no step of the worker and drops the rows that are not being sent. -/
theorem run_discard (ids : List String) (s : TextDelivery) :
    (run (TextDelivery.step plan) s (ids.map .discard)).sender = s.sender ∧
      ∀ x ∈ (run (TextDelivery.step plan) s (ids.map .discard)).outbox.rows,
        x ∈ s.outbox.rows ∧ (x.deliveryId ∈ ids → x.status = .sending) := by
  induction ids generalizing s with
  | nil => exact ⟨rfl, fun x hx => ⟨hx, nofun⟩⟩
  | cons d ids ih =>
    obtain ⟨hsender, hrows⟩ := ih (s.step plan (.discard d))
    refine ⟨hsender, fun x hx => ?_⟩
    obtain ⟨hmem, hsending⟩ := hrows x hx
    obtain ⟨hmem, hkept⟩ := List.mem_filter.mp hmem
    refine ⟨hmem, fun hid => ?_⟩
    rcases List.mem_cons.mp hid with hself | hid
    · rcases hstatus : x.status with _ | _ | _
      · simp [hself, hstatus] at hkept
      · rfl
      · simp [hself, hstatus] at hkept
    · exact hsending hid

/-- The daemon restarts and the user discards every other text. -/
def leaveOnly (first second : PendingTextMessage) (s : TextDelivery) : List TextStep :=
  .reopen :: (((s.outbox.rows.map (·.deliveryId)).filter
    (fun d => d ≠ first.deliveryId && d ≠ second.deliveryId)).map .discard)

theorem mem_leaveOnly {a : TextStep} (h : a ∈ leaveOnly first second s) :
    a = .reopen ∨ ∃ d, a = .discard d ∧ d ≠ first.deliveryId ∧ d ≠ second.deliveryId := by
  rcases List.mem_cons.mp h with rfl | h
  · exact Or.inl rfl
  · obtain ⟨d, hd, rfl⟩ := List.mem_map.mp h
    refine Or.inr ⟨d, rfl, ?_⟩
    simpa using (List.mem_filter.mp hd).2

theorem not_withdrawn_leaveOnly :
    ¬Withdrawn first.deliveryId (leaveOnly first second s) ∧
      ¬Withdrawn second.deliveryId (leaveOnly first second s) := by
  refine ⟨?_, ?_⟩ <;> rintro (h | h)
  all_goals
    rcases mem_leaveOnly h with h | ⟨d, h, hne₁, hne₂⟩
    · cases h
    · first
      | exact absurd (TextStep.discard.inj h).symm hne₁
      | exact absurd (TextStep.discard.inj h).symm hne₂
      | cases h

variable (first second) in
theorem not_handedOut_leaveOnly : ¬HandedOut plan d s (leaveOnly first second s) := by
  rintro ⟨l, l', hsplit, -⟩
  have hmem : .claim ∈ leaveOnly first second s := by
    rw [hsplit]
    simp
  rcases mem_leaveOnly hmem with h | ⟨d, h, -⟩ <;> cases h

/-- With no other text in the outbox, the second text is claimed next. -/
theorem handsOut_leaveOnly (hbefore : ¬ComesFirst first second t₁ t₂)
    (hne : first.deliveryId ≠ second.deliveryId)
    (hfirst : s.outbox.find? first.deliveryId = some (queuedRow first t₁))
    (hsecond : s.outbox.find? second.deliveryId = some (queuedRow second t₂)) :
    HandsOut plan second.deliveryId
      (run (TextDelivery.step plan) s (leaveOnly first second s)) := by
  have hrow₁ := (queued_run plan hfirst rfl not_withdrawn_leaveOnly.1).resolve_right
    (not_handedOut_leaveOnly first second)
  have hrow₂ := (queued_run plan hsecond rfl not_withdrawn_leaveOnly.2).resolve_right
    (not_handedOut_leaveOnly first second)
  obtain ⟨hsender, hrows⟩ := run_discard plan
    ((s.outbox.rows.map (·.deliveryId)).filter
      (fun d => d ≠ first.deliveryId && d ≠ second.deliveryId)) (s.step plan .reopen)
  obtain ⟨r, hnext⟩ := exists_nextText plan (Table.mem_of_find? hrow₂) rfl
  obtain ⟨hr, hqueued⟩ := nextText_eq_some hnext
  refine handsOut_iff.mpr ⟨hsender, r, hnext, ?_⟩
  -- a queued row that was not discarded is one of the two
  have hids : r.deliveryId = first.deliveryId ∨ r.deliveryId = second.deliveryId := by
    by_contra hother
    rw [not_or] at hother
    obtain ⟨hmem, hsending⟩ := hrows r (Table.mem_of_find? hr)
    have hid : r.deliveryId ∈ s.outbox.rows.map (·.deliveryId) := by
      obtain ⟨x, hx, rfl⟩ := List.mem_map.mp hmem
      refine List.mem_map.mpr ⟨x, hx, ?_⟩
      split <;> rfl
    have hstatus := hsending (List.mem_filter.mpr ⟨hid, by simpa using hother⟩)
    rw [hqueued] at hstatus
    cases hstatus
  rcases hids with hid | hid
  · rw [hid, hrow₁, Option.some.injEq] at hr
    subst hr
    have hle : t₁ < t₂ ∨ (t₁ = t₂ ∧ first.deliveryId ≤ second.deliveryId) :=
      nextText_le hnext (Table.mem_of_find? hrow₂) rfl
    exact absurd (hle.imp_right fun h => ⟨h.1, lt_of_le_of_ne h.2 hne⟩) hbefore
  · exact hid

/-- Of two texts that are accepted one after the other, in any run, the second one is never
handed out before the first one if and only if the first one was handed out when the second one
was accepted, or the clock had advanced to another second, or the first id is the lesser one. -/
theorem handedOut_in_order_iff (plan : QueryPlan) (before mid : List TextStep)
    (first second : PendingTextMessage) (t₁ t₂ : ℤ) :
    let s₀ := run (TextDelivery.step plan) {} before
    let s₁ := s₀.step plan (.enqueue first t₁)
    let s₂ := run (TextDelivery.step plan) s₁ mid
    s₀.Accepts plan first t₁ → s₂.Accepts plan second t₂ → t₁ ≤ t₂ →
    ¬Withdrawn first.deliveryId mid →
    ((∀ after, ¬Withdrawn first.deliveryId after → ¬Withdrawn second.deliveryId after →
        HandsOut plan second.deliveryId
          (run (TextDelivery.step plan) s₁ (mid ++ .enqueue second t₂ :: after)) →
        HandedOut plan first.deliveryId s₁ (mid ++ .enqueue second t₂ :: after)) ↔
      HandedOut plan first.deliveryId s₁ mid ∨ t₁ < t₂ ∨
        first.deliveryId < second.deliveryId) := by
  intro s₀ s₁ s₂ haccepts₁ haccepts₂ hclock hkept
  rw [accepts_iff] at haccepts₁ haccepts₂
  have hrow₁ : s₁.outbox.find? first.deliveryId = some (queuedRow first t₁) := by
    rw [outbox_enqueue, if_pos haccepts₁]
    exact find?_acceptedOutbox_self plan t₁ haccepts₁
  set s₃ := s₂.step plan (.enqueue second t₂) with hs₃
  have hrow₂ : s₃.outbox.find? second.deliveryId = some (queuedRow second t₂) := by
    rw [outbox_enqueue, if_pos haccepts₂]
    exact find?_acceptedOutbox_self plan t₂ haccepts₂
  have hrun : ∀ after, run (TextDelivery.step plan) s₁ (mid ++ .enqueue second t₂ :: after)
      = run (TextDelivery.step plan) s₃ after := fun after => by
    rw [run_append, run_cons]
  rcases queued_run plan hrow₁ rfl hkept with hwaits | hout
  · have hne : first.deliveryId ≠ second.deliveryId := by
      intro heq
      rw [← heq, hwaits] at haccepts₂
      cases haccepts₂
    have hwaits₃ : s₃.outbox.find? first.deliveryId = some (queuedRow first t₁) := by
      rcases queued_step plan hwaits rfl (.enqueue second t₂) with h | h | h | h
      · exact h
      · cases h.1
      · cases h
      · cases h
    constructor
    · intro horder
      by_contra hnot
      rw [not_or, not_or] at hnot
      have hlate : ¬ComesFirst first second t₁ t₂ := by
        rintro (hlt | ⟨-, hlt⟩)
        · exact hnot.2.1 hlt
        · exact hnot.2.2 hlt
      have hfirstOut := horder (leaveOnly first second s₃) not_withdrawn_leaveOnly.1
        not_withdrawn_leaveOnly.2
        (by rw [hrun]; exact handsOut_leaveOnly hlate hne hwaits₃ hrow₂)
      rcases handedOut_append hfirstOut with hmid | hafter
      · exact hnot.1 hmid
      · exact not_handedOut_leaveOnly first second (handedOut_enqueue.mp hafter)
    · intro hcond after hkept₁ hkept₂ hsecondOut
      rw [hrun] at hsecondOut
      rcases hcond with hmid | hcond
      · exact hmid.append _
      · have hfirst : ComesFirst first second t₁ t₂ := by
          rcases hclock.lt_or_eq with hlt | heq
          · exact Or.inl hlt
          · exact hcond.imp_right fun hid => ⟨heq, hid⟩
        have hfirstOut := handedOut_first hfirst hwaits₃ hrow₂ hkept₁ hkept₂ hsecondOut
        exact (handedOut_enqueue.mpr hfirstOut).of_run
  · exact ⟨fun _ => Or.inl hout, fun _ after _ _ _ => hout.append _⟩

/-- Two texts that are sent from the command line by processes 99 and 100. -/
theorem handedOut_in_order_iff_command_line :
    HandedOut .stable "ctl-99-1" (TextDelivery.step .stable {} (.enqueue (hiText "ctl-99-1") 10))
      ([.claim, .networkOk] ++ [.enqueue (hiText "ctl-100-2") 10, .complete]) :=
  (handedOut_in_order_iff .stable [] [.claim, .networkOk] (hiText "ctl-99-1")
    (hiText "ctl-100-2") 10 10 (by decide) (by decide) (by decide) (by decide)).mpr
    (Or.inl ⟨[], [.networkOk], rfl, by decide⟩) [.complete] (by decide) (by decide) (by decide)

/-- Accepted in one second, the text of process 100 leaves before that of process 99. -/
theorem claim_overtakes_in_one_second :
    let s₁ := TextDelivery.step .stable {} (.enqueue (hiText "ctl-99-1") 10)
    TextDelivery.Accepts .stable {} (hiText "ctl-99-1") 10 ∧
      s₁.Accepts .stable (hiText "ctl-100-2") 10 ∧
      ¬∀ after, ¬Withdrawn "ctl-99-1" after → ¬Withdrawn "ctl-100-2" after →
        HandsOut .stable "ctl-100-2" (run (TextDelivery.step .stable) s₁
          (.enqueue (hiText "ctl-100-2") 10 :: after)) →
        HandedOut .stable "ctl-99-1" s₁ (.enqueue (hiText "ctl-100-2") 10 :: after) := by
  intro s₁
  refine ⟨by decide, by decide, fun h => ?_⟩
  have hout := h [] (by decide) (by decide) (by decide)
  rw [handedOut_enqueue] at hout
  obtain ⟨l, l', hsplit, -⟩ := hout
  cases l <;> cases hsplit

end TextDelivery

end OmarchyWhatsapp
