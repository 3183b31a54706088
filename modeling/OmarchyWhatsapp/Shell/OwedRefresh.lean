import OmarchyWhatsapp.Relational.Run
import OmarchyWhatsapp.Shell.MessageRequestTheorems

/-!
# Refreshes that are owed

The messages of the selected chat have to be asked for while they are not shown, and after each
event that may have changed them. The request that will bring them is on its way or queued, except
where an answer under another jid, a newer generation or a frame that is turned away lets the
shell forget about it.
-/

namespace OmarchyWhatsapp

open Relational MessageService

def isMessages : ServerEvent → Bool
  | .messages _ => true
  | _ => false

/-! ## What is owed -/

structure MessageWatch where
  shell : MessageService := {}
  /-- For a chat, the number of the next request when its last event arrived. -/
  noticed : String → ℕ := fun _ => 0
  /-- For a chat, the newest of its requests that were answered. -/
  answered : String → ℕ := fun _ => 0

inductive MessageStep where
  | connect
  | disconnect
  | receive (frame : ServerFrame)
  | selectChat (jid : String)
  | showPanel (visible : Bool)
  | refresh
  | send (command : ClientCommand)
  | expireRequest (id : ℕ)

namespace MessageWatch

/-- An event arrives, whatever the shell does with it. -/
def notice (s : MessageWatch) (frame : ServerFrame) : String → ℕ :=
  Function.update s.noticed (changedChat frame.event) s.shell.nextRequestId

/-- A `get_messages` is answered, and the answer is not stale. -/
def answer (s : MessageWatch) (frame : ServerFrame) : String → ℕ :=
  let jid := s.shell.asked frame.id
  if s.shell.protocolCompatible && (s.shell.acceptFrame frame).2 && isMessages frame.event then
    Function.update s.answered jid (max (s.answered jid) (frame.id.getD 0))
  else s.answered

def step (s : MessageWatch) : MessageStep → MessageWatch
  | .connect => { s with shell := s.shell.connect }
  | .disconnect => { s with shell := s.shell.disconnect }
  | .receive frame =>
    { shell := s.shell.handleLine frame, noticed := s.notice frame, answered := s.answer frame }
  | .selectChat jid => { s with shell := s.shell.selectChat jid }
  | .showPanel visible => { s with shell := { s.shell with panelVisible := visible } }
  | .refresh => { s with shell := s.shell.refresh }
  | .send command => { s with shell := s.shell.send command }
  | .expireRequest id => { s with shell := s.shell.expireRequest id }

def selected (s : MessageWatch) : String := s.shell.selectedChatJid

/-- The messages of the selected chat are not shown, or an event of it arrived since the last
answered request for them was sent. -/
def Owed (s : MessageWatch) : Prop :=
  s.shell.messagesChatJid ≠ s.selected ∨ s.answered s.selected < s.noticed s.selected

/-- A request is on its way, sent after the last event or with another one queued behind it. -/
def Outstanding (s : MessageWatch) : Prop :=
  (s.shell.flight s.selected).Covers (s.noticed s.selected)

/-- What is owed to a selected chat is outstanding. -/
def OwedIsOutstanding (s : MessageWatch) : Prop :=
  s.shell.linked = true → s.selected ≠ "" → s.Owed → s.Outstanding

/-! ## What lets a refresh get lost -/

/-- What is owed once a frame that is no event of the chat has come. -/
def OwedAfter (s : MessageWatch) (frame : ServerFrame) : Prop :=
  (s.shell.messagesChatJid ≠ s.selected ∧ frame.event ≠ .messages s.selected) ∨
    s.answer frame s.selected < s.noticed s.selected

/-- An accepted frame makes the shell forget the request: a newer generation, or an answer that is
not the messages of the chat and has nothing queued behind it. -/
def Forgets (s : MessageWatch) (frame : ServerFrame) : Prop :=
  s.shell.daemonGeneration < frame.generation ∨
    (s.shell.asked frame.id = s.selected ∧ frame.event ≠ .messages s.selected ∧
      s.shell.messagesQueuedRequests s.selected = false)

/-- The request for a chat was sent after its last event, or another one is queued behind it. -/
def UpToDate (s : MessageWatch) (jid : String) : Prop :=
  (s.shell.flight jid).Fresh (s.noticed jid)

structure Heeded (s : MessageWatch) (frame : ServerFrame) : Prop where
  /-- Nothing is owed after a frame that makes the shell forget the request. -/
  accepted : (s.shell.acceptFrame frame).2 = true → changedChat frame.event ≠ s.selected →
    s.Forgets frame → ¬s.OwedAfter frame
  /-- An event of the chat is turned away only when a request is queued anyway. -/
  turnedAway : (s.shell.acceptFrame frame).2 = false → changedChat frame.event = s.selected →
    s.shell.asked frame.id ≠ s.selected → s.shell.messagesQueuedRequests s.selected = true

def Undisturbed (s : MessageWatch) : MessageStep → Prop
  | .receive frame =>
    (frame.event = .hello protocolVersion → frame.generation ≤ s.shell.daemonGeneration →
        s.UpToDate s.selected) ∧
      (isHello frame.event = false → s.shell.linked = true → s.selected ≠ "" → s.Heeded frame)
  | .selectChat jid => jid ≠ s.selected → s.UpToDate jid
  | .expireRequest id =>
    s.shell.linked = true → s.selected ≠ "" → s.shell.messagesRequestJids id = s.selected →
      s.shell.messagesQueuedRequests s.selected = false → ¬s.Owed
  | _ => True

section Decidable

variable (s : MessageWatch) (frame : ServerFrame)

instance : Decidable s.Owed := inferInstanceAs (Decidable (_ ∨ _))

instance : Decidable s.Outstanding := inferInstanceAs (Decidable (Flight.Covers _ _))

instance : Decidable s.OwedIsOutstanding := inferInstanceAs (Decidable (_ → _ → _ → _))

instance : Decidable (s.OwedAfter frame) := inferInstanceAs (Decidable (_ ∨ _))

instance : Decidable (s.Forgets frame) := inferInstanceAs (Decidable (_ ∨ _))

instance (jid : String) : Decidable (s.UpToDate jid) := inferInstanceAs (Decidable (Flight.Fresh _ _))

instance : Decidable (s.Heeded frame) :=
  decidable_of_iff (((s.shell.acceptFrame frame).2 = true → changedChat frame.event ≠ s.selected →
      s.Forgets frame → ¬s.OwedAfter frame) ∧
    ((s.shell.acceptFrame frame).2 = false → changedChat frame.event = s.selected →
      s.shell.asked frame.id ≠ s.selected → s.shell.messagesQueuedRequests s.selected = true))
    ⟨fun h => ⟨h.1, h.2⟩, fun h => ⟨h.accepted, h.turnedAway⟩⟩

instance : (a : MessageStep) → Decidable (s.Undisturbed a)
  | .receive _ => inferInstanceAs (Decidable (_ ∧ _))
  | .selectChat _ => inferInstanceAs (Decidable (_ → _))
  | .expireRequest _ => inferInstanceAs (Decidable (_ → _ → _ → _ → _))
  | .connect | .disconnect | .showPanel _ | .refresh | .send _ => isTrue trivial

end Decidable

/-! ## What a step keeps -/

/-- Nothing was missed, and what is owed has a request on its way. -/
def Attended (s : MessageWatch) : Prop :=
  s.UpToDate s.selected ∧ (s.Owed → (s.shell.flight s.selected).pending ≠ 0)

theorem Outstanding.attended {s : MessageWatch} (h : s.Outstanding) : s.Attended :=
  ⟨h.fresh, fun _ => h.1⟩

structure Sound (s : MessageWatch) : Prop where
  tidy : s.shell.Tidy
  noticed_le : ∀ jid, s.noticed jid ≤ s.shell.nextRequestId
  attended : s.shell.linked = true → s.selected ≠ "" → s.Attended

theorem Sound.owedIsOutstanding {s : MessageWatch} (h : s.Sound) : s.OwedIsOutstanding := by
  intro hlinked hselected howed
  obtain ⟨hupToDate, hpending⟩ := h.attended hlinked hselected
  exact hupToDate.covers (hpending howed)

section Receive

variable {s : MessageWatch} {frame : ServerFrame}

theorem notice_of_ne {jid : String} (hother : changedChat frame.event ≠ jid) :
    s.notice frame jid = s.noticed jid := Function.update_of_ne hother.symm _ _

theorem Sound.notice_le (h : s.Sound) (jid : String) :
    s.notice frame jid ≤ s.shell.nextRequestId := by
  by_cases hchanged : jid = changedChat frame.event
  · rw [notice, hchanged, Function.update_self]
  · rw [notice_of_ne (Ne.symm hchanged)]
    exact h.noticed_le jid

theorem answered_le_answer (s : MessageWatch) (frame : ServerFrame) (jid : String) :
    s.answered jid ≤ s.answer frame jid := by
  unfold answer
  split
  · by_cases hasked : jid = s.shell.asked frame.id
    · rw [hasked, Function.update_self]
      exact le_max_left _ _
    · rw [Function.update_of_ne hasked]
  · exact le_rfl

/-- The answer to a request after which nothing happened settles what is owed. -/
theorem Sound.settled (h : s.Sound) (hupToDate : s.UpToDate s.selected) (hselected : s.selected ≠ "")
    (hlinked : s.shell.linked = true) (haccepted : (s.shell.acceptFrame frame).2 = true)
    (hasked : s.shell.asked frame.id = s.selected) (hevent : frame.event = .messages s.selected)
    (hqueued : s.shell.messagesQueuedRequests s.selected = false) : ¬s.OwedAfter frame := by
  rintro (⟨-, hother⟩ | howed)
  · exact hother hevent
  obtain ⟨id, hid⟩ : ∃ id, frame.id = some id := by
    cases hid : frame.id with
    | none => exact absurd (by rw [← hasked, hid]; rfl) hselected
    | some id => exact ⟨id, rfl⟩
  have hjid : s.shell.messagesRequestJids id = s.selected := by rw [← hasked, hid]; rfl
  obtain ⟨hpositive, hpending⟩ := h.tidy.asked id (by rwa [hjid])
  rw [hjid] at hpending
  have hcompatible : s.shell.protocolCompatible = true := (Bool.and_eq_true _ _ ▸ hlinked).2
  have hanswer : s.answer frame s.selected = max (s.answered s.selected) id := by
    unfold answer
    rw [hasked, hcompatible, haccepted, hevent, hid]
    simp [isMessages]
  have hsince : s.noticed s.selected ≤ id := by
    have hfresh := hupToDate (show s.shell.messagesRequestIds s.selected ≠ 0 by rwa [hpending])
    rcases hfresh with hbehind | hsince
    · exact absurd hbehind (by simp [flight, hqueued])
    · exact hsince.trans_eq hpending
  omega

/-- A frame that answers another request settles nothing that was owed before, and owes nothing
either. -/
theorem owed_of_owedAfter (hasked : s.shell.asked frame.id ≠ s.selected) (h : s.OwedAfter frame) :
    s.Owed := by
  refine h.imp And.left fun howed => ?_
  unfold answer at howed
  split at howed
  · rwa [Function.update_of_ne (Ne.symm hasked)] at howed
  · exact howed

/-- A shell in which a request covers the last event of the selected chat. -/
theorem attended_of_covers {shell : MessageService} {noticed answered : String → ℕ} {jid : String}
    (hselected : shell.selectedChatJid = jid) (hcovers : (shell.flight jid).Covers (noticed jid)) :
    Attended ⟨shell, noticed, answered⟩ := by
  subst hselected
  exact Outstanding.attended hcovers

/-- What is owed once the event of an accepted frame is handled. -/
theorem owedAfter_of_owed {shell : MessageService} (hselected : shell.selectedChatJid = s.selected)
    (hchanged : changedChat frame.event ≠ s.selected)
    (hshows : shell.messagesChatJid = s.shell.messagesChatJid ∧ frame.event ≠ .messages s.selected ∨
      frame.event = .messages s.selected ∧ shell.messagesChatJid = s.selected)
    (howed : Owed ⟨shell, s.notice frame, s.answer frame⟩) : s.OwedAfter frame := by
  have howed : shell.messagesChatJid ≠ shell.selectedChatJid ∨
      s.answer frame shell.selectedChatJid < s.notice frame shell.selectedChatJid := howed
  rw [hselected, notice_of_ne hchanged] at howed
  refine howed.imp_left fun hnotShown => ?_
  rcases hshows with ⟨hkept, hevent⟩ | ⟨-, hnow⟩
  · exact ⟨hkept ▸ hnotShown, hevent⟩
  · exact absurd hnow hnotShown

/-- A shell that has not asked again. -/
theorem attended_of_fresh {shell : MessageService} (hselected : shell.selectedChatJid = s.selected)
    (hchanged : changedChat frame.event ≠ s.selected)
    (hfresh : (shell.flight s.selected).Fresh (s.noticed s.selected))
    (hpending : Owed ⟨shell, s.notice frame, s.answer frame⟩ →
      (shell.flight s.selected).pending ≠ 0) :
    Attended ⟨shell, s.notice frame, s.answer frame⟩ := by
  rw [← notice_of_ne hchanged] at hfresh
  rw [← hselected] at hfresh hpending
  exact ⟨hfresh, hpending⟩

theorem Sound.accepted (h : s.Sound) (hlinked : s.shell.linked = true) (hselected : s.selected ≠ "")
    (hheeded : s.Heeded frame) (haccepted : (s.shell.acceptFrame frame).2 = true) :
    Attended { shell := (s.shell.acceptFrame frame).1.handleAccepted frame,
               noticed := s.notice frame, answered := s.answer frame } := by
  obtain ⟨hupToDate, hpending⟩ := h.attended hlinked hselected
  -- the frame is accepted, and ends the requests that it answers
  have hcases := accept_finish_cases h.tidy frame hselected (Service.isError frame.event)
  have htidy : ((s.shell.acceptFrame frame).1.finishRequests frame.id
    (Service.isError frame.event)).1.Tidy := (h.tidy.accept frame).finishRequests
  obtain ⟨hfinish, hshown⟩ := continues_finishRequests (s.shell.acceptFrame frame).1 frame.id
    (Service.isError frame.event)
  have hfinished := (continues_accept s.shell frame).trans hfinish
  rw [shown_accept] at hshown
  unfold handleAccepted
  dsimp only at hcases ⊢
  generalize (s.shell.acceptFrame frame).1.finishRequests frame.id
    (Service.isError frame.event) = finished at *
  have hsame : finished.1.selectedChatJid = s.selected := hfinished.selected
  have hlinked' : finished.1.linked = true := hfinished.linked.trans hlinked
  have hnotice : s.notice frame s.selected ≤ finished.1.nextRequestId :=
    (h.notice_le _).trans hfinished.sent
  have hsome : finished.1.selectedChatJid ≠ "" := by rwa [hsame]
  by_cases hchanged : changedChat frame.event = s.selected
  · -- an event of the chat asks for its messages, or queues behind a request
    rw [handleEvent_of_changed hsome (hchanged.trans hsame.symm), hsame]
    obtain ⟨hask, -⟩ := continues_requestMessages finished.1 s.selected true
    have hasked := covers_requestMessages htidy hlinked' hselected hnotice (Or.inl rfl)
    refine attended_of_covers ?_ (covers_askAgain (htidy.requestMessages hsome)
      (hask.linked.trans hlinked') hselected (hnotice.trans hask.sent) hasked _)
    rw [(continues_askAgain _ _).1.selected, hask.selected, hsame]
  have hother : changedChat frame.event ≠ finished.1.selectedChatJid := by rwa [hsame]
  obtain ⟨hhandled, htables, hshows⟩ := handleEvent_of_unchanged hsome hother
  have hturned := hhandled.selected.trans hsame
  by_cases hagain : finished.2 = s.selected
  · -- the answer of the chat, with a request queued behind it
    have hended : finished.1.flight s.selected = {} := by
      rcases hcases with ⟨-, -, hother⟩ | ⟨-, hended, -⟩ | ⟨-, -, hother⟩
      · exact absurd hagain hother
      · exact hended
      · exact absurd hagain hother
    rw [hagain, askAgain_selected hselected hturned.symm]
    refine attended_of_covers ((continues_requestMessages _ _ _).1.selected.trans hturned) ?_
    refine covers_requestMessages (htables.tidy htidy hhandled) (hhandled.linked.trans hlinked')
      hselected (hnotice.trans hhandled.sent) (Or.inr ?_)
    rw [htables.flight, hended]
    exact Flight.fresh_of_idle rfl
  · rw [askAgain_of_ne (by rwa [hturned])]
    rw [hsame, hshown] at hshows
    refine attended_of_fresh hturned hchanged ?_ (fun howed => ?_)
    all_goals rw [htables.flight]
    · rcases hcases with ⟨-, hended, -⟩ | ⟨-, hended, -⟩ | ⟨-, hkept, -⟩
      · exact hended ▸ Flight.fresh_of_idle rfl
      · exact hended ▸ Flight.fresh_of_idle rfl
      · rwa [hkept]
    · have hafter := owedAfter_of_owed hturned hchanged hshows howed
      rcases hcases with ⟨hnewer, -⟩ | ⟨hasked, -, ⟨-, hqueued⟩ | ⟨hqueued, -⟩⟩ | ⟨hasked, hkept, -⟩
      · exact absurd hafter (hheeded.accepted haccepted hchanged (Or.inl hnewer))
      · exact absurd hqueued hagain
      · refine absurd hafter ?_
        by_cases hevent : frame.event = .messages s.selected
        · exact h.settled hupToDate hselected hlinked haccepted hasked hevent hqueued
        · exact hheeded.accepted haccepted hchanged (Or.inr ⟨hasked, hevent, hqueued⟩)
      · rw [hkept]
        exact hpending (owed_of_owedAfter hasked hafter)

/-- The request of the chat goes on when a frame is turned away that does not answer it. -/
theorem Sound.undisturbed (h : s.Sound) (hlinked : s.shell.linked = true)
    (hselected : s.selected ≠ "") (hheeded : s.Heeded frame)
    (haccepted : (s.shell.acceptFrame frame).2 = false) (hasked : s.shell.asked frame.id ≠ s.selected)
    {shell : MessageService} (hsame : shell.selectedChatJid = s.selected)
    (hshown : shell.messagesChatJid = s.shell.messagesChatJid)
    (hflight : shell.flight s.selected = s.shell.flight s.selected) :
    Attended ⟨shell, s.notice frame, s.answer frame⟩ := by
  obtain ⟨hupToDate, hpending⟩ := h.attended hlinked hselected
  by_cases hchanged : changedChat frame.event = s.selected
  · have hqueued := hheeded.turnedAway haccepted hchanged hasked
    refine attended_of_covers hsame ?_
    rw [hflight]
    exact ⟨h.tidy.queued _ hqueued, Or.inl hqueued⟩
  · refine attended_of_fresh hsame hchanged (by rwa [hflight]) (fun howed => ?_)
    rw [hflight]
    refine hpending ?_
    have hanswer : s.answer frame = s.answered := by simp [answer, haccepted]
    have howed : shell.messagesChatJid ≠ shell.selectedChatJid ∨
        s.answer frame shell.selectedChatJid < s.notice frame shell.selectedChatJid := howed
    rwa [hsame, hshown, hanswer, notice_of_ne hchanged] at howed

/-- A frame that is turned away. -/
theorem Sound.turnedAway (h : s.Sound) (hlinked : s.shell.linked = true)
    (hselected : s.selected ≠ "") (hheeded : s.Heeded frame)
    (haccepted : (s.shell.acceptFrame frame).2 = false) :
    Attended { shell := frame.id.elim (s.shell.acceptFrame frame).1
                 ((s.shell.acceptFrame frame).1.finishStaleResponse frame),
               noticed := s.notice frame, answered := s.answer frame } := by
  have hnewer : ¬s.shell.daemonGeneration < frame.generation := fun hnewer => by
    rw [show (s.shell.acceptFrame frame).2 = true from acceptFrame_newer hnewer] at haccepted
    cases haccepted
  have hcontinues := continues_accept s.shell frame
  have htables := sameRequests_accept hnewer
  have hasked : (s.shell.acceptFrame frame).1.asked frame.id = s.shell.asked frame.id := by
    rw [asked, asked, htables.jids]
  cases hid : frame.id with
  | none =>
    refine h.undisturbed hlinked hselected hheeded haccepted ?_ hcontinues.selected
      (shown_accept _ _) (htables.flight _)
    rw [hid]
    exact hselected.symm
  | some id =>
    have hjid : (s.shell.acceptFrame frame).1.messagesRequestJids id = s.shell.asked frame.id := by
      rw [htables.jids, hid]
      rfl
    have htidy : ((s.shell.acceptFrame frame).1.finishRequests frame.id
      (Service.isError frame.event)).1.Tidy := (h.tidy.accept frame).finishRequests
    obtain ⟨hfinish, hshown⟩ := continues_finishRequests (s.shell.acceptFrame frame).1 frame.id
      (Service.isError frame.event)
    have hfinished := hcontinues.trans hfinish
    show Attended ⟨(s.shell.acceptFrame frame).1.finishStaleResponse frame id, _, _⟩
    unfold finishStaleResponse
    rw [hjid]
    by_cases hown : s.shell.asked frame.id = s.selected
    · -- the stale answer of the chat is asked for again
      have hended := (flight_finishRequests frame.id (Service.isError frame.event)
        (h.tidy.accept frame) (by rwa [hasked, hown])).1
      rw [hasked, hown] at hended
      rw [hown, askAgain_selected hselected hfinished.selected.symm]
      refine attended_of_covers ((continues_requestMessages _ _ _).1.selected.trans
        hfinished.selected) ?_
      refine covers_requestMessages htidy (hfinished.linked.trans hlinked) hselected
        ((h.notice_le _).trans hfinished.sent) (Or.inr ?_)
      exact hended ▸ Flight.fresh_of_idle rfl
    · rw [askAgain_of_ne (by rwa [hfinished.selected])]
      refine h.undisturbed hlinked hselected hheeded haccepted hown hfinished.selected
        (hshown.trans (shown_accept _ _)) ?_
      rw [flight_finishRequests_of_ne (by rw [hasked]; exact Ne.symm hown), htables.flight]

end Receive

/-- A refresh asks for the messages of the selected chat. -/
theorem attended_refresh {shell : MessageService} {noticed answered : String → ℕ} (h : shell.Tidy)
    (hlinked : shell.linked = true) (hselected : shell.selectedChatJid ≠ "")
    (hnoticed : noticed shell.selectedChatJid ≤ shell.nextRequestId)
    (hfresh : (shell.flight shell.selectedChatJid).Fresh (noticed shell.selectedChatJid)) :
    Attended ⟨shell.refresh, noticed, answered⟩ := by
  have hcontinues := continues_refreshMetadata shell.toService
  have hsame : SameRequests shell { shell with toService := shell.toService.refreshMetadata } :=
    ⟨rfl, rfl, rfl⟩
  have hasks : shell.refresh = { shell with toService := shell.toService.refreshMetadata
      }.requestMessages shell.selectedChatJid false := by
    unfold refresh
    dsimp only
    rw [hcontinues.selected]
  rw [hasks]
  refine attended_of_covers
    ((continues_requestMessages _ _ _).1.selected.trans hcontinues.selected) ?_
  refine covers_requestMessages (hsame.tidy h hcontinues) ?_ hselected
    (hnoticed.trans hcontinues.sent) (Or.inr ?_)
  · have hlinked' : MessageService.linked { shell with toService := shell.toService.refreshMetadata }
        = shell.linked := hcontinues.linked
    exact hlinked'.trans hlinked
  · rwa [hsame.flight]

/-- Whatever leaves the selected chat and its request alone. -/
theorem Attended.of_same {s s' : MessageWatch} (h : s.Attended) (hselected : s'.selected = s.selected)
    (hshown : s'.shell.messagesChatJid = s.shell.messagesChatJid)
    (hflight : s'.shell.flight s.selected = s.shell.flight s.selected)
    (hnoticed : s'.noticed s.selected = s.noticed s.selected)
    (hanswered : s'.answered s.selected = s.answered s.selected) : s'.Attended := by
  unfold Attended UpToDate Owed
  rw [hselected, hshown, hflight, hnoticed, hanswered]
  exact h

/-! ## One step -/

section Step

variable {s : MessageWatch} {frame : ServerFrame}

/-- The first chat of the list is selected, and asked for. -/
theorem Sound.accepted_unselected (h : s.Sound) (hlinked : s.shell.linked = true)
    (hselected : s.selected = "")
    (hturned : ((s.shell.acceptFrame frame).1.handleAccepted frame).selectedChatJid ≠ "") :
    Attended { shell := (s.shell.acceptFrame frame).1.handleAccepted frame,
               noticed := s.notice frame, answered := s.answer frame } := by
  have htidy : ((s.shell.acceptFrame frame).1.finishRequests frame.id
    (Service.isError frame.event)).1.Tidy := (h.tidy.accept frame).finishRequests
  obtain ⟨hfinish, -⟩ := continues_finishRequests (s.shell.acceptFrame frame).1 frame.id
    (Service.isError frame.event)
  have hfinished := (continues_accept s.shell frame).trans hfinish
  have hagain (again : MessageService) (jid : String) :=
    (continues_askAgain again jid).1.selected
  unfold handleAccepted at hturned ⊢
  dsimp only at hturned ⊢
  rw [hagain] at hturned
  generalize (s.shell.acceptFrame frame).1.finishRequests frame.id
    (Service.isError frame.event) = finished at *
  have hnone : finished.1.selectedChatJid = "" := hfinished.selected.trans hselected
  rcases handleEvent_cases finished.1 frame.event with ⟨-, hasks⟩ | ⟨-, chats, jid, hturns⟩ |
    ⟨-, hcontinues, -⟩
  · rw [hasks, hnone, requestMessages_none] at hturned
    exact absurd hnone hturned
  · -- while no chat was selected no request was sent
    rw [hturns] at hturned ⊢
    have hlisted : Tidy { finished.1 with chats := chats } :=
      ⟨htidy.positive, htidy.asked, htidy.queued, htidy.unselected⟩
    have hlinked' : finished.1.linked = true := hfinished.linked.trans hlinked
    have hjid : jid ≠ "" := by
      rintro rfl
      exact hturned hnone
    have hidle : finished.1.messagesRequestIds jid = 0 := htidy.unselected hnone jid
    have hnotice : s.notice frame jid ≤ finished.1.nextRequestId :=
      (h.notice_le jid).trans hfinished.sent
    obtain ⟨hselects, hcovers⟩ := covers_selectChat hlisted hlinked' hjid
      hnotice (hjid.trans_eq hnone.symm) (Flight.fresh_of_idle hidle)
    obtain ⟨hlink, hsent⟩ := linked_selectChat { finished.1 with chats := chats } jid
    exact attended_of_covers ((hagain _ _).trans hselects)
      (covers_askAgain (hlisted.selectChat jid) (hlink.trans hlinked') hjid
        (hnotice.trans hsent) hcovers _)
  · exact absurd (hcontinues.selected.trans hnone) hturned

theorem Sound.received_hello (h : s.Sound) {version : ℕ} (hevent : frame.event = .hello version)
    (ha : s.Undisturbed (.receive frame)) : (s.step (.receive frame)).shell.linked = true →
      (s.step (.receive frame)).selected ≠ "" → (s.step (.receive frame)).Attended := by
  intro hlinked' hselected'
  have hchanged : ∀ jid, jid ≠ "" → s.notice frame jid = s.noticed jid := fun jid hjid =>
    notice_of_ne (by rw [hevent]; exact hjid.symm)
  have hanswer : s.answer frame = s.answered := by simp [answer, hevent, isMessages]
  have hline : s.shell.handleLine frame = if (s.shell.acceptFrame frame).2 then
      (s.shell.acceptFrame frame).1.handleHello version else (s.shell.acceptFrame frame).1 := by
    unfold handleLine
    rw [hevent]
  have haccept := continues_accept s.shell frame
  show Attended ⟨s.shell.handleLine frame, s.notice frame, s.answer frame⟩
  have hlinked' : (s.shell.handleLine frame).linked = true := hlinked'
  have hselected' : (s.shell.handleLine frame).selectedChatJid ≠ "" := hselected'
  rw [hline] at hlinked' hselected' ⊢
  cases haccepted : (s.shell.acceptFrame frame).2 with
  | false =>
    rw [haccepted, if_neg Bool.false_ne_true] at hlinked' hselected'
    rw [if_neg Bool.false_ne_true]
    have hnewer : ¬s.shell.daemonGeneration < frame.generation := fun hnewer => by
      rw [show (s.shell.acceptFrame frame).2 = true from acceptFrame_newer hnewer] at haccepted
      cases haccepted
    have hselected : s.selected ≠ "" := haccept.selected.symm.trans_ne hselected'
    exact (h.attended (haccept.linked.symm.trans hlinked') hselected).of_same haccept.selected
      (shown_accept _ _) ((sameRequests_accept hnewer).flight _) (hchanged _ hselected)
      (by rw [hanswer])
  | true =>
    rw [haccepted, if_pos rfl] at hlinked' hselected'
    rw [if_pos rfl]
    unfold handleHello at hlinked' hselected' ⊢
    by_cases hversion : version ≠ protocolVersion
    · rw [if_pos hversion] at hlinked'
      exact absurd ((Bool.and_eq_true _ _ ▸ hlinked' : _ ∧ _).2) Bool.false_ne_true
    rw [if_neg hversion] at hlinked' hselected' ⊢
    have hrefresh := continues_refresh
      { (s.shell.acceptFrame frame).1 with protocolCompatible := true }
    have hselected : s.selected ≠ "" :=
      haccept.selected.symm.trans_ne (hrefresh.selected.symm.trans_ne hselected')
    have hselects : (s.shell.acceptFrame frame).1.selectedChatJid = s.selected := haccept.selected
    have htidy := h.tidy.accept frame
    refine attended_refresh ⟨htidy.positive, htidy.asked, htidy.queued, htidy.unselected⟩
      (hrefresh.linked.symm.trans hlinked') (hselects.trans_ne hselected) ?_ ?_
    · exact (h.notice_le _).trans haccept.sent
    · show ((s.shell.acceptFrame frame).1.flight (s.shell.acceptFrame frame).1.selectedChatJid).Fresh
        (s.notice frame (s.shell.acceptFrame frame).1.selectedChatJid)
      rw [hselects, hchanged _ hselected]
      by_cases hnewer : s.shell.daemonGeneration < frame.generation
      · rw [(accept_newer hnewer s.selected none).1]
        exact Flight.fresh_of_idle rfl
      · rw [(sameRequests_accept hnewer).flight]
        exact ha.1 (by rw [hevent, not_not.mp hversion]) (not_lt.mp hnewer)

theorem Sound.received (h : s.Sound) (hevent : isHello frame.event = false)
    (ha : s.Undisturbed (.receive frame)) : (s.step (.receive frame)).shell.linked = true →
      (s.step (.receive frame)).selected ≠ "" → (s.step (.receive frame)).Attended := by
  intro hlinked' hselected'
  have hline : s.shell.handleLine frame = s.shell.handleFrame frame := by
    unfold handleLine
    split
    · rename_i hhello
      rw [hhello] at hevent
      cases hevent
    · rfl
  have hheeded := ha.2 hevent
  show Attended ⟨s.shell.handleLine frame, s.notice frame, s.answer frame⟩
  have hlinked' : (s.shell.handleLine frame).linked = true := hlinked'
  have hselected' : (s.shell.handleLine frame).selectedChatJid ≠ "" := hselected'
  rw [hline] at hlinked' hselected' ⊢
  have haccept := continues_accept s.shell frame
  unfold handleFrame at hlinked' hselected' ⊢
  by_cases hcompatible : s.shell.protocolCompatible = false
  · rw [if_pos hcompatible, linked, hcompatible, Bool.and_false] at hlinked'
    exact absurd hlinked' Bool.false_ne_true
  rw [if_neg hcompatible] at hlinked' hselected' ⊢
  dsimp only at hlinked' hselected' ⊢
  cases haccepted : (s.shell.acceptFrame frame).2 with
  | true =>
    rw [haccepted, if_pos rfl] at hlinked' hselected'
    rw [if_pos rfl]
    have hlinked := haccept.linked.symm.trans
      ((linked_handleAccepted _ frame).1.symm.trans hlinked')
    by_cases hselected : s.selected = ""
    · exact h.accepted_unselected hlinked hselected hselected'
    · exact h.accepted hlinked hselected (hheeded hlinked hselected) haccepted
  | false =>
    rw [haccepted, if_neg Bool.false_ne_true] at hlinked' hselected'
    rw [if_neg Bool.false_ne_true]
    have hstale : Continues s.shell.toService (frame.id.elim (s.shell.acceptFrame frame).1
        ((s.shell.acceptFrame frame).1.finishStaleResponse frame)).toService := by
      cases frame.id with
      | none => exact haccept
      | some id => exact haccept.trans (continues_finishStaleResponse _ frame id)
    have hlinked := hstale.linked.symm.trans hlinked'
    have hselected : s.selected ≠ "" := hstale.selected.symm.trans_ne hselected'
    exact h.turnedAway hlinked hselected (hheeded hlinked hselected) haccepted

theorem Sound.turned (h : s.Sound) (jid : String) (ha : s.Undisturbed (.selectChat jid)) :
    (s.step (.selectChat jid)).shell.linked = true →
      (s.step (.selectChat jid)).selected ≠ "" → (s.step (.selectChat jid)).Attended := by
  intro hlinked' hselected'
  have hlinked : s.shell.linked = true := (linked_selectChat s.shell jid).1.symm.trans hlinked'
  show Attended ⟨s.shell.selectChat jid, s.noticed, s.answered⟩
  have hselected : (s.shell.selectChat jid).selectedChatJid ≠ "" := hselected'
  by_cases hjid : jid = ""
  · have hkept : s.shell.selectChat jid = s.shell := if_pos hjid
    rw [hkept] at hselected ⊢
    exact h.attended hlinked hselected
  by_cases hother : jid ≠ s.shell.selectedChatJid
  · obtain ⟨hselects, hcovers⟩ :=
      covers_selectChat h.tidy hlinked hjid (h.noticed_le jid) hother (ha hother)
    exact attended_of_covers hselects hcovers
  have hasks : s.shell.selectChat jid
      = if s.shell.messagesChatJid ≠ jid then s.shell.requestMessages jid false else s.shell := by
    unfold MessageService.selectChat
    rw [if_neg hjid, if_neg hother]
  rw [not_not] at hother
  have hattended := h.attended hlinked (hother.symm.trans_ne hjid)
  rw [hasks]
  by_cases hshown : s.shell.messagesChatJid ≠ jid
  · rw [if_pos hshown]
    have hfresh : (s.shell.flight jid).Fresh (s.noticed jid) := by
      rw [hother]
      exact hattended.1
    exact attended_of_covers ((continues_requestMessages _ _ _).1.selected.trans hother.symm)
      (covers_requestMessages h.tidy hlinked hjid (h.noticed_le jid) (Or.inr hfresh))
  · rw [if_neg hshown]
    exact hattended

theorem Sound.expired (h : s.Sound) (id : ℕ) (ha : s.Undisturbed (.expireRequest id)) :
    (s.step (.expireRequest id)).shell.linked = true →
      (s.step (.expireRequest id)).selected ≠ "" → (s.step (.expireRequest id)).Attended := by
  intro hlinked' hselected'
  have hcontinues := continues_expireRequest s.shell id
  have hlinked : s.shell.linked = true := hcontinues.linked.symm.trans hlinked'
  have hselected : s.selected ≠ "" := hcontinues.selected.symm.trans_ne hselected'
  have hattended := h.attended hlinked hselected
  obtain ⟨hfinish, hshown⟩ := continues_finishRequests s.shell (some id) true
  have htidy : (s.shell.finishRequests (some id) true).1.Tidy := h.tidy.finishRequests
  show Attended ⟨(s.shell.finishRequests (some id) true).1.askAgain
    (s.shell.finishRequests (some id) true).2, s.noticed, s.answered⟩
  rcases finishRequests_cases (some id) true h.tidy hselected with
    ⟨hasked, hended, ⟨-, hagain⟩ | ⟨hqueued, hagain⟩⟩ | ⟨-, hkept, hagain⟩
  · rw [hagain, askAgain_selected hselected hfinish.selected.symm]
    refine attended_of_covers ((continues_requestMessages _ _ _).1.selected.trans
      hfinish.selected) (covers_requestMessages htidy (hfinish.linked.trans hlinked) hselected
        ((h.noticed_le _).trans hfinish.sent) (Or.inr ?_))
    exact hended ▸ Flight.fresh_of_idle rfl
  · -- the request is gone, but nothing is owed
    have hsettled := ha hlinked hselected hasked hqueued
    rw [askAgain_of_ne (by rwa [hfinish.selected])]
    refine ⟨?_, fun howed => absurd ?_ hsettled⟩
    · show ((s.shell.finishRequests (some id) true).1.flight
        (s.shell.finishRequests (some id) true).1.selectedChatJid).Fresh _
      rw [hfinish.selected]
      exact hended ▸ Flight.fresh_of_idle rfl
    · unfold Owed selected at howed
      rwa [hfinish.selected, hshown] at howed
  · rw [askAgain_of_ne (by rwa [hfinish.selected])]
    exact hattended.of_same hfinish.selected hshown hkept rfl rfl

theorem Sound.step (h : s.Sound) {a : MessageStep} (ha : s.Undisturbed a) : (s.step a).Sound := by
  cases a with
  | connect =>
    exact ⟨Tidy.resetRequestState h.tidy.positive, h.noticed_le,
      fun hlinked => absurd hlinked Bool.false_ne_true⟩
  | disconnect =>
    exact ⟨Tidy.resetRequestState h.tidy.positive, h.noticed_le,
      fun hlinked => absurd hlinked Bool.false_ne_true⟩
  | receive frame =>
    refine ⟨h.tidy.handleLine frame,
      fun jid => (h.notice_le jid).trans (sent_handleLine s.shell frame), ?_⟩
    cases hevent : frame.event with
    | hello version => exact h.received_hello hevent ha
    | _ => exact h.received (by rw [hevent]; rfl) ha
  | selectChat jid =>
    exact ⟨h.tidy.selectChat jid,
      fun other => (h.noticed_le other).trans (linked_selectChat s.shell jid).2, h.turned jid ha⟩
  | showPanel visible =>
    exact ⟨⟨h.tidy.positive, h.tidy.asked, h.tidy.queued, h.tidy.unselected⟩, h.noticed_le,
      fun hlinked hselected => (h.attended hlinked hselected).of_same rfl rfl rfl rfl rfl⟩
  | refresh =>
    have hcontinues := continues_refresh s.shell
    refine ⟨h.tidy.refresh, fun jid => (h.noticed_le jid).trans hcontinues.sent,
      fun hlinked' hselected' => ?_⟩
    have hlinked : s.shell.linked = true := hcontinues.linked.symm.trans hlinked'
    have hselected : s.selected ≠ "" := hcontinues.selected.symm.trans_ne hselected'
    exact attended_refresh h.tidy hlinked hselected (h.noticed_le _)
      (h.attended hlinked hselected).1
  | send command =>
    have hcontinues := continues_send s.shell.toService command
    have hsame : SameRequests s.shell (s.shell.send command) := ⟨rfl, rfl, rfl⟩
    exact ⟨hsame.tidy h.tidy hcontinues, fun jid => (h.noticed_le jid).trans hcontinues.sent,
      fun hlinked hselected => (h.attended (hcontinues.linked.symm.trans hlinked)
        (hcontinues.selected.symm.trans_ne hselected)).of_same hcontinues.selected rfl rfl rfl rfl⟩
  | expireRequest id =>
    exact ⟨h.tidy.expireRequest id, fun jid => (h.noticed_le jid).trans
      (continues_expireRequest s.shell id).sent, h.expired id ha⟩

end Step

/-- What is owed is outstanding in every state of an undisturbed run. -/
theorem refresh_outstanding_of_undisturbed {steps : List MessageStep}
    (h : Guarded step Undisturbed {} steps) : ∀ s ∈ states step {} steps, s.OwedIsOutstanding := by
  have hinitial : Sound {} :=
    ⟨⟨Nat.one_pos, fun _ hid => absurd rfl hid, fun _ hjid => absurd hjid Bool.false_ne_true,
      fun _ _ => rfl⟩, fun _ => Nat.zero_le _, fun hlinked => absurd hlinked Bool.false_ne_true⟩
  intro s hs
  exact (invariant_states (fun _ _ hsound => hsound.step) hinitial h s hs).owedIsOutstanding

/-- A chat is turned to, shown, changed, and asked for again; a stale answer comes in between. -/
def attendedSteps : List MessageStep :=
  [.connect, .receive ⟨none, 1, 1, .hello protocolVersion⟩, .selectChat "4@s.whatsapp.net",
    .receive ⟨some 6, 1, 2, .messages "4@s.whatsapp.net"⟩,
    .receive ⟨none, 1, 4, .message "4@s.whatsapp.net"⟩,
    .receive ⟨some 7, 1, 3, .messages "4@s.whatsapp.net"⟩,
    .receive ⟨some 8, 1, 5, .messages "4@s.whatsapp.net"⟩]

theorem refresh_outstanding_of_undisturbed_attended :
    (run step {} attendedSteps).selected = "4@s.whatsapp.net" ∧
      ∀ s ∈ states step {} attendedSteps, s.OwedIsOutstanding :=
  ⟨by decide +kernel, refresh_outstanding_of_undisturbed (by decide +kernel)⟩

/-- The messages of an alias come under its canonical jid. -/
def aliasSteps : List MessageStep :=
  [.connect, .receive ⟨none, 1, 1, .hello protocolVersion⟩, .selectChat "9@lid",
    .receive ⟨some 6, 1, 2, .messages "4@s.whatsapp.net"⟩]

/-- The alias is selected, nothing of it is shown, and nothing is asked for. -/
theorem alias_answer_forgotten :
    (run step {} aliasSteps).selected = "9@lid" ∧
      (run step {} aliasSteps).shell.messagesRequestIds "9@lid" = 0 ∧
      ¬(run step {} aliasSteps).OwedIsOutstanding := by
  decide +kernel

end MessageWatch

end OmarchyWhatsapp
