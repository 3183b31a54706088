import OmarchyWhatsapp.Shell.MessageRequests

/-!
# The tables of the message requests

What the handlers do to the request of one chat: it is asked for, ended, forgotten or left alone.
-/

namespace OmarchyWhatsapp

open Relational

namespace MessageService

/-! ## What the handlers leave alone -/

/-- The link and the selected chat are the same; more commands may have been sent. -/
structure Continues (s s' : Service) : Prop where
  connected : s'.connected = s.connected
  compatible : s'.protocolCompatible = s.protocolCompatible
  selected : s'.selectedChatJid = s.selectedChatJid
  sent : s.nextRequestId ≤ s'.nextRequestId

theorem Continues.refl (s : Service) : Continues s s := ⟨rfl, rfl, rfl, le_rfl⟩

theorem Continues.trans {s s' s'' : Service} (h : Continues s s') (h' : Continues s' s'') :
    Continues s s'' where
  connected := h'.connected.trans h.connected
  compatible := h'.compatible.trans h.compatible
  selected := h'.selected.trans h.selected
  sent := h.sent.trans h'.sent

theorem Continues.linked {s s' : MessageService} (h : Continues s.toService s'.toService) :
    s'.linked = s.linked := by
  rw [MessageService.linked, MessageService.linked, h.connected, h.compatible]

theorem continues_send (s : Service) (command : ClientCommand) : Continues s (s.send command).1 := by
  unfold Service.send
  split
  · exact Continues.refl s
  · exact ⟨rfl, rfl, rfl, Nat.le_succ _⟩

theorem continues_refreshMetadata (s : Service) : Continues s s.refreshMetadata :=
  (continues_send s _).trans ((continues_send _ _).trans ((continues_send _ _).trans
    ((continues_send _ _).trans (continues_send _ _))))

theorem continues_finishMediaDownloadRequest (s : Service) (id : Option ℕ) (isError : Bool) :
    Continues s (s.finishMediaDownloadRequest id isError) := by
  unfold Service.finishMediaDownloadRequest
  split <;> exact ⟨rfl, rfl, rfl, le_rfl⟩

theorem continues_acceptFrame (s : Service) (frame : ServerFrame) :
    Continues s (s.acceptFrame frame).1 := by
  unfold Service.acceptFrame
  split
  · exact Continues.refl s
  · have htaken (s : Service) : Continues s (s.takeFrame frame).1 := by
      unfold Service.takeFrame
      split
      · exact Continues.refl s
      · split <;> exact ⟨rfl, rfl, rfl, le_rfl⟩
    have hentered : Continues s (s.enterGeneration frame.generation) := by
      unfold Service.enterGeneration
      split <;> exact ⟨rfl, rfl, rfl, le_rfl⟩
    exact hentered.trans (htaken _)

/-- A frame of a newer generation is accepted. -/
theorem acceptFrame_newer {s : Service} {frame : ServerFrame}
    (hnewer : s.daemonGeneration < frame.generation) : (s.acceptFrame frame).2 = true := by
  unfold Service.acceptFrame
  rw [if_neg (by omega)]
  unfold Service.enterGeneration
  rw [if_pos hnewer]
  unfold Service.takeFrame
  split
  · rfl
  · rename_i hstamped
    rw [not_or] at hstamped
    show (if frame.sequence ≤ 0 then _ else _ : Service × Bool).2 = true
    rw [if_neg (by omega)]

/-! ## The tables of the requests -/

/-- The tables belong together. -/
structure Tidy (s : MessageService) : Prop where
  positive : 0 < s.nextRequestId
  asked : ∀ id, s.messagesRequestJids id ≠ "" →
    id ≠ 0 ∧ s.messagesRequestIds (s.messagesRequestJids id) = id
  queued : ∀ jid, s.messagesQueuedRequests jid = true → s.messagesRequestIds jid ≠ 0
  unselected : s.selectedChatJid = "" → ∀ jid, s.messagesRequestIds jid = 0

structure SameRequests (s s' : MessageService) : Prop where
  ids : s'.messagesRequestIds = s.messagesRequestIds
  jids : s'.messagesRequestJids = s.messagesRequestJids
  queued : s'.messagesQueuedRequests = s.messagesQueuedRequests

theorem SameRequests.tidy {s s' : MessageService} (h : SameRequests s s') (hs : s.Tidy)
    (hcontinues : Continues s.toService s'.toService) : s'.Tidy where
  positive := hs.positive.trans_le hcontinues.sent
  asked id := by
    rw [h.ids, h.jids]
    exact hs.asked id
  queued jid := by
    rw [h.ids, h.queued]
    exact hs.queued jid
  unselected := by
    rw [h.ids, hcontinues.selected]
    exact hs.unselected

theorem SameRequests.flight {s s' : MessageService} (h : SameRequests s s') (jid : String) :
    s'.flight jid = s.flight jid := by
  rw [MessageService.flight, MessageService.flight, h.ids, h.queued]

/-! ### Asking -/

section Request

variable {s : MessageService} {jid : String} {queueIfPending : Bool}

theorem continues_requestMessages (s : MessageService) (jid : String) (queueIfPending : Bool) :
    Continues s.toService (s.requestMessages jid queueIfPending).toService ∧
      (s.requestMessages jid queueIfPending).messagesChatJid = s.messagesChatJid := by
  unfold requestMessages sendGetMessages
  split
  · exact ⟨Continues.refl _, rfl⟩
  split
  · split <;> exact ⟨Continues.refl _, rfl⟩
  split
  · exact ⟨Continues.refl _, rfl⟩
  · exact ⟨⟨rfl, rfl, rfl, Nat.le_succ _⟩, rfl⟩

/-- A request in terms of the chat that is asked for. -/
theorem flight_requestMessages (hlinked : s.linked = true) (hjid : jid ≠ "") :
    (s.requestMessages jid queueIfPending).flight jid
      = (s.flight jid).ask s.nextRequestId queueIfPending := by
  have hconnected : ¬(s.connected = false ∨ s.protocolCompatible = false) := by
    rw [linked, Bool.and_eq_true] at hlinked
    rw [hlinked.1, hlinked.2]
    decide
  unfold requestMessages sendGetMessages Flight.ask
  rw [if_neg hjid]
  by_cases hpending : s.messagesRequestIds jid ≠ 0
  · rw [if_pos hpending, if_pos (show (s.flight jid).pending ≠ 0 from hpending)]
    cases queueIfPending <;> simp [flight]
  · rw [if_neg hpending, if_neg hconnected,
      if_neg (show ¬(s.flight jid).pending ≠ 0 from hpending)]
    simp [flight]

theorem flight_requestMessages_of_ne {other : String} (hother : other ≠ jid) :
    (s.requestMessages jid queueIfPending).flight other = s.flight other := by
  unfold requestMessages sendGetMessages
  split
  · rfl
  split
  · split
    · simp [flight, hother]
    · rfl
  split
  · rfl
  · simp [flight, hother]

theorem Tidy.requestMessages (h : s.Tidy) (hselected : s.selectedChatJid ≠ "") :
    (s.requestMessages jid queueIfPending).Tidy := by
  have hunselected {p : Prop} : s.selectedChatJid = "" → p := fun hnone => absurd hnone hselected
  unfold MessageService.requestMessages sendGetMessages
  split
  · exact h
  split
  · rename_i hpending
    split
    · refine ⟨h.positive, h.asked, fun j hj => ?_, hunselected⟩
      by_cases hsame : j = jid
      · rwa [hsame]
      · exact h.queued j (by simpa [Function.update_of_ne hsame] using hj)
    · exact h
  split
  · exact h
  · rename_i hjid hidle _
    rw [not_not] at hidle
    have hpositive : s.nextRequestId ≠ 0 := h.positive.ne'
    refine ⟨Nat.succ_pos _, fun id hid => ?_, fun j hj => ?_, hunselected⟩
    · show id ≠ 0 ∧ Function.update s.messagesRequestIds jid s.nextRequestId
        (Function.update s.messagesRequestJids s.nextRequestId jid id) = id
      by_cases hnew : id = s.nextRequestId
      · rw [hnew, Function.update_self, Function.update_self]
        exact ⟨hpositive, rfl⟩
      · have hold : s.messagesRequestJids id ≠ "" := by
          simpa [Function.update_of_ne hnew] using hid
        obtain ⟨hpos, hids⟩ := h.asked id hold
        have hother : s.messagesRequestJids id ≠ jid := fun hsame => hpos (by
          rw [← hids, hsame, hidle])
        rw [Function.update_of_ne hnew, Function.update_of_ne hother]
        exact ⟨hpos, hids⟩
    · show Function.update s.messagesRequestIds jid s.nextRequestId j ≠ 0
      by_cases hsame : j = jid
      · rwa [hsame, Function.update_self]
      · rw [Function.update_of_ne hsame]
        exact h.queued j hj

end Request

/-! ### Answers -/

section Answer

variable {s : MessageService} {id : Option ℕ}

theorem finishMessagesRequest_of_unasked (hasked : s.asked id = "") :
    s.finishMessagesRequest id = (s, "") := by
  cases id with
  | none => rfl
  | some id =>
    unfold finishMessagesRequest
    exact if_pos hasked

theorem continues_finishMessagesRequest (s : MessageService) (id : Option ℕ) :
    Continues s.toService (s.finishMessagesRequest id).1.toService ∧
      (s.finishMessagesRequest id).1.messagesChatJid = s.messagesChatJid := by
  cases id with
  | none => exact ⟨Continues.refl _, rfl⟩
  | some id =>
    unfold finishMessagesRequest
    dsimp only
    split <;> exact ⟨Continues.refl _, rfl⟩

/-- The answer of a chat ends its request, and calls for the one that is queued. -/
theorem flight_finishMessagesRequest (h : s.Tidy) (hasked : s.asked id ≠ "") :
    (s.finishMessagesRequest id).1.flight (s.asked id) = {} ∧
      (s.finishMessagesRequest id).2
        = if s.messagesQueuedRequests (s.asked id) then s.asked id else "" := by
  cases id with
  | none => exact absurd rfl hasked
  | some id =>
    have hjid : s.messagesRequestJids id ≠ "" := hasked
    have hids := (h.asked id hjid).2
    show (MessageService.finishMessagesRequest s (some id)).1.flight (s.messagesRequestJids id) = {} ∧
      _ = if s.messagesQueuedRequests (s.messagesRequestJids id) then _ else _
    unfold finishMessagesRequest
    dsimp only
    rw [if_neg hjid, if_pos hids]
    simp [flight, asked]

theorem flight_finishMessagesRequest_of_ne {other : String} (hother : other ≠ s.asked id) :
    (s.finishMessagesRequest id).1.flight other = s.flight other := by
  cases id with
  | none => rfl
  | some id =>
    have hne : other ≠ s.messagesRequestJids id := hother
    unfold finishMessagesRequest
    dsimp only
    split
    · rfl
    · unfold flight
      dsimp only
      rw [Function.update_of_ne hne]
      split
      · rw [Function.update_of_ne hne]
      · rfl

theorem Tidy.finishMessagesRequest (h : s.Tidy) : (s.finishMessagesRequest id).1.Tidy := by
  cases id with
  | none => exact h
  | some id =>
    unfold MessageService.finishMessagesRequest
    dsimp only
    split
    · exact h
    rename_i hjid
    have hids := (h.asked id hjid).2
    rw [if_pos hids]
    refine ⟨h.positive, fun i hi => ?_, fun j hj => ?_, fun hnone j => ?_⟩
    · show i ≠ 0 ∧ Function.update s.messagesRequestIds (s.messagesRequestJids id) 0
        (Function.update s.messagesRequestJids id "" i) = i
      by_cases hsame : i = id
      · exact absurd (by simp [hsame]) hi
      · have hold : s.messagesRequestJids i ≠ "" := by
          simpa [Function.update_of_ne hsame] using hi
        obtain ⟨hpos, hkept⟩ := h.asked i hold
        have hother : s.messagesRequestJids i ≠ s.messagesRequestJids id := fun heq => hsame (by
          rw [← hkept, heq, hids])
        rw [Function.update_of_ne hsame, Function.update_of_ne hother]
        exact ⟨hpos, hkept⟩
    · show Function.update s.messagesRequestIds (s.messagesRequestJids id) 0 j ≠ 0
      by_cases hsame : j = s.messagesRequestJids id
      · simp [hsame] at hj
      · rw [Function.update_of_ne hsame]
        exact h.queued j (by simpa [Function.update_of_ne hsame] using hj)
    · show Function.update s.messagesRequestIds (s.messagesRequestJids id) 0 j = 0
      by_cases hsame : j = s.messagesRequestJids id
      · rw [hsame, Function.update_self]
      · rw [Function.update_of_ne hsame]
        exact h.unselected hnone j

end Answer

section Finish

variable {s : MessageService} {id : Option ℕ} {isError : Bool}

theorem continues_finishRequests (s : MessageService) (id : Option ℕ) (isError : Bool) :
    Continues s.toService (s.finishRequests id isError).1.toService ∧
      (s.finishRequests id isError).1.messagesChatJid = s.messagesChatJid := by
  obtain ⟨hcontinues, hshown⟩ := continues_finishMessagesRequest
    { s with toService := s.toService.finishMediaDownloadRequest id isError } id
  exact ⟨(continues_finishMediaDownloadRequest s.toService id isError).trans hcontinues, hshown⟩

theorem Tidy.finishRequests (h : s.Tidy) : (s.finishRequests id isError).1.Tidy := by
  have hsame : SameRequests s
      { s with toService := s.toService.finishMediaDownloadRequest id isError } := ⟨rfl, rfl, rfl⟩
  exact (hsame.tidy h (continues_finishMediaDownloadRequest s.toService id isError)
    ).finishMessagesRequest

variable (id isError) in
theorem flight_finishRequests (h : s.Tidy) (hasked : s.asked id ≠ "") :
    (s.finishRequests id isError).1.flight (s.asked id) = {} ∧
      (s.finishRequests id isError).2
        = if s.messagesQueuedRequests (s.asked id) then s.asked id else "" := by
  have hsame : SameRequests s
      { s with toService := s.toService.finishMediaDownloadRequest id isError } := ⟨rfl, rfl, rfl⟩
  exact flight_finishMessagesRequest
    (hsame.tidy h (continues_finishMediaDownloadRequest s.toService id isError)) hasked

/-- The request of another chat stays as it is. -/
theorem flight_finishRequests_of_ne {other : String} (hother : other ≠ s.asked id) :
    (s.finishRequests id isError).1.flight other = s.flight other :=
  flight_finishMessagesRequest_of_ne (s := { s with
    toService := s.toService.finishMediaDownloadRequest id isError }) hother

theorem finishRequests_ne {other : String} (hother : other ≠ s.asked id) (hnone : other ≠ "") :
    (s.finishRequests id isError).2 ≠ other := by
  unfold finishRequests
  cases id with
  | none => exact hnone.symm
  | some id =>
    unfold finishMessagesRequest
    dsimp only
    split
    · exact hnone.symm
    · dsimp only
      split
      · exact hother.symm
      · exact hnone.symm

variable (id isError) in
/-- What an answer does to the request of a chat: it ends it, with another one queued behind it or
not, or it leaves it alone. -/
theorem finishRequests_cases (h : s.Tidy) {jid : String} (hjid : jid ≠ "") :
    (s.asked id = jid ∧ (s.finishRequests id isError).1.flight jid = {} ∧
        (s.messagesQueuedRequests jid = true ∧ (s.finishRequests id isError).2 = jid ∨
          s.messagesQueuedRequests jid = false ∧ (s.finishRequests id isError).2 ≠ jid)) ∨
      (s.asked id ≠ jid ∧ (s.finishRequests id isError).1.flight jid = s.flight jid ∧
        (s.finishRequests id isError).2 ≠ jid) := by
  by_cases hown : s.asked id = jid
  · obtain ⟨hended, hqueued⟩ := flight_finishRequests id isError h (by rwa [hown])
    rw [hown] at hended hqueued
    refine Or.inl ⟨hown, hended, ?_⟩
    rw [hqueued]
    cases s.messagesQueuedRequests jid with
    | true => exact Or.inl ⟨rfl, rfl⟩
    | false => exact Or.inr ⟨rfl, hjid.symm⟩
  · exact Or.inr ⟨hown, flight_finishRequests_of_ne (Ne.symm hown),
      finishRequests_ne (Ne.symm hown) hjid⟩

end Finish

/-! ### Frames -/

theorem Tidy.resetRequestState {s : MessageService} (hpositive : 0 < s.nextRequestId) :
    s.resetRequestState.Tidy :=
  ⟨hpositive, fun _ hid => absurd rfl hid, fun _ hjid => absurd hjid Bool.false_ne_true,
    fun _ _ => rfl⟩

theorem continues_accept (s : MessageService) (frame : ServerFrame) :
    Continues s.toService (s.acceptFrame frame).1.toService := by
  have haccepting := continues_acceptFrame s.toService frame
  unfold MessageService.acceptFrame
  dsimp only
  split
  · exact ⟨haccepting.connected, haccepting.compatible, haccepting.selected, haccepting.sent⟩
  · exact haccepting

theorem shown_accept (s : MessageService) (frame : ServerFrame) :
    (s.acceptFrame frame).1.messagesChatJid = s.messagesChatJid := by
  unfold MessageService.acceptFrame
  dsimp only
  split <;> rfl

theorem sameRequests_accept {s : MessageService} {frame : ServerFrame}
    (hsame : ¬s.daemonGeneration < frame.generation) :
    SameRequests s (s.acceptFrame frame).1 := by
  unfold MessageService.acceptFrame
  dsimp only
  rw [if_neg hsame]
  exact ⟨rfl, rfl, rfl⟩

/-- A newer generation empties the tables. -/
theorem accept_newer {s : MessageService} {frame : ServerFrame}
    (hnewer : s.daemonGeneration < frame.generation) (jid : String) (id : Option ℕ) :
    (s.acceptFrame frame).1.flight jid = {} ∧ (s.acceptFrame frame).1.asked id = "" := by
  unfold MessageService.acceptFrame
  dsimp only
  rw [if_pos hnewer]
  cases id <;> exact ⟨rfl, rfl⟩

theorem Tidy.accept {s : MessageService} (h : s.Tidy) (frame : ServerFrame) :
    (s.acceptFrame frame).1.Tidy := by
  have hcontinues := continues_accept s frame
  by_cases hnewer : s.daemonGeneration < frame.generation
  · have hpositive := h.positive.trans_le hcontinues.sent
    unfold MessageService.acceptFrame at hpositive ⊢
    dsimp only at hpositive ⊢
    rw [if_pos hnewer] at hpositive ⊢
    exact Tidy.resetRequestState hpositive
  · exact (sameRequests_accept hnewer).tidy h hcontinues

/-- What an accepted frame does to the request of a chat before the event is handled: a newer
generation forgets it, the answer of the chat ends it, and any other frame leaves it alone. -/
theorem accept_finish_cases {s : MessageService} (h : s.Tidy) (frame : ServerFrame) {jid : String}
    (hjid : jid ≠ "") (isError : Bool) :
    let finished := (s.acceptFrame frame).1.finishRequests frame.id isError
    (s.daemonGeneration < frame.generation ∧ finished.1.flight jid = {} ∧ finished.2 ≠ jid) ∨
      (s.asked frame.id = jid ∧ finished.1.flight jid = {} ∧
        (s.messagesQueuedRequests jid = true ∧ finished.2 = jid ∨
          s.messagesQueuedRequests jid = false ∧ finished.2 ≠ jid)) ∨
      (s.asked frame.id ≠ jid ∧ finished.1.flight jid = s.flight jid ∧ finished.2 ≠ jid) := by
  dsimp only
  by_cases hnewer : s.daemonGeneration < frame.generation
  · obtain ⟨hforgotten, hasked⟩ := accept_newer hnewer jid frame.id
    have hother : jid ≠ (s.acceptFrame frame).1.asked frame.id := by rwa [hasked]
    refine Or.inl ⟨hnewer, ?_, finishRequests_ne hother hjid⟩
    rw [flight_finishRequests_of_ne hother, hforgotten]
  have hsame := sameRequests_accept hnewer
  have hcases := finishRequests_cases frame.id isError (h.accept frame) hjid
  have hasked : (s.acceptFrame frame).1.asked frame.id = s.asked frame.id := by
    rw [asked, asked, hsame.jids]
  rw [hasked, hsame.queued, hsame.flight] at hcases
  exact Or.inr hcases

/-- What an event comes to: it asks for the messages of the selected chat, it turns to the first
chat of the list, or it leaves the requests alone and at most shows what it brings. -/
theorem handleEvent_cases (s : MessageService) (event : ServerEvent) :
    (changedChat event = s.selectedChatJid ∧
        s.handleEvent event = s.requestMessages s.selectedChatJid true) ∨
      (s.selectedChatJid = "" ∧ ∃ chats jid,
        s.handleEvent event = { s with chats := chats }.selectChat jid) ∨
      ((changedChat event = s.selectedChatJid → s.selectedChatJid = "") ∧
        Continues s.toService (s.handleEvent event).toService ∧
        SameRequests s (s.handleEvent event) ∧
        ((s.handleEvent event).messagesChatJid = s.messagesChatJid ∧
            event ≠ .messages s.selectedChatJid ∨
          event = .messages s.selectedChatJid ∧
            (s.handleEvent event).messagesChatJid = s.selectedChatJid)) := by
  have hsame (s : MessageService) : Continues s.toService s.toService ∧ SameRequests s s :=
    ⟨Continues.refl _, rfl, rfl, rfl⟩
  cases event with
  | chats chats =>
    have hlisted : s.handleEvent (.chats chats) = s.handleChats chats := rfl
    rw [hlisted]
    unfold handleChats
    dsimp only
    split
    · split
      · rename_i hnone
        exact Or.inr (Or.inl ⟨hnone.1, _, _, rfl⟩)
      · exact Or.inr (Or.inr ⟨Eq.symm, ⟨rfl, rfl, rfl, le_rfl⟩, ⟨rfl, rfl, rfl⟩, Or.inl ⟨rfl, nofun⟩⟩)
    · exact Or.inr (Or.inr ⟨Eq.symm, ⟨rfl, rfl, rfl, le_rfl⟩, ⟨rfl, rfl, rfl⟩, Or.inl ⟨rfl, nofun⟩⟩)
  | invalidated resource key =>
    cases resource with
    | chats =>
      exact Or.inr (Or.inr ⟨Eq.symm, continues_send s.toService _, ⟨rfl, rfl, rfl⟩,
        Or.inl ⟨rfl, nofun⟩⟩)
    | messages =>
      by_cases hkey : key.getD "" = s.selectedChatJid
      · have hasks : s.handleEvent (.invalidated .messages key)
            = s.requestMessages (key.getD "") true := if_pos hkey
        exact Or.inl ⟨hkey, hasks.trans (by rw [hkey])⟩
      · have hkept : s.handleEvent (.invalidated .messages key) = s := if_neg hkey
        rw [hkept]
        exact Or.inr (Or.inr ⟨fun h => absurd h hkey, (hsame s).1, (hsame s).2,
          Or.inl ⟨rfl, nofun⟩⟩)
  | messages chatJid =>
    by_cases hshown : chatJid = s.selectedChatJid
    · have hshows : s.handleEvent (.messages chatJid) = { s with messagesChatJid := chatJid } :=
        if_pos hshown
      rw [hshows, hshown]
      exact Or.inr (Or.inr ⟨Eq.symm, ⟨rfl, rfl, rfl, le_rfl⟩, ⟨rfl, rfl, rfl⟩,
        Or.inr ⟨rfl, rfl⟩⟩)
    · have hkept : s.handleEvent (.messages chatJid) = s := if_neg hshown
      rw [hkept]
      exact Or.inr (Or.inr ⟨Eq.symm, (hsame s).1, (hsame s).2,
        Or.inl ⟨rfl, fun heq => hshown (ServerEvent.messages.inj heq)⟩⟩)
  | message chatJid =>
    by_cases hchat : chatJid = s.selectedChatJid
    · exact Or.inl ⟨hchat, if_pos hchat⟩
    · have hkept : s.handleEvent (.message chatJid) = s := if_neg hchat
      rw [hkept]
      exact Or.inr (Or.inr ⟨fun h => absurd h hchat, (hsame s).1, (hsame s).2,
        Or.inl ⟨rfl, nofun⟩⟩)
  | sent chatJid =>
    by_cases hchat : chatJid = s.selectedChatJid
    · exact Or.inl ⟨hchat, if_pos hchat⟩
    · have hkept : s.handleEvent (.sent chatJid) = s := if_neg hchat
      rw [hkept]
      exact Or.inr (Or.inr ⟨fun h => absurd h hchat, (hsame s).1, (hsame s).2,
        Or.inl ⟨rfl, nofun⟩⟩)
  | _ =>
    exact Or.inr (Or.inr ⟨Eq.symm, ⟨rfl, rfl, rfl, le_rfl⟩, ⟨rfl, rfl, rfl⟩, Or.inl ⟨rfl, nofun⟩⟩)

/-- An event of the selected chat asks for its messages. -/
theorem handleEvent_of_changed {s : MessageService} {event : ServerEvent}
    (hselected : s.selectedChatJid ≠ "") (hchanged : changedChat event = s.selectedChatJid) :
    s.handleEvent event = s.requestMessages s.selectedChatJid true := by
  rcases handleEvent_cases s event with ⟨-, hasks⟩ | ⟨hnone, -⟩ | ⟨hnone, -⟩
  · exact hasks
  · exact absurd hnone hselected
  · exact absurd (hnone hchanged) hselected

/-- Any other event leaves the tables alone, and shows the messages of the selected chat if it
has them. -/
theorem handleEvent_of_unchanged {s : MessageService} {event : ServerEvent}
    (hselected : s.selectedChatJid ≠ "") (hchanged : changedChat event ≠ s.selectedChatJid) :
    Continues s.toService (s.handleEvent event).toService ∧
      SameRequests s (s.handleEvent event) ∧
      ((s.handleEvent event).messagesChatJid = s.messagesChatJid ∧
          event ≠ .messages s.selectedChatJid ∨
        event = .messages s.selectedChatJid ∧
          (s.handleEvent event).messagesChatJid = s.selectedChatJid) := by
  rcases handleEvent_cases s event with ⟨hsame, -⟩ | ⟨hnone, -⟩ | ⟨-, hkept⟩
  · exact absurd hsame hchanged
  · exact absurd hnone hselected
  · exact hkept

theorem requestMessages_none (s : MessageService) (queueIfPending : Bool) :
    s.requestMessages "" queueIfPending = s := if_pos rfl

theorem Tidy.selectChat {s : MessageService} (h : s.Tidy) (jid : String) :
    (s.selectChat jid).Tidy := by
  unfold MessageService.selectChat
  split
  · exact h
  rename_i hjid
  split
  · have hturned : Tidy { s with selectedChatJid := jid, messagesChatJid := "" } :=
      ⟨h.positive, h.asked, h.queued, fun hnone => absurd hnone hjid⟩
    exact hturned.requestMessages hjid
  · rename_i hsame
    rw [not_not] at hsame
    split
    · exact h.requestMessages (hsame ▸ hjid)
    · exact h

theorem Tidy.handleEvent {s : MessageService} (h : s.Tidy) (event : ServerEvent) :
    (s.handleEvent event).Tidy := by
  rcases handleEvent_cases s event with ⟨-, hasks⟩ | ⟨-, chats, jid, hturns⟩ |
    ⟨-, hcontinues, hsame, -⟩
  · rw [hasks]
    by_cases hselected : s.selectedChatJid = ""
    · rwa [hselected, requestMessages_none]
    · exact h.requestMessages hselected
  · have hlisted : Tidy { s with chats := chats } :=
      ⟨h.positive, h.asked, h.queued, h.unselected⟩
    rw [hturns]
    exact hlisted.selectChat jid
  · exact hsame.tidy h hcontinues

theorem Tidy.askAgain {s : MessageService} (h : s.Tidy) (jid : String) : (s.askAgain jid).Tidy := by
  unfold MessageService.askAgain
  split
  · rename_i hjid
    exact h.requestMessages (hjid.2 ▸ hjid.1)
  · exact h

theorem Tidy.refresh {s : MessageService} (h : s.Tidy) : s.refresh.Tidy := by
  have hsame : SameRequests s { s with toService := s.toService.refreshMetadata } :=
    ⟨rfl, rfl, rfl⟩
  have hrefreshed := hsame.tidy h (continues_refreshMetadata s.toService)
  unfold MessageService.refresh
  dsimp only
  by_cases hselected : s.toService.refreshMetadata.selectedChatJid = ""
  · rwa [hselected, requestMessages_none]
  · exact hrefreshed.requestMessages hselected

theorem Tidy.handleLine {s : MessageService} (h : s.Tidy) (frame : ServerFrame) :
    (s.handleLine frame).Tidy := by
  have haccepting := h.accept frame
  unfold MessageService.handleLine
  split
  · dsimp only
    split
    · unfold MessageService.handleHello
      split
      · exact ⟨haccepting.positive, haccepting.asked, haccepting.queued, haccepting.unselected⟩
      · exact Tidy.refresh
          ⟨haccepting.positive, haccepting.asked, haccepting.queued, haccepting.unselected⟩
    · exact haccepting
  · unfold MessageService.handleFrame
    split
    · exact h
    dsimp only
    split
    · exact (haccepting.finishRequests.handleEvent _).askAgain _
    · cases frame.id with
      | none => exact haccepting
      | some id =>
        exact haccepting.finishRequests.askAgain _

theorem Tidy.expireRequest {s : MessageService} (h : s.Tidy) (id : ℕ) :
    (s.expireRequest id).Tidy := by
  have hfinished : (s.finishRequests (some id) true).1.Tidy := h.finishRequests
  unfold MessageService.expireRequest
  exact hfinished.askAgain _

/-! ### What asking brings -/

section Ask

variable {s : MessageService} {jid : String} {m : ℕ} (h : s.Tidy) (hlinked : s.linked = true)
  (hjid : jid ≠ "") (hm : m ≤ s.nextRequestId)

include h hlinked hjid hm

/-- To ask covers what nothing was missed of, to queue covers everything. -/
theorem covers_requestMessages {queue : Bool}
    (hfresh : queue = true ∨ (s.flight jid).Fresh m) :
    ((s.requestMessages jid queue).flight jid).Covers m := by
  rw [flight_requestMessages hlinked hjid]
  rcases hfresh with rfl | hfresh
  · exact Flight.covers_queue h.positive.ne' hm
  · exact hfresh.ask h.positive.ne' hm queue

theorem covers_askAgain (hcovers : (s.flight jid).Covers m) (again : String) :
    ((s.askAgain again).flight jid).Covers m := by
  unfold askAgain
  split
  · by_cases hsame : again = jid
    · rw [hsame]
      exact covers_requestMessages h hlinked hjid hm (Or.inr hcovers.fresh)
    · rwa [flight_requestMessages_of_ne (Ne.symm hsame)]
  · exact hcovers

/-- Another chat is selected: its messages are asked for, unless they were before. -/
theorem covers_selectChat (hother : jid ≠ s.selectedChatJid) (hfresh : (s.flight jid).Fresh m) :
    (s.selectChat jid).selectedChatJid = jid ∧ ((s.selectChat jid).flight jid).Covers m := by
  have hturned : Tidy { s with selectedChatJid := jid, messagesChatJid := "" } :=
    ⟨h.positive, h.asked, h.queued, fun hnone => absurd hnone hjid⟩
  unfold selectChat
  rw [if_neg hjid, if_pos hother]
  exact ⟨(continues_requestMessages _ _ _).1.selected,
    covers_requestMessages hturned hlinked hjid hm (Or.inr hfresh)⟩

end Ask

theorem askAgain_of_ne {s : MessageService} {jid : String} (hother : jid ≠ s.selectedChatJid) :
    s.askAgain jid = s := if_neg (fun h => hother h.2)

theorem askAgain_selected {s : MessageService} {jid : String} (hjid : jid ≠ "")
    (hselected : jid = s.selectedChatJid) : s.askAgain jid = s.requestMessages jid false :=
  if_pos ⟨hjid, hselected⟩

theorem continues_askAgain (s : MessageService) (jid : String) :
    Continues s.toService (s.askAgain jid).toService ∧
      (s.askAgain jid).messagesChatJid = s.messagesChatJid := by
  unfold askAgain
  split
  · exact continues_requestMessages s jid false
  · exact ⟨Continues.refl _, rfl⟩

/-! ### The link stays, and request ids grow -/

theorem linked_selectChat (s : MessageService) (jid : String) :
    (s.selectChat jid).linked = s.linked ∧ s.nextRequestId ≤ (s.selectChat jid).nextRequestId := by
  unfold selectChat
  split
  · exact ⟨rfl, le_rfl⟩
  split
  · obtain ⟨hask, -⟩ := continues_requestMessages
      { s with selectedChatJid := jid, messagesChatJid := "" } jid false
    exact ⟨hask.linked, hask.sent⟩
  split
  · obtain ⟨hask, -⟩ := continues_requestMessages s jid false
    exact ⟨hask.linked, hask.sent⟩
  · exact ⟨rfl, le_rfl⟩

theorem linked_handleEvent (s : MessageService) (event : ServerEvent) :
    (s.handleEvent event).linked = s.linked ∧
      s.nextRequestId ≤ (s.handleEvent event).nextRequestId := by
  rcases handleEvent_cases s event with ⟨-, hasks⟩ | ⟨-, chats, jid, hturns⟩ | ⟨-, hcontinues, -⟩
  · rw [hasks]
    obtain ⟨hask, -⟩ := continues_requestMessages s s.selectedChatJid true
    exact ⟨hask.linked, hask.sent⟩
  · rw [hturns]
    exact linked_selectChat { s with chats := chats } jid
  · exact ⟨hcontinues.linked, hcontinues.sent⟩

theorem linked_handleAccepted (s : MessageService) (frame : ServerFrame) :
    (s.handleAccepted frame).linked = s.linked ∧
      s.nextRequestId ≤ (s.handleAccepted frame).nextRequestId := by
  obtain ⟨hfinish, -⟩ := continues_finishRequests s frame.id (Service.isError frame.event)
  obtain ⟨hlinked, hsent⟩ := linked_handleEvent
    (s.finishRequests frame.id (Service.isError frame.event)).1 frame.event
  obtain ⟨hagain, -⟩ := continues_askAgain
    ((s.finishRequests frame.id (Service.isError frame.event)).1.handleEvent frame.event)
    (s.finishRequests frame.id (Service.isError frame.event)).2
  exact ⟨hagain.linked.trans (hlinked.trans hfinish.linked),
    hfinish.sent.trans (hsent.trans hagain.sent)⟩

theorem continues_refresh (s : MessageService) : Continues s.toService s.refresh.toService :=
  (continues_refreshMetadata s.toService).trans (continues_requestMessages
    { s with toService := s.toService.refreshMetadata } _ false).1

theorem continues_finishStaleResponse (s : MessageService) (frame : ServerFrame) (id : ℕ) :
    Continues s.toService (s.finishStaleResponse frame id).toService :=
  (continues_finishRequests s _ _).1.trans (continues_askAgain _ _).1

theorem continues_expireRequest (s : MessageService) (id : ℕ) :
    Continues s.toService (s.expireRequest id).toService :=
  (continues_finishRequests s (some id) true).1.trans (continues_askAgain _ _).1

theorem sent_handleLine (s : MessageService) (frame : ServerFrame) :
    s.nextRequestId ≤ (s.handleLine frame).nextRequestId := by
  have haccept := (continues_accept s frame).sent
  unfold handleLine
  split
  · dsimp only
    split
    · unfold handleHello
      split
      · exact haccept
      · exact haccept.trans
          (continues_refresh { (s.acceptFrame frame).1 with protocolCompatible := true }).sent
    · exact haccept
  · unfold handleFrame
    split
    · exact le_rfl
    dsimp only
    split
    · exact haccept.trans (linked_handleAccepted _ frame).2
    · cases frame.id with
      | none => exact haccept
      | some id => exact haccept.trans (continues_finishStaleResponse _ frame id).sent

end MessageService

end OmarchyWhatsapp
