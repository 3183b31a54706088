import Mathlib.Tactic.Common
import OmarchyWhatsapp.Relational.Run
import OmarchyWhatsapp.Shell.ChatListRefresh

/-!
# The chat list converges

The list that the shell holds is the newest that was stamped. A stamp says nothing about when the
list was read: the shell ends with the list of the store if no response that is out of date is
stamped as the last one.
-/

namespace OmarchyWhatsapp

open Relational

/-! ## What the service does with a frame -/

namespace Service

/-- The chats and the connection stay, and no request is lost. -/
structure KeepsChats (s s' : Service) : Prop where
  connected : s'.connected = s.connected
  compatible : s'.protocolCompatible = s.protocolCompatible
  chats : s'.chats = s.chats
  selected : s'.selectedChatJid = s.selectedChatJid
  requests : ∀ r ∈ s.requests, r ∈ s'.requests

theorem KeepsChats.refl (s : Service) : KeepsChats s s := ⟨rfl, rfl, rfl, rfl, fun _ hr => hr⟩

theorem KeepsChats.trans {s s' s'' : Service} (h : KeepsChats s s') (h' : KeepsChats s' s'') :
    KeepsChats s s'' where
  connected := h'.connected.trans h.connected
  compatible := h'.compatible.trans h.compatible
  chats := h'.chats.trans h.chats
  selected := h'.selected.trans h.selected
  requests := fun r hr => h'.requests r (h.requests r hr)

theorem keepsChats_enterGeneration (s : Service) (generation : ℕ) :
    KeepsChats s (s.enterGeneration generation) := by
  unfold enterGeneration
  split
  · exact ⟨rfl, rfl, rfl, rfl, fun _ hr => hr⟩
  · exact KeepsChats.refl s

theorem keepsChats_takeFrame (s : Service) (f : ServerFrame) : KeepsChats s (s.takeFrame f).1 := by
  unfold takeFrame
  split
  · exact KeepsChats.refl s
  · split
    · exact KeepsChats.refl s
    · exact ⟨rfl, rfl, rfl, rfl, fun _ hr => hr⟩

theorem keepsChats_send (s : Service) (command : ClientCommand) :
    KeepsChats s (s.send command).1 := by
  unfold send
  split
  · exact KeepsChats.refl s
  · exact ⟨rfl, rfl, rfl, rfl, fun _ hr => List.mem_append_left _ hr⟩

theorem keepsChats_finishMediaDownloadRequest (s : Service) (id : Option ℕ) (isError : Bool) :
    KeepsChats s (s.finishMediaDownloadRequest id isError) := by
  unfold finishMediaDownloadRequest
  split
  · exact KeepsChats.refl s
  · exact ⟨rfl, rfl, rfl, rfl, fun _ hr => hr⟩

theorem keepsChats_handleInvalidation (s : Service) (resource : Resource) :
    KeepsChats s (s.handleInvalidation resource) := by
  cases resource with
  | chats => exact keepsChats_send s _
  | messages => exact KeepsChats.refl s

/-- Only a chat list changes the chats. -/
theorem keepsChats_handleEvent (s : Service) {event : ServerEvent}
    (hevent : ∀ chats, event ≠ .chats chats) : KeepsChats s (s.handleEvent event) := by
  cases event with
  | chats chats => exact absurd rfl (hevent chats)
  | invalidated resource key => exact keepsChats_handleInvalidation s resource
  | state unreadTotal => exact ⟨rfl, rfl, rfl, rfl, fun _ hr => hr⟩
  | unread total => exact ⟨rfl, rfl, rfl, rfl, fun _ hr => hr⟩
  | mediaDownloaded chatJid messageId => exact ⟨rfl, rfl, rfl, rfl, fun _ hr => hr⟩
  | mediaDownloadFailed chatJid messageId => exact ⟨rfl, rfl, rfl, rfl, fun _ hr => hr⟩
  | _ => exact KeepsChats.refl s

/-- A request is written if the daemon is compatible. -/
theorem mem_requests_send {s : Service} (hconnected : s.connected = true)
    (hcompatible : s.protocolCompatible = true) (command : ClientCommand) :
    ∃ r ∈ (s.send command).1.requests, r.command = command := by
  unfold send
  rw [if_neg (by rw [hconnected, hcompatible]; decide)]
  exact ⟨_, List.mem_append_right _ (List.mem_singleton_self _), rfl⟩

/-- The refresh after a hello asks for the list. -/
theorem mem_requests_refreshMetadata {s : Service} (hconnected : s.connected = true)
    (hcompatible : s.protocolCompatible = true) :
    ∃ r ∈ s.refreshMetadata.requests, r.command = .listChats 500 := by
  have hfirst := keepsChats_send s .getState
  obtain ⟨r, hr, hcommand⟩ := mem_requests_send (hfirst.connected.trans hconnected)
    (hfirst.compatible.trans hcompatible) (.listChats 500)
  have hrest := (keepsChats_send ((s.send .getState).1.send (.listChats 500)).1 .listAvatars).trans
    ((keepsChats_send _ .listTextOutbox).trans (keepsChats_send _ .listVoiceOutbox))
  exact ⟨r, hrest.requests r hr, hcommand⟩

theorem enterGeneration_of_ge {s : Service} {generation : ℕ}
    (h : generation ≤ s.daemonGeneration) : s.enterGeneration generation = s := by
  rw [enterGeneration, if_neg (not_lt.mpr h)]

theorem daemonGeneration_enterGeneration {s : Service} {generation : ℕ}
    (h : s.daemonGeneration ≤ generation) :
    (s.enterGeneration generation).daemonGeneration = generation := by
  unfold enterGeneration
  split
  · rfl
  · omega

/-- The generation of a frame that is not of an older one is entered first. -/
theorem acceptFrame_of_le {s : Service} {f : ServerFrame}
    (h : s.daemonGeneration ≤ f.generation) :
    s.acceptFrame f = (s.enterGeneration f.generation).takeFrame f := by
  rw [acceptFrame, if_neg (by omega)]

theorem handleChats_fields (s : Service) (chats : List Chat) :
    (s.handleChats chats).chats = s.chatsPreservingSelection chats ∧
      (s.handleChats chats).requests = s.requests := by
  unfold handleChats
  dsimp only
  split
  · split <;> exact ⟨rfl, rfl⟩
  · exact ⟨rfl, rfl⟩

/-- At most the selected chat is kept beside the list. -/
theorem chatsPreservingSelection_eq (s : Service) (incoming : List Chat) :
    s.chatsPreservingSelection incoming = incoming ∨
      ∃ kept : Chat, kept.jid ≠ "" ∧ kept.jid = s.selectedChatJid ∧
        (∀ chat ∈ incoming, chat.jid ≠ kept.jid) ∧
        s.chatsPreservingSelection incoming = kept :: incoming := by
  unfold chatsPreservingSelection
  split
  · exact Or.inl rfl
  · rename_i kept hselected
    unfold selectedChat at hselected
    have hfound := List.find?_some hselected
    have hjid : kept.jid = s.selectedChatJid := of_decide_eq_true hfound
    split
    · exact Or.inl rfl
    · rename_i hkept
      rw [not_or] at hkept
      refine Or.inr ⟨kept, hkept.1, hjid, fun chat hchat heq => ?_, rfl⟩
      exact hkept.2 (List.any_eq_true.mpr ⟨chat, hchat, decide_eq_true heq⟩)

end Service

namespace ChatListSession

variable {s : ChatListSession}

/-! ## What is still to come -/

/-- An invalidation is still to be stamped. -/
def Due (s : ChatListSession) : Prop :=
  0 < s.unscheduled ∨ s.window = some true ∨ 0 < s.publishing

/-- A `list_chats` is unanswered. -/
def Requested (s : ChatListSession) : Prop :=
  s.handling ≠ [] ∨ ∃ r ∈ s.shell.requests, isListChats r = true

/-- The list will be read again. -/
def Coming (s : ChatListSession) : Prop :=
  s.Due ∨ s.Requested ∨ ∃ f ∈ s.wire, isHello f.event = true

instance (s : ChatListSession) : Decidable s.Due := inferInstanceAs (Decidable (_ ∨ _))

instance (s : ChatListSession) : Decidable s.Requested := inferInstanceAs (Decidable (_ ∨ _))

instance (s : ChatListSession) : Decidable s.Coming := inferInstanceAs (Decidable (_ ∨ _))

/-- The newest sequence that the shell keeps for the chats. -/
def shown (s : ChatListSession) : ℕ :=
  (s.shell.enterGeneration s.generation).resourceSequences "chats"

/-- The newest frame of the chats on the wire asks for the list, or has it. -/
def Ahead (s : ChatListSession) : Prop :=
  ∃ f ∈ s.wire, f.resourceKey = "chats" ∧ s.shown < f.sequence ∧
    (∀ g ∈ s.wire, g.resourceKey = "chats" → g.sequence ≤ f.sequence) ∧
    (f.event = .invalidated .chats none ∨ f.event = .chats s.list)

/-- The shell has the list, apart from a chat that it keeps because it was selected. -/
def Shows (s : ChatListSession) : Prop :=
  s.shell.chats = s.list ∨ ∃ kept : Chat, kept.jid ≠ "" ∧ kept.jid ∈ s.selections ∧
    (∀ chat ∈ s.list, chat.jid ≠ kept.jid) ∧ s.shell.chats = kept :: s.list

/-- The shell has the list, and nothing newer is on the wire. -/
def Holds (s : ChatListSession) : Prop :=
  (∀ g ∈ s.wire, g.resourceKey = "chats" → g.sequence ≤ s.shown) ∧ s.Shows

/-- What the wire can carry. -/
structure OnWire (s : ChatListSession) (f : ServerFrame) : Prop where
  generation : f.generation = s.generation
  pos : 0 < f.sequence
  le : f.sequence ≤ s.revision
  hello : isHello f.event = true → f.id = none ∧ f.event = .hello protocolVersion
  chats : f.resourceKey = "chats" →
    (∃ chats, f.event = .chats chats) ∨ f.event = .invalidated .chats none

/-- The frames on the wire and what the shell knows of them. -/
structure Wired (s : ChatListSession) : Prop where
  wire : ∀ f ∈ s.wire, s.OnWire f
  distinct : ∀ f ∈ s.wire, ∀ g ∈ s.wire, f.sequence = g.sequence → f = g
  connected : s.shell.connected = true
  generation : s.shell.daemonGeneration ≤ s.generation
  shown_le : s.shown ≤ s.revision
  compatible : s.shell.protocolCompatible = true ∨ ∃ f ∈ s.wire, isHello f.event = true

/-- The list will be read again, or the newest list is that of the store. -/
def Listed (s : ChatListSession) : Prop := s.Coming ∨ s.Ahead ∨ s.Holds

/-- The last response that is due has the list as it is now; an error is no last response, unless
the shell has the list, or the newest frame on the wire leads to it. -/
def Fresh (s : ChatListSession) : ChatListStep → Prop
  | .respond request => request ∈ s.handling → request.chats = some s.list ∨
      Coming { s with handling := s.handling.erase request }
  | .fail request _ => request ∈ s.handling → Listed { s with handling := s.handling.erase request }
  | _ => True

theorem shows_iff (s : ChatListSession) :
    s.Shows ↔ s.shell.chats = s.list ∨ ∃ kept ∈ s.shell.chats, kept.jid ≠ "" ∧
      kept.jid ∈ s.selections ∧ (∀ chat ∈ s.list, chat.jid ≠ kept.jid) ∧
      s.shell.chats = kept :: s.list := by
  refine or_congr_right ⟨fun ⟨kept, hne, hmem, hother, h⟩ => ⟨kept, ?_, hne, hmem, hother, h⟩,
    fun ⟨kept, _, h⟩ => ⟨kept, h⟩⟩
  rw [h]
  exact List.mem_cons_self

instance (s : ChatListSession) : Decidable s.Shows := decidable_of_iff' _ s.shows_iff

instance (s : ChatListSession) : Decidable s.Ahead := inferInstanceAs (Decidable (∃ f ∈ s.wire, _))

instance (s : ChatListSession) : Decidable s.Holds := inferInstanceAs (Decidable (_ ∧ _))

instance (s : ChatListSession) : Decidable s.Listed := inferInstanceAs (Decidable (_ ∨ _))

instance (s : ChatListSession) (a : ChatListStep) : Decidable (s.Fresh a) := by
  apply ChatListStep.casesOn (motive := fun a => Decidable (s.Fresh a)) a
  all_goals
    intros
    dsimp only [Fresh]
    infer_instance

/-! ## Stamping -/

theorem Wired.stamp (h : s.Wired) {id : Option ℕ} {event : ServerEvent}
    (hhello : isHello event = true → id = none ∧ event = .hello protocolVersion)
    (hchats : ServerFrame.resourceKey ⟨id, s.generation, s.revision + 1, event⟩ = "chats" →
      (∃ chats, event = .chats chats) ∨ event = .invalidated .chats none) :
    (s.stamp id event).Wired where
  wire := by
    intro f hf
    rcases List.mem_append.mp hf with hf | hf
    · have hold := h.wire f hf
      exact ⟨hold.generation, hold.pos, le_trans hold.le (Nat.le_succ _), hold.hello, hold.chats⟩
    · rw [List.mem_singleton.mp hf]
      exact ⟨rfl, Nat.succ_pos _, le_refl _, hhello, hchats⟩
  distinct := by
    intro f hf g hg heq
    rcases List.mem_append.mp hf with hf | hf <;> rcases List.mem_append.mp hg with hg | hg
    · exact h.distinct f hf g hg heq
    · have hle := (h.wire f hf).le
      rw [heq, List.mem_singleton.mp hg] at hle
      exact absurd hle (Nat.not_succ_le_self _)
    · have hle := (h.wire g hg).le
      rw [← heq, List.mem_singleton.mp hf] at hle
      exact absurd hle (Nat.not_succ_le_self _)
    · rw [List.mem_singleton.mp hf, List.mem_singleton.mp hg]
  connected := h.connected
  generation := h.generation
  shown_le := le_trans h.shown_le (Nat.le_succ _)
  compatible := h.compatible.imp_right fun ⟨f, hf, hh⟩ => ⟨f, List.mem_append_left _ hf, hh⟩

theorem Coming.stamp (h : s.Coming) (id : Option ℕ) (event : ServerEvent) :
    (s.stamp id event).Coming :=
  h.imp_right fun h => h.imp_right fun ⟨f, hf, hh⟩ => ⟨f, List.mem_append_left _ hf, hh⟩

/-- The frame that is stamped last is ahead of all others. -/
theorem Wired.ahead_stamp (h : s.Wired) {id : Option ℕ} {event : ServerEvent}
    (hkey : ServerFrame.resourceKey ⟨id, s.generation, s.revision + 1, event⟩ = "chats")
    (hevent : event = .invalidated .chats none ∨ event = .chats s.list) :
    (s.stamp id event).Ahead := by
  refine ⟨_, List.mem_append_right _ (List.mem_singleton_self _), hkey,
    Nat.lt_succ_of_le h.shown_le, fun g hg _ => ?_, hevent⟩
  rcases List.mem_append.mp hg with hg | hg
  · exact le_trans (h.wire g hg).le (Nat.le_succ _)
  · rw [List.mem_singleton.mp hg]

/-- A frame of another resource changes nothing. -/
theorem Listed.stamp_other (h : s.Listed) {id : Option ℕ} {event : ServerEvent}
    (hkey : ServerFrame.resourceKey ⟨id, s.generation, s.revision + 1, event⟩ ≠ "chats") :
    (s.stamp id event).Listed := by
  rcases h with h | ⟨f, hf, hfkey, hshown, hle, hevent⟩ | ⟨hle, hshell⟩
  · exact Or.inl (h.stamp id event)
  · refine Or.inr (Or.inl ⟨f, List.mem_append_left _ hf, hfkey, hshown, fun g hg hgkey => ?_,
      hevent⟩)
    rcases List.mem_append.mp hg with hg | hg
    · exact hle g hg hgkey
    · rw [List.mem_singleton.mp hg] at hgkey
      exact absurd hgkey hkey
  · refine Or.inr (Or.inr ⟨fun g hg hgkey => ?_, hshell⟩)
    rcases List.mem_append.mp hg with hg | hg
    · exact hle g hg hgkey
    · rw [List.mem_singleton.mp hg] at hgkey
      exact absurd hgkey hkey

/-! ## Delivering -/

/-- What is left on the wire. -/
theorem Wired.erase (h : s.Wired) {f : ServerFrame} {shell : Service}
    (hconnected : shell.connected = true) (hgeneration : shell.daemonGeneration ≤ s.generation)
    (hshown : (shell.enterGeneration s.generation).resourceSequences "chats" ≤ s.revision)
    (hcompatible : shell.protocolCompatible = true ∨
      ∃ g ∈ s.wire.erase f, isHello g.event = true) :
    Wired { s with wire := s.wire.erase f, shell } where
  wire := fun g hg => by
    have hold := h.wire g (List.mem_of_mem_erase hg)
    exact ⟨hold.generation, hold.pos, hold.le, hold.hello, hold.chats⟩
  distinct := fun g hg g' hg' => h.distinct g (List.mem_of_mem_erase hg) g'
    (List.mem_of_mem_erase hg')
  connected := hconnected
  generation := hgeneration
  shown_le := hshown
  compatible := hcompatible

/-- The hello makes the shell ask for the list. -/
theorem Wired.deliver_hello (h : s.Wired) {f : ServerFrame} (hf : f ∈ s.wire)
    (hhello : isHello f.event = true) :
    Wired { s with wire := s.wire.erase f, shell := s.shell.handleLine f } ∧
      Coming { s with wire := s.wire.erase f, shell := s.shell.handleLine f } := by
  have hwire := h.wire f hf
  obtain ⟨hid, hevent⟩ := hwire.hello hhello
  have hkey : f.resourceKey = "" := by
    unfold ServerFrame.resourceKey
    rw [hevent, hid]
    rfl
  set entered := s.shell.enterGeneration s.generation with hentered
  set greeted : Service := { entered with protocolCompatible := true } with hgreeted
  have hline : s.shell.handleLine f = greeted.refreshMetadata := by
    rw [Service.handleLine, hevent]
    dsimp only
    rw [Service.acceptFrame_of_le (by rw [hwire.generation]; exact h.generation),
      hwire.generation, Service.takeFrame, if_pos (Or.inr hkey), if_pos rfl, Service.handleHello,
      if_neg (by decide)]
  have hkeeps := Service.keepsChats_enterGeneration s.shell s.generation
  have hsame := Service.sameFrames_refreshMetadata greeted
  have hgeneration : greeted.refreshMetadata.daemonGeneration = s.generation :=
    hsame.generation.trans (Service.daemonGeneration_enterGeneration h.generation)
  have hcompatible : greeted.refreshMetadata.protocolCompatible = true := hsame.compatible
  rw [hline]
  refine ⟨h.erase (hsame.connected.trans (hkeeps.connected.trans h.connected))
    (le_of_eq hgeneration) ?_ (Or.inl hcompatible), Or.inr (Or.inl (Or.inr ?_))⟩
  · rw [Service.enterGeneration_of_ge (ge_of_eq hgeneration), hsame.sequences]
    exact h.shown_le
  · obtain ⟨r, hr, hcommand⟩ := Service.mem_requests_refreshMetadata
      (hkeeps.connected.trans h.connected) (s := greeted) rfl
    exact ⟨r, hr, by rw [isListChats, hcommand]⟩

/-- The shell is not compatible yet: every frame but a hello is passed over. -/
theorem Wired.deliver_incompatible (h : s.Wired) {f : ServerFrame}
    (hhello : isHello f.event = false) (hcompatible : s.shell.protocolCompatible = false) :
    Wired { s with wire := s.wire.erase f, shell := s.shell.handleLine f } ∧
      Coming { s with wire := s.wire.erase f, shell := s.shell.handleLine f } := by
  have hline : s.shell.handleLine f = s.shell := by
    unfold Service.handleLine Service.handleFrame
    cases hevent : f.event with
    | hello version =>
      rw [hevent] at hhello
      cases hhello
    | _ => exact if_pos hcompatible
  obtain ⟨g, hg, hgreets⟩ : ∃ g ∈ s.wire, isHello g.event = true := by
    rcases h.compatible with hc | hg
    · exact absurd (hcompatible.symm.trans hc) (by decide)
    · exact hg
  have hrest : g ∈ s.wire.erase f := by
    refine (List.mem_erase_of_ne ?_).mpr hg
    rintro rfl
    rw [hgreets] at hhello
    cases hhello
  rw [hline]
  exact ⟨h.erase h.connected h.generation h.shown_le (Or.inr ⟨g, hrest, hgreets⟩),
    Or.inr (Or.inr ⟨g, hrest, hgreets⟩)⟩

theorem Shows.of_same (h : s.Shows) {s' : ChatListSession} (hchats : s'.shell.chats = s.shell.chats)
    (hlist : s'.list = s.list) (hselections : ∀ jid ∈ s.selections, jid ∈ s'.selections) :
    s'.Shows := by
  unfold Shows
  rw [hchats, hlist]
  rcases h with h | ⟨kept, hne, hmem, hother, h⟩
  · exact Or.inl h
  · exact Or.inr ⟨kept, hne, hselections _ hmem, hother, h⟩

/-- A frame that is not taken for the chats leaves what is to come. -/
theorem Coming.erase (h : s.Coming) {f : ServerFrame} (hhello : isHello f.event = false)
    {shell : Service} (hrequests : ∀ r ∈ s.shell.requests, r ∈ shell.requests) :
    Coming { s with wire := s.wire.erase f, shell } := by
  rcases h with h | (h | ⟨r, hr, hlist⟩) | ⟨g, hg, hgreets⟩
  · exact Or.inl h
  · exact Or.inr (Or.inl (Or.inl h))
  · exact Or.inr (Or.inl (Or.inr ⟨r, hrequests r hr, hlist⟩))
  · refine Or.inr (Or.inr ⟨g, (List.mem_erase_of_ne ?_).mpr hg, hgreets⟩)
    rintro rfl
    rw [hgreets] at hhello
    cases hhello

theorem Listed.erase (h : s.Listed) {f : ServerFrame} (hhello : isHello f.event = false)
    (hpassed : f.resourceKey ≠ "chats" ∨ f.sequence ≤ s.shown) {shell : Service}
    (hkeeps : Service.KeepsChats s.shell shell)
    (hshown : (shell.enterGeneration s.generation).resourceSequences "chats" = s.shown) :
    Listed { s with wire := s.wire.erase f, shell } := by
  rcases h with h | ⟨x, hx, hkey, hlt, hle, hevent⟩ | ⟨hle, hshows⟩
  · exact Or.inl (h.erase hhello hkeeps.requests)
  · refine Or.inr (Or.inl ⟨x, (List.mem_erase_of_ne ?_).mpr hx, hkey, ?_,
      fun g hg => hle g (List.mem_of_mem_erase hg), hevent⟩)
    · rintro rfl
      rcases hpassed with hne | hold
      · exact hne hkey
      · exact absurd hlt (not_lt.mpr hold)
    · exact lt_of_eq_of_lt hshown hlt
  · refine Or.inr (Or.inr ⟨fun g hg hgkey => ?_, hshows.of_same hkeeps.chats rfl fun _ hj => hj⟩)
    exact le_of_le_of_eq (hle g (List.mem_of_mem_erase hg) hgkey) hshown.symm

/-- The shell when a frame of this generation has gone through it: the chats are as they were, and
`sequence` is the newest one of theirs. -/
structure Passed (s : ChatListSession) (sequence : ℕ) (shell : Service) : Prop where
  keeps : Service.KeepsChats s.shell shell
  sequence_eq : shell.resourceSequences "chats" = sequence
  generation_eq : shell.daemonGeneration = s.generation

theorem Passed.shown_eq {sequence : ℕ} {shell : Service} (h : s.Passed sequence shell) :
    (shell.enterGeneration s.generation).resourceSequences "chats" = sequence := by
  rw [Service.enterGeneration_of_ge (ge_of_eq h.generation_eq)]
  exact h.sequence_eq

/-- What a compatible shell does with a frame that is no hello. -/
theorem handleLine_of_compatible {f : ServerFrame} (hhello : isHello f.event = false)
    (hcompatible : s.shell.protocolCompatible = true)
    (hgeneration : s.shell.daemonGeneration ≤ f.generation) :
    s.shell.handleLine f =
      let taken := (s.shell.enterGeneration f.generation).takeFrame f
      let finished := taken.1.finishMediaDownloadRequest f.id (Service.isError f.event)
      if taken.2 then finished.handleEvent f.event else finished := by
  unfold Service.handleLine
  cases hevent : f.event with
  | hello version =>
    rw [hevent] at hhello
    cases hhello
  | _ =>
    dsimp only
    rw [Service.handleFrame, if_neg (by rw [hcompatible]; decide),
      Service.acceptFrame_of_le hgeneration, hevent]

/-- The frame is taken or turned away, its request is finished, and an event that was taken is
handled last. -/
theorem Wired.handleLine_eq (h : s.Wired) {f : ServerFrame} (hf : f ∈ s.wire)
    (hhello : isHello f.event = false) (hcompatible : s.shell.protocolCompatible = true) :
    ∃ finished, s.Passed (((s.shell.enterGeneration s.generation).takeFrame
        f).1.resourceSequences "chats") finished ∧
      s.shell.handleLine f =
        if ((s.shell.enterGeneration s.generation).takeFrame f).2 then finished.handleEvent f.event
        else finished := by
  have hwire := h.wire f hf
  have hline := handleLine_of_compatible (s := s) hhello hcompatible
    (by rw [hwire.generation]; exact h.generation)
  rw [hwire.generation] at hline
  set entered := s.shell.enterGeneration s.generation with hentered
  have hsame := Service.sameFrames_finishMediaDownloadRequest (entered.takeFrame f).1 f.id
    (Service.isError f.event)
  have hgeneration : (entered.takeFrame f).1.daemonGeneration = s.generation :=
    (Service.daemonGeneration_takeFrame entered f).trans
      (Service.daemonGeneration_enterGeneration h.generation)
  refine ⟨_, ⟨?_, congrFun hsame.sequences "chats", hsame.generation.trans hgeneration⟩, hline⟩
  exact (Service.keepsChats_enterGeneration s.shell s.generation).trans
    ((Service.keepsChats_takeFrame entered f).trans
      (Service.keepsChats_finishMediaDownloadRequest _ _ _))

/-- A frame of another resource, or an older one, is turned away from the chats. -/
theorem Wired.takeFrame_passed (h : s.Wired) {f : ServerFrame} (hf : f ∈ s.wire)
    (hpassed : f.resourceKey ≠ "chats" ∨ f.sequence ≤ s.shown) :
    ((s.shell.enterGeneration s.generation).takeFrame f).1.resourceSequences "chats" = s.shown ∧
      (f.resourceKey = "chats" →
        ((s.shell.enterGeneration s.generation).takeFrame f).2 = false) := by
  unfold Service.takeFrame
  by_cases hkey : f.resourceKey = ""
  · rw [if_pos (Or.inr hkey)]
    exact ⟨rfl, fun hchats => absurd (hkey.symm.trans hchats) (by decide)⟩
  rw [if_neg (not_or.mpr ⟨(h.wire f hf).pos.ne', hkey⟩)]
  by_cases hold : f.sequence ≤
      (s.shell.enterGeneration s.generation).resourceSequences f.resourceKey
  · rw [if_pos hold]
    exact ⟨rfl, fun _ => rfl⟩
  · rw [if_neg hold]
    have hne : f.resourceKey ≠ "chats" := by
      intro hchats
      rw [hchats] at hold
      rcases hpassed with hne | hle
      · exact hne hchats
      · exact hold hle
    exact ⟨if_neg (Ne.symm hne), fun hchats => absurd hchats hne⟩

/-- Such a frame changes nothing of what is shown. -/
theorem Wired.handleLine_passed (h : s.Wired) {f : ServerFrame} (hf : f ∈ s.wire)
    (hhello : isHello f.event = false) (hcompatible : s.shell.protocolCompatible = true)
    (hpassed : f.resourceKey ≠ "chats" ∨ f.sequence ≤ s.shown) :
    s.Passed s.shown (s.shell.handleLine f) := by
  obtain ⟨finished, hfinished, hline⟩ := h.handleLine_eq hf hhello hcompatible
  obtain ⟨hsequence, hturned⟩ := h.takeFrame_passed hf hpassed
  rw [hsequence] at hfinished
  rw [hline]
  split
  · rename_i haccepted
    have hne : ∀ chats, f.event ≠ .chats chats := by
      intro chats hevent
      have hkey : f.resourceKey = "chats" := by
        unfold ServerFrame.resourceKey
        rw [hevent]
      rw [hturned hkey] at haccepted
      cases haccepted
    obtain ⟨hseq, hgen⟩ := Service.sameFrames_handleEvent_other finished f.event "chats"
    exact ⟨hfinished.keeps.trans (Service.keepsChats_handleEvent finished hne),
      hseq.trans hfinished.sequence_eq, hgen.trans hfinished.generation_eq⟩
  · exact hfinished

/-- A frame of another resource, or an older one, is passed over. -/
theorem Wired.deliver_passed (h : s.Wired) (hlist : s.Listed) {f : ServerFrame} (hf : f ∈ s.wire)
    (hhello : isHello f.event = false) (hcompatible : s.shell.protocolCompatible = true)
    (hpassed : f.resourceKey ≠ "chats" ∨ f.sequence ≤ s.shown) :
    Wired { s with wire := s.wire.erase f, shell := s.shell.handleLine f } ∧
      Listed { s with wire := s.wire.erase f, shell := s.shell.handleLine f } := by
  have hshell := h.handleLine_passed hf hhello hcompatible hpassed
  exact ⟨h.erase (hshell.keeps.connected.trans h.connected) (le_of_eq hshell.generation_eq)
    (le_of_eq_of_le hshell.shown_eq h.shown_le) (Or.inl (hshell.keeps.compatible.trans hcompatible)),
    hlist.erase hhello hpassed hshell.keeps hshell.shown_eq⟩

/-- The newest frame of the chats so far is taken, and its event is handled. -/
theorem Wired.handleLine_taken (h : s.Wired) {f : ServerFrame} (hf : f ∈ s.wire)
    (hhello : isHello f.event = false) (hcompatible : s.shell.protocolCompatible = true)
    (hkey : f.resourceKey = "chats") (hnewer : s.shown < f.sequence) :
    ∃ finished, s.Passed f.sequence finished ∧
      s.shell.handleLine f = finished.handleEvent f.event := by
  obtain ⟨finished, hfinished, hline⟩ := h.handleLine_eq hf hhello hcompatible
  set entered := s.shell.enterGeneration s.generation with hentered
  have hnot : ¬f.sequence ≤ entered.resourceSequences f.resourceKey := by
    rw [hkey]
    exact not_le.mpr hnewer
  have htake : entered.takeFrame f = ({ entered with resourceSequences := fun key =>
      if key = f.resourceKey then f.sequence else entered.resourceSequences key }, true) := by
    rw [Service.takeFrame, if_neg (not_or.mpr ⟨(h.wire f hf).pos.ne', by rw [hkey]; decide⟩),
      if_neg hnot]
  rw [htake] at hfinished hline
  exact ⟨finished, ⟨hfinished.keeps, hfinished.sequence_eq.trans (if_pos hkey.symm),
    hfinished.generation_eq⟩, hline⟩

/-- A list that is taken is the one that the shell shows now. -/
theorem Wired.deliver_list (h : s.Wired) (hlist : s.Listed) {f : ServerFrame} (hf : f ∈ s.wire)
    (hcompatible : s.shell.protocolCompatible = true)
    (hselected : s.shell.selectedChatJid ∈ s.selections) (hkey : f.resourceKey = "chats")
    (hnewer : s.shown < f.sequence) {chats : List Chat} (hevent : f.event = .chats chats)
    {finished : Service} (hfinished : s.Passed f.sequence finished) :
    Wired { s with wire := s.wire.erase f, shell := finished.handleChats chats } ∧
      Listed { s with wire := s.wire.erase f, shell := finished.handleChats chats } := by
  have hhello : isHello f.event = false := by
    rw [hevent]
    rfl
  have hkeeps := hfinished.keeps
  have hchats := Service.sameFrames_handleChats finished chats
  obtain ⟨hset, hrequests⟩ := Service.handleChats_fields finished chats
  have hgeneration : (finished.handleChats chats).daemonGeneration = s.generation :=
    hchats.generation.trans hfinished.generation_eq
  have hshown : ((finished.handleChats chats).enterGeneration
      s.generation).resourceSequences "chats" = f.sequence := by
    rw [Service.enterGeneration_of_ge (ge_of_eq hgeneration)]
    exact (congrFun hchats.sequences "chats").trans hfinished.sequence_eq
  refine ⟨h.erase (hchats.connected.trans (hkeeps.connected.trans h.connected))
    (le_of_eq hgeneration) (le_of_eq_of_le hshown (h.wire f hf).le)
    (Or.inl (hchats.compatible.trans (hkeeps.compatible.trans hcompatible))), ?_⟩
  rcases hlist with hcoming | ⟨x, hx, hxkey, hlt, hle, hxevent⟩ | ⟨hle, -⟩
  · exact Or.inl (hcoming.erase hhello fun r hr => hrequests ▸ hkeeps.requests r hr)
  · by_cases hxf : x = f
    · subst hxf
      have hchats : chats = s.list := by
        rw [hevent] at hxevent
        exact hxevent.elim nofun ServerEvent.chats.inj
      subst hchats
      refine Or.inr (Or.inr ⟨fun g hg hgkey => le_of_le_of_eq
        (hle g (List.mem_of_mem_erase hg) hgkey) hshown.symm, ?_⟩)
      rcases Service.chatsPreservingSelection_eq finished s.list with hall | ⟨kept, hkept⟩
      · exact Or.inl (hset.trans hall)
      · obtain ⟨hne, hjid, hother, hbeside⟩ := hkept
        refine Or.inr ⟨kept, hne, ?_, hother, hset.trans hbeside⟩
        rw [hjid, hkeeps.selected]
        exact hselected
    · have hlater : f.sequence < x.sequence :=
        lt_of_le_of_ne (hle f hf hkey) fun heq => hxf (h.distinct f hf x hx heq).symm
      exact Or.inr (Or.inl ⟨x, (List.mem_erase_of_ne hxf).mpr hx, hxkey,
        lt_of_eq_of_lt hshown hlater, fun g hg => hle g (List.mem_of_mem_erase hg), hxevent⟩)
  · exact absurd (hle f hf hkey) (not_le.mpr hnewer)

/-- After an invalidation that is taken the list is asked for. -/
theorem Wired.deliver_invalidation (h : s.Wired) {f : ServerFrame} (hf : f ∈ s.wire)
    (hcompatible : s.shell.protocolCompatible = true) {finished : Service}
    (hfinished : s.Passed f.sequence finished) :
    Wired { s with wire := s.wire.erase f, shell := finished.handleInvalidation .chats } ∧
      Listed { s with wire := s.wire.erase f, shell := finished.handleInvalidation .chats } := by
  have hconnected : finished.connected = true := hfinished.keeps.connected.trans h.connected
  have hready : finished.protocolCompatible = true := hfinished.keeps.compatible.trans hcompatible
  have hsent := Service.keepsChats_handleInvalidation finished .chats
  have hsame := Service.sameFrames_handleInvalidation finished .chats
  have hgeneration := hsame.generation.trans hfinished.generation_eq
  have hshown : ((finished.handleInvalidation .chats).enterGeneration
      s.generation).resourceSequences "chats" = f.sequence := by
    rw [Service.enterGeneration_of_ge (ge_of_eq hgeneration)]
    exact (congrFun hsame.sequences "chats").trans hfinished.sequence_eq
  refine ⟨h.erase (hsent.connected.trans hconnected) (le_of_eq hgeneration)
    (le_of_eq_of_le hshown (h.wire f hf).le) (Or.inl (hsent.compatible.trans hready)),
    Or.inl (Or.inr (Or.inl (Or.inr ?_)))⟩
  obtain ⟨r, hr, hcommand⟩ := Service.mem_requests_send hconnected hready (.listChats 500)
  exact ⟨r, hr, by rw [isListChats, hcommand]⟩

/-- The newest frame of the chats so far is taken. -/
theorem Wired.deliver_taken (h : s.Wired) (hlist : s.Listed) {f : ServerFrame} (hf : f ∈ s.wire)
    (hhello : isHello f.event = false) (hcompatible : s.shell.protocolCompatible = true)
    (hselected : s.shell.selectedChatJid ∈ s.selections) (hkey : f.resourceKey = "chats")
    (hnewer : s.shown < f.sequence) :
    Wired { s with wire := s.wire.erase f, shell := s.shell.handleLine f } ∧
      Listed { s with wire := s.wire.erase f, shell := s.shell.handleLine f } := by
  obtain ⟨finished, hfinished, hline⟩ := h.handleLine_taken hf hhello hcompatible hkey hnewer
  rw [hline]
  rcases (h.wire f hf).chats hkey with ⟨chats, hevent⟩ | hevent
  · rw [hevent]
    exact h.deliver_list hlist hf hcompatible hselected hkey hnewer hevent hfinished
  · rw [hevent]
    exact h.deliver_invalidation hf hcompatible hfinished

theorem Wired.deliver (h : s.Wired) (hlist : s.Listed)
    (hselected : s.shell.selectedChatJid ∈ s.selections) {f : ServerFrame} (hf : f ∈ s.wire) :
    Wired { s with wire := s.wire.erase f, shell := s.shell.handleLine f } ∧
      Listed { s with wire := s.wire.erase f, shell := s.shell.handleLine f } := by
  cases hhello : isHello f.event with
  | true =>
    obtain ⟨hwired, hcoming⟩ := h.deliver_hello hf hhello
    exact ⟨hwired, Or.inl hcoming⟩
  | false =>
    cases hcompatible : s.shell.protocolCompatible with
    | false =>
      obtain ⟨hwired, hcoming⟩ := h.deliver_incompatible hhello hcompatible
      exact ⟨hwired, Or.inl hcoming⟩
    | true =>
      by_cases hkey : f.resourceKey = "chats"
      · rcases lt_or_ge s.shown f.sequence with hnewer | hold
        · exact h.deliver_taken hlist hf hhello hcompatible hselected hkey hnewer
        · exact h.deliver_passed hlist hf hhello hcompatible (Or.inr hold)
      · exact h.deliver_passed hlist hf hhello hcompatible (Or.inl hkey)

/-! ## Steps -/

theorem shown_of_same {s' : ChatListSession} (hshell : Service.SameFrames s.shell s'.shell)
    (hgeneration : s'.generation = s.generation) : s'.shown = s.shown := by
  unfold shown Service.enterGeneration
  rw [hgeneration, hshell.generation]
  split
  · rfl
  · rw [hshell.sequences]

/-- Frames may be lost, but for a hello. -/
theorem Wired.of_same (h : s.Wired) {s' : ChatListSession} (hwire : ∀ f ∈ s'.wire, f ∈ s.wire)
    (hhello : ∀ f ∈ s.wire, isHello f.event = true → f ∈ s'.wire)
    (hshell : Service.SameFrames s.shell s'.shell) (hgeneration : s'.generation = s.generation)
    (hrevision : s'.revision = s.revision) : s'.Wired where
  wire := fun f hf => by
    have hold := h.wire f (hwire f hf)
    exact ⟨hold.generation.trans hgeneration.symm, hold.pos, le_of_le_of_eq hold.le hrevision.symm,
      hold.hello, hold.chats⟩
  distinct := fun f hf g hg => h.distinct f (hwire f hf) g (hwire g hg)
  connected := hshell.connected.trans h.connected
  generation := by
    rw [hshell.generation, hgeneration]
    exact h.generation
  shown_le := by
    rw [shown_of_same hshell hgeneration, hrevision]
    exact h.shown_le
  compatible := by
    rw [hshell.compatible]
    exact h.compatible.imp_right fun ⟨f, hf, hgreets⟩ => ⟨f, hhello f hf hgreets, hgreets⟩

/-- Nothing happens to the wire or the shell. -/
theorem Wired.of_rest (h : s.Wired) (list : List Chat) (unscheduled publishing : ℕ)
    (window : Option Bool) (handling : List ListRequest) :
    Wired { s with list, unscheduled, window, publishing, handling } :=
  h.of_same (fun _ hf => hf) (fun _ hf _ => hf) (Service.SameFrames.refl _) rfl rfl

/-- The requests of the shell and its selection are not part of its list. -/
theorem Listed.of_same (h : s.Listed) {s' : ChatListSession} (hwire : s'.wire = s.wire)
    (hlist : s'.list = s.list) (hshell : Service.SameFrames s.shell s'.shell)
    (hchats : s'.shell.chats = s.shell.chats) (hgeneration : s'.generation = s.generation)
    (hselections : ∀ jid ∈ s.selections, jid ∈ s'.selections) (hcoming : s.Coming → s'.Coming) :
    s'.Listed := by
  have hshown := shown_of_same hshell hgeneration
  rcases h with h | ⟨f, hf, hkey, hlt, hle, hevent⟩ | ⟨hle, hshows⟩
  · exact Or.inl (hcoming h)
  · refine Or.inr (Or.inl ⟨f, hwire ▸ hf, hkey, lt_of_eq_of_lt hshown hlt, ?_, ?_⟩)
    · rw [hwire]
      exact hle
    · rw [hlist]
      exact hevent
  · refine Or.inr (Or.inr ⟨?_, hshows.of_same hchats hlist hselections⟩)
    rw [hwire, hshown]
    exact hle

/-- The selection is not on the wire. -/
theorem listed_noteSelection (h : s.Wired) (hlist : s.Listed) :
    s.noteSelection.Wired ∧ s.noteSelection.Listed :=
  ⟨h.of_same (fun _ hf => hf) (fun _ hf _ => hf) (Service.SameFrames.refl _) rfl rfl,
    hlist.of_same rfl rfl (Service.SameFrames.refl _) rfl rfl
      (fun _ hj => List.mem_cons_of_mem _ hj) fun hcoming => hcoming⟩

/-- The answer of an error is no list. -/
theorem resourceKey_error (id generation sequence : ℕ) (message : String) :
    ServerFrame.resourceKey ⟨some id, generation, sequence, .error message⟩ ≠ "chats" := by
  intro hkey
  have hhead := congrArg (fun key : String => key.toList.head?) hkey
  simp [ServerFrame.resourceKey, String.toList_append] at hhead

theorem isOther_iff {event : ServerEvent} (h : isOther event = true) :
    isHello event = false ∧ ServerFrame.resourceKey ⟨none, 0, 0, event⟩ ≠ "chats" := by
  cases event with
  | hello version => cases h
  | _ => exact ⟨rfl, of_decide_eq_true h⟩

theorem listed_step {a : ChatListStep} (h : s.Wired) (hlist : s.Listed)
    (hselected : s.shell.selectedChatJid ∈ s.selections) (ha : s.Fresh a) :
    (s.step a).Wired ∧ (s.step a).Listed := by
  cases a with
  | change list => exact ⟨h.of_rest _ _ _ _ _, Or.inl (Or.inl (Or.inl (Nat.succ_pos _)))⟩
  | schedule =>
    rw [step]
    split
    · exact ⟨h, hlist⟩
    · unfold record
      split
      · exact ⟨h.of_rest _ _ _ _ _, Or.inl (Or.inl (Or.inr (Or.inl rfl)))⟩
      · exact ⟨h.of_rest _ _ _ _ _, Or.inl (Or.inl (Or.inr (Or.inr (Nat.succ_pos _))))⟩
  | publish =>
    rw [step]
    split
    · exact ⟨h, hlist⟩
    · have hsame : Wired { s with publishing := s.publishing - 1 } := h.of_rest _ _ _ _ _
      exact ⟨hsame.stamp nofun fun _ => Or.inr rfl,
        Or.inr (Or.inl (hsame.ahead_stamp rfl (Or.inl rfl)))⟩
  | finishWindow =>
    rw [step]
    unfold finish
    split
    · exact ⟨h.of_rest _ _ _ _ _, Or.inl (Or.inl (Or.inr (Or.inr (Nat.succ_pos _))))⟩
    · rename_i hwindow
      refine ⟨h.of_rest _ _ _ _ _, ?_⟩
      rcases hlist with hcoming | hahead | hholds
      · rcases hcoming with (hdue | hdue | hdue) | hcoming
        · exact Or.inl (Or.inl (Or.inl hdue))
        · exact absurd hdue (hwindow)
        · exact Or.inl (Or.inl (Or.inr (Or.inr hdue)))
        · exact Or.inl (Or.inr hcoming)
      · exact Or.inr (Or.inl hahead)
      · exact Or.inr (Or.inr hholds)
  | broadcast event =>
    rw [step]
    split
    · rename_i hother
      obtain ⟨hhello, hkey⟩ := isOther_iff hother
      have hsame : ServerFrame.resourceKey ⟨none, s.generation, s.revision + 1, event⟩ ≠ "chats" :=
        hkey
      exact ⟨h.stamp (fun hh => by rw [hhello] at hh; cases hh) fun hk => absurd hk hsame,
        hlist.stamp_other hsame⟩
    · exact ⟨h, hlist⟩
  | receive =>
    rw [step]
    split
    · rename_i request rest hrequests
      have hshell : Service.SameFrames s.shell { s.shell with requests := rest } :=
        ⟨rfl, rfl, rfl, rfl, rfl⟩
      refine ⟨h.of_same (fun _ hf => hf) (fun _ hf _ => hf) hshell rfl rfl,
        hlist.of_same rfl rfl hshell rfl rfl (fun _ hj => hj) fun hcoming => ?_⟩
      rcases hcoming with hdue | (hhandling | ⟨r, hr, hlists⟩) | hgreets
      · exact Or.inl hdue
      · refine Or.inr (Or.inl (Or.inl ?_))
        dsimp only
        split
        · exact List.append_ne_nil_of_right_ne_nil _ (List.cons_ne_nil _ _)
        · exact hhandling
      · -- the request is read, or it is still in the socket
        rw [hrequests] at hr
        rcases List.mem_cons.mp hr with rfl | hr
        · refine Or.inr (Or.inl (Or.inl ?_))
          dsimp only
          rw [if_pos hlists]
          exact List.append_ne_nil_of_right_ne_nil _ (List.cons_ne_nil _ _)
        · exact Or.inr (Or.inl (Or.inr ⟨r, hr, hlists⟩))
      · exact Or.inr (Or.inr hgreets)
    · exact ⟨h, hlist⟩
  | read request =>
    rw [step]
    split
    · have hhandling : ∀ again : ListRequest, s.handling.erase request ++ [again] ≠ [] :=
        fun _ => List.append_ne_nil_of_right_ne_nil _ (List.cons_ne_nil _ _)
      exact ⟨h.of_rest _ _ _ _ _, Or.inl (Or.inr (Or.inl (Or.inl (hhandling _))))⟩
    · exact ⟨h, hlist⟩
  | lookUp request jid phoneNumber =>
    rw [step]
    split
    · have hhandling : ∀ again : ListRequest, s.handling.erase request ++ [again] ≠ [] :=
        fun _ => List.append_ne_nil_of_right_ne_nil _ (List.cons_ne_nil _ _)
      exact ⟨h.of_rest _ _ _ _ _, Or.inl (Or.inr (Or.inl (Or.inl (hhandling _))))⟩
    · exact ⟨h, hlist⟩
  | respond request =>
    rw [step]
    split
    · rename_i chats hchats
      split
      · rename_i hhandling
        have hsame : Wired { s with handling := s.handling.erase request } := h.of_rest _ _ _ _ _
        refine ⟨hsame.stamp nofun fun _ => Or.inl ⟨chats, rfl⟩, ?_⟩
        rcases ha hhandling with hfresh | hcoming
        · refine Or.inr (Or.inl (hsame.ahead_stamp rfl (Or.inr ?_)))
          rw [hchats] at hfresh
          rw [Option.some.inj hfresh]
        · exact Or.inl (hcoming.stamp _ _)
      · exact ⟨h, hlist⟩
    · exact ⟨h, hlist⟩
  | fail request message =>
    rw [step]
    split
    · rename_i hhandling
      have hsame : Wired { s with handling := s.handling.erase request } := h.of_rest _ _ _ _ _
      exact ⟨hsame.stamp nofun fun hk => absurd hk (resourceKey_error _ _ _ _),
        (ha hhandling).stamp_other (resourceKey_error _ _ _ _)⟩
    · exact ⟨h, hlist⟩
  | deliver frame =>
    rw [step]
    split
    · obtain ⟨hwired, hlisted⟩ := h.deliver hlist hselected ‹_›
      exact listed_noteSelection hwired hlisted
    · exact ⟨h, hlist⟩
  | lag lost =>
    have hsame : Wired { s with wire := s.wire.filter (survives lost) } := by
      refine h.of_same (fun f hf => (List.mem_filter.mp hf).1) (fun f hf hgreets => ?_)
        (Service.SameFrames.refl _) rfl rfl
      rw [List.mem_filter, survives, hgreets, Bool.or_true, Bool.true_or]
      exact ⟨hf, rfl⟩
    exact ⟨hsame.stamp (fun _ => ⟨rfl, rfl⟩)
        fun hk => absurd (show "" = "chats" from hk) (by decide),
      Or.inl (Or.inr (Or.inr ⟨_, List.mem_append_right _ (List.mem_singleton_self _), rfl⟩))⟩
  | select chatJid =>
    have hshell : Service.SameFrames s.shell { s.shell with selectedChatJid := chatJid } :=
      ⟨rfl, rfl, rfl, rfl, rfl⟩
    exact listed_noteSelection
      (h.of_same (fun _ hf => hf) (fun _ hf _ => hf) hshell rfl rfl)
      (hlist.of_same rfl rfl hshell rfl rfl (fun _ hj => hj) fun hcoming => hcoming)

/-- The selection is among those that were made. -/
theorem selected_step (h : s.shell.selectedChatJid ∈ s.selections) (a : ChatListStep) :
    (s.step a).shell.selectedChatJid ∈ (s.step a).selections := by
  cases a with
  | change list => exact h
  | broadcast event => rw [step]; split <;> exact h
  | publish => rw [step]; split <;> exact h
  | schedule =>
    rw [step]
    split
    · exact h
    · unfold record
      split <;> exact h
  | finishWindow => rw [step]; unfold finish; split <;> exact h
  | receive => rw [step]; split <;> exact h
  | read request => rw [step]; split <;> exact h
  | lookUp request jid phoneNumber => rw [step]; split <;> exact h
  | respond request =>
    rw [step]
    split
    · split <;> exact h
    · exact h
  | fail request message => rw [step]; split <;> exact h
  | deliver frame =>
    rw [step]
    split
    · exact List.mem_cons_self
    · exact h
  | lag lost => exact h
  | select chatJid => exact List.mem_cons_self

/-! ## Runs -/

/-- All changes are announced, all requests answered, and all frames delivered. -/
def Quiet (s : ChatListSession) : Prop :=
  s.unscheduled = 0 ∧ s.window = none ∧ s.publishing = 0 ∧ s.wire = [] ∧ s.handling = [] ∧
    ∀ r ∈ s.shell.requests, isListChats r = false

instance (s : ChatListSession) : Decidable s.Quiet := inferInstanceAs (Decidable (_ ∧ _))

theorem Listed.of_quiet (h : s.Listed) (hquiet : s.Quiet) : s.Holds := by
  obtain ⟨hunscheduled, hwindow, hpublishing, hwire, hhandling, hrequests⟩ := hquiet
  rcases h with ((h | h | h) | (h | ⟨r, hr, hlists⟩) | ⟨f, hf, -⟩) | ⟨f, hf, -⟩ | h
  · omega
  · rw [hwindow] at h
    cases h
  · omega
  · exact absurd hhandling h
  · rw [hrequests r hr] at hlists
    cases hlists
  · rw [hwire] at hf
    cases hf
  · rw [hwire] at hf
    cases hf
  · exact h

theorem wired_opened (generation revision : ℕ) (list : List Chat) :
    (opened generation revision list).Wired ∧ (opened generation revision list).Coming := by
  refine ⟨⟨?_, ?_, rfl, Nat.zero_le _, ?_, Or.inr ⟨_, List.mem_singleton_self _, rfl⟩⟩,
    Or.inr (Or.inr ⟨_, List.mem_singleton_self _, rfl⟩)⟩
  · intro f hf
    rw [List.mem_singleton.mp hf]
    exact ⟨rfl, Nat.succ_pos _, le_refl _, fun _ => ⟨rfl, rfl⟩,
      fun hk => absurd (show "" = "chats" from hk) (by decide)⟩
  · intro f hf g hg _
    rw [List.mem_singleton.mp hf, List.mem_singleton.mp hg]
  · unfold shown Service.enterGeneration
    split <;> exact Nat.zero_le _

/-- In every run in which the last response that is due is stamped with the list as it is then,
the shell has the list of the store whenever all changes are announced, all requests answered and
all frames delivered. -/
theorem shows_of_fresh (generation revision : ℕ) (list : List Chat) (steps : List ChatListStep)
    (hg : Guarded step Fresh (opened generation revision list) steps) :
    ∀ s ∈ states step (opened generation revision list) steps, s.Quiet → s.Shows := by
  intro s hs hquiet
  obtain ⟨hwired, hcoming⟩ := wired_opened generation revision list
  have hlisted : (s.Wired ∧ s.Listed) ∧ s.shell.selectedChatJid ∈ s.selections :=
    invariant_states (I := fun s => (s.Wired ∧ s.Listed) ∧ s.shell.selectedChatJid ∈ s.selections)
      (fun _ a h ha => ⟨listed_step h.1.1 h.1.2 h.2 ha, selected_step h.2 a⟩)
      ⟨⟨hwired, Or.inl hcoming⟩, List.mem_singleton_self ""⟩ hg s hs
  exact (hlisted.1.2.of_quiet hquiet).2

/-- A chat under its LID, without a phone number. -/
def lidChat : Chat where
  jid := "1001@lid"
  name := "Ada"
  lastMessage := ""
  lastSenderName := ""
  lastTimestamp := 0
  unread := 0
  isGroup := false

/-- The shell connects, and asks for the list: 1 is `get_state`, 2 is `list_chats`. -/
def asked : List ChatListStep :=
  [.deliver ⟨none, 1, 1, .hello protocolVersion⟩, .receive, .receive, .read { id := 2 }]

/-- Two requests overlap: the first is answered last, when the second was out of date. -/
theorem shows_of_fresh_overlap :
    let steps := asked ++ [.change [], .schedule, .publish,
      .deliver ⟨none, 1, 2, .invalidated .chats none⟩, .receive, .receive, .receive, .receive,
      .respond { id := 2, chats := some [lidChat] }, .read { id := 6 },
      .respond { id := 6, chats := some [] }, .deliver ⟨some 6, 1, 4, .chats []⟩,
      .deliver ⟨some 2, 1, 3, .chats [lidChat]⟩, .finishWindow]
    (run step (opened 1 0 [lidChat]) steps).Quiet ∧
      ∀ s ∈ states step (opened 1 0 [lidChat]) steps, s.Quiet → s.Shows :=
  ⟨by decide, shows_of_fresh 1 0 [lidChat] _ (by decide)⟩

/-- A phone number is looked up while the chat is deleted: the list that was read before is
stamped after the invalidation, reaches the shell first, and the invalidation is turned away. -/
theorem late_list_hides_change :
    let steps := asked ++ [.change [], .schedule, .publish,
      .respond { id := 2, chats := some [lidChat] },
      .deliver ⟨some 2, 1, 3, .chats [lidChat]⟩,
      .deliver ⟨none, 1, 2, .invalidated .chats none⟩, .finishWindow, .receive, .receive, .receive]
    ¬∀ s ∈ states step (opened 1 0 [lidChat]) steps, s.Quiet → s.Shows := by
  intro steps h
  exact absurd (h _ (run_mem_states _ _ _) (by decide)) (by decide)

end ChatListSession

end OmarchyWhatsapp
