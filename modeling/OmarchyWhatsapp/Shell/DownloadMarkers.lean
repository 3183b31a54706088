import Mathlib.Tactic.Common
import OmarchyWhatsapp.Shell.MediaDownloads

/-!
# The busy markers of the shell

What a frame, an expired request and a click do to the downloads that the shell marks: only a
click marks one, an error unmarks the download of its request, and the broadcast that ends a
download unmarks its key.
-/

namespace OmarchyWhatsapp

/-! ## Handling a frame -/

namespace Service

/-- The downloads stay as they are, and every new request has a new id. -/
structure KeepsDownloads (s s' : Service) : Prop where
  frames : SameFrames s s'
  marked : s'.mediaDownloadRequests = s.mediaDownloadRequests
  ids : s'.mediaDownloadRequestIds = s.mediaDownloadRequestIds
  next : s.nextRequestId ≤ s'.nextRequestId
  requests : ∀ r ∈ s'.requests, r ∈ s.requests ∨
    s.nextRequestId ≤ r.id ∧ r.id < s'.nextRequestId

/-- No download is marked or asked for by a frame; what is marked still waits for its answer. -/
structure Handled (f : ServerFrame) (s s' : Service) : Prop where
  connected : s'.connected = s.connected
  compatible : s.protocolCompatible = true → s'.protocolCompatible = true
  generation : s'.mediaDownloadRequests ≠ [] → s'.daemonGeneration = s.daemonGeneration
  marked : ∀ key ∈ s'.mediaDownloadRequests, key ∈ s.mediaDownloadRequests
  ids : ∀ p ∈ s'.mediaDownloadRequestIds, p ∈ s.mediaDownloadRequestIds
  waiting : ∀ p ∈ s.mediaDownloadRequestIds, p.2 ∈ s'.mediaDownloadRequests → f.id ≠ some p.1 →
    p ∈ s'.mediaDownloadRequestIds
  next : s.nextRequestId ≤ s'.nextRequestId
  requests : ∀ r ∈ s'.requests, r ∈ s.requests ∨
    s.nextRequestId ≤ r.id ∧ r.id < s'.nextRequestId

/-- New requests stay new when further ones are made. -/
theorem newRequests_trans {s s' s'' : Service} (hnext : s.nextRequestId ≤ s'.nextRequestId)
    (hnext' : s'.nextRequestId ≤ s''.nextRequestId)
    (h : ∀ r ∈ s'.requests, r ∈ s.requests ∨
      s.nextRequestId ≤ r.id ∧ r.id < s'.nextRequestId)
    (h' : ∀ r ∈ s''.requests, r ∈ s'.requests ∨
      s'.nextRequestId ≤ r.id ∧ r.id < s''.nextRequestId) :
    ∀ r ∈ s''.requests, r ∈ s.requests ∨ s.nextRequestId ≤ r.id ∧ r.id < s''.nextRequestId := by
  intro r hr
  rcases h' r hr with hr | hr
  · rcases h r hr with hr | hr
    · exact Or.inl hr
    · exact Or.inr (by omega)
  · exact Or.inr (by omega)

theorem KeepsDownloads.trans {s s' s'' : Service} (h : KeepsDownloads s s')
    (h' : KeepsDownloads s' s'') : KeepsDownloads s s'' where
  frames := h.frames.trans h'.frames
  marked := h'.marked.trans h.marked
  ids := h'.ids.trans h.ids
  next := h.next.trans h'.next
  requests := newRequests_trans h.next h'.next h.requests h'.requests

theorem Handled.trans {f : ServerFrame} {s s' s'' : Service} (h : Handled f s s')
    (h' : Handled f s' s'') : Handled f s s'' where
  connected := h'.connected.trans h.connected
  compatible := fun hc => h'.compatible (h.compatible hc)
  generation := fun hmarked => by
    obtain ⟨key, hkey⟩ := List.exists_mem_of_ne_nil _ hmarked
    exact (h'.generation hmarked).trans
      (h.generation (List.ne_nil_of_mem (h'.marked key hkey)))
  marked := fun key hkey => h.marked key (h'.marked key hkey)
  ids := fun p hp => h.ids p (h'.ids p hp)
  waiting := fun p hp hkey hid => h'.waiting p (h.waiting p hp (h'.marked _ hkey) hid) hkey hid
  next := h.next.trans h'.next
  requests := newRequests_trans h.next h'.next h.requests h'.requests

theorem KeepsDownloads.handled {s s' : Service} (h : KeepsDownloads s s') (f : ServerFrame) :
    Handled f s s' where
  connected := h.frames.connected
  compatible := fun hc => h.frames.compatible.trans hc
  generation := fun _ => h.frames.generation
  marked := fun key hkey => h.marked ▸ hkey
  ids := fun p hp => h.ids ▸ hp
  waiting := fun p hp _ _ => by
    rw [h.ids]
    exact hp
  next := h.next
  requests := h.requests

theorem Handled.refl (f : ServerFrame) (s : Service) : Handled f s s :=
  ⟨rfl, id, fun _ => rfl, fun _ h => h, fun _ h => h, fun _ h _ _ => h, le_refl _,
    fun _ h => Or.inl h⟩

theorem keepsDownloads_send (s : Service) (command : ClientCommand) :
    KeepsDownloads s (s.send command).1 := by
  refine ⟨sameFrames_send s command, ?_, ?_, ?_, ?_⟩ <;> unfold send <;> split
  · rfl
  · rfl
  · rfl
  · rfl
  · exact le_refl _
  · exact Nat.le_succ _
  · exact fun r hr => Or.inl hr
  · intro r hr
    rcases List.mem_append.mp hr with hr | hr
    · exact Or.inl hr
    · rw [List.mem_singleton.mp hr]
      exact Or.inr ⟨le_refl _, Nat.lt_succ_self _⟩

theorem keepsDownloads_refreshMetadata (s : Service) : KeepsDownloads s s.refreshMetadata :=
  (keepsDownloads_send s _).trans ((keepsDownloads_send _ _).trans
    ((keepsDownloads_send _ _).trans ((keepsDownloads_send _ _).trans (keepsDownloads_send _ _))))

theorem keepsDownloads_handleChats (s : Service) (chats : List Chat) :
    KeepsDownloads s (s.handleChats chats) := by
  refine ⟨sameFrames_handleChats s chats, ?_, ?_, ?_, ?_⟩ <;> unfold handleChats <;>
    dsimp only <;> split <;> try split
  all_goals first | rfl | exact le_refl _ | exact fun r hr => Or.inl hr

/-- A newer generation ends all downloads of the shell. -/
theorem handled_enterGeneration (s : Service) (f : ServerFrame) (generation : ℕ) :
    Handled f s (s.enterGeneration generation) := by
  unfold enterGeneration
  split
  · exact ⟨rfl, id, fun h => absurd rfl h, nofun, nofun, nofun, le_refl _, fun _ h => Or.inl h⟩
  · exact Handled.refl f s

theorem handled_takeFrame (s : Service) (f : ServerFrame) : Handled f s (s.takeFrame f).1 := by
  unfold takeFrame
  split
  · exact Handled.refl f s
  · split
    · exact Handled.refl f s
    · exact ⟨rfl, id, fun _ => rfl, fun _ h => h, fun _ h => h, fun _ h _ _ => h, le_refl _,
        fun _ h => Or.inl h⟩

theorem handled_acceptFrame (s : Service) (f : ServerFrame) :
    Handled f s (s.acceptFrame f).1 := by
  unfold acceptFrame
  split
  · exact Handled.refl f s
  · exact (handled_enterGeneration s f _).trans (handled_takeFrame _ f)

theorem ids_takeFrame (s : Service) (f : ServerFrame) :
    (s.takeFrame f).1.mediaDownloadRequestIds = s.mediaDownloadRequestIds ∧
      (s.takeFrame f).1.mediaDownloadRequests = s.mediaDownloadRequests := by
  unfold takeFrame
  split
  · exact ⟨rfl, rfl⟩
  · split <;> exact ⟨rfl, rfl⟩

/-- A frame before its event: all downloads are forgotten, or none. -/
theorem acceptFrame_ids (s : Service) (f : ServerFrame) :
    (s.acceptFrame f).1.mediaDownloadRequests = [] ∨
      (s.acceptFrame f).1.mediaDownloadRequestIds = s.mediaDownloadRequestIds := by
  unfold acceptFrame
  split
  · exact Or.inr rfl
  · obtain ⟨hids, hmarked⟩ := ids_takeFrame (s.enterGeneration f.generation) f
    rw [hids, hmarked]
    unfold enterGeneration
    split
    · exact Or.inl rfl
    · exact Or.inr rfl

theorem handled_finishMediaDownloadRequest (s : Service) (f : ServerFrame) (isError : Bool) :
    Handled f s (s.finishMediaDownloadRequest f.id isError) := by
  unfold finishMediaDownloadRequest
  split
  · exact Handled.refl f s
  · refine ⟨rfl, id, fun _ => rfl, ?_, ?_, ?_, le_refl _, fun _ h => Or.inl h⟩
    · intro key hkey
      dsimp only at hkey
      split at hkey
      · exact List.mem_of_mem_filter hkey
      · exact hkey
    · intro p hp
      exact List.mem_of_mem_filter hp
    · intro p hp _ hid
      exact List.mem_filter.mpr ⟨hp, decide_eq_true (Ne.symm hid)⟩

theorem handled_clearMediaDownloadState (s : Service) (f : ServerFrame)
    (chatJid messageId : String) : Handled f s (s.clearMediaDownloadState chatJid messageId) :=
  ⟨rfl, id, fun _ => rfl, fun _ hkey => List.mem_of_mem_filter hkey, fun _ hp => hp,
    fun _ hp _ _ => hp, le_refl _, fun _ h => Or.inl h⟩

theorem handled_handleEvent (s : Service) (f : ServerFrame) (event : ServerEvent) :
    Handled f s (s.handleEvent event) := by
  cases event with
  | chats chats => exact (keepsDownloads_handleChats s chats).handled f
  | invalidated resource key =>
    cases resource with
    | chats => exact (keepsDownloads_send s _).handled f
    | messages => exact Handled.refl f s
  | mediaDownloaded chatJid messageId => exact handled_clearMediaDownloadState s f _ _
  | mediaDownloadFailed chatJid messageId => exact handled_clearMediaDownloadState s f _ _
  | state unreadTotal =>
    exact ⟨rfl, id, fun _ => rfl, fun _ h => h, fun _ h => h, fun _ h _ _ => h, le_refl _,
      fun _ h => Or.inl h⟩
  | unread total =>
    exact ⟨rfl, id, fun _ => rfl, fun _ h => h, fun _ h => h, fun _ h _ _ => h, le_refl _,
      fun _ h => Or.inl h⟩
  | _ => exact Handled.refl f s

theorem handled_handleFrame (s : Service) (f : ServerFrame) : Handled f s (s.handleFrame f) := by
  unfold handleFrame
  split
  · exact Handled.refl f s
  · have hfinished := (handled_acceptFrame s f).trans
      (handled_finishMediaDownloadRequest _ f (isError f.event))
    dsimp only
    split
    · exact hfinished.trans (handled_handleEvent _ f f.event)
    · exact hfinished

theorem handled_handleLine (s : Service) {f : ServerFrame}
    (hhello : isHello f.event = true → f.event = .hello protocolVersion) :
    Handled f s (s.handleLine f) := by
  unfold handleLine
  split
  · rename_i version hevent
    rw [hevent] at hhello
    have hversion := ServerEvent.hello.inj (hhello rfl)
    dsimp only
    split
    · rw [handleHello, if_neg (not_not.mpr hversion)]
      have hgreeted : Handled f (s.acceptFrame f).1
          { (s.acceptFrame f).1 with protocolCompatible := true } :=
        ⟨rfl, fun _ => rfl, fun _ => rfl, fun _ h => h, fun _ h => h, fun _ h _ _ => h, le_refl _,
          fun _ h => Or.inl h⟩
      exact (handled_acceptFrame s f).trans
        (hgreeted.trans ((keepsDownloads_refreshMetadata _).handled f))
    · exact handled_acceptFrame s f
  · exact handled_handleFrame s f

/-- The shell knows the generations of the frames that it has handled. -/
theorem daemonGeneration_handleLine (s : Service) (f : ServerFrame) :
    (s.handleLine f).daemonGeneration = s.daemonGeneration ∨
      (s.handleLine f).daemonGeneration = f.generation := by
  have haccepted := daemonGeneration_acceptFrame s f
  unfold handleLine
  split
  · dsimp only
    split
    · unfold handleHello
      split
      · exact haccepted
      · rw [(sameFrames_refreshMetadata _).generation]
        exact haccepted
    · exact haccepted
  · unfold handleFrame
    split
    · exact Or.inl rfl
    · have hfinished := (sameFrames_finishMediaDownloadRequest (s.acceptFrame f).1 f.id
        (isError f.event)).generation
      dsimp only
      split
      · rw [(sameFrames_handleEvent_other _ f.event "").2, hfinished]
        exact haccepted
      · rw [hfinished]
        exact haccepted

/-! ## Unmarking -/

theorem lookup_of_mem {ids : List (ℕ × String)} {id : ℕ} {key : String} (hmem : (id, key) ∈ ids)
    (hfunctional : ∀ p ∈ ids, ∀ q ∈ ids, p.1 = q.1 → p = q) : ids.lookup id = some key := by
  cases hlookup : ids.lookup id with
  | none =>
    have habsent := List.lookup_eq_none_iff.mp hlookup (id, key) hmem
    exact absurd rfl (bne_iff_ne.mp habsent)
  | some found =>
    obtain ⟨l₁, l₂, hids, -⟩ := List.lookup_eq_some_iff.mp hlookup
    have hfound : (id, found) ∈ ids := by
      rw [hids]
      exact List.mem_append_right _ List.mem_cons_self
    exact congrArg (fun p => some p.2) (hfunctional _ hfound _ hmem rfl)

theorem notMem_finishMediaDownloadRequest {s : Service} {id : ℕ} {key : String}
    (hmem : (id, key) ∈ s.mediaDownloadRequestIds)
    (hfunctional : ∀ p ∈ s.mediaDownloadRequestIds, ∀ q ∈ s.mediaDownloadRequestIds,
      p.1 = q.1 → p = q) :
    key ∉ (s.finishMediaDownloadRequest (some id) true).mediaDownloadRequests := by
  intro hkey
  unfold finishMediaDownloadRequest at hkey
  rw [Option.bind_some, lookup_of_mem hmem hfunctional] at hkey
  dsimp only at hkey
  rw [if_pos rfl, List.mem_filter] at hkey
  exact of_decide_eq_true hkey.2 rfl

/-- An error ends the download whose request it answers. -/
theorem notMem_handleLine_error {s : Service} {f : ServerFrame} {id : ℕ} {key : String}
    (hcompatible : s.protocolCompatible = true) (hid : f.id = some id)
    (herror : isError f.event = true) (hmem : (id, key) ∈ s.mediaDownloadRequestIds)
    (hfunctional : ∀ p ∈ s.mediaDownloadRequestIds, ∀ q ∈ s.mediaDownloadRequestIds,
      p.1 = q.1 → p = q) : key ∉ (s.handleLine f).mediaDownloadRequests := by
  obtain ⟨message, hevent⟩ : ∃ message, f.event = .error message := by
    cases hevent : f.event with
    | error message => exact ⟨message, rfl⟩
    | _ =>
      rw [hevent] at herror
      cases herror
  have hfinished : s.handleLine f =
      (s.acceptFrame f).1.finishMediaDownloadRequest (some id) true := by
    rw [handleLine_of_not_hello s (by rw [hevent]; rfl), handleFrame,
      if_neg (by rw [hcompatible]; decide), herror, hevent, hid]
    exact ite_self _
  rw [hfinished]
  rcases acceptFrame_ids s f with hnone | hids
  · intro hkey
    have hhandled := handled_finishMediaDownloadRequest (s.acceptFrame f).1 f true
    rw [hid] at hhandled
    have hmarked := hhandled.marked key hkey
    rw [hnone] at hmarked
    cases hmarked
  · rw [← hids] at hmem hfunctional
    exact notMem_finishMediaDownloadRequest hmem hfunctional

/-- The broadcast that ends a download clears its marker. -/
theorem notMem_handleLine_ended {s : Service} {f : ServerFrame} {key : String}
    (hcompatible : s.protocolCompatible = true) (hid : f.id = none)
    (hended : f.event.endedDownload = some key)
    (htaken : f.generation = 0 ∨ s.daemonGeneration ≤ f.generation) :
    key ∉ (s.handleLine f).mediaDownloadRequests := by
  have haccepted : (s.acceptFrame f).2 = true := by
    have hkey : f.resourceKey = "" := by
      unfold ServerFrame.resourceKey
      rw [hid]
      cases hevent : f.event with
      | mediaDownloaded chatJid messageId => rfl
      | mediaDownloadFailed chatJid messageId => rfl
      | _ =>
        rw [hevent] at hended
        cases hended
    rw [acceptFrame, if_neg (by omega), takeFrame, if_pos (Or.inr hkey)]
  have hhello : isHello f.event = false := by
    cases hevent : f.event with
    | hello version =>
      rw [hevent] at hended
      cases hended
    | _ => rfl
  rw [handleLine_of_not_hello s hhello, handleFrame, if_neg (by rw [hcompatible]; decide)]
  dsimp only
  rw [haccepted, if_pos rfl]
  have hcleared : ∀ (s' : Service) (chatJid messageId : String),
      mediaDownloadKey chatJid messageId = key →
        key ∉ (s'.clearMediaDownloadState chatJid messageId).mediaDownloadRequests := by
    rintro s' chatJid messageId rfl hmem
    exact of_decide_eq_true (List.mem_filter.mp hmem).2 rfl
  cases hevent : f.event with
  | mediaDownloaded chatJid messageId =>
    rw [hevent] at hended
    exact hcleared _ _ _ (Option.some.inj hended)
  | mediaDownloadFailed chatJid messageId =>
    rw [hevent] at hended
    exact hcleared _ _ _ (Option.some.inj hended)
  | _ =>
    rw [hevent] at hended
    cases hended

/-! ## Marking -/

/-- A download is passed over, or its request is written and its key marked. -/
theorem downloadMedia_cases (s : Service) (message : Message) :
    s.downloadMedia message = s ∨
      s.connected = true ∧ s.protocolCompatible = true ∧
        s.downloadMedia message = { s with
          nextRequestId := s.nextRequestId + 1
          requests := s.requests ++ [⟨s.nextRequestId, .downloadMedia message.chatJid message.id⟩]
          mediaDownloadRequests :=
            mediaDownloadKey message.chatJid message.id :: s.mediaDownloadRequests
          mediaDownloadRequestIds := s.mediaDownloadRequestIds ++
            [(s.nextRequestId, mediaDownloadKey message.chatJid message.id)] } := by
  unfold downloadMedia
  dsimp only
  split
  · exact Or.inl rfl
  · unfold send
    by_cases hsend : s.connected = false ∨ s.protocolCompatible = false
    · rw [if_pos hsend]
      exact Or.inl rfl
    · rw [if_neg hsend]
      split
      · exact Or.inl rfl
      · rename_i sent requestId _ hsent
        obtain ⟨rfl, rfl⟩ := Prod.mk.inj hsent
        rw [not_or, Bool.not_eq_false, Bool.not_eq_false] at hsend
        exact Or.inr ⟨hsend.1, hsend.2, rfl⟩

end Service

end OmarchyWhatsapp
