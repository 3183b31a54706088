import Mathlib.Tactic.Common
import OmarchyWhatsapp.Relational.Run
import OmarchyWhatsapp.Shell.DownloadMarkers

/-!
# A download that is marked as busy is outstanding

The marker of a download is set with its request and outlives the ack. It is cleared by an error,
or by the broadcast that ends the download: that broadcast must name the chat as the shell does,
and must not be lost.
-/

namespace OmarchyWhatsapp

open Relational

namespace MediaSession

variable {s : MediaSession} {key : String}

/-! ## What is outstanding -/

/-- The request has been answered, and not with an error. -/
def Acked (s : MediaSession) (id : ℕ) : Prop :=
  (∃ a ∈ s.answers, a.1 = id ∧ Service.isError a.2 = false) ∨
    ∃ f ∈ s.wire, f.id = some id ∧ Service.isError f.event = false

/-- The shell waits for an answer that is not an ack, to another request than `apart`. -/
def Pending (s : MediaSession) (key : String) (apart : Option ℕ) : Prop :=
  ∃ p ∈ s.shell.mediaDownloadRequestIds, p.2 = key ∧ some p.1 ≠ apart ∧ ¬s.Acked p.1

/-- A job of the daemon has the download, or has yet to publish its outcome. -/
def InFlight (s : MediaSession) (key : String) : Prop :=
  ∃ job ∈ s.jobs, mediaDownloadKey job.chatJid job.messageId = key

/-- The broadcast that ends the download is on its way, and the shell will take it. -/
def Announced (s : MediaSession) (key : String) : Prop :=
  ∃ f ∈ s.wire, f.id = none ∧ f.event.endedDownload = some key ∧
    (f.generation = 0 ∨ s.shell.daemonGeneration ≤ f.generation)

def Outstanding (s : MediaSession) (key : String) (apart : Option ℕ) : Prop :=
  s.Pending key apart ∨ s.InFlight key ∨ s.Announced key

instance (s : MediaSession) (id : ℕ) : Decidable (s.Acked id) :=
  inferInstanceAs (Decidable (_ ∨ _))

instance (s : MediaSession) (key : String) (apart : Option ℕ) : Decidable (s.Pending key apart) :=
  inferInstanceAs (Decidable (∃ p ∈ s.shell.mediaDownloadRequestIds, _))

instance (s : MediaSession) (key : String) : Decidable (s.InFlight key) :=
  inferInstanceAs (Decidable (∃ job ∈ s.jobs, _))

instance (s : MediaSession) (key : String) : Decidable (s.Announced key) :=
  inferInstanceAs (Decidable (∃ f ∈ s.wire, _))

instance (s : MediaSession) (key : String) (apart : Option ℕ) :
    Decidable (s.Outstanding key apart) := inferInstanceAs (Decidable (_ ∨ _))

/-- The daemon knows the chat of a download by the JID that the shell gave; the broadcast that
ends it is not lost, and not of an older generation than the shell's. Otherwise something else
must be outstanding for it. -/
def Kept (s : MediaSession) : MediaStep → Prop
  | .start request found => match request.command with
    | .downloadMedia chatJid messageId =>
      let key := mediaDownloadKey chatJid messageId
      request ∈ s.handling → (s.startMediaDownload messageId found).isOk = true →
        key ∈ s.shell.mediaDownloadRequests →
        (request.id, key) ∈ s.shell.mediaDownloadRequestIds →
        found.chatJid = chatJid ∨ s.Outstanding key (some request.id)
    | _ => True
  | .announce job _ =>
    let key := mediaDownloadKey job.chatJid job.messageId
    key ∈ s.shell.mediaDownloadRequests → s.generation = 0 ∨
      s.shell.daemonGeneration ≤ s.generation ∨
      Outstanding { s with jobs := s.jobs.erase job } key none
  | .lag lost => ∀ key ∈ s.shell.mediaDownloadRequests, ∀ f ∈ s.wire,
      f.event.endedDownload = some key → survives lost f = false →
      Outstanding { s with wire := s.wire.filter (survives lost) } key none
  | _ => True

instance (s : MediaSession) (a : MediaStep) : Decidable (s.Kept a) := by
  apply MediaStep.casesOn (motive := fun a => Decidable (s.Kept a)) a
  case start =>
    rintro ⟨id, command⟩ found
    cases command <;>
    · dsimp only [Kept]
      infer_instance
  all_goals
    intros
    dsimp only [Kept]
    infer_instance

/-! ## Ids and jobs -/

structure Tidy (s : MediaSession) : Prop where
  linked : s.shell.mediaDownloadRequests ≠ [] →
    s.shell.connected = true ∧ s.shell.protocolCompatible = true
  functional : ∀ p ∈ s.shell.mediaDownloadRequestIds, ∀ q ∈ s.shell.mediaDownloadRequestIds,
    p.1 = q.1 → p = q
  ids : ∀ p ∈ s.shell.mediaDownloadRequestIds, p.1 < s.shell.nextRequestId
  requests : ∀ r ∈ s.shell.requests ++ s.handling, r.id < s.shell.nextRequestId
  asked : ∀ r ∈ s.shell.requests ++ s.handling, ∀ p ∈ s.shell.mediaDownloadRequestIds,
    p.1 = r.id → ∃ chatJid messageId,
      r.command = .downloadMedia chatJid messageId ∧ p.2 = mediaDownloadKey chatJid messageId
  answers : ∀ a ∈ s.answers, a.1 < s.shell.nextRequestId ∧ isHello a.2 = false
  wire : ∀ f ∈ s.wire, (∀ id, f.id = some id → id < s.shell.nextRequestId) ∧
    (isHello f.event = true → f.event = .hello protocolVersion)
  jobs : ∀ d ∈ s.downloads, ∃ job ∈ s.jobs, job.ended = false ∧ (job.chatJid, job.messageId) = d

/-- Every marked download is outstanding. -/
def AllOutstanding (s : MediaSession) : Prop :=
  ∀ key ∈ s.shell.mediaDownloadRequests, s.Outstanding key none

theorem Acked.of_sub {s' : MediaSession} {id : ℕ} (h : s'.Acked id)
    (hanswers : ∀ a ∈ s'.answers, a ∈ s.answers)
    (hwire : ∀ f ∈ s'.wire, f ∈ s.wire ∨ f.id = none) : s.Acked id := by
  rcases h with ⟨a, ha, h⟩ | ⟨f, hf, hid, herror⟩
  · exact Or.inl ⟨a, hanswers a ha, h⟩
  · rcases hwire f hf with hf | hnone
    · exact Or.inr ⟨f, hf, hid, herror⟩
    · rw [hid] at hnone
      cases hnone

/-- What is outstanding stays so while no ack is added and nothing is taken away. -/
theorem Outstanding.mono {s' : MediaSession} {apart : Option ℕ} (h : s.Outstanding key apart)
    (hids : ∀ p ∈ s.shell.mediaDownloadRequestIds, p ∈ s'.shell.mediaDownloadRequestIds)
    (hacked : ∀ id, s'.Acked id → s.Acked id) (hjobs : ∀ job ∈ s.jobs, job ∈ s'.jobs)
    (hwire : ∀ f ∈ s.wire, f ∈ s'.wire)
    (hgeneration : s'.shell.daemonGeneration = s.shell.daemonGeneration) :
    s'.Outstanding key apart := by
  rcases h with ⟨p, hp, hkey, hne, hpending⟩ | ⟨job, hjob, hkey⟩ | ⟨f, hf, hid, hended, htaken⟩
  · exact Or.inl ⟨p, hids p hp, hkey, hne, fun h => hpending (hacked _ h)⟩
  · exact Or.inr (Or.inl ⟨job, hjobs job hjob, hkey⟩)
  · exact Or.inr (Or.inr ⟨f, hwire f hf, hid, hended, by rwa [hgeneration]⟩)

/-! ## Steps of the connection -/

theorem mem_stamp {id : Option ℕ} {event : ServerEvent} {f : ServerFrame}
    (hf : f ∈ (s.stamp id event).wire) :
    f ∈ s.wire ∨ f = ⟨id, s.generation, s.revision + 1, event⟩ := by
  unfold stamp at hf
  dsimp only at hf
  split at hf
  · exact (List.mem_append.mp hf).imp_right List.mem_singleton.mp
  · exact Or.inl hf

theorem mem_stamp_of_mem {id : Option ℕ} {event : ServerEvent} {f : ServerFrame}
    (hf : f ∈ s.wire) : f ∈ (s.stamp id event).wire := by
  unfold stamp
  dsimp only
  split
  · exact List.mem_append_left _ hf
  · exact hf

theorem Tidy.stamp (h : s.Tidy) {id : Option ℕ} {event : ServerEvent}
    (hid : ∀ i, id = some i → i < s.shell.nextRequestId)
    (hhello : isHello event = true → event = .hello protocolVersion) :
    (s.stamp id event).Tidy where
  linked := h.linked
  functional := h.functional
  ids := h.ids
  requests := h.requests
  asked := h.asked
  answers := h.answers
  wire := fun f hf => by
    rcases mem_stamp hf with hf | rfl
    · exact h.wire f hf
    · exact ⟨hid, hhello⟩
  jobs := h.jobs

/-- A broadcast answers no request. -/
theorem Outstanding.stamp {apart : Option ℕ} (h : s.Outstanding key apart) (event : ServerEvent) :
    (s.stamp none event).Outstanding key apart :=
  h.mono (fun _ hp => hp)
    (fun _ hacked => hacked.of_sub (fun _ ha => ha) fun f hf =>
      (mem_stamp hf).imp_right fun heq => by rw [heq])
    (fun _ hjob => hjob) (fun _ hf => mem_stamp_of_mem hf) rfl

/-- What a frame may do to the downloads of the shell. -/
theorem Tidy.of_handled (h : s.Tidy) {f : ServerFrame} {shell : Service} {wire : List ServerFrame}
    (hhandled : Service.Handled f s.shell shell) (hwire : ∀ g ∈ wire, g ∈ s.wire) :
    Tidy { s with shell, wire } where
  linked := fun hmarked => by
    obtain ⟨key, hkey⟩ := List.exists_mem_of_ne_nil _ hmarked
    obtain ⟨hconnected, hcompatible⟩ :=
      h.linked (List.ne_nil_of_mem (hhandled.marked key hkey))
    exact ⟨hhandled.connected.trans hconnected, hhandled.compatible hcompatible⟩
  functional := fun p hp q hq => h.functional p (hhandled.ids p hp) q (hhandled.ids q hq)
  ids := fun p hp => lt_of_lt_of_le (h.ids p (hhandled.ids p hp)) hhandled.next
  requests := fun r hr => by
    have hnext := hhandled.next
    rcases List.mem_append.mp hr with hr | hr
    · rcases hhandled.requests r hr with hr | hr
      · exact lt_of_lt_of_le (h.requests r (List.mem_append_left _ hr)) hnext
      · exact hr.2
    · exact lt_of_lt_of_le (h.requests r (List.mem_append_right _ hr)) hnext
  asked := fun r hr p hp hid => by
    have hold := hhandled.ids p hp
    rcases List.mem_append.mp hr with hr | hr
    · rcases hhandled.requests r hr with hr | hr
      · exact h.asked r (List.mem_append_left _ hr) p hold hid
      · -- the request is new: no download waits for it
        have hlt := h.ids p hold
        omega
    · exact h.asked r (List.mem_append_right _ hr) p hold hid
  answers := fun a ha => by
    obtain ⟨hlt, hhello⟩ := h.answers a ha
    exact ⟨lt_of_lt_of_le hlt hhandled.next, hhello⟩
  wire := fun g hg => by
    obtain ⟨hid, hhello⟩ := h.wire g (hwire g hg)
    exact ⟨fun id hsome => lt_of_lt_of_le (hid id hsome) hhandled.next, hhello⟩
  jobs := h.jobs

theorem tidy_deliver (h : s.Tidy) {f : ServerFrame} (hf : f ∈ s.wire) :
    Tidy { s with wire := s.wire.erase f, shell := s.shell.handleLine f } :=
  h.of_handled (Service.handled_handleLine s.shell (h.wire f hf).2)
    fun _ hg => List.mem_of_mem_erase hg

/-- What the frame leaves marked is outstanding without it. -/
theorem allOutstanding_deliver (h : s.Tidy) (hall : s.AllOutstanding) {f : ServerFrame}
    (hf : f ∈ s.wire) :
    AllOutstanding { s with wire := s.wire.erase f, shell := s.shell.handleLine f } := by
  intro key hkey
  have hhandled := Service.handled_handleLine s.shell (h.wire f hf).2
  have hmarked := hhandled.marked key hkey
  have hcompatible := (h.linked (List.ne_nil_of_mem hmarked)).2
  have hgeneration := hhandled.generation (List.ne_nil_of_mem hkey)
  rcases hall key hmarked with ⟨p, hp, hpkey, hne, hpending⟩ | hflight |
    ⟨g, hg, hid, hended, htaken⟩
  · refine Or.inl ⟨p, hhandled.waiting p hp (hpkey ▸ hkey) fun hid => ?_, hpkey, hne,
      fun hacked => hpending (hacked.of_sub (fun _ ha => ha) fun g hg =>
        Or.inl (List.mem_of_mem_erase hg))⟩
    -- the answer to the request is no ack, and an error clears the marker
    cases herror : Service.isError f.event with
    | false => exact hpending (Or.inr ⟨f, hf, hid, herror⟩)
    | true =>
      exact Service.notMem_handleLine_error hcompatible hid herror
        (show (p.1, key) ∈ _ from hpkey ▸ hp) h.functional hkey
  · exact Or.inr (Or.inl hflight)
  · refine Or.inr (Or.inr ⟨g, (List.mem_erase_of_ne ?_).mpr hg, hid, hended, ?_⟩)
    · rintro rfl
      exact Service.notMem_handleLine_ended hcompatible hid hended htaken hkey
    · exact hgeneration ▸ htaken

theorem sound_expire (h : s.Tidy) (hall : s.AllOutstanding) (id : ℕ) :
    Tidy { s with shell := s.shell.expireRequest id } ∧
      AllOutstanding { s with shell := s.shell.expireRequest id } := by
  have hhandled := Service.handled_finishMediaDownloadRequest s.shell
    ⟨some id, 0, 0, .error ""⟩ true
  refine ⟨h.of_handled hhandled fun _ hg => hg, fun key hkey => ?_⟩
  have hmarked := hhandled.marked key hkey
  rcases hall key hmarked with ⟨p, hp, hpkey, hne, hpending⟩ | hrest
  · refine Or.inl ⟨p, hhandled.waiting p hp (hpkey ▸ hkey) fun hid => ?_, hpkey, hne, hpending⟩
    rw [Option.some.inj hid] at hkey
    exact Service.notMem_finishMediaDownloadRequest (show (p.1, key) ∈ _ from hpkey ▸ hp)
      h.functional hkey
  · refine Or.inr (hrest.imp_right fun ⟨g, hg, hid, hended, htaken⟩ => ⟨g, hg, hid, hended, ?_⟩)
    have hgeneration := hhandled.generation (List.ne_nil_of_mem hkey)
    exact hgeneration ▸ htaken

theorem tidy_lag (h : s.Tidy) (lost : List ServerFrame) : (s.step (.lag lost)).Tidy := by
  have hfiltered : Tidy { s with wire := s.wire.filter (survives lost) } :=
    h.of_handled (Service.Handled.refl ⟨none, 0, 0, .ack⟩ s.shell)
      fun _ hg => List.mem_of_mem_filter hg
  exact hfiltered.stamp nofun fun _ => rfl

theorem allOutstanding_lag (hall : s.AllOutstanding) (lost : List ServerFrame)
    (hkept : s.Kept (.lag lost)) : (s.step (.lag lost)).AllOutstanding := by
  intro key hkey
  refine Outstanding.stamp ?_ _
  rcases hall key hkey with ⟨p, hp, hpkey, hne, hpending⟩ | hflight | ⟨f, hf, hid, hended, htaken⟩
  · exact Or.inl ⟨p, hp, hpkey, hne, fun hacked => hpending (hacked.of_sub (fun _ ha => ha)
      fun _ hg => Or.inl (List.mem_of_mem_filter hg))⟩
  · exact Or.inr (Or.inl hflight)
  · cases hsurvives : survives lost f with
    | true =>
      exact Or.inr (Or.inr ⟨f, List.mem_filter.mpr ⟨hf, hsurvives⟩, hid, hended, htaken⟩)
    | false => exact hkept key hkey f hf hended hsurvives

/-- Without a connection nothing is marked, and nothing waits for an answer. -/
theorem tidy_drop (h : s.Tidy) {shell : Service} (hmarked : shell.mediaDownloadRequests = [])
    (hids : shell.mediaDownloadRequestIds = []) (hrequests : shell.requests = []) :
    Tidy (drop { s with shell }) where
  linked := fun hne => absurd hmarked hne
  functional := fun p hp => by
    rw [show (drop { s with shell }).shell.mediaDownloadRequestIds = [] from hids] at hp
    cases hp
  ids := fun p hp => by
    rw [show (drop { s with shell }).shell.mediaDownloadRequestIds = [] from hids] at hp
    cases hp
  requests := fun r hr => by
    rw [show (drop { s with shell }).shell.requests = [] from hrequests] at hr
    cases hr
  asked := fun r hr => by
    rw [show (drop { s with shell }).shell.requests = [] from hrequests] at hr
    cases hr
  answers := nofun
  wire := nofun
  jobs := h.jobs

/-! ## Steps of the requests -/

theorem tidy_download (h : s.Tidy) (message : Message) :
    (s.step (.download message)).Tidy := by
  rw [step]
  rcases Service.downloadMedia_cases s.shell message with heq | ⟨hconnected, hcompatible, heq⟩
  · rw [heq]
    exact h
  · -- the id of the new request is not in use
    have hid_ne : ∀ p ∈ s.shell.mediaDownloadRequestIds, p.1 ≠ s.shell.nextRequestId :=
      fun p hp => (h.ids p hp).ne
    have hrequest_ne : ∀ r ∈ s.shell.requests ++ s.handling, r.id ≠ s.shell.nextRequestId :=
      fun r hr => (h.requests r hr).ne
    rw [heq]
    refine ⟨fun _ => ⟨hconnected, hcompatible⟩, ?_, ?_, ?_, ?_, ?_, ?_, h.jobs⟩
    · intro p hp q hq hid
      rcases List.mem_append.mp hp with hp | hp <;> rcases List.mem_append.mp hq with hq | hq
      · exact h.functional p hp q hq hid
      · rw [List.mem_singleton.mp hq] at hid
        exact absurd hid (hid_ne p hp)
      · rw [List.mem_singleton.mp hp] at hid
        exact absurd hid.symm (hid_ne q hq)
      · rw [List.mem_singleton.mp hp, List.mem_singleton.mp hq]
    · intro p hp
      rcases List.mem_append.mp hp with hp | hp
      · exact Nat.lt_succ_of_lt (h.ids p hp)
      · rw [List.mem_singleton.mp hp]
        exact Nat.lt_succ_self _
    · intro r hr
      dsimp only at hr ⊢
      rw [List.append_assoc, List.mem_append, List.mem_append, List.mem_singleton] at hr
      rcases hr with hr | rfl | hr
      · exact Nat.lt_succ_of_lt (h.requests r (List.mem_append_left _ hr))
      · exact Nat.lt_succ_self _
      · exact Nat.lt_succ_of_lt (h.requests r (List.mem_append_right _ hr))
    · intro r hr p hp hid
      dsimp only at hr hp
      rw [List.append_assoc, List.mem_append, List.mem_append, List.mem_singleton] at hr
      rw [List.mem_append, List.mem_singleton] at hp
      rcases hp with hp | rfl
      · rcases hr with hr | rfl | hr
        · exact h.asked r (List.mem_append_left _ hr) p hp hid
        · exact absurd hid (hid_ne p hp)
        · exact h.asked r (List.mem_append_right _ hr) p hp hid
      · rcases hr with hr | rfl | hr
        · exact absurd hid.symm (hrequest_ne r (List.mem_append_left _ hr))
        · exact ⟨_, _, rfl, rfl⟩
        · exact absurd hid.symm (hrequest_ne r (List.mem_append_right _ hr))
    · exact fun a ha => ⟨Nat.lt_succ_of_lt (h.answers a ha).1, (h.answers a ha).2⟩
    · exact fun f hf => ⟨fun id hid => Nat.lt_succ_of_lt ((h.wire f hf).1 id hid), (h.wire f hf).2⟩

/-- The request that is written with the marker is unanswered. -/
theorem allOutstanding_download (h : s.Tidy) (hall : s.AllOutstanding) (message : Message) :
    (s.step (.download message)).AllOutstanding := by
  rw [step]
  rcases Service.downloadMedia_cases s.shell message with heq | ⟨-, -, heq⟩
  · rw [heq]
    exact hall
  · rw [heq]
    intro key hkey
    rcases List.mem_cons.mp hkey with rfl | hkey
    · refine Or.inl ⟨_, List.mem_append_right _ (List.mem_singleton_self _), rfl, nofun, ?_⟩
      rintro (⟨a, ha, hid, -⟩ | ⟨f, hf, hid, -⟩)
      · have hlt := (h.answers a ha).1
        rw [hid] at hlt
        exact absurd hlt (lt_irrefl _)
      · exact absurd ((h.wire f hf).1 _ hid) (lt_irrefl _)
    · exact (hall key hkey).mono (fun p hp => List.mem_append_left _ hp) (fun _ hacked => hacked)
        (fun _ hjob => hjob) (fun _ hf => hf) rfl

theorem tidy_receive (h : s.Tidy) : (s.step .receive).Tidy := by
  rw [step]
  split
  · rename_i request rest hrequests
    -- the request is moved, not changed
    have hmem : ∀ r ∈ rest ++ (s.handling ++ [request]), r ∈ s.shell.requests ++ s.handling := by
      intro r hr
      rw [hrequests]
      simp only [List.mem_append, List.mem_cons, List.not_mem_nil, or_false] at hr ⊢
      tauto
    exact ⟨h.linked, h.functional, h.ids, fun r hr => h.requests r (hmem r hr),
      fun r hr => h.asked r (hmem r hr), h.answers, h.wire, h.jobs⟩
  · exact h

theorem Tidy.answered (h : s.Tidy) {request : ClientFrame} (hr : request ∈ s.handling)
    {event : ServerEvent} (hhello : isHello event = false) : (s.answered request event).Tidy := by
  have hmem : ∀ r ∈ s.shell.requests ++ s.handling.erase request,
      r ∈ s.shell.requests ++ s.handling := by
    intro r hr
    rcases List.mem_append.mp hr with hr | hr
    · exact List.mem_append_left _ hr
    · exact List.mem_append_right _ (List.mem_of_mem_erase hr)
  refine ⟨h.linked, h.functional, h.ids, fun r hr => h.requests r (hmem r hr),
    fun r hr => h.asked r (hmem r hr), fun a ha => ?_, h.wire, h.jobs⟩
  rcases List.mem_append.mp ha with ha | ha
  · exact h.answers a ha
  · rw [List.mem_singleton.mp ha]
    exact ⟨h.requests request (List.mem_append_right _ hr), hhello⟩

/-- An answer concerns its own request. -/
theorem Outstanding.answered {apart : Option ℕ} {request : ClientFrame} {event : ServerEvent}
    (h : s.Outstanding key apart)
    (hrequest : Service.isError event = false → apart = some request.id ∨
      ∀ p ∈ s.shell.mediaDownloadRequestIds, p.1 ≠ request.id) :
    (s.answered request event).Outstanding key none := by
  rcases h with ⟨p, hp, hpkey, hne, hpending⟩ | hrest
  · refine Or.inl ⟨p, hp, hpkey, nofun, fun hacked => hpending ?_⟩
    rcases hacked with ⟨a, ha, hid, herror⟩ | hwire
    · rcases List.mem_append.mp ha with ha | ha
      · exact Or.inl ⟨a, ha, hid, herror⟩
      · rw [List.mem_singleton.mp ha] at hid herror
        rcases hrequest herror with hapart | hother
        · exact absurd (hapart.trans (congrArg some hid)).symm hne
        · exact absurd hid.symm (hother p hp)
    · exact Or.inr hwire
  · exact Or.inr hrest

theorem allOutstanding_fail (hall : s.AllOutstanding) (request : ClientFrame) (message : String) :
    (s.answered request (.error message)).AllOutstanding :=
  fun key hkey => (hall key hkey).answered nofun

/-- The answer to another command. -/
theorem allOutstanding_answer (h : s.Tidy) (hall : s.AllOutstanding) {request : ClientFrame}
    (hr : request ∈ s.handling) (hother : isDownload request = false) (event : ServerEvent) :
    (s.answered request event).AllOutstanding := by
  intro key hkey
  refine (hall key hkey).answered fun _ => Or.inr fun p hp hid => ?_
  obtain ⟨chatJid, messageId, hcommand, -⟩ :=
    h.asked request (List.mem_append_right _ hr) p hp hid
  rw [isDownload, hcommand] at hother
  cases hother

theorem sound_respond (h : s.Tidy) (hall : s.AllOutstanding) {id : ℕ} {event : ServerEvent}
    (ha : (id, event) ∈ s.answers) :
    Tidy ({ s with answers := s.answers.erase (id, event) }.stamp (some id) event) ∧
      AllOutstanding ({ s with answers := s.answers.erase (id, event) }.stamp (some id) event) := by
  obtain ⟨hlt, hhello⟩ := h.answers _ ha
  constructor
  · have herased : Tidy { s with answers := s.answers.erase (id, event) } :=
      ⟨h.linked, h.functional, h.ids, h.requests, h.asked,
        fun a ha => h.answers a (List.mem_of_mem_erase ha), h.wire, h.jobs⟩
    refine herased.stamp (fun i hi => ?_) fun hh => ?_
    · rw [← Option.some.inj hi]
      exact hlt
    · rw [hhello] at hh
      cases hh
  · intro key hkey
    refine (hall key hkey).mono (fun _ hp => hp) (fun i hacked => ?_) (fun _ hjob => hjob)
      (fun _ hf => mem_stamp_of_mem hf) rfl
    rcases hacked with ⟨a, ha', hrest⟩ | ⟨f, hf, hid, herror⟩
    · exact Or.inl ⟨a, List.mem_of_mem_erase ha', hrest⟩
    · rcases mem_stamp hf with hf | rfl
      · exact Or.inr ⟨f, hf, hid, herror⟩
      · exact Or.inl ⟨_, ha, Option.some.inj hid, herror⟩

/-! ## Steps of the jobs -/

/-- A download that starts is in flight, be it a new one. -/
theorem startMediaDownload_ok (h : s.Tidy) {messageId : String} {found : MediaLookup}
    {started : MediaSession} (hstarted : s.startMediaDownload messageId found = .ok started) :
    started.InFlight (mediaDownloadKey found.chatJid messageId) ∧
      ∃ downloads jobs, started = { s with downloads, jobs } ∧ (∀ job ∈ s.jobs, job ∈ jobs) ∧
        ∀ d ∈ downloads, ∃ job ∈ jobs, job.ended = false ∧ (job.chatJid, job.messageId) = d := by
  unfold startMediaDownload at hstarted
  split at hstarted
  · cases hstarted
  split at hstarted
  · cases hstarted
  split at hstarted
  · cases hstarted
  split at hstarted
  · cases hstarted
  split at hstarted
  · -- the pending job
    rename_i hpending
    obtain rfl := Except.ok.inj hstarted
    obtain ⟨job, hjob, -, hd⟩ := h.jobs _ hpending
    obtain ⟨hchat, hmessage⟩ := Prod.mk.inj hd
    exact ⟨⟨job, hjob, by rw [hchat, hmessage]⟩, s.downloads, s.jobs, rfl, fun _ hj => hj, h.jobs⟩
  split at hstarted
  · cases hstarted
  · obtain rfl := Except.ok.inj hstarted
    have hnew : ({ chatJid := found.chatJid, messageId } : MediaJob) ∈
        s.jobs ++ [{ chatJid := found.chatJid, messageId }] :=
      List.mem_append_right _ (List.mem_singleton_self _)
    refine ⟨⟨_, hnew, rfl⟩, _, _, rfl, fun _ hj => List.mem_append_left _ hj, fun d hd => ?_⟩
    rcases List.mem_cons.mp hd with rfl | hd
    · exact ⟨_, hnew, rfl, rfl⟩
    · obtain ⟨job, hjob, hended, hjd⟩ := h.jobs d hd
      exact ⟨job, List.mem_append_left _ hjob, hended, hjd⟩

/-- The jobs of the daemon are not part of the shell. -/
theorem Tidy.of_jobs (h : s.Tidy) {downloads : List (String × String)} {jobs : List MediaJob}
    (hjobs : ∀ d ∈ downloads, ∃ job ∈ jobs, job.ended = false ∧ (job.chatJid, job.messageId) = d) :
    Tidy { s with downloads, jobs } :=
  ⟨h.linked, h.functional, h.ids, h.requests, h.asked, h.answers, h.wire, hjobs⟩

/-- The ack of a request leaves its download to a job. -/
theorem sound_start (h : s.Tidy) (hall : s.AllOutstanding) {id : ℕ} {chatJid messageId : String}
    {found : MediaLookup} {started : MediaSession}
    (hr : ⟨id, .downloadMedia chatJid messageId⟩ ∈ s.handling)
    (hstarted : s.startMediaDownload messageId found = .ok started)
    (hkept : s.Kept (.start ⟨id, .downloadMedia chatJid messageId⟩ found)) :
    (started.answered ⟨id, .downloadMedia chatJid messageId⟩ .ack).Tidy ∧
      (started.answered ⟨id, .downloadMedia chatJid messageId⟩ .ack).AllOutstanding := by
  obtain ⟨hflight, downloads, jobs, rfl, hjobs, htidy⟩ := startMediaDownload_ok h hstarted
  refine ⟨(h.of_jobs htidy).answered hr rfl, fun key hkey => ?_⟩
  have hmono : ∀ apart, s.Outstanding key apart →
      Outstanding { s with downloads, jobs } key apart := fun apart hout =>
    hout.mono (fun _ hp => hp) (fun _ hacked => hacked) hjobs (fun _ hf => hf) rfl
  by_cases hwaits : (id, key) ∈ s.shell.mediaDownloadRequestIds
  · obtain ⟨chat, message, hcommand, hpkey⟩ := h.asked _ (List.mem_append_right _ hr) _ hwaits rfl
    obtain ⟨rfl, rfl⟩ := ClientCommand.downloadMedia.inj hcommand
    obtain rfl : key = mediaDownloadKey chatJid messageId := hpkey
    rcases hkept hr (by rw [hstarted]; rfl) hkey hwaits with hchat | hbeside
    · rw [← hchat]
      exact Or.inr (Or.inl hflight)
    · exact (hmono _ hbeside).answered fun _ => Or.inl rfl
  · -- the download waits for another request
    rcases hall key hkey with ⟨p, hp, hpkey, -, hpending⟩ | hrest
    · have hne : some p.1 ≠ some id := by
        intro heq
        rw [← Option.some.inj heq, ← hpkey] at hwaits
        exact hwaits hp
      exact (hmono _ (Or.inl ⟨p, hp, hpkey, hne, hpending⟩)).answered fun _ => Or.inl rfl
    · exact (hmono (some id) (Or.inr hrest)).answered fun _ => Or.inl rfl

theorem sound_finish (h : s.Tidy) (hall : s.AllOutstanding) {job : MediaJob} (hjob : job ∈ s.jobs) :
    (s.step (.finish job)).Tidy ∧ (s.step (.finish job)).AllOutstanding := by
  rw [step]
  split
  · refine ⟨h.of_jobs fun d hd => ?_, fun key hkey => ?_⟩
    · -- the other downloads have other jobs
      obtain ⟨hd, hne⟩ := List.mem_filter.mp hd
      obtain ⟨other, hother, hended, hod⟩ := h.jobs d hd
      refine ⟨other, List.mem_append_left _ ((List.mem_erase_of_ne ?_).mpr hother), hended, hod⟩
      rintro rfl
      exact of_decide_eq_true hne hod.symm
    · rcases hall key hkey with hpending | ⟨other, hother, hokey⟩ | hannounced
      · exact Or.inl hpending
      · refine Or.inr (Or.inl ?_)
        by_cases heq : other = job
        · subst heq
          exact ⟨_, List.mem_append_right _ (List.mem_singleton_self _), hokey⟩
        · exact ⟨other, List.mem_append_left _ ((List.mem_erase_of_ne heq).mpr hother), hokey⟩
      · exact Or.inr (Or.inr hannounced)
  · exact ⟨h, hall⟩

/-- The outcome of a job is on its way when the job is over. -/
theorem sound_announce (h : s.Tidy) (hall : s.AllOutstanding) {job : MediaJob} {downloaded : Bool}
    (hkept : s.Kept (.announce job downloaded)) :
    (s.step (.announce job downloaded)).Tidy ∧
      (s.step (.announce job downloaded)).AllOutstanding := by
  rw [step]
  split
  · rename_i hjob
    set event : ServerEvent := if downloaded then .mediaDownloaded job.chatJid job.messageId
      else .mediaDownloadFailed job.chatJid job.messageId with hevent
    have hended : event.endedDownload = some (mediaDownloadKey job.chatJid job.messageId) := by
      cases downloaded <;> rfl
    have herased : Tidy { s with jobs := s.jobs.erase job } := by
      refine h.of_jobs fun d hd => ?_
      obtain ⟨other, hother, hnot, hod⟩ := h.jobs d hd
      refine ⟨other, (List.mem_erase_of_ne ?_).mpr hother, hnot, hod⟩
      rintro rfl
      rw [hjob.2] at hnot
      cases hnot
    refine ⟨herased.stamp nofun fun hhello => ?_, fun key hkey => ?_⟩
    · rw [hevent] at hhello
      cases downloaded <;> cases hhello
    · by_cases hjkey : mediaDownloadKey job.chatJid job.messageId = key
      · subst hjkey
        have hconnected := (h.linked (List.ne_nil_of_mem hkey)).1
        have htaken : ∀ hgen : s.generation = 0 ∨ s.shell.daemonGeneration ≤ s.generation,
            Outstanding ({ s with jobs := s.jobs.erase job }.stamp none event)
              (mediaDownloadKey job.chatJid job.messageId) none := by
          intro hgen
          refine Or.inr (Or.inr
            ⟨⟨none, s.generation, s.revision + 1, event⟩, ?_, rfl, hended, hgen⟩)
          unfold stamp
          dsimp only
          rw [if_pos hconnected]
          exact List.mem_append_right _ (List.mem_singleton_self _)
        rcases hkept hkey with hzero | hle | hout
        · exact htaken (Or.inl hzero)
        · exact htaken (Or.inr hle)
        · exact hout.stamp event
      · refine Outstanding.stamp ?_ event
        rcases hall key hkey with hpending | ⟨other, hother, hokey⟩ | hannounced
        · exact Or.inl hpending
        · refine Or.inr (Or.inl ⟨other, (List.mem_erase_of_ne ?_).mpr hother, hokey⟩)
          rintro rfl
          exact hjkey hokey
        · exact Or.inr (Or.inr hannounced)
  · exact ⟨h, hall⟩

/-! ## Generations -/

/-- The shell and the wire have no generation that the daemon has not begun. -/
def Begun (s : MediaSession) : Prop :=
  s.shell.daemonGeneration ≤ s.generation ∧ ∀ f ∈ s.wire, f.generation ≤ s.generation

theorem Begun.stamp (h : s.Begun) (id : Option ℕ) (event : ServerEvent) :
    (s.stamp id event).Begun := by
  refine ⟨h.1, fun f hf => ?_⟩
  rcases mem_stamp hf with hf | rfl
  · exact h.2 f hf
  · exact le_refl _

/-- The requests of the shell and the jobs of the daemon carry no generation. -/
theorem Begun.of_same (h : s.Begun) {s' : MediaSession}
    (hshell : s'.shell.daemonGeneration = s.shell.daemonGeneration)
    (hgeneration : s'.generation = s.generation) (hwire : ∀ f ∈ s'.wire, f ∈ s.wire) :
    s'.Begun := by
  unfold Begun
  rw [hshell, hgeneration]
  exact ⟨h.1, fun f hf => h.2 f (hwire f hf)⟩

theorem startMediaDownload_same {messageId : String} {found : MediaLookup} {started : MediaSession}
    (hstarted : s.startMediaDownload messageId found = .ok started) :
    started.shell = s.shell ∧ started.generation = s.generation ∧ started.wire = s.wire := by
  unfold startMediaDownload at hstarted
  repeat' split at hstarted
  all_goals cases hstarted <;> exact ⟨rfl, rfl, rfl⟩

theorem begun_step {a : MediaStep} (h : s.Begun) (ha : a ≠ .restart) : (s.step a).Begun := by
  cases a with
  | download message =>
    refine h.of_same ?_ rfl fun _ hf => hf
    rw [step]
    rcases Service.downloadMedia_cases s.shell message with heq | ⟨-, -, heq⟩ <;> rw [heq]
  | expire id =>
    exact h.of_same (Service.sameFrames_finishMediaDownloadRequest _ _ _).generation rfl
      fun _ hf => hf
  | receive =>
    rw [step]
    split <;> exact h
  | start request found =>
    obtain ⟨id, command⟩ := request
    cases command with
    | downloadMedia chatJid messageId =>
      rw [step]
      dsimp only
      split
      · split
        · rename_i hstarted
          obtain ⟨hshell, hgeneration, hwire⟩ := startMediaDownload_same hstarted
          exact h.of_same (congrArg _ hshell) hgeneration fun f hf => hwire ▸ hf
        · exact h
      · exact h
    | _ => exact h
  | fail request message =>
    rw [step]
    split <;> exact h
  | answer request event =>
    rw [step]
    split <;> exact h
  | respond id event =>
    rw [step]
    split
    · exact Begun.stamp (s := { s with answers := s.answers.erase (id, event) }) h _ _
    · exact h
  | startOther messageId found =>
    rw [step]
    split
    · rename_i hstarted
      obtain ⟨hshell, hgeneration, hwire⟩ := startMediaDownload_same hstarted
      exact h.of_same (congrArg _ hshell) hgeneration fun f hf => hwire ▸ hf
    · exact h
  | finish job =>
    rw [step]
    split <;> exact h
  | announce job downloaded =>
    rw [step]
    split
    · exact Begun.stamp (s := { s with jobs := s.jobs.erase job }) h _ _
    · exact h
  | clearAccount => exact h
  | broadcast event =>
    rw [step]
    split
    · exact h.stamp _ _
    · exact h
  | beginGeneration =>
    exact ⟨Nat.le_succ_of_le h.1, fun f hf => Nat.le_succ_of_le (h.2 f hf)⟩
  | deliver frame =>
    rw [step]
    split
    · rename_i hframe
      refine ⟨?_, fun f hf => h.2 f (List.mem_of_mem_erase hf)⟩
      rcases Service.daemonGeneration_handleLine s.shell frame with heq | heq
      · exact le_of_eq_of_le heq h.1
      · exact le_of_eq_of_le heq (h.2 frame hframe)
    · exact h
  | lag lost =>
    refine Begun.stamp (s := { s with wire := s.wire.filter (survives lost) }) ?_ _ _
    exact ⟨h.1, fun f hf => h.2 f (List.mem_of_mem_filter hf)⟩
  | disconnect => exact ⟨h.1, nofun⟩
  | connect => exact Begun.stamp (s := drop { s with shell := s.shell.connect }) ⟨h.1, nofun⟩ _ _
  | restart => exact absurd rfl ha

/-- Only a restart of the daemon takes its generation back. -/
theorem generation_le_of_no_restart (steps : List MediaStep) (hsteps : .restart ∉ steps) :
    (run step {} steps).shell.daemonGeneration ≤ (run step {} steps).generation := by
  have hbegun : ∀ (steps : List MediaStep) (s : MediaSession), s.Begun → .restart ∉ steps →
      (run step s steps).Begun := by
    intro steps
    induction steps with
    | nil => exact fun _ h _ => h
    | cons a rest ih =>
      intro s h hsteps
      rw [List.mem_cons, not_or] at hsteps
      exact ih _ (begun_step h (Ne.symm hsteps.1)) hsteps.2
  exact (hbegun steps {} ⟨le_refl _, nofun⟩ hsteps).1

/-! ## Runs -/

theorem sound_step {a : MediaStep} (h : s.Tidy) (hall : s.AllOutstanding) (ha : s.Kept a) :
    (s.step a).Tidy ∧ (s.step a).AllOutstanding := by
  cases a with
  | download message => exact ⟨tidy_download h message, allOutstanding_download h hall message⟩
  | expire id => exact sound_expire h hall id
  | receive =>
    refine ⟨tidy_receive h, ?_⟩
    rw [step]
    split
    · exact fun key hkey => hall key hkey
    · exact hall
  | start request found =>
    obtain ⟨id, command⟩ := request
    cases command with
    | downloadMedia chatJid messageId =>
      rw [step]
      dsimp only
      split
      · rename_i hr
        split
        · exact sound_start h hall hr ‹_› ha
        · exact ⟨h.answered hr rfl, allOutstanding_fail hall _ _⟩
      · exact ⟨h, hall⟩
    | _ => exact ⟨h, hall⟩
  | fail request message =>
    rw [step]
    split
    · exact ⟨h.answered ‹_› rfl, allOutstanding_fail hall request message⟩
    · exact ⟨h, hall⟩
  | answer request event =>
    rw [step]
    split
    · rename_i hr
      exact ⟨h.answered hr.1 hr.2.2, allOutstanding_answer h hall hr.1 hr.2.1 event⟩
    · exact ⟨h, hall⟩
  | respond id event =>
    rw [step]
    split
    · exact sound_respond h hall ‹_›
    · exact ⟨h, hall⟩
  | startOther messageId found =>
    rw [step]
    split
    · rename_i started hstarted
      obtain ⟨-, downloads, jobs, rfl, hjobs, htidy⟩ := startMediaDownload_ok h hstarted
      exact ⟨h.of_jobs htidy, fun key hkey => (hall key hkey).mono (fun _ hp => hp)
        (fun _ hacked => hacked) hjobs (fun _ hf => hf) rfl⟩
    · exact ⟨h, hall⟩
  | finish job =>
    by_cases hjob : job ∈ s.jobs
    · exact sound_finish h hall hjob
    · rw [step, if_neg fun hand => hjob hand.1]
      exact ⟨h, hall⟩
  | announce job downloaded => exact sound_announce h hall ha
  | clearAccount => exact ⟨h.of_jobs nofun, hall⟩
  | broadcast event =>
    rw [step]
    split
    · rename_i hother
      refine ⟨h.stamp nofun fun hhello => ?_, fun key hkey => (hall key hkey).stamp event⟩
      rw [hother.1] at hhello
      cases hhello
    · exact ⟨h, hall⟩
  | beginGeneration =>
    exact ⟨⟨h.linked, h.functional, h.ids, h.requests, h.asked, h.answers, h.wire, h.jobs⟩, hall⟩
  | deliver frame =>
    rw [step]
    split
    · exact ⟨tidy_deliver h ‹_›, allOutstanding_deliver h hall ‹_›⟩
    · exact ⟨h, hall⟩
  | lag lost => exact ⟨tidy_lag h lost, allOutstanding_lag hall lost ha⟩
  | disconnect => exact ⟨tidy_drop h rfl rfl rfl, nofun⟩
  | connect => exact ⟨(tidy_drop h rfl rfl rfl).stamp nofun fun _ => rfl, nofun⟩
  | restart =>
    have hended : Tidy { s with downloads := [], jobs := [] } := h.of_jobs nofun
    have hdropped :
        Tidy (drop { s with downloads := [], jobs := [], shell := s.shell.disconnect }) :=
      tidy_drop hended rfl rfl rfl
    exact ⟨⟨hdropped.linked, hdropped.functional, hdropped.ids, hdropped.requests,
      hdropped.asked, hdropped.answers, hdropped.wire, hdropped.jobs⟩, nofun⟩

/-- In every run in which the daemon answers for the JID it was asked for, and no broadcast that
ends a marked download is lost or too old for the shell: a marked download is unanswered, in
flight, or its outcome is on its way. -/
theorem outstanding_of_kept (steps : List MediaStep) (hg : Guarded step Kept {} steps) :
    ∀ s ∈ states step {} steps, s.shell.connected = true → ∀ chatJid messageId,
      mediaDownloadKey chatJid messageId ∈ s.shell.mediaDownloadRequests →
        (∃ id, (id, mediaDownloadKey chatJid messageId) ∈ s.shell.mediaDownloadRequestIds) ∨
          s.InFlight (mediaDownloadKey chatJid messageId) ∨
          s.Announced (mediaDownloadKey chatJid messageId) := by
  intro s hs _ chatJid messageId hkey
  have hempty : Tidy {} :=
    ⟨fun hne => absurd rfl hne, nofun, nofun, nofun, nofun, nofun, nofun, nofun⟩
  have hsound : s.Tidy ∧ s.AllOutstanding :=
    invariant_states (I := fun s => s.Tidy ∧ s.AllOutstanding)
      (fun _ _ h ha => sound_step h.1 h.2 ha) ⟨hempty, nofun⟩ hg s hs
  rcases hsound.2 _ hkey with ⟨⟨id, _⟩, hp, rfl, -⟩ | hrest
  · exact Or.inl ⟨id, hp⟩
  · exact Or.inr hrest

/-- A photo that is not downloaded yet. -/
def photo (chatJid : String) : Message where
  id := "3EB0"
  chatJid := chatJid
  senderJid := "1001@lid"
  senderName := "Ada"
  text := ""
  timestamp := 0
  fromMe := false
  media := some (.image "" "" false "image/jpeg" 640 480)

/-- The shell connects, and asks for the photo: requests 1 to 5 are those of the refresh. -/
def asked (chatJid : String) : List MediaStep :=
  [.beginGeneration, .connect, .deliver ⟨none, 1, 1, .hello protocolVersion⟩, .receive, .receive,
    .receive, .receive, .receive, .download (photo chatJid), .receive]

/-- The daemon downloads the photo under `chatJid`. -/
def downloaded (request : ClientFrame) (chatJid : String) : List MediaStep :=
  [.start request { chatJid }, .respond request.id .ack,
    .deliver ⟨some request.id, 1, 2, .ack⟩, .finish { chatJid, messageId := "3EB0" },
    .announce { chatJid, messageId := "3EB0", ended := true } true]

/-- A lag loses other broadcasts while the outcome is on its way. -/
theorem outstanding_of_kept_lag :
    let steps := asked "4917@s.whatsapp.net" ++
      downloaded ⟨6, .downloadMedia "4917@s.whatsapp.net" "3EB0"⟩ "4917@s.whatsapp.net" ++
      [.broadcast (.unread 1), .lag [⟨none, 1, 4, .unread 1⟩]]
    (run step {} steps).shell.mediaDownloadRequests = ["4917@s.whatsapp.net\n3EB0"] ∧
      ∀ s ∈ states step {} steps, s.shell.connected = true → ∀ chatJid messageId,
        mediaDownloadKey chatJid messageId ∈ s.shell.mediaDownloadRequests →
          (∃ id, (id, mediaDownloadKey chatJid messageId) ∈ s.shell.mediaDownloadRequestIds) ∨
            s.InFlight (mediaDownloadKey chatJid messageId) ∨
            s.Announced (mediaDownloadKey chatJid messageId) :=
  ⟨by decide, outstanding_of_kept _ (by decide)⟩

/-- A photo is asked for under the LID of its chat, and downloaded under the phone number: its
marker stays. -/
theorem alias_stays_marked :
    let steps := asked "1001@lid" ++
      downloaded ⟨6, .downloadMedia "1001@lid" "3EB0"⟩ "4917@s.whatsapp.net" ++
      [.deliver ⟨none, 1, 3, .mediaDownloaded "4917@s.whatsapp.net" "3EB0"⟩]
    ¬∀ s ∈ states step {} steps, s.shell.connected = true → ∀ chatJid messageId,
      mediaDownloadKey chatJid messageId ∈ s.shell.mediaDownloadRequests →
        (∃ id, (id, mediaDownloadKey chatJid messageId) ∈ s.shell.mediaDownloadRequestIds) ∨
          s.InFlight (mediaDownloadKey chatJid messageId) ∨
          s.Announced (mediaDownloadKey chatJid messageId) := by
  intro steps h
  have hids : (run step {} steps).shell.mediaDownloadRequestIds = [] := by decide
  rcases h _ (run_mem_states _ _ _) (by decide) "1001@lid" "3EB0" (by decide) with
    ⟨id, hid⟩ | hrest
  · rw [hids] at hid
    cases hid
  · exact absurd hrest (by decide)

end MediaSession

end OmarchyWhatsapp
