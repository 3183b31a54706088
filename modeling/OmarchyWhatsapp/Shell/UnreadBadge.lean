import Mathlib.Data.List.Induction
import Mathlib.Tactic.Common
import OmarchyWhatsapp.Shell.Service

/-!
# The unread badge

Two kinds of frames carry the unread total, under two resource keys. Each key alone follows its
newest frame; the badge follows the newest frame of both only if no frame that is the newest of
its own kind arrives after a newer frame of the other kind that carries another total.
-/

namespace OmarchyWhatsapp

/-! ## Frames of one generation -/

/-- The unread total of a frame that carries one. -/
def ServerEvent.unreadTotal? : ServerEvent → Option ℕ
  | .state unreadTotal => some unreadTotal
  | .unread total => some total
  | _ => none

/-- A hello is of the common version. -/
def ServerEvent.compatible : ServerEvent → Bool
  | .hello version => decide (version = protocolVersion)
  | _ => true

/-- A frame of the generation as the daemon stamps it. -/
structure ServerFrame.Stamped (generation : ℕ) (frame : ServerFrame) : Prop where
  generation_eq : frame.generation = generation
  sequence_pos : 0 < frame.sequence
  compatible : frame.event.compatible = true

instance (generation : ℕ) (frame : ServerFrame) : Decidable (frame.Stamped generation) :=
  decidable_of_iff (frame.generation = generation ∧ 0 < frame.sequence ∧
    frame.event.compatible = true) ⟨fun h => ⟨h.1, h.2.1, h.2.2⟩, fun h => ⟨h.1, h.2, h.3⟩⟩

/-- The newest sequence of one resource. -/
def newestSequence (key : String) (frames : List ServerFrame) : ℕ :=
  (frames.filter (fun f => f.resourceKey = key)).foldl (fun newest f => max newest f.sequence) 0

/-- The frame with the highest sequence among those that carry an unread total. -/
def newestUnread (frames : List ServerFrame) : Option ServerFrame :=
  frames.foldl (fun newest f => if f.event.unreadTotal?.isSome ∧
    newest.all (fun x => decide (x.sequence < f.sequence)) = true then some f else newest) none

theorem newestSequence_append (key : String) (frames : List ServerFrame) (f : ServerFrame) :
    newestSequence key (frames ++ [f]) = if f.resourceKey = key then
      max (newestSequence key frames) f.sequence else newestSequence key frames := by
  unfold newestSequence
  by_cases hkey : f.resourceKey = key
  · rw [if_pos hkey, List.filter_append, List.foldl_append]
    simp [hkey]
  · rw [if_neg hkey, List.filter_append]
    simp [hkey]

theorem newestUnread_append (frames : List ServerFrame) (f : ServerFrame) :
    newestUnread (frames ++ [f]) = if f.event.unreadTotal?.isSome ∧
      (newestUnread frames).all (fun x => decide (x.sequence < f.sequence)) = true
      then some f else newestUnread frames := by
  unfold newestUnread
  rw [List.foldl_append]
  rfl

/-- The newest sequence of a resource bounds those of its frames. -/
theorem le_newestSequence {key : String} {frames : List ServerFrame} {f : ServerFrame}
    (hf : f ∈ frames) (hkey : f.resourceKey = key) : f.sequence ≤ newestSequence key frames := by
  induction frames using List.reverseRecOn with
  | nil => cases hf
  | append_singleton frames x ih =>
    rw [newestSequence_append]
    rcases List.mem_append.mp hf with hold | hnew
    · split
      · exact le_trans (ih hold) (le_max_left _ _)
      · exact ih hold
    · rw [List.mem_singleton.mp hnew] at hkey ⊢
      rw [if_pos hkey]
      exact le_max_right _ _

/-- It is the sequence of one of them. -/
theorem newestSequence_attained {key : String} {frames : List ServerFrame}
    (h : 0 < newestSequence key frames) :
    ∃ f ∈ frames, f.resourceKey = key ∧ f.sequence = newestSequence key frames := by
  induction frames using List.reverseRecOn with
  | nil => exact absurd h (lt_irrefl 0)
  | append_singleton frames x ih =>
    rw [newestSequence_append] at h ⊢
    split at h
    · rename_i hkey
      rw [if_pos hkey]
      rcases le_total (newestSequence key frames) x.sequence with hle | hle
      · exact ⟨x, List.mem_append_right _ (List.mem_singleton_self x), hkey,
          (max_eq_right hle).symm⟩
      · rw [max_eq_left hle] at h ⊢
        obtain ⟨f, hf, hrest⟩ := ih h
        exact ⟨f, List.mem_append_left _ hf, hrest⟩
    · rename_i hkey
      rw [if_neg hkey]
      obtain ⟨f, hf, hrest⟩ := ih h
      exact ⟨f, List.mem_append_left _ hf, hrest⟩

theorem newestUnread_eq_none {frames : List ServerFrame} (h : newestUnread frames = none) :
    ∀ f ∈ frames, f.event.unreadTotal? = none := by
  induction frames using List.reverseRecOn with
  | nil => exact fun _ hf => absurd hf List.not_mem_nil
  | append_singleton frames x ih =>
    rw [newestUnread_append] at h
    split at h
    · cases h
    · rename_i hold
      intro f hf
      rcases List.mem_append.mp hf with hf | hf
      · exact ih h f hf
      · rw [List.mem_singleton.mp hf]
        by_contra hsome
        refine hold ⟨Option.isSome_iff_ne_none.mpr hsome, ?_⟩
        rw [h]
        rfl

/-- The newest frame with a total is one of the frames, and bounds the others. -/
theorem newestUnread_spec {frames : List ServerFrame} {x : ServerFrame}
    (hx : newestUnread frames = some x) :
    (x ∈ frames ∧ x.event.unreadTotal?.isSome) ∧
      ∀ f ∈ frames, f.event.unreadTotal?.isSome → f.sequence ≤ x.sequence := by
  induction frames using List.reverseRecOn generalizing x with
  | nil => cases hx
  | append_singleton frames y ih =>
    rw [newestUnread_append] at hx
    split at hx
    · rename_i hnew
      cases hx
      refine ⟨⟨List.mem_append_right _ (List.mem_singleton_self y), hnew.1⟩, fun f hf htotal => ?_⟩
      rcases List.mem_append.mp hf with hf | hf
      · cases hnewest : newestUnread frames with
        | none =>
          rw [newestUnread_eq_none hnewest f hf] at htotal
          cases htotal
        | some z =>
          have hz := hnew.2
          rw [hnewest] at hz
          exact le_trans ((ih hnewest).2 f hf htotal) (le_of_lt (of_decide_eq_true hz))
      · rw [List.mem_singleton.mp hf]
    · rename_i hold
      obtain ⟨⟨hmem, htotal⟩, hle⟩ := ih hx
      refine ⟨⟨List.mem_append_left _ hmem, htotal⟩, fun f hf hft => ?_⟩
      rcases List.mem_append.mp hf with hf | hf
      · exact hle f hf hft
      · rw [List.mem_singleton.mp hf] at hft ⊢
        by_contra hlt
        refine hold ⟨hft, ?_⟩
        rw [hx]
        exact decide_eq_true (not_le.mp hlt)

/-- The resources of the two kinds of frames are theirs alone. -/
theorem resourceKey_of_total {f : ServerFrame} (h : f.event.unreadTotal?.isSome) :
    f.resourceKey = "state" ∨ f.resourceKey = "unread" := by
  unfold ServerFrame.resourceKey
  cases hevent : f.event <;> rw [hevent] at h <;> first
    | exact Or.inl rfl
    | exact Or.inr rfl
    | cases h

theorem head_resourceKey (f : ServerFrame) :
    f.event.unreadTotal?.isSome ∨
      (f.resourceKey.toList.head? ≠ some 's' ∧ f.resourceKey.toList.head? ≠ some 'u') := by
  unfold ServerFrame.resourceKey
  cases f.event with
  | state _ => exact Or.inl rfl
  | unread _ => exact Or.inl rfl
  | invalidated resource key =>
    right
    cases resource <;> simp only [Resource.name] <;> split <;> simp [String.toList_append]
  | hello _ => right; cases f.id <;> simp [String.toList_append]
  | mediaDownloaded _ _ => right; cases f.id <;> simp [String.toList_append]
  | mediaDownloadFailed _ _ => right; cases f.id <;> simp [String.toList_append]
  | chatStateResync => right; cases f.id <;> simp [String.toList_append]
  | error _ => right; cases f.id <;> simp [String.toList_append]
  | ack => right; cases f.id <;> simp [String.toList_append]
  | _ => right; simp [String.toList_append]

theorem total_of_resourceKey {f g : ServerFrame} (hg : g.event.unreadTotal?.isSome)
    (hkey : f.resourceKey = g.resourceKey) : f.event.unreadTotal?.isSome := by
  rcases head_resourceKey f with hf | ⟨hs, hu⟩
  · exact hf
  · rcases resourceKey_of_total hg with h | h
    · rw [hkey, h] at hs
      exact absurd rfl hs
    · rw [hkey, h] at hu
      exact absurd rfl hu

namespace Service

/-! ## What the shell keeps -/

/-- The service after the frames of a generation: it keeps the newest sequence of each resource. -/
structure Received (generation : ℕ) (frames : List ServerFrame) (s : Service) : Prop where
  compatible : s.protocolCompatible = true
  generation_eq : s.daemonGeneration = generation
  sequences : ∀ key, key ≠ "" → s.resourceSequences key = newestSequence key frames

theorem acceptFrame_of_generation {s : Service} {f : ServerFrame}
    (hgeneration : s.daemonGeneration = f.generation) : s.acceptFrame f = s.takeFrame f := by
  rw [acceptFrame, if_neg (by omega), enterGeneration, if_neg (by omega)]

/-- A frame is taken if its resource has no newer one. -/
def takes (frames : List ServerFrame) (f : ServerFrame) : Prop :=
  f.resourceKey = "" ∨ newestSequence f.resourceKey frames < f.sequence

instance (frames : List ServerFrame) (f : ServerFrame) : Decidable (takes frames f) :=
  inferInstanceAs (Decidable (_ ∨ _))

theorem Received.acceptFrame {generation : ℕ} {frames : List ServerFrame} {s : Service}
    (h : Received generation frames s) {f : ServerFrame} (hf : f.Stamped generation) :
    Received generation (frames ++ [f]) (s.acceptFrame f).1 ∧
      (s.acceptFrame f).1.unreadTotal = s.unreadTotal ∧
      ((s.acceptFrame f).2 = true ↔ takes frames f) := by
  rw [acceptFrame_of_generation (h.generation_eq.trans hf.generation_eq.symm), takeFrame]
  by_cases hkey : f.resourceKey = ""
  · rw [if_pos (Or.inr hkey)]
    refine ⟨⟨h.compatible, h.generation_eq, fun key hne => ?_⟩, rfl, fun _ => Or.inl hkey,
      fun _ => rfl⟩
    rw [newestSequence_append, if_neg (fun hk => hne (hk.symm.trans hkey))]
    exact h.sequences key hne
  rw [if_neg (not_or.mpr ⟨hf.sequence_pos.ne', hkey⟩), h.sequences _ hkey]
  by_cases hold : f.sequence ≤ newestSequence f.resourceKey frames
  · rw [if_pos hold]
    refine ⟨⟨h.compatible, h.generation_eq, fun key hne => ?_⟩, rfl, nofun, ?_⟩
    · rw [newestSequence_append]
      split
      · rename_i hk
        subst hk
        rw [max_eq_left hold]
        exact h.sequences _ hne
      · exact h.sequences key hne
    · rintro (hk | hlt)
      · exact absurd hk hkey
      · exact absurd hold (not_le.mpr hlt)
  · rw [if_neg hold]
    refine ⟨⟨h.compatible, h.generation_eq, fun key hne => ?_⟩, rfl,
      fun _ => Or.inr (not_le.mp hold), fun _ => rfl⟩
    rw [newestSequence_append]
    show (if key = f.resourceKey then f.sequence else s.resourceSequences key) = _
    by_cases hk : key = f.resourceKey
    · rw [if_pos hk, if_pos hk.symm, hk, max_eq_right (le_of_not_ge hold)]
    · rw [if_neg hk, if_neg (Ne.symm hk)]
      exact h.sequences key hne

theorem Received.of_sameFrames {generation : ℕ} {frames : List ServerFrame} {s s' : Service}
    (h : Received generation frames s) (hsame : SameFrames s s') :
    Received generation frames s' where
  compatible := hsame.compatible.trans h.compatible
  generation_eq := hsame.generation.trans h.generation_eq
  sequences := fun key hne => by
    rw [hsame.sequences]
    exact h.sequences key hne

/-- An accepted event sets the badge if it carries a total, and nothing else of what is kept. -/
theorem handleEvent_received {generation : ℕ} {frames : List ServerFrame} {s : Service}
    (h : Received generation frames s) (event : ServerEvent) :
    Received generation frames (s.handleEvent event) ∧
      (s.handleEvent event).unreadTotal = event.unreadTotal?.getD s.unreadTotal := by
  cases event with
  | state unreadTotal => exact ⟨⟨h.compatible, h.generation_eq, h.sequences⟩, rfl⟩
  | unread total => exact ⟨⟨h.compatible, h.generation_eq, h.sequences⟩, rfl⟩
  | chats chats =>
    have hsame := sameFrames_handleChats s chats
    exact ⟨h.of_sameFrames hsame, hsame.unreadTotal⟩
  | invalidated resource key =>
    have hsame := sameFrames_handleInvalidation s resource
    exact ⟨h.of_sameFrames hsame, hsame.unreadTotal⟩
  | mediaDownloaded chatJid messageId =>
    exact ⟨⟨h.compatible, h.generation_eq, h.sequences⟩, rfl⟩
  | mediaDownloadFailed chatJid messageId =>
    exact ⟨⟨h.compatible, h.generation_eq, h.sequences⟩, rfl⟩
  | _ => exact ⟨h, rfl⟩

/-- What one frame does to the badge. -/
theorem Received.handleLine {generation : ℕ} {frames : List ServerFrame} {s : Service}
    (h : Received generation frames s) {f : ServerFrame} (hf : f.Stamped generation) :
    Received generation (frames ++ [f]) (s.handleLine f) ∧
      (s.handleLine f).unreadTotal = if takes frames f then f.event.unreadTotal?.getD s.unreadTotal
        else s.unreadTotal := by
  obtain ⟨haccepting, htotal, htakes⟩ := h.acceptFrame hf
  have hframe : Received generation (frames ++ [f]) (s.handleFrame f) ∧
      (s.handleFrame f).unreadTotal = if takes frames f then
        f.event.unreadTotal?.getD s.unreadTotal else s.unreadTotal := by
    rw [handleFrame, if_neg (by rw [h.compatible]; decide)]
    have hsame := sameFrames_finishMediaDownloadRequest (s.acceptFrame f).1 f.id (isError f.event)
    have hfinished := haccepting.of_sameFrames hsame
    have hbadge := hsame.unreadTotal.trans htotal
    dsimp only
    by_cases haccepted : (s.acceptFrame f).2 = true
    · rw [if_pos haccepted, if_pos (htakes.mp haccepted)]
      obtain ⟨hreceived, hset⟩ := handleEvent_received hfinished f.event
      exact ⟨hreceived, hset.trans (by rw [hbadge])⟩
    · rw [if_neg haccepted, if_neg (fun htaken => haccepted (htakes.mpr htaken))]
      exact ⟨hfinished, hbadge⟩
  cases hevent : f.event with
  | hello version =>
    rw [Service.handleLine, hevent]
    have hnone : (if takes frames f then (ServerEvent.hello version).unreadTotal?.getD s.unreadTotal
        else s.unreadTotal) = s.unreadTotal := ite_self _
    rw [hnone]
    dsimp only
    split
    · have hversion : version = protocolVersion := by
        have hcompatible := hf.compatible
        rw [hevent] at hcompatible
        exact of_decide_eq_true hcompatible
      rw [handleHello, if_neg (not_not.mpr hversion)]
      have hcompatible : Received generation (frames ++ [f])
          { (s.acceptFrame f).1 with protocolCompatible := true } :=
        ⟨rfl, haccepting.generation_eq, haccepting.sequences⟩
      have hsame := sameFrames_refreshMetadata
        { (s.acceptFrame f).1 with protocolCompatible := true }
      exact ⟨hcompatible.of_sameFrames hsame, hsame.unreadTotal.trans htotal⟩
    · exact ⟨haccepting, htotal⟩
  | _ =>
    rw [Service.handleLine, hevent]
    rw [hevent] at hframe
    exact hframe

/-! ## The badge -/

/-- The badge shows the newest total of the frames so far. -/
def ShowsNewest (frames : List ServerFrame) (s : Service) : Prop :=
  ∀ f ∈ newestUnread frames, f.event.unreadTotal? = some s.unreadTotal

/-- A frame is the newest of its own kind, and older than one of the other kind. -/
def Overtaken (frames : List ServerFrame) (f : ServerFrame) : Prop :=
  f.event.unreadTotal?.isSome ∧ takes frames f ∧ ∃ x ∈ newestUnread frames, f.sequence < x.sequence

/-- A frame that is taken although it is overtaken carries the total of the newest one. -/
def Harmless (frames : List ServerFrame) (f : ServerFrame) : Prop :=
  Overtaken frames f → ∀ x ∈ newestUnread frames, f.event.unreadTotal? = x.event.unreadTotal?

instance (frames : List ServerFrame) (s : Service) : Decidable (ShowsNewest frames s) :=
  inferInstanceAs (Decidable (∀ f ∈ newestUnread frames, _))

instance (frames : List ServerFrame) (f : ServerFrame) : Decidable (Overtaken frames f) :=
  inferInstanceAs (Decidable (_ ∧ _ ∧ ∃ x ∈ newestUnread frames, _))

instance (frames : List ServerFrame) (f : ServerFrame) : Decidable (Harmless frames f) :=
  inferInstanceAs (Decidable (_ → ∀ x ∈ newestUnread frames, _))

theorem takes_of_newest {frames : List ServerFrame} {f : ServerFrame}
    (htotal : f.event.unreadTotal?.isSome)
    (hnewest : ∀ x ∈ frames, x.event.unreadTotal?.isSome → x.sequence < f.sequence)
    (hpos : 0 < f.sequence) : takes frames f := by
  by_cases hzero : 0 < newestSequence f.resourceKey frames
  · obtain ⟨x, hx, hkey, hsequence⟩ := newestSequence_attained hzero
    rw [takes, ← hsequence]
    exact Or.inr (hnewest x hx (total_of_resourceKey htotal hkey))
  · exact Or.inr (by omega)

/-- A total that is taken is shown. -/
theorem Received.shows_taken {generation : ℕ} {frames : List ServerFrame} {s : Service}
    (h : Received generation frames s) {f : ServerFrame} (hf : f.Stamped generation)
    (htotal : f.event.unreadTotal?.isSome) (htakes : takes frames f) :
    f.event.unreadTotal? = some (s.handleLine f).unreadTotal := by
  have hbadge := (h.handleLine hf).2
  rw [if_pos htakes] at hbadge
  obtain ⟨total, hvalue⟩ := Option.isSome_iff_exists.mp htotal
  rw [hbadge, hvalue]
  rfl

/-- One frame: the badge goes on to show the newest total exactly if the frame is harmless. -/
theorem showsNewest_handleLine {generation : ℕ} {frames : List ServerFrame} {s : Service}
    (h : Received generation frames s) {f : ServerFrame} (hf : f.Stamped generation)
    (hdistinct : ∀ x ∈ frames, x.sequence ≠ f.sequence) (hshows : ShowsNewest frames s) :
    ShowsNewest (frames ++ [f]) (s.handleLine f) ↔ Harmless frames f := by
  have hbadge := (h.handleLine hf).2
  unfold ShowsNewest
  rw [newestUnread_append]
  by_cases htotal : f.event.unreadTotal?.isSome
  · cases hnewest : newestUnread frames with
    | none =>
      -- the first frame with a total
      have htakes : takes frames f := takes_of_newest htotal (fun x hx hxt => by
        rw [newestUnread_eq_none hnewest x hx] at hxt
        cases hxt) hf.sequence_pos
      rw [if_pos ⟨htotal, rfl⟩]
      refine ⟨fun _ hovertaken => ?_, fun _ x hx => ?_⟩
      · rw [hnewest]
        exact nofun
      · obtain rfl := Option.some.inj hx
        exact h.shows_taken hf htotal htakes
    | some newest =>
      obtain ⟨⟨hmem, hnt⟩, hle⟩ := newestUnread_spec hnewest
      rcases lt_trichotomy newest.sequence f.sequence with hlt | heq | hgt
      · -- the newest of both kinds
        have htakes : takes frames f := takes_of_newest htotal
          (fun x hx hxt => lt_of_le_of_lt (hle x hx hxt) hlt) hf.sequence_pos
        rw [if_pos ⟨htotal, decide_eq_true hlt⟩]
        refine ⟨fun _ hovertaken => ?_, fun _ x hx => ?_⟩
        · obtain ⟨-, -, x, hx, hless⟩ := hovertaken
          rw [hnewest] at hx
          obtain rfl := Option.some.inj hx
          exact absurd hless (not_lt.mpr (le_of_lt hlt))
        · obtain rfl := Option.some.inj hx
          exact h.shows_taken hf htotal htakes
      · exact absurd heq (hdistinct newest hmem)
      · -- older than the newest
        rw [if_neg (fun hnew => absurd (of_decide_eq_true hnew.2) (not_lt.mpr (le_of_lt hgt)))]
        have hshown := hshows newest hnewest
        unfold Harmless
        rw [hnewest]
        by_cases htakes : takes frames f
        · have hovertaken : Overtaken frames f := ⟨htotal, htakes, newest, hnewest, hgt⟩
          have hset := h.shows_taken hf htotal htakes
          refine ⟨fun hnew _ x hx => ?_, fun hharmless x hx => ?_⟩
          · exact hset.trans (hnew x hx).symm
          · exact (hharmless hovertaken x hx).symm.trans hset
        · rw [if_neg htakes] at hbadge
          refine ⟨fun _ hovertaken => absurd hovertaken.2.1 htakes, fun _ x hx => ?_⟩
          obtain rfl := Option.some.inj hx
          rw [hbadge]
          exact hshown
  · rw [if_neg (fun hnew => htotal hnew.1)]
    have hsame : (s.handleLine f).unreadTotal = s.unreadTotal := by
      rw [hbadge, Option.not_isSome_iff_eq_none.mp htotal]
      exact ite_self _
    rw [hsame]
    exact ⟨fun _ hovertaken => absurd hovertaken.1 htotal, fun _ => hshows⟩

/-! ## The frames of a generation -/

/-- The first frame of a newer generation starts it. -/
theorem handleLine_enterGeneration {s : Service} {generation : ℕ}
    (hcompatible : s.protocolCompatible = true) (hnewer : s.daemonGeneration < generation)
    {f : ServerFrame} (hf : f.generation = generation) :
    s.handleLine f = (s.enterGeneration generation).handleLine f := by
  have hentered : (s.enterGeneration generation).daemonGeneration = generation := by
    rw [enterGeneration, if_pos hnewer]
    rfl
  have haccept : s.acceptFrame f = (s.enterGeneration generation).acceptFrame f := by
    rw [acceptFrame_of_generation (hentered.trans hf.symm), acceptFrame, if_neg (by omega), hf]
  have hsame : (s.enterGeneration generation).protocolCompatible = true := by
    rw [enterGeneration, if_pos hnewer]
    exact hcompatible
  unfold Service.handleLine Service.handleFrame
  rw [haccept, if_neg (by rw [hcompatible]; decide), if_neg (by rw [hsame]; decide)]

theorem received_enterGeneration {s : Service} {generation : ℕ}
    (hcompatible : s.protocolCompatible = true) (hnewer : s.daemonGeneration < generation) :
    Received generation [] (s.enterGeneration generation) := by
  rw [enterGeneration, if_pos hnewer]
  exact ⟨hcompatible, rfl, fun _ _ => rfl⟩

theorem Received.foldl {generation : ℕ} {s : Service} (h : Received generation [] s)
    (frames : List ServerFrame) (hstamped : ∀ f ∈ frames, f.Stamped generation) :
    Received generation frames (frames.foldl Service.handleLine s) := by
  induction frames using List.reverseRecOn with
  | nil => exact h
  | append_singleton frames f ih =>
    rw [List.foldl_append]
    exact ((ih fun x hx => hstamped x (List.mem_append_left _ hx)).handleLine
      (hstamped f (List.mem_append_right _ (List.mem_singleton_self f)))).1

theorem showsNewest_enterGeneration {s : Service} {generation : ℕ}
    (hcompatible : s.protocolCompatible = true) (hnewer : s.daemonGeneration < generation)
    {frames : List ServerFrame} (hstamped : ∀ f ∈ frames, f.Stamped generation) :
    ShowsNewest frames (frames.foldl Service.handleLine s) ↔
      ShowsNewest frames (frames.foldl Service.handleLine (s.enterGeneration generation)) := by
  cases frames with
  | nil => exact ⟨fun _ _ hf => absurd hf nofun, fun _ _ hf => absurd hf nofun⟩
  | cons f rest =>
    rw [List.foldl_cons, List.foldl_cons, handleLine_enterGeneration hcompatible hnewer
      (hstamped f List.mem_cons_self).generation_eq]

/-- For all frames of a generation, in whatever order they arrive: the badge shows the newest
total after each of them if and only if every frame that is taken although it is overtaken carries
the newest total. -/
theorem showsNewest_iff {generation : ℕ} {s : Service} (hcompatible : s.protocolCompatible = true)
    (hnewer : s.daemonGeneration < generation) {frames : List ServerFrame}
    (hstamped : ∀ f ∈ frames, f.Stamped generation)
    (hdistinct : (frames.map ServerFrame.sequence).Nodup) :
    (∀ n, n ≤ frames.length →
        ShowsNewest (frames.take n) ((frames.take n).foldl Service.handleLine s)) ↔
      ∀ n, (hn : n < frames.length) → Harmless (frames.take n) frames[n] := by
  set entered := s.enterGeneration generation with hentered
  have hbefore : ∀ n, ∀ f ∈ frames.take n, f.Stamped generation := fun n f hf =>
    hstamped f (List.mem_of_mem_take hf)
  have hreceived : ∀ n, Received generation (frames.take n)
      ((frames.take n).foldl Service.handleLine entered) := fun n =>
    (received_enterGeneration hcompatible hnewer).foldl _ (hbefore n)
  have hsame : ∀ n, ShowsNewest (frames.take n) ((frames.take n).foldl Service.handleLine s) ↔
      ShowsNewest (frames.take n) ((frames.take n).foldl Service.handleLine entered) := fun n =>
    showsNewest_enterGeneration hcompatible hnewer (hbefore n)
  have hstep : ∀ n, (hn : n < frames.length) →
      ShowsNewest (frames.take n) ((frames.take n).foldl Service.handleLine entered) →
      (ShowsNewest (frames.take (n + 1)) ((frames.take (n + 1)).foldl Service.handleLine entered) ↔
        Harmless (frames.take n) frames[n]) := by
    intro n hn hshows
    rw [← List.take_append_getElem hn, List.foldl_append]
    refine showsNewest_handleLine (hreceived n) (hstamped _ (List.getElem_mem hn))
      (fun x hx => ?_) hshows
    have hnodup := hdistinct.sublist ((List.take_sublist (n + 1) frames).map ServerFrame.sequence)
    rw [← List.take_append_getElem hn, List.map_append, List.nodup_append] at hnodup
    exact hnodup.2.2 _ (List.mem_map_of_mem hx) _ List.mem_cons_self
  constructor
  · intro hall n hn
    exact (hstep n hn ((hsame n).mp (hall n (le_of_lt hn)))).mp
      ((hsame (n + 1)).mp (hall (n + 1) hn))
  · intro hharmless n hn
    rw [hsame n]
    induction n with
    | zero => exact fun _ hf => absurd hf nofun
    | succ n ih => exact (hstep n hn (ih (le_of_lt hn))).mpr (hharmless n hn)

/-- The select of a connection: the next broadcast, or the next answer. -/
def connectionLoop : List Bool → List ServerFrame → List ServerFrame → List ServerFrame
  | true :: picks, broadcast :: broadcasts, responses =>
    broadcast :: connectionLoop picks broadcasts responses
  | false :: picks, broadcasts, response :: responses =>
    response :: connectionLoop picks broadcasts responses
  | _, _, _ => []

/-- A service that is connected to the daemon. -/
def linked : Service := { connected := true, protocolCompatible := true }

/-- Two broadcasts and two answers, of which one is overtaken and carries the newest total. -/
theorem showsNewest_iff_answers :
    let frames := connectionLoop [false, true, true, false]
      [⟨none, 1, 3, .unread 5⟩, ⟨none, 1, 4, .invalidated .chats none⟩]
      [⟨some 1, 1, 1, .state 3⟩, ⟨some 2, 1, 2, .state 5⟩]
    (frames.foldl Service.handleLine linked).unreadTotal = 5 ∧ ∀ n, n ≤ frames.length →
      ShowsNewest (frames.take n) ((frames.take n).foldl Service.handleLine linked) :=
  ⟨by decide, (showsNewest_iff rfl (show linked.daemonGeneration < 1 by decide) (by decide)
    (by decide)).mpr (by decide)⟩

/-- `get_state` is answered with 3 unread; the chat is read and `unread` 0 is broadcast before the
loop takes the answer: the badge stands at 3. -/
theorem late_answer_raises_badge :
    let frames := connectionLoop [true, false] [⟨none, 1, 2, .unread 0⟩] [⟨some 1, 1, 1, .state 3⟩]
    ¬∀ n, n ≤ frames.length →
      ShowsNewest (frames.take n) ((frames.take n).foldl Service.handleLine linked) := by
  decide

end Service

end OmarchyWhatsapp
