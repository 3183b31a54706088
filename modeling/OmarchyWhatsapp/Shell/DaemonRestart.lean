import OmarchyWhatsapp.Relational.Run
import OmarchyWhatsapp.Session.RevisionClock
import OmarchyWhatsapp.Shell.Service

/-!
# Restarts of the daemon

The shell remembers the newest generation and the newest sequences it has seen, over every
connection; the clock of a restarted daemon starts again from zero. A connection subscribes to the
broadcasts and is greeted with a hello; its frames are delivered in any order after that.
-/

namespace OmarchyWhatsapp

open Relational

namespace Service

/-- `acceptFrame` is asked, and accepts. -/
def accepts (s : Service) (frame : ServerFrame) : Bool :=
  (isHello frame.event || s.protocolCompatible) && (s.acceptFrame frame).2

/-- The user turns to another chat. -/
def showChat (s : Service) (chatJid : String) : Service := { s with selectedChatJid := chatJid }

end Service

/-! ## Shell and daemon -/

structure DaemonLink where
  shell : Service := {}
  clock : RevisionClock := {}
  /-- The revision of the clock when the connection subscribed. -/
  since : ℕ := 0
  /-- The hello of the connection was delivered. -/
  greeted : Bool := false
  /-- The frames of the connection that are on their way. -/
  wire : List ServerFrame := []
  /-- The frames of this process of the daemon that were delivered, newest first. -/
  delivered : List ServerFrame := []
  /-- The frames that came in order and were turned away, by any process. -/
  refused : List ServerFrame := []

inductive LinkStep where
  | restart
  | beginGeneration
  | retireGeneration (generation : ℕ)
  | connect
  | disconnect
  | greet
  | publish (id : Option ℕ) (event : ServerEvent)
  /-- The connection lags: broadcasts are lost, and the hello is repeated. -/
  | lag (lost : List ServerFrame)
  | deliver (frame : ServerFrame)
  | showChat (chatJid : String)
  | downloadMedia (message : Message)
  | expireRequest (id : ℕ)

namespace DaemonLink

/-- A frame is stamped, and written if somebody is connected. -/
def stamp (s : DaemonLink) (id : Option ℕ) (event : ServerEvent) : DaemonLink :=
  { s with
    clock := s.clock.takeRevision.1
    wire := if s.shell.connected then
        s.wire ++ [⟨id, s.clock.generation, s.clock.takeRevision.2, event⟩]
      else s.wire }

/-- The frame is a hello, or newer than every frame of its resource that this process had
delivered. -/
def inOrder (s : DaemonLink) (frame : ServerFrame) : Bool :=
  isHello frame.event || s.delivered.all (fun f =>
    decide (f.resourceKey = frame.resourceKey → f.sequence < frame.sequence))

/-- The hello is the first frame of a connection. -/
def delivers (s : DaemonLink) (frame : ServerFrame) : Bool :=
  decide (frame ∈ s.wire) && (s.greeted || isHello frame.event)

def step (s : DaemonLink) : LinkStep → DaemonLink
  | .restart =>
    { s with
      shell := s.shell.disconnect, clock := {}, since := 0, greeted := false, wire := []
      delivered := [] }
  | .beginGeneration => { s with clock := s.clock.beginGeneration.1 }
  | .retireGeneration generation => { s with clock := s.clock.retireGeneration generation }
  | .connect =>
    { s with shell := s.shell.connect, since := s.clock.revision, greeted := false, wire := [] }
  | .disconnect => { s with shell := s.shell.disconnect, greeted := false, wire := [] }
  | .greet => s.stamp none (.hello protocolVersion)
  | .publish id event => if isHello event then s else s.stamp id event
  | .lag lost =>
    { s with wire := s.wire.filter (survives lost) }.stamp none (.hello protocolVersion)
  | .deliver frame =>
    if s.delivers frame then
      { s with
        shell := s.shell.handleLine frame
        greeted := true
        wire := s.wire.erase frame
        delivered := frame :: s.delivered
        refused := if s.inOrder frame && !s.shell.accepts frame then frame :: s.refused
          else s.refused }
    else s
  | .showChat chatJid => { s with shell := s.shell.showChat chatJid }
  | .downloadMedia message => { s with shell := s.shell.downloadMedia message }
  | .expireRequest id => { s with shell := s.shell.expireRequest id }

/-! ## When restarts are harmless -/

/-- The shell has seen nothing that the first hello of a process contradicts: its generation is
older, or it is the same and no remembered sequence is beyond the clock. -/
def Supersedes (s : DaemonLink) (hello : ServerFrame) : Prop :=
  s.shell.daemonGeneration < hello.generation ∨
    ((hello.generation = s.shell.daemonGeneration ∨
        (hello.generation = 0 ∧ s.shell.daemonGeneration ≤ 1)) ∧
      ∀ key, s.shell.resourceSequences key ≤ s.since)

structure Continues (s : DaemonLink) (frame : ServerFrame) : Prop where
  first : s.delivered = [] → s.Supersedes frame
  /-- No frame of a later generation was delivered before. -/
  notOvertaken : frame.generation = 0 ∨ ∀ f ∈ s.delivered, f.generation ≤ frame.generation

def Undisturbed (s : DaemonLink) (a : LinkStep) : Prop :=
  s.clock.revision < u64Max ∧ ∀ frame, a = .deliver frame → s.delivers frame = true →
    s.Continues frame

end DaemonLink

/-! ## What a frame changes -/

namespace Service

variable {s : Service} {f : ServerFrame}

theorem sequences_acceptFrame (s : Service) (f : ServerFrame) (key : String) :
    (s.acceptFrame f).1.resourceSequences key ≤ s.resourceSequences key ∨
      (f.resourceKey = key ∧ (s.acceptFrame f).1.resourceSequences key = f.sequence) := by
  have hentered : (s.enterGeneration f.generation).resourceSequences key
      ≤ s.resourceSequences key := by
    unfold enterGeneration
    split_ifs
    · exact Nat.zero_le _
    · exact Nat.le_refl _
  unfold acceptFrame
  split_ifs
  · exact Or.inl (Nat.le_refl _)
  · unfold takeFrame
    split_ifs
    · exact Or.inl hentered
    · exact Or.inl hentered
    · dsimp only
      by_cases hkey : key = f.resourceKey
      · exact Or.inr ⟨hkey.symm, if_pos hkey⟩
      · rw [if_neg hkey]
        exact Or.inl hentered

/-- A newer generation forgets the sequences. -/
theorem sequences_acceptFrame_of_newer (hnewer : s.daemonGeneration < f.generation)
    (key : String) : (s.acceptFrame f).1.resourceSequences key = 0 ∨
      (f.resourceKey = key ∧ (s.acceptFrame f).1.resourceSequences key = f.sequence) := by
  have hentered : (s.enterGeneration f.generation).resourceSequences key = 0 := by
    rw [enterGeneration, if_pos hnewer]
    rfl
  rw [acceptFrame, if_neg (by omega), takeFrame]
  split_ifs
  · exact Or.inl hentered
  · exact Or.inl hentered
  · dsimp only
    by_cases hkey : key = f.resourceKey
    · exact Or.inr ⟨hkey.symm, if_pos hkey⟩
    · rw [if_neg hkey]
      exact Or.inl hentered

/-- Generation and sequence are all that an accepted frame is measured by. -/
theorem acceptFrame_of_newer (hgeneration : f.generation = 0 ∨ s.daemonGeneration ≤ f.generation ∨
      s.daemonGeneration ≤ 1)
    (hsequence : f.resourceKey = "" ∨ s.resourceSequences f.resourceKey < f.sequence) :
    (s.acceptFrame f).2 = true := by
  have hentered : (s.enterGeneration f.generation).resourceSequences f.resourceKey
      ≤ s.resourceSequences f.resourceKey := by
    unfold enterGeneration
    split_ifs
    · exact Nat.zero_le _
    · exact Nat.le_refl _
  rw [acceptFrame, if_neg (by omega), takeFrame]
  split_ifs with hfree hstale
  · rfl
  · rcases hsequence with hkey | hnewer
    · exact absurd (Or.inr hkey) hfree
    · omega
  · rfl

/-- What the handlers of a frame leave alone. -/
structure SameStamps (s s' : Service) : Prop where
  connected : s'.connected = s.connected
  compatible : s'.protocolCompatible = s.protocolCompatible
  generation : s'.daemonGeneration = s.daemonGeneration
  sequences : s'.resourceSequences = s.resourceSequences

theorem SameFrames.stamps {s s' : Service} (h : SameFrames s s') : SameStamps s s' :=
  ⟨h.connected, h.compatible, h.generation, h.sequences⟩

theorem SameStamps.trans {s s' s'' : Service} (h : SameStamps s s') (h' : SameStamps s' s'') :
    SameStamps s s'' :=
  ⟨h'.connected.trans h.connected, h'.compatible.trans h.compatible,
    h'.generation.trans h.generation, h'.sequences.trans h.sequences⟩

theorem sameStamps_handleEvent (s : Service) (event : ServerEvent) :
    SameStamps s (s.handleEvent event) := by
  cases event with
  | chats chats => exact (sameFrames_handleChats s chats).stamps
  | invalidated resource key => exact (sameFrames_handleInvalidation s resource).stamps
  | _ => exact ⟨rfl, rfl, rfl, rfl⟩

theorem compatible_acceptFrame (s : Service) (f : ServerFrame) :
    (s.acceptFrame f).1.protocolCompatible = s.protocolCompatible := by
  have hentered : (s.enterGeneration f.generation).protocolCompatible = s.protocolCompatible := by
    unfold enterGeneration
    split_ifs <;> rfl
  unfold acceptFrame
  split_ifs
  · rfl
  · unfold takeFrame
    split_ifs <;> exact hentered

theorem sameStamps_handleFrame (hcompatible : s.protocolCompatible = true) :
    SameStamps (s.acceptFrame f).1 (s.handleFrame f) := by
  rw [handleFrame, if_neg (by rw [hcompatible]; decide)]
  have hfinished :=
    (sameFrames_finishMediaDownloadRequest (s.acceptFrame f).1 f.id (isError f.event)).stamps
  dsimp only
  split_ifs
  · exact hfinished.trans (sameStamps_handleEvent _ _)
  · exact hfinished

/-- A hello of the right version that is accepted makes the shell listen. -/
theorem handleLine_hello (hevent : f.event = .hello protocolVersion)
    (haccepted : (s.acceptFrame f).2 = true) :
    SameStamps { (s.acceptFrame f).1 with protocolCompatible := true } (s.handleLine f) := by
  have hline : s.handleLine f = (s.acceptFrame f).1.handleHello protocolVersion := by
    rw [handleLine, hevent]
    exact if_pos haccepted
  rw [hline, handleHello, if_neg (not_not.mpr rfl)]
  exact (sameFrames_refreshMetadata _).stamps

end Service

/-! ## Steps -/

namespace DaemonLink

variable {s : DaemonLink}

/-- The frames of the connection were stamped after it subscribed, and what the shell remembers
comes from frames that this process had delivered, or is no obstacle. -/
structure Sound (s : DaemonLink) : Prop where
  accepted : s.refused = []
  subscribed : s.since ≤ s.clock.revision
  wire : ∀ f ∈ s.wire, s.since < f.sequence ∧ f.sequence ≤ s.clock.revision ∧
    (isHello f.event = true → f.event = .hello protocolVersion ∧ f.id = none)
  delivered : ∀ f ∈ s.delivered, f.sequence ≤ s.clock.revision
  sequences : s.delivered ≠ [] → ∀ key, s.shell.resourceSequences key ≤ s.since ∨
    ∃ f ∈ s.delivered, f.resourceKey = key ∧ s.shell.resourceSequences key ≤ f.sequence
  generation : s.delivered ≠ [] → s.shell.daemonGeneration ≤ 1 ∨
    ∃ f ∈ s.delivered, s.shell.daemonGeneration ≤ f.generation
  greeted : s.greeted = true → s.delivered ≠ [] ∧ s.shell.protocolCompatible = true

/-- The frame is accepted, as long as it comes in order. -/
theorem Sound.accepts (h : s.Sound) {f : ServerFrame} (hdelivers : s.delivers f = true)
    (hcontinues : s.Continues f) (horder : s.inOrder f = true) : s.shell.accepts f = true := by
  simp only [delivers, Bool.and_eq_true, decide_eq_true_eq, Bool.or_eq_true] at hdelivers
  obtain ⟨hmem, hgreeted⟩ := hdelivers
  obtain ⟨hsince, -, hhello⟩ := h.wire f hmem
  rw [Service.accepts, Bool.and_eq_true, Bool.or_eq_true]
  refine ⟨hgreeted.symm.imp_right fun hg => (h.greeted hg).2, Service.acceptFrame_of_newer ?_ ?_⟩
  · -- the generation
    by_cases hfirst : s.delivered = []
    · rcases hcontinues.first hfirst with hnewer | ⟨hsame, -⟩ <;> omega
    · rcases hcontinues.notOvertaken with hzero | hlater
      · exact Or.inl hzero
      · rcases h.generation hfirst with hone | ⟨g, hg, hle⟩
        · exact Or.inr (Or.inr hone)
        · exact Or.inr (Or.inl (Nat.le_trans hle (hlater g hg)))
  · -- the sequence
    by_cases hevent : isHello f.event = true
    · obtain ⟨hversion, hid⟩ := hhello hevent
      left
      rw [ServerFrame.resourceKey, hversion, hid]
      rfl
    · right
      have hg := hgreeted.resolve_right hevent
      rcases h.sequences (h.greeted hg).1 f.resourceKey with hold | ⟨g, hg, hkey, hle⟩
      · omega
      · have hall := (Bool.or_eq_true_iff.mp horder).resolve_left hevent
        have hlt := of_decide_eq_true (List.all_eq_true.mp hall g hg) hkey
        omega

theorem Sound.stamp (h : s.Sound) (hbelow : s.clock.revision < u64Max) (id : Option ℕ)
    (event : ServerEvent)
    (hhello : isHello event = true → event = .hello protocolVersion ∧ id = none) :
    (s.stamp id event).Sound := by
  have hrevision : s.clock.takeRevision = ({ s.clock with revision := s.clock.revision + 1 },
      s.clock.revision + 1) := by
    rw [RevisionClock.takeRevision, saturatingSucc_of_lt hbelow]
  have hsubscribed := h.subscribed
  unfold DaemonLink.stamp
  rw [hrevision]
  constructor
  · exact h.accepted
  · exact Nat.le_succ_of_le hsubscribed
  · have hold : ∀ f ∈ s.wire, s.since < f.sequence ∧ f.sequence ≤ s.clock.revision + 1 ∧
        (isHello f.event = true → f.event = .hello protocolVersion ∧ f.id = none) := by
      intro f hf
      obtain ⟨h1, h2, h3⟩ := h.wire f hf
      exact ⟨h1, Nat.le_succ_of_le h2, h3⟩
    intro f hf
    dsimp only at hf
    split_ifs at hf
    · rcases List.mem_append.mp hf with hf | hf
      · exact hold f hf
      · rw [List.mem_singleton] at hf
        subst hf
        exact ⟨Nat.lt_succ_of_le hsubscribed, Nat.le_refl _, hhello⟩
    · exact hold f hf
  · exact fun f hf => Nat.le_succ_of_le (h.delivered f hf)
  · exact h.sequences
  · exact h.generation
  · exact h.greeted

/-- After a frame in order the shell has what `acceptFrame` made of it, and listens. -/
theorem Sound.handleLine (h : s.Sound) {f : ServerFrame} (hdelivers : s.delivers f = true)
    (hcontinues : s.Continues f) :
    (s.shell.handleLine f).daemonGeneration = (s.shell.acceptFrame f).1.daemonGeneration ∧
      (s.shell.handleLine f).resourceSequences = (s.shell.acceptFrame f).1.resourceSequences ∧
      (s.shell.handleLine f).protocolCompatible = true := by
  have hmem := hdelivers
  simp only [delivers, Bool.and_eq_true, decide_eq_true_eq, Bool.or_eq_true] at hmem
  by_cases hevent : isHello f.event = true
  · have horder : s.inOrder f = true := by rw [inOrder, hevent, Bool.true_or]
    have haccepts := h.accepts hdelivers hcontinues horder
    rw [Service.accepts, Bool.and_eq_true] at haccepts
    have hsame := Service.handleLine_hello ((h.wire f hmem.1).2.2 hevent).1 haccepts.2
    exact ⟨hsame.generation, hsame.sequences, hsame.compatible⟩
  · have hlistens := (h.greeted (hmem.2.resolve_right hevent)).2
    have hsame := Service.sameStamps_handleFrame (f := f) hlistens
    rw [Service.handleLine_of_not_hello _ (Bool.eq_false_iff.mpr hevent)]
    exact ⟨hsame.generation, hsame.sequences,
      hsame.compatible.trans ((Service.compatible_acceptFrame _ _).trans hlistens)⟩

theorem Sound.deliver (h : s.Sound) {f : ServerFrame} (hdelivers : s.delivers f = true)
    (hcontinues : s.Continues f) : (s.step (.deliver f)).Sound := by
  obtain ⟨hgeneration, hsequences, hcompatible⟩ := h.handleLine hdelivers hcontinues
  have hmem : f ∈ s.wire := by
    simp only [delivers, Bool.and_eq_true, decide_eq_true_eq] at hdelivers
    exact hdelivers.1
  rw [DaemonLink.step, if_pos hdelivers]
  constructor
  · show (if s.inOrder f && !s.shell.accepts f then f :: s.refused else s.refused) = []
    rw [if_neg, h.accepted]
    intro hrefused
    rw [Bool.and_eq_true] at hrefused
    have haccepts := h.accepts hdelivers hcontinues hrefused.1
    rw [haccepts] at hrefused
    cases hrefused.2
  · exact h.subscribed
  · exact fun g hg => h.wire g (List.mem_of_mem_erase hg)
  · intro g hg
    rcases List.mem_cons.mp hg with rfl | hg
    · exact (h.wire g hmem).2.1
    · exact h.delivered g hg
  · intro _ key
    show (s.shell.handleLine f).resourceSequences key ≤ s.since ∨ _
    rw [hsequences]
    by_cases hfirst : s.delivered = []
    · rcases hcontinues.first hfirst with hnewer | ⟨-, hknown⟩
      · rcases Service.sequences_acceptFrame_of_newer hnewer key with hzero | ⟨hkey, hseq⟩
        · exact Or.inl (by omega)
        · exact Or.inr ⟨f, List.mem_cons_self, hkey, hseq.le⟩
      · rcases Service.sequences_acceptFrame s.shell f key with hle | ⟨hkey, hseq⟩
        · exact Or.inl (Nat.le_trans hle (hknown key))
        · exact Or.inr ⟨f, List.mem_cons_self, hkey, hseq.le⟩
    · rcases Service.sequences_acceptFrame s.shell f key with hle | ⟨hkey, hseq⟩
      · rcases h.sequences hfirst key with hold | ⟨g, hg, hkey, hseq⟩
        · exact Or.inl (Nat.le_trans hle hold)
        · exact Or.inr ⟨g, List.mem_cons_of_mem _ hg, hkey, Nat.le_trans hle hseq⟩
      · exact Or.inr ⟨f, List.mem_cons_self, hkey, hseq.le⟩
  · intro _
    show (s.shell.handleLine f).daemonGeneration ≤ 1 ∨ _
    rw [hgeneration]
    rcases Service.daemonGeneration_acceptFrame s.shell f with hsame | hnew
    · rw [hsame]
      by_cases hfirst : s.delivered = []
      · rcases hcontinues.first hfirst with hnewer | ⟨heq | hone, -⟩
        · exact Or.inr ⟨f, List.mem_cons_self, hnewer.le⟩
        · exact Or.inr ⟨f, List.mem_cons_self, heq.ge⟩
        · exact Or.inl hone.2
      · refine (h.generation hfirst).imp_right fun ⟨g, hg, hle⟩ => ?_
        exact ⟨g, List.mem_cons_of_mem _ hg, hle⟩
    · exact Or.inr ⟨f, List.mem_cons_self, hnew.le⟩
  · exact fun _ => ⟨List.cons_ne_nil _ _, hcompatible⟩

/-- Nothing of the frames or of what is known of them changes. -/
theorem Sound.of_same (h : s.Sound) {shell : Service} {clock : RevisionClock}
    (hrevision : clock.revision = s.clock.revision) (hsame : Service.SameStamps s.shell shell) :
    ({ s with shell, clock } : DaemonLink).Sound where
  accepted := h.accepted
  subscribed := by dsimp only; rw [hrevision]; exact h.subscribed
  wire f hf := by dsimp only; rw [hrevision]; exact h.wire f hf
  delivered f hf := by dsimp only; rw [hrevision]; exact h.delivered f hf
  sequences hne key := by dsimp only; rw [hsame.sequences]; exact h.sequences hne key
  generation hne := by dsimp only; rw [hsame.generation]; exact h.generation hne
  greeted hg := ⟨(h.greeted hg).1, hsame.compatible.trans (h.greeted hg).2⟩

theorem Sound.lose (h : s.Sound) (p : ServerFrame → Bool) :
    ({ s with wire := s.wire.filter p } : DaemonLink).Sound :=
  { h with wire := fun f hf => h.wire f (List.mem_of_mem_filter hf) }

/-- A connection begins or ends: the wire is empty, and what is remembered stays. -/
theorem Sound.reopen (h : s.Sound) {shell : Service} {since : ℕ}
    (hsince : s.since ≤ since ∧ since ≤ s.clock.revision)
    (hgeneration : shell.daemonGeneration = s.shell.daemonGeneration)
    (hsequences : shell.resourceSequences = s.shell.resourceSequences) :
    ({ s with shell, since, greeted := false, wire := [] } : DaemonLink).Sound where
  accepted := h.accepted
  subscribed := hsince.2
  wire f hf := absurd hf List.not_mem_nil
  delivered := h.delivered
  sequences hne key := by
    dsimp only
    rw [hsequences]
    exact (h.sequences hne key).imp_left fun hle => Nat.le_trans hle hsince.1
  generation hne := by
    dsimp only
    rw [hgeneration]
    exact h.generation hne
  greeted hg := by cases hg

theorem sameStamps_downloadMedia (shell : Service) (message : Message) :
    Service.SameStamps shell (shell.downloadMedia message) := by
  unfold Service.downloadMedia
  dsimp only
  split_ifs
  · exact ⟨rfl, rfl, rfl, rfl⟩
  · have hsame := (Service.sameFrames_send shell
      (.downloadMedia message.chatJid message.id)).stamps
    split
    · exact ⟨rfl, rfl, rfl, rfl⟩
    · rename_i sent requestId _ hsend
      rw [hsend] at hsame
      exact ⟨hsame.connected, hsame.compatible, hsame.generation, hsame.sequences⟩

theorem Sound.step (h : s.Sound) {a : LinkStep} (hguard : s.Undisturbed a) :
    (s.step a).Sound := by
  cases a with
  | restart =>
    refine ⟨h.accepted, Nat.le_refl 0, ?_, ?_, ?_, ?_, ?_⟩
    · exact fun f hf => absurd hf List.not_mem_nil
    · exact fun f hf => absurd hf List.not_mem_nil
    · exact fun hne => absurd rfl hne
    · exact fun hne => absurd rfl hne
    · exact fun hg => by cases hg
  | beginGeneration => exact h.of_same rfl ⟨rfl, rfl, rfl, rfl⟩
  | retireGeneration generation =>
    refine h.of_same ?_ ⟨rfl, rfl, rfl, rfl⟩
    unfold RevisionClock.retireGeneration
    split_ifs <;> rfl
  | connect => exact h.reopen ⟨h.subscribed, Nat.le_refl _⟩ rfl rfl
  | disconnect => exact h.reopen ⟨Nat.le_refl _, h.subscribed⟩ rfl rfl
  | greet => exact h.stamp hguard.1 none _ fun _ => ⟨rfl, rfl⟩
  | publish id event =>
    simp only [DaemonLink.step]
    split_ifs with hevent
    · exact h
    · exact h.stamp hguard.1 id event fun hhello => absurd hhello hevent
  | lag lost => exact (h.lose _).stamp hguard.1 none _ fun _ => ⟨rfl, rfl⟩
  | deliver frame =>
    by_cases hdelivers : s.delivers frame = true
    · exact h.deliver hdelivers (hguard.2 frame rfl hdelivers)
    · rw [DaemonLink.step, if_neg hdelivers]
      exact h
  | showChat chatJid => exact h.of_same rfl ⟨rfl, rfl, rfl, rfl⟩
  | downloadMedia message => exact h.of_same rfl (sameStamps_downloadMedia _ _)
  | expireRequest id =>
    exact h.of_same rfl (Service.sameFrames_finishMediaDownloadRequest _ _ _).stamps

/-- In every run whose restarts leave the shell with nothing that contradicts the first hello,
and in which no frame is overtaken by one of a later generation, every hello is accepted and so
is every frame that comes in the order of its resource. -/
theorem accepts_of_undisturbed {as : List LinkStep} (hg : Guarded step Undisturbed {} as) :
    ∀ s ∈ states step {} as, s.refused = [] := by
  have hinit : ({} : DaemonLink).Sound := by
    refine ⟨rfl, Nat.le_refl 0, ?_, ?_, ?_, ?_, ?_⟩
    · exact fun f hf => absurd hf List.not_mem_nil
    · exact fun f hf => absurd hf List.not_mem_nil
    · exact fun hne => absurd rfl hne
    · exact fun hne => absurd rfl hne
    · exact fun hg => by cases hg
  exact fun s hs => (invariant_states (fun _ _ h hguard => h.step hguard) hinit hg s hs).accepted

def hello (generation sequence : ℕ) : ServerFrame :=
  ⟨none, generation, sequence, .hello protocolVersion⟩

/-- A restarted daemon whose generation is newer by the time it greets the shell. -/
def newerGeneration : List LinkStep :=
  [.beginGeneration, .connect, .greet, .deliver (hello 1 1), .restart, .beginGeneration,
    .retireGeneration 1, .connect, .greet, .deliver (hello 2 1)]

theorem accepts_of_undisturbed_newer_generation :
    (run step {} newerGeneration).delivered = [hello 2 1] ∧
      (run step {} newerGeneration).refused = [] := by
  refine ⟨by decide, accepts_of_undisturbed ?_ _ (run_mem_states _ _ _)⟩
  have hother : ∀ (s : DaemonLink) (a : LinkStep), s.clock.revision < u64Max →
      (∀ frame, a ≠ .deliver frame) → s.Undisturbed a :=
    fun s a hbelow ha => ⟨hbelow, fun frame h _ => absurd h (ha frame)⟩
  have hfirst : ∀ (s : DaemonLink) (f : ServerFrame), s.clock.revision < u64Max →
      s.delivered = [] → s.shell.daemonGeneration < f.generation → s.Undisturbed (.deliver f) := by
    intro s f hbelow hnone hnewer
    refine ⟨hbelow, fun frame h _ => ?_⟩
    cases h
    exact ⟨fun _ => Or.inl hnewer, Or.inr fun g hg => absurd (hnone ▸ hg) List.not_mem_nil⟩
  exact ⟨hother _ _ (by decide) (by simp), hother _ _ (by decide) (by simp),
    hother _ _ (by decide) (by simp), hfirst _ _ (by decide) rfl (by decide),
    hother _ _ (by decide) (by simp), hother _ _ (by decide) (by simp),
    hother _ _ (by decide) (by simp), hother _ _ (by decide) (by simp),
    hother _ _ (by decide) (by simp), hfirst _ _ (by decide) rfl (by decide), trivial⟩

/-- The greeting of a connection, and the unread total. -/
def greeting (generation sequence total : ℕ) : List LinkStep :=
  [.connect, .greet, .deliver (hello generation sequence),
    .publish none (.unread total), .deliver ⟨none, generation, sequence + 1, .unread total⟩]

/-- The daemon is restarted, and its first frame comes from a generation with the same number. -/
theorem equal_generation_refused :
    ¬∀ s ∈ states step {} ([.beginGeneration] ++ greeting 1 1 3 ++ [.restart, .beginGeneration] ++
        greeting 1 1 0), s.refused = [] := by
  intro h
  exact absurd (h _ (run_mem_states _ _ _)) (by decide)

end DaemonLink

end OmarchyWhatsapp
