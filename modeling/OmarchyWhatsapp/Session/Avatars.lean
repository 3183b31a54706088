import Mathlib.Data.List.Sort
import Mathlib.Data.String.Basic
import OmarchyWhatsapp.Relational.Run
import OmarchyWhatsapp.Relational.Table

/-!
# Coalesced avatar changes

A writer changes the avatar directory and calls `avatars_changed`; the first call since the last
flush spawns a delayed flush. A flush scans the directory, compares it with the baseline and
publishes what differs. The first snapshot that a client asks for becomes the baseline. Scans run
under the lock of the tracker, but writers do not take it.
-/

namespace OmarchyWhatsapp

open Relational

/-- The inode, the size and the time of an avatar file. -/
structure AvatarFingerprint where
  ino : ℕ
  len : ℕ
  mtime : ℤ
  mtimeNsec : ℤ
deriving DecidableEq, Repr

structure AvatarFile where
  jid : String
  fingerprint : AvatarFingerprint
deriving DecidableEq, Repr

/-- The avatar directory, and what `avatar_fingerprints` reads of it. -/
abbrev AvatarDirectory := Table AvatarFile AvatarFile.jid

namespace AvatarDirectory

def fingerprint? (d : AvatarDirectory) (jid : String) : Option AvatarFingerprint :=
  (d.find? jid).map (·.fingerprint)

/-- The keys, in the order of the map. -/
def jids (d : AvatarDirectory) : List String :=
  (d.rows.map (·.jid)).insertionSort (· ≤ ·)

/-- An avatar is written, or removed. -/
def set (d : AvatarDirectory) (jid : String) : Option AvatarFingerprint → AvatarDirectory
  | some fingerprint => (d.deleteWhere (fun f => f.jid = jid)).insertOrIgnore ⟨jid, fingerprint⟩
  | none => d.deleteWhere (fun f => f.jid = jid)

theorem fingerprint?_set (d : AvatarDirectory) (jid k : String)
    (fingerprint : Option AvatarFingerprint) :
    (d.set jid fingerprint).fingerprint? k = if k = jid then fingerprint else d.fingerprint? k := by
  unfold fingerprint?
  cases fingerprint with
  | none =>
    rw [set, Table.find?_deleteWhere_key]
    split <;> rfl
  | some fingerprint =>
    rw [set, Table.find?_insertOrIgnore, Table.find?_deleteWhere_key]
    split <;> rfl

theorem mem_jids {d : AvatarDirectory} {jid : String} :
    jid ∈ d.jids ↔ d.fingerprint? jid ≠ none := by
  rw [jids, List.mem_insertionSort, fingerprint?, Ne, Option.map_eq_none_iff, Table.find?_eq_none,
    List.mem_map]
  push Not
  rfl

end AvatarDirectory

structure AvatarCoalescer where
  fingerprints : AvatarDirectory := ∅
  changedJids : List String := []
  seeded : Bool := false
  flushScheduled : Bool := false

namespace AvatarCoalescer

/-- Whether the caller owns the pending flush. -/
def markDirty (c : AvatarCoalescer) : AvatarCoalescer × Bool :=
  ({ c with flushScheduled := true }, !c.flushScheduled)

/-- The changes of `flush`, a set that is handed out in order. -/
def changes (c : AvatarCoalescer) (current : AvatarDirectory) : List String :=
  (current.jids ++ c.fingerprints.jids).foldl
    (fun changed jid =>
      if current.fingerprint? jid ≠ c.fingerprints.fingerprint? jid then changed.insert jid
      else changed)
    c.changedJids

def flush (c : AvatarCoalescer) (current : AvatarDirectory) : AvatarCoalescer × List String :=
  ({ fingerprints := current, changedJids := [], seeded := true, flushScheduled := false },
    (c.changes current).insertionSort (· ≤ ·))

def seed (c : AvatarCoalescer) (current : AvatarDirectory) : AvatarCoalescer :=
  if c.seeded then c else { c with fingerprints := current, seeded := true }

/-- A fold that inserts what satisfies a condition. -/
theorem mem_foldl_insert {p : String → Prop} [DecidablePred p] {jids changed : List String}
    {jid : String} :
    jid ∈ jids.foldl (fun changed jid => if p jid then changed.insert jid else changed) changed ↔
      jid ∈ changed ∨ (jid ∈ jids ∧ p jid) := by
  induction jids generalizing changed with
  | nil => simp
  | cons first rest ih =>
    rw [List.foldl_cons, ih, List.mem_cons]
    split
    · rename_i hp
      rw [List.mem_insert_iff]
      constructor
      · rintro ((rfl | h) | h)
        · exact Or.inr ⟨Or.inl rfl, hp⟩
        · exact Or.inl h
        · exact Or.inr ⟨Or.inr h.1, h.2⟩
      · rintro (h | ⟨rfl | h, hjid⟩)
        · exact Or.inl (Or.inr h)
        · exact Or.inl (Or.inl rfl)
        · exact Or.inr ⟨h, hjid⟩
    · rename_i hp
      refine or_congr_right ⟨fun h => ⟨Or.inr h.1, h.2⟩, ?_⟩
      rintro ⟨rfl | h, hjid⟩
      · exact absurd hjid hp
      · exact ⟨h, hjid⟩

/-- What a flush publishes, where nothing was left over: the avatars that differ from the
baseline. -/
theorem mem_flush {c : AvatarCoalescer} (hempty : c.changedJids = []) (current : AvatarDirectory)
    (jid : String) : jid ∈ (c.flush current).2 ↔
      current.fingerprint? jid ≠ c.fingerprints.fingerprint? jid := by
  rw [flush, List.mem_insertionSort, changes, mem_foldl_insert, hempty, List.mem_append,
    AvatarDirectory.mem_jids, AvatarDirectory.mem_jids]
  constructor
  · rintro (h | h)
    · cases h
    · exact h.2
  · intro hne
    refine Or.inr ⟨?_, hne⟩
    by_contra h
    push Not at h
    exact hne (h.1.trans h.2.symm)

end AvatarCoalescer

/-! ## Writers, flushes and clients -/

/-- An `avatars` event. -/
structure AvatarsEvent where
  revision : ℕ
  jids : List String
  changedJids : List String
deriving DecidableEq, Repr

/-- A flush past its scan, with what it is about to send. -/
structure AvatarSend where
  jids : List String
  changedJids : List String
deriving DecidableEq, Repr

/-- A client: the scan that its snapshot was made of, and the events since. -/
structure AvatarClient where
  snapshot : AvatarDirectory
  answer : AvatarsEvent
  received : List AvatarsEvent := []

/-- An event has told the client of a change. -/
def AvatarClient.Told (c : AvatarClient) (jid : String) : Prop :=
  ∃ event ∈ c.received, jid ∈ event.changedJids

/-- A scan under the lock, of a flush or of a snapshot. -/
structure AvatarScan where
  flushing : Bool
  current : AvatarDirectory

structure AvatarBroadcaster where
  directory : AvatarDirectory := ∅
  /-- The writes that `avatars_changed` has yet to follow. -/
  unmarked : List String := []
  state : AvatarCoalescer := {}
  scan : Option AvatarScan := none
  /-- The flushes that are spawned and have not begun. -/
  delayed : ℕ := 0
  sends : List AvatarSend := []
  revision : ℕ := 0
  clients : List AvatarClient := []

inductive AvatarStep where
  /-- A file is written or removed; `seen` says whether the scan that is under way comes to it
  afterwards. -/
  | write (jid : String) (fingerprint : Option AvatarFingerprint) (seen : Bool)
  | avatarsChanged (jid : String)
  | beginFlush
  | beginSnapshot
  | endScan
  | send (send : AvatarSend)

namespace AvatarBroadcaster

def step (s : AvatarBroadcaster) : AvatarStep → AvatarBroadcaster
  | .write jid fingerprint seen =>
    { s with
      directory := s.directory.set jid fingerprint
      unmarked := jid :: s.unmarked
      scan := s.scan.map (fun scan =>
        if seen then { scan with current := scan.current.set jid fingerprint } else scan) }
  | .avatarsChanged jid =>
    if jid ∈ s.unmarked ∧ s.scan.isNone then
      let (state, owns) := s.state.markDirty
      { s with
        state
        unmarked := s.unmarked.erase jid
        delayed := if owns then s.delayed + 1 else s.delayed }
    else s
  | .beginFlush =>
    if s.delayed ≠ 0 ∧ s.scan.isNone then
      { s with delayed := s.delayed - 1, scan := some ⟨true, s.directory⟩ }
    else s
  | .beginSnapshot =>
    if s.scan.isNone then { s with scan := some ⟨false, s.directory⟩ } else s
  | .endScan => match s.scan with
    | none => s
    | some ⟨true, current⟩ =>
      let (state, changedJids) := s.state.flush current
      { s with
        state, scan := none
        sends := if changedJids = [] then s.sends else ⟨current.jids, changedJids⟩ :: s.sends }
    | some ⟨false, current⟩ =>
      { s with
        state := s.state.seed current, scan := none
        clients := { snapshot := current, answer := ⟨s.revision, current.jids, []⟩ } :: s.clients }
  | .send send =>
    if send ∈ s.sends then
      let event : AvatarsEvent := ⟨s.revision + 1, send.jids, send.changedJids⟩
      { s with
        sends := s.sends.erase send
        revision := s.revision + 1
        clients := s.clients.map (fun c => { c with received := event :: c.received }) }
    else s

/-! ## What clients are told -/

/-- The flushes that are pending: spawned, or in their scan. -/
def pending (s : AvatarBroadcaster) : ℕ :=
  s.delayed + (s.scan.any (·.flushing)).toNat

/-- No flush is pending or about to send, and `avatars_changed` has followed each write. -/
def Quiet (s : AvatarBroadcaster) : Prop :=
  s.pending = 0 ∧ s.sends = [] ∧ s.unmarked = []

structure AnnouncesChanges (s : AvatarBroadcaster) : Prop where
  onePending : s.pending ≤ 1
  exact : ∀ current jid, jid ∈ (s.state.flush current).2 ↔
    current.fingerprint? jid ≠ s.state.fingerprints.fingerprint? jid
  told : s.Quiet → ∀ c ∈ s.clients, ∀ jid,
    s.directory.fingerprint? jid ≠ c.snapshot.fingerprint? jid → c.Told jid

/-- A flush finds no avatar as the baseline has it that a client has seen otherwise, or the client
has been told of it, or will be. -/
def FindsChanges (s : AvatarBroadcaster) : AvatarStep → Prop
  | .endScan => ∀ scan ∈ s.scan, scan.flushing = true → ∀ c ∈ s.clients,
    ∀ jid ∈ scan.current.jids ++ c.snapshot.jids,
      scan.current.fingerprint? jid ≠ c.snapshot.fingerprint? jid →
      scan.current.fingerprint? jid ≠ s.state.fingerprints.fingerprint? jid ∨
        (∃ event ∈ c.received, jid ∈ event.changedJids) ∨
        ∃ send ∈ s.sends, jid ∈ send.changedJids
  | _ => True

instance (s : AvatarBroadcaster) : Decidable s.Quiet := inferInstanceAs (Decidable (_ ∧ _))

instance (s : AvatarBroadcaster) : (a : AvatarStep) → Decidable (s.FindsChanges a)
  | .endScan => inferInstanceAs (Decidable (∀ scan ∈ s.scan, _ → _))
  | .write _ _ _ | .avatarsChanged _ | .beginFlush | .beginSnapshot | .send _ =>
    inferInstanceAs (Decidable True)

variable {s : AvatarBroadcaster}

/-- The client has been told of the avatar, or will be. -/
def Announced (s : AvatarBroadcaster) (c : AvatarClient) (jid : String) : Prop :=
  c.Told jid ∨ ∃ send ∈ s.sends, jid ∈ send.changedJids

/-- A flush is pending that has yet to scan, or `avatars_changed` will see to one. -/
def Awaited (s : AvatarBroadcaster) (jid : String) : Prop :=
  s.state.flushScheduled = true ∨ jid ∈ s.unmarked

/-- The invariant: whoever has seen an avatar otherwise than the baseline has it, has been told, or
a flush is awaited. -/
structure Tracked (s : AvatarBroadcaster) : Prop where
  scheduled : s.pending = s.state.flushScheduled.toNat
  taken : s.state.changedJids = []
  seeded : s.state.seeded = false → s.clients = []
  scanned : ∀ scan ∈ s.scan, ∀ jid,
    s.directory.fingerprint? jid ≠ scan.current.fingerprint? jid → jid ∈ s.unmarked
  marked : s.state.seeded = true → ∀ jid,
    s.directory.fingerprint? jid ≠ s.state.fingerprints.fingerprint? jid → s.Awaited jid
  followed : ∀ c ∈ s.clients, ∀ jid,
    s.state.fingerprints.fingerprint? jid ≠ c.snapshot.fingerprint? jid →
      s.Announced c jid ∨ s.Awaited jid

theorem Tracked.announcesChanges (h : s.Tracked) : s.AnnouncesChanges where
  onePending := h.scheduled ▸ Bool.toNat_le _
  exact := fun current jid => AvatarCoalescer.mem_flush h.taken current jid
  told := by
    rintro ⟨hpending, hsends, hunmarked⟩ c hc jid hne
    have hscheduled : s.state.flushScheduled = false := by
      have := h.scheduled
      rw [hpending] at this
      exact Bool.toNat_eq_zero.mp this.symm
    have hnone : ¬s.Awaited jid := by
      rw [Awaited, hscheduled, hunmarked]
      simp
    have hseeded : s.state.seeded = true := by
      by_contra hseeded
      rw [h.seeded (Bool.eq_false_of_not_eq_true hseeded)] at hc
      cases hc
    have hbaseline : s.directory.fingerprint? jid = s.state.fingerprints.fingerprint? jid := by
      by_contra hne
      exact hnone (h.marked hseeded jid hne)
    rcases (h.followed c hc jid (hbaseline ▸ hne)).resolve_right hnone with htold | ⟨send, hsend, -⟩
    · exact htold
    · rw [hsends] at hsend
      cases hsend

theorem Tracked.step (h : s.Tracked) {a : AvatarStep} (ha : s.FindsChanges a) :
    (s.step a).Tracked := by
  cases a with
  | write jid fingerprint seen =>
    have hother : ∀ k, k ≠ jid →
        (s.directory.set jid fingerprint).fingerprint? k = s.directory.fingerprint? k :=
      fun k hk => by rw [AvatarDirectory.fingerprint?_set, if_neg hk]
    have hawaited : ∀ k, s.Awaited k → (s.step (.write jid fingerprint seen)).Awaited k :=
      fun k hk => hk.imp_right (List.mem_cons_of_mem _)
    refine ⟨?_, h.taken, h.seeded, fun scan hscan k hne => ?_, fun hseeded k hne => ?_,
      fun c hc k hne => (h.followed c hc k hne).imp_right (hawaited k)⟩
    · refine Eq.trans ?_ h.scheduled
      simp only [AvatarBroadcaster.step, pending]
      cases s.scan with
      | none => rfl
      | some scan =>
        cases seen <;> rfl
    · -- the scan sees the write, or the writer is still to call `avatars_changed`
      by_cases hk : k = jid
      · exact hk ▸ List.mem_cons_self
      · obtain ⟨old, hold, rfl⟩ := Option.map_eq_some_iff.mp hscan
        refine List.mem_cons_of_mem _ (h.scanned old hold k ?_)
        replace hne : (s.directory.set jid fingerprint).fingerprint? k ≠ _ := hne
        rw [hother k hk] at hne
        cases seen with
        | false => exact hne
        | true =>
          rw [if_pos rfl] at hne
          dsimp only at hne
          rwa [AvatarDirectory.fingerprint?_set, if_neg hk] at hne
    · by_cases hk : k = jid
      · exact Or.inr (hk ▸ List.mem_cons_self)
      · replace hne : (s.directory.set jid fingerprint).fingerprint? k ≠ _ := hne
        rw [hother k hk] at hne
        exact hawaited k (h.marked hseeded k hne)
  | avatarsChanged jid =>
    simp only [AvatarBroadcaster.step]
    split
    · rename_i hfree
      refine ⟨?_, h.taken, h.seeded, fun scan hscan => ?_, fun _ k _ => Or.inl rfl,
        fun c hc k _ => Or.inr (Or.inl rfl)⟩
      · have hscheduled := h.scheduled
        unfold pending at hscheduled ⊢
        rw [AvatarCoalescer.markDirty]
        cases hflag : s.state.flushScheduled with
        | false =>
          rw [hflag, Bool.toNat_false] at hscheduled
          simp only [Bool.not_false, if_pos, Bool.toNat_true]
          omega
        | true =>
          rw [hflag] at hscheduled
          simpa using hscheduled
      · replace hscan : s.scan = some scan := hscan
        rw [hscan] at hfree
        cases hfree.2
    · exact h
  | beginFlush =>
    simp only [AvatarBroadcaster.step]
    split
    · rename_i hfree
      refine ⟨?_, h.taken, h.seeded, fun scan hscan jid hne => ?_, h.marked, h.followed⟩
      · have hscheduled := h.scheduled
        have hscan := Option.isNone_iff_eq_none.mp hfree.2
        unfold pending at hscheduled ⊢
        rw [hscan] at hscheduled
        rw [← hscheduled]
        simp only [Option.any_some, Option.any_none, Bool.toNat_true, Bool.toNat_false]
        omega
      · cases hscan
        exact absurd rfl hne
    · exact h
  | beginSnapshot =>
    simp only [AvatarBroadcaster.step]
    split
    · rename_i hfree
      refine ⟨?_, h.taken, h.seeded, fun scan hscan jid hne => ?_, h.marked, h.followed⟩
      · have hscheduled := h.scheduled
        unfold pending at hscheduled ⊢
        rw [Option.isNone_iff_eq_none.mp hfree] at hscheduled
        exact hscheduled
      · cases hscan
        exact absurd rfl hne
    · exact h
  | endScan =>
    simp only [AvatarBroadcaster.step]
    split
    · exact h
    · rename_i current hscan
      refine ⟨?_, rfl, fun h => (by cases h), fun _ h => (by cases h),
        fun _ jid hne => Or.inr (h.scanned _ hscan jid hne), fun c hc jid hne => Or.inl ?_⟩
      · -- the flush that ends was the only one
        have hscheduled := h.scheduled
        have hle := Bool.toNat_le s.state.flushScheduled
        unfold pending at hscheduled ⊢
        rw [hscan] at hscheduled
        simp only [Option.any_some, Bool.toNat_true] at hscheduled
        have hdelayed : s.delayed = 0 := by omega
        rw [hdelayed]
        rfl
      · have hjid : jid ∈ current.jids ++ c.snapshot.jids := by
          rw [List.mem_append, AvatarDirectory.mem_jids, AvatarDirectory.mem_jids]
          by_contra hneither
          push Not at hneither
          exact hne (hneither.1.trans hneither.2.symm)
        rcases ha _ hscan rfl c hc jid hjid hne with hchanged | htold | ⟨send, hsend, hmem⟩
        · have hmem := (AvatarCoalescer.mem_flush h.taken current jid).mpr hchanged
          refine Or.inr ⟨⟨current.jids, (s.state.flush current).2⟩, ?_, hmem⟩
          show _ ∈ if (s.state.flush current).2 = [] then s.sends else _ :: s.sends
          rw [if_neg (List.ne_nil_of_mem hmem)]
          exact List.mem_cons_self
        · exact Or.inl htold
        · refine Or.inr ⟨send, ?_, hmem⟩
          show _ ∈ if (s.state.flush current).2 = [] then s.sends else _ :: s.sends
          split
          · exact hsend
          · exact List.mem_cons_of_mem _ hsend
    · rename_i current hscan
      -- the writes that the scan has missed are still to be marked
      have hmissed := h.scanned _ hscan
      have hseed : (s.state.seed current).flushScheduled = s.state.flushScheduled ∧
          (s.state.seed current).changedJids = s.state.changedJids ∧
          (s.state.seed current).seeded = true := by
        unfold AvatarCoalescer.seed
        split
        · exact ⟨rfl, rfl, ‹_›⟩
        · exact ⟨rfl, rfl, rfl⟩
      have hawaited : ∀ jid, s.Awaited jid →
          (s.state.seed current).flushScheduled = true ∨ jid ∈ s.unmarked := by
        intro jid hjid
        rw [hseed.1]
        exact hjid
      refine ⟨?_, hseed.2.1.trans h.taken, fun hseeded => ?_, fun _ h => (by cases h),
        fun _ jid hne => ?_, fun c hc jid hne => ?_⟩
      · have hscheduled := h.scheduled
        unfold pending at hscheduled ⊢
        rw [hscan] at hscheduled
        rw [hseed.1, ← hscheduled]
        rfl
      · replace hseeded : (s.state.seed current).seeded = false := hseeded
        rw [hseed.2.2] at hseeded
        cases hseeded
      · replace hne : s.directory.fingerprint? jid ≠
          (s.state.seed current).fingerprints.fingerprint? jid := hne
        unfold AvatarCoalescer.seed at hne
        split at hne
        · exact hawaited jid (h.marked ‹_› jid hne)
        · exact Or.inr (hmissed jid hne)
      · replace hne : (s.state.seed current).fingerprints.fingerprint? jid ≠ _ := hne
        rcases List.mem_cons.mp hc with rfl | hc
        · right
          by_cases hdir : s.directory.fingerprint? jid = current.fingerprint? jid
          · unfold AvatarCoalescer.seed at hne
            split at hne
            · exact hawaited jid (h.marked ‹_› jid fun heq => hne (heq.symm.trans hdir))
            · exact absurd rfl hne
          · exact Or.inr (hmissed jid hdir)
        · have hseeded : s.state.seeded = true := by
            by_contra hseeded
            rw [h.seeded (Bool.eq_false_of_not_eq_true hseeded)] at hc
            cases hc
          rw [AvatarCoalescer.seed, if_pos hseeded] at hne
          exact (h.followed c hc jid hne).imp_right (hawaited jid)
  | send send =>
    simp only [AvatarBroadcaster.step]
    split
    · rename_i hsend
      refine ⟨h.scheduled, h.taken, fun hseeded => ?_, h.scanned, h.marked, ?_⟩
      · rw [h.seeded hseeded]
        rfl
      · intro c hc jid hne
        obtain ⟨old, hold, rfl⟩ := List.mem_map.mp hc
        rcases h.followed old hold jid hne with (⟨event, hevent, hjid⟩ | ⟨x, hx, hjid⟩) | hawaited
        · exact Or.inl (Or.inl ⟨event, List.mem_cons_of_mem _ hevent, hjid⟩)
        · by_cases hxsend : x = send
          · exact Or.inl (Or.inl ⟨_, List.mem_cons_self, hxsend ▸ hjid⟩)
          · exact Or.inl (Or.inr ⟨x, (List.mem_erase_of_ne hxsend).mpr hx, hjid⟩)
        · exact Or.inr hawaited
    · exact h

/-- Where no flush finds an avatar back as it was, every client is told of every change. -/
theorem announcesChanges_of_findsChanges (directory : AvatarDirectory) (as : List AvatarStep)
    (hg : Guarded step FindsChanges { directory } as) :
    ∀ s ∈ states step { directory } as, s.AnnouncesChanges := by
  intro s hs
  have hinit : Tracked { directory } := ⟨rfl, rfl, fun _ => rfl, fun _ h => (by cases h),
    fun h => (by cases h), fun _ h => (by cases h)⟩
  exact (invariant_states (fun _ _ h ha => h.step ha) hinit hg s hs).announcesChanges

def portrait : AvatarFingerprint := ⟨7, 4096, 1700000000, 0⟩

/-- A picture is written while a snapshot is read, and removed after the flush. -/
theorem announcesChanges_of_findsChanges_removed :
    (run step { directory := ∅ }
      [.beginSnapshot, .write "1@s.whatsapp.net" (some portrait) false, .endScan,
        .avatarsChanged "1@s.whatsapp.net", .beginSnapshot, .endScan, .beginFlush, .endScan,
        .send ⟨["1@s.whatsapp.net"], ["1@s.whatsapp.net"]⟩, .write "1@s.whatsapp.net" none true,
        .avatarsChanged "1@s.whatsapp.net", .beginFlush, .endScan,
        .send ⟨[], ["1@s.whatsapp.net"]⟩]).AnnouncesChanges :=
  announcesChanges_of_findsChanges ∅ _ (by decide) _ (run_mem_states _ _ _)

/-- A client sees a picture that is removed before the flush: nothing differs from the baseline, and
the client is not told. -/
theorem removed_before_flush_unannounced :
    ¬∀ s ∈ states step { directory := ∅ }
      [.beginSnapshot, .endScan, .write "1@s.whatsapp.net" (some portrait) true,
        .avatarsChanged "1@s.whatsapp.net", .beginSnapshot, .endScan,
        .write "1@s.whatsapp.net" none true, .avatarsChanged "1@s.whatsapp.net", .beginFlush,
        .endScan], s.AnnouncesChanges := by
  intro h
  have htold := (h _ (run_mem_states _ _ _)).told (by decide) _ List.mem_cons_self
    "1@s.whatsapp.net" (by decide)
  exact absurd htold (by unfold AvatarClient.Told; decide)

end AvatarBroadcaster

end OmarchyWhatsapp
