import Mathlib.Algebra.Order.Ring.Nat
import OmarchyWhatsapp.Relational.Run

/-!
# The revision clock

`RevisionClock` holds two counters: the generation of the connection and the revision that
numbers the frames. Every operation on one counter is atomic; `stamp` takes a revision and then
reads the generation, so the generation may change in between.
-/

namespace OmarchyWhatsapp

open Relational

def u64Max : ℕ := 2 ^ 64 - 1

/-- `u64::saturating_add(1)`. -/
def saturatingSucc (value : ℕ) : ℕ := min (value + 1) u64Max

theorem saturatingSucc_of_lt {value : ℕ} (h : value < u64Max) :
    saturatingSucc value = value + 1 := Nat.min_eq_left h

structure RevisionClock where
  generation : ℕ := 0
  revision : ℕ := 0
deriving DecidableEq, Repr

namespace RevisionClock

/-- `begin_generation`, and the generation it returns. -/
def beginGeneration (clock : RevisionClock) : RevisionClock × ℕ :=
  ({ clock with generation := saturatingSucc clock.generation }, saturatingSucc clock.generation)

/-- `is_current`. -/
def isCurrent (clock : RevisionClock) (generation : ℕ) : Bool :=
  generation != 0 && clock.generation == generation

/-- `retire_generation`: a generation that is over already is left alone. -/
def retireGeneration (clock : RevisionClock) (generation : ℕ) : RevisionClock :=
  if clock.generation = generation then
    { clock with generation := saturatingSucc clock.generation }
  else clock

/-- The first half of `stamp`, and the sequence it takes. -/
def takeRevision (clock : RevisionClock) : RevisionClock × ℕ :=
  ({ clock with revision := saturatingSucc clock.revision }, saturatingSucc clock.revision)

end RevisionClock

/-! ## Stamps in flight -/

structure FrameStamp where
  generation : ℕ
  sequence : ℕ
deriving DecidableEq, Repr

/-- A clock with the sequences of the stamps that have yet to read the generation, the stamps
that are complete, and the generations that were retired. -/
structure Stamping where
  clock : RevisionClock := {}
  taken : List ℕ := []
  stamped : List FrameStamp := []
  retired : List ℕ := []
deriving DecidableEq, Repr

inductive ClockStep where
  | beginGeneration
  | retireGeneration (generation : ℕ)
  | takeRevision
  | readGeneration (sequence : ℕ)
deriving DecidableEq, Repr

namespace Stamping

def step (s : Stamping) : ClockStep → Stamping
  | .beginGeneration => { s with clock := s.clock.beginGeneration.1 }
  | .retireGeneration generation =>
    { s with
      clock := s.clock.retireGeneration generation
      -- a generation that has not begun is nobody's to retire
      retired := if generation ≤ s.clock.generation then generation :: s.retired else s.retired }
  | .takeRevision =>
    { s with clock := s.clock.takeRevision.1, taken := s.clock.takeRevision.2 :: s.taken }
  | .readGeneration sequence =>
    if sequence ∈ s.taken then
      { s with
        taken := s.taken.erase sequence
        stamped := ⟨s.clock.generation, sequence⟩ :: s.stamped }
    else s

/-! ## Properties -/

def SequencesDistinct (s : Stamping) : Prop := (s.stamped.map (·.sequence)).Nodup

/-- No frame carries a larger generation than a frame with a larger sequence. -/
def GenerationsOrdered (s : Stamping) : Prop :=
  ∀ f ∈ s.stamped, ∀ f' ∈ s.stamped, f.sequence < f'.sequence → f.generation ≤ f'.generation

def RetiredOver (s : Stamping) : Prop := ∀ g ∈ s.retired, s.clock.isCurrent g = false

instance (s : Stamping) : Decidable s.SequencesDistinct :=
  inferInstanceAs (Decidable (List.Nodup _))

instance (s : Stamping) : Decidable s.GenerationsOrdered :=
  inferInstanceAs (Decidable (∀ f ∈ s.stamped, ∀ f' ∈ s.stamped, _ → _))

instance (s : Stamping) : Decidable s.RetiredOver :=
  inferInstanceAs (Decidable (∀ g ∈ s.retired, _))

/-- The counters stay below their maximum. -/
def Below (s : Stamping) : Prop := s.clock.generation < u64Max ∧ s.clock.revision < u64Max

/-- The step changes the generation. -/
def Changes (s : Stamping) : ClockStep → Prop
  | .beginGeneration => True
  | .retireGeneration generation => s.clock.generation = generation
  | _ => False

/-- No stamp in flight took its sequence before that of a complete one. -/
def Settled (s : Stamping) : Prop := ∀ q ∈ s.taken, ∀ f ∈ s.stamped, f.sequence ≤ q

/-- The generation changes only when no stamp in flight has been overtaken. -/
def ChangesSettled (s : Stamping) (a : ClockStep) : Prop := s.Changes a → s.Settled

/-! ## Sequences and retired generations -/

/-- Sequences come from the revision counter, one each, and generations from the other one. -/
structure Issued (s : Stamping) : Prop where
  nodup : (s.taken ++ s.stamped.map (·.sequence)).Nodup
  taken : ∀ q ∈ s.taken, q ≤ s.clock.revision
  stamped : ∀ f ∈ s.stamped, f.sequence ≤ s.clock.revision ∧ f.generation ≤ s.clock.generation
  retired : ∀ g ∈ s.retired, g < s.clock.generation

variable {s : Stamping}

theorem retired_retireGeneration {generation g : ℕ}
    (h : g ∈ (s.step (.retireGeneration generation)).retired) :
    g ∈ s.retired ∨ (g = generation ∧ generation ≤ s.clock.generation) := by
  simp only [step] at h
  split_ifs at h with hle
  · exact (List.mem_cons.mp h).symm.imp_right fun heq => ⟨heq, hle⟩
  · exact Or.inl h

theorem Issued.changeGeneration (h : s.Issued) {s' : Stamping} (htaken : s'.taken = s.taken)
    (hstamped : s'.stamped = s.stamped) (hrevision : s'.clock.revision = s.clock.revision)
    (hgeneration : s.clock.generation ≤ s'.clock.generation)
    (hretired : ∀ g ∈ s'.retired, g ∈ s.retired ∨ g < s'.clock.generation) : s'.Issued where
  nodup := by rw [htaken, hstamped]; exact h.nodup
  taken q hq := by rw [hrevision]; exact h.taken q (htaken ▸ hq)
  stamped f hf := by
    have hold := h.stamped f (hstamped ▸ hf)
    rw [hrevision]
    omega
  retired g hg := by
    rcases hretired g hg with hold | hnew
    · have := h.retired g hold
      omega
    · exact hnew

theorem Issued.takeRevision (h : s.Issued) (hbelow : s.Below) : (s.step .takeRevision).Issued := by
  have hsucc := saturatingSucc_of_lt hbelow.2
  have hfresh : saturatingSucc s.clock.revision ∉ s.taken ++ s.stamped.map (·.sequence) := by
    intro hmem
    rcases List.mem_append.mp hmem with hq | hq
    · have := h.taken _ hq
      omega
    · obtain ⟨f, hf, hseq⟩ := List.mem_map.mp hq
      have := (h.stamped f hf).1
      omega
  constructor
  · exact List.nodup_cons.mpr ⟨hfresh, h.nodup⟩
  · intro q hq
    show q ≤ saturatingSucc s.clock.revision
    rcases List.mem_cons.mp hq with rfl | hq
    · exact Nat.le_refl _
    · have := h.taken q hq
      omega
  · intro f hf
    show f.sequence ≤ saturatingSucc s.clock.revision ∧ _
    have := h.stamped f hf
    exact ⟨by omega, this.2⟩
  · exact h.retired

theorem Issued.readGeneration (h : s.Issued) (sequence : ℕ) :
    (s.step (.readGeneration sequence)).Issued := by
  unfold Stamping.step
  dsimp only
  split_ifs with hq
  · constructor
    · have hperm : (s.taken.erase sequence ++ sequence :: s.stamped.map (·.sequence)).Perm
          (s.taken ++ s.stamped.map (·.sequence)) :=
        List.perm_middle.trans ((List.perm_cons_erase hq).symm.append_right _)
      exact hperm.nodup_iff.mpr h.nodup
    · exact fun q hmem => h.taken q (List.mem_of_mem_erase hmem)
    · intro f hf
      rcases List.mem_cons.mp hf with rfl | hf
      · exact ⟨h.taken _ hq, Nat.le_refl _⟩
      · exact h.stamped f hf
    · exact h.retired
  · exact h

theorem Issued.step (h : s.Issued) (hbelow : s.Below) (a : ClockStep) : (s.step a).Issued := by
  have hsucc := saturatingSucc_of_lt hbelow.1
  cases a with
  | beginGeneration =>
    refine h.changeGeneration rfl rfl rfl ?_ (fun g hg => Or.inl hg)
    show s.clock.generation ≤ saturatingSucc s.clock.generation
    omega
  | retireGeneration generation =>
    by_cases heq : s.clock.generation = generation
    · have hclock : (s.step (.retireGeneration generation)).clock
          = { s.clock with generation := saturatingSucc s.clock.generation } := if_pos heq
      refine h.changeGeneration rfl rfl (by rw [hclock]) (by rw [hclock]; dsimp only; omega) ?_
      intro g hg
      rcases retired_retireGeneration hg with hold | ⟨rfl, hle⟩
      · exact Or.inl hold
      · rw [hclock]
        right
        dsimp only
        omega
    · have hclock : (s.step (.retireGeneration generation)).clock = s.clock := if_neg heq
      refine h.changeGeneration rfl rfl (by rw [hclock]) (by rw [hclock]) ?_
      intro g hg
      rcases retired_retireGeneration hg with hold | ⟨rfl, hle⟩
      · exact Or.inl hold
      · rw [hclock]
        right
        omega
  | takeRevision => exact h.takeRevision hbelow
  | readGeneration sequence => exact h.readGeneration sequence

theorem Issued.distinct (h : s.Issued) : s.SequencesDistinct :=
  (List.nodup_append.mp h.nodup).2.1

theorem Issued.retiredOver (h : s.Issued) : s.RetiredOver := by
  intro g hg
  have hlt := h.retired g hg
  simp only [RevisionClock.isCurrent, Bool.and_eq_false_iff, beq_eq_false_iff_ne]
  right
  omega

/-! ## The order of generations -/

/-- Complete stamps are in order, and one that was overtaken by a complete stamp would still read
the generation of that stamp. -/
structure InOrder (s : Stamping) : Prop where
  ordered : s.GenerationsOrdered
  overtaken : ∀ q ∈ s.taken, ∀ f ∈ s.stamped, q < f.sequence → f.generation = s.clock.generation

theorem InOrder.readGeneration (h : s.InOrder) (hissued : s.Issued) (sequence : ℕ) :
    (s.step (.readGeneration sequence)).InOrder := by
  unfold Stamping.step
  dsimp only
  split_ifs with hq
  · constructor
    · intro f hf f' hf' hlt
      rcases List.mem_cons.mp hf with rfl | hf
      · rcases List.mem_cons.mp hf' with rfl | hf'
        · exact Nat.le_refl _
        · exact (h.overtaken sequence hq f' hf' hlt).ge
      · rcases List.mem_cons.mp hf' with rfl | hf'
        · exact (hissued.stamped f hf).2
        · exact h.ordered f hf f' hf' hlt
    · intro q hmem f hf hlt
      rcases List.mem_cons.mp hf with rfl | hf
      · rfl
      · exact h.overtaken q (List.mem_of_mem_erase hmem) f hf hlt
  · exact h

theorem InOrder.takeRevision (h : s.InOrder) (hissued : s.Issued) (hbelow : s.Below) :
    (s.step .takeRevision).InOrder := by
  refine ⟨h.ordered, fun q hq f hf hlt => ?_⟩
  rcases List.mem_cons.mp hq with rfl | hq
  · -- the new sequence is above every other
    have hle := (hissued.stamped f hf).1
    have hsucc := saturatingSucc_of_lt hbelow.2
    have hlt : saturatingSucc s.clock.revision < f.sequence := hlt
    omega
  · exact h.overtaken q hq f hf hlt

/-- A change of the generation, once every stamp that was overtaken is complete. -/
theorem InOrder.changeGeneration (h : s.InOrder) (hsettled : s.Settled) {s' : Stamping}
    (htaken : s'.taken = s.taken) (hstamped : s'.stamped = s.stamped) : s'.InOrder where
  ordered := by
    unfold GenerationsOrdered
    rw [hstamped]
    exact h.ordered
  overtaken q hq f hf hlt := by
    have := hsettled q (htaken ▸ hq) f (hstamped ▸ hf)
    omega

theorem InOrder.step (h : s.InOrder) (hissued : s.Issued) (hbelow : s.Below) (a : ClockStep)
    (hguard : s.ChangesSettled a) : (s.step a).InOrder := by
  cases a with
  | beginGeneration => exact h.changeGeneration (hguard trivial) rfl rfl
  | retireGeneration generation =>
    by_cases heq : s.clock.generation = generation
    · exact h.changeGeneration (hguard heq) rfl rfl
    · have hclock : (s.step (.retireGeneration generation)).clock = s.clock := if_neg heq
      refine ⟨h.ordered, fun q hq f hf hlt => ?_⟩
      rw [hclock]
      exact h.overtaken q hq f hf hlt
  | takeRevision => exact h.takeRevision hissued hbelow
  | readGeneration sequence => exact h.readGeneration hissued sequence

theorem generation_of_changes (hbelow : s.Below) {a : ClockStep} (h : s.Changes a) :
    (s.step a).clock.generation = s.clock.generation + 1 ∧ (s.step a).taken = s.taken ∧
      (s.step a).stamped = s.stamped := by
  have hsucc := saturatingSucc_of_lt hbelow.1
  cases a with
  | beginGeneration => exact ⟨hsucc, rfl, rfl⟩
  | retireGeneration generation =>
    have hclock : (s.step (.retireGeneration generation)).clock
        = { s.clock with generation := saturatingSucc s.clock.generation } := if_pos h
    exact ⟨by rw [hclock, ← hsucc], rfl, rfl⟩
  | takeRevision => cases h
  | readGeneration => cases h

/-- A stamp that was overtaken before the generation changed breaks the order when it is
complete. -/
theorem settled_of_ordered (hissued : s.Issued) (hbelow : s.Below) {a : ClockStep}
    (hchanges : s.Changes a)
    (h : ∀ sequence, ((s.step a).step (.readGeneration sequence)).GenerationsOrdered) :
    s.Settled := by
  intro q hq f hf
  by_contra hlt
  obtain ⟨hgeneration, htaken, hstamped⟩ := generation_of_changes hbelow hchanges
  have hq' : q ∈ (s.step a).taken := htaken ▸ hq
  have hread : ((s.step a).step (.readGeneration q)).stamped
      = ⟨(s.step a).clock.generation, q⟩ :: (s.step a).stamped :=
    congrArg Stamping.stamped (if_pos hq')
  have hle := h q ⟨(s.step a).clock.generation, q⟩ (by rw [hread]; exact List.mem_cons_self)
    f (by rw [hread, hstamped]; exact List.mem_cons_of_mem _ hf) (Nat.lt_of_not_le hlt)
  have hbound := (hissued.stamped f hf).2
  have hle : (s.step a).clock.generation ≤ f.generation := hle
  omega

theorem issued_init : ({} : Stamping).Issued :=
  ⟨List.nodup_nil, fun _ h => absurd h List.not_mem_nil, fun _ h => absurd h List.not_mem_nil,
    fun _ h => absurd h List.not_mem_nil⟩

theorem inOrder_init : ({} : Stamping).InOrder :=
  ⟨fun _ h => absurd h List.not_mem_nil, fun _ h => absurd h List.not_mem_nil⟩

/-- The order holds throughout a run, whichever stamp in flight is completed next, exactly if the
generation changed only when no such stamp had been overtaken. -/
theorem ordered_iff_guarded {as : List ClockStep} (hissued : s.Issued) (horder : s.InOrder)
    (hbelow : ∀ s' ∈ states step s as, s'.Below) :
    (∀ s' ∈ states step s as, ∀ sequence, (s'.step (.readGeneration sequence)).GenerationsOrdered)
      ↔ Guarded step ChangesSettled s as := by
  induction as generalizing s with
  | nil =>
    refine iff_of_true (fun s' hs' sequence => ?_) trivial
    rw [states, List.mem_singleton] at hs'
    exact hs' ▸ (horder.readGeneration hissued sequence).ordered
  | cons a as ih =>
    have hhere := hbelow s List.mem_cons_self
    have hthere : ∀ s' ∈ states step (s.step a) as, s'.Below :=
      fun s' hs' => hbelow s' (List.mem_cons_of_mem _ hs')
    have hissued' := hissued.step hhere a
    rw [states, Guarded]
    constructor
    · intro h
      have hguard : s.ChangesSettled a := fun hchanges =>
        settled_of_ordered hissued hhere hchanges
          (h _ (List.mem_cons_of_mem _ (start_mem_states _ _ _)))
      have horder' := horder.step hissued hhere a hguard
      exact ⟨hguard, (ih hissued' horder' hthere).mp
        fun s' hs' => h s' (List.mem_cons_of_mem _ hs')⟩
    · rintro ⟨hguard, hrest⟩ s' hs' sequence
      have horder' := horder.step hissued hhere a hguard
      rcases List.mem_cons.mp hs' with rfl | hs'
      · exact (horder.readGeneration hissued sequence).ordered
      · exact (ih hissued' horder' hthere).mpr hrest s' hs' sequence

/-- While the counters stay below their maximum, sequences are distinct and a retired generation
is never current again; the generations are in the order of the sequences, also after any stamp
in flight completes, exactly if each change of generation found none overtaken. -/
theorem stamps_consistent_iff (as : List ClockStep)
    (hbelow : ∀ s ∈ states step {} as, s.Below) :
    (∀ s ∈ states step {} as, s.SequencesDistinct ∧ s.RetiredOver) ∧
    ((∀ s ∈ states step {} as, ∀ sequence, (s.step (.readGeneration sequence)).GenerationsOrdered)
      ↔ Guarded step ChangesSettled {} as) := by
  refine ⟨fun s hs => ?_, ordered_iff_guarded issued_init inOrder_init hbelow⟩
  have hissued : s.Issued := invariant_states (fun s a h hb => h.step hb a) issued_init
    (guarded_of_states hbelow) s hs
  exact ⟨hissued.distinct, hissued.retiredOver⟩

instance (s : Stamping) : Decidable s.Below := inferInstanceAs (Decidable (_ ∧ _))

/-- Two stamps side by side, and a new generation between two others. -/
def interleavedRun : List ClockStep :=
  [.beginGeneration, .takeRevision, .takeRevision, .readGeneration 2, .readGeneration 1,
    .retireGeneration 1, .takeRevision, .readGeneration 3]

theorem stamps_consistent_iff_interleaved :
    (run step {} interleavedRun).stamped = [⟨2, 3⟩, ⟨1, 1⟩, ⟨1, 2⟩] ∧
      ∀ s ∈ states step {} interleavedRun, s.SequencesDistinct ∧ s.RetiredOver :=
  ⟨by decide, (stamps_consistent_iff interleavedRun (by decide)).1⟩

/-- The first of two stamps is overtaken, and a new generation begins before it is complete. -/
theorem overtaken_stamp_reads_newer_generation :
    ¬∀ s ∈ states step {} [.beginGeneration, .takeRevision, .takeRevision, .readGeneration 2,
        .beginGeneration, .readGeneration 1],
      s.SequencesDistinct ∧ s.GenerationsOrdered ∧ s.RetiredOver := by
  decide

end Stamping

end OmarchyWhatsapp
