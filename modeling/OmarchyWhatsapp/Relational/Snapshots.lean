import Mathlib.Data.List.Basic

/-!
# Snapshots of a changing value

Publishers read a value, take a sequence from a shared counter and send what they have read, each
in a step of its own; receivers keep the snapshot with the greatest sequence. A window collects
requests to publish and starts one publisher for all of them. `Fresh` is the invariant: somebody
has yet to take a sequence, or the newest snapshot has the current value.
-/

namespace Relational

variable {Λ ν : Type*}

inductive PublishPhase (ν : Type*) where
  | started
  | holding (value : ν)
  | stamped (sequence : ℕ) (value : ν)
deriving DecidableEq, Repr

/-- A publisher, with the lane in which it runs. -/
structure Publisher (Λ ν : Type*) where
  lane : Λ
  phase : PublishPhase ν
deriving DecidableEq, Repr

structure Snapshots (Λ ν : Type*) where
  publishers : List (Publisher Λ ν) := []
  /-- An open window, and whether a publish is due at its end. -/
  window : Option Bool := none
  sent : List (ℕ × ν) := []

/-- The publisher has yet to take its sequence. -/
def Publisher.unstamped (p : Publisher Λ ν) : Bool :=
  match p.phase with
  | .stamped _ _ => false
  | _ => true

def Publisher.frame? (p : Publisher Λ ν) : Option (ℕ × ν) :=
  match p.phase with
  | .stamped sequence value => some (sequence, value)
  | _ => none

namespace Snapshots

/-! ## Steps -/

def start (s : Snapshots Λ ν) (p : Publisher Λ ν) : Snapshots Λ ν :=
  { s with publishers := p :: s.publishers }

/-- A request to publish: the first one opens a window, the others wait for its end. -/
def record (s : Snapshots Λ ν) (lane : Λ) : Snapshots Λ ν :=
  match s.window with
  | some _ => { s with window := some true }
  | none => { s with window := some false }.start ⟨lane, .started⟩

/-- The end of the window. -/
def finish (s : Snapshots Λ ν) (lane : Λ) : Snapshots Λ ν :=
  match s.window with
  | some true => { s with window := some false }.start ⟨lane, .started⟩
  | _ => { s with window := none }

section Publishers

variable [DecidableEq Λ] [DecidableEq ν]

def replace (s : Snapshots Λ ν) (p p' : Publisher Λ ν) : Snapshots Λ ν :=
  { s with publishers := p' :: s.publishers.erase p }

def read (s : Snapshots Λ ν) (p : Publisher Λ ν) (current : ν) : Snapshots Λ ν :=
  if p ∈ s.publishers ∧ p.phase = .started then s.replace p { p with phase := .holding current }
  else s

/-- The publisher holds this value and is about to take a sequence. -/
def holds (s : Snapshots Λ ν) (p : Publisher Λ ν) : Option ν :=
  if p ∈ s.publishers then
    match p.phase with
    | .holding value => some value
    | _ => none
  else none

def stamp (s : Snapshots Λ ν) (p : Publisher Λ ν) (sequence : ℕ) : Snapshots Λ ν :=
  match s.holds p with
  | some value => s.replace p { p with phase := .stamped sequence value }
  | none => s

def send (s : Snapshots Λ ν) (p : Publisher Λ ν) : Snapshots Λ ν :=
  if p ∈ s.publishers then
    match p.frame? with
    | some frame => { s with publishers := s.publishers.erase p, sent := s.sent ++ [frame] }
    | none => s
  else s

end Publishers

/-! ## The newest snapshot -/

def Finished (s : Snapshots Λ ν) : Prop := s.publishers = [] ∧ s.window ≠ some true

/-- The snapshot with the greatest sequence, if any was sent, has the value. -/
def Shows (s : Snapshots Λ ν) (value : ν) : Prop :=
  ∀ f ∈ s.sent, (∀ f' ∈ s.sent, f'.1 ≤ f.1) → f.2 = value

/-- Somebody has yet to take a sequence. -/
def Outstanding (s : Snapshots Λ ν) : Prop :=
  (∃ p ∈ s.publishers, p.unstamped = true) ∨ s.window = some true

/-- Somebody else has. -/
def OutstandingBut [DecidableEq Λ] [DecidableEq ν] (s : Snapshots Λ ν) (p : Publisher Λ ν) : Prop :=
  (∃ p' ∈ s.publishers.erase p, p'.unstamped = true) ∨ s.window = some true

instance (s : Snapshots Λ ν) : Decidable s.Finished :=
  decidable_of_iff (s.publishers.isEmpty = true ∧ s.window ≠ some true)
    (and_congr_left' List.isEmpty_iff)

instance (s : Snapshots Λ ν) : Decidable s.Outstanding := inferInstanceAs (Decidable (_ ∨ _))

instance [DecidableEq Λ] [DecidableEq ν] (s : Snapshots Λ ν) (p : Publisher Λ ν) :
    Decidable (s.OutstandingBut p) := inferInstanceAs (Decidable (_ ∨ _))

/-- The snapshots that have their sequence. -/
def stamps (s : Snapshots Λ ν) : List (ℕ × ν) := s.sent ++ s.publishers.filterMap Publisher.frame?

structure Fresh (revision : ℕ) (current : ν) (s : Snapshots Λ ν) : Prop where
  issued : ∀ f ∈ s.stamps, f.1 ≤ revision
  current : s.Outstanding ∨ ∀ f ∈ s.stamps, (∀ f' ∈ s.stamps, f'.1 ≤ f.1) → f.2 = current

namespace Fresh

variable {revision : ℕ} {current : ν} {s : Snapshots Λ ν}

/-- When everybody is done, the newest snapshot has the current value. -/
theorem shows_current (h : s.Fresh revision current) (hfinished : s.Finished) :
    s.Shows current := by
  have hstamps : s.stamps = s.sent := by
    rw [stamps, hfinished.1, List.filterMap_nil, List.append_nil]
  rcases h.current with (⟨p, hp, -⟩ | hdue) | hcurrent
  · rw [hfinished.1] at hp
    cases hp
  · exact absurd hdue hfinished.2
  · rwa [hstamps] at hcurrent

theorem of_empty (hpublishers : s.publishers = []) (hsent : s.sent = []) :
    s.Fresh revision current := by
  have hstamps : s.stamps = [] := by rw [stamps, hpublishers, hsent]; rfl
  refine ⟨fun f hf => ?_, Or.inr fun f hf => ?_⟩ <;> exact absurd (hstamps ▸ hf) List.not_mem_nil

/-- A step that takes no sequence: who was outstanding still is, and if the value changed
somebody is. -/
theorem keep (h : s.Fresh revision current) {s' : Snapshots Λ ν} {revision' : ℕ} {current' : ν}
    (hrevision : revision ≤ revision') (hstamps : s'.stamps.Perm s.stamps)
    (hkept : s.Outstanding → s'.Outstanding) (hchange : current' ≠ current → s'.Outstanding) :
    s'.Fresh revision' current' := by
  refine ⟨fun f hf => Nat.le_trans (h.issued f (hstamps.mem_iff.mp hf)) hrevision, ?_⟩
  by_cases hsame : current' = current
  · rw [hsame]
    rcases h.current with hout | hcurrent
    · exact Or.inl (hkept hout)
    · refine Or.inr fun f hf hmax => hcurrent f (hstamps.mem_iff.mp hf) ?_
      exact fun f' hf' => hmax f' (hstamps.mem_iff.mpr hf')
  · exact Or.inl (hchange hsame)

/-- A change of the value, while somebody is outstanding. -/
theorem change (h : s.Fresh revision current) {revision' : ℕ} {current' : ν}
    (hrevision : revision ≤ revision') (hchange : current' ≠ current → s.Outstanding) :
    s.Fresh revision' current' := h.keep hrevision (List.Perm.refl _) id hchange

/-- A new publisher is outstanding, whatever the value and the window are. -/
theorem start (h : s.Fresh revision current) {p : Publisher Λ ν} (hp : p.unstamped = true)
    (window : Option Bool) (current' : ν) :
    ({ s with window }.start p).Fresh revision current' := by
  have hframe : p.frame? = none := by
    unfold Publisher.unstamped at hp
    unfold Publisher.frame?
    cases hphase : p.phase with
    | stamped => rw [hphase] at hp; cases hp
    | started | holding => rfl
  refine ⟨fun f hf => h.issued f ?_, Or.inl (Or.inl ⟨p, List.mem_cons_self, hp⟩)⟩
  rwa [stamps, Snapshots.start, List.filterMap_cons_none hframe] at hf

theorem record (h : s.Fresh revision current) (lane : Λ) (current' : ν) :
    (s.record lane).Fresh revision current' := by
  unfold Snapshots.record
  split
  · exact h.keep (Nat.le_refl _) (List.Perm.refl _) (fun _ => Or.inr rfl) (fun _ => Or.inr rfl)
  · exact h.start rfl _ _

theorem finish (h : s.Fresh revision current) (lane : Λ) :
    (s.finish lane).Fresh revision current := by
  unfold Snapshots.finish
  split
  · exact h.start rfl _ _
  · rename_i hnot
    refine h.keep (Nat.le_refl _) (List.Perm.refl _) ?_ (fun hne => absurd rfl hne)
    exact fun hout => hout.imp_right fun hdue => absurd hdue hnot

section Phases

variable [DecidableEq Λ] [DecidableEq ν] {p p' : Publisher Λ ν}

/-- The stamps, with those of one publisher apart. -/
theorem stamps_of_mem (hp : p ∈ s.publishers) :
    s.stamps.Perm (s.sent ++ (p :: s.publishers.erase p).filterMap Publisher.frame?) :=
  ((List.perm_cons_erase hp).filterMap _).append_left _

theorem read (h : s.Fresh revision current) (p : Publisher Λ ν) :
    (s.read p current).Fresh revision current := by
  unfold Snapshots.read
  split
  · rename_i hp
    obtain ⟨hp, hphase⟩ := hp
    have hframe : p.frame? = none := by rw [Publisher.frame?, hphase]
    refine h.keep (Nat.le_refl _) ?_ (fun _ => ?_) (fun hne => absurd rfl hne)
    · refine List.Perm.trans (List.Perm.of_eq ?_) (stamps_of_mem hp).symm
      rw [stamps, Snapshots.replace, List.filterMap_cons_none hframe, List.filterMap_cons_none rfl]
    · exact Or.inl ⟨{ p with phase := .holding current }, List.mem_cons_self, rfl⟩
  · exact h

/-- The next sequence goes to a value that is current, or somebody else is outstanding. -/
theorem stamp (h : s.Fresh revision current) (p : Publisher Λ ν)
    (hlatest : ∀ value ∈ s.holds p, value = current ∨ s.OutstandingBut p) :
    (s.stamp p (revision + 1)).Fresh (revision + 1) current := by
  unfold Snapshots.stamp
  split
  · rename_i value hholds
    have hp : p ∈ s.publishers := by
      unfold holds at hholds
      by_contra hp
      rw [if_neg hp] at hholds
      cases hholds
    have hmem : ∀ f, f ∈ (s.replace p { p with phase := .stamped (revision + 1) value }).stamps ↔
        f ∈ s.sent ∨ f = (revision + 1, value) ∨
          f ∈ (s.publishers.erase p).filterMap Publisher.frame? := by
      intro f
      exact List.mem_append.trans (or_congr_right List.mem_cons)
    have hold : ∀ f, f ∈ s.sent ∨ f ∈ (s.publishers.erase p).filterMap Publisher.frame? →
        f.1 ≤ revision := by
      intro f hf
      refine h.issued f ((stamps_of_mem hp).mem_iff.mpr ?_)
      refine List.mem_append.mpr (hf.imp_right fun hf => ?_)
      rw [List.filterMap_cons]
      split
      · exact hf
      · exact List.mem_cons_of_mem _ hf
    constructor
    · intro f hf
      rcases (hmem f).mp hf with hf | rfl | hf
      · exact Nat.le_succ_of_le (hold f (Or.inl hf))
      · exact Nat.le_refl _
      · exact Nat.le_succ_of_le (hold f (Or.inr hf))
    · rcases hlatest value hholds with rfl | hothers
      · -- the new stamp is the newest
        refine Or.inr fun f hf hmax => ?_
        have hle := hmax _ ((hmem _).mpr (Or.inr (Or.inl rfl)))
        rcases (hmem f).mp hf with hf | rfl | hf
        · exact absurd (Nat.le_trans hle (hold f (Or.inl hf))) (Nat.not_succ_le_self _)
        · rfl
        · exact absurd (Nat.le_trans hle (hold f (Or.inr hf))) (Nat.not_succ_le_self _)
      · left
        exact hothers.imp_left fun ⟨p', hp', hun⟩ => ⟨p', List.mem_cons_of_mem _ hp', hun⟩
  · exact h.change (Nat.le_succ _) (fun hne => absurd rfl hne)

theorem send (h : s.Fresh revision current) (p : Publisher Λ ν) :
    (s.send p).Fresh revision current := by
  unfold Snapshots.send
  split
  · rename_i hp
    split
    · rename_i frame hframe
      refine h.keep (Nat.le_refl _) ?_ ?_ (fun hne => absurd rfl hne)
      · refine List.Perm.trans (List.Perm.of_eq ?_) (stamps_of_mem hp).symm
        rw [stamps, List.filterMap_cons_some hframe, List.append_assoc, List.singleton_append]
      · refine Or.imp_left fun ⟨p', hp', hun⟩ => ⟨p', ?_, hun⟩
        refine (List.mem_erase_of_ne ?_).mpr hp'
        rintro rfl
        unfold Publisher.frame? at hframe
        unfold Publisher.unstamped at hun
        split at hframe
        · rename_i hphase
          rw [hphase] at hun
          cases hun
        · cases hframe
    · exact h
  · exact h

end Phases

end Fresh

end Snapshots

end Relational
