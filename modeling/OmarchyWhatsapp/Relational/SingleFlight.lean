import Mathlib.Data.Nat.Notation

/-!
# One request at a time

For one resource at most one request is on its way. `pending` is its number, 0 if there is none;
numbers grow. A refresh that is asked for meanwhile is queued behind it. What happens at time `m`,
where a time is the number of the next request, needs a request from then on.
-/

namespace Relational

structure Flight where
  pending : ℕ := 0
  queued : Bool := false
deriving DecidableEq, Repr

namespace Flight

/-- Ask for a refresh; a request gets the number `next`. -/
def ask (f : Flight) (next : ℕ) (queue : Bool) : Flight :=
  if f.pending ≠ 0 then { f with queued := f.queued || queue } else { f with pending := next }

/-- A request that is on its way is recent enough for `m`, or one is queued behind it. -/
def Fresh (f : Flight) (m : ℕ) : Prop := f.pending ≠ 0 → f.queued = true ∨ m ≤ f.pending

/-- A request that is recent enough for `m` is on its way, or queued behind one that is. -/
def Covers (f : Flight) (m : ℕ) : Prop := f.pending ≠ 0 ∧ (f.queued = true ∨ m ≤ f.pending)

instance (f : Flight) (m : ℕ) : Decidable (f.Fresh m) :=
  inferInstanceAs (Decidable (_ → _))

instance (f : Flight) (m : ℕ) : Decidable (f.Covers m) :=
  inferInstanceAs (Decidable (_ ∧ _))

theorem Covers.fresh {f : Flight} {m : ℕ} (h : f.Covers m) : f.Fresh m := fun _ => h.2

theorem Fresh.covers {f : Flight} {m : ℕ} (h : f.Fresh m) (hpending : f.pending ≠ 0) :
    f.Covers m := ⟨hpending, h hpending⟩

theorem fresh_of_idle {f : Flight} {m : ℕ} (hidle : f.pending = 0) : f.Fresh m :=
  fun hpending => absurd hidle hpending

theorem pending_ask {f : Flight} {next : ℕ} {queue : Bool} (hnext : next ≠ 0) :
    (f.ask next queue).pending ≠ 0 := by
  unfold ask
  split
  · assumption
  · exact hnext

/-- To ask is enough where nothing was missed before. -/
theorem Fresh.ask {f : Flight} {m next : ℕ} (h : f.Fresh m) (hnext : next ≠ 0) (hm : m ≤ next)
    (queue : Bool) : (f.ask next queue).Covers m := by
  refine ⟨pending_ask hnext, ?_⟩
  unfold Flight.ask
  by_cases hpending : f.pending ≠ 0
  · rw [if_pos hpending]
    exact (h hpending).imp_left (fun hqueued => by simp [hqueued])
  · rw [if_neg hpending]
    exact Or.inr hm

/-- To queue is enough in any case. -/
theorem covers_queue {f : Flight} {m next : ℕ} (hnext : next ≠ 0) (hm : m ≤ next) :
    (f.ask next true).Covers m := by
  refine ⟨pending_ask hnext, ?_⟩
  unfold Flight.ask
  by_cases hpending : f.pending ≠ 0
  · rw [if_pos hpending]
    exact Or.inl (Bool.or_true _)
  · rw [if_neg hpending]
    exact Or.inr hm

end Flight

end Relational
