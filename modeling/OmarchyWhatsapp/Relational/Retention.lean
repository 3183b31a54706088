import Mathlib.Data.List.Count
import OmarchyWhatsapp.Relational.Order

/-!
# Keeping the greatest rows

`keepTop p f n l` drops the rows of a partition `p` that have `n` rows of the partition above
them, in the order of `f`. Rows that arrive one at a time can be dropped as they come or all at
once in the end (`keepTop_concat`, `keepTop_stale`), and updates of other columns do not matter
(`keepTop_map`). Where no two rows of the partition tie this is what `DELETE … NOT IN (SELECT …
ORDER BY f DESC LIMIT n)` leaves, whatever the plan (`QueryPlan.mem_drop_iff`).
-/

namespace Relational

section KeepTop

variable {α τ : Type} [LinearOrder τ] {p : α → Bool} {f : α → τ} {n : ℕ} {l : List α}

/-- How many rows of the partition are above `t`. -/
def rank (p : α → Bool) (f : α → τ) (l : List α) (t : τ) : ℕ :=
  l.countP (fun a => p a && decide (t < f a))

/-- The rows outside the partition, and its `n` greatest. -/
def keepTop (p : α → Bool) (f : α → τ) (n : ℕ) (l : List α) : List α :=
  l.filter (fun a => !p a || decide (rank p f l (f a) < n))

theorem mem_keepTop {a : α} :
    a ∈ keepTop p f n l ↔ a ∈ l ∧ (p a = true → rank p f l (f a) < n) := by
  rw [keepTop, List.mem_filter, Bool.or_eq_true, Bool.not_eq_true', decide_eq_true_eq]
  cases p a <;> simp

theorem rank_anti {t u : τ} (h : t ≤ u) : rank p f l u ≤ rank p f l t := by
  refine List.countP_mono_left fun a _ ha => ?_
  simp only [Bool.and_eq_true, decide_eq_true_eq] at ha ⊢
  exact ⟨ha.1, h.trans_lt ha.2⟩

/-- A row of the partition that is above `t` has fewer rows above it. -/
theorem rank_lt {a : α} (ha : a ∈ l) (hp : p a = true) {t : τ} (h : t < f a) :
    rank p f l (f a) < rank p f l t := by
  induction l with
  | nil => cases ha
  | cons b l ih =>
    rw [rank, rank, List.countP_cons, List.countP_cons]
    rcases List.mem_cons.mp ha with rfl | ha
    · have hle : rank p f l (f a) ≤ rank p f l t := rank_anti h.le
      rw [rank, rank] at hle
      simp only [hp, h, lt_irrefl, decide_true, decide_false, Bool.and_true, Bool.and_false,
        if_true]
      simpa using Nat.lt_succ_of_le hle
    · have hlt := ih ha
      rw [rank, rank] at hlt
      have hhead : (if (p b && decide (f a < f b)) = true then 1 else 0)
          ≤ if (p b && decide (t < f b)) = true then 1 else 0 := by
        by_cases hb : (p b && decide (f a < f b)) = true
        · have ht : (p b && decide (t < f b)) = true := by
            simp only [Bool.and_eq_true, decide_eq_true_eq] at hb ⊢
            exact ⟨hb.1, h.trans hb.2⟩
          rw [if_pos hb, if_pos ht]
        · rw [if_neg hb]
          exact Nat.zero_le _
      omega

/-- Above a row that is kept, every row is kept. -/
theorem rank_keepTop_of_le {t : τ} (h : rank p f l t ≤ n) :
    rank p f (keepTop p f n l) t = rank p f l t := by
  rw [rank, keepTop, List.countP_filter, rank]
  refine List.countP_congr fun a ha => ?_
  simp only [Bool.and_eq_true, decide_eq_true_eq, Bool.or_eq_true, Bool.not_eq_true']
  exact ⟨fun h => h.1, fun ⟨hp, hlt⟩ => ⟨⟨hp, hlt⟩, Or.inr ((rank_lt ha hp hlt).trans_le h)⟩⟩

/-- Where `n` rows are above, `n` rows that are kept are above. -/
theorem le_rank_keepTop {t : τ} (h : n ≤ rank p f l t) : n ≤ rank p f (keepTop p f n l) t := by
  -- of the rows above `t` that are dropped, the greatest has `n` rows above it that are kept
  rcases hdropped : latest f (l.filter fun a =>
    p a && decide (t < f a) && decide (n ≤ rank p f l (f a))) with _ | a
  · rw [latest_eq_none, List.filter_eq_nil_iff] at hdropped
    refine h.trans (le_of_eq ?_)
    rw [rank, rank, keepTop, List.countP_filter]
    refine List.countP_congr fun a ha => ?_
    have hkept := hdropped a ha
    simp only [Bool.and_eq_true, decide_eq_true_eq, Bool.or_eq_true, Bool.not_eq_true',
      not_and, not_le] at hkept ⊢
    exact ⟨fun ⟨hp, hlt⟩ => ⟨⟨hp, hlt⟩, Or.inr (hkept ⟨hp, hlt⟩)⟩, fun h => h.1⟩
  · have hmem := List.mem_filter.mp (latest_mem _ hdropped)
    simp only [Bool.and_eq_true, decide_eq_true_eq] at hmem
    obtain ⟨-, ⟨-, hta⟩, hna⟩ := hmem
    refine (hna.trans (le_of_eq ?_)).trans (rank_anti hta.le)
    rw [rank, rank, keepTop, List.countP_filter]
    refine List.countP_congr fun b hb => ?_
    simp only [Bool.and_eq_true, decide_eq_true_eq, Bool.or_eq_true, Bool.not_eq_true']
    refine ⟨fun ⟨hp, hlt⟩ => ⟨⟨hp, hlt⟩, Or.inr (not_le.mp fun hle => ?_)⟩, fun h => h.1⟩
    have hb' : b ∈ l.filter fun a =>
        p a && decide (t < f a) && decide (n ≤ rank p f l (f a)) := by
      rw [List.mem_filter]
      simp only [Bool.and_eq_true, decide_eq_true_eq]
      exact ⟨hb, ⟨hp, hta.trans hlt⟩, hle⟩
    exact absurd (le_latest f hdropped hb') (not_le.mpr hlt)

/-- What is dropped has `n` rows above it before and after. -/
theorem rank_keepTop_lt_iff {t : τ} : rank p f (keepTop p f n l) t < n ↔ rank p f l t < n := by
  constructor
  · intro h
    by_contra hle
    exact absurd (le_rank_keepTop (not_lt.mp hle)) (not_le.mpr h)
  · intro h
    rwa [rank_keepTop_of_le h.le]

theorem keepTop_keepTop : keepTop p f n (keepTop p f n l) = keepTop p f n l := by
  refine List.filter_eq_self.mpr fun a ha => ?_
  have hkept := (mem_keepTop.mp ha).2
  rw [Bool.or_eq_true, Bool.not_eq_true', decide_eq_true_eq, rank_keepTop_lt_iff]
  cases hp : p a with
  | false => exact Or.inl rfl
  | true => exact Or.inr (hkept hp)

theorem rank_append (l' : List α) (t : τ) :
    rank p f (l ++ l') t = rank p f l t + rank p f l' t := List.countP_append

/-- Dropping before a row arrives makes no difference. -/
theorem keepTop_concat (r : α) :
    keepTop p f n (keepTop p f n l ++ [r]) = keepTop p f n (l ++ [r]) := by
  have hrank : ∀ t, rank p f (keepTop p f n l ++ [r]) t < n ↔ rank p f (l ++ [r]) t < n := by
    intro t
    rw [rank_append, rank_append]
    by_cases h : rank p f l t ≤ n
    · rw [rank_keepTop_of_le h]
    · have hkept := le_rank_keepTop (not_le.mp h).le
      omega
  have hfilter : keepTop p f n (keepTop p f n l ++ [r])
      = (keepTop p f n l ++ [r]).filter (fun a => !p a || decide (rank p f (l ++ [r]) (f a) < n)) :=
    List.filter_congr fun a _ => by rw [decide_eq_decide.mpr (hrank (f a))]
  rw [hfilter, List.filter_append, keepTop, keepTop, List.filter_append, List.filter_filter]
  refine congrArg (fun kept => kept ++ _) (List.filter_congr fun a _ => ?_)
  -- a row that is kept in the end was kept before
  have hearlier : rank p f (l ++ [r]) (f a) < n → rank p f l (f a) < n := fun h =>
    lt_of_le_of_lt (by rw [rank_append]; exact Nat.le_add_right _ _) h
  cases p a with
  | false => rfl
  | true =>
    by_cases h : rank p f (l ++ [r]) (f a) < n
    · simp [h, hearlier h]
    · simp [h]

/-- A row that has `n` rows above it when it arrives is dropped at once. -/
theorem keepTop_stale {r : α} (hp : p r = true) (h : n ≤ rank p f l (f r)) :
    keepTop p f n (l ++ [r]) = keepTop p f n l := by
  have hr : ¬rank p f (l ++ [r]) (f r) < n := by
    rw [rank_append, not_lt]
    exact h.trans (Nat.le_add_right _ _)
  have hdropped : [r].filter (fun a => !p a || decide (rank p f (l ++ [r]) (f a) < n)) = [] := by
    simp [hp, hr]
  rw [keepTop, List.filter_append, hdropped, List.append_nil, keepTop]
  refine List.filter_congr fun a _ => ?_
  rw [rank_append]
  by_cases ha : f a < f r
  · have hbelow := h.trans (rank_anti (p := p) (l := l) ha.le)
    have hnot : ¬rank p f l (f a) + rank p f [r] (f a) < n := by omega
    simp [hnot, not_lt.mpr hbelow]
  · have hself : rank p f [r] (f a) = 0 := by simp [rank, ha]
    rw [hself, Nat.add_zero]

/-- Updates that leave the partition and the order alone. -/
theorem keepTop_map (g : α → α) (hp : ∀ a, p (g a) = p a) (hf : ∀ a, f (g a) = f a) :
    keepTop p f n (l.map g) = (keepTop p f n l).map g := by
  have hrank : ∀ t, rank p f (l.map g) t = rank p f l t := by
    intro t
    rw [rank, List.countP_map, rank]
    refine List.countP_congr fun a _ => ?_
    simp only [Function.comp, hp, hf]
  rw [keepTop, List.filter_map, keepTop]
  refine congrArg (List.map g) (List.filter_congr fun a _ => ?_)
  simp only [Function.comp, hp, hf, hrank]

end KeepTop

namespace QueryPlan

variable (plan : QueryPlan) {α τ : Type} [LinearOrder τ] {f : α → τ} {l : List α}

/-- Without ties, what `ORDER BY f DESC LIMIT n` does not return are the rows with `n` rows above
them. -/
theorem mem_drop_iff (hnodup : l.Nodup) (hties : ∀ a ∈ l, ∀ b ∈ l, f a = f b → a = b) {n : ℕ}
    {a : α} :
    a ∈ (plan.orderBy (fun a b => decide (f b ≤ f a)) l).drop n ↔
      a ∈ l ∧ n ≤ rank (fun _ => true) f l (f a) := by
  have hperm := plan.perm (fun a b => decide (f b ≤ f a)) l
  have hsorted := plan.sorted (fun a b => decide (f b ≤ f a))
    (fun a b => by simpa using le_total (f b) (f a))
    (fun a b c hab hbc => by
      simp only [decide_eq_true_eq] at hab hbc ⊢
      exact hbc.trans hab) l
  generalize plan.orderBy (fun a b => decide (f b ≤ f a)) l = ordered at hperm hsorted ⊢
  have hstrict : ordered.Pairwise (fun a b => f b < f a) := by
    refine (hsorted.and (hperm.nodup_iff.mpr hnodup)).imp_of_mem fun {a b} ha hb h => ?_
    refine lt_of_le_of_ne (by simpa using h.1) fun heq => h.2 ?_
    exact (hties b (hperm.mem_iff.mp hb) a (hperm.mem_iff.mp ha) heq).symm
  have hrank : rank (fun _ => true) f l (f a) = rank (fun _ => true) f ordered (f a) :=
    (hperm.countP_eq _).symm
  rw [hrank, ← hperm.mem_iff]
  have hsplit := List.take_append_drop n ordered
  rw [← hsplit, List.pairwise_append] at hstrict
  constructor
  · intro ha
    refine ⟨List.mem_of_mem_drop ha, ?_⟩
    have hlength : n ≤ ordered.length := by
      by_contra hlt
      rw [List.drop_eq_nil_of_le (not_le.mp hlt).le] at ha
      cases ha
    have hbefore : rank (fun _ => true) f (ordered.take n) (f a) = n := by
      rw [rank, List.countP_eq_length.mpr, List.length_take, Nat.min_eq_left hlength]
      intro b hb
      simpa using hstrict.2.2 b hb a ha
    rw [← hsplit, rank_append, hbefore]
    exact Nat.le_add_right _ _
  · rintro ⟨hmem, hle⟩
    by_contra hdrop
    rw [← hsplit, List.mem_append] at hmem
    have htake := hmem.resolve_right hdrop
    -- what is above `a` is among the first `n`, and so is `a`
    have hafter : rank (fun _ => true) f (ordered.drop n) (f a) = 0 := by
      rw [rank, List.countP_eq_zero]
      intro b hb
      simpa using (hstrict.2.2 a htake b hb).le
    have hless : rank (fun _ => true) f (ordered.take n) (f a) < (ordered.take n).length :=
      List.countP_lt_length_iff.mpr ⟨a, htake, by simp⟩
    rw [← hsplit, rank_append, hafter] at hle
    have hlength := List.length_take_le n ordered
    omega

end QueryPlan

end Relational
