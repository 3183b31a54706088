import Mathlib.Order.MinMax
import OmarchyWhatsapp.Relational.Order

/-!
# A last-writer-wins register with removals

A register shows at most one event and remembers the time of a removal. Events may arrive
in any order and more than once. `apply` is the arrival of one event; what is shown after a
run is the latest of the events that no removal covers, whatever the register held before.
-/

namespace Relational

/-- The event that is shown, and the time up to which events are removed. -/
structure Register (ε τ : Type*) where
  shown : Option ε := none
  removedAt : Option τ := none

namespace Register

variable {ε τ : Type*} [LinearOrder τ] (time : ε → τ) (removes : ε → Bool)

/-- A removal takes what is shown unless it is newer; another event is shown unless it is
removed already or older than what is shown, and clears an older removal. -/
def apply (r : Register ε τ) (e : ε) : Register ε τ :=
  if removes e then
    { shown := r.shown.filter (fun x => time e < time x)
      removedAt := some (r.removedAt.elim (time e) (max · (time e))) }
  else if r.removedAt.any (fun t => time e ≤ t) then r
  else
    { shown := some (r.shown.elim e (fun x => if time x ≤ time e then e else x))
      removedAt := r.removedAt.filter (fun t => time e ≤ t) }

/-- A removal among the events is as new as `x`. -/
def Covered (es : List ε) (x : ε) : Prop := ∃ e ∈ es, removes e = true ∧ time x ≤ time e

instance (es : List ε) (x : ε) : Decidable (Covered time removes es x) :=
  inferInstanceAs (Decidable (∃ e ∈ es, removes e = true ∧ time x ≤ time e))

/-- The events that can be shown: what was shown before, and the events that are newer than
the removal of before. -/
def candidates (r : Register ε τ) (es : List ε) : List ε :=
  r.shown.toList ++ es.filter (fun e => !removes e && r.removedAt.all (fun t => t < time e))

/-- Those that no removal among the events covers. -/
def survivors (r : Register ε τ) (es : List ε) : List ε :=
  (candidates time removes r es).filter (fun x => !decide (Covered time removes es x))

variable {time removes} {r : Register ε τ} {es : List ε} {e x : ε}

theorem mem_survivors : x ∈ survivors time removes r es ↔
    (x ∈ r.shown ∨ (x ∈ es ∧ removes x = false ∧ ∀ t ∈ r.removedAt, t < time x)) ∧
      ¬Covered time removes es x := by
  rw [survivors, List.mem_filter, candidates, List.mem_append, Option.mem_toList, List.mem_filter]
  simp [Option.all_eq_true]

theorem covered_concat : Covered time removes (es ++ [e]) x ↔
    Covered time removes es x ∨ (removes e = true ∧ time x ≤ time e) := by
  simp [Covered, or_and_right, exists_or]

theorem candidates_concat : candidates time removes r (es ++ [e]) = candidates time removes r es ++
    (if removes e = false ∧ ∀ t ∈ r.removedAt, t < time e then [e] else []) := by
  rw [candidates, List.filter_append, ← List.append_assoc, candidates, List.filter_singleton]
  congr 1
  have hiff : (!removes e && r.removedAt.all (fun t => decide (t < time e))) = true ↔
      removes e = false ∧ ∀ t ∈ r.removedAt, t < time e := by
    simp [Option.all_eq_true]
  by_cases h : removes e = false ∧ ∀ t ∈ r.removedAt, t < time e
  · rw [if_pos h, hiff.mpr h, cond_true]
  · rw [if_neg h, Bool.eq_false_iff.mpr (mt hiff.mp h), cond_false]

/-- A removal drops the survivors that are not newer. -/
theorem survivors_concat_removal (he : removes e = true) :
    survivors time removes r (es ++ [e])
      = (survivors time removes r es).filter (fun x => time e < time x) := by
  rw [survivors, candidates_concat, if_neg (by simp [he]), List.append_nil, survivors,
    List.filter_filter]
  refine List.filter_congr fun x _ => ?_
  rw [Bool.eq_iff_iff]
  simp [covered_concat, he, and_comm]

/-- Another event is a survivor unless something removed it before. -/
theorem survivors_concat (he : removes e = false) :
    survivors time removes r (es ++ [e]) = survivors time removes r es ++
      (if (∀ t ∈ r.removedAt, t < time e) ∧ ¬Covered time removes es e then [e] else []) := by
  have hcovered : ∀ x, Covered time removes (es ++ [e]) x ↔ Covered time removes es x := by
    intro x
    simp [covered_concat, he]
  simp only [survivors, candidates_concat, List.filter_append, hcovered]
  congr 1
  by_cases ht : ∀ t ∈ r.removedAt, t < time e
  · rw [if_pos ⟨he, ht⟩]
    by_cases hc : Covered time removes es e
    · rw [if_neg (fun h => h.2 hc)]
      simp [hc]
    · rw [if_pos ⟨ht, hc⟩]
      simp [hc]
  · rw [if_neg (fun h => ht h.2), if_neg (fun h => ht h.1), List.filter_nil]

/-- What a register holds after `es`: the latest survivor, and a removal time that lies
above every removal that could still matter. -/
structure Settled (time : ε → τ) (removes : ε → Bool) (r : Register ε τ) (es : List ε)
    (r' : Register ε τ) : Prop where
  shown : r'.shown = latest time (survivors time removes r es)
  /-- A removal is remembered, or something newer is shown. -/
  remembered : ∀ u, (u ∈ r.removedAt ∨ ∃ e ∈ es, removes e = true ∧ time e = u) →
    (∃ t ∈ r'.removedAt, u ≤ t) ∨ ∃ x ∈ r'.shown, u < time x
  genuine : ∀ t ∈ r'.removedAt, t ∈ r.removedAt ∨ ∃ e ∈ es, removes e = true ∧ time e = t

theorem settled_nil : Settled time removes r [] r where
  shown := by
    have hnone : ∀ x, ¬Covered time removes [] x := by
      rintro x ⟨e, he, -⟩
      cases he
    have hsurvivors : survivors time removes r [] = r.shown.toList := by
      rw [survivors, candidates, List.filter_nil, List.append_nil]
      exact List.filter_eq_self.mpr fun x _ => by simp [hnone]
    rw [hsurvivors]
    cases r.shown <;> rfl
  remembered u hu := by
    rcases hu with hu | ⟨e, he, -⟩
    · exact Or.inl ⟨u, hu, le_rfl⟩
    · cases he
  genuine t ht := Or.inl ht

/-- Dropping the rows up to a time drops the latest one or nothing after it. -/
theorem latest_filter_lt {l : List ε} {c : τ} :
    latest time (l.filter (fun x => c < time x))
      = (latest time l).filter (fun x => c < time x) := by
  rcases hl : latest time l with _ | x
  · rw [latest_eq_none] at hl
    simp [hl]
  · by_cases hx : c < time x
    · rw [Option.filter_some_pos (by simpa using hx)]
      exact latest_filter time _ hl (by simpa using hx)
    · rw [Option.filter_some_neg (by simpa using hx), latest_eq_none, List.filter_eq_nil_iff]
      intro y hy
      rw [decide_eq_true_eq, not_lt]
      exact (le_latest time hl hy).trans (not_lt.mp hx)

theorem Settled.apply_removal {r' : Register ε τ} (h : Settled time removes r es r')
    (he : removes e = true) :
    Settled time removes r (es ++ [e]) (r'.apply time removes e) := by
  have hafter : r'.apply time removes e
      = { shown := r'.shown.filter (fun x => time e < time x)
          removedAt := some (r'.removedAt.elim (time e) (max · (time e))) } := if_pos he
  have htop : time e ≤ r'.removedAt.elim (time e) (max · (time e)) := by
    cases r'.removedAt with
    | none => exact le_rfl
    | some t => exact le_max_right _ _
  rw [hafter]
  refine ⟨?_, fun u hu => ?_, fun t ht => ?_⟩
  · rw [h.shown, survivors_concat_removal he, latest_filter_lt]
  · have hbelow : u ≤ time e ∨ ((∃ t ∈ r'.removedAt, u ≤ t) ∨ ∃ x ∈ r'.shown, u < time x) := by
      rcases hu with hu | ⟨e', he', hr, rfl⟩
      · exact Or.inr (h.remembered u (Or.inl hu))
      · rcases List.mem_append.mp he' with he' | he'
        · exact Or.inr (h.remembered _ (Or.inr ⟨e', he', hr, rfl⟩))
        · rw [List.mem_singleton.mp he']
          exact Or.inl le_rfl
    rcases hbelow with hle | ⟨t, ht, hle⟩ | ⟨x, hx, hlt⟩
    · exact Or.inl ⟨_, rfl, hle.trans htop⟩
    · refine Or.inl ⟨_, rfl, hle.trans ?_⟩
      rw [Option.mem_def.mp ht]
      exact le_max_left _ _
    · by_cases hnewer : time e < time x
      · exact Or.inr ⟨x, Option.mem_filter_iff.mpr ⟨hx, by simpa using hnewer⟩, hlt⟩
      · exact Or.inl ⟨_, rfl, (hlt.le.trans (not_lt.mp hnewer)).trans htop⟩
  · have ht := Option.some_inj.mp ht
    have hself : ∃ e' ∈ es ++ [e], removes e' = true ∧ time e' = time e :=
      ⟨e, List.mem_append_right _ (List.mem_singleton_self e), he, rfl⟩
    rcases hrem : r'.removedAt with _ | t'
    · rw [hrem] at ht
      exact Or.inr (ht ▸ hself)
    · rw [hrem, Option.elim_some] at ht
      rw [← ht]
      rcases max_choice t' (time e) with hmax | hmax
      · rw [hmax]
        refine (h.genuine t' hrem).imp_right ?_
        rintro ⟨e', he', hr, ht⟩
        exact ⟨e', List.mem_append_left _ he', hr, ht⟩
      · rw [hmax]
        exact Or.inr hself

/-- An event that is blocked was removed before, or by one of the events. -/
theorem Settled.apply_blocked {r' : Register ε τ} (h : Settled time removes r es r')
    (he : removes e = false) (hblocked : ∃ t ∈ r'.removedAt, time e ≤ t) :
    Settled time removes r (es ++ [e]) (r'.apply time removes e) := by
  obtain ⟨t, ht, hle⟩ := hblocked
  have hafter : r'.apply time removes e = r' := by
    rw [Register.apply, if_neg (by simp [he]), if_pos]
    rw [Option.mem_def.mp ht]
    simpa using hle
  have hsurvivors : survivors time removes r (es ++ [e]) = survivors time removes r es := by
    rw [survivors_concat he, if_neg, List.append_nil]
    rintro ⟨hbefore, hnot⟩
    rcases h.genuine t ht with ht | ⟨e', he', hr, rfl⟩
    · exact absurd (hbefore t ht) (not_lt.mpr hle)
    · exact hnot ⟨e', he', hr, hle⟩
  rw [hafter]
  refine ⟨hsurvivors ▸ h.shown, fun u hu => h.remembered u (hu.imp_right ?_), fun t ht => ?_⟩
  · rintro ⟨e', he', hr, rfl⟩
    rcases List.mem_append.mp he' with he' | he'
    · exact ⟨e', he', hr, rfl⟩
    · rw [List.mem_singleton.mp he', he] at hr
      cases hr
  · refine (h.genuine t ht).imp_right ?_
    rintro ⟨e', he', hr, ht⟩
    exact ⟨e', List.mem_append_left _ he', hr, ht⟩

theorem Settled.apply_accepted {r' : Register ε τ} (h : Settled time removes r es r')
    (he : removes e = false) (haccepted : ∀ t ∈ r'.removedAt, t < time e) :
    Settled time removes r (es ++ [e]) (r'.apply time removes e) := by
  have hafter : r'.apply time removes e
      = { shown := some (r'.shown.elim e (fun x => if time x ≤ time e then e else x))
          removedAt := r'.removedAt.filter (fun t => time e ≤ t) } := by
    rw [Register.apply, if_neg (by simp [he]), if_neg]
    simpa [Option.any_eq_true] using haccepted
  -- whatever removed the event is older than what is shown
  have hhidden : ¬((∀ t ∈ r.removedAt, t < time e) ∧ ¬Covered time removes es e) →
      ∃ x ∈ r'.shown, time e < time x := by
    intro hnot
    obtain ⟨u, hu, hle⟩ : ∃ u, (u ∈ r.removedAt ∨ ∃ e' ∈ es, removes e' = true ∧ time e' = u) ∧
        time e ≤ u := by
      by_cases hbefore : ∀ t ∈ r.removedAt, t < time e
      · obtain ⟨e', he', hr, hle⟩ := not_not.mp (fun hc => hnot ⟨hbefore, hc⟩)
        exact ⟨_, Or.inr ⟨e', he', hr, rfl⟩, hle⟩
      · push Not at hbefore
        obtain ⟨t, ht, hle⟩ := hbefore
        exact ⟨t, Or.inl ht, hle⟩
    rcases h.remembered u hu with ⟨t, ht, hut⟩ | ⟨x, hx, hlt⟩
    · exact absurd (haccepted t ht) (not_lt.mpr (hle.trans hut))
    · exact ⟨x, hx, hle.trans_lt hlt⟩
  have hshown : r'.shown.elim e (fun x => if time x ≤ time e then e else x)
      ∈ latest time (survivors time removes r (es ++ [e])) := by
    rw [survivors_concat he]
    split
    · rw [latest_concat, ← h.shown]
      cases r'.shown with
      | none => rfl
      | some x =>
        dsimp only [Option.elim_some]
        split <;> rfl
    · rename_i hnot
      obtain ⟨x, hx, hlt⟩ := hhidden hnot
      rw [List.append_nil, ← h.shown, Option.mem_def.mp hx, Option.elim_some,
        if_neg (not_le.mpr hlt)]
      rfl
  have hnewest : ∃ y ∈ (some (r'.shown.elim e (fun x => if time x ≤ time e then e else x))),
      time e ≤ time y ∧ ∀ x ∈ r'.shown, time x ≤ time y := by
    refine ⟨_, rfl, ?_⟩
    rcases hs : r'.shown with _ | x
    · exact ⟨le_rfl, fun x hx => by cases hx⟩
    · rw [Option.elim_some]
      split
      · rename_i hle
        exact ⟨le_rfl, fun y hy => Option.some_inj.mp hy ▸ hle⟩
      · rename_i hlt
        exact ⟨(not_le.mp hlt).le, fun y hy => Option.some_inj.mp hy ▸ le_rfl⟩
  obtain ⟨y, hy, hey, hxy⟩ := hnewest
  rw [hafter]
  refine ⟨hshown.symm, fun u hu => Or.inr ⟨y, hy, ?_⟩, fun t ht => ?_⟩
  · have hu : u ∈ r.removedAt ∨ ∃ e' ∈ es, removes e' = true ∧ time e' = u := by
      refine hu.imp_right ?_
      rintro ⟨e', he', hr, ht⟩
      rcases List.mem_append.mp he' with he' | he'
      · exact ⟨e', he', hr, ht⟩
      · rw [List.mem_singleton.mp he', he] at hr
        cases hr
    rcases h.remembered u hu with ⟨t, ht, hle⟩ | ⟨x, hx, hlt⟩
    · exact (hle.trans_lt (haccepted t ht)).trans_le hey
    · exact hlt.trans_le (hxy x hx)
  · obtain ⟨ht, hle⟩ := Option.mem_filter_iff.mp ht
    exact absurd (haccepted t ht) (not_lt.mpr (of_decide_eq_true hle))

/-- What one event does to a settled register. -/
theorem Settled.apply {r' : Register ε τ} (h : Settled time removes r es r') (e : ε) :
    Settled time removes r (es ++ [e]) (r'.apply time removes e) := by
  by_cases he : removes e = true
  · exact h.apply_removal he
  · rw [Bool.not_eq_true] at he
    by_cases hblocked : ∃ t ∈ r'.removedAt, time e ≤ t
    · exact h.apply_blocked he hblocked
    · push Not at hblocked
      exact h.apply_accepted he hblocked

/-- Whatever a register held, after a run of events it is settled. -/
theorem settled_foldl (r : Register ε τ) (es : List ε) :
    Settled time removes r es (es.foldl (Register.apply time removes) r) := by
  induction es using List.reverseRecOn with
  | nil => exact settled_nil
  | append_singleton es e ih =>
    rw [List.foldl_append]
    exact ih.apply e

/-- What is shown is the latest survivor. -/
theorem shown_foldl (r : Register ε τ) (es : List ε) :
    (es.foldl (Register.apply time removes) r).shown
      = latest time (survivors time removes r es) := (settled_foldl r es).shown

/-- When all events are older than `x`, it is shown exactly if it was. -/
theorem latest_survivors_eq_some_of_older (holder : ∀ e ∈ es, time e < time x) :
    latest time (survivors time removes r es) = some x ↔ r.shown = some x := by
  constructor
  · intro hlatest
    rcases (mem_survivors.mp (latest_mem _ hlatest)).1 with hx | ⟨hx, -⟩
    · exact hx
    · exact absurd (holder x hx) (lt_irrefl _)
  · intro hshown
    have hmem : x ∈ survivors time removes r es := by
      refine mem_survivors.mpr ⟨Or.inl hshown, ?_⟩
      rintro ⟨e, he, -, hle⟩
      exact absurd (holder e he) (not_lt.mpr hle)
    obtain ⟨y, hy⟩ := exists_latest time hmem
    rcases (mem_survivors.mp (latest_mem _ hy)).1 with hsy | ⟨hpy, -⟩
    · exact hy.trans (hsy.symm.trans hshown)
    · exact absurd (le_latest _ hy hmem) (not_le.mpr (holder y hpy))

/-- The newest of the events decides, when the register held nothing newer. -/
theorem latest_survivors_of_newest (he : e ∈ es) (hnewest : ∀ x ∈ es, x = e ∨ time x < time e)
    (hshown : ∀ x ∈ r.shown, time x < time e) (hremoved : ∀ t ∈ r.removedAt, t < time e) :
    latest time (survivors time removes r es) = if removes e then none else some e := by
  have hbelow : ∀ x ∈ survivors time removes r es, x = e ∨ time x < time e := by
    intro x hx
    rcases (mem_survivors.mp hx).1 with hx | ⟨hx, -⟩
    · exact Or.inr (hshown x hx)
    · exact hnewest x hx
  split
  · rename_i hrem
    rw [latest_eq_none, List.eq_nil_iff_forall_not_mem]
    intro x hx
    refine (mem_survivors.mp hx).2 ⟨e, he, hrem, ?_⟩
    rcases hbelow x hx with rfl | hlt
    · exact le_rfl
    · exact hlt.le
  · rename_i hrem
    rw [Bool.not_eq_true] at hrem
    have hmem : e ∈ survivors time removes r es := by
      refine mem_survivors.mpr ⟨Or.inr ⟨he, hrem, hremoved⟩, ?_⟩
      rintro ⟨e', he', hr, hle⟩
      rcases hnewest e' he' with rfl | hlt
      · rw [hrem] at hr
        cases hr
      · exact absurd hle (not_le.mpr hlt)
    obtain ⟨x, hx⟩ := exists_latest time hmem
    rcases hbelow x (latest_mem time hx) with rfl | hlt
    · exact hx
    · exact absurd (le_latest time hx hmem) (not_le.mpr hlt)

/-- After a run that an empty register starts, the events of the newest time decide: a removal
among them hides all, and otherwise the last of them is shown. -/
theorem shown_foldl_of_top (he : e ∈ es) (htop : ∀ x ∈ es, time x ≤ time e) :
    (es.foldl (Register.apply time removes) {}).shown
      = if ∃ x ∈ es, removes x = true ∧ time x = time e then none
        else (es.filter (fun x => time x = time e)).getLast? := by
  rw [shown_foldl]
  split
  · rename_i hremoved
    obtain ⟨x, hx, hrem, htime⟩ := hremoved
    rw [latest_eq_none, List.eq_nil_iff_forall_not_mem]
    intro y hy
    obtain ⟨hy, huncovered⟩ := mem_survivors.mp hy
    rcases hy with hy | ⟨hy, -⟩
    · cases hy
    · exact huncovered ⟨x, hx, hrem, htime ▸ htop y hy⟩
  · rename_i hnone
    -- no removal reaches the newest time
    have hsurvives : ∀ x ∈ es, time x = time e →
        x ∈ survivors time removes ({} : Register ε τ) es := by
      intro x hx htime
      refine mem_survivors.mpr ⟨Or.inr ⟨hx, ?_, nofun⟩, ?_⟩
      · rw [← Bool.not_eq_true]
        exact fun hrem => hnone ⟨x, hx, hrem, htime⟩
      · rintro ⟨y, hy, hrem, hle⟩
        exact hnone ⟨y, hy, hrem, le_antisymm (htop y hy) (htime ▸ hle)⟩
    have hbelow : ∀ x ∈ survivors time removes ({} : Register ε τ) es, x ∈ es := by
      intro x hx
      rcases (mem_survivors.mp hx).1 with hx | ⟨hx, -⟩
      · cases hx
      · exact hx
    rw [latest_eq_getLast?_filter time (fun x hx => htop x (hbelow x hx))
      ⟨e, hsurvives e he rfl, rfl⟩]
    congr 1
    rw [survivors, candidates, Option.toList_none, List.nil_append, List.filter_filter,
      List.filter_filter]
    refine List.filter_congr fun x hx => ?_
    by_cases htime : time x = time e
    · have hmem := hsurvives x hx htime
      rw [survivors, List.mem_filter, candidates, Option.toList_none, List.nil_append,
        List.mem_filter] at hmem
      simp only [hmem.1.2, hmem.2, Bool.and_true]
    · rw [decide_eq_false htime, Bool.false_and, Bool.false_and]

end Register

end Relational
