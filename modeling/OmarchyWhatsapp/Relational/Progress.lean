import Mathlib.Algebra.BigOperators.Group.List.Basic
import Mathlib.Algebra.Ring.Nat
import OmarchyWhatsapp.Relational.Run
import OmarchyWhatsapp.Relational.Table

/-!
# Getting work done

Where something is left to do, an allowed step makes it less: then allowed steps alone get
everything done. What is left is often the weight of the rows of a table.
-/

namespace Relational

variable {σ α : Type*} {step : σ → α → σ}

/-- Allowed steps, each of which leaves less to do, until nothing is left. -/
theorem exists_run_of_progress {I : σ → Prop} {A : α → Prop} {m : σ → ℕ}
    (h : ∀ s, I s → 0 < m s → ∃ a, A a ∧ I (step s a) ∧ m (step s a) < m s) {s : σ} (hs : I s) :
    ∃ as, (∀ a ∈ as, A a) ∧ I (run step s as) ∧ m (run step s as) = 0 := by
  induction hn : m s using Nat.strong_induction_on generalizing s with
  | _ n ih =>
    rcases Nat.eq_zero_or_pos (m s) with hzero | hpos
    · exact ⟨[], fun _ ha => (by cases ha), hs, hzero⟩
    · obtain ⟨a, ha, hI, hless⟩ := h s hs hpos
      obtain ⟨as, has, hrun⟩ := ih (m (step s a)) (hn ▸ hless) hI rfl
      refine ⟨a :: as, fun b hb => ?_, hrun⟩
      rcases List.mem_cons.mp hb with rfl | hb
      · exact ha
      · exact has b hb

namespace Table

variable {ρ κ : Type*} {key : ρ → κ} (w : ρ → ℕ)

def weight (t : Table ρ key) : ℕ := (t.rows.map w).sum

theorem weight_eq_zero {t : Table ρ key} (h : ∀ r ∈ t.rows, 0 < w r) (hzero : t.weight w = 0) :
    t.rows = [] := by
  rcases hrows : t.rows with _ | ⟨r, rows⟩
  · rfl
  · rw [weight, hrows, List.map_cons, List.sum_cons] at hzero
    have hpos := h r (hrows ▸ List.mem_cons_self)
    omega

/-- There is a row where there is weight. -/
theorem exists_mem_of_weight {t : Table ρ key} (h : 0 < t.weight w) : ∃ r, r ∈ t.rows := by
  rcases hrows : t.rows with _ | ⟨r, rows⟩
  · rw [weight, hrows] at h
    exact absurd h (Nat.lt_irrefl 0)
  · exact ⟨r, List.mem_cons_self⟩

theorem countP_eq_weight (p : ρ → Bool) (t : Table ρ key) :
    t.rows.countP p = t.weight (fun r => (p r).toNat) := by
  unfold weight
  induction t.rows with
  | nil => rfl
  | cons r rows ih =>
    rw [List.countP_cons, ih, List.map_cons, List.sum_cons]
    cases p r <;> simp [Nat.add_comm]

variable [DecidableEq κ] {t : Table ρ key} {k : κ} {r : ρ}

/-- The row of a key, and the others. -/
theorem perm_cons_of_find? (h : t.find? k = some r) :
    t.rows.Perm (r :: t.rows.filter (fun x => !decide (key x = k))) := by
  have hsplit := (List.filter_append_perm (fun x => decide (key x = k)) t.rows).symm
  rw [filter_key, h] at hsplit
  exact hsplit

theorem weight_deleteWhere_key (h : t.find? k = some r) :
    (t.deleteWhere (fun x => key x = k)).weight w + w r = t.weight w := by
  have hsum := ((perm_cons_of_find? h).map w).sum_eq
  rw [List.map_cons, List.sum_cons] at hsum
  rw [weight, weight, hsum, rows_deleteWhere]
  exact Nat.add_comm _ _

theorem weight_updateWhere_key (h : t.find? k = some r) (f : ρ → ρ)
    (hf : ∀ x, key (f x) = key x) :
    (t.updateWhere (fun x => key x = k) f hf).weight w + w r = t.weight w + w (f r) := by
  have hother : (t.rows.filter (fun x => !decide (key x = k))).map
      (fun x => w (if decide (key x = k) then f x else x))
      = (t.rows.filter (fun x => !decide (key x = k))).map w := by
    refine List.map_congr_left fun x hx => ?_
    have hne : key x ≠ k := by simpa using List.of_mem_filter hx
    rw [if_neg (by simpa using hne)]
  have hsum := ((perm_cons_of_find? h).map w).sum_eq
  have hsum' := ((perm_cons_of_find? h).map
    (fun x => w (if decide (key x = k) then f x else x))).sum_eq
  rw [List.map_cons, List.sum_cons] at hsum hsum'
  rw [hother, if_pos (decide_eq_true (key_of_find? h))] at hsum'
  rw [weight, weight, rows_updateWhere, List.map_map]
  rw [hsum]
  show (t.rows.map (fun x => w (if decide (key x = k) then f x else x))).sum + w r = _
  rw [hsum']
  omega

theorem countP_updateWhere_key (p : ρ → Bool) (h : t.find? k = some r) (f : ρ → ρ)
    (hf : ∀ x, key (f x) = key x) :
    (t.updateWhere (fun x => key x = k) f hf).rows.countP p + (p r).toNat
      = t.rows.countP p + (p (f r)).toNat := by
  rw [countP_eq_weight, countP_eq_weight]
  exact weight_updateWhere_key _ h f hf

theorem countP_insertOrIgnore_le (p : ρ → Bool) (t : Table ρ key) (r : ρ) :
    (t.insertOrIgnore r).rows.countP p ≤ t.rows.countP p + (p r).toNat := by
  rw [rows_insertOrIgnore]
  split
  · rw [List.countP_append, List.countP_singleton]
    cases p r <;> exact le_rfl
  · exact Nat.le_add_right _ _

theorem countP_deleteWhere_le (p q : ρ → Bool) (t : Table ρ key) :
    (t.deleteWhere q).rows.countP p ≤ t.rows.countP p :=
  List.filter_sublist.countP_le

end Table

end Relational
