import OmarchyWhatsapp.Relational.Table

/-!
# What holds of all rows

A property of rows holds of all rows after a write statement when it holds of the rows that are
inserted and is kept by what the statement does to a row.
-/

namespace Relational

namespace Table

variable {ρ κ : Type*} {key : ρ → κ} {t : Table ρ key} {P : ρ → Prop} (h : ∀ r ∈ t.rows, P r)

include h

theorem forall_deleteWhere (p : ρ → Bool) : ∀ r ∈ (t.deleteWhere p).rows, P r :=
  fun r hr => h r (mem_deleteWhere.mp hr).1

theorem forall_updateWhere {p : ρ → Bool} {f : ρ → ρ} {hf : ∀ r, key (f r) = key r}
    (hkept : ∀ r, p r = true → P r → P (f r)) : ∀ r ∈ (t.updateWhere p f hf).rows, P r := by
  intro r hr
  obtain ⟨r₀, hr₀, rfl⟩ := mem_updateWhere.mp hr
  split
  · rename_i hp
    exact hkept r₀ hp (h r₀ hr₀)
  · exact h r₀ hr₀

variable [DecidableEq κ]

theorem forall_insertOrIgnore {r : ρ} (hr : P r) : ∀ x ∈ (t.insertOrIgnore r).rows, P x := by
  intro x hx
  rcases mem_insertOrIgnore.mp hx with hx | ⟨rfl, -⟩
  · exact h x hx
  · exact hr

theorem forall_upsert {r : ρ} {merge : ρ → ρ → ρ} {hm : ∀ old new, key (merge old new) = key old}
    (hr : P r) (hmerge : ∀ old, P old → P (merge old r)) :
    ∀ x ∈ (t.upsert r merge hm).rows, P x := by
  intro x hx
  rw [rows_upsert] at hx
  split at hx
  · rcases List.mem_append.mp hx with hx | hx
    · exact h x hx
    · exact List.mem_singleton.mp hx ▸ hr
  · obtain ⟨x₀, hx₀, rfl⟩ := List.mem_map.mp hx
    split
    · exact hmerge x₀ (h x₀ hx₀)
    · exact h x₀ hx₀

theorem forall_insertSelect {src : List ρ} {merge : ρ → ρ → ρ}
    {hm : ∀ old new, key (merge old new) = key old} (hsrc : ∀ r ∈ src, P r)
    (hmerge : ∀ old new, P old → P new → P (merge old new)) :
    ∀ x ∈ (t.insertSelect src merge hm).rows, P x := by
  induction src generalizing t with
  | nil => exact h
  | cons r src ih =>
    obtain ⟨hr, hsrc⟩ := List.forall_mem_cons.mp hsrc
    exact ih (forall_upsert h hr (fun old hold => hmerge old r hold hr)) hsrc

/-- The moved rows are merged into rows that keep their own key. -/
theorem forall_relocate {order : List ρ → List ρ} (horder : ∀ l, (order l).Perm l) {p : ρ → Bool}
    {f : ρ → ρ} {merge : ρ → ρ → ρ} {hm : ∀ old new, key (merge old new) = key old}
    (hf : ∀ r, P r → P (f r)) (hmerge : ∀ old new, P old → P new → P (merge old new)) :
    ∀ x ∈ (t.relocate order p f merge hm).rows, P x ∧ p x = false := by
  intro x hx
  obtain ⟨hx, hpx⟩ := mem_deleteWhere.mp hx
  refine ⟨forall_insertSelect h (fun r hr => ?_) hmerge x hx, hpx⟩
  obtain ⟨r₀, hr₀, rfl⟩ := List.mem_map.mp hr
  exact hf r₀ (h r₀ (List.mem_filter.mp ((horder _).mem_iff.mp hr₀)).1)

theorem forall_updateOrIgnore {p : ρ → Bool} {f : ρ → ρ} (hf : ∀ r, P r → P (f r)) :
    ∀ x ∈ (t.updateOrIgnore p f).rows, P x := by
  have hfold (l : List ρ) (hl : ∀ r ∈ l, P r) : ∀ t : Table ρ key, (∀ r ∈ t.rows, P r) →
      ∀ x ∈ (l.foldl (fun t r =>
        if h : t.find? (key (f r)) = none then t.rekey r (f r) h else t) t).rows, P x := by
    induction l with
    | nil => exact fun _ ht => ht
    | cons r l ih =>
      obtain ⟨hr, hl⟩ := List.forall_mem_cons.mp hl
      intro t ht
      refine ih hl _ ?_
      show ∀ x ∈ (if h : t.find? (key (f r)) = none then t.rekey r (f r) h else t).rows, P x
      split
      · intro x hx
        obtain ⟨x₀, hx₀, rfl⟩ := List.mem_map.mp hx
        split
        · exact hf r hr
        · exact ht x₀ hx₀
      · exact ht
  exact hfold _ (fun r hr => h r (List.mem_filter.mp hr).1) t h

end Table

end Relational
