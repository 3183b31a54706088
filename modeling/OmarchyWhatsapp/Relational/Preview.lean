import Mathlib.Order.MinMax
import OmarchyWhatsapp.Relational.Order
import OmarchyWhatsapp.Relational.Table

/-!
# A cached latest row

A pair `(content, time)` kept beside a list of rows is to show the latest row. `Shows` says
that it does. `Leads` is what remains true while rows arrive below a time that was announced
before them: no row is later than the pair, and a row of its time has its content. Rows that
move to other keys below the latest row leave it the latest (`latest_relocate`).
-/

namespace Relational

variable {α β τ : Type*} [LinearOrder τ] (time : α → τ) (content : α → β)

/-- The pair is the content and the time of the latest row, if there is one. -/
def Shows (l : List α) (p : β × τ) : Prop :=
  ∀ r, latest time l = some r → p = (content r, time r)

/-- The pair is ahead of the latest row, or shows it. -/
def Leads (l : List α) (p : β × τ) : Prop :=
  ∀ r, latest time l = some r → time r ≤ p.2 ∧ (time r = p.2 → p.1 = content r)

/-- The pair after a row arrived: ties go to the row. -/
def touch (p : β × τ) (r : α) : β × τ :=
  (if p.2 ≤ time r then content r else p.1, max p.2 (time r))

section Lemmas

variable {time content} {l : List α} {p : β × τ} {r : α}

theorem shows_nil : Shows time content [] p := fun r h => by cases h

theorem Shows.leads (h : Shows time content l p) : Leads time content l p := by
  intro r hr
  rw [h r hr]
  exact ⟨le_rfl, fun _ => rfl⟩

theorem Leads.shows (h : Leads time content l p)
    (hle : ∀ r, latest time l = some r → p.2 ≤ time r) : Shows time content l p := by
  intro r hr
  obtain ⟨hahead, hcontent⟩ := h r hr
  have htime : time r = p.2 := le_antisymm hahead (hle r hr)
  exact Prod.ext (hcontent htime) htime.symm

/-- It suffices that some row is as late as the pair. -/
theorem Leads.shows_of_mem (h : Leads time content l p) (hr : r ∈ l) (hle : p.2 ≤ time r) :
    Shows time content l p :=
  h.shows fun _ hlatest => hle.trans (le_latest time hlatest hr)

theorem Leads.le (h : Leads time content l p) (hr : r ∈ l) : time r ≤ p.2 := by
  obtain ⟨r', hr'⟩ := exists_latest time hr
  exact (le_latest time hr' hr).trans (h r' hr').1

/-- Announcing a later time. -/
theorem Leads.raise (h : Leads time content l p) {T : τ} (hT : p.2 ≤ T) :
    Leads time content l (p.1, T) := by
  intro r hr
  obtain ⟨hahead, hcontent⟩ := h r hr
  exact ⟨hahead.trans hT, fun heq => hcontent (le_antisymm hahead (hT.trans heq.ge))⟩

theorem shows_singleton (r : α) : Shows time content [r] (content r, time r) := by
  intro r' hr'
  obtain rfl : r = r' := Option.some_inj.mp hr'
  rfl

/-- An older row, or the row that is shown, leaves the pair alone. -/
theorem touch_eq_self (h : time r < p.2 ∨ (time r = p.2 ∧ content r = p.1)) :
    touch time content p r = p := by
  rcases h with hlt | ⟨htime, hcontent⟩
  · rw [Relational.touch, if_neg (not_le.mpr hlt), max_eq_left hlt.le]
  · rw [Relational.touch, htime, hcontent, ite_self, max_self]

/-- A row arrives. -/
theorem Leads.touch (h : Leads time content l p) (r : α) :
    Leads time content (l ++ [r]) (touch time content p r) := by
  intro r' hr'
  rw [latest_concat] at hr'
  unfold Relational.touch
  rcases hl : latest time l with _ | b
  · rw [hl] at hr'
    obtain rfl : r = r' := Option.some_inj.mp hr'
    refine ⟨le_max_right _ _, fun heq => if_pos ?_⟩
    exact (le_max_left _ _).trans heq.ge
  · rw [hl] at hr'
    dsimp only at hr'
    obtain ⟨hahead, hcontent⟩ := h b hl
    split at hr'
    · obtain rfl : r = r' := Option.some_inj.mp hr'
      refine ⟨le_max_right _ _, fun heq => if_pos ?_⟩
      exact (le_max_left _ _).trans heq.ge
    · rename_i hnot
      obtain rfl : b = r' := Option.some_inj.mp hr'
      rw [not_le] at hnot
      refine ⟨hahead.trans (le_max_left _ _), fun heq => ?_⟩
      have hlt : ¬p.2 ≤ time r := not_le.mpr (hnot.trans_le hahead)
      dsimp only at heq ⊢
      rw [if_neg hlt]
      rw [max_eq_left (not_le.mp hlt).le] at heq
      exact hcontent heq

/-- A row arrives in a list that the pair shows. -/
theorem Shows.touch (h : Shows time content l p) (r : α) (hnil : l = [] → p.2 ≤ time r) :
    Shows time content (l ++ [r]) (touch time content p r) := by
  have hmem : r ∈ l ++ [r] := List.mem_append_right _ (List.mem_singleton_self r)
  rcases le_total p.2 (time r) with hle | hle
  · exact (h.leads.touch r).shows_of_mem hmem (max_eq_right hle).le
  · rcases hlatest : latest time l with _ | b
    · have hle := hnil ((latest_eq_none time).mp hlatest)
      exact (h.leads.touch r).shows_of_mem hmem (max_eq_right hle).le
    · refine (h.leads.touch r).shows_of_mem
        (List.mem_append_left _ (latest_mem time hlatest)) ?_
      rw [Relational.touch, max_eq_left hle, h b hlatest]

/-- All the latest rows have the content. -/
theorem shows_of_uniform {c : β} {T : τ} (hle : ∀ x ∈ l, time x ≤ T)
    (hex : ∃ x ∈ l, time x = T) (hcontent : ∀ x ∈ l, time x = T → content x = c) :
    Shows time content l (c, T) := by
  intro r hr
  obtain ⟨x, hx, hT⟩ := hex
  have htime : time r = T := le_antisymm (hle r (latest_mem time hr)) (hT ▸ le_latest time hr hx)
  rw [htime, hcontent r (latest_mem time hr) htime]

end Lemmas

/-! ## Moving rows below the latest one -/

section Relocate

variable {ρ κ τ : Type*} {key : ρ → κ} [DecidableEq κ] [LinearOrder τ]
  {order : List ρ → List ρ} {p q : ρ → Bool} {r : ρ}

/-- The latest of some rows stays the latest when the rows that move are earlier. -/
theorem latest_relocate (t : Table ρ key) (time : ρ → τ) (f : ρ → ρ) (merge : ρ → ρ → ρ)
    (hm : ∀ old new, key (merge old new) = key old) (horder : ∀ l, (order l).Perm l)
    (hinj : ∀ a b, p a = true → p b = true → key (f a) = key (f b) → key a = key b)
    (hf : ∀ r, p r = true → p (f r) = false) (hp : ∀ old new, p (merge old new) = p old)
    (hq : ∀ x y, key x = key y → q x = q y)
    (hr : latest time (t.rows.filter q) = some r) (hstay : p r = false)
    (hmoved : ∀ a ∈ t.rows, p a = true → q (f a) = true → time (f a) < time r)
    (hmerge : ∀ x a, time (merge x a) ≤ max (time x) (time a) ∧ time x ≤ time (merge x a)) :
    latest time ((t.relocate order p f merge hm).rows.filter q)
      = some (Table.absorb key ((order (t.rows.filter p)).map f) merge r) := by
  let moved := (order (t.rows.filter p)).map f
  have hmem : ∀ a ∈ moved, ∃ b ∈ t.rows, p b = true ∧ f b = a := by
    intro a ha
    obtain ⟨b, hb, rfl⟩ := List.mem_map.mp ha
    obtain ⟨hb, hpb⟩ := List.mem_filter.mp ((horder _).mem_iff.mp hb)
    exact ⟨b, hb, hpb, rfl⟩
  -- a row of the query is merged with earlier rows only
  have habsorb : ∀ x, q x = true → time (Table.absorb key moved merge x) ≤ time x ∨
      time (Table.absorb key moved merge x) < time r := by
    intro x hx
    rcases Table.absorb_cases key moved merge x with ⟨h, -⟩ | ⟨a, ha, hk, h⟩
    · exact Or.inl (by rw [h])
    · obtain ⟨b, hb, hpb, rfl⟩ := hmem a ha
      have hlt := hmoved b hb hpb ((hq _ _ hk).trans hx)
      rw [h]
      rcases le_max_iff.mp (hmerge x (f b)).1 with hle | hle
      · exact Or.inl hle
      · exact Or.inr (hle.trans_lt hlt)
  have hlater : ∀ x, time x ≤ time (Table.absorb key moved merge x) := by
    intro x
    rcases Table.absorb_cases key moved merge x with ⟨h, -⟩ | ⟨a, -, -, h⟩
    · rw [h]
    · rw [h]
      exact (hmerge x a).2
  have hkeep : ∀ x, q (Table.absorb key moved merge x) = q x := fun x =>
    hq _ _ (Table.key_absorb hm moved x)
  obtain ⟨l₁, l₂, hl, hbefore, hafter⟩ := (latest_eq_some time).mp hr
  have hqr : q r = true := (List.mem_filter.mp (latest_mem time hr)).2
  have hmem₁ : ∀ x ∈ l₁, q x = true := fun x hx =>
    (List.mem_filter.mp (hl ▸ List.mem_append_left _ hx : x ∈ t.rows.filter q)).2
  have hmem₂ : ∀ x ∈ l₂, q x = true := fun x hx =>
    (List.mem_filter.mp (hl ▸ List.mem_append_right _ (List.mem_cons_of_mem _ hx) :
      x ∈ t.rows.filter q)).2
  have hstayed : (t.rows.filter (fun x => !p x)).filter (q ∘ Table.absorb key moved merge)
      = l₁.filter (fun x => !p x) ++ r :: l₂.filter (fun x => !p x) := by
    have hcomp : q ∘ Table.absorb key moved merge = q := funext hkeep
    rw [hcomp, List.filter_comm, hl, List.filter_append, List.filter_cons, if_pos (by simp [hstay])]
  rw [Table.rows_relocate horder hinj hf hp, List.filter_append, List.filter_map, hstayed,
    List.map_append, List.map_cons, List.append_assoc, List.cons_append]
  refine (latest_eq_some time).mpr ⟨_, _, rfl, fun x hx => ?_, fun x hx => ?_⟩
  · obtain ⟨y, hy, rfl⟩ := List.mem_map.mp hx
    have hy := List.mem_of_mem_filter hy
    rcases habsorb y (hmem₁ y hy) with hle | hlt
    · exact (hle.trans (hbefore y hy)).trans (hlater r)
    · exact hlt.le.trans (hlater r)
  · refine lt_of_lt_of_le ?_ (hlater r)
    rcases List.mem_append.mp hx with hx | hx
    · obtain ⟨y, hy, rfl⟩ := List.mem_map.mp hx
      have hy := List.mem_of_mem_filter hy
      rcases habsorb y (hmem₂ y hy) with hle | hlt
      · exact hle.trans_lt (hafter y hy)
      · exact hlt
    · obtain ⟨hx, hqx⟩ := List.mem_filter.mp hx
      obtain ⟨b, hb, hpb, rfl⟩ := hmem x (List.mem_of_mem_filter hx)
      exact hmoved b hb hpb hqx

end Relocate

end Relational
