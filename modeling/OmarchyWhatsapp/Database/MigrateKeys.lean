import OmarchyWhatsapp.Database.MigrateTheorems

/-!
# Rows keyed by chat, message and participant

The receipts, the reactions and the votes of a message are keyed by its chat, its id and a
participant. The migration moves the rows of such a table in two passes: the participant is
renamed where the new key is free, and the chat is renamed with a merge. What a key holds
after a pass is said here once for the three tables, and for the messages, whose key has two parts
to rename.
-/

namespace OmarchyWhatsapp

open Relational

section Passes

variable {ρ : Type} {key : ρ → String × String × String} (t : Table ρ key) (p : ρ → Bool)
  (f : ρ → ρ) {oldJid newJid : String}

/-- The participant pass: the canonical identity keeps its row, or takes that of the alias. -/
theorem find?_participantPass (hne : oldJid ≠ newJid)
    (hp : ∀ r, p r = decide ((key r).2.2 = oldJid))
    (hf : ∀ r, key (f r) = ((key r).1, (key r).2.1, newJid)) (c m x : String) :
    ((t.updateOrIgnore p f).deleteWhere p).find? (c, m, x)
      = if x = oldJid then none
        else if x = newJid then
          (t.find? (c, m, newJid)).or ((t.find? (c, m, oldJid)).map f)
        else t.find? (c, m, x) := by
  have hinj : ∀ a b, p a = true → p b = true → key (f a) = key (f b) → key a = key b := by
    intro a b ha hb hab
    rw [hp, decide_eq_true_eq] at ha hb
    rw [hf, hf] at hab
    exact Prod.ext (congrArg (·.1) hab) (Prod.ext (congrArg (·.2.1) hab) (ha.trans hb.symm))
  have hapart : ∀ a b, p a = true → p b = true → key (f a) ≠ key b := by
    intro a b _ hb hab
    rw [hp, decide_eq_true_eq] at hb
    rw [hf] at hab
    exact hne.symm ((congrArg (·.2.2) hab).trans hb)
  have hstay : ∀ {y : String}, y ≠ oldJid → ∀ r, key r = (c, m, y) → p r = false := by
    intro y hy r hr
    rw [hp, hr]
    exact decide_eq_false hy
  split
  · rename_i hx
    rw [Table.find?_eq_none]
    intro r hr hk
    rw [Table.mem_deleteWhere, hp, hk] at hr
    exact of_decide_eq_false hr.2 hx
  · rename_i hx
    split
    · rename_i hnew
      subst hnew
      refine t.find?_updateOrIgnore_deleteWhere hinj hapart (hstay hx) (fun r _ => ?_)
        (fun r hr => ?_) fun r hr => ?_
      · rw [hp, hf]
        exact decide_eq_false hx
      · rw [hp, decide_eq_true_eq] at hr
        rw [hf, ← hr]
        constructor
        · intro h
          exact Prod.ext (congrArg (·.1) h) (Prod.ext (congrArg (·.2.1) h) rfl)
        · intro h
          rw [h]
      · rw [hp, hr]
        exact decide_eq_true rfl
    · rename_i hnew
      refine t.find?_updateOrIgnore_deleteWhere_of_ne hinj hapart (hstay hx) fun r _ h => ?_
      rw [hf] at h
      exact hnew (congrArg (·.2.2) h).symm

end Passes

/-! ## Renaming one part of a key -/

section Renaming

variable {ρ κ : Type} [DecidableEq κ] {key : ρ → κ} (t : Table ρ key) (p : ρ → Bool) (f : ρ → ρ)
  {oldJid newJid : String} (plan : QueryPlan) (merge : ρ → ρ → ρ)
  (hm : ∀ old new, key (merge old new) = key old)

/-- The rows whose key has the alias in one part are moved to the keys that have the canonical
identity there, or merged into the rows of these keys. -/
theorem find?_renamePass (part : κ → String) (setPart : String → κ → κ)
    (hget : ∀ j k, part (setPart j k) = j) (hset : ∀ k, setPart (part k) k = k)
    (htwice : ∀ i j k, setPart i (setPart j k) = setPart i k)
    (hp : ∀ r, p r = decide (part (key r) = oldJid))
    (hf : ∀ r, key (f r) = setPart newJid (key r)) (k : κ) :
    (t.relocate plan.scan p f merge hm).find? k
      = if part k = oldJid then none
        else if part k = newJid then
          (t.find? (setPart oldJid k)).elim (t.find? k)
            (fun a => some ((t.find? k).elim (f a) (fun r => merge r (f a))))
        else t.find? k := by
  -- a key with the alias in its part is known by what else it has
  have hback : ∀ r, p r = true → setPart oldJid (key (f r)) = key r := by
    intro r hr
    rw [hp, decide_eq_true_eq] at hr
    rw [hf, htwice, ← hr, hset]
  have hinj : ∀ a b, p a = true → p b = true → key (f a) = key (f b) → key a = key b := by
    intro a b ha hb hab
    rw [← hback a ha, hab, hback b hb]
  split
  · rename_i hk
    rw [Table.find?_eq_none]
    intro r hr hrk
    rw [Table.relocate, Table.mem_deleteWhere, hp, hrk] at hr
    exact of_decide_eq_false hr.2 hk
  · rename_i hk
    have hstay : ∀ r, key r = k → p r = false := by
      intro r hr
      rw [hp, hr]
      exact decide_eq_false hk
    split
    · rename_i hnew
      refine Table.find?_relocate (fun l => plan.scan_perm l) hinj hstay (fun r hr => ?_)
        fun r hr => ?_
      · constructor
        · intro h
          rw [← h, hback r hr]
        · intro h
          rw [hf, h, htwice, ← hnew, hset]
      · rw [hp, hr, hget]
        exact decide_eq_true rfl
    · rename_i hnew
      rw [Table.find?_relocate_of_ne (fun l => plan.scan_perm l) hinj]
      · rcases hrow : t.find? k with _ | r
        · rfl
        · have hpr := hstay r (Table.key_of_find? hrow)
          simp [hpr]
      · intro r _ h
        rw [← h, hf, hget] at hnew
        exact hnew rfl

end Renaming

section ChatPass

variable {ρ : Type} {key : ρ → String × String × String} (t : Table ρ key) (p : ρ → Bool)
  (f : ρ → ρ) {oldJid newJid : String} (plan : QueryPlan) (merge : ρ → ρ → ρ)
  (hm : ∀ old new, key (merge old new) = key old)

/-- The chat pass: the row of the alias is moved, or merged into that of the canonical chat. -/
theorem find?_chatPass (hp : ∀ r, p r = decide ((key r).1 = oldJid))
    (hf : ∀ r, key (f r) = (newJid, (key r).2)) (c m x : String) :
    (t.relocate plan.scan p f merge hm).find? (c, m, x)
      = if c = oldJid then none
        else if c = newJid then
          (t.find? (oldJid, m, x)).elim (t.find? (newJid, m, x))
            (fun a => some ((t.find? (newJid, m, x)).elim (f a) (fun r => merge r (f a))))
        else t.find? (c, m, x) := by
  refine (find?_renamePass t p f plan merge hm (·.1) (fun j k => (j, k.2)) (fun _ _ => rfl)
    (fun _ => rfl) (fun _ _ _ => rfl) hp hf (c, m, x)).trans ?_
  by_cases hc : c = newJid
  · subst hc
    rfl
  · simp only [if_neg hc]

end ChatPass

end OmarchyWhatsapp
