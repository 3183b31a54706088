import Mathlib.Data.List.Basic
import Mathlib.Data.List.Infix
import Mathlib.Data.Nat.Find
import Mathlib.Tactic.Common

/-!
# Searching in a text

`p <:+: l` says that the pattern `p` occurs in `l`, and `l.dropInfix? p` splits `l` at the first
occurrence. A character that a pattern does not have separates a text: no occurrence goes across
it. `Plain` is the condition under which rewriting characters one by one, as quoting and escaping
do, neither makes nor destroys an occurrence.
-/

namespace Text

variable {α : Type*}

/-! ## Separators -/

/-- No occurrence goes across a character that the pattern does not have. -/
theorem infix_separated {p x y : List α} {c : α} (hc : c ∉ p) :
    p <:+: x ++ c :: y ↔ p <:+: x ∨ p <:+: y := by
  constructor
  · intro h
    rcases List.infix_append_iff.mp h with hx | hy | ⟨p₁, p₂, rfl, hsuffix, hstart⟩
    · exact Or.inl hx
    · rcases List.infix_cons_iff.mp hy with hstart | hy
      · cases p with
        | nil => exact Or.inl (List.nil_infix)
        | cons a p =>
          rw [List.cons_prefix_cons] at hstart
          exact absurd (hstart.1 ▸ List.mem_cons_self) hc
      · exact Or.inr hy
    · cases p₂ with
      | nil =>
        rw [List.append_nil]
        exact Or.inl hsuffix.isInfix
      | cons a p₂ =>
        rw [List.cons_prefix_cons] at hstart
        exact absurd (hstart.1 ▸ List.mem_append_right _ List.mem_cons_self) hc
  · rintro (hx | hy)
    · exact hx.trans (List.prefix_append _ _).isInfix
    · exact hy.trans (List.infix_append_of_infix_right (List.suffix_cons c y).isInfix)

/-- A text between two such characters. -/
theorem infix_enclosed {p : List α} {c d : α} (hc : c ∉ p) (hd : d ∉ p) (x v y : List α) :
    p <:+: x ++ c :: (v ++ [d]) ++ y ↔ p <:+: x ∨ p <:+: v ∨ p <:+: y := by
  have hshape : x ++ c :: (v ++ [d]) ++ y = x ++ c :: (v ++ d :: y) := by simp
  rw [hshape, infix_separated hc, infix_separated hd]

/-- An occurrence in joined texts that each end in a separator is in one of them. -/
theorem infix_flatMap_separated {β : Type*} {p : List α} {c : α} (hc : c ∉ p) (hp : p ≠ [])
    (f : β → List α) (bs : List β) :
    p <:+: bs.flatMap (fun b => f b ++ [c]) ↔ ∃ b ∈ bs, p <:+: f b := by
  induction bs with
  | nil => simp [hp]
  | cons b bs ih =>
    rw [List.flatMap_cons, List.append_assoc, List.singleton_append, infix_separated hc, ih]
    simp

/-- The same for texts with a separator between any two. -/
theorem infix_intercalate {p : List α} {c : α} (hc : c ∉ p) (hp : p ≠ []) (ls : List (List α)) :
    p <:+: [c].intercalate ls ↔ ∃ l ∈ ls, p <:+: l := by
  induction ls with
  | nil => simp [List.intercalate, hp]
  | cons l ls ih =>
    cases ls with
    | nil => simp [List.intercalate]
    | cons l' ls =>
      have hjoin : [c].intercalate (l :: l' :: ls) = l ++ c :: [c].intercalate (l' :: ls) := by
        simp [List.intercalate]
      rw [hjoin, infix_separated hc, ih]
      simp

/-! ## The first occurrence -/

section First

variable [DecidableEq α] {p l a b : List α}

/-- The split is at the first occurrence. -/
theorem dropInfix?_eq_some : l.dropInfix? p = some (a, b) ↔
    l = a ++ p ++ b ∧ ∀ a' b', l = a' ++ p ++ b' → a.length ≤ a'.length := by
  rw [List.dropInfix?_eq_some_iff]
  constructor
  · rintro ⟨⟨p', hl, hp⟩, hfirst⟩
    rw [beq_iff_eq] at hp
    exact ⟨hp ▸ hl, fun a' b' hl' => hfirst a' p b' hl' (beq_self_eq_true p)⟩
  · rintro ⟨hl, hfirst⟩
    refine ⟨⟨p, hl, beq_self_eq_true p⟩, fun a' p' b' hl' hp => ?_⟩
    rw [beq_iff_eq] at hp
    exact hfirst a' b' (hp ▸ hl')

theorem exists_dropInfix? (h : p <:+: l) : ∃ a b, l.dropInfix? p = some (a, b) := by
  classical
  have hex : ∃ n, ∃ a b, l = a ++ p ++ b ∧ a.length = n := by
    obtain ⟨a, b, hl⟩ := h
    exact ⟨a.length, a, b, hl.symm, rfl⟩
  obtain ⟨a, b, hl, hlength⟩ := Nat.find_spec hex
  refine ⟨a, b, dropInfix?_eq_some.mpr ⟨hl, fun a' b' hl' => ?_⟩⟩
  exact hlength.trans_le (Nat.find_min' hex ⟨a', b', hl', rfl⟩)

theorem dropInfix?_eq_none : l.dropInfix? p = none ↔ ¬p <:+: l := by
  constructor
  · intro hnone hoccurs
    obtain ⟨a, b, hsome⟩ := exists_dropInfix? hoccurs
    rw [hnone] at hsome
    cases hsome
  · intro hfree
    rw [Option.eq_none_iff_forall_ne_some]
    intro ⟨a, b⟩ hsome
    exact hfree ⟨a, b, (dropInfix?_eq_some.mp hsome).1.symm⟩

/-- A text that begins with the pattern, after a separator and a text without it. -/
theorem dropInfix?_separated {x : List α} {c : α} (hc : c ∉ p) (hx : ¬p <:+: x) (b : List α) :
    (x ++ c :: (p ++ b)).dropInfix? p = some (x ++ [c], b) := by
  refine dropInfix?_eq_some.mpr ⟨by simp, fun a' b' hl => ?_⟩
  -- otherwise the occurrence would begin in `x`
  by_contra hlt
  rw [List.length_append, List.length_singleton, Nat.not_le, Nat.lt_succ_iff] at hlt
  have hsplit : x ++ c :: (p ++ b) = a' ++ (p ++ b') := by rw [hl, List.append_assoc]
  obtain ⟨x', hx', hrest⟩ : ∃ x', x = a' ++ x' ∧ p ++ b' = x' ++ c :: (p ++ b) := by
    rcases List.append_eq_append_iff.mp hsplit with ⟨as, ha', hp⟩ | ⟨bs, hx', hp⟩
    · rw [ha', List.length_append] at hlt
      have hnil : as = [] := List.eq_nil_of_length_eq_zero (by omega)
      subst hnil
      exact ⟨[], by simpa using ha'.symm, hp.symm⟩
    · exact ⟨bs, hx', hp⟩
  rcases List.append_eq_append_iff.mp hrest with ⟨as, hx'', -⟩ | ⟨bs, hp, hbs⟩
  · exact hx ⟨a', as, by rw [hx', hx'', List.append_assoc]⟩
  · cases bs with
    | nil => exact hx ⟨a', [], by rw [hx', hp]; simp⟩
    | cons d bs =>
      have hd : d = c := (List.cons.inj hbs).1.symm
      exact hc (hp ▸ List.mem_append_right _ (hd ▸ List.mem_cons_self))

/-- The first occurrence in a text is the first one when the text goes on. -/
theorem dropInfix?_append {x y : List α} (hx : x.dropInfix? p = some (a, b)) :
    (x ++ y).dropInfix? p = some (a, b ++ y) := by
  obtain ⟨rfl, hfirst⟩ := dropInfix?_eq_some.mp hx
  refine dropInfix?_eq_some.mpr ⟨by simp, fun a' b' hl => ?_⟩
  by_contra hlt
  -- an earlier occurrence would end before the text does
  have hle : (a' ++ p).length ≤ (a ++ p ++ b).length := by
    simp only [List.length_append] at hlt ⊢
    omega
  have hstart : a' ++ p <+: a ++ p ++ b :=
    List.prefix_of_prefix_length_le ⟨b', hl.symm⟩ (List.prefix_append _ y) hle
  obtain ⟨b'', hb''⟩ := hstart
  exact hlt (hfirst a' b'' hb''.symm)

end First

/-! ## Rewriting characters -/

section Rewriting

variable {p : List α} {f : α → List α}

/-- A character is kept, or it is not in the pattern and what it is replaced by begins with a
character that is not in the pattern and does not have the first character of the pattern. -/
structure Plain (p : List α) (f : α → List α) : Prop where
  cases : ∀ c, f c = [c] ∨
    c ∉ p ∧ (∃ e ds, f c = e :: ds ∧ e ∉ p) ∧ ∀ a ∈ p.head?, a ∉ f c

theorem prefix_flatMap (h : ∀ c, f c = [c] ∨ c ∉ p ∧ ∃ e ds, f c = e :: ds ∧ e ∉ p)
    (l : List α) : p <+: l.flatMap f ↔ p <+: l := by
  induction l generalizing p with
  | nil => rfl
  | cons c l ih =>
    cases p with
    | nil => simp
    | cons a p =>
      rw [List.flatMap_cons]
      rcases h c with hkept | ⟨hc, e, ds, hreplaced, he⟩
      · have hrest : ∀ c, f c = [c] ∨ c ∉ p ∧ ∃ e ds, f c = e :: ds ∧ e ∉ p := by
          intro c'
          refine (h c').imp_right fun ⟨hc', e, ds, hreplaced, he⟩ => ?_
          exact ⟨fun hmem => hc' (List.mem_cons_of_mem _ hmem), e, ds, hreplaced,
            fun hmem => he (List.mem_cons_of_mem _ hmem)⟩
        rw [hkept, List.singleton_append, List.cons_prefix_cons, List.cons_prefix_cons, ih hrest]
      · rw [hreplaced, List.cons_append, List.cons_prefix_cons, List.cons_prefix_cons]
        refine iff_of_false (fun hcons => ?_) (fun hcons => ?_)
        · exact he (hcons.1 ▸ List.mem_cons_self)
        · exact hc (hcons.1 ▸ List.mem_cons_self)

/-- No occurrence begins in a text without the first character of the pattern. -/
theorem infix_append_of_head {a : α} {x y : List α} (ha : a ∉ x) :
    a :: p <:+: x ++ y ↔ a :: p <:+: y := by
  induction x with
  | nil => rfl
  | cons b x ih =>
    rw [List.cons_append, List.infix_cons_iff, ih fun hmem => ha (List.mem_cons_of_mem _ hmem)]
    refine or_iff_right fun hstart => ha ?_
    rw [List.cons_prefix_cons] at hstart
    exact hstart.1 ▸ List.mem_cons_self

/-- Plain rewriting keeps the occurrences of the pattern. -/
theorem Plain.infix_iff (h : Plain p f) (l : List α) : p <:+: l.flatMap f ↔ p <:+: l := by
  have hstart : ∀ l, p <+: l.flatMap f ↔ p <+: l :=
    prefix_flatMap fun c => (h.cases c).imp_right fun hc => ⟨hc.1, hc.2.1⟩
  cases p with
  | nil => simp
  | cons a p =>
    induction l with
    | nil => rfl
    | cons c l ih =>
      have hbegins := hstart (c :: l)
      rw [List.flatMap_cons] at hbegins ⊢
      rcases h.cases c with hkept | ⟨hc, -, hhead⟩
      · rw [hkept, List.singleton_append] at hbegins ⊢
        rw [List.infix_cons_iff, List.infix_cons_iff, hbegins]
        exact or_congr_right ih
      · rw [infix_append_of_head (hhead a rfl), List.infix_cons_iff]
        refine ih.trans (or_iff_right fun hcons => ?_).symm
        rw [List.cons_prefix_cons] at hcons
        exact hc (hcons.1 ▸ List.mem_cons_self)

end Rewriting

end Text
