import Mathlib.Data.List.Induction
import Mathlib.Data.List.Sort
import Mathlib.Order.Basic
import Mathlib.Tactic.Common

/-!
# Ordered selections

`ORDER BY` fixes the order of a result only up to its terms: rows that tie may come in
any order, and a query without `ORDER BY` may return its rows in any order at all. A
`QueryPlan` is one way of resolving that freedom, and everything stated about a query
holds for every plan.

`latest f` is the one ordered selection that ties cannot disturb: the row with the
greatest `f`, the last of them in row order (`ORDER BY f DESC, rowid DESC LIMIT 1`).
-/

namespace Relational

/-- How a query engine orders the rows of a result. -/
structure QueryPlan where
  orderBy : {α : Type} → (α → α → Bool) → List α → List α
  perm : ∀ {α : Type} (le : α → α → Bool) (l : List α), (orderBy le l).Perm l
  sorted : ∀ {α : Type} (le : α → α → Bool), (∀ a b, le a b || le b a) →
    (∀ a b c, le a b → le b c → le a c) →
    ∀ l : List α, (orderBy le l).Pairwise (fun a b => le a b)

namespace QueryPlan

variable (plan : QueryPlan) {α : Type}

theorem mem_orderBy {le : α → α → Bool} {l : List α} {a : α} :
    a ∈ plan.orderBy le l ↔ a ∈ l := (plan.perm le l).mem_iff

theorem length_orderBy (le : α → α → Bool) (l : List α) :
    (plan.orderBy le l).length = l.length := (plan.perm le l).length_eq

/-- The rows of a query without `ORDER BY`. -/
def scan (l : List α) : List α := plan.orderBy (fun _ _ => true) l

theorem scan_perm (l : List α) : (plan.scan l).Perm l := plan.perm _ l

theorem mem_scan {l : List α} {a : α} : a ∈ plan.scan l ↔ a ∈ l := plan.mem_orderBy

@[simp] theorem scan_nil : plan.scan ([] : List α) = [] :=
  List.perm_nil.mp (plan.scan_perm [])

theorem scan_singleton (a : α) : plan.scan [a] = [a] :=
  List.perm_singleton.mp (plan.scan_perm [a])

/-- The first row a query returns is one of its rows, and there is one unless none match. -/
theorem head?_scan_eq_none {l : List α} : (plan.scan l).head? = none ↔ l = [] := by
  rw [List.head?_eq_none_iff]
  constructor
  · intro h
    exact List.perm_nil.mp (h ▸ (plan.scan_perm l).symm)
  · rintro rfl
    exact plan.scan_nil

theorem mem_of_head?_scan {l : List α} {a : α} (h : (plan.scan l).head? = some a) : a ∈ l :=
  plan.mem_scan.mp (List.mem_of_mem_head? h)

/-- Deleting what `LIMIT n` does not return keeps what it returns. -/
theorem filter_limit_perm [DecidableEq α] (le : α → α → Bool) {l : List α} (h : l.Nodup)
    (n : ℕ) :
    (l.filter (fun a => !((plan.orderBy le l).drop n).contains a)).Perm
      ((plan.orderBy le l).take n) := by
  have hnodup : (plan.orderBy le l).Nodup := (plan.perm le l).nodup_iff.mpr h
  have hsplit := List.take_append_drop n (plan.orderBy le l)
  have hdisjoint := List.disjoint_take_drop hnodup (le_refl n)
  refine ((plan.perm le l).symm.filter _).trans ?_
  generalize (plan.orderBy le l).take n = kept at hsplit hdisjoint ⊢
  generalize (plan.orderBy le l).drop n = dropped at hsplit hdisjoint ⊢
  rw [← hsplit, List.filter_append, List.filter_eq_self.mpr, List.filter_eq_nil_iff.mpr,
    List.append_nil]
  · intro a ha
    simpa using ha
  · intro a ha
    simpa using hdisjoint ha

/-- A row that at most `n` rows come before or tie with is among the first `n`. -/
theorem not_mem_drop {le : α → α → Bool} (htot : ∀ a b, le a b || le b a)
    (htrans : ∀ a b c, le a b → le b c → le a c) {l : List α} {a : α} {n : ℕ}
    (h : l.countP (fun b => le b a) ≤ n) : a ∉ (plan.orderBy le l).drop n := by
  intro ha
  have hsplit := List.take_append_drop n (plan.orderBy le l)
  have hsorted := plan.sorted le htot htrans l
  rw [← hsplit, List.pairwise_append] at hsorted
  have hlength : n < (plan.orderBy le l).length := by
    by_contra hle
    rw [List.drop_eq_nil_of_le (not_lt.mp hle)] at ha
    cases ha
  have hbefore : ((plan.orderBy le l).take n).countP (fun b => le b a) = n := by
    rw [List.countP_eq_length.mpr fun b hb => hsorted.2.2 b hb a ha, List.length_take,
      Nat.min_eq_left hlength.le]
  have hself : 0 < ((plan.orderBy le l).drop n).countP (fun b => le b a) :=
    List.countP_pos_iff.mpr ⟨a, ha, by simpa using htot a a⟩
  have hcount : (plan.orderBy le l).countP (fun b => le b a) = l.countP (fun b => le b a) :=
    (plan.perm le l).countP_eq _
  rw [← hsplit, List.countP_append] at hcount
  omega

/-- Where only a row itself ties with a row, there is one order. -/
theorem orderBy_eq {le : α → α → Bool} (htot : ∀ a b, le a b || le b a)
    (htrans : ∀ a b c, le a b → le b c → le a c) {l l' : List α} (hperm : l.Perm l')
    (hties : ∀ a ∈ l, ∀ b ∈ l, le a b → le b a → a = b) (hsorted : l'.Pairwise (le · ·)) :
    plan.orderBy le l = l' := by
  refine ((plan.perm le l).trans hperm).eq_of_pairwise (fun a b ha hb hab hba => ?_)
    (plan.sorted le htot htrans l) hsorted
  exact hties a (plan.mem_orderBy.mp ha) b (hperm.mem_iff.mpr hb) hab hba

/-- Rows that are filtered out leave the order of the others. -/
theorem orderBy_filter {le : α → α → Bool} (htot : ∀ a b, le a b || le b a)
    (htrans : ∀ a b c, le a b → le b c → le a c) {l : List α}
    (hties : ∀ a ∈ l, ∀ b ∈ l, le a b → le b a → a = b) (p : α → Bool) :
    plan.orderBy le (l.filter p) = (plan.orderBy le l).filter p :=
  plan.orderBy_eq htot htrans ((plan.perm le l).symm.filter p)
    (fun a ha b hb => hties a (List.mem_of_mem_filter ha) b (List.mem_of_mem_filter hb))
    ((plan.sorted le htot htrans l).filter p)

/-- What holds of every two rows in their order, said of the rows. -/
theorem pairwise_orderBy_iff {le : α → α → Bool} (htot : ∀ a b, le a b || le b a)
    (htrans : ∀ a b c, le a b → le b c → le a c) {l : List α}
    (hties : ∀ a ∈ l, ∀ b ∈ l, le a b → le b a → a = b) {Q : α → α → Prop} (hrefl : ∀ a, Q a a) :
    (plan.orderBy le l).Pairwise Q ↔ ∀ a ∈ l, ∀ b ∈ l, le a b → Q a b := by
  constructor
  · intro h
    have hbackward : (plan.orderBy le l).Pairwise (flip fun a b => le a b → Q a b) := by
      refine (plan.sorted le htot htrans l).imp_of_mem fun ha hb hab hba => ?_
      rw [hties _ (plan.mem_orderBy.mp ha) _ (plan.mem_orderBy.mp hb) hab hba]
      exact hrefl _
    have hforward : (plan.orderBy le l).Pairwise fun a b => le a b → Q a b := by
      refine h.imp ?_
      intro a b hab _
      exact hab
    have hall := List.Pairwise.forall_of_forall_of_flip (fun a _ _ => hrefl a) hforward hbackward
    exact fun a ha b hb => hall (plan.mem_orderBy.mpr ha) (plan.mem_orderBy.mpr hb)
  · intro h
    refine (plan.sorted le htot htrans l).imp_of_mem fun ha hb hab => ?_
    exact h _ (plan.mem_orderBy.mp ha) _ (plan.mem_orderBy.mp hb) hab

/-- The plan that breaks ties by insertion order, as a stable sort does. -/
def stable : QueryPlan where
  orderBy le l := l.insertionSort (fun a b => le a b)
  perm le l := List.perm_insertionSort _ l
  sorted le htot htrans l := by
    have : Std.Total (fun a b => le a b = true) := ⟨fun a b => by simpa using htot a b⟩
    have : IsTrans _ (fun a b => le a b = true) := ⟨htrans⟩
    exact List.pairwise_insertionSort _ l

end QueryPlan

/-- In a list without ties, the rows that do not come before the `j`-th are those from it on. -/
theorem filter_getElem_le {α τ : Type*} [LinearOrder τ] {f : α → τ} {l : List α}
    (h : l.Pairwise (fun a b => f a < f b)) {j : ℕ} (hj : j < l.length) :
    l.filter (fun a => f l[j] ≤ f a) = l.drop j := by
  have hsplit := List.take_append_drop j l
  have hhead : l.drop j = l[j] :: l.drop (j + 1) := List.drop_eq_getElem_cons hj
  rw [← hsplit, List.pairwise_append] at h
  obtain ⟨-, hafter, hbefore⟩ := h
  have hfirst : (l.take j).filter (fun a => f l[j] ≤ f a) = [] := by
    rw [List.filter_eq_nil_iff]
    intro a ha
    have hlt : f a < f l[j] := hbefore a ha l[j] (hhead ▸ List.mem_cons_self)
    simpa using hlt
  have hrest : (l.drop j).filter (fun a => f l[j] ≤ f a) = l.drop j := by
    rw [List.filter_eq_self]
    intro a ha
    rw [hhead] at ha hafter
    rw [decide_eq_true_eq]
    rcases List.mem_cons.mp ha with rfl | ha
    · exact le_rfl
    · exact ((List.pairwise_cons.mp hafter).1 a ha).le
  calc l.filter (fun a => f l[j] ≤ f a)
      = (l.take j ++ l.drop j).filter (fun a => f l[j] ≤ f a) := by rw [hsplit]
    _ = l.drop j := by rw [List.filter_append, hfirst, hrest, List.nil_append]

/-! ## The latest row -/

section Latest

variable {α τ : Type*} [LinearOrder τ] (f : α → τ)

/-- `SELECT … ORDER BY f DESC, rowid DESC LIMIT 1`. -/
def latest (l : List α) : Option α :=
  l.foldl (fun best r => match best with
    | none => some r
    | some b => if f b ≤ f r then some r else some b) none

@[simp] theorem latest_nil : latest f ([] : List α) = none := rfl

theorem latest_concat (l : List α) (r : α) :
    latest f (l ++ [r]) = match latest f l with
      | none => some r
      | some b => if f b ≤ f r then some r else some b := by
  simp only [latest, List.foldl_append, List.foldl_cons, List.foldl_nil]

/-- The latest row splits the list: nothing before it is greater, everything after it is
strictly less. -/
theorem latest_eq_some {l : List α} {r : α} :
    latest f l = some r ↔
      ∃ l₁ l₂, l = l₁ ++ r :: l₂ ∧ (∀ x ∈ l₁, f x ≤ f r) ∧ ∀ x ∈ l₂, f x < f r := by
  induction l using List.reverseRecOn generalizing r with
  | nil => simp
  | append_singleton l a ih =>
    rw [latest_concat]
    constructor
    · intro h
      rcases hl : latest f l with _ | b
      · rw [hl] at h
        obtain rfl : a = r := by simpa using h
        have hnil : l = [] := by
          cases l using List.reverseRecOn with
          | nil => rfl
          | append_singleton l b =>
            exfalso
            rw [latest_concat] at hl
            rcases hl' : latest f l with _ | c
            · simp [hl'] at hl
            · simp only [hl'] at hl
              split at hl <;> simp at hl
        exact ⟨[], [], by simp [hnil], by simp, by simp⟩
      · rw [hl] at h
        obtain ⟨l₁, l₂, hsplit, hle, hlt⟩ := ih.mp hl
        dsimp only at h
        split at h
        · rename_i hba
          obtain rfl : a = r := by simpa using h
          refine ⟨l, [], rfl, fun x hx => ?_, by simp⟩
          rw [hsplit, List.mem_append, List.mem_cons] at hx
          rcases hx with hx | rfl | hx
          · exact (hle x hx).trans hba
          · exact hba
          · exact (hlt x hx).le.trans hba
        · rename_i hba
          obtain rfl : b = r := by simpa using h
          refine ⟨l₁, l₂ ++ [a], by simp [hsplit], hle, fun x hx => ?_⟩
          rw [List.mem_append, List.mem_singleton] at hx
          rcases hx with hx | rfl
          · exact hlt x hx
          · exact lt_of_not_ge hba
    · rintro ⟨l₁, l₂, hsplit, hle, hlt⟩
      rcases List.eq_nil_or_concat l₂ with rfl | ⟨l₂', a', rfl⟩
      · -- the last row is the latest one
        obtain ⟨rfl, hra⟩ := List.append_inj' hsplit rfl
        obtain rfl : a = r := by simpa using hra
        rcases hl : latest f l with _ | b
        · rfl
        · have hb : b ∈ l := by
            obtain ⟨m₁, m₂, rfl, -⟩ := ih.mp hl
            simp
          simp only [hle b hb, if_true]
      · have hsplit' : l ++ [a] = (l₁ ++ r :: l₂') ++ [a'] := by simpa using hsplit
        obtain ⟨hl, ha⟩ := List.append_inj' hsplit' rfl
        obtain rfl : a = a' := by simpa using ha
        have hprev : latest f l = some r :=
          ih.mpr ⟨l₁, l₂', hl, hle, fun x hx => hlt x (by simp [hx])⟩
        have har : f a < f r := hlt a (by simp)
        rw [hprev]
        simp only [not_le.mpr har, if_false]

theorem latest_mem {l : List α} {r : α} (h : latest f l = some r) : r ∈ l := by
  obtain ⟨l₁, l₂, rfl, -⟩ := (latest_eq_some f).mp h
  simp

theorem le_latest {l : List α} {r x : α} (h : latest f l = some r) (hx : x ∈ l) :
    f x ≤ f r := by
  obtain ⟨l₁, l₂, rfl, hle, hlt⟩ := (latest_eq_some f).mp h
  rw [List.mem_append, List.mem_cons] at hx
  rcases hx with hx | rfl | hx
  · exact hle x hx
  · exact le_rfl
  · exact (hlt x hx).le

theorem latest_eq_none {l : List α} : latest f l = none ↔ l = [] := by
  cases l using List.reverseRecOn with
  | nil => simp
  | append_singleton l r =>
    rw [latest_concat]
    cases latest f l with
    | none => simp
    | some b =>
      dsimp only
      split <;> simp

theorem exists_latest {l : List α} {x : α} (hx : x ∈ l) : ∃ r, latest f l = some r := by
  rcases h : latest f l with _ | r
  · rw [latest_eq_none] at h
    simp [h] at hx
  · exact ⟨r, rfl⟩

/-- The latest row of a list of images is the image of the latest row. -/
theorem latest_map {β : Type*} {f' : β → τ} {l : List α} (g : α → β)
    (hg : ∀ x ∈ l, f' (g x) = f x) : latest f' (l.map g) = (latest f l).map g := by
  rcases h : latest f l with _ | r
  · rw [latest_eq_none] at h
    simp [h]
  · obtain ⟨l₁, l₂, rfl, hle, hlt⟩ := (latest_eq_some f).mp h
    rw [Option.map_some, latest_eq_some]
    refine ⟨l₁.map g, l₂.map g, by simp, ?_, ?_⟩ <;> intro x hx <;>
      obtain ⟨y, hy, rfl⟩ := List.mem_map.mp hx
    · rw [hg y (by simp [hy]), hg r (by simp)]
      exact hle y hy
    · rw [hg y (by simp [hy]), hg r (by simp)]
      exact hlt y hy

/-- Dropping rows other than the latest one leaves it the latest. -/
theorem latest_filter {l : List α} {r : α} (p : α → Bool) (h : latest f l = some r)
    (hp : p r = true) : latest f (l.filter p) = some r := by
  obtain ⟨l₁, l₂, rfl, hle, hlt⟩ := (latest_eq_some f).mp h
  rw [latest_eq_some]
  refine ⟨l₁.filter p, l₂.filter p, by simp [hp], ?_, ?_⟩ <;> intro x hx
  · exact hle x (List.mem_of_mem_filter hx)
  · exact hlt x (List.mem_of_mem_filter hx)

/-- The later one of two rows, the second on a tie. -/
def later (a b : Option α) : Option α :=
  match a, b with
  | none, b => b
  | some a, none => some a
  | some a, some b => if f a ≤ f b then some b else some a

theorem latest_append (l l' : List α) :
    latest f (l ++ l') = later f (latest f l) (latest f l') := by
  induction l' using List.reverseRecOn with
  | nil =>
    rw [List.append_nil, latest_nil]
    cases latest f l <;> rfl
  | append_singleton l' r ih =>
    rw [← List.append_assoc, latest_concat, latest_concat, ih]
    rcases latest f l with _ | a <;> rcases latest f l' with _ | b <;> simp only [later]
    -- three rows in the order of their times
    by_cases hab : f a ≤ f b <;> by_cases hbr : f b ≤ f r <;>
      by_cases har : f a ≤ f r <;> simp only [hab, hbr, har, if_true, if_false]
    · exact absurd (hab.trans hbr) har
    · exact absurd (le_trans har (not_le.mp hbr).le) hab

theorem latest_cons (x : α) (l : List α) :
    latest f (x :: l) = later f (some x) (latest f l) :=
  latest_append f [x] l

/-- Where no two entries share a time, the latest one does not depend on the order. -/
theorem latest_perm {l l' : List α} (h : l.Perm l')
    (hinj : ∀ x ∈ l, ∀ y ∈ l, f x = f y → x = y) : latest f l = latest f l' := by
  rcases hr : latest f l with _ | r
  · rw [latest_eq_none] at hr
    subst hr
    rw [List.nil_perm.mp h]
    rfl
  · obtain ⟨r', hr'⟩ := exists_latest f (h.mem_iff.mp (latest_mem f hr))
    have hmem' := h.mem_iff.mpr (latest_mem f hr')
    have hle : f r ≤ f r' := le_latest f hr' (h.mem_iff.mp (latest_mem f hr))
    have hge : f r' ≤ f r := le_latest f hr hmem'
    rw [hr', hinj r (latest_mem f hr) r' hmem' (le_antisymm hle hge)]

/-- The latest row of a list that has a first one. -/
def latestFrom (a : α) (l : List α) : α :=
  l.foldl (fun best r => if f best ≤ f r then r else best) a

@[simp] theorem latestFrom_nil (a : α) : latestFrom f a [] = a := rfl

@[simp] theorem latestFrom_cons (a r : α) (l : List α) :
    latestFrom f a (r :: l) = latestFrom f (if f a ≤ f r then r else a) l := rfl

theorem latestFrom_append (a : α) (l l' : List α) :
    latestFrom f a (l ++ l') = latestFrom f (latestFrom f a l) l' := List.foldl_append

theorem latest_cons_eq_latestFrom (a : α) (l : List α) :
    latest f (a :: l) = some (latestFrom f a l) := by
  induction l using List.reverseRecOn with
  | nil => rfl
  | append_singleton l r ih =>
    rw [← List.cons_append, latest_concat, ih, latestFrom_append]
    exact (apply_ite some _ _ _).symm

/-- The first one, unless the latest of the others is as late. -/
theorem latestFrom_eq (a : α) (l : List α) :
    latestFrom f a l = (latest f l).elim a (fun r => if f a ≤ f r then r else a) := by
  have hcons := latest_cons f a l
  rw [latest_cons_eq_latestFrom] at hcons
  rcases hl : latest f l with _ | r
  · rw [hl] at hcons
    exact Option.some_inj.mp hcons
  · rw [hl] at hcons
    exact Option.some_inj.mp (hcons.trans (apply_ite some _ _ _).symm)

theorem latestFrom_perm {l l' : List α} (a : α) (h : l.Perm l')
    (hinj : ∀ x ∈ l, ∀ y ∈ l, f x = f y → x = y) : latestFrom f a l = latestFrom f a l' := by
  rw [latestFrom_eq, latestFrom_eq, latest_perm f h hinj]

/-- The latest row is the last of the rows that are as late. -/
theorem latest_eq_getLast?_filter {l : List α} {T : τ} (hle : ∀ x ∈ l, f x ≤ T)
    (hex : ∃ x ∈ l, f x = T) : latest f l = (l.filter (fun x => f x = T)).getLast? := by
  obtain ⟨x, hx, hT⟩ := hex
  obtain ⟨r, hr⟩ := exists_latest f hx
  have hrT : f r = T :=
    le_antisymm (hle r (latest_mem f hr)) (hT ▸ le_latest f hr hx)
  obtain ⟨l₁, l₂, rfl, -, hlt⟩ := (latest_eq_some f).mp hr
  have hafter : l₂.filter (fun x => f x = T) = [] :=
    List.filter_eq_nil_iff.mpr fun x hx => by simpa using (hrT ▸ hlt x hx).ne
  rw [hr, List.filter_append, List.filter_cons_of_pos (by simpa using hrT), hafter,
    List.getLast?_append]
  rfl

end Latest

/-! ## Ordering by a term and then by a text -/

section ThenText

variable {α τ : Type*} [LinearOrder τ] {f : α → τ} {g : α → String}

/-- `ORDER BY f, g`. -/
def termThenText (f : α → τ) (g : α → String) (a b : α) : Bool :=
  decide (f a < f b) || (decide (f a = f b) && decide (g a ≤ g b))

theorem termThenText_iff {a b : α} :
    termThenText f g a b = true ↔ f a < f b ∨ f a = f b ∧ g a ≤ g b := by
  rw [termThenText, Bool.or_eq_true, Bool.and_eq_true, decide_eq_true_eq, decide_eq_true_eq,
    decide_eq_true_eq]

theorem termThenText_total (a b : α) : termThenText f g a b || termThenText f g b a := by
  rw [Bool.or_eq_true, termThenText_iff, termThenText_iff]
  rcases lt_trichotomy (f a) (f b) with hlt | heq | hlt
  · exact Or.inl (Or.inl hlt)
  · exact (String.le_total (g a) (g b)).imp (fun hle => Or.inr ⟨heq, hle⟩)
      fun hle => Or.inr ⟨heq.symm, hle⟩
  · exact Or.inr (Or.inl hlt)

theorem termThenText_trans (a b c : α) (hab : termThenText f g a b)
    (hbc : termThenText f g b c) : termThenText f g a c := by
  rw [termThenText_iff] at hab hbc ⊢
  rcases hab with hab | ⟨hab, hga⟩
  · exact Or.inl (hbc.elim (lt_trans hab) fun h => h.1 ▸ hab)
  · rcases hbc with hbc | ⟨hbc, hgb⟩
    · exact Or.inl (hab ▸ hbc)
    · exact Or.inr ⟨hab.trans hbc, String.le_trans hga hgb⟩

/-- Only rows with one text tie. -/
theorem termThenText_antisymm {a b : α} (hab : termThenText f g a b)
    (hba : termThenText f g b a) : g a = g b := by
  rw [termThenText_iff] at hab hba
  rcases hab with hab | ⟨heq, hab⟩
  · rcases hba with hba | ⟨heq, -⟩
    · exact absurd (lt_trans hab hba) (lt_irrefl _)
    · exact absurd (heq ▸ hab) (lt_irrefl _)
  · rcases hba with hba | ⟨-, hba⟩
    · exact absurd (heq ▸ hba) (lt_irrefl _)
    · exact String.le_antisymm hab hba

end ThenText

/-! ## Ordering by a term and then by row -/

section ThenRow

variable {α τ : Type*} [LinearOrder τ] (f : α → τ)

/-- `SELECT … ORDER BY f, rowid`, of rows in row order. -/
def orderByThenRow (l : List α) : List α := l.insertionSort (fun a b => f a ≤ f b)

theorem perm_orderByThenRow (l : List α) : (orderByThenRow f l).Perm l :=
  List.perm_insertionSort _ l

theorem pairwise_orderByThenRow (l : List α) :
    (orderByThenRow f l).Pairwise (fun a b => f a ≤ f b) := by
  have : Std.Total (fun a b => f a ≤ f b) := ⟨fun a b => le_total (f a) (f b)⟩
  have : IsTrans α (fun a b => f a ≤ f b) := ⟨fun _ _ _ => le_trans⟩
  exact List.pairwise_insertionSort _ l

theorem orderByThenRow_of_pairwise {l : List α} (h : l.Pairwise (fun a b => f a ≤ f b)) :
    orderByThenRow f l = l := h.insertionSort_eq

/-- Rows that tie stay in row order. -/
theorem filter_orderByThenRow (l : List α) (t : τ) :
    (orderByThenRow f l).filter (fun a => f a = t) = l.filter (fun a => f a = t) := by
  have htied : (l.filter (fun a => f a = t)).Pairwise (fun a b => f a ≤ f b) := by
    refine List.pairwise_of_forall_mem_list fun a ha b hb => ?_
    have hat : f a = t := by simpa using List.of_mem_filter ha
    have hbt : f b = t := by simpa using List.of_mem_filter hb
    rw [hat, hbt]
  have hsublist : (l.filter (fun a => f a = t)).Sublist (orderByThenRow f l) :=
    List.sublist_insertionSort htied List.filter_sublist
  have hkept := hsublist.filter (fun a => f a = t)
  rw [List.filter_filter] at hkept
  simp only [Bool.and_self] at hkept
  have hlength : (l.filter (fun a => f a = t)).length
      = ((orderByThenRow f l).filter (fun a => f a = t)).length :=
    (((List.perm_insertionSort _ l).filter _).length_eq).symm
  exact (hkept.eq_of_length hlength).symm

theorem filter_orderedInsert (p : α → Bool) (a : α) {l : List α}
    (hl : l.Pairwise (fun a b => f a ≤ f b)) :
    (l.orderedInsert (fun a b => f a ≤ f b) a).filter p
      = if p a then (l.filter p).orderedInsert (fun a b => f a ≤ f b) a else l.filter p := by
  induction l with
  | nil =>
    simp only [List.orderedInsert, List.filter_nil, List.filter_cons]
  | cons b l ih =>
    obtain ⟨hb, hl⟩ := List.pairwise_cons.mp hl
    rw [List.orderedInsert]
    by_cases hab : f a ≤ f b
    · -- `a` comes before everything that is left
      have hall : ∀ c ∈ (b :: l).filter p, f a ≤ f c := by
        intro c hc
        rcases List.mem_cons.mp (List.mem_of_mem_filter hc) with rfl | hc
        · exact hab
        · exact hab.trans (hb c hc)
      rw [if_pos hab, List.filter_cons]
      refine if_congr Iff.rfl ?_ rfl
      cases hkept : (b :: l).filter p with
      | nil => rfl
      | cons c kept =>
        rw [List.orderedInsert, if_pos (hall c (hkept ▸ List.mem_cons_self))]
    · rw [if_neg hab, List.filter_cons, List.filter_cons, ih hl]
      by_cases hp : p b
      · rw [if_pos hp, if_pos hp, List.orderedInsert, if_neg hab]
        split <;> rfl
      · rw [if_neg hp, if_neg hp]

/-- Rows that are filtered out leave the order of the others. -/
theorem orderByThenRow_filter (p : α → Bool) (l : List α) :
    orderByThenRow f (l.filter p) = (orderByThenRow f l).filter p := by
  induction l with
  | nil => rfl
  | cons a l ih =>
    have hsorted := pairwise_orderByThenRow f l
    unfold orderByThenRow at hsorted ih ⊢
    rw [List.insertionSort_cons, filter_orderedInsert f p a hsorted, List.filter_cons]
    by_cases hp : p a
    · rw [if_pos hp, if_pos hp, List.insertionSort_cons, ih]
    · rw [if_neg hp, if_neg hp, ih]

end ThenRow

end Relational
