import Mathlib.Algebra.BigOperators.Group.List.Lemmas
import Mathlib.Algebra.Ring.Nat
import Mathlib.Data.List.Dedup
import Mathlib.Data.List.Lex
import OmarchyWhatsapp.Relational.Order

/-!
# Pages and groups

A page is the end of the rows in their order, which a query takes with `LIMIT` from the rows in
reverse. `GROUP BY` gives one group for each value of a term. What a query returns for many owners
is collected for each of them; which rows an owner gets, and in which order, does not depend on
the rows of the others.
-/

namespace Relational

variable {α β κ : Type}

namespace QueryPlan

variable (plan : QueryPlan) {le : α → α → Bool}

/-- Rows in another order, where only a row itself ties with a row. -/
theorem orderBy_perm (htot : ∀ a b, le a b || le b a)
    (htrans : ∀ a b c, le a b → le b c → le a c) {l l' : List α} (hperm : l.Perm l')
    (hties : ∀ a ∈ l, ∀ b ∈ l, le a b → le b a → a = b) :
    plan.orderBy le l = plan.orderBy le l' :=
  plan.orderBy_eq htot htrans (hperm.trans (plan.perm le l').symm) hties
    (plan.sorted le htot htrans l')

/-- The rows of one owner are in their order, however the others tie. -/
theorem filter_orderBy (htot : ∀ a b, le a b || le b a)
    (htrans : ∀ a b c, le a b → le b c → le a c) {l : List α} (p : α → Bool)
    (hties : ∀ a ∈ l.filter p, ∀ b ∈ l.filter p, le a b → le b a → a = b) :
    (plan.orderBy le l).filter p = plan.orderBy le (l.filter p) :=
  (plan.orderBy_eq htot htrans ((plan.perm le l).symm.filter p) hties
    ((plan.sorted le htot htrans l).filter p)).symm

end QueryPlan

/-! ## Pages -/

section Pages

variable {τ : Type} [LinearOrder τ] (f : α → τ)

/-- `ORDER BY f ASC, rowid ASC`, of rows with their numbers. -/
def oldestFirst (a b : α × ℕ) : Bool :=
  decide (f a.1 < f b.1) || (decide (f a.1 = f b.1) && decide (a.2 ≤ b.2))

/-- `ORDER BY f DESC, rowid DESC`. -/
def newestFirst (a b : α × ℕ) : Bool := oldestFirst f b a

theorem oldestFirst_iff {a b : α × ℕ} :
    oldestFirst f a b = true ↔ f a.1 < f b.1 ∨ f a.1 = f b.1 ∧ a.2 ≤ b.2 := by
  rw [oldestFirst, Bool.or_eq_true, Bool.and_eq_true, decide_eq_true_eq, decide_eq_true_eq,
    decide_eq_true_eq]

theorem oldestFirst_total (a b : α × ℕ) : oldestFirst f a b || oldestFirst f b a := by
  rw [Bool.or_eq_true, oldestFirst_iff, oldestFirst_iff]
  rcases lt_trichotomy (f a.1) (f b.1) with hlt | heq | hlt
  · exact Or.inl (Or.inl hlt)
  · exact (Nat.le_total a.2 b.2).imp (fun hle => Or.inr ⟨heq, hle⟩)
      fun hle => Or.inr ⟨heq.symm, hle⟩
  · exact Or.inr (Or.inl hlt)

theorem oldestFirst_trans (a b c : α × ℕ) (hab : oldestFirst f a b) (hbc : oldestFirst f b c) :
    oldestFirst f a c := by
  rw [oldestFirst_iff] at hab hbc ⊢
  rcases hab with hab | ⟨hab, hrow⟩
  · exact Or.inl (hbc.elim (lt_trans hab) fun h => h.1 ▸ hab)
  · rcases hbc with hbc | ⟨hbc, hrow'⟩
    · exact Or.inl (hab ▸ hbc)
    · exact Or.inr ⟨hab.trans hbc, hrow.trans hrow'⟩

/-- Only one row ties with a row. -/
theorem oldestFirst_ties {l : List α} {p : α × ℕ → Bool} : ∀ a ∈ l.zipIdx.filter p,
    ∀ b ∈ l.zipIdx.filter p, oldestFirst f a b → oldestFirst f b a → a = b := by
  intro a ha b hb hab hba
  have hrow : a.2 = b.2 := by
    rw [oldestFirst_iff] at hab hba
    rcases hab with hab | ⟨heq, hab⟩
    · rcases hba with hba | ⟨heq, -⟩
      · exact absurd (lt_trans hab hba) (lt_irrefl _)
      · exact absurd (heq ▸ hab) (lt_irrefl _)
    · rcases hba with hba | ⟨-, hba⟩
      · exact absurd (heq ▸ hba) (lt_irrefl _)
      · omega
  have hanumber := List.mem_zipIdx_iff_getElem?.mp (List.mem_of_mem_filter ha)
  have hbnumber := List.mem_zipIdx_iff_getElem?.mp (List.mem_of_mem_filter hb)
  rw [hrow, hbnumber] at hanumber
  exact Prod.ext (Option.some.inj hanumber).symm hrow

/-- The newest `n` rows that match, the oldest of them first: `ORDER BY f DESC, rowid DESC LIMIT n`
under `ORDER BY f ASC, rowid ASC`. -/
def page (plan : QueryPlan) (p : α → Bool) (n : ℕ) (l : List α) : List α :=
  (plan.orderBy (oldestFirst f)
    ((plan.orderBy (newestFirst f) (l.zipIdx.filter (fun r => p r.1))).take n)).map (·.1)

theorem newestFirst_eq_reverse (plan : QueryPlan) (l : List α) (p : α × ℕ → Bool) :
    plan.orderBy (newestFirst f) (l.zipIdx.filter p)
      = (plan.orderBy (oldestFirst f) (l.zipIdx.filter p)).reverse := by
  refine plan.orderBy_eq (fun a b => oldestFirst_total f b a)
    (fun a b c hab hbc => oldestFirst_trans f c b a hbc hab)
    ((plan.perm _ _).symm.trans (List.reverse_perm _).symm)
    (fun a ha b hb hab hba => oldestFirst_ties f a ha b hb hba hab) ?_
  rw [List.pairwise_reverse]
  exact plan.sorted (oldestFirst f) (oldestFirst_total f) (oldestFirst_trans f) _

/-- A row that comes before the others ties before them. -/
theorem pairwise_orderedInsert {a : α × ℕ} {l : List (α × ℕ)} (hrow : ∀ b ∈ l, a.2 < b.2)
    (hl : l.Pairwise (oldestFirst f · ·)) :
    (l.orderedInsert (fun a b => f a.1 ≤ f b.1) a).Pairwise (oldestFirst f · ·) := by
  induction l with
  | nil => exact List.pairwise_singleton _ _
  | cons b l ih =>
    obtain ⟨hb, hl⟩ := List.pairwise_cons.mp hl
    rw [List.orderedInsert]
    split
    · rename_i hab
      refine List.pairwise_cons.mpr ⟨fun c hc => ?_, List.pairwise_cons.mpr ⟨hb, hl⟩⟩
      have hac : f a.1 ≤ f c.1 := by
        rcases List.mem_cons.mp hc with rfl | hc
        · exact hab
        · exact hab.trans (((oldestFirst_iff f).mp (hb c hc)).elim le_of_lt fun h => h.1.le)
      exact (oldestFirst_iff f).mpr (hac.lt_or_eq.imp_right fun heq => ⟨heq, (hrow c hc).le⟩)
    · rename_i hab
      refine List.pairwise_cons.mpr ⟨fun c hc => ?_, ih (fun c hc =>
        hrow c (List.mem_cons_of_mem _ hc)) hl⟩
      rcases (List.mem_orderedInsert _).mp hc with rfl | hc
      · exact (oldestFirst_iff f).mpr (Or.inl (not_le.mp hab))
      · exact hb c hc

theorem pairwise_orderByThenRow_rows {l : List (α × ℕ)} (hrows : l.Pairwise (·.2 < ·.2)) :
    (orderByThenRow (fun r => f r.1) l).Pairwise (oldestFirst f · ·) := by
  induction l with
  | nil => exact List.Pairwise.nil
  | cons a l ih =>
    obtain ⟨ha, hrows⟩ := List.pairwise_cons.mp hrows
    unfold orderByThenRow at ih ⊢
    rw [List.insertionSort_cons]
    exact pairwise_orderedInsert f (fun b hb => ha b ((List.mem_insertionSort _).mp hb)) (ih hrows)

/-- The order of the numbered rows is the one by a term and then by row. -/
theorem orderBy_oldestFirst (plan : QueryPlan) (p : α → Bool) (l : List α) :
    (plan.orderBy (oldestFirst f) (l.zipIdx.filter (fun r => p r.1))).map (·.1)
      = orderByThenRow f (l.filter p) := by
  have hrows : (l.zipIdx.filter (fun r => p r.1)).Pairwise (·.2 < ·.2) := by
    have hnumbers : (l.zipIdx.map (·.2)).Pairwise (· < ·) := by
      rw [List.zipIdx_map_snd]
      exact List.pairwise_lt_range'
    exact (List.pairwise_map.mp hnumbers).filter _
  have horder := plan.orderBy_eq (oldestFirst_total f) (oldestFirst_trans f)
    (perm_orderByThenRow (fun r : α × ℕ => f r.1) _).symm (oldestFirst_ties f)
    (pairwise_orderByThenRow_rows f hrows)
  have hmatches : (l.zipIdx.filter (fun r => p r.1)).map (·.1) = l.filter p := by
    rw [show l.filter p = (l.zipIdx.map (·.1)).filter p by rw [List.zipIdx_map_fst]]
    exact List.filter_map.symm
  rw [horder, ← hmatches]
  exact List.map_insertionSort _ _ _ _ fun a _ b _ => Iff.rfl

/-- A page is the end of the rows in their order. -/
theorem page_eq_drop (plan : QueryPlan) (p : α → Bool) (n : ℕ) (l : List α) :
    page f plan p n l = (orderByThenRow f (l.filter p)).drop ((l.filter p).length - n) := by
  have hlength : (plan.orderBy (oldestFirst f) (l.zipIdx.filter (fun r => p r.1))).length
      = (l.filter p).length := by
    rw [← (perm_orderByThenRow f (l.filter p)).length_eq, ← orderBy_oldestFirst f plan,
      List.length_map]
  have hties := oldestFirst_ties f (l := l) (p := fun r => p r.1)
  have hsorted := plan.sorted (oldestFirst f) (oldestFirst_total f) (oldestFirst_trans f)
    (l.zipIdx.filter (fun r => p r.1))
  have hmem := fun a => (plan.perm (oldestFirst f) (l.zipIdx.filter (fun r => p r.1))).mem_iff
    (a := a)
  rw [page, newestFirst_eq_reverse, ← orderBy_oldestFirst f plan]
  generalize plan.orderBy (oldestFirst f) (l.zipIdx.filter (fun r => p r.1)) = sorted
    at hlength hsorted hmem ⊢
  rw [List.take_reverse, hlength, plan.orderBy_eq (oldestFirst_total f) (oldestFirst_trans f)
    (List.reverse_perm _) _ (hsorted.drop), List.map_drop]
  intro a ha b hb
  have hdropped : ∀ c ∈ (sorted.drop ((l.filter p).length - n)).reverse,
      c ∈ l.zipIdx.filter (fun r => p r.1) := fun c hc =>
    (hmem c).mp (List.mem_of_mem_drop (List.mem_reverse.mp hc))
  exact hties a (hdropped a ha) b (hdropped b hb)

end Pages

/-! ## Groups -/

variable [DecidableEq κ]

/-- `GROUP BY f`: the values of the term, with the rows that have them. -/
def groupBy (f : α → κ) (l : List α) : List (κ × List α) :=
  (l.map f).dedup.map fun k => (k, l.filter (fun a => f a = k))

theorem groupBy_keys (f : α → κ) (l : List α) : (groupBy f l).map (·.1) = (l.map f).dedup := by
  rw [groupBy, List.map_map]
  exact List.map_id _

theorem mem_groupBy {f : α → κ} {l : List α} {g : κ × List α} :
    g ∈ groupBy f l ↔ g.2 = l.filter (fun a => f a = g.1) ∧ ∃ a ∈ l, f a = g.1 := by
  rw [groupBy, List.mem_map]
  constructor
  · rintro ⟨k, hk, rfl⟩
    exact ⟨rfl, List.mem_map.mp (List.mem_dedup.mp hk)⟩
  · intro h
    exact ⟨g.1, List.mem_dedup.mpr (List.mem_map.mpr h.2), Prod.ext rfl h.1.symm⟩

theorem nodup_groupBy (f : α → κ) (l : List α) : (groupBy f l).Nodup := by
  refine List.Nodup.of_map (·.1) ?_
  rw [groupBy_keys]
  exact List.nodup_dedup _

/-- Each row is in one group. -/
theorem sum_length_groupBy (f : α → κ) (l : List α) :
    ((groupBy f l).map (·.2.length)).sum = l.length := by
  have hcount : ∀ k, (l.filter (fun a => f a = k)).length = (l.map f).count k := by
    intro k
    rw [List.count, List.countP_map, List.countP_eq_length_filter]
    rfl
  rw [groupBy, List.map_map]
  show ((l.map f).dedup.map (fun k => (l.filter (fun a => f a = k)).length)).sum = _
  simp only [hcount]
  rw [List.sum_map_count_dedup_eq_length, List.length_map]

/-- The groups of one owner are the groups of its rows. -/
theorem groupBy_filter_perm (f : α → κ) (p : κ → Bool) (l : List α) :
    ((groupBy f l).filter (fun g => p g.1)).Perm (groupBy f (l.filter (fun a => p (f a)))) := by
  refine (List.perm_ext_iff_of_nodup ((nodup_groupBy f l).filter _) (nodup_groupBy f _)).mpr ?_
  intro g
  rw [List.mem_filter, mem_groupBy, mem_groupBy]
  have hrows : p g.1 = true → (l.filter (fun a => p (f a))).filter (fun a => f a = g.1)
      = l.filter (fun a => f a = g.1) := by
    intro hp
    rw [List.filter_filter]
    refine List.filter_congr fun a _ => ?_
    by_cases ha : f a = g.1
    · simp [ha, hp]
    · simp [ha]
  constructor
  · rintro ⟨⟨hg, a, ha, hkey⟩, hp⟩
    exact ⟨hg.trans (hrows hp).symm, a, List.mem_filter.mpr ⟨ha, hkey ▸ hp⟩, hkey⟩
  · rintro ⟨hg, a, ha, hkey⟩
    obtain ⟨ha, hp⟩ := List.mem_filter.mp ha
    have hp : p g.1 = true := hkey ▸ hp
    exact ⟨⟨hg.trans (hrows hp), a, ha, hkey⟩, hp⟩

/-! ## What is collected for each owner -/

/-- `map.entry(owner).or_default().push(value)`, of a map that has nothing where it has no
entry. -/
def pushEntry (m : κ → List β) (entry : κ × β) : κ → List β :=
  fun k => if k = entry.1 then m k ++ [entry.2] else m k

/-- `map.remove(owner)`. -/
def removeEntry (m : κ → List β) (owner : κ) : κ → List β :=
  fun k => if k = owner then [] else m k

/-- What is left when these owners have been removed. -/
def without (m : κ → List β) (owners : List κ) : κ → List β :=
  fun k => if k ∈ owners then [] else m k

theorem without_nil (m : κ → List β) (k : κ) : without m [] k = m k := if_neg List.not_mem_nil

theorem without_removeEntry (m : κ → List β) (owner : κ) (owners : List κ) (k : κ) :
    without (removeEntry m owner) owners k = without m (owner :: owners) k := by
  unfold without removeEntry
  by_cases hk : k = owner
  · simp [hk]
  · simp [hk]

def collect (entries : List (κ × β)) : κ → List β := entries.foldl pushEntry (fun _ => [])

theorem foldl_pushEntry (entries : List (κ × β)) (m : κ → List β) (k : κ) :
    entries.foldl pushEntry m k
      = m k ++ (entries.filter (fun e => e.1 = k)).map (·.2) := by
  induction entries generalizing m with
  | nil => exact (List.append_nil _).symm
  | cons e entries ih =>
    rw [List.foldl_cons, ih, pushEntry, List.filter_cons]
    by_cases hk : k = e.1
    · subst hk
      simp
    · simp [hk, Ne.symm hk]

/-- An owner has its own entries, in their order. -/
theorem collect_eq (entries : List (κ × β)) (k : κ) :
    collect entries k = (entries.filter (fun e => e.1 = k)).map (·.2) :=
  (foldl_pushEntry entries _ k).trans (List.nil_append _)

end Relational
