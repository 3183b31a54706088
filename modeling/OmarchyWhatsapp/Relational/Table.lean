import Mathlib.Data.List.Nodup
import Mathlib.Data.List.Perm.Basic
import Mathlib.Tactic.Common

/-!
# Tables with a primary key

A table is the list of its rows in insertion order (`rowid` order), together with the
proof that no two rows share a primary key. The write statements of SQL are operations
on tables, so a table with a duplicate key cannot be built:

* `deleteWhere`, `updateWhere`: `DELETE … WHERE`, `UPDATE … WHERE`;
* `insertOrIgnore`: `INSERT OR IGNORE`;
* `upsert`: `INSERT … ON CONFLICT(key) DO UPDATE`;
* `insertSelect`: `INSERT … SELECT … ON CONFLICT(key) DO UPDATE`;
* `relocate`: rows inserted again under another key and deleted under their own;
* `updateOrIgnore`: `UPDATE OR IGNORE`, an update that may change the key.

Every operation comes with what it does to a lookup by key (`find?`) or to the rows.
-/

namespace Relational

/-- A table: its rows in insertion order, no two with the same primary key. -/
structure Table (ρ : Type*) {κ : Type*} (key : ρ → κ) where
  rows : List ρ
  nodup : (rows.map key).Nodup

namespace Table

variable {ρ κ : Type*} {key : ρ → κ}

instance : EmptyCollection (Table ρ key) := ⟨⟨[], List.nodup_nil⟩⟩

@[ext] theorem ext {t t' : Table ρ key} (h : t.rows = t'.rows) : t = t' := by
  cases t; cases t'; congr

/-- A primary key names at most one row. -/
theorem key_inj (t : Table ρ key) {r r' : ρ} (hr : r ∈ t.rows) (hr' : r' ∈ t.rows)
    (h : key r = key r') : r = r' :=
  List.inj_on_of_nodup_map t.nodup hr hr' h

/-! ## Deleting and updating rows -/

/-- `DELETE FROM t WHERE p`. -/
def deleteWhere (t : Table ρ key) (p : ρ → Bool) : Table ρ key :=
  ⟨t.rows.filter (fun r => !p r), (List.filter_sublist.map key).nodup t.nodup⟩

@[simp] theorem rows_deleteWhere (t : Table ρ key) (p : ρ → Bool) :
    (t.deleteWhere p).rows = t.rows.filter (fun r => !p r) := rfl

theorem mem_deleteWhere {t : Table ρ key} {p : ρ → Bool} {r : ρ} :
    r ∈ (t.deleteWhere p).rows ↔ r ∈ t.rows ∧ p r = false := by
  simp [deleteWhere]

/-- A deletion that deletes no more than a later one can be left out. -/
theorem deleteWhere_deleteWhere {t : Table ρ key} {p q : ρ → Bool}
    (h : ∀ r ∈ t.rows, q r = false → p r = false) :
    (t.deleteWhere p).deleteWhere q = t.deleteWhere q := by
  refine ext ?_
  rw [rows_deleteWhere, rows_deleteWhere, rows_deleteWhere, List.filter_filter]
  refine List.filter_congr fun r hr => ?_
  cases hq : q r with
  | false => rw [h r hr hq]; rfl
  | true => rfl

/-- `UPDATE t SET f WHERE p`, for an assignment that leaves the key columns alone. -/
def updateWhere (t : Table ρ key) (p : ρ → Bool) (f : ρ → ρ)
    (hf : ∀ r, key (f r) = key r := by intro _; rfl) : Table ρ key :=
  ⟨t.rows.map (fun r => if p r then f r else r), by
    have hk : (t.rows.map (fun r => if p r then f r else r)).map key = t.rows.map key := by
      rw [List.map_map]
      refine List.map_congr_left fun r _ => ?_
      simp only [Function.comp]
      split
      · exact hf r
      · rfl
    rw [hk]
    exact t.nodup⟩

@[simp] theorem rows_updateWhere (t : Table ρ key) (p : ρ → Bool) (f : ρ → ρ)
    (hf : ∀ r, key (f r) = key r) :
    (t.updateWhere p f hf).rows = t.rows.map (fun r => if p r then f r else r) := rfl

theorem mem_updateWhere {t : Table ρ key} {p : ρ → Bool} {f : ρ → ρ}
    {hf : ∀ r, key (f r) = key r} {r : ρ} :
    r ∈ (t.updateWhere p f hf).rows ↔ ∃ r₀ ∈ t.rows, (if p r₀ then f r₀ else r₀) = r := by
  simp [updateWhere]

/-- The rows an update matches, when it goes on matching them. -/
theorem filter_updateWhere (t : Table ρ key) (p : ρ → Bool) (f : ρ → ρ)
    (hf : ∀ r, key (f r) = key r) (hp : ∀ r, p (f r) = p r) :
    (t.updateWhere p f hf).rows.filter p = (t.rows.filter p).map f := by
  rw [rows_updateWhere]
  induction t.rows with
  | nil => rfl
  | cons r rows ih =>
    rw [List.map_cons, List.filter_cons, List.filter_cons, ih]
    cases hr : p r with
    | false => simp [hr]
    | true => simp [hp, hr]

variable [DecidableEq κ]

instance [DecidableEq ρ] : DecidableEq (Table ρ key) := fun t t' =>
  decidable_of_iff (t.rows = t'.rows) ⟨Table.ext, fun h => h ▸ rfl⟩

/-! ## Lookup by key -/

/-- `SELECT … FROM t WHERE key = k`. -/
def find? (t : Table ρ key) (k : κ) : Option ρ :=
  t.rows.find? (fun r => key r = k)

theorem find?_eq_some {t : Table ρ key} {k : κ} {r : ρ} :
    t.find? k = some r ↔ r ∈ t.rows ∧ key r = k := by
  constructor
  · intro h
    exact ⟨List.mem_of_find?_eq_some h, by simpa using List.find?_some h⟩
  · rintro ⟨hr, rfl⟩
    rcases hf : t.find? (key r) with _ | r'
    · have := List.find?_eq_none.mp hf r hr
      simp at this
    · have hk : key r' = key r := by simpa using List.find?_some hf
      rw [t.key_inj (List.mem_of_find?_eq_some hf) hr hk]

theorem find?_eq_none {t : Table ρ key} {k : κ} :
    t.find? k = none ↔ ∀ r ∈ t.rows, key r ≠ k := by
  simp [find?]

theorem find?_of_mem {t : Table ρ key} {r : ρ} (h : r ∈ t.rows) : t.find? (key r) = some r :=
  find?_eq_some.mpr ⟨h, rfl⟩

theorem mem_of_find? {t : Table ρ key} {k : κ} {r : ρ} (h : t.find? k = some r) : r ∈ t.rows :=
  (find?_eq_some.mp h).1

theorem key_of_find? {t : Table ρ key} {k : κ} {r : ρ} (h : t.find? k = some r) : key r = k :=
  (find?_eq_some.mp h).2

/-- Two maps that agree on the rows of the key agree on its row. -/
theorem map_find?_congr {α : Type*} {t : Table ρ key} {k : κ} {f g : ρ → α}
    (h : ∀ r, key r = k → f r = g r) : (t.find? k).map f = (t.find? k).map g := by
  rcases hrow : t.find? k with _ | r
  · rfl
  · rw [Option.map_some, Option.map_some, h r (key_of_find? hrow)]

/-- The rows of one key. -/
theorem filter_key (t : Table ρ key) (k : κ) :
    t.rows.filter (fun r => key r = k) = (t.find? k).toList := by
  obtain ⟨rows, hnodup⟩ := t
  unfold find?
  induction rows with
  | nil => rfl
  | cons r rows ih =>
    rw [List.map_cons, List.nodup_cons] at hnodup
    by_cases h : key r = k
    · have hnil : rows.filter (fun r => key r = k) = [] := by
        refine List.filter_eq_nil_iff.mpr fun x hx => ?_
        rw [decide_eq_true_eq]
        rintro rfl
        exact hnodup.1 (h ▸ List.mem_map_of_mem hx)
      simp [h, hnil]
    · simpa [h] using ih hnodup.2

/-- Deleting the row of a key. -/
theorem find?_deleteWhere_key (t : Table ρ key) (k x : κ) :
    (t.deleteWhere (fun r => key r = k)).find? x = if x = k then none else t.find? x := by
  ext r
  rw [find?_eq_some, mem_deleteWhere, decide_eq_false_iff_not]
  split
  · rename_i h
    simpa using fun _ hr hx => hr (hx.trans h)
  · rename_i h
    rw [find?_eq_some]
    exact ⟨fun hr => ⟨hr.1.1, hr.2⟩, fun hr => ⟨⟨hr.1, fun hk => h (hr.2 ▸ hk)⟩, hr.2⟩⟩

theorem find?_deleteWhere (t : Table ρ key) (p : ρ → Bool) (k : κ) :
    (t.deleteWhere p).find? k = (t.find? k).filter (fun r => !p r) := by
  ext r
  rw [find?_eq_some, mem_deleteWhere, Option.filter_eq_some_iff, find?_eq_some]
  simp only [Bool.not_eq_true']
  tauto

theorem find?_updateWhere (t : Table ρ key) (p : ρ → Bool) (f : ρ → ρ)
    (hf : ∀ r, key (f r) = key r) (k : κ) :
    (t.updateWhere p f hf).find? k = (t.find? k).map (fun r => if p r then f r else r) := by
  have hkey : ∀ r, key (if p r then f r else r) = key r := by
    intro r
    split
    · exact hf r
    · rfl
  ext r
  rw [find?_eq_some, mem_updateWhere, Option.map_eq_some_iff]
  constructor
  · rintro ⟨⟨r₀, hr₀, rfl⟩, hk⟩
    exact ⟨r₀, find?_eq_some.mpr ⟨hr₀, by rw [← hk, hkey]⟩, rfl⟩
  · rintro ⟨r₀, hr₀, rfl⟩
    obtain ⟨hmem, hk⟩ := find?_eq_some.mp hr₀
    exact ⟨⟨r₀, hmem, rfl⟩, by rw [hkey, hk]⟩

/-! ## Inserting one row -/

/-- A row whose key is new goes to the end of the table. -/
def append (t : Table ρ key) (r : ρ) (h : t.find? (key r) = none) : Table ρ key :=
  ⟨t.rows ++ [r], by
    rw [List.map_append, List.nodup_append]
    refine ⟨t.nodup, by simp, ?_⟩
    intro a ha b hb
    obtain ⟨x, hx, rfl⟩ := List.mem_map.mp ha
    rw [List.map_singleton, List.mem_singleton] at hb
    subst hb
    exact find?_eq_none.mp h x hx⟩

/-- `INSERT OR IGNORE INTO t VALUES r`. -/
def insertOrIgnore (t : Table ρ key) (r : ρ) : Table ρ key :=
  if h : t.find? (key r) = none then t.append r h else t

theorem rows_insertOrIgnore (t : Table ρ key) (r : ρ) :
    (t.insertOrIgnore r).rows = if t.find? (key r) = none then t.rows ++ [r] else t.rows := by
  unfold insertOrIgnore
  split <;> rfl

theorem mem_insertOrIgnore {t : Table ρ key} {r x : ρ} :
    x ∈ (t.insertOrIgnore r).rows ↔ x ∈ t.rows ∨ (x = r ∧ t.find? (key r) = none) := by
  rw [rows_insertOrIgnore]
  split <;> simp [*]

theorem find?_insertOrIgnore (t : Table ρ key) (r : ρ) (k : κ) :
    (t.insertOrIgnore r).find? k
      = if k = key r then some ((t.find? k).getD r) else t.find? k := by
  rcases hk : t.find? k with _ | x
  · split
    · subst k
      exact find?_eq_some.mpr ⟨mem_insertOrIgnore.mpr (Or.inr ⟨rfl, hk⟩), rfl⟩
    · rename_i hne
      refine find?_eq_none.mpr fun y hy => ?_
      rcases mem_insertOrIgnore.mp hy with hy | ⟨rfl, -⟩
      · exact find?_eq_none.mp hk y hy
      · exact fun h => hne h.symm
  · have hx := find?_eq_some.mp hk
    have : (t.insertOrIgnore r).find? k = some x :=
      find?_eq_some.mpr ⟨mem_insertOrIgnore.mpr (Or.inl hx.1), hx.2⟩
    rw [this]
    split <;> rfl

/-- `INSERT INTO t VALUES r ON CONFLICT(key) DO UPDATE`: `merge` takes the stored row and
the one proposed for insertion (SQL's `excluded`). -/
def upsert (t : Table ρ key) (r : ρ) (merge : ρ → ρ → ρ)
    (hm : ∀ old new, key (merge old new) = key old := by intro _ _; rfl) : Table ρ key :=
  if h : t.find? (key r) = none then t.append r h
  else t.updateWhere (fun x => key x = key r) (fun x => merge x r) (fun x => hm x r)

theorem rows_upsert (t : Table ρ key) (r : ρ) (merge : ρ → ρ → ρ)
    (hm : ∀ old new, key (merge old new) = key old) :
    (t.upsert r merge hm).rows
      = if t.find? (key r) = none then t.rows ++ [r]
        else t.rows.map (fun x => if key x = key r then merge x r else x) := by
  unfold upsert
  split
  · rfl
  · simp [updateWhere]

theorem find?_upsert (t : Table ρ key) (r : ρ) (merge : ρ → ρ → ρ)
    (hm : ∀ old new, key (merge old new) = key old) (k : κ) :
    (t.upsert r merge hm).find? k
      = if k = key r then some ((t.find? k).elim r (fun x => merge x r)) else t.find? k := by
  by_cases h : t.find? (key r) = none
  · have hrows : t.upsert r merge hm = t.insertOrIgnore r := by
      rw [upsert, insertOrIgnore, dif_pos h, dif_pos h]
    rw [hrows, find?_insertOrIgnore]
    split
    · subst k
      rw [h]
      rfl
    · rfl
  · rw [upsert, dif_neg h, find?_updateWhere]
    rcases hk : t.find? k with _ | x
    · rw [if_neg]
      · rfl
      · rintro rfl
        exact h hk
    · have hx := (find?_eq_some.mp hk).2
      simp only [Option.map_some, hx, decide_eq_true_eq, Option.elim_some]
      split <;> rfl

/-- An upsert whose merge gives the stored row writes nothing. -/
theorem upsert_eq_self {t : Table ρ key} {r old : ρ} (merge : ρ → ρ → ρ)
    (hm : ∀ old new, key (merge old new) = key old) (hold : t.find? (key r) = some old)
    (hmerge : merge old r = old) : t.upsert r merge hm = t := by
  have hsome : t.find? (key r) ≠ none := hold ▸ Option.some_ne_none old
  refine ext ?_
  rw [rows_upsert, if_neg hsome]
  conv_rhs => rw [← List.map_id t.rows]
  refine List.map_congr_left fun x hx => ?_
  split
  · rename_i hk
    rw [← hk, find?_of_mem hx, Option.some.injEq] at hold
    subst hold
    exact hmerge
  · rfl

/-! ## Inserting the rows of a query -/

/-- `INSERT INTO t SELECT src ON CONFLICT(key) DO UPDATE`, row by row. -/
def insertSelect (t : Table ρ key) (src : List ρ) (merge : ρ → ρ → ρ)
    (hm : ∀ old new, key (merge old new) = key old := by intro _ _; rfl) : Table ρ key :=
  src.foldl (fun t r => t.upsert r merge hm) t

/-- What a row already stored becomes when `src` is inserted. -/
def absorb (key : ρ → κ) (src : List ρ) (merge : ρ → ρ → ρ) (r : ρ) : ρ :=
  (src.find? (fun a => key a = key r)).elim r (merge r)

theorem key_absorb {merge : ρ → ρ → ρ} (hm : ∀ old new, key (merge old new) = key old)
    (src : List ρ) (r : ρ) : key (absorb key src merge r) = key r := by
  unfold absorb
  cases src.find? (fun a => key a = key r) with
  | none => rfl
  | some a => exact hm r a

/-- A stored row stays as it is, or merges with the one inserted row of its key. -/
theorem absorb_cases (key : ρ → κ) (src : List ρ) (merge : ρ → ρ → ρ) (r : ρ) :
    (absorb key src merge r = r ∧ ∀ a ∈ src, key a ≠ key r) ∨
      ∃ a ∈ src, key a = key r ∧ absorb key src merge r = merge r a := by
  unfold absorb
  rcases h : src.find? (fun a => key a = key r) with _ | a
  · exact Or.inl ⟨rfl, fun a ha => by simpa using List.find?_eq_none.mp h a ha⟩
  · exact Or.inr ⟨a, List.mem_of_find?_eq_some h, by simpa using List.find?_some h, rfl⟩

/-- Rows with distinct keys, inserted one after the other: each stored row absorbs the
inserted row of its key, and the rows with a new key follow in the order of the query. -/
theorem rows_insertSelect (t : Table ρ key) (src : List ρ) (merge : ρ → ρ → ρ)
    (hm : ∀ old new, key (merge old new) = key old) (hsrc : (src.map key).Nodup) :
    (t.insertSelect src merge hm).rows
      = t.rows.map (absorb key src merge)
        ++ src.filter (fun a => t.find? (key a) = none) := by
  induction src generalizing t with
  | nil =>
    have hid : absorb key [] merge = id := rfl
    simp [insertSelect, hid]
  | cons r src ih =>
    rw [List.map_cons, List.nodup_cons] at hsrc
    have hfresh : ∀ a ∈ src, key a ≠ key r := fun a ha hk =>
      hsrc.1 (hk ▸ List.mem_map_of_mem ha)
    have hstep : t.insertSelect (r :: src) merge hm
        = (t.upsert r merge hm).insertSelect src merge hm := rfl
    -- the rows still to come have other keys, so the first row does not decide their fate
    have htail : src.filter (fun a => (t.upsert r merge hm).find? (key a) = none)
        = src.filter (fun a => t.find? (key a) = none) := by
      refine List.filter_congr fun a ha => ?_
      rw [find?_upsert, if_neg (hfresh a ha)]
    have habs : ∀ x : ρ, key x ≠ key r →
        absorb key (r :: src) merge x = absorb key src merge x := by
      intro x hx
      unfold absorb
      rw [List.find?_cons_of_neg (by simpa using fun h => hx h.symm)]
    have hhit : ∀ x : ρ, key x = key r →
        absorb key (r :: src) merge x = merge x r ∧ absorb key src merge (merge x r) = merge x r ∧
          absorb key src merge x = x := by
      intro x hx
      have hnone : ∀ y : ρ, key y = key r → src.find? (fun a => key a = key y) = none := by
        intro y hy
        refine List.find?_eq_none.mpr fun a ha => ?_
        simpa [hy] using hfresh a ha
      refine ⟨?_, ?_, ?_⟩ <;> unfold absorb
      · rw [List.find?_cons_of_pos (by simpa using hx.symm)]
        rfl
      · rw [hnone _ ((hm x r).trans hx)]
        rfl
      · rw [hnone _ hx]
        rfl
    rw [hstep, ih _ hsrc.2, htail, rows_upsert]
    split
    · -- the key is new: the row is appended
      rename_i h
      have hne := find?_eq_none.mp h
      rw [List.map_append, List.map_singleton, (hhit r rfl).2.2, List.append_assoc,
        List.filter_cons_of_pos (by simpa using h)]
      congr 1
      exact List.map_congr_left fun x hx => (habs x (hne x hx)).symm
    · -- the key is taken: its row absorbs the new one
      rename_i h
      rw [List.filter_cons_of_neg (by simpa using h), List.map_map]
      congr 1
      refine List.map_congr_left fun x _ => ?_
      simp only [Function.comp]
      split
      · rename_i hk
        rw [(hhit x hk).1, (hhit x hk).2.1]
      · rename_i hk
        exact (habs x hk).symm

/-- A key gets the row that is inserted for it, merged into the row it had. -/
theorem find?_insertSelect (t : Table ρ key) (src : List ρ) (merge : ρ → ρ → ρ)
    (hm : ∀ old new, key (merge old new) = key old) (hsrc : (src.map key).Nodup) (k : κ) :
    (t.insertSelect src merge hm).find? k
      = (src.find? (fun a => key a = k)).elim (t.find? k)
          (fun a => some ((t.find? k).elim a (fun r => merge r a))) := by
  induction src generalizing t with
  | nil => rfl
  | cons r src ih =>
    rw [List.map_cons, List.nodup_cons] at hsrc
    have hstep : t.insertSelect (r :: src) merge hm
        = (t.upsert r merge hm).insertSelect src merge hm := rfl
    rw [hstep, ih _ hsrc.2, find?_upsert]
    by_cases hk : key r = k
    · -- no later row has this key
      subst hk
      have hnone : src.find? (fun a => key a = key r) = none :=
        List.find?_eq_none.mpr fun a ha => by
          simpa using fun heq : key a = key r => hsrc.1 (heq ▸ List.mem_map_of_mem ha)
      rw [hnone, if_pos rfl, List.find?_cons_of_pos (by simp)]
      rfl
    · rw [if_neg (Ne.symm hk), List.find?_cons_of_neg (by simpa using hk)]

/-! ## Moving rows to another key -/

/-- `INSERT INTO t SELECT f FROM t WHERE p ON CONFLICT(key) DO UPDATE`, followed by
`DELETE FROM t WHERE p`. The rows are inserted in the order in which the query finds them. -/
def relocate (t : Table ρ key) (order : List ρ → List ρ) (p : ρ → Bool) (f : ρ → ρ)
    (merge : ρ → ρ → ρ) (hm : ∀ old new, key (merge old new) = key old := by intro _ _; rfl) :
    Table ρ key :=
  (t.insertSelect ((order (t.rows.filter p)).map f) merge hm).deleteWhere p

section Relocate

variable {t : Table ρ key} {order : List ρ → List ρ} {p : ρ → Bool} {f : ρ → ρ}
  {merge : ρ → ρ → ρ} {hm : ∀ old new, key (merge old new) = key old}

omit [DecidableEq κ] in
/-- The moved rows keep distinct keys. -/
theorem nodup_moved (horder : ∀ l, (order l).Perm l)
    (hinj : ∀ a b, p a = true → p b = true → key (f a) = key (f b) → key a = key b) :
    (((order (t.rows.filter p)).map f).map key).Nodup := by
  rw [List.map_map]
  refine (List.Perm.nodup_iff ((horder _).map _)).mpr ?_
  have hnodup : (t.rows.filter p).Nodup := (List.Nodup.of_map key t.nodup).filter p
  refine (List.nodup_map_iff_inj_on hnodup).mpr fun a ha b hb hab => ?_
  rw [List.mem_filter] at ha hb
  exact t.key_inj ha.1 hb.1 (hinj a b ha.2 hb.2 hab)

theorem rows_relocate (horder : ∀ l, (order l).Perm l)
    (hinj : ∀ a b, p a = true → p b = true → key (f a) = key (f b) → key a = key b)
    (hf : ∀ r, p r = true → p (f r) = false) (hp : ∀ old new, p (merge old new) = p old) :
    (t.relocate order p f merge hm).rows
      = (t.rows.filter (fun r => !p r)).map
          (absorb key ((order (t.rows.filter p)).map f) merge)
        ++ ((order (t.rows.filter p)).map f).filter (fun a => t.find? (key a) = none) := by
  have habs : ∀ r, p (absorb key ((order (t.rows.filter p)).map f) merge r) = p r := by
    intro r
    rcases absorb_cases key ((order (t.rows.filter p)).map f) merge r with
      ⟨h, -⟩ | ⟨a, -, -, h⟩
    · rw [h]
    · rw [h, hp]
  rw [relocate, rows_deleteWhere, rows_insertSelect t _ merge hm (nodup_moved horder hinj),
    List.filter_append, List.filter_map]
  congr 1
  · exact congrArg _ (List.filter_congr fun r _ => by simp only [Function.comp, habs])
  · refine List.filter_eq_self.mpr fun a ha => ?_
    obtain ⟨r, hr, rfl⟩ := List.mem_map.mp (List.mem_of_mem_filter ha)
    have hpr := (List.mem_filter.mp ((horder _).mem_iff.mp hr)).2
    rw [hf r hpr]
    rfl

/-- A row after the move: one that stayed, alone or merged with the moved row of its key,
or a moved row whose key was free. -/
theorem mem_relocate (horder : ∀ l, (order l).Perm l)
    (hinj : ∀ a b, p a = true → p b = true → key (f a) = key (f b) → key a = key b)
    (hf : ∀ r, p r = true → p (f r) = false) (hp : ∀ old new, p (merge old new) = p old)
    {x : ρ} :
    x ∈ (t.relocate order p f merge hm).rows ↔
      (x ∈ t.rows ∧ p x = false ∧ ∀ a ∈ t.rows, p a = true → key (f a) ≠ key x) ∨
      (∃ r ∈ t.rows, ∃ a ∈ t.rows, p r = false ∧ p a = true ∧ key (f a) = key r ∧
        merge r (f a) = x) ∨
      (∃ a ∈ t.rows, p a = true ∧ (∀ r ∈ t.rows, key r ≠ key (f a)) ∧ f a = x) := by
  have hmoved : ∀ a, a ∈ (order (t.rows.filter p)).map f ↔ ∃ r ∈ t.rows, p r = true ∧ f r = a := by
    intro a
    simp only [List.mem_map, (horder _).mem_iff, List.mem_filter, and_assoc]
  rw [rows_relocate horder hinj hf hp, List.mem_append, List.mem_map, List.mem_filter]
  simp only [List.mem_filter, decide_eq_true_eq, find?_eq_none, Bool.not_eq_true']
  constructor
  · rintro (⟨r, ⟨hr, hpr⟩, rfl⟩ | ⟨hx, hfree⟩)
    · rcases absorb_cases key ((order (t.rows.filter p)).map f) merge r with
        ⟨h, hno⟩ | ⟨a, ha, hk, h⟩
      · rw [h]
        exact Or.inl ⟨hr, hpr, fun a ha hpa => hno _ ((hmoved _).mpr ⟨a, ha, hpa, rfl⟩)⟩
      · obtain ⟨b, hb, hpb, rfl⟩ := (hmoved a).mp ha
        exact Or.inr (Or.inl ⟨r, hr, b, hb, hpr, hpb, hk, h.symm⟩)
    · obtain ⟨a, ha, hpa, rfl⟩ := (hmoved x).mp hx
      exact Or.inr (Or.inr ⟨a, ha, hpa, hfree, rfl⟩)
  · rintro (⟨hx, hpx, hno⟩ | ⟨r, hr, a, ha, hpr, hpa, hk, rfl⟩ | ⟨a, ha, hpa, hfree, rfl⟩)
    · refine Or.inl ⟨x, ⟨hx, hpx⟩, ?_⟩
      rcases absorb_cases key ((order (t.rows.filter p)).map f) merge x with
        ⟨h, -⟩ | ⟨a, ha, hk, -⟩
      · exact h
      · obtain ⟨b, hb, hpb, rfl⟩ := (hmoved a).mp ha
        exact absurd hk (hno b hb hpb)
    · refine Or.inl ⟨r, ⟨hr, hpr⟩, ?_⟩
      rcases absorb_cases key ((order (t.rows.filter p)).map f) merge r with
        ⟨-, hno⟩ | ⟨b, hb, hkb, h⟩
      · exact absurd hk (hno _ ((hmoved _).mpr ⟨a, ha, hpa, rfl⟩))
      · obtain ⟨c, hc, hpc, rfl⟩ := (hmoved b).mp hb
        rw [h, t.key_inj hc ha (hinj c a hpc hpa (hkb.trans hk.symm))]
    · exact Or.inr ⟨(hmoved _).mpr ⟨a, ha, hpa, rfl⟩, hfree⟩

/-- The row that `f` moves to the key `k`, where `k₀` is the key it comes from. -/
theorem find?_source (horder : ∀ l, (order l).Perm l) {k₀ k : κ}
    (hfrom : ∀ r, p r = true → (key (f r) = k ↔ key r = k₀)) (hp₀ : ∀ r, key r = k₀ → p r = true) :
    (order (t.rows.filter p)).find? (fun r => key (f r) = k) = t.find? k₀ := by
  have hmem : ∀ r, r ∈ order (t.rows.filter p) ↔ r ∈ t.rows ∧ p r = true := fun r => by
    rw [(horder _).mem_iff, List.mem_filter]
  rcases hrow : t.find? k₀ with _ | r₀
  · rw [find?_eq_none] at hrow
    refine List.find?_eq_none.mpr fun r hr => ?_
    obtain ⟨hr, hpr⟩ := (hmem r).mp hr
    simpa [hfrom r hpr] using hrow r hr
  · obtain ⟨hr₀, hk₀⟩ := find?_eq_some.mp hrow
    have hex : ((order (t.rows.filter p)).find? (fun r => key (f r) = k)).isSome = true := by
      have hp := hp₀ r₀ hk₀
      rw [List.find?_isSome]
      exact ⟨r₀, (hmem r₀).mpr ⟨hr₀, hp⟩, by simpa [hfrom r₀ hp] using hk₀⟩
    obtain ⟨r, hfound⟩ := Option.isSome_iff_exists.mp hex
    obtain ⟨hr, hpr⟩ := (hmem r).mp (List.mem_of_find?_eq_some hfound)
    have hk : key r = k₀ := (hfrom r hpr).mp (by simpa using List.find?_some hfound)
    rw [hfound, t.key_inj hr hr₀ (hk.trans hk₀.symm)]

/-- After a move a key has its own row and the one that was moved there, merged. -/
theorem find?_relocate (horder : ∀ l, (order l).Perm l)
    (hinj : ∀ a b, p a = true → p b = true → key (f a) = key (f b) → key a = key b)
    {k₀ k : κ} (hk : ∀ r, key r = k → p r = false)
    (hfrom : ∀ r, p r = true → (key (f r) = k ↔ key r = k₀)) (hp₀ : ∀ r, key r = k₀ → p r = true) :
    (t.relocate order p f merge hm).find? k
      = (t.find? k₀).elim (t.find? k)
          (fun a => some ((t.find? k).elim (f a) (fun r => merge r (f a)))) := by
  have hinserted := find?_insertSelect t _ merge hm (nodup_moved (t := t) horder hinj) k
  rw [List.find?_map, Function.comp_def, find?_source horder hfrom hp₀] at hinserted
  rw [relocate, find?_deleteWhere, hinserted]
  have hkeep : ∀ o : Option ρ, (∀ r ∈ o, key r = k) → o.filter (fun r => !p r) = o := by
    intro o ho
    rcases o with _ | r
    · rfl
    · rw [Option.filter_some_pos]
      simp [hk r (ho r rfl)]
  refine (hkeep _ ?_).trans ?_
  · intro r hr
    rw [← hinserted] at hr
    exact key_of_find? hr
  · cases t.find? k₀ <;> rfl

/-- A key that no row is moved to keeps its row, unless that row moves away. -/
theorem find?_relocate_of_ne (horder : ∀ l, (order l).Perm l)
    (hinj : ∀ a b, p a = true → p b = true → key (f a) = key (f b) → key a = key b)
    {k : κ} (hk : ∀ r, p r = true → key (f r) ≠ k) :
    (t.relocate order p f merge hm).find? k = (t.find? k).filter (fun r => !p r) := by
  have hinserted := find?_insertSelect t _ merge hm (nodup_moved (t := t) horder hinj) k
  have hnone : ((order (t.rows.filter p)).map f).find? (fun a => key a = k) = none := by
    refine List.find?_eq_none.mpr fun a ha => ?_
    obtain ⟨r, hr, rfl⟩ := List.mem_map.mp ha
    simpa using hk r (List.mem_filter.mp ((horder _).mem_iff.mp hr)).2
  rw [hnone] at hinserted
  rw [relocate, find?_deleteWhere, hinserted]
  rfl

end Relocate

/-! ## Updates that change the key -/

/-- Row `r` becomes `r'`, whose key is free. -/
def rekey (t : Table ρ key) (r r' : ρ) (h : t.find? (key r') = none) : Table ρ key :=
  ⟨t.rows.map (fun x => if key x = key r then r' else x), by
    have hfree := find?_eq_none.mp h
    rw [List.map_map, List.nodup_map_iff_inj_on (List.Nodup.of_map key t.nodup)]
    intro x hx y hy hxy
    simp only [Function.comp] at hxy
    split at hxy <;> split at hxy
    · rename_i hxr hyr
      exact t.key_inj hx hy (hxr.trans hyr.symm)
    · exact absurd hxy.symm (hfree y hy)
    · exact absurd hxy (hfree x hx)
    · exact t.key_inj hx hy hxy⟩

/-- `UPDATE OR IGNORE t SET f WHERE p`: a row whose new key is taken stays as it is. -/
def updateOrIgnore (t : Table ρ key) (p : ρ → Bool) (f : ρ → ρ) : Table ρ key :=
  (t.rows.filter p).foldl
    (fun t r => if h : t.find? (key (f r)) = none then t.rekey r (f r) h else t) t

theorem find?_rekey (t : Table ρ key) {r r' : ρ} (hr : r ∈ t.rows) (h : t.find? (key r') = none)
    (k : κ) : (t.rekey r r' h).find? k
      = if k = key r' then some r' else if k = key r then none else t.find? k := by
  have hfree := find?_eq_none.mp h
  have hmem : ∀ x, x ∈ (t.rekey r r' h).rows ↔ x = r' ∨ (x ∈ t.rows ∧ key x ≠ key r) := by
    intro x
    rw [show (t.rekey r r' h).rows = t.rows.map (fun x => if key x = key r then r' else x) from rfl,
      List.mem_map]
    constructor
    · rintro ⟨y, hy, rfl⟩
      by_cases hyr : key y = key r
      · rw [if_pos hyr]
        exact Or.inl rfl
      · rw [if_neg hyr]
        exact Or.inr ⟨hy, hyr⟩
    · rintro (rfl | ⟨hx, hxr⟩)
      · exact ⟨r, hr, if_pos rfl⟩
      · exact ⟨x, hx, if_neg hxr⟩
  split
  · rename_i hk
    rw [find?_eq_some]
    exact ⟨(hmem r').mpr (Or.inl rfl), hk.symm⟩
  · rename_i hk
    ext x
    rw [find?_eq_some, hmem]
    split
    · rename_i hkr
      constructor
      · rintro ⟨rfl | ⟨-, hxr⟩, hxk⟩
        · exact absurd hxk.symm hk
        · exact absurd (hxk.trans hkr) hxr
      · intro hx
        cases hx
    · rename_i hkr
      rw [find?_eq_some]
      constructor
      · rintro ⟨rfl | ⟨hx, -⟩, hxk⟩
        · exact absurd hxk.symm hk
        · exact ⟨hx, hxk⟩
      · rintro ⟨hx, hxk⟩
        exact ⟨Or.inr ⟨hx, fun hxr => hkr (hxk.symm.trans hxr)⟩, hxk⟩

section UpdateOrIgnore

variable {p : ρ → Bool} {f : ρ → ρ}

/-- A key that no updated row had gets the row that is updated to it, unless it has one. -/
theorem find?_foldl_rekey {t : Table ρ key} {l : List ρ} {k : κ} (hl : ∀ r ∈ l, r ∈ t.rows)
    (hdistinct : (l.map key).Nodup) (hmoved : (l.map (fun r => key (f r))).Nodup)
    (hapart : ∀ r ∈ l, ∀ r' ∈ l, key (f r) ≠ key r') (hk : ∀ r ∈ l, key r ≠ k) :
    (l.foldl (fun t r => if h : t.find? (key (f r)) = none then t.rekey r (f r) h else t) t).find? k
      = (l.find? (fun r => key (f r) = k)).elim (t.find? k)
          (fun r => some ((t.find? k).getD (f r))) := by
  induction l generalizing t with
  | nil => rfl
  | cons r l ih =>
    rw [List.map_cons, List.nodup_cons] at hdistinct hmoved
    have hr := hl r List.mem_cons_self
    -- the table after the first row, at every other key
    have hstep : ∀ x, x ≠ key r →
        (if h : t.find? (key (f r)) = none then t.rekey r (f r) h else t).find? x
          = if x = key (f r) then some ((t.find? x).getD (f r)) else t.find? x := by
      intro x hx
      split
      · rename_i hnone
        rw [find?_rekey t hr hnone, if_neg hx]
        split
        · rename_i heq
          rw [heq, hnone]
          rfl
        · rfl
      · rename_i hsome
        split
        · rename_i heq
          rw [heq]
          obtain ⟨y, hy⟩ := Option.ne_none_iff_exists'.mp hsome
          rw [hy]
          rfl
        · rfl
    have hrest : ∀ r' ∈ l, r' ∈
        (if h : t.find? (key (f r)) = none then t.rekey r (f r) h else t).rows := by
      intro r' hr'
      have hne : key r' ≠ key r := fun heq => hdistinct.1 (heq ▸ List.mem_map_of_mem hr')
      have hfound := hstep (key r') hne
      rw [if_neg (Ne.symm (hapart r List.mem_cons_self r' (List.mem_cons_of_mem _ hr'))),
        find?_of_mem (hl r' (List.mem_cons_of_mem _ hr'))] at hfound
      exact mem_of_find? hfound
    rw [List.foldl_cons, ih hrest hdistinct.2 hmoved.2
      (fun a ha b hb => hapart a (List.mem_cons_of_mem _ ha) b (List.mem_cons_of_mem _ hb))
      (fun a ha => hk a (List.mem_cons_of_mem _ ha)),
      hstep k (Ne.symm (hk r List.mem_cons_self))]
    by_cases hfr : key (f r) = k
    · have hnone : l.find? (fun r => key (f r) = k) = none :=
        List.find?_eq_none.mpr fun a ha => by
          simpa using fun heq : key (f a) = k =>
            hmoved.1 (hfr ▸ heq ▸ List.mem_map_of_mem (f := fun r => key (f r)) ha)
      rw [hnone, if_pos hfr.symm, List.find?_cons_of_pos (by simpa using hfr)]
      rfl
    · rw [if_neg (Ne.symm hfr), List.find?_cons_of_neg (by simpa using hfr)]

variable (t : Table ρ key)
  (hinj : ∀ a b, p a = true → p b = true → key (f a) = key (f b) → key a = key b)
  (hapart : ∀ a b, p a = true → p b = true → key (f a) ≠ key b)

include hinj hapart in
theorem find?_updateOrIgnore {k : κ} (hk : ∀ r, key r = k → p r = false) :
    (t.updateOrIgnore p f).find? k
      = ((t.rows.filter p).find? (fun r => key (f r) = k)).elim (t.find? k)
          (fun r => some ((t.find? k).getD (f r))) := by
  have hmoved : (((id (t.rows.filter p)).map f).map key).Nodup :=
    nodup_moved (fun l => List.Perm.refl l) hinj
  rw [id, List.map_map] at hmoved
  refine find?_foldl_rekey (fun r hr => List.mem_of_mem_filter hr)
    ((List.filter_sublist.map key).nodup t.nodup) hmoved (fun a ha b hb => ?_) fun r hr heq => ?_
  · exact hapart a b (List.mem_filter.mp ha).2 (List.mem_filter.mp hb).2
  · simpa [hk r heq] using (List.mem_filter.mp hr).2

include hinj hapart in
/-- `UPDATE OR IGNORE` followed by the deletion of the rows it left: a key keeps its own row,
or gets the one that was updated to it. -/
theorem find?_updateOrIgnore_deleteWhere {k₀ k : κ} (hk : ∀ r, key r = k → p r = false)
    (hf : ∀ r, p r = true → p (f r) = false)
    (hfrom : ∀ r, p r = true → (key (f r) = k ↔ key r = k₀)) (hp₀ : ∀ r, key r = k₀ → p r = true) :
    ((t.updateOrIgnore p f).deleteWhere p).find? k
      = (t.find? k).or ((t.find? k₀).map f) := by
  have hsource : (id (t.rows.filter p)).find? (fun r => key (f r) = k) = t.find? k₀ :=
    find?_source (fun l => List.Perm.refl l) hfrom hp₀
  rw [id] at hsource
  rw [find?_deleteWhere, find?_updateOrIgnore t hinj hapart hk, hsource]
  rcases hrow : t.find? k₀ with _ | a <;> rcases hown : t.find? k with _ | r
  · rfl
  · have hpr := hk r (key_of_find? hown)
    simp [hpr]
  · have hpa := hf a (hp₀ a (key_of_find? hrow))
    simp [hpa]
  · have hpr := hk r (key_of_find? hown)
    simp [hpr]

include hinj hapart in
/-- A key that no row is updated to keeps its row, unless that row is deleted. -/
theorem find?_updateOrIgnore_deleteWhere_of_ne {k : κ} (hk : ∀ r, key r = k → p r = false)
    (hto : ∀ r, p r = true → key (f r) ≠ k) :
    ((t.updateOrIgnore p f).deleteWhere p).find? k = t.find? k := by
  have hnone : (t.rows.filter p).find? (fun r => key (f r) = k) = none :=
    List.find?_eq_none.mpr fun r hr => by simpa using hto r (List.mem_filter.mp hr).2
  rw [find?_deleteWhere, find?_updateOrIgnore t hinj hapart hk, hnone]
  rcases hown : t.find? k with _ | r
  · rfl
  · have hpr := hk r (key_of_find? hown)
    simp [hpr]

end UpdateOrIgnore

end Table
end Relational
