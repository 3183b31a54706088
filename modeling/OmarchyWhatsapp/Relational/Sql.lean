import Mathlib.Data.Int.Notation
import Mathlib.Data.List.Basic
import Mathlib.Logic.Function.Basic
import Mathlib.Tactic.Common
import OmarchyWhatsapp.Relational.Fallible

/-!
# Databases whose schema is data

A database as SQL statements see it: tables with the columns they were declared with, indexes on
them, and a version number that the application keeps. The statements check what the engine
checks (a table or a column that is missing, `NOT NULL`, a primary key, a foreign key where these
are enforced) and fail without an effect.

A row gives a value to every name; the values under names that are not columns of its table are
never read. `J` are the documents that a text column can hold, in decoded form.
-/

namespace Relational

inductive SqlValue (J : Type) where
  | null
  | integer (n : ℤ)
  | text (s : String)
  | blob (b : List UInt8)
  | json (document : J)
deriving DecidableEq, Repr

abbrev SqlRow (J : Type) := String → SqlValue J

structure SqlColumn (J : Type) where
  name : String
  notNull : Bool := false
  default : SqlValue J := .null

/-- `FOREIGN KEY (column) REFERENCES target(targetColumn)`. -/
structure SqlReference where
  column : String
  target : String
  targetColumn : String

structure SqlTable (J : Type) where
  columns : List (SqlColumn J)
  primaryKey : List String
  reference : Option SqlReference := none
  rows : List (SqlRow J) := []

/-- An index and the table it is on. -/
structure SqlIndex where
  table : String
  columns : List String

structure SqlDatabase (J : Type) where
  userVersion : ℤ := 0
  tables : String → Option (SqlTable J) := fun _ => none
  indexes : String → Option SqlIndex := fun _ => none

variable {J : Type}

/-! ## Values -/

namespace SqlValue

/-- `a = b` holds; with a `NULL` it does not. -/
def eq [DecidableEq J] (a b : SqlValue J) : Bool := a != .null && a == b

/-- `a != b` holds. -/
def ne [DecidableEq J] (a b : SqlValue J) : Bool := a != .null && b != .null && a != b

/-- `COALESCE(a, b)`. -/
def coalesce : SqlValue J → SqlValue J → SqlValue J
  | .null, b => b
  | a, _ => a

/-- `TRIM(a) = ''` holds. SQL trims spaces only. -/
def isBlank : SqlValue J → Bool
  | .text s => s.toList.all (· == ' ')
  | _ => false

/-- The classes of values, in their order. -/
def rank : SqlValue J → ℕ
  | .null => 0
  | .integer _ => 1
  | .text _ | .json _ => 2
  | .blob _ => 3

/-- The order in which a query sorts. Documents are no sort keys and tie. -/
def sortLe : SqlValue J → SqlValue J → Bool
  | .integer a, .integer b => decide (a ≤ b)
  | .text a, .text b => decide (a ≤ b)
  | .blob a, .blob b => decide (a ≤ b)
  | a, b => decide (a.rank ≤ b.rank)

/-- `a <= b` holds. -/
def le [DecidableEq J] (a b : SqlValue J) : Bool := a != .null && b != .null && sortLe a b

/-- `a < b` holds. -/
def lt [DecidableEq J] (a b : SqlValue J) : Bool := a != .null && b != .null && !sortLe b a

end SqlValue

/-- `SET column = v`. -/
def SqlRow.set (r : SqlRow J) (column : String) (v : SqlValue J) : SqlRow J := fun name =>
  if name = column then v else r name

@[simp] theorem SqlRow.set_self (r : SqlRow J) (column : String) (v : SqlValue J) :
    r.set column v column = v := if_pos rfl

theorem SqlRow.set_of_ne (r : SqlRow J) {column name : String} (v : SqlValue J)
    (h : name ≠ column) : r.set column v name = r name := if_neg h

/-! ## Tables -/

namespace SqlTable

def hasColumn (t : SqlTable J) (column : String) : Bool := t.columns.any (·.name == column)

/-- A statement that names a column the table does not have is refused. -/
def requireColumns (t : SqlTable J) (columns : List String) : Except String Unit :=
  match columns.find? (fun c => !t.hasColumn c) with
  | some c => .error ("no such column: " ++ c)
  | none => .ok ()

/-- The row has a value where the table demands one. -/
def admits [DecidableEq J] (t : SqlTable J) (r : SqlRow J) : Bool :=
  t.columns.all (fun c => !c.notNull || r c.name != .null)

/-- The update leaves no value out where the table demands one; it looks at what it sets. -/
def admitsUpdate [DecidableEq J] (t : SqlTable J) (old new : SqlRow J) : Bool :=
  t.columns.all (fun c => !c.notNull || new c.name != .null || old c.name == .null)

/-- `UPDATE … SET set WHERE p`; `columns` are the columns that the statement names. -/
def update [DecidableEq J] (t : SqlTable J) (columns : List String) (p : SqlRow J → Bool)
    (set : SqlRow J → SqlRow J) : Except String (SqlTable J) := do
  t.requireColumns columns
  if t.rows.all (fun r => !p r || t.admitsUpdate r (set r)) then
    return { t with rows := t.rows.map (fun r => if p r then set r else r) }
  else
    throw "NOT NULL constraint failed"

/-- `DELETE … WHERE p`. -/
def delete (t : SqlTable J) (columns : List String) (p : SqlRow J → Bool) :
    Except String (SqlTable J) := do
  t.requireColumns columns
  return { t with rows := t.rows.filter (fun r => !p r) }

/-- `ALTER TABLE … ADD COLUMN`. -/
def addColumn (t : SqlTable J) (column : SqlColumn J) : SqlTable J :=
  { t with
    columns := t.columns ++ [column]
    rows := t.rows.map (fun r => r.set column.name column.default) }

/-- The row with a value for each column: those given, and the defaults. -/
def complete (t : SqlTable J) (given : List (String × SqlValue J)) : SqlRow J := fun name =>
  match given.lookup name with
  | some v => v
  | none => ((t.columns.find? (·.name == name)).map (·.default)).getD .null

/-- `ON CONFLICT(columns) DO UPDATE`: the old row and the one that was to be inserted. -/
structure Conflict (J : Type) where
  columns : List String
  merge : SqlRow J → SqlRow J → SqlRow J

/-- `INSERT INTO …`; without a conflict clause a second row of the same key is an error. -/
def insert [DecidableEq J] (t : SqlTable J) (conflict : Option (Conflict J))
    (given : List (String × SqlValue J)) : Except String (SqlTable J) := do
  let r := t.complete given
  let same := fun old : SqlRow J => t.primaryKey.all (fun c => (old c).eq (r c))
  if !t.admits r then
    throw "NOT NULL constraint failed"
  else if !(!t.primaryKey.isEmpty && t.rows.any same) then
    return { t with rows := t.rows ++ [r] }
  else match conflict with
    | none => throw "UNIQUE constraint failed"
    | some c => t.update [] same (fun old => c.merge old r)

end SqlTable

/-! ## Statements -/

namespace SqlDatabase

def table (db : SqlDatabase J) (name : String) : Except String (SqlTable J) :=
  match db.tables name with
  | some t => .ok t
  | none => .error ("no such table: " ++ name)

/-- `SELECT columns FROM name`, in the order of insertion. -/
def select (db : SqlDatabase J) (name : String) (columns : List String) :
    Except String (List (SqlRow J)) := do
  let t ← db.table name
  t.requireColumns columns
  return t.rows

def setTable (db : SqlDatabase J) (name : String) (t : SqlTable J) : SqlDatabase J :=
  { db with tables := Function.update db.tables name (some t) }

/-- A statement that changes one table. -/
def alter (db : SqlDatabase J) (name : String)
    (f : SqlTable J → Except String (SqlTable J)) : Except String (SqlDatabase J) := do
  let t ← db.table name
  return db.setTable name (← f t)

/-- `CREATE TABLE IF NOT EXISTS`. -/
def createTableIfAbsent (db : SqlDatabase J) (name : String) (t : SqlTable J) :
    Except String (SqlDatabase J) :=
  if (db.tables name).isSome then .ok db else .ok (db.setTable name t)

/-- `CREATE TABLE`. -/
def createTable (db : SqlDatabase J) (name : String) (t : SqlTable J) :
    Except String (SqlDatabase J) :=
  if (db.tables name).isSome then .error ("table " ++ name ++ " already exists")
  else .ok (db.setTable name t)

/-- `CREATE INDEX`. -/
def createIndex (db : SqlDatabase J) (name : String) (index : SqlIndex) :
    Except String (SqlDatabase J) := do
  if (db.indexes name).isSome then throw ("index " ++ name ++ " already exists")
  let t ← db.table index.table
  t.requireColumns index.columns
  return { db with indexes := Function.update db.indexes name (some index) }

/-- `CREATE INDEX IF NOT EXISTS`. -/
def createIndexIfAbsent (db : SqlDatabase J) (name : String) (index : SqlIndex) :
    Except String (SqlDatabase J) :=
  if (db.indexes name).isSome then .ok db else db.createIndex name index

/-- `DROP INDEX IF EXISTS`. -/
def dropIndex (db : SqlDatabase J) (name : String) : SqlDatabase J :=
  { db with indexes := Function.update db.indexes name none }

/-- `ALTER TABLE … RENAME TO`; the indexes of the table go with it. -/
def renameTable (db : SqlDatabase J) (name newName : String) : Except String (SqlDatabase J) := do
  let t ← db.table name
  if (db.tables newName).isSome then
    throw ("there is already another table or index with this name: " ++ newName)
  return { db with
    tables := Function.update (Function.update db.tables name none) newName (some t)
    indexes := fun i => (db.indexes i).map
      (fun index => if index.table = name then { index with table := newName } else index) }

/-- `DROP TABLE`, with the indexes of the table. -/
def dropTable (db : SqlDatabase J) (name : String) : Except String (SqlDatabase J) := do
  let _ ← db.table name
  return { db with
    tables := Function.update db.tables name none
    indexes := fun i => (db.indexes i).filter (fun index => index.table != name) }

variable [DecidableEq J]

/-- A row of the table has the row it refers to. -/
def referenceHolds (db : SqlDatabase J) (t : SqlTable J) (r : SqlRow J) : Bool :=
  match t.reference with
  | none => true
  | some ref =>
    let targets := ((db.tables ref.target).map (·.rows)).getD []
    r ref.column == .null ||
      targets.any (fun target => (target ref.targetColumn).eq (r ref.column))

/-- `INSERT INTO name (…) SELECT …`; `foreignKeys` says whether references are enforced. -/
def insertRows (db : SqlDatabase J) (foreignKeys : Bool) (name : String)
    (conflict : Option (SqlTable.Conflict J)) (columns : List String)
    (rows : List (List (String × SqlValue J))) : Except String (SqlDatabase J) :=
  db.alter name fun t => do
    t.requireColumns columns
    if conflict.any (fun c => !c.columns.isPerm t.primaryKey) then
      throw "ON CONFLICT clause does not match any PRIMARY KEY or UNIQUE constraint"
    if foreignKeys && !rows.all (fun r => db.referenceHolds t (t.complete r)) then
      throw "FOREIGN KEY constraint failed"
    rows.foldlM (fun t r => t.insert conflict r) t

end SqlDatabase

/-! ## What a statement that succeeds has done -/

namespace SqlTable

variable {t t' : SqlTable J} {columns : List String}

theorem requireColumns_ok :
    t.requireColumns columns = .ok () ↔ ∀ c ∈ columns, t.hasColumn c = true := by
  unfold requireColumns
  split
  · rename_i c hc
    have hmissing : t.hasColumn c = false := by simpa using List.find?_some hc
    refine iff_of_false (by rintro ⟨⟩) fun h => ?_
    exact absurd (h c (List.mem_of_find?_eq_some hc)) (by simp [hmissing])
  · rename_i hnone
    refine iff_of_true rfl fun c hc => ?_
    simpa using List.find?_eq_none.mp hnone c hc

theorem update_ok [DecidableEq J] {p : SqlRow J → Bool} {set : SqlRow J → SqlRow J}
    (h : t.update columns p set = .ok t') :
    t.requireColumns columns = .ok () ∧
      t' = { t with rows := t.rows.map (fun r => if p r then set r else r) } := by
  obtain ⟨⟨⟩, hcolumns, h⟩ := bind_eq_ok.mp h
  split at h
  · exact ⟨hcolumns, (pure_eq_ok.mp h).symm⟩
  · cases h

end SqlTable

namespace SqlDatabase

variable {db db' : SqlDatabase J} {name : String} {t t' : SqlTable J}

theorem table_ok : db.table name = .ok t ↔ db.tables name = some t := by
  unfold table
  split
  · rename_i t' ht
    rw [ht]
    exact ⟨fun h => congrArg some (Except.ok.inj h),
      fun h => congrArg Except.ok (Option.some.inj h)⟩
  · rename_i hnone
    exact iff_of_false (by rintro ⟨⟩) (by rw [hnone]; rintro ⟨⟩)

theorem select_ok {columns : List String} {rows : List (SqlRow J)} :
    db.select name columns = .ok rows ↔
      ∃ t, db.tables name = some t ∧ t.requireColumns columns = .ok () ∧ t.rows = rows := by
  constructor
  · intro h
    obtain ⟨t, ht, h⟩ := bind_eq_ok.mp h
    obtain ⟨⟨⟩, hcolumns, h⟩ := bind_eq_ok.mp h
    exact ⟨t, table_ok.mp ht, hcolumns, pure_eq_ok.mp h⟩
  · rintro ⟨t, ht, hcolumns, rfl⟩
    exact bind_eq_ok.mpr ⟨t, table_ok.mpr ht, bind_eq_ok.mpr ⟨(), hcolumns, rfl⟩⟩

theorem alter_ok {f : SqlTable J → Except String (SqlTable J)} :
    db.alter name f = .ok db' ↔
      ∃ t t', db.tables name = some t ∧ f t = .ok t' ∧ db.setTable name t' = db' := by
  constructor
  · intro h
    obtain ⟨t, ht, h⟩ := bind_eq_ok.mp h
    obtain ⟨t', ht', h⟩ := bind_eq_ok.mp h
    exact ⟨t, t', table_ok.mp ht, ht', pure_eq_ok.mp h⟩
  · rintro ⟨t, t', ht, hf, rfl⟩
    exact bind_eq_ok.mpr ⟨t, table_ok.mpr ht, bind_eq_ok.mpr ⟨t', hf, rfl⟩⟩

@[simp] theorem setTable_tables_self : (db.setTable name t).tables name = some t :=
  Function.update_self ..

theorem setTable_tables_of_ne {other : String} (h : other ≠ name) :
    (db.setTable name t).tables other = db.tables other :=
  Function.update_of_ne h ..

@[simp] theorem setTable_indexes : (db.setTable name t).indexes = db.indexes := rfl

@[simp] theorem setTable_userVersion : (db.setTable name t).userVersion = db.userVersion := rfl

theorem setTable_self (h : db.tables name = some t) : db.setTable name t = db := by
  unfold setTable
  rw [← h, Function.update_eq_self]

theorem setTable_setTable : (db.setTable name t).setTable name t' = db.setTable name t' := by
  unfold setTable
  rw [Function.update_idem]

theorem isSome_setTable {other : String} (h : (db.tables other).isSome) :
    ((db.setTable name t).tables other).isSome := by
  by_cases hother : other = name
  · rw [hother, setTable_tables_self]
    rfl
  · rwa [setTable_tables_of_ne hother]

theorem createTable_ok (h : db.createTable name t = .ok db') :
    db.tables name = none ∧ db' = db.setTable name t := by
  unfold createTable at h
  split at h
  · cases h
  · rename_i habsent
    exact ⟨by simpa using habsent, (Except.ok.inj h).symm⟩

theorem createIndex_ok {index : SqlIndex} (h : db.createIndex name index = .ok db') :
    db' = { db with indexes := Function.update db.indexes name (some index) } := by
  unfold createIndex at h
  split at h
  · cases h
  · obtain ⟨t, -, h⟩ := bind_eq_ok.mp h
    obtain ⟨-, -, h⟩ := bind_eq_ok.mp h
    exact (pure_eq_ok.mp h).symm

theorem renameTable_ok {newName : String} (h : db.renameTable name newName = .ok db') :
    ∃ t, db.tables name = some t ∧ db.tables newName = none ∧
      db' = { db with
        tables := Function.update (Function.update db.tables name none) newName (some t)
        indexes := fun i => (db.indexes i).map (fun index =>
          if index.table = name then { index with table := newName } else index) } := by
  obtain ⟨t, ht, h⟩ := bind_eq_ok.mp h
  split at h
  · cases h
  · rename_i habsent
    exact ⟨t, table_ok.mp ht, by simpa using habsent, (pure_eq_ok.mp h).symm⟩

theorem dropTable_ok (h : db.dropTable name = .ok db') :
    db' = { db with
      tables := Function.update db.tables name none
      indexes := fun i => (db.indexes i).filter (fun index => index.table != name) } := by
  obtain ⟨t, -, h⟩ := bind_eq_ok.mp h
  exact (pure_eq_ok.mp h).symm

end SqlDatabase

end Relational
