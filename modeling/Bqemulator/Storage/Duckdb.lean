import Bqemulator.Catalog.Models
import Bqemulator.Lib.Keyed

/-!
# Tables of the database

The tables of the embedded database with their columns and rows, and the statements that the jobs
run on them. A statement that fails changes nothing.
-/

namespace Bqemulator

variable {Row : Type}

/-- A table: its columns, each with its type, and its rows in the order they came. -/
structure DuckTable (Row : Type) where
  ref : String × String
  columns : List (String × String)
  rows : List Row

/-- **The tables of the database**, by schema and name. -/
structure DuckDb (Row : Type) where
  schemas : List String
  tables : Keyed (fun table : DuckTable Row => table.ref)

namespace DuckDb

variable (db : DuckDb Row) (ref : String × String)

def noTable : DomainError :=
  .engine ("Catalog Error: Table with name " ++ ref.2 ++ " does not exist!")

def get? : Option (DuckTable Row) := db.tables.get? ref

/-- `CREATE TABLE` with these columns and no rows. -/
def createTable (columns : Except DomainError (List (String × String))) :
    Except DomainError (DuckDb Row) :=
  if ref.1 ∉ db.schemas then
    .error (.engine ("Catalog Error: Schema with name " ++ ref.1 ++ " does not exist!"))
  else match db.get? ref with
    | some _ =>
      .error (.engine ("Catalog Error: Table with name \"" ++ ref.2 ++ "\" already exists!"))
    | none => columns.map fun columns => { db with tables := db.tables.put ⟨ref, columns, []⟩ }

def dropTable : DuckDb Row := { db with tables := db.tables.erase ref }

/-- `DELETE FROM` without a condition. -/
def deleteFrom : Except DomainError (DuckDb Row) :=
  match db.get? ref with
  | none => .error (noTable ref)
  | some table => .ok { db with tables := db.tables.put { table with rows := [] } }

/-- `INSERT INTO` and `COPY … FROM`, of rows that have to be converted to the columns of the
table. -/
def insertInto (source : List (String × String) → Except DomainError (List Row)) :
    Except DomainError (DuckDb Row) :=
  match db.get? ref with
  | none => .error (noTable ref)
  | some table => (source table.columns).map fun rows =>
      { db with tables := db.tables.put { table with rows := table.rows ++ rows } }

def count : Except DomainError Nat :=
  match db.get? ref with
  | none => .error (noTable ref)
  | some table => .ok table.rows.length

variable {db ref} {db' : DuckDb Row} {table : DuckTable Row}

theorem ref_of_get? (h : db.get? ref = some table) : table.ref = ref := Keyed.key_of_get? h

/-- The table that a `CREATE TABLE` leaves. -/
theorem get?_createTable {c : Except DomainError (List (String × String))}
    (h : db.createTable ref c = .ok db') :
    db.get? ref = none ∧ ref.1 ∈ db.schemas ∧ db'.schemas = db.schemas ∧
      ∃ cols, c = .ok cols ∧ db'.tables = db.tables.put ⟨ref, cols, []⟩ := by
  unfold createTable at h
  by_cases hs : ref.1 ∉ db.schemas
  · rw [if_pos hs] at h
    cases h
  rw [if_neg hs] at h
  rcases hg : db.get? ref with _ | taken
  · rw [hg] at h
    obtain ⟨cols, hc, rfl⟩ := Except.map_eq_ok_iff.1 h
    exact ⟨rfl, not_not.1 hs, rfl, cols, hc, rfl⟩
  · rw [hg] at h
    cases h

@[simp] theorem get?_dropTable : (db.dropTable ref).get? ref = none := by
  rw [get?, dropTable, Keyed.get?_erase, if_pos rfl]

/-- A statement that reads a table and succeeds has found it. -/
theorem found_of_ok {α : Type} {f : DuckTable Row → Except DomainError α} {a : α}
    (h : (match db.get? ref with
      | none => Except.error (noTable ref)
      | some table => f table) = .ok a) : ∃ table, db.get? ref = some table ∧ f table = .ok a := by
  cases hg : db.get? ref with
  | none =>
    rw [hg] at h
    cases h
  | some table =>
    rw [hg] at h
    exact ⟨table, rfl, h⟩

theorem get?_deleteFrom (h : db.deleteFrom ref = .ok db') :
    ∃ table, db.get? ref = some table ∧ db'.get? ref = some { table with rows := [] } := by
  obtain ⟨table, hg, h⟩ := found_of_ok h
  cases h
  exact ⟨table, hg, by rw [get?, Keyed.get?_put, if_pos (ref_of_get? hg)]⟩

/-- The table that an `INSERT` leaves. -/
theorem get?_insertInto {source : List (String × String) → Except DomainError (List Row)}
    (h : db.insertInto ref source = .ok db') :
    ∃ table rows, db.get? ref = some table ∧ source table.columns = .ok rows ∧
      db'.get? ref = some { table with rows := table.rows ++ rows } := by
  obtain ⟨table, hg, h⟩ := found_of_ok h
  obtain ⟨rows, hr, rfl⟩ := Except.map_eq_ok_iff.1 h
  exact ⟨table, rows, hg, hr, by rw [get?, Keyed.get?_put, if_pos (ref_of_get? hg)]⟩

end DuckDb

end Bqemulator
