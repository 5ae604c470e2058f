import Bqemulator.Catalog.Models

/-!
# Physical storage

The physical contents of the database: tables and views by schema and name, table macros by name.
-/

namespace Bqemulator

open List

variable {Row : Type}

/-- The physical contents of the database: tables and views by schema and name, macros by name. -/
structure Storage (Row : Type) where
  database : String := "memory"
  tables : List ((String × String) × List Row) := []
  views : List ((String × String) × Sql) := []
  macros : List (String × Sql) := []

variable {key' : String × String} {value : String} (st : Storage Row)

namespace Storage

/-- The rows of a table, by schema and name. -/
def get (st : Storage Row) (key : String × String) : Option (List Row) :=
  st.tables.lookup key

def put (st : Storage Row) (key : String × String) (rows : List Row) : Storage Row :=
  { st with tables := (key, rows) :: st.tables.filter fun e => e.1 ≠ key }

def drop (st : Storage Row) (key : String × String) : Storage Row :=
  { st with tables := st.tables.filter fun e => e.1 ≠ key }

variable {key : String × String}

theorem lookup_filter_ne (h : key' ≠ key) (t : List ((String × String) × List Row)) :
    (t.filter fun e => e.1 ≠ key).lookup key' = t.lookup key' := by
  induction t with
  | nil => rfl
  | cons e t ih =>
    obtain ⟨k, rows⟩ := e
    by_cases hk : k = key
    · subst hk
      rw [filter_cons_of_neg (by simp), ih, lookup_cons, beq_eq_false_iff_ne.2 h]
    · rw [filter_cons_of_pos (by simpa using hk), lookup_cons, lookup_cons, ih]

@[simp] theorem get_put_self (key : String × String) (rows : List Row) :
    (st.put key rows).get key = some rows := by
  simp [get, put]

theorem get_put_of_ne (rows : List Row) (h : key' ≠ key) :
    (st.put key rows).get key' = st.get key' := by
  rw [get, put, lookup_cons, beq_eq_false_iff_ne.2 h]
  exact lookup_filter_ne h st.tables

theorem get_drop_of_ne (h : key' ≠ key) : (st.drop key).get key' = st.get key' :=
  lookup_filter_ne h st.tables

/-- The names a reference has in this database; a qualifier that names another one finds none. -/
def resolve (st : Storage Row) (t : Table) : Option (String × String) :=
  if t.catalog = "" ∨ t.catalog = st.database then some (t.db, t.name) else none

/-- The rows of the table that a reference names. -/
def rows? (st : Storage Row) (t : Table) : Option (List Row) :=
  (st.resolve t).bind st.get

/-- The body of the view that a reference names. -/
def view? (st : Storage Row) (t : Table) : Option Sql :=
  (st.resolve t).bind fun key => st.views.lookup key

end Storage

/-! ## Physical names -/

/-- The database finds a table whatever the case of its names. -/
def SamePhysical (key key' : String × String) : Prop :=
  Text.lower key.1 = Text.lower key'.1 ∧ Text.lower key.2 = Text.lower key'.2

instance (key key' : String × String) : Decidable (SamePhysical key key') :=
  inferInstanceAs (Decidable (_ ∧ _))

/-- The schema and name of a table as the database compares them. -/
def physical (key : String × String) : String × String := (Text.lower key.1, Text.lower key.2)

/-- Whether an id may stand in a physical name: a word character, then at most 254 word characters
or hyphens. -/
def isSqlSafeId (value : String) : Bool :=
  match Text.anchored value with
  | [] => false
  | c :: rest =>
    Text.isWordChar c && rest.all (fun d => Text.isWordChar d || d = '-') && rest.length ≤ 254

theorem notMem_of_isSqlSafeId (h : isSqlSafeId value = true) {c : Char}
    (hw : Text.isWordChar c = false) (hh : c ≠ '-') (hn : c ≠ '\n') :
    c ∉ value.toList := by
  intro hm
  replace hm := Text.mem_anchored hm hn
  unfold isSqlSafeId at h
  split at h
  · cases h
  rename_i d rest ha
  rw [ha, mem_cons] at hm
  simp only [Bool.and_eq_true, all_eq_true] at h
  rcases hm with rfl | hm
  · exact absurd h.1.1 (by simp [hw])
  · exact absurd (h.1.2 _ hm) (by simp [hw, hh])

theorem dot_notMem_of_isSqlSafeId (h : isSqlSafeId value = true) : '.' ∉ value.toList :=
  notMem_of_isSqlSafeId h (by decide) (by decide) (by decide)

variable (id : TableId)

def TableId.key : String × String :=
  (schemaName id.project id.dataset, id.table)

def validateSqlId (value kind : String) : Except DomainError String :=
  if isSqlSafeId value then .ok value
  else .error (.validation ("Invalid " ++ kind ++ " id for SQL: " ++ Text.quoted value) "")

theorem validateSqlId_eq_ok {kind id : String} (h : validateSqlId value kind = .ok id) :
    id = value ∧ isSqlSafeId value = true := by
  unfold validateSqlId at h
  split at h
  · exact ⟨(Except.ok.inj h).symm, by assumption⟩
  · cases h

/-- The physical name of a user table, for use in a statement that the emulator builds itself. -/
def quotedTableRef : Except DomainError (String × String) :=
  (validateSqlId id.table "table").bind fun table =>
    (validateSqlId id.project "project").bind fun project =>
      (validateSqlId id.dataset "dataset").map fun dataset => (schemaName project dataset, table)

theorem quotedTableRef_eq_ok {id : TableId} {key : String × String}
    (h : quotedTableRef id = .ok key) :
    key = id.key ∧ isSqlSafeId id.table = true ∧ isSqlSafeId id.project = true ∧
      isSqlSafeId id.dataset = true := by
  obtain ⟨table, ht, h⟩ := Except.bind_eq_ok_iff.1 h
  obtain ⟨project, hp, h⟩ := Except.bind_eq_ok_iff.1 h
  obtain ⟨dataset, hd, rfl⟩ := Except.map_eq_ok_iff.1 h
  obtain ⟨rfl, ht'⟩ := validateSqlId_eq_ok ht
  obtain ⟨rfl, hp'⟩ := validateSqlId_eq_ok hp
  obtain ⟨rfl, hd'⟩ := validateSqlId_eq_ok hd
  exact ⟨rfl, ht', hp', hd'⟩

theorem key_ne_snapshot (name : String) : id.key ≠ (snapshotsSchema, name) := by
  intro h
  have hr := isReserved_schemaName id.project id.dataset
  rw [(Prod.mk.inj h).1, isReserved_snapshotsSchema] at hr
  cases hr

/-- No dataset takes the name of a schema of the emulator's own: its parts are joined by two
underscores. -/
theorem not_samePhysical_of_isReserved {id : TableId} {db name : String}
    (h : isReserved db = true) : ¬ SamePhysical id.key (db, name) := by
  rintro ⟨hsame, -⟩
  have hin : ['_', '_'] <:+: (Text.lower id.key.1).toList := by
    obtain ⟨before, after, hj⟩ := infix_schemaName id.project id.dataset
    refine ⟨before.map Char.toLower, after.map Char.toLower, ?_⟩
    rw [TableId.key, Text.lower, String.toList_ofList, ← hj]
    simp
  rw [hsame, Text.lower, String.toList_ofList] at hin
  revert hin
  rcases isReserved_iff.1 h with rfl | rfl
  · rw [catalogSchema_toList]
    decide
  · rw [snapshotsSchema_toList]
    decide

end Bqemulator
