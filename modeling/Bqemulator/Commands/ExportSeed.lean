import Bqemulator.Api.TablePatch
import Bqemulator.Storage.Tables

/-!
# Export and seed

`export` writes the datasets, tables and routines of a data directory to files, with the rows of the
tables that have rows of their own; `seed` reads them back into another one, file by file.
-/

namespace Bqemulator

variable {Row Caller : Type}

/-! ## Data directories -/

structure StoredTable (Row : Type) where
  columns : List (String × String)
  rows : List Row

/-- The catalog and the relations of the engine. -/
structure DataDir (Row : Type) where
  datasets : Keyed DatasetMeta.key := .empty
  tables : Keyed TableRecord.id := .empty
  routines : Keyed RoutineMeta.key := .empty
  policies : Keyed RowAccessPolicyMeta.key := .empty
  storage : String × String → Option (StoredTable Row) := fun _ => none

def TableRecord.home (r : TableRecord) : String × String := (r.projectId, r.datasetId)

def RoutineMeta.home (r : RoutineMeta) : String × String := (r.projectId, r.datasetId)

/-- **A data directory in which everything lies in a dataset**, as the catalog keeps it. -/
structure WholeDataDir (Row : Type) extends DataDir Row where
  tables_home : ∀ r ∈ tables.rows, ∃ m ∈ datasets.rows, m.key = r.home
  routines_home : ∀ r ∈ routines.rows, ∃ m ∈ datasets.rows, m.key = r.home

def TableType.isPhysical : TableType → Bool
  | .table | .clone => true
  | _ => false

/-- What the commands ask: the names a file can have, the engine's types and tables, and the rows of
a file copied into one. -/
structure CommandEnv (Row : Type) where
  fileName : String → Bool
  bqToDuckdb : String → Option String
  creates : List (String × String) → Bool
  copyFrom : List (String × String) → StoredTable Row → Option (List Row)

inductive CommandError where
  | domain (e : DomainError)
  | file (name : String)
  | columns
  | engine
deriving DecidableEq

/-! ## Export -/

inductive ParquetFile (Row : Type) where
  | missing
  | empty
  | rows (t : StoredTable Row)

structure TableFiles (Row : Type) where
  record : TableRecord
  parquet : ParquetFile Row

structure DatasetFiles (Row : Type) where
  dataset : DatasetMeta
  tables : List (TableFiles Row)
  routines : List RoutineMeta

section Export

variable (env : CommandEnv Row) (d : DataDir Row)

def writeFile {α : Type} (name : String) (content : α) : Except CommandError α :=
  if env.fileName name then .ok content else .error (.file name)

/-- The rows of a table: one without rows has an empty file, one that the engine does not have
none. -/
def exportTableRows (r : TableRecord) : Except CommandError (ParquetFile Row) :=
  ((quotedTableRef r.id).mapError .domain).bind fun key =>
    match d.storage key with
    | none => .ok .missing
    | some t => writeFile env (r.tableId ++ ".parquet") (if t.rows.isEmpty then .empty else .rows t)

def exportTable (r : TableRecord) : Except CommandError (TableFiles Row) :=
  (writeFile env (r.tableId ++ ".json") r).bind fun record =>
    if r.tableType.isPhysical then (exportTableRows env d r).map fun parquet => ⟨record, parquet⟩
    else .ok ⟨record, .missing⟩

def exportRoutine (r : RoutineMeta) : Except CommandError RoutineMeta :=
  writeFile env (r.routineId ++ ".json") r

def exportDataset (m : DatasetMeta) : Except CommandError (DatasetFiles Row) :=
  (writeFile env m.projectId ()).bind fun _ =>
    (writeFile env m.datasetId m).bind fun dataset =>
      ((d.tables.rows.filter fun r => r.home = m.key).mapM (exportTable env d)).bind fun tables =>
        ((d.routines.rows.filter fun r => r.home = m.key).mapM
          (exportRoutine env)).map fun routines =>
          ⟨dataset, tables, routines⟩

/-- The export of a data directory. -/
def exportAll : Except CommandError (List (DatasetFiles Row)) :=
  d.datasets.rows.mapM (exportDataset env d)

end Export

/-! ## Seed -/

inductive SeedItem (Row : Type) where
  | dataset (m : DatasetMeta)
  | table (f : TableFiles Row)
  | routine (r : RoutineMeta)

section Seed

variable (env : CommandEnv Row)

/-- The columns that the engine's table of a record gets; one without a schema gets a
placeholder. -/
def seedColumns (r : TableRecord) : Option (List (String × String)) :=
  if r.schema.isEmpty then some [("__placeholder", "INTEGER")]
  else bqSchemaToDuckdbColumns env.bqToDuckdb r.schema

namespace DataDir

def seedDataset (d : DataDir Row) (m : DatasetMeta) : Except CommandError (DataDir Row) :=
  ((validateSqlId m.projectId "project").mapError .domain).bind fun _ =>
    ((validateSqlId m.datasetId "dataset").mapError .domain).map fun _ =>
      { d with datasets := d.datasets.put m }

def createTable (d : DataDir Row) (key : String × String) (r : TableRecord) :
    Except CommandError (DataDir Row) :=
  match seedColumns env r with
  | none => .error .columns
  | some columns =>
    if env.creates columns then
      .ok { d with storage :=
        Function.update d.storage key (some ((d.storage key).getD ⟨columns, []⟩)) }
    else .error .engine

def putTable (d : DataDir Row) (r : TableRecord) : Except CommandError (DataDir Row) :=
  if (d.datasets.get? r.home).isSome || (d.tables.get? r.id).isSome then
    .ok { d with tables := d.tables.put r }
  else .error (.domain (resourceNotFound (datasetRef r.projectId r.datasetId)))

def copyRows (d : DataDir Row) (key : String × String) (file : StoredTable Row) :
    Except CommandError (DataDir Row) :=
  match d.storage key with
  | none => .error .engine
  | some t =>
    match env.copyFrom t.columns file with
    | none => .error .engine
    | some rows =>
      .ok { d with storage :=
        Function.update d.storage key (some { t with rows := t.rows ++ rows }) }

/-- The files of a table: its table in the engine, its record, and its rows. -/
def seedTable (d : DataDir Row) (f : TableFiles Row) : Except CommandError (DataDir Row) :=
  ((quotedTableRef f.record.id).mapError .domain).bind fun key =>
    if f.record.tableType.isPhysical then
      (d.createTable env key f.record).bind fun d => (d.putTable f.record).bind fun d =>
        match f.parquet with
        | .rows file => d.copyRows env key file
        | _ => .ok d
    else d.putTable f.record

def seedRoutine (d : DataDir Row) (r : RoutineMeta) : Except CommandError (DataDir Row) :=
  if (d.datasets.get? r.home).isSome || (d.routines.get? r.key).isSome then
    .ok { d with routines := d.routines.put r }
  else .error (.domain (resourceNotFound (MemoryRepository.routineRef r.key)))

def seedItem (d : DataDir Row) : SeedItem Row → Except CommandError (DataDir Row)
  | .dataset m => d.seedDataset m
  | .table f => d.seedTable env f
  | .routine r => d.seedRoutine r

def seedItems (d : DataDir Row) : List (SeedItem Row) → Except CommandError (DataDir Row)
  | [] => .ok d
  | item :: items => (d.seedItem env item).bind fun d => d.seedItems items

end DataDir

def nameOrder {α : Type} (name : α → String) (x y : α) : Prop := name x ≤ name y

instance {α : Type} (name : α → String) : DecidableRel (nameOrder name) :=
  fun x y => inferInstanceAs (Decidable (name x ≤ name y))

/-- The files of a dataset in the order of the seed: its own, those of its tables, those of its
routines. -/
def seedBlock (x : DatasetFiles Row) : List (SeedItem Row) :=
  .dataset x.dataset ::
    ((x.tables.insertionSort (nameOrder fun f => f.record.tableId ++ ".json")).map .table ++
      (x.routines.insertionSort (nameOrder fun r => r.routineId ++ ".json")).map .routine)

variable (dir : List (DatasetFiles Row))

/-- The files in the order of the seed: by project and dataset. -/
def seedOrder : List (SeedItem Row) :=
  ((dir.insertionSort (nameOrder fun x => x.dataset.datasetId)).insertionSort
    (nameOrder fun x => x.dataset.projectId)).flatMap seedBlock

/-- The seed of an empty data directory. -/
def seedAll : Except CommandError (DataDir Row) :=
  DataDir.seedItems env {} (seedOrder dir)

end Seed

/-! ## Rows -/

/-- How a query is evaluated over the rows of tables, and what policies leave a caller. -/
structure ReadEnv (Row Caller : Type) where
  evaluate : String → (TableId → Option (List Row)) → Option (List Row)
  filter : Caller → List RowAccessPolicyMeta → List Row → List Row

def TableRecord.viewBody (r : TableRecord) : Option String :=
  if r.tableType = .view && isQuery r.viewQuery then r.viewQuery else none

section Read

variable (renv : ReadEnv Row Caller) (d : DataDir Row) (caller : Caller)

/-- The rows of a relation of the engine, without those that policies keep from the caller. -/
def engineRows (id : TableId) : Option (List Row) :=
  (d.storage id.key).map fun t =>
    let policies := d.policies.rows.filter fun p => p.id = id
    if policies.isEmpty then t.rows else renv.filter caller policies t.rows

def rowsAt : Nat → TableId → Option (List Row)
  | 0, id => engineRows renv d caller id
  | depth + 1, id =>
    match (d.tables.get? id).bind TableRecord.viewBody with
    | none => engineRows renv d caller id
    | some query => renv.evaluate query (rowsAt depth)

/-- The rows of a table or view, as a caller sees them. -/
def rowsOfTable (id : TableId) : Option (List Row) := rowsAt renv d caller 8 id

end Read

/-! ## The property -/

/-- **The same contents**: the records agree, and every table and view has the same rows for every
caller. -/
structure SameContents (renv : ReadEnv Row Caller) (d d' : DataDir Row) : Prop where
  datasets : d'.datasets.Same d.datasets
  tables : d'.tables.Same d.tables
  routines : d'.routines.Same d.routines
  policies : d'.policies.Same d.policies
  rows : ∀ caller, ∀ r ∈ d.tables.rows,
    rowsOfTable renv d' caller r.id = rowsOfTable renv d caller r.id

/-- **A data directory that comes back**: export and seed of an empty one succeed, and give the same
contents. -/
def RoundTrips (env : CommandEnv Row) (renv : ReadEnv Row Caller) (d : DataDir Row) : Prop :=
  ∃ dir d', exportAll env d = .ok dir ∧ seedAll env dir = .ok d' ∧ SameContents renv d d'

namespace DataDir

/-- The rows of a relation are exported: a table or clone has this name in the engine. -/
def exports (d : DataDir Row) (key : String × String) : Bool :=
  d.tables.rows.any fun r => r.tableType.isPhysical && r.id.key = key

def exported (d : DataDir Row) : DataDir Row :=
  { d with storage := fun key => if d.exports key then d.storage key else none }

/-- **The rows of a table come back**: the engine has the table and creates it from its record; and
it has no rows, or they are copied as they are and no other table has its name. -/
structure Restores (env : CommandEnv Row) (d : DataDir Row) (r : TableRecord) : Prop where
  created : ∃ columns, seedColumns env r = some columns ∧ env.creates columns = true ∧
    ∃ t, d.storage r.id.key = some t ∧ (t.rows = [] ∨ env.copyFrom columns t = some t.rows ∧
      ∀ r' ∈ d.tables.rows, r'.tableType.isPhysical = true → r'.id.key = r.id.key → r' = r)
  file : env.fileName (r.tableId ++ ".parquet") = true

end DataDir

/-- **The condition**: files and the engine take all names; there are no policies; the rows of
tables and clones come back; and nothing else has rows from a relation that is not exported. -/
structure Portable (env : CommandEnv Row) (renv : ReadEnv Row Caller) (d : DataDir Row) : Prop where
  datasets : ∀ m ∈ d.datasets.rows, isSqlSafeId m.projectId = true ∧
    isSqlSafeId m.datasetId = true ∧ env.fileName m.projectId = true ∧
    env.fileName m.datasetId = true
  tables : ∀ r ∈ d.tables.rows, isSqlSafeId r.tableId = true ∧
    env.fileName (r.tableId ++ ".json") = true
  routines : ∀ r ∈ d.routines.rows, env.fileName (r.routineId ++ ".json") = true
  policies : d.policies.rows = []
  physical : ∀ r ∈ d.tables.rows, r.tableType.isPhysical = true → d.Restores env r
  derived : ∀ r ∈ d.tables.rows, r.tableType.isPhysical = false → ∀ caller,
    rowsOfTable renv d.exported caller r.id = rowsOfTable renv d caller r.id

end Bqemulator
