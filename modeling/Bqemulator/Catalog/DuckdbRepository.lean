import Bqemulator.Catalog.MemoryRepository

/-!
# The repository backed by the database

The repository that survives restarts keeps its records in the dictionaries of the in-memory one,
which answer every read, and in tables of the database, which fill them again. An operation changes
the dictionaries first; nothing undoes that when a statement fails.
-/

namespace Bqemulator

/-! ## Documents -/

/-- How records of one kind are written to text and read back. A failure has a name and a text. -/
structure Codec (R : Type) where
  dump : R → Except String String
  load : String → Except String R

/-- A record that is read back from its text as it was written. -/
def Codec.Keeps {R : Type} (codec : Codec R) (r : R) : Prop :=
  ∃ text, codec.dump r = .ok text ∧ codec.load text = .ok r

/-- **What the repository relies on**: the documents of its records, the lists of grantees, and the
order of the engine's `LIST`. -/
structure Documents where
  dataset : Codec DatasetMeta
  table : Codec TableMeta
  routine : Codec RoutineMeta
  model : Codec ModelMeta
  job : Codec JobMeta
  grantees : Codec (List String)
  list : List TableId → List TableId
  list_perm : ∀ bases, (list bases).Perm bases

/-! ## The tables -/

/-- A row whose record is a JSON text. -/
structure Document (K : Type) where
  key : K
  metadataJson : String
deriving DecidableEq

structure AccessEntryRow where
  projectId : String
  datasetId : String
  slot : Nat
  role : Option String
  userByEmail : Option String
  groupByEmail : Option String
  domain : Option String
  specialGroup : Option String
  iamMember : Option String
  viewRef : Option String
  routineRef : Option String
  datasetRef : Option String
deriving DecidableEq

def AccessEntryRow.key (r : AccessEntryRow) : String × String × Nat :=
  (r.projectId, r.datasetId, r.slot)

def AccessEntryRow.inDataset (project dataset : String) (r : AccessEntryRow) : Bool :=
  r.projectId = project && r.datasetId = dataset

structure MaterializedViewRow where
  id : TableId
  viewQuery : Sql
  lastRefreshTime : Time
  isStale : Bool

/-- A row of the dependencies: a view and a table it reads. All its columns are its key. -/
structure DependencyRow where
  view : TableId
  base : TableId
deriving DecidableEq

structure RowAccessPolicyRow where
  id : TableId
  policyId : String
  filterPredicate : String
  granteesJson : String
  creationTime : Time
  lastModifiedTime : Time
  etag : String
deriving DecidableEq

def RowAccessPolicyRow.key (r : RowAccessPolicyRow) : TableId × String :=
  (r.id, r.policyId)

/-- **The tables of the catalog.** -/
structure CatalogDb where
  datasets : Keyed (Document.key (K := String × String)) := .empty
  accessEntries : Keyed AccessEntryRow.key := .empty
  tables : Keyed (Document.key (K := TableId)) := .empty
  routines : Keyed (Document.key (K := String × String × String)) := .empty
  models : Keyed (Document.key (K := String × String × String)) := .empty
  jobs : Keyed (Document.key (K := String × String)) := .empty
  snapshots : Keyed SnapshotMeta.snapshotId := .empty
  materializedViews : Keyed MaterializedViewRow.id := .empty
  mvDependencies : Keyed (id : DependencyRow → DependencyRow) := .empty
  rowAccessPolicies : Keyed RowAccessPolicyRow.key := .empty

/-- **The repository**: its dictionaries and the tables behind them. -/
structure DuckdbRepository where
  cache : MemoryRepository := {}
  db : CatalogDb := {}

/-! ## References of access entries -/

def splitParts : List Char → List (List Char)
  | [] => [[]]
  | ':' :: ':' :: rest => [] :: splitParts rest
  | c :: rest =>
    match splitParts rest with
    | [] => [[c]]
    | part :: parts => (c :: part) :: parts

/-- The parts of a name in one text. -/
def joinRef (parts : List String) : String :=
  String.ofList (List.intercalate [':', ':'] (parts.map String.toList))

variable (raw : String)

def splitRef : List String :=
  (splitParts raw.toList).map String.ofList

def splitRef3 : Option (String × String × String) :=
  match splitRef raw with
  | [a, b, c] => some (a, b, c)
  | _ => none

def splitRef2 : Option (String × String) :=
  match splitRef raw with
  | [a, b] => some (a, b)
  | _ => none

/-- An access entry as it is written. -/
def AccessEntry.row (m : DatasetMeta) (slot : Nat) (e : AccessEntry) : AccessEntryRow where
  projectId := m.projectId
  datasetId := m.datasetId
  slot := slot
  role := e.role
  userByEmail := e.userByEmail
  groupByEmail := e.groupByEmail
  domain := e.domain
  specialGroup := e.specialGroup
  iamMember := e.iamMember
  viewRef := e.view.map fun (a, b, c) => joinRef [a, b, c]
  routineRef := e.routine.map fun (a, b, c) => joinRef [a, b, c]
  datasetRef := e.dataset.map fun (a, b) => joinRef [a, b]

/-- An access entry as it is read. -/
def AccessEntryRow.entry (r : AccessEntryRow) : AccessEntry where
  role := r.role
  userByEmail := r.userByEmail
  groupByEmail := r.groupByEmail
  domain := r.domain
  specialGroup := r.specialGroup
  iamMember := r.iamMember
  view := r.viewRef.bind splitRef3
  routine := r.routineRef.bind splitRef3
  dataset := r.datasetRef.bind splitRef2

/-! ## Writing -/

/-- What statements answer, and the tables after them. -/
abbrev Written := Except DomainError Unit × CatalogDb

section Statements

variable {K R : Type} [DecidableEq K]

/-- A record written to a table of documents; the text is made before the statement runs. -/
def writeDocument (codec : Codec R) (t : Keyed (Document.key (K := K))) (k : K) (r : R) :
    Except DomainError (Keyed (Document.key (K := K))) :=
  match codec.dump r with
  | .ok text => .ok (t.put ⟨k, text⟩)
  | .error exc => .error (.internal exc)

end Statements

def duplicateKey : DomainError :=
  .engine "Constraint Error: Duplicate key violates primary key constraint"

namespace CatalogDb

variable (docs : Documents) (db : CatalogDb)

/-- The end of a method whose only statement is the last one: an error leaves the tables. -/
def written : Except DomainError CatalogDb → Written
  | .ok db' => (.ok (), db')
  | .error e => (.error e, db)

/-- A dataset written with its access entries, those of its former version deleted first. -/
def writeDataset (m : DatasetMeta) : Written :=
  db.written ((writeDocument docs.dataset db.datasets m.key m).map fun datasets =>
    let kept := db.accessEntries.removeIf (AccessEntryRow.inDataset m.projectId m.datasetId)
    let rows := m.accessEntries.mapIdx fun slot e => e.row m slot
    { db with datasets, accessEntries := (kept.insertEach rows).1 })

/-- The deletion of a dataset. Only with the contents: policies, snapshots, materialized views,
and every dependency with the dataset on either side. -/
def deleteDataset (project dataset : String) (deleteContents : Bool) : CatalogDb :=
  let db := { db with
    datasets := db.datasets.erase (project, dataset)
    accessEntries := db.accessEntries.removeIf (AccessEntryRow.inDataset project dataset) }
  if deleteContents then
    { db with
      tables := db.tables.removeIf fun r => r.key.inDataset project dataset
      routines := db.routines.removeIf fun r => inDataset project dataset r.key
      models := db.models.removeIf fun r => inDataset project dataset r.key
      rowAccessPolicies := db.rowAccessPolicies.removeIf fun r => r.id.inDataset project dataset
      snapshots := db.snapshots.removeIf fun s => s.source.inDataset project dataset
      materializedViews := db.materializedViews.removeIf fun r => r.id.inDataset project dataset
      mvDependencies := db.mvDependencies.removeIf fun r =>
        r.view.inDataset project dataset || r.base.inDataset project dataset }
  else db

def writeTable (m : TableMeta) : Written :=
  db.written ((writeDocument docs.table db.tables m.id m).map fun tables => { db with tables })

def writeRoutine (r : RoutineMeta) : Written :=
  db.written ((writeDocument docs.routine db.routines r.key r).map fun routines =>
    { db with routines })

def writeModel (m : ModelMeta) : Written :=
  db.written ((writeDocument docs.model db.models m.key m).map fun models => { db with models })

def writeJob (j : JobMeta) : Written :=
  db.written ((writeDocument docs.job db.jobs j.key j).map fun jobs => { db with jobs })

/-- A materialized view with its dependencies: the row, the former dependencies away, one
`INSERT` for each table it reads. One that fails leaves what went before. -/
def upsertMaterializedView (v : MaterializedViewMeta) : Written :=
  let row : MaterializedViewRow := ⟨v.id, v.viewQuery, v.lastRefreshTime, v.isStale⟩
  let kept := db.mvDependencies.removeIf fun r => r.view = v.id
  let inserted := kept.insertEach (v.baseTables.map fun base => ⟨v.id, base⟩)
  let db' := { db with
    materializedViews := db.materializedViews.put row
    mvDependencies := inserted.1 }
  (if inserted.2 then .ok () else .error duplicateKey, db')

def deleteMaterializedView (id : TableId) : CatalogDb :=
  { db with
    materializedViews := db.materializedViews.erase id
    mvDependencies := db.mvDependencies.removeIf fun r => r.view = id }

def writeRowAccessPolicy (p : RowAccessPolicyMeta) : Written :=
  db.written <|
    match docs.grantees.dump p.grantees with
    | .error exc => .error (.internal exc)
    | .ok text =>
      .ok { db with
        rowAccessPolicies := db.rowAccessPolicies.put
          ⟨p.id, p.policyId, p.filterPredicate, text, p.creationTime, p.lastModifiedTime, p.etag⟩ }

/-- What an operation writes, given the dictionaries before it: a deletion only if there was
something. -/
def write (before : MemoryRepository) : CatalogOp → Written
  | .createDataset m => db.writeDataset docs m
  | .updateDataset m => db.writeDataset docs m
  | .deleteDataset project dataset _ deleteContents =>
    (.ok (), if (before.datasets.get? (project, dataset)).isSome then
      db.deleteDataset project dataset deleteContents else db)
  | .createTable m => db.writeTable docs m
  | .updateTable m => db.writeTable docs m
  | .deleteTable id _ =>
    (.ok (), if (before.tables.get? id).isSome then
      { db with tables := db.tables.erase id } else db)
  | .createRoutine r => db.writeRoutine docs r
  | .updateRoutine r => db.writeRoutine docs r
  | .deleteRoutine key _ =>
    (.ok (), if (before.routines.get? key).isSome then
      { db with routines := db.routines.erase key } else db)
  | .createModel m => db.writeModel docs m
  | .updateModel m => db.writeModel docs m
  | .deleteModel key _ =>
    (.ok (), if (before.models.get? key).isSome then
      { db with models := db.models.erase key } else db)
  | .upsertJob j => db.writeJob docs j
  | .deleteJob key _ =>
    (.ok (), if (before.jobs.get? key).isSome then { db with jobs := db.jobs.erase key } else db)
  | .createSnapshot s => (.ok (), { db with snapshots := db.snapshots.put s })
  | .deleteSnapshot snapshotId _ =>
    (.ok (), if (before.snapshots.get? snapshotId).isSome then
      { db with snapshots := db.snapshots.erase snapshotId } else db)
  | .upsertMaterializedView v => db.upsertMaterializedView v
  | .deleteMaterializedView id _ =>
    (.ok (), if (before.mviews.get? id).isSome then db.deleteMaterializedView id else db)
  | .createRowAccessPolicy p => db.writeRowAccessPolicy docs p
  | .updateRowAccessPolicy p => db.writeRowAccessPolicy docs p
  | .deleteRowAccessPolicy key _ =>
    (.ok (), if (before.rowAccess.get? key).isSome then
      { db with rowAccessPolicies := db.rowAccessPolicies.erase key } else db)

end CatalogDb

/-- An operation of the repository: the dictionaries first, then the tables. -/
def DuckdbRepository.perform (docs : Documents) (s : DuckdbRepository) (op : CatalogOp) :
    Except DomainError Unit × DuckdbRepository :=
  match s.cache.perform op with
  | .error e => (.error e, s)
  | .ok cache =>
    let (result, db) := s.db.write docs s.cache op
    (result, ⟨cache, db⟩)

/-! ## Hydration -/

def corruption (table rowId exc : String) : DomainError :=
  .internal (s!"Catalog corruption in {catalogSchema}.{table} row {rowId}: {exc}. " ++
    "Re-import or restore from a known-good backup. (Pass lenient=True to skip corrupt rows.)")

/-- The records of a table. A row that cannot be read is skipped in lenient mode, else an error. -/
def readRows {Row R : Type} (lenient : Bool) (table : String) (rowId : Row → String)
    (read : Row → Except String R) : List Row → Except DomainError (List R)
  | [] => .ok []
  | row :: rows =>
    match read row with
    | .ok r => (readRows lenient table rowId read rows).map (r :: ·)
    | .error exc =>
      if lenient then readRows lenient table rowId read rows
      else .error (corruption table (rowId row) exc)

namespace CatalogDb

variable (docs : Documents) (db : CatalogDb)

def dependencies (view : TableId) : List TableId :=
  (db.mvDependencies.rows.filter fun r => r.view = view).map DependencyRow.base

/-- The tables a view reads, by the join with the dependencies. Without any it meets a row of
`NULL`s, whose parts are written out as the text `None`. -/
def baseTables (view : TableId) : List TableId :=
  let bases := db.dependencies view
  let joined : List (Option TableId) := if bases = [] then [none] else (docs.list bases).map some
  joined.map fun base => base.getD ⟨"None", "None", "None"⟩

def materializedView (row : MaterializedViewRow) : MaterializedViewMeta :=
  ⟨row.id, row.viewQuery, db.baseTables docs row.id, row.lastRefreshTime, row.isStale⟩

def rowAccessPolicy (row : RowAccessPolicyRow) : Except String RowAccessPolicyMeta :=
  (docs.grantees.load row.granteesJson).map fun grantees =>
    ⟨row.id, row.policyId, row.filterPredicate, grantees, row.creationTime, row.lastModifiedTime,
      row.etag⟩

def accessEntriesOf (key : String × String) : List AccessEntry :=
  ((db.accessEntries.rows.filter (AccessEntryRow.inDataset key.1 key.2)).insertionSort
    fun a b => a.slot ≤ b.slot).map AccessEntryRow.entry

def withAccessEntries (m : DatasetMeta) : DatasetMeta :=
  if db.accessEntriesOf m.key = [] then m else { m with accessEntries := db.accessEntriesOf m.key }

theorem key_withAccessEntries (m : DatasetMeta) : (db.withAccessEntries m).key = m.key := by
  unfold withAccessEntries
  split <;> rfl

/-- The dictionaries that a fresh repository fills from the tables. -/
def hydrate (lenient : Bool) : Except DomainError MemoryRepository :=
  (readRows lenient "datasets" (fun r => s!"{r.key.1}.{r.key.2}")
    (fun r => docs.dataset.load r.metadataJson) db.datasets.rows).bind fun datasets =>
  (readRows lenient "tables" (fun r => s!"{r.key.project}.{r.key.dataset}.{r.key.table}")
    (fun r => docs.table.load r.metadataJson) db.tables.rows).bind fun tables =>
  (readRows lenient "routines" (fun r => s!"{r.key.1}.{r.key.2.1}.{r.key.2.2}")
    (fun r => docs.routine.load r.metadataJson) db.routines.rows).bind fun routines =>
  (readRows lenient "models" (fun r => s!"{r.key.1}.{r.key.2.1}.{r.key.2.2}")
    (fun r => docs.model.load r.metadataJson) db.models.rows).bind fun models =>
  (readRows lenient "jobs" (fun r => s!"{r.key.1}/{r.key.2}")
    (fun r => docs.job.load r.metadataJson) db.jobs.rows).bind fun jobs =>
  (readRows lenient "row_access_policies"
    (fun r => s!"{r.id.project}.{r.id.dataset}.{r.id.table}/{r.policyId}")
    (rowAccessPolicy docs) db.rowAccessPolicies.rows).map fun policies =>
  { datasets := (Keyed.ofList datasets).mapRows db.withAccessEntries db.key_withAccessEntries
    tables := .ofList tables
    routines := .ofList routines
    models := .ofList models
    jobs := .ofList jobs
    snapshots := .ofList db.snapshots.rows
    mviews := .ofList (db.materializedViews.rows.map (db.materializedView docs))
    rowAccess := .ofList policies }

end CatalogDb

end Bqemulator
