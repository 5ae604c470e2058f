import Bqemulator.Sql.Ast

/-!
# The catalog

The records the emulator keeps about user tables, row access policies and snapshots, and the
lookups of the repository. Dictionaries are lists in insertion order.
-/

namespace Bqemulator

/-- The errors a request ends with: the emulator's own, and those the database engine raises. -/
inductive DomainError where
  | invalidQuery (message : String)
  | validation (message location : String)
  | notFound (message : String)
  | alreadyExists (message : String)
  | unsupported (message : String)
  | outOfRange (message : String)
  | quotaExceeded (message : String)
  | resourceInUse (message : String)
  | internal (message : String)
  | engine (message : String)
deriving DecidableEq

def DomainError.message : DomainError → String
  | .invalidQuery message | .validation message _ | .notFound message | .alreadyExists message
  | .unsupported message | .outOfRange message | .quotaExceeded message | .resourceInUse message
  | .internal message | .engine message => message

/-- The codes of gRPC calls that fail. -/
inductive StatusCode where
  | invalidArgument
  | notFound
  | alreadyExists
  | outOfRange
  | failedPrecondition
  | resourceExhausted
  | unknown
deriving DecidableEq

/-- The status of a gRPC call that fails. -/
structure RpcError where
  code : StatusCode
  details : String
deriving DecidableEq

def catalogSchema : String := "_bqemulator_catalog"

def snapshotsSchema : String := "_bqemulator_snapshots"

/-- The schemas that the emulator keeps for itself. -/
def isReserved (schema : String) : Bool :=
  schema = catalogSchema || schema = snapshotsSchema

theorem isReserved_iff {s : String} :
    isReserved s ↔ s = catalogSchema ∨ s = snapshotsSchema := by
  simp [isReserved]

theorem isReserved_snapshotsSchema : isReserved snapshotsSchema := by decide

variable (project dataset : String)

/-- The schema of a dataset in the database. -/
def schemaName : String :=
  project ++ "__" ++ dataset

theorem catalogSchema_toList : catalogSchema.toList =
    ['_', 'b', 'q', 'e', 'm', 'u', 'l', 'a', 't', 'o', 'r', '_',
      'c', 'a', 't', 'a', 'l', 'o', 'g'] := rfl

theorem snapshotsSchema_toList : snapshotsSchema.toList =
    ['_', 'b', 'q', 'e', 'm', 'u', 'l', 'a', 't', 'o', 'r', '_',
      's', 'n', 'a', 'p', 's', 'h', 'o', 't', 's'] := rfl

theorem infix_schemaName : ['_', '_'] <:+: (schemaName project dataset).toList :=
  ⟨project.toList, dataset.toList, by simp [schemaName]⟩

theorem schemaName_ne_empty : schemaName project dataset ≠ "" := by
  intro h
  have := congrArg String.toList h
  simp [schemaName] at this

/-- No dataset has a reserved schema. -/
theorem isReserved_schemaName : isReserved (schemaName project dataset) = false := by
  have h := infix_schemaName project dataset
  rw [Bool.eq_false_iff, ne_eq, isReserved_iff]
  rintro (hs | hs) <;> rw [hs] at h
  · rw [catalogSchema_toList] at h
    revert h
    decide
  · rw [snapshotsSchema_toList] at h
    revert h
    decide

/-- The name of a table. -/
structure TableId where
  project : String
  dataset : String
  table : String
deriving DecidableEq

inductive TableType where
  | table
  | view
  | materializedView
  | external
  | snapshot
  | clone
deriving DecidableEq

def TableType.text : TableType → String
  | .table => "TABLE"
  | .view => "VIEW"
  | .materializedView => "MATERIALIZED_VIEW"
  | .external => "EXTERNAL"
  | .snapshot => "SNAPSHOT"
  | .clone => "CLONE"

structure FieldSchema where
  name : String
  type : String
  mode : String := "NULLABLE"
deriving DecidableEq

/-- **A table or view**, as far as queries read it. -/
structure TableMeta where
  id : TableId
  tableType : TableType := .table
  viewQuery : Option Sql := none
  fields : List FieldSchema := []
  numRows : Nat := 0

/-- The query of a view. -/
def TableMeta.viewBody (m : TableMeta) : Option Sql :=
  if m.tableType = .view then m.viewQuery else none

/-- A row access policy: the rows on which the filter is true are granted to the grantees. -/
structure RowAccessPolicyMeta where
  id : TableId
  policyId : String
  filterPredicate : String
  grantees : List String
  creationTime : Time := 0
  lastModifiedTime : Time := 0
  etag : String := ""
deriving DecidableEq

def RowAccessPolicyMeta.key (p : RowAccessPolicyMeta) : TableId × String :=
  (p.id, p.policyId)

inductive RoutineType where
  | scalarFunction
  | procedure
  | tableValuedFunction
deriving DecidableEq

inductive RoutineLanguage where
  | sql
  | javascript
deriving DecidableEq

/-- A routine: its arguments and result with the JSON of their types, and the text of its body. -/
structure RoutineMeta where
  projectId : String
  datasetId : String
  routineId : String
  routineType : RoutineType
  language : RoutineLanguage := .sql
  arguments : List String := []
  argumentTypes : List (Option String) := []
  returnType : Option String := none
  definitionBody : Sql

def RoutineMeta.key (r : RoutineMeta) : String × String × String :=
  (r.projectId, r.datasetId, r.routineId)

/-- An entry of an access list: a grantee with a role, or a view, routine or dataset that may
read. -/
structure AccessEntry where
  role : Option String := none
  userByEmail : Option String := none
  groupByEmail : Option String := none
  domain : Option String := none
  specialGroup : Option String := none
  iamMember : Option String := none
  view : Option (String × String × String) := none
  routine : Option (String × String × String) := none
  dataset : Option (String × String) := none
deriving DecidableEq

/-- **A dataset.** -/
structure DatasetMeta where
  projectId : String
  datasetId : String
  accessEntries : List AccessEntry := []
deriving DecidableEq

def DatasetMeta.key (m : DatasetMeta) : String × String :=
  (m.projectId, m.datasetId)

/-- **A model.** -/
structure ModelMeta where
  projectId : String
  datasetId : String
  modelId : String
  modelType : String := "MODEL_TYPE_UNSPECIFIED"
deriving DecidableEq

def ModelMeta.key (m : ModelMeta) : String × String × String :=
  (m.projectId, m.datasetId, m.modelId)

inductive JobType where
  | query
  | load
  | extract
  | copy
deriving DecidableEq

inductive JobState where
  | pending
  | running
  | done
deriving DecidableEq

/-- **A job.** -/
structure JobMeta where
  projectId : String
  jobId : String
  jobType : JobType
  state : JobState
deriving DecidableEq

def JobMeta.key (j : JobMeta) : String × String :=
  (j.projectId, j.jobId)

/-- A materialized view: its query, the tables it reads, and whether they changed since its last
refresh. -/
structure MaterializedViewMeta where
  id : TableId
  viewQuery : Sql
  baseTables : List TableId
  lastRefreshTime : Time
  isStale : Bool := false

inductive SnapshotKind where
  | auto
  | user
deriving DecidableEq

/-- A snapshot of a source table, and the physical table that holds its rows: a schema without dots,
and a name. -/
structure SnapshotMeta where
  snapshotId : String
  source : TableId
  snapshotTime : Time
  kind : SnapshotKind := .auto
  duckdbSchema : String
  duckdbTable : String
  expiresAt : Option Time
  schema_ne : duckdbSchema ≠ ""
  schema_plain : '.' ∉ duckdbSchema.toList
  table_ne : duckdbTable ≠ ""
deriving DecidableEq

/-- **The catalog**, as the passes on statements read it. -/
structure Catalog where
  datasets : List (String × String) := []
  tables : List TableMeta := []
  policies : List RowAccessPolicyMeta := []
  snapshots : List SnapshotMeta := []

namespace Catalog

variable (cat : Catalog) (id : TableId)

def getTable : Option TableMeta :=
  cat.tables.find? fun m => m.id = id

def viewBody : Option Sql :=
  (cat.getTable id).bind TableMeta.viewBody

def updateTable (m : TableMeta) : Except DomainError Catalog :=
  if (cat.getTable m.id).isSome then
    .ok { cat with tables := cat.tables.map fun m' => if m'.id = m.id then m else m' }
  else .error (.notFound s!"Not found: table:{m.id.project}.{m.id.dataset}.{m.id.table}")

def listRowAccessPolicies : List RowAccessPolicyMeta :=
  cat.policies.filter fun p => p.id = id

/-- The snapshots of a table in order of time, those of one instant in the order recorded. -/
def listSnapshotsForTable : List SnapshotMeta :=
  (cat.snapshots.filter fun s => s.source = id).insertionSort fun a b =>
    a.snapshotTime ≤ b.snapshotTime

variable {cat : Catalog} {id : TableId} {m : TableMeta}

theorem mem_listSnapshotsForTable {s : SnapshotMeta} :
    s ∈ cat.listSnapshotsForTable id ↔ s ∈ cat.snapshots ∧ s.source = id := by
  simp [listSnapshotsForTable]

theorem getTable_id (h : cat.getTable id = some m) : m.id = id := by
  simpa using List.find?_some h

/-- An update changes what a table is, not which tables there are. -/
theorem updateTable_isSome {c' : Catalog} (h : cat.updateTable m = .ok c') (id : TableId) :
    (c'.getTable id).isSome = (cat.getTable id).isSome := by
  unfold updateTable at h
  split at h
  · obtain rfl := Except.ok.inj h
    have hi : (fun m' : TableMeta => decide (m'.id = id)) ∘
        (fun m' => if m'.id = m.id then m else m') = fun m' => decide (m'.id = id) := by
      ext m'
      by_cases hm : m'.id = m.id
      · simp [hm]
      · simp [hm]
    simp only [getTable, List.find?_map, Option.isSome_map, hi]
  · cases h

theorem updateTable_snapshots {c' : Catalog} (h : cat.updateTable m = .ok c') :
    c'.snapshots = cat.snapshots := by
  unfold updateTable at h
  split at h
  · obtain rfl := Except.ok.inj h
    rfl
  · cases h

theorem exists_mem_of_viewBody {body : Sql} (h : cat.viewBody id = some body) :
    ∃ m ∈ cat.tables, m.id = id ∧ m.viewBody = some body := by
  obtain ⟨m, hm, hb⟩ := Option.bind_eq_some_iff.1 h
  exact ⟨m, List.mem_of_find?_eq_some hm, getTable_id hm, hb⟩

end Catalog

end Bqemulator
