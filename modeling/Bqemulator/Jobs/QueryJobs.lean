import Bqemulator.Catalog.MemoryRepository
import Bqemulator.Lib.Comp
import Bqemulator.Storage.Duckdb

/-!
# Query jobs

`jobs.query` and `jobs.insert` run a statement and keep its result under the id of the job. When a
query appends to a destination, the result is made from the rows of the destination and those of the
query; the destination is not written to.
-/

namespace Bqemulator

open Comp (state raise lift)

variable {V : Type}

/-! ## Results -/

/-- The result of a query. -/
structure ArrowTable (V : Type) where
  columns : List (String × String)
  rows : List (List V)
deriving DecidableEq

structure JobResult (V : Type) where
  jobId : String
  table : ArrowTable V

structure QueryWorld (V : Type) where
  catalog : MemoryRepository
  db : DuckDb (List V)

/-- The results by job id, and the catalog and database next to them. -/
structure JobWorld (V : Type) extends QueryWorld V where
  results : Keyed (fun r : JobResult V => r.jobId)

def JobWorld.result? (w : JobWorld V) (jobId : String) : Option (ArrowTable V) :=
  (w.results.get? jobId).map JobResult.table

abbrev JobM (V : Type) : Type → Type := Comp Unit DomainError (JobWorld V)

def storeResult (jobId : String) (table : ArrowTable V) : JobM V Unit :=
  Comp.modify fun w => { w with results := w.results.put ⟨jobId, table⟩ }

def popResult (jobId : String) : JobM V Unit :=
  Comp.modify fun w => { w with results := w.results.erase jobId }

/-! ## Requests -/

structure DestinationTable where
  projectId : Option String
  datasetId : Option String
  tableId : Option String

structure QueryConfiguration where
  query : String
  destinationTable : Option DestinationTable := none
  writeDisposition : Option String := none
  schemaUpdateOptions : List String := []

/-- **How statements run**: `run` gives what a statement leaves also when it fails, `prepare` makes
the checks and rewrites, `isDestructive` tells what a dry run skips, and `align` converts a result
to given columns. -/
structure QueryEnv (V : Type) where
  null : V
  run : String → String → QueryWorld V → Except DomainError (ArrowTable V) × QueryWorld V
  prepare : String → QueryConfiguration → QueryWorld V → Except DomainError String
  isDestructive : String → Bool
  align : ArrowTable V → List (String × String) → Option (List (List V))
  bqType : String → String

def isSqlExecutionError : DomainError → Bool
  | .notFound _ | .alreadyExists _ | .invalidQuery _ | .outOfRange _ | .resourceInUse _ => true
  | _ => false

variable {projectId jobId : String} {config : QueryConfiguration} {w : JobWorld V}

section Job

variable (env : QueryEnv V)

/-- A statement as a job: its result is kept under the job's id. -/
def executeQueryJob (projectId jobId sql : String) : JobM V (ArrowTable V) := fun w =>
  match env.run projectId sql w.toQueryWorld with
  | (.ok table, engine) =>
    ⟨[], .ok table, { engine with results := w.results.put ⟨jobId, table⟩ }⟩
  | (.error e, engine) => ⟨[], .error e, { engine with results := w.results }⟩

theorem executeQueryJob_cases (j p sql : String) (w : JobWorld V) :
    (∃ table w', executeQueryJob env p j sql w = ⟨[], .ok table, w'⟩ ∧
      w'.toQueryWorld = (env.run p sql w.toQueryWorld).2 ∧
      w'.results = w.results.put ⟨j, table⟩ ∧
      (env.run p sql w.toQueryWorld).1 = .ok table) ∨
    ∃ e w', executeQueryJob env p j sql w = ⟨[], .error e, w'⟩ ∧
      w'.toQueryWorld = (env.run p sql w.toQueryWorld).2 ∧
      w'.results = w.results ∧ (env.run p sql w.toQueryWorld).1 = .error e := by
  unfold executeQueryJob
  rcases hr : env.run p sql w.toQueryWorld with ⟨e | table, after⟩
  · exact .inr ⟨e, _, rfl, rfl, rfl, rfl⟩
  · exact .inl ⟨table, _, rfl, rfl, rfl, rfl⟩

/-! ## Appending to a destination -/

def DestinationTable.id? (destination : DestinationTable) (requestProjectId : String) :
    Option TableId :=
  let projectId := match destination.projectId with
    | none | some "" => requestProjectId
    | some projectId => projectId
  match destination.datasetId, destination.tableId with
  | some datasetId, some tableId =>
    if projectId = "" ∨ datasetId = "" ∨ tableId = "" then none
    else some ⟨projectId, datasetId, tableId⟩
  | _, _ => none

variable (config)

def resolveWriteAppendDestination (requestProjectId : String)
    (catalog : MemoryRepository) : Option TableMeta :=
  (config.destinationTable.bind (·.id? requestProjectId)).bind catalog.getTable

def validateWriteAppendSchema (destFieldNames : List String) (allowFieldAddition : Bool) :
    List (String × String) → Except DomainError (List (String × String))
  | [] => .ok []
  | field :: rest =>
    if field.1 ∈ destFieldNames
    then validateWriteAppendSchema destFieldNames allowFieldAddition rest
    else if allowFieldAddition then
      (validateWriteAppendSchema destFieldNames allowFieldAddition rest).map (field :: ·)
    else .error (.validation
      ("Invalid schema update. Cannot add fields (field: " ++ field.1 ++ ")") "")

def QueryConfiguration.allowFieldAddition : Bool :=
  config.schemaUpdateOptions.any fun option => Text.upper option = "ALLOW_FIELD_ADDITION"

variable {config}

def padTableWithNullColumns (table : ArrowTable V) (newFields : List (String × String)) :
    ArrowTable V where
  columns := table.columns ++ newFields
  rows := table.rows.map (· ++ List.replicate newFields.length env.null)

/-- The rows of the destination and those of the result, if they can be converted. -/
def combineWriteAppendTables (result existing : ArrowTable V) : Option (ArrowTable V) :=
  if result.rows = [] then some existing
  else (env.align result existing.columns).map fun rows =>
    { existing with rows := existing.rows ++ rows }

def addedFields (added : List (String × String)) : List FieldSchema :=
  added.map fun field => { name := field.1, type := env.bqType (Text.upper field.2) }

def evolveDestinationSchema (m : TableMeta) (added : List (String × String)) :
    JobM V Unit := fun w =>
  match w.catalog.updateTable { m with fields := m.fields ++ addedFields env added } with
  | .ok catalog => ⟨[], .ok (), { w with catalog }⟩
  | .error e => ⟨[], .error e, w⟩

def readbackJobId (jobId : String) : String := "_writeappend_readback_" ++ jobId

def selectAll (id : TableId) : String :=
  "SELECT * FROM `" ++ id.project ++ "`.`" ++ id.dataset ++ "`.`" ++ id.table ++ "`"

def readBack (jobId : String) (id : TableId) : JobM V (Option (ArrowTable V)) :=
  Comp.tryCatch
    (do
      let existing ← executeQueryJob env id.project (readbackJobId jobId) (selectAll id)
      popResult (readbackJobId jobId)
      pure (some existing))
    fun e => if isSqlExecutionError e then pure none else raise e

def replaceResult (jobId : String) (result existing : ArrowTable V) : JobM V Unit :=
  match combineWriteAppendTables env result existing with
  | none => pure ()
  | some combined => storeResult jobId combined

def appendExisting (jobId : String) (m : TableMeta) (added : List (String × String))
    (result existing : ArrowTable V) : JobM V Unit :=
  if added = [] then replaceResult env jobId result existing
  else do
    evolveDestinationSchema env m added
    replaceResult env jobId result (padTableWithNullColumns env existing added)

def appendTo (jobId : String) (config : QueryConfiguration) (m : TableMeta)
    (result : ArrowTable V) : JobM V Unit := do
  let added ← lift fun _ =>
    validateWriteAppendSchema (m.fields.map FieldSchema.name) config.allowFieldAddition
      result.columns
  let existing ← readBack env jobId m.id
  match existing with
  | none => pure ()
  | some existing => appendExisting env jobId m added result existing

/-- The result of an appending query. -/
def applyWriteAppend (projectId jobId : String) (config : QueryConfiguration)
    (result : ArrowTable V) : JobM V Unit := fun w =>
  if config.writeDisposition = some "WRITE_APPEND" then
    match resolveWriteAppendDestination config projectId w.catalog with
    | none => Comp.ret () w
    | some m => appendTo env jobId config m result w
  else Comp.ret () w

/-! ## Jobs -/

/-- How a request about jobs is answered: a job done or with an error, a dry run, a deletion. -/
inductive JobAnswer where
  | done
  | failed (e : DomainError)
  | preview
  | deleted
deriving DecidableEq

/-- A query job. An error of the statement becomes part of its record. -/
def executeQueryOrFailedMeta (projectId jobId sql : String) (config : QueryConfiguration) :
    JobM V JobAnswer := fun w =>
  let run := executeQueryJob env projectId jobId sql w
  match run.result with
  | .error e =>
    if isSqlExecutionError e then ⟨[], .ok (.failed e), run.state⟩ else ⟨[], .error e, run.state⟩
  | .ok result =>
    (do applyWriteAppend env projectId jobId config result; pure .done : JobM V JobAnswer) run.state

def dryRun (projectId jobId sql : String) : JobM V JobAnswer :=
  if Text.strip sql = "" ∨ env.isDestructive sql then pure .preview
  else do
    let _ ← executeQueryJob env projectId jobId sql
    popResult jobId
    pure .preview

def upsertJob (projectId jobId : String) (jobType : JobType) (answer : JobAnswer) :
    JobM V JobAnswer := fun w =>
  ⟨[], .ok answer,
    { w with catalog := w.catalog.upsertJob ⟨projectId, jobId, jobType, .done⟩ }⟩

def queryRoute (projectId jobId sql : String) (isDryRun : Bool) : JobM V JobAnswer :=
  if isDryRun then dryRun env projectId jobId sql
  else if Text.strip sql = "" then raise (.invalidQuery "Empty query")
  else do
    let answer ← executeQueryOrFailedMeta env projectId jobId sql { query := sql }
    upsertJob projectId jobId .query answer

def runQueryJob (projectId jobId sql : String) (config : QueryConfiguration) (isDryRun : Bool) :
    JobM V JobAnswer :=
  if isDryRun then dryRun env projectId jobId sql
  else executeQueryOrFailedMeta env projectId jobId sql config

def insertQuery (projectId jobId : String) (config : QueryConfiguration) (isDryRun : Bool) :
    JobM V JobAnswer := do
  let sql ← lift fun w => env.prepare projectId config w.toQueryWorld
  let answer ← runQueryJob env projectId jobId sql config isDryRun
  upsertJob projectId jobId .query answer

theorem insertQuery_of_prepared {sql : String}
    (h : env.prepare projectId config w.toQueryWorld = .ok sql) (i : Bool) :
    insertQuery env projectId jobId config i w =
      (runQueryJob env projectId jobId sql config i >>= upsertJob projectId jobId .query) w :=
  Comp.run_lift_bind_of_ok (s := w) h

theorem insertQuery_of_rejected {e : DomainError}
    (h : env.prepare projectId config w.toQueryWorld = .error e) (i : Bool) :
    insertQuery env projectId jobId config i w = ⟨[], .error e, w⟩ :=
  Comp.run_lift_bind_of_error (s := w) h

def insertOther (projectId jobId : String) (jobType : JobType)
    (outcome : QueryWorld V → Except DomainError Unit × QueryWorld V) : JobM V JobAnswer := fun w =>
  match outcome w.toQueryWorld with
  | (.error e, engine) => ⟨[], .error e, { engine with results := w.results }⟩
  | (.ok (), engine) => upsertJob projectId jobId jobType .done { engine with results := w.results }

/-- `jobs.delete`: the job of the project, and the result under its id. -/
def deleteJob (projectId jobId : String) : JobM V JobAnswer := fun w =>
  match w.catalog.deleteJob (projectId, jobId) false with
  | .error e => ⟨[], .error e, w⟩
  | .ok catalog => ⟨[], .ok .deleted, { w with catalog, results := w.results.erase jobId }⟩

end Job

structure ResultPage (V : Type) where
  columns : List (String × String)
  rows : List (List V)
  totalRows : Nat
  pageToken : Option Nat
deriving DecidableEq

def ArrowTable.page (table : ArrowTable V) (offset maxResults : Nat) : ResultPage V where
  columns := table.columns
  rows := (table.rows.drop offset).take maxResults
  totalRows := table.rows.length
  pageToken := if offset + maxResults < table.rows.length then some (offset + maxResults) else none

/-- `getQueryResults`: the result under the id of the job. The project is part of the error
only. -/
def getQueryResults (w : JobWorld V) (projectId jobId : String) (offset maxResults : Nat) :
    Except DomainError (ResultPage V) :=
  match w.result? jobId with
  | none => .error (resourceNotFound ⟨"job", projectId, none, jobId⟩)
  | some table => .ok (table.page offset maxResults)

/-- The requests about jobs. -/
inductive JobRequest (V : Type) where
  | query (projectId jobId sql : String) (isDryRun : Bool)
  | insertQuery (projectId jobId : String) (config : QueryConfiguration) (isDryRun : Bool)
  | insertOther (projectId jobId : String) (jobType : JobType)
      (outcome : QueryWorld V → Except DomainError Unit × QueryWorld V)
  | deleteJob (projectId jobId : String)

/-- The program of a request. -/
def serveJob (env : QueryEnv V) : JobRequest V → JobM V JobAnswer
  | .query projectId jobId sql isDryRun => queryRoute env projectId jobId sql isDryRun
  | .insertQuery projectId jobId config isDryRun => insertQuery env projectId jobId config isDryRun
  | .insertOther projectId jobId jobType outcome => insertOther projectId jobId jobType outcome
  | .deleteJob projectId jobId => deleteJob projectId jobId

end Bqemulator
