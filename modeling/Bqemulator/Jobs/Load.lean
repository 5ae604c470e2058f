import Bqemulator.Catalog.Requests
import Bqemulator.Storage.Duckdb

/-!
# Load jobs

A load job creates its destination if it has to, empties it if it is asked to, and then inserts its
files. Each of these is a statement of its own, and nothing is undone when a later one fails.
-/

namespace Bqemulator

open Comp DuckDb Except

open Comp (state raise)

variable {Row : Type}

/-! ## The job -/

/-- The configuration of a load job, as a request gives it. -/
structure LoadConfiguration where
  destinationProject : Option String := none
  destinationDataset : Option String := none
  destinationTable : Option String := none
  sourceUris : List String := []
  sourceFormat : Option String := none
  writeDisposition : Option String := none
  createDisposition : Option String := none
  schemaFields : List FieldSchema := []
  autodetect : Bool := false

/-- What a load job is asked for. -/
structure LoadJob where
  id : TableId
  targetRef : String × String
  sourceUris : List String
  sourceFormat : String
  writeDisposition : String
  createDisposition : String
  schemaFields : List FieldSchema
  autodetect : Bool

/-- The job of a configuration. -/
def parseLoadJobConfig (projectId : String) (config : LoadConfiguration) :
    Except DomainError LoadJob :=
  let id : TableId := ⟨config.destinationProject.getD projectId,
    config.destinationDataset.getD "", config.destinationTable.getD ""⟩
  (quotedTableRef id).map fun targetRef =>
    { id, targetRef
      sourceUris := config.sourceUris
      sourceFormat := Text.upper (config.sourceFormat.getD "CSV")
      writeDisposition := config.writeDisposition.getD "WRITE_APPEND"
      createDisposition := config.createDisposition.getD "CREATE_IF_NEEDED"
      schemaFields := config.schemaFields
      autodetect := config.autodetect }

/-- **What a job finds outside**: where `gs://` paths lead, the rows and columns of a file, the
schema inferred from columns, and the surroundings of the snapshot. -/
structure LoadEnv (Row : Type) where
  resolveGcs : String → Except DomainError String
  read : String → String → List (String × String) → Except DomainError (List Row)
  infer : String → String → Except DomainError (List (String × String))
  describe : List (String × String) → Except DomainError (List FieldSchema)
  columnsOf : List FieldSchema → Except DomainError (List (String × String))
  surroundings : Surroundings

structure LoadWorld (Row : Type) where
  catalog : MemoryRepository
  db : DuckDb Row

inductive LoadStage where
  | config
  | destination
  | inference
  | paths
  | disposition
  | file (index : Nat)
  | finish
deriving DecidableEq

/-- Whether a job fails because of one of its files: its path, its columns or its rows. -/
def LoadStage.OfFile : LoadStage → Prop
  | .inference | .paths | .file _ => True
  | _ => False

structure LoadFailure where
  stage : LoadStage
  error : DomainError

abbrev LoadM (Row : Type) : Type → Type := Comp Unit LoadFailure (LoadWorld Row)

namespace LoadM

def ask {α : Type} (stage : LoadStage) (answer : LoadWorld Row → Except DomainError α) :
    LoadM Row α :=
  lift fun w => (answer w).mapError fun e => ⟨stage, e⟩

def onDb (stage : LoadStage) (statement : DuckDb Row → Except DomainError (DuckDb Row)) :
    LoadM Row Unit := fun w =>
  match statement w.db with
  | .ok db => ⟨[], .ok (), { w with db }⟩
  | .error e => ⟨[], .error ⟨stage, e⟩, w⟩

def onCatalog (stage : LoadStage) (program : CatalogM Unit) : LoadM Row Unit := fun w =>
  let outcome := program w.catalog
  ⟨[], outcome.result.mapError fun e => ⟨stage, e⟩, { w with catalog := outcome.state }⟩

end LoadM

open LoadM

/-! ## Paths -/

def resolveUri (env : LoadEnv Row) (uri : String) : Except DomainError String :=
  if Text.startsWith uri "gs://" then env.resolveGcs (Text.drop uri 5)
  else if Text.startsWith uri "file://" then .ok (Text.drop uri 7)
  else .ok uri

def forbiddenPathChars : List Char :=
  [Text.singleQuote, Text.doubleQuote, ';', '\n', '\r', Char.ofNat 0, Char.ofNat 96]

def validateLocalPath (path : String) : Except DomainError Unit :=
  if path = "" then .error (.invalidQuery "Empty file path")
  else match forbiddenPathChars.find? (· ∈ path.toList) with
    | some bad => .error (.invalidQuery
        ("Invalid character " ++ Text.quoted (String.ofList [bad]) ++ " in file path"))
    | none => .ok ()

def resolvePaths (env : LoadEnv Row) (uris : List String) : Except DomainError (List String) :=
  (uris.mapM (resolveUri env)).bind fun paths =>
    (paths.forM validateLocalPath).map fun _ => paths

section Job

variable (env : LoadEnv Row) (job : LoadJob)

/-! ## The destination -/

def inferredFormats : List String := ["NEWLINE_DELIMITED_JSON", "JSON", "CSV"]

def describeTarget (w : LoadWorld Row) : Except DomainError (List FieldSchema) :=
  match w.db.get? job.targetRef with
  | none => .error (noTable job.targetRef)
  | some table => env.describe table.columns

def describeOrDrop : LoadM Row (List FieldSchema) :=
  tryCatch (ask .inference fun w => describeTarget env job w) fun failure => do
    modify fun w => { w with db := w.db.dropTable job.targetRef }
    raise failure

/-- The schema of the first file: a table is created to find it out, and dropped again if it has
none. -/
def inferAutodetectSchema (uri : String) : LoadM Row (List FieldSchema) := do
  let path ← ask .inference fun _ => resolveUri env uri
  ask .inference fun _ => validateLocalPath path
  onDb .inference fun db => db.createTable job.targetRef (env.infer job.sourceFormat path)
  describeOrDrop env job

def registerDestination (fields : List FieldSchema) : LoadM Row Unit :=
  onCatalog .destination (Requests.call (.createTable { id := job.id, fields }))

/-- The destination from the columns of the first file. A schema without fields is not
registered. -/
def createFromFile (uri : String) : LoadM Row Unit := do
  let fields ← inferAutodetectSchema env job uri
  if fields = [] then pure () else registerDestination job fields

def createFromSchema : LoadM Row Unit := do
  onDb .destination fun db => db.createTable job.targetRef (env.columnsOf job.schemaFields)
  registerDestination job job.schemaFields

def checkDataset : LoadM Row Unit :=
  ask .destination fun w =>
    (Requests.orNotFound (w.catalog.datasets.get? (job.id.project, job.id.dataset))
      (datasetRef job.id.project job.id.dataset)).map fun _ => ()

/-- The destination of a job, if its schema is given or can be inferred. -/
def maybeCreateLoadDestination : LoadM Row Unit :=
  if job.schemaFields ≠ [] then do
    checkDataset job
    createFromSchema env job
  else if job.autodetect then do
    checkDataset job
    match job.sourceUris with
    | [] => pure ()
    | uri :: _ => if job.sourceFormat ∈ inferredFormats then createFromFile env job uri else pure ()
  else pure ()

def createIfNeeded : LoadM Row Unit := fun w =>
  if job.createDisposition = "CREATE_IF_NEEDED" ∧ (w.catalog.getTable job.id).isNone then
    maybeCreateLoadDestination env job w
  else ret () w

/-! ## The files -/

def applyLoadWriteDisposition : LoadM Row Unit :=
  if job.writeDisposition = "WRITE_TRUNCATE" then
    onDb .disposition fun db => db.deleteFrom job.targetRef
  else if job.writeDisposition = "WRITE_EMPTY" then
    ask .disposition fun w => (w.db.count job.targetRef).bind fun count =>
      if 0 < count then .error (.invalidQuery ("Table " ++ job.id.dataset ++ "." ++ job.id.table ++
        " is not empty and writeDisposition is WRITE_EMPTY"))
      else .ok ()
  else pure ()

def loadFormats : List String := ["CSV", "NEWLINE_DELIMITED_JSON", "JSON", "PARQUET", "AVRO", "ORC"]

def fileRows (path : String) (columns : List (String × String)) : Except DomainError (List Row) :=
  if job.sourceFormat ∈ loadFormats then env.read job.sourceFormat path columns
  else .error (.invalidQuery ("Unknown source format: " ++ job.sourceFormat))

def loadPaths (index : Nat) : List String → LoadM Row Unit
  | [] => pure ()
  | path :: rest => do
    onDb (.file index) fun db => db.insertInto job.targetRef (fileRows env job path)
    loadPaths (index + 1) rest

def finishLoad (count : Nat) : LoadM Row Unit := fun w =>
  if (w.catalog.getTable job.id).isSome then
    onCatalog .finish (Requests.finishWrite env.surroundings job.id (some count)) w
  else ret () w

def refreshLoadRowCount : LoadM Row Nat := do
  let count ← ask .finish fun w => w.db.count job.targetRef
  finishLoad env job count
  pure count

def loadFiles : LoadM Row Nat := do
  let paths ← ask .paths fun _ => resolvePaths env job.sourceUris
  applyLoadWriteDisposition job
  loadPaths env job 0 paths
  refreshLoadRowCount env job

def runLoadJob : LoadM Row Nat := do
  createIfNeeded env job
  loadFiles env job

end Job

section Request

variable (env : LoadEnv Row) (projectId : String) (config : LoadConfiguration)

/-- A load job: the number of rows of its destination at the end. -/
def executeLoadJob : LoadM Row Nat := do
  let job ← ask .config fun _ => parseLoadJobConfig projectId config
  runLoadJob env job

inductive LoadAnswer where
  | done (outputRows : Nat)
  | failed (message location : String)

/-- The answer of a job. Errors of the request are raised, those of the engine put into the
record. -/
def handleLoadJobWithAsyncEnvelope : LoadM Row LoadAnswer :=
  tryCatch (do let rows ← executeLoadJob env projectId config; pure (.done rows))
    fun failure =>
      match failure.error with
      | .unsupported _ | .invalidQuery _ | .validation _ _ => raise failure
      | e => pure (.failed ("Error while reading data, error message: " ++ e.message)
          (config.sourceUris.headD ""))

end Request

/-! ## What a failure leaves -/

/-- The job makes its destination: it may, that is not registered, and its schema is given or
inferred. -/
def LoadJob.Creates (job : LoadJob) (w : LoadWorld Row) : Prop :=
  job.createDisposition = "CREATE_IF_NEEDED" ∧ w.catalog.getTable job.id = none ∧
    (job.schemaFields ≠ [] ∨
      job.autodetect ∧ job.sourceUris ≠ [] ∧ job.sourceFormat ∈ inferredFormats)

def loadedRows (env : LoadEnv Row) (job : LoadJob) (columns : List (String × String)) :
    List String → Except DomainError (List Row)
  | [] => .ok []
  | path :: rest => (fileRows env job path columns).bind fun rows =>
      (loadedRows env job columns rest).map (rows ++ ·)

/-- **The destination is what it was**: in the catalog, and in the database. -/
def LoadJob.Unchanged (job : LoadJob) (w w' : LoadWorld Row) : Prop :=
  w'.catalog.getTable job.id = w.catalog.getTable job.id ∧
    w'.db.get? job.targetRef = w.db.get? job.targetRef

/-- **The failures that leave the destination alone**: the schema could not be inferred; or the job
has not made the destination, and the files before have no rows, or just those that `WRITE_TRUNCATE`
has deleted. -/
def LoadJob.LeavesDestination (env : LoadEnv Row) (job : LoadJob) (w : LoadWorld Row) :
    LoadStage → Prop
  | .paths => ¬ job.Creates w
  | .file index => ¬ job.Creates w ∧ ∀ table paths, w.db.get? job.targetRef = some table →
      resolvePaths env job.sourceUris = .ok paths →
        loadedRows env job table.columns (paths.take index) =
          .ok (if job.writeDisposition = "WRITE_TRUNCATE" then table.rows else [])
  | _ => True

namespace LoadM

variable {w : LoadWorld Row} {stage : LoadStage}

variable (stage)

theorem onDb_cases (statement : DuckDb Row → Except DomainError (DuckDb Row)) (w : LoadWorld Row) :
    (∃ db, statement w.db = .ok db ∧ onDb stage statement w = ⟨[], .ok (), { w with db }⟩) ∨
      ∃ e, onDb stage statement w = ⟨[], .error ⟨stage, e⟩, w⟩ := by
  unfold onDb
  cases statement w.db with
  | ok db => exact .inl ⟨db, rfl, rfl⟩
  | error e => exact .inr ⟨e, rfl⟩

theorem ask_cases {α : Type} (answer : LoadWorld Row → Except DomainError α) (w : LoadWorld Row) :
    (∃ a, answer w = .ok a ∧ ask stage answer w = ⟨[], .ok a, w⟩) ∨
      ∃ e, ask stage answer w = ⟨[], .error ⟨stage, e⟩, w⟩ := by
  cases ha : answer w with
  | ok a => exact .inl ⟨a, rfl, by simp [ask, Comp.lift, ha, Except.mapError]⟩
  | error e => exact .inr ⟨e, by simp [ask, Comp.lift, ha, Except.mapError]⟩

theorem onCatalog_cases (p : CatalogM Unit) (w : LoadWorld Row) :
    ∃ catalog, onCatalog stage p w = ⟨[], .ok (), { w with catalog }⟩ ∨
      ∃ e, onCatalog stage p w = ⟨[], .error ⟨stage, e⟩, { w with catalog }⟩ := by
  refine ⟨(p w.catalog).state, ?_⟩
  cases hr : (p w.catalog).result with
  | ok a => exact .inl (by simp [onCatalog, hr, Except.mapError])
  | error e => exact .inr ⟨e, by simp [onCatalog, hr, Except.mapError]⟩

variable {stage}

end LoadM

section Proofs

variable {env : LoadEnv Row} {job : LoadJob} {w : LoadWorld Row} {failure : LoadFailure}

/-- What the files before the one that fails have left. -/
theorem loadPaths_error {p : List String} {index : Nat}
    (h : (loadPaths env job index p w).result = .error failure) :
    ∃ j, failure.stage = .file (index + j) ∧
      (loadPaths env job index p w).state.catalog = w.catalog ∧
      (w.db.get? job.targetRef = none →
        (loadPaths env job index p w).state.db.get? job.targetRef = none) ∧
      ∀ table, w.db.get? job.targetRef = some table →
        ∃ rows, loadedRows env job table.columns (p.take j) = .ok rows ∧
          (loadPaths env job index p w).state.db.get? job.targetRef =
            some { table with rows := table.rows ++ rows } := by
  induction p generalizing index w with
  | nil => cases h
  | cons path r ih =>
    rw [loadPaths] at h ⊢
    rcases onDb_cases (.file index)
        (fun db => db.insertInto job.targetRef (fileRows env job path)) w with
      ⟨db, hd, hr⟩ | ⟨e, hr⟩
    · -- this file is in, one of the others fails
      rw [run_bind_of_quiet hr] at h ⊢
      obtain ⟨j, hs, hc, -, hro⟩ := ih h
      obtain ⟨table, rows, hg, hre, hg'⟩ := get?_insertInto hd
      refine ⟨j + 1, ?_, hc, ?_, ?_⟩
      · rw [hs, Nat.add_right_comm, Nat.add_assoc]
      · intro hn
        rw [hg] at hn
        cases hn
      intro t' ht
      rw [hg] at ht
      cases ht
      obtain ⟨r', hr', hst⟩ := hro _ hg'
      refine ⟨rows ++ r', ?_, ?_⟩
      · rw [List.take_succ_cons, loadedRows, hre, ok_bind, hr']
        rfl
      · rw [hst, List.append_assoc]
    · rw [run_bind_of_raised hr] at h ⊢
      cases h
      refine ⟨0, rfl, rfl, id, fun table ht => ⟨[], rfl, ?_⟩⟩
      rw [List.append_nil]
      exact ht

variable (env)

variable (job)

theorem describeOrDrop_cases (w : LoadWorld Row) :
    (∃ fields, describeOrDrop env job w = ⟨[], .ok fields, w⟩) ∨
      ∃ e, describeOrDrop env job w =
        ⟨[], .error ⟨.inference, e⟩, { w with db := w.db.dropTable job.targetRef }⟩ := by
  unfold describeOrDrop Comp.tryCatch
  rcases ask_cases .inference (fun w => describeTarget env job w) w with
    ⟨fields, -, hr⟩ | ⟨e, hr⟩
  · rw [hr]
    exact .inl ⟨fields, rfl⟩
  · rw [hr]
    exact .inr ⟨e, rfl⟩

theorem inferAutodetectSchema_cases (uri : String) (w : LoadWorld Row) :
    (∃ fields db, inferAutodetectSchema env job uri w = ⟨[], .ok fields, { w with db }⟩ ∧
      w.db.get? job.targetRef = none ∧ (db.get? job.targetRef).isSome) ∨
    ∃ e w', inferAutodetectSchema env job uri w = ⟨[], .error ⟨.inference, e⟩, w'⟩ ∧
      job.Unchanged w w' := by
  unfold inferAutodetectSchema
  rcases ask_cases .inference (fun _ => resolveUri env uri) w with ⟨path, -, hr⟩ | ⟨e, hr⟩
  swap
  · exact .inr ⟨e, w, run_bind_of_raised hr, rfl, rfl⟩
  rw [run_bind_of_quiet hr]
  rcases ask_cases .inference (fun _ => validateLocalPath path) w with ⟨_, -, hr⟩ | ⟨e, hr⟩
  swap
  · exact .inr ⟨e, w, run_bind_of_raised hr, rfl, rfl⟩
  rw [run_bind_of_quiet hr]
  rcases onDb_cases .inference
      (fun db => db.createTable job.targetRef (env.infer job.sourceFormat path)) w with
    ⟨db, hd, hr⟩ | ⟨e, hr⟩
  swap
  · exact .inr ⟨e, w, run_bind_of_raised hr, rfl, rfl⟩
  rw [run_bind_of_quiet hr]
  obtain ⟨hn, -, -, c, -, ht⟩ := get?_createTable hd
  rcases describeOrDrop_cases env job { w with db } with ⟨fields, hr⟩ | ⟨e, hr⟩
  · refine .inl ⟨fields, db, hr, hn, ?_⟩
    rw [get?, ht, Keyed.get?_put, if_pos rfl]
    rfl
  · -- the table was not there before it was created, and is not there after it is dropped
    exact .inr ⟨e, _, hr, rfl, get?_dropTable.trans hn.symm⟩

theorem registerDestination_cases (fields : List FieldSchema) (w : LoadWorld Row) :
    ∃ catalog, registerDestination job fields w = ⟨[], .ok (), { w with catalog }⟩ ∨
      ∃ e, registerDestination job fields w =
        ⟨[], .error ⟨.destination, e⟩, { w with catalog }⟩ :=
  onCatalog_cases .destination _ w

/-- A run makes the destination: it is there afterwards and was not before; or the run fails, and a
failure over a file leaves what was. -/
def MakesDestination (w : LoadWorld Row)
    (outcome : Outcome Unit LoadFailure (LoadWorld Row) Unit) : Prop :=
  (∃ w', outcome = ⟨[], .ok (), w'⟩ ∧ w.db.get? job.targetRef = none ∧
    (w'.db.get? job.targetRef).isSome) ∨
  ∃ stage e w', outcome = ⟨[], .error ⟨stage, e⟩, w'⟩ ∧
    (stage.OfFile → stage = .inference ∧ job.Unchanged w w')

theorem createFromSchema_makes (w : LoadWorld Row) :
    MakesDestination job w (createFromSchema env job w) := by
  unfold createFromSchema
  rcases onDb_cases .destination
      (fun db => db.createTable job.targetRef (env.columnsOf job.schemaFields)) w with
    ⟨db, hd, hr⟩ | ⟨e, hr⟩
  swap
  · exact .inr ⟨_, e, w, run_bind_of_raised hr, False.elim⟩
  rw [run_bind_of_quiet hr]
  obtain ⟨hn, -, -, c, -, ht⟩ := get?_createTable hd
  obtain ⟨catalog, hr | ⟨e, hr⟩⟩ := registerDestination_cases job job.schemaFields { w with db }
  · refine .inl ⟨_, hr, hn, ?_⟩
    rw [get?, ht, Keyed.get?_put, if_pos rfl]
    rfl
  · exact .inr ⟨_, e, _, hr, False.elim⟩

theorem createFromFile_makes (uri : String)
    (w : LoadWorld Row) : MakesDestination job w (createFromFile env job uri w) := by
  unfold createFromFile
  rcases inferAutodetectSchema_cases env job uri w with
    ⟨fields, db, hr, hn, hs⟩ | ⟨e, w', hr, hu⟩
  · rw [run_bind_of_quiet hr]
    by_cases hf : fields = []
    · rw [if_pos hf]
      exact .inl ⟨_, rfl, hn, hs⟩
    · rw [if_neg hf]
      obtain ⟨catalog, hr | ⟨e, hr⟩⟩ := registerDestination_cases job fields { w with db }
      · exact .inl ⟨_, hr, hn, hs⟩
      · exact .inr ⟨_, e, _, hr, False.elim⟩
  · exact .inr ⟨_, e, w', run_bind_of_raised hr, fun _ => ⟨rfl, hu⟩⟩

variable {env}

theorem checkDataset_cases (w : LoadWorld Row) : checkDataset job w = ⟨[], .ok (), w⟩ ∨
      ∃ e, checkDataset job w = ⟨[], .error ⟨.destination, e⟩, w⟩ := by
  rcases ask_cases .destination (fun w : LoadWorld Row =>
      (Requests.orNotFound (w.catalog.datasets.get? (job.id.project, job.id.dataset))
        (datasetRef job.id.project job.id.dataset)).map fun _ => ()) w with
    ⟨_, -, hr⟩ | ⟨e, hr⟩
  · exact .inl hr
  · exact .inr ⟨e, hr⟩

variable {job}

theorem createIfNeeded_creates (h : job.Creates w) :
    MakesDestination job w (createIfNeeded env job w) := by
  obtain ⟨hd, hm, hp⟩ := h
  rw [createIfNeeded, if_pos ⟨hd, by rw [hm]; rfl⟩, maybeCreateLoadDestination]
  by_cases hf : job.schemaFields ≠ []
  · rw [if_pos hf]
    rcases checkDataset_cases job w with hr | ⟨e, hr⟩
    · rw [run_bind_of_quiet hr]
      exact createFromSchema_makes env job w
    · exact .inr ⟨_, e, w, run_bind_of_raised hr, False.elim⟩
  · obtain ⟨ha, hu, hfo⟩ := hp.resolve_left hf
    obtain ⟨u, r, hur⟩ := List.exists_cons_of_ne_nil hu
    rw [if_neg hf, if_pos ha]
    rcases checkDataset_cases job w with hr | ⟨e, hr⟩
    · rw [run_bind_of_quiet hr]
      simp only [hur, hfo]
      exact createFromFile_makes env job u w
    · exact .inr ⟨_, e, w, run_bind_of_raised hr, False.elim⟩

theorem createIfNeeded_keeps (h : ¬ job.Creates w) :
    createIfNeeded env job w = ⟨[], .ok (), w⟩ ∨
      ∃ e, createIfNeeded env job w = ⟨[], .error ⟨.destination, e⟩, w⟩ := by
  unfold createIfNeeded
  by_cases hn : job.createDisposition = "CREATE_IF_NEEDED" ∧
      (w.catalog.getTable job.id).isNone
  · rw [if_pos hn, maybeCreateLoadDestination]
    have hp : ¬ (job.schemaFields ≠ [] ∨
        job.autodetect ∧ job.sourceUris ≠ [] ∧ job.sourceFormat ∈ inferredFormats) :=
      fun hp => h ⟨hn.1, Option.isNone_iff_eq_none.1 hn.2, hp⟩
    rw [if_neg fun hfi => hp (.inl hfi)]
    by_cases ha : job.autodetect
    · rw [if_pos ha]
      rcases checkDataset_cases job w with hr | ⟨e, hr⟩
      · rw [run_bind_of_quiet hr]
        left
        rcases hu : job.sourceUris with _ | ⟨u, r⟩
        · rfl
        · have hf : job.sourceFormat ∉ inferredFormats := fun hf =>
            hp (.inr ⟨ha, by simp [hu], hf⟩)
          simp only [hf]
          rfl
      · exact .inr ⟨e, run_bind_of_raised hr⟩
    · rw [if_neg ha]
      exact .inl rfl
  · rw [if_neg hn]
    exact .inl rfl

theorem applyLoadWriteDisposition_cases (j : LoadJob) (w : LoadWorld Row) :
    (∃ w', applyLoadWriteDisposition j w = ⟨[], .ok (), w'⟩ ∧ w'.catalog = w.catalog ∧
      (w.db.get? j.targetRef = none → w'.db.get? j.targetRef = none) ∧
      ∀ table, w.db.get? j.targetRef = some table → w'.db.get? j.targetRef =
        some { table with rows := if j.writeDisposition = "WRITE_TRUNCATE" then []
          else table.rows }) ∨
    ∃ e, applyLoadWriteDisposition j w = ⟨[], .error ⟨.disposition, e⟩, w⟩ := by
  unfold applyLoadWriteDisposition
  by_cases htr : j.writeDisposition = "WRITE_TRUNCATE"
  · simp only [htr]
    rcases onDb_cases .disposition (fun db => db.deleteFrom j.targetRef) w with
      ⟨db, hd, hr⟩ | ⟨e, hr⟩
    · obtain ⟨table, hg, hg'⟩ := get?_deleteFrom hd
      refine .inl ⟨_, hr, rfl, ?_, ?_⟩
      · intro hn
        rw [hg] at hn
        cases hn
      · intro t' ht
        rw [hg] at ht
        cases ht
        exact hg'
    · exact .inr ⟨e, hr⟩
  · simp only [htr]
    by_cases he : j.writeDisposition = "WRITE_EMPTY"
    · rw [if_pos he]
      rcases ask_cases .disposition _ w with ⟨_, -, hr⟩ | ⟨e, hr⟩
      · exact .inl ⟨w, hr, rfl, id, fun _ ht => ht⟩
      · exact .inr ⟨e, hr⟩
    · rw [if_neg he]
      exact .inl ⟨w, rfl, rfl, id, fun _ ht => ht⟩

theorem refreshLoadRowCount_error (h : (refreshLoadRowCount env job w).result = .error failure) :
    failure.stage = .finish := by
  unfold refreshLoadRowCount at h
  rcases ask_cases .finish (fun w : LoadWorld Row => w.db.count job.targetRef) w with
    ⟨count, -, hr⟩ | ⟨e, hr⟩
  · rw [run_bind_of_quiet hr] at h
    have hf : (∃ w', finishLoad env job count w = ⟨[], .ok (), w'⟩) ∨
        ∃ e w', finishLoad env job count w = ⟨[], .error ⟨.finish, e⟩, w'⟩ := by
      unfold finishLoad
      split
      · obtain ⟨catalog, hr | ⟨e, hr⟩⟩ := onCatalog_cases .finish
          (Requests.finishWrite env.surroundings job.id (some count)) w
        · exact .inl ⟨_, hr⟩
        · exact .inr ⟨e, _, hr⟩
      · exact .inl ⟨w, rfl⟩
    rcases hf with ⟨w', hr⟩ | ⟨e, w', hr⟩
    · rw [run_bind_of_quiet hr] at h
      cases h
    · rw [run_bind_of_raised hr] at h
      cases h
      rfl
  · rw [run_bind_of_raised hr] at h
    cases h
    rfl

theorem loadFiles_error (h : (loadFiles env job w).result = .error failure)
    (hf : failure.stage.OfFile) :
    failure.stage = .paths ∧ (loadFiles env job w).state = w ∨
      ∃ paths j, resolvePaths env job.sourceUris = .ok paths ∧ failure.stage = .file j ∧
        (loadFiles env job w).state.catalog = w.catalog ∧
        (w.db.get? job.targetRef = none →
          (loadFiles env job w).state.db.get? job.targetRef = none) ∧
        ∀ table, w.db.get? job.targetRef = some table →
          ∃ rows, loadedRows env job table.columns (paths.take j) = .ok rows ∧
            (loadFiles env job w).state.db.get? job.targetRef =
              some { table with rows := (if job.writeDisposition = "WRITE_TRUNCATE" then []
                else table.rows) ++ rows } := by
  unfold loadFiles at h ⊢
  rcases ask_cases .paths (fun _ : LoadWorld Row => resolvePaths env job.sourceUris) w with
    ⟨paths, hp, hr⟩ | ⟨e, hr⟩
  swap
  · rw [run_bind_of_raised hr] at h ⊢
    cases h
    exact .inl ⟨rfl, rfl⟩
  rw [run_bind_of_quiet hr] at h ⊢
  rcases applyLoadWriteDisposition_cases job w with ⟨w', hr, hc, hn, hro⟩ | ⟨e, hr⟩
  swap
  · rw [run_bind_of_raised hr] at h
    cases h
    exact hf.elim
  rw [run_bind_of_quiet hr] at h ⊢
  cases hl : (loadPaths env job 0 paths w').result with
  | ok u =>
    rw [run_bind_of_ok hl] at h
    have hs := refreshLoadRowCount_error h
    rw [hs] at hf
    exact hf.elim
  | error =>
    rw [run_bind_of_error hl] at h ⊢
    cases h
    obtain ⟨j, hs, hc', hn', hr'⟩ := loadPaths_error hl
    refine .inr ⟨paths, j, hp, by rw [hs, Nat.zero_add], hc'.trans hc,
      fun h => hn' (hn h), ?_⟩
    intro table ht
    exact hr' _ (hro table ht)

theorem handleLoadJob_state (env : LoadEnv Row) (p : String) (c : LoadConfiguration)
    (w : LoadWorld Row) : (handleLoadJobWithAsyncEnvelope env p c w).state =
      (executeLoadJob env p c w).state := by
  unfold handleLoadJobWithAsyncEnvelope
  cases h : (executeLoadJob env p c w).result with
  | ok rows =>
    have hr := run_bind_of_ok (f := fun rows => (pure (.done rows) : LoadM Row LoadAnswer)) h
    rw [run_tryCatch_of_ok (congrArg Outcome.result hr), hr]
    rfl
  | error failure =>
    have hr :=
      run_bind_of_error (f := fun rows => (pure (.done rows) : LoadM Row LoadAnswer)) h
    rw [run_tryCatch_of_error (congrArg Outcome.result hr), hr]
    rcases failure with ⟨s, e⟩
    cases e <;> rfl

theorem append_eq_rows_iff {t : Prop} [Decidable t] {rows a : List Row} :
    (if t then [] else rows) ++ a = rows ↔ a = if t then rows else [] := by
  by_cases h : t
  · simp [h]
  · simp [h]

theorem loadFiles_unchanged_iff (hcr : ¬ job.Creates w)
    (h : (loadFiles env job w).result = .error failure) (hf : failure.stage.OfFile) :
    job.Unchanged w (loadFiles env job w).state ↔ job.LeavesDestination env w failure.stage := by
  rcases loadFiles_error h hf with
    ⟨hs, hst⟩ | ⟨p, j, hp, hs, hcg, hn, hro⟩
  · rw [hs, hst]
    exact iff_of_true ⟨rfl, rfl⟩ hcr
  rw [hs]
  have hc : (loadFiles env job w).state.catalog.getTable job.id =
      w.catalog.getTable job.id := by rw [hcg]
  rcases hg : w.db.get? job.targetRef with _ | table
  · refine iff_of_true ⟨hc, (hn hg).trans hg.symm⟩ ⟨hcr, ?_⟩
    intro table p ht
    rw [hg] at ht
    cases ht
  obtain ⟨rows, hr, hst⟩ := hro table hg
  have hd : (loadFiles env job w).state.db.get? job.targetRef = w.db.get? job.targetRef ↔
      rows = if job.writeDisposition = "WRITE_TRUNCATE" then table.rows else [] := by
    rw [hst, hg, Option.some.injEq, ← append_eq_rows_iff]
    cases table
    simp
  constructor
  · rintro ⟨-, hsa⟩
    refine ⟨hcr, fun t' p' ht hp' => ?_⟩
    rw [hg] at ht
    cases ht
    rw [hp] at hp'
    cases hp'
    rw [hr, hd.1 hsa]
  · rintro ⟨-, ha⟩
    have hl := ha table p hg hp
    rw [hr] at hl
    exact ⟨hc, hd.2 (ok.inj hl)⟩

theorem loadFiles_keeps_table (h : (loadFiles env job w).result = .error failure)
    (hf : failure.stage.OfFile) (hso : (w.db.get? job.targetRef).isSome) :
    ((loadFiles env job w).state.db.get? job.targetRef).isSome ∧ failure.stage ≠ .inference := by
  rcases loadFiles_error h hf with ⟨hs, hst⟩ | ⟨p, j, -, hs, -, -, hr⟩
  · rw [hst, hs]
    exact ⟨hso, by simp⟩
  · obtain ⟨t, ht⟩ := Option.isSome_iff_exists.1 hso
    obtain ⟨rows, -, hst⟩ := hr t ht
    rw [hst, hs]
    exact ⟨rfl, by simp⟩

theorem runLoadJob_unchanged_iff (h : (runLoadJob env job w).result = .error failure)
    (hf : failure.stage.OfFile) :
    job.Unchanged w (runLoadJob env job w).state ↔ job.LeavesDestination env w failure.stage := by
  unfold runLoadJob at h ⊢
  by_cases hc : job.Creates w
  · rcases createIfNeeded_creates hc with
      ⟨w', hr, hn, hs⟩ | ⟨stage, e, w', hr, hfa⟩
    · -- the destination is there now, and no failure takes it away
      rw [run_bind_of_quiet hr] at h ⊢
      obtain ⟨hk, hst⟩ := loadFiles_keeps_table h hf hs
      refine iff_of_false (fun ⟨_, hd⟩ => ?_) ?_
      · rw [hd, hn] at hk
        cases hk
      rcases failure with ⟨_ | _ | _ | _ | _ | index | _, e⟩
      all_goals first
        | exact hf.elim
        | exact absurd rfl hst
        | exact fun hl => hl hc
        | exact fun hl => hl.1 hc
    · rw [run_bind_of_raised hr] at h ⊢
      cases h
      obtain ⟨rfl, hu⟩ := hfa hf
      exact iff_of_true hu trivial
  · rcases createIfNeeded_keeps hc with hr | ⟨e, hr⟩
    · rw [run_bind_of_quiet hr] at h ⊢
      exact loadFiles_unchanged_iff hc h hf
    · rw [run_bind_of_raised hr] at h
      cases h
      exact hf.elim

end Proofs

/-- **Load jobs that fail over a file**: rows, schema and existence of the destination are what they
were iff the failure leaves the destination alone. -/
theorem load_keeps_destination_iff (env : LoadEnv Row) (projectId : String)
    (config : LoadConfiguration) (w : LoadWorld Row) (failure : LoadFailure)
    (h : (executeLoadJob env projectId config w).result = .error failure)
    (hfile : failure.stage.OfFile) :
    ∃ job, parseLoadJobConfig projectId config = .ok job ∧
      (job.Unchanged w (handleLoadJobWithAsyncEnvelope env projectId config w).state ↔
        job.LeavesDestination env w failure.stage) := by
  rw [handleLoadJob_state]
  unfold executeLoadJob at h ⊢
  rcases ask_cases .config (fun _ : LoadWorld Row => parseLoadJobConfig projectId config) w with
    ⟨job, hj, hr⟩ | ⟨e, hr⟩
  · rw [run_bind_of_quiet hr] at h ⊢
    exact ⟨job, hj, runLoadJob_unchanged_iff h hfile⟩
  · rw [run_bind_of_raised hr] at h
    cases h
    exact hfile.elim

def oneFile : LoadEnv Nat where
  resolveGcs path := .ok path
  read _ path _ := if path = "/good" then .ok [1] else .error (.engine "IO Error: no such file")
  infer _ _ := .error (.engine "IO Error: no such file")
  describe _ := .ok []
  columnsOf _ := .ok []
  surroundings := {}

def filledDestination : LoadWorld Nat where
  catalog := { tables := Keyed.empty.put { id := ⟨"p", "d", "t"⟩ } }
  db := ⟨["p__d"], Keyed.empty.put ⟨("p__d", "t"), [("x", "BIGINT")], [7, 8]⟩⟩

def appendFiles (sourceUris : List String) : LoadConfiguration where
  destinationDataset := some "d"
  destinationTable := some "t"
  sourceUris

/-- The first of two files cannot be read, and the two rows of the table stay. -/
theorem load_keeps_filledDestination :
    ∃ job, parseLoadJobConfig "p" (appendFiles ["/bad", "/good"]) = .ok job ∧
      job.Unchanged filledDestination
        (handleLoadJobWithAsyncEnvelope oneFile "p" (appendFiles ["/bad", "/good"])
          filledDestination).state := by
  obtain ⟨job, hj, hi⟩ := load_keeps_destination_iff oneFile "p" (appendFiles ["/bad", "/good"])
    filledDestination ⟨.file 0, .engine "IO Error: no such file"⟩ rfl trivial
  refine ⟨job, hj, hi.2 ?_⟩
  cases hj
  refine ⟨?_, fun t p _ _ => rfl⟩
  rintro ⟨-, hm, -⟩
  cases hm

/-- **The files before the one that fails stay loaded.** -/
theorem load_leaves_rows :
    (∃ e, (executeLoadJob oneFile "p" (appendFiles ["/good", "/bad"]) filledDestination).result =
      .error ⟨.file 1, e⟩) ∧
    ∃ job, parseLoadJobConfig "p" (appendFiles ["/good", "/bad"]) = .ok job ∧
      ¬ job.Unchanged filledDestination
        (handleLoadJobWithAsyncEnvelope oneFile "p" (appendFiles ["/good", "/bad"])
          filledDestination).state := by
  refine ⟨⟨.engine "IO Error: no such file", rfl⟩, _, rfl, ?_⟩
  rintro ⟨-, hd⟩
  have hr := congrArg (Option.map DuckTable.rows) hd
  revert hr
  decide

end Bqemulator
