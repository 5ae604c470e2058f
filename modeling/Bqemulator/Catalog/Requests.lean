import Bqemulator.Api.Resources
import Bqemulator.Lib.Calls
import Bqemulator.Versioning.SnapshotTable

/-!
# Requests that change the catalog

The REST routes, the SQL statements and the write paths that change the catalog, as programs that
call its operations. An error ends a request, and the calls it made before stay made.
-/

namespace Bqemulator

open Comp (state raise)

/-- Programs that call the operations of the catalog. -/
abbrev CatalogM : Type → Type := Comp CatalogOp DomainError MemoryRepository

/-- **What a request finds outside the catalog**: the clock, random digits, and the answers of the
`engine`, of the database about columns and rows, of the function `registry`, and of the `checks` of
its texts. The views in `subscribed` are told of changes. -/
structure Surroundings where
  now : Time := 0
  retentionDays : Nat := 7
  hex : String := ""
  etag : String := ""
  engine : Except DomainError Unit := .ok ()
  introspected : Except DomainError (List FieldSchema × Nat) := .ok ([], 0)
  registry : Except DomainError Unit := .ok ()
  checks : Except DomainError Unit := .ok ()
  subscribed : List TableId := []

namespace Requests

def call (op : CatalogOp) : CatalogM Unit :=
  Comp.call MemoryRepository.perform op

def callEach : List CatalogOp → CatalogM Unit
  | [] => pure ()
  | op :: ops => do
    call op
    callEach ops

/-- An answer from outside: a value, or the error that ends the program. -/
def ask {α : Type} (answer : Except DomainError α) : CatalogM α :=
  Comp.lift fun _ => answer

theorem run_ask_ok {α β : Type} (a : α) (f : α → CatalogM β) (c : MemoryRepository) :
    (ask (.ok a) >>= f) c = f a c := rfl

theorem run_ask_error {α β : Type} (e : DomainError) (f : α → CatalogM β) (c : MemoryRepository) :
    (ask (.error e) >>= f) c = ⟨[], .error e, c⟩ := rfl

def orNotFound {α : Type} (found : Option α) (ref : ResourceRef) : Except DomainError α :=
  found.elim (.error (resourceNotFound ref)) .ok

def orAlreadyExists {α : Type} (found : Option α) (ref : ResourceRef) : Except DomainError Unit :=
  found.elim (.ok ()) fun _ => .error (resourceAlreadyExists ref)

section Requests

variable (env : Surroundings)

/-! ## Datasets -/

def insertDataset (project : String) (body : DatasetBody) : CatalogM Unit := do
  ask env.engine
  call (.createDataset (restToDatasetMeta project body none))

variable (project dataset : String)

def replaceDataset (body : DatasetBody) : CatalogM Unit := do
  let c ← state
  let existing ← ask (orNotFound (c.datasets.get? (project, dataset)) (datasetRef project dataset))
  let reference := body.datasetReference.getD dataset
  call (.updateDataset
    (restToDatasetMeta project { body with datasetReference := reference } existing))

def deleteDataset (deleteContents : Bool) : CatalogM Unit := do
  if deleteContents then ask env.engine
  call (.deleteDataset project dataset false deleteContents)

/-! ## Tables -/

def insertTable (body : TableBody) : CatalogM Unit := do
  let c ← state
  let m := restToTableMeta project dataset body none
  ask (orAlreadyExists (c.getTable m.id) m.id.resourceRef)
  ask env.engine
  call (.createTable m)

variable (id : TableId)

def replaceTable (body : TableBody) : CatalogM Unit := do
  let c ← state
  let existing ← ask (orNotFound (c.getTable id) id.resourceRef)
  let reference := body.tableReference.getD id.table
  call (.updateTable
    (restToTableMeta id.project id.dataset { body with tableReference := reference } existing))

/-- Delete the snapshots of a table, those of kind `USER` only if asked to. Their names have no
quotes, so the check for those never ends the loop. -/
def dropSnapshotsForTable (includeUser : Bool) : CatalogM Unit := do
  let c ← state
  callEach (((c.catalog.listSnapshotsForTable id).filter fun s => includeUser || s.kind ≠ .user).map
    fun s => .deleteSnapshot s.snapshotId true)

/-- `DELETE` of a table: its record, its automatic snapshots and its materialized view go. -/
def deleteTable : CatalogM Unit := do
  ask env.engine
  call (.deleteTable id false)
  dropSnapshotsForTable id false
  call (.deleteMaterializedView id true)

/-! ## Routines -/

def insertRoutine (body : RoutineBody) : CatalogM Unit := do
  let r ← ask (restToRoutineMeta project dataset body none)
  let c ← state
  ask (orAlreadyExists (c.getRoutine r.key) (MemoryRepository.routineRef r.key))
  call (.createRoutine r)
  ask env.registry

variable (key : String × String × String)

def replaceRoutine (body : RoutineBody) : CatalogM Unit := do
  let c ← state
  let existing ← ask (orNotFound (c.getRoutine key) (MemoryRepository.routineRef key))
  let reference := body.routineReference.getD key.2.2
  let r ← ask (restToRoutineMeta key.1 key.2.1 { body with routineReference := reference } existing)
  call (.updateRoutine r)
  ask env.registry

def deleteRoutine : CatalogM Unit := do
  let c ← state
  let _ ← ask (orNotFound (c.getRoutine key) (MemoryRepository.routineRef key))
  ask env.registry
  call (.deleteRoutine key false)

def upsertRoutine (r : RoutineMeta) (orReplace : Bool) : CatalogM Unit := do
  let c ← state
  match c.getRoutine r.key with
  | none => call (.createRoutine r)
  | some _ =>
    if orReplace then call (.updateRoutine r)
    else raise (resourceAlreadyExists (MemoryRepository.routineRef r.key))
  ask env.registry

def runDropRoutine (ifExists : Bool) : CatalogM Unit := do
  let c ← state
  match c.getRoutine key with
  | none =>
    if ifExists then pure () else raise (resourceNotFound (MemoryRepository.routineRef key))
  | some _ => do
    ask env.registry
    call (.deleteRoutine key true)

/-! ## Models -/

def patchModel : CatalogM Unit := do
  let c ← state
  let existing ← ask (orNotFound (c.models.get? key) (MemoryRepository.modelRef key))
  ask env.checks
  call (.updateModel existing)

def deleteModel : CatalogM Unit := do
  let c ← state
  let _ ← ask (orNotFound (c.models.get? key) (MemoryRepository.modelRef key))
  call (.deleteModel key false)

inductive ModelOperation where
  | create
  | replace
  | skip
deriving DecidableEq

variable (c : MemoryRepository) (m : ModelMeta) (replace ifNotExists : Bool)

/-- What `CREATE MODEL` will do. -/
def preflightCreateModel : Except DomainError ModelOperation :=
  if (c.datasets.get? (m.projectId, m.datasetId)).isNone then
    .error (resourceNotFound (datasetRef m.projectId m.datasetId))
  else if (c.models.get? m.key).isNone then .ok .create
  else if replace then .ok .replace
  else if ifNotExists then .ok .skip
  else .error (resourceAlreadyExists (MemoryRepository.modelRef m.key))

def registerModel (operation : ModelOperation) : CatalogM Unit := do
  let c ← state
  if operation = .replace ∧ (c.models.get? m.key).isSome then call (.updateModel m)
  else call (.createModel m)

def createModel : CatalogM Unit := do
  let c ← state
  let operation ← ask (preflightCreateModel c m replace ifNotExists)
  if operation = .skip then pure ()
  else do
    ask env.engine
    ask env.checks
    registerModel m operation

/-! ## Row access policies -/

/-- A policy can be put on a table that exists and is no snapshot or materialized view. -/
def validateTarget (id : TableId) : Except DomainError Unit :=
  match c.getTable id with
  | none => .error (resourceNotFound id.resourceRef)
  | some m =>
    if m.tableType = .snapshot ∨ m.tableType = .materializedView then
      .error (.invalidQuery ("Row access policies cannot be attached to " ++
        s!"{m.tableType.text} tables; {id.project}.{id.dataset}.{id.table} is read-only."))
    else .ok ()

/-- A new policy, from a REST body or a `CREATE ROW ACCESS POLICY`. -/
def createPolicy (policyId filterPredicate : String) (grantees : List String) : CatalogM Unit := do
  let c ← state
  ask (validateTarget c id)
  ask env.checks
  call (.createRowAccessPolicy
    { id, policyId, filterPredicate, grantees
      creationTime := env.now, lastModifiedTime := env.now, etag := env.etag })

def updatePolicy (key : TableId × String) (filterPredicate : String) (grantees : List String) :
    CatalogM Unit := do
  let c ← state
  let existing ← ask (orNotFound (c.rowAccess.get? key)
    ⟨"row_access_policy", key.1.project, key.1.dataset, key.1.table⟩)
  ask env.checks
  call (.updateRowAccessPolicy
    { existing with filterPredicate, grantees, lastModifiedTime := env.now, etag := env.etag })

def deletePolicy (key : TableId × String) : CatalogM Unit :=
  call (.deleteRowAccessPolicy key false)

def missingPolicies (id : TableId) (policyIds : List String) : List String :=
  policyIds.filter fun policyId => (c.rowAccess.get? (id, policyId)).isNone

/-- `batchDelete`: every id has to name a policy, then they are deleted in turn. An id given twice
ends the loop. -/
def batchDeletePolicies (policyIds : List String) : CatalogM Unit := do
  let c ← state
  if policyIds = [] then
    raise (.invalidQuery "policyIds must be a non-empty array of strings")
  else if missingPolicies c id policyIds ≠ [] then
    raise (resourceNotFound ⟨"row_access_policy", id.project, id.dataset,
      id.table ++ "." ++ ",".intercalate (missingPolicies c id policyIds)⟩)
  else callEach (policyIds.map fun policyId => .deleteRowAccessPolicy (id, policyId) false)

/-! ## Statements the engine runs -/

variable (target : Table)

def targetParts : List String :=
  [target.catalog, target.db, target.name].filter fun part => part ≠ ""

/-- The table that a statement names. -/
def splitTarget (project : String) : TableId :=
  match targetParts target with
  | [p, d, t] => ⟨p, d, t⟩
  | [d, t] => ⟨project, d, t⟩
  | [t] => ⟨project, "", t⟩
  | _ => ⟨project, "", ""⟩

def resolveDatasetParts (project : String) : Option (String × String) :=
  let parts := match targetParts target with
    | [name] => (name.toList.splitOn '.').map String.ofList
    | parts => parts
  match parts with
  | [p, d] => some (p, d)
  | [d] => some (project, d)
  | _ => none

/-- A dataset that a statement names comes to be if it is not there. -/
def ensureDataset : CatalogM Unit := do
  let c ← state
  if (c.datasets.get? (project, dataset)).isSome then pure ()
  else call (.createDataset { projectId := project, datasetId := dataset })

def upsertTable (m : TableMeta) : CatalogM Unit := do
  let c ← state
  if (c.getTable m.id).isSome then call (.updateTable m) else call (.createTable m)

def createSchema (project : String) : CatalogM Unit := do
  ask env.engine
  match resolveDatasetParts target project with
  | none => pure ()
  | some (p, d) => if d = "" then pure () else ensureDataset p d

/-- Register the result of a `CREATE TABLE` or `CREATE VIEW`, and its dataset if that is missing. -/
def syncCreatedRelation (tableType : TableType) (viewQuery : Option Sql) : CatalogM Unit := do
  if id.dataset = "" ∨ id.table = "" then pure ()
  else do
    ensureDataset id.project id.dataset
    let (fields, count) ← ask env.introspected
    let numRows := if tableType = .view then 0 else count
    upsertTable { id, tableType, viewQuery, fields, numRows }

def createRelation (project : String) (tableType : TableType)
    (viewQuery : Option Sql) : CatalogM Unit := do
  ask env.engine
  syncCreatedRelation env (splitTarget target project) tableType viewQuery

/-- Take a table or view off the catalog: what goes is what a REST `DELETE` takes along. -/
def syncDroppedRelation : CatalogM Unit := do
  if id.dataset = "" ∨ id.table = "" then pure ()
  else do
    call (.deleteTable id true)
    dropSnapshotsForTable id false
    call (.deleteMaterializedView id true)

/-- `DROP TABLE` and `DROP VIEW`. -/
def dropRelation (project : String) : CatalogM Unit := do
  ask env.engine
  syncDroppedRelation (splitTarget target project)

def assertDropSchemaAllowed (project : String) (cascade : Bool) : Except DomainError Unit :=
  match resolveDatasetParts target project with
  | none => .ok ()
  | some (p, d) =>
    if !cascade && (c.datasets.get? (p, d)).isSome &&
        (!(c.listTables p d).isEmpty || !(c.listRoutines p d).isEmpty) then
      .error (.resourceInUse s!"Dataset {p}:{d} is still in use")
    else .ok ()

def dropSchema (project : String) (cascade : Bool) : CatalogM Unit := do
  let c ← state
  ask (assertDropSchemaAllowed c target project cascade)
  ask env.engine
  match resolveDatasetParts target project with
  | none => pure ()
  | some (p, d) => call (.deleteDataset p d true cascade)

/-! ## Snapshot tables, clones and materialized views -/

/-- What `CREATE SNAPSHOT TABLE` and `CLONE` check: a registered source, a free name and a dataset
for the target. -/
def validateCopy (target source : TableId) : Except DomainError TableMeta := do
  let src ← orNotFound (c.getTable source) source.resourceRef
  orAlreadyExists (c.getTable target) target.resourceRef
  let _ ← orNotFound (c.datasets.get? (target.project, target.dataset))
    (datasetRef target.project target.dataset)
  pure src

/-- `CREATE SNAPSHOT TABLE`: the table is registered before the snapshot, and stays when the
snapshot's id is taken. -/
def createSnapshotTable (target source : TableId) : CatalogM Unit := do
  let c ← state
  let src ← ask (validateCopy c target source)
  let _ ← ask (quotedTableRef source)
  match h : quotedTableRef target with
  | .error e => raise e
  | .ok _ => do
    ask env.engine
    let (_, numRows) ← ask env.introspected
    call (.createTable { id := target, tableType := .snapshot, fields := src.fields, numRows })
    call (.createSnapshot (userSnapshot env.now target source h))

/-- `DROP SNAPSHOT TABLE`: its record and the snapshot it stands for go. -/
def dropSnapshotTable (target : TableId) : CatalogM Unit := do
  let c ← state
  let existing ← ask (orNotFound (c.getTable target) target.resourceRef)
  if existing.tableType ≠ .snapshot then
    raise (.invalidQuery s!"Cannot DROP SNAPSHOT TABLE on table of type {existing.tableType.text}")
  else do
    ask env.engine
    call (.deleteSnapshot (userSnapshotId target) true)
    call (.deleteTable target false)

def cloneTable (target source : TableId) : CatalogM Unit := do
  let c ← state
  let src ← ask (validateCopy c target source)
  ask env.engine
  let (_, numRows) ← ask env.introspected
  call (.createTable { id := target, tableType := .clone, fields := src.fields, numRows })

def tableNode : Leaf → Option Table
  | .table t => some t
  | .wildcard w => some w.asTable
  | _ => none

/-- The tables that the query of a materialized view reads. -/
def extractBaseTables (viewQuery : Sql) (project : String) : Except DomainError (List TableId) :=
  if viewQuery.parses then
    .ok ((viewQuery.leaves.filterMap fun x => (tableNode x.2).bind fun t =>
      if t.name = "" ∨ t.db = "" then none
      else some ⟨if t.catalog = "" then project else t.catalog, t.db, t.name⟩).eraseDups)
  else .error (.invalidQuery "Cannot parse materialized-view query")

/-- What `CREATE MATERIALIZED VIEW` checks: a free name, a dataset, and a query over registered
tables, at least one. -/
def validateMaterializedView (id : TableId) (viewQuery : Sql) :
    Except DomainError (List TableId) := do
  orAlreadyExists (c.getTable id) id.resourceRef
  let _ ← orNotFound (c.datasets.get? (id.project, id.dataset)) (datasetRef id.project id.dataset)
  let baseTables ← extractBaseTables viewQuery id.project
  if baseTables = [] then
    throw (.invalidQuery "CREATE MATERIALIZED VIEW requires at least one base table")
  match baseTables.find? fun base => (c.getTable base).isNone with
  | some base => throw (resourceNotFound base.resourceRef)
  | none => pure baseTables

def createMaterializedView (viewQuery : Sql) : CatalogM Unit := do
  let c ← state
  let baseTables ← ask (validateMaterializedView c id viewQuery)
  ask env.engine
  let (fields, numRows) ← ask env.introspected
  call (.createTable { id, tableType := .materializedView, viewQuery, fields, numRows })
  call (.upsertMaterializedView { id, viewQuery, baseTables, lastRefreshTime := env.now })

/-- `DROP MATERIALIZED VIEW`: its two records go. -/
def dropMaterializedView : CatalogM Unit := do
  let c ← state
  let ref : ResourceRef := ⟨"materialized_view", id.project, id.dataset, id.table⟩
  let existing ← ask (orNotFound (c.getTable id) ref)
  if existing.tableType ≠ .materializedView then raise (resourceNotFound ref)
  else do
    ask env.engine
    call (.deleteTable id true)
    call (.deleteMaterializedView id true)

/-- `REFRESH MATERIALIZED VIEW`, and the refresh of a stale view before it is read. -/
def refreshMaterializedView : CatalogM Unit := do
  let c ← state
  let mv ← ask (orNotFound (c.mviews.get? id)
    ⟨"materialized_view", id.project, id.dataset, id.table⟩)
  ask env.engine
  let (_, numRows) ← ask env.introspected
  match c.getTable id with
  | none => pure ()
  | some m => call (.updateTable { m with numRows })
  call (.upsertMaterializedView { mv with lastRefreshTime := env.now, isStale := false })

/-! ## Write paths -/

/-- The views are marked as stale. -/
def markStale : List TableId → CatalogM Unit
  | [] => pure ()
  | view :: views => do
    let c ← state
    match c.mviews.get? view with
    | none => pure ()
    | some mv =>
      if mv.isStale then pure ()
      else call (.upsertMaterializedView { mv with isStale := true })
    markStale views

/-- A recorded change: an automatic snapshot if the table is registered, and the event. -/
def recordChange : CatalogM Unit := do
  let c ← state
  if (c.getTable id).isSome then do
    ask env.engine
    call (.createSnapshot (snapshotMeta env.now env.retentionDays id .auto env.hex))
  markStale env.subscribed

/-- The end of a write to a table: its number of rows, where the path keeps it, and the change. -/
def finishWrite (numRows : Option Nat) : CatalogM Unit := do
  let c ← state
  match c.getTable id, numRows with
  | some m, some numRows => call (.updateTable { m with numRows })
  | _, _ => pure ()
  recordChange env id

def createDestination (fields : List FieldSchema) (numRows : Nat) : CatalogM Unit := do
  let c ← state
  let _ ← ask (orNotFound (c.datasets.get? (id.project, id.dataset))
    (datasetRef id.project id.dataset))
  if (c.getTable id).isSome then pure ()
  else do
    ask env.engine
    call (.createTable { id, fields, numRows })

def purgeExpired : CatalogM Unit := do
  let c ← state
  callEach ((c.catalog.listAllSnapshots.filter fun s => s.isExpired env.now).map
    fun s => .deleteSnapshot s.snapshotId true)

end Requests

end Requests

/-! ## All requests -/

/-- The requests that change the catalog. -/
inductive CatalogRequest where
  | insertDataset (project : String) (body : DatasetBody)
  | replaceDataset (project dataset : String) (body : DatasetBody)
  | deleteDataset (project dataset : String) (deleteContents : Bool)
  | insertTable (project dataset : String) (body : TableBody)
  | replaceTable (id : TableId) (body : TableBody)
  | deleteTable (id : TableId)
  | insertRoutine (project dataset : String) (body : RoutineBody)
  | replaceRoutine (key : String × String × String) (body : RoutineBody)
  | deleteRoutine (key : String × String × String)
  | upsertRoutine (r : RoutineMeta) (orReplace : Bool)
  | dropRoutine (key : String × String × String) (ifExists : Bool)
  | patchModel (key : String × String × String)
  | deleteModel (key : String × String × String)
  | createModel (m : ModelMeta) (replace ifNotExists : Bool)
  | createPolicy (id : TableId) (policyId filterPredicate : String) (grantees : List String)
  | updatePolicy (key : TableId × String) (filterPredicate : String) (grantees : List String)
  | deletePolicy (key : TableId × String)
  | batchDeletePolicies (id : TableId) (policyIds : List String)
  | createSchema (target : Table) (project : String)
  | createRelation (target : Table) (project : String) (tableType : TableType)
      (viewQuery : Option Sql)
  | dropRelation (target : Table) (project : String)
  | dropSchema (target : Table) (project : String) (cascade : Bool)
  | createSnapshotTable (target source : TableId)
  | dropSnapshotTable (target : TableId)
  | cloneTable (target source : TableId)
  | createMaterializedView (id : TableId) (viewQuery : Sql)
  | dropMaterializedView (id : TableId)
  | refreshMaterializedView (id : TableId)
  | finishWrite (id : TableId) (numRows : Option Nat)
  | createDestination (id : TableId) (fields : List FieldSchema) (numRows : Nat)
  | purgeExpired

/-- The program of a request. -/
def Requests.serve (env : Surroundings) : CatalogRequest → CatalogM Unit
  | .insertDataset project body => insertDataset env project body
  | .replaceDataset project dataset body => replaceDataset project dataset body
  | .deleteDataset project dataset deleteContents =>
    deleteDataset env project dataset deleteContents
  | .insertTable project dataset body => insertTable env project dataset body
  | .replaceTable id body => replaceTable id body
  | .deleteTable id => deleteTable env id
  | .insertRoutine project dataset body => insertRoutine env project dataset body
  | .replaceRoutine key body => replaceRoutine env key body
  | .deleteRoutine key => deleteRoutine env key
  | .upsertRoutine r orReplace => upsertRoutine env r orReplace
  | .dropRoutine key ifExists => runDropRoutine env key ifExists
  | .patchModel key => patchModel env key
  | .deleteModel key => deleteModel key
  | .createModel m replace ifNotExists => createModel env m replace ifNotExists
  | .createPolicy id policyId filterPredicate grantees =>
    createPolicy env id policyId filterPredicate grantees
  | .updatePolicy key filterPredicate grantees => updatePolicy env key filterPredicate grantees
  | .deletePolicy key => deletePolicy key
  | .batchDeletePolicies id policyIds => batchDeletePolicies id policyIds
  | .createSchema target project => createSchema env target project
  | .createRelation target project tableType viewQuery =>
    createRelation env target project tableType viewQuery
  | .dropRelation target project => dropRelation env target project
  | .dropSchema target project cascade => dropSchema env target project cascade
  | .createSnapshotTable target source => createSnapshotTable env target source
  | .dropSnapshotTable target => dropSnapshotTable env target
  | .cloneTable target source => cloneTable env target source
  | .createMaterializedView id viewQuery => createMaterializedView env id viewQuery
  | .dropMaterializedView id => dropMaterializedView env id
  | .refreshMaterializedView id => refreshMaterializedView env id
  | .finishWrite id numRows => finishWrite env id numRows
  | .createDestination id fields numRows => createDestination env id fields numRows
  | .purgeExpired => purgeExpired env

end Bqemulator
