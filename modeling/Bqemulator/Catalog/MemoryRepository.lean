import Bqemulator.Catalog.Models
import Bqemulator.Lib.Keyed

/-!
# The in-memory repository

The dictionaries of the catalog and the operations on them. An operation checks all it needs before
it changes a dictionary. A dataset that holds tables, routines or models is deleted only if the
caller asks for that.
-/

namespace Bqemulator

/-! ## Errors -/

/-- What an error is about, as its message names it. -/
structure ResourceRef where
  kind : String
  projectId : String
  datasetId : Option String := none
  resourceId : Option String := none
deriving DecidableEq

variable (ref : ResourceRef)

def ResourceRef.format : String :=
  ref.kind ++ ":" ++ ref.projectId ++ (ref.datasetId.elim "" ("." ++ ·)) ++
    (ref.resourceId.elim "" ("." ++ ·))

def resourceNotFound : DomainError :=
  .notFound ("Not found: " ++ ref.format)

def resourceAlreadyExists : DomainError :=
  .alreadyExists ("Already Exists: " ++ ref.format)

section Dictionaries

variable {K R : Type} [DecidableEq K] {key : R → K} (t : Keyed key)

/-- A new record in a dictionary, whose key has to be free. -/
def createIn (r : R) (ref : ResourceRef) : Except DomainError (Keyed key) :=
  if (t.get? (key r)).isSome then .error (resourceAlreadyExists ref) else .ok (t.put r)

/-- A record in the place of the one with its key. -/
def updateIn (r : R) (ref : ResourceRef) : Except DomainError (Keyed key) :=
  if (t.get? (key r)).isSome then .ok (t.put r) else .error (resourceNotFound ref)

/-- A dictionary without the record under a key; none there may be an error. -/
def deleteFrom (k : K) (ref : ResourceRef) (notFoundOk : Bool) : Except DomainError (Keyed key) :=
  if (t.get? k).isSome then .ok (t.erase k)
  else if notFoundOk then .ok t else .error (resourceNotFound ref)

variable {S : Type} {t : Keyed key} {f : Keyed key → S} {s : S} {r : R} {k : K} {ref : ResourceRef}
  {notFoundOk : Bool}

attribute [local simp] Except.map

/-- When a creation in one dictionary succeeds, and what it leaves. -/
theorem createIn_map_eq_ok_iff :
    (createIn t r ref).map f = .ok s ↔ t.get? (key r) = none ∧ s = f (t.put r) := by
  unfold createIn
  cases h : t.get? (key r) <;> simp [eq_comm]

theorem updateIn_map_eq_ok (h : (updateIn t r ref).map f = .ok s) :
    (t.get? (key r)).isSome ∧ s = f (t.put r) := by
  unfold updateIn at h
  cases hk : t.get? (key r) with
  | none => simp [hk] at h
  | some o => simpa [hk, eq_comm] using h

theorem deleteFrom_map_eq_ok (h : (deleteFrom t k ref notFoundOk).map f = .ok s) :
    s = if (t.get? k).isSome then f (t.erase k) else f t := by
  unfold deleteFrom at h
  cases hk : t.get? k with
  | none =>
    cases notFoundOk <;> simp_all
  | some r => simpa [hk, eq_comm] using h

end Dictionaries

/-! ## The repository -/

/-- **The repository**: a dictionary for every kind of record. -/
structure MemoryRepository where
  datasets : Keyed DatasetMeta.key := .empty
  tables : Keyed TableMeta.id := .empty
  routines : Keyed RoutineMeta.key := .empty
  models : Keyed ModelMeta.key := .empty
  jobs : Keyed JobMeta.key := .empty
  snapshots : Keyed SnapshotMeta.snapshotId := .empty
  mviews : Keyed MaterializedViewMeta.id := .empty
  rowAccess : Keyed RowAccessPolicyMeta.key := .empty

variable (c : MemoryRepository) (project dataset : String) (id : TableId)

def TableId.inDataset : Bool :=
  id.project = project && id.dataset = dataset

variable (key : String × String × String)

def inDataset : Bool :=
  key.1 = project && key.2.1 = dataset

def TableId.resourceRef : ResourceRef :=
  ⟨"table", id.project, id.dataset, id.table⟩

def datasetRef : ResourceRef :=
  ⟨"dataset", project, dataset, none⟩

namespace MemoryRepository

/-! ### Datasets -/

def createDataset (m : DatasetMeta) : Except DomainError MemoryRepository :=
  (createIn c.datasets m (datasetRef m.projectId m.datasetId)).map fun datasets =>
    { c with datasets }

def updateDataset (m : DatasetMeta) : Except DomainError MemoryRepository :=
  (updateIn c.datasets m (datasetRef m.projectId m.datasetId)).map fun datasets =>
    { c with datasets }

/-- Whether a dataset has contents that block its deletion; policies, materialized views and
snapshots do not. -/
def hasContents : Bool :=
  c.tables.rows.any (fun m => m.id.inDataset project dataset) ||
    c.routines.rows.any (fun r => inDataset project dataset r.key) ||
    c.models.rows.any (fun m => inDataset project dataset m.key)

/-- The dictionaries without a dataset and what lies in it. -/
def withoutDataset : MemoryRepository :=
  { c with
    tables := c.tables.removeIf fun m => m.id.inDataset project dataset
    routines := c.routines.removeIf fun r => inDataset project dataset r.key
    models := c.models.removeIf fun m => inDataset project dataset m.key
    rowAccess := c.rowAccess.removeIf fun p => p.id.inDataset project dataset
    mviews := c.mviews.removeIf fun v => v.id.inDataset project dataset
    snapshots := c.snapshots.removeIf fun s => s.source.inDataset project dataset
    datasets := c.datasets.erase (project, dataset) }

/-- Deleting a dataset. -/
def deleteDataset (notFoundOk deleteContents : Bool) : Except DomainError MemoryRepository :=
  if (c.datasets.get? (project, dataset)).isNone then
    if notFoundOk then .ok c else .error (resourceNotFound (datasetRef project dataset))
  else if c.hasContents project dataset && !deleteContents then
    .error (.notFound (s!"Dataset {project}.{dataset} is not empty; " ++
      "use delete_contents=True to cascade."))
  else .ok (c.withoutDataset project dataset)

/-- A dictionary with a new record: its name has to be free, then its dataset has to exist. -/
def createInDataset {K R : Type} [DecidableEq K] {key : R → K} (t : Keyed key) (r : R)
    (ref : ResourceRef) (project dataset : String) : Except DomainError (Keyed key) :=
  (createIn t r ref).bind fun t' =>
    if (c.datasets.get? (project, dataset)).isSome then .ok t'
    else .error (resourceNotFound (datasetRef project dataset))

/-! ### Tables -/

def getTable : Option TableMeta :=
  c.tables.get? id

def listTables : List TableMeta :=
  c.tables.rows.filter fun m => m.id.inDataset project dataset

/-- Creating a table: its name has to be free, then its dataset has to exist. -/
def createTable (m : TableMeta) : Except DomainError MemoryRepository :=
  (c.createInDataset c.tables m m.id.resourceRef m.id.project m.id.dataset).map fun tables =>
    { c with tables }

def updateTable (m : TableMeta) : Except DomainError MemoryRepository :=
  (updateIn c.tables m m.id.resourceRef).map fun tables => { c with tables }

variable (notFoundOk : Bool)

def deleteTable : Except DomainError MemoryRepository :=
  (deleteFrom c.tables id id.resourceRef notFoundOk).map fun tables => { c with tables }

/-! ### Routines and models -/

def routineRef : ResourceRef :=
  ⟨"routine", key.1, key.2.1, key.2.2⟩

def getRoutine : Option RoutineMeta :=
  c.routines.get? key

def listRoutines : List RoutineMeta :=
  c.routines.rows.filter fun r => inDataset project dataset r.key

def createRoutine (r : RoutineMeta) : Except DomainError MemoryRepository :=
  (c.createInDataset c.routines r (routineRef r.key) r.projectId r.datasetId).map fun routines =>
    { c with routines }

def updateRoutine (r : RoutineMeta) : Except DomainError MemoryRepository :=
  (updateIn c.routines r (routineRef r.key)).map fun routines => { c with routines }

def deleteRoutine : Except DomainError MemoryRepository :=
  (deleteFrom c.routines key (routineRef key) notFoundOk).map fun routines => { c with routines }

def modelRef : ResourceRef :=
  ⟨"model", key.1, key.2.1, key.2.2⟩

def createModel (m : ModelMeta) : Except DomainError MemoryRepository :=
  (c.createInDataset c.models m (modelRef m.key) m.projectId m.datasetId).map fun models =>
    { c with models }

def updateModel (m : ModelMeta) : Except DomainError MemoryRepository :=
  (updateIn c.models m (modelRef m.key)).map fun models => { c with models }

def deleteModel : Except DomainError MemoryRepository :=
  (deleteFrom c.models key (modelRef key) notFoundOk).map fun models => { c with models }

/-! ### Jobs -/

def upsertJob (j : JobMeta) : MemoryRepository :=
  { c with jobs := c.jobs.put j }

def deleteJob (key : String × String) (notFoundOk : Bool) :
    Except DomainError MemoryRepository :=
  (deleteFrom c.jobs key ⟨"job", key.1, none, key.2⟩ notFoundOk).map fun jobs => { c with jobs }

/-! ### Snapshots -/

def createSnapshot (s : SnapshotMeta) : Except DomainError MemoryRepository :=
  (createIn c.snapshots s ⟨"snapshot", s.source.project, s.source.dataset, s.snapshotId⟩).map
    fun snapshots => { c with snapshots }

def deleteSnapshot (snapshotId : String) (notFoundOk : Bool) :
    Except DomainError MemoryRepository :=
  (deleteFrom c.snapshots snapshotId ⟨"snapshot", "", none, snapshotId⟩ notFoundOk).map
    fun snapshots => { c with snapshots }

/-! ### Materialized views -/

def upsertMaterializedView (v : MaterializedViewMeta) : MemoryRepository :=
  { c with mviews := c.mviews.put v }

def deleteMaterializedView : Except DomainError MemoryRepository :=
  (deleteFrom c.mviews id ⟨"materialized_view", id.project, id.dataset, id.table⟩ notFoundOk).map
    fun mviews => { c with mviews }

/-! ### Row access policies -/

def rapRef (key : TableId × String) : ResourceRef :=
  ⟨"row_access_policy", key.1.project, key.1.dataset, key.1.table ++ "." ++ key.2⟩

def createRowAccessPolicy (p : RowAccessPolicyMeta) : Except DomainError MemoryRepository :=
  (createIn c.rowAccess p (rapRef p.key)).map fun rowAccess => { c with rowAccess }

def updateRowAccessPolicy (p : RowAccessPolicyMeta) : Except DomainError MemoryRepository :=
  (updateIn c.rowAccess p (rapRef p.key)).map fun rowAccess => { c with rowAccess }

def deleteRowAccessPolicy (key : TableId × String) (notFoundOk : Bool) :
    Except DomainError MemoryRepository :=
  (deleteFrom c.rowAccess key (rapRef key) notFoundOk).map fun rowAccess => { c with rowAccess }

end MemoryRepository

/-! ## The operations -/

/-- The operations that change the catalog. -/
inductive CatalogOp where
  | createDataset (m : DatasetMeta)
  | updateDataset (m : DatasetMeta)
  | deleteDataset (project dataset : String) (notFoundOk deleteContents : Bool)
  | createTable (m : TableMeta)
  | updateTable (m : TableMeta)
  | deleteTable (id : TableId) (notFoundOk : Bool)
  | createRoutine (r : RoutineMeta)
  | updateRoutine (r : RoutineMeta)
  | deleteRoutine (key : String × String × String) (notFoundOk : Bool)
  | createModel (m : ModelMeta)
  | updateModel (m : ModelMeta)
  | deleteModel (key : String × String × String) (notFoundOk : Bool)
  | upsertJob (j : JobMeta)
  | deleteJob (key : String × String) (notFoundOk : Bool)
  | createSnapshot (s : SnapshotMeta)
  | deleteSnapshot (snapshotId : String) (notFoundOk : Bool)
  | upsertMaterializedView (v : MaterializedViewMeta)
  | deleteMaterializedView (id : TableId) (notFoundOk : Bool)
  | createRowAccessPolicy (p : RowAccessPolicyMeta)
  | updateRowAccessPolicy (p : RowAccessPolicyMeta)
  | deleteRowAccessPolicy (key : TableId × String) (notFoundOk : Bool)

variable {project dataset : String} {m : DatasetMeta} {p : RowAccessPolicyMeta}

namespace MemoryRepository

/-- What an operation does to the dictionaries. -/
def perform (c : MemoryRepository) : CatalogOp → Except DomainError MemoryRepository
  | .createDataset m => c.createDataset m
  | .updateDataset m => c.updateDataset m
  | .deleteDataset project dataset notFoundOk deleteContents =>
    c.deleteDataset project dataset notFoundOk deleteContents
  | .createTable m => c.createTable m
  | .updateTable m => c.updateTable m
  | .deleteTable id notFoundOk => c.deleteTable id notFoundOk
  | .createRoutine r => c.createRoutine r
  | .updateRoutine r => c.updateRoutine r
  | .deleteRoutine key notFoundOk => c.deleteRoutine key notFoundOk
  | .createModel m => c.createModel m
  | .updateModel m => c.updateModel m
  | .deleteModel key notFoundOk => c.deleteModel key notFoundOk
  | .upsertJob j => .ok (c.upsertJob j)
  | .deleteJob key notFoundOk => c.deleteJob key notFoundOk
  | .createSnapshot s => c.createSnapshot s
  | .deleteSnapshot snapshotId notFoundOk => c.deleteSnapshot snapshotId notFoundOk
  | .upsertMaterializedView v => .ok (c.upsertMaterializedView v)
  | .deleteMaterializedView id notFoundOk => c.deleteMaterializedView id notFoundOk
  | .createRowAccessPolicy p => c.createRowAccessPolicy p
  | .updateRowAccessPolicy p => c.updateRowAccessPolicy p
  | .deleteRowAccessPolicy key notFoundOk => c.deleteRowAccessPolicy key notFoundOk

/-- Two repositories hold the same catalog. -/
structure Same (c c' : MemoryRepository) : Prop where
  datasets : c.datasets.Same c'.datasets
  tables : c.tables.Same c'.tables
  routines : c.routines.Same c'.routines
  models : c.models.Same c'.models
  jobs : c.jobs.Same c'.jobs
  snapshots : c.snapshots.Same c'.snapshots
  mviews : c.mviews.Same c'.mviews
  rowAccess : c.rowAccess.Same c'.rowAccess

/-! ## What the operations do -/

variable {r : RoutineMeta} {key : String × String × String}

section Specs

variable {c c' : MemoryRepository}

/-- A record in a dataset is created if its key is free and the dataset is there. -/
theorem createInDataset_map_eq_ok_iff {K R S : Type} [DecidableEq K] {key : R → K} {t : Keyed key}
    {f : Keyed key → S} {s : S} {r : R} {ref : ResourceRef} :
    (c.createInDataset t r ref project dataset).map f = .ok s ↔
      t.get? (key r) = none ∧ (c.datasets.get? (project, dataset)).isSome ∧ s = f (t.put r) := by
  unfold createInDataset createIn
  cases h : t.get? (key r) with
  | none =>
    cases hd : c.datasets.get? (project, dataset) with
    | none => simp [Except.map]
    | some m => simp [Except.map, eq_comm]
  | some o => simp [Except.map]

variable {notFoundOk : Bool}

/-- What deleting a dataset leaves. -/
theorem deleteDataset_eq_ok {d : Bool}
    (h : c.deleteDataset project dataset notFoundOk d = .ok c') :
    (c.datasets.get? (project, dataset) = none ∧ c' = c) ∨
      ((c.datasets.get? (project, dataset)).isSome ∧
        (c.hasContents project dataset = true → d = true) ∧
        c' = c.withoutDataset project dataset) := by
  unfold deleteDataset at h
  cases hd : c.datasets.get? (project, dataset) with
  | none =>
    cases notFoundOk <;> simp_all
  | some m =>
    cases hc : c.hasContents project dataset <;> cases d <;> simp_all

theorem createTable_eq_ok_iff {m : TableMeta} :
    c.createTable m = .ok c' ↔
      c.tables.get? m.id = none ∧ (c.datasets.get? (m.id.project, m.id.dataset)).isSome ∧
        c' = { c with tables := c.tables.put m } :=
  createInDataset_map_eq_ok_iff

end Specs

/-! ## The catalog of the query paths -/

/-- What the passes on statements read of the dictionaries. -/
def catalog (c : MemoryRepository) : Catalog where
  datasets := c.datasets.rows.map DatasetMeta.key
  tables := c.tables.rows
  policies := c.rowAccess.rows
  snapshots := c.snapshots.rows

end MemoryRepository

end Bqemulator
