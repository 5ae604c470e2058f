import Bqemulator.Jobs.Load
import Bqemulator.Versioning.MaterializedViews

/-!
# Other writes to tables

Copy jobs and `tabledata.insertAll` write rows to a table and record the change, as load jobs do.
None of the three looks at the type of the table, and each touches no other.
-/

namespace Bqemulator

open Comp (Respects Sequential raise)
open LoadM Comp DuckDb MemoryRepository Requests

variable {Row : Type}

/-! ## Copy jobs -/

/-- What a copy job finds outside: the conversion of rows from some columns to others, and the
surroundings of the snapshot. -/
structure CopyEnv (Row : Type) where
  convert : List (String × String) → List (String × String) → List Row →
    Except DomainError (List Row)
  surroundings : Surroundings

def DuckDb.createTableAs (db : DuckDb Row) (ref source : String × String) :
    Except DomainError (DuckDb Row) :=
  match db.get? source with
  | none => .error (noTable source)
  | some table =>
    (db.createTable ref (.ok table.columns)).bind fun db =>
      db.insertInto ref fun _ => .ok table.rows

def DuckDb.insertFrom (env : CopyEnv Row) (db : DuckDb Row) (ref source : String × String) :
    Except DomainError (DuckDb Row) :=
  match db.get? source with
  | none => .error (noTable source)
  | some table => db.insertInto ref fun columns => env.convert table.columns columns table.rows

section Copy

variable (env : CopyEnv Row) (source destination : TableId)

def applyCopyWriteDisposition (ref : String × String) (writeDisposition : String) :
    LoadM Row Unit :=
  if writeDisposition = "WRITE_TRUNCATE" then onDb .disposition fun db => db.deleteFrom ref
  else if writeDisposition = "WRITE_EMPTY" then
    ask .disposition fun w => (w.db.count ref).bind fun count =>
      if 0 < count then .error (.invalidQuery ("Table " ++ destination.dataset ++ "." ++
        destination.table ++ " is not empty and writeDisposition is WRITE_EMPTY"))
      else .ok ()
  else pure ()

def createCopyDestination (src : TableMeta) (srcRef dstRef : String × String) : LoadM Row Unit := do
  onDb .destination fun db => db.createTableAs dstRef srcRef
  let numRows ← ask .destination fun w => w.db.count dstRef
  onCatalog .destination
    (call (.createTable { id := destination, fields := src.fields, numRows }))

/-- The rows of a copy: into a table that is created, or into the one that is there. -/
def copyRows (src : TableMeta) (srcRef dstRef : String × String) (writeDisposition : String)
    (createIfNeeded : Bool) : LoadM Row Unit := fun w =>
  match w.catalog.getTable destination with
  | none =>
    if createIfNeeded then createCopyDestination destination src srcRef dstRef w
    else ⟨[], .error ⟨.destination, resourceNotFound destination.resourceRef⟩, w⟩
  | some _ =>
    (do
      applyCopyWriteDisposition destination dstRef writeDisposition
      onDb (.file 0) fun db => db.insertFrom env dstRef srcRef : LoadM Row Unit) w

/-- A copy job of the kinds `COPY` and `RESTORE`. -/
def copyTableIntoDestination (writeDisposition : String) (createIfNeeded : Bool) :
    LoadM Row Unit := do
  let src ← ask .config fun w =>
    orNotFound (w.catalog.getTable source) source.resourceRef
  let _ ← ask .config fun w =>
    orNotFound (w.catalog.datasets.get? (destination.project, destination.dataset))
      (datasetRef destination.project destination.dataset)
  let srcRef ← ask .config fun _ => quotedTableRef source
  let dstRef ← ask .config fun _ => quotedTableRef destination
  copyRows env destination src srcRef dstRef writeDisposition createIfNeeded
  onCatalog .finish (recordChange env.surroundings destination)

end Copy

/-! ## Streaming inserts -/

/-- What a streaming insert finds outside: the conversions of a row by the fields and to the
columns, and the surroundings of the snapshot. -/
structure InsertAllEnv (Raw Row : Type) where
  toArrow : List FieldSchema → Raw → Except DomainError Row
  convert : List (String × String) → List Row → Except DomainError (List Row)
  surroundings : Surroundings

section InsertAll

variable {Raw : Type} (env : InsertAllEnv Raw Row) (id : TableId)

/-- The rows of a request; the first that cannot be converted is an error unless invalid rows are
skipped. -/
def arrowRows (fields : List FieldSchema) (rows : List Raw) (skipInvalidRows : Bool) :
    Except DomainError (List Row) :=
  if skipInvalidRows then .ok (rows.filterMap fun row => (env.toArrow fields row).toOption)
  else rows.mapM (env.toArrow fields)

def insertConverted (m : TableMeta) (rows : List Row) : LoadM Row Unit := do
  let ref ← ask .config fun _ => quotedTableRef id
  onDb (.file 0) fun db => db.insertInto ref fun columns => env.convert columns rows
  onCatalog .finish (finishWrite env.surroundings id (some (m.numRows + rows.length)))

def insertAll (rows : List Raw) (skipInvalidRows : Bool) : LoadM Row Unit := do
  let m ← ask .config fun w => orNotFound (w.catalog.getTable id) id.resourceRef
  if rows.isEmpty then pure ()
  else do
    let converted ← ask (.file 0) fun _ => arrowRows env m.fields rows skipInvalidRows
    if skipInvalidRows && converted.isEmpty then pure ()
    else insertConverted env id m converted

end InsertAll

/-! ## What a write touches -/

/-- **A change of one entry**: the other entries of the catalog's tables stay. -/
def OnlyEntry (id : TableId) (c c' : MemoryRepository) : Prop :=
  ∀ id', id' ≠ id → c'.tables.get? id' = c.tables.get? id'

theorem onlyEntry_sequential (id : TableId) :
    Sequential (fun c (_ : List CatalogOp) c' => OnlyEntry id c c') where
  refl _ _ _ := rfl
  trans h h' := fun id' hn => (h' id' hn).trans (h id' hn)

variable {id : TableId}

theorem onlyEntry_call {op : CatalogOp} {c : MemoryRepository}
    (h : ∀ c', c.perform op = .ok c' → OnlyEntry id c c') :
    OnlyEntry id c (Requests.call op c).state := by
  rcases Comp.call_cases MemoryRepository.perform op c with ⟨c', ho, heq⟩ | ⟨e, -, heq⟩
  · rw [Requests.call, heq]
    exact h c' ho
  · rw [Requests.call, heq]
    exact fun _ _ => rfl

theorem onlyEntry_put {m : TableMeta} (hm : m.id = id) (c : MemoryRepository) :
    OnlyEntry id c { c with tables := c.tables.put m } := by
  intro id' hn
  rw [Keyed.get?_put, if_neg fun heq => hn (heq.symm.trans hm)]

theorem onlyEntry_createTable {m : TableMeta} (hm : m.id = id) :
    Respects (fun c _ c' => OnlyEntry id c c') (call (.createTable m)) := by
  intro c
  apply onlyEntry_call
  intro c' ho
  obtain ⟨-, -, rfl⟩ := MemoryRepository.createTable_eq_ok_iff.1 ho
  exact onlyEntry_put hm c

variable (env : Surroundings)

theorem tables_recordChange (id : TableId) (c : MemoryRepository) :
    (recordChange env id c).state.tables = c.tables := by
  rcases recordChange_cases env id c with ⟨-, -, e, hr⟩ | ⟨-, -, c', hs, ht, -⟩
  · rw [hr]
  · rw [hs, (markStale_state env.subscribed c').2.1, ht]

theorem onlyEntry_recordChange (id : TableId) :
    Respects (fun c _ c' => OnlyEntry id c c') (recordChange env id) :=
  fun c _ _ => congrArg (Keyed.get? · _) (tables_recordChange env id c)

theorem onlyEntry_finishWrite (id : TableId) (numRows : Option Nat) :
    Respects (fun c _ c' => OnlyEntry id c c') (finishWrite env id numRows) := by
  intro c
  rw [finishWrite, run_state_bind]
  have hr := onlyEntry_recordChange env id
  cases hm : c.getTable id with
  | none => exact hr c
  | some m =>
    cases numRows with
    | none => exact hr c
    | some numRows =>
      refine bind_at (onlyEntry_sequential id) (onlyEntry_call ?_) fun _ _ => hr _
      intro c' ho
      obtain ⟨-, rfl⟩ := updateIn_map_eq_ok ho
      have hi : m.id = id := Keyed.key_of_get? hm
      exact onlyEntry_put (m := { m with numRows }) hi c

/-- **A statement about one table**: the other tables of the database stay. -/
def OnlyTable (ref : String × String) (db db' : DuckDb Row) : Prop :=
  ∀ ref', ref' ≠ ref → db'.get? ref' = db.get? ref'

section Statements

variable {ref : String × String} {db db' : DuckDb Row}

theorem onlyTable_put {t : DuckTable Row} {s : List String} (h : t.ref = ref) :
    OnlyTable ref db ⟨s, db.tables.put t⟩ := by
  intro r' hn
  show (db.tables.put t).get? r' = _
  rw [Keyed.get?_put, if_neg fun heq => hn (heq.symm.trans h)]
  rfl

theorem onlyTable_dropTable : OnlyTable ref db (db.dropTable ref) := by
  intro r' hn
  show (db.tables.erase ref).get? r' = _
  rw [Keyed.get?_erase, if_neg hn]
  rfl

theorem onlyTable_createTable {columns : Except DomainError (List (String × String))}
    (h : db.createTable ref columns = .ok db') : OnlyTable ref db db' := by
  obtain ⟨-, -, -, c, -, ht⟩ := get?_createTable h
  obtain ⟨s, t⟩ := db'
  cases ht
  exact onlyTable_put rfl

theorem onlyTable_deleteFrom (h : db.deleteFrom ref = .ok db') : OnlyTable ref db db' := by
  obtain ⟨t, hg, h⟩ := found_of_ok h
  cases h
  have href : t.ref = ref := ref_of_get? hg
  exact onlyTable_put href

theorem onlyTable_insertInto {source : List (String × String) → Except DomainError (List Row)}
    (h : db.insertInto ref source = .ok db') : OnlyTable ref db db' := by
  obtain ⟨t, hg, h⟩ := found_of_ok h
  obtain ⟨rows, -, rfl⟩ := Except.map_eq_ok_iff.1 h
  have href : t.ref = ref := ref_of_get? hg
  exact onlyTable_put href

theorem onlyTable_createTableAs {source : String × String}
    (h : db.createTableAs ref source = .ok db') : OnlyTable ref db db' := by
  obtain ⟨t, -, h⟩ := found_of_ok h
  obtain ⟨c, hc, hinsert⟩ := Except.bind_eq_ok_iff.1 h
  intro r' hn
  rw [onlyTable_insertInto hinsert r' hn, onlyTable_createTable hc r' hn]

theorem onlyTable_insertFrom {e : CopyEnv Row} {source : String × String}
    (h : db.insertFrom e ref source = .ok db') : OnlyTable ref db db' := by
  obtain ⟨t, -, h⟩ := found_of_ok h
  exact onlyTable_insertInto h

end Statements

/-- A write touches one table of the database and its entry in the catalog. -/
def OnlyTouches (ref : String × String) (id : TableId) (w w' : LoadWorld Row) : Prop :=
  OnlyTable ref w.db w'.db ∧ OnlyEntry id w.catalog w'.catalog

variable {α β : Type} {st : LoadStage}

/-- The table a block names, in the project of the request if it names no project. -/
def LoadConfiguration.destination (config : LoadConfiguration) (projectId : String) : TableId :=
  ⟨config.destinationProject.getD projectId, config.destinationDataset.getD "",
    config.destinationTable.getD ""⟩

variable (ref : String × String) (id : TableId)

theorem touches_sequential :
    Sequential (fun (w : LoadWorld Row) (_ : List Unit) w' => OnlyTouches ref id w w') where
  refl _ := ⟨fun _ _ => rfl, fun _ _ => rfl⟩
  trans h h' := ⟨fun r' hn => (h'.1 r' hn).trans (h.1 r' hn),
    fun id' hn => (h'.2 id' hn).trans (h.2 id' hn)⟩

/-- The programs that touch one table at most. -/
def Touches {α : Type} (program : LoadM Row α) : Prop :=
  Respects (fun w _ w' => OnlyTouches ref id w w') program

variable {ref id}

namespace Touches

protected theorem ask (stage : LoadStage) (answer : LoadWorld Row → Except DomainError α) :
    Touches ref id (ask stage answer) :=
  Respects.lift (touches_sequential ref id) _

protected theorem pure (a : α) : Touches ref id (pure a : LoadM Row α) :=
  Respects.ret (touches_sequential ref id) a

protected theorem bind {program : LoadM Row α} {next : α → LoadM Row β} (h : Touches ref id program)
    (hnext : ∀ a, Touches ref id (next a)) : Touches ref id (program >>= next) :=
  Respects.bind (touches_sequential ref id) h hnext

protected theorem onDb {statement : DuckDb Row → Except DomainError (DuckDb Row)}
    (h : ∀ {db db'}, statement db = .ok db' → OnlyTable ref db db') :
    Touches ref id (onDb stage statement) := by
  intro w
  rcases onDb_cases stage statement w with ⟨db, hok, hrun⟩ | ⟨e, hrun⟩
  · rw [hrun]
    exact ⟨h hok, fun _ _ => rfl⟩
  · rw [hrun]
    exact (touches_sequential ref id).refl w

protected theorem onCatalog {program : CatalogM Unit}
    (h : Respects (fun c _ c' => OnlyEntry id c c') program) :
    Touches ref id (onCatalog stage program : LoadM Row Unit) :=
  fun w => ⟨fun _ _ => rfl, h w.catalog⟩

theorem ask_bind {answer : Except DomainError α} {next : α → LoadM Row β}
    (h : ∀ a, answer = .ok a → Touches ref id (next a)) :
    Touches ref id (ask st (fun _ => answer) >>= next) := by
  intro w
  refine bind_at (touches_sequential ref id) (Touches.ask st _ w) fun a ha => ?_
  rcases ask_cases st (fun _ => answer) w with ⟨a', ho, hr⟩ | ⟨e, hr⟩
  · rw [hr] at ha ⊢
    cases ha
    exact h a ho w
  · rw [hr] at ha
    cases ha

/-! ## The three writes -/

section Load

variable (env : LoadEnv Row) (job : LoadJob)

protected theorem describeOrDrop : Touches job.targetRef job.id (describeOrDrop env job) := by
  apply Respects.tryCatch (touches_sequential _ _) (Touches.ask _ _)
  intro failure
  refine Touches.bind (.modify fun w => ⟨onlyTable_dropTable, fun _ _ => rfl⟩) ?_
  exact fun _ => .raise (touches_sequential _ _) failure

protected theorem inferAutodetectSchema (uri : String) :
    Touches job.targetRef job.id (inferAutodetectSchema env job uri) :=
  .bind (.ask _ _) fun _ =>
    .bind (.ask _ _) fun _ =>
      .bind (.onDb onlyTable_createTable) fun _ => .describeOrDrop env job

protected theorem registerDestination (fields : List FieldSchema) :
    Touches job.targetRef job.id (registerDestination job fields : LoadM Row Unit) :=
  .onCatalog (onlyEntry_createTable rfl)

protected theorem createFromFile (uri : String) :
    Touches job.targetRef job.id (createFromFile env job uri) := by
  refine .bind (.inferAutodetectSchema env job uri) fun fields => ?_
  split
  · exact .pure ()
  · exact .registerDestination job fields

protected theorem maybeCreateLoadDestination :
    Touches job.targetRef job.id (maybeCreateLoadDestination env job) := by
  unfold maybeCreateLoadDestination
  split
  · exact .bind (.ask _ _) fun _ =>
      .bind (.onDb onlyTable_createTable) fun _ => .registerDestination job _
  · split
    · refine .bind (.ask _ _) fun _ => ?_
      cases job.sourceUris with
      | nil => exact .pure ()
      | cons uri _ =>
        dsimp only
        split
        · exact .createFromFile env job uri
        · exact .pure ()
    · exact .pure ()

protected theorem createIfNeeded : Touches job.targetRef job.id (createIfNeeded env job) := by
  intro w
  unfold createIfNeeded
  split
  · exact Touches.maybeCreateLoadDestination env job w
  · exact Touches.pure () w

protected theorem applyLoadWriteDisposition :
    Touches job.targetRef job.id (applyLoadWriteDisposition job : LoadM Row Unit) := by
  unfold applyLoadWriteDisposition
  split
  · exact .onDb onlyTable_deleteFrom
  · split
    · exact .ask _ _
    · exact .pure ()

protected theorem loadPaths (index : Nat) (p : List String) :
    Touches job.targetRef job.id (loadPaths env job index p) := by
  induction p generalizing index with
  | nil => exact .pure ()
  | cons path p ih =>
    exact .bind (.onDb onlyTable_insertInto) fun _ => ih (index + 1)

protected theorem finishLoad (count : Nat) :
    Touches job.targetRef job.id (finishLoad env job count) := by
  intro w
  unfold finishLoad
  split
  · exact Touches.onCatalog (onlyEntry_finishWrite env.surroundings job.id (some count)) w
  · exact Touches.pure () w

protected theorem runLoadJob : Touches job.targetRef job.id (runLoadJob env job) :=
  .bind (.createIfNeeded env job) fun _ =>
    .bind (.ask _ _) fun p =>
      .bind (.applyLoadWriteDisposition job) fun _ =>
        .bind (.loadPaths env job 0 p) fun _ =>
          .bind (.ask _ _) fun count =>
            .bind (.finishLoad env job count) fun _ => .pure count

end Load

protected theorem handleLoadJob (env : LoadEnv Row) (projectId : String)
    (config : LoadConfiguration) :
    Touches (config.destination projectId).key (config.destination projectId)
      (handleLoadJobWithAsyncEnvelope env projectId config) := by
  refine .tryCatch (touches_sequential _ _)
    (Touches.bind (.ask_bind fun job hjob => ?_) fun _ => Touches.pure _) fun failure => ?_
  · have htouches := Touches.runLoadJob env job
    obtain ⟨ref, href, rfl⟩ := Except.map_eq_ok_iff.1 hjob
    obtain rfl := (quotedTableRef_eq_ok href).1
    exact htouches
  · -- the answer is made without a further step
    split <;> exact (touches_sequential _ _).refl

section Copy

variable (env : CopyEnv Row) (source destination : TableId) {srcRef dstRef : String × String}

protected theorem createCopyDestination (src : TableMeta) :
    Touches dstRef destination
      (createCopyDestination destination src srcRef dstRef : LoadM Row Unit) :=
  .bind (.onDb onlyTable_createTableAs) fun _ =>
    .bind (.ask _ _) fun _ => .onCatalog (onlyEntry_createTable rfl)

protected theorem applyCopyWriteDisposition (disposition : String) :
    Touches dstRef destination
      (applyCopyWriteDisposition destination dstRef disposition : LoadM Row Unit) := by
  unfold applyCopyWriteDisposition
  split
  · exact .onDb onlyTable_deleteFrom
  · split
    · exact .ask _ _
    · exact .pure ()

protected theorem copyRows (src : TableMeta) (disposition : String) (createIfNeeded : Bool) :
    Touches dstRef destination
      (copyRows env destination src srcRef dstRef disposition createIfNeeded) := by
  intro w
  unfold copyRows
  cases w.catalog.getTable destination with
  | none =>
    cases createIfNeeded with
    | true => exact Touches.createCopyDestination destination src w
    | false => exact (touches_sequential _ _).refl w
  | some _ =>
    have hinsert : Touches dstRef destination
        (onDb (.file 0) fun db => db.insertFrom env dstRef srcRef) :=
      .onDb onlyTable_insertFrom
    exact Touches.bind (Touches.applyCopyWriteDisposition destination disposition)
      (fun _ => hinsert) w

protected theorem copy (disposition : String) (createIfNeeded : Bool) :
    Touches destination.key destination
      (copyTableIntoDestination env source destination disposition createIfNeeded) := by
  refine .bind (.ask _ _) fun src => .bind (.ask _ _) fun _ =>
    .bind (.ask _ _) fun srcRef => .ask_bind fun dstRef href => ?_
  rw [← (quotedTableRef_eq_ok href).1]
  exact .bind (.copyRows env destination src disposition createIfNeeded) fun _ =>
    .onCatalog (onlyEntry_recordChange env.surroundings destination)

end Copy

protected theorem insertAll {Raw : Type} (env : InsertAllEnv Raw Row) (id : TableId)
    (rows : List Raw)
    (skipInvalidRows : Bool) : Touches id.key id (insertAll env id rows skipInvalidRows) := by
  refine .bind (.ask _ _) fun m => ?_
  split
  · exact .pure ()
  · refine .bind (.ask _ _) fun converted => ?_
    split
    · exact .pure ()
    · refine .ask_bind fun ref href => ?_
      rw [← (quotedTableRef_eq_ok href).1]
      exact .bind (.onDb onlyTable_insertInto) fun _ =>
        .onCatalog (onlyEntry_finishWrite env.surroundings id _)

end Touches

end Bqemulator
