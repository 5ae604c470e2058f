import Bqemulator.Jobs.Writes

/-!
# Copy jobs

A copy job names its sources in one of two ways; of several the first is copied. A destination that
is truncated is emptied by one statement and filled by the next, so that its rows are lost if it is
its own source, or if the second statement fails.
-/

namespace Bqemulator

open Comp (raise)
open LoadM DuckDb Except Comp Option LoadWorld

variable {Row : Type}

/-! ## The job -/

structure TableReference where
  projectId : Option String := none
  datasetId : Option String := none
  tableId : Option String := none
deriving DecidableEq

def TableReference.idIn (r : TableReference) (projectId : String) : TableId :=
  ⟨r.projectId.getD projectId, r.datasetId.getD "", r.tableId.getD ""⟩

/-- What a copy job is asked for. -/
structure CopyConfiguration where
  sourceTable : Option TableReference := none
  sourceTables : List TableReference := []
  destinationTable : TableReference := {}
  writeDisposition : Option String := none
  createDisposition : Option String := none
  operationType : Option String := none

/-- What a copy job finds outside: what copies find, and the managers of snapshots and clones. -/
structure CopyJobEnv (Row : Type) extends CopyEnv Row where
  createSnapshotTable : (destination source : TableId) → LoadM Row Unit
  createClone : (destination source : TableId) → LoadM Row Unit

namespace CopyConfiguration

variable (config : CopyConfiguration) (projectId : String)

def sources : List TableId :=
  match config.sourceTable with
  | none => config.sourceTables.map (·.idIn projectId)
  | some r =>
    if r = {} then config.sourceTables.map (·.idIn projectId) else [r.idIn projectId]

def source : TableId :=
  (config.sources projectId).headD (TableReference.idIn {} projectId)

def destination : TableId := config.destinationTable.idIn projectId

def operation : String :=
  match config.operationType with
  | none | some "" => "COPY"
  | some operation => operation

def disposition : String :=
  if config.operation = "RESTORE" then "WRITE_TRUNCATE"
  else config.writeDisposition.getD "WRITE_APPEND"

def mayCreate : Bool :=
  config.operation = "RESTORE" ∨
    config.createDisposition.getD "CREATE_IF_NEEDED" = "CREATE_IF_NEEDED"

end CopyConfiguration

/-- A copy job. -/
def executeCopyJob (env : CopyJobEnv Row) (projectId : String) (config : CopyConfiguration) :
    LoadM Row Unit :=
  let source := config.source projectId
  let destination := config.destination projectId
  if config.operation = "SNAPSHOT" then env.createSnapshotTable destination source
  else if config.operation = "CLONE" then env.createClone destination source
  else if config.operation = "RESTORE" then
    if source.table = "" ∨ destination.table = "" then
      raise ⟨.config, .invalidQuery "RESTORE requires both sourceTable and destinationTable"⟩
    else copyTableIntoDestination env.toCopyEnv source destination "WRITE_TRUNCATE" true
  else
    copyTableIntoDestination env.toCopyEnv source destination
      (config.writeDisposition.getD "WRITE_APPEND")
      (config.createDisposition.getD "CREATE_IF_NEEDED" = "CREATE_IF_NEEDED")

/-! ## The contract -/

def LoadWorld.rowsAt (w : LoadWorld Row) (key : String × String) : List Row :=
  ((w.db.get? key).map DuckTable.rows).getD []

def CopyEnv.sourceRows (env : CopyEnv Row) (w : LoadWorld Row) (columns : List (String × String))
    (id : TableId) : Except DomainError (List Row) :=
  match w.db.get? id.key with
  | none => .ok []
  | some table => env.convert table.columns columns table.rows

/-- **What a job is to do**: the destination has the rows of the sources, after its own or in their
place; after a failure it has the rows it had. -/
def CopyContract (env : CopyEnv Row) (sources : List TableId) (destination : TableId)
    (writeDisposition : String) (w : LoadWorld Row)
    (out : Outcome Unit LoadFailure (LoadWorld Row) Unit) : Prop :=
  match out.result with
  | .ok () => ∃ table pieces, out.state.db.get? destination.key = some table ∧
      sources.mapM (env.sourceRows w table.columns) = .ok pieces ∧
      table.rows = (if writeDisposition = "WRITE_TRUNCATE" then [] else w.rowsAt destination.key) ++
        pieces.flatten
  | .error _ => out.state.rowsAt destination.key = w.rowsAt destination.key

/-- The contract as a check of the rows. -/
def copyCheck [DecidableEq Row] (env : CopyEnv Row) (sources : List TableId) (destination : TableId)
    (writeDisposition : String) (w : LoadWorld Row)
    (out : Outcome Unit LoadFailure (LoadWorld Row) Unit) : Bool :=
  match out.result with
  | .ok () => (out.state.db.get? destination.key).any fun table =>
      (sources.mapM (env.sourceRows w table.columns)).toOption.any fun pieces =>
        table.rows =
          (if writeDisposition = "WRITE_TRUNCATE" then [] else w.rowsAt destination.key) ++
          pieces.flatten
  | .error _ => out.state.rowsAt destination.key = w.rowsAt destination.key

instance [DecidableEq Row] (env : CopyEnv Row) (sources : List TableId) (destination : TableId)
    (writeDisposition : String) (w : LoadWorld Row)
    (out : Outcome Unit LoadFailure (LoadWorld Row) Unit) :
    Decidable (CopyContract env sources destination writeDisposition w out) :=
  decidable_of_iff (copyCheck env sources destination writeDisposition w out = true) (by
    unfold copyCheck CopyContract
    cases out.result with
    | error e => simp
    | ok u =>
      have hsome {ε α : Type} (r : Except ε α) (x : α) : r.toOption = some x ↔ r = .ok x := by
        cases r <;> simp [Except.toOption]
      simp [Option.any_eq_true, hsome])

/-! ## When a job does it -/

section Copy

variable (env : CopyEnv Row) (w : LoadWorld Row) (source destination : TableId)
  (writeDisposition : String) (mayCreate : Bool)

/-- The checks before the write: source and dataset are registered, under names that can stand in a
statement. -/
structure CopyStarts : Prop where
  registered : (w.catalog.getTable source).isSome
  dataset : (w.catalog.datasets.get? (destination.project, destination.dataset)).isSome
  sourceRef : ∃ ref, quotedTableRef source = .ok ref
  destinationRef : ∃ ref, quotedTableRef destination = .ok ref

/-- The write: the statements can be executed, and put these rows into a destination with these
columns. -/
inductive CopyLands : List (String × String) → List Row → Prop
  /-- The destination is created. -/
  | created {table : DuckTable Row} (hnone : w.catalog.getTable destination = none)
      (hcreate : mayCreate = true) (hschema : destination.key.1 ∈ w.db.schemas)
      (habsent : w.db.get? destination.key = none) (hsource : w.db.get? source.key = some table) :
      CopyLands table.columns table.rows
  /-- The destination is its own source, and has been emptied. -/
  | self {m : TableMeta} {table : DuckTable Row} (hmeta : w.catalog.getTable destination = some m)
      (htable : w.db.get? destination.key = some table)
      (htruncate : writeDisposition = "WRITE_TRUNCATE") (hself : source.key = destination.key) :
      CopyLands table.columns []
  /-- The rows of the source are put into a destination that is there. -/
  | inserted {m : TableMeta} {table from_ : DuckTable Row} {rows : List Row}
      (hmeta : w.catalog.getTable destination = some m)
      (htable : w.db.get? destination.key = some table)
      (hempty : writeDisposition = "WRITE_EMPTY" → table.rows = [])
      (hother : writeDisposition = "WRITE_TRUNCATE" → source.key ≠ destination.key)
      (hsource : w.db.get? source.key = some from_)
      (hconvert : env.convert from_.columns table.columns from_.rows = .ok rows) :
      CopyLands table.columns rows

/-- The change can be recorded: the database takes the snapshot, and its id is new. -/
def SnapshotTaken : Prop :=
  env.surroundings.engine = .ok () ∧
    w.catalog.snapshots.get? (snapshotMeta env.surroundings.now env.surroundings.retentionDays
      destination .auto env.surroundings.hex).snapshotId = none

/-- **The jobs that meet the contract**, if the checks before the write succeed. -/
structure CopySafe (others : List TableId) : Prop where
  /-- A destination that is emptied and cannot be filled has no rows. -/
  emptied : (w.catalog.getTable destination).isSome → writeDisposition = "WRITE_TRUNCATE" →
    (∀ columns rows, ¬ CopyLands env w source destination writeDisposition mayCreate columns rows) →
    w.rowsAt destination.key = []
  /-- A destination that is emptied and is its own source has no rows. -/
  self : (w.catalog.getTable destination).isSome → writeDisposition = "WRITE_TRUNCATE" →
    source.key = destination.key → SnapshotTaken env w destination → w.rowsAt destination.key = []
  /-- The sources after the first have no rows. -/
  others : ∀ columns rows,
    CopyLands env w source destination writeDisposition mayCreate columns rows →
    SnapshotTaken env w destination → ∀ id ∈ others, env.sourceRows w columns id = .ok []
  /-- A write that cannot be recorded changes nothing. -/
  unrecorded : ∀ columns rows,
    CopyLands env w source destination writeDisposition mayCreate columns rows →
    ¬ SnapshotTaken env w destination →
    (if writeDisposition = "WRITE_TRUNCATE" then [] else w.rowsAt destination.key) ++ rows =
      w.rowsAt destination.key

end Copy

namespace LoadM

variable {α β : Type} {st : LoadStage} {answer : LoadWorld Row → Except DomainError α}
  {next : α → LoadM Row β} {w : LoadWorld Row}

theorem run_ask_bind_of_ok {a : α} (h : answer w = .ok a) :
    (ask st answer >>= next) w = next a w :=
  run_lift_bind_of_ok (by rw [h]; rfl)

theorem run_ask_bind_of_error {e : DomainError} (h : answer w = .error e) :
    (ask st answer >>= next) w = ⟨[], .error ⟨st, e⟩, w⟩ :=
  run_lift_bind_of_error (by rw [h]; rfl)

end LoadM

/-! ## What the statements leave -/

variable {key : String × String} {db' : DuckDb Row}

section Statements

variable {env : CopyEnv Row} {w : LoadWorld Row} {source destination : TableId}
  {writeDisposition : String} {mayCreate : Bool} {table : DuckTable Row} {db : DuckDb Row}
  {ref : String × String} {rows : List Row} {columns : List (String × String)}

theorem LoadWorld.rowsAt_eq (h : w.db.get? key = some table) : w.rowsAt key = table.rows := by
  rw [rowsAt, h]
  rfl

theorem LoadWorld.rowsAt_none (h : w.db.get? key = none) : w.rowsAt key = [] := by
  rw [rowsAt, h]
  rfl

theorem DuckDb.get?_createTableAs {source : String × String}
    (h : db.createTableAs ref source = .ok db') :
    ∃ table, db.get? source = some table ∧ db.get? ref = none ∧ ref.1 ∈ db.schemas ∧
      db'.get? ref = some ⟨ref, table.columns, table.rows⟩ := by
  obtain ⟨table, hs, h⟩ := found_of_ok h
  obtain ⟨c, hcr, hi⟩ := bind_eq_ok_iff.1 h
  obtain ⟨ha, hsc, -, columns, hc, ht⟩ := get?_createTable hcr
  obtain rfl := ok.inj hc
  obtain ⟨filled, rows, hf, hr, hg⟩ := get?_insertInto hi
  obtain rfl := ok.inj hr
  rw [get?, ht, Keyed.get?_put, if_pos rfl] at hf
  obtain rfl := some.inj hf
  exact ⟨table, hs, ha, hsc, hg⟩

theorem DuckDb.createTableAs_isOk {source : String × String}
    (hs : db.get? source = some table) (ha : db.get? ref = none)
    (hsc : ref.1 ∈ db.schemas) : ∃ db', db.createTableAs ref source = .ok db' := by
  let created : DuckDb Row := { db with tables := db.tables.put ⟨ref, table.columns, []⟩ }
  have hc : db.createTable ref (.ok table.columns) = .ok created := by
    rw [createTable, if_neg (not_not.2 hsc), ha]
    rfl
  have hg : created.get? ref = some ⟨ref, table.columns, []⟩ := by
    rw [get?, Keyed.get?_put, if_pos rfl]
  refine ⟨{ created with tables := created.tables.put ⟨ref, table.columns, [] ++ table.rows⟩ }, ?_⟩
  simp only [createTableAs, hs, hc, ok_bind, insertInto, hg]
  rfl

theorem DuckDb.insertFrom_of_get? {source : String × String} {f : DuckTable Row}
    (ht : db.get? ref = some table) (hs : db.get? source = some f)
    (hc : env.convert f.columns table.columns f.rows = .ok rows) :
    ∃ db', db.insertFrom env ref source = .ok db' ∧
      db'.get? ref = some { table with rows := table.rows ++ rows } := by
  have hi : db.insertFrom env ref source =
      .ok { db with tables := db.tables.put { table with rows := table.rows ++ rows } } := by
    simp only [insertFrom, hs, insertInto, ht, hc]
    rfl
  refine ⟨_, hi, ?_⟩
  rw [get?, Keyed.get?_put, if_pos (ref_of_get? ht)]

theorem DuckDb.get?_insertFrom {source : String × String}
    (h : db.insertFrom env ref source = .ok db') :
    ∃ table from_ rows, db.get? ref = some table ∧ db.get? source = some from_ ∧
      env.convert from_.columns table.columns from_.rows = .ok rows := by
  obtain ⟨from_, hs, h⟩ := found_of_ok h
  obtain ⟨table, rows, ht, hr, -⟩ := get?_insertInto h
  exact ⟨table, from_, rows, ht, hs, hr⟩

theorem DuckDb.deleteFrom_of_get? (h : db.get? ref = some table) :
    ∃ db', db.deleteFrom ref = .ok db' ∧ db'.get? ref = some { table with rows := [] } ∧
      OnlyTable ref db db' := by
  have hd : db.deleteFrom ref =
      .ok { db with tables := db.tables.put { table with rows := [] } } := by
    simp only [deleteFrom, h]
  obtain ⟨t', hg, hl⟩ := get?_deleteFrom hd
  obtain rfl := some.inj (h.symm.trans hg)
  exact ⟨_, hd, hl, onlyTable_deleteFrom hd⟩

theorem applyCopyWriteDisposition_of_get? (hta : w.db.get? destination.key = some table)
    (he : writeDisposition = "WRITE_EMPTY" → table.rows = []) :
    ∃ db, applyCopyWriteDisposition destination destination.key writeDisposition w =
        ⟨[], .ok (), { w with db }⟩ ∧
      db.get? destination.key = some { table with
        rows := if writeDisposition = "WRITE_TRUNCATE" then [] else table.rows } ∧
      OnlyTable destination.key w.db db ∧ (writeDisposition ≠ "WRITE_TRUNCATE" → db = w.db) := by
  unfold applyCopyWriteDisposition
  by_cases ht : writeDisposition = "WRITE_TRUNCATE"
  · obtain ⟨db, hd, hl, ho⟩ := deleteFrom_of_get? hta
    refine ⟨db, ?_, ?_, ho, fun h => absurd ht h⟩
    · simp only [if_pos ht, onDb, hd]
    · rw [hl, if_pos ht]
  refine ⟨w.db, ?_, ?_, fun _ _ => rfl, fun _ => rfl⟩
  · rw [if_neg ht]
    by_cases hw : writeDisposition = "WRITE_EMPTY"
    · simp only [if_pos hw, ask, lift, count, hta, he hw,
        List.length_nil, Except.ok_bind, lt_irrefl, if_false, Except.mapError]
    · rw [if_neg hw]
      rfl
  · rw [hta, if_neg ht]

theorem copyRows_of_insertFrom {s : TableMeta} {m : TableMeta}
    (hm : w.catalog.getTable destination = some m)
    (hp : applyCopyWriteDisposition destination destination.key writeDisposition w =
      ⟨[], .ok (), { w with db }⟩) (hi : db.insertFrom env destination.key source.key = .ok db') :
    copyRows env destination s source.key destination.key writeDisposition mayCreate w =
      ⟨[], .ok (), ⟨w.catalog, db'⟩⟩ := by
  simp only [copyRows, hm]
  rw [run_bind_of_quiet hp]
  simp only [onDb, hi]

theorem applyCopyWriteDisposition_of_absent (disposition : String)
    (h : w.db.get? destination.key = none) :
    (∃ failure, applyCopyWriteDisposition destination destination.key disposition w =
        ⟨[], .error failure, w⟩) ∨
      applyCopyWriteDisposition destination destination.key disposition w =
        ⟨[], .ok (), w⟩ := by
  unfold applyCopyWriteDisposition
  split
  · refine .inl ⟨⟨.disposition, DuckDb.noTable destination.key⟩, ?_⟩
    simp only [onDb, DuckDb.deleteFrom, h]
  · split
    · refine .inl ⟨⟨.disposition, noTable destination.key⟩, ?_⟩
      simp only [ask, lift, count, h, Except.error_bind, Except.mapError]
    · exact .inr rfl

theorem recordChange_result (env : CopyEnv Row) (w : LoadWorld Row) (c : MemoryRepository)
    (hm : (c.getTable destination).isSome) (hs : c.snapshots = w.catalog.snapshots) :
    (∃ u, (Requests.recordChange env.surroundings destination c).result = .ok u) ↔
      SnapshotTaken env w destination := by
  rw [SnapshotTaken, ← hs]
  rcases recordChange_cases env.surroundings destination c with ⟨-, hn, e, hr⟩ |
    ⟨ht, ho, -⟩
  · rw [hr]
    exact iff_of_false nofun hn
  · exact iff_of_true ⟨(), ho⟩ (ht hm)

theorem copy_cases (env : CopyEnv Row) (w : LoadWorld Row) (source destination : TableId)
    (disposition : String) (mayCreate : Bool) :
    (CopyStarts w source destination ∧ ∃ src,
        copyTableIntoDestination env source destination disposition mayCreate w =
          (copyRows env destination src source.key destination.key disposition mayCreate >>=
            fun _ => onCatalog .finish (Requests.recordChange env.surroundings destination)) w) ∨
      ¬ CopyStarts w source destination ∧ ∃ failure,
        copyTableIntoDestination env source destination disposition mayCreate w =
          ⟨[], .error failure, w⟩ := by
  unfold copyTableIntoDestination
  cases hs : w.catalog.getTable source with
  | none =>
    rw [run_ask_bind_of_error (by rw [hs]; rfl)]
    exact .inr ⟨fun h => by simpa [hs] using h.registered, _, rfl⟩
  | some src =>
    rw [run_ask_bind_of_ok (by rw [hs]; rfl)]
    cases hds : w.catalog.datasets.get? (destination.project, destination.dataset) with
    | none =>
      rw [run_ask_bind_of_error (by rw [hds]; rfl)]
      exact .inr ⟨fun h => by simpa [hds] using h.dataset, _, rfl⟩
    | some d =>
      rw [run_ask_bind_of_ok (by rw [hds]; rfl)]
      cases hso : quotedTableRef source with
      | error e =>
        exact .inr ⟨fun h => by simpa [hso] using h.sourceRef, _, rfl⟩
      | ok s =>
        rw [run_ask_bind_of_ok (a := s) rfl]
        cases hd : quotedTableRef destination with
        | error e =>
          exact .inr ⟨fun h => by simpa [hd] using h.destinationRef, _, rfl⟩
        | ok ds =>
          rw [run_ask_bind_of_ok (a := ds) rfl, (quotedTableRef_eq_ok hso).1,
            (quotedTableRef_eq_ok hd).1]
          exact .inl ⟨⟨by rw [hs]; rfl, by rw [hds]; rfl, ⟨_, hso⟩, ⟨_, hd⟩⟩,
            src, rfl⟩

theorem mapM_flatten_eq_nil_iff {f : TableId → Except DomainError (List Row)} {i : List TableId} :
    (∃ pieces, i.mapM f = .ok pieces ∧ pieces.flatten = []) ↔ ∀ id ∈ i, f id = .ok [] := by
  induction i with
  | nil => exact iff_of_true ⟨[], rfl, rfl⟩ (List.forall_mem_nil _)
  | cons id i ih =>
    rw [List.forall_mem_cons, ← ih, List.mapM_cons]
    constructor
    · rintro ⟨pieces, hp, hf⟩
      obtain ⟨first, hfs, hr⟩ := bind_eq_ok_iff.1 hp
      obtain ⟨r, hm, heq⟩ := bind_eq_ok_iff.1 hr
      obtain rfl := ok.inj heq
      obtain ⟨rfl, hf'⟩ := List.append_eq_nil_iff.1 hf
      exact ⟨hfs, r, hm, hf'⟩
    · rintro ⟨hfs, r, hm, hf⟩
      exact ⟨[] :: r, by rw [hfs, hm]; rfl, hf⟩

section Lands

variable {others : List TableId}
  (hlands : CopyLands env w source destination writeDisposition mayCreate columns rows)
  (hsame : ∀ columns rows, env.convert columns columns rows = .ok rows)

include hlands hsame

section Starts

variable (hstarts : CopyStarts w source destination)

include hstarts

/-- The rows that a copy leaves, if its statements can be executed. -/
theorem copyRows_of_lands (s : TableMeta) :
    ∃ w' table, copyRows env destination s source.key destination.key writeDisposition mayCreate
        w = ⟨[], .ok (), w'⟩ ∧
      w'.db.get? destination.key = some table ∧ table.columns = columns ∧
      table.rows = (if writeDisposition = "WRITE_TRUNCATE" then []
        else w.rowsAt destination.key) ++ rows ∧
      (w'.catalog.getTable destination).isSome ∧ w'.catalog.snapshots = w.catalog.snapshots := by
  cases hlands with
  | @created table hnone hc hsc ha hs =>
    obtain ⟨db, hd⟩ := createTableAs_isOk hs ha hsc
    obtain ⟨t', hs', -, -, hg⟩ := get?_createTableAs hd
    obtain rfl := some.inj (hs.symm.trans hs')
    -- the entry is new, and its dataset is there
    let m : TableMeta := { id := destination, fields := s.fields, numRows := table.rows.length }
    have hr : w.catalog.perform (.createTable m) =
        .ok { w.catalog with tables := w.catalog.tables.put m } :=
      MemoryRepository.createTable_eq_ok_iff.2 ⟨hnone, hstarts.dataset, rfl⟩
    have hf : onDb .destination (fun db => db.createTableAs destination.key source.key) w =
        ⟨[], .ok (), { w with db }⟩ := by
      simp only [onDb, hd]
    have hcn : ask .destination (fun w => w.db.count destination.key) { w with db } =
        ⟨[], .ok table.rows.length, { w with db }⟩ := by
      simp only [ask, lift, count, hg, Except.mapError]
    refine ⟨⟨{ w.catalog with tables := w.catalog.tables.put m }, db⟩, _, ?_, hg, rfl, ?_, ?_, rfl⟩
    · simp only [copyRows, hnone, hc, createCopyDestination]
      rw [run_bind_of_quiet hf, run_bind_of_quiet hcn]
      simp only [onCatalog, Requests.call]
      rw [call_of_ok hr]
      rfl
    · rw [rowsAt_none ha, ite_self]
      rfl
    · show ((w.catalog.tables.put m).get? destination).isSome
      rw [Keyed.get?_put, if_pos rfl]
      rfl
  | @self m table hm hta ht hse =>
    have he : writeDisposition = "WRITE_EMPTY" → table.rows = [] := by
      intro h
      rw [ht] at h
      exact absurd h (by decide)
    obtain ⟨db, hp, hg, -, -⟩ := applyCopyWriteDisposition_of_get? hta he
    rw [if_pos ht] at hg
    -- the statement reads the table that has been emptied
    have hs : db.get? source.key = some { table with rows := [] } := by
      rw [hse, hg]
    obtain ⟨db', hi, hl⟩ := insertFrom_of_get? hg hs (hsame _ _)
    refine ⟨_, _, copyRows_of_insertFrom hm hp hi, hl, rfl, ?_, ?_, rfl⟩
    · rw [if_pos ht]
    · simp only [hm, isSome_some]
  | @inserted m table from_ rows hm hta he hot hs hco =>
    obtain ⟨db, hp, hg, ho, hk⟩ := applyCopyWriteDisposition_of_get? hta he
    have hs' : db.get? source.key = some from_ := by
      by_cases ht : writeDisposition = "WRITE_TRUNCATE"
      · rw [ho source.key (hot ht), hs]
      · rw [hk ht, hs]
    obtain ⟨db', hi, hl⟩ := insertFrom_of_get? hg hs' hco
    refine ⟨_, _, copyRows_of_insertFrom hm hp hi, hl, rfl, ?_, ?_, rfl⟩
    · rw [rowsAt_eq hta]
    · simp only [hm, isSome_some]

/-- The rows that are written are those that are there then. -/
theorem CopyLands.unique {c' : List (String × String)} {r' : List Row} (s : TableMeta)
    (h' : CopyLands env w source destination writeDisposition mayCreate c' r') :
    columns = c' ∧ rows = r' := by
  obtain ⟨w₁, t, hru, ht, rfl, hr, -⟩ := copyRows_of_lands hlands hsame hstarts s
  obtain ⟨w₂, t', hru', ht', rfl, hr', -⟩ := copyRows_of_lands h' hsame hstarts s
  obtain rfl := (Outcome.mk.inj (hru.symm.trans hru')).2.2
  obtain rfl := some.inj (ht.symm.trans ht')
  exact ⟨rfl, List.append_cancel_left (hr.symm.trans hr')⟩

theorem copySafe_of_lands_of_taken (s : TableMeta) (ht : SnapshotTaken env w destination) :
    CopySafe env w source destination writeDisposition mayCreate others ↔
      ((w.catalog.getTable destination).isSome → writeDisposition = "WRITE_TRUNCATE" →
        source.key = destination.key → w.rowsAt destination.key = []) ∧
      ∀ id ∈ others, env.sourceRows w columns id = .ok [] := by
  constructor
  · intro h
    refine ⟨fun hm htr hs => h.self hm htr hs ht, ?_⟩
    exact h.others columns rows hlands ht
  rintro ⟨hs, ho⟩
  refine ⟨fun _ _ hnone => absurd hlands (hnone _ _), fun hm htr hk _ =>
    hs hm htr hk, fun c' r' hl' _ => ?_,
    fun _ _ _ hn => absurd ht hn⟩
  rw [← (hlands.unique hsame hstarts s hl').1]
  exact ho

theorem copySafe_of_lands_of_not_taken (s : TableMeta)
    (hta : ¬ SnapshotTaken env w destination) :
    CopySafe env w source destination writeDisposition mayCreate others ↔
      (if writeDisposition = "WRITE_TRUNCATE" then [] else w.rowsAt destination.key) ++ rows =
        w.rowsAt destination.key := by
  constructor
  · intro h
    exact h.unrecorded columns rows hlands hta
  intro h
  refine ⟨fun _ _ hnone => absurd hlands (hnone _ _), fun _ _ _ ht => absurd ht hta,
    fun _ _ _ ht => absurd ht hta, fun columns' rows' hl' _ => ?_⟩
  rw [← (hlands.unique hsame hstarts s hl').2]
  exact h

end Starts

theorem CopyLands.sourceRows :
    ∃ first, env.sourceRows w columns source = .ok first ∧ (rows = first ∨ rows = []) ∧
      (rows = first ↔ ((w.catalog.getTable destination).isSome →
        writeDisposition = "WRITE_TRUNCATE" → source.key = destination.key →
          w.rowsAt destination.key = [])) := by
  unfold CopyEnv.sourceRows
  cases hlands with
  | @created t hnone hcr hsc ha hsr =>
    refine ⟨t.rows, by rw [hsr]; exact hsame _ _, .inl rfl, iff_of_true rfl ?_⟩
    intro _ _ _
    exact rowsAt_none ha
  | @self m t hm ht htr hs =>
    rw [hs, ht]
    refine ⟨t.rows, hsame _ _, .inr rfl, ?_⟩
    rw [rowsAt_eq ht, hm]
    simp [htr]
  | @inserted m t from_ rows hm ht he ho hsr hc =>
    refine ⟨rows, by rw [hsr]; exact hc, .inl rfl, iff_of_true rfl ?_⟩
    intro _ htr hs
    exact absurd hs (ho htr)

theorem written_eq_sources_iff :
    (∃ pieces, (source :: others).mapM (env.sourceRows w columns) = .ok pieces ∧
        rows = pieces.flatten) ↔
      ((w.catalog.getTable destination).isSome → writeDisposition = "WRITE_TRUNCATE" →
        source.key = destination.key → w.rowsAt destination.key = []) ∧
      ∀ id ∈ others, env.sourceRows w columns id = .ok [] := by
  obtain ⟨first, hfs, hr, hs⟩ := hlands.sourceRows hsame
  rw [← hs, ← mapM_flatten_eq_nil_iff, List.mapM_cons]
  constructor
  · rintro ⟨pieces, hp, hf⟩
    obtain ⟨f', hfs', hre⟩ := bind_eq_ok_iff.1 hp
    obtain rfl := ok.inj (hfs.symm.trans hfs')
    obtain ⟨r, hm, heq⟩ := bind_eq_ok_iff.1 hre
    obtain rfl := ok.inj heq
    rcases hr with rfl | rfl
    · exact ⟨rfl, r, hm, List.self_eq_append_right.1 hf⟩
    · obtain ⟨rfl, hf'⟩ := List.append_eq_nil_iff.1 hf.symm
      exact ⟨rfl, r, hm, hf'⟩
  · rintro ⟨rfl, r, hm, hf⟩
    refine ⟨rows :: r, by rw [hfs, hm]; rfl, ?_⟩
    rw [List.flatten_cons, hf, List.append_nil]

end Lands

section NotLands

variable (hnone : ∀ columns rows,
  ¬ CopyLands env w source destination writeDisposition mayCreate columns rows)

include hnone

theorem not_insertFrom_of_not_lands {m : TableMeta} (hm : w.catalog.getTable destination = some m)
    (ht : w.db.get? destination.key = some table)
    (he : writeDisposition = "WRITE_EMPTY" → table.rows = [])
    (hg : db.get? destination.key = some { table with
      rows := if writeDisposition = "WRITE_TRUNCATE" then [] else table.rows })
    (ho : OnlyTable destination.key w.db db)
    (hk : writeDisposition ≠ "WRITE_TRUNCATE" → db = w.db) :
    db.insertFrom env destination.key source.key ≠ .ok db' := by
  intro hi
  obtain ⟨t', from_, rows, ht', hs, hc⟩ := get?_insertFrom hi
  obtain rfl := some.inj (hg.symm.trans ht')
  by_cases htr : writeDisposition = "WRITE_TRUNCATE"
  · by_cases hse : source.key = destination.key
    · exact hnone _ _ (.self hm ht htr hse)
    · rw [ho source.key hse] at hs
      exact hnone _ _ (.inserted hm ht he (fun _ => hse) hs hc)
  · rw [hk htr] at hs
    exact hnone _ _ (.inserted hm ht he (fun h => absurd h htr) hs hc)

/-- What a copy leaves if a statement fails: a truncated destination has been emptied, another is as
it was. -/
theorem copyRows_of_not_lands (s : TableMeta) :
    ∃ failure w', copyRows env destination s source.key destination.key writeDisposition mayCreate
        w = ⟨[], .error failure, w'⟩ ∧
      w'.rowsAt destination.key =
        if (w.catalog.getTable destination).isSome ∧ writeDisposition = "WRITE_TRUNCATE" then []
        else w.rowsAt destination.key := by
  cases hm : w.catalog.getTable destination with
  | none =>
    simp only [copyRows, hm]
    cases mayCreate with
    | false => exact ⟨_, w, rfl, rfl⟩
    | true =>
      -- the table cannot be created from its source
      have hf : ∃ e, w.db.createTableAs destination.key source.key = .error e := by
        cases hc : w.db.createTableAs destination.key source.key with
        | error e => exact ⟨e, rfl⟩
        | ok db =>
          obtain ⟨t, hs, ha, hsc, -⟩ := get?_createTableAs hc
          exact absurd (.created hm rfl hsc ha hs) (hnone _ _)
      obtain ⟨e, hf⟩ := hf
      have hfi : onDb .destination (fun db => db.createTableAs destination.key source.key) w =
          ⟨[], .error ⟨.destination, e⟩, w⟩ := by
        simp only [onDb, hf]
      simp only [createCopyDestination]
      rw [run_bind_of_raised hfi]
      exact ⟨_, w, rfl, rfl⟩
  | some m =>
    simp only [copyRows, hm, isSome_some, true_and]
    cases ht : w.db.get? destination.key with
    | none =>
      obtain ⟨failure, hp⟩ | hp := applyCopyWriteDisposition_of_absent
        writeDisposition ht
      · rw [run_bind_of_raised hp]
        exact ⟨_, w, rfl, by rw [rowsAt_none ht, ite_self]⟩
      rw [run_bind_of_quiet hp]
      cases hi : w.db.insertFrom env destination.key source.key with
      | ok db' =>
        obtain ⟨t, -, -, ht', -⟩ := get?_insertFrom hi
        rw [ht] at ht'
        cases ht'
      | error e =>
        simp only [onDb, hi]
        exact ⟨_, w, rfl, by rw [rowsAt_none ht, ite_self]⟩
    | some t =>
      by_cases he : writeDisposition = "WRITE_EMPTY" → t.rows = []
      · obtain ⟨db, hp, hg, ho, hk⟩ := applyCopyWriteDisposition_of_get? ht he
        rw [run_bind_of_quiet hp]
        cases hi : db.insertFrom env destination.key source.key with
        | ok db' =>
          exact absurd hi
            (not_insertFrom_of_not_lands hnone hm ht he hg ho hk)
        | error e =>
          simp only [onDb, hi]
          refine ⟨_, _, rfl, ?_⟩
          rw [rowsAt_eq ht]
          exact rowsAt_eq (w := { w with db }) hg
      · obtain ⟨hw, hr⟩ := Classical.not_imp.1 he
        have hp : ∃ failure, applyCopyWriteDisposition destination destination.key
            writeDisposition w = ⟨[], .error failure, w⟩ := by
          have hpo : 0 < t.rows.length := List.length_pos_iff.2 hr
          rw [applyCopyWriteDisposition, if_neg (by rw [hw]; decide), if_pos hw]
          simp only [ask, lift, count, ht, ok_bind, hpo, if_true]
          exact ⟨_, rfl⟩
        obtain ⟨failure, hp⟩ := hp
        rw [run_bind_of_raised hp, if_neg (by rw [hw]; decide)]
        exact ⟨_, w, rfl, rfl⟩

theorem copySafe_of_not_lands :
    CopySafe env w source destination writeDisposition mayCreate others ↔
      ((w.catalog.getTable destination).isSome → writeDisposition = "WRITE_TRUNCATE" →
        w.rowsAt destination.key = []) := by
  constructor
  · intro hs hm ht
    exact hs.emptied hm ht hnone
  · intro he
    exact ⟨fun hm ht _ => he hm ht, fun hm ht _ _ => he hm ht,
      fun _ _ hlands => absurd hlands (hnone _ _), fun _ _ hlands => absurd hlands (hnone _ _)⟩

end NotLands

/-! ## The contract, met -/

theorem copyTable_contract_iff {o : List TableId}
    (hsame : ∀ columns rows, env.convert columns columns rows = .ok rows) :
    CopyContract env (source :: o) destination writeDisposition w
        (copyTableIntoDestination env source destination writeDisposition mayCreate w) ↔
      (CopyStarts w source destination →
        CopySafe env w source destination writeDisposition mayCreate o) := by
  rcases copy_cases env w source destination writeDisposition mayCreate with
    ⟨hstarts, src, hru⟩ | ⟨hstarts, f, hru⟩
  · rw [hru, imp_iff_right hstarts]
    by_cases hlands : ∃ columns rows,
        CopyLands env w source destination writeDisposition mayCreate columns rows
    · obtain ⟨columns, rows, hlands⟩ := hlands
      obtain ⟨w', t, hc, hta, rfl, hr, hm, hs⟩ :=
        copyRows_of_lands hlands hsame hstarts src
      rw [run_bind_of_quiet hc]
      have hrt := recordChange_result env w w'.catalog hm hs
      simp only [CopyContract, onCatalog]
      cases hrd : (Requests.recordChange env.surroundings destination w'.catalog).result with
      | ok u =>
        rw [copySafe_of_lands_of_taken hlands hsame hstarts src (hrt.1 ⟨u, hrd⟩),
          ← written_eq_sources_iff hlands hsame]
        simp only [Except.mapError, hta, some.injEq, exists_and_left, exists_eq_left',
          hr, List.append_cancel_left_eq]
      | error e =>
        have ht : ¬ SnapshotTaken env w destination := by
          intro ht
          obtain ⟨u, hu⟩ := hrt.2 ht
          rw [hrd] at hu
          cases hu
        rw [copySafe_of_lands_of_not_taken hlands hsame hstarts src ht, ← hr, ← rowsAt_eq hta]
        rfl
    · simp only [not_exists] at hlands
      obtain ⟨f, w', hc, hr⟩ := copyRows_of_not_lands hlands src
      rw [run_bind_of_raised hc, copySafe_of_not_lands hlands]
      show w'.rowsAt destination.key = w.rowsAt destination.key ↔ _
      rw [hr]
      split
      · next he =>
        exact ⟨fun h _ _ => h.symm, fun h => (h he.1 he.2).symm⟩
      · next hk =>
        refine iff_of_true rfl fun hm htr => absurd ⟨hm, htr⟩ hk
  · rw [hru]
    exact iff_of_true rfl fun h => absurd h hstarts

end Statements

/-! ## Jobs -/

section Job

variable {env : CopyJobEnv Row} {projectId : String} {config : CopyConfiguration}
  {w : LoadWorld Row}

theorem not_starts_of_empty {source destination : TableId}
    (h : source.table = "" ∨ destination.table = "") : ¬ CopyStarts w source destination := by
  intro hstarts
  obtain ⟨ref, hs⟩ := hstarts.sourceRef
  obtain ⟨r', hd⟩ := hstarts.destinationRef
  have hs := (quotedTableRef_eq_ok hs).2.1
  have hd := (quotedTableRef_eq_ok hd).2.1
  rcases h with h | h
  · rw [h] at hs
    exact absurd hs (by decide)
  · rw [h] at hd
    exact absurd hd (by decide)

theorem executeCopyJob_cases (hs : config.operation ≠ "SNAPSHOT")
    (hcl : config.operation ≠ "CLONE") :
    executeCopyJob env projectId config w =
        copyTableIntoDestination env.toCopyEnv (config.source projectId)
          (config.destination projectId) config.disposition config.mayCreate w ∨
      ¬ CopyStarts w (config.source projectId) (config.destination projectId) ∧
        ∃ failure, executeCopyJob env projectId config w = ⟨[], .error failure, w⟩ := by
  unfold executeCopyJob
  simp only [if_neg hs, if_neg hcl]
  by_cases hr : config.operation = "RESTORE"
  · have hd : config.disposition = "WRITE_TRUNCATE" := if_pos hr
    have hc : config.mayCreate = true := decide_eq_true (.inl hr)
    rw [hd, hc, if_pos hr]
    split
    · next he => exact .inr ⟨not_starts_of_empty he, _, rfl⟩
    · exact .inl rfl
  · have hd : config.disposition = config.writeDisposition.getD "WRITE_APPEND" :=
      if_neg hr
    have hc : config.mayCreate =
        decide (config.createDisposition.getD "CREATE_IF_NEEDED" = "CREATE_IF_NEEDED") := by
      simp only [CopyConfiguration.mayCreate, hr, false_or]
    rw [hd, hc, if_neg hr]
    exact .inl rfl

theorem sources_of_starts
    (h : CopyStarts w (config.source projectId) (config.destination projectId)) :
    config.sources projectId = config.source projectId :: (config.sources projectId).tail := by
  cases hs : config.sources projectId with
  | nil =>
    refine absurd h (not_starts_of_empty (.inl ?_))
    rw [CopyConfiguration.source, hs]
    rfl
  | cons =>
    rw [CopyConfiguration.source, hs]
    rfl

end Job

/-- **The copy jobs that do what they are to do**: a job that starts meets the contract iff it is
safe. -/
theorem copy_contract_iff (env : CopyJobEnv Row)
    (hsame : ∀ columns rows, env.convert columns columns rows = .ok rows) (projectId : String)
    (config : CopyConfiguration) (hsnapshot : config.operation ≠ "SNAPSHOT")
    (hclone : config.operation ≠ "CLONE") (w : LoadWorld Row) :
    CopyContract env.toCopyEnv (config.sources projectId) (config.destination projectId)
        config.disposition w (executeCopyJob env projectId config w) ↔
      (CopyStarts w (config.source projectId) (config.destination projectId) →
        CopySafe env.toCopyEnv w (config.source projectId) (config.destination projectId)
          config.disposition config.mayCreate (config.sources projectId).tail) := by
  by_cases hstarts : CopyStarts w (config.source projectId) (config.destination projectId)
  · rcases executeCopyJob_cases hsnapshot hclone with hr | ⟨hn, -⟩
    · rw [hr, sources_of_starts hstarts]
      exact copyTable_contract_iff hsame
    · exact absurd hstarts hn
  refine iff_of_true ?_ fun h => absurd h hstarts
  -- a job that does not start changes nothing
  rcases executeCopyJob_cases hsnapshot hclone with hr | ⟨-, f, hr⟩
  · rcases copy_cases env.toCopyEnv w (config.source projectId) (config.destination projectId)
      config.disposition config.mayCreate with ⟨h, -⟩ | ⟨-, f, hc⟩
    · exact absurd h hstarts
    · rw [hr, hc]
      rfl
  · rw [hr]
    rfl

/-- The tables `p.d.a` with the row 1 and `p.d.b` with the row 2, and a registered table `p.d.c`
that takes no rows of `p.d.a`. -/
def twoSources : LoadWorld Nat where
  catalog := {
    datasets := Keyed.empty.put { projectId := "p", datasetId := "d" }
    tables := ((Keyed.empty.put { id := ⟨"p", "d", "a"⟩ }).put { id := ⟨"p", "d", "b"⟩ }).put
      { id := ⟨"p", "d", "c"⟩ } }
  db := {
    schemas := ["p__d"]
    tables := ((Keyed.empty.put ⟨("p__d", "a"), [("x", "BIGINT")], [1]⟩).put
      ⟨("p__d", "b"), [("x", "BIGINT")], [2]⟩).put ⟨("p__d", "c"), [("x", "DATE")], [3]⟩ }

def sameColumns : CopyJobEnv Nat where
  convert columns columns' rows :=
    if columns = columns' then .ok rows else .error (.engine "Conversion Error")
  surroundings := {}
  createSnapshotTable _ _ := pure ()
  createClone _ _ := pure ()

def tableInD (table : String) : TableReference where
  datasetId := some "d"
  tableId := some table

def oneCopy (source destination writeDisposition : String) : CopyConfiguration where
  sourceTable := some (tableInD source)
  destinationTable := tableInD destination
  writeDisposition := some writeDisposition

def twoIntoNew : CopyConfiguration where
  sourceTables := [tableInD "a", tableInD "b"]
  destinationTable := tableInD "new"

def rowsAfterCopy (config : CopyConfiguration) (table : String) : Bool × List Nat :=
  let out := executeCopyJob sameColumns "p" config twoSources
  (out.result.toOption.isSome, out.state.rowsAt ("p__d", table))

/-- A table is appended to another. -/
theorem copy_contract_append :
    CopyContract sameColumns.toCopyEnv [⟨"p", "d", "a"⟩] ⟨"p", "d", "b"⟩ "WRITE_APPEND" twoSources
      (executeCopyJob sameColumns "p" (oneCopy "a" "b" "WRITE_APPEND") twoSources) := by
  have hsame : ∀ c rows, sameColumns.convert c c rows = .ok rows :=
    fun c rows => if_pos rfl
  refine (copy_contract_iff sameColumns hsame "p" (oneCopy "a" "b" "WRITE_APPEND") (by decide)
    (by decide) twoSources).2 fun _ => ?_
  have ht : SnapshotTaken sameColumns.toCopyEnv twoSources ⟨"p", "d", "b"⟩ := ⟨rfl, rfl⟩
  exact ⟨fun _ h => absurd h (by decide), fun _ h => absurd h (by decide),
    fun _ _ _ _ id hi => absurd hi List.not_mem_nil, fun _ _ _ h => absurd ht h⟩

/-- **Copies that break the contract**: a second source is not copied; a table that replaces its own
rows loses them; so does one whose new rows it does not take. -/
theorem copy_contract_broken :
    twoSources.rowsAt ("p__d", "a") = [1] ∧ twoSources.rowsAt ("p__d", "b") = [2] ∧
      rowsAfterCopy twoIntoNew "new" = (true, [1]) ∧
      rowsAfterCopy (oneCopy "a" "a" "WRITE_TRUNCATE") "a" = (true, []) ∧
      twoSources.rowsAt ("p__d", "c") = [3] ∧
      rowsAfterCopy (oneCopy "a" "c" "WRITE_TRUNCATE") "c" = (false, []) ∧
      ∀ config ∈ [twoIntoNew, oneCopy "a" "a" "WRITE_TRUNCATE", oneCopy "a" "c" "WRITE_TRUNCATE"],
        ¬ CopyContract sameColumns.toCopyEnv (config.sources "p") (config.destination "p")
          config.disposition twoSources (executeCopyJob sameColumns "p" config twoSources) := by
  decide +kernel

end Bqemulator
