import Bqemulator.Versioning.Snapshots

/-!
# Snapshot tables

`CREATE SNAPSHOT TABLE` copies a table into a table of its own dataset, registers it with type
`SNAPSHOT`, and records it as a snapshot of kind `USER` of its source, so that lookups on the source
find it.
-/

namespace Bqemulator

variable {Row : Type}

theorem ne_empty_of_isSqlSafeId {value : String} (h : isSqlSafeId value = true) : value ≠ "" := by
  rintro rfl
  exact absurd h (by decide)

theorem dot_notMem_schemaName {p d : String} (hp : '.' ∉ p.toList)
    (hd : '.' ∉ d.toList) : '.' ∉ (schemaName p d).toList := by
  simp [schemaName, hp, hd]

def userSnapshotId (target : TableId) : String :=
  "user__" ++ target.project ++ "__" ++ target.dataset ++ "__" ++ target.table

/-- The record of a snapshot table: it never expires, and its rows are in the target's table. -/
def userSnapshot (now : Time) (target source : TableId) {key : String × String}
    (h : quotedTableRef target = .ok key) : SnapshotMeta where
  snapshotId := userSnapshotId target
  source := source
  snapshotTime := now
  kind := .user
  duckdbSchema := schemaName target.project target.dataset
  duckdbTable := target.table
  expiresAt := none
  schema_ne := schemaName_ne_empty _ _
  schema_plain := by
    obtain ⟨-, -, hp, hd⟩ := quotedTableRef_eq_ok h
    exact dot_notMem_schemaName (dot_notMem_of_isSqlSafeId hp) (dot_notMem_of_isSqlSafeId hd)
  table_ne := ne_empty_of_isSqlSafeId (quotedTableRef_eq_ok h).2.1

def TableId.format (id : TableId) : String :=
  "table:" ++ id.project ++ "." ++ id.dataset ++ "." ++ id.table

namespace World

variable (w : World Row)

def addTable (m : TableMeta) : World Row :=
  { w with catalog := { w.catalog with tables := w.catalog.tables ++ [m] } }

/-- `CREATE SNAPSHOT TABLE target CLONE source`. -/
def createSnapshotTable (target source : TableId) : Except DomainError (World Row) :=
  if (w.catalog.getTable source).isNone then .error (.notFound s!"Not found: {source.format}")
  else if (w.catalog.getTable target).isSome then
    .error (.alreadyExists s!"Already Exists: {target.format}")
  else if (target.project, target.dataset) ∉ w.catalog.datasets then
    .error (.notFound s!"Not found: dataset:{target.project}.{target.dataset}")
  else
    match quotedTableRef source, h : quotedTableRef target with
    | .error e, _ => .error e
    | .ok _, .error e => .error e
    | .ok src, .ok dst =>
      match w.storage.get src, w.storage.get dst with
      | none, _ => .error (.engine s!"Table with name {src.2} does not exist!")
      | some _, some _ => .error (.engine s!"Table with name {dst.2} already exists!")
      | some rows, none =>
        if w.catalog.snapshots.any fun t => t.snapshotId = userSnapshotId target then
          .error (.alreadyExists s!"Already Exists: snapshot {userSnapshotId target}")
        else
          .ok ((w.addTable { id := target, tableType := .snapshot }).addSnapshot
            (userSnapshot w.now target source h) rows)

/-- `DROP SNAPSHOT TABLE target`. -/
def dropSnapshotTable (target : TableId) : Except DomainError (World Row) :=
  match w.catalog.getTable target with
  | none => .error (.notFound s!"Not found: {target.format}")
  | some m =>
    if m.tableType ≠ .snapshot then
      .error (.invalidQuery s!"Cannot DROP SNAPSHOT TABLE on table of type {m.tableType.text}")
    else match quotedTableRef target with
      | .error e => .error e
      | .ok dst => .ok { w with
          storage := w.storage.drop dst
          catalog := { w.catalog with
            snapshots := w.catalog.snapshots.filter fun s => s.snapshotId ≠ userSnapshotId target
            tables := w.catalog.tables.filter fun m => m.id ≠ target } }

variable {w} {w' : World Row} {target source : TableId}

theorem createSnapshotTable_eq_ok (h : w.createSnapshotTable target source = .ok w') :
    w.catalog.getTable target = none ∧ w.storage.get target.key = none ∧
      (∀ s ∈ w.catalog.snapshots, s.snapshotId ≠ userSnapshotId target) ∧
      ∃ rows, ∃ hk : quotedTableRef target = .ok target.key,
        w' = (w.addTable { id := target, tableType := .snapshot }).addSnapshot
          (userSnapshot w.now target source hk) rows := by
  unfold createSnapshotTable at h
  iterate 3
    split at h
    · cases h
  split at h
  · cases h
  · cases h
  rename_i hk
  obtain rfl := (quotedTableRef_eq_ok hk).1
  split at h
  · cases h
  · cases h
  split at h
  · cases h
  cases h
  simp_all

/-- **Dropping a snapshot table undoes its creation.** -/
theorem create_dropSnapshotTable (w : World Row) (target source : TableId) :
    (w.createSnapshotTable target source).bind (·.dropSnapshotTable target) =
      (w.createSnapshotTable target source).map fun _ => w := by
  rcases h : w.createSnapshotTable target source with e | w'
  · rfl
  obtain ⟨ht, hg, hs, rows, hk, rfl⟩ := createSnapshotTable_eq_ok h
  rw [Catalog.getTable] at ht
  have hm : w.catalog.tables.filter (fun m => !decide (m.id = target)) = w.catalog.tables := by
    simpa using List.find?_eq_none.1 ht
  have hu : w.catalog.snapshots.filter (fun s => !decide (s.snapshotId = userSnapshotId target)) =
      w.catalog.snapshots := by
    simpa using hs
  have hr : w.storage.tables.filter (fun e => !decide (e.1 = target.key)) = w.storage.tables := by
    simpa [@eq_comm _ target.key] using List.lookup_eq_none_iff.1 hg
  have hd : (w.storage.put target.key rows).drop target.key = w.storage := by
    simp [Storage.put, Storage.drop, hr]
  rw [Except.ok_bind]
  simp only [dropSnapshotTable, hk, Catalog.getTable, addTable, addSnapshot, List.find?_append, ht]
  simp [userSnapshot, hm, hu, ← TableId.key.eq_1, hd, Except.map]

end World

end Bqemulator
