import Bqemulator.Commands.ExportSeed

/-!
# The files of an export

An export succeeds if files and the engine take all names. Its files are those of the records of the
catalog, and the seed comes to a dataset before its tables and routines.
-/

namespace Bqemulator

open Except List SeedItem

variable {Row : Type}

/-! ## Exports that succeed -/

theorem validateSqlId_eq_ok_iff {value kind x : String} :
    validateSqlId value kind = .ok x ↔ x = value ∧ isSqlSafeId value = true := by
  refine ⟨validateSqlId_eq_ok, ?_⟩
  rintro ⟨rfl, hs⟩
  rw [validateSqlId, if_pos hs]

theorem quotedTableRef_eq_ok_iff {id : TableId} {key : String × String} :
    quotedTableRef id = .ok key ↔ key = id.key ∧ isSqlSafeId id.table = true ∧
      isSqlSafeId id.project = true ∧ isSqlSafeId id.dataset = true := by
  refine ⟨quotedTableRef_eq_ok, ?_⟩
  rintro ⟨rfl, ht, hp, hd⟩
  rw [quotedTableRef, validateSqlId, if_pos ht, validateSqlId, if_pos hp, validateSqlId, if_pos hd]
  rfl

section Export

variable {env : CommandEnv Row} {d : DataDir Row} {r : TableRecord}

/-- The file for the rows of a relation. -/
def parquetFor (d : DataDir Row) (r : TableRecord) : ParquetFile Row :=
  match d.storage r.id.key with
  | none => .missing
  | some t => if t.rows.isEmpty then .empty else .rows t

/-- The files of a table; only tables and clones have one for rows. -/
def fileFor (d : DataDir Row) (r : TableRecord) : TableFiles Row :=
  ⟨r, if r.tableType.isPhysical then parquetFor d r else .missing⟩

/-- A table whose files can be written. -/
def Writable (env : CommandEnv Row) (d : DataDir Row) (r : TableRecord) : Prop :=
  env.fileName (r.tableId ++ ".json") = true ∧ (r.tableType.isPhysical = true →
    (isSqlSafeId r.tableId = true ∧ isSqlSafeId r.projectId = true ∧
      isSqlSafeId r.datasetId = true) ∧
    ((d.storage r.id.key).isSome → env.fileName (r.tableId ++ ".parquet") = true))

theorem writeFile_eq_ok_iff {α : Type} {name : String} {c x : α} :
    writeFile env name c = .ok x ↔ x = c ∧ env.fileName name = true := by
  unfold writeFile
  split_ifs with h
  · exact ⟨fun heq => ⟨(ok.inj heq).symm, h⟩, fun heq => by rw [heq.1]⟩
  · exact ⟨nofun, fun heq => absurd heq.2 h⟩

theorem exportTableRows_eq_ok_iff {f : ParquetFile Row} :
    exportTableRows env d r = .ok f ↔ f = parquetFor d r ∧
      (isSqlSafeId r.tableId = true ∧ isSqlSafeId r.projectId = true ∧
        isSqlSafeId r.datasetId = true) ∧
      ((d.storage r.id.key).isSome → env.fileName (r.tableId ++ ".parquet") = true) := by
  rw [exportTableRows, bind_eq_ok_iff, parquetFor]
  simp only [mapError_eq_ok_iff, quotedTableRef_eq_ok_iff]
  constructor
  · rintro ⟨_, ⟨rfl, hs⟩, hf⟩
    cases ht : d.storage r.id.key with
    | none =>
      rw [ht] at hf
      exact ⟨(ok.inj hf).symm, hs, fun h => by cases h⟩
    | some t =>
      rw [ht] at hf
      obtain ⟨rfl, hn⟩ := writeFile_eq_ok_iff.1 hf
      exact ⟨rfl, hs, fun _ => hn⟩
  · rintro ⟨rfl, hs, hn⟩
    refine ⟨_, ⟨rfl, hs⟩, ?_⟩
    cases ht : d.storage r.id.key with
    | none => rfl
    | some t =>
      rw [ht] at hn
      exact writeFile_eq_ok_iff.2 ⟨rfl, hn rfl⟩

/-- A table is exported if its names can be written. -/
theorem exportTable_eq_ok_iff (r : TableRecord) (f : TableFiles Row) :
    exportTable env d r = .ok f ↔ f = fileFor d r ∧ Writable env d r := by
  rw [exportTable, bind_eq_ok_iff, fileFor, Writable]
  simp only [writeFile_eq_ok_iff]
  by_cases hp : r.tableType.isPhysical = true
  · simp only [hp, if_true, map_eq_ok_iff, exportTableRows_eq_ok_iff]
    constructor
    · rintro ⟨_, ⟨rfl, hj⟩, _, ⟨rfl, hr⟩, rfl⟩
      exact ⟨rfl, hj, fun _ => hr⟩
    · rintro ⟨rfl, hj, hr⟩
      exact ⟨r, ⟨rfl, hj⟩, _, ⟨rfl, hr trivial⟩, rfl⟩
  · simp only [hp]
    constructor
    · rintro ⟨_, ⟨rfl, hj⟩, heq⟩
      exact ⟨(ok.inj heq).symm, hj, nofun⟩
    · rintro ⟨rfl, hj, -⟩
      exact ⟨r, ⟨rfl, hj⟩, rfl⟩

/-- The files of a dataset. -/
def packed (d : DataDir Row) (m : DatasetMeta) : DatasetFiles Row :=
  ⟨m, (d.tables.rows.filter fun r => r.home = m.key).map (fileFor d),
    d.routines.rows.filter fun r => r.home = m.key⟩

theorem exportDataset_eq_ok_iff (m : DatasetMeta) (x : DatasetFiles Row) :
    exportDataset env d m = .ok x ↔ x = packed d m ∧ (env.fileName m.projectId = true ∧
      env.fileName m.datasetId = true ∧
      (∀ r ∈ d.tables.rows.filter fun r => r.home = m.key, Writable env d r) ∧
      ∀ r ∈ d.routines.rows.filter fun r => r.home = m.key,
        env.fileName (r.routineId ++ ".json") = true) := by
  have hre : ∀ r x : RoutineMeta, exportRoutine env r = .ok x ↔
      x = id r ∧ env.fileName (r.routineId ++ ".json") = true := fun r x => writeFile_eq_ok_iff
  rw [exportDataset, packed]
  simp only [Except.bind_eq_ok_iff, Except.map_eq_ok_iff, writeFile_eq_ok_iff,
    Except.mapM_eq_ok_iff exportTable_eq_ok_iff, Except.mapM_eq_ok_iff hre, List.map_id]
  constructor
  · rintro ⟨_, ⟨-, hp⟩, _, ⟨rfl, hd⟩, _, ⟨rfl, ht⟩, _, ⟨rfl, hr⟩, rfl⟩
    exact ⟨rfl, hp, hd, ht, hr⟩
  · rintro ⟨rfl, hp, hd, ht, hr⟩
    exact ⟨(), ⟨trivial, hp⟩, _, ⟨rfl, hd⟩, _, ⟨rfl, ht⟩, _, ⟨rfl, hr⟩, rfl⟩

/-- When an export succeeds, and its files. -/
theorem exportAll_eq_ok_iff {files : List (DatasetFiles Row)} :
    exportAll env d = .ok files ↔ files = d.datasets.rows.map (packed d) ∧
      ∀ m ∈ d.datasets.rows, env.fileName m.projectId = true ∧ env.fileName m.datasetId = true ∧
        (∀ r ∈ d.tables.rows.filter fun r => r.home = m.key, Writable env d r) ∧
        ∀ r ∈ d.routines.rows.filter fun r => r.home = m.key,
          env.fileName (r.routineId ++ ".json") = true :=
  mapM_eq_ok_iff exportDataset_eq_ok_iff

end Export

/-! ## The files that the seed reads -/

namespace SeedItem

def dataset? : SeedItem Row → Option DatasetMeta
  | dataset m => some m
  | _ => none

def table? : SeedItem Row → Option (TableFiles Row)
  | table f => some f
  | _ => none

def routine? : SeedItem Row → Option RoutineMeta
  | routine r => some r
  | _ => none

end SeedItem

/-- The seed reads the files of every dataset, in some order. -/
theorem seedOrder_perm {β : Type} {get : SeedItem Row → Option β}
    (f : DatasetFiles Row → List β) (h : ∀ x, ((seedBlock x).filterMap get).Perm (f x))
    (d : List (DatasetFiles Row)) : ((seedOrder d).filterMap get).Perm (d.flatMap f) := by
  rw [seedOrder, filterMap_flatMap]
  apply List.Perm.flatMap
  · exact (perm_insertionSort _ _).trans (perm_insertionSort _ _)
  · exact fun x _ => h x

variable (d : DataDir Row)

/-- What the seed command finds in an export. -/
abbrev DataDir.dumped : List (SeedItem Row) :=
  seedOrder (d.datasets.rows.map (packed d))

/-- The seed reads the file of every dataset once. -/
theorem datasetFiles_perm : (d.dumped.filterMap dataset?).Perm d.datasets.rows := by
  refine (seedOrder_perm (fun x => [x.dataset]) (fun x => ?_) _).trans ?_
  · simp [seedBlock, dataset?]
  · rw [flatMap_map]
    simp [packed]

/-- The seed reads the files of every table once. -/
theorem tableFiles_perm (d : WholeDataDir Row) :
    (d.dumped.filterMap table?).Perm
      (d.tables.rows.map (fileFor d.toDataDir)) := by
  refine (seedOrder_perm (fun x => x.tables) (fun x => ?_) _).trans ?_
  · simp [seedBlock, table?, filterMap_cons, Function.comp_def, perm_insertionSort]
  · rw [flatMap_map]
    simp only [packed]
    rw [← map_flatMap]
    exact (d.datasets.perm_groups d.tables_home).map _

/-- The seed reads the file of every routine once. -/
theorem routineFiles_perm (d : WholeDataDir Row) :
    (d.dumped.filterMap routine?).Perm d.routines.rows := by
  refine (seedOrder_perm (fun x => x.routines) (fun x => ?_) _).trans ?_
  · simp [seedBlock, routine?, filterMap_cons, Function.comp_def, perm_insertionSort]
  · rw [flatMap_map]
    exact d.datasets.perm_groups d.routines_home

/-! ## The order of the seed -/

/-- The dataset that a file needs. -/
def SeedItem.home? : SeedItem Row → Option (String × String)
  | dataset _ => none
  | table f => some f.record.home
  | routine r => some r.home

/-- **Each file comes after the one of its dataset**, or this is among those seen. -/
def Grounded : (seen : List (String × String)) → List (SeedItem Row) → Prop
  | _, [] => True
  | seen, item :: items => (∀ k ∈ item.home?, k ∈ seen) ∧
    Grounded ((item.dataset?.map DatasetMeta.key).toList ++ seen) items

theorem Grounded.mono : ∀ {items : List (SeedItem Row)} {seen seen' : List (String × String)},
    Grounded seen items → (∀ k ∈ seen, k ∈ seen') → Grounded seen' items
  | [], _, _, _, _ => trivial
  | item :: items, seen, seen', h, hs => by
    refine ⟨fun k hk => hs k (h.1 k hk), h.2.mono fun k hk => ?_⟩
    rcases mem_append.1 hk with hk | hk
    · exact mem_append_left _ hk
    · exact mem_append_right _ (hs k hk)

theorem Grounded.append : ∀ {a b : List (SeedItem Row)} {seen : List (String × String)},
    Grounded seen a → Grounded seen b → Grounded seen (a ++ b)
  | [], _, _, _, hb => hb
  | _ :: _, _, _, ha, hb =>
    ⟨ha.1, ha.2.append (hb.mono fun _ hk => mem_append_right _ hk)⟩

theorem grounded_of_home {i : List (SeedItem Row)} {seen : List (String × String)}
    (h : ∀ item ∈ i, ∀ k ∈ item.home?, k ∈ seen) : Grounded seen i := by
  induction i generalizing seen with
  | nil => trivial
  | cons item i ih =>
    refine ⟨h item mem_cons_self, ih fun i' hi k hk => ?_⟩
    exact mem_append_right _ (h i' (mem_cons_of_mem _ hi) k hk)

/-- The files of a dataset begin with its own. -/
theorem grounded_block (m : DatasetMeta) : Grounded [] (seedBlock (packed d m)) := by
  refine ⟨nofun, grounded_of_home fun i hi k hk => ?_⟩
  have hke : k = m.key := by
    rcases mem_append.1 hi with hi | hi
    · obtain ⟨f, hf, rfl⟩ := mem_map.1 hi
      rw [mem_insertionSort, packed, mem_map] at hf
      obtain ⟨r, hr, rfl⟩ := hf
      cases hk
      exact of_decide_eq_true (mem_filter.1 hr).2
    · obtain ⟨r, hr, rfl⟩ := mem_map.1 hi
      rw [mem_insertionSort] at hr
      cases hk
      exact of_decide_eq_true (mem_filter.1 hr).2
  subst hke
  exact mem_append_left _ (by simp [dataset?, packed])

/-- The seed comes to a dataset before its tables and routines. -/
theorem grounded_seedOrder : Grounded [] d.dumped := by
  have hb : ∀ files : List (DatasetFiles Row), (∀ x ∈ files, ∃ m, x = packed d m) →
      Grounded [] (files.flatMap seedBlock) := by
    intro files hd
    induction files with
    | nil => trivial
    | cons x files ih =>
      obtain ⟨m, rfl⟩ := hd x mem_cons_self
      exact (grounded_block d m).append (ih fun y hy => hd y (mem_cons_of_mem _ hy))
  apply hb
  intro x hx
  rw [mem_insertionSort, mem_insertionSort] at hx
  obtain ⟨m, -, rfl⟩ := mem_map.1 hx
  exact ⟨m, rfl⟩

end Bqemulator
