import Bqemulator.Commands.ExportedFiles

/-!
# What a seed leaves

The records after a seed are those of the files. A relation comes from the files of the tables and
clones with its name: the first creates it, and each copies its rows into it. -/

namespace Bqemulator

open DataDir Except List SeedItem Function

variable {Row : Type}

/-! ## Relations -/

/-- The number of rows in a file. -/
def ParquetFile.length : ParquetFile Row → Nat
  | .rows t => t.rows.length
  | _ => 0

/-- The rows that the engine copies from a file. -/
def ParquetFile.Brings (env : CommandEnv Row) (columns : List (String × String)) :
    ParquetFile Row → List Row → Prop
  | .rows file, copied => env.copyFrom columns file = some copied
  | _, copied => copied = []

/-- **The files of a table make a relation of what is there.** -/
def Load (env : CommandEnv Row) (f : TableFiles Row) (x y : Option (StoredTable Row)) : Prop :=
  ∃ columns copied, seedColumns env f.record = some columns ∧ env.creates columns = true ∧
    f.parquet.Brings env (x.getD ⟨columns, []⟩).columns copied ∧
    y = some ⟨(x.getD ⟨columns, []⟩).columns, (x.getD ⟨columns, []⟩).rows ++ copied⟩

/-- What files make of a relation, one after the other. -/
def Loads (env : CommandEnv Row) : List (TableFiles Row) →
    Option (StoredTable Row) → Option (StoredTable Row) → Prop
  | [], x, y => y = x
  | f :: fs, x, z => ∃ y, Load env f x y ∧ Loads env fs y z

/-- The file, if it loads the relation of this name. -/
def SeedItem.loads? (key : String × String) : SeedItem Row → Option (TableFiles Row)
  | table f => if f.record.tableType.isPhysical && f.record.id.key = key then some f else none
  | _ => none

section Loads

variable {env : CommandEnv Row} {fs : List (TableFiles Row)} {x y : Option (StoredTable Row)}

def rowCount (x : Option (StoredTable Row)) : Nat := x.elim 0 fun t => t.rows.length

/-- The engine copies all rows of a file. -/
def CopiesAll (env : CommandEnv Row) : Prop :=
  ∀ columns file rows, env.copyFrom columns file = some rows → rows.length = file.rows.length

variable {f : TableFiles Row}

theorem Load.rowCount_eq (hco : CopiesAll env) (h : Load env f x y) :
    rowCount y = rowCount x + f.parquet.length := by
  obtain ⟨c, copied, -, -, hc, rfl⟩ := h
  have hl : copied.length = f.parquet.length := by
    cases hf : f.parquet with
    | rows =>
      rw [hf] at hc
      exact hco _ _ _ hc
    | missing | empty =>
      rw [hf] at hc
      rw [hc]
      rfl
  cases x with
  | none | some t => simp [rowCount, hl]

/-- Files of `n` rows add `n` rows each. -/
theorem Loads.rowCount_eq (hc : CopiesAll env) {n : Nat} (h : Loads env fs x y)
    (hf : ∀ f ∈ fs, f.parquet.length = n) : rowCount y = rowCount x + fs.length * n := by
  induction fs generalizing x with
  | nil =>
    obtain rfl : y = x := h
    simp
  | cons f fs ih =>
    obtain ⟨z, hl, hr⟩ := h
    rw [ih hr fun g hg => hf g (mem_cons_of_mem f hg), hl.rowCount_eq hc,
      hf f mem_cons_self, length_cons, Nat.succ_mul]
    omega

theorem Loads.isSome (h : Loads env fs x y) (hx : x.isSome ∨ fs ≠ []) : y.isSome := by
  induction fs generalizing x with
  | nil =>
    obtain rfl : y = x := h
    exact hx.resolve_right fun hn => hn rfl
  | cons f fs ih =>
    obtain ⟨z, ⟨c, copied, -, -, -, rfl⟩, hr⟩ := h
    exact ih hr (.inl rfl)

/-- Only tables whose columns the engine takes are loaded. -/
theorem Loads.mem (h : Loads env fs x y) (hf : f ∈ fs) :
    ∃ columns, seedColumns env f.record = some columns ∧ env.creates columns = true := by
  induction fs generalizing x with
  | nil => cases hf
  | cons g fs ih =>
    obtain ⟨z, ⟨columns, c, hc, hcr, -, -⟩, hr⟩ := h
    rcases mem_cons.1 hf with rfl | hf
    · exact ⟨columns, hc, hcr⟩
    · exact ih hr hf

end Loads

/-! ## The files of a table -/

variable {r : TableRecord}

section Table

variable {env : CommandEnv Row} {d d' : DataDir Row} {f : TableFiles Row}

/-- The names of a table are ones that the engine takes. -/
def TableRecord.Safe (r : TableRecord) : Prop :=
  isSqlSafeId r.tableId = true ∧ isSqlSafeId r.projectId = true ∧ isSqlSafeId r.datasetId = true

/-- A table can be put: its dataset is there, or it is itself. -/
def DataDir.Takes (d : DataDir Row) (r : TableRecord) : Prop :=
  (d.datasets.get? r.home).isSome = true ∨ (d.tables.get? r.id).isSome = true

theorem ite_or_eq_ok_iff {a b : Bool} {e : CommandError} :
    (if a || b then .ok d else .error e) = Except.ok d' ↔ d' = d ∧ (a = true ∨ b = true) := by
  cases a <;> cases b <;> simp [eq_comm]

theorem putTable_eq_ok_iff :
    d.putTable r = .ok d' ↔ d' = { d with tables := d.tables.put r } ∧ d.Takes r :=
  ite_or_eq_ok_iff

variable {key : String × String}

theorem createTable_eq_ok_iff :
    d.createTable env key r = .ok d' ↔ ∃ columns, seedColumns env r = some columns ∧
      env.creates columns = true ∧ d' = { d with
        storage := update d.storage key
          (some ((d.storage key).getD ⟨columns, []⟩)) } := by
  unfold createTable
  cases hco : seedColumns env r with
  | none => exact ⟨nofun, fun ⟨_, h, _⟩ => nomatch h⟩
  | some columns =>
    dsimp only
    split_ifs with hcr
    · constructor
      · intro h
        exact ⟨columns, rfl, hcr, (ok.inj h).symm⟩
      · rintro ⟨_, ⟨⟩, -, rfl⟩
        rfl
    · exact ⟨nofun, fun ⟨_, h, hc, _⟩ => absurd (Option.some.inj h ▸ hc) hcr⟩

theorem seedRows_eq_ok_iff {t : StoredTable Row} (ht : d.storage key = some t)
    {f : ParquetFile Row} :
    (match f with
      | .rows f => d.copyRows env key f
      | _ => .ok d) = .ok d' ↔
      ∃ copied, f.Brings env t.columns copied ∧ d' = { d with
        storage := update d.storage key (some ⟨t.columns, t.rows ++ copied⟩) } := by
  have hs : update d.storage key (some ⟨t.columns, t.rows ++ []⟩) = d.storage := by
    rw [append_nil, ← ht, update_eq_self]
  have hn : (ok d : Except CommandError (DataDir Row)) = .ok d' ↔
      ∃ copied, copied = [] ∧ d' = { d with
        storage := update d.storage key (some ⟨t.columns, t.rows ++ copied⟩) } := by
    constructor
    · intro h
      exact ⟨[], rfl, by rw [hs, ok.inj h]⟩
    · rintro ⟨_, rfl, rfl⟩
      rw [hs]
  cases f with
  | missing | empty => exact hn
  | rows f =>
    simp only [copyRows, ht, ParquetFile.Brings]
    cases hr : env.copyFrom t.columns f with
    | none => exact ⟨nofun, fun ⟨_, h, _⟩ => nomatch h⟩
    | some rows =>
      constructor
      · intro h
        exact ⟨rows, rfl, (ok.inj h).symm⟩
      · rintro ⟨_, ⟨⟩, rfl⟩
        rfl

/-- What the seed makes of the files of a table or clone. -/
theorem seedTable_physical (hp : f.record.tableType.isPhysical = true) :
    d.seedTable env f = .ok d' ↔ f.record.Safe ∧ d.Takes f.record ∧
      ∃ y, Load env f (d.storage f.record.id.key) y ∧ d' = { d with
        tables := d.tables.put f.record
        storage := update d.storage f.record.id.key y } := by
  rw [seedTable]
  simp only [hp, if_true, bind_eq_ok_iff, mapError_eq_ok_iff,
    quotedTableRef_eq_ok_iff, createTable_eq_ok_iff, putTable_eq_ok_iff]
  constructor
  · rintro ⟨_, ⟨rfl, hs⟩, _, ⟨c, hc, hcr, rfl⟩, _, ⟨rfl, ht⟩, hr⟩
    obtain ⟨copied, hco, rfl⟩ := (seedRows_eq_ok_iff (update_self _ _ _)).1 hr
    refine ⟨hs, ht, _, ⟨c, copied, hc, hcr, hco, rfl⟩, ?_⟩
    rw [update_idem]
  · rintro ⟨hs, ht, _, ⟨c, copied, hc, hcr, hco, rfl⟩, rfl⟩
    refine ⟨_, ⟨rfl, hs⟩, _, ⟨c, hc, hcr, rfl⟩, _, ⟨rfl, ht⟩, ?_⟩
    refine (seedRows_eq_ok_iff (update_self _ _ _)).2 ⟨copied, hco, ?_⟩
    rw [update_idem]

/-- What the seed makes of the file of a relation without rows of its own. -/
theorem seedTable_other (ho : f.record.tableType.isPhysical = false) :
    d.seedTable env f = .ok d' ↔ f.record.Safe ∧ d.Takes f.record ∧
      d' = { d with tables := d.tables.put f.record } := by
  rw [seedTable]
  simp only [ho, bind_eq_ok_iff, mapError_eq_ok_iff, quotedTableRef_eq_ok_iff]
  constructor
  · rintro ⟨_, ⟨-, hs⟩, hp⟩
    obtain ⟨rfl, ht⟩ := putTable_eq_ok_iff.1 hp
    exact ⟨hs, ht, rfl⟩
  · rintro ⟨hs, ht, rfl⟩
    exact ⟨_, ⟨rfl, hs⟩, putTable_eq_ok_iff.2 ⟨rfl, ht⟩⟩

end Table

/-! ## Seeds that succeed -/

def SeedItem.Safe : SeedItem Row → Prop
  | dataset m => isSqlSafeId m.projectId = true ∧ isSqlSafeId m.datasetId = true
  | table f => f.record.Safe
  | routine _ => True

/-- **What a seed leaves**: the records of the files, the policies, and each relation as the files
of its name make it. -/
structure Seeded (env : CommandEnv Row) (items : List (SeedItem Row)) (d d' : DataDir Row) :
    Prop where
  safe : ∀ item ∈ items, item.Safe
  datasets : d'.datasets = (items.filterMap dataset?).foldl Keyed.put d.datasets
  tables : d'.tables =
    ((items.filterMap table?).map TableFiles.record).foldl Keyed.put d.tables
  routines : d'.routines = (items.filterMap routine?).foldl Keyed.put d.routines
  policies : d'.policies = d.policies
  storage : ∀ key, Loads env (items.filterMap (loads? key)) (d.storage key) (d'.storage key)

section Seed

variable {env : CommandEnv Row} {d d' : DataDir Row} {items : List (SeedItem Row)}

theorem seedDataset_eq_ok_iff {m : DatasetMeta} :
    d.seedDataset m = .ok d' ↔ d' = { d with datasets := d.datasets.put m } ∧
      isSqlSafeId m.projectId = true ∧ isSqlSafeId m.datasetId = true := by
  simp only [seedDataset, bind_eq_ok_iff, map_eq_ok_iff,
    mapError_eq_ok_iff, validateSqlId_eq_ok_iff]
  constructor
  · rintro ⟨_, ⟨-, hp⟩, _, ⟨-, hd⟩, rfl⟩
    exact ⟨rfl, hp, hd⟩
  · rintro ⟨rfl, hp, hd⟩
    exact ⟨_, ⟨rfl, hp⟩, _, ⟨rfl, hd⟩, rfl⟩

theorem seedRoutine_eq_ok_iff {r : RoutineMeta} :
    d.seedRoutine r = .ok d' ↔ d' = { d with routines := d.routines.put r } ∧
      ((d.datasets.get? r.home).isSome = true ∨ (d.routines.get? r.key).isSome = true) :=
  ite_or_eq_ok_iff

variable {f : TableFiles Row} {key : String × String}

theorem loads_cons_of_ne (h : f.record.id.key ≠ key) :
    (.table f :: items).filterMap (loads? key) =
      items.filterMap (loads? key) := by
  simp [loads?, h]

theorem loads_cons_of_other (h : f.record.tableType.isPhysical = false) :
    (.table f :: items).filterMap (loads? key) =
      items.filterMap (loads? key) := by
  simp [loads?, h]

theorem loads_cons_self (h : f.record.tableType.isPhysical = true) :
    (.table f :: items).filterMap (loads? f.record.id.key) =
      f :: items.filterMap (loads? f.record.id.key) := by
  simp [loads?, h]

theorem Seeded.cons {i : SeedItem Row} {d₁ : DataDir Row} (hi : d.seedItem env i = .ok d₁)
    (h : Seeded env items d₁ d') : Seeded env (i :: items) d d' := by
  cases i with
  | dataset m =>
    obtain ⟨rfl, hs⟩ := seedDataset_eq_ok_iff.1 hi
    exact ⟨forall_mem_cons.2 ⟨hs, h.safe⟩, h.datasets, h.tables, h.routines, h.policies, h.storage⟩
  | routine r =>
    obtain ⟨rfl, -⟩ := seedRoutine_eq_ok_iff.1 hi
    exact ⟨forall_mem_cons.2 ⟨trivial, h.safe⟩, h.datasets, h.tables, h.routines, h.policies,
      h.storage⟩
  | table f =>
    cases hp : f.record.tableType.isPhysical with
    | false =>
      obtain ⟨hs, -, rfl⟩ := (seedTable_other hp).1 hi
      refine ⟨forall_mem_cons.2 ⟨hs, h.safe⟩, h.datasets, h.tables, h.routines, h.policies,
        fun key => ?_⟩
      rw [loads_cons_of_other hp]
      exact h.storage key
    | true =>
      obtain ⟨hs, -, y, hl, rfl⟩ := (seedTable_physical hp).1 hi
      refine ⟨forall_mem_cons.2 ⟨hs, h.safe⟩, h.datasets, h.tables, h.routines, h.policies,
        fun key => ?_⟩
      have hr := h.storage key
      by_cases hk : f.record.id.key = key
      · subst hk
        rw [loads_cons_self hp]
        exact ⟨y, hl, by simpa using hr⟩
      · rw [loads_cons_of_ne hk]
        simpa [update_of_ne (Ne.symm hk)] using hr

/-- What is there after a seed. -/
theorem Seeded.of_seedItems (h : d.seedItems env items = .ok d') : Seeded env items d d' := by
  induction items generalizing d with
  | nil =>
    obtain rfl := ok.inj h
    exact ⟨forall_mem_nil _, rfl, rfl, rfl, rfl, fun _ => rfl⟩
  | cons i items ih =>
    obtain ⟨d₁, hi, hr⟩ := bind_eq_ok_iff.1 h
    exact (ih hr).cons hi

/-- When a seed succeeds: the engine takes the names, datasets come first, and each relation can be
made. -/
theorem seedItems_of_loads {seen : List (String × String)} (hg : Grounded seen items)
    (hs : ∀ k ∈ seen, (d.datasets.get? k).isSome = true) (hsa : ∀ item ∈ items, item.Safe)
    (hl : ∀ key, ∃ y, Loads env (items.filterMap (loads? key)) (d.storage key) y) :
    ∃ d', d.seedItems env items = .ok d' := by
  induction items generalizing d seen with
  | nil => exact ⟨d, rfl⟩
  | cons item items ih =>
    obtain ⟨hi, hr⟩ := forall_mem_cons.1 hsa
    suffices h : ∃ d₁, d.seedItem env item = .ok d₁ ∧
        (∀ k ∈ (item.dataset?.map DatasetMeta.key).toList ++ seen,
          (d₁.datasets.get? k).isSome = true) ∧
        ∀ key, ∃ y, Loads env (items.filterMap (loads? key)) (d₁.storage key) y by
      obtain ⟨d₁, hok, hs₁, hl₁⟩ := h
      obtain ⟨d', hd'⟩ := ih hg.2 hs₁ hr hl₁
      exact ⟨d', bind_eq_ok_iff.2 ⟨d₁, hok, hd'⟩⟩
    cases item with
    | dataset m =>
      refine ⟨_, seedDataset_eq_ok_iff.2 ⟨rfl, hi⟩, fun k hk => ?_, hl⟩
      rw [Keyed.get?_put]
      split_ifs with hke
      · rfl
      · refine hs k ((mem_append.1 hk).resolve_left fun hm => hke ?_)
        simpa [dataset?, eq_comm] using hm
    | routine r =>
      have hh := hs r.home (hg.1 r.home rfl)
      exact ⟨_, seedRoutine_eq_ok_iff.2 ⟨rfl, .inl hh⟩, hs, hl⟩
    | table f =>
      have hh : d.Takes f.record := .inl (hs f.record.home (hg.1 f.record.home rfl))
      cases hp : f.record.tableType.isPhysical with
      | false =>
        refine ⟨_, (seedTable_other hp).2 ⟨hi, hh, rfl⟩, hs, fun key => ?_⟩
        have hke := hl key
        rwa [loads_cons_of_other hp] at hke
      | true =>
        obtain ⟨z, hz⟩ := hl f.record.id.key
        rw [loads_cons_self hp] at hz
        obtain ⟨y, hlo, hr⟩ := hz
        refine ⟨_, (seedTable_physical hp).2 ⟨hi, hh, y, hlo, rfl⟩, hs, fun key => ?_⟩
        by_cases hke : f.record.id.key = key
        · subst hke
          exact ⟨z, by simpa using hr⟩
        · have ho := hl key
          rw [loads_cons_of_ne hke] at ho
          simpa [update_of_ne (Ne.symm hke)] using ho

end Seed

end Bqemulator
