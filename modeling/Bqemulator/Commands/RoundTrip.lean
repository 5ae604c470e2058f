import Bqemulator.Commands.SeededData

/-!
# Export and seed as inverses

A relation comes back with its rows if one table has its name in the engine, or it has no rows. A
view comes back if what its query reads does. Policies are not exported.
-/

namespace Bqemulator

open DataDir Keyed List Option

variable {Row Caller : Type}

/-! ## The files of a relation -/

variable {fs : List (TableFiles Row)}

section Files

variable {env : CommandEnv Row}

theorem Load.unique {f : TableFiles Row} {x y y' : Option (StoredTable Row)}
    (h : Load env f x y) (h' : Load env f x y') : y = y' := by
  obtain ⟨c, copied, hco, -, hc, rfl⟩ := h
  obtain ⟨_, c', hco', -, hc', rfl⟩ := h'
  obtain rfl := some.inj (hco.symm.trans hco')
  have heq : copied = c' := by
    cases hf : f.parquet with
    | rows =>
      rw [hf] at hc hc'
      exact some.inj (hc.symm.trans hc')
    | missing | empty =>
      rw [hf] at hc hc'
      exact hc.trans hc'.symm
  rw [heq]

/-- Files make at most one thing of a relation. -/
theorem Loads.unique : ∀ {fs : List (TableFiles Row)} {x y y' : Option (StoredTable Row)},
    Loads env fs x y → Loads env fs x y' → y = y'
  | [], _, _, _, h, h' => h.trans h'.symm
  | _ :: _, _, _, _, ⟨_, hl, hr⟩, ⟨_, hl', hr'⟩ => by
    obtain rfl := hl.unique hl'
    exact hr.unique hr'

/-- Files without rows are loaded if the engine takes their columns. -/
theorem exists_loads_of_noRows (x : Option (StoredTable Row))
    (h : ∀ f ∈ fs, (∃ columns, seedColumns env f.record = some columns ∧
      env.creates columns = true) ∧ f.parquet = .empty) : ∃ y, Loads env fs x y := by
  induction fs generalizing x with
  | nil => exact ⟨x, rfl⟩
  | cons f fs ih =>
    obtain ⟨⟨⟨columns, hc, hcr⟩, hf⟩, hr⟩ := forall_mem_cons.1 h
    have hl : Load env f x (some ⟨(x.getD ⟨columns, []⟩).columns,
        (x.getD ⟨columns, []⟩).rows ++ []⟩) :=
      ⟨columns, [], hc, hcr, by simp [hf, ParquetFile.Brings], rfl⟩
    obtain ⟨y, hy⟩ := ih _ hr
    exact ⟨y, _, hl, hy⟩

/-- The tables and clones with this name in the engine. -/
def DataDir.owners (d : DataDir Row) (key : String × String) : List TableRecord :=
  d.tables.rows.filter fun r => r.tableType.isPhysical && r.id.key = key

variable {d : DataDir Row} {key : String × String} {r : TableRecord}

theorem DataDir.mem_owners :
    r ∈ d.owners key ↔ r ∈ d.tables.rows ∧ r.tableType.isPhysical = true ∧ r.id.key = key := by
  simp [owners]

theorem DataDir.exports_eq_true_iff : d.exports key = true ↔ ∃ r, r ∈ d.owners key := by
  simp [exports, mem_owners]

theorem DataDir.exported_storage (d : DataDir Row) (key : String × String) :
    d.exported.storage key = if d.exports key then d.storage key else none := rfl

/-- A seed loads a relation from the files of its owners. -/
theorem loads_perm (d : WholeDataDir Row) (key : String × String) :
    (d.dumped.filterMap (SeedItem.loads? key)).Perm
      ((d.owners key).map (fileFor d.toDataDir)) := by
  have hl : (SeedItem.loads? key : SeedItem Row → _) = fun i => i.table?.bind fun f =>
      if f.record.tableType.isPhysical && f.record.id.key = key then some f else none := by
    funext i
    cases i <;> rfl
  rw [hl, ← filterMap_filterMap]
  refine ((tableFiles_perm d).filterMap _).trans (List.Perm.of_eq ?_)
  rw [filterMap_map, owners, ← filterMap_eq_filter, map_filterMap]
  refine filterMap_congr fun r _ => ?_
  cases hp : r.tableType.isPhysical with
  | false => simp [fileFor, hp]
  | true => by_cases hk : r.id.key = key <;> simp [fileFor, hp, hk]

theorem loads_eq_nil {d : WholeDataDir Row} (h : ¬ d.exports key = true) :
    d.dumped.filterMap (SeedItem.loads? key) = [] := by
  have ho : d.owners key = [] := by
    refine eq_nil_iff_forall_not_mem.2 fun r hr => h ?_
    exact exports_eq_true_iff.2 ⟨r, hr⟩
  have hf := loads_perm d key
  rw [ho, map_nil] at hf
  exact hf.eq_nil

theorem fileFor_parquet (hr : r ∈ d.owners key) : (fileFor d r).parquet = match d.storage key with
      | none => .missing
      | some t => if t.rows.isEmpty then .empty else .rows t := by
  obtain ⟨-, hp, rfl⟩ := mem_owners.1 hr
  simp only [fileFor, hp]
  rfl

/-- Every owner is exported with all rows of the relation. -/
theorem fileFor_length (hr : r ∈ d.owners key) :
    (fileFor d r).parquet.length = rowCount (d.storage key) := by
  rw [fileFor_parquet hr]
  cases d.storage key with
  | none => rfl
  | some t =>
    dsimp only
    split_ifs with he
    · rw [List.isEmpty_iff] at he
      simp [ParquetFile.length, rowCount, he]
    · rfl

/-- The rows of a relation come back if it has one owner, or is there without rows. -/
theorem restores_iff (hcy : CopiesAll env) (hfs : fs.Perm ((d.owners key).map (fileFor d)))
    (hep : d.exports key = true) :
    (∃ y, Loads env fs none y ∧
        y.map StoredTable.rows = (d.storage key).map StoredTable.rows) ↔
      ∀ r ∈ d.owners key, ∃ columns, seedColumns env r = some columns ∧
        env.creates columns = true ∧ ∃ t, d.storage key = some t ∧
          (t.rows = [] ∨ env.copyFrom columns t = some t.rows ∧ ∀ r' ∈ d.owners key, r' = r) := by
  obtain ⟨r₀, hr₀⟩ := exports_eq_true_iff.1 hep
  have hm : ∀ {r}, r ∈ d.owners key → fileFor d r ∈ fs := fun hr =>
    hfs.mem_iff.2 (mem_map_of_mem hr)
  have hle : ∀ f ∈ fs, f.parquet.length = rowCount (d.storage key) := by
    intro f hf
    obtain ⟨r, hr, rfl⟩ := mem_map.1 (hfs.mem_iff.1 hf)
    exact fileFor_length hr
  constructor
  · rintro ⟨y, hl, hro⟩ r hr
    obtain ⟨columns, hc, hcr⟩ := hl.mem (hm hr)
    refine ⟨columns, hc, hcr, ?_⟩
    have hy : y.isSome := hl.isSome (.inr (ne_nil_of_mem (hm hr)))
    obtain ⟨u, rfl⟩ := isSome_iff_exists.1 hy
    obtain ⟨t, ht, hro⟩ := map_eq_some_iff.1 hro.symm
    refine ⟨t, ht, ?_⟩
    -- the files have `fs.length` times the rows of the relation
    have hcn := hl.rowCount_eq hcy hle
    simp only [rowCount, ht, elim_some, elim_none, ← hro, Nat.zero_add] at hcn
    rcases Nat.eq_zero_or_pos t.rows.length with hz | hp
    · exact .inl (length_eq_zero_iff.1 hz)
    right
    have hoe : fs.length = 1 := by
      refine Nat.eq_of_mul_eq_mul_right hp ?_
      rw [← hcn, Nat.one_mul]
    obtain ⟨f, rfl⟩ := length_eq_one_iff.1 hoe
    have ho : (d.owners key).length = 1 := by
      rw [← length_map (fileFor d), ← hfs.length_eq]
      rfl
    obtain ⟨r₁, hr₁⟩ := length_eq_one_iff.1 ho
    obtain rfl : r = r₁ := mem_singleton.1 (hr₁ ▸ hr)
    refine ⟨?_, fun r' hr' => by simpa [hr₁] using hr'⟩
    have hf : f = fileFor d r := (mem_singleton.1 (hm hr)).symm
    subst hf
    obtain ⟨_, ⟨_, c, hc', -, hco, rfl⟩, hu⟩ := hl
    obtain rfl := some.inj (hc.symm.trans hc')
    rw [fileFor_parquet hr, ht] at hco
    dsimp only at hco
    rw [if_neg (by simpa [length_pos_iff] using hp)] at hco
    obtain rfl := some.inj hu
    rw [hro]
    exact hco
  · intro h
    obtain ⟨columns, hc, hcr, t, ht, hca⟩ := h r₀ hr₀
    by_cases he : t.rows = []
    · -- no file has rows
      have hfi : ∀ f ∈ fs, (∃ columns, seedColumns env f.record = some columns ∧
          env.creates columns = true) ∧ f.parquet = .empty := by
        intro f hf
        obtain ⟨r, hr, rfl⟩ := mem_map.1 (hfs.mem_iff.1 hf)
        obtain ⟨columns, hc, hcr, -⟩ := h r hr
        refine ⟨⟨columns, hc, hcr⟩, ?_⟩
        rw [fileFor_parquet hr, ht]
        simp [he]
      obtain ⟨y, hy⟩ := exists_loads_of_noRows none hfi
      refine ⟨y, hy, ?_⟩
      have hs : y.isSome := hy.isSome (.inr (ne_nil_of_mem (hm hr₀)))
      obtain ⟨u, rfl⟩ := isSome_iff_exists.1 hs
      have hcn := hy.rowCount_eq hcy hle
      simp only [rowCount, ht, elim_some, he, length_nil, elim_none,
        Nat.mul_zero, Nat.add_zero, length_eq_zero_iff] at hcn
      rw [ht, map_some, map_some, hcn, he]
    · obtain ⟨hco, hon⟩ := hca.resolve_left he
      have hn : (d.owners key).Nodup := (d.tables.nodup.of_map _).filter _
      have ho : d.owners key = [r₀] := by
        refine perm_singleton.1 ((perm_ext_iff_of_nodup hn (nodup_singleton r₀)).2 fun r => ?_)
        rw [mem_singleton]
        exact ⟨hon r, fun h => h ▸ hr₀⟩
      rw [ho] at hfs
      rw [perm_singleton.1 hfs]
      refine ⟨some ⟨columns, t.rows⟩, ⟨_, ⟨columns, t.rows, hc, hcr, ?_, rfl⟩, rfl⟩, ?_⟩
      · rw [fileFor_parquet hr₀, ht]
        simpa [he, ParquetFile.Brings] using hco
      · rw [ht, map_some, map_some]

end Files

/-! ## Rows of tables and views -/

section Rows

variable {renv : ReadEnv Row Caller} {d d' : DataDir Row} {caller : Caller}

/-- Without policies a caller reads all rows. -/
theorem engineRows_of_noPolicies (h : d.policies.rows = []) (id : TableId) :
    engineRows renv d caller id = (d.storage id.key).map StoredTable.rows := by
  simp only [engineRows, h, filter_nil, isEmpty_nil, if_true]

/-- What a table or view shows depends on the records and the rows of relations only. -/
theorem rowsAt_congr (ht : d'.tables.Same d.tables) (hp : d.policies.rows = [])
    (hp' : d'.policies.rows = []) (hs : ∀ key, (d'.storage key).map StoredTable.rows =
      (d.storage key).map StoredTable.rows) (depth : Nat) (id : TableId) :
    rowsAt renv d' caller depth id = rowsAt renv d caller depth id := by
  have he : ∀ id, engineRows renv d' caller id = engineRows renv d caller id := fun id => by
    rw [engineRows_of_noPolicies hp, engineRows_of_noPolicies hp', hs]
  induction depth generalizing id with
  | zero => exact he id
  | succ depth ih =>
    rw [rowsAt, rowsAt, ht id, he id, funext ih]

theorem rowsOfTable_physical {r : TableRecord} (hp : d.policies.rows = [])
    (hr : d.tables.get? r.id = some r) (hph : r.tableType.isPhysical = true) :
    rowsOfTable renv d caller r.id = (d.storage r.id.key).map StoredTable.rows := by
  have hb : r.viewBody = none := by
    unfold TableRecord.viewBody
    cases ht : r.tableType <;> simp_all [TableType.isPhysical]
  rw [rowsOfTable, rowsAt, hr, bind_some, hb]
  exact engineRows_of_noPolicies hp r.id

end Rows

/-! ## Data directories that come back -/

section RoundTrip

variable {env : CommandEnv Row} {renv : ReadEnv Row Caller} {d : WholeDataDir Row}
  {d' : DataDir Row}

/-- A seed gives the records back, and no policies. -/
theorem Seeded.same (h : Seeded env d.dumped {} d') :
    d'.datasets.Same d.datasets ∧ d'.tables.Same d.tables ∧ d'.routines.Same d.routines ∧
      d'.policies.rows = [] := by
  have hr := (tableFiles_perm d).map TableFiles.record
  rw [List.map_map, show TableFiles.record ∘ fileFor d.toDataDir = id from rfl, List.map_id] at hr
  rw [h.datasets, h.tables, h.routines, h.policies]
  exact ⟨Keyed.same_ofList (datasetFiles_perm d.toDataDir), Keyed.same_ofList hr,
    Keyed.same_ofList (routineFiles_perm d), rfl⟩

/-- A seed gives the rows of all relations back if it does those of the exported ones. -/
theorem Seeded.storage_map_rows
    (h : Seeded env d.dumped {} d')
    (hr : ∀ key, d.exports key = true → (d'.storage key).map StoredTable.rows =
      (d.storage key).map StoredTable.rows) (key : String × String) :
    (d'.storage key).map StoredTable.rows = (d.exported.storage key).map StoredTable.rows := by
  by_cases he : d.exports key = true
  · rw [hr key he, exported_storage, if_pos he]
  · have hl := h.storage key
    rw [loads_eq_nil he] at hl
    rw [exported_storage, if_neg he]
    exact congrArg _ hl

theorem mem_seedOrder_of_dataset {m : DatasetMeta} (hm : m ∈ d.datasets.rows) :
    .dataset m ∈ d.dumped := by
  obtain ⟨i, hi, hg⟩ := mem_filterMap.1 ((datasetFiles_perm d.toDataDir).mem_iff.2 hm)
  cases i with
  | dataset m' =>
    obtain rfl := some.inj hg
    exact hi
  | table f | routine r => cases hg

theorem mem_seedOrder_of_table {r : TableRecord} (hr : r ∈ d.tables.rows) :
    .table (fileFor d.toDataDir r) ∈ d.dumped := by
  obtain ⟨i, hi, hg⟩ := mem_filterMap.1
    ((tableFiles_perm d).mem_iff.2 (mem_map_of_mem hr))
  cases i with
  | dataset m => cases hg
  | table f =>
    obtain rfl := some.inj hg
    exact hi
  | routine r => cases hg

/-- A data directory that comes back satisfies the conditions. -/
theorem RoundTrips.portable [Nonempty Caller] (hc : CopiesAll env)
    (h : RoundTrips env renv d.toDataDir) : Portable env renv d.toDataDir := by
  obtain ⟨files, d', het, hse, hsa⟩ := h
  obtain ⟨rfl, hf⟩ := exportAll_eq_ok_iff.1 het
  have hs := Seeded.of_seedItems hse
  obtain ⟨-, hta, -, hp'⟩ := hs.same
  have hpo : d.policies.rows = [] := by
    refine eq_nil_iff_forall_not_mem.2 fun p hp => ?_
    have hg := hsa.policies p.key
    rw [mem_iff_get?.1 hp] at hg
    rw [get?_eq_some_iff, hp'] at hg
    exact not_mem_nil hg.1
  have hw : ∀ r ∈ d.tables.rows, Writable env d.toDataDir r := by
    intro r hr
    obtain ⟨m, hm, hh⟩ := d.tables_home r hr
    exact (hf m hm).2.2.1 r (mem_filter.2 ⟨hr, decide_eq_true hh.symm⟩)
  -- the relations of tables and clones have the rows that they had
  have hro : ∀ key, d.exports key = true → (d'.storage key).map StoredTable.rows =
      (d.storage key).map StoredTable.rows := by
    intro key he
    obtain ⟨r, ho⟩ := exports_eq_true_iff.1 he
    obtain ⟨hr, hph, rfl⟩ := mem_owners.1 ho
    obtain ⟨caller⟩ := ‹Nonempty Caller›
    have hg := mem_iff_get?.1 hr
    rw [← rowsOfTable_physical hp' ((hta r.id).trans hg) hph, ← rowsOfTable_physical hpo hg hph]
    exact hsa.rows caller r hr
  refine ⟨fun m hm => ?_, fun r hr => ?_, fun r hr => ?_, hpo, fun r hr hph => ?_,
    fun r hr _ caller => ?_⟩
  · obtain ⟨hpr, hd⟩ := hs.safe _ (mem_seedOrder_of_dataset hm)
    exact ⟨hpr, hd, (hf m hm).1, (hf m hm).2.1⟩
  · exact ⟨(hs.safe _ (mem_seedOrder_of_table hr)).1, (hw r hr).1⟩
  · obtain ⟨m, hm, hh⟩ := d.routines_home r hr
    exact (hf m hm).2.2.2 r (mem_filter.2 ⟨hr, decide_eq_true hh.symm⟩)
  · have ho : r ∈ d.owners r.id.key := mem_owners.2 ⟨hr, hph, rfl⟩
    have he := exports_eq_true_iff.2 ⟨r, ho⟩
    obtain ⟨c, hco, hcr, t, ht, hca⟩ := (restores_iff hc
      (loads_perm d r.id.key) he).1 ⟨_, hs.storage r.id.key, hro _ he⟩ r ho
    refine ⟨⟨c, hco, hcr, t, ht, hca.imp_right fun hon => ⟨hon.1, ?_⟩⟩, ?_⟩
    · intro r' hr' hph' hk
      exact hon.2 r' (mem_owners.2 ⟨hr', hph', hk⟩)
    · exact ((hw r hr).2 hph).2 (by rw [ht]; rfl)
  · rw [← hsa.rows caller r hr]
    exact (rowsAt_congr (d := d.exported) hta hpo hp' (hs.storage_map_rows hro) 8 r.id).symm

/-- The conditions are enough. -/
theorem Portable.roundTrips (hc : CopiesAll env) (h : Portable env renv d.toDataDir) :
    RoundTrips env renv d.toDataDir := by
  have hsa : ∀ r ∈ d.tables.rows, r.Safe := by
    intro r hr
    obtain ⟨m, hm, hh⟩ := d.tables_home r hr
    obtain ⟨hpr, hds⟩ := Prod.mk.inj hh
    exact ⟨(h.tables r hr).1, hpr ▸ (h.datasets m hm).1, hds ▸ (h.datasets m hm).2.1⟩
  have het : exportAll env d.toDataDir = .ok (d.datasets.rows.map (packed d.toDataDir)) := by
    refine exportAll_eq_ok_iff.2 ⟨rfl, fun m hm => ⟨(h.datasets m hm).2.2.1,
      (h.datasets m hm).2.2.2, fun r hr => ?_, fun r hr => h.routines r (mem_filter.1 hr).1⟩⟩
    have hr := (mem_filter.1 hr).1
    exact ⟨(h.tables r hr).2, fun hp => ⟨hsa r hr, fun _ => (h.physical r hr hp).file⟩⟩
  -- each relation of a table or clone is made with its rows
  have hma : ∀ key, d.exports key = true → ∃ y, Loads env
      (d.dumped.filterMap (SeedItem.loads? key))
      none y ∧ y.map StoredTable.rows = (d.storage key).map StoredTable.rows := by
    intro key he
    refine (restores_iff hc (loads_perm d key) he).2 fun r how => ?_
    obtain ⟨hr, hp, rfl⟩ := mem_owners.1 how
    obtain ⟨c, hco, hcr, t, ht, hca⟩ := (h.physical r hr hp).created
    refine ⟨c, hco, hcr, t, ht, hca.imp_right fun ho => ⟨ho.1, ?_⟩⟩
    intro r' hr'
    obtain ⟨hr', hp', hk⟩ := mem_owners.1 hr'
    exact ho.2 r' hr' hp' hk
  have hs : ∃ d', seedAll env (d.datasets.rows.map (packed d.toDataDir)) = .ok d' := by
    refine seedItems_of_loads (grounded_seedOrder d.toDataDir) (forall_mem_nil _)
      (fun i hi => ?_) fun key => ?_
    · cases i with
      | dataset m =>
        have hm : m ∈ d.datasets.rows := (datasetFiles_perm d.toDataDir).mem_iff.1
          (mem_filterMap.2 ⟨_, hi, rfl⟩)
        exact ⟨(h.datasets m hm).1, (h.datasets m hm).2.1⟩
      | table f =>
        have hf : f ∈ d.tables.rows.map (fileFor d.toDataDir) := (tableFiles_perm d).mem_iff.1
          (mem_filterMap.2 ⟨_, hi, rfl⟩)
        obtain ⟨r, hr, rfl⟩ := mem_map.1 hf
        exact hsa r hr
      | routine r => trivial
    · by_cases he : d.exports key = true
      · exact (hma key he).imp fun y hy => hy.1
      · rw [loads_eq_nil he]
        exact ⟨none, rfl⟩
  obtain ⟨d', hs⟩ := hs
  have hse := Seeded.of_seedItems hs
  obtain ⟨hd, hta, hru, hpo⟩ := hse.same
  have hro := hse.storage_map_rows fun key he => by
    obtain ⟨y, hl, hy⟩ := hma key he
    rw [← hy, hl.unique (hse.storage key)]
  refine ⟨_, d', het, hs, hd, hta, hru, fun k => ?_, fun caller r hr => ?_⟩
  · simp [get?, hpo, h.policies]
  have ha : rowsOfTable renv d' caller r.id = rowsOfTable renv d.exported caller r.id :=
    rowsAt_congr (d := d.exported) hta h.policies hpo hro 8 r.id
  rw [ha]
  cases hp : r.tableType.isPhysical with
  | false => exact h.derived r hr hp caller
  | true =>
    have hg := mem_iff_get?.1 hr
    have he : d.exports r.id.key = true := exports_eq_true_iff.2
      ⟨r, mem_owners.2 ⟨hr, hp, rfl⟩⟩
    rw [rowsOfTable_physical h.policies hg hp,
      rowsOfTable_physical (show d.exported.policies.rows = [] from h.policies) hg hp,
      exported_storage, if_pos he]

/-- **When an export can be seeded back**: a data directory comes back iff it is as the condition
asks. -/
theorem export_seed_iff [Nonempty Caller] (hcopy : CopiesAll env) (d : WholeDataDir Row) :
    RoundTrips env renv d.toDataDir ↔ Portable env renv d.toDataDir :=
  ⟨fun h => h.portable hcopy, fun h => h.roundTrips hcopy⟩

end RoundTrip

/-- An engine that takes all columns and copies all rows. -/
def copyingEnv : CommandEnv Nat where
  fileName _ := true
  bqToDuckdb := some
  creates _ := true
  copyFrom _ t := some t.rows

def plainReads : ReadEnv Nat Unit where
  evaluate _ _ := none
  filter _ _ _ := []

/-- Another table, in a dataset of another project. -/
def farTable : TableRecord :=
  { plainTable with projectId := "q", datasetId := "e", tableId := "v" }

/-- Two datasets of two projects, with a table each. -/
def plainDir : WholeDataDir Nat where
  datasets := ⟨[⟨"p", "d", []⟩, ⟨"q", "e", []⟩], by decide⟩
  tables := ⟨[plainTable, farTable], by decide⟩
  storage key := if key = plainTable.id.key then some ⟨[("a", "INT64")], [1]⟩
    else if key = farTable.id.key then some ⟨[("a", "INT64")], [2, 3]⟩ else none
  tables_home := by decide
  routines_home := by decide

/-- Two tables in two projects come back. -/
theorem export_seed_plainDir : CopiesAll copyingEnv ∧
    RoundTrips copyingEnv plainReads plainDir.toDataDir := by
  have hc : CopiesAll copyingEnv := by
    rintro c f rows ⟨⟩
    rfl
  have hcases : ∀ r ∈ plainDir.tables.rows, r = plainTable ∨ r = farTable := fun r hr => by
    simpa [plainDir] using hr
  have howner : ∀ r ∈ plainDir.tables.rows, ∀ r' ∈ plainDir.tables.rows,
      r'.id.key = r.id.key → r' = r := by
    intro r hr r' hr' hkey
    rcases hcases r hr with rfl | rfl <;> rcases hcases r' hr' with rfl | rfl
    · rfl
    · exact absurd hkey (by decide)
    · exact absurd hkey (by decide)
    · rfl
  refine ⟨hc, (export_seed_iff hc plainDir).2
    ⟨by decide, by decide, fun _ h => absurd h not_mem_nil, rfl, ?_, ?_⟩⟩
  · rintro r hr -
    have ho := howner r hr
    rcases hcases r hr with rfl | rfl
    · exact ⟨⟨[("a", "INT64")], rfl, rfl, ⟨[("a", "INT64")], [1]⟩, rfl,
        .inr ⟨rfl, fun r' hr' _ => ho r' hr'⟩⟩, rfl⟩
    · exact ⟨⟨[("a", "INT64")], rfl, rfl, ⟨[("a", "INT64")], [2, 3]⟩, rfl,
        .inr ⟨rfl, fun r' hr' _ => ho r' hr'⟩⟩, rfl⟩
  · intro r hr ho
    rcases hcases r hr with rfl | rfl <;> cases ho

/-- The same with a policy on a table. -/
def guardedTable : WholeDataDir Nat :=
  { plainDir with policies := ⟨[⟨plainTable.id, "x", "a = 1", [], 0, 0, ""⟩], by decide⟩ }

/-- A dataset whose only table is a snapshot. -/
def snapshotOnly : WholeDataDir Nat :=
  { plainDir with
    tables := ⟨[{ plainTable with tableType := .snapshot }], by decide⟩
    tables_home := by decide }

/-- **What does not come back**: the policies of a table, and the rows of a snapshot. -/
theorem export_seed_lost :
    ¬ RoundTrips copyingEnv plainReads guardedTable.toDataDir ∧
      ¬ RoundTrips copyingEnv plainReads snapshotOnly.toDataDir := by
  have hc : CopiesAll copyingEnv := by
    rintro c f rows ⟨⟩
    rfl
  refine ⟨fun h => ?_, fun h => ?_⟩
  · exact absurd (h.portable hc).policies (by simp [guardedTable])
  · have hr := (h.portable hc).derived _ (mem_singleton_self _) rfl ()
    exact absurd hr (by decide)

end Bqemulator
