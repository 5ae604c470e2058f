import Bqemulator.Catalog.DuckdbRepository
import Bqemulator.Lib.Mirror
import Bqemulator.Lib.Run

/-!
# Hydration gives the dictionaries back

A repository is opened again by reading its tables into fresh dictionaries. An operation keeps the
tables a mirror of the dictionaries if its record is read back as it was written, and a deleted
dataset takes the same records out of both.
-/

namespace Bqemulator

open CatalogDb Except Keyed List MemoryRepository Option

/-! ## References of access entries -/

/-- A part of a reference without a separator in it. -/
def PlainPart (part : String) : Prop :=
  ¬ [':', ':'] <:+: part.toList

/-- A part that a separator can follow: it does not end in a colon. -/
def InnerPart (part : String) : Prop :=
  PlainPart part ∧ part.toList.getLast? ≠ some ':'

/-- An access entry whose references can be taken apart again. -/
def AccessEntry.Separable (e : AccessEntry) : Prop :=
  (∀ a b c, e.view = some (a, b, c) → InnerPart a ∧ InnerPart b ∧ PlainPart c) ∧
  (∀ a b c, e.routine = some (a, b, c) → InnerPart a ∧ InnerPart b ∧ PlainPart c) ∧
  ∀ a b, e.dataset = some (a, b) → InnerPart a ∧ PlainPart b

variable {cs x : List Char} {Row R K : Type} {key : String × String} {m : DatasetMeta}
  {row : MaterializedViewRow} {c : MemoryRepository} {op : CatalogOp}

theorem splitParts_cons {c : Char} {part : List Char} {p : List (List Char)}
    (h : c = ':' → cs.head? ≠ some ':') (hc : splitParts cs = part :: p) :
    splitParts (c :: cs) = (c :: part) :: p := by
  rw [splitParts.eq_3, hc]
  rintro r rfl rfl
  exact h rfl rfl

theorem head?_ne_of_plain {c : Char} (h : ¬ [':', ':'] <:+: c :: cs) (hc : c = ':') :
    cs.head? ≠ some ':' := by
  intro hh
  obtain ⟨r, rfl⟩ := head?_eq_some_iff.1 hh
  exact h ⟨[], r, by simp [hc]⟩

/-- A text without a separator is one part. -/
theorem splitParts_of_plain (h : ¬ [':', ':'] <:+: x) : splitParts x = [x] := by
  induction x with
  | nil => rfl
  | cons c x ih =>
    have ht := ih fun hx => h (hx.trans (suffix_cons c x).isInfix)
    exact splitParts_cons (head?_ne_of_plain h) ht

theorem splitParts_append {w : List Char} (h : ¬ [':', ':'] <:+: x) (hl : x.getLast? ≠ some ':') :
    splitParts (x ++ ':' :: ':' :: w) = x :: splitParts w := by
  induction x with
  | nil => rfl
  | cons c x ih =>
    have hx : ¬ [':', ':'] <:+: x := fun hx => h (hx.trans (suffix_cons c x).isInfix)
    cases x with
    | nil =>
      have hc : c ≠ ':' := by simpa using hl
      exact splitParts_cons (fun e => absurd e hc) rfl
    | cons d x =>
      have hl' : (d :: x).getLast? ≠ some ':' := by simpa using hl
      refine splitParts_cons (fun hc => ?_) (ih hx hl')
      simpa using head?_ne_of_plain h hc

theorem splitRef_joinRef_singleton {a : String} (ha : PlainPart a) :
    splitRef (joinRef [a]) = [a] := by
  simp [splitRef, joinRef, splitParts_of_plain ha]

theorem splitRef_joinRef_cons {a b : String} {p : List String} (ha : InnerPart a) :
    splitRef (joinRef (a :: b :: p)) = a :: splitRef (joinRef (b :: p)) := by
  have h := splitParts_append (w := [':', ':'].intercalate ((b :: p).map String.toList))
    ha.1 ha.2
  simpa [splitRef, joinRef] using congrArg (map String.ofList) h

theorem bind_splitRef3 {ref : Option (String × String × String)}
    (h : ∀ a b c, ref = some (a, b, c) → InnerPart a ∧ InnerPart b ∧ PlainPart c) :
    (ref.map fun (a, b, c) => joinRef [a, b, c]).bind splitRef3 = ref := by
  cases ref with
  | none => rfl
  | some ref =>
    obtain ⟨a, b, c⟩ := ref
    obtain ⟨ha, hb, hc⟩ := h a b c rfl
    simp [splitRef3, splitRef_joinRef_cons ha, splitRef_joinRef_cons hb,
      splitRef_joinRef_singleton hc]

/-- An access entry is read back as it was written. -/
theorem entry_row {e : AccessEntry} (h : e.Separable) (m : DatasetMeta) (slot : Nat) :
    (e.row m slot).entry = e := by
  obtain ⟨hv, hr, hd⟩ := h
  obtain ⟨role, u, g, domain, s, i, v, r, d⟩ := e
  simp only [AccessEntry.row, AccessEntryRow.entry, AccessEntry.mk.injEq, true_and]
  refine ⟨bind_splitRef3 hv, bind_splitRef3 hr, ?_⟩
  cases d with
  | none => rfl
  | some ref =>
    obtain ⟨a, b⟩ := ref
    obtain ⟨ha, hb⟩ := hd a b rfl
    simp [splitRef2, splitRef_joinRef_cons ha, splitRef_joinRef_singleton hb]

/-! ## The mirror -/

/-- The record that a row is read as. -/
def Codec.read {K R : Type} (codec : Codec R) (row : Document K) : Except String R :=
  codec.load row.metadataJson

def CatalogDb.readDataset (docs : Documents) (db : CatalogDb) (row : Document (String × String)) :
    Except String DatasetMeta :=
  (docs.dataset.read row).map db.withAccessEntries

/-- **The tables mirror the dictionaries.** -/
structure DuckdbRepository.Mirrored (docs : Documents) (s : DuckdbRepository) : Prop where
  datasets : Keyed.Mirrors (s.db.readDataset docs) s.db.datasets s.cache.datasets
  tables : Keyed.Mirrors docs.table.read s.db.tables s.cache.tables
  routines : Keyed.Mirrors docs.routine.read s.db.routines s.cache.routines
  models : Keyed.Mirrors docs.model.read s.db.models s.cache.models
  jobs : Keyed.Mirrors docs.job.read s.db.jobs s.cache.jobs
  snapshots : Keyed.Mirrors (.ok (ε := String)) s.db.snapshots s.cache.snapshots
  mviews : Keyed.Mirrors (fun row => .ok (ε := String) (s.db.materializedView docs row))
    s.db.materializedViews s.cache.mviews
  rowAccess : Keyed.Mirrors (rowAccessPolicy docs) s.db.rowAccessPolicies
    s.cache.rowAccess

variable {read : Row → Except String R} {codec : Codec R}

theorem readRows_eq_ok {l : Bool} {t : String} {r : Row → String} {rows : List Row}
    {rs : List R} (h : rows.map read = rs.map .ok) :
    readRows l t r read rows = .ok rs := by
  induction rows generalizing rs with
  | nil =>
    obtain rfl : rs = [] := by simpa using h.symm
    rfl
  | cons row rows ih =>
    cases rs with
    | nil => simp at h
    | cons =>
      simp only [map_cons, cons.injEq] at h
      simp [readRows, h.1, ih h.2, Except.map]

theorem readRows_of_mirrors [DecidableEq K] {r : Row → K} {key : R → K} {t : Keyed r}
    {d : Keyed key} (h : Keyed.Mirrors read t d) (l : Bool) (table : String)
    (rowId : Row → String) :
    ∃ rs, readRows l table rowId read t.rows = .ok rs ∧ (ofList rs).Same d := by
  obtain ⟨rs, hr⟩ := h.exists_map_read
  exact ⟨rs, readRows_eq_ok hr, h.same_ofList hr⟩

theorem same_mapRows_ofList [DecidableEq K] {key : R → K} {rs : List R} {f : R → R}
    (hf : ∀ r, key (f r) = key r) (hn : (rs.map key).Nodup) :
    ((Keyed.ofList rs : Keyed key).mapRows f hf).Same (Keyed.ofList (rs.map f)) := by
  intro k
  have hk : (rs.map f).map key = rs.map key := by
    rw [List.map_map]
    exact map_congr_left fun r _ => hf r
  rw [get?_mapRows, get?_ofList hn, get?_ofList (hk ▸ hn), find?_map]
  congr 2
  ext r
  simp [hf r]

variable {docs : Documents} {s : DuckdbRepository}

theorem readRows_datasets (h : s.Mirrored docs) (l : Bool) (t : String)
    (r : Document (String × String) → String) :
    ∃ rs, readRows l t r docs.dataset.read s.db.datasets.rows = .ok rs ∧
      ((Keyed.ofList rs).mapRows s.db.withAccessEntries s.db.key_withAccessEntries).Same
        s.cache.datasets := by
  -- a row that is read with its entries is read without them
  obtain ⟨rs, hrs⟩ := exists_map_ok fun row hro => by
    obtain ⟨m, hm, -⟩ := h.datasets.exists_read hro
    exact (map_eq_ok_iff.1 hm).imp fun _ hr => hr.1
  have hms : s.db.datasets.rows.map (s.db.readDataset docs) =
      (rs.map s.db.withAccessEntries).map .ok := by
    have hma := congrArg (map (Except.map s.db.withAccessEntries)) hrs
    rw [List.map_map, List.map_map] at hma
    rwa [List.map_map]
  refine ⟨rs, readRows_eq_ok hrs, ?_⟩
  have hs := h.datasets.same_ofList hms
  have hn : (rs.map DatasetMeta.key).Nodup := by
    have hk := h.datasets.nodup_keys hms
    have hc : DatasetMeta.key ∘ s.db.withAccessEntries = DatasetMeta.key :=
      funext s.db.key_withAccessEntries
    rwa [List.map_map, hc] at hk
  intro k
  rw [same_mapRows_ofList _ hn k, hs k]

/-- A fresh repository over the tables has the same dictionaries. -/
def DuckdbRepository.Hydrates (docs : Documents) (s : DuckdbRepository) : Prop :=
  ∀ lenient, ∃ c, s.db.hydrate docs lenient = .ok c ∧ c.Same s.cache

/-- Mirrored tables hydrate. -/
theorem DuckdbRepository.Mirrored.hydrates (h : s.Mirrored docs) : s.Hydrates docs := by
  intro lenient
  obtain ⟨datasets, hds, hd⟩ := readRows_datasets h lenient "datasets"
    fun r => s!"{r.key.1}.{r.key.2}"
  obtain ⟨tables, hts, ht⟩ := readRows_of_mirrors h.tables lenient "tables"
    fun r => s!"{r.key.project}.{r.key.dataset}.{r.key.table}"
  obtain ⟨routines, hrs, hrS⟩ := readRows_of_mirrors h.routines lenient "routines"
    fun r => s!"{r.key.1}.{r.key.2.1}.{r.key.2.2}"
  obtain ⟨models, hms, hm⟩ := readRows_of_mirrors h.models lenient "models"
    fun r => s!"{r.key.1}.{r.key.2.1}.{r.key.2.2}"
  obtain ⟨jobs, hjs, hj⟩ := readRows_of_mirrors h.jobs lenient "jobs"
    fun r => s!"{r.key.1}/{r.key.2}"
  obtain ⟨policies, hps, hp⟩ := readRows_of_mirrors h.rowAccess lenient
    "row_access_policies" fun r => s!"{r.id.project}.{r.id.dataset}.{r.id.table}/{r.policyId}"
  have hr : s.db.hydrate docs lenient = .ok
      { datasets := (ofList datasets).mapRows s.db.withAccessEntries
          s.db.key_withAccessEntries
        tables := .ofList tables
        routines := .ofList routines
        models := .ofList models
        jobs := .ofList jobs
        snapshots := .ofList s.db.snapshots.rows
        mviews := .ofList (s.db.materializedViews.rows.map (s.db.materializedView docs))
        rowAccess := .ofList policies } := by
    unfold Codec.read at hds hts hrs hms hjs
    rw [hydrate, hds, ok_bind, hts, ok_bind, hrs, ok_bind, hms, ok_bind, hjs, ok_bind, hps]
    rfl
  refine ⟨_, hr, hd, ht, hrS, hm, hj, ?_, ?_, hp⟩
  · exact h.snapshots.same_ofList (by simp)
  · exact h.mviews.same_ofList (by simp)

/-! ## Access entries -/

variable {db db' : CatalogDb}

theorem accessEntriesOf_congr
    (h : db'.accessEntries.rows.filter (AccessEntryRow.inDataset key.1 key.2) =
      db.accessEntries.rows.filter (AccessEntryRow.inDataset key.1 key.2)) :
    db'.accessEntriesOf key = db.accessEntriesOf key := by
  rw [accessEntriesOf, accessEntriesOf, h]

/-- The rows of a dataset's access list. -/
abbrev DatasetMeta.entryRows (m : DatasetMeta) : List AccessEntryRow :=
  m.accessEntries.mapIdx fun slot e => e.row m slot

theorem insertEach_accessEntries (t : Keyed AccessEntryRow.key) (m : DatasetMeta) :
    ((t.removeIf (AccessEntryRow.inDataset m.projectId m.datasetId)).insertEach
      m.entryRows).1.rows =
    (t.rows.filter fun r => !r.inDataset m.projectId m.datasetId) ++
      m.entryRows := by
  refine (insertEach_of_new ?_ ?_).1
  · -- the slots are different
    rw [DatasetMeta.entryRows, List.mapIdx_eq_zipIdx_map, List.map_map,
      List.nodup_iff_getElem?_ne_getElem?]
    intro i j hij hj
    simp only [length_map, length_zipIdx] at hj
    simp [hj, AccessEntryRow.key, AccessEntry.row, hij.ne]
  · intro r hr
    obtain ⟨i, hi, rfl⟩ := mem_mapIdx.1 hr
    rw [get?_eq_none_iff]
    intro r' hr' hk
    simp only [removeIf] at hr'
    simp only [AccessEntryRow.key, AccessEntry.row, Prod.mk.injEq] at hk
    simp [AccessEntryRow.inDataset, hk.1, hk.2.1] at hr'

/-- The access list of a dataset is the one that was written last. -/
theorem accessEntriesOf_write
    (hr : db.accessEntries.rows.filter (AccessEntryRow.inDataset m.projectId m.datasetId) =
      m.entryRows) (he : ∀ e ∈ m.accessEntries, e.Separable) :
    db.accessEntriesOf m.key = m.accessEntries := by
  have hs : m.entryRows.Pairwise
      fun a b => a.slot ≤ b.slot := by
    rw [pairwise_iff_getElem]
    intro i j hi hj hij
    simpa [AccessEntry.row] using hij.le
  have hen : m.entryRows.map AccessEntryRow.entry =
      m.accessEntries := by
    apply ext_getElem
    · simp
    · intro i hi hi'
      simp [entry_row (he _ (getElem_mem _))]
  change ((db.accessEntries.rows.filter (AccessEntryRow.inDataset m.projectId m.datasetId)
    ).insertionSort fun a b => a.slot ≤ b.slot).map AccessEntryRow.entry = m.accessEntries
  rw [hr, hs.insertionSort_eq, hen]

theorem readDataset_congr {d : Keyed DatasetMeta.key}
    (h : Keyed.Mirrors (db.readDataset docs) db.datasets d) {row : Document (String × String)}
    (hro : row ∈ db.datasets.rows)
    (he : db'.accessEntriesOf row.key = db.accessEntriesOf row.key) :
    db'.readDataset docs row = db.readDataset docs row := by
  unfold readDataset
  cases hl : docs.dataset.read row with
  | error e => rfl
  | ok m =>
    have hr : db.readDataset docs row = .ok (db.withAccessEntries m) := by
      rw [readDataset, hl]
      rfl
    -- the entries are looked up under the key of the record, which is that of the row
    have hk : m.key = row.key := by
      rw [← h.key_eq hro hr, db.key_withAccessEntries]
    simp [Except.map, withAccessEntries, hk, he]

theorem filter_accessEntries_of_ne {rows : List AccessEntryRow} {project dataset : String}
    (h : key ≠ (project, dataset)) :
    (rows.filter fun r => !r.inDataset project dataset).filter
      (AccessEntryRow.inDataset key.1 key.2) =
        rows.filter (AccessEntryRow.inDataset key.1 key.2) := by
  rw [List.filter_filter]
  refine filter_congr fun r _ => ?_
  obtain ⟨p, d⟩ := key
  by_cases hr : r.inDataset p d = true
  · -- a row of one dataset is not a row of another
    have hn : r.inDataset project dataset = false := by
      rw [Bool.eq_false_iff]
      intro hr'
      simp only [AccessEntryRow.inDataset, Bool.and_eq_true, decide_eq_true_eq] at hr hr'
      exact h (Prod.ext (hr.1.symm.trans hr'.1) (hr.2.symm.trans hr'.2))
    simp [hn]
  · simp [hr]

/-- Writing a dataset keeps the mirror. -/
theorem DuckdbRepository.Mirrored.writeDataset (h : s.Mirrored docs) (hm : docs.dataset.Keeps m)
    (he : ∀ e ∈ m.accessEntries, e.Separable) :
    (s.db.writeDataset docs m).1 = .ok () ∧
      Mirrored docs ⟨{ s.cache with datasets := s.cache.datasets.put m },
        (s.db.writeDataset docs m).2⟩ := by
  obtain ⟨text, hd, hl⟩ := hm
  have hro := insertEach_accessEntries s.db.accessEntries m
  set en := ((s.db.accessEntries.removeIf
    (AccessEntryRow.inDataset m.projectId m.datasetId)).insertEach m.entryRows).1 with hs
  have hw : s.db.writeDataset docs m = (.ok (), { s.db with
      datasets := s.db.datasets.put ⟨m.key, text⟩, accessEntries := en }) := by
    simp [CatalogDb.writeDataset, writeDocument, hd, Except.map, CatalogDb.written, hs]
  have hin : ∀ r ∈ m.entryRows,
      r.inDataset m.projectId m.datasetId = true := by
    intro r hr
    obtain ⟨i, hi, rfl⟩ := mem_mapIdx.1 hr
    simp [AccessEntryRow.inDataset, AccessEntry.row]
  rw [hw]
  refine ⟨rfl, { h with datasets := ?_ }⟩
  refine h.datasets.put rfl ?_ ?_
  · -- the dataset itself: its entries are those just inserted
    have ho : ({ s.db with
        datasets := s.db.datasets.put ⟨m.key, text⟩, accessEntries := en } : CatalogDb
        ).accessEntriesOf m.key = m.accessEntries := by
      refine accessEntriesOf_write ?_ he
      rw [hro, List.filter_append, List.filter_filter, List.filter_eq_self.2 hin]
      simp
    change (docs.dataset.load text).map _ = _
    rw [hl]
    change Except.ok _ = _
    rw [withAccessEntries, ho]
    split <;> rfl
  · intro row hrw hn
    refine readDataset_congr h.datasets hrw (accessEntriesOf_congr ?_)
    have hot : m.entryRows.filter
        (AccessEntryRow.inDataset row.key.1 row.key.2) = [] := by
      refine filter_eq_nil_iff.2 fun r hr hr' => hn ?_
      have hr := hin r hr
      simp only [AccessEntryRow.inDataset, Bool.and_eq_true, decide_eq_true_eq] at hr hr'
      exact Prod.ext (hr'.1.symm.trans hr.1) (hr'.2.symm.trans hr.2)
    rw [hro, filter_append, hot, append_nil]
    exact filter_accessEntries_of_ne hn

/-! ## Materialized views -/

variable {view : TableId} {v : MaterializedViewMeta}

theorem baseTables_congr (h : db'.dependencies view = db.dependencies view) :
    db'.baseTables docs view = db.baseTables docs view := by
  simp only [baseTables, h]

theorem materializedView_congr (h : db'.dependencies row.id = db.dependencies row.id) :
    db'.materializedView docs row = db.materializedView docs row := by
  simp only [materializedView, baseTables_congr h]

/-- Every table that the rows name is one that the view is read over. -/
theorem mem_baseTables {b : TableId} (h : b ∈ db.dependencies view) :
    b ∈ db.baseTables docs view := by
  have hn : db.dependencies view ≠ [] := ne_nil_of_mem h
  have hl : b ∈ docs.list (db.dependencies view) := (docs.list_perm _).mem_iff.2 h
  simpa [baseTables, hn] using hl

theorem dependencies_filter {rows : List DependencyRow} {p : DependencyRow → Bool}
    (h : ∀ r ∈ rows, r.view = view → p r = false) :
    ((rows.filter fun r => !p r).filter fun r => r.view = view) =
      rows.filter fun r => r.view = view := by
  rw [List.filter_filter]
  refine filter_congr fun r hr => ?_
  by_cases hv : r.view = view
  · simp [h r hr hv]
  · simp [hv]

theorem upsertMaterializedView_rows (db : CatalogDb) (hnd : v.baseTables.Nodup) :
    (db.upsertMaterializedView v).1 = .ok () ∧
      (db.upsertMaterializedView v).2.mvDependencies.rows =
        (db.mvDependencies.rows.filter fun r => !decide (r.view = v.id)) ++
          v.baseTables.map fun base => ⟨v.id, base⟩ := by
  have hk : ((v.baseTables.map fun base => (⟨v.id, base⟩ : DependencyRow)).map id).Nodup := by
    rw [List.map_id]
    exact hnd.map fun a b ha => (DependencyRow.mk.inj ha).2
  have hn : ∀ r ∈ v.baseTables.map (fun base => (⟨v.id, base⟩ : DependencyRow)),
      (db.mvDependencies.removeIf fun r => r.view = v.id).get? r = none := by
    intro r hr
    obtain ⟨base, -, rfl⟩ := mem_map.1 hr
    rw [get?_eq_none_iff]
    rintro r' hr' rfl
    simp [removeIf] at hr'
  have hi := insertEach_of_new hk hn
  exact ⟨by simp [CatalogDb.upsertMaterializedView, hi.2], hi.1⟩

/-- The tables of a view are those that were written last. -/
theorem dependencies_upsert_self (db : CatalogDb) (hn : v.baseTables.Nodup) :
    (db.upsertMaterializedView v).2.dependencies v.id = v.baseTables := by
  have hr : ((db.mvDependencies.rows.filter fun r => !decide (r.view = v.id)).filter
      fun r => r.view = v.id) = [] := by
    simp
  rw [dependencies, (upsertMaterializedView_rows db hn).2, List.filter_append, hr,
    List.nil_append, List.filter_map, List.map_map]
  simp [Function.comp_def]

theorem dependencies_upsert_of_ne (db : CatalogDb) (hn : v.baseTables.Nodup) (h : view ≠ v.id) :
    (db.upsertMaterializedView v).2.dependencies view = db.dependencies view := by
  have hre : ((v.baseTables.map fun b => (⟨v.id, b⟩ : DependencyRow)).filter
      fun r => r.view = view) = [] := by
    rw [List.filter_map, List.map_eq_nil_iff, List.filter_eq_nil_iff]
    intro b _
    simpa using fun e => h e.symm
  rw [dependencies, (upsertMaterializedView_rows db hn).2, filter_append, hre,
    append_nil, dependencies_filter fun r _ hr => by simp [hr, h]]
  rfl

theorem DuckdbRepository.Mirrored.upsertMaterializedView (h : s.Mirrored docs)
    (hne : v.baseTables ≠ []) (hn : v.baseTables.Nodup)
    (hl : docs.list v.baseTables = v.baseTables) :
    (s.db.upsertMaterializedView v).1 = .ok () ∧
      Mirrored docs ⟨s.cache.upsertMaterializedView v, (s.db.upsertMaterializedView v).2⟩ := by
  refine ⟨(upsertMaterializedView_rows s.db hn).1, { h with mviews := h.mviews.put rfl ?_ ?_ }⟩
  · have hb : (s.db.upsertMaterializedView v).2.baseTables docs v.id = v.baseTables := by
      simp [baseTables, dependencies_upsert_self s.db hn, hne, hl]
    rw [materializedView, hb]
  · intro row _ hr
    rw [materializedView_congr (dependencies_upsert_of_ne s.db hn hr)]

theorem DuckdbRepository.Mirrored.deleteMaterializedView (h : s.Mirrored docs) (id : TableId) :
    Mirrored docs ⟨{ s.cache with mviews := s.cache.mviews.erase id },
      s.db.deleteMaterializedView id⟩ := by
  refine { h with mviews := h.mviews.erase fun row _ hro => ?_ }
  have hd : (s.db.deleteMaterializedView id).dependencies row.id =
      s.db.dependencies row.id := by
    change (filter _ (filter _ _)).map _ = _
    rw [dependencies_filter fun r _ hr => by simpa [hr] using hro]
    rfl
  rw [materializedView_congr hd]

/-! ## Deleting a dataset -/

/-- **The deletion of a dataset is mirrored**: without contents, if no policy, materialized view or
snapshot lies in it; with them, if no view elsewhere reads a table in it. -/
def DatasetStored (c : MemoryRepository) (project dataset : String)
    (deleteContents : Bool) : Prop :=
  if deleteContents then
    ∀ v ∈ c.mviews.rows, v.id.inDataset project dataset = false →
      ∀ base ∈ v.baseTables, base.inDataset project dataset = false
  else
    (∀ p ∈ c.rowAccess.rows, p.id.inDataset project dataset = false) ∧
    (∀ v ∈ c.mviews.rows, v.id.inDataset project dataset = false) ∧
    ∀ s ∈ c.snapshots.rows, s.source.inDataset project dataset = false

namespace DuckdbRepository.Mirrored

variable {project dataset : String}

theorem deleteDataset_datasets (h : s.Mirrored docs) (he : db'.accessEntries.rows =
      s.db.accessEntries.rows.filter fun r => !r.inDataset project dataset) :
    Keyed.Mirrors (db'.readDataset docs) (s.db.datasets.erase (project, dataset))
      (s.cache.datasets.erase (project, dataset)) := by
  refine h.datasets.erase fun row hr hn => ?_
  refine readDataset_congr h.datasets hr (accessEntriesOf_congr ?_)
  rw [he]
  exact filter_accessEntries_of_ne hn

/-- Deleting a dataset without contents keeps the mirror. -/
theorem deleteDataset_empty (h : s.Mirrored docs) (hc : s.cache.hasContents project dataset = false)
    (hs : DatasetStored s.cache project dataset false) :
    Mirrored docs ⟨s.cache.withoutDataset project dataset,
      s.db.deleteDataset project dataset false⟩ := by
  obtain ⟨hp, hv, hsn⟩ := hs
  simp only [hasContents, Bool.or_eq_false_iff, List.any_eq_false, Bool.not_eq_true] at hc
  obtain ⟨⟨ht, hr⟩, hm⟩ := hc
  exact {
    datasets := h.deleteDataset_datasets rfl
    tables := h.tables.congr_right (same_removeIf ht)
    routines := h.routines.congr_right (same_removeIf hr)
    models := h.models.congr_right (same_removeIf hm)
    jobs := h.jobs
    snapshots := h.snapshots.congr_right (same_removeIf hsn)
    mviews := h.mviews.congr_right (same_removeIf hv)
    rowAccess := h.rowAccess.congr_right (same_removeIf hp) }

theorem dependencies_deleteDataset (h : s.Mirrored docs)
    (hs : DatasetStored s.cache project dataset true)
    (hro : row ∈ s.db.materializedViews.rows) (ho : row.id.inDataset project dataset = false) :
    (s.db.deleteDataset project dataset true).dependencies row.id = s.db.dependencies row.id := by
  have hba : ∀ b ∈ s.db.dependencies row.id, b.inDataset project dataset = false := by
    obtain ⟨v, hv, hg⟩ := h.mviews.exists_read hro
    obtain rfl := ok.inj hv
    intro b hb
    exact hs _ (get?_eq_some_iff.1 hg).1 ho b (mem_baseTables hb)
  change (filter _ (filter _ _)).map _ = _
  rw [dependencies_filter]
  · rfl
  · intro r hr hvi
    have hb : r.base ∈ s.db.dependencies row.id :=
      mem_map.2 ⟨r, mem_filter.2 ⟨hr, by simpa using hvi⟩, rfl⟩
    simp [hvi, ho, hba r.base hb]

/-- Deleting a dataset with its contents keeps the mirror. -/
theorem deleteDataset_contents (h : s.Mirrored docs)
    (hs : DatasetStored s.cache project dataset true) :
    Mirrored docs ⟨s.cache.withoutDataset project dataset,
      s.db.deleteDataset project dataset true⟩ where
  datasets := h.deleteDataset_datasets rfl
  tables := h.tables.removeIf (fun row m hk _ => by rw [hk]) fun _ _ _ => rfl
  routines := h.routines.removeIf (fun row r hk _ => by rw [hk]) fun _ _ _ => rfl
  models := h.models.removeIf (fun row m hk _ => by rw [hk]) fun _ _ _ => rfl
  jobs := h.jobs
  snapshots := h.snapshots.removeIf (fun row r _ hr => by rw [ok.inj hr])
    fun _ _ _ => rfl
  mviews := by
    refine h.mviews.removeIf (fun row v hk _ => by rw [hk]) fun row hro ho => ?_
    rw [materializedView_congr (h.dependencies_deleteDataset hs hro ho)]
  rowAccess := h.rowAccess.removeIf
    (fun row p hk _ => by rw [show row.id = p.id from (Prod.ext_iff.1 hk).1]) fun _ _ _ => rfl

end DuckdbRepository.Mirrored

/-! ## Operations and runs -/

/-- **The operations whose effect the tables can hold**: what they write is read back, a view reads
some table, none twice and in the engine's order, and deletions are mirrored. -/
def CatalogOp.Stored (docs : Documents) (c : MemoryRepository) : CatalogOp → Prop
  | .createDataset m | .updateDataset m =>
    docs.dataset.Keeps m ∧ ∀ e ∈ m.accessEntries, e.Separable
  | .deleteDataset project dataset _ deleteContents =>
    (c.datasets.get? (project, dataset)).isSome → DatasetStored c project dataset deleteContents
  | .createTable m | .updateTable m => docs.table.Keeps m
  | .createRoutine r | .updateRoutine r => docs.routine.Keeps r
  | .createModel m | .updateModel m => docs.model.Keeps m
  | .upsertJob j => docs.job.Keeps j
  | .upsertMaterializedView v =>
    v.baseTables ≠ [] ∧ v.baseTables.Nodup ∧ docs.list v.baseTables = v.baseTables
  | .createRowAccessPolicy p | .updateRowAccessPolicy p => docs.grantees.Keeps p.grantees
  | .deleteTable _ _ | .deleteRoutine _ _ | .deleteModel _ _ | .deleteJob _ _ | .createSnapshot _
  | .deleteSnapshot _ _ | .deleteMaterializedView _ _ | .deleteRowAccessPolicy _ _ => True

namespace DuckdbRepository

variable {docs : Documents} {s : DuckdbRepository}

theorem Mirrored.writeRowAccessPolicy (h : s.Mirrored docs) {p : RowAccessPolicyMeta}
    (hp : docs.grantees.Keeps p.grantees) :
    (s.db.writeRowAccessPolicy docs p).1 = .ok () ∧
      Mirrored docs ⟨{ s.cache with rowAccess := s.cache.rowAccess.put p },
        (s.db.writeRowAccessPolicy docs p).2⟩ := by
  obtain ⟨text, hd, hl⟩ := hp
  have hw : s.db.writeRowAccessPolicy docs p = (.ok (), { s.db with
      rowAccessPolicies := s.db.rowAccessPolicies.put ⟨p.id, p.policyId, p.filterPredicate, text,
        p.creationTime, p.lastModifiedTime, p.etag⟩ }) := by
    simp [CatalogDb.writeRowAccessPolicy, hd, CatalogDb.written]
  rw [hw]
  refine ⟨rfl, { h with rowAccess := h.rowAccess.put rfl ?_ fun _ _ _ => rfl }⟩
  simp [rowAccessPolicy, hl, Except.map]

theorem mirrored_written [DecidableEq K] {key : R → K} {t : Keyed (Document.key (K := K))}
    {d : Keyed key} (h : Keyed.Mirrors codec.read t d) {r : R} (hr : codec.Keeps r) {db : CatalogDb}
    {b : Keyed (Document.key (K := K)) → CatalogDb}
    (hb : ∀ {t'}, Keyed.Mirrors codec.read t' (d.put r) → Mirrored docs ⟨c, b t'⟩) :
    (db.written ((writeDocument codec t (key r) r).map b)).1 = .ok () ∧
      Mirrored docs ⟨c, (db.written ((writeDocument codec t (key r) r).map b)).2⟩ := by
  obtain ⟨text, hd, hl⟩ := hr
  have hw : writeDocument codec t (key r) r = .ok (t.put ⟨key r, text⟩) := by
    simp [writeDocument, hd]
  rw [hw]
  exact ⟨rfl, hb (h.put rfl hl fun _ _ _ => rfl)⟩

theorem Mirrored.ite (h : s.Mirrored docs) {p : Prop} [Decidable p] {db : CatalogDb}
    (h' : Mirrored docs ⟨c, db⟩) :
    Mirrored docs ⟨if p then c else s.cache, if p then db else s.db⟩ := by
  split
  · exact h'
  · exact h

/-- The statements of an operation keep the mirror. -/
theorem Mirrored.write (h : s.Mirrored docs) (hc : s.cache.perform op = .ok c)
    (ho : op.Stored docs s.cache) :
    (s.db.write docs s.cache op).1 = .ok () ∧
      Mirrored docs ⟨c, (s.db.write docs s.cache op).2⟩ := by
  cases op with
  | createDataset m =>
    obtain ⟨-, rfl⟩ := createIn_map_eq_ok_iff.1 hc
    exact h.writeDataset ho.1 ho.2
  | updateDataset m =>
    obtain ⟨-, rfl⟩ := updateIn_map_eq_ok hc
    exact h.writeDataset ho.1 ho.2
  | deleteDataset project dataset n d =>
    refine ⟨rfl, ?_⟩
    rcases deleteDataset_eq_ok hc with ⟨hn, rfl⟩ | ⟨hs, he, rfl⟩
    · simpa [write, hn] using h
    · simp only [write, hs]
      cases d with
      | true => exact h.deleteDataset_contents (ho hs)
      | false => exact h.deleteDataset_empty (by simpa using he) (ho hs)
  | createTable m =>
    obtain ⟨-, -, rfl⟩ := createTable_eq_ok_iff.1 hc
    exact mirrored_written h.tables ho fun ht => { h with tables := ht }
  | updateTable m =>
    obtain ⟨-, rfl⟩ := updateIn_map_eq_ok hc
    exact mirrored_written h.tables ho fun ht => { h with tables := ht }
  | deleteTable =>
    rw [deleteFrom_map_eq_ok hc]
    exact ⟨rfl, h.ite { h with tables := h.tables.erase fun _ _ _ => rfl }⟩
  | createRoutine r =>
    obtain ⟨-, -, rfl⟩ := createInDataset_map_eq_ok_iff.1 hc
    exact mirrored_written h.routines ho fun ht => { h with routines := ht }
  | updateRoutine r =>
    obtain ⟨-, rfl⟩ := updateIn_map_eq_ok hc
    exact mirrored_written h.routines ho fun ht => { h with routines := ht }
  | deleteRoutine =>
    rw [deleteFrom_map_eq_ok hc]
    exact ⟨rfl, h.ite { h with routines := h.routines.erase fun _ _ _ => rfl }⟩
  | createModel m =>
    obtain ⟨-, -, rfl⟩ := createInDataset_map_eq_ok_iff.1 hc
    exact mirrored_written h.models ho fun ht => { h with models := ht }
  | updateModel m =>
    obtain ⟨-, rfl⟩ := updateIn_map_eq_ok hc
    exact mirrored_written h.models ho fun ht => { h with models := ht }
  | deleteModel =>
    rw [deleteFrom_map_eq_ok hc]
    exact ⟨rfl, h.ite { h with models := h.models.erase fun _ _ _ => rfl }⟩
  | upsertJob j =>
    obtain rfl := ok.inj hc
    exact mirrored_written h.jobs ho fun ht => { h with jobs := ht }
  | deleteJob =>
    rw [deleteFrom_map_eq_ok hc]
    exact ⟨rfl, h.ite { h with jobs := h.jobs.erase fun _ _ _ => rfl }⟩
  | createSnapshot =>
    obtain ⟨-, rfl⟩ := createIn_map_eq_ok_iff.1 hc
    exact ⟨rfl, { h with snapshots := h.snapshots.put rfl rfl fun _ _ _ => rfl }⟩
  | deleteSnapshot =>
    rw [deleteFrom_map_eq_ok hc]
    exact ⟨rfl, h.ite { h with snapshots := h.snapshots.erase fun _ _ _ => rfl }⟩
  | upsertMaterializedView v =>
    obtain rfl := ok.inj hc
    exact h.upsertMaterializedView ho.1 ho.2.1 ho.2.2
  | deleteMaterializedView id n =>
    rw [deleteFrom_map_eq_ok hc]
    exact ⟨rfl, h.ite (h.deleteMaterializedView id)⟩
  | createRowAccessPolicy p =>
    obtain ⟨-, rfl⟩ := createIn_map_eq_ok_iff.1 hc
    exact h.writeRowAccessPolicy ho
  | updateRowAccessPolicy p =>
    obtain ⟨-, rfl⟩ := updateIn_map_eq_ok hc
    exact h.writeRowAccessPolicy ho
  | deleteRowAccessPolicy =>
    rw [deleteFrom_map_eq_ok hc]
    exact ⟨rfl, h.ite { h with rowAccess := h.rowAccess.erase fun _ _ _ => rfl }⟩

/-- An operation that is stored keeps the mirror, and leaves all as it was if it raises. -/
theorem Mirrored.perform (h : s.Mirrored docs)
    (ho : ∀ c, s.cache.perform op = .ok c → op.Stored docs s.cache) :
    (s.perform docs op).2.Mirrored docs ∧
      ∀ e, (s.perform docs op).1 = .error e → (s.perform docs op).2 = s := by
  cases hc : s.cache.perform op with
  | error e =>
    have hp : s.perform docs op = (.error e, s) := by simp [DuckdbRepository.perform, hc]
    rw [hp]
    exact ⟨h, fun _ _ => rfl⟩
  | ok c =>
    have hp : s.perform docs op =
        ((s.db.write docs s.cache op).1, ⟨c, (s.db.write docs s.cache op).2⟩) := by
      simp [DuckdbRepository.perform, hc]
    obtain ⟨hok, hm⟩ := h.write hc (ho c hc)
    rw [hp, hok]
    refine ⟨hm, ?_⟩
    intro e he
    cases he

theorem Mirrored.reopen (h : s.Mirrored docs) (hc : c.Same s.cache) :
    Mirrored docs { s with cache := c } where
  datasets := h.datasets.congr_right fun k => (hc.datasets k).symm
  tables := h.tables.congr_right fun k => (hc.tables k).symm
  routines := h.routines.congr_right fun k => (hc.routines k).symm
  models := h.models.congr_right fun k => (hc.models k).symm
  jobs := h.jobs.congr_right fun k => (hc.jobs k).symm
  snapshots := h.snapshots.congr_right fun k => (hc.snapshots k).symm
  mviews := h.mviews.congr_right fun k => (hc.mviews k).symm
  rowAccess := h.rowAccess.congr_right fun k => (hc.rowAccess k).symm

end DuckdbRepository

/-- What happens to a repository: an operation is called, or the server is started again. -/
inductive RepositoryEvent where
  | call (op : CatalogOp)
  | reopen (lenient : Bool)

/-- The repository after an event. One that cannot be opened is the end of the run. -/
def DuckdbRepository.step (docs : Documents) (s : DuckdbRepository) :
    RepositoryEvent → Except DomainError DuckdbRepository
  | .call op => .ok (s.perform docs op).2
  | .reopen lenient => (s.db.hydrate docs lenient).map fun cache => { s with cache }

/-- The tables can hold the effect of the event, unless the dictionaries refuse it. -/
def RepositoryEvent.Stored (docs : Documents) (s : DuckdbRepository) : RepositoryEvent → Prop
  | .call op => ∀ c, s.cache.perform op = .ok c → op.Stored docs s.cache
  | .reopen _ => True

/-- An operation that raises changes neither dictionaries nor tables. -/
def RepositoryEvent.KeepsOnError (docs : Documents) (s : DuckdbRepository) :
    RepositoryEvent → Prop
  | .call op => ∀ e, (s.perform docs op).1 = .error e → (s.perform docs op).2 = s
  | .reopen _ => True

theorem mirrored_step (s : DuckdbRepository) (e : RepositoryEvent) (s' : DuckdbRepository)
    (h : s.Mirrored docs) (he : e.Stored docs s) (hs : s.step docs e = .ok s') :
    s'.Mirrored docs := by
  cases e with
  | call op =>
    obtain rfl := ok.inj hs
    exact (h.perform he).1
  | reopen l =>
    obtain ⟨c, hc, rfl⟩ := map_eq_ok_iff.1 hs
    obtain ⟨c', hc', hsa⟩ := h.hydrates l
    rw [hc', ok.injEq] at hc
    exact h.reopen (hc ▸ hsa)

theorem mirrored_empty (d : Documents) : DuckdbRepository.Mirrored d {} where
  datasets := mirrors_empty
  tables := mirrors_empty
  routines := mirrors_empty
  models := mirrors_empty
  jobs := mirrors_empty
  snapshots := mirrors_empty
  mviews := mirrors_empty
  rowAccess := mirrors_empty

/-- **Hydration gives the dictionaries back** along every run of operations and restarts whose
effects the tables can hold, and an operation that raises changes nothing. -/
theorem hydrates_of_stored (docs : Documents) (events : List RepositoryEvent)
    (h : Run.EachStep (DuckdbRepository.step docs) (fun s event => event.Stored docs s) {} events) :
    Run.Always (DuckdbRepository.step docs) (DuckdbRepository.Hydrates docs) {} events ∧
      Run.EachStep (DuckdbRepository.step docs) (fun s event => event.KeepsOnError docs s) {}
        events := by
  refine ⟨?_, ?_⟩
  · exact Run.always_of_eachStep (fun _ hm => hm.hydrates) mirrored_step (mirrored_empty docs) h
  refine Run.eachStep_of_eachStep (fun s event hm he => ?_) mirrored_step
    (mirrored_empty docs) h
  cases event with
  | call op => exact (hm.perform he).2
  | reopen => trivial

/-! ## Runs -/

/-- A codec for one record. -/
def Codec.only {R : Type} (r : R) : Codec R where
  dump _ := .ok ""
  load _ := .ok r

def sharedDataset : DatasetMeta where
  projectId := "p"
  datasetId := "d"
  accessEntries := [{ view := some ("p", "e", "v") }]

def leftPolicy : RowAccessPolicyMeta where
  id := ⟨"p", "d", "t"⟩
  policyId := "ones"
  filterPredicate := "x = 1"
  grantees := ["allUsers"]

/-- The documents of a catalog with one dataset and one policy. -/
def oneDataset : Documents where
  dataset := .only sharedDataset
  table := .only { id := ⟨"p", "d", "t"⟩ }
  routine := ⟨fun _ => .error "", fun _ => .error ""⟩
  model := ⟨fun _ => .error "", fun _ => .error ""⟩
  job := ⟨fun _ => .error "", fun _ => .error ""⟩
  grantees := .only ["allUsers"]
  list := id
  list_perm bases := .refl bases

/-- A materialized view over these tables. -/
def viewOver (baseTables : List TableId) : MaterializedViewMeta where
  id := ⟨"p", "e", "v"⟩
  viewQuery := Sql.selectStar (.table { db := "d", name := "t" })
  baseTables := baseTables
  lastRefreshTime := 0

/-- A dataset with a view over its table, and a restart. -/
theorem hydrates_oneDataset :
    Run.Always (DuckdbRepository.step oneDataset) (DuckdbRepository.Hydrates oneDataset) {}
      [.call (.createDataset sharedDataset), .call (.createTable { id := ⟨"p", "d", "t"⟩ }),
        .call (.upsertMaterializedView (viewOver [⟨"p", "d", "t"⟩])),
        .call (.createRowAccessPolicy leftPolicy), .reopen false] := by
  have hd : oneDataset.dataset.Keeps sharedDataset ∧
      ∀ e ∈ sharedDataset.accessEntries, e.Separable := by
    refine ⟨⟨"", rfl, rfl⟩, ?_⟩
    intro e he
    obtain rfl := mem_singleton.1 he
    refine ⟨?_, by simp, by simp⟩
    rintro a b c ⟨⟩
    unfold InnerPart PlainPart
    decide
  refine (hydrates_of_stored oneDataset _ ?_).1
  refine fun _ _ => ⟨fun _ _ => hd, fun _ _ => ⟨fun _ _ => ⟨"", rfl, rfl⟩, ?_⟩⟩
  refine fun _ _ => ⟨fun _ _ => ⟨by decide, by decide, rfl⟩, ?_⟩
  exact fun _ _ => ⟨fun _ _ => ⟨"", rfl, rfl⟩, fun _ _ => ⟨trivial, trivial⟩⟩

theorem DuckdbRepository.Hydrates.map_eq (h : s.Hydrates docs) {β : Type}
    {f : MemoryRepository → β} (hf : ∀ c, c.Same s.cache → f c = f s.cache) :
    (s.db.hydrate docs false).map f = .ok (f s.cache) := by
  obtain ⟨c, hc, hs⟩ := h false
  rw [hc, ← hf c hs]
  rfl

/-- **What hydration loses or brings back**: a policy of a deleted dataset, a table of one that a
view reads, the missing tables of a view as `None`, and a view that failed for a table read twice.
-/
theorem lost_in_hydration :
    ¬ Run.Always (DuckdbRepository.step oneDataset) (DuckdbRepository.Hydrates oneDataset) {}
      [.call (.createDataset sharedDataset), .call (.createRowAccessPolicy leftPolicy),
        .call (.deleteDataset "p" "d" false false)] ∧
    ¬ Run.Always (DuckdbRepository.step oneDataset) (DuckdbRepository.Hydrates oneDataset) {}
      [.call (.createDataset sharedDataset),
        .call (.upsertMaterializedView (viewOver [⟨"p", "d", "t"⟩, ⟨"p", "e", "u"⟩])),
        .call (.deleteDataset "p" "d" false true)] ∧
    ¬ Run.Always (DuckdbRepository.step oneDataset) (DuckdbRepository.Hydrates oneDataset) {}
      [.call (.upsertMaterializedView (viewOver []))] ∧
    ¬ Run.EachStep (DuckdbRepository.step oneDataset)
      (fun s event => event.KeepsOnError oneDataset s) {}
      [.call (.upsertMaterializedView (viewOver [⟨"p", "d", "t"⟩, ⟨"p", "d", "t"⟩]))] := by
  refine ⟨fun h => ?_, fun h => ?_, fun h => ?_, fun h => ?_⟩
  · have he := (((h.2 _ rfl).2 _ rfl).2 _ rfl).head
    have heq := he.map_eq (f := fun c => c.rowAccess.get? leftPolicy.key)
      fun _ hc => hc.rowAccess _
    exact absurd heq (by decide)
  · have he := (((h.2 _ rfl).2 _ rfl).2 _ rfl).head
    have heq := he.map_eq (f := fun c => (c.mviews.get? ⟨"p", "e", "v"⟩).map (·.baseTables))
      fun _ hc => congrArg _ (hc.mviews _)
    exact absurd heq (by decide)
  · have heq := (h.2 _ rfl).head.map_eq
      (f := fun c => (c.mviews.get? ⟨"p", "e", "v"⟩).map (·.baseTables))
      fun _ hc => congrArg _ (hc.mviews _)
    exact absurd heq (by decide)
  · have hk := (h _ rfl).1 duplicateKey (by decide)
    have heq := congrArg (fun s => (s.cache.mviews.get? ⟨"p", "e", "v"⟩).isSome) hk
    exact absurd heq (by decide)

end Bqemulator
