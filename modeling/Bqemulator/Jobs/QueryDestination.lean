import Bqemulator.Jobs.QueryJobs
import Bqemulator.Storage.Tables

/-!
# Destinations of queries

A query with a destination reports what the destination would hold had its rows been written there.
They are not: only its entry in the catalog gets the columns that it lacks.
-/

namespace Bqemulator

open Comp List Option

variable {V : Type} (env : QueryEnv V)

/-- A statement leaves a table and its entry as they are. -/
def QueryEnv.Reads (projectId sql : String) (id : TableId) : Prop :=
  ∀ engine : QueryWorld V,
    (env.run projectId sql engine).2.db.get? id.key = engine.db.get? id.key ∧
      (env.run projectId sql engine).2.catalog.getTable id = engine.catalog.getTable id

/-- **A table that can be read**: its rows are returned, nothing changes, and conversion to its
columns keeps the number of rows. -/
structure QueryEnv.SelectsFrom (env : QueryEnv V) (id : TableId) : Prop where
  reads : env.Reads id.project (selectAll id) id
  returns : ∀ engine table, engine.db.get? id.key = some table →
    ∃ existing, (env.run id.project (selectAll id) engine).1 = .ok existing
  align_length : ∀ table columns rows, env.align table columns = some rows →
    rows.length = table.rows.length

def newColumns (m : TableMeta) (result : ArrowTable V) : List (String × String) :=
  result.columns.filter fun field => field.1 ∉ m.fields.map FieldSchema.name

/-- The rows that a table is due after a result is appended to it, where it can be. -/
def appendedRows (m : TableMeta) (result : ArrowTable V)
    (table : DuckTable (List V)) : Option (List (List V)) :=
  (combineWriteAppendTables env result (padTableWithNullColumns env ⟨table.columns, table.rows⟩
    (newColumns m result))).map ArrowTable.rows

variable (config : QueryConfiguration)

/-- **The destination holds what it is due**: the rows of the query, after its own if it appends;
and the columns of its entry where some are added. -/
def DestinationHolds (m : TableMeta)
    (result : ArrowTable V) (table : DuckTable (List V)) (after : QueryWorld V) : Prop :=
  (config.writeDisposition = some "WRITE_APPEND" →
    ∃ rows, appendedRows env m result table = some rows ∧
      (after.db.get? m.id.key).map DuckTable.rows = some rows) ∧
  (config.writeDisposition = some "WRITE_TRUNCATE" →
    (after.db.get? m.id.key).map DuckTable.rows = some result.rows) ∧
  (config.writeDisposition = some "WRITE_APPEND" → newColumns m result ≠ [] →
    (after.db.get? m.id.key).map (fun table => table.columns.map Prod.fst) =
      (after.catalog.getTable m.id).map fun m => m.fields.map FieldSchema.name)

/-- **The destination holds already what it is due**: an appending query returns no rows, and adds
no columns to a table with rows; a truncating one returns its rows; added columns are there. -/
def DestinationAgrees (m : TableMeta) (result : ArrowTable V) (table : DuckTable (List V)) : Prop :=
  (config.writeDisposition = some "WRITE_APPEND" →
    result.rows = [] ∧ (newColumns m result = [] ∨ table.rows = [])) ∧
  (config.writeDisposition = some "WRITE_TRUNCATE" → table.rows = result.rows) ∧
  (config.writeDisposition = some "WRITE_APPEND" → newColumns m result ≠ [] →
    table.columns.map Prod.fst =
      m.fields.map FieldSchema.name ++ (newColumns m result).map Prod.fst)

/-! ## The parts of an appending query -/

section Append

variable {env : QueryEnv V} {m : TableMeta} {result : ArrowTable V} {w w' : JobWorld V}

theorem validateWriteAppendSchema_eq_ok {names : List String} {allow : Bool}
    {c a : List (String × String)}
    (h : validateWriteAppendSchema names allow c = .ok a) :
    a = c.filter fun field => field.1 ∉ names := by
  induction c generalizing a with
  | nil =>
    cases h
    rfl
  | cons field r ih =>
    unfold validateWriteAppendSchema at h
    by_cases hm : field.1 ∈ names
    · rw [if_pos hm] at h
      rw [ih h, filter_cons_of_neg (by simpa using hm)]
    rw [if_neg hm] at h
    rw [filter_cons_of_pos (by simpa using hm)]
    cases allow with
    | false => cases h
    | true =>
      cases hr : validateWriteAppendSchema names true r with
      | error e =>
        rw [hr] at h
        cases h
      | ok =>
        rw [hr] at h
        cases h
        rw [ih hr]

variable {table : DuckTable (List V)}

theorem readBack_of_selectsFrom {id : TableId} (hlaw : env.SelectsFrom id)
    (hstored : w.db.get? id.key = some table) (j : String) :
    ∃ existing w', readBack env j id w = ⟨[], .ok (some existing), w'⟩ ∧
      w'.db.get? id.key = some table ∧ w'.catalog.getTable id = w.catalog.getTable id := by
  obtain ⟨existing, ho⟩ := hlaw.returns w.toQueryWorld table hstored
  rcases executeQueryJob_cases env (readbackJobId j) id.project (selectAll id) w with
    ⟨existing, w₁, hr, he, -, -⟩ | ⟨e, w₁, -, -, -, her⟩
  · obtain ⟨hd, hc⟩ := hlaw.reads w.toQueryWorld
    rw [← he] at hd hc
    refine ⟨existing, { w₁ with results := w₁.results.erase (readbackJobId j) }, ?_,
      hd.trans hstored, hc⟩
    unfold readBack
    rw [Comp.tryCatch, Comp.run_bind_of_quiet hr]
    rfl
  · cases ho.symm.trans her

theorem evolveDestinationSchema_of_get? (e : QueryEnv V) (hm : w.catalog.getTable m.id = some m)
    (a : List (String × String)) :
    ∃ w', evolveDestinationSchema e m a w = ⟨[], .ok (), w'⟩ ∧ w'.db = w.db ∧
      w'.catalog.getTable m.id = some { m with fields := m.fields ++ addedFields e a } := by
  have hs : (w.catalog.tables.get? m.id).isSome := by
    rw [MemoryRepository.getTable] at hm
    rw [hm]
    rfl
  let m' : TableMeta := { m with fields := m.fields ++ addedFields e a }
  let catalog : MemoryRepository := { w.catalog with tables := w.catalog.tables.put m' }
  refine ⟨{ w with catalog }, ?_, rfl, ?_⟩
  · rw [evolveDestinationSchema, MemoryRepository.updateTable, updateIn, if_pos hs]
    rfl
  · exact (Keyed.get?_put w.catalog.tables m' m.id).trans (if_pos rfl)

theorem replaceResult_engine (env : QueryEnv V) (w : JobWorld V) (j : String)
    (result e : ArrowTable V) :
    ∃ w', replaceResult env j result e w = ⟨[], .ok (), w'⟩ ∧
      w'.toQueryWorld = w.toQueryWorld := by
  unfold replaceResult
  cases combineWriteAppendTables env result e with
  | none => exact ⟨w, rfl, rfl⟩
  | some => exact ⟨_, rfl, rfl⟩

/-- An appending query changes the entry of its destination only. -/
theorem applyWriteAppend_destination {c : QueryConfiguration} {p j : String}
    (hlaw : env.SelectsFrom m.id) (hm : w.catalog.getTable m.id = some m)
    (hresolve : resolveWriteAppendDestination c p w.catalog = some m)
    (hstored : w.db.get? m.id.key = some table)
    (ho : (applyWriteAppend env p j c result w).result = .ok ()) :
    (applyWriteAppend env p j c result w).state.db.get? m.id.key = some table ∧
      (c.writeDisposition = some "WRITE_APPEND" →
        (applyWriteAppend env p j c result w).state.catalog.getTable m.id =
          some { m with fields := m.fields ++ addedFields env (newColumns m result) }) := by
  unfold applyWriteAppend at ho ⊢
  by_cases hap : c.writeDisposition = some "WRITE_APPEND"
  swap
  · rw [if_neg hap]
    exact ⟨hstored, fun h => absurd h hap⟩
  rw [if_pos hap, hresolve] at ho ⊢
  simp only at ho ⊢
  -- a query that fails the check is not done
  cases hv : validateWriteAppendSchema (m.fields.map FieldSchema.name)
      c.allowFieldAddition result.columns with
  | error e =>
    rw [appendTo, run_lift_bind_of_error (s := w) hv] at ho
    cases ho
  | ok =>
    rw [appendTo, run_lift_bind_of_ok (s := w) hv]
    obtain rfl := validateWriteAppendSchema_eq_ok hv
    obtain ⟨existing, w₁, hre, hd, hc⟩ := readBack_of_selectsFrom hlaw hstored j
    rw [run_bind_of_quiet hre]
    rw [hm] at hc
    change (appendExisting env j m (newColumns m result) result existing w₁).state.db.get?
        m.id.key = some table ∧
      (_ → (appendExisting env j m (newColumns m result) result existing
        w₁).state.catalog.getTable m.id = _)
    unfold appendExisting
    by_cases ha : newColumns m result = []
    · obtain ⟨w₂, hr, he⟩ := replaceResult_engine env w₁ j result
        existing
      rw [if_pos ha, hr]
      refine ⟨?_, fun _ => ?_⟩
      · rw [he, hd]
      · rw [he, hc, ha]
        simp [addedFields]
    · obtain ⟨w₂, hev, hd₂, hc₂⟩ :=
        evolveDestinationSchema_of_get? env hc (newColumns m result)
      obtain ⟨w₃, hr, he⟩ := replaceResult_engine env w₂ j result
        (padTableWithNullColumns env existing (newColumns m result))
      rw [if_neg ha, run_bind_of_quiet hev, hr]
      refine ⟨?_, fun _ => ?_⟩
      · rw [he, hd₂, hd]
      · rw [he, hc₂]

end Append

/-! ## Jobs -/

section Job

variable {env : QueryEnv V} {projectId jobId sql : String} {config : QueryConfiguration}
  {w : JobWorld V} {select : ArrowTable V} {m : TableMeta} {table : DuckTable (List V)}

theorem appendedRows_eq_rows_iff (hlaw : env.SelectsFrom m.id) :
    appendedRows env m select table = some table.rows ↔
      select.rows = [] ∧ (newColumns m select = [] ∨ table.rows = []) := by
  have hp : table.rows.map (· ++ List.replicate (newColumns m select).length env.null) =
      table.rows ↔ newColumns m select = [] ∨ table.rows = [] := by
    constructor
    · intro h
      cases hr : table.rows with
      | nil => exact .inr rfl
      | cons =>
        rw [hr, List.map_cons, List.cons.injEq] at h
        have hl := congrArg List.length h.1
        rw [List.length_append, List.length_replicate] at hl
        exact .inl (List.length_eq_zero_iff.1 (by omega))
    · rintro (h | h)
      · simp [h]
      · simp [h]
  unfold appendedRows combineWriteAppendTables
  by_cases he : select.rows = []
  · rw [if_pos he, Option.map_some, Option.some.injEq, ← hp]
    simp [he, padTableWithNullColumns]
  rw [if_neg he]
  refine ⟨fun h => ?_, fun h => absurd h.1 he⟩
  -- rows that are appended make the table longer
  rw [Option.map_map, Option.map_eq_some_iff] at h
  obtain ⟨rows, ha, hr⟩ := h
  have hl := congrArg List.length hr
  have had := hlaw.align_length _ _ _ ha
  simp only [Function.comp_apply, padTableWithNullColumns, List.length_append,
    List.length_map] at hl
  exact absurd (List.length_eq_zero_iff.1 (by omega)) he

variable (hlaw : env.SelectsFrom m.id)
  (hprepare : env.prepare projectId config w.toQueryWorld = .ok sql)
  (hselect : (env.run projectId sql w.toQueryWorld).1 = .ok select)
  (hreads : env.Reads projectId sql m.id)
  (hresolve : resolveWriteAppendDestination config projectId w.catalog = some m)
  (hstored : w.db.get? m.id.key = some table)
  (hdone : (insertQuery env projectId jobId config false w).result = .ok .done)

include hlaw hprepare hselect hreads hresolve hstored hdone

theorem insertQuery_destination :
    (insertQuery env projectId jobId config false w).state.db.get? m.id.key = some table ∧
      (config.writeDisposition = some "WRITE_APPEND" →
        (insertQuery env projectId jobId config false w).state.catalog.getTable m.id =
          some { m with fields := m.fields ++ addedFields env (newColumns m select) }) := by
  rw [insertQuery_of_prepared env hprepare] at hdone ⊢
  simp only [runQueryJob, Bool.false_eq_true, if_false] at hdone ⊢
  rcases executeQueryJob_cases env jobId projectId sql w with
    ⟨table', w₁, hr, he, -, ho⟩ | ⟨e, w₁, -, -, -, her⟩
  swap
  · cases hselect.symm.trans her
  cases hselect.symm.trans ho
  -- the statement leaves the destination as it is, so the append finds it
  obtain ⟨hd, hc⟩ := hreads w.toQueryWorld
  rw [← he] at hd hc
  have hj : executeQueryOrFailedMeta env projectId jobId sql config w =
      (do applyWriteAppend env projectId jobId config select; pure .done : JobM V JobAnswer)
        w₁ := by
    rw [executeQueryOrFailedMeta, hr]
  cases ha : (applyWriteAppend env projectId jobId config select w₁).result with
  | error e =>
    rw [run_bind_of_error (by rw [hj, run_bind_of_error ha])] at hdone
    cases hdone
  | ok u =>
    rw [run_bind_of_ok (by rw [hj, run_bind_of_ok ha]; rfl), hj, run_bind_of_ok ha]
    obtain ⟨id, hi, hg⟩ := bind_eq_some_iff.1 hresolve
    obtain rfl : m.id = id := Keyed.key_of_get? hg
    have hr' := bind_eq_some_iff.2 ⟨m.id, hi, hc.trans hg⟩
    exact applyWriteAppend_destination hlaw (hc.trans hg) hr' (hd.trans hstored)
      ha

/-- **Destinations of queries**: after a job that is done the destination holds what it is due iff
it did before, as nothing is written. -/
theorem destination_written_iff :
    DestinationHolds env config m select table
        (insertQuery env projectId jobId config false w).state.toQueryWorld ↔
      DestinationAgrees config m select table := by
  obtain ⟨hd, hc⟩ := insertQuery_destination hlaw hprepare hselect hreads hresolve hstored
    hdone
  refine and_congr (imp_congr_right fun ha => ?_) (and_congr
    (imp_congr_right fun _ => ?_) (imp_congr_right fun ha => imp_congr_right fun _ => ?_))
  · rw [hd, ← appendedRows_eq_rows_iff hlaw]
    constructor
    · rintro ⟨rows, hr, hs⟩
      rw [hr, ← hs]
      rfl
    · exact fun h => ⟨table.rows, h, rfl⟩
  · rw [hd, map_some, some.injEq]
  · rw [hd, hc ha, map_some, map_some, some.injEq, map_append]
    simp [addedFields, Function.comp_def]

end Job

/-- A database with two statements: reading the table `d.t`, and any other, a query with given
rows. -/
def oneTableEnv (rows : List (List Nat)) : QueryEnv Nat where
  null := 0
  run _ sql engine :=
    if sql = selectAll ⟨"p", "d", "t"⟩ then
      match engine.db.get? (TableId.key ⟨"p", "d", "t"⟩) with
      | some table => (.ok ⟨table.columns, table.rows⟩, engine)
      | none => (.error (.notFound "t"), engine)
    else (.ok ⟨[("x", "BIGINT")], rows⟩, engine)
  prepare _ config _ := .ok config.query
  isDestructive _ := false
  align table _ := some table.rows
  bqType := id

def oneTableMeta : TableMeta where
  id := ⟨"p", "d", "t"⟩
  fields := [{ name := "x", type := "INT64" }]

def oneRowTable : DuckTable (List Nat) :=
  ⟨oneTableMeta.id.key, [("x", "BIGINT")], [[1]]⟩

def oneTableWorld : JobWorld Nat where
  catalog := { tables := Keyed.empty.put oneTableMeta }
  db := ⟨[], Keyed.empty.put oneRowTable⟩
  results := .empty

def intoTable (disposition : String) : QueryConfiguration where
  query := "SELECT 2"
  destinationTable := some ⟨none, some "d", some "t"⟩
  writeDisposition := some disposition

theorem oneTableEnv_selectsFrom (rows : List (List Nat)) :
    (oneTableEnv rows).SelectsFrom ⟨"p", "d", "t"⟩ where
  reads := by
    intro e
    simp only [oneTableEnv, if_true]
    split <;> exact ⟨rfl, rfl⟩
  returns := by
    intro e t hstored
    exact ⟨⟨t.columns, t.rows⟩, by simp only [oneTableEnv, if_true, hstored]⟩
  align_length := by
    rintro t c rows ⟨⟩
    rfl

/-- A query that returns the rows of the table it is to replace leaves it as it is due. -/
theorem destination_written_sameRows :
    DestinationHolds (oneTableEnv [[1]]) (intoTable "WRITE_TRUNCATE") oneTableMeta
      ⟨[("x", "BIGINT")], [[1]]⟩ oneRowTable
      (insertQuery (oneTableEnv [[1]]) "p" "job" (intoTable "WRITE_TRUNCATE") false
        oneTableWorld).state.toQueryWorld := by
  refine (destination_written_iff (m := oneTableMeta) (oneTableEnv_selectsFrom [[1]]) rfl ?_ ?_ rfl
    rfl ?_).2 ⟨?_, fun _ => rfl, ?_⟩
  · decide
  · exact fun e => ⟨rfl, rfl⟩
  · decide
  · intro ha
    exact absurd ha (by decide)
  · intro ha
    exact absurd ha (by decide)

/-- A row is appended to the table of one row: the job is done and reports two rows, and the table
still has one. -/
theorem destination_not_written :
    let run := insertQuery (oneTableEnv [[2]]) "p" "job" (intoTable "WRITE_APPEND") false
      oneTableWorld
    run.result = .ok .done ∧
      (run.state.result? "job").map ArrowTable.rows = some [[1], [2]] ∧
      (run.state.db.get? oneTableMeta.id.key).map DuckTable.rows = some [[1]] := by
  decide

end Bqemulator
