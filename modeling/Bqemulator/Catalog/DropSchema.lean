import Bqemulator.Jobs.Load
import Bqemulator.Sql.TableRewriter

/-!
# `DROP SCHEMA`

A `DROP SCHEMA` is guarded by the tables and routines that the catalog lists, run by the database
under the name of its schema, and then taken over into the catalog, which also counts models: a
dataset of models alone loses its schema, and stays.
-/

namespace Bqemulator

open Requests

variable {Row : Type}

def DuckDb.hasSchema (db : DuckDb Row) (schema : String) : Bool :=
  db.schemas.any fun s => Text.lower s = Text.lower schema

/-- The statement of the database, which finds a schema whatever the case of its name. -/
def DuckDb.dropSchema (db : DuckDb Row) (schema : String) (ifExists cascade : Bool) :
    Except DomainError (DuckDb Row) :=
  if !db.hasSchema schema then
    if ifExists then .ok db
    else .error (.engine ("Catalog Error: Schema with name " ++ schema ++ " does not exist!"))
  else if !cascade && db.tables.rows.any fun t => Text.lower t.ref.1 = Text.lower schema then
    .error (.engine ("Dependency Error: Cannot drop entry \"" ++ schema ++
      "\" because there are entries that depend on it."))
  else .ok ⟨db.schemas.filter fun s => Text.lower s ≠ Text.lower schema,
    db.tables.removeIf fun t => Text.lower t.ref.1 = Text.lower schema⟩

/-- **The statement**: the parser gives its target a dataset, or a project and dataset in one quoted
name, and no table. -/
structure DropSchema where
  target : Table
  project : String
  ifExists : Bool
  cascade : Bool
  hasDataset : target.db ≠ "" := by decide
  noTable : target.name = "" := by decide

namespace DropSchema

variable (s : DropSchema) (w : LoadWorld Row) (p d : String)

def guard : Except DomainError Unit :=
  assertDropSchemaAllowed w.catalog s.target s.project s.cascade

/-- The schema that the text of a target names, if it is one of this database. -/
def schemaOf (t : Table) : Option String :=
  if t.catalog ≠ "" ∨ (t.db ≠ "" ∧ t.name ≠ "") then none
  else some (if t.name = "" then t.db else t.name)

/-- What the database makes of the statement once the names are given. -/
def answer : Except DomainError (DuckDb Row) :=
  (rewriteTableNode s.project s.target).bind fun t =>
    match schemaOf t with
    | none => .error (.engine "Catalog Error: Schema does not exist!")
    | some schema => w.db.dropSchema schema s.ifExists s.cascade

/-- The statement. The database has dropped the schema when the catalog is asked. -/
def run : Except DomainError Unit × LoadWorld Row :=
  match s.guard w, s.answer w with
  | .error e, _ | .ok _, .error e => (.error e, w)
  | .ok _, .ok db =>
    let out := dropSchema {} s.target s.project s.cascade w.catalog
    (out.result, ⟨out.state, db⟩)

/-- **The schema and the dataset go together**: without `CASCADE` the statement succeeds if the
catalog would delete the dataset, and a failure changes neither. -/
@[mk_iff together_iff]
structure Together : Prop where
  succeeds : s.cascade = false →
    (s.run w).1.isOk = (w.catalog.deleteDataset p d s.ifExists false).isOk
  together : w.db.hasSchema (schemaName p d) ∧ ¬ (s.run w).2.db.hasSchema (schemaName p d) ↔
    (w.catalog.datasets.get? (p, d)).isSome ∧ ¬ ((s.run w).2.catalog.datasets.get? (p, d)).isSome
  rejected : (s.run w).1.isOk = false → (s.run w).2 = w

/-- Where the guard or the database refuses, the catalog would; else the schema is there for a
dataset that the catalog lets go. -/
def Fits : Prop :=
  let registered := (w.catalog.datasets.get? (p, d)).isSome
  if (s.guard w).isOk && (s.answer w).isOk then
    w.db.hasSchema (schemaName p d) ↔
      registered = true ∧ (w.catalog.hasContents p d = true → s.cascade = true)
  else s.cascade = false →
    if registered then w.catalog.hasContents p d = true else s.ifExists = false

variable {s w p d}

theorem isOk_deleteDataset {c : MemoryRepository} {n deleteContents : Bool} :
    (c.deleteDataset p d n deleteContents).isOk =
      if (c.datasets.get? (p, d)).isSome then !c.hasContents p d || deleteContents
      else n := by
  unfold MemoryRepository.deleteDataset
  cases c.datasets.get? (p, d) <;> cases c.hasContents p d <;> cases n <;>
    cases deleteContents <;> rfl

theorem together_of_refused {e : DomainError} (hr : s.run w = (.error e, w)) :
    s.Together w p d ↔ (s.cascade = false → if (w.catalog.datasets.get? (p, d)).isSome then
      w.catalog.hasContents p d = true else s.ifExists = false) := by
  have hk : ∀ {a : Prop}, a ∧ ¬ a ↔ False := and_not_self_iff _
  rw [together_iff, hr, hk, hk, isOk_deleteDataset]
  cases (w.catalog.datasets.get? (p, d)).isSome <;> simp [Except.isOk, Except.toBool]

theorem of_dropSchema_eq_ok {db db' : DuckDb Row} {schema : String} {ifExists cascade : Bool}
    (h : db.dropSchema schema ifExists cascade = .ok db') :
    db'.hasSchema schema = false ∧ (db.hasSchema schema = false → ifExists = true ∧ db' = db) := by
  unfold DuckDb.dropSchema at h
  split_ifs at h with hmissing hi hdepends
  · cases h
    exact ⟨by simpa using hmissing, fun _ => ⟨hi, rfl⟩⟩
  · cases h
    refine ⟨?_, fun hm => absurd hm (by simpa using hmissing)⟩
    simp [DuckDb.hasSchema]

/-! ## The name of the schema -/

/-- The parts of a name between all dots begin with what is before the first. -/
theorem splitOn_cases (name : String) :
    (Text.splitOnce '.' name = none ∧ (name.toList.splitOn '.').map String.ofList = [name]) ∨
      ∃ before after, Text.splitOnce '.' name = some (before, after) ∧
        (name.toList.splitOn '.').map String.ofList =
          before :: (after.toList.splitOn '.').map String.ofList := by
  have hname := List.takeWhile_append_dropWhile (p := (· ≠ '.')) (l := name.toList)
  have hbefore : ∀ c ∈ name.toList.takeWhile (· ≠ '.'), (c == '.') = false := fun c hc => by
    simpa using List.mem_takeWhile_imp hc
  unfold Text.splitOnce
  rw [List.span_eq_takeWhile_dropWhile]
  cases hrest : name.toList.dropWhile (· ≠ '.') with
  | nil =>
    rw [hrest, List.append_nil] at hname
    rw [hname] at hbefore
    exact .inl ⟨rfl, by rw [List.splitOn, List.splitOnP_eq_singleton hbefore]; simp⟩
  | cons c after =>
    have hdot : c = '.' := by
      have hhead := List.head?_dropWhile_not (· ≠ '.') name.toList
      rw [hrest] at hhead
      simpa using hhead
    refine .inr ⟨_, String.ofList after, rfl, ?_⟩
    rw [hrest, hdot] at hname
    generalize name.toList.takeWhile (· ≠ '.') = before at hname hbefore ⊢
    rw [← hname, List.splitOn, List.splitOnP_append_cons_of_forall_mem hbefore '.' rfl after]
    simp [List.splitOn]

/-- The parts of a name that the pass sees are those that the catalog sees. -/
theorem normalizeQualifierParts_of_resolved
    (hre : resolveDatasetParts s.target s.project = some (p, d)) (hp : p ≠ "") :
    ∃ catalog, normalizeQualifierParts s.target.catalog s.target.db = (catalog, d) ∧
      (if catalog = "" then s.project else catalog) = p := by
  by_cases hc : s.target.catalog = ""
  · have htarget : targetParts s.target = [s.target.db] := by
      simp [targetParts, hc, s.hasDataset, s.noTable]
    simp only [resolveDatasetParts, htarget] at hre
    rcases splitOn_cases s.target.db with ⟨hnone, hsplit⟩ | ⟨before, after, hsome, hsplit⟩
    · rw [hsplit] at hre
      cases hre
      exact ⟨"", by simp [normalizeQualifierParts, hc, hnone], rfl⟩
    · rw [hsplit] at hre
      have hafter : ['.'].intercalate (after.toList.splitOn '.') = after.toList :=
        List.intercalate_splitOn '.'
      rcases hrest : after.toList.splitOn '.' with _ | ⟨last, _ | ⟨_, _⟩⟩
      · exact absurd hrest (List.splitOn_ne_nil _ _)
      · rw [hrest] at hre hafter
        cases hre
        refine ⟨p, ?_, if_neg hp⟩
        simp only [normalizeQualifierParts, hc, if_true, hsome, Option.getD_some, Prod.mk.injEq,
          true_and]
        rw [← String.toList_inj, String.toList_ofList, ← hafter]
        simp
      · rw [hrest] at hre
        cases hre
  · have htarget : targetParts s.target = [s.target.catalog, s.target.db] := by
      simp [targetParts, hc, s.hasDataset, s.noTable]
    simp only [resolveDatasetParts, htarget] at hre
    cases hre
    exact ⟨s.target.catalog, by simp [normalizeQualifierParts, hc], if_neg hc⟩

/-- The schema that a statement names is that of the dataset, unless the pass refuses or leaves the
id. -/
theorem answer_eq (hre : resolveDatasetParts s.target s.project = some (p, d)) (hp : p ≠ "")
    (hid : isBqDatasetId d = true) (hreserved : isReserved d = false) :
    s.answer w = w.db.dropSchema (schemaName p d) s.ifExists s.cascade := by
  have hd := ne_empty_of_isBqDatasetId hid
  obtain ⟨catalog, hparts, hproject⟩ := normalizeQualifierParts_of_resolved hre hp
  have hrewrite : rewriteTableNode s.project s.target =
      .ok { s.target with catalog := "", db := "", name := schemaName p d } := by
    simp [rewriteTableNode, hparts, hreserved, hid, hd, s.noTable, hproject]
  have hname : schemaName p d ≠ "" := by
    intro h
    have hempty := congrArg String.toList h
    simp [schemaName] at hempty
  simp [answer, hrewrite, schemaOf, hname, Except.bind]

theorem run_of_answer {u : Unit} {db : DuckDb Row}
    (hre : resolveDatasetParts s.target s.project = some (p, d)) (hg : s.guard w = .ok u)
    (ha : s.answer w = .ok db) :
    s.run w = match w.catalog.deleteDataset p d true s.cascade with
      | .ok c => (.ok (), ⟨c, db⟩)
      | .error e => (.error e, ⟨w.catalog, db⟩) := by
  have hc : dropSchema {} s.target s.project s.cascade w.catalog =
      (ask (s.guard w) >>= fun _ => call (.deleteDataset p d true s.cascade)) w.catalog := by
    simp only [dropSchema, hre]
    rfl
  simp only [run, hg, ha, hc, run_ask_ok, call, Comp.call]
  cases hde : w.catalog.deleteDataset p d true s.cascade <;> simp [MemoryRepository.perform, hde]

/-- **The schema and the dataset go together** exactly where the guard, the database and the catalog
decide alike. -/
theorem together_iff_fits (hre : resolveDatasetParts s.target s.project = some (p, d)) (hp : p ≠ "")
    (hid : isBqDatasetId d = true) (hreserved : isReserved d = false) :
    s.Together w p d ↔ s.Fits w p d := by
  unfold Fits
  cases hg : s.guard w with
  | error e => exact together_of_refused (by rw [run, hg])
  | ok _ =>
    cases ha : s.answer w with
    | error e => exact together_of_refused (by rw [run, hg, ha])
    | ok db =>
      -- the database has dropped the schema, and the catalog decides for itself
      have hru := run_of_answer hre hg ha
      rw [answer_eq hre hp hid hreserved] at ha
      obtain ⟨hdropped, hmissing⟩ := of_dropSchema_eq_ok ha
      have hl : (w.catalog.withoutDataset p d).datasets.get? (p, d) = none := by
        simp [MemoryRepository.withoutDataset, Keyed.get?_erase]
      rw [together_iff, isOk_deleteDataset, hru, MemoryRepository.deleteDataset]
      cases hs : w.db.hasSchema (schemaName p d) with
      | true =>
        cases hr : w.catalog.datasets.get? (p, d) <;>
          cases hco : w.catalog.hasContents p d <;> cases hca : s.cascade <;>
          simp [hdropped, hr, hl, Except.isOk, Except.toBool]
      | false =>
        obtain ⟨hi, rfl⟩ := hmissing hs
        cases hr : w.catalog.datasets.get? (p, d) <;>
          cases hco : w.catalog.hasContents p d <;> cases hca : s.cascade <;>
          simp [hs, hi, hr, hl, Except.isOk, Except.toBool]

/-- A dataset of one model. -/
def modelOnly : LoadWorld Unit where
  catalog := {
    datasets := .ofList [{ projectId := "p", datasetId := "d" }]
    models := .ofList [{ projectId := "p", datasetId := "d", modelId := "m" }] }
  db := ⟨["p__d"], .empty⟩

/-- The guard does not count models: the schema is gone when the catalog refuses. -/
theorem dropSchema_models :
    ¬ Together { target := { db := "d" }, project := "p", ifExists := false, cascade := false }
      modelOnly "p" "d" := by
  intro h
  have hk := h.rejected (by decide)
  exact absurd (congrArg (·.db.schemas) hk) (by decide)

theorem dropSchema_cascades :
    Together { target := { db := "d" }, project := "p", ifExists := false, cascade := true }
      modelOnly "p" "d" :=
  (together_iff_fits (by decide) (by decide) (by decide) (by decide)).2
    (by simp only [Fits]; decide)

end DropSchema

end Bqemulator
