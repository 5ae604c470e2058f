import Bqemulator.Catalog.Requests
import Bqemulator.Lib.Refers

/-!
# References inside the catalog

Tables, routines, models and materialized views lie in datasets; policies and snapshots belong to
tables. The requests that take one table off the catalog leave its policies behind, and most of its
snapshots: a table that gets the name later starts with them.
-/

namespace Bqemulator

open Option Keyed Except

/-! ## Good references -/

def TableId.datasetKey (id : TableId) : String × String := (id.project, id.dataset)

def RoutineMeta.datasetKey (r : RoutineMeta) : String × String := (r.projectId, r.datasetId)

def ModelMeta.datasetKey (m : ModelMeta) : String × String := (m.projectId, m.datasetId)

/-- Every policy has its table, and every table, routine, model and view its dataset. -/
structure Referential (c : MemoryRepository) : Prop where
  policies : c.rowAccess.Refers RowAccessPolicyMeta.id c.tables
  tables : c.tables.Refers (fun m => m.id.datasetKey) c.datasets
  routines : c.routines.Refers RoutineMeta.datasetKey c.datasets
  models : c.models.Refers ModelMeta.datasetKey c.datasets
  mviews : c.mviews.Refers (fun v => v.id.datasetKey) c.datasets

/-- Good references, with those of the snapshots where `w` asks for them. -/
structure Sound (w : Prop) (c : MemoryRepository) : Prop extends Referential c where
  snapshots : w → c.snapshots.Refers SnapshotMeta.source c.tables

/-- Where an operation keeps the references good: what it adds refers to what is there, and no table
goes. -/
def Safe (c : MemoryRepository) : CatalogOp → Prop
  | .deleteTable id _ => c.tables.get? id = none
  | .createSnapshot s => (c.tables.get? s.source).isSome
  | .upsertMaterializedView v => (c.datasets.get? v.id.datasetKey).isSome
  | .createRowAccessPolicy p => (c.tables.get? p.id).isSome
  | _ => True

variable {op : CatalogOp}

section Operations

variable {w : Prop} {c c' : MemoryRepository}

theorem sound_empty (w : Prop) : Sound w {} where
  policies := refers_empty _ _
  tables := refers_empty _ _
  routines := refers_empty _ _
  models := refers_empty _ _
  mviews := refers_empty _ _
  snapshots _ := refers_empty _ _

variable {project dataset : String}

theorem not_inDataset_iff {id : TableId} :
    id.inDataset project dataset = false ↔ id.datasetKey ≠ (project, dataset) := by
  simp [TableId.inDataset, TableId.datasetKey]

theorem not_inDataset_key_iff {key : String × String × String} :
    inDataset project dataset key = false ↔ (key.1, key.2.1) ≠ (project, dataset) := by
  simp [inDataset]

theorem refers_datasets_erase {K R : Type} [DecidableEq K] {key : R → K} {t : Keyed key}
    {f : R → String × String} {p : R → Bool} (h : t.Refers f c.datasets)
    (hp : ∀ r, p r = false → f r ≠ (project, dataset)) :
    (t.removeIf p).Refers f (c.datasets.erase (project, dataset)) := by
  refine (h.removeIf p).erase_right fun r hr => hp r ?_
  simpa using (List.mem_filter.1 hr).2

theorem refers_tables_removeIf {K R : Type} [DecidableEq K] {key : R → K} {t : Keyed key}
    {f : R → TableId} (h : t.Refers f c.tables) :
    (t.removeIf fun r => (f r).inDataset project dataset).Refers f
      (c.tables.removeIf fun m => m.id.inDataset project dataset) := by
  refine (h.removeIf _).removeIf_right fun r hr m _ hk => ?_
  rw [hk]
  simpa using (List.mem_filter.1 hr).2

theorem Sound.withoutDataset (h : Sound w c) (p d : String) :
    Sound w (c.withoutDataset p d) where
  policies := refers_tables_removeIf h.policies
  tables := refers_datasets_erase h.tables fun _ hm => not_inDataset_iff.1 hm
  routines := refers_datasets_erase h.routines fun _ hr => not_inDataset_key_iff.1 hr
  models := refers_datasets_erase h.models fun _ hm => not_inDataset_key_iff.1 hm
  mviews := refers_datasets_erase h.mviews fun _ hv => not_inDataset_iff.1 hv
  snapshots hw := refers_tables_removeIf (h.snapshots hw)

theorem Sound.putDataset (h : Sound w c) (m : DatasetMeta) :
    Sound w { c with datasets := c.datasets.put m } where
  policies := h.policies
  tables := h.tables.put_right m
  routines := h.routines.put_right m
  models := h.models.put_right m
  mviews := h.mviews.put_right m
  snapshots := h.snapshots

theorem Sound.putTable (h : Sound w c) {m : TableMeta}
    (hm : (c.tables.put m).Refers (fun m => m.id.datasetKey) c.datasets) :
    Sound w { c with tables := c.tables.put m } where
  policies := h.policies.put_right m
  tables := hm
  routines := h.routines
  models := h.models
  mviews := h.mviews
  snapshots hw := (h.snapshots hw).put_right m

/-- A safe operation keeps the references good. -/
theorem Sound.perform (h : Sound w c) (hs : Safe c op) (hok : c.perform op = .ok c') :
    Sound w c' := by
  cases op with
  | createDataset m =>
    obtain ⟨-, rfl⟩ := createIn_map_eq_ok_iff.1 hok
    exact h.putDataset m
  | updateDataset m =>
    obtain ⟨-, rfl⟩ := updateIn_map_eq_ok hok
    exact h.putDataset m
  | deleteDataset project dataset n d =>
    rcases MemoryRepository.deleteDataset_eq_ok hok with ⟨-, rfl⟩ | ⟨-, -, rfl⟩
    · exact h
    · exact h.withoutDataset project dataset
  | createTable m =>
    obtain ⟨-, hd, rfl⟩ := MemoryRepository.createTable_eq_ok_iff.1 hok
    exact h.putTable (h.tables.put hd)
  | updateTable m =>
    obtain ⟨ho, rfl⟩ := updateIn_map_eq_ok hok
    exact h.putTable (h.tables.update ho fun _ hk => congrArg TableId.datasetKey hk)
  | deleteTable id n =>
    obtain rfl := deleteFrom_map_eq_ok hok
    rw [show c.tables.get? id = none from hs]
    exact h
  | createRoutine r =>
    obtain ⟨-, hd, rfl⟩ := MemoryRepository.createInDataset_map_eq_ok_iff.1 hok
    exact { h with routines := h.routines.put hd }
  | updateRoutine r =>
    obtain ⟨ho, rfl⟩ := updateIn_map_eq_ok hok
    have hr := h.routines.update ho fun _ hk =>
      congrArg (fun k : String × String × String => (k.1, k.2.1)) hk
    exact { h with routines := hr }
  | deleteRoutine =>
    obtain rfl := deleteFrom_map_eq_ok hok
    split
    · exact { h with routines := h.routines.removeIf _ }
    · exact h
  | createModel m =>
    obtain ⟨-, hd, rfl⟩ := MemoryRepository.createInDataset_map_eq_ok_iff.1 hok
    exact { h with models := h.models.put hd }
  | updateModel m =>
    obtain ⟨ho, rfl⟩ := updateIn_map_eq_ok hok
    have hm := h.models.update ho fun _ hk =>
      congrArg (fun k : String × String × String => (k.1, k.2.1)) hk
    exact { h with models := hm }
  | deleteModel =>
    obtain rfl := deleteFrom_map_eq_ok hok
    split
    · exact { h with models := h.models.removeIf _ }
    · exact h
  | upsertJob j =>
    obtain rfl := ok.inj hok
    exact { h with }
  | deleteJob =>
    obtain rfl := deleteFrom_map_eq_ok hok
    split
    · exact { h with }
    · exact h
  | createSnapshot s =>
    obtain ⟨-, rfl⟩ := createIn_map_eq_ok_iff.1 hok
    exact { h with snapshots := fun hw => (h.snapshots hw).put hs }
  | deleteSnapshot =>
    obtain rfl := deleteFrom_map_eq_ok hok
    split
    · exact { h with snapshots := fun hw => (h.snapshots hw).removeIf _ }
    · exact h
  | upsertMaterializedView v =>
    obtain rfl := ok.inj hok
    exact { h with mviews := h.mviews.put hs }
  | deleteMaterializedView =>
    obtain rfl := deleteFrom_map_eq_ok hok
    split
    · exact { h with mviews := h.mviews.removeIf _ }
    · exact h
  | createRowAccessPolicy p =>
    obtain ⟨-, rfl⟩ := createIn_map_eq_ok_iff.1 hok
    exact { h with policies := h.policies.put hs }
  | updateRowAccessPolicy p =>
    obtain ⟨ho, rfl⟩ := updateIn_map_eq_ok hok
    exact { h with policies := h.policies.update ho fun _ hk => congrArg Prod.fst hk }
  | deleteRowAccessPolicy =>
    obtain rfl := deleteFrom_map_eq_ok hok
    split
    · exact { h with policies := h.policies.removeIf _ }
    · exact h

theorem Referential.perform (h : Referential c) (ho : c.perform op = .ok c') (hs : Safe c op) :
    Referential c' := by
  have hso : Sound False c := { h with snapshots := False.elim }
  exact (hso.perform hs ho).toReferential

end Operations

/-! ## Requests that remove no table -/

/-- The table that a request takes off the catalog by itself: it is there, of the right type, and
the engine does its part. The deletion of a dataset is no such request. -/
def Requests.removes (env : Surroundings) (c : MemoryRepository) : CatalogRequest → Option TableId
  | .deleteTable id =>
    if env.engine = .ok () ∧ (c.getTable id).isSome then some id else none
  | .dropRelation target project =>
    let id := splitTarget target project
    if env.engine = .ok () ∧ id.dataset ≠ "" ∧ id.table ≠ "" ∧ (c.getTable id).isSome then some id
    else none
  | .dropSnapshotTable id =>
    if env.engine = .ok () ∧ (c.getTable id).map TableMeta.tableType = some .snapshot then some id
    else none
  | .dropMaterializedView id =>
    if env.engine = .ok () ∧ (c.getTable id).map TableMeta.tableType = some .materializedView then
      some id
    else none
  | _ => none

/-- The calls of a program are made where they are safe. -/
def RunsSafely {α : Type} (x : CatalogM α) (c : MemoryRepository) : Prop :=
  Comp.Traced MemoryRepository.perform Safe c (x c).trace (x c).state

open Requests

open Comp hiding call

variable {f : Unit → CatalogM β} {request : CatalogRequest}

section Safety

variable {α β : Type} {c : MemoryRepository} {env : Surroundings}

theorem orNotFound_eq_ok {found : Option α} {ref : ResourceRef} {a : α} :
    orNotFound found ref = .ok a ↔ found = some a := by
  cases found <;> simp [orNotFound]

theorem isSome_of_validateTarget {id : TableId} (h : validateTarget c id = .ok ()) :
    (c.tables.get? id).isSome := by
  unfold validateTarget MemoryRepository.getTable at h
  cases hm : c.tables.get? id with
  | none => simp [hm] at h
  | some m => rfl

theorem validateCopy_eq_ok {target source : TableId} {s : TableMeta}
    (h : validateCopy c target source = .ok s) : c.getTable source = some s := by
  obtain ⟨s', hs, h⟩ := bind_eq_ok_iff.1 h
  obtain ⟨_, -, h⟩ := bind_eq_ok_iff.1 h
  obtain ⟨_, -, h⟩ := bind_eq_ok_iff.1 h
  obtain rfl : s' = s := ok.inj h
  exact orNotFound_eq_ok.1 hs

namespace RunsSafely

protected theorem pure (a : α) : RunsSafely (pure a) c := .nil c

protected theorem raise (e : DomainError) : RunsSafely (raise e : CatalogM α) c := .nil c

protected theorem ask (answer : Except DomainError α) : RunsSafely (ask answer) c := .nil c

protected theorem call (h : Safe c op) : RunsSafely (call op) c := traced_call h

theorem state_bind {f : MemoryRepository → CatalogM β} (h : RunsSafely (f c) c) :
    RunsSafely (state >>= f) c := h

theorem ask_bind {answer : Except DomainError α} {f : α → CatalogM β}
    (h : ∀ a, answer = .ok a → RunsSafely (f a) c) : RunsSafely (ask answer >>= f) c :=
  bind_at sequential_traced (.nil c) h

theorem call_bind (ho : Safe c op)
    (h : ∀ c', c.perform op = .ok c' → RunsSafely (f ()) c') : RunsSafely (call op >>= f) c := by
  refine bind_at sequential_traced (traced_call ho) fun _ hre => ?_
  rcases call_cases MemoryRepository.perform op c with ⟨c', hok, hr⟩ | ⟨e, -, hr⟩
  · rw [call, hr]
    exact h c' hok
  · rw [call, hr] at hre
    cases hre

protected theorem callEach {o : List CatalogOp} (h : ∀ op ∈ o, ∀ c, Safe c op) :
    RunsSafely (callEach o) c := by
  induction o generalizing c with
  | nil => exact .pure ()
  | cons op o ih =>
    refine .call_bind (h op List.mem_cons_self c) fun c' _ => ?_
    exact ih fun op' ho' => h op' (List.mem_cons_of_mem op ho')

theorem dropSnapshotsForTable_bind {id : TableId} {i : Bool}
    (h : ∀ c', RunsSafely (f ()) c') :
    RunsSafely (dropSnapshotsForTable id i >>= f) c := by
  refine bind_at sequential_traced (RunsSafely.state_bind ?_) fun _ _ => h _
  refine RunsSafely.callEach fun op hop c => ?_
  obtain ⟨s, -, rfl⟩ := List.mem_map.1 hop
  trivial

protected theorem ensureDataset (p dataset : String) :
    RunsSafely (ensureDataset p dataset) c := by
  refine .state_bind ?_
  split
  · exact .pure ()
  · exact .call trivial

protected theorem upsertTable (m : TableMeta) : RunsSafely (upsertTable m) c := by
  refine .state_bind ?_
  split
  · exact .call trivial
  · exact .call trivial

protected theorem createRelation (target : Table) (p : String) (tableType : TableType)
    (viewQuery : Option Sql) :
    RunsSafely (createRelation env target p tableType viewQuery) c := by
  refine .ask_bind fun _ _ => ?_
  unfold syncCreatedRelation
  by_cases hi : (splitTarget target p).dataset = "" ∨ (splitTarget target p).table = ""
  · rw [if_pos hi]
    exact .pure ()
  · rw [if_neg hi]
    refine bind_at sequential_traced (RunsSafely.ensureDataset _ _) fun _ _ => ?_
    exact RunsSafely.ask_bind fun _ _ => RunsSafely.upsertTable _

protected theorem createPolicy (id : TableId) (policyId filterPredicate : String)
    (grantees : List String) :
    RunsSafely (createPolicy env id policyId filterPredicate grantees) c := by
  refine .state_bind (.ask_bind fun _ ht => ?_)
  refine .ask_bind fun _ _ => .call ?_
  exact isSome_of_validateTarget ht

protected theorem createSnapshotTable (target source : TableId) :
    RunsSafely (createSnapshotTable env target source) c := by
  refine .state_bind (.ask_bind fun src hco => ?_)
  refine .ask_bind fun _ _ => ?_
  split
  · exact .raise _
  refine .ask_bind fun _ _ => .ask_bind fun _ _ => ?_
  refine .call_bind trivial fun c' ho => .call ?_
  -- the source is still there beside the new table
  obtain ⟨-, -, rfl⟩ := MemoryRepository.createTable_eq_ok_iff.1 ho
  have hsr : (c.tables.get? source).isSome :=
    isSome_iff_exists.2 ⟨src, validateCopy_eq_ok hco⟩
  exact isSome_get?_put _ _ hsr

protected theorem cloneTable (target source : TableId) :
    RunsSafely (cloneTable env target source) c :=
  RunsSafely.state_bind <| .ask_bind fun _ _ => .ask_bind fun _ _ =>
    RunsSafely.ask_bind fun _ _ => .call trivial

protected theorem createMaterializedView (id : TableId) (viewQuery : Sql) :
    RunsSafely (createMaterializedView env id viewQuery) c := by
  refine .state_bind (.ask_bind fun _ _ => .ask_bind fun _ _ => ?_)
  refine .ask_bind fun _ _ => ?_
  refine .call_bind trivial fun c' ho => .call ?_
  -- the dataset was there when the table was created
  obtain ⟨-, hd, rfl⟩ := MemoryRepository.createTable_eq_ok_iff.1 ho
  exact hd

protected theorem refreshMaterializedView (hc : Referential c) (id : TableId) :
    RunsSafely (refreshMaterializedView env id) c := by
  refine .state_bind (.ask_bind fun mv hmv => ?_)
  obtain ⟨hme, -⟩ := get?_eq_some_iff.1 (orNotFound_eq_ok.1 hmv)
  refine .ask_bind fun _ _ => .ask_bind fun _ _ => ?_
  cases hm : c.getTable id with
  | none =>
    refine .call ?_
    exact hc.mviews mv hme
  | some m =>
    refine .call_bind trivial fun c' ho => .call ?_
    obtain ⟨-, rfl⟩ := updateIn_map_eq_ok ho
    exact hc.mviews mv hme

protected theorem markStale (hc : Referential c) (v : List TableId) :
    RunsSafely (markStale v) c := by
  induction v generalizing c with
  | nil => exact .pure ()
  | cons view v ih =>
    refine .state_bind ?_
    cases hmv : c.mviews.get? view with
    | none => exact ih hc
    | some mv =>
      have hme := (get?_eq_some_iff.1 hmv).1
      by_cases hst : mv.isStale
      · simp only [hst]
        exact ih hc
      · simp only [hst]
        refine .call_bind (hc.mviews mv hme) fun c' ho => ih ?_
        exact hc.perform ho (hc.mviews mv hme)

protected theorem recordChange (hc : Referential c) (id : TableId) :
    RunsSafely (recordChange env id) c := by
  refine .state_bind ?_
  by_cases hi : (c.getTable id).isSome
  · simp only [hi]
    refine .ask_bind fun _ _ => ?_
    have hs : Safe c (.createSnapshot
        (snapshotMeta env.now env.retentionDays id .auto env.hex)) := hi
    exact .call_bind hs fun c' ho => .markStale (hc.perform ho hs) _
  · simp only [hi]
    exact .markStale hc _

protected theorem finishWrite (hc : Referential c) (id : TableId) (numRows : Option Nat) :
    RunsSafely (finishWrite env id numRows) c := by
  refine .state_bind ?_
  cases hm : c.getTable id with
  | none => exact .recordChange hc id
  | some m =>
    cases numRows with
    | none => exact .recordChange hc id
    | some =>
      refine .call_bind trivial fun c' ho => .recordChange ?_ id
      exact hc.perform ho trivial

protected theorem syncDroppedRelation {id : TableId}
    (h : id.dataset ≠ "" → id.table ≠ "" → c.getTable id = none) :
    RunsSafely (syncDroppedRelation id) c := by
  unfold syncDroppedRelation
  split
  · exact .pure ()
  · rename_i hi
    rw [not_or] at hi
    refine .call_bind (h hi.1 hi.2) fun _ _ => ?_
    exact .dropSnapshotsForTable_bind fun _ => .call trivial

end RunsSafely

/-- A request that removes no table only calls safe operations. -/
theorem serve_runsSafely (hc : Referential c) {request : CatalogRequest}
    (hr : removes env c request = none) : RunsSafely (serve env request) c := by
  cases request with
  | insertDataset => exact .ask_bind fun _ _ => .call trivial
  | replaceDataset | replaceTable | deleteModel =>
    exact .state_bind (.ask_bind fun _ _ => .call trivial)
  | insertTable | deleteRoutine | patchModel | updatePolicy =>
    exact .state_bind <| .ask_bind fun _ _ => .ask_bind fun _ _ => .call trivial
  | deleteDataset project dataset contents =>
    cases contents with
    | false => exact .call trivial
    | true => exact .ask_bind fun _ _ => .call trivial
  | deleteTable id =>
    refine .ask_bind fun _ he => ?_
    have hn : c.getTable id = none := by simpa [removes, he] using hr
    refine .call_bind hn fun _ _ => ?_
    exact .dropSnapshotsForTable_bind fun _ => .call trivial
  | insertRoutine =>
    refine .ask_bind fun _ _ => .state_bind (.ask_bind fun _ _ => ?_)
    exact .call_bind trivial fun _ _ => .ask _
  | replaceRoutine =>
    refine .state_bind (.ask_bind fun _ _ => .ask_bind fun _ _ => ?_)
    exact .call_bind trivial fun _ _ => .ask _
  | upsertRoutine r o =>
    refine .state_bind ?_
    cases c.getRoutine r.key with
    | none => exact .call_bind trivial fun _ _ => .ask _
    | some old =>
      cases o with
      | false => exact .raise _
      | true => exact .call_bind trivial fun _ _ => .ask _
  | dropRoutine key i =>
    refine .state_bind ?_
    cases c.getRoutine key with
    | none => cases i <;> [exact .raise _; exact .pure ()]
    | some old => exact .ask_bind fun _ _ => .call trivial
  | createModel =>
    refine .state_bind (.ask_bind fun operation _ => ?_)
    split
    · exact .pure ()
    · refine .ask_bind fun _ _ => .ask_bind fun _ _ => ?_
      refine .state_bind ?_
      split <;> exact .call trivial
  | createPolicy => exact .createPolicy _ _ _ _
  | deletePolicy key => exact .call trivial
  | batchDeletePolicies =>
    refine .state_bind ?_
    split
    · exact .raise _
    split
    · exact .raise _
    · refine .callEach fun op ho c => ?_
      obtain ⟨policy, -, rfl⟩ := List.mem_map.1 ho
      trivial
  | createSchema target project =>
    refine .ask_bind fun _ _ => ?_
    cases resolveDatasetParts target project with
    | none => exact .pure ()
    | some key =>
      obtain ⟨p, d⟩ := key
      by_cases hd : d = ""
      · simp only [hd]
        exact .pure ()
      · simp only [hd]
        exact .ensureDataset p d
  | createRelation => exact .createRelation _ _ _ _
  | dropRelation =>
    refine .ask_bind fun _ he => .syncDroppedRelation fun hd ht => ?_
    simpa [removes, he, hd, ht] using hr
  | dropSchema target project cascade =>
    refine .state_bind (.ask_bind fun _ _ => .ask_bind fun _ _ => ?_)
    cases resolveDatasetParts target project with
    | none => exact .pure ()
    | some key => exact .call trivial
  | createSnapshotTable => exact .createSnapshotTable _ _
  | dropSnapshotTable target | dropMaterializedView target =>
    refine .state_bind (.ask_bind fun e hei => ?_)
    split
    · exact .raise _
    rename_i hty
    refine .ask_bind fun _ he => ?_
    -- a table that is found is removed
    have hg := orNotFound_eq_ok.1 hei
    simp [removes, he, hg, not_not.1 hty] at hr
  | cloneTable => exact .cloneTable _ _
  | createMaterializedView => exact .createMaterializedView _ _
  | refreshMaterializedView id => exact .refreshMaterializedView hc id
  | finishWrite id n => exact .finishWrite hc id n
  | createDestination =>
    refine .state_bind (.ask_bind fun _ _ => ?_)
    split
    · exact .pure ()
    · exact .ask_bind fun _ _ => .call trivial
  | purgeExpired =>
    refine .state_bind (.callEach fun op ho c => ?_)
    obtain ⟨s, -, rfl⟩ := List.mem_map.1 ho
    trivial

end Safety

/-! ## Requests that remove a table -/

/-- The snapshots that a request which removes a table deletes. -/
def Requests.deletesSnapshot : CatalogRequest → SnapshotMeta → Bool
  | .deleteTable _, s => s.kind ≠ .user
  | .dropRelation _ _, s => s.kind ≠ .user
  | .dropSnapshotTable id, s => s.snapshotId = userSnapshotId id
  | _, _ => false

/-- **What a removed table leaves**: all policies, and the snapshots the request does not delete. -/
structure Removed (request : CatalogRequest) (id : TableId) (c c' : MemoryRepository) : Prop where
  datasets : c'.datasets = c.datasets
  tables : c'.tables = c.tables.erase id
  routines : c'.routines = c.routines
  models : c'.models = c.models
  rowAccess : c'.rowAccess = c.rowAccess
  mviews : ∀ v ∈ c'.mviews.rows, v ∈ c.mviews.rows
  snapshots : ∀ s ∈ c'.snapshots.rows, s ∈ c.snapshots.rows ∧
    (s.source = id → deletesSnapshot request s = false)

section Removal

variable {α β : Type} {env : Surroundings} {c c' : MemoryRepository}

theorem state_ask_bind {answer : Except DomainError α} {f : α → CatalogM β} {a : α}
    (h : answer = .ok a) : ((ask answer >>= f) c).state = (f a c).state := by
  rw [run_bind_of_ok (show ((ask answer : CatalogM α) c).result = .ok a from h)]
  rfl

theorem state_call (h : c.perform op = .ok c') : (call op c).state = c' := by
  rw [call, call_of_ok h]

theorem state_call_bind (h : c.perform op = .ok c') :
    ((call op >>= f) c).state = (f () c').state := by
  rw [call, run_call_bind h]

theorem deleteFrom_map_true {K R γ : Type} [DecidableEq K] {key : R → K} (t : Keyed key) (k : K)
    (ref : ResourceRef) (b : Keyed key → γ) :
    ∃ t', (deleteFrom t k ref true).map b = .ok (b t') ∧
      ∀ r ∈ t'.rows, r ∈ t.rows ∧ key r ≠ k := by
  unfold deleteFrom
  split
  · refine ⟨t.erase k, rfl, fun r hr => ?_⟩
    simpa [erase, removeIf] using hr
  · rename_i h
    rw [not_isSome_iff_eq_none] at h
    exact ⟨t, rfl, fun r hr => ⟨hr, get?_eq_none_iff.1 h r hr⟩⟩

theorem perform_deleteSnapshot (c : MemoryRepository) (snapshotId : String) :
    ∃ snapshots, c.perform (.deleteSnapshot snapshotId true) = .ok { c with snapshots } ∧
      ∀ s ∈ snapshots.rows, s ∈ c.snapshots.rows ∧ s.snapshotId ≠ snapshotId :=
  deleteFrom_map_true ..

theorem perform_deleteMaterializedView (c : MemoryRepository) (id : TableId) :
    ∃ mviews, c.perform (.deleteMaterializedView id true) = .ok { c with mviews } ∧
      ∀ v ∈ mviews.rows, v ∈ c.mviews.rows ∧ v.id ≠ id :=
  deleteFrom_map_true ..

variable {id : TableId}

theorem perform_deleteTable (h : (c.getTable id).isSome) (n : Bool) :
    c.perform (.deleteTable id n) = .ok { c with tables := c.tables.erase id } := by
  have h' : (c.tables.get? id).isSome := h
  simp [MemoryRepository.perform, MemoryRepository.deleteTable, deleteFrom, h', Except.map]

theorem callEach_deleteSnapshot (ids : List String) (c : MemoryRepository) :
    ∃ snapshots, (callEach (ids.map fun i => .deleteSnapshot i true) c).result = .ok () ∧
      (callEach (ids.map fun i => .deleteSnapshot i true) c).state = { c with snapshots } ∧
      ∀ s ∈ snapshots.rows, s ∈ c.snapshots.rows ∧ s.snapshotId ∉ ids := by
  induction ids generalizing c with
  | nil => exact ⟨c.snapshots, rfl, rfl, fun s hs => ⟨hs, List.not_mem_nil⟩⟩
  | cons i ids ih =>
    obtain ⟨snapshots, ho, hm⟩ := perform_deleteSnapshot c i
    obtain ⟨s', hr, hst, hm'⟩ := ih { c with snapshots }
    rw [List.map_cons, callEach, call, run_call_bind ho]
    refine ⟨s', hr, hst, fun s hs => ?_⟩
    obtain ⟨hs', hid⟩ := hm' s hs
    obtain ⟨hs'', hi⟩ := hm s hs'
    exact ⟨hs'', by simp [hi, hid]⟩

theorem state_dropRest (c : MemoryRepository) (id : TableId) :
    ∃ snapshots mviews,
      ((dropSnapshotsForTable id false >>= fun _ => call (.deleteMaterializedView id true)) c).state
        = { c with snapshots, mviews } ∧
      (∀ s ∈ snapshots.rows, s ∈ c.snapshots.rows ∧ (s.source = id → s.kind = .user)) ∧
      ∀ v ∈ mviews.rows, v ∈ c.mviews.rows := by
  let auto := (c.catalog.listSnapshotsForTable id).filter fun s => false || s.kind ≠ .user
  obtain ⟨snapshots, hr, hst, hm⟩ :=
    callEach_deleteSnapshot (auto.map SnapshotMeta.snapshotId) c
  rw [List.map_map] at hr hst
  obtain ⟨mviews, ho, hvi⟩ := perform_deleteMaterializedView { c with snapshots } id
  refine ⟨snapshots, mviews, ?_, fun s hs => ⟨(hm s hs).1, fun hsr => ?_⟩, fun v hv => (hvi v hv).1⟩
  · rw [run_bind_of_ok (show (dropSnapshotsForTable id false c).result = .ok () from hr)]
    rw [show (dropSnapshotsForTable id false c).state = { c with snapshots } from hst]
    exact state_call ho
  · -- a snapshot of the table that is still there was none of those deleted
    by_contra hk
    refine (hm s hs).2 (List.mem_map_of_mem (List.mem_filter.2 ⟨?_, by simpa using hk⟩))
    exact Catalog.mem_listSnapshotsForTable.2 ⟨(hm s hs).1, hsr⟩

theorem removed_dropRelation (hg : (c.getTable id).isSome) (n : Bool)
    (hre : ∀ s, deletesSnapshot request s = decide (s.kind ≠ .user)) :
    Removed request id c ((do
      call (.deleteTable id n)
      dropSnapshotsForTable id false
      call (.deleteMaterializedView id true) : CatalogM Unit) c).state := by
  obtain ⟨snapshotId, m, hr, hsn, hm⟩ :=
    state_dropRest { c with tables := c.tables.erase id } id
  rw [(state_call_bind (perform_deleteTable hg n)).trans hr]
  refine ⟨rfl, rfl, rfl, rfl, rfl, hm, fun s hs => ⟨(hsn s hs).1, fun hsr => ?_⟩⟩
  simp [hre, (hsn s hs).2 hsr]

/-- What a request that takes a table off leaves of the catalog. -/
theorem removed_of_removes (h : removes env c request = some id) :
    Removed request id c (serve env request c).state := by
  cases request with
  | deleteTable id' =>
    simp only [removes, ite_none_right_eq_some, some.injEq] at h
    obtain ⟨⟨he, hg⟩, rfl⟩ := h
    rw [serve, deleteTable, state_ask_bind he]
    exact removed_dropRelation hg false fun _ => rfl
  | dropRelation =>
    simp only [removes, ite_none_right_eq_some, some.injEq] at h
    obtain ⟨⟨he, hd, ht, hg⟩, rfl⟩ := h
    rw [serve, dropRelation, state_ask_bind he, syncDroppedRelation, if_neg (not_or.2 ⟨hd, ht⟩)]
    exact removed_dropRelation hg true fun _ => rfl
  | dropSnapshotTable target =>
    simp only [removes, ite_none_right_eq_some, some.injEq, map_eq_some_iff]
      at h
    obtain ⟨⟨he, m, hg, hty⟩, rfl⟩ := h
    obtain ⟨snapshots, ho, hsn⟩ := perform_deleteSnapshot c (userSnapshotId target)
    have hg' : (({ c with snapshots } : MemoryRepository).getTable target).isSome :=
      isSome_iff_exists.2 ⟨m, hg⟩
    have hst : (serve env (.dropSnapshotTable target) c).state =
        { c with snapshots, tables := c.tables.erase target } := by
      refine (state_ask_bind (orNotFound_eq_ok.2 hg)).trans ?_
      rw [if_neg (not_not.2 hty)]
      exact (state_ask_bind he).trans <| (state_call_bind ho).trans <|
        state_call (perform_deleteTable hg' false)
    rw [hst]
    refine ⟨rfl, rfl, rfl, rfl, rfl, fun v hv => hv, fun s hs => ⟨(hsn s hs).1, fun _ => ?_⟩⟩
    simpa [deletesSnapshot] using (hsn s hs).2
  | dropMaterializedView id' =>
    simp only [removes, ite_none_right_eq_some, some.injEq, map_eq_some_iff]
      at h
    obtain ⟨⟨he, m, hg, hty⟩, rfl⟩ := h
    have hg' : (c.getTable id').isSome := isSome_iff_exists.2 ⟨m, hg⟩
    obtain ⟨mviews, ho, hm⟩ :=
      perform_deleteMaterializedView { c with tables := c.tables.erase id' } id'
    have hst : (serve env (.dropMaterializedView id') c).state =
        { c with mviews, tables := c.tables.erase id' } := by
      refine (state_ask_bind (orNotFound_eq_ok.2 hg)).trans ?_
      rw [if_neg (not_not.2 hty)]
      exact (state_ask_bind he).trans <|
        (state_call_bind (perform_deleteTable hg' true)).trans (state_call ho)
    rw [hst]
    exact ⟨rfl, rfl, rfl, rfl, rfl, fun v hv => (hm v hv).1, fun s hs => ⟨hs, fun _ => rfl⟩⟩
  | _ => cases h

end Removal

/-! ## Runs -/

variable (c : MemoryRepository) (x : Surroundings × CatalogRequest)

/-- One request of a run: the catalog goes on as the request left it, also after an error. -/
def Requests.step : Except DomainError MemoryRepository :=
  .ok (serve x.1 x.2 c).state

/-- A table that the request removes has no policies. -/
def NoPoliciesLeft : Prop :=
  ∀ id, removes x.1 c x.2 = some id → ∀ p ∈ c.rowAccess.rows, p.id ≠ id

/-- A table that is removed has no snapshots but those that the request deletes. -/
def NoSnapshotsLeft : Prop :=
  ∀ id, removes x.1 c x.2 = some id →
    ∀ s ∈ c.snapshots.rows, s.source = id → deletesSnapshot x.2 s = true

/-- A table that the request removes has no policies, and no snapshots that stay. -/
def RemovesCleanly : Prop :=
  NoPoliciesLeft c x ∧ NoSnapshotsLeft c x

/-- **New tables start fresh**: nothing is recorded for the name of a table when a request creates
it. -/
def StartsFresh : Prop :=
  ∀ id, c.getTable id = none → ((serve x.1 x.2 c).state.getTable id).isSome →
    (∀ p ∈ c.rowAccess.rows, p.id ≠ id) ∧ ∀ s ∈ c.snapshots.rows, s.source ≠ id

section Runs

variable {w : Prop} {c : MemoryRepository} {x : Surroundings × CatalogRequest}

theorem Sound.removed {id : TableId} {c' : MemoryRepository} (h : Sound w c)
    (hr : Removed request id c c') (hp : ∀ p ∈ c.rowAccess.rows, p.id ≠ id)
    (hsn : w → ∀ s ∈ c.snapshots.rows, s.source = id → deletesSnapshot request s = true) :
    Sound w c' where
  policies := by
    rw [hr.rowAccess, hr.tables]
    exact h.policies.erase_right hp
  tables := by
    rw [hr.datasets, hr.tables]
    exact h.tables.removeIf _
  routines := by
    rw [hr.datasets, hr.routines]
    exact h.routines
  models := by
    rw [hr.datasets, hr.models]
    exact h.models
  mviews := by
    rw [hr.datasets]
    exact h.mviews.mono hr.mviews
  snapshots hw := by
    rw [hr.tables]
    refine ((h.snapshots hw).mono fun s hs => (hr.snapshots s hs).1).erase_right ?_
    -- a snapshot of the removed table would have been deleted
    intro s hs hsr
    obtain ⟨hm, hk⟩ := hr.snapshots s hs
    rw [hsn hw s hm hsr] at hk
    exact absurd (hk hsr) (by decide)

/-- One request keeps the references good if it leaves no policies behind. -/
theorem Sound.step (h : Sound w c) (hp : NoPoliciesLeft c x)
    (hsn : w → NoSnapshotsLeft c x) : Sound w (serve x.1 x.2 c).state := by
  cases hr : removes x.1 c x.2 with
  | none =>
    refine Comp.Traced.invariant (fun _ _ _ hs hsa ho => hs.perform hsa ho)
      (serve_runsSafely h.toReferential hr) h
  | some id =>
    exact h.removed (removed_of_removes hr) (hp id hr)
      fun hw => hsn hw id hr

theorem noPoliciesLeft_of_referential (h : Referential (serve x.1 x.2 c).state) :
    NoPoliciesLeft c x := by
  rintro id hrs p hp rfl
  have hr := removed_of_removes hrs
  have ht := h.policies p (hr.rowAccess ▸ hp)
  rw [hr.tables, get?_erase, if_pos rfl] at ht
  cases ht

theorem Sound.startsFresh (h : Sound True c) : StartsFresh c x := by
  intro id hn _
  have hf : ¬ (c.tables.get? id).isSome := by
    rw [show c.tables.get? id = none from hn]
    decide
  refine ⟨fun p hp heq => hf ?_, fun s hs heq => hf ?_⟩
  · exact heq ▸ h.policies p hp
  · exact heq ▸ h.snapshots trivial s hs

end Runs

/-- **References in every run of requests** are good iff no table is removed while it has policies;
where none is removed with policies or snapshots that stay, new tables start fresh as well. -/
theorem referential_iff (xs : List (Surroundings × CatalogRequest)) :
    (Run.Always step Referential {} xs ↔ Run.EachStep step NoPoliciesLeft {} xs) ∧
      (Run.EachStep step RemovesCleanly {} xs →
        Run.Always step Referential {} xs ∧
          Run.EachStep step StartsFresh {} xs) := by
  constructor
  · refine Run.always_iff_eachStep (I := Sound False) (fun c h => h.toReferential) ?_ ?_
      (sound_empty False)
    · rintro c x _ h hl ⟨⟩
      exact h.step hl False.elim
    · rintro c x _ h ⟨⟩ hr
      exact noPoliciesLeft_of_referential hr
  · intro h
    have hk : ∀ c x c', Sound True c → RemovesCleanly c x → step c x = .ok c' →
        Sound True c' := by
      rintro c x _ hc hcl ⟨⟩
      exact hc.step hcl.1 fun _ => hcl.2
    refine ⟨?_, ?_⟩
    · exact Run.always_of_eachStep (I := Sound True) (fun c hc => hc.toReferential) hk
        (sound_empty True) h
    · exact Run.eachStep_of_eachStep (I := Sound True) (fun c x hc _ => hc.startsFresh) hk
        (sound_empty True) h

/-- The requests that create a table `p.d.t`, put a policy on it, drop it and create it again. -/
def recreatedTable : List (Surroundings × CatalogRequest) :=
  [({}, .insertDataset "p" { datasetReference := some "d" }),
    ({}, .insertTable "p" "d" { tableReference := some "t" }),
    ({}, .createPolicy ⟨"p", "d", "t"⟩ "adults" "age > 17" ["user:ann@example.com"]),
    ({}, .deleteTable ⟨"p", "d", "t"⟩),
    ({}, .insertTable "p" "d" { tableReference := some "t" })]

def adultsOnly : RowAccessPolicyMeta where
  id := ⟨"p", "d", "t"⟩
  policyId := "adults"
  filterPredicate := "age > 17"
  grantees := ["user:ann@example.com"]

/-- **A dropped table leaves its policy**, and the next table of the name starts with it. -/
theorem policy_outlives_table :
    ¬ Run.Always step Referential {} recreatedTable ∧
      ¬ Run.EachStep step StartsFresh {} recreatedTable := by
  constructor
  · intro h
    have hd := ((((h.2 _ rfl).2 _ rfl).2 _ rfl).2 _ rfl).head
    exact absurd (hd.policies adultsOnly (by decide)) (by decide)
  · intro h
    have ha := ((((h _ rfl).2 _ rfl).2 _ rfl).2 _ rfl).2 _ rfl
    exact (ha.1 ⟨"p", "d", "t"⟩ (by rfl) (by decide)).1 adultsOnly (by decide) rfl

end Bqemulator
