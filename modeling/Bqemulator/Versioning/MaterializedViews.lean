import Bqemulator.Catalog.Requests
import Bqemulator.Lib.Derived

/-!
# Materialized views

The rows of a materialized view are stored. A change of a table makes the views stale that name it
in their queries; a query first refreshes the stale views that it names. What stands behind a name,
a view or another materialized view, is not looked at.
-/

namespace Bqemulator

open Comp Keyed MemoryRepository Option Requests

variable {Row : Type}

/-! ## Statements -/

def references (query : Sql) (project : String) : List TableId :=
  match extractBaseTables query project with
  | .ok ids => ids
  | .error _ => []

/-- **How statements are evaluated**: from the contents of the tables they name, in the project of
the statement by default. -/
structure ViewEngine (Row : Type) where
  eval : String × Sql → (TableId → List Row) → List Row
  eval_congr : ∀ b f g, (∀ id ∈ references b.2 b.1, f id = g id) → eval b f = eval b g

def ViewEngine.semantics (E : ViewEngine Row) :
    Derived.Semantics TableId (String × Sql) (List Row) where
  refs b := references b.2 b.1
  eval := E.eval
  eval_congr := E.eval_congr

/-! ## The state -/

structure MvHandler where
  view : TableId
  baseTables : List TableId
deriving DecidableEq

/-- The catalog, the rows of tables and materialized views, and the handlers of the event bus. -/
structure MvWorld (Row : Type) where
  catalog : MemoryRepository
  stored : TableId → List Row
  handlers : List MvHandler

namespace MvWorld

section World

variable (E : ViewEngine Row) (depth : Nat) (w : MvWorld Row) (id : TableId)

def viewBody : Option (String × Sql) :=
  ((w.catalog.getTable id).bind TableMeta.viewBody).map fun query => (id.project, query)

def mvBody : Option (String × Sql) :=
  (w.catalog.mviews.get? id).map fun mv => (id.project, mv.viewQuery)

def body : Option (String × Sql) :=
  (w.viewBody id).or (w.mvBody id)

/-- The rows of a table as the database reads them. -/
def read : TableId → List Row :=
  Derived.valueAt E.semantics w.viewBody w.stored depth

/-- The rows of a table over the current contents of the base tables: materialized views are
expanded too. -/
def current : TableId → List Row :=
  Derived.valueAt E.semantics w.body w.stored depth

def subscribedTo : List TableId :=
  (w.handlers.filter fun handler => id ∈ handler.baseTables).map MvHandler.view

/-- A write to a table that is no view, and the change that is recorded. -/
def recordWrite (env : Surroundings) (id : TableId) (rows : List Row) : MvWorld Row :=
  if (w.body id).isSome then w
  else
    { w with
      stored := Function.update w.stored id rows
      catalog := (recordChange { env with subscribed := w.subscribedTo id } id
        w.catalog).state }

/-- A refresh of a materialized view: its query is run, and its rows are replaced. -/
def refresh (now : Time) (id : TableId) : MvWorld Row :=
  match w.mvBody id with
  | none => w
  | some b =>
    let rows := E.eval b (w.read E depth)
    { w with
      stored := Function.update w.stored id rows
      catalog := (refreshMaterializedView { now, introspected := .ok ([], rows.length) } id
        w.catalog).state }

/-- A view that is stale is refreshed. -/
def refreshIfStale (now : Time) (id : TableId) : MvWorld Row :=
  match w.catalog.mviews.get? id with
  | none => w
  | some mv => if mv.isStale then w.refresh E depth now id else w

def refreshEach (now : Time) (w : MvWorld Row) : List TableId → MvWorld Row
  | [] => w
  | id :: ids =>
    if (w.catalog.getTable id).map TableMeta.tableType = some .materializedView then
      refreshEach now (w.refreshIfStale E depth now id) ids
    else refreshEach now w ids

/-- The refreshes before a query: of the materialized views it names. -/
def refreshDependentMvs (now : Time) (project : String) (query : Sql) : MvWorld Row :=
  if w.catalog.mviews.rows = [] then w else refreshEach E depth now w (references query project)

end World

end MvWorld

/-- The requests: writes, queries and refreshes. -/
inductive MvRequest (Row : Type) where
  | write (env : Surroundings) (id : TableId) (rows : List Row)
  | query (now : Time) (project : String) (query : Sql)
  | refresh (now : Time) (id : TableId)

namespace MvWorld

variable (E : ViewEngine Row) (depth : Nat) (w : MvWorld Row)

/-- The state after a request. -/
def after : MvRequest Row → MvWorld Row
  | .write env id rows => w.recordWrite env id rows
  | .query now project query => w.refreshDependentMvs E depth now project query
  | .refresh now id => w.refresh E depth now id

def step (request : MvRequest Row) : Except DomainError (MvWorld Row) :=
  .ok (w.after E depth request)

/-- What a query returns. -/
def answer (now : Time) (project : String) (query : Sql) : List Row :=
  E.eval (project, query) ((w.refreshDependentMvs E depth now project query).read E depth)

end MvWorld

/-! ## The catalog -/

section Catalog

variable {c : MemoryRepository}

def TableMeta.shape (m : TableMeta) : TableType × Option Sql :=
  (m.tableType, m.viewQuery)

/-- The tables of two catalogs have the same types and bodies. -/
def SameShapes (c c' : MemoryRepository) : Prop :=
  ∀ id, (c'.getTable id).map TableMeta.shape = (c.getTable id).map TableMeta.shape

theorem SameShapes.viewBody {w w' : MvWorld Row} (h : SameShapes w.catalog w'.catalog)
    (id : TableId) : w'.viewBody id = w.viewBody id := by
  have hi := h id
  unfold MvWorld.viewBody
  cases hm : w.catalog.getTable id with
  | none =>
    rw [hm, map_none, map_eq_none_iff] at hi
    rw [hi]
  | some m =>
    rw [hm, map_some, map_eq_some_iff] at hi
    obtain ⟨m', hm', hs⟩ := hi
    obtain ⟨ht, hq⟩ := Prod.mk.inj hs
    rw [hm', bind_some, bind_some, TableMeta.viewBody, TableMeta.viewBody, ht, hq]

theorem SameShapes.tableType {c' : MemoryRepository} (h : SameShapes c c') (id : TableId) :
    (c'.getTable id).map TableMeta.tableType = (c.getTable id).map TableMeta.tableType := by
  have hi := congrArg (Option.map Prod.fst) (h id)
  rw [Option.map_map, Option.map_map] at hi
  exact hi

/-- A materialized view after it is told of a change. -/
def MaterializedViewMeta.markedIf (p : Prop) [Decidable p] (mv : MaterializedViewMeta) :
    MaterializedViewMeta :=
  if p then { mv with isStale := true } else mv

attribute [local simp] MaterializedViewMeta.markedIf

/-- The views that are told become stale, and nothing else happens. -/
theorem markStale_state (views : List TableId) (c : MemoryRepository) :
    (markStale views c).result = .ok () ∧
      (markStale views c).state.tables = c.tables ∧
      ∀ id, (markStale views c).state.mviews.get? id =
        (c.mviews.get? id).map (MaterializedViewMeta.markedIf (id ∈ views)) := by
  induction views generalizing c with
  | nil =>
    refine ⟨rfl, rfl, fun id => ?_⟩
    change c.mviews.get? id = _
    cases c.mviews.get? id <;> rfl
  | cons v views ih =>
    -- the first view, and then the others in the catalog that this leaves
    have hr : ∀ c' : MemoryRepository, c'.tables = c.tables →
        (∀ id, c'.mviews.get? id =
          (c.mviews.get? id).map (MaterializedViewMeta.markedIf (id = v))) →
        (markStale views c').result = .ok () ∧
          (markStale views c').state.tables = c.tables ∧
          ∀ id, (markStale views c').state.mviews.get? id =
            (c.mviews.get? id).map (MaterializedViewMeta.markedIf (id ∈ v :: views)) := by
      intro c' ht hm
      obtain ⟨ho, ht', hm'⟩ := ih c'
      refine ⟨ho, ht'.trans ht, fun id => ?_⟩
      rw [hm', hm, map_map]
      congr 1
      funext mv
      by_cases hi : id = v <;> by_cases hme : id ∈ views <;>
        simp [hi]
    have hsa : (∀ mv, c.mviews.get? v = some mv → mv.isStale = true) → ∀ id,
        c.mviews.get? id = (c.mviews.get? id).map (MaterializedViewMeta.markedIf (id = v)) := by
      intro hs id
      by_cases hi : id = v
      · subst hi
        cases hmv : c.mviews.get? id with
        | none => rfl
        | some mv => simp [← hs mv hmv]
      · cases c.mviews.get? id <;> simp [hi]
    unfold markStale
    rw [run_state_bind]
    cases hmv : c.mviews.get? v with
    | none => exact hr c rfl (hsa (by simp [hmv]))
    | some mv =>
      by_cases hs : mv.isStale
      · simp only [hs]
        exact hr c rfl (hsa (by simp [hmv, hs]))
      simp only [hs]
      refine hr { c with mviews := c.mviews.put { mv with isStale := true } } rfl fun id => ?_
      have hv : mv.id = v := key_of_get? hmv
      refine (get?_put c.mviews { mv with isStale := true } id).trans ?_
      by_cases hi : id = v
      · rw [if_pos (hv.trans hi.symm), hi, hmv]
        simp
      · rw [if_neg fun h => hi (h.symm.trans hv)]
        cases c.mviews.get? id <;> simp [hi]

/-- What a change does: it fails without effect if its snapshot is not taken, and is told to the
subscribed views otherwise. -/
theorem recordChange_cases (env : Surroundings) (id : TableId) (c : MemoryRepository) :
    let taken := env.engine = .ok () ∧ c.snapshots.get?
      (snapshotMeta env.now env.retentionDays id .auto env.hex).snapshotId = none
    ((c.getTable id).isSome ∧ ¬ taken ∧ ∃ e, recordChange env id c = ⟨[], .error e, c⟩) ∨
      ((c.getTable id).isSome → taken) ∧ (recordChange env id c).result = .ok () ∧
        ∃ c' : MemoryRepository, (recordChange env id c).state =
          (markStale env.subscribed c').state ∧
          c'.tables = c.tables ∧ c'.mviews = c.mviews := by
  unfold recordChange
  rw [Comp.run_state_bind]
  by_cases hi : (c.getTable id).isSome
  · simp only [hi, if_true]
    cases hen : env.engine with
    | error e => exact .inl ⟨trivial, by simp, e, by rw [run_ask_error]⟩
    | ok u =>
      rw [run_ask_ok, Requests.call]
      rcases Comp.call_cases MemoryRepository.perform (.createSnapshot (snapshotMeta env.now
          env.retentionDays id .auto env.hex)) c with ⟨c', ho, -⟩ | ⟨e, he, hr⟩
      · rw [Comp.run_call_bind ho]
        obtain ⟨hn, rfl⟩ := createIn_map_eq_ok_iff.1 ho
        exact .inr ⟨fun _ => ⟨rfl, hn⟩, (markStale_state _ _).1, _, rfl, rfl, rfl⟩
      · rw [Comp.run_bind_of_raised hr]
        refine .inl ⟨trivial, fun ht => ?_, e, rfl⟩
        cases he.symm.trans (createIn_map_eq_ok_iff.2 ⟨ht.2, rfl⟩)
  · simp only [hi]
    exact .inr ⟨fun h => (by cases h), (markStale_state _ _).1, c, rfl, rfl, rfl⟩

/-- A change that is recorded is told to the subscribed views; the tables stay as they are. -/
theorem recordChange_state {env : Surroundings} {id : TableId}
    (ho : (recordChange env id c).result = .ok ()) :
    (recordChange env id c).state.tables = c.tables ∧
      ∀ i, (recordChange env id c).state.mviews.get? i =
        (c.mviews.get? i).map (MaterializedViewMeta.markedIf (i ∈ env.subscribed)) := by
  rcases recordChange_cases env id c with ⟨-, -, e, hr⟩ | ⟨-, -, c', hs, ht, hm⟩
  · rw [hr] at ho
    cases ho
  · rw [hs, ← ht, ← hm]
    exact (markStale_state env.subscribed c').2

/-- A refresh of a view that is there makes it fresh; the tables keep their types and bodies. -/
theorem refreshMaterializedView_state (now : Time) (n : Nat) {id : TableId}
    {mv : MaterializedViewMeta} (hmv : c.mviews.get? id = some mv) :
    let c' := (Requests.refreshMaterializedView { now, introspected := .ok ([], n) } id c).state
    SameShapes c c' ∧ ∀ i, c'.mviews.get? i =
      if i = id then some { mv with lastRefreshTime := now, isStale := false }
      else c.mviews.get? i := by
  have hid : mv.id = id := Keyed.key_of_get? hmv
  let mv' : MaterializedViewMeta := { mv with lastRefreshTime := now, isStale := false }
  have hp : ∀ i, (c.mviews.put mv').get? i = if i = id then some mv' else c.mviews.get? i := by
    intro i
    rw [Keyed.get?_put]
    by_cases hi : i = id
    · rw [if_pos hi, if_pos (hid.trans hi.symm)]
    · rw [if_neg hi, if_neg fun h => hi (h.symm.trans hid)]
  unfold refreshMaterializedView
  rw [Comp.run_state_bind]
  simp only [hmv, orNotFound, Option.elim_some, run_ask_ok]
  cases hm : c.getTable id with
  | none => exact ⟨fun i => rfl, hp⟩
  | some m =>
    have hmi : m.id = id := Keyed.key_of_get? hm
    let m' : TableMeta := { m with numRows := n }
    have hu : c.perform (.updateTable m') = .ok { c with tables := c.tables.put m' } := by
      have hs : (c.tables.get? m'.id).isSome := by
        rw [show m'.id = id from hmi, show c.tables.get? id = some m from hm]
        rfl
      rw [MemoryRepository.perform, MemoryRepository.updateTable, updateIn, if_pos hs]
      rfl
    simp only [Requests.call]
    rw [Comp.run_call_bind hu]
    refine ⟨fun i => ?_, hp⟩
    -- only the number of rows of the table has changed
    change Option.map TableMeta.shape ((c.tables.put m').get? i) = _
    rw [Keyed.get?_put]
    by_cases hi : i = id
    · rw [if_pos (hmi.trans hi.symm), hi, hm]
      rfl
    · rw [if_neg fun h => hi (h.symm.trans hmi)]
      rfl

end Catalog

end Bqemulator
