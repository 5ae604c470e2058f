import Bqemulator.Catalog.Requests
import Bqemulator.Lib.Interleaving

/-!
# Concurrent tasks on one materialized view

The tasks that create, drop and refresh a materialized view look at the catalog first and then take
the write lock; create and drop change the subscription once they have released it. No task is
suspended while it holds the lock, so none ever finds it held.
-/

namespace Bqemulator

open Except Keyed MemoryRepository

variable {Contents : Type}

/-! ## The store -/

structure MvSubscription where
  uid : Nat
  baseTables : List TableId
deriving DecidableEq

/-- The catalog, the physical table of the view and its subscription. -/
structure MvStore (Contents : Type) where
  catalog : MemoryRepository
  physical : Option Contents := none
  bus : List MvSubscription := []
  registry : Option MvSubscription := none
  nextUid : Nat := 0

/-- **What the tasks find around them**: the name of the view, the translation of queries, and what
the database makes of one. Base tables do not change. -/
structure MvTaskEnv (Contents : Type) where
  id : TableId
  now : Time := 0
  translate : Sql → Except DomainError String
  run : String → Except DomainError Contents
  describe : Contents → List FieldSchema × Nat

namespace MvTaskEnv

variable (env : MvTaskEnv Contents)

def evaluate (viewQuery : Sql) : Except DomainError Contents := do
  let sql ← env.translate viewQuery
  env.run sql

def viewRef : ResourceRef :=
  ⟨"materialized_view", env.id.project, env.id.dataset, env.id.table⟩

end MvTaskEnv

namespace MvStore

variable (env : MvTaskEnv Contents) (st : MvStore Contents)

/-! ## The parts of the tasks -/

def checkCreate (viewQuery : Sql) : Except DomainError (List TableId × String) := do
  let baseTables ← Requests.validateMaterializedView st.catalog env.id viewQuery
  let _ ← quotedTableRef env.id
  let sql ← env.translate viewQuery
  pure (baseTables, sql)

/-- What a create does under the lock. The table is replaced before its name is registered. -/
def lockedCreate (viewQuery : Sql) (baseTables : List TableId) (sql : String) :
    Except DomainError MaterializedViewMeta × MvStore Contents :=
  match env.run sql with
  | .error e => (.error e, st)
  | .ok contents =>
    let (fields, numRows) := env.describe contents
    match st.catalog.createTable
        { id := env.id, tableType := .materializedView, viewQuery, fields, numRows } with
    | .error e => (.error e, { st with physical := contents })
    | .ok catalog =>
      let mv : MaterializedViewMeta :=
        { id := env.id, viewQuery, baseTables, lastRefreshTime := env.now }
      (.ok mv, { st with physical := contents, catalog := catalog.upsertMaterializedView mv })

variable (mv : MaterializedViewMeta)

def subscribeMv : MvStore Contents :=
  let handler : MvSubscription := ⟨st.nextUid, mv.baseTables⟩
  { st with bus := st.bus ++ [handler], registry := handler, nextUid := st.nextUid + 1 }

def checkDrop : Except DomainError Unit := do
  let existing ← Requests.orNotFound (st.catalog.getTable env.id) env.viewRef
  if existing.tableType ≠ .materializedView then throw (resourceNotFound env.viewRef)
  let _ ← quotedTableRef env.id
  pure ()

/-- What a drop does under the lock. -/
def lockedDrop : Except DomainError Unit × MvStore Contents :=
  match st.catalog.deleteTable env.id true with
  | .error e => (.error e, { st with physical := none })
  | .ok catalog =>
    match catalog.deleteMaterializedView env.id true with
    | .error e => (.error e, { st with physical := none, catalog })
    | .ok catalog => (.ok (), { st with physical := none, catalog })

def unsubscribeMv : MvStore Contents :=
  match st.registry with
  | none => st
  | some handler => { st with bus := st.bus.erase handler, registry := none }

def checkRefresh : Except DomainError String := do
  let sql ← env.translate mv.viewQuery
  let _ ← quotedTableRef mv.id
  pure sql

def recompute (sql : String) : Except DomainError Unit × MvStore Contents :=
  match env.run sql with
  | .error e => (.error e, st)
  | .ok contents =>
    let refreshed : MaterializedViewMeta :=
      { mv with lastRefreshTime := env.now, isStale := false }
    match st.catalog.getTable env.id with
    | none =>
      (.ok (), { st with
        physical := contents
        catalog := st.catalog.upsertMaterializedView refreshed })
    | some m =>
      match st.catalog.updateTable { m with numRows := (env.describe contents).2 } with
      | .error e => (.error e, { st with physical := contents })
      | .ok catalog =>
        (.ok (), { st with
          physical := contents
          catalog := catalog.upsertMaterializedView refreshed })

/-- What a refresh does under the lock. One that is not forced looks again whether the view is
stale. -/
def lockedRefresh (sql : String) (force : Bool) : Except DomainError Unit × MvStore Contents :=
  if force then st.recompute env mv sql
  else match st.catalog.mviews.get? env.id with
    | none => (.ok (), st)
    | some fresh => if fresh.isStale then st.recompute env fresh sql else (.ok (), st)

end MvStore

/-! ## Tasks -/

structure MvServer (Contents : Type) where
  store : MvStore Contents
  locked : Bool := false

/-- `async with engine.write_lock()`: the lock is taken and released around a body without
suspension. -/
def MvServer.underLock {α : Type} (server : MvServer Contents)
    (body : MvStore Contents → α × MvStore Contents) : α × MvServer Contents :=
  let held := { server with locked := true }
  let run := body held.store
  (run.1, { held with store := run.2, locked := false })

inductive MvTask where
  | create (viewQuery : Sql)
  | drop
  | refresh
  | refreshIfStale

inductive MvOutcome where
  | created
  | dropped
  | refreshed
  | failed (e : DomainError)
deriving DecidableEq

/-- A task at the lock, with what it has looked at. -/
inductive MvAtLock where
  | creating (viewQuery : Sql) (baseTables : List TableId) (sql : String)
  | dropping
  | refreshing (mv : MaterializedViewMeta) (sql : String) (force : Bool)

/-- Where a task is: at its start, suspended at the lock, or at its end. -/
inductive MvStage where
  | start (task : MvTask)
  | suspended (task : MvAtLock)
  | finished (outcome : MvOutcome)

section Tasks

variable (env : MvTaskEnv Contents)

/-- What a task looks at before it takes the lock; it may end there. -/
def MvTask.begin (st : MvStore Contents) : MvTask → Except MvOutcome MvAtLock
  | create viewQuery =>
    match st.checkCreate env viewQuery with
    | .error e => .error (.failed e)
    | .ok (baseTables, sql) => .ok (.creating viewQuery baseTables sql)
  | drop =>
    match st.checkDrop env with
    | .error e => .error (.failed e)
    | .ok () => .ok .dropping
  | refresh =>
    match st.catalog.mviews.get? env.id with
    | none => .error (.failed (resourceNotFound env.viewRef))
    | some mv =>
      match MvStore.checkRefresh env mv with
      | .error e => .error (.failed e)
      | .ok sql => .ok (.refreshing mv sql true)
  | refreshIfStale =>
    match st.catalog.mviews.get? env.id with
    | none => .error .refreshed
    | some mv =>
      if mv.isStale then
        match MvStore.checkRefresh env mv with
        | .error e => .error (.failed e)
        | .ok sql => .ok (.refreshing mv sql false)
      else .error .refreshed

variable (server : MvServer Contents)

/-- What a task does from the lock to its end. -/
def MvAtLock.complete : MvAtLock → MvOutcome × MvServer Contents
  | creating viewQuery baseTables sql =>
    match server.underLock fun st => st.lockedCreate env viewQuery baseTables sql with
    | (.error e, server) => (.failed e, server)
    | (.ok mv, server) => (.created, { server with store := server.store.subscribeMv mv })
  | dropping =>
    match server.underLock fun st => st.lockedDrop env with
    | (.error e, server) => (.failed e, server)
    | (.ok (), server) => (.dropped, { server with store := server.store.unsubscribeMv })
  | refreshing mv sql force =>
    match server.underLock fun st => st.lockedRefresh env mv sql force with
    | (.error e, server) => (.failed e, server)
    | (.ok (), server) => (.refreshed, server)

/-- Taking the lock: a task is suspended if the lock is held, and goes on to its end if not. -/
def MvAtLock.acquire (task : MvAtLock) : MvStage × MvServer Contents :=
  if server.locked then (.suspended task, server)
  else
    let run := task.complete env server
    (.finished run.1, run.2)

/-- What a task does until it is suspended or ends. -/
def MvStage.advance : MvStage → MvServer Contents → MvStage × MvServer Contents
  | start task, server =>
    match task.begin env server.store with
    | .error outcome => (finished outcome, server)
    | .ok task => task.acquire env server
  | suspended task, server => task.acquire env server
  | finished outcome, server => (finished outcome, server)

end Tasks

/-! ## The parts of a view -/

namespace MvStore

variable (env : MvTaskEnv Contents) (st : MvStore Contents)

/-- **A view is registered**: it has an entry as a table and one as a view, with one query, and a
table with the contents and columns of that. -/
structure Registered (mv : MaterializedViewMeta) (m : TableMeta) (contents : Contents) : Prop where
  table : st.catalog.getTable env.id = some m
  tableType : m.tableType = .materializedView
  viewQuery : m.viewQuery = some mv.viewQuery
  view : st.catalog.mviews.get? env.id = some mv
  physical : st.physical = some contents
  evaluate : env.evaluate mv.viewQuery = .ok contents
  fields : m.fields = (env.describe contents).1

/-- Nothing of a view is there, but maybe a subscription. -/
structure Unregistered : Prop where
  table : st.catalog.getTable env.id = none
  view : st.catalog.mviews.get? env.id = none
  physical : st.physical = none

/-- There is one handler, on the bus and in the registry, for some tables. -/
def Subscribed (baseTables : List TableId) : Prop :=
  ∃ handler : MvSubscription, handler.baseTables = baseTables ∧ st.bus = [handler] ∧
    st.registry = some handler

def Unsubscribed : Prop :=
  st.bus = [] ∧ st.registry = none

/-- **The view is there with all its parts, or not at all.** -/
def Whole : Prop :=
  (∃ mv m contents, st.Registered env mv m contents ∧ st.Subscribed mv.baseTables) ∨
    st.Unregistered env ∧ st.Unsubscribed

variable {env st} {mv : MaterializedViewMeta} {m : TableMeta} {contents : Contents}
  {viewQuery : Sql} {sql : String}

theorem Registered.not_unregistered (h : st.Registered env mv m contents) :
    ¬st.Unregistered env := by
  intro h'
  cases h.table.symm.trans h'.table

theorem checkCreate_eq_ok {baseTables : List TableId}
    (h : st.checkCreate env viewQuery = .ok (baseTables, sql)) :
    st.catalog.getTable env.id = none ∧
      (st.catalog.datasets.get? (env.id.project, env.id.dataset)).isSome ∧
      env.translate viewQuery = .ok sql := by
  obtain ⟨b, hv, h⟩ := bind_eq_ok_iff.1 h
  obtain ⟨_, -, h⟩ := bind_eq_ok_iff.1 h
  obtain ⟨s', hs, h⟩ := bind_eq_ok_iff.1 h
  obtain ⟨_, hf, hv⟩ := bind_eq_ok_iff.1 hv
  obtain ⟨_, hd, -⟩ := bind_eq_ok_iff.1 hv
  cases h
  refine ⟨?_, ?_, hs⟩
  · cases ht : st.catalog.getTable env.id with
    | none => rfl
    | some m =>
      rw [ht] at hf
      cases hf
  · cases hds : st.catalog.datasets.get? (env.id.project, env.id.dataset) with
    | none =>
      rw [hds] at hd
      cases hd
    | some m => rfl

theorem checkDrop_eq_ok (h : st.checkDrop env = .ok ()) :
    (st.catalog.getTable env.id).isSome := by
  obtain ⟨m, hm, -⟩ := bind_eq_ok_iff.1 h
  cases ht : st.catalog.getTable env.id with
  | none =>
    rw [ht] at hm
    cases hm
  | some m => rfl

theorem checkRefresh_eq_ok (h : checkRefresh env mv = .ok sql) :
    env.translate mv.viewQuery = .ok sql := by
  obtain ⟨s', hs, h⟩ := bind_eq_ok_iff.1 h
  obtain ⟨_, -, h⟩ := bind_eq_ok_iff.1 h
  cases h
  exact hs

theorem evaluate_eq (h : env.translate viewQuery = .ok sql) :
    env.evaluate viewQuery = env.run sql := by
  rw [MvTaskEnv.evaluate, h]
  rfl

/-- A create on a free name registers the view, or fails without a change. -/
theorem lockedCreate_cases (h : st.Unregistered env)
    (hd : (st.catalog.datasets.get? (env.id.project, env.id.dataset)).isSome)
    (hs : env.translate viewQuery = .ok sql) (baseTables : List TableId) :
    (∃ e, st.lockedCreate env viewQuery baseTables sql = (.error e, st)) ∨
      ∃ mv m contents st', st.lockedCreate env viewQuery baseTables sql = (.ok mv, st') ∧
        st'.Registered env mv m contents ∧ st'.bus = st.bus ∧ st'.registry = st.registry := by
  unfold lockedCreate
  cases hr : env.run sql with
  | error e => exact .inl ⟨e, rfl⟩
  | ok contents =>
    let m : TableMeta :=
      { id := env.id
        tableType := .materializedView
        viewQuery
        fields := (env.describe contents).1
        numRows := (env.describe contents).2 }
    have hc : st.catalog.createTable m =
        .ok { st.catalog with tables := st.catalog.tables.put m } :=
      MemoryRepository.createTable_eq_ok_iff.2 ⟨h.table, hd, rfl⟩
    simp only
    rw [hc]
    refine .inr ⟨_, m, contents, _, rfl, ?_, rfl, rfl⟩
    exact {
      table := (get?_put st.catalog.tables m env.id).trans (if_pos rfl)
      tableType := rfl
      viewQuery := rfl
      view := (get?_put st.catalog.mviews _ env.id).trans (if_pos rfl)
      physical := rfl
      evaluate := (evaluate_eq hs).trans hr
      fields := rfl }

/-- A drop of a registered view leaves nothing of it, but its subscription. -/
theorem lockedDrop_of_registered (h : st.Registered env mv m contents) :
    ∃ st', st.lockedDrop env = (.ok (), st') ∧ st'.Unregistered env ∧ st'.bus = st.bus ∧
      st'.registry = st.registry := by
  have ht : (st.catalog.tables.get? env.id).isSome := by
    rw [show st.catalog.tables.get? env.id = some m from h.table]
    rfl
  have hv : (st.catalog.mviews.get? env.id).isSome := by
    rw [h.view]
    rfl
  have hd : st.catalog.deleteTable env.id true =
      .ok { st.catalog with tables := st.catalog.tables.erase env.id } := by
    rw [deleteTable, deleteFrom, if_pos ht]
    rfl
  unfold lockedDrop
  rw [hd]
  simp only [deleteMaterializedView, deleteFrom, if_pos hv]
  refine ⟨_, rfl, ⟨?_, ?_, rfl⟩, rfl, rfl⟩
  · exact (get?_erase st.catalog.tables env.id env.id).trans (if_pos rfl)
  · exact (get?_erase st.catalog.mviews env.id env.id).trans (if_pos rfl)

theorem recompute_of_registered (h : st.Registered env mv m contents)
    (hs : env.translate mv.viewQuery = .ok sql) :
    (∃ result, st.recompute env mv sql = (result, st)) ∨
      ∃ new m' st', st.recompute env mv sql = (.ok (), st') ∧
        st'.Registered env new m' contents ∧ new.baseTables = mv.baseTables ∧
        st'.bus = st.bus ∧ st'.registry = st.registry := by
  have he := h.evaluate
  rw [evaluate_eq hs] at he
  have hm : m.id = env.id := key_of_get? h.table
  let new : MaterializedViewMeta := { mv with lastRefreshTime := env.now, isStale := false }
  let m' : TableMeta := { m with numRows := (env.describe contents).2 }
  have hu : st.catalog.updateTable m' =
      .ok { st.catalog with tables := st.catalog.tables.put m' } := by
    have hso : (st.catalog.tables.get? m'.id).isSome := by
      rw [show m'.id = env.id from hm, show st.catalog.tables.get? env.id = some m from h.table]
      rfl
    rw [updateTable, updateIn, if_pos hso]
    rfl
  unfold recompute
  rw [he]
  simp only [h.table]
  rw [hu]
  refine .inr ⟨new, m', _, rfl, ?_, rfl, rfl, rfl⟩
  exact {
    table := (get?_put st.catalog.tables m' env.id).trans (if_pos hm)
    tableType := h.tableType
    viewQuery := h.viewQuery
    view := (get?_put st.catalog.mviews new env.id).trans (if_pos (key_of_get? h.view))
    physical := rfl
    evaluate := (evaluate_eq hs).trans he
    fields := h.fields }

/-- A refresh under the lock leaves a registered view registered. -/
theorem lockedRefresh_of_registered (h : st.Registered env mv m contents)
    (hs : env.translate mv.viewQuery = .ok sql) (force : Bool) :
    (∃ result, st.lockedRefresh env mv sql force = (result, st)) ∨
      ∃ new m' st', st.lockedRefresh env mv sql force = (.ok (), st') ∧
        st'.Registered env new m' contents ∧ new.baseTables = mv.baseTables ∧
        st'.bus = st.bus ∧ st'.registry = st.registry := by
  have hrun := recompute_of_registered h hs
  unfold lockedRefresh
  cases force with
  | true => exact hrun
  | false =>
    simp only [h.view]
    by_cases hstale : mv.isStale
    · simpa [hstale] using hrun
    · exact .inl ⟨.ok (), by simp [hstale]⟩

theorem Whole.refreshed {st' : MvStore Contents} {new : MaterializedViewMeta} {m' : TableMeta}
    (h : st.Whole env) (hold : st.Registered env mv m contents)
    (hnew : st'.Registered env new m' contents) (hbase : new.baseTables = mv.baseTables)
    (hbus : st'.bus = st.bus) (hregistry : st'.registry = st.registry) : st'.Whole env := by
  rcases h with ⟨mv', _, _, hr, handler, hb, hbus', hregistry'⟩ | ⟨hu, -⟩
  · obtain rfl : mv = mv' := Option.some.inj (hold.view.symm.trans hr.view)
    exact .inl ⟨new, m', contents, hnew, handler, hb.trans hbase.symm, hbus.trans hbus',
      hregistry.trans hregistry'⟩
  · exact absurd hu hold.not_unregistered

/-- Whether the view is registered, as a number. -/
def present (env : MvTaskEnv Contents) (st : MvStore Contents) : Nat :=
  if (st.catalog.getTable env.id).isSome then 1 else 0

theorem present_of_registered (h : st.Registered env mv m contents) : st.present env = 1 := by
  rw [present, h.table]
  rfl

theorem present_of_unregistered (h : st.Unregistered env) : st.present env = 0 := by
  rw [present, h.table]
  rfl

end MvStore

/-! ## Steps -/

open MvStage MvStore

namespace MvOutcome

def made : MvOutcome → Nat
  | created => 1
  | _ => 0

def gone : MvOutcome → Nat
  | dropped => 1
  | _ => 0

end MvOutcome

/-- **What a task does to a view that is whole**: it leaves it whole and the lock free, a create
that succeeds has found none and a drop that succeeds has left none. -/
structure TaskKeeps (env : MvTaskEnv Contents) (st : MvStore Contents)
    (run : MvOutcome × MvServer Contents) : Prop where
  unlocked : run.2.locked = false
  whole : run.2.store.Whole env
  count : run.1.made + st.present env = run.1.gone + run.2.store.present env

section Tasks

variable {env : MvTaskEnv Contents} {st : MvStore Contents}

theorem taskKeeps_same (h : st.Whole env) {outcome : MvOutcome} (hm : outcome.made = 0)
    (hg : outcome.gone = 0) : TaskKeeps env st (outcome, ⟨st, false⟩) :=
  ⟨rfl, h, by simp only [hm, hg]⟩

theorem taskKeeps_create (h : st.Whole env) {viewQuery : Sql} {baseTables : List TableId}
    {sql : String} (hc : st.checkCreate env viewQuery = .ok (baseTables, sql)) :
    TaskKeeps env st ((MvAtLock.creating viewQuery baseTables sql).complete env ⟨st, false⟩) := by
  obtain ⟨hfree, hd, hsql⟩ := checkCreate_eq_ok hc
  obtain ⟨hun, hunsubscribed⟩ : st.Unregistered env ∧ st.Unsubscribed := by
    rcases h with ⟨_, _, _, hr, -⟩ | hu
    · cases hr.table.symm.trans hfree
    · exact hu
  simp only [MvAtLock.complete, MvServer.underLock]
  rcases lockedCreate_cases hun hd hsql baseTables with
    ⟨e, hrun⟩ | ⟨mv, m, contents, st', hrun, hr, hbus, -⟩
  · rw [hrun]
    exact taskKeeps_same h rfl rfl
  · have hr' : (st'.subscribeMv mv).Registered env mv m contents :=
      ⟨hr.table, hr.tableType, hr.viewQuery, hr.view, hr.physical, hr.evaluate, hr.fields⟩
    rw [hrun]
    refine ⟨rfl, .inl ⟨mv, m, contents, hr', ⟨st'.nextUid, mv.baseTables⟩, rfl, ?_, rfl⟩, ?_⟩
    · change st'.bus ++ _ = _
      rw [hbus, hunsubscribed.1]
      rfl
    · rw [present_of_unregistered hun, present_of_registered hr']
      rfl

theorem taskKeeps_drop (h : st.Whole env) (hc : st.checkDrop env = .ok ()) :
    TaskKeeps env st (MvAtLock.dropping.complete env ⟨st, false⟩) := by
  have hsome := checkDrop_eq_ok hc
  rcases h with ⟨mv, m, contents, hr, handler, -, hbus, hregistry⟩ | ⟨hu, -⟩
  · obtain ⟨st', hrun, hu, hbus', hregistry'⟩ := lockedDrop_of_registered hr
    have hcleared : st'.unsubscribeMv = { st' with bus := [], registry := none } := by
      rw [unsubscribeMv, hregistry', hregistry, hbus', hbus]
      simp
    have hu' : (st'.unsubscribeMv).Unregistered env := by
      rw [hcleared]
      exact ⟨hu.table, hu.view, hu.physical⟩
    simp only [MvAtLock.complete, MvServer.underLock, hrun]
    refine ⟨rfl, .inr ⟨hu', ?_⟩, ?_⟩
    · rw [hcleared]
      exact ⟨rfl, rfl⟩
    · rw [present_of_registered hr, present_of_unregistered hu']
      rfl
  · rw [hu.table] at hsome
    cases hsome

theorem taskKeeps_refresh (h : st.Whole env) {mv : MaterializedViewMeta} {sql : String}
    (hview : st.catalog.mviews.get? env.id = some mv) (hc : checkRefresh env mv = .ok sql)
    (force : Bool) :
    TaskKeeps env st ((MvAtLock.refreshing mv sql force).complete env ⟨st, false⟩) := by
  obtain ⟨m, contents, hr⟩ : ∃ m contents, st.Registered env mv m contents := by
    rcases id h with ⟨mv', m, contents, hr, -⟩ | ⟨hu, -⟩
    · obtain rfl : mv = mv' := Option.some.inj (hview.symm.trans hr.view)
      exact ⟨m, contents, hr⟩
    · cases hview.symm.trans hu.view
  simp only [MvAtLock.complete, MvServer.underLock]
  rcases lockedRefresh_of_registered hr (checkRefresh_eq_ok hc) force with
    ⟨result, hrun⟩ | ⟨new, m', st', hrun, hnew, hbase, hbus, hregistry⟩
  · rw [hrun]
    cases result <;> exact taskKeeps_same h rfl rfl
  · rw [hrun]
    refine ⟨rfl, h.refreshed hr hnew hbase hbus hregistry, ?_⟩
    rw [present_of_registered hr, present_of_registered hnew]
    rfl

/-- A task that finds the lock free ends, and keeps the view whole. -/
theorem taskKeeps_start (h : st.Whole env) (task : MvTask) :
    ∃ run, (start task).advance env ⟨st, false⟩ = (.finished run.1, run.2) ∧
      TaskKeeps env st run := by
  have hended : ∀ outcome : MvOutcome, outcome.made = 0 → outcome.gone = 0 →
      ∃ run : MvOutcome × MvServer Contents,
        (MvStage.finished outcome, (⟨st, false⟩ : MvServer _)) =
        (.finished run.1, run.2) ∧ TaskKeeps env st run :=
    fun outcome hm hg => ⟨(outcome, _), rfl, taskKeeps_same h hm hg⟩
  cases task with
  | create viewQuery =>
    simp only [MvStage.advance, MvTask.begin]
    cases hc : st.checkCreate env viewQuery with
    | error e => exact hended _ rfl rfl
    | ok => exact ⟨_, rfl, taskKeeps_create h hc⟩
  | drop =>
    simp only [MvStage.advance, MvTask.begin]
    cases hc : st.checkDrop env with
    | error e => exact hended _ rfl rfl
    | ok => exact ⟨_, rfl, taskKeeps_drop h hc⟩
  | refresh =>
    simp only [MvStage.advance, MvTask.begin]
    cases hview : st.catalog.mviews.get? env.id with
    | none => exact hended _ rfl rfl
    | some mv =>
      simp only
      cases hc : checkRefresh env mv with
      | error e => exact hended _ rfl rfl
      | ok => exact ⟨_, rfl, taskKeeps_refresh h hview hc true⟩
  | refreshIfStale =>
    simp only [MvStage.advance, MvTask.begin]
    cases hview : st.catalog.mviews.get? env.id with
    | none => exact hended _ rfl rfl
    | some mv =>
      cases hstale : mv.isStale with
      | false =>
        simp only [hstale, Bool.false_eq_true, if_false]
        exact hended _ rfl rfl
      | true =>
        simp only [hstale, if_true]
        cases hc : checkRefresh env mv with
        | error e => exact hended _ rfl rfl
        | ok => exact ⟨_, rfl, taskKeeps_refresh h hview hc false⟩

end Tasks

/-! ## Runs -/

open Interleaving (System)

def MvStage.outcome? : MvStage → Option MvOutcome
  | finished outcome => some outcome
  | _ => none

def MvStage.ended (outcome : MvOutcome) (stage : MvStage) : Bool :=
  stage.outcome? = some outcome

def mvStep (env : MvTaskEnv Contents) :
    System MvStage (MvServer Contents) → Nat → Except Unit (System MvStage (MvServer Contents)) :=
  Interleaving.step (MvStage.advance env) ()

/-- **The property**: once all tasks have finished the view is whole, and at most one create more
than drops has succeeded. -/
def LeavesWhole (env : MvTaskEnv Contents) (sys : System MvStage (MvServer Contents)) : Prop :=
  (∀ stage ∈ sys.tasks, stage.outcome?.isSome) →
    sys.store.store.Whole env ∧
      sys.tasks.countP (ended .created) ≤ sys.tasks.countP (ended .dropped) + 1

/-- **The invariant of a run**: the lock is free and no task is suspended there, the view is whole,
and creates and drops that have succeeded are as many, up to what is there now and was there at
first. -/
structure MvOrderly (env : MvTaskEnv Contents) (first : Nat)
    (sys : System MvStage (MvServer Contents)) : Prop where
  awake : ∀ stage ∈ sys.tasks, (∃ task, stage = .start task) ∨ ∃ outcome, stage = .finished outcome
  unlocked : sys.store.locked = false
  whole : sys.store.store.Whole env
  count : sys.tasks.countP (ended .created) + first =
    sys.tasks.countP (ended .dropped) + sys.store.store.present env

theorem ended_finished (outcome : MvOutcome) :
    (if ended .created (.finished outcome) then 1 else 0) = outcome.made ∧
      (if ended .dropped (.finished outcome) then 1 else 0) = outcome.gone := by
  cases outcome <;> simp [ended, outcome?, MvOutcome.made, MvOutcome.gone]

namespace MvOrderly

variable {env : MvTaskEnv Contents} {first : Nat} {sys sys' : System MvStage (MvServer Contents)}
  {k : Nat}

theorem step (h : MvOrderly env first sys) (hstep : mvStep env sys k = .ok sys') :
    MvOrderly env first sys' := by
  obtain ⟨stage, hk, rfl⟩ := Interleaving.step_eq_ok hstep
  obtain ⟨tasks, st, locked⟩ := sys
  obtain rfl : locked = false := h.unlocked
  -- the task ends in this step, and has what it needs to keep the view whole
  obtain ⟨run, hadvance, hkeeps⟩ : ∃ run : MvOutcome × MvServer Contents,
      stage.advance env ⟨st, false⟩ = (.finished run.1, run.2) ∧ run.2.locked = false ∧
        run.2.store.Whole env ∧
        run.1.made + (if ended .dropped stage then 1 else 0) + st.present env =
          run.1.gone + (if ended .created stage then 1 else 0) + run.2.store.present env := by
    rcases h.awake stage (List.mem_iff_getElem?.2 ⟨k, hk⟩) with ⟨task, rfl⟩ | ⟨outcome, rfl⟩
    · obtain ⟨run, hadvance, hkeeps⟩ := taskKeeps_start h.whole task
      exact ⟨run, hadvance, hkeeps.unlocked, hkeeps.whole,
        by simpa [ended, outcome?] using hkeeps.count⟩
    · refine ⟨(outcome, ⟨st, false⟩), rfl, rfl, h.whole, ?_⟩
      rw [(ended_finished outcome).1, (ended_finished outcome).2, Nat.add_comm outcome.made]
  obtain ⟨hunlocked, hwhole, hcount⟩ := hkeeps
  rw [hadvance]
  refine ⟨fun x hx => ?_, hunlocked, hwhole, ?_⟩
  · rcases Interleaving.mem_set hk hx with rfl | ⟨j, -, hj⟩
    · exact .inr ⟨run.1, rfl⟩
    · exact h.awake x (List.mem_iff_getElem?.2 ⟨j, hj⟩)
  · have hcreated := Interleaving.countP_step (ended .created) (.finished run.1) hk
    have hdropped := Interleaving.countP_step (ended .dropped) (.finished run.1) hk
    rw [(ended_finished run.1).1] at hcreated
    rw [(ended_finished run.1).2] at hdropped
    have hbefore := h.count
    simp only at hbefore hcreated hdropped ⊢
    omega

theorem leavesWhole (h : MvOrderly env first sys) : LeavesWhole env sys := by
  intro _
  have hpresent : sys.store.store.present env ≤ 1 := by
    unfold present
    split <;> omega
  have hcount := h.count
  exact ⟨h.whole, by omega⟩

end MvOrderly

/-- **Tasks on one materialized view.** In every interleaving of tasks on a view that is whole at
first, the view is whole once all tasks have finished. -/
theorem mv_tasks_whole (env : MvTaskEnv Contents) (tasks : List MvTask) {st : MvStore Contents}
    (hwhole : st.Whole env) (schedule : List Nat) :
    Run.Always (mvStep env) (LeavesWhole env) ⟨tasks.map .start, ⟨st, false⟩⟩ schedule := by
  have hstart : MvOrderly env (st.present env) ⟨tasks.map .start, ⟨st, false⟩⟩ := by
    refine ⟨fun stage hm => ?_, rfl, hwhole, ?_⟩
    · obtain ⟨task, -, rfl⟩ := List.mem_map.1 hm
      exact .inl ⟨task, rfl⟩
    have hnone : ∀ outcome, (tasks.map start).countP (ended outcome) = 0 := by
      intro outcome
      refine List.countP_eq_zero.2 fun stage hm => ?_
      obtain ⟨task, -, rfl⟩ := List.mem_map.1 hm
      simp [ended, outcome?]
    rw [hnone, hnone]
  exact Run.always_of_invariant (fun _ h => h.leavesWhole) (fun _ _ _ h hs => h.step hs) hstart
    schedule

def selectTable (name : String) : Sql := .selectStar (.table { db := "d", name })

/-- The view `p.d.v`, in a database in which the contents of a query are the name of the table it
reads. -/
def racedView : MvTaskEnv String where
  id := ⟨"p", "d", "v"⟩
  translate viewQuery := (Requests.extractBaseTables viewQuery "p").map fun baseTables =>
    (baseTables.map TableId.table).headD ""
  run := .ok
  describe name := ([{ name, type := "INT64" }], 0)

def withoutView : MvStore String where
  catalog :=
    { datasets := Keyed.empty.put { projectId := "p", datasetId := "d" }
      tables := (Keyed.empty.put { id := ⟨"p", "d", "t"⟩ }).put { id := ⟨"p", "d", "u"⟩ } }

def twoCreates : System MvStage (MvServer String) :=
  ⟨[MvTask.create (selectTable "t"), .create (selectTable "u")].map .start, ⟨withoutView, false⟩⟩

/-- Of two creates the first to go on succeeds, and its query is the one that is materialized. -/
theorem mv_tasks_whole_twoCreates :
    (([1, 0].foldlM (mvStep racedView) twoCreates).toOption.map fun sys =>
      (sys.tasks.map outcome?, sys.store.store.physical)) =
        some ([some (.failed (resourceAlreadyExists racedView.id.resourceRef)), some .created],
          some "u") ∧
      Run.Always (mvStep racedView) (LeavesWhole racedView) twoCreates [1, 0] :=
  ⟨by decide +kernel, mv_tasks_whole racedView _
    (.inr ⟨⟨by decide, by decide, rfl⟩, rfl, rfl⟩) [1, 0]⟩

end Bqemulator
