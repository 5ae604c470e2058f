import Bqemulator.Jobs.QueryExecution
import Bqemulator.Jobs.Writes
import Bqemulator.Scripting.Effects

/-!
# Immutable tables

The rows of a `SNAPSHOT` are to stay until it is dropped, and those of a materialized view are to
change with its refreshes only. What keeps them is the guard of query jobs, which looks at the one
statement that the parser returns for the text. Load jobs, copy jobs, streaming inserts and later
statements of a script are not guarded.
-/

namespace Bqemulator

open Except List QueryJobEnv

variable {Row Raw τ : Type}

/-! ## The state -/

/-- **The state that requests work on.** `ownOps` logs what the manager of a snapshot or
materialized view does to its own table. -/
structure StoreState (Row τ : Type) where
  store : LoadWorld Row
  ownOps : List TableId
  rest : τ

namespace StoreState

variable (s : StoreState Row τ) (T : TableId)

def typeOf : Option TableType := (s.store.catalog.getTable T).map TableMeta.tableType

def rowsOf : Option (List Row) := (s.store.db.get? T.key).map DuckTable.rows

end StoreState

/-- **An immutable table is as it was.** -/
def Kept (T : TableId) (s s' : StoreState Row τ) : Prop :=
  ∀ type, s.typeOf T = some type → type.isImmutable = true →
    s'.typeOf T = some type ∧ s'.rowsOf T = s.rowsOf T

/-- The managers' log grows, and if `p` holds an immutable table is as it was unless its manager has
worked on it. -/
def KeepsIf (p : Prop) (T : TableId) (s s' : StoreState Row τ) : Prop :=
  ∃ ops, s'.ownOps = s.ownOps ++ ops ∧ (p → T ∉ ops → Kept T s s')

/-- An immutable table is as it was, unless its own manager has worked on it. -/
def KeepsTable (T : TableId) (s s' : StoreState Row τ) : Prop :=
  KeepsIf True T s s'

section

variable {p : Prop} {T : TableId} {s s' s'' : StoreState Row τ}

theorem Kept.refl : Kept T s s := fun _ ht _ => ⟨ht, rfl⟩

theorem Kept.trans (h : Kept T s s') (h' : Kept T s' s'') : Kept T s s'' := by
  intro t ht hi
  obtain ⟨ht', hr⟩ := h t ht hi
  obtain ⟨ht'', hr'⟩ := h' t ht' hi
  exact ⟨ht'', hr'.trans hr⟩

theorem KeepsIf.refl : KeepsIf p T s s :=
  ⟨[], (append_nil _).symm, fun _ _ => Kept.refl⟩

theorem KeepsIf.trans (h : KeepsIf p T s s') (h' : KeepsIf p T s' s'') : KeepsIf p T s s'' := by
  obtain ⟨o, ho, hk⟩ := h
  obtain ⟨o', ho', hk'⟩ := h'
  refine ⟨o ++ o', by rw [ho', ho, append_assoc], fun hp hT => ?_⟩
  rw [mem_append, not_or] at hT
  exact (hk hp hT.1).trans (hk' hp hT.2)

theorem KeepsIf.mono {q : Prop} (h : KeepsIf p T s s') (hi : q → p) : KeepsIf q T s s' := by
  obtain ⟨o, ho, hk⟩ := h
  exact ⟨o, ho, fun hq => hk (hi hq)⟩

theorem KeepsIf.of_kept (ho : s'.ownOps = s.ownOps) (h : p → Kept T s s') : KeepsIf p T s s' :=
  ⟨[], by rw [ho, append_nil], fun hp _ => h hp⟩

theorem Kept.of_eq (ht : s'.store.catalog.tables.get? T = s.store.catalog.tables.get? T)
    (hr : s'.store.db.get? T.key = s.store.db.get? T.key) : Kept T s s' := by
  intro t h _
  refine ⟨?_, congrArg (Option.map DuckTable.rows) hr⟩
  rw [← h]
  exact congrArg (Option.map TableMeta.tableType) ht

end

/-! ## What a text writes -/

/-- None of some tables of the database is the table `T`. -/
def Avoids (T : TableId) (keys : List (String × String)) : Prop :=
  ∀ key ∈ keys, ¬ SamePhysical key T.key

/-- **What a step may change**: the tables with some names in the database, and those whose managers
work on them. -/
def Changes (keys : List (String × String)) (s s' : StoreState Row τ) : Prop :=
  ∃ ops, s'.ownOps = s.ownOps ++ ops ∧ ∀ T ∉ ops, Avoids T keys → Kept T s s'

variable {s : StoreState Row τ} {s' : StoreState Row τ}

theorem Changes.keepsIf {k : List (String × String)}
    (h : Changes k s s') (T : TableId) : KeepsIf (Avoids T k) T s s' := by
  obtain ⟨o, ho, hk⟩ := h
  exact ⟨o, ho, fun ha hT => hk T hT ha⟩

theorem Changes.keepsIf_nil (h : Changes [] s s') (p : Prop) (T : TableId) :
    KeepsIf p T s s' :=
  (h.keepsIf T).mono fun _ => forall_mem_nil _

/-- The texts that an effect hands to the database or the bookkeeping after it, with their projects.
Managers are not among them. -/
def Effect.texts : Effect → List (String × String)
  | .runQuery _ project sql _ | .runQueryWithParams project sql _ _
  | .runStatementWithParams project sql _ _ | .syncDdl project sql => [(project, sql)]
  | _ => []

section Texts

variable (env : QueryJobEnv (StoreState Row τ))
  (written ddlKeys : (project sql : String) → List (String × String))

/-- The tables that a statement writes: the targets it names, and those it creates, replaces,
alters or drops. -/
def QueryJobEnv.writtenKeys (project sql : String) : List (String × String) :=
  (dmlTables (env.script.parseSql sql)).map (fun t => (t.idIn project).key) ++ ddlKeys project sql

def Event.Avoids (T : TableId) : Event (StoreState Row τ) → Prop
  | .effect e _ _ => Bqemulator.Avoids T (e.texts.flatMap fun text => written text.1 text.2)
  | .backup target _ _ _ => ¬ SamePhysical target T.key
  | _ => True

/-- **A text changes no table but those it writes.** A query also refreshes the stale views that it
names, which is logged; a manager changes its own table; backups have names of their own. -/
structure Framed : Prop where
  intercept : ∀ project sql s, Changes [] s (env.intercept project sql s).2
  fastPath : ∀ project sql s, Changes [] s (env.fastPath project sql s).2
  runSingleSql : ∀ project sql s, Changes (written project sql) s (env.runSingleSql project sql s).2
  perform : ∀ e s, Changes (e.texts.flatMap fun text => written text.1 text.2) s
    (env.script.perform e s).2
  backup : ∀ target name s s', env.script.backup target name s = some s' → Changes [] s s'
  restore : ∀ target name s, Changes [target] s (env.script.restore target name s)
  dropBackup : ∀ name s, Changes [] s (env.script.dropBackup name s)

/-- The run of a text does not write `T`: a single statement does not, nor one that a script comes
to. -/
def RunAvoids (T : TableId) (project sql : String) (s : StoreState Row τ) : JobPath → Prop
  | .intercepted | .fastPath => True
  | .single => Avoids T (written project sql)
  | .script => allEvents (Event.Avoids written T)
      (runJobScript env.script env.depth project sql s).trace

/-- Query jobs on the catalog and the database, with a log of what managers do to their tables. -/
def storeEnv (surroundings : TableId → StoreState Row τ → Surroundings) :
    QueryJobEnv (StoreState Row τ) :=
  { env with
    getTable s := s.store.catalog.getTable
    publish id s :=
      let out := Requests.markStale (surroundings id s).subscribed s.store.catalog
      { s with store := { s.store with catalog := out.state } }
    recordChange id s :=
      let out := Requests.recordChange (surroundings id s) id s.store.catalog
      out.result.map fun _ => { s with store := { s.store with catalog := out.state } } }

end Texts

/-! ## Query jobs -/

variable {id : TableId} {project sql : String}

section Query

variable {env : QueryJobEnv (StoreState Row τ)}
  {written : (project sql : String) → List (String × String)}
  {surroundings : TableId → StoreState Row τ → Surroundings}

theorem Framed.worldRule (h : Framed env written) (p : Prop) (T : TableId) :
    WorldRule env.script (fun event => p → event.Avoids written T)
      (fun target => p → ¬ SamePhysical target T.key) (KeepsIf p T) where
  refl _ := KeepsIf.refl
  trans h h' := h.trans h'
  perform e s ha := ((h.perform e s).keepsIf T).mono ha
  backup target name s s' hb ha :=
    ⟨ha, (h.backup target name s s' hb).keepsIf_nil p T⟩
  restore target name s ha := by
    refine ((h.restore target name s).keepsIf T).mono fun hp key hk => ?_
    rw [mem_singleton.1 hk]
    exact ha hp
  dropBackup name s := (h.dropBackup name s).keepsIf_nil p T

theorem keeps_run (h : Framed env written) (T : TableId) (p sql : String) (path : JobPath)
    (s : StoreState Row τ) :
    KeepsIf (RunAvoids env written T p sql s path) T s (env.run p sql path s).2 := by
  cases path with
  | intercepted => exact (h.intercept p sql s).keepsIf_nil _ T
  | fastPath => exact (h.fastPath p sql s).keepsIf_nil _ T
  | single => exact (h.runSingleSql p sql s).keepsIf T
  | script =>
    apply (h.worldRule _ T).runJobScript
    by_cases ha : RunAvoids env written T p sql s .script
    · exact allEvents_mono (fun _ he _ => he) ha
    · exact allEvents_of_forall (fun _ hp => absurd hp ha) _

variable {T : TableId}

theorem keeps_captureTarget
    (h : (storeEnv env surroundings).captureTarget id s = .ok s') : KeepsTable T s s' := by
  unfold captureTarget at h
  cases hm : s.store.catalog.getTable id with
  | none =>
    simp only [storeEnv, hm, ok.injEq] at h
    rw [← h]
    exact KeepsIf.refl
  | some m =>
    cases hi : m.tableType.isImmutable with
    | true =>
      simp only [storeEnv, hm, hi, if_true, ok.injEq] at h
      subst h
      refine KeepsIf.of_kept rfl fun _ => Kept.of_eq ?_ rfl
      exact congrArg (Keyed.get? · T) (markStale_state _ _).2.1
    | false =>
      simp only [storeEnv, hm, hi] at h
      obtain ⟨u, -, rfl⟩ := map_eq_ok_iff.1 h
      refine KeepsIf.of_kept rfl fun _ => Kept.of_eq ?_ rfl
      exact congrArg (Keyed.get? · T) (tables_recordChange _ id _)

theorem keeps_captureEach (T : TableId) (i : List TableId) (s : StoreState Row τ) :
    KeepsTable T s ((storeEnv env surroundings).captureEach i s).2 := by
  induction i generalizing s with
  | nil => exact KeepsIf.refl
  | cons id r ih =>
    rw [captureEach]
    cases hf : (storeEnv env surroundings).captureTarget id s with
    | error e => exact KeepsIf.refl
    | ok s' => exact (keeps_captureTarget hf).trans (ih s')

/-- **What a query job leaves to the guard**: an immutable table is written only if the guard looks
at it. -/
def SparesQuery (env : QueryJobEnv (StoreState Row τ))
    (written : (project sql : String) → List (String × String)) (T : TableId)
    (project sql : String) (s : StoreState Row τ) : Prop :=
  ∀ path, env.path project sql = .ok path →
    RunAvoids env written T project sql s path ∨ T ∈ env.recorded project sql path

theorem keeps_guarded (h : Framed env written) {path : JobPath}
    (hs : RunAvoids env written T project sql s path ∨ T ∈ env.targets project sql) :
    KeepsTable T s ((storeEnv env surroundings).guarded project sql path s).2 := by
  unfold guarded
  cases hg : (storeEnv env surroundings).guard project sql path s with
  | error e => exact KeepsIf.refl
  | ok u =>
    have hr : KeepsTable T s ((storeEnv env surroundings).run project sql path s).2 := by
      obtain ⟨o, ho, hk⟩ := keeps_run h T project sql path s
      refine ⟨o, ho, fun _ hT => ?_⟩
      rcases hs with ha | htg
      · exact hk ha hT
      -- the table is not immutable, since the guard has looked at it
      obtain ⟨u, hre, -⟩ := bind_eq_ok_iff.1 hg
      intro t ht hi
      obtain ⟨m, hm, rfl⟩ := Option.map_eq_some_iff.1 ht
      have hmu := getTable_of_rejectDmlOnImmutable hre T htg m hm
      rw [hi] at hmu
      cases hmu
    rcases hrt : (storeEnv env surroundings).run project sql path s with ⟨e | u, s'⟩
    · rw [hrt] at hr
      exact hr
    · rw [hrt] at hr
      exact hr.trans (keeps_captureEach T _ s')

/-- A query job keeps an immutable table that it spares. -/
theorem keeps_execute (h : Framed env written) (hs : SparesQuery env written T project sql s) :
    KeepsTable T s ((storeEnv env surroundings).execute project sql s).2 := by
  have hp : (storeEnv env surroundings).path project sql = env.path project sql := rfl
  unfold execute
  rw [hp]
  cases hp : env.path project sql with
  | error e => exact KeepsIf.refl
  | ok path =>
    have hs := hs path hp
    cases path with
    | intercepted => exact (h.intercept project sql s).keepsIf_nil True T
    | fastPath => exact (h.fastPath project sql s).keepsIf_nil True T
    | single | script => exact keeps_guarded h hs

/-- The guard sees every statement that names its target as the catalog does. -/
theorem guard_sees_named {d : (p sql : String) → List (String × String)}
    (hds : T.dataset ≠ "") (hta : T.table ≠ "") (hn : ∀ t ∈ dmlTables (env.script.parseSql sql),
      SamePhysical (t.idIn p).key T.key → t.idIn p = T)
    (hd : Avoids T (d p sql)) :
    Avoids T (env.writtenKeys d p sql) ∨ T ∈ env.targets p sql := by
  by_cases htg : ∃ t ∈ dmlTables (env.script.parseSql sql), t.idIn p = T
  · obtain ⟨t, ht, rfl⟩ := htg
    refine .inr (mem_eraseDups.2 (mem_map_of_mem (mem_filter.2 ⟨ht, ?_⟩)))
    exact decide_eq_true ⟨hds, hta⟩
  refine .inl fun key hk => ?_
  rcases mem_append.1 hk with hk | hk
  · obtain ⟨t, ht, rfl⟩ := mem_map.1 hk
    exact fun hs => htg ⟨t, ht, hn t ht hs⟩
  · exact hd key hk

end Query

/-! ## Requests -/

inductive StoreRequest (Raw Row : Type) where
  | query (project sql : String)
  | load (env : LoadEnv Row) (projectId : String) (config : LoadConfiguration)
  | copy (env : CopyEnv Row) (source destination : TableId) (writeDisposition : String)
      (createIfNeeded : Bool)
  | insertAll (env : InsertAllEnv Raw Row) (id : TableId) (rows : List Raw) (skipInvalidRows : Bool)

section Serve

variable (env : QueryJobEnv (StoreState Row τ))
  (surroundings : TableId → StoreState Row τ → Surroundings)
  (written : (project sql : String) → List (String × String))

/-- The state after a program on the catalog and the database, whatever it answers. -/
def StoreState.after {α : Type} (s : StoreState Row τ) (program : LoadM Row α) : StoreState Row τ :=
  { s with store := (program s.store).state }

/-- The state after a request, whatever its answer. -/
def serve (s : StoreState Row τ) : StoreRequest Raw Row → StoreState Row τ
  | .query project sql => ((storeEnv env surroundings).execute project sql s).2
  | .load env projectId config => s.after (handleLoadJobWithAsyncEnvelope env projectId config)
  | .copy env source destination writeDisposition createIfNeeded =>
    s.after (copyTableIntoDestination env source destination writeDisposition createIfNeeded)
  | .insertAll env id rows skipInvalidRows => s.after (insertAll env id rows skipInvalidRows)

/-- **The requests that spare a table**: a query job leaves it to the guard, another write is to
another table. -/
def Spares (T : TableId) (s : StoreState Row τ) : StoreRequest Raw Row → Prop
  | .query project sql => SparesQuery env written T project sql s
  | .load _ projectId config => ¬ SamePhysical (config.destination projectId).key T.key
  | .copy _ _ destination _ _ => ¬ SamePhysical destination.key T.key
  | .insertAll _ id _ _ => ¬ SamePhysical id.key T.key

variable {env surroundings written} {T : TableId}

theorem kept_after {α : Type} {p : LoadM Row α} (h : Touches id.key id p)
    (hn : ¬ SamePhysical id.key T.key) (s : StoreState Row τ) : Kept T s (s.after p) := by
  obtain ⟨hr, he⟩ := h s.store
  refine Kept.of_eq (he T ?_) (hr T.key ?_)
  · rintro rfl
    exact hn ⟨rfl, rfl⟩
  · intro heq
    rw [heq] at hn
    exact hn ⟨rfl, rfl⟩

theorem keeps_after {α : Type} {p : LoadM Row α} (h : Touches id.key id p)
    (hn : ¬ SamePhysical id.key T.key) (s : StoreState Row τ) : KeepsTable T s (s.after p) :=
  KeepsIf.of_kept rfl fun _ => kept_after h hn s

/-- A request that spares an immutable table keeps it. -/
theorem keeps_serve (h : Framed env written) {r : StoreRequest Raw Row}
    (hs : Spares env written T s r) :
    KeepsTable T s (serve env surroundings s r) := by
  cases r with
  | query => exact keeps_execute h hs
  | load env p c =>
    exact keeps_after (.handleLoadJob env p c) hs s
  | copy env source destination w createIfNeeded =>
    exact keeps_after (.copy env source destination w createIfNeeded) hs s
  | insertAll env id rows skip =>
    exact keeps_after (.insertAll env id rows skip) hs s

end Serve

/-- **Immutable tables are kept along every run of requests that spare them**, unless their own
manager has worked on them since. -/
theorem immutable_tables_kept (env : QueryJobEnv (StoreState Row τ))
    (surroundings : TableId → StoreState Row τ → Surroundings)
    (ddlKeys : (project sql : String) → List (String × String))
    (hframed : Framed env (env.writtenKeys ddlKeys)) (T : TableId) (s : StoreState Row τ)
    (requests : List (StoreRequest Raw Row))
    (hspares : Run.EachStep (fun s r => (.ok (serve env surroundings s r) : Except Unit _))
      (Spares env (env.writtenKeys ddlKeys) T) s requests) :
    Run.Always (fun s r => (.ok (serve env surroundings s r) : Except Unit _)) (KeepsTable T s) s
      requests := by
  refine Run.always_of_eachStep (fun _ => id) (fun s' r s'' hk hsp hs => ?_) KeepsIf.refl
    hspares
  cases hs
  exact hk.trans (keeps_serve hframed hsp)

def oneSnapshot : StoreState Nat Unit where
  store := {
    catalog := {
      datasets := Keyed.empty.put { projectId := "p", datasetId := "d" }
      tables := (Keyed.empty.put { id := ⟨"p", "d", "s"⟩, tableType := .snapshot }).put
        { id := ⟨"p", "d", "t"⟩ } }
    db := {
      schemas := ["p__d"]
      tables := (Keyed.empty.put ⟨("p__d", "s"), [], [1]⟩).put ⟨("p__d", "t"), [], []⟩ } }
  ownOps := []
  rest := ()

/-- The tree of a text: an insertion, or the block of two. -/
def insertionTree (sql : String) : Sql :=
  let tree name : Sql := .node .insert [(.this, .leaf (.table { db := "d", name }))]
  if sql = "INSERT d.t; INSERT d.s" then
    .node (.other "Block") [(.expressions, tree "t"), (.expressions, tree "s")]
  else tree (if sql = "INSERT d.s" then "s" else "t")

/-- The database inserts into the table of the statement. -/
def insertOne (project sql : String) (s : StoreState Nat Unit) : StoreState Nat Unit :=
  match dmlTables (insertionTree sql) with
  | [t] => s.after (LoadM.onDb .finish fun db =>
    db.insertInto (t.idIn project).key fun _ => .ok [2])
  | _ => s

def twoInserts : QueryJobEnv (StoreState Nat Unit) where
  script := { ScriptEnv.idle _ with
    parseScript sql :=
      if sql = "INSERT d.t; INSERT d.s" then .ok [.sql "INSERT d.t", .sql "INSERT d.s"]
      else .ok [.sql sql]
    parseSql := insertionTree
    perform e s := (.ok {}, match e with
      | .runQuery _ project sql _ => insertOne project sql s
      | _ => s) }
  depth := 1
  detectDropRoutine _ := false
  isRowAccessDdl _ := false
  intercept _ _ s := (.ok (), s)
  fastPath _ _ s := (.ok (), s)
  guardSingleDdl _ _ _ := .ok ()
  runSingleSql project sql s := (.ok (), insertOne project sql s)
  getTable s := s.store.catalog.getTable
  publish _ s := s
  recordChange _ s := .ok s

theorem framed_twoInserts : Framed twoInserts (twoInserts.writtenKeys fun _ _ => []) := by
  have hs : ∀ k (s : StoreState Nat Unit), Changes k s s :=
    fun k s => ⟨[], (append_nil _).symm, fun _ _ _ => Kept.refl⟩
  have hi : ∀ p sql s,
      Changes (twoInserts.writtenKeys (fun _ _ => []) p sql) s (insertOne p sql s) := by
    intro p sql s
    unfold insertOne
    split
    · rename_i t ht
      refine ⟨[], (append_nil _).symm, fun T _ ha => ?_⟩
      have hn := ha (t.idIn p).key (mem_append_left _ (mem_map.2 ⟨t, ?_, rfl⟩))
      · exact kept_after (.onDb onlyTable_insertInto) hn s
      · exact ht ▸ mem_cons_self
    · exact hs _ s
  refine ⟨fun _ _ s => hs _ s, fun _ _ s => hs _ s, hi, fun e s => ?_,
    fun _ _ s s' h => ?_, fun _ _ s => hs _ s, fun _ s => hs _ s⟩
  · cases e with
    | runQuery isStatement p sql v =>
      simpa [Effect.texts, twoInserts] using hi p sql s
    | _ => exact hs _ s
  · obtain rfl := Option.some.inj h
    exact hs _ s

def anyRow : InsertAllEnv Nat Nat where
  toArrow _ row := .ok row
  convert _ rows := .ok rows
  surroundings := {}

def anyCopy : CopyEnv Nat where
  convert _ _ rows := .ok rows
  surroundings := {}

/-- A statement about the snapshot is refused, and rows are put into the other table: the snapshot
keeps its row. -/
theorem immutable_tables_kept_oneSnapshot :
    Run.Always (fun s r => (.ok (serve twoInserts (fun _ _ => {}) s r) : Except Unit _))
      (KeepsTable ⟨"p", "d", "s"⟩ oneSnapshot) oneSnapshot
      [.query "p" "INSERT d.s", .insertAll anyRow ⟨"p", "d", "t"⟩ [2] false] := by
  refine immutable_tables_kept twoInserts (fun _ _ => {}) (fun _ _ => []) framed_twoInserts
    ⟨"p", "d", "s"⟩ oneSnapshot _ fun s₁ hs₁ => ⟨fun path hp => ?_, fun s₂ hs₂ => ⟨?_, trivial⟩⟩
  · have hs : twoInserts.path "p" "INSERT d.s" = .ok .single := by decide +kernel
    obtain rfl : JobPath.single = path := ok.inj (hs.symm.trans hp)
    refine guard_sees_named (by decide) (by decide) (fun t ht _ => ?_) (forall_mem_nil _)
    obtain rfl := mem_singleton.1 ht
    rfl
  · show ¬ SamePhysical ("p__d", "t") ("p__d", "s")
    decide +kernel

/-- A streaming insert, the second statement of a script and a copy change a snapshot, although a
statement alone is refused. Its manager has no part in that. -/
theorem immutable_table_written :
    let serveOne := fun r : StoreRequest Nat Nat => serve twoInserts (fun _ _ => {}) oneSnapshot r
    let left := fun r => ((serveOne r).ownOps, (serveOne r).rowsOf ⟨"p", "d", "s"⟩)
    oneSnapshot.typeOf ⟨"p", "d", "s"⟩ = some .snapshot ∧
      oneSnapshot.rowsOf ⟨"p", "d", "s"⟩ = some [1] ∧
      left (.query "p" "INSERT d.s") = ([], some [1]) ∧
      left (.query "p" "INSERT d.t; INSERT d.s") = ([], some [1, 2]) ∧
      left (.insertAll anyRow ⟨"p", "d", "s"⟩ [2] false) = ([], some [1, 2]) ∧
      left (.copy anyCopy ⟨"p", "d", "t"⟩ ⟨"p", "d", "s"⟩ "WRITE_TRUNCATE" false) =
        ([], some []) := by
  decide +kernel

end Bqemulator
