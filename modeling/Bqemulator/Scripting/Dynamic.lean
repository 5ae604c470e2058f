import Bqemulator.Scripting.Interpreter

/-!
# Dynamic statements

`EXECUTE IMMEDIATE` of a text should do what the statement does. The dynamic path registers models,
and hands every other text to the database: transactions, the managers of snapshots, materialized
views and exports, the guard and the bookkeeping are left out.
-/

namespace Bqemulator

open Comp Except Option

variable {σ : Type}

/-- The two fail, or succeed and leave the same state. -/
def SameEffect (c d : ScriptM σ Unit) (s : Interp σ) : Prop :=
  (∃ s', Yields c s () s' ∧ Yields d s () s') ∨
    (∃ e s', Raises c s e s') ∧ ∃ e s', Raises d s e s'

section Laws

variable (env : ScriptEnv σ) (project : String) (sql : String) (s : Interp σ)

def staticAnswer (w : σ) : Except Failure ResultTable × σ :=
  env.perform (.runQuery true project sql (allVisible s.frames)) w

def dynamicAnswer : Except Failure ResultTable × σ :=
  env.perform (.runStatementWithParams project sql (allVisible s.frames) []) s.world

/-- A statement with a manager of its own. -/
def Managed : Prop :=
  (env.versioningDdl project sql).isSome ∨ env.isExportData sql = true

/-- **What is assumed of the code outside.** A text is of one kind. The two calls of the database
run the same statement. A transaction statement that it executes opens or closes a transaction of
its own; backups are no part of a statement. -/
structure DynamicLaws : Prop where
  model : ∀ sql, env.isCreateModel sql = true →
    classifyTxnStatement sql = none ∧ ¬ Managed env project sql ∧
      dmlTargets (env.parseSql sql) project = []
  managed : ∀ sql, Managed env project sql → dmlTargets (env.parseSql sql) project = []
  world : ∀ sql s, (dynamicAnswer env project sql s).2 = (staticAnswer env project sql s s.world).2
  answer : ∀ sql s, (∃ table, (dynamicAnswer env project sql s).1 = .ok table) ↔
    ∃ table, (staticAnswer env project sql s s.world).1 = .ok table
  transaction : ∀ sql s, (classifyTxnStatement sql).isSome → ∀ table,
    (dynamicAnswer env project sql s).1 = .ok table → (dynamicAnswer env project sql s).2 ≠ s.world
  check : ∀ sql w, (env.perform (.assertDropSchemaAllowed project sql) w).2 = w
  backup : ∀ sql s target name w, env.backup target name s.world = some w →
    ((∃ table, (staticAnswer env project sql s w).1 = .ok table) ↔
      ∃ table, (staticAnswer env project sql s s.world).1 = .ok table)

/-- No target is backed up: there is no open transaction, or it has a backup or cannot be copied. -/
def NoBackup : Prop :=
  ∀ backups, s.activeTxn = some backups → ∀ target ∈ dmlTargets (env.parseSql sql) project,
    (∃ b ∈ backups, b.1 = target) ∨ env.backup target (env.backupName s.world) s.world = none

/-- **A plain statement that can be executed either way**: if the database executes it, its target
is not backed up, the guard lets it pass, its result is reported alike, and nothing is registered
afterwards. -/
def PlainAlike : Prop :=
  ∀ table, (staticAnswer env project sql s s.world).1 = .ok table →
    NoBackup env project sql s ∧
    (∃ t, (env.perform (.assertDropSchemaAllowed project sql) s.world).1 = .ok t) ∧
    (isRowProducing (env.parseSql sql) = true →
      (dynamicAnswer env project sql s).1 = .ok table) ∧
    ∃ t, env.perform (.syncDdl project sql) (staticAnswer env project sql s s.world).2 =
      (.ok t, (staticAnswer env project sql s s.world).2)

/-- The manager of a managed statement refuses it. -/
def ManagerRefuses : Prop :=
  ∃ failure, (∃ ddl, env.versioningDdl project sql = some ddl ∧
      (env.perform (.versioningDdl ddl) s.world).1 = .error failure) ∨
    env.versioningDdl project sql = none ∧ env.isExportData sql = true ∧
      (env.perform (.exportData project sql (allVisible s.frames)) s.world).1 = .error failure

/-- **The statements that can be executed either way**: those that create models, managed ones that
are refused both ways, and plain ones that meet `PlainAlike`. -/
def ActsAlike : Prop :=
  classifyTxnStatement sql = none ∧
    (env.isCreateModel sql = true ∨
      (ManagerRefuses env project sql s ∧
        ∃ failure, (dynamicAnswer env project sql s).1 = .error failure) ∨
      (¬ Managed env project sql ∧ PlainAlike env project sql s))

end Laws

/-! ## Effects -/

variable {isStatement : Bool}

section Effects

variable {env : ScriptEnv σ} {project sql : String} {s : Interp σ} {e : Interp σ → Effect}
  {table : ResultTable} {failure : Failure} {β : Type}
  {k : Except Failure ResultTable → ScriptM σ β}

theorem yields_attempt_bind {b : β} {s' : Interp σ} (h : (env.perform (e s) s.world).1 = .ok table)
    (hk : Yields (k (.ok table)) { s with world := (env.perform (e s) s.world).2 } b s') :
    Yields (attempt env e >>= k) s b s' := by
  have ha : Yields (attempt env e) s (.ok table) _ := ⟨congrArg ok h, rfl⟩
  exact ha.bind hk

theorem raises_attempt_bind (h : (env.perform (e s) s.world).1 = .error failure)
    (hk : ∃ x s', Raises (k (.error failure))
      { s with world := (env.perform (e s) s.world).2 } x s') :
    ∃ x s', Raises (attempt env e >>= k) s x s' := by
  have ha : Yields (attempt env e) s (.error failure) _ := ⟨congrArg ok h, rfl⟩
  obtain ⟨x, s', hk⟩ := hk
  exact ⟨x, s', ha.bind_raises hk⟩

variable {s' : Interp σ}

theorem yields_iff_of_answer {c : ScriptM σ ResultTable}
    (hy : ∀ {table}, (env.perform (e s) s.world).1 = .ok table →
      Yields c s table { s with world := (env.perform (e s) s.world).2 })
    (hr : ∀ {failure}, (env.perform (e s) s.world).1 = .error failure → ∃ x s', Raises c s x s') :
    Yields c s table s' ↔ (env.perform (e s) s.world).1 = .ok table ∧
      s' = { s with world := (env.perform (e s) s.world).2 } := by
  constructor
  · intro h
    cases ha : (env.perform (e s) s.world).1 with
    | error =>
      obtain ⟨x, s₁, hr⟩ := hr ha
      exact (h.not_raises hr).elim
    | ok =>
      obtain ⟨rfl, rfl⟩ := h.unique (hy ha)
      exact ⟨rfl, rfl⟩
  · rintro ⟨h, rfl⟩
    exact hy h

theorem yields_perform (h : (env.perform (e s) s.world).1 = .ok table) :
    Yields (perform env e) s table { s with world := (env.perform (e s) s.world).2 } :=
  yields_attempt_bind h ⟨rfl, rfl⟩

theorem raises_perform (h : (env.perform (e s) s.world).1 = .error failure) :
    ∃ x s', Raises (perform env e) s x s' :=
  raises_attempt_bind h ⟨_, _, rfl, rfl⟩

theorem yields_perform_iff :
    Yields (perform env e) s table s' ↔ (env.perform (e s) s.world).1 = .ok table ∧
      s' = { s with world := (env.perform (e s) s.world).2 } :=
  yields_iff_of_answer yields_perform raises_perform

theorem yields_runQuery
    (h : (env.perform (.runQuery isStatement project sql (allVisible s.frames)) s.world).1 =
      .ok table) :
    Yields (runQuery env project isStatement sql) s table { s with
      world :=
        (env.perform (.runQuery isStatement project sql (allVisible s.frames)) s.world).2 } :=
  yields_attempt_bind h ⟨rfl, rfl⟩

theorem raises_runQuery
    (h : (env.perform (.runQuery isStatement project sql (allVisible s.frames)) s.world).1 =
      .error failure) : ∃ e s', Raises (runQuery env project isStatement sql) s e s' :=
  raises_attempt_bind h (by cases failure <;> exact ⟨_, _, rfl, rfl⟩)

theorem yields_setFinalTable (t : Option ResultTable) :
    Yields (setFinalTable t) s () { s with finalTable := t } := ⟨rfl, rfl⟩

end Effects

/-! ## The dynamic path -/

section Dynamic

variable {env : ScriptEnv σ} {project sql expr : String} {s : Interp σ} {table : ResultTable}

theorem execExecuteImmediate_run {result : ResultTable}
    (he : env.perform (.runQuery false project ("SELECT " ++ expr) (allVisible s.frames)) s.world =
      (.ok result, s.world)) (hc : result.firstCell = .string sql) :
    (execExecuteImmediate env project expr [] [] s).result =
        (runStatementWithParams env project sql [] s).result ∧
      (execExecuteImmediate env project expr [] [] s).state =
        (runStatementWithParams env project sql [] s).state := by
  have hv : Yields (evalExprScalar env project expr) s (.string sql) s := by
    have hq := yields_runQuery (congrArg Prod.fst he)
    rw [he] at hq
    exact hq.bind ⟨congrArg ok hc, rfl⟩
  unfold execExecuteImmediate
  rw [run_bind_of_ok hv.1, hv.2]
  exact ⟨rfl, rfl⟩

/-- What a dynamic statement that succeeds does. -/
theorem dynamic_yields (hmodel : env.isCreateModel sql = false)
    (h : (dynamicAnswer env project sql s).1 = .ok table) :
    Yields (runStatementWithParams env project sql []) s () { s with
      world := (dynamicAnswer env project sql s).2
      finalTable := if isRowProducing (env.parseSql sql) then some table else none } := by
  simp only [runStatementWithParams, hmodel]
  exact yields_attempt_bind h (yields_setFinalTable _)

theorem dynamic_raises {f : Failure} (hmodel : env.isCreateModel sql = false)
    (h : (dynamicAnswer env project sql s).1 = .error f) :
    ∃ e s', Raises (runStatementWithParams env project sql []) s e s' := by
  simp only [runStatementWithParams, hmodel]
  exact raises_attempt_bind h (by cases f <;> exact ⟨_, _, rfl, rfl⟩)

end Dynamic

/-! ## The static path -/

section Static

variable {env : ScriptEnv σ} {project sql : String} {s : Interp σ} {table : ResultTable}

theorem snapshotDmlTargets_cases (e : ScriptEnv σ) (p sql : String) (s : Interp σ) :
    (NoBackup e p sql s ∧ Yields (snapshotDmlTargets e p sql) s () s) ∨
      ¬ NoBackup e p sql s ∧ ∃ backups target w, s.activeTxn = some backups ∧
        e.backup target (e.backupName s.world) s.world = some w ∧
        Yields (snapshotDmlTargets e p sql) s () { s with
          world := w
          activeTxn := some (backups ++ [(target, e.backupName s.world)]) } := by
  unfold snapshotDmlTargets NoBackup
  rcases dmlTargets_cases (e.parseSql sql) p with ht | ⟨target, ht⟩
  · rw [ht]
    exact .inl ⟨fun _ _ => List.forall_mem_nil _, rfl, rfl⟩
  rw [ht]
  simp only [List.forall_mem_singleton]
  rcases snapshotTarget_cases e target s with ⟨hr, hn⟩ | ⟨backups, w, ho, hne, hba, hr⟩
  · refine .inl ⟨hn, ?_⟩
    have htg : Yields (snapshotTarget e target) s () s := by
      rw [Yields, hr]
      exact ⟨rfl, rfl⟩
    exact htg.bind ⟨rfl, rfl⟩
  · refine .inr ⟨fun hn => ?_, backups, target, w, ho, hba, ?_⟩
    · rcases hn backups ho with ⟨b, hb, heq⟩ | hf
      · exact hne b hb heq
      · rw [hba] at hf
        cases hf
    have htg : Yields (snapshotTarget e target) s () { s with
        world := w
        activeTxn := some (backups ++ [(target, e.backupName s.world)]) } := by
      rw [Yields, hr]
      exact ⟨rfl, rfl⟩
    exact htg.bind ⟨rfl, rfl⟩

theorem yields_snapshotDmlTargets_of_nil (h : dmlTargets (env.parseSql sql) project = []) :
    Yields (snapshotDmlTargets env project sql) s () s := by
  rw [snapshotDmlTargets, h]
  exact ⟨rfl, rfl⟩

variable (l : DynamicLaws env project) (hmanaged : ¬ Managed env project sql)
  (hmodel : env.isCreateModel sql = false)

include l hmanaged hmodel

theorem static_raises (h : ∀ table, (staticAnswer env project sql s s.world).1 ≠ .ok table) :
    ∃ e s', Raises (execSqlStatement env project sql) s e s' := by
  obtain ⟨hv, he⟩ := not_or.1 hmanaged
  rw [not_isSome_iff_eq_none] at hv
  -- the state in which the statement is executed
  have hre : ∃ s₁, Yields (snapshotDmlTargets env project sql) s () s₁ ∧ s₁.frames = s.frames ∧
      ∀ table, (staticAnswer env project sql s s₁.world).1 ≠ .ok table := by
    rcases snapshotDmlTargets_cases env project sql s with
      ⟨-, hy⟩ | ⟨-, backups, target, w, -, hb, hy⟩
    · exact ⟨s, hy, rfl, h⟩
    · refine ⟨_, hy, rfl, fun table ht => ?_⟩
      obtain ⟨t', ht'⟩ := (l.backup sql s target _ w hb).1 ⟨table, ht⟩
      exact h t' ht'
  obtain ⟨s₁, hb, hf, hfa⟩ := hre
  simp only [execSqlStatement, hv, he, hmodel]
  cases hc : (env.perform (.assertDropSchemaAllowed project sql) s₁.world).1 with
  | error =>
    obtain ⟨x, s₂, hr⟩ :=
      raises_perform (e := fun _ => .assertDropSchemaAllowed project sql) hc
    exact ⟨x, s₂, hb.bind_raises hr.bind⟩
  | ok t =>
    have hp := yields_perform (e := fun _ => .assertDropSchemaAllowed project sql) hc
    rw [l.check] at hp
    cases hru : (env.perform (.runQuery true project sql (allVisible s₁.frames)) s₁.world).1 with
    | error =>
      obtain ⟨e, s₂, hr⟩ := raises_runQuery hru
      exact ⟨e, s₂, hb.bind_raises (hp.bind_raises hr.bind)⟩
    | ok table =>
      rw [hf] at hru
      exact absurd hru (hfa table)

/-- A plain statement that succeeds: its target is backed up, the guard lets it pass, the
database executes it, and it is registered. -/
theorem static_yields_iff {s' : Interp σ} :
    Yields (execSqlStatement env project sql) s () s' ↔
      ∃ s₁ t table t', Yields (snapshotDmlTargets env project sql) s () s₁ ∧
        (env.perform (.assertDropSchemaAllowed project sql) s₁.world).1 = .ok t ∧
        (staticAnswer env project sql s₁ s₁.world).1 = .ok table ∧
        (env.perform (.syncDdl project sql) (staticAnswer env project sql s₁ s₁.world).2).1 =
          .ok t' ∧
        s' = { s₁ with
          world := (env.perform (.syncDdl project sql)
            (staticAnswer env project sql s₁ s₁.world).2).2
          finalTable := if isRowProducing (env.parseSql sql) then some table else none } := by
  obtain ⟨hv, he⟩ := not_or.1 hmanaged
  rw [not_isSome_iff_eq_none] at hv
  simp only [execSqlStatement, hv, he, hmodel]
  constructor
  · intro h
    obtain ⟨u, s₁, hb, h⟩ := yields_bind_iff.1 h
    obtain ⟨t, s₂, hc, h⟩ := yields_bind_iff.1 h
    obtain ⟨ha, rfl⟩ := yields_perform_iff.1 hc
    rw [l.check] at h
    obtain ⟨table, s₃, hr, h⟩ := yields_bind_iff.1 h
    obtain ⟨han, rfl⟩ := (yields_iff_of_answer (e := fun s => .runQuery _ project sql
      (allVisible s.frames)) yields_runQuery raises_runQuery).1 hr
    obtain ⟨u', s₄, hf, h⟩ := yields_bind_iff.1 h
    obtain rfl := ((yields_setFinalTable _).unique hf).2
    obtain ⟨t', s₅, hs, h⟩ := yields_bind_iff.1 h
    obtain ⟨hre, rfl⟩ := yields_perform_iff.1 hs
    exact ⟨s₁, t, table, t', hb, ha, han, hre, h.2.symm⟩
  · rintro ⟨s₁, t, table, t', hb, hc, hr, hs, rfl⟩
    have hp := yields_perform (e := fun _ => .assertDropSchemaAllowed project sql) hc
    rw [l.check] at hp
    have hrr := yields_perform (s := { s₁ with
      world := (staticAnswer env project sql s₁ s₁.world).2
      finalTable := if isRowProducing (env.parseSql sql) then some table else none })
      (e := fun _ => .syncDdl project sql) hs
    exact hb.bind (hp.bind ((yields_runQuery hr).bind ((yields_setFinalTable _).bind
      (hrr.bind ⟨rfl, rfl⟩))))

end Static

/-! ## The two paths compared -/

section Compare

variable {c d : ScriptM σ Unit} {s s' : Interp σ}

theorem sameEffect_of_yields (h : Yields c s () s') : SameEffect c d s ↔ Yields d s () s' := by
  constructor
  · rintro (⟨s₁, hc, hd⟩ | ⟨⟨e, s₁, hc⟩, -⟩)
    · rw [(h.unique hc).2]
      exact hd
    · exact (h.not_raises hc).elim
  · intro hd
    exact .inl ⟨s', h, hd⟩

theorem sameEffect_of_raises (h : ∃ e s', Raises c s e s') :
    SameEffect c d s ↔ ∃ e s', Raises d s e s' := by
  constructor
  · rintro (⟨s₁, hc, -⟩ | ⟨-, hd⟩)
    · obtain ⟨e, s', h⟩ := h
      exact (hc.not_raises h).elim
    · exact hd
  · intro hd
    exact .inr ⟨h, hd⟩

theorem sameEffect_congr_left {c' : ScriptM σ Unit} (hr : (c s).result = (c' s).result)
    (hs : (c s).state = (c' s).state) : SameEffect c d s ↔ SameEffect c' d s := by
  unfold SameEffect Yields Raises
  rw [hr, hs]

variable {env : ScriptEnv σ} {project sql : String}

variable {e : Interp σ → Effect}

theorem yields_performFinal {t : ResultTable} (h : (env.perform (e s) s.world).1 = .ok t) :
    Yields (do let _ ← perform env e; setFinalTable none) s ()
      { s with world := (env.perform (e s) s.world).2, finalTable := none } :=
  (yields_perform h).bind (yields_setFinalTable none)

variable (l : DynamicLaws env project)

include l

theorem not_sameEffect_transaction {op : TxnCause} (hop : classifyTxnStatement sql = some op) :
    ¬ SameEffect (runStatementWithParams env project sql []) (do
      handleTxnStatement env op
      setFinalTable none) s := by
  have hmodel : env.isCreateModel sql = false := by
    by_contra h
    rw [(l.model sql (Bool.not_eq_false _ ▸ h)).1] at hop
    cases hop
  -- the interpreter never fails, and changes the world only to close a transaction
  have hst : ∃ s', Yields (do handleTxnStatement env op; setFinalTable none) s () s' ∧
      (s'.world = s.world ∨ s.activeTxn.isSome ∧ s'.activeTxn = none) := by
    cases op with
    | begin_ => exact ⟨_, ⟨rfl, rfl⟩, .inl rfl⟩
    | commit =>
      refine ⟨_, ⟨rfl, rfl⟩, ?_⟩
      cases ho : s.activeTxn with
      | none => exact .inl (by simp [handleTxnStatement, dropTxnSnapshots, closeTxn, ho,
          setFinalTable, Comp.bind_eq, Comp.andThen, Comp.modify])
      | some => exact .inr ⟨rfl, rfl⟩
    | rollback =>
      refine ⟨_, ⟨rfl, rfl⟩, ?_⟩
      cases ho : s.activeTxn with
      | none => exact .inl (by simp [handleTxnStatement, restoreTxnSnapshots, closeTxn, ho,
          setFinalTable, Comp.bind_eq, Comp.andThen, Comp.modify])
      | some => exact .inr ⟨rfl, rfl⟩
    | _ => exact ⟨_, ⟨rfl, rfl⟩, .inl rfl⟩
  obtain ⟨s', hy, hl⟩ := hst
  cases ha : (dynamicAnswer env project sql s).1 with
  | error =>
    rw [sameEffect_of_raises (dynamic_raises hmodel ha)]
    rintro ⟨e, s₁, hr⟩
    exact hy.not_raises hr
  | ok t =>
    rw [sameEffect_of_yields (dynamic_yields hmodel ha)]
    intro hs
    have hs' := (hy.unique hs).2
    rcases hl with hw | ⟨ho, hc⟩
    · rw [hs'] at hw
      exact l.transaction sql s (by rw [hop]; rfl) t ha hw
    · rw [hs'] at hc
      rw [show s.activeTxn = none from hc] at ho
      cases ho

theorem sameEffect_model (hmodel : env.isCreateModel sql = true) :
    SameEffect (runStatementWithParams env project sql [])
      (execSqlStatement env project sql) s := by
  obtain ⟨-, hmanaged, ht⟩ := l.model sql hmodel
  obtain ⟨hv, he⟩ := not_or.1 hmanaged
  rw [not_isSome_iff_eq_none] at hv
  have hb : Yields (snapshotDmlTargets env project sql) s () s :=
    yields_snapshotDmlTargets_of_nil ht
  simp only [runStatementWithParams, execSqlStatement, hmodel, hv, he]
  cases h : (env.perform (.createModel project sql (allVisible s.frames)) s.world).1 with
  | error =>
    obtain ⟨x, s', hr⟩ :=
      raises_perform (e := fun s => .createModel project sql (allVisible s.frames)) h
    exact .inr ⟨⟨x, s', hr.bind⟩, x, s', hb.bind_raises hr.bind⟩
  | ok =>
    have hy := yields_performFinal
      (e := fun s => .createModel project sql (allVisible s.frames)) h
    exact .inl ⟨_, hy, hb.bind hy⟩

theorem sameEffect_refused (hmodel : env.isCreateModel sql = false)
    (hmanager : ManagerRefuses env project sql s) {failure : Failure}
    (hdatabase : (dynamicAnswer env project sql s).1 = .error failure) :
    SameEffect (runStatementWithParams env project sql [])
      (execSqlStatement env project sql) s := by
  refine .inr ⟨dynamic_raises hmodel hdatabase, ?_⟩
  have hbefore : Managed env project sql → Yields (snapshotDmlTargets env project sql) s () s :=
    fun h => yields_snapshotDmlTargets_of_nil (l.managed sql h)
  obtain ⟨f, ⟨ddl, hv, hf⟩ | ⟨hv, he, hf⟩⟩ := hmanager
  · obtain ⟨x, s', hr⟩ := raises_perform (e := fun _ => .versioningDdl ddl) hf
    simp only [execSqlStatement, hv]
    exact ⟨x, s', (hbefore (.inl (by rw [hv]; rfl))).bind_raises hr.bind⟩
  · obtain ⟨x, s', hr⟩ :=
      raises_perform (e := fun s => .exportData project sql (allVisible s.frames)) hf
    simp only [execSqlStatement, hv, he, if_true]
    exact ⟨x, s', (hbefore (.inr he)).bind_raises hr.bind⟩

theorem sameEffect_plain_iff (hmanaged : ¬ Managed env project sql)
    (hmodel : env.isCreateModel sql = false) :
    SameEffect (runStatementWithParams env project sql []) (execSqlStatement env project sql) s ↔
      PlainAlike env project sql s := by
  by_cases hr : ∃ answer, (staticAnswer env project sql s s.world).1 = .ok answer
  · obtain ⟨answer, ht⟩ := hr
    obtain ⟨answer', ht'⟩ := (l.answer sql s).2 ⟨answer, ht⟩
    rw [sameEffect_of_yields (dynamic_yields hmodel ht'), static_yields_iff l hmanaged hmodel]
    constructor
    · rintro ⟨s₁, t, t₁, t', hb, hc, hru, hs, heq⟩ t₀ ht₀
      rcases snapshotDmlTargets_cases env project sql s with
        ⟨hn, hy⟩ | ⟨-, backups, target, w, ho, -, hy⟩
      · obtain rfl := (hy.unique hb).2
        obtain rfl := ok.inj (hru.symm.trans ht₀)
        have hw : (dynamicAnswer env project sql s).2 = (env.perform (.syncDdl project sql)
            (staticAnswer env project sql s s.world).2).2 := congrArg Interp.world heq
        rw [l.world] at hw
        have hf := congrArg Interp.finalTable heq
        refine ⟨hn, ⟨t, hc⟩, fun hro => ?_, t', ?_⟩
        · simp only [hro, if_true, some.injEq] at hf
          rw [ht', hf]
        · exact Prod.ext hs hw.symm
      · -- a backup is an entry of the transaction that the dynamic path does not make
        obtain rfl := (hy.unique hb).2
        have htx := congrArg Interp.activeTxn heq
        rw [show s.activeTxn = some (backups ++ [(target, env.backupName s.world)]) from htx] at ho
        have hl := congrArg List.length (some.inj ho)
        simp at hl
    · intro ha
      obtain ⟨hn, ⟨t, hc⟩, hro, t', hs⟩ := ha answer ht
      have hb : Yields (snapshotDmlTargets env project sql) s () s := by
        rcases snapshotDmlTargets_cases env project sql s with ⟨-, hy⟩ | ⟨hno, -⟩
        · exact hy
        · exact absurd hn hno
      refine ⟨s, t, answer, t', hb, hc, ht, congrArg Prod.fst hs, ?_⟩
      rw [hs, l.world]
      cases hrw : isRowProducing (env.parseSql sql) with
      | false => rfl
      | true => rw [ok.inj (ht'.symm.trans (hro hrw))]
  · have hst := static_raises l hmanaged hmodel (s := s) fun answer h => hr ⟨answer, h⟩
    have hd : ∃ f, (dynamicAnswer env project sql s).1 = .error f := by
      cases han : (dynamicAnswer env project sql s).1 with
      | error f => exact ⟨f, rfl⟩
      | ok answer => exact absurd ((l.answer sql s).1 ⟨answer, han⟩) hr
    obtain ⟨f, hfa⟩ := hd
    refine iff_of_true (.inr ⟨dynamic_raises hmodel hfa, hst⟩) fun answer h => ?_
    exact absurd ⟨answer, h⟩ hr

end Compare

/-- **The statements that can be executed either way**: `EXECUTE IMMEDIATE` of a text has the effect
of the statement for those that act alike and, managed ones apart, only for these. -/
theorem dynamic_static_alike (env : ScriptEnv σ) (project : String) (laws : DynamicLaws env project)
    (sql expr : String) (s : Interp σ) (hstrip : Text.strip sql = sql) (hne : sql ≠ "")
    (sqlTable : ResultTable)
    (heval : env.perform (.runQuery false project ("SELECT " ++ expr) (allVisible s.frames))
      s.world = (.ok sqlTable, s.world)) (hcell : sqlTable.firstCell = .string sql) :
    (ActsAlike env project sql s →
        SameEffect (execExecuteImmediate env project expr [] []) (execSql env project sql) s) ∧
      (¬ Managed env project sql →
        SameEffect (execExecuteImmediate env project expr [] []) (execSql env project sql) s →
          ActsAlike env project sql s) := by
  obtain ⟨hr, hs⟩ := execExecuteImmediate_run heval hcell
  rw [sameEffect_congr_left hr hs]
  unfold execSql
  simp only [hstrip, if_neg hne]
  cases ho : classifyTxnStatement sql with
  | some op =>
    refine ⟨fun ha => ?_, fun _ he => (not_sameEffect_transaction laws ho he).elim⟩
    rw [ha.1] at ho
    cases ho
  | none =>
    cases hmodel : env.isCreateModel sql with
    | true => exact ⟨fun _ => sameEffect_model laws hmodel, fun _ _ => ⟨ho, .inl hmodel⟩⟩
    | false =>
      constructor
      · rintro ⟨-, hm | ⟨hmanager, f, hf⟩ | ⟨hmanaged, hplain⟩⟩
        · rw [hmodel] at hm
          cases hm
        · exact sameEffect_refused laws hmodel hmanager hf
        · exact (sameEffect_plain_iff laws hmanaged hmodel).2 hplain
      · intro hmanaged he
        exact ⟨ho, .inr (.inr ⟨hmanaged, (sameEffect_plain_iff laws hmanaged hmodel).1 he⟩)⟩

/-- The tables of a database, by the statements that wrote to them, and those of a catalog. -/
structure SmallWorld where
  executed : List String := []
  registered : List String := []
deriving DecidableEq

def SmallWorld.execute (w : SmallWorld) (sql : String) : Except Failure ResultTable × SmallWorld :=
  if (classifyTxnStatement sql).isSome then
    (.error (.engine "TransactionContext Error: no transaction is active"), w)
  else (.ok {}, { w with executed := w.executed ++ [sql] })

def smallEnv : ScriptEnv SmallWorld :=
  { ScriptEnv.idle _ with
    parseSql sql :=
      if sql = "INSERT INTO d.t VALUES (1)" then
        .node .insert [(.this, .leaf (.table { db := "d", name := "t" }))]
      else .node .create []
    perform e w :=
      match e with
      | .runQuery true _ sql _ | .runStatementWithParams _ sql _ _ => w.execute sql
      | .runQuery false _ sql _ =>
        let text := String.ofList (sql.toList.drop 8).dropLast
        (.ok { columns := ["f0_"], rows := [[.string text]] }, w)
      | .syncDdl _ sql =>
        (.ok {}, if sql = "CREATE TABLE d.t (x INT64)" then
          { w with registered := w.registered ++ ["d.t"] } else w)
      | _ => (.ok {}, w)
    backup _ _ _ := none }

def smallStart : Interp SmallWorld where
  frames := []
  world := {}

theorem dynamicLaws_smallEnv : DynamicLaws smallEnv "p" where
  model sql h := nomatch h
  managed sql h := by
    rcases h with h | h
    · cases h
    · cases h
  world _ _ := rfl
  answer _ _ := Iff.rfl
  transaction sql s h table ha := by
    have hf : (dynamicAnswer smallEnv "p" sql s).1 =
        .error (.engine "TransactionContext Error: no transaction is active") := by
      show (s.world.execute sql).1 = _
      rw [SmallWorld.execute, if_pos h]
    rw [hf] at ha
    cases ha
  check _ _ := rfl
  backup _ _ _ _ _ h := nomatch h

/-- An insertion outside of a transaction can be executed either way. -/
theorem dynamic_static_insert :
    SameEffect (execExecuteImmediate smallEnv "p" "'INSERT INTO d.t VALUES (1)'" [] [])
      (execSql smallEnv "p" "INSERT INTO d.t VALUES (1)") smallStart := by
  refine (dynamic_static_alike smallEnv "p" dynamicLaws_smallEnv "INSERT INTO d.t VALUES (1)"
    "'INSERT INTO d.t VALUES (1)'" smallStart (by decide +kernel) (by decide) _ rfl
    (by decide +kernel)).1 ⟨by decide +kernel, .inr (.inr ⟨?_, fun t _ => ?_⟩)⟩
  · rintro (h | h)
    · cases h
    · cases h
  · refine ⟨fun b h => (nomatch h), ⟨_, rfl⟩, fun h => ?_, {}, by decide +kernel⟩
    cases h

/-- A table that is created by a dynamic statement is not registered. -/
theorem dynamic_create_unregistered :
    let direct := execSql smallEnv "p" "CREATE TABLE d.t (x INT64)" smallStart
    let dynamic := execExecuteImmediate smallEnv "p" "'CREATE TABLE d.t (x INT64)'" [] [] smallStart
    direct.result = .ok () ∧ dynamic.result = .ok () ∧
      direct.state.world = ⟨["CREATE TABLE d.t (x INT64)"], ["d.t"]⟩ ∧
      dynamic.state.world = ⟨["CREATE TABLE d.t (x INT64)"], []⟩ := by
  decide +kernel

end Bqemulator
