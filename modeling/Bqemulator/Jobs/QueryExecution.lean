import Bqemulator.Scripting.Interpreter
import Bqemulator.Sql.TableRewriter

/-!
# The execution of query jobs

A query job is a single statement or a script. A statement that modifies a snapshot or a
materialized view is refused; after the run, the changes of the tables it modifies are recorded.
Both look at the one statement that the parser returns for the whole text.
-/

namespace Bqemulator

/-! ## The tables a statement modifies -/

variable (args : List (ArgKey × Sql))

def thisTable : List Table :=
  match args.find? fun a => a.1 = .this with
  | some (_, .leaf (.table t)) => [t]
  | _ => []

def expressionTables : List Table :=
  args.filterMap fun a =>
    match a with
    | (.expressions, .leaf (.table t)) => some t
    | _ => none

def dmlTables : Sql → List Table
  | .node .insert args => (targetOfArgs args).toList
  | .node .update args | .node .delete args | .node .truncateTable args =>
    thisTable args ++ expressionTables args
  | .node .merge args => thisTable args
  | _ => []

/-- The tables that a statement modifies: those whose dataset is named, each once. -/
def dmlTargetTables (tree : Sql) (project : String) : List TableId :=
  (((dmlTables tree).filter fun t => t.db ≠ "" ∧ t.name ≠ "").map (·.idIn project)).eraseDups

def TableType.isImmutable : TableType → Bool
  | .snapshot | .materializedView => true
  | _ => false

def TableType.immutableName (t : TableType) : String :=
  if t = .snapshot then "SNAPSHOT" else "MATERIALIZED_VIEW"

def immutableError (type : TableType) (id : TableId) : DomainError :=
  .invalidQuery ("Cannot run DML against " ++ type.immutableName ++ " table " ++
    id.project ++ "." ++
    id.dataset ++ "." ++ id.table ++ "; it is immutable.")

/-- The guard: the first target that is immutable is an error. -/
def rejectDmlOnImmutable (getTable : TableId → Option TableMeta) :
    List TableId → Except DomainError Unit
  | [] => .ok ()
  | id :: rest =>
    match getTable id with
    | none => rejectDmlOnImmutable getTable rest
    | some m =>
      if m.tableType.isImmutable then .error (immutableError m.tableType id)
      else rejectDmlOnImmutable getTable rest

/-- What the guard lets pass. -/
theorem getTable_of_rejectDmlOnImmutable {getTable : TableId → Option TableMeta}
    {i : List TableId} (h : rejectDmlOnImmutable getTable i = .ok ()) :
    ∀ id ∈ i, ∀ m, getTable id = some m → m.tableType.isImmutable = false := by
  induction i with
  | nil => exact fun id hid => absurd hid List.not_mem_nil
  | cons first r ih =>
    intro id hid m hm
    rw [rejectDmlOnImmutable] at h
    rcases List.mem_cons.1 hid with rfl | hid
    · rw [hm] at h
      cases hi : m.tableType.isImmutable with
      | false => rfl
      | true => simp [hi] at h
    refine ih ?_ id hid m hm
    cases hf : getTable first with
    | none => simpa only [hf] using h
    | some m' =>
      rw [hf] at h
      cases hi : m'.tableType.isImmutable with
      | false => simpa [hi] using h
      | true => simp [hi] at h

/-! ## Jobs -/

/-- The ways a text is run: as a side effect, by a manager, by the database, or by the
interpreter. -/
inductive JobPath where
  | intercepted
  | fastPath
  | single
  | script
deriving DecidableEq

/-- **The rest of the emulator**, as a query job sees it: the interpreter's surroundings, the
statements with a path of their own, the run of a single statement with its bookkeeping, and the
record of changes. -/
structure QueryJobEnv (σ : Type) where
  script : ScriptEnv σ
  depth : Nat
  detectDropRoutine : String → Bool
  isRowAccessDdl : String → Bool
  intercept : (project sql : String) → σ → Except DomainError Unit × σ
  fastPath : (project sql : String) → σ → Except DomainError Unit × σ
  guardSingleDdl : (project sql : String) → σ → Except DomainError Unit
  runSingleSql : (project sql : String) → σ → Except DomainError Unit × σ
  getTable : σ → TableId → Option TableMeta
  publish : TableId → σ → σ
  recordChange : TableId → σ → Except DomainError σ

def Exn.jobError : Exn → DomainError
  | .raised error _ | .domain error => error
  | .other message => .engine message
  | .break_ | .continue_ | .return_ _ => .engine "control signal outside of its construct"

namespace QueryJobEnv

variable {σ : Type} (env : QueryJobEnv σ) (project sql : String)

def path : Except DomainError JobPath :=
  (env.script.parseScript sql).map fun statements =>
    match statements with
    | [.sql _] =>
      if env.script.isExportData sql || env.script.isCreateModel sql then .intercepted
      else if env.detectDropRoutine sql || env.isRowAccessDdl sql ||
          (env.script.versioningDdl project sql).isSome then .fastPath
      else .single
    | _ => .script

def targets : List TableId :=
  dmlTargetTables (env.script.parseSql sql) project

def runScripted (s : σ) : Except DomainError Unit × σ :=
  let out := runJobScript env.script env.depth project sql s
  ((out.result.map fun _ => ()).mapError Exn.jobError, out.state.world)

/-- The run of a text, without what is done before and after. -/
def run : JobPath → σ → Except DomainError Unit × σ
  | .intercepted => env.intercept project sql
  | .fastPath => env.fastPath project sql
  | .single => env.runSingleSql project sql
  | .script => env.runScripted project sql

def guard (path : JobPath) (s : σ) : Except DomainError Unit :=
  (rejectDmlOnImmutable (env.getTable s) (env.targets project sql)).bind fun _ =>
    if path = .single then env.guardSingleDdl project sql s else .ok ()

/-- The record of the change of one target. A snapshot or materialized view gets the event only. -/
def captureTarget (id : TableId) (s : σ) : Except DomainError σ :=
  match env.getTable s id with
  | none => .ok s
  | some m => if m.tableType.isImmutable then .ok (env.publish id s) else env.recordChange id s

/-- The record of the changes of targets, up to the first that cannot be recorded. -/
def captureEach : List TableId → σ → Except DomainError Unit × σ
  | [], s => (.ok (), s)
  | id :: rest, s =>
    match env.captureTarget id s with
    | .error e => (.error e, s)
    | .ok s => captureEach rest s

/-- The record after a run: the tables that the parsed statement modifies. -/
def captureDmlSnapshots : σ → Except DomainError Unit × σ :=
  env.captureEach (env.targets project sql)

def guarded (path : JobPath) (s : σ) : Except DomainError Unit × σ :=
  match env.guard project sql path s with
  | .error e => (.error e, s)
  | .ok () =>
    match env.run project sql path s with
    | (.error e, s) => (.error e, s)
    | (.ok (), s) => env.captureDmlSnapshots project sql s

/-- A query job. -/
def execute (s : σ) : Except DomainError Unit × σ :=
  match env.path project sql with
  | .error e => (.error e, s)
  | .ok .intercepted => env.run project sql .intercepted s
  | .ok .fastPath => env.run project sql .fastPath s
  | .ok .single => env.guarded project sql .single s
  | .ok .script => env.guarded project sql .script s

/-- The tables whose changes a job records: a statement with a path of its own has none. -/
def recorded : JobPath → List TableId
  | .intercepted | .fastPath => []
  | .single | .script => env.targets project sql

theorem guarded_eq_ok {path : JobPath} {s : σ} (h : (env.guarded project sql path s).1 = .ok ()) :
    (env.run project sql path s).1 = .ok () ∧
      env.captureEach (env.targets project sql) (env.run project sql path s).2 =
        (.ok (), (env.guarded project sql path s).2) := by
  unfold guarded at h ⊢
  cases hg : env.guard project sql path s with
  | error e => simp [hg] at h
  | ok u =>
    rcases hr : env.run project sql path s with ⟨e | u, s'⟩
    · simp [hg, hr] at h
    · simp only [hg, hr] at h ⊢
      exact ⟨trivial, Prod.ext h rfl⟩

/-- How a job succeeds. -/
theorem execute_eq_ok {s : σ} (h : (env.execute project sql s).1 = .ok ()) :
    ∃ path, env.path project sql = .ok path ∧ (env.run project sql path s).1 = .ok () ∧
      env.captureEach (env.recorded project sql path) (env.run project sql path s).2 =
        (.ok (), (env.execute project sql s).2) := by
  unfold execute at h ⊢
  cases hp : env.path project sql with
  | error e => simp [hp] at h
  | ok path =>
    rw [hp] at h
    refine ⟨path, rfl, ?_⟩
    cases path with
    | intercepted | fastPath => exact ⟨h, rfl⟩
    | single | script => exact env.guarded_eq_ok project sql h

end QueryJobEnv

end Bqemulator
