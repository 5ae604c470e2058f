import Bqemulator.Lib.Comp
import Bqemulator.Scripting.Frames

/-!
# The script interpreter

The tree-walking interpreter of scripts. `BREAK`, `CONTINUE`, `RETURN` and `RAISE` are exceptions.
What the interpreter asks of the rest of the emulator is an `Effect` on a world `σ` that it does not
look into; the trace has every effect, and the events the proofs are about.
-/

namespace Bqemulator

open Comp

/-! ## Exceptions and effects -/

/-- The exceptions of the interpreter: signals of control statements, raised errors, the emulator's
errors, and any other by its text. -/
inductive Exn where
  | break_
  | continue_
  | return_ (value : Scalar)
  | raised (error : DomainError) (messageOverride : Option String)
  | domain (error : DomainError)
  | other (message : String)
deriving DecidableEq

/-- The message under which a handler sees an exception; only raised and domain errors are handled.
An empty one gives way to that of the wrapped error. -/
def Exn.handledMessage : Exn → Option String
  | .raised error (some message) => some (if message = "" then error.message else message)
  | .raised error none | .domain error => some error.message
  | _ => none

/-- The statements on snapshots, clones and materialized views that bypass the SQL pipeline. -/
inductive VersioningDdl where
  | createSnapshot (target source : TableId)
  | dropSnapshot (target : TableId)
  | createClone (target source : TableId)
  | createMaterializedView (target : TableId) (query : Sql)
  | dropMaterializedView (target : TableId)
  | refreshMaterializedView (target : TableId)

/-- What a script asks of the rest of the emulator. The text of `runQuery` is a statement of the
script, or a query inside one. -/
inductive Effect where
  | runQuery (isStatement : Bool) (project sql : String) (visible : List (String × Variable))
  | runQueryWithParams (project sql : String) (visible : List (String × Variable))
      (usingValues : List Scalar)
  | runStatementWithParams (project sql : String) (visible : List (String × Variable))
      (usingValues : List Scalar)
  | versioningDdl (ddl : VersioningDdl)
  | exportData (project sql : String) (visible : List (String × Variable))
  | createModel (project sql : String) (visible : List (String × Variable))
  | assertDropSchemaAllowed (project sql : String)
  | syncDdl (project sql : String)
  | createTempFunction (project : String) (stmt : CreateFunctionStmt)
  | upsertFunction (id : TableId) (stmt : CreateFunctionStmt)
  | upsertProcedure (id : TableId) (stmt : CreateProcedureStmt)
  | cleanupTempRoutines

def Effect.isSqlStatement : Effect → Bool
  | .runQuery isStatement _ _ _ => isStatement
  | _ => false

/-- A failed effect: an error of the emulator, of the database engine, or of the preparation of a
statement, which refreshes the materialized views it reads. -/
inductive Failure where
  | domain (error : DomainError)
  | engine (message : String)
  | preparation (message : String)
deriving DecidableEq

def Failure.exn : Failure → Exn
  | .domain error => .domain error
  | .engine message | .preparation message => .other message

structure Procedure where
  projectId : String
  routineId : String
  arguments : List (String × ParamMode)
  definitionBody : String
deriving DecidableEq

/-- **The rest of the emulator**, as a script sees it: parsers, limits, routines of the catalog, the
mapping of engine errors, and the effects. -/
structure ScriptEnv (σ : Type) where
  maxStatements : Nat
  maxLoopIters : Nat
  parseScript : String → Except DomainError (List Stmt)
  parseSql : String → Sql
  versioningDdl : (project sql : String) → Option VersioningDdl
  isExportData : String → Bool
  isCreateModel : String → Bool
  resolveTemp : σ → String → Option TableId
  getProcedure : σ → TableId → Option Procedure
  translateRuntimeError : String → Option DomainError
  perform : Effect → σ → Except Failure ResultTable × σ
  /-- `CREATE TABLE backup AS SELECT * FROM target`, if it succeeds. -/
  backup : (target : String × String) → (name : String) → σ → Option σ
  /-- `DELETE FROM target`, `INSERT INTO target SELECT * FROM backup` and `DROP TABLE backup`, up to
  the first that fails. -/
  restore : (target : String × String) → (name : String) → σ → σ
  /-- `DROP TABLE IF EXISTS backup`. -/
  dropBackup : (name : String) → σ → σ
  /-- The random name of the next backup. -/
  backupName : σ → String

/-! ## Traces and states -/

/-- Why an open transaction is looked at: a control statement, a handler, the end of the script, or
an exception that leaves it. -/
inductive TxnCause where
  | begin_
  | commit
  | rollback
  | handler
  | finish
  | abort
deriving DecidableEq

def TxnCause.drops : TxnCause → Bool
  | .commit | .handler | .finish => true
  | _ => false

def TxnCause.restores : TxnCause → Bool
  | .rollback | .abort => true
  | _ => false

inductive Event (σ : Type) where
  /-- A statement is executed. -/
  | statement
  /-- The body of a `FOR` loop ends in an exception that the loop does not catch. -/
  | leftFor
  | effect (e : Effect) (before after : σ)
  | txn (cause : TxnCause) (before after : σ)
  | backup (target : String × String) (name : String) (before after : σ)
  /-- A procedure is run, with this trace and, if one leaves it, this exception. -/
  | called (trace : List (Event σ)) (escaped : Option Exn) (before after : σ)

/-- **The state of an interpreter**: frames, result, statement counter, open transaction, world. -/
structure Interp (σ : Type) where
  frames : List Frame
  finalTable : Option ResultTable := none
  statementsExecuted : Nat := 0
  activeTxn : Option (List ((String × String) × String)) := none
  world : σ

abbrev ScriptM (σ : Type) := Comp (Event σ) Exn (Interp σ)

structure ScriptResult where
  finalTable : Option ResultTable
  statementsExecuted : Nat
deriving DecidableEq

/-! ## Classification of SQL text -/

def classifyTxnStatement (sql : String) : Option TxnCause :=
  let text := Text.strip sql
  let bare := if Text.endsWith text ";" then String.ofList text.toList.dropLast else text
  match (Text.words bare).map Text.upper with
  | ["BEGIN"] | ["BEGIN", "TRANSACTION"] | ["START", "TRANSACTION"] => some .begin_
  | ["COMMIT"] | ["COMMIT", "TRANSACTION"] | ["COMMIT", "WORK"] | ["END", "TRANSACTION"] =>
    some .commit
  | ["ROLLBACK"] | ["ROLLBACK", "TRANSACTION"] | ["ROLLBACK", "WORK"] => some .rollback
  | _ => none

def targetOfArgs (args : List (ArgKey × Sql)) : Option Table :=
  match args.find? fun a => a.1 = .this with
  | some (_, .leaf (.table t)) => some t
  | some (_, .node .schema inner) =>
    match inner.find? fun a => a.1 = .this with
    | some (_, .leaf (.table t)) => some t
    | _ => none
  | _ => none

/-- The table that an `INSERT`, `UPDATE`, `DELETE` or `MERGE` names as its target. -/
def dmlTarget : Sql → Option Table
  | .node .insert args | .node .update args | .node .delete args | .node .merge args =>
    targetOfArgs args
  | _ => none

/-- The physical tables that a statement modifies, as transactions see it: the target of an
`INSERT`, `UPDATE`, `DELETE` or `MERGE` with a dataset. -/
def dmlTargets (s : Sql) (project : String) : List (String × String) :=
  match dmlTarget s with
  | none => []
  | some t =>
    if t.db = "" then []
    else [(schemaName (if t.catalog = "" then project else t.catalog) t.db, t.name)]

theorem dmlTargets_cases (s : Sql) (p : String) :
    dmlTargets s p = [] ∨ ∃ target, dmlTargets s p = [target] := by
  rw [dmlTargets]
  split
  · exact .inl rfl
  · split
    · exact .inl rfl
    · exact .inr ⟨_, rfl⟩

def isRowProducing : Sql → Bool
  | .node .select _ | .node .union _ | .node (.subquery _) _ | .node (.readRows _ _) _ => true
  | .node (.other name) _ => name = "intersect" || name = "except"
  | _ => false

def dottedParts (ref : String) : List String :=
  ((ref.toList.splitOn '.').filter (· ≠ [])).map String.ofList

def unquotedParts (ref : String) : List String :=
  (((ref.toList.splitOn '.').map trim).filter (· ≠ [])).map String.ofList
where
  trim (part : List Char) : List Char :=
    ((part.dropWhile isTick).reverse.dropWhile isTick).reverse
  isTick (c : Char) : Bool := c = Char.ofNat 96 || c = ' '

section Interpreter

variable {σ : Type} (env : ScriptEnv σ) (project : String)

/-! ## Effects and expressions -/

def attempt (e : Interp σ → Effect) : ScriptM σ (Except Failure ResultTable) := fun s =>
  ⟨[.effect (e s) s.world (env.perform (e s) s.world).2], .ok (env.perform (e s) s.world).1,
    { s with world := (env.perform (e s) s.world).2 }⟩

def perform (e : Interp σ → Effect) : ScriptM σ ResultTable := do
  match ← attempt env e with
  | .ok table => pure table
  | .error failure => raise failure.exn

/-- An engine error of a query: what the error mapper makes of it, or else a query error. -/
def queryError (message : String) : DomainError :=
  (env.translateRuntimeError message).getD
    (.invalidQuery ("Script SQL execution failed: " ++ message))

/-- Run a statement, or a query inside one. Only what the engine raises when it executes the
translated text is mapped. -/
def runQuery (isStatement : Bool) (sql : String) : ScriptM σ ResultTable := do
  match ← attempt env fun s => .runQuery isStatement project sql (allVisible s.frames) with
  | .ok table => pure table
  | .error (.domain e) => raise (.domain e)
  | .error (.engine message) => raise (.domain (queryError env message))
  | .error (.preparation message) => raise (.other message)

def evalExprScalar (expr : String) : ScriptM σ Scalar := do
  return (← runQuery env project false ("SELECT " ++ expr)).firstCell

def evalOptional : Option String → ScriptM σ Scalar
  | none => pure .null
  | some expr => evalExprScalar env project expr

def evalExprs : List String → ScriptM σ (List Scalar)
  | [] => pure []
  | expr :: rest => do
    let value ← evalExprScalar env project expr
    return value :: (← evalExprs rest)

def evalExprRow (expr : String) : ScriptM σ (List Scalar) := do
  let table ← runQuery env project false (Text.unwrapped expr)
  match table.toPylist with
  | [] => raise (.domain (.invalidQuery "SET (targets) = (SELECT ...) returned no rows"))
  | row :: _ => pure (row.map Prod.snd)

/-! ## Frames -/

def push (frame : Frame) : ScriptM σ Unit :=
  modify fun s => { s with frames := frame :: s.frames }

def Interp.pop (s : Interp σ) : Interp σ :=
  { s with frames := s.frames.tail }

def Frame.single (kind : FrameKind) (name typeName : String) (value : Value) : Frame where
  kind := kind
  vars := [(name, { typeName, value })]

/-- Change the frames; the change may fail, and what it did before it failed stays. -/
def updateFrames (change : List Frame → List Frame × Option DomainError) : ScriptM σ Unit :=
  fun s => ⟨[], match (change s.frames).2 with
    | none => .ok ()
    | some e => .error (.domain e), { s with frames := (change s.frames).1 }⟩

def assignValues (names : List String) (values : List Scalar) : ScriptM σ Unit :=
  updateFrames (assignAll (names.zip (values.map .scalar)))

def inFrame (frame : Frame) (body : ScriptM σ Unit) : ScriptM σ Unit := do
  push frame
  finally_ body Interp.pop

def runBlock (kind : FrameKind) (body : ScriptM σ Unit) : ScriptM σ Unit :=
  inFrame { kind } body

/-! ## Transactions -/

def setFinalTable (table : Option ResultTable) : ScriptM σ Unit :=
  modify fun s => { s with finalTable := table }

variable (cause : TxnCause)

def closeTxn (change : List ((String × String) × String) → σ → σ) : ScriptM σ Unit := fun s =>
  let after := match s.activeTxn with
    | none => s.world
    | some backups => change backups s.world
  ⟨[.txn cause s.world after], .ok (), { s with world := after, activeTxn := none }⟩

variable (backups : List ((String × String) × String))

def dropAll (w : σ) : σ :=
  backups.foldl (fun w b => env.dropBackup b.2 w) w

def restoreAll (w : σ) : σ :=
  backups.foldl (fun w b => env.restore b.1 b.2 w) w

def dropTxnSnapshots : ScriptM σ Unit :=
  closeTxn cause (dropAll env)

def restoreTxnSnapshots : ScriptM σ Unit :=
  closeTxn cause (restoreAll env)

def beginTxn : ScriptM σ Unit := fun s =>
  ⟨[.txn .begin_ s.world s.world], .ok (), { s with activeTxn := some (s.activeTxn.getD []) }⟩

def handleTxnStatement : TxnCause → ScriptM σ Unit
  | .begin_ => beginTxn
  | .commit => dropTxnSnapshots env .commit
  | .rollback => restoreTxnSnapshots env .rollback
  | _ => pure ()

variable (target : String × String)

def snapshotTarget : ScriptM σ Unit := fun s =>
  match s.activeTxn with
  | none => ⟨[], .ok (), s⟩
  | some backups =>
    if backups.any fun b => b.1 = target then ⟨[], .ok (), s⟩
    else
      let name := env.backupName s.world
      match env.backup target name s.world with
      | none => ⟨[], .ok (), s⟩
      | some after => ⟨[.backup target name s.world after], .ok (),
          { s with world := after, activeTxn := some (backups ++ [(target, name)]) }⟩

theorem snapshotTarget_cases (s : Interp σ) :
    (snapshotTarget env target s = ⟨[], .ok (), s⟩ ∧ ∀ backups, s.activeTxn = some backups →
      (∃ b ∈ backups, b.1 = target) ∨ env.backup target (env.backupName s.world) s.world = none) ∨
    ∃ backups after, s.activeTxn = some backups ∧ (∀ b ∈ backups, b.1 ≠ target) ∧
      env.backup target (env.backupName s.world) s.world = some after ∧
      snapshotTarget env target s =
        ⟨[.backup target (env.backupName s.world) s.world after], .ok (), { s with
          world := after
          activeTxn := some (backups ++ [(target, env.backupName s.world)]) }⟩ := by
  rw [snapshotTarget]
  cases ht : s.activeTxn with
  | none => exact .inl ⟨rfl, fun backups h => by cases h⟩
  | some backups =>
    simp only
    split
    · rename_i ho
      simp only [List.any_eq_true, decide_eq_true_eq] at ho
      exact .inl ⟨rfl, fun b' h => .inl (Option.some.inj h ▸ ho)⟩
    rename_i hn
    simp only [List.any_eq_true, decide_eq_true_eq, not_exists, not_and] at hn
    cases hb : env.backup target (env.backupName s.world) s.world with
    | none => exact .inl ⟨rfl, fun _ _ => .inr rfl⟩
    | some after => exact .inr ⟨backups, after, rfl, hn, rfl, rfl⟩

def snapshotDmlTargets (sql : String) : ScriptM σ Unit :=
  (dmlTargets (env.parseSql sql) project).foldr (fun target rest => do
    snapshotTarget env target
    rest) (pure ())

/-! ## Simple statements -/

def invalid {α : Type} (message : String) : ScriptM σ α :=
  raise (.domain (.invalidQuery message))

def execDeclare (names : List String) (typeName : String) (defaultExpr : Option String) :
    ScriptM σ Unit := do
  let value ← evalOptional env project defaultExpr
  updateFrames (declareAll typeName (.scalar value) names)

def execSet (targets : List String) (sourceExpr : String) : ScriptM σ Unit := do
  if targets.length = 1 then
    let value ← evalExprScalar env project sourceExpr
    assignValues targets [value]
  else
    let row ← evalExprRow env project sourceExpr
    if row.length ≠ targets.length then
      invalid ("SET (targets) column count " ++ toString targets.length ++ " != row columns " ++
        toString row.length)
    else assignValues targets row

def execReturn (valueExpr : Option String) : ScriptM σ Unit := do
  let value ← evalOptional env project valueExpr
  raise (.return_ value)

def execRaise (messageExpr : Option String) : ScriptM σ Unit := do
  let value ← evalOptional env project messageExpr
  let text := value.text?.getD ""
  raise (.raised (.invalidQuery (if text = "" then "User-raised error" else text))
    value.text?)

/-- The names of a dotted reference to a routine: a single name is that of a temporary routine. -/
def resolveRef (ref : String) : ScriptM σ TableId :=
  lift fun s =>
    let qualified : Except Exn TableId := match dottedParts ref with
      | [p, d, r] => .ok ⟨p, d, r⟩
      | [d, r] => .ok ⟨project, d, r⟩
      | _ => .error (.domain (.invalidQuery
          ("Routine reference must have 2 or 3 parts: " ++ ref)))
    match dottedParts ref with
    | [name] => match env.resolveTemp s.world name with
      | some id => .ok id
      | none => qualified
    | _ => qualified

def execCreateFunction (stmt : CreateFunctionStmt) : ScriptM σ Unit := do
  if (dottedParts stmt.name).length = 1 then
    let _ ← perform env fun _ => .createTempFunction project stmt
  else
    let id ← resolveRef env project stmt.name
    let _ ← perform env fun _ => .upsertFunction id stmt

def execCreateProcedure (stmt : CreateProcedureStmt) : ScriptM σ Unit := do
  let id ← resolveRef env project stmt.name
  let _ ← perform env fun _ => .upsertProcedure id stmt

def runStatementWithParams (sql : String) (usingValues : List Scalar) : ScriptM σ Unit := do
  if env.isCreateModel sql then
    if usingValues ≠ [] then
      raise (.domain (.unsupported ("EXECUTE IMMEDIATE of CREATE MODEL does not support " ++
        "USING parameters in the training query.")))
    else
      let _ ← perform env fun s => .createModel project sql (allVisible s.frames)
      setFinalTable none
  else
    match ← attempt env fun s =>
        .runStatementWithParams project sql (allVisible s.frames) usingValues with
    | .ok table =>
      setFinalTable (if isRowProducing (env.parseSql sql) then some table else none)
    | .error (.domain e) => raise (.domain e)
    | .error (.engine message) => invalid ("EXECUTE IMMEDIATE failed: " ++ message)
    | .error (.preparation message) => raise (.other message)

def execExecuteImmediate (sqlExpr : String) (intoNames usingExprs : List String) :
    ScriptM σ Unit := do
  match ← evalExprScalar env project sqlExpr with
  | .string sql =>
    let usingValues ← evalExprs env project usingExprs
    if intoNames = [] then runStatementWithParams env project sql usingValues
    else
      let table ← perform env fun s =>
        .runQueryWithParams project sql (allVisible s.frames) usingValues
      match table.toPylist with
      | [] => invalid "EXECUTE IMMEDIATE INTO returned no rows"
      | [row] =>
        if row.length ≠ intoNames.length then
          invalid ("EXECUTE IMMEDIATE INTO target count " ++ toString intoNames.length ++
            " != result columns " ++ toString row.length)
        else assignValues intoNames (row.map Prod.snd)
      | _ => invalid "EXECUTE IMMEDIATE INTO returned multiple rows"
  | _ => invalid "EXECUTE IMMEDIATE requires a STRING expression"

/-- A SQL statement that is no transaction control. Its targets are backed up first; then come the
statements with managers; the effect of others on the catalog is synchronised after they ran. -/
def execSqlStatement (sql : String) : ScriptM σ Unit := do
  snapshotDmlTargets env project sql
  match env.versioningDdl project sql with
  | some ddl =>
    let _ ← perform env fun _ => .versioningDdl ddl
    setFinalTable none
  | none =>
    if env.isExportData sql then
      let _ ← perform env fun s => .exportData project sql (allVisible s.frames)
      setFinalTable none
    else if env.isCreateModel sql then
      let _ ← perform env fun s => .createModel project sql (allVisible s.frames)
      setFinalTable none
    else
      let _ ← perform env fun _ => .assertDropSchemaAllowed project sql
      let table ← runQuery env project true sql
      setFinalTable (if isRowProducing (env.parseSql sql) then some table else none)
      let _ ← perform env fun _ => .syncDdl project sql

/-- A SQL statement. -/
def execSql (text : String) : ScriptM σ Unit := do
  let sql := Text.strip text
  if sql = "" then pure ()
  else match classifyTxnStatement sql with
    | some op => do
      handleTxnStatement env op
      setFinalTable none
    | none => execSqlStatement env project sql

/-! ## Loops and blocks -/

def loopQuota {α : Type} (kind : String) : ScriptM σ α :=
  raise (.domain (.quotaExceeded
    (kind ++ " exceeded max iterations (" ++ toString env.maxLoopIters ++ ")")))

variable (body : ScriptM σ Unit)

def iterate : ScriptM σ Bool :=
  tryCatch (do body; pure true) fun
    | .break_ => pure false
    | .continue_ => pure true
    | e => raise e

def execWhile (conditionExpr : String) (body : ScriptM σ Unit) : Nat → ScriptM σ Unit
  | 0 => do
    if isTruthy (← evalExprScalar env project conditionExpr) then loopQuota env "WHILE"
    else pure ()
  | left + 1 => do
    if isTruthy (← evalExprScalar env project conditionExpr) then
      if ← iterate (runBlock .loop body) then execWhile conditionExpr body left else pure ()
    else pure ()

def execLoop (body : ScriptM σ Unit) : Nat → ScriptM σ Unit
  | 0 => loopQuota env "LOOP"
  | left + 1 => do
    if ← iterate (runBlock .loop body) then execLoop body left else pure ()

def popFrame : ScriptM σ Unit :=
  modify Interp.pop

/-- One iteration of `FOR`, in a frame with the row, closed when the body ends, breaks or continues,
and left open otherwise. -/
def iterateFor (loopVar : String) (row : List (String × Scalar)) (body : ScriptM σ Unit) :
    ScriptM σ Bool := do
  push (.single .loop loopVar "STRUCT" (.struct row))
  tryCatch (do body; popFrame; pure true) fun
    | .break_ => do popFrame; pure false
    | .continue_ => do popFrame; pure true
    | e => do emit .leftFor; raise e

def execFor (loopVar : String) (body : ScriptM σ Unit) :
    Nat → List (List (String × Scalar)) → ScriptM σ Unit
  | _, [] => pure ()
  | 0, _ :: _ => loopQuota env "FOR"
  | left + 1, row :: rest => do
    if ← iterateFor loopVar row body then execFor loopVar body left rest else pure ()

/-- `BEGIN … EXCEPTION WHEN ERROR THEN … END`. A handler runs in a frame with the message, after the
backups are dropped. -/
def execBegin : Option (ScriptM σ Unit) → ScriptM σ Unit
  | none => runBlock .block body
  | some handler => tryCatch (runBlock .block body) fun e =>
    match e.handledMessage with
    | none => raise e
    | some message => do
      dropTxnSnapshots env .handler
      inFrame (.single .block "__error_message__" "STRING" (.scalar (.string message))) handler

/-! ## Calls -/

def evaluateOneArgument (mode : ParamMode) (expr : String) : ScriptM σ (Scalar × Option String) :=
  let callerVar := Text.strip expr
  let writeback := if Text.isIdentifier callerVar then some callerVar else none
  match mode with
  | .output => pure (.null, writeback)
  | .inout => do return (← evalExprScalar env project expr, writeback)
  | .input => do return (← evalExprScalar env project expr, none)

def evaluateCallArguments :
    List ((String × ParamMode) × String) → ScriptM σ (List (Scalar × Option String))
  | [] => pure []
  | (param, expr) :: rest => do
    let value ← evaluateOneArgument env project param.2 expr
    return value :: (← evaluateCallArguments rest)

def writebacks (params : List (String × ParamMode)) (names : List (Option String))
    (calleeFrame : List (String × Value)) : List (String × Value) :=
  (names.zip params).filterMap fun (name, param) =>
    name.bind fun name => (calleeFrame.find? fun x => x.1 = param.1).map fun x => (name, x.2)

def refreshTarget (target : String) : ScriptM σ TableId :=
  match unquotedParts target with
  | [p, d, t] => pure ⟨p, d, t⟩
  | [d, t] => pure ⟨project, d, t⟩
  | _ => invalid ("BQ.REFRESH_MATERIALIZED_VIEW: invalid materialized view name " ++
      Text.quoted target)

def execCallRefreshMv (argExprs : List String) : ScriptM σ Unit := do
  match argExprs with
  | [arg] =>
    match ← evalExprScalar env project arg with
    | .string target =>
      let id ← refreshTarget project target
      let _ ← perform env fun _ => .versioningDdl (.refreshMaterializedView id)
      setFinalTable none
    | _ => invalid "BQ.REFRESH_MATERIALIZED_VIEW: argument must evaluate to a STRING"
  | _ => invalid ("BQ.REFRESH_MATERIALIZED_VIEW expects 1 argument (the fully-" ++
      "qualified materialized view name as a STRING)")

def resolveCallRoutine (ref : String) : ScriptM σ Procedure := do
  let id ← resolveRef env project ref
  lift fun s => match env.getProcedure s.world id with
    | some routine => .ok routine
    | none => .error (.domain (.notFound
        ("Not found: routine:" ++ id.project ++ "." ++ id.dataset ++ "." ++ id.table)))

variable (invoke : Procedure → List Scalar → ScriptM σ (List (String × Value)))

def execCall (routineRef : String) (argExprs : List String) : ScriptM σ Unit := do
  if Text.upper routineRef = "BQ.REFRESH_MATERIALIZED_VIEW" then
    execCallRefreshMv env project argExprs
  else
    let routine ← resolveCallRoutine env project routineRef
    if argExprs.length ≠ routine.arguments.length then
      invalid ("Procedure " ++ routine.routineId ++ " expects " ++
        toString routine.arguments.length ++ " arguments, got " ++ toString argExprs.length)
    else
      let arguments ← evaluateCallArguments env project (routine.arguments.zip argExprs)
      let calleeFrame ← invoke routine (arguments.map Prod.fst)
      updateFrames (assignAll (writebacks routine.arguments (arguments.map Prod.snd) calleeFrame))

/-! ## Statements -/

def countStatement : ScriptM σ Unit := fun s =>
  if s.statementsExecuted + 1 > env.maxStatements then
    ⟨[], .error (.domain (.quotaExceeded ("Script exceeded maximum statement count (" ++
      toString env.maxStatements ++ ")"))),
      { s with statementsExecuted := s.statementsExecuted + 1 }⟩
  else ⟨[.statement], .ok (), { s with statementsExecuted := s.statementsExecuted + 1 }⟩

def counted : ScriptM σ Unit := do
  countStatement env
  body

mutual

/-- A statement, by recursion on its syntax. -/
def dispatch : Stmt → ScriptM σ Unit
  | .declare names typeName defaultExpr => execDeclare env project names typeName defaultExpr
  | .set targets sourceExpr => execSet env project targets sourceExpr
  | .ifThen branches none => execBranches branches (pure ())
  | .ifThen branches (some elseBody) =>
    execBranches branches (runBlock .block (execStatements elseBody))
  | .whileDo conditionExpr body =>
    execWhile env project conditionExpr (execStatements body) env.maxLoopIters
  | .loop body => execLoop env (execStatements body) env.maxLoopIters
  | .forIn loopVar sourceSql body => do
    let table ← runQuery env project false (Text.unwrapped sourceSql)
    execFor env loopVar (execStatements body) env.maxLoopIters table.toPylist
  | .break_ => raise .break_
  | .continue_ => raise .continue_
  | .return_ valueExpr => execReturn env project valueExpr
  | .begin_ body none => execBegin env (execStatements body) none
  | .begin_ body (some handler) =>
    execBegin env (execStatements body) (some (execStatements handler))
  | .call routineRef argExprs => execCall env project invoke routineRef argExprs
  | .executeImmediate sqlExpr intoNames usingExprs =>
    execExecuteImmediate env project sqlExpr intoNames usingExprs
  | .raise messageExpr => execRaise env project messageExpr
  | .createFunction stmt => execCreateFunction env project stmt
  | .createProcedure stmt => execCreateProcedure env project stmt
  | .sql text => execSql env project text

/-- Statements one after the other. -/
def execStatements : List Stmt → ScriptM σ Unit
  | [] => pure ()
  | stmt :: rest => do
    counted env (dispatch stmt)
    execStatements rest

/-- The branches of an `IF`. -/
def execBranches : List (String × List Stmt) → ScriptM σ Unit → ScriptM σ Unit
  | [], elseBody => elseBody
  | (conditionExpr, body) :: rest, elseBody => do
    if isTruthy (← evalExprScalar env project conditionExpr) then
      runBlock .block (execStatements body)
    else execBranches rest elseBody

end

/-- A statement. -/
def execStatement (stmt : Stmt) : ScriptM σ Unit :=
  counted env (dispatch env project invoke stmt)

/-! ## Runs -/

/-- A run of a script: at its end an open transaction is committed, and an exception that leaves
it undoes one. -/
def runScript (source : String) : ScriptM σ ScriptResult :=
  match env.parseScript source with
  | .error e => raise (.domain e)
  | .ok statements => do
    tryCatch (do
        execStatements env project invoke statements
        dropTxnSnapshots env .finish) fun e => do
      restoreTxnSnapshots env .abort
      let _ ← attempt env fun _ => .cleanupTempRoutines
      raise e
    let _ ← attempt env fun _ => .cleanupTempRoutines
    let s ← state
    return { finalTable := s.finalTable, statementsExecuted := s.statementsExecuted }

end Interpreter

section Procedures

variable {σ : Type} (env : ScriptEnv σ)

def calleeFrames (params : List (String × ParamMode)) (args : List Scalar) :
    Except DomainError (List Frame) :=
  (params.zip args).foldlM (fun frames x =>
    declare x.1.1 { typeName := "ANY", value := .scalar x.2 } frames) [{ kind := .root }]

/-- A run of a procedure's body by an interpreter of its own. A `RETURN` ends it; other exceptions
reach the caller. -/
def nested (run : ScriptM σ ScriptResult) (frames : List Frame) :
    ScriptM σ (List (String × Value)) := fun s =>
  let o := run { frames, world := s.world }
  match o.result with
  | .ok _ | .error (.return_ _) =>
    ⟨[.called o.trace none s.world o.state.world], .ok (snapshotCurrent o.state.frames),
      { s with world := o.state.world, finalTable := o.state.finalTable }⟩
  | .error e => ⟨[.called o.trace (some e) s.world o.state.world], .error e,
      { s with world := o.state.world }⟩

def Exn.tooDeep : Exn := .other "maximum recursion depth exceeded"

/-- A call of a procedure, with the depth of nested calls that is left. -/
def invokeProcedure : Nat → Procedure → List Scalar → ScriptM σ (List (String × Value))
  | 0, _, _ => fun s => ⟨[.called [] (some .tooDeep) s.world s.world], .error .tooDeep, s⟩
  | depth + 1, routine, args =>
    match calleeFrames routine.arguments args with
    | .error e => raise (.domain e)
    | .ok frames => nested
        (runScript env routine.projectId (invokeProcedure depth) routine.definitionBody) frames

/-- The run of a script by a query job. -/
def runJobScript (depth : Nat) (project source : String) (w : σ) :
    Outcome (Event σ) Exn (Interp σ) ScriptResult :=
  runScript env project (invokeProcedure env depth) source
    { frames := [{ kind := .root }], world := w }

end Procedures

/-- An environment without statements of special kinds, whose effects leave the world alone. -/
def ScriptEnv.idle (σ : Type) : ScriptEnv σ where
  maxStatements := 10
  maxLoopIters := 10
  parseScript sql := .ok [.sql sql]
  parseSql _ := .leaf (.unparsed "")
  versioningDdl _ _ := none
  isExportData _ := false
  isCreateModel _ := false
  resolveTemp _ _ := none
  getProcedure _ _ := none
  translateRuntimeError _ := none
  perform _ w := (.ok {}, w)
  backup _ _ w := some w
  restore _ _ w := w
  dropBackup _ w := w
  backupName _ := "_bqemu_txn_0"

/-- Every query yields one row with `TRUE`, but `SELECT 1/0` fails. -/
def ScriptEnv.blank (maxStatements : Nat) (parse : String → Except DomainError (List Stmt))
    (procedures : List (TableId × Procedure)) : ScriptEnv Unit :=
  { ScriptEnv.idle Unit with
    maxStatements
    parseScript := parse
    getProcedure _ id := (procedures.find? fun p => p.1 = id).map Prod.snd
    perform e _ := (match e with
      | .runQuery _ _ "SELECT 1/0" _ => .error (.engine "Division by zero")
      | _ => .ok { columns := ["f"], rows := [[.bool true]] }, ()) }

end Bqemulator
