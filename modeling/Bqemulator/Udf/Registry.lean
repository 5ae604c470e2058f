import Bqemulator.Catalog.Requests
import Bqemulator.Udf.TableValued

/-!
# The registry of functions

A routine that is not a procedure is a function of the database: a macro, a table macro, or a
function that calls a JavaScript context. Requests write the catalog and call the registry one after
the other, and a restart, which keeps the macros but no context, registers every routine again.
-/

namespace Bqemulator

/-! ## Functions of the database -/

inductive FunctionKind where
  | scalarMacro
  | tableMacro
  | javascript
deriving DecidableEq

/-- The runtime of a routine. The body of a procedure is interpreted when it is called. -/
def RoutineMeta.dispatch (r : RoutineMeta) : Option FunctionKind :=
  if r.routineType = .tableValuedFunction then some .tableMacro
  else if r.routineType = .procedure then none
  else if r.language = .javascript then some .javascript
  else some .scalarMacro

/-- A function of the database. The types are those of a JavaScript function; a macro has none. -/
structure DuckdbFunction where
  kind : FunctionKind
  name : String
  arguments : List String
  types : List (Option String) × Option String := ([], none)
  body : Sql

/-- The database finds a function whatever the case of its name. -/
def DuckdbFunction.key (f : DuckdbFunction) : FunctionKind × String :=
  (f.kind, Text.lower f.name)

/-- A JavaScript context: the routine it belongs to and the function that calls it. -/
structure JsContext where
  key : String × String × String
  qualifiedName : String

/-- **The compilers**: the translation of `SELECT body` without the `SELECT`, V8 on the script of a
routine, and whether the database takes a function of its types. -/
structure UdfEnv where
  ctx : AppContext
  translateBody : Sql → Except DomainError Sql
  evalScript : RoutineMeta → Except DomainError Unit
  createFunction : RoutineMeta → Except DomainError Unit

def validateArguments (r : RoutineMeta) : Except DomainError (List String) :=
  r.arguments.mapM fun a => validateSqlId a "routine arg"

/-- The function a routine is compiled to. -/
def compile (env : UdfEnv) (r : RoutineMeta) : FunctionKind → Except DomainError DuckdbFunction
  | .scalarMacro =>
    (qualifiedRoutineName r).bind fun name =>
      (validateArguments r).bind fun arguments =>
        (env.translateBody r.definitionBody).map fun body =>
          { kind := .scalarMacro, name, arguments, body }
  | .tableMacro =>
    (qualifiedRoutineName r).bind fun name =>
      (validateArguments r).bind fun arguments =>
        (translateTvfBody env.ctx r.definitionBody r.projectId).map fun body =>
          { kind := .tableMacro, name, arguments, body }
  | .javascript =>
    (validateSqlId r.routineId "routine").bind fun _ =>
      (env.evalScript r).bind fun _ =>
        (qualifiedRoutineName r).map fun name =>
          { kind := .javascript
            name
            arguments := r.arguments
            types := (r.argumentTypes, r.returnType)
            body := r.definitionBody }

/-! ## The registry -/

abbrev Functions := Keyed DuckdbFunction.key

/-- The answers of the database to `CREATE OR REPLACE MACRO`, with the functions it has. -/
abbrev MacroAnswers := Functions → DuckdbFunction → Except DomainError Unit

/-- The catalog, the functions of the database and the contexts. -/
structure UdfWorld where
  catalog : MemoryRepository
  functions : Functions := .empty
  contexts : Keyed JsContext.key := .empty

def alreadyCreated (name : String) : DomainError :=
  .invalidQuery ("A function by the name of '" ++ name ++ "' is already created")

namespace UdfWorld

variable (env : UdfEnv) (answers : MacroAnswers)

/-- A macro is created or replaced, or the database refuses it and keeps what it has. -/
def createMacro (f : DuckdbFunction) (w : UdfWorld) : UdfWorld × Except DomainError Unit :=
  match answers w.functions f with
  | .error e => (w, .error e)
  | .ok () => ({ w with functions := w.functions.put f }, .ok ())

def removeContext (key : String × String × String) (w : UdfWorld) : UdfWorld :=
  match w.contexts.get? key with
  | none => w
  | some prior =>
    { w with
      contexts := w.contexts.erase key
      functions := w.functions.erase (.javascript, Text.lower prior.qualifiedName) }

/-- A JavaScript function: the context replaces the one before, whose function is removed,
before the database is asked for the new one. -/
def createJavascript (r : RoutineMeta) (f : DuckdbFunction) (w : UdfWorld) :
    UdfWorld × Except DomainError Unit :=
  let w := w.removeContext r.key
  let w := { w with contexts := w.contexts.put ⟨r.key, f.name⟩ }
  match env.createFunction r with
  | .error e => (w, .error e)
  | .ok () =>
    if (w.functions.get? f.key).isSome then (w, .error (alreadyCreated f.name))
    else ({ w with functions := w.functions.put f }, .ok ())

/-- Register a routine, in place of what its runtime had registered for it. -/
def materialize (r : RoutineMeta) (w : UdfWorld) : UdfWorld × Except DomainError Unit :=
  match r.dispatch with
  | none => (w, .ok ())
  | some kind =>
    match compile env r kind with
    | .error e => (w, .error e)
    | .ok f => if kind = .javascript then w.createJavascript env r f else w.createMacro answers f

/-- Remove a routine from the runtime it has now. -/
def deregister (r : RoutineMeta) (w : UdfWorld) : UdfWorld × Except DomainError Unit :=
  match r.dispatch with
  | none => (w, .ok ())
  | some .javascript => (w.removeContext r.key, .ok ())
  | some kind =>
    match qualifiedRoutineName r with
    | .error e => (w, .error e)
    | .ok name => ({ w with functions := w.functions.erase (kind, Text.lower name) }, .ok ())

variable (datasets : List (String × String))

/-- Register every routine of the catalog, dataset by dataset. An error is logged only. -/
def hydrate (w : UdfWorld) : UdfWorld :=
  (datasets.flatMap fun d => w.catalog.listRoutines d.1 d.2).foldl
    (fun w r => (w.materialize env answers r).1) w

/-- A restart on the same database file: the macros are still there, what the process had is
not. -/
def restart (w : UdfWorld) : UdfWorld :=
  hydrate env answers datasets
    { w with
      functions := w.functions.removeIf fun f => f.kind = .javascript
      contexts := .empty }

end UdfWorld

/-! ## Operations on routines -/

/-- The operations on routines: the REST routes, the statements of SQL, and a restart over the
datasets in some order. -/
inductive RoutineOp where
  | insert (project dataset : String) (body : RoutineBody)
  | replace (key : String × String × String) (body : RoutineBody)
  | delete (key : String × String × String)
  | upsert (r : RoutineMeta) (orReplace : Bool)
  | drop (key : String × String × String) (ifExists : Bool)
  | restart (datasets : List (String × String))

/-- What an operation does once its checks are passed: register a routine with the catalog that has
it, remove one and then its row, or nothing. -/
inductive RoutinePlan where
  | write (catalog : MemoryRepository) (r : RoutineMeta)
  | remove (existing : RoutineMeta) (notFoundOk : Bool)
  | skip

open Requests (orNotFound orAlreadyExists)

/-- What an operation does before it calls the registry. -/
def RoutineOp.plan (c : MemoryRepository) : RoutineOp → Except DomainError RoutinePlan
  | .insert project dataset body =>
    (restToRoutineMeta project dataset body none).bind fun r =>
      (orAlreadyExists (c.getRoutine r.key) (MemoryRepository.routineRef r.key)).bind fun _ =>
        (c.createRoutine r).map (.write · r)
  | .replace key body =>
    (orNotFound (c.getRoutine key) (MemoryRepository.routineRef key)).bind fun existing =>
      (restToRoutineMeta key.1 key.2.1
          { body with routineReference := body.routineReference.getD key.2.2 } existing).bind
        fun r => (c.updateRoutine r).map (.write · r)
  | .delete key =>
    (orNotFound (c.getRoutine key) (MemoryRepository.routineRef key)).map (.remove · false)
  | .upsert r orReplace =>
    match c.getRoutine r.key with
    | none => (c.createRoutine r).map (.write · r)
    | some _ =>
      if orReplace then (c.updateRoutine r).map (.write · r)
      else .error (resourceAlreadyExists (MemoryRepository.routineRef r.key))
  | .drop key ifExists =>
    match c.getRoutine key with
    | none =>
      if ifExists then .ok .skip else .error (resourceNotFound (MemoryRepository.routineRef key))
    | some existing => .ok (.remove existing true)
  | .restart _ => .ok .skip

namespace UdfWorld

variable (env : UdfEnv) (answers : MacroAnswers)

/-- The registry's part of an operation. A routine is in the catalog before it is registered,
and leaves it after its removal. -/
def carryOut (w : UdfWorld) : RoutinePlan → UdfWorld × Except DomainError Unit
  | .write catalog r => { w with catalog }.materialize env answers r
  | .remove existing notFoundOk =>
    match w.deregister existing with
    | (w, .error e) => (w, .error e)
    | (w, .ok ()) =>
      match w.catalog.deleteRoutine existing.key notFoundOk with
      | .error e => (w, .error e)
      | .ok catalog => ({ w with catalog }, .ok ())
  | .skip => (w, .ok ())

/-- One operation, and what it answers. -/
def step (w : UdfWorld) : RoutineOp → UdfWorld × Except DomainError Unit
  | .restart datasets => (w.restart env answers datasets, .ok ())
  | op =>
    match op.plan w.catalog with
    | .error e => (w, .error e)
    | .ok plan => w.carryOut env answers plan

theorem catalog_removeContext (key : String × String × String) (w : UdfWorld) :
    (w.removeContext key).catalog = w.catalog := by
  unfold removeContext
  split <;> rfl

end UdfWorld

end Bqemulator
