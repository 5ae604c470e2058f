import Bqemulator.Sql.Translator

/-!
# Table-valued functions

A table-valued function is stored as a macro. Its body is translated and its tables are named when
it is created; the passes for time travel and row access see only the statement that calls it.
-/

namespace Bqemulator

variable {Row : Type}

def qualifiedRoutineName (routine : RoutineMeta) : Except DomainError String :=
  qualifiedRoutineNameParts routine.projectId routine.datasetId routine.routineId

/-- The stored body of a table-valued function: translated, with its tables named. -/
def translateTvfBody (ctx : AppContext) (body : Sql) (projectId : String) :
    Except DomainError Sql :=
  match translate ctx body with
  | .ok duckdbSql => rewriteTableRefs projectId duckdbSql
  | .error e => .error (.invalidQuery ("Invalid TVF body: " ++ e.message))

/-- The databases in which a macro of this name has this body. -/
def Storage.Holds (name : String) (body : Sql) (st : Storage Row) : Prop :=
  st.macros.lookup name = some body

end Bqemulator
