import Bqemulator.Catalog.MemoryRepository

/-!
# Bodies of REST requests

The record that a REST body describes. A field that the body leaves out is the one of the record it
replaces, or the default of a new one; an id in the body is taken before the one of the path.
-/

namespace Bqemulator

def idOr (reference : Option String) (other : String) : String :=
  if reference.getD "" = "" then other else reference.getD ""

/-! ## Datasets -/

/-- The body of a dataset request; the reference is the id in its `datasetReference` block. -/
structure DatasetBody where
  datasetReference : Option String := none
  datasetId : String := ""
  access : Option (List AccessEntry) := none

/-- The dataset that a body describes. -/
def restToDatasetMeta (projectId : String) (body : DatasetBody) (existing : Option DatasetMeta) :
    DatasetMeta where
  projectId := projectId
  datasetId := idOr body.datasetReference body.datasetId
  accessEntries := body.access.getD (existing.elim [] DatasetMeta.accessEntries)

/-! ## Tables -/

/-- The body of a request for a table. -/
structure TableBody where
  tableReference : Option String := none
  tableId : String := ""
  type : Option TableType := none
  view : Option (Option Sql) := none
  fields : List FieldSchema := []

/-- The query and the type of the table a body describes. A query without a type makes it a view. -/
def restToViewQueryAndType (body : TableBody) (existing : Option TableMeta) :
    Option Sql × TableType :=
  let viewQuery := body.view.getD (existing.bind TableMeta.viewQuery)
  let inferred := if viewQuery.isSome then .view else existing.elim .table TableMeta.tableType
  (viewQuery, body.type.getD inferred)

variable (projectId datasetId : String)

/-- The table that a body describes. -/
def restToTableMeta (body : TableBody) (existing : Option TableMeta) : TableMeta where
  id := ⟨projectId, datasetId, idOr body.tableReference body.tableId⟩
  tableType := (restToViewQueryAndType body existing).2
  viewQuery := (restToViewQueryAndType body existing).1
  fields := if body.fields.isEmpty then existing.elim [] TableMeta.fields else body.fields
  numRows := existing.elim 0 TableMeta.numRows

/-! ## Routines -/

/-- The body of a routine request, with the types of its arguments; that of the result may be
`null`. -/
structure RoutineBody where
  routineReference : Option String := none
  routineType : Option RoutineType := none
  language : Option RoutineLanguage := none
  arguments : Option (List String) := none
  argumentTypes : List (Option String) := []
  returnType : Option (Option String) := none
  definitionBody : Option Sql := none

def parseArguments (raw : List String) : Except DomainError (List String) :=
  if raw.all fun name => name ≠ "" then .ok raw
  else .error (.invalidQuery "Routine argument missing name")

/-- The routine that a body describes. -/
def restToRoutineMeta (body : RoutineBody)
    (existing : Option RoutineMeta) : Except DomainError RoutineMeta :=
  let routineId := idOr body.routineReference (existing.elim "" RoutineMeta.routineId)
  if routineId = "" then
    .error (.invalidQuery "Routine body must include routineReference.routineId")
  else
    (body.arguments.elim (.ok (existing.elim [] RoutineMeta.arguments)) parseArguments).map
      fun arguments =>
        { projectId, datasetId, routineId, arguments
          argumentTypes := if body.arguments.isSome then body.argumentTypes
            else existing.elim [] RoutineMeta.argumentTypes
          returnType := body.returnType.getD (existing.elim none RoutineMeta.returnType)
          routineType := body.routineType.getD (existing.elim .scalarFunction
            RoutineMeta.routineType)
          language := body.language.getD (existing.elim .sql RoutineMeta.language)
          definitionBody := body.definitionBody.getD (existing.elim (.leaf (.unparsed ""))
            RoutineMeta.definitionBody) }

end Bqemulator
