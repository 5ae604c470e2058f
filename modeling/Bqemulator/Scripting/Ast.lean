import Bqemulator.Catalog.Models

/-!
# Scripts

The statements of a multi-statement script as its parser delivers them. Expressions and SQL
statements inside a script are kept as text, which the interpreter hands to the SQL pipeline.
-/

namespace Bqemulator

/-! ## Values -/

/-- A cell of a result set. A float is kept by its text and whether it is zero, another type by its
text. -/
inductive Scalar where
  | null
  | bool (b : Bool)
  | int (n : Int)
  | float (isZero : Bool) (text : String)
  | string (s : String)
  | other (text : String)
deriving DecidableEq

/-- The values of variables. -/
inductive Value where
  | scalar (v : Scalar)
  | struct (fields : List (String × Scalar))
deriving DecidableEq

/-- The truth of a condition: `NULL`, `FALSE`, zero and the empty string are false. -/
def isTruthy : Scalar → Bool
  | .null => false
  | .bool b => b
  | .int n => n ≠ 0
  | .float isZero _ => !isZero
  | .string s => s ≠ ""
  | .other _ => true

def Scalar.text? : Scalar → Option String
  | .null => none
  | .bool true => some "True"
  | .bool false => some "False"
  | .int n => some (toString n)
  | .float _ text | .other text => some text
  | .string s => some s

def dictSet {α : Type} (d : List (String × α)) (key : String) (value : α) : List (String × α) :=
  match d with
  | [] => [(key, value)]
  | (k, v) :: rest => if k = key then (k, value) :: rest else (k, v) :: dictSet rest key value

/-- The result of a query. -/
structure ResultTable where
  columns : List String := []
  rows : List (List Scalar) := []
deriving DecidableEq

/-- The rows of a result set as dictionaries: of two columns of one name the later one wins. -/
def ResultTable.toPylist (t : ResultTable) : List (List (String × Scalar)) :=
  t.rows.map fun row => (t.columns.zip row).foldl (fun d cell => dictSet d cell.1 cell.2) []

def ResultTable.firstCell (t : ResultTable) : Scalar :=
  match t.rows with
  | (cell :: _) :: _ => cell
  | _ => .null

/-! ## Statements -/

inductive ParamMode where
  | input
  | output
  | inout
deriving DecidableEq

structure CreateFunctionStmt where
  name : String
  arguments : List (String × Option String)
  returnType : Option String
  language : String
  body : String
  orReplace : Bool := false
  isTableFunction : Bool := false
deriving DecidableEq

structure CreateProcedureStmt where
  name : String
  arguments : List (String × Option String × ParamMode)
  body : String
  orReplace : Bool := false
deriving DecidableEq

/-- The statements of a script. -/
inductive Stmt where
  | declare (names : List String) (typeName : String) (defaultExpr : Option String)
  | set (targets : List String) (sourceExpr : String)
  | ifThen (branches : List (String × List Stmt)) (elseBody : Option (List Stmt))
  | whileDo (conditionExpr : String) (body : List Stmt)
  | loop (body : List Stmt)
  | forIn (loopVar sourceSql : String) (body : List Stmt)
  | break_
  | continue_
  | return_ (valueExpr : Option String)
  | begin_ (body : List Stmt) (exceptionHandler : Option (List Stmt))
  | call (routineRef : String) (argExprs : List String)
  | executeImmediate (sqlExpr : String) (intoNames usingExprs : List String)
  | raise (messageExpr : Option String)
  | createFunction (stmt : CreateFunctionStmt)
  | createProcedure (stmt : CreateProcedureStmt)
  | sql (text : String)

/-- The names that a statement declares. -/
def Stmt.declares : Stmt → List String
  | .declare names _ _ => names
  | _ => []

def Stmt.isDeclare : Stmt → Bool
  | .declare _ _ _ => true
  | _ => false

end Bqemulator
