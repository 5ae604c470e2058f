import Bqemulator.Lib.Condition
import Bqemulator.Lib.Except
import Bqemulator.Lib.SyntaxTree
import Bqemulator.Lib.Text

/-!
# SQL statements as syntax trees

A statement is modelled as the tree the parser makes of it, and a pass of a rewriter as a function
on trees. The leaves are what the rewriters act on: table references, wildcard references, calls of
table functions and of `RANGE_SESSIONIZE`, and text the parser rejects. Everything else is a generic
node.
-/

namespace Bqemulator

open SyntaxTree

abbrev Time := Int

/-- An evaluated `AS OF` expression: a timestamp, or the error its evaluation raises. -/
inductive AsOf where
  | time (t : Time)
  | invalid (message : String)
deriving DecidableEq

/-- A table node. An absent qualifier or name is the empty string; `modifier` is the text of what
hangs on the node itself: a `PIVOT`, `UNPIVOT` or `TABLESAMPLE` clause, or the joins of `FROM (t
JOIN u)` and `UPDATE … FROM t JOIN u`. -/
structure Table where
  catalog : String := ""
  db : String := ""
  name : String := ""
  tableAlias : Option String := none
  version : Option AsOf := none
  modifier : Option String := none
deriving DecidableEq

/-- The name under which a reference is visible in its query: the alias, or else the table's. -/
def Table.aliasOrName (t : Table) : String :=
  t.tableAlias.getD t.name

/-- A wildcard reference `project.dataset.stem*`. The parser keeps the star of a back-ticked one and
drops that of a bare one. -/
structure Wildcard where
  project : String := ""
  dataset : String := ""
  stem : String
  quoted : Bool := true
  asAlias : Option String := none
  dataset_word : dataset.toList.all Text.isWordChar = true := by decide
  stem_word : stem.toList.all Text.isWordChar = true := by decide
deriving DecidableEq

variable (w : Wildcard)

theorem Wildcard.dot_notMem_dataset : '.' ∉ w.dataset.toList := fun hd =>
  absurd (List.all_eq_true.1 w.dataset_word _ hd) (by decide)

theorem Wildcard.dot_notMem_stem : '.' ∉ w.stem.toList := fun hd =>
  absurd (List.all_eq_true.1 w.stem_word _ hd) (by decide)

def Wildcard.asTable : Table where
  catalog := w.project
  db := w.dataset
  name := if w.quoted then w.stem ++ "*" else w.stem
  tableAlias := w.asAlias

structure SessionizeCall where
  table : Table
  rangeCol : String
  parts : List String
  mode : Option String
deriving DecidableEq

/-- The text after `WHERE` as the parser takes it: a predicate, and the clauses that follow it. -/
structure Restriction where
  cond : String
  tail : Option String := none
deriving DecidableEq

/-- The leaves of a statement. `selectWhere t c` is the `SELECT * FROM t WHERE c` that the row
access pass builds. -/
inductive Leaf where
  | table (t : Table)
  | selectWhere (t : Table) (cond : Condition String)
  | wildcard (w : Wildcard)
  | routine (catalog db name : String)
  | rangeSessionize (call : SessionizeCall)
  | values (view : String)
  | unparsed (text : String)
deriving DecidableEq

/-- The classes of inner nodes that the rewriters look at or build, and all others. `readRows fields
r` is `SELECT fields FROM … WHERE r`. -/
inductive NodeClass where
  | select
  | star
  | from_
  | union
  | subquery (tableAlias : String)
  | tableSuffix (suffix : String)
  | noRows
  | sessionize (op rangeCol : String) (parts : List String)
  | modifier (text : String)
  | readRows (fields : Option (List String)) (restriction : Option Restriction)
  | tableFunction
  | insert
  | update
  | delete
  | merge
  | truncateTable
  | create
  | drop
  | schema
  | other (name : String)
deriving DecidableEq

/-- The places of a node's arguments. -/
inductive ArgKey where
  | this
  | expression
  | expressions
  | from_
  | other (name : String)
deriving DecidableEq

/-- Statements. -/
abbrev Sql := SyntaxTree NodeClass ArgKey Leaf

/-- A position in a statement: the classes and keys up to the root, innermost first. -/
abbrev Pos := Path NodeClass ArgKey

namespace Leaf

def parses : Leaf → Bool
  | .rangeSessionize _ => false
  | .unparsed _ => false
  | _ => true

def table? : Leaf → Option Table
  | .table t => some t
  | .selectWhere t _ => some t
  | _ => none

/-- A leaf after its text was parsed and printed: a bare wildcard reference has lost its star. -/
def reprint : Leaf → Leaf
  | .wildcard w => if w.quoted then .wildcard w else .table w.asTable
  | l => l

def print (printed : Bool) (l : Leaf) : Leaf :=
  if printed then l.reprint else l

theorem parses_reprint (l : Leaf) : l.reprint.parses = l.parses := by
  cases l with
  | wildcard w => cases hw : w.quoted <;> simp [reprint, parses, hw]
  | _ => rfl

theorem reprint_reprint (l : Leaf) : l.reprint.reprint = l.reprint := by
  cases l with
  | wildcard w => cases hw : w.quoted <;> simp [reprint, hw]
  | _ => rfl

end Leaf

namespace Sql

variable (s : Sql)

def leaves : List (Pos × Leaf) :=
  leavesAt [] s

def parses : Bool :=
  s.leaves.all fun x => x.2.parses

def reprint : Sql :=
  bindAt (fun _ l => .leaf l.reprint) [] s

theorem bindAt_print (p : Bool) (s : Sql) :
    bindAt (fun _ l => .leaf (l.print p)) [] s = if p then s.reprint else s := by
  cases p with
  | true => rfl
  | false => exact bindAt_leaf_self [] s

theorem parses_iff {s : Sql} : s.parses = true ↔ ∀ x ∈ leavesAt [] s, x.2.parses = true := by
  simp [parses, leaves]

@[simp] theorem parses_reprint : s.reprint.parses = s.parses := by
  simp [parses, leaves, reprint, leavesAt_bindAt, Leaf.parses_reprint]

@[simp] theorem reprint_reprint : s.reprint.reprint = s.reprint := by
  simp [reprint, bindAt_bindAt, Leaf.reprint_reprint]

theorem parses_of_tryBindAt {ε : Type} {f : Pos → Leaf → Except ε Sql} {s s' : Sql}
    (hs : s.parses = true)
    (hf : ∀ p l v, l.parses = true → f p l = .ok v → ∀ y ∈ leavesAt p v, y.2.parses = true)
    (h : tryBindAt f [] s = .ok s') : s'.parses = true := by
  obtain ⟨g, hg, rfl⟩ := tryBindAt_eq_ok_iff_exists.1 h
  refine parses_iff.2 fun y hy => ?_
  obtain ⟨x, hx, hy⟩ := mem_leavesAt_bindAt.1 hy
  exact hf x.1 x.2 _ (parses_iff.1 hs x hx) (hg x hx) y hy

def selectStar (l : Leaf) : Sql :=
  .node .select
    [(.expressions, .node .star []), (.from_, .node .from_ [(.this, .leaf l)])]

@[simp] theorem leaves_selectStar (l : Leaf) :
    leaves (selectStar l) = [([(.from_, .this), (.select, .from_)], l)] := by
  simp [leaves, selectStar]

theorem mem_leavesAt_selectStar {l : Leaf} {x : Pos × Leaf} :
    x ∈ leavesAt [] (selectStar l) ↔ x = ([(.from_, .this), (.select, .from_)], l) := by
  simp [selectStar]

end Sql

/-! ## Write targets -/

namespace NodeClass

def isDml : NodeClass → Bool
  | .insert | .update | .delete | .merge | .truncateTable => true
  | _ => false

end NodeClass

/-- Whether a position is the `this` argument of a DML, `CREATE` or `DROP` statement, or of the
column list in it. -/
def isWriteTarget : Pos → Bool
  | (.schema, .this) :: (n, .this) :: _ => n.isDml || n = .create
  | (n, .this) :: _ => n.isDml || n = .create || n = .drop
  | _ => false

/-- Whether a statement writes the table at a position: the write targets, and the tables of
`TRUNCATE TABLE`. -/
def isWritten : Pos → Bool
  | (.truncateTable, .expressions) :: _ => true
  | p => isWriteTarget p

theorem isWritten_append_subquery (q p : Pos) (t : String) :
    isWritten (q ++ (.subquery t, .this) :: p) = isWritten q := by
  rcases q with _ | ⟨⟨n, k⟩, _ | ⟨⟨m, j⟩, q⟩⟩
  · rfl
  · cases n <;> cases k <;> rfl
  · cases n <;> cases k <;> cases j <;> rfl

end Bqemulator
