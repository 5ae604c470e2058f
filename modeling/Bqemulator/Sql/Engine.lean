import Bqemulator.Storage.Tables

/-!
# Execution of the final SQL

The database engine is an arbitrary compositional meaning of the constructs of a statement,
constrained only by what the rewriters rely on: a derived table exposes the rows of its query,
`SELECT *` returns the rows it reads, and a filter keeps the rows on which its condition is true.
-/

namespace Bqemulator

open SyntaxTree

variable {Row : Type}

/-- **The database engine**: the meanings of the constructs of a statement. -/
structure Engine (Row : Type) where
  /-- The meanings of queries, expressions and statements. -/
  Val : Type
  /-- The meaning of a construct, from those of its arguments. -/
  node : NodeClass → List (ArgKey × Val) → Val
  /-- The meaning of a query with these rows. -/
  result : List Row → Val
  /-- The meaning of a relation visible under a name. -/
  relation : String → List Row → Val
  /-- The meaning of a written table. -/
  target : String → String → List Row → Val
  /-- The meaning of a name without a schema: a common table expression or an alias in scope. -/
  bare : Table → Val
  /-- The meaning of the inline rows that stand for a catalog view; some count the rows of physical
  tables. -/
  values : String → (String × String → Option (List Row)) → Val
  /-- The meaning of a table macro with this body. -/
  macroRef : Val → Val
  /-- The error of a reference to nothing. -/
  missing : Val
  /-- The truth value of a predicate on a row. -/
  truth : String → Row → Truth
  /-- The effect of a `PIVOT`, `UNPIVOT` or `TABLESAMPLE` clause. -/
  modify : String → List Row → List Row
  node_subquery : ∀ name rows, node (.subquery name) [(.this, result rows)] = relation name rows
  node_selectStar : ∀ name rows,
    node .select [(.expressions, node .star []),
      (.from_, node .from_ [(.this, relation name rows)])]
      = result rows
  result_injective : Function.Injective result

variable {st : Storage Row} {p : Pos} {t : Table}

namespace Engine

variable (E : Engine Row)

def modifyBy : Option String → List Row → List Row
  | none, rows => rows
  | some m, rows => E.modify m rows

@[simp] theorem modifyBy_none (rows : List Row) : E.modifyBy none rows = rows := rfl

def filterBy (c : Condition String) (rows : List Row) : List Row :=
  rows.filter fun r => c.holds fun a => E.truth a r

def modifyVal (m : Option String) (v : E.Val) : E.Val :=
  match m with
  | none => v
  | some m => E.node (.modifier m) [(.this, v)]

/-- The meaning of a leaf; `sub` gives that of a stored body. A `FOR SYSTEM_TIME` clause that
reaches the engine is an error. -/
def readLeaf (st : Storage Row) (sub : Sql → E.Val) (p : Pos) : Leaf → E.Val
  | .table t =>
    if t.version.isSome then E.missing
    else if t.db = "" then E.bare t
    else if isWritten p then E.target t.db t.name ((st.rows? t).getD [])
    else match st.rows? t, st.view? t with
      | some rows, _ => E.relation t.aliasOrName (E.modifyBy t.modifier rows)
      | none, some body =>
        E.modifyVal t.modifier (E.node (.subquery t.aliasOrName) [(.this, sub body)])
      | none, none => E.missing
  | .selectWhere t c =>
    if t.version.isSome then E.missing
    else match st.rows? t with
    | some rows => E.result (E.filterBy c (E.modifyBy t.modifier rows))
    | none => E.missing
  | .routine catalog db name =>
    if catalog = "" ∧ db = "" then ((st.macros.lookup name).map fun b => E.macroRef (sub b)).getD
      E.missing
    else E.missing
  | .values view => E.values view st.get
  | .wildcard _ | .rangeSessionize _ | .unparsed _ => E.missing

def leafValue (st : Storage Row) : Nat → Pos → Leaf → E.Val
  | 0 => E.readLeaf st fun _ => E.missing
  | fuel + 1 => E.readLeaf st fun body => foldAt E.node (leafValue st fuel) [] body

def eval (st : Storage Row) (fuel : Nat) (s : Sql) : E.Val :=
  foldAt E.node (E.leafValue st fuel) [] s

variable {E}

theorem leafValue_eq_readLeaf (st : Storage Row) (fuel : Nat) :
    ∃ sub, E.leafValue st fuel = E.readLeaf st sub := by
  cases fuel with
  | zero | succ => exact ⟨_, rfl⟩

theorem readLeaf_table {s : Sql → E.Val} (hv : st.view? t = none) :
    E.readLeaf st s p (.table t) =
      if t.version.isSome then E.missing
      else if t.db = "" then E.bare t
      else if isWritten p then E.target t.db t.name ((st.rows? t).getD [])
      else (st.rows? t).elim E.missing fun rows =>
        E.relation t.aliasOrName (E.modifyBy t.modifier rows) := by
  rw [readLeaf, hv]
  cases st.rows? t <;> rfl

theorem leafValue_table {fuel : Nat} (hv : st.view? t = none) :
    E.leafValue st fuel p (.table t) =
      if t.version.isSome then E.missing
      else if t.db = "" then E.bare t
      else if isWritten p then E.target t.db t.name ((st.rows? t).getD [])
      else (st.rows? t).elim E.missing fun rows =>
        E.relation t.aliasOrName (E.modifyBy t.modifier rows) := by
  obtain ⟨s, hs⟩ := E.leafValue_eq_readLeaf st fuel
  rw [hs, readLeaf_table hv]

theorem leafValue_rows {fuel : Nat} {rows : List Row} (hv : t.version = none) (hd : t.db ≠ "")
    (hp : isWritten p = false) (hr : st.rows? t = some rows) :
    E.leafValue st fuel p (.table t) = E.relation t.aliasOrName (E.modifyBy t.modifier rows) := by
  obtain ⟨s, hs⟩ := E.leafValue_eq_readLeaf st fuel
  simp [hs, readLeaf, hv, hd, hp, hr]

theorem readLeaf_selectWhere (st : Storage Row) (s : Sql → E.Val) (p : Pos) (t : Table)
    (c : Condition String) :
    E.readLeaf st s p (.selectWhere t c) =
      if t.version.isSome then E.missing
      else (st.rows? t).elim E.missing fun rows =>
        E.result (E.filterBy c (E.modifyBy t.modifier rows)) := by
  rw [readLeaf]
  cases st.rows? t <;> rfl

theorem leafValue_selectWhere (st : Storage Row) (fuel : Nat) (p : Pos) (t : Table)
    (c : Condition String) :
    E.leafValue st fuel p (.selectWhere t c) =
      if t.version.isSome then E.missing
      else (st.rows? t).elim E.missing fun rows =>
        E.result (E.filterBy c (E.modifyBy t.modifier rows)) := by
  obtain ⟨s, hs⟩ := E.leafValue_eq_readLeaf st fuel
  rw [hs, readLeaf_selectWhere]

end Engine

variable (truth : String → Row → Truth) (modify : String → List Row → List Row)

/-- The scanning engine: every construct returns the rows its parts return, in order. -/
abbrev Engine.scanWith : Engine Row where
  Val := List Row
  node _ args := (args.map Prod.snd).flatten
  result := id
  relation _ rows := rows
  target _ _ rows := rows
  bare _ := []
  values _ _ := []
  macroRef v := v
  missing := []
  truth := truth
  modify := modify
  node_subquery _ _ := by simp
  node_selectStar _ _ := by simp
  result_injective := Function.injective_id

abbrev Engine.scan : Engine Row :=
  .scanWith truth fun _ rows => rows

theorem Engine.foldAt_scanWith (f : Pos → Leaf → List Row) (p : Pos) (s : Sql) :
    foldAt (Engine.scanWith truth modify).node f p s =
      (leavesAt p s).flatMap fun x => f x.1 x.2 := by
  induction s using inductionOn generalizing p with
  | leaf l => simp
  | node n args ih =>
    have hn : ∀ rows, (Engine.scanWith truth modify).node n rows =
        (rows.map Prod.snd).flatten := fun _ => rfl
    rw [foldAt_node, leavesAt_node, List.flatMap_assoc, hn, List.map_map, ← List.flatMap_def]
    exact List.flatMap_congr fun a ha => ih a ha _

end Bqemulator
