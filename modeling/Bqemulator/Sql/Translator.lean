import Bqemulator.Sql.TableRewriter

/-!
# Translation to the engine's dialect

Translation turns each `RANGE_SESSIONIZE` call into a windowed subquery by a textual replacement; on
table references it is the identity. Which statements it rejects is left open.
-/

namespace Bqemulator

open SyntaxTree

inductive SuffixPattern where
  | equals
  | isIn
  | between
  | atLeast
  | atMost
  | above
  | below
deriving DecidableEq

/-- What the passes read: the catalog, the clock, the physical tables of a dataset, and the answers
of libraries: the literals of a `suffixSearch`, whether there are `WITH OFFSET` columns to rebase,
whether a policy filter parses, and the error of a feature out of scope. -/
structure AppContext where
  catalog : Catalog
  now : Time
  retentionDays : Nat
  listStorageTables : String → String → List String
  suffixSearch : SuffixPattern → Sql → Option (List String)
  rebasesOffset : Sql → Bool
  parsesFilter : String → Bool
  translationError : Sql → Option DomainError

/-- The context of a catalog in which the libraries accept everything and no text has a predicate on
`_TABLE_SUFFIX`. -/
def AppContext.ofCatalog (catalog : Catalog) (now : Time) (retentionDays : Nat) : AppContext where
  catalog := catalog
  now := now
  retentionDays := retentionDays
  listStorageTables _ _ := []
  suffixSearch _ _ := none
  rebasesOffset _ := false
  parsesFilter _ := true
  translationError _ := none

def modeToOp (mode : String) : Option String :=
  if mode = "MEETS" then some ">" else if mode = "OVERLAPS" then some ">=" else none

/-- The expansion of one call: a subquery that reads the named table. -/
def expandCall (c : SessionizeCall) : Except DomainError Sql :=
  match modeToOp (Text.upper (c.mode.getD "MEETS")) with
  | none => .error (.invalidQuery ("Could not cast literal \"" ++ c.mode.getD "MEETS" ++
      "\" to type RANGE_SESSIONIZE_MODE at [1:1]"))
  | some op => .ok (.node (.sessionize op c.rangeCol c.parts) [(.this, .leaf (.table c.table))])

def expandLeafCall : Leaf → Except DomainError Sql
  | .rangeSessionize c => expandCall c
  | l => .ok (.leaf l)

/-- The expansion of all calls of a statement. -/
def rewriteRangeSessionize (s : Sql) : Except DomainError Sql :=
  tryBindAt (fun _ l => expandLeafCall l) [] s

/-- The translation of a statement. -/
def translate (ctx : AppContext) (s : Sql) : Except DomainError Sql :=
  match ctx.translationError s with
  | some e => .error e
  | none =>
    match rewriteRangeSessionize s with
    | .error e => .error e
    | .ok s' =>
      if s'.parses then .ok s'.reprint else .error (.invalidQuery "Syntax error: Unexpected token")

theorem expandLeafCall_of_parses {l : Leaf} (h : l.parses = true) :
    expandLeafCall l = .ok (.leaf l) := by
  cases l with
  | rangeSessionize c => cases h
  | _ => rfl

variable {s : Sql} {ctx : AppContext}

theorem rewriteRangeSessionize_of_parses (hs : s.parses = true) :
    rewriteRangeSessionize s = .ok s := by
  have hl : ∀ x ∈ leavesAt [] s, expandLeafCall x.2 = .ok (.leaf x.2) := fun x hx =>
    expandLeafCall_of_parses (Sql.parses_iff.1 hs x hx)
  refine tryBindAt_eq_ok_iff.2 ⟨fun x hx => ⟨_, hl x hx⟩, ?_⟩
  calc s = bindAt (fun _ l => .leaf l) [] s := (bindAt_leaf_self [] s).symm
    _ = bindAt (orLeaf fun _ l => expandLeafCall l) [] s :=
        bindAt_congr fun x hx => (orLeaf_of_ok (hl x hx)).symm

theorem translate_of_translationError {e : DomainError} (hc : ctx.translationError s = some e) :
    translate ctx s = .error e := by
  rw [translate, hc]

/-- Translation of a statement that parses changes nothing but the print of bare wildcards. -/
theorem translate_of_parses (hs : s.parses = true) (hc : ctx.translationError s = none) :
    translate ctx s = .ok s.reprint := by
  simp [translate, hc, rewriteRangeSessionize_of_parses hs, hs]

end Bqemulator
