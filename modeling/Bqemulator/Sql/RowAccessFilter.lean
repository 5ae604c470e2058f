import Bqemulator.RowAccess.Matcher
import Bqemulator.Sql.Translator

/-!
# Row access policies in a statement

The second pass replaces a reference to a view by the view's body, whose references are treated in
the same way, down to a fixed depth, and a reference to a table with policies by a query that keeps
the rows on which one of the caller's policies is true. Write targets stay.
-/

namespace Bqemulator

open SyntaxTree List Option

section Pass

variable (ctx : AppContext) (caller : CallerIdentity) (project : String)

def maxViewDepth : Nat := 8

def policyClause (p : RowAccessPolicyMeta) : Condition String :=
  if ctx.parsesFilter p.filterPredicate then .atom p.filterPredicate else .never

variable (policies : List RowAccessPolicyMeta)

/-- The condition on a table with policies: any filter of those that apply; false when none
applies. -/
def policyCondition : Condition String :=
  match applicablePolicies caller policies with
  | [] => .never
  | p :: ps => .anyOf ((p :: ps).map (policyClause ctx))

def wrapWithFilter (t : Table) : Sql :=
  .node (.subquery t.aliasOrName)
    [(.this, .leaf (.selectWhere { t with tableAlias := none }
      (policyCondition ctx caller policies)))]

def rewriteTableWith (expand : Sql → Option Sql) (t : Table) : Option Sql :=
  if t.db = "" ∨ t.name = "" then none
  else if isReserved t.db then none
  else match ctx.catalog.viewBody (t.idIn project) with
    | some body =>
      if body.parses then
        (expand body).map fun body' => .node (.subquery t.aliasOrName) [(.this, body')]
      else none
    | none =>
      match ctx.catalog.listRowAccessPolicies (t.idIn project) with
      | [] => none
      | p :: ps => some (wrapWithFilter ctx caller (p :: ps) t)

def Leaf.node? : Leaf → Option Table
  | .table t => some t
  | .wildcard w => some w.asTable
  | _ => none

variable (rewrite : Table → Option Sql)

def rewriteLeaf (l : Leaf) : Option Sql :=
  l.node?.bind rewrite

def rewriteTree (body : Sql) : Sql :=
  bindAt (fun _ l => (rewriteLeaf rewrite l).getD (.leaf l)) [] body

/-- The pass on a table node, `none` when it stays. -/
def rewriteTable : Nat → Table → Option Sql
  | 0 => rewriteTableWith ctx caller project fun _ => none
  | remaining + 1 => rewriteTableWith ctx caller project fun body =>
      some (rewriteTree (rewriteTable remaining) body)

def rowAccessLeaf (p : Pos) (l : Leaf) : Option Sql :=
  if isWriteTarget p then none else rewriteLeaf (rewriteTable ctx caller project maxViewDepth) l

/-- The pass on a statement, printed again if something was replaced. Text that does not parse
is left for later layers. -/
def rewriteForRowAccess (s : Sql) : Sql :=
  if s.parses ∧ s.leaves.any (fun x => (rowAccessLeaf ctx caller project x.1 x.2).isSome) then
    Sql.reprint (bindAt (fun p l => (rowAccessLeaf ctx caller project p l).getD (.leaf l)) [] s)
  else s

end Pass

section Cases

variable {ctx : AppContext} {caller : CallerIdentity} {project : String} {t : Table}

def expandBody (ctx : AppContext) (caller : CallerIdentity) (project : String) :
    Nat → Sql → Option Sql
  | 0, _ => none
  | remaining + 1, body => some (rewriteTree (rewriteTable ctx caller project remaining) body)

/-- The pass on a table node, by what the catalog says the node names. -/
theorem rewriteTable_eq (r : Nat) :
    rewriteTable ctx caller project r =
      rewriteTableWith ctx caller project (expandBody ctx caller project r) := by
  cases r <;> rfl

variable {e : Sql → Option Sql}

theorem rewriteTableWith_reserved (h : isReserved t.db = true) :
    rewriteTableWith ctx caller project e t = none := by
  rw [rewriteTableWith, if_pos h, ite_self]

theorem rewriteTableWith_base (hd : t.db ≠ "") (hn : t.name ≠ "")
    (hr : isReserved t.db = false) (hv : ctx.catalog.viewBody (t.idIn project) = none) :
    rewriteTableWith ctx caller project e t =
      match ctx.catalog.listRowAccessPolicies (t.idIn project) with
      | [] => none
      | p :: ps => some (wrapWithFilter ctx caller (p :: ps) t) := by
  simp [rewriteTableWith, hd, hn, hr, hv]

theorem rewriteTableWith_view {body : Sql} (hd : t.db ≠ "") (hn : t.name ≠ "")
    (hr : isReserved t.db = false) (hv : ctx.catalog.viewBody (t.idIn project) = some body)
    (hb : body.parses = true) :
    rewriteTableWith ctx caller project e t =
      (e body).map fun body' => .node (.subquery t.aliasOrName) [(.this, body')] := by
  simp [rewriteTableWith, hd, hn, hr, hv, hb]

theorem rewriteTableWith_cases {u : Sql}
    (h : rewriteTableWith ctx caller project e t = some u) :
    (t.db ≠ "" ∧ t.name ≠ "" ∧ isReserved t.db = false) ∧
    ((ctx.catalog.viewBody (t.idIn project) = none ∧
        ctx.catalog.listRowAccessPolicies (t.idIn project) ≠ [] ∧
        u = wrapWithFilter ctx caller (ctx.catalog.listRowAccessPolicies (t.idIn project)) t) ∨
      ∃ body body', ctx.catalog.viewBody (t.idIn project) = some body ∧ body.parses = true ∧
        e body = some body' ∧ u = .node (.subquery t.aliasOrName) [(.this, body')]) := by
  unfold rewriteTableWith at h
  split at h <;> [cases h; skip]
  rename_i hq
  split at h <;> [cases h; skip]
  rename_i hr
  refine ⟨⟨(not_or.1 hq).1, (not_or.1 hq).2, by simpa using hr⟩, ?_⟩
  split at h
  · rename_i body hv
    split at h <;> [skip; cases h]
    rename_i hp
    obtain ⟨body', hb', rfl⟩ := map_eq_some_iff.1 h
    exact .inr ⟨body, body', hv, hp, hb', rfl⟩
  · rename_i hv
    split at h <;> [cases h; skip]
    rename_i p ps hpo
    rw [hpo]
    exact .inl ⟨hv, by simp, (some.inj h).symm⟩

end Cases

/-! ## Where the leaves of the result come from -/

/-- The leaf `z` with its position is `x`, or stands in a view body put for `x` with this many
levels left. -/
inductive Expanded (ctx : AppContext) (project : String) :
    Nat → Pos × Leaf → Pos × Leaf → Prop
  | self {remaining : Nat} {x : Pos × Leaf} : Expanded ctx project remaining x x
  | body {remaining : Nat} {x y z : Pos × Leaf} {t : Table} {body : Sql}
    (node : x.2.node? = some t) (hdb : t.db ≠ "") (hname : t.name ≠ "")
    (hres : isReserved t.db = false) (hview : ctx.catalog.viewBody (t.idIn project) = some body)
    (hparses : body.parses = true) (hy : y ∈ leavesAt [] body)
    (h : Expanded ctx project remaining (y.1 ++ (.subquery t.aliasOrName, .this) :: x.1, y.2) z) :
    Expanded ctx project (remaining + 1) x z

section Leaves

variable {ctx : AppContext} {caller : CallerIdentity} {project : String} {remaining : Nat}
  {l : Leaf} {p : Pos}

theorem mem_leavesAt_rewriteTree {r : Table → Option Sql} {body : Sql} {y : Pos × Leaf} :
    y ∈ leavesAt p (rewriteTree r body) ↔
      ∃ x ∈ leavesAt [] body, y ∈ leavesAt (x.1 ++ p) ((rewriteLeaf r x.2).getD (.leaf x.2)) := by
  rw [rewriteTree, bindAt_path _ [] p, mem_leavesAt_bindAt, ← List.nil_append p, leavesAt_append]
  simp only [List.mem_map, exists_exists_and_eq_and, List.nil_append]

theorem exists_expanded_of_mem {y : Pos × Leaf}
    (hy : y ∈ leavesAt p ((rewriteLeaf (rewriteTable ctx caller project remaining) l).getD
      (.leaf l))) :
    ∃ z, Expanded ctx project remaining (p, l) z ∧
      (y = z ∨ ∃ t c, z.2.node? = some t ∧ isReserved t.db = false ∧
        y.2 = .selectWhere { t with tableAlias := none } c) := by
  induction remaining using Nat.strong_induction_on generalizing l p y with
  | _ remaining ih =>
    cases hu : rewriteLeaf (rewriteTable ctx caller project remaining) l with
    | none =>
      rw [hu] at hy
      exact ⟨(p, l), .self, .inl (mem_singleton.1 (leavesAt_leaf p _ ▸ hy))⟩
    | some u =>
      rw [hu, getD_some] at hy
      obtain ⟨t, ht, hu⟩ := bind_eq_some_iff.1 hu
      rw [rewriteTable_eq] at hu
      obtain ⟨⟨hd, hn, hr⟩, ⟨-, -, rfl⟩ | ⟨body, b', hv, hp, hb', rfl⟩⟩ :=
        rewriteTableWith_cases hu
      · simp only [wrapWithFilter, leavesAt_singleton, leavesAt_leaf, mem_singleton] at hy
        rw [hy]
        exact ⟨(p, l), .self, .inr ⟨t, _, ht, hr, rfl⟩⟩
      obtain _ | remaining := remaining <;> [cases hb'; skip]
      obtain rfl := some.inj hb'
      rw [leavesAt_singleton, mem_leavesAt_rewriteTree] at hy
      obtain ⟨x, hx, hy⟩ := hy
      obtain ⟨z, hz, h⟩ := ih remaining (Nat.lt_succ_self _) hy
      exact ⟨z, .body ht hd hn hr hv hp hx hz, h⟩

theorem mem_of_expanded {x z : Pos × Leaf} (h : Expanded ctx project remaining x z)
    (hs : ∀ n, rewriteLeaf (rewriteTable ctx caller project n) z.2 = none) :
    z ∈ leavesAt x.1
      ((rewriteLeaf (rewriteTable ctx caller project remaining) x.2).getD (.leaf x.2)) := by
  induction h with
  | self => simp [hs]
  | body no hd hn hr hv hp hy _ ih =>
    rw [rewriteLeaf, no, bind_some, rewriteTable_eq,
      rewriteTableWith_view hd hn hr hv hp, expandBody, map_some,
      getD_some, leavesAt_singleton,
      mem_leavesAt_rewriteTree]
    exact ⟨_, hy, ih hs⟩

end Leaves

end Bqemulator
