import Bqemulator.Sql.Engine
import Bqemulator.Sql.RowAccessFilter

/-!
# What the row access pass enforces

The meaning of a statement over the tables and views of the catalog, by name in whatever case: a
view means its body, read in its own project. A read of a table with policies sees the rows on which
one of the caller's policies is true, a write sees the table.
-/

namespace Bqemulator

open SyntaxTree List Option

variable {Row : Type}

/-- A row that one of the caller's policies lets through. -/
def isAllowed (truth : String → Row → Truth) (caller : CallerIdentity)
    (policies : List RowAccessPolicyMeta) (r : Row) : Bool :=
  (applicablePolicies caller policies).any fun p => truth p.filterPredicate r = .yes

/-- The rows of a table that a caller may read. -/
def visibleRows (E : Engine Row) (caller : CallerIdentity) (policies : List RowAccessPolicyMeta)
    (rows : List Row) : List Row :=
  if policies = [] then rows else rows.filter (isAllowed E.truth caller policies)

variable {ctx : AppContext} {caller : CallerIdentity}

theorem holds_policyCondition {t : String → Row → Truth}
    (hfilter : ∀ f r, ctx.parsesFilter f = false → t f r ≠ .yes)
    (policies : List RowAccessPolicyMeta) (r : Row) :
    (policyCondition ctx caller policies).holds (fun a => t a r) =
      isAllowed t caller policies r := by
  have hc : ∀ p, (policyClause ctx p).holds (fun a => t a r) =
      decide (t p.filterPredicate r = .yes) := by
    intro p
    cases hp : ctx.parsesFilter p.filterPredicate with
    | true => simp [policyClause, hp]
    | false => simp [policyClause, hp, hfilter _ r hp]
  rw [policyCondition, isAllowed]
  split
  · rename_i hn
    simp [hn]
  · rename_i p ps hs
    rw [hs, Condition.holds_anyOf, List.any_map]
    exact congrArg (List.any _) (funext hc)

theorem filterBy_policyCondition {E : Engine Row}
    (hfilter : ∀ f r, ctx.parsesFilter f = false → E.truth f r ≠ .yes)
    (p : List RowAccessPolicyMeta) (rows : List Row) :
    E.filterBy (policyCondition ctx caller p) rows =
      rows.filter (isAllowed E.truth caller p) :=
  filter_congr fun r _ => holds_policyCondition hfilter p r

/-! ## Statements over the catalog -/

structure Contents (Row : Type) where
  read : TableId → List Row
  written : TableId → List Row

section Meaning

/-- The table or view found under a name: the one of the catalog whose physical name is the same
but for case, or else a table of that very name. -/
def Catalog.found (cat : Catalog) (id : TableId) : TableId :=
  ((cat.tables.find? fun m => SamePhysical m.id.key id.key).map TableMeta.id).getD id

variable (E : Engine Row) (cat : Catalog) (db : Contents Row) (views : TableId → E.Val)

variable (project : String)

/-- The meaning of a reference to the table or view `id`; `views` gives that of the views. -/
def readMeaning (id : TableId) (t : Table) : E.Val :=
  match cat.viewBody id with
  | some _ => E.modifyVal t.modifier (E.node (.subquery t.aliasOrName) [(.this, views id)])
  | none => E.relation t.aliasOrName (E.modifyBy t.modifier (db.read id))

/-- The meaning of a table node in a statement of `project`. -/
def tableMeaning (p : Pos) (t : Table) : E.Val :=
  if t.version.isSome then E.missing
  else if t.db = "" ∨ t.name = "" then E.bare t
  else
    let id := cat.found (t.idIn project)
    if isWritten p then E.target id.key.1 id.key.2 (db.written id)
    else readMeaning E cat db views id t

def leafMeaning (p : Pos) : Leaf → E.Val
  | .table t => tableMeaning E cat db views project p t
  | .selectWhere t c =>
    if t.version.isSome then E.missing
    else E.result (E.filterBy c (E.modifyBy t.modifier (db.read (cat.found (t.idIn project)))))
  | _ => E.missing

/-- The meaning of a statement of `project`. -/
def meaning (s : Sql) : E.Val :=
  foldAt E.node (leafMeaning E cat db views project) [] s

/-- Meanings of the views of the catalog: each means its body, in its own project. -/
structure Views where
  value : TableId → E.Val
  value_body : ∀ id body, cat.viewBody id = some body →
    value id = meaning E cat db value id.project body

end Meaning

/-- Whether the body of a view refers to a table or view. -/
def Catalog.Reads (cat : Catalog) (view id : TableId) : Prop :=
  ∃ body p t, cat.viewBody view = some body ∧ (p, .table t) ∈ leavesAt [] body ∧
    t.db ≠ "" ∧ t.name ≠ "" ∧ id = cat.found (t.idIn view.project)

/-- A catalog whose views are queries over live tables and views, without cycles. -/
structure Catalog.WellFormed (cat : Catalog) : Prop where
  parses : ∀ id body, cat.viewBody id = some body → body.parses = true
  query : ∀ id body, cat.viewBody id = some body → ∀ x ∈ leavesAt [] body,
    isWritten x.1 = false ∧ ∃ t, x.2 = .table t ∧ t.version = none
  acyclic : WellFounded fun a b => cat.Reads b a

/-- Whether a view leads to no table with policies. -/
def Catalog.Unprotected (cat : Catalog) (view : TableId) : Prop :=
  ∀ id, Relation.TransGen cat.Reads view id → cat.viewBody id = none →
    cat.listRowAccessPolicies id = []

section Congruence

variable {E : Engine Row} {cat : Catalog} {db db' : Contents Row} {views views' : TableId → E.Val}
  {project : String} {p : Pos} {t : Table}

theorem tableMeaning_congr (hw : db.written = db'.written)
    (hr : t.db ≠ "" → t.name ≠ "" →
      readMeaning E cat db views (cat.found (t.idIn project)) t =
        readMeaning E cat db' views' (cat.found (t.idIn project)) t) :
    tableMeaning E cat db views project p t = tableMeaning E cat db' views' project p t := by
  unfold tableMeaning
  by_cases hq : t.db = "" ∨ t.name = ""
  · simp only [hq, if_true]
  obtain ⟨hd, hn⟩ := not_or.1 hq
  simp only [hw, hr hd hn]

theorem readMeaning_congr {id : TableId}
    (hv : ∀ body, cat.viewBody id = some body → views id = views' id)
    (hr : cat.viewBody id = none → db.read id = db'.read id) :
    readMeaning E cat db views id t = readMeaning E cat db' views' id t := by
  unfold readMeaning
  cases hb : cat.viewBody id with
  | some body => simp only [hv body hb]
  | none => simp only [hr hb]

end Congruence

/-! ## What policies are for -/

section Enforcement

variable (E : Engine Row) (ctx : AppContext) (caller : CallerIdentity) (project : String)
  (rows : TableId → List Row)

def storedContents : Contents Row := ⟨rows, rows⟩

/-- The database the caller is entitled to: reads see the visible rows, writes see the table. -/
def entitledContents : Contents Row :=
  ⟨fun id => visibleRows E caller (ctx.catalog.listRowAccessPolicies id) (rows id), rows⟩

/-- The conditions on a reference in a text of the project `home`: its name means the same in the
job's project, in no reserved schema, spelled as in the catalog; a table with policies carries no
clause or joins; the body of a view is fit. -/
structure EnforceableWith (fit : Sql → Prop) (home : String) (t : Table) : Prop where
  ordinary : isReserved t.db = false
  resolves : t.idIn project = t.idIn home
  spelled : ctx.catalog.found (t.idIn home) = t.idIn home
  plain : ctx.catalog.viewBody (t.idIn home) = none →
    ctx.catalog.listRowAccessPolicies (t.idIn home) ≠ [] → t.modifier = none
  view : ∀ body, ctx.catalog.viewBody (t.idIn home) = some body → fit body

/-- **The references the pass treats as they are meant**, with this many levels of views left. A
view met with no level left has to lead to no table with policies. -/
def Enforceable : Nat → String → Table → Prop
  | 0, home, t => t.db ≠ "" → t.name ≠ "" →
      EnforceableWith ctx project (fun _ => ctx.catalog.Unprotected (t.idIn home)) home t
  | remaining + 1, home, t => t.db ≠ "" → t.name ≠ "" →
      EnforceableWith ctx project
        (fun body => t.modifier = none ∧ ∀ x ∈ leavesAt [] body, ∀ t', x.2 = .table t' →
          Enforceable remaining (t.idIn home).project t') home t

variable {E ctx caller project rows}
variable {V : Views E ctx.catalog (storedContents rows)}
  {V' : Views E ctx.catalog (entitledContents E ctx caller rows)}

theorem value_eq_of_unprotected (hwf : ctx.catalog.WellFormed) (v : TableId)
    (hv : ctx.catalog.Unprotected v) {body : Sql}
    (hb : ctx.catalog.viewBody v = some body) : V.value v = V'.value v := by
  induction v using hwf.acyclic.induction generalizing body with
  | _ v ih =>
    rw [V.value_body v body hb, V'.value_body v body hb]
    refine foldAt_congr fun x hx => ?_
    obtain ⟨-, t, ht, -⟩ := hwf.query v body hb x hx
    rw [ht]
    refine tableMeaning_congr rfl fun hd hn => ?_
    have hr : ctx.catalog.Reads v (ctx.catalog.found (t.idIn v.project)) :=
      ⟨body, x.1, t, hb, ht ▸ hx, hd, hn, rfl⟩
    refine readMeaning_congr (fun b' hb' => ?_) fun hno => ?_
    · exact ih _ hr (fun id hi => hv id (.head hr hi)) hb'
    · have hp := hv _ (.single hr) hno
      simp [storedContents, entitledContents, visibleRows, hp]

theorem tableMeaning_stored_eq {home : String} {p : Pos} {t : Table}
    (hi : t.db ≠ "" → t.name ≠ "" → t.idIn project = t.idIn home ∧
      ctx.catalog.found (t.idIn home) = t.idIn home)
    (hv : t.db ≠ "" → t.name ≠ "" → ∀ body, ctx.catalog.viewBody (t.idIn home) = some body →
      V.value (t.idIn home) = V'.value (t.idIn home))
    (hp : t.db ≠ "" → t.name ≠ "" → ctx.catalog.viewBody (t.idIn home) = none →
      ctx.catalog.listRowAccessPolicies (t.idIn home) = []) :
    tableMeaning E ctx.catalog (storedContents rows) V.value project p t =
      tableMeaning E ctx.catalog (entitledContents E ctx caller rows) V'.value home p t := by
  have hh : tableMeaning E ctx.catalog (storedContents rows) V.value project p t =
      tableMeaning E ctx.catalog (storedContents rows) V.value home p t := by
    unfold tableMeaning
    by_cases hq : t.db = "" ∨ t.name = ""
    · simp only [hq, if_true]
    · obtain ⟨hd, hn⟩ := not_or.1 hq
      rw [(hi hd hn).1]
  rw [hh]
  refine tableMeaning_congr rfl fun hd hn => ?_
  rw [(hi hd hn).2]
  refine readMeaning_congr (hv hd hn) fun hno => ?_
  simp [storedContents, entitledContents, visibleRows, hp hd hn hno]

section Pass

variable (hwf : ctx.catalog.WellFormed)
  (hfilter : ∀ f r, ctx.parsesFilter f = false → E.truth f r ≠ .yes)
  {home : String} {p : Pos} {t : Table}

include hfilter in
theorem meaning_wrapWithFilter {policies : List RowAccessPolicyMeta} (hp : policies ≠ [])
    (hr : ctx.catalog.listRowAccessPolicies (t.idIn project) = policies)
    (hf : ctx.catalog.found (t.idIn project) = t.idIn project)
    (hv : t.version = none) (hm : t.modifier = none) :
    foldAt E.node (leafMeaning E ctx.catalog (storedContents rows) V.value project) p
        (wrapWithFilter ctx caller policies t) =
      E.relation t.aliasOrName ((entitledContents E ctx caller rows).read (t.idIn project)) := by
  simp only [wrapWithFilter, foldAt_node, map_cons, map_nil, foldAt_leaf, leafMeaning,
    hv, isSome_none, Bool.false_eq_true, if_false, hm, Engine.modifyBy_none,
    E.node_subquery, entitledContents, visibleRows, hr, hp]
  refine congrArg _ ((filterBy_policyCondition hfilter policies _).trans ?_)
  exact congrArg (fun id => (rows id).filter _) hf

theorem meaning_rewriteTree {r : Table → Option Sql} {body : Sql} {name : String}
    (hb : ∀ x ∈ leavesAt [] body, isWritten x.1 = false ∧ ∃ t, x.2 = .table t)
    (hr : ∀ x ∈ leavesAt [] body, ∀ t, x.2 = .table t → ∀ q, isWritten q = false →
      foldAt E.node (leafMeaning E ctx.catalog (storedContents rows) V.value project) q
          ((r t).getD (.leaf (.table t))) =
        tableMeaning E ctx.catalog (entitledContents E ctx caller rows) V'.value home q t) :
    foldAt E.node (leafMeaning E ctx.catalog (storedContents rows) V.value project)
        ((.subquery name, .this) :: p) (rewriteTree r body) =
      meaning E ctx.catalog (entitledContents E ctx caller rows) V'.value home body := by
  rw [rewriteTree, bindAt_path _ [] ((.subquery name, .this) :: p), foldAt_bindAt,
    ← nil_append ((NodeClass.subquery name, ArgKey.this) :: p), foldAt_append]
  refine foldAt_congr fun x hx => ?_
  obtain ⟨hp, t, ht⟩ := hb x hx
  have hl : rewriteLeaf r (.table t) = r t := rfl
  rw [ht, hl, hr x hx t ht _ (by rw [isWritten_append_subquery, hp]), leafMeaning]
  simp only [tableMeaning, isWritten_append_subquery]

include hwf hfilter in
theorem meaning_rewriteTableWith {f : Sql → Prop} {e : Sql → Option Sql}
    (hp : isWritten p = false) (hv : t.version = none)
    (h : t.db ≠ "" → t.name ≠ "" → EnforceableWith ctx project f home t)
    (he : t.db ≠ "" → t.name ≠ "" → ∀ body,
      ctx.catalog.viewBody (t.idIn home) = some body → f body →
      foldAt E.node (leafMeaning E ctx.catalog (storedContents rows) V.value project) p
          (((e body).map fun body' =>
            .node (.subquery t.aliasOrName) [(.this, body')]).getD (.leaf (.table t))) =
        tableMeaning E ctx.catalog (entitledContents E ctx caller rows) V'.value home p t) :
    foldAt E.node (leafMeaning E ctx.catalog (storedContents rows) V.value project) p
        ((rewriteTableWith ctx caller project e t).getD (.leaf (.table t))) =
      tableMeaning E ctx.catalog (entitledContents E ctx caller rows) V'.value home p t := by
  by_cases hq : t.db = "" ∨ t.name = ""
  · rw [rewriteTableWith, if_pos hq]
    refine tableMeaning_stored_eq ?_ ?_ ?_ <;> intro hd hn <;>
      exact absurd hq (not_or.2 ⟨hd, hn⟩)
  obtain ⟨hd, hn⟩ := not_or.1 hq
  obtain ⟨hr, hi, hsp, hpl, hvi⟩ := h hd hn
  cases hb : ctx.catalog.viewBody (t.idIn home) with
  | some body =>
    rw [rewriteTableWith_view hd hn hr (hi ▸ hb) (hwf.parses _ _ hb)]
    exact he hd hn body hb (hvi body hb)
  | none =>
    rw [rewriteTableWith_base hd hn hr (hi ▸ hb)]
    split
    · rename_i hpo
      exact tableMeaning_stored_eq (fun _ _ => ⟨hi, hsp⟩)
        (fun _ _ body' hb' => absurd (hb.symm.trans hb') (by simp))
        (fun _ _ _ => hi ▸ hpo)
    · rename_i q ps hpo
      have hno := hpl hb (by rw [← hi, hpo]; simp)
      rw [getD_some, meaning_wrapWithFilter hfilter (by simp) hpo (hi ▸ hsp) hv hno, hi]
      simp [tableMeaning, readMeaning, hv, hd, hn, hp, hsp, hb, hno]

variable {remaining : Nat}

include hwf hfilter in
/-- The pass on an enforceable reference. -/
theorem meaning_rewriteTable (hp : isWritten p = false) (hv : t.version = none)
    (h : Enforceable ctx project remaining home t) :
    foldAt E.node (leafMeaning E ctx.catalog (storedContents rows) V.value project) p
        ((rewriteTable ctx caller project remaining t).getD (.leaf (.table t))) =
      tableMeaning E ctx.catalog (entitledContents E ctx caller rows) V'.value home p t := by
  -- the levels left are what the recursion through view bodies uses up
  induction remaining generalizing home p t with
  | zero =>
    refine meaning_rewriteTableWith hwf hfilter hp hv h fun _ _ body hb hu => ?_
    exact tableMeaning_stored_eq (fun hd hn => ⟨(h hd hn).resolves, (h hd hn).spelled⟩)
      (fun _ _ b' hb' => value_eq_of_unprotected hwf _ hu hb')
      (fun _ _ hno => absurd (hb.symm.trans hno) (by simp))
  | succ remaining ih =>
    rw [rewriteTable_eq]
    refine meaning_rewriteTableWith hwf hfilter hp hv h
      fun hd hn body hb ⟨hno, he⟩ => ?_
    have ht : foldAt E.node (leafMeaning E ctx.catalog (storedContents rows) V.value project)
          ((.subquery t.aliasOrName, .this) :: p)
          (rewriteTree (rewriteTable ctx caller project remaining) body) =
        V'.value (t.idIn home) := by
      rw [V'.value_body _ body hb]
      refine meaning_rewriteTree (fun x hx => ?_) fun x hx t' ht' q hq => ?_
      · obtain ⟨hpo, t', ht', -⟩ := hwf.query _ _ hb x hx
        exact ⟨hpo, t', ht'⟩
      · obtain ⟨-, t'', ht'', hv'⟩ := hwf.query _ _ hb x hx
        obtain rfl : t' = t'' := by simpa [ht'] using ht''
        exact ih hq hv' (he x hx t' ht')
    rw [expandBody, map_some, getD_some, foldAt_node, map_cons, map_nil, ht]
    simp [tableMeaning, readMeaning, hv, hd, hn, hp, (h hd hn).spelled, hb, hno, Engine.modifyVal]

include hwf in
theorem exists_table_of_expanded {x z : Pos × Leaf} (h : Expanded ctx project remaining x z)
    (hx : ∃ t, x.2 = .table t) : ∃ t, z.2 = .table t := by
  induction h with
  | self => exact hx
  | body _ _ _ _ hv _ hy _ ih =>
    obtain ⟨-, t, ht, -⟩ := hwf.query _ _ hv _ hy
    exact ih ⟨t, ht⟩

include hwf in
theorem reprint_of_mem_rewriteTable {y : Pos × Leaf}
    (hy : y ∈ leavesAt p ((rewriteTable ctx caller project remaining t).getD (.leaf (.table t)))) :
    y.2.reprint = y.2 := by
  obtain ⟨z, hz, rfl | ⟨t', c, -, -, hy⟩⟩ := exists_expanded_of_mem (l := .table t) hy
  · obtain ⟨t', ht'⟩ := exists_table_of_expanded hwf hz ⟨t, rfl⟩
    rw [ht']
    rfl
  · rw [hy]
    rfl

end Pass

/-- **The condition on a table node**: a write target may be anything; one that `TRUNCATE` writes is
no view and has no policies; a read is enforceable. -/
def RowAccessRespected (ctx : AppContext) (project : String) (p : Pos) (t : Table) : Prop :=
  if isWriteTarget p then True
  else if isWritten p then t.db ≠ "" → t.name ≠ "" → isReserved t.db = false →
    ctx.catalog.viewBody (t.idIn project) = none ∧
      ctx.catalog.listRowAccessPolicies (t.idIn project) = []
  else Enforceable ctx project maxViewDepth project t

end Enforcement

theorem isWritten_of_isWriteTarget {p : Pos} (h : isWriteTarget p = true) : isWritten p = true := by
  unfold isWritten
  split
  · rfl
  · exact h

theorem rewriteForRowAccess_eq {project : String} (hwf : ctx.catalog.WellFormed) {s : Sql}
    (hs : ∀ x ∈ s.leaves, ∃ t, x.2 = .table t) :
    rewriteForRowAccess ctx caller project s =
      bindAt (fun p l => (rowAccessLeaf ctx caller project p l).getD (.leaf l)) [] s := by
  have hp : s.parses = true := by
    refine Sql.parses_iff.2 fun x hx => ?_
    obtain ⟨t, ht⟩ := hs x hx
    rw [ht]
    rfl
  unfold rewriteForRowAccess
  split
  · -- printing changes no leaf of the result
    rw [Sql.reprint, bindAt_bindAt]
    refine bindAt_congr fun x hx => ?_
    obtain ⟨t, ht⟩ := hs x hx
    rw [ht]
    refine Eq.trans (bindAt_congr fun y hy => ?_) (bindAt_leaf_self x.1 _)
    rw [rowAccessLeaf] at hy
    split at hy
    · obtain rfl := mem_singleton.1 (leavesAt_leaf x.1 _ ▸ hy)
      rfl
    · rw [reprint_of_mem_rewriteTable hwf hy]
  · rename_i ha
    refine Eq.trans (bindAt_leaf_self [] s).symm (bindAt_congr fun x hx => ?_)
    have hn : rowAccessLeaf ctx caller project x.1 x.2 = none := by
      by_contra hso
      exact ha ⟨hp, any_eq_true.2 ⟨x, hx, isSome_iff_ne_none.2 hso⟩⟩
    rw [hn, getD_none]

def readTable : Sql := Sql.selectStar (.table { db := "d", name := "t" })

variable (owner : String)

/-- A table `t` in `p` and `q`, and a view `v` over it in `owner`. The table of `p` has the policy
`x = 1` for everyone. -/
def viewCatalog : Catalog where
  tables := [{ id := ⟨"p", "d", "t"⟩ }, { id := ⟨"q", "d", "t"⟩ },
    { id := ⟨owner, "d", "v"⟩, tableType := .view, viewQuery := some readTable }]
  policies := [{
    id := ⟨"p", "d", "t"⟩, policyId := "ones", filterPredicate := "x = 1",
    grantees := ["allUsers"] }]

theorem viewBody_viewCatalog {owner : String} {id : TableId} {body : Sql}
    (h : (viewCatalog owner).viewBody id = some body) :
    id = ⟨owner, "d", "v"⟩ ∧ body = readTable := by
  obtain ⟨m, hm, rfl, hb⟩ := Catalog.exists_mem_of_viewBody h
  simp only [viewCatalog, mem_cons, not_mem_nil, or_false] at hm
  rcases hm with rfl | rfl | rfl
  · cases hb
  · cases hb
  · exact ⟨rfl, (some.inj hb).symm⟩

theorem found_viewCatalog : ((viewCatalog owner).found ⟨owner, "d", "t"⟩).table ≠ "v" := by
  unfold Catalog.found
  cases hf : (viewCatalog owner).tables.find? fun m => SamePhysical m.id.key
    (TableId.key ⟨owner, "d", "t"⟩) with
  | none => simp
  | some m =>
    intro hv
    have hsame : SamePhysical m.id.key (TableId.key ⟨owner, "d", "t"⟩) := by
      simpa using find?_some hf
    have hlower : Text.lower m.id.table = Text.lower "t" := hsame.2
    rw [show m.id.table = "v" from hv] at hlower
    exact absurd hlower (by decide)

theorem wellFormed_viewCatalog : (viewCatalog owner).WellFormed where
  parses id body h := by
    rw [(viewBody_viewCatalog h).2]
    rfl
  query id body h x hx := by
    rw [(viewBody_viewCatalog h).2, readTable, Sql.mem_leavesAt_selectStar] at hx
    rw [hx]
    exact ⟨rfl, _, rfl, rfl⟩
  acyclic := by
    -- the view is called `v` and reads the table called `t`
    refine Subrelation.wf (fun {a b} h => ?_)
      (InvImage.wf (fun id : TableId => if id.table = "v" then 1 else 0) Nat.lt_wfRel.wf)
    obtain ⟨body, q, t, hb, hx, -, -, rfl⟩ := h
    obtain ⟨rfl, rfl⟩ := viewBody_viewCatalog hb
    obtain ⟨-, ht⟩ := Prod.mk.inj (Sql.mem_leavesAt_selectStar.1 hx)
    obtain rfl := Leaf.table.inj ht
    have hne : ((viewCatalog owner).found ⟨owner, "d", "t"⟩).table ≠ "v" := found_viewCatalog owner
    simp only [InvImage, Table.idIn, Table.projectOr, if_true, hne, if_false]
    exact Nat.zero_lt_one

section Example

def isOne (predicate : String) (r : Nat) : Truth :=
  if predicate = "x = 1" ∧ r = 1 then .yes else .no

def twoProjects (id : TableId) : List Nat :=
  if id = ⟨"p", "d", "t"⟩ then [1, 2] else if id = ⟨"q", "d", "t"⟩ then [3] else []

def viewContext : AppContext :=
  .ofCatalog (viewCatalog owner) 0 1

def viewsOf (db : Contents Nat) : Views (Engine.scan isOne) (viewCatalog owner) db where
  value id := if id = ⟨owner, "d", "v"⟩ then
    db.read ((viewCatalog owner).found ⟨owner, "d", "t"⟩) else []
  value_body id body h := by
    obtain ⟨rfl, rfl⟩ := viewBody_viewCatalog h
    have hnone : (viewCatalog owner).viewBody ((viewCatalog owner).found ⟨owner, "d", "t"⟩) =
        none := by
      by_contra hsome
      obtain ⟨body, hbody⟩ := ne_none_iff_exists'.1 hsome
      exact found_viewCatalog owner (congrArg TableId.table (viewBody_viewCatalog hbody).1)
    rw [if_pos rfl, readTable]
    simp [meaning, Sql.selectStar, leafMeaning, tableMeaning, readMeaning, Table.idIn,
      Table.projectOr, hnone, isWritten, isWriteTarget, NodeClass.isDml, Engine.scan]

theorem enforceable_read_view :
    Enforceable (viewContext "p") "p" maxViewDepth "p" { db := "d", name := "v" } := by
  refine fun _ _ =>
    ⟨by decide, rfl, by decide, fun h => absurd h (by decide), fun body hb => ⟨rfl, ?_⟩⟩
  obtain ⟨-, rfl⟩ := viewBody_viewCatalog hb
  rintro x hx t ht
  rw [Sql.mem_leavesAt_selectStar.1 hx] at ht
  obtain rfl := Leaf.table.inj ht
  refine fun _ _ => ⟨by decide, rfl, by decide, fun _ _ => rfl, fun body hb => ?_⟩
  exact absurd (viewBody_viewCatalog hb).1 (by decide)

end Example

end Bqemulator
