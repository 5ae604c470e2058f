import Bqemulator.Sql.RowAccessFilter
import Bqemulator.Versioning.TimeTravel

/-!
# The chain of passes on a statement

Every statement reaches the engine through one chain: time travel, row access policies,
`INFORMATION_SCHEMA` views, `UNNEST` offsets, wildcard tables, translation, and last the naming of
tables. Every leaf is replaced by what the chain makes of it alone.
-/

namespace Bqemulator

open SyntaxTree Except List

/-! ## `INFORMATION_SCHEMA` -/

def informationSchemaViews : List String :=
  ["ROUTINES", "MATERIALIZED_VIEWS", "ROW_ACCESS_POLICIES", "SCHEMATA", "TABLES", "COLUMNS",
    "TABLE_OPTIONS", "VIEWS", "PARTITIONS"]

/-- Whether a leaf names one of these views; the parser keeps `INFORMATION_SCHEMA.X` as one name. -/
def Leaf.isInformationSchema : Leaf → Bool
  | .table t => (Text.splitOnce '.' t.name).any fun (schema, view) =>
      Text.upper schema = "INFORMATION_SCHEMA" && Text.upper view ∈ informationSchemaViews
  | _ => false

def informationSchemaLeaf (l : Leaf) : Leaf :=
  match l with
  | .table t => if l.isInformationSchema then .values (Text.upper t.name) else l
  | _ => l

/-- The pass on `INFORMATION_SCHEMA` views. -/
def expandInformationSchema (s : Sql) : Sql :=
  bindAt (fun _ l => .leaf (informationSchemaLeaf l)) [] s

def rewriteUnnestOffset (ctx : AppContext) (s : Sql) : Sql :=
  if s.parses ∧ ctx.rebasesOffset s then s.reprint else s

/-! ## Wildcard tables -/

def suffixPatterns : List SuffixPattern :=
  [.equals, .isIn, .between, .atLeast, .atMost, .above, .below]

/-- Whether a suffix meets the predicate a pattern found, given the literals it captured. -/
def SuffixPattern.admits : SuffixPattern → List String → String → Bool
  | .equals, values, suffix => values.head? = some suffix
  | .isIn, values, suffix => suffix ∈ values
  | .between, [low, high], suffix => low ≤ suffix && suffix ≤ high
  | .atLeast, [v], suffix => v ≤ suffix
  | .atMost, [v], suffix => suffix ≤ v
  | .above, [v], suffix => v < suffix
  | .below, [v], suffix => suffix < v
  | _, _, _ => false

variable {text s u : Sql} {y : Pos × Leaf} {t' : Table}

section Wildcards

variable (ctx : AppContext) (project : String)

def matchingIds (w : Wildcard) : List String :=
  ((ctx.listStorageTables (if w.project = "" then project else w.project) w.dataset).filter
    fun id => Text.startsWith id w.stem && id ≠ w.stem).insertionSort (· ≤ ·)

/-- The matched tables that the first predicate on `_TABLE_SUFFIX` in the text admits. -/
def applyTableSuffixPushdown (text : Sql) (w : Wildcard) (ids : List String) : List String :=
  match suffixPatterns.findSome? fun pattern =>
      (ctx.suffixSearch pattern text).map fun values => (pattern, values) with
  | none => ids
  | some (pattern, values) =>
    ids.filter fun id => pattern.admits values (Text.drop id w.stem.length)

def suffixSelect (w : Wildcard) (id : String) : Sql :=
  .node (.tableSuffix (Text.drop id w.stem.length))
    [(.this, .leaf (.table { catalog := w.project, db := w.dataset, name := id }))]

/-- The union of the tables that a wildcard reference matches; without a dataset or matches it
stays. -/
def expandWildcard (text : Sql) (w : Wildcard) : Sql :=
  if w.dataset = "" then .leaf (.wildcard w)
  else match matchingIds ctx project w with
    | [] => .leaf (.wildcard w)
    | id :: ids =>
      let query : Sql := match applyTableSuffixPushdown ctx text w (id :: ids) with
        | [] => .node .noRows []
        | id :: ids => .node .union ((id :: ids).map fun id => (.expressions, suffixSelect w id))
      .node (.subquery (w.asAlias.getD "__wildcard")) [(.this, query)]

def wildcardLeaf (text : Sql) : Leaf → Sql
  | .wildcard w => expandWildcard ctx project text w
  | l => .leaf l

/-- The pass on wildcard tables. -/
def expandWildcardTables (s : Sql) : Sql :=
  bindAt (fun _ l => wildcardLeaf ctx project s l) [] s

variable {ctx project} {w : Wildcard}

theorem mem_applyTableSuffixPushdown {ids : List String} {id : String}
    (h : id ∈ applyTableSuffixPushdown ctx text w ids) : id ∈ ids := by
  unfold applyTableSuffixPushdown at h
  split at h
  · exact h
  · exact mem_of_mem_filter h

def admittedIds (ctx : AppContext) (project : String) (text : Sql) (w : Wildcard) : List String :=
  applyTableSuffixPushdown ctx text w (matchingIds ctx project w)

def Wildcard.member (w : Wildcard) (id : String) : Table where
  catalog := w.project
  db := w.dataset
  name := id

/-- Where the union for a wildcard reference at `p` has the reference to one of the tables. -/
def Wildcard.memberPos (w : Wildcard) (p : Pos) (id : String) : Pos :=
  (.tableSuffix (Text.drop id w.stem.length), .this) :: (.union, .expressions) ::
    (.subquery (w.asAlias.getD "__wildcard"), .this) :: p

theorem mem_leavesAt_expandWildcard_iff (hd : w.dataset ≠ "")
    (hi : matchingIds ctx project w ≠ []) {p : Pos} :
    y ∈ leavesAt p (expandWildcard ctx project text w) ↔
      ∃ id ∈ admittedIds ctx project text w, y = (w.memberPos p id, .table (w.member id)) := by
  rw [expandWildcard, if_neg hd, admittedIds]
  split
  · rename_i hni
    exact absurd hni hi
  rename_i id ids heq
  rw [heq, leavesAt_singleton]
  split
  · rename_i hn
    simp [hn]
  · rename_i id' ids' hs
    rw [hs, leavesAt_node, flatMap_map, mem_flatMap]
    simp only [suffixSelect, leavesAt_singleton, leavesAt_leaf, mem_singleton]
    rfl

theorem mem_leavesAt_expandWildcard {p : Pos}
    (hy : y ∈ leavesAt p (expandWildcard ctx project text w)) :
    y = (p, .wildcard w) ∨ ∃ id ∈ matchingIds ctx project w, y.2 = .table (w.member id) := by
  by_cases hd : w.dataset = ""
  · rw [expandWildcard, if_pos hd] at hy
    exact .inl (by simpa using hy)
  by_cases hi : matchingIds ctx project w = []
  · rw [expandWildcard, if_neg hd, hi] at hy
    exact .inl (by simpa using hy)
  · obtain ⟨id, hid, rfl⟩ := (mem_leavesAt_expandWildcard_iff hd hi).1 hy
    exact .inr ⟨id, mem_applyTableSuffixPushdown hid, rfl⟩

end Wildcards

/-! ## The chain -/

section Chain

variable (ctx : AppContext) (caller : CallerIdentity) (project : String)

def rewriteStatement (s : Sql) : Except DomainError Sql :=
  (rewriteForSystemTime ctx project s).map fun s₁ =>
    rewriteUnnestOffset ctx (expandInformationSchema (rewriteForRowAccess ctx caller project s₁))

/-- The chain up to translation. -/
def rewriteAndTranslateStatement (s : Sql) : Except DomainError Sql :=
  (rewriteStatement ctx caller project s).bind fun s₄ =>
    translate ctx (expandWildcardTables ctx project s₄)

/-- The SQL that the engine runs. -/
def finalSql (s : Sql) : Except DomainError Sql :=
  (rewriteAndTranslateStatement ctx caller project s).bind (rewriteTableRefs project)

end Chain

/-! ## The chain, one leaf at a time -/

/-- What the passes on a leaf depend on: whether the statement parses, after which passes it was
printed again, and the text in which predicates on `_TABLE_SUFFIX` are searched. -/
structure Chain where
  parsed : Bool
  printedByTime : Bool
  printedByAccess : Bool
  printedByOffset : Bool
  text : Sql

section Leaves

variable (ctx : AppContext) (caller : CallerIdentity) (project : String) (c : Chain)

def Chain.timePasses : List (Pos → Leaf → Except DomainError Sql) :=
  [fun _ l => if c.parsed then (resolveLeafVersion ctx project l).map .leaf else .ok (.leaf l),
    fun _ l => .ok (.leaf (l.print c.printedByTime))]

def Chain.accessPasses : List (Pos → Leaf → Except DomainError Sql) :=
  [fun p l => .ok (if c.parsed then (rowAccessLeaf ctx caller project p l).getD (.leaf l)
      else .leaf l),
    fun _ l => .ok (.leaf (l.print c.printedByAccess)),
    fun _ l => .ok (.leaf (informationSchemaLeaf l)),
    fun _ l => .ok (.leaf (l.print c.printedByOffset))]

def Chain.translatePasses : List (Pos → Leaf → Except DomainError Sql) :=
  [fun _ l => .ok (wildcardLeaf ctx project c.text l),
    fun _ l => expandLeafCall l,
    fun _ l => if l.parses then (rewriteLeafRefs project l.reprint).map .leaf
      else .error (.invalidQuery "Syntax error: Unexpected token")]

/-- What the chain makes of a leaf. -/
def Chain.leafSql (p : Pos) (l : Leaf) : Except DomainError Sql :=
  tryBindAll (c.timePasses ctx project ++ c.accessPasses ctx caller project ++
    c.translatePasses ctx project) p (.leaf l)

def Chain.of (s : Sql) : Chain :=
  let s₁ := (rewriteForSystemTime ctx project s).toOption.getD s
  let s₂ := rewriteForRowAccess ctx caller project s₁
  let s₃ := expandInformationSchema s₂
  { parsed := s.parses
    printedByTime := s.parses && s.leaves.any fun x => x.2.isPast
    printedByAccess := s.parses &&
      s₁.leaves.any fun x => (rowAccessLeaf ctx caller project x.1 x.2).isSome
    printedByOffset := s₃.parses && ctx.rebasesOffset s₃
    text := rewriteUnnestOffset ctx s₃ }

end Leaves

section LeafByLeaf

variable {ctx : AppContext} {caller : CallerIdentity} {project : String}

theorem rewriteForSystemTime_eq (s : Sql) :
    rewriteForSystemTime ctx project s =
      tryBindAll ((Chain.of ctx caller project s).timePasses ctx project) [] s := by
  simp only [Chain.timePasses, tryBindAll, Chain.of]
  unfold rewriteForSystemTime
  by_cases hs : s.parses = true
  · simp only [hs, if_true, Bool.true_and]
    cases tryBindAt (fun _ l => (resolveLeafVersion ctx project l).map .leaf) [] s with
    | error e => rfl
    | ok s' => simp only [Except.bind, tryBindAt_ok, Sql.bindAt_print]
  · simp only [hs, Bool.false_eq_true, if_false, Bool.false_and, tryBindAt_ok, bindAt_leaf_self,
      Except.bind, Sql.bindAt_print]

theorem parses_of_rewriteForSystemTime {s₁ : Sql}
    (h : rewriteForSystemTime ctx project s = .ok s₁) : s₁.parses = s.parses := by
  unfold rewriteForSystemTime at h
  split at h
  · rename_i hs
    split at h <;> [cases h; skip]
    rename_i s' hp
    have hs' : Sql.parses s' = true := by
      refine Sql.parses_of_tryBindAt hs (fun p l v hl hv => ?_) hp
      obtain ⟨l', hl', rfl⟩ := map_eq_ok_iff.1 hv
      simpa using parses_of_resolveLeafVersion hl hl'
    rw [← ok.inj h, hs]
    split
    · rw [Sql.parses_reprint, hs']
    · exact hs'
  · rw [ok.inj h]

theorem rewriteForRowAccess_eq_bindAt (s : Sql) :
    rewriteForRowAccess ctx caller project s =
      bindAt (fun _ l => .leaf (l.print (s.parses &&
          s.leaves.any fun x => (rowAccessLeaf ctx caller project x.1 x.2).isSome))) []
        (bindAt (fun p l => if s.parses then (rowAccessLeaf ctx caller project p l).getD (.leaf l)
          else .leaf l) [] s) := by
  rw [Sql.bindAt_print]
  unfold rewriteForRowAccess
  cases hs : s.parses with
  | false => simp [bindAt_leaf_self]
  | true =>
    cases ha : s.leaves.any fun x => (rowAccessLeaf ctx caller project x.1 x.2).isSome with
    | true => simp
    | false =>
      simp only [if_true]
      refine ((bindAt_congr fun x hx => ?_).trans (bindAt_leaf_self [] s)).symm
      have hn : rowAccessLeaf ctx caller project x.1 x.2 = none := by
        by_contra hso
        have := any_eq_false.1 ha x hx
        exact this (Option.isSome_iff_ne_none.2 hso)
      rw [hn, Option.getD_none]

theorem rewriteUnnestOffset_eq_bindAt (s : Sql) :
    rewriteUnnestOffset ctx s =
      bindAt (fun _ l => .leaf (l.print (s.parses && ctx.rebasesOffset s))) [] s := by
  rw [Sql.bindAt_print]
  simp [rewriteUnnestOffset]

theorem rewriteStatement_eq (s : Sql) :
    rewriteStatement ctx caller project s =
      tryBindAll ((Chain.of ctx caller project s).timePasses ctx project ++
        (Chain.of ctx caller project s).accessPasses ctx caller project) [] s := by
  rw [tryBindAll_append, ← rewriteForSystemTime_eq, rewriteStatement]
  cases hs₁ : rewriteForSystemTime ctx project s with
  | error e => rfl
  | ok s₁ =>
    have hp := parses_of_rewriteForSystemTime hs₁
    simp only [Except.map, Except.bind, Chain.accessPasses, Chain.of, tryBindAll,
      tryBindAt_ok, hs₁, Except.toOption, Option.getD_some]
    rw [rewriteUnnestOffset_eq_bindAt, expandInformationSchema, rewriteForRowAccess_eq_bindAt, hp]

theorem translate_bind_eq_ok_iff {c : Chain} (hc : c.text = s) :
    (translate ctx (expandWildcardTables ctx project s)).bind (rewriteTableRefs project) = .ok u ↔
      ctx.translationError (expandWildcardTables ctx project s) = none ∧
        tryBindAll (c.translatePasses ctx project) [] s = .ok u := by
  simp only [Chain.translatePasses, tryBindAll, bind_ok, tryBindAt_ok, hc, ok_bind]
  rw [translate]
  cases ctx.translationError (expandWildcardTables ctx project s) with
  | some e => simp
  | none =>
    have hca : tryBindAt (fun _ l => expandLeafCall l) []
        (bindAt (fun _ l => wildcardLeaf ctx project s l) [] s) =
          rewriteRangeSessionize (expandWildcardTables ctx project s) := rfl
    rw [hca]
    cases rewriteRangeSessionize (expandWildcardTables ctx project s) with
    | error e => simp
    | ok s' =>
      simp only [true_and]
      by_cases hs : s'.parses = true
      · rw [if_pos hs, Except.bind, rewriteTableRefs_reprint_eq_ok_iff hs]
        refine tryBindAt_eq_ok_congr fun x hx v => ?_
        rw [if_pos (Sql.parses_iff.1 hs x hx)]
      rw [if_neg hs]
      refine iff_of_false (fun h => by cases h) fun h => hs (Sql.parses_iff.2 fun x hx => ?_)
      obtain ⟨v, hv⟩ := exists_ok_of_tryBindAt h x hx
      by_contra hx'
      rw [if_neg hx'] at hv
      cases hv

/-- Whether translation accepts a statement. -/
def Accepted (ctx : AppContext) (caller : CallerIdentity) (project : String) (s : Sql) : Prop :=
  ∀ s₄, rewriteStatement ctx caller project s = .ok s₄ →
    ctx.translationError (expandWildcardTables ctx project s₄) = none

/-- The SQL, one leaf at a time. -/
theorem finalSql_eq_ok_iff :
    finalSql ctx caller project s = .ok u ↔ Accepted ctx caller project s ∧
      tryBindAt ((Chain.of ctx caller project s).leafSql ctx caller project) [] s = .ok u := by
  unfold Chain.leafSql
  rw [← tryBindAll_eq_ok_iff, tryBindAll_append, ← rewriteStatement_eq, finalSql,
    rewriteAndTranslateStatement, Accepted]
  cases hs₄ : rewriteStatement ctx caller project s with
  | error e => simp
  | ok s₄ =>
    simp only [ok.injEq, forall_eq']
    obtain ⟨s₁, hs₁, rfl⟩ := Except.map_eq_ok_iff.1 hs₄
    exact translate_bind_eq_ok_iff (by simp [Chain.of, hs₁, Except.toOption])

theorem mem_leaves_finalSql (hu : finalSql ctx caller project s = .ok u) {x : Pos × Leaf}
    (hx : x ∈ s.leaves) {v : Sql}
    (hv : (Chain.of ctx caller project s).leafSql ctx caller project x.1 x.2 = .ok v)
    (hy : y ∈ leavesAt x.1 v) : y ∈ leavesAt [] u :=
  (mem_leavesAt_tryBindAt (finalSql_eq_ok_iff.1 hu).2).2 ⟨x, hx, v, hv, hy⟩

end LeafByLeaf

/-! ## The chain on table references -/

/-- Whether the passes after the row access pass leave a leaf for the naming of tables. -/
def Leaf.isSettled (l : Leaf) : Bool :=
  match l with
  | .table _ => !l.isInformationSchema
  | .selectWhere _ _ | .routine _ _ _ | .values _ => true
  | .wildcard _ | .rangeSessionize _ | .unparsed _ => false

section References

variable {ctx : AppContext} {caller : CallerIdentity} {project : String} {c : Chain}
  {printed printed' : Bool} {p : Pos}

theorem Leaf.print_settled {l : Leaf} (hl : l.isSettled = true) : l.print printed = l := by
  cases printed with
  | false => rfl
  | true =>
    cases l with
    | wildcard w => cases hl
    | _ => rfl

theorem informationSchemaLeaf_settled {l : Leaf} (hl : l.isSettled = true) :
    informationSchemaLeaf l = l := by
  cases l with
  | table t =>
    rw [Leaf.isSettled, Bool.not_eq_true'] at hl
    rw [informationSchemaLeaf, hl, if_neg Bool.false_ne_true]
  | _ => rfl

theorem tryBindAll_leaf_settled {l : Leaf} (hl : l.isSettled = true) :
    tryBindAll ((fun _ l => .ok (.leaf (l.print printed))) ::
      (fun _ l => .ok (.leaf (informationSchemaLeaf l))) ::
      (fun _ l => .ok (.leaf (l.print printed'))) :: c.translatePasses ctx project) p (.leaf l) =
        (rewriteLeafRefs project l).map .leaf := by
  have hc : wildcardLeaf ctx project c.text l = .leaf l ∧ expandLeafCall l = .ok (.leaf l) ∧
      l.parses = true := by
    cases l with
    | wildcard w | rangeSessionize | unparsed => cases hl
    | _ => exact ⟨rfl, rfl, rfl⟩
  have hr : l.reprint = l := @Leaf.print_settled true l hl
  simp only [Chain.translatePasses, tryBindAll, tryBindAt, ok_bind, Leaf.print_settled hl,
    informationSchemaLeaf_settled hl, hc, if_true, hr, bind_ok]

variable {v : Sql} {t : Table}

section

variable (hparsed : c.parsed = true)

include hparsed

theorem leafSql_table_iff (ht : resolveVersion ctx project t = .ok t')
    (hs : ∀ y ∈ leavesAt p ((rowAccessLeaf ctx caller project p (.table t')).getD
      (.leaf (.table t'))), y.2.isSettled = true) :
    c.leafSql ctx caller project p (.table t) = .ok v ↔
      tryBindAt (fun _ l => (rewriteLeafRefs project l).map .leaf) p
        ((rowAccessLeaf ctx caller project p (.table t')).getD (.leaf (.table t'))) = .ok v := by
  have hp : (Leaf.table t').print c.printedByTime = .table t' := by
    cases c.printedByTime <;> rfl
  simp only [Chain.leafSql, Chain.timePasses, Chain.accessPasses, cons_append, nil_append]
  rw [tryBindAll, tryBindAt, if_pos hparsed, resolveLeafVersion, ht, Except.map, Except.map,
    ok_bind, tryBindAll, tryBindAt, hp, ok_bind, tryBindAll, tryBindAt,
    if_pos hparsed, ok_bind]
  rw [tryBindAll_eq_ok_iff]
  exact tryBindAt_eq_ok_congr fun y hy w => by rw [tryBindAll_leaf_settled (hs y hy)]

theorem leafSql_error {e : DomainError} (ht : resolveVersion ctx project t = .error e) :
    c.leafSql ctx caller project p (.table t) ≠ .ok v := by
  intro h
  simp only [Chain.leafSql, Chain.timePasses, cons_append] at h
  rw [tryBindAll, tryBindAt, if_pos hparsed, resolveLeafVersion, ht] at h
  cases h

theorem leafSql_protected (hp : isWriteTarget p = false)
    (ht : resolveVersion ctx project t = .ok t') (hd : '.' ∉ t'.db.toList) (hdb : t'.db ≠ "")
    (hn : t'.name ≠ "") (hr : isReserved t'.db = false)
    (hv : ctx.catalog.viewBody (t'.idIn project) = none)
    (hpo : ctx.catalog.listRowAccessPolicies (t'.idIn project) ≠ [])
    (h : c.leafSql ctx caller project p (.table t) = .ok v) :
    v = .node (.subquery t'.aliasOrName) [(.this, .leaf (.selectWhere
      { t' with
        catalog := "", db := schemaName (t'.projectOr project) t'.db, tableAlias := none }
      (policyCondition ctx caller (ctx.catalog.listRowAccessPolicies (t'.idIn project)))))] := by
  have hw : rowAccessLeaf ctx caller project p (.table t') =
      some (wrapWithFilter ctx caller
        (ctx.catalog.listRowAccessPolicies (t'.idIn project)) t') := by
    rw [rowAccessLeaf, if_neg (by simp [hp])]
    refine (congrFun (rewriteTable_eq _) t').trans ?_
    rw [rewriteTableWith_base hdb hn hr hv]
    cases hps : ctx.catalog.listRowAccessPolicies (t'.idIn project) with
    | nil => exact absurd hps hpo
    | cons => rfl
  rw [leafSql_table_iff hparsed ht (by simp [hw, wrapWithFilter, Leaf.isSettled]), hw,
    Option.getD_some] at h
  obtain ⟨g, hg, rfl⟩ := tryBindAt_eq_ok_iff_exists.1 h
  simp only [wrapWithFilter, leavesAt_singleton,
    leavesAt_leaf, mem_singleton, forall_eq, rewriteLeafRefs] at hg
  have hno := @rewriteTableNode_qualified project { t' with tableAlias := none } hd hdb hn hr
  rw [hno] at hg
  split at hg <;> [skip; cases hg]
  simp only [wrapWithFilter, bindAt_node, map_cons, bindAt_leaf]
  rw [← ok.inj hg]
  rfl

theorem leafSql_unprotected (ht : resolveVersion ctx project t = .ok t')
    (hd : '.' ∉ t'.db.toList) (hdb : t'.db ≠ "") (hn : t'.name ≠ "")
    (hr : isReserved t'.db = false) (hv : ctx.catalog.viewBody (t'.idIn project) = none)
    (hp : ctx.catalog.listRowAccessPolicies (t'.idIn project) = [])
    (hi : Leaf.isInformationSchema (.table t') = false)
    (h : c.leafSql ctx caller project p (.table t) = .ok v) :
    v = .leaf (.table
      { t' with catalog := "", db := schemaName (t'.projectOr project) t'.db }) := by
  have hs : rowAccessLeaf ctx caller project p (.table t') = none := by
    unfold rowAccessLeaf
    split
    · rfl
    · refine (congrFun (rewriteTable_eq _) t').trans ?_
      rw [rewriteTableWith_base hdb hn hr hv, hp]
  rw [leafSql_table_iff hparsed ht (by simpa [hs, Leaf.isSettled] using hi), hs,
    Option.getD_none, tryBindAt, rewriteLeafRefs, rewriteTableNode_qualified hd hdb hn hr]
    at h
  split at h
  · exact (ok.inj h).symm
  · cases h

end

def Chain.reprints (c : Chain) : Bool :=
  c.printedByTime || c.printedByAccess || c.printedByOffset

/-- **The wildcard references that are expanded**: left by the row access pass, with their star, and
a dataset with tables that match. -/
structure Chain.Expands (ctx : AppContext) (caller : CallerIdentity) (project : String) (c : Chain)
    (p : Pos) (w : Wildcard) : Prop where
  stays : rowAccessLeaf ctx caller project p (.wildcard w) = none
  star : w.quoted = true ∨ c.reprints = false
  dataset : w.dataset ≠ ""
  ids : matchingIds ctx project w ≠ []

theorem leafSql_wildcard_iff (hparsed : c.parsed = true) {w : Wildcard}
    (hw : c.Expands ctx caller project p w) :
    c.leafSql ctx caller project p (.wildcard w) = .ok v ↔
      tryBindAt (fun _ l => (rewriteLeafRefs project l).map .leaf) p
        (expandWildcard ctx project c.text w) = .ok v := by
  have hp : ∀ b, (b = true → c.reprints = true) →
      (Leaf.wildcard w).print b = .wildcard w := by
    intro b hb
    cases b with
    | false => rfl
    | true => simp [Leaf.print, Leaf.reprint, hw.star.resolve_right (by simp [hb rfl])]
  have ht := hp c.printedByTime fun h => by simp [Chain.reprints, h]
  have ha := hp c.printedByAccess fun h => by simp [Chain.reprints, h]
  have ho := hp c.printedByOffset fun h => by simp [Chain.reprints, h]
  have hr : resolveLeafVersion ctx project (.wildcard w) = .ok (.wildcard w) := rfl
  have hi : informationSchemaLeaf (.wildcard w) = .wildcard w := rfl
  simp only [Chain.leafSql, Chain.timePasses, Chain.accessPasses, Chain.translatePasses,
    cons_append, nil_append]
  rw [tryBindAll, tryBindAt, if_pos hparsed, hr, Except.map, Except.ok_bind,
    tryBindAll, tryBindAt, ht, ok_bind, tryBindAll, tryBindAt, if_pos hparsed, hw.stays,
    Option.getD_none, ok_bind, tryBindAll, tryBindAt, ha, ok_bind, tryBindAll,
    tryBindAt, hi, ok_bind, tryBindAll, tryBindAt, ho,
    ok_bind, tryBindAll, tryBindAt, wildcardLeaf, ok_bind, tryBindAll_eq_ok_iff]
  refine tryBindAt_eq_ok_congr fun y hy u => ?_
  obtain ⟨id, -, rfl⟩ := (mem_leavesAt_expandWildcard_iff hw.dataset hw.ids).1 hy
  simp [tryBindAll, tryBindAt, expandLeafCall, Leaf.parses, Leaf.reprint, bind_ok]

theorem leafSql_routine (catalog db name : String) :
    c.leafSql ctx caller project p (.routine catalog db name) =
      (rewriteRoutine project catalog db name).map .leaf := by
  have hr : resolveLeafVersion ctx project (.routine catalog db name) =
      .ok (.routine catalog db name) := rfl
  have hs : rowAccessLeaf ctx caller project p (.routine catalog db name) = none := by
    unfold rowAccessLeaf
    split <;> rfl
  simp only [Chain.leafSql, Chain.timePasses, Chain.accessPasses, cons_append, nil_append]
  rw [tryBindAll, tryBindAt, hr, Except.map, ite_self, Except.ok_bind, tryBindAll, tryBindAt,
    Leaf.print_settled rfl, ok_bind, tryBindAll, tryBindAt, hs, Option.getD_none,
    ite_self, ok_bind, tryBindAll_leaf_settled rfl]
  rfl

theorem leafSql_rangeSessionize_iff (hparsed : c.parsed = false) {call : SessionizeCall} :
    c.leafSql ctx caller project p (.rangeSessionize call) = .ok v ↔
      ∃ op t, modeToOp (Text.upper (call.mode.getD "MEETS")) = some op ∧
        rewriteTableNode project call.table = .ok t ∧
        v = .node (.sessionize op call.rangeCol call.parts) [(.this, .leaf (.table t))] := by
  have hp : ∀ b, (Leaf.rangeSessionize call).print b = .rangeSessionize call := by
    intro b
    cases b <;> rfl
  have hi : informationSchemaLeaf (.rangeSessionize call) = .rangeSessionize call := rfl
  have hw : wildcardLeaf ctx project c.text (.rangeSessionize call) =
      .leaf (.rangeSessionize call) := rfl
  have hc : expandLeafCall (.rangeSessionize call) = expandCall call := rfl
  simp only [Chain.leafSql, Chain.timePasses, Chain.accessPasses, Chain.translatePasses,
    cons_append, nil_append, hparsed, Bool.false_eq_true, if_false]
  rw [tryBindAll, tryBindAt, ok_bind, tryBindAll, tryBindAt, hp, ok_bind,
    tryBindAll, tryBindAt, ok_bind, tryBindAll, tryBindAt, hp, ok_bind,
    tryBindAll, tryBindAt, hi, ok_bind, tryBindAll, tryBindAt, hp, ok_bind,
    tryBindAll, tryBindAt, hw, ok_bind, tryBindAll, tryBindAt, hc, expandCall]
  cases modeToOp (Text.upper (call.mode.getD "MEETS")) with
  | none => simp
  | some op =>
    simp only [ok_bind, tryBindAll, bind_ok, Option.some.injEq, exists_eq_left', exists_and_left]
    rw [tryBindAt_eq_ok_iff_exists]
    simp only [leavesAt_singleton, leavesAt_leaf,
      mem_singleton, forall_eq, Leaf.reprint, rewriteLeafRefs, bindAt_node, map_cons,
      map_nil, bindAt_leaf]
    constructor
    · rintro ⟨g, hg, rfl⟩
      obtain ⟨l, hl, hgl⟩ := map_eq_ok_iff.1 hg
      obtain ⟨t, ht, rfl⟩ := map_eq_ok_iff.1 hl
      exact ⟨t, ht, by rw [hgl]⟩
    · rintro ⟨t, ht, rfl⟩
      exact ⟨fun _ _ => .leaf (.table t), by rw [ht]; rfl, rfl⟩

end References

end Bqemulator
