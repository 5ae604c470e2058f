import Bqemulator.RowAccess.Noninterference
import Bqemulator.Streaming.ReadSession

/-!
# The Storage Read API

`CreateReadSession` reads a table with a column list and a `row_restriction`, a text that ends up
after `WHERE` once it has passed a guard against keywords. The handler builds two queries with it,
one over the physical table and one over the user table, from which the row access pass makes the
query that enforces policies. The second is run only if the pass changed it.
-/

namespace Bqemulator

open SyntaxTree Except List Sql

variable {Row : Type}

/-! ## The request -/

/-- The request of a client. -/
structure ReadSession where
  table : String
  selectedFields : List String := []
  rowRestriction : String := ""
  dataFormat : Nat := 0
  maxStreamCount : Int := 0

/-- Whether a name is one a column can have: a letter or underscore, then at most 299 word
characters. -/
def isColumnName (name : String) : Bool :=
  match Text.anchored name with
  | [] => false
  | c :: rest => (c.isAlpha || c = '_') && rest.all Text.isWordChar && rest.length ≤ 299

def validateColumnNames (names : List String) : Except DomainError Unit :=
  match names.find? fun name => !isColumnName name with
  | some name => .error (.validation ("Invalid column name: " ++ Text.quoted name) "")
  | none => .ok ()

def parseTablePath (tablePath : String) : Option TableId :=
  match (tablePath.toList.splitOn '/').map String.ofList with
  | _ :: project :: _ :: dataset :: _ :: table :: _ => some ⟨project, dataset, table⟩
  | _ => none

variable (rs : ReadSession)

def ReadSession.fields : Except DomainError (Option (List String)) :=
  if rs.selectedFields = [] then .ok none
  else (validateColumnNames rs.selectedFields).map fun _ => some rs.selectedFields

def resolveReadTarget : Except RpcError (TableId × (String × String) × Option (List String)) :=
  match parseTablePath rs.table with
  | none => .error ⟨.invalidArgument, "Invalid table path: " ++ rs.table⟩
  | some id =>
    ((quotedTableRef id).bind fun targetRef => rs.fields.map fun fields =>
      (id, targetRef, fields)).mapError fun e => ⟨.invalidArgument, e.message⟩

inductive WireFormat where
  | arrow
  | avro
deriving DecidableEq

def resolveDataFormat : Except RpcError WireFormat :=
  if rs.dataFormat = 0 ∨ rs.dataFormat = 2 then .ok .arrow
  else if rs.dataFormat = 1 then .ok .avro
  else .error ⟨.invalidArgument,
    "Unsupported data_format: " ++ toString rs.dataFormat ++ "; supported: ARROW, AVRO"⟩

/-! ## The guard -/

/-- The words that no restriction may have. -/
def forbiddenFilterKeywords : List String :=
  ["SELECT", "INSERT", "UPDATE", "DELETE", "DROP", "CREATE", "ALTER", "ATTACH", "COPY", "EXEC",
    "EXECUTE", "TRUNCATE", "GRANT", "REVOKE", "UNION", "INTERSECT", "EXCEPT", "CALL", ";", "--",
    "/*", "*/"]

/-- The words, statement ends and comment marks of a text; `word` is the word being read. -/
def filterTokens (word : List Char) : List Char → List String
  | [] => flush
  | '-' :: '-' :: rest => flush ++ "--" :: filterTokens [] rest
  | '/' :: '*' :: rest => flush ++ "/*" :: filterTokens [] rest
  | '*' :: '/' :: rest => flush ++ "*/" :: filterTokens [] rest
  | ';' :: rest => flush ++ ";" :: filterTokens [] rest
  | c :: rest =>
    if c.isAlpha || c = '_' || (c.isDigit && !word.isEmpty) then filterTokens (word ++ [c]) rest
    else flush ++ filterTokens [] rest
where
  flush : List String := if word.isEmpty then [] else [String.ofList word]

/-- The guard on a restriction against second statements and subqueries. -/
def rejectDangerousFilter (rowFilter : String) : Except DomainError Unit :=
  match (filterTokens [] rowFilter.toList).find? fun token =>
      Text.upper token ∈ forbiddenFilterKeywords with
  | some token => .error
      (.validation ("row_restriction keyword not allowed in filter: " ++ Text.quoted token) "")
  | none =>
    if Text.contains rowFilter ";" || Text.contains rowFilter "--" || Text.contains rowFilter "/*"
    then .error (.validation "row_restriction contains statement-terminator bytes" "")
    else .ok ()

/-! ## The two queries -/

section Build

variable (ctx : AppContext) (parse : String → Option Restriction) (caller : CallerIdentity)

/-- What the parser makes of a `SELECT` of these columns over `args` and a text after `WHERE`. -/
def selectWith (fields : Option (List String)) (args : List (ArgKey × Sql)) (rowFilter : String) :
    Sql :=
  if rowFilter = "" then .node (.readRows fields none) args
  else match parse rowFilter with
    | some r => .node (.readRows fields (some r)) args
    | none => .leaf (.unparsed rowFilter)

def whereOf : Sql → Option Restriction
  | .node (.readRows _ r) _ => r
  | _ => none

/-- The query over the physical table. A restriction that does not translate is left out. -/
def buildReadSql (targetRef : String × String) (fields : Option (List String))
    (rowFilter : String) : Except DomainError Sql :=
  let select r : Sql := .node (.readRows fields r)
    [(.from_, .leaf (.table { db := targetRef.1, name := targetRef.2 }))]
  if rowFilter = "" then .ok (select none)
  else (rejectDangerousFilter rowFilter).map fun _ =>
    -- `SELECT 1 WHERE …`, of which only the part from `WHERE` on is taken
    match translate ctx (selectWith parse none [] rowFilter) with
    | .ok translated => select (whereOf translated)
    | .error _ => select none

def TableId.ref (id : TableId) : Table where
  catalog := id.project
  db := id.dataset
  name := id.table

/-- The query over the user table. -/
def buildBqReadSql (id : TableId) (fields : Option (List String)) (rowFilter : String) : Sql :=
  selectWith parse fields [(.from_, .leaf (.table id.ref))] rowFilter

/-- Whether the row access pass changes a query. -/
def rowAccessModifies (project : String) (s : Sql) : Bool :=
  s.parses && s.leaves.any fun x => (rowAccessLeaf ctx caller project x.1 x.2).isSome

/-- The query that is run: the one with policies if the pass made one. -/
def applyRowAccessRewrite (sql : Sql) (id : TableId) (fields : Option (List String))
    (rowFilter : String) : Except RpcError Sql :=
  if ctx.catalog.policies = [] then .ok sql
  else
    let bqSql := buildBqReadSql parse id fields rowFilter
    if rowAccessModifies ctx caller id.project bqSql then
      match translate ctx (rewriteForRowAccess ctx caller id.project bqSql) with
      | .error _ => .error ⟨.invalidArgument, "row-access rewrite failed to translate"⟩
      | .ok translated => (rewriteTableRefs id.project translated).mapError fun e =>
          ⟨.unknown, e.message⟩
    else .ok sql

end Build

/-! ## The handler -/

/-- The rows a restriction keeps: those on which its predicate is true, as the clauses after it
leave them. -/
def Restriction.keeps (truth : String → Row → Truth) (clauses : String → List Row → List Row) :
    Option Restriction → List Row → List Row
  | none, rows => rows
  | some r, rows =>
    let kept := rows.filter fun x => truth r.cond x = .yes
    match r.tail with
    | none => kept
    | some tail => clauses tail kept

/-- **The engine as the handler uses it**: it evaluates a `SELECT` of columns the table has, with a
restriction, and hands out the rows. -/
structure ReadEngine (Row : Type) extends Engine Row where
  /-- The columns of a row that a request selects. -/
  project : Option (List String) → Row → Row
  /-- The effect of the clauses after a predicate. -/
  clauses : String → List Row → List Row
  /-- Whether the columns that a query names exist. -/
  binds : Option (List String) → Option Restriction → Bool
  /-- The rows of a result, or an error. -/
  fetchArrow : Val → Except String (List Row)
  /-- The size of a result. -/
  nbytes : List Row → Nat
  node_readRows : ∀ fields r name rows,
    node (.readRows fields r) [(.from_, relation name rows)] =
      if binds fields r then result ((Restriction.keeps truth clauses r rows).map (project fields))
      else missing
  fetchArrow_result : ∀ rows, fetchArrow (result rows) = .ok rows
  fetchArrow_missing : ∃ e, fetchArrow missing = .error e

/-- `CreateReadSession`. -/
def handleCreateReadSession (E : ReadEngine Row) (parse : String → Option Restriction)
    (ctx : AppContext) (caller : CallerIdentity) (st : Storage Row) (fuel : Nat)
    (sessionName : String) (rs : ReadSession) : Except RpcError (ReadSessionState Row) :=
  (resolveReadTarget rs).bind fun (id, targetRef, fields) =>
    -- an exception of the guard reaches the caller of the handler
    ((buildReadSql ctx parse targetRef fields rs.rowRestriction).mapError fun e =>
      ⟨.unknown, e.message⟩).bind fun sql =>
      (applyRowAccessRewrite ctx parse caller sql id fields rs.rowRestriction).bind fun sql' =>
        ((E.fetchArrow (E.eval st fuel sql')).mapError fun e =>
          ⟨.notFound, "Table read failed: " ++ e⟩).bind fun arrowTable =>
          (resolveDataFormat rs).map fun _ =>
            createReadSession sessionName arrowTable (E.nbytes arrowTable)
              (if rs.maxStreamCount = 0 then 1 else rs.maxStreamCount)

/-! ## What a session is for -/

section Serves

variable (E : ReadEngine Row) (parse : String → Option Restriction) (ctx : AppContext)
  (caller : CallerIdentity) (T : TableId) (rs : ReadSession)

def ReadSession.selection : Option (List String) :=
  if rs.selectedFields = [] then none else some rs.selectedFields

/-- Whether a text after `WHERE` is true of a row: the empty one is, one that is no predicate is
not. -/
def restrictionTrue (truth : String → Row → Truth) (rowFilter : String) (x : Row) : Bool :=
  rowFilter = "" || (parse rowFilter).any fun r => r.tail.isNone && truth r.cond x = .yes

/-- **A session as it should be**: the rows that the caller's policies allow and of which the
restriction is true. -/
def ReadSession.Serves : Prop :=
  ∀ (st : Storage Row) (fuel : Nat) (sessionName : String) (rows : List Row)
    (state : ReadSessionState Row), st.get T.key = some rows →
    handleCreateReadSession E parse ctx caller st fuel sessionName rs = .ok state →
    state.readAll =
      ((visibleRows E.toEngine caller (ctx.catalog.listRowAccessPolicies T) rows).filter
        (restrictionTrue parse E.truth rs.rowRestriction)).map (E.project rs.selection)

/-- The requests that are refused for their ids, columns, restriction or format. -/
def ReadSession.IsRejected : Prop :=
  (∃ e, quotedTableRef T = .error e) ∨ (∃ e, rs.fields = .error e) ∨
    (rs.rowRestriction ≠ "" ∧ ∃ e, rejectDangerousFilter rs.rowRestriction = .error e) ∨
      ∃ e, resolveDataFormat rs = .error e

def readSql (fields : Option (List String)) (r : Option Restriction) : Sql :=
  .node (.readRows fields r) [(.from_, .leaf (.table T.ref))]

/-- Whether the clauses after the predicate of a restriction, if there are any, leave none of the
visible rows. -/
def Restriction.LeavesNone (r : Restriction) (visible : Row → Bool) : Prop :=
  ∀ tail, r.tail = some tail → ∀ rows : List Row,
    E.clauses tail ((rows.filter visible).filter fun x => E.truth r.cond x = .yes) = []

/-- **The requests whose restriction is kept**: it is empty, or parsed and in the query without a
clause after it; or the query fails, or makes no difference. -/
def ReadSession.IsHonoured : Prop :=
  let fields := rs.selection
  let policies := ctx.catalog.listRowAccessPolicies T
  if rs.rowRestriction = "" then True
  else match parse rs.rowRestriction with
    | none => E.binds fields none = false
    | some r =>
      if policies = [] then
        if ctx.translationError (.node (.readRows none (some r)) []) = none then
          E.binds fields (some r) = false ∨ r.LeavesNone E fun _ => true
        else E.binds fields none = false ∨ (r.tail = none ∧ ∀ x, E.truth r.cond x = .yes)
      else ctx.translationError
          (rewriteForRowAccess ctx caller T.project (readSql T fields (some r))) ≠ none ∨
        E.binds fields (some r) = false ∨ r.LeavesNone E (isAllowed E.truth caller policies)

end Serves

section Query

variable {E : ReadEngine Row} {parse : String → Option Restriction} {ctx : AppContext}
  {caller : CallerIdentity} {T : TableId} {rs : ReadSession} {fields : Option (List String)}
  {r : Option Restriction} {st : Storage Row} {fuel : Nat} {rows : List Row}

/-- The statement over the table as the engine stores it. -/
def physicalSql (T : TableId) (fields : Option (List String)) (r : Option Restriction) : Sql :=
  .node (.readRows fields r) [(.from_, .leaf (.table { db := T.key.1, name := T.key.2 }))]

/-- The statement with the filter of the table's policies, before the references are rewritten and
after. -/
def wrappedSql (ctx : AppContext) (caller : CallerIdentity) (T : TableId)
    (fields : Option (List String)) (r : Option Restriction) : Sql :=
  .node (.readRows fields r)
    [(.from_, wrapWithFilter ctx caller (ctx.catalog.listRowAccessPolicies T) T.ref)]

def filteredSql (ctx : AppContext) (caller : CallerIdentity) (T : TableId)
    (fields : Option (List String)) (r : Option Restriction) : Sql :=
  .node (.readRows fields r) [(.from_, .node (.subquery T.table)
    [(.this, .leaf (.selectWhere { db := T.key.1, name := T.key.2 }
      (policyCondition ctx caller (ctx.catalog.listRowAccessPolicies T))))])]

theorem rows?_key (t : Table) (hg : st.get T.key = some rows) (hc : t.catalog = "")
    (hk : (t.db, t.name) = T.key) : st.rows? t = some rows := by
  simp [Storage.rows?, Storage.resolve, hc, hk, hg]

theorem eval_physical (hg : st.get T.key = some rows) :
    E.eval st fuel (physicalSql T fields r) =
      if E.binds fields r then
        E.result ((Restriction.keeps E.truth E.clauses r rows).map (E.project fields))
      else E.missing := by
  rw [← E.node_readRows fields r T.key.2 rows, physicalSql, Engine.eval, foldAt_node, map_singleton,
    foldAt_leaf, Engine.leafValue_rows rfl (schemaName_ne_empty _ _) rfl (rows?_key _ hg rfl rfl)]
  rfl

/-- The query that enforces policies gives the visible rows. -/
theorem eval_filtered (hf : ∀ f x, ctx.parsesFilter f = false → E.truth f x ≠ .yes)
    (hg : st.get T.key = some rows) :
    E.eval st fuel (filteredSql ctx caller T fields r) =
      if E.binds fields r then
        E.result ((Restriction.keeps E.truth E.clauses r (rows.filter
          (isAllowed E.truth caller (ctx.catalog.listRowAccessPolicies T)))).map (E.project fields))
      else E.missing := by
  have hl p : E.leafValue st fuel p (.selectWhere { db := T.key.1, name := T.key.2 }
      (policyCondition ctx caller (ctx.catalog.listRowAccessPolicies T))) =
        E.result (rows.filter
          (isAllowed E.truth caller (ctx.catalog.listRowAccessPolicies T))) := by
    rw [Engine.leafValue_selectWhere, ← filterBy_policyCondition hf]
    simp [rows?_key { db := T.key.1, name := T.key.2 } hg rfl rfl]
  rw [← E.node_readRows fields r T.table, ← E.node_subquery]
  simp only [filteredSql, Engine.eval, foldAt_node, map_cons, map_nil, foldAt_leaf, hl]

theorem idIn_ref (T : TableId) : T.ref.idIn T.project = T := by
  rw [Table.idIn, Table.projectOr, TableId.ref, ite_self]

theorem leaves_readSql :
    (readSql T fields r).leaves = [([(.readRows fields r, .from_)], .table T.ref)] := by
  simp [leaves, readSql]

theorem parses_readSql : (readSql T fields r).parses = true := by
  simp [parses, leaves_readSql, Leaf.parses]

theorem parses_wrappedSql : (wrappedSql ctx caller T fields r).parses = true := by
  simp [wrappedSql, parses, leaves, wrapWithFilter, Leaf.parses]

theorem rewriteTableRefs_wrappedSql (hT : T.IsOrdinary) :
    rewriteTableRefs T.project (reprint (wrappedSql ctx caller T fields r)) =
      .ok (filteredSql ctx caller T fields r) := by
  have hn : rewriteTableNode T.project { T.ref with tableAlias := none } =
      .ok { db := T.key.1, name := T.key.2 } :=
    rewriteTableNode_ordinary hT (idIn_ref T)
  rw [rewriteTableRefs_reprint_eq_ok_iff parses_wrappedSql]
  simp only [wrappedSql, wrapWithFilter, tryBindAt, tryBindArgs, rewriteLeafRefs, Leaf.reprint, hn]
  rfl

variable {text : String} (hT : T.IsOrdinary) (hbase : ctx.catalog.viewBody T = none)
include hT hbase

theorem rowAccessLeaf_ref :
    rowAccessLeaf ctx caller T.project [(.readRows fields r, .from_)] (.table T.ref) =
      if ctx.catalog.listRowAccessPolicies T = [] then none
      else some (wrapWithFilter ctx caller (ctx.catalog.listRowAccessPolicies T) T.ref) := by
  have hr := @rewriteTableWith_base ctx caller T.project T.ref
    (expandBody ctx caller T.project maxViewDepth) (ne_empty_of_isBqDatasetId hT.dataset) hT.named
    hT.ordinary ((idIn_ref T).symm ▸ hbase)
  rw [idIn_ref, ← rewriteTable_eq] at hr
  have hl : rowAccessLeaf ctx caller T.project [(.readRows fields r, .from_)] (.table T.ref) =
      rewriteTable ctx caller T.project maxViewDepth T.ref := rfl
  rw [hl, hr]
  cases ctx.catalog.listRowAccessPolicies T <;> rfl

theorem rowAccessModifies_readSql :
    rowAccessModifies ctx caller T.project (readSql T fields r) =
      decide (ctx.catalog.listRowAccessPolicies T ≠ []) := by
  rw [rowAccessModifies, parses_readSql, leaves_readSql, any_cons, any_nil,
    rowAccessLeaf_ref hT hbase]
  by_cases hp : ctx.catalog.listRowAccessPolicies T = [] <;> simp [hp]

theorem rewriteForRowAccess_readSql (hp : ctx.catalog.listRowAccessPolicies T ≠ []) :
    rewriteForRowAccess ctx caller T.project (readSql T fields r) =
      wrappedSql ctx caller T fields r := by
  have hm : rowAccessModifies ctx caller T.project (readSql T fields r) = true := by
    rw [rowAccessModifies_readSql hT hbase]
    exact decide_eq_true hp
  rw [rowAccessModifies, Bool.and_eq_true] at hm
  rw [rewriteForRowAccess, if_pos hm]
  simp [readSql, wrappedSql, rowAccessLeaf_ref hT hbase, hp, wrapWithFilter, reprint, Leaf.reprint]

theorem applyRowAccessRewrite_unprotected (c : CallerIdentity)
    (hb : buildBqReadSql parse T fields text = readSql T fields r)
    (hp : ctx.catalog.listRowAccessPolicies T = []) (s : Sql) :
    applyRowAccessRewrite ctx parse c s T fields text = .ok s := by
  simp [applyRowAccessRewrite, hb, rowAccessModifies_readSql hT hbase, hp]

/-- A table with policies is read through the second query. -/
theorem applyRowAccessRewrite_protected (c : CallerIdentity)
    (hb : buildBqReadSql parse T fields text = readSql T fields r)
    (hp : ctx.catalog.listRowAccessPolicies T ≠ []) (s : Sql) :
    applyRowAccessRewrite ctx parse c s T fields text =
      if ctx.translationError (rewriteForRowAccess ctx c T.project (readSql T fields r)) = none
      then .ok (filteredSql ctx c T fields r)
      else .error ⟨.invalidArgument, "row-access rewrite failed to translate"⟩ := by
  have hs : ctx.catalog.policies ≠ [] := by
    intro hn
    exact hp (by rw [Catalog.listRowAccessPolicies, hn, List.filter_nil])
  simp only [applyRowAccessRewrite, hs, if_false, hb, rowAccessModifies_readSql hT hbase,
    decide_eq_true hp, if_true, rewriteForRowAccess_readSql hT hbase hp]
  cases hacc : ctx.translationError (wrappedSql ctx c T fields r) with
  | none =>
    rw [translate_of_parses parses_wrappedSql hacc]
    simp only [rewriteTableRefs_wrappedSql hT, if_true, Except.mapError]
  | some e =>
    rw [translate_of_translationError hacc]
    simp

omit hT hbase

theorem buildBqReadSql_parsed (T : TableId) (fields : Option (List String)) {r : Restriction}
    (hne : text ≠ "") (hparse : parse text = some r) :
    buildBqReadSql parse T fields text = readSql T fields (some r) := by
  simp [buildBqReadSql, selectWith, hne, hparse, readSql]

theorem translate_unparsed (c : AppContext) (text : String) :
    ∃ e, translate c (.leaf (.unparsed text)) = .error e := by
  rw [translate]
  cases c.translationError (.leaf (.unparsed text)) with
  | some e => exact ⟨e, rfl⟩
  | none => exact ⟨_, rfl⟩

/-- A restriction that does not parse is left out. -/
theorem buildReadSql_unparsed (hne : text ≠ "")
    (hg : rejectDangerousFilter text = .ok ()) (hparse : parse text = none) :
    buildReadSql ctx parse T.key fields text = .ok (physicalSql T fields none) := by
  obtain ⟨e, he⟩ := translate_unparsed ctx text
  simp [buildReadSql, hne, hg, selectWith, hparse, he, Except.map, physicalSql]

theorem buildReadSql_parsed {r : Restriction} (hne : text ≠ "")
    (hg : rejectDangerousFilter text = .ok ()) (hparse : parse text = some r) :
    buildReadSql ctx parse T.key fields text = .ok (physicalSql T fields
      (if ctx.translationError (.node (.readRows none (some r)) []) = none
        then some r else none)) := by
  have hp : Sql.parses (.node (.readRows none (some r)) []) = true := by
    simp [Sql.parses, Sql.leaves]
  simp only [buildReadSql, hne, if_false, hg, selectWith, hparse, Except.map]
  cases hacc : ctx.translationError (.node (.readRows none (some r)) []) with
  | none =>
    rw [translate_of_parses hp hacc]
    simp [Sql.reprint, whereOf, physicalSql]
  | some e =>
    rw [translate_of_translationError hacc]
    simp [physicalSql]

theorem applyRowAccessRewrite_unparsed (hne : text ≠ "") (hparse : parse text = none)
    (s : Sql) : applyRowAccessRewrite ctx parse caller s T fields text = .ok s := by
  have hm : rowAccessModifies ctx caller T.project (.leaf (.unparsed text)) = false := by
    simp [rowAccessModifies, parses, leaves, Leaf.parses]
  simp [applyRowAccessRewrite, buildBqReadSql, selectWith, hne, hparse, hm]

end Query

/-! ## What a session serves -/

section Sessions

variable {E : ReadEngine Row} {parse : String → Option Restriction} {ctx : AppContext}
  {caller : CallerIdentity} {T : TableId} {rs : ReadSession} {sql sql' : Sql}

theorem accepted_of_not_isRejected (h : ¬ rs.IsRejected T) :
    quotedTableRef T = .ok T.key ∧ rs.fields = .ok rs.selection ∧
      (rs.rowRestriction ≠ "" → rejectDangerousFilter rs.rowRestriction = .ok ()) ∧
      ∃ format, resolveDataFormat rs = .ok format := by
  simp only [ReadSession.IsRejected, not_or, not_exists, not_and] at h
  obtain ⟨hi, hfi, hgu, hfo⟩ := h
  refine ⟨?_, ?_, fun hne => ?_, ?_⟩
  · cases hk : quotedTableRef T with
    | error e => exact absurd hk (hi e)
    | ok key => rw [(quotedTableRef_eq_ok hk).1]
  · cases hc : rs.fields with
    | error e => exact absurd hc (hfi e)
    | ok =>
      rw [ReadSession.fields] at hc
      rw [ReadSession.selection]
      split at hc
      · rename_i hn
        rw [if_pos hn, ← ok.inj hc]
      · rename_i hco
        obtain ⟨-, -, rfl⟩ := map_eq_ok_iff.1 hc
        rw [if_neg hco]
  · cases hg : rejectDangerousFilter rs.rowRestriction with
    | error e => exact absurd hg (hgu hne e)
    | ok u => rfl
  · cases hf : resolveDataFormat rs with
    | error e => exact absurd hf (hfo e)
    | ok format => exact ⟨format, rfl⟩

theorem serves_of_isRejected (hpath : parseTablePath rs.table = some T) (h : rs.IsRejected T) :
    rs.Serves E parse ctx caller T := by
  intro st f s rows state _ hst
  exfalso
  obtain ⟨⟨id, t, fields⟩, ht, hst⟩ := bind_eq_ok_iff.1 hst
  rw [resolveReadTarget, hpath] at ht
  obtain ⟨key, hk, ht⟩ := bind_eq_ok_iff.1 (mapError_eq_ok_iff.1 ht)
  obtain ⟨c, hc, ht⟩ := map_eq_ok_iff.1 ht
  obtain ⟨sql, hs, hst⟩ := bind_eq_ok_iff.1 hst
  obtain ⟨s', -, hst⟩ := bind_eq_ok_iff.1 hst
  obtain ⟨a, -, hst⟩ := bind_eq_ok_iff.1 hst
  obtain ⟨format, hf, -⟩ := map_eq_ok_iff.1 hst
  rcases h with ⟨e, he⟩ | ⟨e, he⟩ | ⟨hne, e, he⟩ | ⟨e, he⟩
  · cases hk.symm.trans he
  · cases hc.symm.trans he
  · rw [mapError_eq_ok_iff, buildReadSql, if_neg hne] at hs
    obtain ⟨u, hu, -⟩ := map_eq_ok_iff.1 hs
    cases hu.symm.trans he
  · cases hf.symm.trans he

theorem map_eq_map_filter_iff {g : Row → Row} {holds : Row → Bool} :
    (∀ rows : List Row, rows.map g = (rows.filter holds).map g) ↔ ∀ x, holds x = true := by
  constructor
  · intro h x
    by_contra hx
    have ho := h [x]
    rw [filter_cons_of_neg hx] at ho
    cases ho
  · intro h rows
    rw [filter_eq_self.2 fun x _ => h x]

variable {r : Restriction}

theorem map_keeps_eq_iff {g : Row → Row} (v : Row → Bool) :
    (∀ rows : List Row, (Restriction.keeps E.truth E.clauses (some r) (rows.filter v)).map g =
      ((rows.filter v).filter fun x => r.tail.isNone && E.truth r.cond x = .yes).map g) ↔
      r.LeavesNone E v := by
  cases ht : r.tail <;> simp [Restriction.keeps, Restriction.LeavesNone, ht]

theorem restrictionTrue_some (hne : rs.rowRestriction ≠ "")
    (hparse : parse rs.rowRestriction = some r) :
    restrictionTrue parse E.truth rs.rowRestriction =
      fun x => r.tail.isNone && E.truth r.cond x = .yes := by
  funext x
  simp [restrictionTrue, hne, hparse]

variable (hpath : parseTablePath rs.table = some T) (hacc : ¬ rs.IsRejected T)
include hpath hacc

section Built

variable (hbuild : buildReadSql ctx parse T.key rs.selection rs.rowRestriction = .ok sql)
include hbuild

theorem handleCreateReadSession_eq
    (hr : applyRowAccessRewrite ctx parse caller sql T rs.selection rs.rowRestriction = .ok sql')
    (st : Storage Row) (fuel : Nat) (s : String) :
    handleCreateReadSession E parse ctx caller st fuel s rs =
      ((E.fetchArrow (E.eval st fuel sql')).mapError fun e =>
        (⟨.notFound, "Table read failed: " ++ e⟩ : RpcError)).map fun arrowTable =>
          createReadSession s arrowTable (E.nbytes arrowTable)
            (if rs.maxStreamCount = 0 then 1 else rs.maxStreamCount) := by
  obtain ⟨hi, hf, -, format, hfo⟩ := accepted_of_not_isRejected hacc
  simp only [handleCreateReadSession, resolveReadTarget, hpath, hi, hf, Except.ok_bind,
    Except.map, Except.mapError, hbuild, hr, hfo]
  cases E.fetchArrow (E.eval st fuel sql') <;> rfl

theorem serves_iff_of_eval {r : Option Restriction}
    (hr : applyRowAccessRewrite ctx parse caller sql T rs.selection rs.rowRestriction = .ok sql')
    (seen : List Row → List Row)
    (hev : ∀ (st : Storage Row) fuel rows, st.get T.key = some rows → E.eval st fuel sql' =
      if E.binds rs.selection r then E.result
        ((Restriction.keeps E.truth E.clauses r (seen rows)).map (E.project rs.selection))
      else E.missing) :
    rs.Serves E parse ctx caller T ↔ E.binds rs.selection r = false ∨
      ∀ rows, (Restriction.keeps E.truth E.clauses r (seen rows)).map (E.project rs.selection) =
        ((visibleRows E.toEngine caller (ctx.catalog.listRowAccessPolicies T) rows).filter
          (restrictionTrue parse E.truth rs.rowRestriction)).map (E.project rs.selection) := by
  have hh := handleCreateReadSession_eq (E := E) hpath hacc hbuild hr
  cases hb : E.binds rs.selection r with
  | false =>
    simp only [true_or, iff_true]
    simp only [hb, Bool.false_eq_true, if_false] at hev
    intro st fuel s rows state hg hs
    obtain ⟨e, he⟩ := E.fetchArrow_missing
    rw [hh, hev st fuel rows hg, he] at hs
    cases hs
  | true =>
    simp only [Bool.true_eq_false, false_or]
    simp only [hb, if_true] at hev
    constructor
    · intro h rows
      have hg : (Storage.filled [] [T.key] rows).get T.key = some rows := by
        rw [Storage.get_filled, if_pos (mem_singleton_self _)]
      rw [← h _ 0 "" rows _ hg (by rw [hh, hev _ 0 rows hg, E.fetchArrow_result]; rfl),
        ReadSessionState.readAll_createReadSession]
    · intro h st fuel s rows state hg hs
      rw [hh, hev st fuel rows hg, E.fetchArrow_result] at hs
      obtain rfl := ok.inj hs
      rw [ReadSessionState.readAll_createReadSession, h rows]

theorem serves_of_error {e : RpcError}
    (hr : applyRowAccessRewrite ctx parse caller sql T rs.selection rs.rowRestriction = .error e) :
    rs.Serves E parse ctx caller T := by
  obtain ⟨hi, hf, -, format, hfo⟩ := accepted_of_not_isRejected hacc
  intro st f s rows state _ hs
  simp only [handleCreateReadSession, resolveReadTarget, hpath, hi, hf, Except.ok_bind,
    Except.map, Except.mapError, hbuild, hr, Except.error_bind] at hs
  cases hs

end Built

theorem serves_of_empty (hT : T.IsOrdinary) (hbase : ctx.catalog.viewBody T = none)
    (hf : ∀ f x, ctx.parsesFilter f = false → E.truth f x ≠ .yes)
    (he : rs.rowRestriction = "") : rs.Serves E parse ctx caller T := by
  have hbuild : buildReadSql ctx parse T.key rs.selection rs.rowRestriction =
      .ok (physicalSql T rs.selection none) := by
    simp [buildReadSql, he, physicalSql]
  have hb : buildBqReadSql parse T rs.selection rs.rowRestriction =
      readSql T rs.selection none := by
    simp [buildBqReadSql, selectWith, he, readSql]
  have ht : restrictionTrue parse E.truth rs.rowRestriction = fun _ => true := by
    funext x
    simp [restrictionTrue, he]
  by_cases hp : ctx.catalog.listRowAccessPolicies T = []
  · have hr := applyRowAccessRewrite_unprotected hT hbase caller hb hp
      (physicalSql T rs.selection none)
    refine (serves_iff_of_eval hpath hacc hbuild hr id fun st fuel rows hg =>
      eval_physical hg).2 (.inr fun rows => ?_)
    simp [ht, visibleRows, hp, Restriction.keeps]
  · have hr := applyRowAccessRewrite_protected hT hbase caller hb hp
      (physicalSql T rs.selection none)
    split at hr
    · refine (serves_iff_of_eval hpath hacc hbuild hr _ fun st fuel rows hg =>
        eval_filtered hf hg).2 (.inr fun rows => ?_)
      simp [ht, visibleRows, hp, Restriction.keeps]
    · exact serves_of_error hpath hacc hbuild hr

theorem serves_unparsed_iff [Nonempty Row] (hne : rs.rowRestriction ≠ "")
    (hparse : parse rs.rowRestriction = none) :
    rs.Serves E parse ctx caller T ↔ E.binds rs.selection none = false := by
  obtain ⟨-, -, hg, -⟩ := accepted_of_not_isRejected hacc
  have hf : restrictionTrue parse E.truth rs.rowRestriction = fun _ => false := by
    funext x
    simp [restrictionTrue, hne, hparse]
  rw [serves_iff_of_eval hpath hacc (buildReadSql_unparsed hne (hg hne) hparse)
    (applyRowAccessRewrite_unparsed hne hparse _) id
    (fun st f rows hge => eval_physical hge), hf]
  refine or_iff_left fun ha => ?_
  obtain ⟨x⟩ := ‹Nonempty Row›
  have ho := ha [x]
  rw [filter_false] at ho
  cases ho

variable (hT : T.IsOrdinary) (hbase : ctx.catalog.viewBody T = none)
  (hne : rs.rowRestriction ≠ "") (hparse : parse rs.rowRestriction = some r)
include hT hbase hne hparse

theorem serves_unprotected_iff [Nonempty Row] (hp : ctx.catalog.listRowAccessPolicies T = []) :
    rs.Serves E parse ctx caller T ↔
      if ctx.translationError (.node (.readRows none (some r)) []) = none then
        E.binds rs.selection (some r) = false ∨ r.LeavesNone E fun _ => true
      else E.binds rs.selection none = false ∨ (r.tail = none ∧ ∀ x, E.truth r.cond x = .yes) := by
  obtain ⟨-, -, hg, -⟩ := accepted_of_not_isRejected hacc
  rw [serves_iff_of_eval hpath hacc (buildReadSql_parsed hne (hg hne) hparse)
    (applyRowAccessRewrite_unprotected hT hbase caller (buildBqReadSql_parsed T _ hne hparse) hp _)
    id (fun st f rows hge => eval_physical hge), restrictionTrue_some hne hparse]
  simp only [visibleRows, hp, if_true, id]
  split
  · have hk := map_keeps_eq_iff (E := E) (r := r) (g := E.project rs.selection) fun _ => true
    simp only [filter_true] at hk
    rw [hk]
  have hd : (∀ x, (r.tail.isNone && decide (E.truth r.cond x = .yes)) = true) ↔
      r.tail = none ∧ ∀ x, E.truth r.cond x = .yes := by
    simp [forall_and]
  rw [← hd, ← map_eq_map_filter_iff (g := E.project rs.selection)]
  rfl

theorem serves_protected_iff
    (hf : ∀ f x, ctx.parsesFilter f = false → E.truth f x ≠ .yes)
    (hp : ctx.catalog.listRowAccessPolicies T ≠ []) :
    rs.Serves E parse ctx caller T ↔
      ctx.translationError
          (rewriteForRowAccess ctx caller T.project (readSql T rs.selection (some r))) ≠ none ∨
        E.binds rs.selection (some r) = false ∨
          r.LeavesNone E (isAllowed E.truth caller (ctx.catalog.listRowAccessPolicies T)) := by
  obtain ⟨-, -, hg, -⟩ := accepted_of_not_isRejected hacc
  obtain ⟨s, hbuild⟩ : ∃ s, buildReadSql ctx parse T.key rs.selection rs.rowRestriction =
      .ok s := ⟨_, buildReadSql_parsed hne (hg hne) hparse⟩
  have hr :=
    applyRowAccessRewrite_protected hT hbase caller
      (buildBqReadSql_parsed T rs.selection hne hparse)
      hp
  by_cases ht : ctx.translationError
      (rewriteForRowAccess ctx caller T.project (readSql T rs.selection (some r))) = none
  · simp only [ht, if_true] at hr
    rw [serves_iff_of_eval hpath hacc hbuild (hr _) _ (fun st fuel rows hge =>
      eval_filtered hf hge), restrictionTrue_some hne hparse]
    simp only [visibleRows, hp, if_false, ht, ne_eq, not_true_eq_false, false_or]
    rw [map_keeps_eq_iff]
  · simp only [ht, if_false] at hr
    simp [ht, serves_of_error hpath hacc hbuild (hr _)]

omit hpath hacc hT hbase hne hparse

end Sessions

abbrev ReadEngine.scan (truth : String → Row → Truth) : ReadEngine Row where
  Val := Option (List Row)
  node n args :=
    let rows := (args.mapM Prod.snd).map flatten
    match n with
    | .readRows _ r => rows.map (Restriction.keeps truth (fun _ rows => rows) r)
    | _ => rows
  result := some
  relation _ rows := some rows
  target _ _ rows := some rows
  bare _ := none
  values _ _ := none
  macroRef v := v
  missing := none
  truth := truth
  modify _ rows := rows
  node_subquery _ _ := by simp
  node_selectStar _ _ := by simp
  result_injective := Option.some_injective _
  project _ x := x
  clauses _ rows := rows
  binds _ _ := true
  fetchArrow v := v.elim (.error "Catalog Error") .ok
  nbytes rows := rows.length
  node_readRows _ _ _ _ := by simp
  fetchArrow_result _ := rfl
  fetchArrow_missing := ⟨_, rfl⟩

def isTrueOf (predicate : String) (x : Nat) : Truth :=
  if predicate = "TRUE" ∨ (predicate = "x = 1" ∧ x = 1) then .yes else .no

def readRequest (rowRestriction : String) : ReadSession where
  table := "projects/p/datasets/d/tables/t"
  rowRestriction := rowRestriction

end Bqemulator
