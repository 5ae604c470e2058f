import Bqemulator.Api.Tabledata
import Bqemulator.RowAccess.Noninterference
import Bqemulator.Udf.TableValued

/-!
# Reads that the row access pass does not see

Policies are put into the text of a statement. A table-valued function reads its tables through a
macro stored without them; a call of `RANGE_SESSIONIZE` is text that the pass cannot parse; and
`tabledata.list` reads the table itself.
-/

namespace Bqemulator

open SyntaxTree Engine Except List Storage

variable {Row : Type}

/-- The requests that read a table past the row access pass: a query with a table-valued function or
`RANGE_SESSIONIZE`, and a listing. -/
inductive Request where
  | callTvf (s : Sql) (routine : RoutineMeta)
  | rangeSessionize (s : Sql)
  | listTabledata (params : ListParams)

namespace Request

section Definitions

variable (ctx : AppContext) (caller : CallerIdentity) (project : String) (T : TableId)

/-- What a request returns. -/
def answer (E : Engine Row) (env : ListEnv Row) (st : Storage Row) (fuel : Nat) :
    Request → Except DomainError (E.Val ⊕ TableDataList Row)
  | .callTvf s _ | .rangeSessionize s =>
    (finalSql ctx caller project s).map fun u => .inl (E.eval st fuel u)
  | .listTabledata params => (Bqemulator.listTabledata env ctx.catalog st T params).map .inr

/-- The requests that are answered and read `T`, in the body of the function, as the argument of
`RANGE_SESSIONIZE` or as the table listed. -/
def Reads : Request → Prop
  | .callTvf s routine => ∃ u name body, finalSql ctx caller project s = .ok u ∧
      qualifiedRoutineName routine = .ok name ∧
      translateTvfBody ctx routine.definitionBody routine.projectId = .ok body ∧
      (∃ p catalog db n, (p, .routine catalog db n) ∈ s.leaves ∧
        rewriteRoutine project catalog db n = .ok (.routine "" "" name)) ∧
      ∃ q t, (q, .table t) ∈ routine.definitionBody.leaves ∧ isWritten q = false ∧
        t.version = none ∧ t.idIn routine.projectId = T
  | .rangeSessionize s => ∃ u, finalSql ctx caller project s = .ok u ∧
      ∃ p call, (p, .rangeSessionize call) ∈ s.leaves ∧ call.table.version = none ∧
        call.table.idIn project = T
  | .listTabledata _ => (∃ m, ctx.catalog.getTable T = some m) ∧ ∃ key, quotedTableRef T = .ok key

def databases : Request → Storage Row → Prop
  | .callTvf _ routine, st => ∀ name body, qualifiedRoutineName routine = .ok name →
      translateTvfBody ctx routine.definitionBody routine.projectId = .ok body → st.Holds name body
  | .rangeSessionize _, _ => True
  | .listTabledata _, _ => True

/-- **A request not affected by hidden rows**: on databases that differ only in rows of `T` denied
to the caller, its answers are the same. -/
def Unaffected (truth : String → Row → Truth) (req : Request) : Prop :=
  ∀ E : Engine Row, E.truth = truth → ∀ (env : ListEnv Row) (st st' : Storage Row),
    req.databases ctx st →
    st.AgreeOn
      (onlyHides [T.key] (isAllowed truth caller (ctx.catalog.listRowAccessPolicies T))) st' →
    ∀ fuel, req.answer ctx caller project T E env st fuel =
      req.answer ctx caller project T E env st' fuel

end Definitions

end Request

variable {p q : Pos} {t : Table} {body s u : Sql} {env : ListEnv Row} {st : Storage Row}
  {params : ListParams} {rows : List Row} {key : String × String}

section Leaks

variable {ctx : AppContext} {caller : CallerIdentity} {project : String} {T : TableId}
  {truth : String → Row → Truth} {db : Storage Row → Prop} {allowed : Row → Bool} {r : Row}

theorem leafValue_scan_own {m : List (String × Sql)} {fuel : Nat} (hp : isWritten p = false)
    (hv : t.version = none) (hn : t.name = T.table) :
    (scan truth).leafValue (.filled m [T.key] [r]) fuel p
      (.table { t with catalog := "", db := T.key.1 }) = [r] := by
  have hk : (T.key.1, t.name) = T.key := by
    rw [hn]
    rfl
  have hg : (filled m [T.key] [r]).rows? { t with catalog := "", db := T.key.1 } =
      some [r] := by
    rw [rows?, resolve, if_pos (.inl rfl), Option.bind_some, get_filled]
    exact if_pos (mem_singleton.2 hk)
  rw [leafValue_table (view?_filled _ _ _ _), hg, hv, hp]
  have hd : T.key.1 ≠ "" := schemaName_ne_empty _ _
  cases hm : t.modifier <;> simp [hd, modifyBy]

theorem mem_leaves_translateTvfBody {b' : Sql} {owner : String}
    (h : translateTvfBody ctx body owner = .ok b') {t' : Table}
    (hq : (q, .table t) ∈ body.leaves) (ht : rewriteTableNode owner t = .ok t') :
    (q, .table t') ∈ leavesAt [] b' := by
  unfold translateTvfBody translate at h
  cases ha : ctx.translationError body with
  | some e =>
    rw [ha] at h
    cases h
  | none =>
    rw [ha] at h
    cases he : rewriteRangeSessionize body with
    | error e =>
      rw [he] at h
      cases h
    | ok s' =>
      simp only [he] at h
      by_cases hs' : Sql.parses s' = true
      · simp only [hs', if_true] at h
        rw [rewriteTableRefs_reprint_eq_ok_iff hs'] at h
        have hm : (q, .table t) ∈ leavesAt [] s' :=
          (mem_leavesAt_tryBindAt he).2 ⟨_, hq, _, rfl, by simp⟩
        refine (mem_leavesAt_tryBindAt h).2 ⟨_, hm, .leaf (.table t'), ?_, by simp⟩
        simp [Leaf.reprint, rewriteLeafRefs, ht, Except.map]
      · simp [hs'] at h

theorem leak_of_tvf (hT : T.IsOrdinary) {routine : RoutineMeta} {name : String}
    (hu : finalSql ctx caller project s = .ok u)
    (hb : translateTvfBody ctx routine.definitionBody routine.projectId = .ok body)
    {catalog schema n : String} (hp : (p, .routine catalog schema n) ∈ s.leaves)
    (hc : rewriteRoutine project catalog schema n = .ok (.routine "" "" name))
    (hq : (q, .table t) ∈ routine.definitionBody.leaves) (hre : isWritten q = false)
    (hv : t.version = none) (hi : t.idIn routine.projectId = T)
    (hd : db (.filled [(name, body)] [T.key] [])) (hr : allowed r = false) :
    ¬ NonInterferingAt db truth (onlyHides [T.key] allowed) [] u := by
  have hs : (Chain.of ctx caller project s).leafSql ctx caller project p
      (.routine catalog schema n) = .ok (.leaf (.routine "" "" name)) := by
    rw [leafSql_routine, hc]
    rfl
  refine not_nonInterfering_of_leak (fun _ rows => rows) (fun _ => rfl) hd
    (fun key hk => (onlyHides_mem hk r).trans hr)
    (mem_leaves_finalSql hu hp hs (leavesAt_leaf p _ ▸ mem_singleton_self _)) 1 ?_
  have hm := mem_leaves_translateTvfBody hb hq (rewriteTableNode_ordinary hT hi)
  have hva : (scan truth).leafValue (.filled [(name, body)] [T.key] [r]) 1 p
      (.routine "" "" name) = foldAt (scan truth).node
        ((scan truth).leafValue (.filled [(name, body)] [T.key] [r]) 0) [] body := by
    simp [leafValue, readLeaf, filled]
  rw [hva, foldAt_scanWith]
  intro hn
  have hl := flatMap_eq_nil_iff.1 hn _ hm
  rw [leafValue_scan_own hre hv (by rw [← hi]; rfl)] at hl
  cases hl

theorem leak_of_rangeSessionize (hT : T.IsOrdinary) (hu : finalSql ctx caller project s = .ok u)
    {call : SessionizeCall} (hp : (p, .rangeSessionize call) ∈ s.leaves)
    (hve : call.table.version = none) (hi : call.table.idIn project = T)
    (hd : db (.filled [] [T.key] [])) (hr : allowed r = false) :
    ¬ NonInterferingAt db truth (onlyHides [T.key] allowed) [] u := by
  have hpa : s.parses = false := by
    by_contra hs
    rw [Bool.not_eq_false] at hs
    exact absurd (Sql.parses_iff.1 hs _ hp) (by simp [Leaf.parses])
  obtain ⟨v, hv⟩ := exists_ok_of_tryBindAt (finalSql_eq_ok_iff.1 hu).2 _ hp
  obtain ⟨op, t, -, ht, rfl⟩ := (leafSql_rangeSessionize_iff hpa).1 hv
  rw [rewriteTableNode_ordinary hT hi] at ht
  obtain rfl := ok.inj ht
  refine not_nonInterfering_of_leak (fun _ rows => rows) (fun _ => rfl) hd
    (fun key hk => (onlyHides_mem hk r).trans hr)
    (mem_leaves_finalSql hu hp hv (by simp; rfl)) 0 ?_
  rw [leafValue_scan_own rfl hve (by rw [← hi]; rfl)]
  simp

theorem totalRows_listTabledata {c : Catalog} {answer : TableDataList Row}
    (hg : st.get T.key = some rows) (h : listTabledata env c st T params = .ok answer) :
    answer.totalRows = toString rows.length := by
  unfold listTabledata at h
  split at h <;> [cases h; skip]
  obtain ⟨key, hk, h⟩ := bind_eq_ok_iff.1 h
  obtain rfl := (quotedTableRef_eq_ok hk).1
  rw [hg] at h
  obtain ⟨p, -, rfl⟩ := map_eq_ok_iff.1 h
  rfl

theorem leak_of_listTabledata {m : TableMeta} (hm : ctx.catalog.getTable T = some m)
    (hke : quotedTableRef T = .ok key)
    (hr : isAllowed truth caller (ctx.catalog.listRowAccessPolicies T) r = false) :
    ¬ (Request.listTabledata params).Unaffected ctx caller project T truth := by
  intro h
  let env : ListEnv Row := ⟨fun _ => none, fun _ => .ok id⟩
  obtain rfl := (quotedTableRef_eq_ok hke).1
  have hg : ∀ rows : List Row, (filled [] [T.key] rows).get T.key = some rows := by
    intro rows
    rw [get_filled, if_pos (mem_singleton_self _)]
  have hl : ∀ rows : List Row, ∃ answer,
      listTabledata env ctx.catalog (.filled [] [T.key] rows) T params = .ok answer := by
    intro rows
    rw [listTabledata, hm, hke]
    simp only [ok_bind, hg, env]
    exact ⟨_, rfl⟩
  obtain ⟨a, ha⟩ := hl []
  obtain ⟨a', ha'⟩ := hl [r]
  have heq := h (scan truth) rfl env _ _ trivial
    (agreeOn_filled [] [T.key] fun k hk => (onlyHides_mem hk r).trans hr) 0
  rw [Request.answer, Request.answer, ha, ha'] at heq
  obtain rfl : a = a' := Sum.inr.inj (ok.inj heq)
  have hc : toString 0 = toString 1 :=
    (totalRows_listTabledata (hg []) ha).symm.trans (totalRows_listTabledata (hg [r]) ha')
  exact absurd hc (by decide)

theorem unaffected_iff_nonInterfering {r : Request}
    (hr : ∀ (E : Engine Row) env st fuel, r.answer ctx caller project T E env st fuel =
      (finalSql ctx caller project s).map fun u => .inl (E.eval st fuel u))
    (hu : finalSql ctx caller project s = .ok u) :
    r.Unaffected ctx caller project T truth ↔ NonInterferingAt (r.databases ctx) truth
      (onlyHides [T.key] (isAllowed truth caller (ctx.catalog.listRowAccessPolicies T))) [] u := by
  constructor
  · intro h E hE st st' hd ha fuel
    have heq := h E hE ⟨fun _ => none, fun _ => .ok id⟩ st st' hd ha fuel
    rw [hr, hr, hu] at heq
    exact Sum.inl.inj (Except.ok.inj heq)
  · intro h E hE env st st' hd ha fuel
    have he : E.eval st fuel u = E.eval st' fuel u := h E hE st st' hd ha fuel
    rw [hr, hr, hu, Except.map, Except.map, he]

end Leaks

/-- **The reads that the row access pass does not see** are not affected by the rows that the
policies of `T` deny the caller iff they deny none. -/
theorem otherReads_unaffected_iff (ctx : AppContext) (caller : CallerIdentity) (project : String)
    (T : TableId) (hT : T.IsOrdinary) (truth : String → Row → Truth) (req : Request)
    (hreads : req.Reads ctx caller project T) :
    req.Unaffected ctx caller project T truth ↔
      ∀ r, isAllowed truth caller (ctx.catalog.listRowAccessPolicies T) r = true := by
  constructor
  · intro h r
    by_contra hr
    rw [Bool.not_eq_true] at hr
    cases req with
    | callTvf =>
      obtain ⟨u, name, body, hu, hn, hb, ⟨p, catalog, schema, n, hp, hc⟩,
        q, t, hq, hre, hv, hi⟩ := hreads
      refine leak_of_tvf hT hu hb hp hc hq hre hv hi ?_ hr
        ((unaffected_iff_nonInterfering (fun _ _ _ _ => rfl) hu).1 h)
      intro n' b' hn' hb'
      obtain rfl := ok.inj (hn.symm.trans hn')
      obtain rfl := ok.inj (hb.symm.trans hb')
      exact lookup_cons_self ..
    | rangeSessionize s =>
      obtain ⟨u, hu, p, call, hp, hv, hi⟩ := hreads
      exact leak_of_rangeSessionize hT hu hp hv hi trivial hr
        ((unaffected_iff_nonInterfering (fun _ _ _ _ => rfl) hu).1 h)
    | listTabledata =>
      obtain ⟨⟨m, hm⟩, key, hk⟩ := hreads
      exact leak_of_listTabledata hm hk hr h
  · intro ha
    have hvi : ∀ key r, onlyHides [T.key]
        (isAllowed truth caller (ctx.catalog.listRowAccessPolicies T)) key r = true := by
      intro key r
      simp [onlyHides, ha r]
    cases req with
    | callTvf =>
      obtain ⟨u, -, -, hu, -⟩ := hreads
      exact (unaffected_iff_nonInterfering (fun _ _ _ _ => rfl) hu).2
        (.of_visible hvi [] u)
    | rangeSessionize s =>
      obtain ⟨u, hu, -⟩ := hreads
      exact (unaffected_iff_nonInterfering (fun _ _ _ _ => rfl) hu).2
        (.of_visible hvi [] u)
    | listTabledata =>
      intro E _ e st st' _ hag f
      have hg : st.get = st'.get := funext fun key => hag.get_eq (hvi key)
      simp only [Request.answer, listTabledata, hg]

def readingFunction : RoutineMeta where
  projectId := "p"
  datasetId := "d"
  routineId := "f"
  routineType := .tableValuedFunction
  definitionBody := readTable

def callFunction : Sql := Sql.selectStar (.routine "" "d" "f")

def callSessionize : Sql :=
  Sql.selectStar (.rangeSessionize
    { table := { db := "d", name := "t" }, rangeCol := "x", parts := [], mode := none })

/-- Where a policy grants everyone every row, the function hides nothing. -/
theorem otherReads_granted :
    (Request.callTvf callFunction readingFunction).Unaffected (openContext "allUsers")
      { principal := "user:a@x.com" } "p" ⟨"p", "d", "t"⟩ (fun _ (_ : Nat) => .yes) := by
  refine (otherReads_unaffected_iff _ _ _ _ isOrdinary_table _ _ ?_).2 fun r => rfl
  refine ⟨_, "p__d__f", _, rfl, rfl, rfl, ⟨[(.from_, .this), (.select, .from_)], "", "d", "f", ?_,
    rfl⟩, [(.from_, .this), (.select, .from_)], { db := "d", name := "t" }, ?_, rfl, rfl, rfl⟩
  · exact Sql.mem_leavesAt_selectStar.2 rfl
  · exact Sql.mem_leavesAt_selectStar.2 rfl

/-- **Three ways around the policies**: to a caller whom no policy grants a row, each request shows
whether the table has one. -/
theorem otherReads_leak :
    ∃ body, translateTvfBody (openContext "user:b@x.com") readTable "p" = .ok body ∧
      ∀ req ∈ [.callTvf callFunction readingFunction, .rangeSessionize callSessionize,
          .listTabledata {}],
        (filled [("p__d__f", body)] [("p__d", "t")] []).AgreeOn
            (onlyHides [("p__d", "t")] (isAllowed isOne { principal := "user:a@x.com" }
              ((openContext "user:b@x.com").catalog.listRowAccessPolicies ⟨"p", "d", "t"⟩)))
            (filled [("p__d__f", body)] [("p__d", "t")] [1]) ∧
        Request.answer (openContext "user:b@x.com") { principal := "user:a@x.com" } "p"
            ⟨"p", "d", "t"⟩ (scan isOne) ⟨fun _ => none, fun _ => .ok id⟩
            (.filled [("p__d__f", body)] [("p__d", "t")] []) 1 req ≠
          Request.answer (openContext "user:b@x.com") { principal := "user:a@x.com" } "p"
            ⟨"p", "d", "t"⟩ (scan isOne) ⟨fun _ => none, fun _ => .ok id⟩
            (.filled [("p__d__f", body)] [("p__d", "t")] [1]) 1 req := by
  refine ⟨_, rfl, fun req hr => ⟨agreeOn_filled _ _ fun key hk => ?_, ?_⟩⟩
  · exact (onlyHides_mem hk 1).trans (by decide)
  simp only [mem_cons, not_mem_nil, or_false] at hr
  rcases hr with rfl | rfl | rfl
  · intro h
    exact absurd (Sum.inl.inj (ok.inj h)) (by decide)
  · intro h
    exact absurd (Sum.inl.inj (ok.inj h)) (by decide)
  · intro h
    exact absurd (Sum.inr.inj (ok.inj h)) (by decide)

end Bqemulator
