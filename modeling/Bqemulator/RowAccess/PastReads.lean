import Bqemulator.RowAccess.Noninterference

/-!
# Row access policies on past states

A `FOR SYSTEM_TIME` clause is resolved before policies are looked up. One that the live table
answers leaves its name in place, and its policies are applied; one that a snapshot answers leaves
the name of the snapshot's physical table, which has none.
-/

namespace Bqemulator

open SyntaxTree Engine List Storage

variable {Row : Type} (cat : Catalog)

def Catalog.keysOf (T : TableId) : List (String × String) :=
  T.key :: (cat.snapshots.filter fun s => s.source = T).map fun s => (s.duckdbSchema, s.duckdbTable)

theorem Catalog.key_mem_keysOf (T : TableId) : T.key ∈ cat.keysOf T :=
  mem_cons_self ..

theorem Catalog.mem_keysOf_snapshot {c : Catalog} {T : TableId} {s : SnapshotMeta}
    (hs : s ∈ c.snapshots) (hsr : s.source = T) :
    (s.duckdbSchema, s.duckdbTable) ∈ c.keysOf T :=
  mem_cons_of_mem _ (mem_map.2 ⟨s, mem_filter.2 ⟨hs, by simpa using hsr⟩, rfl⟩)

/-- Whether the database finds rows of `T`, now or in the past, under a name in any case of
letters. -/
def Catalog.holdsRowsOf (T : TableId) (key : String × String) : Bool :=
  (cat.keysOf T).any fun own => SamePhysical own key

theorem Catalog.holdsRowsOf_of_mem {cat : Catalog} {T : TableId} {key : String × String}
    (h : key ∈ cat.keysOf T) : cat.holdsRowsOf T key = true :=
  any_eq_true.2 ⟨key, h, decide_eq_true ⟨rfl, rfl⟩⟩

/-- What a caller may see when only rows of `T`, now or in the past, under whatever name, are
hidden. -/
def visibleOf (truth : String → Row → Truth) (caller : CallerIdentity) (T : TableId)
    (key : String × String) (r : Row) : Bool :=
  !cat.holdsRowsOf T key || isAllowed truth caller (cat.listRowAccessPolicies T) r

section VisibleOf

variable {cat : Catalog} {truth : String → Row → Truth} {caller : CallerIdentity} {T : TableId}
  {key : String × String}

theorem visibleOf_own (h : cat.holdsRowsOf T key = true) (r : Row) :
    visibleOf cat truth caller T key r =
      isAllowed truth caller (cat.listRowAccessPolicies T) r := by
  simp [visibleOf, h]

theorem visibleOf_other (h : cat.holdsRowsOf T key = false) (r : Row) :
    visibleOf cat truth caller T key r = true := by
  simp [visibleOf, h]

end VisibleOf

/-- Databases whose stored views are those of the catalog, under names of whatever case. -/
def Storage.ViewsNamed (st : Storage Row) : Prop :=
  ∀ key body, st.views.lookup key = some body →
    ∃ id, cat.viewBody id ≠ none ∧ SamePhysical id.key key

section ViewsNamed

variable {cat : Catalog} {st : Storage Row} {t : Table}

theorem Storage.viewsNamed_filled (keys : List (String × String)) (rows : List Row) :
    ViewsNamed cat (filled [] keys rows) := by
  intro key body h
  cases h

theorem Storage.ViewsNamed.view?_eq_none (hf : st.ViewsNamed cat)
    (hv : ∀ id : TableId, SamePhysical id.key (t.db, t.name) → cat.viewBody id = none) :
    st.view? t = none := by
  by_contra hs
  obtain ⟨body, hb⟩ := Option.ne_none_iff_exists'.1 hs
  obtain ⟨key, hk, hb⟩ := Option.bind_eq_some_iff.1 hb
  obtain ⟨id, hi, hsame⟩ := hf _ _ hb
  unfold resolve at hk
  split at hk
  · obtain rfl := Option.some.inj hk
    exact hi (hv id hsame)
  · cases hk

theorem Storage.ViewsNamed.view?_eq_none_of_isReserved (hf : st.ViewsNamed cat)
    (ht : isReserved t.db = true) : st.view? t = none :=
  hf.view?_eq_none fun _ hsame => absurd hsame (not_samePhysical_of_isReserved ht)

end ViewsNamed

/-- A table with policies, in a dataset and not a view, whose snapshots have plain names; the name
that `project` makes of a snapshot outside the snapshot schema finds neither rows of `T` nor a
view. -/
structure Guarded (ctx : AppContext) (project : String) (T : TableId) : Prop
    extends T.IsOrdinary where
  policies : ctx.catalog.listRowAccessPolicies T ≠ []
  base : ctx.catalog.viewBody T = none
  plain : ∀ s ∈ ctx.catalog.snapshots, s.source = T → '.' ∉ s.duckdbTable.toList
  apart : ∀ s ∈ ctx.catalog.snapshots, s.source = T → isReserved s.duckdbSchema = false →
    ctx.catalog.holdsRowsOf T (schemaName project s.duckdbSchema, s.duckdbTable) = false ∧
      ∀ id : TableId, SamePhysical id.key (schemaName project s.duckdbSchema, s.duckdbTable) →
        ctx.catalog.viewBody id = none

/-- **A clause answered safely**: by a snapshot outside the snapshot schema, or by the live table
with nothing but the filter around it unless that hides everything. -/
def Table.AnsweredSafely (ctx : AppContext) (truth : String → Row → Truth)
    (caller : CallerIdentity) (T : TableId) (t : Table) : Prop :=
  ∀ target, t.version = some (.time target) →
    (∀ s, resolveTimeTravel ctx.catalog ctx.now ctx.retentionDays T target = .ok (some s) →
      isReserved s.duckdbSchema = false) ∧
    (resolveTimeTravel ctx.catalog ctx.now ctx.retentionDays T target = .ok none →
      t.modifier = none ∨
        ∀ r, isAllowed truth caller (ctx.catalog.listRowAccessPolicies T) r = false)

section Clause

variable {ctx : AppContext} {caller : CallerIdentity} {project : String} {T : TableId}
  {truth : String → Row → Truth} {c : Chain} {p : Pos} {t : Table} {target : Time} {v : Sql}
  {s : SnapshotMeta}

/-- The table that holds a snapshot, in the place of the clause. -/
def Table.atSnapshot (t : Table) (s : SnapshotMeta) : Table :=
  { t with catalog := "", db := s.duckdbSchema, name := s.duckdbTable, version := none }

theorem isInformationSchema_atSnapshot (hT : Guarded ctx project T) (hm : s ∈ ctx.catalog.snapshots)
    (hs : s.source = T) : Leaf.isInformationSchema (.table (t.atSnapshot s)) = false := by
  rw [Leaf.isInformationSchema, Table.atSnapshot, Text.splitOnce_eq_none (hT.plain s hm hs)]
  rfl

variable (hT : Guarded ctx project T) (hver : t.version = some (.time target))
  (hid : t.idIn project = T)

include hT hver hid

theorem resolveVersion_clause : resolveVersion ctx project t =
    (resolveTimeTravel ctx.catalog ctx.now ctx.retentionDays T target).map fun
      | none => { t with version := none }
      | some s => t.atSnapshot s := by
  have hd : t.db ≠ "" := by
    rintro hd
    have hds : T.dataset = "" := by rw [← hid]; exact hd
    exact ne_empty_of_isBqDatasetId hT.dataset hds
  have hn : t.name ≠ "" := fun h => hT.named (by rw [← hid]; exact h)
  rw [resolveVersion, hver]
  simp only [hd, hn, hid]
  cases resolveTimeTravel ctx.catalog ctx.now ctx.retentionDays T target with
  | error e => rfl
  | ok o => cases o <;> rfl

theorem resolveVersion_past
    (ha : resolveTimeTravel ctx.catalog ctx.now ctx.retentionDays T target = .ok (some s)) :
    resolveVersion ctx project t = .ok (t.atSnapshot s) := by
  rw [resolveVersion_clause hT hver hid, ha]
  rfl

theorem leafSql_live (hpa : c.parsed = true) (hp : isWriteTarget p = false)
    (ha : resolveTimeTravel ctx.catalog ctx.now ctx.retentionDays T target = .ok none)
    (h : c.leafSql ctx caller project p (.table t) = .ok v) :
    ∃ t', t'.modifier = t.modifier ∧ t'.version = none ∧ t'.catalog = "" ∧
      (t'.db, t'.name) = T.key ∧
      v = .node (.subquery t.aliasOrName) [(.this, .leaf (.selectWhere t'
        (policyCondition ctx caller (ctx.catalog.listRowAccessPolicies T))))] := by
  have hd : t.db = T.dataset := congrArg TableId.dataset hid
  have hr : resolveVersion ctx project t = .ok { t with version := none } := by
    rw [resolveVersion_clause hT hver hid, ha]
    rfl
  have hi' : Table.idIn { t with version := none } project = T := hid
  have hs := leafSql_protected hpa hp hr
    (hd ▸ dot_notMem_of_isBqDatasetId hT.dataset)
    (hd ▸ ne_empty_of_isBqDatasetId hT.dataset) (fun hn => hT.named (hid ▸ hn))
    (hd ▸ hT.ordinary) (hi' ▸ hT.base) (hi' ▸ hT.policies) h
  rw [hi'] at hs
  refine ⟨_, ?_, ?_, ?_, ?_, hs⟩
  · rfl
  · rfl
  · rfl
  · rw [← hid]
    rfl

theorem leafSql_snapshot (hpa : c.parsed = true)
    (ha : resolveTimeTravel ctx.catalog ctx.now ctx.retentionDays T target = .ok (some s))
    (hr : isReserved s.duckdbSchema = true) :
    c.leafSql ctx caller project p (.table t) = .ok (.leaf (.table (t.atSnapshot s))) := by
  have hre := resolveVersion_past hT hver hid ha
  obtain ⟨hme, hsr, -⟩ := mem_of_resolveTimeTravel ha
  have hi := isInformationSchema_atSnapshot (t := t) hT hme hsr
  have hst : rowAccessLeaf ctx caller project p (.table (t.atSnapshot s)) = none := by
    unfold rowAccessLeaf
    split
    · rfl
    · exact (congrFun (rewriteTable_eq _) _).trans (rewriteTableWith_reserved hr)
  refine (leafSql_table_iff hpa hre ?_).2 ?_
  · simpa [hst, Leaf.isSettled] using hi
  · rw [hst, Option.getD_none, tryBindAt, rewriteLeafRefs, rewriteTableNode_reserved hr]
    rfl

protected theorem NonInterferingAt.snapshotTable (hpa : c.parsed = true)
    (hp : isWriteTarget p = false)
    (ha : resolveTimeTravel ctx.catalog ctx.now ctx.retentionDays T target = .ok (some s))
    (hr : isReserved s.duckdbSchema = false)
    (h : c.leafSql ctx caller project p (.table t) = .ok v) :
    NonInterferingAt (Storage.ViewsNamed ctx.catalog) truth
      (visibleOf ctx.catalog truth caller T) p v := by
  have hre := resolveVersion_past hT hver hid ha
  obtain ⟨hme, hsr, -⟩ := mem_of_resolveTimeTravel ha
  obtain ⟨hk, hvi⟩ := hT.apart s hme hsr hr
  -- the two-part name is read in the project of the job
  have hi' : (t.atSnapshot s).idIn project = ⟨project, s.duckdbSchema, s.duckdbTable⟩ := rfl
  have hb : ctx.catalog.viewBody ⟨project, s.duckdbSchema, s.duckdbTable⟩ = none := hvi _ ⟨rfl, rfl⟩
  by_cases hpo : ctx.catalog.listRowAccessPolicies ⟨project, s.duckdbSchema, s.duckdbTable⟩ = []
  · rw [leafSql_unprotected hpa hre s.schema_plain s.schema_ne s.table_ne hr
      (hi' ▸ hb) (hi' ▸ hpo) (isInformationSchema_atSnapshot hT hme hsr) h]
    exact .table (visibleOf_other hk) fun st hf => hf.view?_eq_none hvi
  rw [leafSql_protected hpa hp hre s.schema_plain s.schema_ne s.table_ne hr
    (hi' ▸ hb) (hi' ▸ hpo) h]
  exact .of_leaf (.selectWhere_visible (visibleOf_other hk))

protected theorem NonInterferingAt.clause
    (hfi : ∀ f r, ctx.parsesFilter f = false → truth f r ≠ .yes)
    (hpa : c.parsed = true) (hp : isWriteTarget p = false)
    (hs : (∀ r, isAllowed truth caller (ctx.catalog.listRowAccessPolicies T) r = true) ∨
      t.AnsweredSafely ctx truth caller T) (h : c.leafSql ctx caller project p (.table t) = .ok v) :
    NonInterferingAt (Storage.ViewsNamed ctx.catalog) truth
      (visibleOf ctx.catalog truth caller T) p v := by
  cases ha : resolveTimeTravel ctx.catalog ctx.now ctx.retentionDays T target with
  | error e =>
    have hre := resolveVersion_clause hT hver hid
    rw [ha] at hre
    exact absurd h (leafSql_error hpa hre)
  | ok answer =>
    cases answer with
    | none =>
      obtain ⟨t', hm, -, -, hk, rfl⟩ := leafSql_live hT hver hid hpa hp ha h
      have hv : ∀ r, visibleOf ctx.catalog truth caller T (t'.db, t'.name) r =
          isAllowed truth caller (ctx.catalog.listRowAccessPolicies T) r :=
        visibleOf_own (Catalog.holdsRowsOf_of_mem (hk ▸ ctx.catalog.key_mem_keysOf T))
      refine .of_leaf ?_
      rcases hs with hal | hs
      · exact .selectWhere_visible fun r => (hv r).trans (hal r)
      · refine .selectWhere (fun r => (holds_policyCondition hfi _ r).trans (hv r).symm) ?_
        rw [hm]
        exact ((hs target hver).2 ha).imp_right fun hn r => (hv r).trans (hn r)
    | some s =>
      cases hr : isReserved s.duckdbSchema with
      | false => exact .snapshotTable hT hver hid hpa hp ha hr h
      | true =>
        rcases hs with hal | hs
        · obtain ⟨hme, hsr, -⟩ := mem_of_resolveTimeTravel ha
          rw [leafSql_snapshot hT hver hid hpa ha hr] at h
          obtain rfl := Except.ok.inj h
          refine .table (fun r => ?_)
            fun st hf => hf.view?_eq_none_of_isReserved hr
          have hk := Catalog.holdsRowsOf_of_mem (Catalog.mem_keysOf_snapshot hme hsr)
          exact (visibleOf_own hk r).trans (hal r)
        · exact absurd ((hs target hver).1 s ha) (by simp [hr])

end Clause

/-! ## Queries over the past of a table -/

section Query

variable {ctx : AppContext} {caller : CallerIdentity} {project : String} {T : TableId}
  {truth : String → Row → Truth} {s u : Sql} {p : Pos} {t : Table} {target : Time} {r : Row}

/-- A leaf that reads `T` through a `FOR SYSTEM_TIME` clause. -/
def Leaf.ReadsPast (project : String) (T : TableId) (l : Leaf) : Prop :=
  ∃ t target, l = .table t ∧ t.version = some (.time target) ∧ t.idIn project = T

theorem leak_of_snapshot (hT : Guarded ctx project T) (hs : s.parses = true)
    (hu : finalSql ctx caller project s = .ok u)
    (hx : (p, .table t) ∈ s.leaves) (hver : t.version = some (.time target))
    (hid : t.idIn project = T) {found : SnapshotMeta}
    (ha : resolveTimeTravel ctx.catalog ctx.now ctx.retentionDays T target = .ok (some found))
    (hre : isReserved found.duckdbSchema = true)
    (hr : isAllowed truth caller (ctx.catalog.listRowAccessPolicies T) r = false) :
    ¬ NonInterferingAt (Storage.ViewsNamed ctx.catalog) truth
      (visibleOf ctx.catalog truth caller T) [] u := by
  have hv : (Chain.of ctx caller project s).leafSql ctx caller project p (.table t) = .ok _ :=
    leafSql_snapshot hT hver hid hs ha hre
  obtain ⟨hme, hsr, -⟩ := mem_of_resolveTimeTravel ha
  refine not_nonInterfering_of_leak (fun _ rows => rows) (fun _ => rfl)
    (viewsNamed_filled _ _)
    (fun key hk => (visibleOf_own (Catalog.holdsRowsOf_of_mem hk) r).trans hr)
    (mem_leaves_finalSql hu hx hv (leavesAt_leaf p _ ▸ mem_singleton_self _)) 0 ?_
  have hg : (filled [] (ctx.catalog.keysOf T) [r]).get (found.duckdbSchema, found.duckdbTable) =
      some [r] := by
    rw [get_filled, if_pos (Catalog.mem_keysOf_snapshot hme hsr)]
  rw [leafValue_table (view?_filled _ _ _ _)]
  cases hm : t.modifier <;>
    simp [Table.atSnapshot, hm, rows?, resolve, hg, found.schema_ne, modifyBy]

theorem leak_of_modifier (hT : Guarded ctx project T)
    (hf : ∀ f r, ctx.parsesFilter f = false → truth f r ≠ .yes)
    (hs : s.parses = true) (hu : finalSql ctx caller project s = .ok u)
    (hx : (p, .table t) ∈ s.leaves) (hp : isWriteTarget p = false)
    (hver : t.version = some (.time target)) (hid : t.idIn project = T)
    (ha : resolveTimeTravel ctx.catalog ctx.now ctx.retentionDays T target = .ok none)
    (hmo : t.modifier ≠ none) {r' : Row}
    (hr : isAllowed truth caller (ctx.catalog.listRowAccessPolicies T) r = false)
    (hr' : isAllowed truth caller (ctx.catalog.listRowAccessPolicies T) r' = true) :
    ¬ NonInterferingAt (Storage.ViewsNamed ctx.catalog) truth
      (visibleOf ctx.catalog truth caller T) [] u := by
  obtain ⟨v, hv⟩ := exists_ok_of_tryBindAt (finalSql_eq_ok_iff.1 hu).2 (p, .table t) hx
  obtain ⟨t', hm', hve', hc, hk, hv'⟩ := leafSql_live hT hver hid hs hp ha hv
  -- the clause turns the hidden row into a visible one
  refine not_nonInterfering_of_leak (fun _ rows => rows.map fun _ => r') (fun _ => rfl)
    (viewsNamed_filled _ _)
    (fun key hk => (visibleOf_own (Catalog.holdsRowsOf_of_mem hk) r).trans hr)
    (mem_leaves_finalSql hu hx hv (by rw [hv']; simp; rfl)) 0 ?_
  have hg : (filled [] (ctx.catalog.keysOf T) [r]).rows? t' = some [r] := by
    rw [rows?, resolve, if_pos (.inl hc), Option.bind_some, hk,
      get_filled, if_pos (ctx.catalog.key_mem_keysOf T)]
  obtain ⟨m, hm⟩ := Option.ne_none_iff_exists'.1 hmo
  rw [leafValue_selectWhere, hve', hg, hm', hm]
  simp [modifyBy, filterBy, holds_policyCondition hf, hr']

/-- **Reads of the past under row access policies** do not depend on hidden rows iff no row is
hidden or every clause is answered safely; a caller to whom no policy applies then gets what an
empty table would give. -/
theorem pastReads_nonInterfering_iff (ctx : AppContext) (caller : CallerIdentity)
    (project : String) (T : TableId) (truth : String → Row → Truth) (hT : Guarded ctx project T)
    (hfilter : ∀ f r, ctx.parsesFilter f = false → truth f r ≠ .yes) {s u : Sql}
    (hs : s.parses = true) (hselect : ∀ x ∈ s.leaves, isWritten x.1 = false)
    (hother : ∀ x ∈ s.leaves, ¬ x.2.ReadsPast project T → ∀ v,
      (Chain.of ctx caller project s).leafSql ctx caller project x.1 x.2 = .ok v →
        NonInterferingAt (Storage.ViewsNamed ctx.catalog) truth
          (visibleOf ctx.catalog truth caller T) x.1 v)
    (hu : finalSql ctx caller project s = .ok u) :
    (NonInterferingAt (Storage.ViewsNamed ctx.catalog) truth
      (visibleOf ctx.catalog truth caller T) [] u ∧
      (applicablePolicies caller (ctx.catalog.listRowAccessPolicies T) = [] →
        ∀ E : Engine Row, E.truth = truth → ∀ st : Storage Row, st.ViewsNamed ctx.catalog →
          ∀ fuel, E.eval st fuel u = E.eval (st.emptied (ctx.catalog.holdsRowsOf T)) fuel u)) ↔
      (∀ r, isAllowed truth caller (ctx.catalog.listRowAccessPolicies T) r = true) ∨
        ∀ x ∈ s.leaves, ∀ t, x.2 = .table t → t.idIn project = T →
          t.AnsweredSafely ctx truth caller T := by
  have htg : ∀ x ∈ s.leaves, isWriteTarget x.1 = false := fun x hx => by
    by_contra hw
    rw [Bool.not_eq_false] at hw
    exact absurd (isWritten_of_isWriteTarget hw) (by simp [hselect x hx])
  constructor
  · rintro ⟨hni, -⟩
    by_cases hal : ∀ r, isAllowed truth caller (ctx.catalog.listRowAccessPolicies T) r = true
    · exact .inl hal
    right
    obtain ⟨r, hr⟩ := not_forall.1 hal
    rw [Bool.not_eq_true] at hr
    intro x hx t ht hid target hver
    obtain ⟨p, l⟩ := x
    obtain rfl : l = .table t := ht
    constructor
    · intro found ha
      by_contra hre
      exact leak_of_snapshot hT hs hu hx hver hid ha (by simpa using hre) hr hni
    intro ha
    by_contra hm
    obtain ⟨hm, hvi⟩ := not_or.1 hm
    obtain ⟨r', hr'⟩ := not_forall.1 hvi
    exact leak_of_modifier hT hfilter hs hu hx (htg _ hx) hver hid ha hm hr
      (by simpa using hr') hni
  · intro hsa
    have hni : NonInterferingAt (Storage.ViewsNamed ctx.catalog) truth
        (visibleOf ctx.catalog truth caller T) [] u := by
      refine nonInterfering_of_tryBindAt (finalSql_eq_ok_iff.1 hu).2 fun x hx v hv => ?_
      by_cases hp : x.2.ReadsPast project T
      · obtain ⟨t, target, ht, hver, hid⟩ := hp
        rw [ht] at hv
        exact .clause hT hver hid hfilter hs (htg x hx)
          (hsa.imp_right fun h => h x hx t ht hid) hv
      · exact hother x hx hp v hv
    refine ⟨hni, fun hn E hE st hf fuel => hni E hE st _ hf ?_ fuel⟩
    refine agreeOn_emptied (fun key hk r => ?_) st
    rw [visibleOf_own hk, isAllowed, hn]
    rfl

end Query

def policyWorld : World Nat :=
  { sourceWorld with
    catalog := { sourceWorld.catalog with
      tables := { id := ⟨"p", "d", "u"⟩ } :: sourceWorld.catalog.tables
      policies := [{
        id := ⟨"p", "d", "t"⟩, policyId := "ones", filterPredicate := "x = 1",
        grantees := ["user:b@x.com"] }] }
    storage := sourceWorld.storage.put ("p__d", "u") [2] }

/-- `SELECT * FROM d.t FOR SYSTEM_TIME AS OF … JOIN d.u`. -/
def joinNow : Sql :=
  .node .select [(.expressions, .node .star []),
    (.from_, .node .from_
      [(.this, .leaf (.table { db := "d", name := "t", version := some (.time 1000000) }))]),
    (.other "joins", .node (.other "Join") [(.this, .leaf (.table { db := "d", name := "u" }))])]

theorem guarded_policyWorld : Guarded (.ofCatalog policyWorld.catalog policyWorld.now
    policyWorld.retentionDays) "p" ⟨"p", "d", "t"⟩ where
  policies := by decide
  base := rfl
  dataset := by decide
  ordinary := by decide
  named := by decide
  plain _ hs := by cases hs
  apart _ hs := by cases hs

theorem mem_leaves_joinNow {x : Pos × Leaf} (hx : x ∈ joinNow.leaves) :
    x = ([(.from_, .this), (.select, .from_)],
      .table { db := "d", name := "t", version := some (.time 1000000) }) ∨
    x = ([(.other "Join", .this), (.select, .other "joins")],
      .table { db := "d", name := "u" }) := by
  simpa [Sql.leaves, joinNow] using hx

/-- Before the first change is recorded, the past is read live, and hidden rows stay hidden, also in
a join. -/
theorem pastReads_before_first_change :
    ∃ u, finalSql (.ofCatalog policyWorld.catalog policyWorld.now policyWorld.retentionDays)
        { principal := "user:a@x.com" } "p" joinNow = .ok u ∧
      NonInterferingAt (Storage.ViewsNamed policyWorld.catalog) isOne
        (visibleOf policyWorld.catalog isOne { principal := "user:a@x.com" } ⟨"p", "d", "t"⟩)
        [] u := by
  obtain ⟨u, hu⟩ : ∃ u, finalSql (.ofCatalog policyWorld.catalog policyWorld.now
    policyWorld.retentionDays) { principal := "user:a@x.com" } "p" joinNow = .ok u := ⟨_, rfl⟩
  have hviews : ∀ id, policyWorld.catalog.viewBody id = none := fun id => by
    by_contra hsome
    obtain ⟨body, hbody⟩ := Option.ne_none_iff_exists'.1 hsome
    obtain ⟨m, hm, -, hb⟩ := Catalog.exists_mem_of_viewBody hbody
    simp only [policyWorld, sourceWorld, mem_cons, not_mem_nil, or_false] at hm
    rcases hm with rfl | rfl <;> cases hb
  refine ⟨u, hu, ((pastReads_nonInterfering_iff _ _ _ _ isOne guarded_policyWorld
    (fun _ _ h => by cases h) rfl (fun x hx => ?_) (fun x hx hp v hv => ?_) hu).2 (.inr ?_)).1⟩
  · rcases mem_leaves_joinNow hx with rfl | rfl <;> rfl
  · rcases mem_leaves_joinNow hx with rfl | rfl
    · exact absurd ⟨_, _, rfl, rfl, rfl⟩ hp
    · -- the other table has no policies and is read as it is
      obtain rfl : _ = v := Except.ok.inj (Eq.trans rfl hv)
      exact .table (visibleOf_other (by decide)) fun st hf => hf.view?_eq_none fun id _ => hviews id
  intro x hx t ht hid target hver
  rcases mem_leaves_joinNow hx with rfl | rfl
  · obtain rfl := Leaf.table.inj ht
    obtain rfl := AsOf.time.inj (Option.some.inj hver)
    refine ⟨fun s ha => ?_, fun _ => .inl rfl⟩
    cases ha
  · obtain rfl := Leaf.table.inj ht
    cases hver

/-- **The past is read without policies**: after a recorded change, a caller to whom no policy
applies reads the row of the table. -/
theorem pastReads_leak :
    ∃ w u, policyWorld.recordChange ⟨"p", "d", "t"⟩ "a" = .ok w ∧
      finalSql (.ofCatalog w.catalog w.now w.retentionDays) { principal := "user:a@x.com" } "p"
        readNow = .ok u ∧
      applicablePolicies { principal := "user:a@x.com" }
        (w.catalog.listRowAccessPolicies ⟨"p", "d", "t"⟩) = [] ∧
      w.storage.AgreeOn
        (visibleOf w.catalog isOne { principal := "user:a@x.com" } ⟨"p", "d", "t"⟩)
        (w.storage.emptied (w.catalog.holdsRowsOf ⟨"p", "d", "t"⟩)) ∧
      (scan isOne).eval w.storage 0 u = [1] ∧
      (scan isOne).eval (w.storage.emptied (w.catalog.holdsRowsOf ⟨"p", "d", "t"⟩)) 0 u = [] := by
  refine ⟨_, _, rfl, rfl, by decide, ?_, by decide, by decide⟩
  refine agreeOn_emptied (fun key hk r => ?_) _
  exact (visibleOf_own hk r).trans rfl

end Bqemulator
