import Bqemulator.Sql.InnerQuery

/-!
# The emulator's own schemas

The catalog and the snapshots live in two schemas of the same database. The passes let references to
them through, so that what time travel writes survives the naming of tables.
-/

namespace Bqemulator

open SyntaxTree Except Leaf List Option

def Leaf.named (p : Pos) : Leaf → Option (Pos × Table)
  | .table t => some (p, t)
  | .selectWhere t _ => some (p, t)
  | .wildcard w => some (p, w.asTable)
  | .rangeSessionize c => (modeToOp (Text.upper (c.mode.getD "MEETS"))).map fun op =>
      ((.sessionize op c.rangeCol c.parts, .this) :: p, c.table)
  | _ => none

/-- The table nodes of a statement, with their positions. -/
def Sql.tableNodes (s : Sql) : List (Pos × Table) :=
  s.leaves.filterMap fun x => x.2.named x.1

/-- A pass that neither adds nor removes nodes of reserved schemas. -/
def KeepsReserved (f : Pos → Leaf → Except DomainError Sql) : Prop :=
  ∀ p l v, f p l = .ok v → ∀ q t, isReserved t.db = true →
    ((∃ y ∈ leavesAt p v, y.2.named y.1 = some (q, t)) ↔ l.named p = some (q, t))

variable {p q : Pos} {s v : Sql} {l : Leaf} {t : Table} {x : Pos × Leaf} {c : Chain}

theorem KeepsReserved.all {fs : List (Pos → Leaf → Except DomainError Sql)}
    (hf : ∀ f ∈ fs, KeepsReserved f) (h : tryBindAll fs p s = .ok v) (q : Pos) (t : Table)
    (ht : isReserved t.db = true) :
    (∃ y ∈ leavesAt p v, y.2.named y.1 = some (q, t)) ↔
      ∃ x ∈ leavesAt p s, x.2.named x.1 = some (q, t) := by
  induction fs generalizing s with
  | nil => rw [ok.inj h]
  | cons f fs ih =>
    obtain ⟨s', hs', h⟩ := bind_eq_ok_iff.1 h
    rw [ih (fun g hg => hf g (mem_cons_of_mem _ hg)) h]
    constructor
    · rintro ⟨y, hy, hn⟩
      obtain ⟨x, hx, u, hu, hyu⟩ := (mem_leavesAt_tryBindAt hs').1 hy
      exact ⟨x, hx, (hf f (by simp) _ _ _ hu q t ht).1 ⟨y, hyu, hn⟩⟩
    · rintro ⟨x, hx, hn⟩
      obtain ⟨u, hu⟩ := exists_ok_of_tryBindAt hs' x hx
      obtain ⟨y, hyu, hy⟩ := (hf f (by simp) _ _ _ hu q t ht).2 hn
      exact ⟨y, (mem_leavesAt_tryBindAt hs').2 ⟨x, hx, u, hu, hyu⟩, hy⟩

variable (printed : Bool)

section Passes

variable {ctx : AppContext} {caller : CallerIdentity} {project : String}

theorem named_reprint (p : Pos) (l : Leaf) : l.reprint.named p = l.named p := by
  cases l with
  | wildcard w => cases hw : w.quoted <;> simp [reprint, named, hw]
  | _ => rfl

theorem keepsReserved_expandLeafCall : KeepsReserved fun _ l => expandLeafCall l := by
  intro p l v hv q t _
  cases l with
  | rangeSessionize c =>
    simp only [expandLeafCall, expandCall] at hv
    split at hv <;> [cases hv; skip]
    rename_i op ho
    rw [← ok.inj hv, named, ho]
    simp [named]
  | _ => rw [← ok.inj hv]; simp

theorem named_rewriteLeafRefs {l' : Leaf} (hl : l.parses = true)
    (h : rewriteLeafRefs project l = .ok l') (ht : isReserved t.db = true) :
    l'.named p = some (q, t) ↔ l.named p = some (q, t) := by
  have hn : ∀ {t₀ t' : Table}, rewriteTableNode project t₀ = .ok t' → (t' = t ↔ t₀ = t) := by
    intro t₀ t' h'
    constructor
    · rintro rfl
      exact (eq_of_rewriteTableNode_reserved h' ht).symm
    · rintro rfl
      rw [rewriteTableNode_reserved ht] at h'
      exact (ok.inj h').symm
  cases l with
  | table | selectWhere | wildcard =>
    obtain ⟨t', ht', rfl⟩ := map_eq_ok_iff.1 h
    simp [named, hn ht']
  | routine =>
    obtain ⟨c, d, n, rfl⟩ := exists_routine_of_rewriteRoutine h
    simp [named]
  | rangeSessionize | unparsed => cases hl
  | values => rw [← ok.inj h]

theorem keepsReserved_refs :
    KeepsReserved fun _ l => if l.parses then (rewriteLeafRefs project l.reprint).map .leaf
      else .error (.invalidQuery "Syntax error: Unexpected token") := by
  intro p l v hv q t ht
  dsimp only at hv
  split at hv <;> [skip; cases hv]
  rename_i hl
  obtain ⟨l', hl', rfl⟩ := map_eq_ok_iff.1 hv
  rw [← named_reprint, ← named_rewriteLeafRefs (by rwa [parses_reprint]) hl' ht]
  simp

/-! ## The passes that bring nodes in or take them away -/

theorem isInformationSchema_asTable (w : Wildcard) :
    isInformationSchema (.table w.asTable) = false := by
  have hn : '.' ∉ w.asTable.name.toList := by
    unfold Wildcard.asTable
    split
    · simpa using w.dot_notMem_stem
    · exact w.dot_notMem_stem
  rw [isInformationSchema, Text.splitOnce_eq_none hn]
  rfl

theorem isInformationSchema_print (l : Leaf) :
    (l.print printed).isInformationSchema = l.isInformationSchema := by
  cases printed with
  | false => rfl
  | true =>
    cases l with
    | wildcard w =>
      cases hw : w.quoted with
      | true => simp [print, reprint, hw]
      | false =>
        simp only [print, reprint, hw, if_true, Bool.false_eq_true, if_false,
          isInformationSchema_asTable]
        rfl
    | _ => rfl

theorem named_print (p : Pos) (l : Leaf) : (l.print printed).named p = l.named p := by
  cases printed with
  | false => rfl
  | true => exact named_reprint p l

theorem informationSchemaLeaf_eq (h : l.isInformationSchema = false) :
    informationSchemaLeaf l = l := by
  cases l with
  | table t => rw [informationSchemaLeaf, h, if_neg Bool.false_ne_true]
  | _ => rfl

theorem informationSchemaLeaf_cases (l : Leaf) :
    (l.isInformationSchema = false ∧ informationSchemaLeaf l = l) ∨
      ∃ view, informationSchemaLeaf l = .values view := by
  cases hi : l.isInformationSchema with
  | false => exact .inl ⟨rfl, informationSchemaLeaf_eq hi⟩
  | true =>
    cases l with
    | table t => exact .inr ⟨_, by rw [informationSchemaLeaf, hi, if_pos rfl]⟩
    | _ => cases hi

theorem values_print (view : String) : (values view).print printed = .values view := by
  cases printed <;> rfl

/-- The table nodes a leaf stands for: a wildcard reference, for the tables it is expanded to. -/
def standsFor (ctx : AppContext) (project : String) (text : Sql) (x : Pos × Leaf) :
    List (Pos × Table) :=
  (leavesAt x.1 (wildcardLeaf ctx project text x.2)).filterMap fun y => y.2.named y.1

theorem exists_named_of_mem_standsFor {text : Sql} (h : (q, t) ∈ standsFor ctx project text x) :
    ∃ q' t', x.2.named x.1 = some (q', t') ∧ t'.db = t.db := by
  obtain ⟨y, hy, hn⟩ := mem_filterMap.1 h
  obtain ⟨p, l⟩ := x
  cases l with
  | wildcard w =>
    refine ⟨p, w.asTable, rfl, ?_⟩
    rcases mem_leavesAt_expandWildcard hy with rfl | ⟨id, -, hy⟩
    · obtain ⟨-, rfl⟩ := Prod.mk.inj (some.inj hn)
      rfl
    · rw [hy] at hn
      obtain ⟨-, rfl⟩ := Prod.mk.inj (some.inj hn)
      rfl
  | _ =>
    obtain rfl := mem_singleton.1 (leavesAt_leaf p _ ▸ hy)
    exact ⟨q, t, hn, rfl⟩

theorem rewriteLeaf_eq_none_of_named {z : Pos × Leaf} (hz : z.2.named z.1 = some (q, t))
    (ht : isReserved t.db = true) (n : Nat) :
    rewriteLeaf (rewriteTable ctx caller project n) z.2 = none := by
  obtain ⟨p, l⟩ := z
  cases l with
  | table | wildcard =>
    obtain ⟨-, rfl⟩ := Prod.mk.inj (some.inj hz)
    rw [rewriteTable_eq]
    exact rewriteTableWith_reserved ht
  | _ => rfl

theorem exists_mem_rowAccessLeaf_iff {P : Pos × Leaf → Prop}
    (hP : ∀ y, P y → ∃ q t, y.2.named y.1 = some (q, t) ∧ isReserved t.db = true) :
    (∃ y ∈ leavesAt p ((rowAccessLeaf ctx caller project p l).getD (.leaf l)), P y) ↔
      ∃ z, (if isWriteTarget p = true then z = (p, l)
          else Expanded ctx project maxViewDepth (p, l) z) ∧ P z := by
  unfold rowAccessLeaf
  split
  · simp
  constructor
  · rintro ⟨y, hy, hy'⟩
    obtain ⟨z, hz, rfl | ⟨t, c, -, hr, hyt⟩⟩ := exists_expanded_of_mem hy
    · exact ⟨y, hz, hy'⟩
    -- a filtered query is one over an ordinary table
    obtain ⟨q, t', hn, ht'⟩ := hP y hy'
    rw [hyt] at hn
    obtain ⟨-, rfl⟩ := Prod.mk.inj (some.inj hn)
    exact absurd ht' (by simp [hr])
  · rintro ⟨z, hz, hz'⟩
    obtain ⟨q, t, hn, ht⟩ := hP z hz'
    exact ⟨z, mem_of_expanded hz (rewriteLeaf_eq_none_of_named hn ht), hz'⟩

end Passes

section Chain

variable {ctx : AppContext} {caller : CallerIdentity} {project : String}

/-- What a leaf brings in, once its clause is resolved and views are expanded. -/
def Chain.Brings (ctx : AppContext) (project : String) (c : Chain) (x z : Pos × Leaf) : Prop :=
  ∃ l, (if c.parsed then resolveLeafVersion ctx project x.2 else .ok x.2) = .ok l ∧
    (if c.parsed = true ∧ isWriteTarget x.1 = false then
      Expanded ctx project maxViewDepth (x.1, l.print c.printedByTime) z
    else z = (x.1, l.print c.printedByTime)) ∧
    z.2.isInformationSchema = false

/-- The table nodes that the leaf then has. -/
def Chain.Mentions (ctx : AppContext) (project : String) (c : Chain) (x : Pos × Leaf)
    (node : Pos × Table) : Prop :=
  ∃ z, c.Brings ctx project x z ∧
    node ∈ standsFor ctx project c.text
      (z.1, (z.2.print c.printedByAccess).print c.printedByOffset)

theorem named_translatePasses_iff {printed p' : Bool}
    (h : tryBindAll ((fun _ l => .ok (.leaf (l.print printed))) ::
      (fun _ l => .ok (.leaf (informationSchemaLeaf l))) ::
      (fun _ l => .ok (.leaf (l.print p'))) :: c.translatePasses ctx project) p s = .ok v)
    (ht : isReserved t.db = true) :
    (∃ y ∈ leavesAt p v, y.2.named y.1 = some (q, t)) ↔
      ∃ x ∈ leavesAt p s, x.2.isInformationSchema = false ∧
        (q, t) ∈ standsFor ctx project c.text (x.1, (x.2.print printed).print p') := by
  rw [Chain.translatePasses, tryBindAll, tryBindAt_ok, ok_bind, tryBindAll, tryBindAt_ok,
    ok_bind, tryBindAll, tryBindAt_ok, ok_bind, tryBindAll, tryBindAt_ok,
    ok_bind] at h
  rw [KeepsReserved.all ?_ h q t ht]
  · simp only [mem_leavesAt_bindAt, leavesAt_leaf, mem_singleton, standsFor, mem_filterMap]
    constructor
    · rintro ⟨y, ⟨_, ⟨_, ⟨_, ⟨x, hx, rfl⟩, rfl⟩, rfl⟩, hy⟩, hn⟩
      obtain ⟨hi, heq⟩ | hva := informationSchemaLeaf_cases (x.2.print printed)
      · rw [isInformationSchema_print] at hi
        exact ⟨x, hx, hi, y, heq ▸ hy, hn⟩
      obtain ⟨view, hv⟩ := hva
      rw [hv, values_print] at hy
      have hy' : y ∈ leavesAt x.1 (.leaf (.values view)) := hy
      rw [leavesAt_leaf, mem_singleton] at hy'
      rw [hy'] at hn
      cases hn
    · rintro ⟨x, hx, hi, y, hy, hn⟩
      refine ⟨y, ⟨_, ⟨_, ⟨_, ⟨x, hx, rfl⟩, rfl⟩, rfl⟩, ?_⟩, hn⟩
      rw [informationSchemaLeaf_eq (by rwa [isInformationSchema_print])]
      exact hy
  · intro f hf
    simp only [mem_cons, not_mem_nil, or_false] at hf
    rcases hf with rfl | rfl
    · exact keepsReserved_expandLeafCall
    · exact keepsReserved_refs

theorem named_leafSql_iff (h : c.leafSql ctx caller project x.1 x.2 = .ok v)
    (ht : isReserved t.db = true) :
    (∃ y ∈ leavesAt x.1 v, y.2.named y.1 = some (q, t)) ↔ c.Mentions ctx project x (q, t) := by
  obtain ⟨p, l⟩ := x
  simp only [Chain.leafSql, Chain.timePasses, Chain.accessPasses, cons_append, nil_append] at h
  obtain ⟨v₁, hv₁, h⟩ := bind_eq_ok_iff.1 h
  -- the clause on the leaf is resolved
  obtain ⟨l₁, hl₁, rfl⟩ : ∃ l₁, (if c.parsed then resolveLeafVersion ctx project l else .ok l) =
      .ok l₁ ∧ v₁ = .leaf l₁ := by
    split at hv₁ <;> rename_i hp
    · obtain ⟨l₁, hl₁, rfl⟩ := map_eq_ok_iff.1 hv₁
      exact ⟨l₁, by rw [if_pos hp, hl₁], rfl⟩
    · exact ⟨l, by rw [if_neg hp], (ok.inj hv₁).symm⟩
  rw [tryBindAll, tryBindAt_ok, ok_bind, tryBindAll, tryBindAt_ok, ok_bind] at h
  rw [named_translatePasses_iff h ht, bindAt_leaf, bindAt_leaf]
  simp only [Chain.Mentions, Chain.Brings, hl₁, ok.injEq, exists_eq_left', and_assoc]
  cases hp : c.parsed with
  | false => simp
  | true =>
    simp only [if_true]
    rw [exists_mem_rowAccessLeaf_iff]
    · cases isWriteTarget p <;> simp
    · rintro y ⟨-, hy⟩
      obtain ⟨q', t', hn, hd⟩ := exists_named_of_mem_standsFor hy
      rw [named_print, named_print] at hn
      exact ⟨q', t', hn, hd ▸ ht⟩

/-- The SQL names a reserved schema where the statement or an expanded body does. -/
theorem mem_tableNodes_finalSql_iff {u : Sql} (h : finalSql ctx caller project s = .ok u)
    (ht : isReserved t.db = true) :
    (q, t) ∈ Sql.tableNodes u ↔
      ∃ x ∈ s.leaves, (Chain.of ctx caller project s).Mentions ctx project x (q, t) := by
  obtain ⟨-, hu⟩ := finalSql_eq_ok_iff.1 h
  rw [Sql.tableNodes, mem_filterMap, Sql.leaves]
  constructor
  · rintro ⟨y, hy, hn⟩
    obtain ⟨x, hx, v, hv, hyv⟩ := (mem_leavesAt_tryBindAt hu).1 hy
    exact ⟨x, hx, (named_leafSql_iff hv ht).1 ⟨y, hyv, hn⟩⟩
  · rintro ⟨x, hx, hm⟩
    obtain ⟨v, hv⟩ := exists_ok_of_tryBindAt hu x hx
    obtain ⟨y, hyv, hn⟩ := (named_leafSql_iff hv ht).2 hm
    exact ⟨y, (mem_leavesAt_tryBindAt hu).2 ⟨x, hx, v, hv, hyv⟩, hn⟩

end Chain

/-! ## Staying out of the emulator's schemas -/

/-- Whether a table node names a table of the emulator, in a database of this name. -/
def Table.isInternal (database : String) (t : Table) : Bool :=
  isReserved t.db && (t.catalog = "" || t.catalog = database)

variable (ctx : AppContext)

/-- The clause of a leaf selects the snapshot stored under the name of `t`. -/
def Leaf.Selects (project : String) (l : Leaf) (t : Table) : Prop :=
  ∃ t₀ target snapshot, l.table? = some t₀ ∧ t₀.version = some (.time target) ∧
    t₀.db ≠ "" ∧ t₀.name ≠ "" ∧
    resolveTimeTravel ctx.catalog ctx.now ctx.retentionDays (t₀.idIn project) target =
      .ok (some snapshot) ∧
    t.catalog = "" ∧ t.db = snapshot.duckdbSchema ∧ t.name = snapshot.duckdbTable

/-- **The tables of the emulator that a statement may name**: where it reads, a snapshot that a
clause selects. -/
def Permitted (project : String) (s : Sql) (q : Pos) (t : Table) : Prop :=
  s.parses = true ∧ isWritten q = false ∧ ∃ x ∈ s.leaves, x.2.Selects ctx project t

theorem eq_of_mentions_snapshot {ctx : AppContext} {project : String} {t' : Table} {n : Table}
    (hpa : c.parsed = true) (ht : resolveVersion ctx project t = .ok t')
    (hr : isReserved t'.db = true) (h : c.Mentions ctx project (p, .table t) (q, n)) :
    q = p ∧ n = t' := by
  obtain ⟨z, ⟨l, hl, hz, -⟩, hm⟩ := h
  rw [if_pos hpa, resolveLeafVersion, ht] at hl
  obtain rfl := ok.inj hl
  have hp : ∀ b, (table t').print b = .table t' := by
    intro b
    cases b <;> rfl
  obtain rfl : z = (p, .table t') := by
    rw [hp] at hz
    split at hz
    · cases hz with
      | self => rfl
      | body no _ _ hr' =>
        obtain rfl := some.inj no
        exact absurd hr (by simp [hr'])
    · exact hz
  rw [hp, hp] at hm
  obtain ⟨y, hy, hn⟩ := mem_filterMap.1 hm
  obtain rfl := mem_singleton.1 (leavesAt_leaf p _ ▸ hy)
  obtain ⟨rfl, rfl⟩ := Prod.mk.inj (some.inj hn)
  exact ⟨rfl, rfl⟩

/-- **The SQL stays out of the emulator's schemas iff the text does**, itself or through the views
that it reads. -/
theorem internal_permitted_iff (caller : CallerIdentity) (project : String)
    (database : String) {s u : Sql} (h : finalSql ctx caller project s = .ok u) :
    (∀ q t, (q, t) ∈ Sql.tableNodes u → t.isInternal database = true →
        Permitted ctx project s q t) ↔
      ∀ x ∈ s.leaves, ∀ q t, (Chain.of ctx caller project s).Mentions ctx project x (q, t) →
        t.isInternal database = true → Permitted ctx project s q t := by
  have hr : ∀ t : Table, t.isInternal database = true → isReserved t.db = true :=
    fun t ht => (Bool.and_eq_true_iff.1 ht).1
  constructor
  · intro hs x hx q t hm ht
    exact hs q t ((mem_tableNodes_finalSql_iff h (hr t ht)).2 ⟨x, hx, hm⟩) ht
  · intro hte q t hme ht
    obtain ⟨x, hx, hm⟩ := (mem_tableNodes_finalSql_iff h (hr t ht)).1 hme
    exact hte x hx q t hm ht

/-- A read of a table as of now, after a recorded change, names the snapshot that the clause
selects. -/
theorem internal_permitted_recorded :
    ∃ w u, sourceWorld.recordChange ⟨"p", "d", "t"⟩ "a" = .ok w ∧
      finalSql (.ofCatalog w.catalog w.now w.retentionDays) { principal := "user:a@x.com" } "p"
        readNow = .ok u ∧
      (∃ n ∈ Sql.tableNodes u, n.2.isInternal "memory" = true) ∧
      ∀ q t, (q, t) ∈ Sql.tableNodes u → t.isInternal "memory" = true →
        Permitted (.ofCatalog w.catalog w.now w.retentionDays) "p" readNow q t := by
  refine ⟨_, Sql.selectStar (.table { db := snapshotsSchema, name := newSnapshotId 1000000 "a" }),
    rfl, rfl, by decide, ?_⟩
  refine (internal_permitted_iff _ { principal := "user:a@x.com" } _ _ rfl).2 ?_
  intro x hx q t hm _
  obtain rfl := mem_singleton.1 (Sql.leaves_selectStar _ ▸ hx)
  obtain ⟨rfl, rfl⟩ := eq_of_mentions_snapshot rfl rfl rfl hm
  exact ⟨rfl, rfl, _, hx, _, _, _, rfl, rfl, by decide, by decide, rfl, rfl, rfl, rfl⟩

def dropCatalogTables : Sql :=
  .node .drop [(.this, .leaf (.table { db := catalogSchema, name := "tables" }))]

/-- **Statements that name the catalog reach it**: the one that drops a table of the catalog is run
as it stands, and has no clause that would permit it. -/
theorem internal_not_permitted :
    ∃ q t, finalSql (.ofCatalog {} 0 1) { principal := "user:a@x.com" } "p" dropCatalogTables =
        .ok dropCatalogTables ∧
      (q, t) ∈ dropCatalogTables.tableNodes ∧ t.isInternal "memory" = true ∧
      isWritten q = true ∧ ¬ Permitted (.ofCatalog {} 0 1) "p" dropCatalogTables q t :=
  ⟨[(.drop, .this)], { db := catalogSchema, name := "tables" }, rfl, by decide, by decide,
    by decide, fun h => absurd h.2.1 (by decide)⟩

end Bqemulator
