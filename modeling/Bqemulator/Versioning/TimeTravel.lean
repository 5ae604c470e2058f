import Bqemulator.Sql.Translator
import Bqemulator.Versioning.SnapshotTable

/-!
# `FOR SYSTEM_TIME AS OF`

The first pass resolves every `FOR SYSTEM_TIME AS OF` clause: the table node is redirected to the
snapshot that answers the target time, or to the live table when there is none. The name it writes
has to survive the last pass, which names physical schemas.
-/

namespace Bqemulator

open SyntaxTree Except

section Pass

variable (ctx : AppContext) (project : String)

/-- The pass on one table node: a clause on a bare name stays, one on a table is replaced by what
answers it. -/
def resolveVersion (t : Table) : Except DomainError Table :=
  match t.version with
  | none => .ok t
  | some (.invalid message) => .error (.invalidQuery message)
  | some (.time target) =>
    if t.db = "" ∨ t.name = "" then .ok t
    else
      match resolveTimeTravel ctx.catalog ctx.now ctx.retentionDays (t.idIn project) target with
      | .error e => .error e
      | .ok none => .ok { t with version := none }
      | .ok (some s) => .ok { t with
          catalog := "", db := s.duckdbSchema, name := s.duckdbTable, version := none }

def resolveLeafVersion : Leaf → Except DomainError Leaf
  | .table t => (resolveVersion ctx project t).map .table
  | .selectWhere t c => (resolveVersion ctx project t).map fun t => .selectWhere t c
  | l => .ok l

def Leaf.isPast : Leaf → Bool
  | .table t | .selectWhere t _ => t.version.isSome && t.db ≠ "" && t.name ≠ ""
  | _ => false

/-- The pass on a statement. Text that does not parse is left for later layers. -/
def rewriteForSystemTime (s : Sql) : Except DomainError Sql :=
  if s.parses then
    match tryBindAt (fun _ l => (resolveLeafVersion ctx project l).map .leaf) [] s with
    | .error e => .error e
    | .ok s' => .ok (if s.leaves.any fun x => x.2.isPast then Sql.reprint s' else s')
  else .ok s

/-- The SQL that the pass, translation and the naming of tables produce. -/
def timeTravelSql (s : Sql) : Except DomainError Sql :=
  match rewriteForSystemTime ctx project s with
  | .error e => .error e
  | .ok s₁ =>
    match translate ctx s₁ with
    | .error e => .error e
    | .ok s₂ => rewriteTableRefs project s₂

/-! ## What the SQL should be -/

/-- The physical table a node should read: with a clause, the snapshot that answers it or the live
table; without one, what the naming pass makes of it. -/
def asOfTable (t : Table) : Except DomainError Table :=
  match t.version with
  | none => rewriteTableNode project t
  | some (.invalid message) => .error (.invalidQuery message)
  | some (.time target) =>
    if t.db = "" ∨ t.name = "" then rewriteTableNode project t
    else
      match resolveTimeTravel ctx.catalog ctx.now ctx.retentionDays (t.idIn project) target with
      | .error e => .error e
      | .ok none => .ok { t with
          catalog := "", db := schemaName (t.projectOr project) t.db, version := none }
      | .ok (some s) => .ok { t with
          catalog := "", db := s.duckdbSchema, name := s.duckdbTable, version := none }

def asOfLeaf : Leaf → Except DomainError Leaf
  | .table t => (asOfTable ctx project t).map .table
  | .selectWhere t c => (asOfTable ctx project t).map fun t => .selectWhere t c
  | l => rewriteLeafRefs project l

/-- What the SQL should be: every clause reads the table that answers it, every other reference
is what it would be without the clauses. -/
def asOfSql (s : Sql) : Except DomainError Sql :=
  tryBindAt (fun _ l => (asOfLeaf ctx project l).map .leaf) [] s

end Pass

/-! ## The SQL, one leaf at a time -/

section Leaves

variable {ctx : AppContext} {project : String}

theorem parses_of_resolveLeafVersion {l l' : Leaf} (hl : l.parses = true)
    (h : resolveLeafVersion ctx project l = .ok l') : l'.parses = true := by
  cases l with
  | table | selectWhere =>
    obtain ⟨t', -, rfl⟩ := map_eq_ok_iff.1 h
    rfl
  | _ => exact ok.inj h ▸ hl

def timeTravelLeaf (ctx : AppContext) (project : String) (l : Leaf) : Except DomainError Leaf :=
  (resolveLeafVersion ctx project l).bind fun l' => rewriteLeafRefs project l'.reprint

/-- The SQL, one leaf at a time. -/
theorem timeTravelSql_eq_ok_iff {s u : Sql} (hs : s.parses = true)
    (ha : ∀ s₁, rewriteForSystemTime ctx project s = .ok s₁ → ctx.translationError s₁ = none) :
    timeTravelSql ctx project s = .ok u ↔
      tryBindAt (fun _ l => (timeTravelLeaf ctx project l).map .leaf) [] s = .ok u := by
  have hc := tryBindAt_bind_eq_ok_iff (p := []) (t := s) (u := u)
    (f := fun _ l => (resolveLeafVersion ctx project l).map .leaf)
    (g := fun _ l => (rewriteLeafRefs project l.reprint).map .leaf)
  simp only [map_bind, tryBindAt, ← bind_map] at hc
  refine Iff.trans ?_ hc
  rw [timeTravelSql]
  unfold rewriteForSystemTime at ha ⊢
  simp only [hs, if_true] at ha ⊢
  cases hp : tryBindAt (fun _ l => (resolveLeafVersion ctx project l).map .leaf) [] s with
  | error e => constructor <;> (intro h; cases h)
  | ok s' =>
    have hs' : Sql.parses s' = true := by
      refine Sql.parses_of_tryBindAt hs (fun p l v hl hv => ?_) hp
      obtain ⟨l', hl', rfl⟩ := map_eq_ok_iff.1 hv
      simpa using parses_of_resolveLeafVersion hl hl'
    -- printed after the pass or not, the statement is printed by translation
    rw [hp] at ha
    have ha' := ha _ rfl
    have ht : translate ctx (if (s.leaves.any fun x => x.2.isPast) then Sql.reprint s' else s') =
        .ok (Sql.reprint s') := by
      split at ha' <;> rename_i hpa
      · rw [if_pos hpa, translate_of_parses (by simpa using hs') ha', Sql.reprint_reprint]
      · rw [if_neg hpa, translate_of_parses hs' ha']
    simp only [ht]
    exact rewriteTableRefs_reprint_eq_ok_iff hs'

/-! ## Whether the SQL is what it should be -/

/-- The condition on a table node: a snapshot that answers its clause lies in a reserved schema, a
table without snapshots in an ordinary dataset. -/
def Table.AnswerSurvives (ctx : AppContext) (project : String) (t : Table) : Prop :=
  ∀ target, t.version = some (.time target) → t.db ≠ "" → t.name ≠ "" →
    (∀ s, resolveTimeTravel ctx.catalog ctx.now ctx.retentionDays (t.idIn project) target =
        .ok (some s) → isReserved s.duckdbSchema = true) ∧
    (resolveTimeTravel ctx.catalog ctx.now ctx.retentionDays (t.idIn project) target = .ok none →
        isReserved t.db = false)

theorem schemaName_ne_self (p d : String) : schemaName p d ≠ d := by
  intro h
  have hl := congrArg (fun s => s.toList.length) h
  simp [schemaName] at hl
  omega

variable {t : Table}

theorem rewriteTableNode_snapshot_iff {s : SnapshotMeta} (hd : t.db = s.duckdbSchema)
    (hn : t.name = s.duckdbTable) :
    rewriteTableNode project t = .ok t ↔ isReserved s.duckdbSchema = true := by
  rw [← hd]
  constructor
  · intro h
    by_contra hr
    rw [Bool.not_eq_true] at hr
    rw [rewriteTableNode_qualified (hd ▸ s.schema_plain) (hd ▸ s.schema_ne) (hn ▸ s.table_ne)
      hr] at h
    split at h
    · exact schemaName_ne_self _ _ (congrArg Table.db (ok.inj h))
    · cases h
  · exact rewriteTableNode_reserved

theorem rewriteTableNode_live_iff (hi : isBqDatasetId t.db = true) (hn : t.name ≠ "") :
    rewriteTableNode project t =
        .ok { t with catalog := "", db := schemaName (t.projectOr project) t.db } ↔
      isReserved t.db = false := by
  constructor
  · intro h
    by_contra hr
    rw [Bool.not_eq_false] at hr
    rw [rewriteTableNode_reserved hr] at h
    exact schemaName_ne_self _ _ (congrArg Table.db (ok.inj h)).symm
  · intro hr
    rw [rewriteTableNode_qualified (dot_notMem_of_isBqDatasetId hi) (ne_empty_of_isBqDatasetId hi)
      hn hr, if_pos hi]

theorem resolveVersion_bind_eq_asOfTable_iff
    (hi : ∀ target, t.version = some (.time target) → t.db ≠ "" → isBqDatasetId t.db = true) :
    (resolveVersion ctx project t).bind (rewriteTableNode project) = asOfTable ctx project t ↔
      t.AnswerSurvives ctx project := by
  unfold resolveVersion asOfTable Table.AnswerSurvives
  match hv : t.version with
  | none => simp
  | some (.invalid message) => simp
  | some (.time target) =>
    by_cases hq : t.db = "" ∨ t.name = ""
    · simp only [hq, if_true, Except.bind, true_iff]
      intro t' _ hd hn
      exact absurd hq (by simp [hd, hn])
    obtain ⟨hd, hn⟩ := not_or.1 hq
    simp only [Option.some.injEq, AsOf.time.injEq, forall_eq', hd, hn, ne_eq]
    cases hr : resolveTimeTravel ctx.catalog ctx.now ctx.retentionDays (t.idIn project)
        target with
    | error e => simp
    | ok r =>
      cases r with
      | none =>
        simpa [Except.bind, Table.projectOr] using
          @rewriteTableNode_live_iff project { t with version := none } (hi target hv hd) hn
      | some s =>
        simpa using
          @rewriteTableNode_snapshot_iff project { t with
            catalog := "", db := s.duckdbSchema, name := s.duckdbTable, version := none } s rfl rfl

theorem timeTravelLeaf_eq_asOfLeaf_iff {l : Leaf}
    (hi : ∀ t, l.table? = some t → ∀ target, t.version = some (.time target) → t.db ≠ "" →
      isBqDatasetId t.db = true) :
    timeTravelLeaf ctx project l = asOfLeaf ctx project l ↔
      ∀ t, l.table? = some t → t.AnswerSurvives ctx project := by
  cases l with
  | table t =>
    have hl : timeTravelLeaf ctx project (.table t) =
        ((resolveVersion ctx project t).bind (rewriteTableNode project)).map .table := by
      rw [timeTravelLeaf, resolveLeafVersion, map_bind, bind_map]
      rfl
    rw [hl, asOfLeaf, map_inj_iff fun a b h => by simpa using h,
      resolveVersion_bind_eq_asOfTable_iff (hi t rfl)]
    simp [Leaf.table?]
  | selectWhere t c =>
    have hl : timeTravelLeaf ctx project (.selectWhere t c) =
        ((resolveVersion ctx project t).bind (rewriteTableNode project)).map
          fun t => .selectWhere t c := by
      rw [timeTravelLeaf, resolveLeafVersion, map_bind, bind_map]
      rfl
    rw [hl, asOfLeaf, map_inj_iff fun a b h => by simpa using h,
      resolveVersion_bind_eq_asOfTable_iff (hi t rfl)]
    simp [Leaf.table?]
  | wildcard w =>
    cases hw : w.quoted <;>
      simp [timeTravelLeaf, resolveLeafVersion, asOfLeaf, Leaf.table?, Leaf.reprint, hw,
        rewriteLeafRefs]
  | _ => simp [timeTravelLeaf, resolveLeafVersion, asOfLeaf, Leaf.table?, Leaf.reprint]

end Leaves

/-- **Time travel survives the naming of tables** iff every snapshot that answers a clause lies in a
reserved schema, and a clause answered live names an ordinary dataset. -/
theorem timeTravelSql_eq_asOfSql_iff (ctx : AppContext) (project : String) (s u : Sql)
    (hs : s.parses = true)
    (hacc : ∀ s₁, rewriteForSystemTime ctx project s = .ok s₁ → ctx.translationError s₁ = none)
    (hid : ∀ x ∈ s.leaves, ∀ t, x.2.table? = some t → ∀ target,
      t.version = some (.time target) → t.db ≠ "" → isBqDatasetId t.db = true)
    (hu : asOfSql ctx project s = .ok u) :
    timeTravelSql ctx project s = .ok u ↔
      ∀ x ∈ s.leaves, ∀ t, x.2.table? = some t → t.AnswerSurvives ctx project := by
  rw [timeTravelSql_eq_ok_iff hs hacc, tryBindAt_eq_ok_iff_of_ok hu]
  refine forall₂_congr fun x hx => ?_
  rw [map_inj_iff fun a b h => by simpa using h, timeTravelLeaf_eq_asOfLeaf_iff (hid x hx)]

def sourceWorld : World Nat where
  now := 1000000
  retentionDays := 1
  catalog := { datasets := [("p", "d")], tables := [{ id := ⟨"p", "d", "t"⟩ }] }
  storage := { tables := [(("p__d", "t"), [1])] }

def readNow : Sql :=
  Sql.selectStar (.table { db := "d", name := "t", version := some (.time 1000000) })

/-- After a recorded change, a read of the table as of now is the read of its snapshot. -/
theorem timeTravelSql_recorded :
    ∃ w, sourceWorld.recordChange ⟨"p", "d", "t"⟩ "a" = .ok w ∧
      timeTravelSql (.ofCatalog w.catalog w.now w.retentionDays) "p" readNow =
        .ok (Sql.selectStar (.table
          { db := snapshotsSchema, name := newSnapshotId 1000000 "a" })) := by
  refine ⟨_, rfl, (timeTravelSql_eq_asOfSql_iff _ _ _ _ rfl (fun _ _ => rfl) ?_ rfl).2 ?_⟩
  · intro x hx t ht target _ _
    obtain rfl := List.mem_singleton.1 (Sql.leaves_selectStar _ ▸ hx)
    obtain rfl := Option.some.inj ht
    rfl
  intro x hx t ht target hv _ _
  obtain rfl := List.mem_singleton.1 (Sql.leaves_selectStar _ ▸ hx)
  obtain rfl := Option.some.inj ht
  obtain rfl : (1000000 : Time) = target := by simpa using hv
  refine ⟨fun s hs => ?_, fun hs => rfl⟩
  obtain rfl : _ = s := Option.some.inj (ok.inj hs)
  rfl

/-- After `CREATE SNAPSHOT TABLE p.d.snap CLONE p.d.t`, a read as of now should be that of the
snapshot table, and is a read of `p__p__d.snap`. -/
theorem timeTravelSql_doubles_project :
    ∃ w, sourceWorld.createSnapshotTable ⟨"p", "d", "snap"⟩ ⟨"p", "d", "t"⟩ = .ok w ∧
      asOfSql (.ofCatalog w.catalog w.now w.retentionDays) "p" readNow =
        .ok (Sql.selectStar (.table { db := "p__d", name := "snap" })) ∧
      timeTravelSql (.ofCatalog w.catalog w.now w.retentionDays) "p" readNow =
        .ok (Sql.selectStar (.table { db := "p__p__d", name := "snap" })) :=
  ⟨_, rfl, rfl, rfl⟩

end Bqemulator
