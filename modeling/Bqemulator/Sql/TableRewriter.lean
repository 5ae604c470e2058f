import Bqemulator.Storage.Tables

/-!
# Physical names in the final SQL

The last pass gives every qualified table reference its physical name `"project__dataset"."table"`,
flattens calls of table functions to the name of their macro, and leaves bare names and references
to the emulator's own schemas.
-/

namespace Bqemulator

open SyntaxTree Except

def isBqDatasetId (id : String) : Bool :=
  let chars := Text.anchored id
  !chars.isEmpty && chars.all Text.isWordChar && chars.length ≤ 1024

variable {id db : String}

theorem dot_notMem_of_isBqDatasetId (h : isBqDatasetId id = true) : '.' ∉ id.toList := by
  intro hd
  have hm := Text.mem_anchored hd (by decide)
  simp only [isBqDatasetId, Bool.and_eq_true, List.all_eq_true] at h
  exact absurd (h.1.2 _ hm) (by decide)

theorem ne_empty_of_isBqDatasetId (h : isBqDatasetId id = true) : id ≠ "" := by
  rintro rfl
  exact absurd h (by decide)

/-- The qualifiers of a reference, with a dotted dataset split into project and dataset. -/
def normalizeQualifierParts (catalog db : String) : String × String :=
  if catalog = "" then (Text.splitOnce '.' db).getD (catalog, db) else (catalog, db)

def invalidDatasetId (datasetId tableId : String) : DomainError :=
  .validation
    ("Invalid dataset ID \"" ++ datasetId ++ "\". Dataset IDs must be alphanumeric " ++
      "(plus underscores and dashes) and must be at most 1024 characters long.")
    (if tableId = "" then datasetId else datasetId ++ "." ++ tableId)

/-- The pass on one table node: reserved schemas and bare names stay, a table gets its physical
schema. -/
def rewriteTableNode (project : String) (t : Table) : Except DomainError Table :=
  let (catalog, db) := normalizeQualifierParts t.catalog t.db
  if isReserved db then .ok t
  else if db ≠ "" ∧ !isBqDatasetId db then .error (invalidDatasetId db t.name)
  else if t.name = "" ∧ (catalog ≠ "" ∨ db ≠ "") then
    .ok { t with
      catalog := ""
      db := ""
      name := schemaName (if catalog = "" then project else catalog)
        (if db = "" then catalog else db) }
  else if catalog ≠ "" then .ok { t with catalog := "", db := schemaName catalog db }
  else if db ≠ "" then .ok { t with db := schemaName project db }
  else .ok t

def sanitize (name : String) : String :=
  String.ofList (name.toList.flatMap fun c => if c = '-' then ['_', 'h', '_'] else [c])

def qualifiedRoutineNameParts (project dataset routine : String) : Except DomainError String :=
  (validateSqlId project "project").bind fun project =>
    (validateSqlId dataset "dataset").bind fun dataset =>
      (validateSqlId routine "routine").map fun routine =>
        sanitize project ++ "__" ++ sanitize dataset ++ "__" ++ sanitize routine

/-- The pass on a call of a table function. -/
def rewriteRoutine (project catalog db name : String) : Except DomainError Leaf :=
  if isReserved db then .ok (.routine catalog db name)
  else if catalog ≠ "" then (qualifiedRoutineNameParts catalog db name).map (.routine "" "")
  else if db ≠ "" then
    let (owner, dataset) := (Text.splitOnce '.' db).getD ("", db)
    (qualifiedRoutineNameParts (if owner = "" then project else owner) dataset name).map
      (.routine "" "")
  else .ok (.routine catalog db name)

variable {project : String}

theorem exists_routine_of_rewriteRoutine {catalog name : String} {l : Leaf}
    (h : rewriteRoutine project catalog db name = .ok l) : ∃ c d n, l = .routine c d n := by
  unfold rewriteRoutine at h
  split at h
  · exact ⟨_, _, _, (ok.inj h).symm⟩
  split at h
  · obtain ⟨n, -, rfl⟩ := map_eq_ok_iff.1 h
    exact ⟨_, _, _, rfl⟩
  split at h
  · obtain ⟨n, -, rfl⟩ := map_eq_ok_iff.1 h
    exact ⟨_, _, _, rfl⟩
  · exact ⟨_, _, _, (ok.inj h).symm⟩

def rewriteLeafRefs (project : String) : Leaf → Except DomainError Leaf
  | .table t => (rewriteTableNode project t).map .table
  | .selectWhere t c => (rewriteTableNode project t).map fun t => .selectWhere t c
  | .wildcard w => (rewriteTableNode project w.asTable).map .table
  | .routine catalog db name => rewriteRoutine project catalog db name
  | l => .ok l

/-- The pass on a statement. Text that does not parse is left for the engine to reject. -/
def rewriteTableRefs (project : String) (s : Sql) : Except DomainError Sql :=
  if s.parses then tryBindAt (fun _ l => (rewriteLeafRefs project l).map .leaf) [] s else .ok s

theorem rewriteTableRefs_reprint_eq_ok_iff {s u : Sql} (hs : s.parses = true) :
    rewriteTableRefs project s.reprint = .ok u ↔
      tryBindAt (fun _ l => (rewriteLeafRefs project l.reprint).map .leaf) [] s = .ok u := by
  have hb := tryBindAt_bind_eq_ok_iff (p := []) (t := s) (u := u)
    (f := fun _ l => .ok (.leaf l.reprint))
    (g := fun _ l => (rewriteLeafRefs project l).map .leaf)
  rw [tryBindAt_ok] at hb
  rw [rewriteTableRefs, Sql.parses_reprint, if_pos hs]
  exact hb

/-! ## Physical names -/

theorem normalizeQualifierParts_plain (h : '.' ∉ db.toList) (catalog : String) :
    normalizeQualifierParts catalog db = (catalog, db) := by
  simp [normalizeQualifierParts, Text.splitOnce_eq_none h]

theorem dot_notMem_of_isReserved {s : String} (h : isReserved s = true) :
    '.' ∉ s.toList := by
  rcases isReserved_iff.1 h with rfl | rfl
  · rw [catalogSchema_toList]; decide
  · rw [snapshotsSchema_toList]; decide

/-- The project of a reference: its own qualifier, or else the project of the job. -/
def Table.projectOr (t : Table) (project : String) : String :=
  if t.catalog = "" then project else t.catalog

def Table.idIn (t : Table) (project : String) : TableId :=
  ⟨t.projectOr project, t.db, t.name⟩

variable {t : Table}

theorem rewriteTableNode_reserved (h : isReserved t.db = true) :
    rewriteTableNode project t = .ok t := by
  simp only [rewriteTableNode,
    normalizeQualifierParts_plain (dot_notMem_of_isReserved h), h, if_true]

/-- The physical name of a reference. -/
theorem rewriteTableNode_qualified (hd : '.' ∉ t.db.toList) (hdb : t.db ≠ "")
    (hn : t.name ≠ "") (hr : isReserved t.db = false) :
    rewriteTableNode project t =
      if isBqDatasetId t.db then
        .ok { t with catalog := "", db := schemaName (t.projectOr project) t.db }
      else .error (invalidDatasetId t.db t.name) := by
  simp only [rewriteTableNode, normalizeQualifierParts_plain hd, hr, Table.projectOr]
  by_cases hv : isBqDatasetId t.db = true
  · by_cases hc : t.catalog = ""
    · obtain ⟨catalog, db, name, tableAlias, v, m⟩ := t
      simp_all
    · simp [hv, hc, hn]
  · simp [hv, hdb]

/-- A user table: in a valid dataset that is not called like a reserved schema. -/
structure TableId.IsOrdinary (T : TableId) : Prop where
  dataset : isBqDatasetId T.dataset = true
  ordinary : isReserved T.dataset = false
  named : T.table ≠ ""

theorem rewriteTableNode_ordinary {T : TableId} (hT : T.IsOrdinary) (hi : t.idIn project = T) :
    rewriteTableNode project t = .ok { t with catalog := "", db := T.key.1 } := by
  obtain rfl := hi
  rw [rewriteTableNode_qualified (dot_notMem_of_isBqDatasetId hT.dataset)
    (ne_empty_of_isBqDatasetId hT.dataset) hT.named hT.ordinary]
  exact if_pos hT.dataset

/-- The pass itself puts no reference into a reserved schema. -/
theorem eq_of_rewriteTableNode_reserved {t' : Table} (h : rewriteTableNode project t = .ok t')
    (hr : isReserved t'.db = true) : t' = t := by
  have ho := isReserved_schemaName
  simp only [rewriteTableNode] at h
  split at h
  · exact (ok.inj h).symm
  split at h
  · cases h
  split at h
  · obtain rfl := ok.inj h
    exact absurd (show isReserved "" = true from hr) (by decide)
  split at h
  · obtain rfl := ok.inj h
    rw [ho] at hr
    cases hr
  split at h
  · obtain rfl := ok.inj h
    rw [ho] at hr
    cases hr
  · exact (ok.inj h).symm

end Bqemulator
