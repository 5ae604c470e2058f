import Bqemulator.Catalog.MemoryRepository
import Bqemulator.Catalog.Records

/-!
# Patches of tables

`PATCH` of a table builds a new record from the body and the record that is there, and puts it under
the name in the body, or else that of the path. The table of the engine is not touched.
-/

namespace Bqemulator

open Option

/-! ## Bodies -/

/-- A key of a body: it may be absent or `null`. -/
inductive Given (α : Type) where
  | absent
  | null
  | value (a : α)
deriving DecidableEq

namespace Given

variable {α : Type}

def orElse (x : Given α) (default : Option α) : Option α :=
  match x with
  | .absent => default
  | .null => none
  | .value a => some a

def named : Given α → Bool
  | .absent => false
  | _ => true

end Given

/-- The element type of a range column, as a body gives it. -/
structure RangeElementBody where
  name : Option String := none
  type : Option String := none
  mode : Option String := none
deriving DecidableEq

/-- A column, as a body gives it. -/
structure FieldBody where
  name : Option String
  type : Option String := none
  mode : Option String := none
  description : Option String := none
  fields : List FieldBody := []
  rangeElementType : Option RangeElementBody := none

structure TimePartitioningBody where
  type : Option String := none
  field : Option String := none
  expirationMs : Option Int := none
  requirePartitionFilter : Option Bool := none
deriving DecidableEq

inductive RecordField where
  | tableType
  | schema
  | friendlyName
  | description
  | labels
  | timePartitioning
  | rangePartitioning
  | clustering
  | expirationTime
  | creationTime
  | numRows
  | numBytes
  | viewQuery
  | useLegacySql
  | baseTable
  | snapshotTime
deriving DecidableEq

/-- **The body of a patch**: the keys that are read, and the fields that other keys name. -/
structure PatchBody where
  tableReference : Given (Option String) := .absent
  tableId : Given String := .absent
  schema : Given (List FieldBody) := .absent
  timePartitioning : Given (Option TimePartitioningBody) := .absent
  clustering : Given (Option (List String)) := .absent
  view : Given (Option String) := .absent
  type : Given String := .absent
  friendlyName : Given String := .absent
  description : Given String := .absent
  labels : Given (List (String × String)) := .absent
  unread : List RecordField := []

variable (body : PatchBody)

def PatchBody.hasKey : RecordField → Bool
  | .tableType => body.type.named
  | .schema => body.schema.named
  | .friendlyName => body.friendlyName.named
  | .description => body.description.named
  | .labels => body.labels.named
  | .timePartitioning => body.timePartitioning.named
  | .clustering => body.clustering.named
  | .viewQuery => body.view.named
  | _ => false

/-- The body has the field, whether or not the code reads it. -/
def PatchBody.names (f : RecordField) : Bool :=
  f ∈ body.unread || body.hasKey f

/-- The body sets a field: the code takes its value over. -/
def PatchBody.sets : RecordField → Bool
  | .tableType => match body.type with | .value _ => true | _ => false
  | .schema => match body.schema with | .value raw => !raw.isEmpty | _ => false
  | .friendlyName => body.friendlyName.named
  | .description => body.description.named
  | .labels => match body.labels with | .value _ => true | _ => false
  | .timePartitioning => match body.timePartitioning with | .value (some _) => true | _ => false
  | .clustering => match body.clustering with | .value (some _) => true | _ => false
  | .viewQuery => match body.view with | .value _ => true | _ => false
  | _ => false

/-- The fields that the code reads from a body. -/
def RecordField.settable : RecordField → Bool
  | .tableType | .schema | .friendlyName | .description | .labels | .timePartitioning | .clustering
  | .viewQuery => true
  | _ => false

/-! ## The record of a body -/

def TableType.ofText (s : String) : Option TableType :=
  [.table, .view, .materializedView, .external, .snapshot, .clone].find? fun t => t.text = s

def FieldMode.ofText (s : String) : Option FieldMode :=
  [.nullable, .required, .repeated].find? fun m => m.text = s

def parseRangeElement (name : String) (body : RangeElementBody) : Option (Option TableField) :=
  match body.type with
  | none => some none
  | some type => do
    let mode ← FieldMode.ofText (body.mode.getD "NULLABLE")
    some (some { name := body.name.getD (name ++ "__range_element"), type, mode })

mutual

/-- The column that a body describes; without a name or with another mode there is none. -/
def parseSchemaField : FieldBody → Option TableField
  | ⟨name, type, mode, description, fields, rangeElementType⟩ => do
    let fields ← parseSchemaFields fields
    let name ← name
    let rangeElementType ← (rangeElementType.map (parseRangeElement name)).getD (some none)
    let mode ← FieldMode.ofText (mode.getD "NULLABLE")
    some { name, type := type.getD "STRING", mode, description, fields, rangeElementType }

def parseSchemaFields : List FieldBody → Option (List TableField)
  | [] => some []
  | f :: fs => do
    let field ← parseSchemaField f
    let fields ← parseSchemaFields fs
    some (field :: fields)

end

def restToSchema (fieldsRaw : List FieldBody) (existing : Option TableRecord) :
    Option (List TableField) :=
  if fieldsRaw.isEmpty then some (existing.elim [] (·.schema)) else parseSchemaFields fieldsRaw

/-- The partitions that a body describes, or the old ones if it has none. -/
def restToTimePartitioning (raw : Given (Option TimePartitioningBody))
    (existing : Option TableRecord) : Option (Option TimePartitioning) :=
  match raw with
  | .value (some raw) =>
    let type := raw.type.getD "DAY"
    if type ∈ ["DAY", "HOUR", "MONTH", "YEAR"] then
      some (some ⟨type, raw.field, raw.expirationMs, raw.requirePartitionFilter.getD false⟩)
    else none
  | _ => some (existing.bind (·.timePartitioning))

def restToClustering (raw : Given (Option (List String))) (existing : Option TableRecord) :
    Option (List String) :=
  match raw with
  | .value (some fields) => some fields
  | _ => existing.bind (·.clustering)

/-- An empty query is none. -/
def isQuery (viewQuery : Option String) : Bool := viewQuery.any (· ≠ "")

variable (existing : Option TableRecord)

def restToViewQuery : Option String :=
  match body.view with
  | .value query => query
  | _ => existing.bind (·.viewQuery)

/-- The query and the kind of a table: without a kind in the body a table with a query is a view. -/
def PatchBody.restToViewQueryAndType : Option (Option String × TableType) :=
  let viewQuery := restToViewQuery body existing
  match body.type with
  | .absent =>
    some (viewQuery, if isQuery viewQuery then .view else existing.elim .table (·.tableType))
  | .null => none
  | .value text => (TableType.ofText text).map fun type => (viewQuery, type)

def restToTableId : Option String := do
  -- a null where an object is read is an error
  let ref ← body.tableReference.orElse (some none)
  if ref.any (· ≠ "") then ref else body.tableId.orElse (some "")

/-- What the handler asks for: the clock, etags, and the types of the engine. -/
structure PatchEnv where
  now : Time
  generateEtag : (project dataset table : String) → Time → String
  bqToDuckdb : String → Option String

variable (env : PatchEnv)

/-- The record of a body, on top of one that is there; none if the body is refused. -/
def restToTableRecord (projectId datasetId : String) (body : PatchBody)
    (existing : Option TableRecord) : Option TableRecord := do
  let tableId ← restToTableId body
  let schemaRaw ← body.schema.orElse (some [])
  let schema ← restToSchema schemaRaw existing
  let timePartitioning ← restToTimePartitioning body.timePartitioning existing
  let clustering := restToClustering body.clustering existing
  let (viewQuery, tableType) ← body.restToViewQueryAndType existing
  let labels ← body.labels.orElse (some (existing.elim [] (·.labels)))
  some {
    projectId, datasetId, tableId, tableType, schema
    friendlyName := body.friendlyName.orElse (existing.bind (·.friendlyName))
    description := body.description.orElse (existing.bind (·.description))
    labels, timePartitioning, clustering
    creationTime := existing.elim env.now (·.creationTime)
    lastModifiedTime := env.now
    numRows := existing.elim 0 (·.numRows)
    numBytes := existing.elim 0 (·.numBytes)
    etag := env.generateEtag projectId datasetId tableId env.now
    viewQuery }

/-! ## The request -/

/-- The tables: their records, and their columns in the engine. -/
structure TableStore where
  tables : Keyed TableRecord.id
  physical : TableId → Option (List (String × String))

def PatchBody.withReference (table : String) : PatchBody :=
  { body with
    tableReference :=
      if body.tableReference.named then body.tableReference else .value (some table) }

/-- How a `PATCH` fails. -/
inductive PatchFailure where
  | domain (e : DomainError)
  | refused
deriving DecidableEq

variable (id : TableId)

/-- The handler, once it has found the record. -/
def TableStore.putPatch (body : PatchBody) (existing : TableRecord)
    (s : TableStore) : Except PatchFailure TableStore :=
  match restToTableRecord env id.project id.dataset (body.withReference id.table) existing with
  | none => .error .refused
  | some updated =>
    match updateIn s.tables updated updated.id.resourceRef with
    | .error e => .error (.domain e)
    | .ok tables => .ok { s with tables }

/-- `PATCH` of a table. -/
def TableStore.patchTable (body : PatchBody) (s : TableStore) : Except PatchFailure TableStore :=
  match s.tables.get? id with
  | none => .error (.domain (resourceNotFound id.resourceRef))
  | some existing => s.putPatch env id body existing

def TableStore.afterPatch (body : PatchBody) (s : TableStore) : TableStore :=
  match s.patchTable env id body with
  | .ok s' => s'
  | .error _ => s

/-! ## Columns -/

mutual

/-- The column of the engine for one of the schema; structs and ranges are of their own kinds,
repeated ones are lists. -/
def bqFieldToDuckdbColumn (bqToDuckdb : String → Option String) :
    TableField → Option (String × String)
  | ⟨name, type, mode, fields, _, _, _, _, _, _, _, rangeElementType⟩ => do
    let duckdbType ←
      if Text.upper type ∈ ["RECORD", "STRUCT"] then
        (bqSchemaToDuckdbColumns bqToDuckdb fields).map fun inner =>
          "STRUCT(" ++ ", ".intercalate (inner.map fun c => c.1 ++ " " ++ c.2) ++ ")"
      else if Text.upper type = "RANGE" then
        (rangeElementType.map (·.type)).bind fun element =>
          if element = "" then none else bqToDuckdb ("RANGE<" ++ element ++ ">")
      else bqToDuckdb type
    some (name, if mode = .repeated then duckdbType ++ "[]" else duckdbType)

/-- The columns of a table in the engine. -/
def bqSchemaToDuckdbColumns (bqToDuckdb : String → Option String) :
    List TableField → Option (List (String × String))
  | [] => some []
  | f :: fs => do
    let column ← bqFieldToDuckdbColumn bqToDuckdb f
    let columns ← bqSchemaToDuckdbColumns bqToDuckdb fs
    some (column :: columns)

end

/-! ## Frames -/

def TableRecord.Agree (r r' : TableRecord) : RecordField → Prop
  | .tableType => r.tableType = r'.tableType
  | .schema => r.schema = r'.schema
  | .friendlyName => r.friendlyName = r'.friendlyName
  | .description => r.description = r'.description
  | .labels => r.labels = r'.labels
  | .timePartitioning => r.timePartitioning = r'.timePartitioning
  | .rangePartitioning => r.rangePartitioning = r'.rangePartitioning
  | .clustering => r.clustering = r'.clustering
  | .expirationTime => r.expirationTime = r'.expirationTime
  | .creationTime => r.creationTime = r'.creationTime
  | .numRows => r.numRows = r'.numRows
  | .numBytes => r.numBytes = r'.numBytes
  | .viewQuery => r.viewQuery = r'.viewQuery
  | .useLegacySql => r.useLegacySql = r'.useLegacySql
  | .baseTable => r.baseTable = r'.baseTable
  | .snapshotTime => r.snapshotTime = r'.snapshotTime

/-- The table of the engine has the columns of the record. -/
def TableStore.ColumnsMatch (s : TableStore) (id : TableId) : Prop :=
  ∃ r columns, s.tables.get? id = some r ∧ s.physical id = some columns ∧
    bqSchemaToDuckdbColumns env.bqToDuckdb r.schema = some columns

/-- **What a patch should leave as it is**: fields the body does not name, other tables, and that
the columns are those of the schema. -/
structure PatchFramed (env : PatchEnv) (s s' : TableStore) (id : TableId)
    (body : PatchBody) : Prop where
  kept : ∃ r r', s.tables.get? id = some r ∧ s'.tables.get? id = some r' ∧
    ∀ f, body.names f = false → r.Agree r' f
  others : ∀ other, other ≠ id → s'.tables.get? other = s.tables.get? other
  columns : s'.ColumnsMatch env id

/-- The record without the fields that a `PATCH` drops. -/
def TableRecord.cleared (r : TableRecord) : TableRecord :=
  { r with
    rangePartitioning := none, expirationTime := none, useLegacySql := false, baseTable := none
    snapshotTime := none }

/-- **The patches that leave alone what they do not name**: for the table of the path, with a kind
or no query in a table that is no view, naming each field that is dropped, with the columns of the
record or none. -/
structure PatchFits (env : PatchEnv) (r : TableRecord) (body : PatchBody) : Prop where
  own : restToTableId (body.withReference r.tableId) = some r.tableId
  type : body.names .tableType = true ∨ isQuery (restToViewQuery body r) = false ∨
    r.tableType = .view
  dropped : ∀ f, body.names f = true ∨ r.Agree r.cleared f
  columns : ∀ raw fields, body.schema = .value raw → raw ≠ [] →
    parseSchemaFields raw = some fields →
    bqSchemaToDuckdbColumns env.bqToDuckdb fields =
      bqSchemaToDuckdbColumns env.bqToDuckdb r.schema

/-! ## The new record -/

section Record

variable {env : PatchEnv} {projectId datasetId : String} {body : PatchBody} {r u : TableRecord}

theorem Given.eq_absent {α : Type} {x : Given α} (h : x.named = false) : x = .absent := by
  cases x with
  | absent => rfl
  | null | value a => cases h

variable {f : RecordField}

theorem PatchBody.hasKey_eq_false (h : body.names f = false) :
    body.hasKey f = false :=
  (Bool.or_eq_false_iff.1 h).2

theorem PatchBody.not_sets_of_hasKey (h : body.hasKey f = false) :
    body.sets f = false := by
  cases f <;> first | rfl | exact h | simp [PatchBody.sets, Given.eq_absent h]

/-- **What a key does to a field**: it leaves the old value, or gives one that does not depend on
it. -/
def Decides {α : Type} (set : Bool) (old new given : α) : Prop :=
  (set = false → old = new) ∧ (set = true → given = new)

theorem decides_text (r : Given String) (old : Option String) :
    Decides r.named old (r.orElse old) (r.orElse none) := by
  cases r with
  | absent => exact ⟨fun _ => rfl, nofun⟩
  | _ => exact ⟨nofun, fun _ => rfl⟩

theorem decides_labels {l : List (String × String)}
    (h : body.labels.orElse (some r.labels) = some l) :
    ∃ given, body.labels.orElse (some []) = some given ∧
      Decides (body.sets .labels) r.labels l given := by
  unfold PatchBody.sets
  cases hk : body.labels <;> rw [hk] at h
  · exact ⟨_, rfl, fun _ => some.inj h, nofun⟩
  · cases h
  · exact ⟨l, h, nofun, fun _ => rfl⟩

theorem decides_schema {s : List TableField}
    (h : (body.schema.orElse (some [])).bind (restToSchema · (some r)) = some s) :
    ∃ given, (body.schema.orElse (some [])).bind (restToSchema · none) = some given ∧
      Decides (body.sets .schema) r.schema s given := by
  unfold PatchBody.sets
  cases hk : body.schema <;> rw [hk] at h
  · exact ⟨_, rfl, fun _ => some.inj h, nofun⟩
  · cases h
  rename_i raw
  change restToSchema raw (some r) = some s at h
  change ∃ given, restToSchema raw none = some given ∧ _
  unfold restToSchema at h ⊢
  split_ifs at h ⊢ with he
  · exact ⟨_, rfl, fun _ => some.inj h, fun hs => by simp [he] at hs⟩
  · exact ⟨s, h, fun hs => by simp [he] at hs, fun _ => rfl⟩

theorem decides_timePartitioning {tp : Option TimePartitioning}
    (h : restToTimePartitioning body.timePartitioning (some r) = some tp) :
    ∃ given, restToTimePartitioning body.timePartitioning none = some given ∧
      Decides (body.sets .timePartitioning) r.timePartitioning tp given := by
  unfold PatchBody.sets
  rcases hk : body.timePartitioning with _ | _ | (_ | spec) <;> rw [hk] at h
  · exact ⟨_, rfl, fun _ => some.inj h, nofun⟩
  · exact ⟨_, rfl, fun _ => some.inj h, nofun⟩
  · exact ⟨_, rfl, fun _ => some.inj h, nofun⟩
  · exact ⟨tp, h, nofun, fun _ => rfl⟩

theorem decides_clustering : Decides (body.sets .clustering) r.clustering
    (restToClustering body.clustering (some r)) (restToClustering body.clustering none) := by
  unfold PatchBody.sets
  rcases body.clustering with _ | _ | (_ | fields)
  · exact ⟨fun _ => rfl, nofun⟩
  · exact ⟨fun _ => rfl, nofun⟩
  · exact ⟨fun _ => rfl, nofun⟩
  · exact ⟨nofun, fun _ => rfl⟩

theorem decides_viewQuery : Decides (body.sets .viewQuery) r.viewQuery
    (restToViewQuery body (some r)) (restToViewQuery body none) := by
  unfold PatchBody.sets restToViewQuery
  cases body.view with
  | value => exact ⟨nofun, fun _ => rfl⟩
  | _ => exact ⟨fun _ => rfl, nofun⟩

/-- **The parts of a record that a body has made.** -/
structure Built (env : PatchEnv) (body : PatchBody) (r u : TableRecord) : Prop where
  tableId : restToTableId body = some u.tableId
  schema : (body.schema.orElse (some [])).bind (restToSchema · (some r)) = some u.schema
  timePartitioning :
    restToTimePartitioning body.timePartitioning (some r) = some u.timePartitioning
  view : body.restToViewQueryAndType (some r) = some (u.viewQuery, u.tableType)
  labels : body.labels.orElse (some r.labels) = some u.labels
  rest : u = { r.cleared with
    projectId := u.projectId, datasetId := u.datasetId, tableId := u.tableId
    tableType := u.tableType, schema := u.schema
    friendlyName := body.friendlyName.orElse r.friendlyName
    description := body.description.orElse r.description
    labels := u.labels, timePartitioning := u.timePartitioning
    clustering := restToClustering body.clustering (some r)
    lastModifiedTime := env.now, etag := u.etag, viewQuery := u.viewQuery }

/-- What a `PATCH` makes of the record, field by field. -/
theorem built_of_restToTableRecord
    (h : restToTableRecord env projectId datasetId body (some r) = some u) :
    Built env body r u ∧ u.projectId = projectId ∧ u.datasetId = datasetId := by
  simp only [restToTableRecord, bind_eq_bind, bind_eq_some_iff] at h
  obtain ⟨t, ht, raw, hr, s, hs, tp, htp, ⟨q, kind⟩, hv, l, hl, hu⟩ := h
  cases hu
  refine ⟨⟨ht, ?_, htp, hv, hl, rfl⟩, rfl, rfl⟩
  rw [hr]
  exact hs

namespace Built

variable (h : Built env body r u)

include h

theorem viewQuery_eq : u.viewQuery = restToViewQuery body (some r) := by
  have hv := h.view
  unfold PatchBody.restToViewQueryAndType at hv
  cases hk : body.type with
  | absent =>
    rw [hk] at hv
    exact congrArg Prod.fst (some.inj hv).symm
  | null =>
    rw [hk] at hv
    cases hv
  | value =>
    rw [hk] at hv
    obtain ⟨t, -, heq⟩ := map_eq_some_iff.1 hv
    exact congrArg Prod.fst heq.symm

theorem tableType_eq (hk : body.hasKey .tableType = false) :
    u.tableType = if isQuery (restToViewQuery body (some r)) then .view else r.tableType := by
  have hv := h.view
  rw [PatchBody.restToViewQueryAndType, Given.eq_absent hk] at hv
  exact congrArg Prod.snd (some.inj hv).symm

theorem agree_tableType (hke : body.hasKey .tableType = false)
    (hk : isQuery (restToViewQuery body (some r)) = false ∨ r.tableType = .view) :
    r.Agree u .tableType := by
  show r.tableType = u.tableType
  rw [h.tableType_eq hke]
  rcases hk with hq | hv
  · rw [hq]
    rfl
  · rw [hv, ite_self]

/-- A field that the code could set and the body does not set is kept. -/
theorem agree_of_not_sets (hf : f.settable = true) (hn : f ≠ .tableType)
    (hs : body.sets f = false) : r.Agree u f := by
  have hr := h.rest
  cases f with
  | tableType => exact absurd rfl hn
  | schema =>
    obtain ⟨_, -, hd⟩ := decides_schema h.schema
    exact hd.1 hs
  | friendlyName | description =>
    rw [hr]
    exact (decides_text _ _).1 hs
  | labels =>
    obtain ⟨_, -, hd⟩ := decides_labels h.labels
    exact hd.1 hs
  | timePartitioning =>
    obtain ⟨_, -, hd⟩ := decides_timePartitioning h.timePartitioning
    exact hd.1 hs
  | clustering =>
    rw [hr]
    exact decides_clustering.1 hs
  | viewQuery => exact (decides_viewQuery.1 hs).trans h.viewQuery_eq.symm
  | rangePartitioning | expirationTime | creationTime | numRows | numBytes | useLegacySql
  | baseTable | snapshotTime => cases hf

theorem agree_iff (hk : body.hasKey f = false) (hn : f ≠ .tableType) :
    r.Agree u f ↔ r.Agree r.cleared f := by
  cases hf : f.settable with
  | true =>
    refine iff_of_true (h.agree_of_not_sets hf hn (PatchBody.not_sets_of_hasKey hk)) ?_
    cases f <;> first | rfl | cases hf
  | false =>
    rw [h.rest]
    cases f <;> first | exact Iff.rfl | cases hf

/-- The fields that the body does not name are kept exactly under two conditions. -/
theorem kept_iff : (∀ f, body.names f = false → r.Agree u f) ↔
    (body.names .tableType = true ∨ isQuery (restToViewQuery body (some r)) = false ∨
      r.tableType = .view) ∧ ∀ f, body.names f = true ∨ r.Agree r.cleared f := by
  constructor
  · intro hk
    refine ⟨?_, fun f => ?_⟩
    · by_cases hn : body.names .tableType = true
      · exact .inl hn
      have hfa := Bool.eq_false_of_not_eq_true hn
      have ht : r.tableType = u.tableType := hk .tableType hfa
      rw [h.tableType_eq (PatchBody.hasKey_eq_false hfa)] at ht
      split_ifs at ht with hq
      · exact .inr (.inr ht)
      · exact .inr (.inl (Bool.eq_false_of_not_eq_true hq))
    · by_cases hn : body.names f = true
      · exact .inl hn
      have hfa := Bool.eq_false_of_not_eq_true hn
      by_cases hf : f = .tableType
      · exact .inr (hf ▸ rfl)
      · exact .inr ((h.agree_iff (PatchBody.hasKey_eq_false hfa) hf).1 (hk f hfa))
  · rintro ⟨ht, hd⟩ f hfa
    have hn : body.names f ≠ true := Bool.eq_false_iff.1 hfa
    by_cases hf : f = .tableType
    · subst hf
      exact h.agree_tableType (PatchBody.hasKey_eq_false hfa) (ht.resolve_left hn)
    · exact (h.agree_iff (PatchBody.hasKey_eq_false hfa) hf).2 ((hd f).resolve_left hn)

/-- The columns stay the same if the body has those of the record, or none. -/
theorem columns_iff (c : List TableField → Option (List (String × String))) :
    c u.schema = c r.schema ↔ ∀ raw fields, body.schema = .value raw → raw ≠ [] →
      parseSchemaFields raw = some fields → c fields = c r.schema := by
  have hs := h.schema
  constructor
  · intro heq raw fields hr hn hp
    rw [hr] at hs
    rw [← heq]
    have hf : restToSchema raw (some r) = some fields := by
      rw [restToSchema, if_neg (by simpa using hn), hp]
    rw [some.inj (hf.symm.trans hs)]
  · intro hg
    cases hk : body.schema with
    | absent =>
      rw [hk] at hs
      rw [← some.inj hs]
      rfl
    | null =>
      rw [hk] at hs
      cases hs
    | value raw =>
      rw [hk] at hs
      change restToSchema raw (some r) = some u.schema at hs
      rw [restToSchema] at hs
      split_ifs at hs with he
      · rw [← some.inj hs]
        rfl
      · exact hg raw u.schema hk (by simpa using he) hs

end Built

end Record

/-! ## The store -/

section Store

variable {env : PatchEnv} {s : TableStore} {id : TableId} {body : PatchBody} {r : TableRecord}

/-- **A patch that fails**: the body is refused, or no table has the name that it gives. -/
def TableStore.Refuses (env : PatchEnv) (s : TableStore) (id : TableId) (r : TableRecord)
    (body : PatchBody) : Prop :=
  restToTableRecord env id.project id.dataset (body.withReference id.table) (some r) = none ∨
    ∃ table, restToTableId (body.withReference id.table) = some table ∧
      s.tables.get? ⟨id.project, id.dataset, table⟩ = none

theorem putPatch_eq : s.putPatch env id body r =
    match restToTableRecord env id.project id.dataset (body.withReference id.table) (some r) with
    | none => .error .refused
    | some u => if (s.tables.get? u.id).isSome then .ok { s with tables := s.tables.put u }
      else .error (.domain (resourceNotFound u.id.resourceRef)) := by
  rw [TableStore.putPatch]
  cases restToTableRecord env id.project id.dataset (body.withReference id.table) (some r) with
  | none => rfl
  | some u =>
    by_cases hs : (s.tables.get? u.id).isSome
    · simp only [updateIn, hs, if_true]
    · simp only [updateIn, hs]
      rfl

/-- A `PATCH` of a table that is there. -/
theorem patchTable_eq (hr : s.tables.get? id = some r) :
    s.patchTable env id body = s.putPatch env id body r := by
  rw [TableStore.patchTable, hr]

theorem afterPatch_of_refuses (hr : s.tables.get? id = some r) (h : s.Refuses env id r body) :
    s.afterPatch env id body = s := by
  rw [TableStore.afterPatch, patchTable_eq hr, putPatch_eq]
  cases hu : restToTableRecord env id.project id.dataset (body.withReference id.table) (some r) with
  | none => rfl
  | some u =>
    rcases h with hn | ⟨t, ht, hg⟩
    · rw [hu] at hn
      cases hn
    obtain ⟨hb, hp, hd⟩ := built_of_restToTableRecord hu
    have hi : u.id = ⟨id.project, id.dataset, t⟩ := by
      rw [TableRecord.id, hp, hd, some.inj (hb.tableId.symm.trans ht)]
    simp only [hi, hg]
    rfl

theorem afterPatch_of_not_refuses (hr : s.tables.get? id = some r)
    (h : ¬ s.Refuses env id r body) : ∃ u, Built env (body.withReference id.table) r u ∧
      u.id = ⟨id.project, id.dataset, u.tableId⟩ ∧ (s.tables.get? u.id).isSome ∧
      s.afterPatch env id body = { s with tables := s.tables.put u } := by
  rw [TableStore.Refuses, not_or] at h
  obtain ⟨u, hu⟩ := ne_none_iff_exists'.1 h.1
  obtain ⟨hb, hp, hd⟩ := built_of_restToTableRecord hu
  have hi : u.id = ⟨id.project, id.dataset, u.tableId⟩ := by
    rw [TableRecord.id, hp, hd]
  have hs : (s.tables.get? u.id).isSome := by
    rw [isSome_iff_ne_none]
    intro hn
    exact h.2 ⟨u.tableId, hb.tableId, hi ▸ hn⟩
  refine ⟨u, hb, hi, hs, ?_⟩
  rw [TableStore.afterPatch, patchTable_eq hr, putPatch_eq, hu]
  simp only [hs, if_true]

/-- **A patch leaves alone what it does not name** iff it fails, or is for that table, keeps its
kind, drops none of its fields and gives no other columns. -/
theorem patch_framed_iff (hr : s.tables.get? id = some r) (hcolumns : s.ColumnsMatch env id)
    (hclock : ∀ t ∈ s.tables.rows, t.lastModifiedTime ≠ env.now) (body : PatchBody) :
    PatchFramed env s (s.afterPatch env id body) id body ↔
      s.Refuses env id r body ∨ PatchFits env r body := by
  obtain ⟨r₀, c, hr₀, hp, hr₀columns⟩ := hcolumns
  obtain rfl : r = r₀ := some.inj (hr.symm.trans hr₀)
  have hke : r.id = id := Keyed.key_of_get? hr
  subst hke
  by_cases hre : s.Refuses env r.id r body
  · rw [afterPatch_of_refuses hr hre]
    refine iff_of_true ⟨⟨r, r, hr, hr, fun f _ => ?_⟩, fun _ _ => rfl, ?_⟩ (.inl hre)
    · cases f <;> rfl
    · exact ⟨r, c, hr, hp, hr₀columns⟩
  obtain ⟨u, hb, hi, hs, ha⟩ := afterPatch_of_not_refuses hr hre
  rw [ha, or_iff_right hre]
  have hg : ∀ k, (s.tables.put u).get? k = if u.id = k then some u else s.tables.get? k :=
    fun k => Keyed.get?_put _ _ _
  constructor
  · rintro ⟨⟨r₁, u₁, hr₁, hu₁, hk⟩, hot, ⟨u₂, c₂, hu₂, hp₂, hu₂columns⟩⟩
    obtain rfl : r = r₁ := some.inj (hr.symm.trans hr₁)
    -- another table with that name would have the time of the patch already
    have ho : u.id = r.id := by
      by_contra hne
      obtain ⟨t, ht⟩ := isSome_iff_exists.1 hs
      have hc := hot u.id hne
      rw [hg, if_pos rfl, ht] at hc
      have hn : u.lastModifiedTime = env.now := by rw [hb.rest]
      apply hclock t (Keyed.get?_eq_some_iff.1 ht).1
      rw [← some.inj hc, hn]
    rw [hg, if_pos ho] at hu₁ hu₂
    obtain rfl : u = u₁ := some.inj hu₁
    obtain rfl : u = u₂ := some.inj hu₂
    obtain ⟨hty, hd⟩ := hb.kept_iff.1 hk
    have hsa : bqSchemaToDuckdbColumns env.bqToDuckdb u.schema =
        bqSchemaToDuckdbColumns env.bqToDuckdb r.schema := by
      rw [hu₂columns, hr₀columns, ← hp, ← hp₂]
    have hta : u.tableId = r.tableId := congrArg TableId.table ho
    exact ⟨hb.tableId.trans (congrArg some hta), hty, hd, (hb.columns_iff _).1 hsa⟩
  · intro hf
    have hta : u.tableId = r.tableId :=
      some.inj (hb.tableId.symm.trans hf.own)
    have ho : u.id = r.id := by
      rw [hi, hta]
      rfl
    have hu : (s.tables.put u).get? r.id = some u := by rw [hg, if_pos ho]
    refine ⟨⟨r, u, hr, hu, hb.kept_iff.2 ⟨hf.type, hf.dropped⟩⟩, fun o hne => ?_, u, c, hu, hp, ?_⟩
    · exact (hg o).trans (if_neg fun h => hne (h.symm.trans ho))
    · rw [(hb.columns_iff _).2 hf.columns, hr₀columns]

end Store

def patchEnv : PatchEnv where
  now := 5
  generateEtag _ _ _ _ := "e5"
  bqToDuckdb type := some type

def rangedTable : TableRecord where
  projectId := "p"
  datasetId := "d"
  tableId := "t"
  schema := [{ name := "a", type := "INT64" }]
  rangePartitioning := some ⟨"a", 0, 100, 10⟩
  creationTime := 1
  lastModifiedTime := 1
  etag := "e1"

def plainTable : TableRecord :=
  { rangedTable with tableId := "u", rangePartitioning := none }

/-- Two tables, one of them with ranges for its partitions. -/
def twoTables : TableStore where
  tables := ⟨[rangedTable, plainTable], by decide⟩
  physical _ := some [("a", "INT64")]

theorem patch_framed_description : PatchFramed patchEnv twoTables
    (twoTables.afterPatch patchEnv plainTable.id { description := .value "x" }) plainTable.id
    { description := .value "x" } := by
  refine (patch_framed_iff (r := plainTable) rfl ⟨plainTable, _, rfl, rfl, rfl⟩ (by decide) _).2
    (.inr ⟨rfl, ?_, ?_, ?_⟩)
  · exact .inr (.inl rfl)
  · intro f
    cases f <;> exact .inr rfl
  · intro raw fields hr
    cases hr

/-- **Patches that change more than they name**: a description drops the partitions, a name puts one
table's record over another, a schema leaves the engine's columns. -/
theorem patch_not_framed :
    ¬ PatchFramed patchEnv twoTables
      (twoTables.afterPatch patchEnv rangedTable.id { description := .value "x" }) rangedTable.id
      { description := .value "x" } ∧
    ¬ PatchFramed patchEnv twoTables
      (twoTables.afterPatch patchEnv plainTable.id { tableReference := .value (some "t") })
      plainTable.id { tableReference := .value (some "t") } ∧
    ¬ PatchFramed patchEnv twoTables
      (twoTables.afterPatch patchEnv plainTable.id { schema := .value [{ name := some "b" }] })
      plainTable.id { schema := .value [{ name := some "b" }] } := by
  refine ⟨fun h => ?_, fun h => ?_, fun h => ?_⟩
  · obtain ⟨r, r', hr, hr', hk⟩ := h.kept
    cases hr
    cases hr'
    exact nomatch hk .rangePartitioning rfl
  · have ho := congrArg (Option.map (·.lastModifiedTime)) (h.others rangedTable.id (by decide))
    exact absurd ho (by decide)
  · obtain ⟨r, c, hr, hp, hc⟩ := h.columns
    cases hr
    cases hp
    exact absurd hc (by decide)

end Bqemulator
