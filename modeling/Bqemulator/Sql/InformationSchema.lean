import Bqemulator.Catalog.Records
import Bqemulator.Sql.Literals

/-!
# The information schema

A reference to a view of the information schema is replaced in the text of a query by a row set,
written from the catalog. For each of the nine views there are three patterns, for references with a
project and a dataset, with a dataset, and with neither; each works on what the ones before have
left.
-/

namespace Bqemulator

open List Option

open Text (singleQuote)

/-! ## References -/

/-- The views. -/
inductive SchemaView where
  | routines
  | materializedViews
  | rowAccessPolicies
  | schemata
  | tables
  | columns
  | tableOptions
  | views
  | partitions
deriving DecidableEq

def SchemaView.name : SchemaView → String
  | .routines => "ROUTINES"
  | .materializedViews => "MATERIALIZED_VIEWS"
  | .rowAccessPolicies => "ROW_ACCESS_POLICIES"
  | .schemata => "SCHEMATA"
  | .tables => "TABLES"
  | .columns => "COLUMNS"
  | .tableOptions => "TABLE_OPTIONS"
  | .views => "VIEWS"
  | .partitions => "PARTITIONS"

/-- The forms of a reference: with a project and a dataset, with a dataset, with neither. -/
inductive Form where
  | projectDs
  | ds
  | bare
deriving DecidableEq

/-- What a reference names. -/
inductive SchemaScope where
  | projectDs (project dataset : List Char)
  | ds (dataset : List Char)
  | bare
deriving DecidableEq

def backtick : Char := Char.ofNat 96

/-- What the patterns take as part of a name, of the ASCII characters. -/
def isNameChar (c : Char) : Bool :=
  c.isAlphanum || c = '_' || c = '-'

def isBlank (c : Char) : Bool :=
  (9 ≤ c.toNat && c.toNat ≤ 13) || (28 ≤ c.toNat && c.toNat ≤ 32) ||
    c.toNat ∈ [133, 160, 5760, 8232, 8233, 8239, 8287, 12288] ||
    (8192 ≤ c.toNat && c.toNat ≤ 8202)

def skipTick : List Char → List Char
  | [] => []
  | c :: t => if c = backtick then t else c :: t

def readName (t : List Char) : Option (List Char × List Char) :=
  if t.takeWhile isNameChar = [] then none
  else some (t.takeWhile isNameChar, t.dropWhile isNameChar)

/-- A dot, with blanks around it. -/
def readGap (t : List Char) : Option (List Char) :=
  match t.dropWhile isBlank with
  | [] => none
  | c :: rest => if c = '.' then some (rest.dropWhile isBlank) else none

/-- A word in any case. -/
def readWord : (word t : List Char) → Option (List Char)
  | [], t => some t
  | _ :: _, [] => none
  | k :: word, c :: t => if c.toLower = k.toLower then readWord word t else none

variable (view : SchemaView)

def readView (t : List Char) : Option (List Char) := do
  let t ← readWord "INFORMATION_SCHEMA".toList t
  let t ← readGap t
  let t ← readWord view.name.toList t
  some (skipTick t)

def readQualifier (t : List Char) : Option (List Char × List Char) := do
  let (name, t) ← readName (skipTick t)
  let t ← readGap (skipTick t)
  some (name, t)

/-- What a pattern matches. -/
def readReference : Form → List Char → Option (SchemaScope × List Char)
  | .projectDs, t => do
    let (project, t) ← readQualifier t
    let (dataset, t) ← readQualifier t
    let t ← readView view t
    some (.projectDs project dataset, t)
  | .ds, t => do
    let (dataset, t) ← readQualifier t
    let t ← readView view t
    some (.ds dataset, t)
  | .bare, t => do
    let t ← readView view t
    some (.bare, t)

/-! ## Rows -/

/-- A cell of a row set: a text that is written as it is, or a value that is written as a
literal. -/
inductive Cell where
  | text (t : List Char)
  | value (v : List Char)
deriving DecidableEq

namespace Cell

def null : Cell := .text "NULL".toList

def literal (s : String) : Cell := .value s.toList

def literal? (s : Option String) : Cell := s.elim null literal

def number (n : Int) : Cell := .text (toString n).toList

def bool (b : Bool) : Cell := .text (if b then "TRUE" else "FALSE").toList

end Cell

structure RoutineEntry where
  datasetId : String
  routineId : String
  routineType : RoutineType
  language : RoutineLanguage
  arguments : List String
  typeKind : Option String
  creationTime : Time
  lastModifiedTime : Time

structure DatasetEntry where
  projectId : String
  datasetId : String
  location : String
  defaultCollation : Option String
  creationTime : Time
  lastModifiedTime : Time

structure PartitionEntry where
  tableCatalog : String
  tableSchema : String
  tableName : String
  partitionId : String
  totalRows : Int
  totalLogicalBytes : Int
  lastModifiedTime : Time
  storageTier : String

/-- **What the views read**: the lists of the catalog, and how times and days are written. -/
structure CatalogSource where
  listRoutines : (project dataset : String) → List RoutineEntry
  listMaterializedViews : (project dataset : String) → List MaterializedViewMeta
  listAllRowAccessPolicies : List RowAccessPolicyMeta
  listDatasets : (project : String) → List DatasetEntry
  listTables : (project dataset : String) → List TableRecord
  listViews : (project dataset : String) → List TableRecord
  listPartitions : (project dataset table : String) → List PartitionEntry
  formatTime : Time → String
  formatDays : Int → String

section Rows

variable (src : CatalogSource)

def tsLiteral (t : Time) : Cell :=
  .text ("TIMESTAMP ".toList ++ singleQuote :: ((src.formatTime t).toList ++ " UTC".toList ++
    [singleQuote]))

def RoutineType.text : RoutineType → String
  | .scalarFunction => "SCALAR_FUNCTION"
  | .procedure => "PROCEDURE"
  | .tableValuedFunction => "TABLE_VALUED_FUNCTION"

def RoutineLanguage.text : RoutineLanguage → String
  | .sql => "SQL"
  | .javascript => "JAVASCRIPT"

/-- The statement that would create a routine. -/
def synthDdl (r : RoutineEntry) : String :=
  let args := ", ".intercalate r.arguments
  match r.routineType with
  | .tableValuedFunction => s!"CREATE TABLE FUNCTION {r.datasetId}.{r.routineId}({args}) AS (...)"
  | .procedure => s!"CREATE PROCEDURE {r.datasetId}.{r.routineId}({args}) BEGIN ... END"
  | .scalarFunction => s!"CREATE FUNCTION {r.datasetId}.{r.routineId}({args}) AS (...)"

def renderBqType : Option String → Cell
  | none => .null
  | some kind => if kind = "" then .null else .literal kind

variable (project dataset : String)

def routinesRows : List (List Cell) :=
  (src.listRoutines project dataset).map fun r =>
    [.literal project, .literal dataset, .literal r.routineId, .literal project, .literal dataset,
      .literal r.routineId, .literal r.routineType.text, .literal r.language.text,
      .literal (if r.language = .javascript then "EXTERNAL" else "SQL"), renderBqType r.typeKind,
      tsLiteral src r.creationTime, tsLiteral src r.lastModifiedTime, .literal (synthDdl r)]

def mvRows : List (List Cell) :=
  (src.listMaterializedViews project dataset).map fun v =>
    [.literal project, .literal dataset, .literal v.id.table, tsLiteral src v.lastRefreshTime,
      tsLiteral src v.lastRefreshTime, .bool true, .number 30, tsLiteral src v.lastRefreshTime,
      .bool v.isStale]

/-- The policies of a dataset, by table and id. -/
def policiesForDataset : List RowAccessPolicyMeta :=
  (src.listAllRowAccessPolicies.filter fun p =>
    p.id.project = project && p.id.dataset = dataset).insertionSort fun p q =>
      p.id.table < q.id.table ∨ p.id.table = q.id.table ∧ p.policyId ≤ q.policyId

def rapRows : List (List Cell) :=
  (policiesForDataset src project dataset).map fun p =>
    [.literal project, .literal dataset, .literal p.id.table, .literal p.policyId,
      .literal (", ".intercalate p.grantees), .literal p.filterPredicate,
      tsLiteral src p.creationTime, tsLiteral src p.lastModifiedTime]

def nonempty? (s : Option String) : Option String := s.filter (· ≠ "")

def schemataRows (project : String) : List (List Cell) :=
  ((src.listDatasets project).insertionSort fun d e => d.datasetId ≤ e.datasetId).map fun d =>
    [.literal project, .literal d.datasetId, .null, tsLiteral src d.creationTime,
      tsLiteral src d.lastModifiedTime, .literal d.location,
      .literal (s!"CREATE SCHEMA {backtick}{d.projectId}.{d.datasetId}{backtick}"),
      .literal? (nonempty? d.defaultCollation)]

def bqTableType : TableType → String
  | .table => "BASE TABLE"
  | .view => "VIEW"
  | .materializedView => "MATERIALIZED VIEW"
  | .external => "EXTERNAL"
  | .snapshot => "SNAPSHOT"
  | .clone => "BASE TABLE"

def splitBaseTable (base : Option String) : List Cell :=
  match nonempty? base with
  | none => [.null, .null, .null]
  | some base =>
    match Text.splitOnce '.' base with
    | none => [.literal base, .null, .null]
    | some (project, rest) =>
      match Text.splitOnce '.' rest with
      | none => [.literal base, .null, .null]
      | some (dataset, table) => [.literal project, .literal dataset, .literal table]

def byTableId (tables : List TableRecord) : List TableRecord :=
  tables.insertionSort fun t u => t.tableId ≤ u.tableId

def tablesRows : List (List Cell) :=
  (byTableId (src.listTables project dataset)).map fun t =>
    [.literal project, .literal dataset, .literal t.tableId, .literal (bqTableType t.tableType),
      .literal (if bqTableType t.tableType = "BASE TABLE" then "YES" else "NO"), .literal "NO",
      tsLiteral src t.creationTime] ++ splitBaseTable t.baseTable ++
      [t.snapshotTime.elim .null .number]

def canonicalType (type : String) : String :=
  if Text.upper type = "INTEGER" then "INT64"
  else if Text.upper type = "FLOAT" then "FLOAT64"
  else if Text.upper type = "BOOLEAN" then "BOOL"
  else if Text.upper type = "RECORD" then "STRUCT"
  else Text.upper type

def withMode (mode : FieldMode) (inner : String) : String :=
  if mode = .repeated then s!"ARRAY<{inner}>" else inner

mutual

def renderInnerType : TableField → String
  | ⟨_, type, _, fields, _, _, precision, scale, _, _, _, rangeElementType⟩ =>
    if canonicalType type = "STRUCT" then s!"STRUCT<{renderFields fields}>"
    else if canonicalType type = "RANGE" && rangeElementType.isSome then
      s!"RANGE<{renderElement rangeElementType}>"
    else if canonicalType type = "NUMERIC" || canonicalType type = "BIGNUMERIC" then
      match precision, scale with
      | some p, some n => s!"{canonicalType type}({p}, {n})"
      | some p, none => s!"{canonicalType type}({p})"
      | none, _ => canonicalType type
    else canonicalType type

def renderFields : List TableField → String
  | [] => ""
  | f :: fields =>
    f.name ++ " " ++ withMode f.mode (renderInnerType f) ++
      (if fields.isEmpty then "" else ", " ++ renderFields fields)

def renderElement : Option TableField → String
  | none => ""
  | some f => renderInnerType f

end

/-- The type of a column, as BigQuery writes it. -/
def renderDataType (f : TableField) : String := withMode f.mode (renderInnerType f)

variable (t : TableRecord)

def partitionField : Option String :=
  match t.timePartitioning.bind fun p => nonempty? p.field with
  | some field => some field
  | none => t.rangePartitioning.map RangePartitioning.field

/-- The place of a column among those that a table is clustered by; of two the last one counts. -/
def clusteringPosition (name : String) : Option Int :=
  ((t.clustering.getD []).zipIdx.reverse.find? fun f => f.1 = name).map fun f => f.2 + 1

def columnsRows : List (List Cell) :=
  (byTableId (src.listTables project dataset)).flatMap fun t => t.schema.zipIdx.map fun (f, i) =>
    [.literal project, .literal dataset, .literal t.tableId, .literal f.name, .number (i + 1),
      .literal (if f.mode = .required then "NO" else "YES"), .literal (renderDataType f),
      .literal "NEVER", .null, .literal "NEVER", .literal "NO",
      .literal (if t.tableType = .table then "YES" else "NO"), .literal "NO",
      .literal (if partitionField t = some f.name then "YES" else "NO"),
      (clusteringPosition t f.name).elim .null .number, .literal? (nonempty? f.collation)]

def optionChar (c : Char) : List Char :=
  if c = backslash then [backslash, backslash]
  else if c = Text.doubleQuote then [backslash, Text.doubleQuote]
  else [c]

/-- The text of an option, in double quotes. -/
def quoteForOption (value : String) : List Char :=
  Text.doubleQuote :: (value.toList.flatMap optionChar ++ [Text.doubleQuote])

def labelsOption (labels : List (String × String)) : String :=
  let quote := Text.doubleQuote
  let pairs := (labels.insertionSort fun l m => l.1 ≤ m.1).map fun l =>
    s!"({quote}{l.1}{quote}, {quote}{l.2}{quote})"
  "[" ++ ", ".intercalate pairs ++ "]"

def tableOptions : List (String × String × List Char) :=
  (t.description.map fun d => ("description", "STRING", quoteForOption d)).toList ++
  (t.friendlyName.map fun n => ("friendly_name", "STRING", quoteForOption n)).toList ++
  (if t.labels.isEmpty then []
    else [("labels", "ARRAY<STRUCT<STRING, STRING>>", (labelsOption t.labels).toList)]) ++
  (t.expirationTime.map fun time => ("expiration_timestamp", "TIMESTAMP",
    "TIMESTAMP ".toList ++ Text.doubleQuote :: ((src.formatTime time).toList ++ " UTC".toList ++
      [Text.doubleQuote]))).toList ++
  (t.timePartitioning.elim [] fun p =>
    (if p.requirePartitionFilter then
      [("require_partition_filter", "BOOL", "true".toList)] else []) ++
    (p.expirationMs.map fun ms =>
      ("partition_expiration_days", "FLOAT64", (src.formatDays ms).toList)).toList)

def tableOptionsRows : List (List Cell) :=
  (byTableId (src.listTables project dataset)).flatMap fun t => (tableOptions src t).map fun o =>
    [.literal project, .literal dataset, .literal t.tableId, .literal o.1, .literal o.2.1,
      .value o.2.2]

def viewsRows : List (List Cell) :=
  (byTableId (src.listViews project dataset)).map fun v =>
    [.literal project, .literal dataset, .literal v.tableId, .literal (v.viewQuery.getD ""), .null,
      .literal (if v.useLegacySql then "NO" else "YES")]

def partitionsRows : List (List Cell) :=
  ((byTableId (src.listTables project dataset)).filter fun t =>
      t.tableType = .table || t.tableType = .snapshot || t.tableType = .clone).flatMap fun t =>
    (src.listPartitions project dataset t.tableId).map fun p =>
      [.literal p.tableCatalog, .literal p.tableSchema, .literal p.tableName,
        .literal p.partitionId,
        .number p.totalRows, .number p.totalLogicalBytes, tsLiteral src p.lastModifiedTime,
        .literal p.storageTier]

def datasetRows : SchemaView → (project dataset : String) → List (List Cell)
  | .routines => routinesRows src
  | .materializedViews => mvRows src
  | .rowAccessPolicies => rapRows src
  | .schemata => fun project _ => schemataRows src project
  | .tables => tablesRows src
  | .columns => columnsRows src
  | .tableOptions => tableOptionsRows src
  | .views => viewsRows src
  | .partitions => partitionsRows src

/-- The rows of a view: those of the dataset, or none without one; the datasets are those of a
project in every form. -/
def rowsOf (projectId : String) (view : SchemaView) : SchemaScope → List (List Cell)
  | .projectDs project dataset =>
    datasetRows src view (String.ofList project) (String.ofList dataset)
  | .ds dataset => datasetRows src view projectId (String.ofList dataset)
  | .bare => if view = .schemata then schemataRows src projectId else []

end Rows

/-! ## Row sets -/

/-- The columns of a view, with their types. -/
def SchemaView.columnTypes : SchemaView → List (String × String)
  | .routines =>
    [("specific_catalog", "STRING"), ("specific_schema", "STRING"), ("specific_name", "STRING"),
      ("routine_catalog", "STRING"), ("routine_schema", "STRING"), ("routine_name", "STRING"),
      ("routine_type", "STRING"), ("language", "STRING"), ("routine_body", "STRING"),
      ("data_type", "STRING"), ("created", "TIMESTAMP"), ("last_altered", "TIMESTAMP"),
      ("ddl", "STRING")]
  | .materializedViews =>
    [("table_catalog", "STRING"), ("table_schema", "STRING"), ("table_name", "STRING"),
      ("last_refresh_time", "TIMESTAMP"), ("refresh_watermark", "TIMESTAMP"),
      ("enable_refresh", "BOOL"), ("refresh_interval_minutes", "INTEGER"),
      ("last_modified_time", "TIMESTAMP"), ("is_stale", "BOOL")]
  | .rowAccessPolicies =>
    [("table_catalog", "STRING"), ("table_schema", "STRING"), ("table_name", "STRING"),
      ("policy_name", "STRING"), ("grantees", "STRING"), ("filter_predicate", "STRING"),
      ("creation_time", "TIMESTAMP"), ("last_modified_time", "TIMESTAMP")]
  | .schemata =>
    [("catalog_name", "STRING"), ("schema_name", "STRING"), ("schema_owner", "STRING"),
      ("creation_time", "TIMESTAMP"), ("last_modified_time", "TIMESTAMP"), ("location", "STRING"),
      ("ddl", "STRING"), ("default_collation_name", "STRING")]
  | .tables =>
    [("table_catalog", "STRING"), ("table_schema", "STRING"), ("table_name", "STRING"),
      ("table_type", "STRING"), ("is_insertable_into", "STRING"), ("is_typed", "STRING"),
      ("creation_time", "TIMESTAMP"), ("base_table_catalog", "STRING"),
      ("base_table_schema", "STRING"), ("base_table_name", "STRING"),
      ("snapshot_time_ms", "INTEGER")]
  | .columns =>
    [("table_catalog", "STRING"), ("table_schema", "STRING"), ("table_name", "STRING"),
      ("column_name", "STRING"), ("ordinal_position", "INTEGER"), ("is_nullable", "STRING"),
      ("data_type", "STRING"), ("is_generated", "STRING"), ("generation_expression", "STRING"),
      ("is_stored", "STRING"), ("is_hidden", "STRING"), ("is_updatable", "STRING"),
      ("is_system_defined", "STRING"), ("is_partitioning_column", "STRING"),
      ("clustering_ordinal_position", "INTEGER"), ("collation_name", "STRING")]
  | .tableOptions =>
    [("table_catalog", "STRING"), ("table_schema", "STRING"), ("table_name", "STRING"),
      ("option_name", "STRING"), ("option_type", "STRING"), ("option_value", "STRING")]
  | .views =>
    [("table_catalog", "STRING"), ("table_schema", "STRING"), ("table_name", "STRING"),
      ("view_definition", "STRING"), ("check_option", "STRING"), ("use_standard_sql", "STRING")]
  | .partitions =>
    [("table_catalog", "STRING"), ("table_schema", "STRING"), ("table_name", "STRING"),
      ("partition_id", "STRING"), ("total_rows", "INTEGER"), ("total_logical_bytes", "INTEGER"),
      ("last_modified_time", "TIMESTAMP"), ("storage_tier", "STRING")]

def joined (ts : List (List Char)) : List Char := [',', ' '].intercalate ts

def parens (t : List Char) : List Char := '(' :: (t ++ [')'])

def SchemaView.columnList : List Char :=
  joined (view.columnTypes.map fun c => c.1.toList)

def nullRow : List Char :=
  "SELECT * FROM ".toList ++
    parens ("VALUES ".toList ++ parens (joined (view.columnTypes.map fun _ => "NULL".toList))) ++
    " AS v".toList ++ parens view.columnList ++ " WHERE FALSE".toList

def nullCasts : List Char :=
  "SELECT ".toList ++ joined (view.columnTypes.map fun c =>
    "CAST".toList ++ parens ("NULL AS ".toList ++ c.2.toList) ++ " AS ".toList ++ c.1.toList) ++
    " WHERE FALSE".toList

/-- A row set without rows: for the older views by a row of nulls, for the others by casts. -/
def emptyRowSet : List Char :=
  match view with
  | .routines | .materializedViews | .rowAccessPolicies => parens (nullRow view)
  | _ => parens (nullCasts view)

def rowSetOpen : List Char := '(' :: ("SELECT * FROM ".toList ++ '(' :: "VALUES ".toList)

def rowSetClose : List Char :=
  ')' :: (" AS v".toList ++ parens view.columnList ++ [')'])

def rowCells (row : List Cell) : List Cell :=
  .text ['('] :: (row.intersperse (.text [',', ' ']) ++ [.text [')']])

/-- A row set, as texts and values. -/
def rowSetCells (rows : List (List Cell)) : List Cell :=
  if rows.isEmpty then [.text (emptyRowSet view)]
  else .text rowSetOpen :: ([Cell.text [',', ' ']].intercalate (rows.map rowCells) ++
    [.text (rowSetClose view)])

/-- The text of a cell. -/
def Cell.render : Cell → List Char
  | .text t => t
  | .value v => sqlLiteral v

/-- The text of a row set. -/
def rowSet (rows : List (List Cell)) : List Char :=
  (rowSetCells view rows).flatMap Cell.render

/-! ## The passes -/

section Consumes

variable {t rest : List Char}

theorem skipTick_suffix (t : List Char) : skipTick t <:+ t := by
  cases t with
  | nil => exact suffix_rfl
  | cons c t =>
    rw [skipTick]
    split_ifs
    · exact suffix_cons c t
    · exact suffix_rfl

theorem suffix_of_readWord : ∀ {word t rest : List Char}, readWord word t = some rest → rest <:+ t
  | [], t, rest, h => by
    rw [readWord] at h
    exact some.inj h ▸ suffix_rfl
  | k :: word, [], rest, h => by cases h
  | k :: word, c :: t, rest, h => by
    rw [readWord] at h
    split_ifs at h
    exact (suffix_of_readWord h).trans (suffix_cons c t)

theorem suffix_of_readGap (h : readGap t = some rest) : rest <:+ t := by
  unfold readGap at h
  split at h
  · cases h
  rename_i c s hs
  split_ifs at h
  have hsu : c :: s <:+ t := hs ▸ dropWhile_suffix isBlank
  rw [← some.inj h]
  exact (dropWhile_suffix isBlank).trans ((suffix_cons c s).trans hsu)

theorem suffix_of_readQualifier {name : List Char} (h : readQualifier t = some (name, rest)) :
    rest <:+ t := by
  simp only [readQualifier, readName, bind_eq_bind, bind_eq_some_iff] at h
  obtain ⟨⟨n', s⟩, hn, s', hg, h⟩ := h
  split_ifs at hn
  cases hn
  cases h
  exact (suffix_of_readGap hg).trans ((skipTick_suffix _).trans
    ((dropWhile_suffix isNameChar).trans (skipTick_suffix t)))

variable {view : SchemaView}

theorem suffix_of_readView (h : readView view t = some rest) :
    ∃ m, m ≠ [] ∧ t = m ++ rest := by
  simp only [readView, bind_eq_bind, bind_eq_some_iff] at h
  obtain ⟨s, hw, s', hg, s'', hn, h⟩ := h
  have hs : rest <:+ s := some.inj h ▸ (skipTick_suffix s'').trans
    ((suffix_of_readWord hn).trans (suffix_of_readGap hg))
  cases t with
  | nil => cases hw
  | cons c t =>
    rw [show "INFORMATION_SCHEMA".toList = 'I' :: "NFORMATION_SCHEMA".toList from rfl,
      readWord] at hw
    split_ifs at hw
    obtain ⟨m, hm⟩ := hs.trans (suffix_of_readWord hw)
    exact ⟨c :: m, cons_ne_nil c m, by rw [← hm]; rfl⟩

theorem consumes_of_suffix {s : List Char} (hs : s <:+ t)
    (h : ∃ m, m ≠ [] ∧ s = m ++ rest) : ∃ m, m ≠ [] ∧ t = m ++ rest := by
  obtain ⟨l, rfl⟩ := hs
  obtain ⟨m, hn, rfl⟩ := h
  exact ⟨l ++ m, by simp [hn], (append_assoc l m rest).symm⟩

theorem exists_readView {f : Form} {scope : SchemaScope}
    (h : readReference view f t = some (scope, rest)) :
    ∃ s, s <:+ t ∧ readView view s = some rest := by
  cases f with
  | projectDs =>
    simp only [readReference, bind_eq_bind, bind_eq_some_iff] at h
    obtain ⟨q, hq, q', hq', s, hv, h⟩ := h
    cases h
    exact ⟨_, (suffix_of_readQualifier hq').trans (suffix_of_readQualifier hq), hv⟩
  | ds =>
    simp only [readReference, bind_eq_bind, bind_eq_some_iff] at h
    obtain ⟨q, hq, s, hv, h⟩ := h
    cases h
    exact ⟨_, suffix_of_readQualifier hq, hv⟩
  | bare =>
    simp only [readReference, bind_eq_bind, bind_eq_some_iff] at h
    obtain ⟨s, hv, h⟩ := h
    cases h
    exact ⟨_, suffix_rfl, hv⟩

/-- A match is not empty. -/
theorem readReference_consumes {f : Form} {scope : SchemaScope}
    (h : readReference view f t = some (scope, rest)) : ∃ m, m ≠ [] ∧ t = m ++ rest := by
  obtain ⟨s, hs, hv⟩ := exists_readView h
  exact consumes_of_suffix hs (suffix_of_readView hv)

end Consumes

/-- The patterns in their order. -/
def stages : List (SchemaView × Form) :=
  [.routines, .materializedViews, .rowAccessPolicies, .schemata, .tables, .columns, .tableOptions,
    .views, .partitions].flatMap fun view => [(view, .projectDs), (view, .ds), (view, .bare)]

section Expand

variable (src : CatalogSource) (projectId : String)

/-- The substitution of a pattern. -/
def schemaPass (stage : SchemaView × Form) : Pass Char SchemaScope where
  read := readReference stage.1 stage.2
  consumes := readReference_consumes
  render scope := rowSet stage.1 (rowsOf src projectId stage.1 scope)

/-- References to the information schema are replaced. No pattern matches a text without the
name of the schema, which the code returns at once. -/
def expandInformationSchemaText (bqSql : List Char) : List Char :=
  runPasses (stages.map (schemaPass src projectId)) bqSql

end Expand

end Bqemulator
