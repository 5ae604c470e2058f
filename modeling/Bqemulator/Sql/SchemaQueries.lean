import Bqemulator.Sql.SchemaExpansion

/-!
# What an expanded query is read as

A query is a row of texts and of references to the information schema. A text is expanded by all
patterns, a reference by its own, and its row set by the later ones. The result is the query with
row sets of the catalog's values exactly if no pattern matches in a text, and every value is read as
it is written.
-/

namespace Bqemulator

open List Option

open Text (singleQuote)

/-! ## Queries -/

variable (stage : SchemaView × Form)

def earlier : List (SchemaView × Form) :=
  stages.takeWhile (· ≠ stage)

def later : List (SchemaView × Form) :=
  (stages.dropWhile (· ≠ stage)).tail

/-- A pattern matches somewhere in a text. -/
def Matches (t : List Char) : Prop :=
  ∃ s, s <:+ t ∧ readReference stage.1 stage.2 s ≠ none

instance (stage : SchemaView × Form) (t : List Char) : Decidable (Matches stage t) :=
  decidable_of_iff (∃ s ∈ t.tails, readReference stage.1 stage.2 s ≠ none) <| by
    simp [Matches]

/-- **A reference**: a text that its pattern matches as a whole, and no pattern before it inside. -/
structure SchemaReference where
  stage : SchemaView × Form
  scope : SchemaScope
  text : List Char
  reads : readReference stage.1 stage.2 text = some (scope, [])
  alone : ∀ other ∈ earlier stage, ¬ Matches other text

/-- The parts of a query. -/
inductive Segment where
  | verbatim (t : List Char)
  | reference (r : SchemaReference)

def Segment.text : Segment → List Char
  | .verbatim t => t
  | .reference r => r.text

/-- **A query**: its parts, with borders between them. -/
structure SchemaQuery where
  segments : List Segment
  separated : AllSeparated (segments.map Segment.text)

def SchemaQuery.text (q : SchemaQuery) : List Char := (q.segments.map Segment.text).flatten

/-! ## Reading -/

def expectText : (t text : List Char) → Option (List Char)
  | [], text => some text
  | _ :: _, [] => none
  | c :: t, d :: text => if c = d then expectText t text else none

/-- How an expanded query is read. -/
def reads : List Cell → List Char → Option (List Char)
  | [], text => some text
  | .text t :: cells, text => (expectText t text).bind (reads cells)
  | .value v :: cells, text => (expectValue v text).bind (reads cells)

variable (src : CatalogSource) (projectId : String)

def Segment.meaning : Segment → List Cell
  | .verbatim t => [.text t]
  | .reference r => rowSetCells r.stage.1 (rowsOf src projectId r.stage.1 r.scope)

/-- **The expanded query is the query with row sets of the catalog's values.** -/
def ReadsAsMeant (q : SchemaQuery) : Prop :=
  reads (q.segments.flatMap (Segment.meaning src projectId))
    (expandInformationSchemaText src projectId q.text) = some []

instance (src : CatalogSource) (projectId : String) (q : SchemaQuery) :
    Decidable (ReadsAsMeant src projectId q) :=
  inferInstanceAs (Decidable (_ = some []))

/-- **A cell survives** later patterns: a value has no quote, no backslash that escapes, and no
match. -/
def Cell.Survives (stages : List (SchemaView × Form)) : Cell → Prop
  | .text _ => True
  | .value v => plain v = true ∧ ∀ stage ∈ stages, ¬ Matches stage v

instance (stages : List (SchemaView × Form)) : (x : Cell) → Decidable (x.Survives stages)
  | .text _ => inferInstanceAs (Decidable True)
  | .value v => inferInstanceAs (Decidable (plain v = true ∧ ∀ stage ∈ stages, ¬ Matches stage v))

def Segment.Survives : Segment → Prop
  | .verbatim t => ∀ stage ∈ stages, ¬ Matches stage t
  | .reference r =>
    ∀ row ∈ rowsOf src projectId r.stage.1 r.scope, ∀ x ∈ row, x.Survives (later r.stage)

instance (src : CatalogSource) (projectId : String) :
    (x : Segment) → Decidable (x.Survives src projectId)
  | .verbatim t => inferInstanceAs (Decidable (∀ stage ∈ stages, ¬ Matches stage t))
  | .reference r => inferInstanceAs (Decidable
    (∀ row ∈ rowsOf src projectId r.stage.1 r.scope, ∀ x ∈ row, x.Survives (later r.stage)))

section Reading

variable {src : CatalogSource} {projectId : String}

theorem expectText_append (t rest : List Char) : expectText t (t ++ rest) = some rest := by
  induction t with
  | nil => rfl
  | cons c t ih => rw [cons_append, expectText, if_pos rfl, ih]

variable {t u v : List Char} {P Q : Prop}

theorem expectText_of_diverges {c : Char} {t' rest : List Char} (h : Diverges c t t') :
    expectText t (t' ++ rest) = none := by
  obtain ⟨p, x, s, s', rfl, rfl, hn⟩ := h
  induction p with
  | nil => exact if_neg hn
  | cons d p ih => exact (if_pos rfl).trans ih

theorem open_schemaPasses {stages : List (SchemaView × Form)} :
    ∀ p ∈ schemaPasses src projectId stages, ∀ a, ∃ r, p.render a = '(' :: r := by
  intro p hp s
  obtain ⟨st, -, rfl⟩ := mem_map.1 hp
  exact rowSet_open st.1 _

variable (src projectId)

theorem not_matches_iff {stages : List (SchemaView × Form)} :
    (∀ p ∈ schemaPasses src projectId stages, ¬ p.Occurs t) ↔
      ∀ stage ∈ stages, ¬ Matches stage t :=
  forall_mem_map

theorem reads_append (a b : List Cell) (t : List Char) :
    reads (a ++ b) t = (reads a t).bind (reads b) := by
  induction a generalizing t with
  | nil => rfl
  | cons x a ih =>
    cases x with
    | text u =>
      show (expectText u t).bind (reads (a ++ b)) = ((expectText u t).bind (reads a)).bind (reads b)
      cases expectText u t with
      | none => rfl
      | some r => exact ih r
    | value v =>
      show (expectValue v t).bind (reads (a ++ b)) =
        ((expectValue v t).bind (reads a)).bind (reads b)
      cases expectValue v t with
      | none => rfl
      | some r => exact ih r

/-- **A text is read as cells exactly under a condition**, whatever comes after it. -/
def ReadsIff (cells : List Cell) (t : List Char) (P : Prop) : Prop :=
  ∀ rest r, reads cells (t ++ rest) = some r ↔ P ∧ r = rest

namespace ReadsIff

theorem nil : ReadsIff [] [] True := by
  intro rest r
  simp [reads, eq_comm]

theorem append {a b : List Cell} (ha : ReadsIff a t P) (hb : ReadsIff b u Q) :
    ReadsIff (a ++ b) (t ++ u) (P ∧ Q) := by
  intro rest r
  rw [reads_append, append_assoc, bind_eq_some_iff]
  constructor
  · rintro ⟨s, hs, hr⟩
    obtain ⟨hP, rfl⟩ := (ha _ _).1 hs
    obtain ⟨hQ, rfl⟩ := (hb _ _).1 hr
    exact ⟨⟨hP, hQ⟩, rfl⟩
  · rintro ⟨⟨hP, hQ⟩, rfl⟩
    exact ⟨u ++ r, (ha _ _).2 ⟨hP, rfl⟩, (hb _ _).2 ⟨hQ, rfl⟩⟩

theorem congr {a : List Cell} (h : ReadsIff a t P) (hi : P ↔ Q) : ReadsIff a t Q := by
  intro rest r
  rw [h rest r, hi]

theorem flatten {ι : Type} {c : ι → List Cell} {text : ι → List Char} {P : ι → Prop}
    (h : ∀ i, ReadsIff (c i) (text i) (P i)) : ∀ is : List ι,
    ReadsIff (is.flatMap c) (is.map text).flatten (∀ i ∈ is, P i)
  | [] => nil.congr (by simp)
  | i :: is => ((h i).append (flatten h is)).congr (by simp)

end ReadsIff

theorem readsIff_text (h : ∀ rest r, expectText t (u ++ rest) = some r ↔ P ∧ r = rest) :
    ReadsIff [.text t] u P := by
  intro rest r
  rw [← h rest r]
  show (expectText t (u ++ rest)).bind some = some r ↔ _
  rw [bind_fun_some]

theorem readsIff_cell (stages : List (SchemaView × Form)) (x : Cell) :
    ReadsIff [x] (x.after (schemaPasses src projectId stages)) (x.Survives stages) := by
  cases x with
  | text t =>
    apply readsIff_text
    intro rest r
    rw [Cell.after, expectText_append, some.injEq]
    exact ⟨fun h => ⟨trivial, h.symm⟩, fun h => h.2.symm⟩
  | value v =>
    intro rest r
    have hq : isStop singleQuote = true := by decide
    have hp : isStop '(' = true := by decide
    rw [Cell.Survives, ← not_matches_iff src projectId, Cell.after, cons_append, append_assoc]
    show (expectValue v _).bind some = some r ↔ _
    rw [bind_fun_some]
    exact expectValue_runPasses_iff (stops_schemaPasses rfl hq)
      (stops_schemaPasses rfl hp) open_schemaPasses

theorem readsIff_cells (stages : List (SchemaView × Form)) (c : List Cell) :
    ReadsIff c (c.flatMap (Cell.after (schemaPasses src projectId stages)))
      (∀ x ∈ c, x.Survives stages) := by
  have h := ReadsIff.flatten (readsIff_cell src projectId stages) c
  rwa [flatMap_singleton', ← flatMap_def] at h

/-! ## References -/

omit src projectId in
theorem stages_eq : stages = earlier stage ++ stage :: later stage := by
  obtain ⟨v, f⟩ := stage
  cases v <;> cases f <;> rfl

theorem value_mem_intersperse {sep : List Char} : ∀ {row : List Cell},
    .value v ∈ row.intersperse (.text sep) ↔ .value v ∈ row
  | [] => Iff.rfl
  | [_] => Iff.rfl
  | x :: y :: row => by
    rw [intersperse_cons_cons, mem_cons, mem_cons, value_mem_intersperse,
      mem_cons]
    simp

theorem value_mem_rowCells {row : List Cell} : .value v ∈ rowCells row ↔ .value v ∈ row := by
  simp [rowCells, value_mem_intersperse]

theorem value_mem_intercalate : ∀ {rows : List (List Cell)},
    .value v ∈ [Cell.text [',', ' ']].intercalate (rows.map rowCells) ↔
      ∃ row ∈ rows, .value v ∈ row
  | [] => by simp
  | [row] => by simp [value_mem_rowCells]
  | row :: r' :: rows => by
    rw [map_cons, map_cons, intercalate_cons_cons, ← map_cons, mem_append,
      mem_append, value_mem_rowCells, value_mem_intercalate]
    simp

theorem value_mem_rowSetCells {view : SchemaView} {rows : List (List Cell)} :
    .value v ∈ rowSetCells view rows ↔ ∃ row ∈ rows, .value v ∈ row := by
  cases rows with
  | nil => simp [rowSetCells]
  | cons =>
    rw [rowSetCells, if_neg (by simp), mem_cons, mem_append, value_mem_intercalate]
    simp

/-- What becomes of a reference. -/
theorem expand_reference (ht : ∀ t, '_' ∉ (src.formatTime t).toList) (r : SchemaReference) :
    runPasses (schemaPasses src projectId stages) r.text =
      (rowSetCells r.stage.1 (rowsOf src projectId r.stage.1 r.scope)).flatMap
        (Cell.after (schemaPasses src projectId (later r.stage))) := by
  have ha : ∀ p ∈ schemaPasses src projectId (earlier r.stage), ¬ p.Occurs r.text :=
    (not_matches_iff src projectId).2 r.alone
  have ho : (schemaPass src projectId r.stage).substitute r.text =
      rowSet r.stage.1 (rowsOf src projectId r.stage.1 r.scope) := by
    rw [Pass.substitute_of_some r.reads, Pass.substitute_nil, append_nil]
    rfl
  have hs : schemaPasses src projectId stages = schemaPasses src projectId (earlier r.stage) ++
      schemaPass src projectId r.stage :: schemaPasses src projectId (later r.stage) := by
    rw [schemaPasses, stages_eq r.stage, map_append, map_cons]
    rfl
  rw [hs, runPasses_append, runPasses_of_not_occurs ha, runPasses_cons, ho]
  exact runPasses_rowSet rfl (plain_rowsOf ht projectId r.stage.1 r.scope)

theorem readsIff_segment (ht : ∀ t, '_' ∉ (src.formatTime t).toList) (x : Segment) :
    ReadsIff (x.meaning src projectId) (runPasses (schemaPasses src projectId stages) x.text)
      (x.Survives src projectId) := by
  cases x with
  | verbatim t =>
    apply readsIff_text
    intro rest r
    rw [Segment.Survives, ← not_matches_iff src projectId]
    rcases runPasses_eq_or_diverges (stops_schemaPasses rfl (c := '(') (by decide))
      open_schemaPasses t with ⟨hn, heq⟩ | ⟨⟨p, hp, ho⟩, hd⟩
    · rw [Segment.text, heq, expectText_append, some.injEq]
      exact ⟨fun h => ⟨hn, h.symm⟩, fun h => h.2.symm⟩
    · rw [Segment.text, expectText_of_diverges hd]
      exact ⟨nofun, fun h => absurd ho (h.1 p hp)⟩
  | reference r =>
    rw [Segment.text, expand_reference src projectId ht]
    apply (readsIff_cells src projectId (later r.stage) _).congr
    constructor
    · intro h row hr x hx
      cases x with
      | text t => trivial
      | value v => exact h (.value v) (value_mem_rowSetCells.2 ⟨row, hr, hx⟩)
    intro h x hx
    cases x with
    | text t => trivial
    | value v =>
      obtain ⟨row, hr, hv⟩ := value_mem_rowSetCells.1 hx
      exact h row hr (.value v) hv

end Reading

/-- **An expanded query is the query with row sets of the catalog's values iff no pattern matches
outside the references, and no value has a quote, a backslash that escapes or a match of a later
pattern.** Texts of times have no underscore. -/
theorem expansion_reads_iff {src : CatalogSource} (htime : ∀ t, '_' ∉ (src.formatTime t).toList)
    (projectId : String) (q : SchemaQuery) :
    ReadsAsMeant src projectId q ↔ ∀ x ∈ q.segments, x.Survives src projectId := by
  have hf : expandInformationSchemaText src projectId q.text = _ :=
    runPasses_flatten q.separated
  rw [List.map_map, Function.comp_def] at hf
  have hr := ReadsIff.flatten (readsIff_segment src projectId htime) q.segments [] []
  rw [append_nil] at hr
  rw [ReadsAsMeant, hf]
  exact hr.trans (and_iff_left rfl)

def policySource (filterPredicate : String) : CatalogSource where
  listRoutines _ _ := []
  listMaterializedViews _ _ := []
  listAllRowAccessPolicies :=
    [{ id := ⟨"p", "d", "t"⟩, policyId := "r", filterPredicate, grantees := ["g"] }]
  listDatasets _ := []
  listTables _ _ := []
  listViews _ _ := []
  listPartitions _ _ _ := []
  formatTime _ := "2024-01-01"
  formatDays _ := "2024-01-01"

def policiesReference : SchemaReference where
  stage := (.rowAccessPolicies, .ds)
  scope := .ds ['d']
  text := "d.INFORMATION_SCHEMA.ROW_ACCESS_POLICIES".toList
  reads := by decide +kernel
  alone := by decide +kernel

def policiesQuery : SchemaQuery where
  segments := [.verbatim "SELECT * FROM ".toList, .reference policiesReference]
  separated := by
    refine ⟨⟨?_, ?_, ?_⟩, ⟨?_, ?_, ?_⟩, trivial⟩ <;> (try unfold Closed) <;> decide +kernel

theorem expansion_reads_plainPolicy :
    ReadsAsMeant (policySource "x = 1") "p" policiesQuery :=
  have ht : '_' ∉ "2024-01-01".toList := by decide
  (expansion_reads_iff (fun _ => ht) "p" policiesQuery).2 (by decide +kernel)

/-- **Filters that are read differently**: one with a quoted word, and one with the name of another
view, replaced inside the literal. -/
theorem expansion_not_reads_filters :
    ¬ ReadsAsMeant (policySource (String.ofList ['x', '=', singleQuote, 'a', singleQuote])) "p"
        policiesQuery ∧
      ¬ ReadsAsMeant (policySource "x IN d.INFORMATION_SCHEMA.VIEWS") "p" policiesQuery := by
  decide +kernel

end Bqemulator
