import Bqemulator.Sql.SchemaBorders

/-!
# Row sets under later patterns

The row set of a reference is searched by the later patterns. They match in its values only: the
other texts do not have the name of the schema, and parentheses, commas and quotes are part of no
match.
-/

namespace Bqemulator

open Cell List

open Text (singleQuote)

/-! ## Texts without the name of the schema -/

/-- The text has the name of the schema somewhere. -/
def HasSchemaName (t : List Char) : Prop :=
  ∃ s, s <:+ t ∧ readWord "INFORMATION_SCHEMA".toList s ≠ none

def hasSchemaName (t : List Char) : Bool :=
  t.tails.any fun s => (readWord "INFORMATION_SCHEMA".toList s).isSome

variable {t : List Char} {view : SchemaView} {c : Char}

theorem hasSchemaName_iff : hasSchemaName t = true ↔ HasSchemaName t := by
  simp [hasSchemaName, HasSchemaName, Option.isSome_iff_ne_none]

/-- A reference has the name of the schema. -/
theorem hasSchemaName_of_occurs {src : CatalogSource} {p : String}
    {st : SchemaView × Form} (h : (schemaPass src p st).Occurs t) :
    HasSchemaName t := by
  obtain ⟨s, hs, hr⟩ := h
  obtain ⟨v, f⟩ := st
  obtain ⟨m, hm⟩ := Option.ne_none_iff_exists'.1 hr
  obtain ⟨s', hs', hv⟩ := exists_readView hm
  refine ⟨s', hs'.trans hs, fun hn => ?_⟩
  rw [readView, hn] at hv
  cases hv

theorem not_hasSchemaName_nil : ¬ HasSchemaName [] := by
  rintro ⟨s, hs, hr⟩
  rw [suffix_nil.1 hs] at hr
  exact hr rfl

theorem hasSchemaName_cons_iff : HasSchemaName (c :: t) ↔
    readWord "INFORMATION_SCHEMA".toList (c :: t) ≠ none ∨ HasSchemaName t := by
  constructor
  · rintro ⟨s, hs, hr⟩
    rcases suffix_cons_iff.1 hs with rfl | hs
    · exact .inl hr
    · exact .inr ⟨s, hs, hr⟩
  · rintro (hr | ⟨s, hs, hr⟩)
    · exact ⟨c :: t, suffix_rfl, hr⟩
    · exact ⟨s, hs.trans (suffix_cons c t), hr⟩

variable {a b : List Char} {x : Cell}

/-- Texts joined by a symbol have the name only if one of them does. -/
theorem not_hasSchemaName_append_cons (hc : isNameChar c = false) (ha : ¬ HasSchemaName a)
    (hb : ¬ HasSchemaName b) : ¬ HasSchemaName (a ++ c :: b) := by
  induction a with
  | nil =>
    have hr := readWord_append_cons (b := b) hc isNameChar_schema []
    rw [nil_append] at hr ⊢
    rw [hasSchemaName_cons_iff, hr, not_or]
    exact ⟨fun h => h rfl, hb⟩
  | cons d a ih =>
    have hr := readWord_append_cons (b := b) hc isNameChar_schema (d :: a)
    rw [hasSchemaName_cons_iff, not_or, not_not] at ha
    rw [ha.1, cons_append] at hr
    rw [cons_append, hasSchemaName_cons_iff, hr, not_or]
    exact ⟨fun h => h rfl, ih ha.2⟩

theorem not_hasSchemaName_cons (hc : isNameChar c = false) (hb : ¬ HasSchemaName b) :
    ¬ HasSchemaName (c :: b) :=
  not_hasSchemaName_append_cons (a := []) hc not_hasSchemaName_nil hb

theorem not_hasSchemaName_parens (h : ¬ HasSchemaName t) : ¬ HasSchemaName (parens t) :=
  not_hasSchemaName_cons (by decide)
    (not_hasSchemaName_append_cons (by decide) h not_hasSchemaName_nil)

theorem not_hasSchemaName_joined : ∀ {ts : List (List Char)}, (∀ t ∈ ts, ¬ HasSchemaName t) →
    ¬ HasSchemaName (joined ts)
  | [], _ => not_hasSchemaName_nil
  | [t], h => by
    rw [joined, intercalate_singleton]
    exact h t mem_cons_self
  | t :: u :: ts, h => by
    have hr : ¬ HasSchemaName (joined (u :: ts)) :=
      not_hasSchemaName_joined fun t' ht' => h t' (mem_cons_of_mem t ht')
    have hj : joined (t :: u :: ts) = t ++ ',' :: ' ' :: joined (u :: ts) := by
      rw [joined, intercalate_cons_cons]
      simp [joined]
    rw [hj]
    exact not_hasSchemaName_append_cons (by decide) (h t mem_cons_self)
      (not_hasSchemaName_cons (by decide) hr)

theorem exists_mem_of_readWord : ∀ {word t : List Char}, readWord word t ≠ none →
    ∀ k ∈ word, ∃ c ∈ t, c.toLower = k.toLower
  | [], _, _, k, hk => by cases hk
  | _ :: _, [], h, _, _ => absurd rfl h
  | k :: word, c :: t, h, k', hk' => by
    rw [readWord] at h
    split_ifs at h with hc
    · rcases mem_cons.1 hk' with rfl | hk'
      · exact ⟨c, mem_cons_self, hc⟩
      · obtain ⟨d, hd, heq⟩ := exists_mem_of_readWord h k' hk'
        exact ⟨d, mem_cons_of_mem c hd, heq⟩
    · exact absurd rfl h

theorem eq_underscore_of_toLower (h : c.toLower = '_') : c = '_' := by
  unfold Char.toLower at h
  split at h
  · rename_i hc
    have hv := congrArg (fun d : Char => d.val.toNat) h
    simp [UInt32.le_iff_toNat_le] at hc hv
    omega
  · exact h

/-- The name of the schema has an underscore. -/
theorem not_hasSchemaName_of_notMem (h : '_' ∉ t) : ¬ HasSchemaName t := by
  rintro ⟨s, hs, hr⟩
  obtain ⟨c, hc, heq⟩ := exists_mem_of_readWord hr '_' (by decide)
  rw [eq_underscore_of_toLower heq] at hc
  exact h (hs.subset hc)

/-- No column of a view, and no type, has the name. -/
theorem not_hasSchemaName_columnTypes (v : SchemaView) : ∀ c ∈ v.columnTypes,
    hasSchemaName c.1.toList = false ∧ '_' ∉ c.2.toList := by
  cases v <;> decide +kernel

theorem not_hasSchemaName_column {c : String × String} (h : c ∈ view.columnTypes) :
    ¬ HasSchemaName c.1.toList := by
  rw [← hasSchemaName_iff, (not_hasSchemaName_columnTypes view c h).1]
  exact Bool.false_ne_true

theorem not_hasSchemaName_columnList (v : SchemaView) : ¬ HasSchemaName v.columnList := by
  apply not_hasSchemaName_joined
  intro t ht
  obtain ⟨c, hc, rfl⟩ := mem_map.1 ht
  exact not_hasSchemaName_column hc

theorem not_hasSchemaName_append_parens (ha : ¬ HasSchemaName a) (ht : ¬ HasSchemaName t)
    (hb : ¬ HasSchemaName b) : ¬ HasSchemaName (a ++ parens t ++ b) := by
  have hte : a ++ parens t ++ b = a ++ '(' :: (t ++ ')' :: b) := by simp [parens]
  rw [hte]
  exact not_hasSchemaName_append_cons (by decide) ha
    (not_hasSchemaName_append_cons (by decide) ht hb)

theorem not_hasSchemaName_nullRow (v : SchemaView) : ¬ HasSchemaName (nullRow v) := by
  have hn : ¬ HasSchemaName (joined (v.columnTypes.map fun _ => "NULL".toList)) := by
    apply not_hasSchemaName_joined
    intro t ht
    obtain ⟨c, -, rfl⟩ := mem_map.1 ht
    exact not_hasSchemaName_of_notMem (by decide)
  have hv := not_hasSchemaName_append_parens (a := "VALUES ".toList)
    (not_hasSchemaName_of_notMem (by decide)) hn not_hasSchemaName_nil
  rw [append_nil] at hv
  apply not_hasSchemaName_append_parens
  · exact not_hasSchemaName_append_parens (not_hasSchemaName_of_notMem (by decide)) hv
      (not_hasSchemaName_of_notMem (by decide))
  · exact not_hasSchemaName_columnList v
  · exact not_hasSchemaName_of_notMem (by decide)

theorem not_hasSchemaName_nullCasts (v : SchemaView) : ¬ HasSchemaName (nullCasts v) := by
  have hca : ¬ HasSchemaName (joined (v.columnTypes.map fun c =>
      "CAST".toList ++ parens ("NULL AS ".toList ++ c.2.toList) ++ " AS ".toList ++
        c.1.toList)) := by
    apply not_hasSchemaName_joined
    intro t ht
    obtain ⟨c, hc, rfl⟩ := mem_map.1 ht
    have hty : '_' ∉ "NULL AS ".toList ++ c.2.toList := by
      rw [mem_append, not_or]
      exact ⟨by decide, (not_hasSchemaName_columnTypes v c hc).2⟩
    have hn := not_hasSchemaName_append_cons (a := " AS".toList) (c := ' ') (by decide)
      (not_hasSchemaName_of_notMem (by decide)) (not_hasSchemaName_column hc)
    rw [append_assoc]
    exact not_hasSchemaName_append_parens (not_hasSchemaName_of_notMem (by decide))
      (not_hasSchemaName_of_notMem hty) hn
  have hs := not_hasSchemaName_append_cons (a := "SELECT".toList) (c := ' ') (by decide)
    (not_hasSchemaName_of_notMem (by decide)) hca
  exact not_hasSchemaName_append_cons (c := ' ') (b := "WHERE FALSE".toList) (by decide) hs
    (not_hasSchemaName_of_notMem (by decide))

/-- A row set without rows does not have the name. -/
theorem not_hasSchemaName_emptyRowSet (v : SchemaView) : ¬ HasSchemaName (emptyRowSet v) := by
  have hr := not_hasSchemaName_parens (not_hasSchemaName_nullRow v)
  have hc := not_hasSchemaName_parens (not_hasSchemaName_nullCasts v)
  cases v with
  | routines | materializedViews | rowAccessPolicies => exact hr
  | schemata | tables | columns | tableOptions | views | partitions => exact hc

/-! ## The cells of a row set -/

/-- A cell that is no value does not have the name of the schema. -/
def Cell.Plain : Cell → Prop
  | .text t => ¬ HasSchemaName t
  | .value _ => True

namespace Cell

@[simp] theorem plain_null : Cell.Plain .null := not_hasSchemaName_of_notMem (by decide)

@[simp] theorem plain_value (v : List Char) : Cell.Plain (.value v) := trivial

@[simp] theorem plain_literal (s : String) : Cell.Plain (.literal s) := trivial

@[simp] theorem plain_literal? (s : Option String) : Cell.Plain (.literal? s) := by
  cases s with
  | none => exact plain_null
  | some s => trivial

@[simp] theorem plain_bool (b : Bool) : Cell.Plain (.bool b) := by
  cases b <;> exact not_hasSchemaName_of_notMem (by decide)

theorem underscore_notMem_toString (n : Nat) : '_' ∉ (toString n).toList := by
  rw [Nat.toString_eq_ofList_toDigits, String.toList_ofList]
  exact Nat.underscore_not_in_toDigits

@[simp] theorem plain_number (n : Int) : Cell.Plain (.number n) := by
  apply not_hasSchemaName_of_notMem
  cases n with
  | ofNat n => exact underscore_notMem_toString n
  | negSucc n =>
    have ht : toString (Int.negSucc n) = "-" ++ toString (n + 1) := rfl
    rw [ht, String.toList_append, mem_append, not_or]
    exact ⟨by decide, underscore_notMem_toString (n + 1)⟩

@[simp] theorem plain_number? (n : Option Int) : Cell.Plain (n.elim .null .number) := by
  cases n with
  | none => exact plain_null
  | some n => exact plain_number n

end Cell

section Rows

variable {src : CatalogSource} (htime : ∀ t, '_' ∉ (src.formatTime t).toList)

include htime

theorem plain_tsLiteral (t : Time) : (tsLiteral src t).Plain := by
  apply not_hasSchemaName_of_notMem
  simp only [mem_append, mem_cons, not_or]
  exact ⟨by decide, by decide, ⟨htime t, by decide⟩, by decide⟩

theorem plain_datasetRows (view : SchemaView) (project dataset : String) :
    ∀ row ∈ datasetRows src view project dataset, ∀ c ∈ row, c.Plain := by
  have hts := plain_tsLiteral htime
  intro row hr
  cases view with
  | routines =>
    obtain ⟨r, -, rfl⟩ := mem_map.1 hr
    have ht : (renderBqType r.typeKind).Plain := by
      unfold renderBqType
      split
      · exact plain_null
      · split_ifs
        · exact plain_null
        · trivial
    simp [ht, hts]
  | materializedViews =>
    obtain ⟨v, -, rfl⟩ := mem_map.1 hr
    simp [hts]
  | rowAccessPolicies =>
    obtain ⟨p, -, rfl⟩ := mem_map.1 hr
    simp [hts]
  | schemata =>
    obtain ⟨d, -, rfl⟩ := mem_map.1 hr
    simp [hts]
  | tables =>
    obtain ⟨t, -, rfl⟩ := mem_map.1 hr
    have hb : ∀ c ∈ splitBaseTable t.baseTable, c.Plain := by
      unfold splitBaseTable
      split
      · simp
      · split
        · simp
        · split <;> simp
    simp only [forall_mem_append, forall_mem_cons, not_mem_nil, false_implies,
      implies_true, plain_literal, plain_number?, hts, true_and, and_true]
    exact hb
  | columns =>
    obtain ⟨t, -, hr⟩ := mem_flatMap.1 hr
    obtain ⟨⟨f, i⟩, -, rfl⟩ := mem_map.1 hr
    simp
  | tableOptions =>
    obtain ⟨t, -, hr⟩ := mem_flatMap.1 hr
    obtain ⟨o, -, rfl⟩ := mem_map.1 hr
    simp
  | views =>
    obtain ⟨v, -, rfl⟩ := mem_map.1 hr
    simp
  | partitions =>
    obtain ⟨t, -, hr⟩ := mem_flatMap.1 hr
    obtain ⟨p, -, rfl⟩ := mem_map.1 hr
    simp [hts]

/-- The rows of the views are made of plain cells. -/
theorem plain_rowsOf (p : String) (v : SchemaView) (s : SchemaScope) :
    ∀ row ∈ rowsOf src p v s, ∀ c ∈ row, c.Plain := by
  cases s with
  | projectDs | ds => exact plain_datasetRows htime v _ _
  | bare =>
    rw [rowsOf]
    split_ifs
    · exact plain_datasetRows htime .schemata p ""
    · exact fun _ h => by cases h

end Rows

/-! ## Row sets under the later patterns -/

/-- A cell after passes that match in values only. -/
def Cell.after {α : Type} (passes : List (Pass Char α)) : Cell → List Char
  | .text t => t
  | .value v => singleQuote :: (runPasses passes (v.flatMap doubled) ++ [singleQuote])

/-- The passes for the references after the present one. -/
def schemaPasses (src : CatalogSource) (projectId : String) (later : List (SchemaView × Form)) :
    List (Pass Char SchemaScope) :=
  later.map (schemaPass src projectId)

section Passes

variable {src : CatalogSource} {projectId : String} {later : List (SchemaView × Form)}
  {passes : List (Pass Char SchemaScope)} (hpasses : passes = schemaPasses src projectId later)

include hpasses

/-- No reference has a parenthesis, a comma or a quote. -/
theorem stops_schemaPasses (h : isStop c = true) : ∀ p ∈ passes, p.Stops c := by
  rw [hpasses]
  intro p hp
  obtain ⟨s, -, rfl⟩ := mem_map.1 hp
  exact stops_of_isStop h

/-- A text without the name is left as it is. -/
theorem runPasses_of_not_hasSchemaName (h : ¬ HasSchemaName t) : runPasses passes t = t := by
  rw [hpasses]
  apply runPasses_of_not_occurs
  intro p hp ho
  obtain ⟨s, -, rfl⟩ := mem_map.1 hp
  exact h (hasSchemaName_of_occurs ho)

/-- The passes go through the two sides of a stop on their own. -/
theorem runPasses_stop (h : isStop c = true) (a b : List Char) :
    runPasses passes (a ++ c :: b) = runPasses passes a ++ c :: runPasses passes b :=
  runPasses_append_stop (stops_schemaPasses hpasses h) a b

theorem runPasses_stop_cons (h : isStop c = true) (b : List Char) :
    runPasses passes (c :: b) = c :: runPasses passes b := by
  have hs := runPasses_stop hpasses h [] b
  rwa [runPasses_of_not_hasSchemaName hpasses not_hasSchemaName_nil] at hs

theorem runPasses_blank (t : List Char) :
    runPasses passes (' ' :: t) = ' ' :: runPasses passes t := by
  rw [hpasses]
  clear hpasses
  induction later generalizing t with
  | nil => rfl
  | cons s later ih =>
    have hr : (schemaPass src projectId s).read (' ' :: t) = none :=
      read_of_not_isWord (by decide) t
    show runPasses (schemaPasses src projectId later) ((schemaPass src projectId s).substitute _) =
      _
    rw [Pass.substitute_of_none hr, ih]
    rfl

/-- The passes go into the value of a plain cell. -/
theorem runPasses_render (h : x.Plain) : runPasses passes x.render = x.after passes := by
  cases x with
  | text t => exact runPasses_of_not_hasSchemaName hpasses h
  | value v =>
    have hq : isStop singleQuote = true := by decide
    rw [render, sqlLiteral, runPasses_stop_cons hpasses hq, runPasses_stop hpasses hq,
      runPasses_of_not_hasSchemaName hpasses not_hasSchemaName_nil]
    rfl

/-- The passes go through these cells one by one. -/
def Through (passes : List (Pass Char SchemaScope)) (cells : List Cell) : Prop :=
  ∀ rest, runPasses passes (cells.flatMap render ++ rest) =
    cells.flatMap (after passes) ++ runPasses passes rest

omit hpasses in
theorem Through.append {xs ys : List Cell} (hx : Through passes xs) (hy : Through passes ys) :
    Through passes (xs ++ ys) := by
  intro r
  rw [flatMap_append, append_assoc, hx, hy, flatMap_append, append_assoc]

theorem through_stop (h : x.Plain) (hc : isStop c = true) (n : Nat) :
    Through passes [x, .text (c :: replicate n ' ')] := by
  intro r
  have ht : [x, .text (c :: replicate n ' ')].flatMap Cell.render ++ r =
      x.render ++ c :: (replicate n ' ' ++ r) := by
    simp [Cell.render]
  have hb : runPasses passes (replicate n ' ' ++ r) =
      replicate n ' ' ++ runPasses passes r := by
    induction n with
    | zero => rfl
    | succ n ih => rw [replicate_succ, cons_append, runPasses_blank hpasses,
      ih (by simp [render])]; rfl
  rw [ht, runPasses_stop hpasses hc, runPasses_render hpasses h, hb]
  simp [Cell.after]

theorem through_mark (hc : isStop c = true) (n : Nat) :
    Through passes [.text (c :: replicate n ' ')] :=
  through_stop hpasses (x := .text []) not_hasSchemaName_nil hc n

/-- The passes go through the cells of a row. -/
theorem through_cells : ∀ {row : List Cell}, (∀ c ∈ row, c.Plain) →
    Through passes (row.intersperse (.text [',', ' ']) ++ [.text [')']])
  | [], _ => through_mark hpasses (by decide) 0
  | [x], h => through_stop hpasses (h x mem_cons_self) (by decide) 0
  | x :: y :: row, h => by
    have hr := through_cells fun c hc => h c (mem_cons_of_mem x hc)
    exact (through_stop hpasses (h x mem_cons_self) (by decide) 1).append hr

theorem through_rowCells {row : List Cell} (h : ∀ c ∈ row, c.Plain) :
    Through passes (rowCells row) :=
  (through_mark hpasses (c := '(') (by decide) 0).append (through_cells hpasses h)

/-- The passes go through rows, and the marks between them. -/
theorem through_rows : ∀ {rows : List (List Cell)}, (∀ row ∈ rows, ∀ c ∈ row, c.Plain) →
    Through passes ([text [',', ' ']].intercalate (rows.map rowCells))
  | [], _ => fun _ => rfl
  | [row], h => by
    rw [map_singleton, intercalate_singleton]
    exact through_rowCells hpasses (h row mem_cons_self)
  | row :: r' :: rows, h => by
    have hre := through_rows fun r hr => h r (mem_cons_of_mem row hr)
    rw [map_cons, map_cons, intercalate_cons_cons]
    exact ((through_rowCells hpasses (h row mem_cons_self)).append
      (through_mark hpasses (by decide) 1)).append hre

theorem runPasses_open (row : List Cell) (t : List Char) :
    runPasses passes (rowSetOpen ++ ((rowCells row).flatMap render ++ t)) =
      rowSetOpen ++ runPasses passes ((rowCells row).flatMap render ++ t) := by
  have ho : ¬ HasSchemaName rowSetOpen :=
    not_hasSchemaName_of_notMem (by decide +kernel)
  have hp : isStop '(' = true := by decide
  show runPasses passes (rowSetOpen ++ '(' :: _) = rowSetOpen ++ runPasses passes ('(' :: _)
  rw [runPasses_stop hpasses hp, runPasses_of_not_hasSchemaName hpasses ho,
    runPasses_stop_cons hpasses hp]

/-- What later passes make of a row set. -/
theorem runPasses_rowSet {rows : List (List Cell)} (h : ∀ row ∈ rows, ∀ c ∈ row, c.Plain) :
    runPasses passes (rowSet view rows) = (rowSetCells view rows).flatMap (after passes) := by
  have hc : ¬ HasSchemaName (rowSetClose view) :=
    not_hasSchemaName_cons (by decide) (not_hasSchemaName_append_parens
      (not_hasSchemaName_of_notMem (by decide)) (not_hasSchemaName_columnList view)
      (not_hasSchemaName_of_notMem (by decide)))
  have hr := through_rows hpasses h (rowSetClose view)
  rw [runPasses_of_not_hasSchemaName hpasses hc] at hr
  cases rows with
  | nil =>
    show runPasses passes ([text (emptyRowSet view)].flatMap render) = _
    rw [flatMap_singleton]
    exact (runPasses_of_not_hasSchemaName hpasses (not_hasSchemaName_emptyRowSet view)).trans
      (append_nil _).symm
  | cons row rows =>
    have hce : rowSetCells view (row :: rows) = .text rowSetOpen ::
        ([text [',', ' ']].intercalate ((row :: rows).map rowCells) ++
          [.text (rowSetClose view)]) := rfl
    obtain ⟨m, hm⟩ : ∃ m, [text [',', ' ']].intercalate ((row :: rows).map rowCells) =
        rowCells row ++ m := by
      cases rows with
      | nil => exact ⟨[], by simp⟩
      | cons => exact ⟨_, by rw [map_cons, map_cons,
          intercalate_cons_cons, append_assoc]⟩
    rw [rowSet, hce, flatMap_cons, flatMap_cons, flatMap_append,
      flatMap_append, flatMap_singleton, flatMap_singleton]
    show runPasses passes (rowSetOpen ++ (_ ++ rowSetClose view)) =
      rowSetOpen ++ (_ ++ rowSetClose view)
    rw [← hr, hm, flatMap_append, append_assoc, runPasses_open hpasses]

end Passes

end Bqemulator
