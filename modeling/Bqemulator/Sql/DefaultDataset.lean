import Bqemulator.Sql.TableRewriter

/-!
# The default dataset of a query

Every table reference without a dataset that no CTE of its statement is called like is given the
job's default project and dataset; the last pass makes physical names. What a `FROM` item denotes
depends on the `WITH` clauses visible there and the items before it, but the first pass knows only
the names of all CTEs.
-/

namespace Bqemulator

open Except List

/-! ## Statements and their scopes -/

/-- A statement as its scopes see it: the `WITH` clauses, the `FROM` items and the queries
nested in them. Text without a table reference is `nothing`. -/
inductive Query (α : Type) where
  | nothing
  /-- Parts that see the same names: the branches of a set operation, the subqueries of one
  expression. -/
  | both (left right : Query α)
  /-- `WITH name AS (definition) rest`, where `rest` holds the CTEs after it and the body. -/
  | cte (name : String) (definition rest : Query α)
  /-- `WITH RECURSIVE` with its names, which all of its definitions see. -/
  | recursive (names : List String) (definitions rest : Query α)
  /-- A `SELECT`: its `FROM` items in order, then the queries in its expressions. -/
  | select (items : Query α)
  /-- A table reference, and the name that what comes after it sees it under. -/
  | item (table : α) (visibleAs : String) (rest : Query α)
  /-- A `FROM` item that is no table reference: an `UNNEST`, also of an array path that the parser
  recognises. -/
  | other (visibleAs : Option String) (rest : Query α)
  /-- A subquery as a `FROM` item. -/
  | derived (query : Query α) (visibleAs : Option String) (rest : Query α)
deriving DecidableEq

/-- The names visible at a place: the CTEs, the aliases of enclosing queries and of earlier items of
the `FROM`. -/
structure Scope where
  ctes : List String := []
  outer : List String := []
  siblings : List String := []
deriving DecidableEq

namespace Query

variable {α β γ : Type}

/-- The table nodes of a statement and the names visible at each. A definition sees no alias, a
subquery of a `FROM` not its siblings. -/
def places : Scope → Query α → List (Scope × α)
  | _, .nothing => []
  | s, .both left right => left.places s ++ right.places s
  | s, .cte name definition rest =>
    definition.places { ctes := s.ctes } ++ rest.places { s with ctes := name :: s.ctes }
  | s, .recursive names definitions rest =>
    definitions.places { ctes := names ++ s.ctes } ++
      rest.places { s with ctes := names ++ s.ctes }
  | s, .select items => items.places { s with outer := s.siblings ++ s.outer, siblings := [] }
  | s, .item table visibleAs rest =>
    (s, table) :: rest.places { s with siblings := visibleAs :: s.siblings }
  | s, .other visibleAs rest => rest.places { s with siblings := visibleAs.toList ++ s.siblings }
  | s, .derived query visibleAs rest =>
    query.places { s with siblings := [] } ++
      rest.places { s with siblings := visibleAs.toList ++ s.siblings }

def collectCteNames : Query α → List String
  | .nothing => []
  | .both left right => left.collectCteNames ++ right.collectCteNames
  | .cte name definition rest => name :: (definition.collectCteNames ++ rest.collectCteNames)
  | .recursive names definitions rest =>
    names ++ (definitions.collectCteNames ++ rest.collectCteNames)
  | .select items => items.collectCteNames
  | .item _ _ rest => rest.collectCteNames
  | .other _ rest => rest.collectCteNames
  | .derived query _ rest => query.collectCteNames ++ rest.collectCteNames

def map (f : α → β) : Query α → Query β
  | .nothing => .nothing
  | .both left right => .both (left.map f) (right.map f)
  | .cte name definition rest => .cte name (definition.map f) (rest.map f)
  | .recursive names definitions rest => .recursive names (definitions.map f) (rest.map f)
  | .select items => .select (items.map f)
  | .item table visibleAs rest => .item (f table) visibleAs (rest.map f)
  | .other visibleAs rest => .other visibleAs (rest.map f)
  | .derived query visibleAs rest => .derived (query.map f) visibleAs (rest.map f)

def tryMap {ε : Type} (f : α → Except ε β) : Query α → Except ε (Query β)
  | .nothing => .ok .nothing
  | .both left right => (left.tryMap f).bind fun l => (right.tryMap f).map (.both l)
  | .cte name definition rest =>
    (definition.tryMap f).bind fun d => (rest.tryMap f).map (.cte name d)
  | .recursive names definitions rest =>
    (definitions.tryMap f).bind fun d => (rest.tryMap f).map (.recursive names d)
  | .select items => (items.tryMap f).map .select
  | .item table visibleAs rest =>
    (f table).bind fun t => (rest.tryMap f).map (.item t visibleAs)
  | .other visibleAs rest => (rest.tryMap f).map (.other visibleAs)
  | .derived query visibleAs rest =>
    (query.tryMap f).bind fun q => (rest.tryMap f).map (.derived q visibleAs)

/-- A pass on table nodes acts at every place by itself. -/
theorem places_map (f : α → β) (q : Query α) (s : Scope) :
    (q.map f).places s = (q.places s).map (Prod.map id f) := by
  induction q generalizing s with
  | nothing => rfl
  | both _ _ ih ih' | cte _ _ _ ih ih' | recursive _ _ _ ih ih' | derived _ _ _ ih ih' =>
    simp only [map, places, ih, ih', map_append]
  | select _ ih | other _ _ ih => exact ih _
  | item t v r ih => simp only [map, places, ih, map_cons, Prod.map, id_eq]

theorem collectCteNames_map (f : α → β) (q : Query α) :
    (q.map f).collectCteNames = q.collectCteNames := by
  induction q with
  | nothing => rfl
  | both _ _ ih ih' | cte _ _ _ ih ih' | recursive _ _ _ ih ih' | derived _ _ _ ih ih' =>
    simp only [map, collectCteNames, ih, ih']
  | select _ ih | item _ _ _ ih | other _ _ ih => exact ih

theorem map_map (f : α → β) (g : β → γ) (q : Query α) :
    (q.map f).map g = q.map (g ∘ f) := by
  induction q with
  | nothing => rfl
  | both _ _ ih ih' | cte _ _ _ ih ih' | recursive _ _ _ ih ih' | derived _ _ _ ih ih' =>
    simp only [map, ih, ih']
  | select _ ih | other _ _ ih => simp only [map, ih]
  | item t v r ih => simp only [map, ih, Function.comp]

theorem tryMap_map {ε : Type} {k : α → β} {f : β → Except ε γ} {g : α → γ}
    (h : ∀ a, f (k a) = .ok (g a)) (q : Query α) : (q.map k).tryMap f = .ok (q.map g) := by
  induction q with
  | nothing => rfl
  | both _ _ ih ih' | cte _ _ _ ih ih' | recursive _ _ _ ih ih' | derived _ _ _ ih ih' =>
    simp only [map, tryMap, ih, ih', Except.bind, Except.map]
  | select _ ih | other _ _ ih => simp only [map, tryMap, ih, Except.map]
  | item t v r ih => simp only [map, tryMap, h, ih, Except.bind, Except.map]

end Query

/-! ## The two passes -/

variable (defaultProject defaultDataset : String)

def qualifyTable (shadowedNames : List String) (t : Table) : Table :=
  if t.db ≠ "" ∨ t.catalog ≠ "" then t
  else if t.name = "" ∨ t.name ∈ shadowedNames then t
  else { t with db := defaultDataset, catalog := defaultProject }

/-- The first pass: every statement of the text by itself, with the names of its own CTEs. -/
def qualifyUnqualifiedTables (statements : List (Query Table)) : List (Query Table) :=
  if defaultProject = "" ∨ defaultDataset = "" then statements
  else statements.map fun statement =>
    statement.map (qualifyTable defaultProject defaultDataset statement.collectCteNames)

/-- The last pass on the table nodes of a statement. -/
def rewriteQueryRefs (project : String) (q : Query Table) : Except DomainError (Query Table) :=
  q.tryMap (rewriteTableNode project)

/-! ## What a `FROM` item denotes -/

/-- What a `FROM` item stands for: a CTE, an array of an earlier item, a table of the engine, or
nothing. -/
inductive Denotation where
  | cte (name : String)
  | arrayPath
  | physical (schema table : String)
  | missing
deriving DecidableEq

/-- Whether a visible `WITH` clause binds a name. CTE names are compared without case. -/
def Scope.bindsCte (s : Scope) (name : String) : Bool :=
  s.ctes.any fun cte => Text.lower cte = Text.lower name

/-- Whether a name is the alias of an earlier item, which is compared without case too. -/
def Scope.seesAlias (s : Scope) (name : String) : Bool :=
  (s.siblings ++ s.outer).any fun item => Text.lower item = Text.lower name

/-- What a bare name denotes where it is left to the engine: only a CTE can answer to it. -/
def Scope.bare (s : Scope) (name : String) : Denotation :=
  if s.bindsCte name then .cte (Text.lower name) else .missing

/-- What a table node denotes in the engine: a bare name is a CTE or nothing, and no database is
called like a project. -/
def denotes (s : Scope) (t : Table) : Denotation :=
  if t.catalog ≠ "" then .missing
  else if t.db ≠ "" then .physical t.db t.name
  else s.bare t.name

abbrev NamePart := { name : String // name ≠ "" }

abbrev DatasetPart := { dataset : String // isBqDatasetId dataset = true }

/-- A table reference as it is written, by the number of its parts. -/
inductive ItemName where
  | one (name : NamePart)
  | two (dataset : DatasetPart) (name : NamePart)
  | three (project : NamePart) (dataset : DatasetPart) (name : NamePart)

namespace ItemName

def toTable : ItemName → Table
  | .one name => { name := name.1 }
  | .two dataset name => { db := dataset.1, name := name.1 }
  | .three project dataset name => { catalog := project.1, db := dataset.1, name := name.1 }

section

variable (project : String) (defaultProject : NamePart) (defaultDataset : DatasetPart)

/-- What lexical scoping gives an item: a one-part name is a visible CTE or else a table of the
default dataset, and a two-part name that begins with an alias is an array of that item. -/
def lexical (s : Scope) : ItemName → Denotation
  | .one name =>
    if s.bindsCte name.1 then .cte (Text.lower name.1)
    else .physical (schemaName defaultProject.1 defaultDataset.1) name.1
  | .two dataset name =>
    if s.seesAlias dataset.1 then .arrayPath else .physical (schemaName project dataset.1) name.1
  | .three owner dataset name => .physical (schemaName owner.1 dataset.1) name.1

/-- What the flat shadowing gives an item: a one-part name that some CTE of the statement has is
left to the engine, every other name is a table of its dataset. -/
def flat (shadowedNames : List String) (s : Scope) : ItemName → Denotation
  | .one name =>
    if name.1 ∈ shadowedNames then s.bare name.1
    else if isReserved defaultDataset.1 then .missing
    else .physical (schemaName defaultProject.1 defaultDataset.1) name.1
  | .two dataset name =>
    if isReserved dataset.1 then .physical dataset.1 name.1
    else .physical (schemaName project dataset.1) name.1
  | .three owner dataset name =>
    if isReserved dataset.1 then .missing else .physical (schemaName owner.1 dataset.1) name.1

/-- **The places at which the two agree**: a one-part name is that of a CTE of the statement just
where a visible `WITH` binds it, a two-part name does not begin with an alias, and the dataset is
not a reserved schema. -/
def Agrees (shadowedNames : List String) (s : Scope) : ItemName → Prop
  | .one name =>
    (name.1 ∈ shadowedNames ↔ s.bindsCte name.1 = true) ∧
      (s.bindsCte name.1 = false → isReserved defaultDataset.1 = false)
  | .two dataset _ => s.seesAlias dataset.1 = false ∧ isReserved dataset.1 = false
  | .three _ dataset _ => isReserved dataset.1 = false

end

end ItemName

/-! ## The passes on one item -/

def physicalTable (project : String) (t : Table) : Table :=
  if t.db = "" ∨ isReserved t.db then t
  else { t with catalog := "", db := schemaName (t.projectOr project) t.db }

/-- A node as a reference is written: bare, or in a valid dataset. -/
structure Table.IsWritten (t : Table) : Prop where
  named : t.name ≠ ""
  qualified : t.db = "" ∧ t.catalog = "" ∨ isBqDatasetId t.db = true

variable {t : Table}

theorem rewriteTableNode_of_isWritten {p : String} (h : t.IsWritten) :
    rewriteTableNode p t = .ok (physicalTable p t) := by
  rcases h.qualified with ⟨hdb, hc⟩ | hv
  · -- a bare name: no qualifier to split, nothing to rewrite
    have hp : normalizeQualifierParts t.catalog t.db = ("", "") := by
      rw [hdb, hc]
      decide
    have hr : isReserved "" = false := by decide
    rw [physicalTable, if_pos (.inl hdb)]
    simp [rewriteTableNode, hp, hr]
  · cases hr : isReserved t.db with
    | true => rw [rewriteTableNode_reserved hr, physicalTable, hr, if_pos (.inr rfl)]
    | false =>
      have hdb := ne_empty_of_isBqDatasetId hv
      have hd := dot_notMem_of_isBqDatasetId hv
      rw [rewriteTableNode_qualified hd hdb h.named hr, if_pos hv, physicalTable, if_neg]
      simp [hdb, hr]

section

variable (project : String) (defaultProject : NamePart) (defaultDataset : DatasetPart)
  (shadowed : List String)

theorem qualifyTable_of_db (h : isBqDatasetId t.db = true) :
    qualifyTable defaultProject.1 defaultDataset.1 shadowed t = t :=
  if_pos (.inl (ne_empty_of_isBqDatasetId h))

theorem qualifyTable_one (name : NamePart) :
    qualifyTable defaultProject.1 defaultDataset.1 shadowed (ItemName.one name).toTable =
      if name.1 ∈ shadowed then { name := name.1 }
      else { catalog := defaultProject.1, db := defaultDataset.1, name := name.1 } := by
  by_cases hm : name.1 ∈ shadowed <;>
    simp [ItemName.toTable, qualifyTable, hm, name.2]

theorem isWritten_qualifyTable (n : ItemName) :
    (qualifyTable defaultProject.1 defaultDataset.1 shadowed n.toTable).IsWritten := by
  cases n with
  | one name =>
    rw [qualifyTable_one]
    split
    · exact ⟨name.2, .inl ⟨rfl, rfl⟩⟩
    · exact ⟨name.2, .inr defaultDataset.2⟩
  | two d name =>
    have hd : isBqDatasetId (ItemName.two d name).toTable.db = true := d.2
    rw [qualifyTable_of_db _ _ _ hd]
    exact ⟨name.2, .inr d.2⟩
  | three owner d name =>
    have hd : isBqDatasetId (ItemName.three owner d name).toTable.db = true := d.2
    rw [qualifyTable_of_db _ _ _ hd]
    exact ⟨name.2, .inr d.2⟩

theorem denotes_physicalTable {s : Scope} (h : isBqDatasetId t.db = true) :
    denotes s (physicalTable project t) =
      if isReserved t.db then if t.catalog ≠ "" then .missing else .physical t.db t.name
      else .physical (schemaName (t.projectOr project) t.db) t.name := by
  have hd := ne_empty_of_isBqDatasetId h
  cases hr : isReserved t.db with
  | true => simp only [physicalTable, denotes, hr, hd, or_true, if_true, ne_eq, not_false_eq_true]
  | false =>
    have hs : schemaName (t.projectOr project) t.db ≠ "" := schemaName_ne_empty _ _
    simp [physicalTable, denotes, hr, hd, hs]

/-- The two passes on one `FROM` item. -/
theorem rewritten_item (s : Scope) (n : ItemName) :
    denotes s (physicalTable project
        (qualifyTable defaultProject.1 defaultDataset.1 shadowed n.toTable)) =
      n.flat project defaultProject defaultDataset shadowed s := by
  cases n with
  | one name =>
    rw [qualifyTable_one]
    by_cases hm : name.1 ∈ shadowed
    · rw [if_pos hm, ItemName.flat, if_pos hm]
      rfl
    · rw [if_neg hm, denotes_physicalTable project (by exact defaultDataset.2), ItemName.flat,
        if_neg hm]
      simp only [Table.projectOr, ne_eq, defaultProject.2, not_false_eq_true, if_true, if_false]
  | two d name =>
    have hd : isBqDatasetId (ItemName.two d name).toTable.db = true := d.2
    rw [qualifyTable_of_db _ _ _ hd, denotes_physicalTable project hd]
    rfl
  | three owner d name =>
    have hd : isBqDatasetId (ItemName.three owner d name).toTable.db = true := d.2
    rw [qualifyTable_of_db _ _ _ hd, denotes_physicalTable project hd]
    simp only [ItemName.toTable, ItemName.flat, Table.projectOr, ne_eq, owner.2,
      not_false_eq_true, if_true, if_false]

/-- The places at which the flat shadowing is the lexical one. -/
theorem flat_eq_lexical_iff (s : Scope) (n : ItemName) :
    n.flat project defaultProject defaultDataset shadowed s =
        n.lexical project defaultProject defaultDataset s ↔
      n.Agrees defaultDataset shadowed s := by
  cases n with
  | one name =>
    simp only [ItemName.flat, ItemName.lexical, ItemName.Agrees, Scope.bare]
    cases hb : s.bindsCte name.1 <;> by_cases hm : name.1 ∈ shadowed <;>
      cases hr : isReserved defaultDataset.1 <;> simp [hm]
  | two d name =>
    simp only [ItemName.flat, ItemName.lexical, ItemName.Agrees]
    cases hs : s.seesAlias d.1 with
    | true => cases hr : isReserved d.1 <;> simp
    | false =>
      cases hr : isReserved d.1 with
      | false => simp
      | true =>
        -- the physical schema of a user dataset is never a reserved one
        have hn : d.1 ≠ schemaName project d.1 := by
          intro heq
          have := isReserved_schemaName project d.1
          rw [← heq, hr] at this
          cases this
        simp [hn]
  | three owner d name =>
    simp only [ItemName.flat, ItemName.lexical, ItemName.Agrees]
    cases hr : isReserved d.1 <;> simp

end

/-! ## Whole scripts -/

/-- What the `FROM` items of a statement denote, in order, when `f` says it of each. -/
def Query.denotations {α : Type} (f : Scope → α → Denotation) (q : Query α) : List Denotation :=
  (q.places {}).map fun place => f place.1 place.2

variable (project : String)

/-- **What becomes of a statement**: after both passes its items denote what the flat shadowing
gives, which is what lexical scoping gives iff the two agree everywhere. -/
def ResolvedAs (defaultProject : NamePart) (defaultDataset : DatasetPart)
    (q : Query ItemName) (qualified : Query Table) : Prop :=
  ∃ rewritten, rewriteQueryRefs project qualified = .ok rewritten ∧
    rewritten.denotations denotes =
      q.denotations (ItemName.flat project defaultProject defaultDataset q.collectCteNames) ∧
    (rewritten.denotations denotes =
        q.denotations (ItemName.lexical project defaultProject defaultDataset) ↔
      ∀ place ∈ q.places {}, place.2.Agrees defaultDataset q.collectCteNames place.1)

theorem resolvedAs_qualified (d : NamePart)
    (dataset : DatasetPart) (q : Query ItemName) :
    ResolvedAs project d dataset q
      ((q.map ItemName.toTable).map
        (qualifyTable d.1 dataset.1 q.collectCteNames)) := by
  rw [Query.map_map]
  let final (n : ItemName) : Table := physicalTable project
    (qualifyTable d.1 dataset.1 q.collectCteNames n.toTable)
  have hf : (q.map final).denotations denotes =
      q.denotations (ItemName.flat project d dataset q.collectCteNames) := by
    rw [Query.denotations, Query.places_map, map_map]
    apply map_congr_left
    intro p _
    exact rewritten_item project d dataset q.collectCteNames _ _
  refine ⟨q.map final, Query.tryMap_map (fun n => ?_) q, hf, ?_⟩
  · exact rewriteTableNode_of_isWritten (isWritten_qualifyTable _ _ _ n)
  · rw [hf, Query.denotations, Query.denotations, map_inj_left]
    exact forall₂_congr fun p _ => flat_eq_lexical_iff project _ _ _ _ _

/-- **The `FROM` items of a script**: after both passes a one-part name that a CTE anywhere in its
statement has is left bare, every other name is a physical table, and each statement is treated by
itself. -/
theorem from_items_resolved (defaultProject : NamePart)
    (defaultDataset : DatasetPart) (script : List (Query ItemName)) :
    List.Forall₂ (ResolvedAs project defaultProject defaultDataset) script
      (qualifyUnqualifiedTables defaultProject.1 defaultDataset.1
        (script.map (Query.map ItemName.toTable))) := by
  have hd := ne_empty_of_isBqDatasetId defaultDataset.2
  rw [qualifyUnqualifiedTables, if_neg (by simp [defaultProject.2, hd]), map_map]
  rw [forall₂_map_right_iff, forall₂_same]
  intro q _
  simp only [Function.comp, Query.collectCteNames_map]
  exact resolvedAs_qualified project defaultProject defaultDataset q

def selectFromOne (name : NamePart) : Query ItemName :=
  .select (.item (.one name) name.1 .nothing)

/-- `WITH products AS (SELECT … FROM products) SELECT … FROM products`: the definition reads the
table of the default dataset, but its name is left bare and denotes nothing there. -/
theorem from_items_own_definition :
    let products : NamePart := ⟨"products", by decide⟩
    let q := Query.cte "products" (selectFromOne products) (selectFromOne products)
    let defaultProject : NamePart := ⟨"p", by decide⟩
    let defaultDataset : DatasetPart := ⟨"d", by decide⟩
    ((qualifyUnqualifiedTables "p" "d" [q.map ItemName.toTable]).map fun statement =>
        (rewriteQueryRefs "p" statement).map (Query.denotations denotes)) =
      [.ok [.missing, .cte "products"]] ∧
    q.denotations (ItemName.lexical "p" defaultProject defaultDataset) =
      [.physical "p__d" "products", .cte "products"] := by
  decide +kernel

end Bqemulator
