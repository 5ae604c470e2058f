import Bqemulator.RowAccess.Enforcement
import Bqemulator.Sql.InnerQuery

/-!
# Answers that do not depend on hidden rows

Two databases that differ only in rows a caller may not see should give the caller the same answers.
They are compared as the final SQL reads them, leaf by leaf; a leaf that returns a hidden row to the
scanning engine tells two databases apart.
-/

namespace Bqemulator

open SyntaxTree Engine List Option Storage

variable {Row : Type}

local instance keyLawfulBEq : LawfulBEq (String × String) := inferInstance

/-! ## Databases that differ in hidden rows -/

structure Storage.AgreeOn (visible : String × String → Row → Bool) (st st' : Storage Row) :
    Prop where
  database : st.database = st'.database
  views : st.views = st'.views
  macros : st.macros = st'.macros
  rows : ∀ key, (st.get key).map (filter (visible key)) =
    (st'.get key).map (filter (visible key))

/-- The stored views are those of the catalog. -/
def Storage.ViewsFollow (cat : Catalog) (st : Storage Row) : Prop :=
  ∀ key body, st.views.lookup key = some body → ∃ id, cat.viewBody id ≠ none ∧ id.key = key

variable {t : Table} {p : Pos} {E : Engine Row} {c : Condition String}
  {modify : String → List Row → List Row}

namespace Storage

variable {visible : String × String → Row → Bool} {st st' : Storage Row}

namespace AgreeOn

variable (h : st.AgreeOn visible st')
include h

theorem resolve_eq (t : Table) : st.resolve t = st'.resolve t := by
  rw [resolve, resolve, h.database]

theorem view?_eq (t : Table) : st.view? t = st'.view? t := by
  rw [view?, view?, h.resolve_eq, h.views]

theorem get_eq {key : String × String} (ha : ∀ r, visible key r = true) :
    st.get key = st'.get key := by
  have hi : filter (visible key) = id := by
    funext rows
    exact filter_eq_self.2 fun r _ => ha r
  simpa [hi] using h.rows key

theorem rows?_eq (ha : ∀ r, visible (t.db, t.name) r = true) : st.rows? t = st'.rows? t := by
  rw [rows?, rows?, ← h.resolve_eq]
  unfold resolve
  split
  · exact h.get_eq ha
  · rfl

theorem rows?_filter :
    (st.rows? t).map (filter (visible (t.db, t.name))) =
      (st'.rows? t).map (filter (visible (t.db, t.name))) := by
  rw [rows?, rows?, ← h.resolve_eq]
  unfold resolve
  split
  · exact h.rows _
  · rfl

end AgreeOn

def filled (macros : List (String × Sql)) (keys : List (String × String)) (rows : List Row) :
    Storage Row where
  tables := keys.map fun key => (key, rows)
  macros := macros

variable (macros : List (String × Sql)) (keys : List (String × String))

theorem get_filled (rows : List Row) (key : String × String) :
    (filled macros keys rows).get key = if key ∈ keys then some rows else none := by
  unfold filled get
  induction keys with
  | nil => rfl
  | cons k keys ih =>
    rw [map_cons, lookup_cons, ih]
    by_cases hk : key = k
    · simp [hk]
    · simp [hk, beq_eq_false_iff_ne.2 hk]

theorem agreeOn_filled {r : Row} (hr : ∀ key ∈ keys, visible key r = false) :
    (filled macros keys ([] : List Row)).AgreeOn visible (filled macros keys [r]) where
  database := rfl
  views := rfl
  macros := rfl
  rows key := by
    rw [get_filled, get_filled]
    by_cases hk : key ∈ keys
    · simp [hr key hk]
    · simp [hk]

/-- The database with no rows in the tables of these names. -/
def emptied (hidden : String × String → Bool) (st : Storage Row) : Storage Row :=
  { st with tables := st.tables.map fun e => if hidden e.1 then (e.1, []) else e }

theorem get_emptied (hidden : String × String → Bool) (st : Storage Row)
    (key : String × String) :
    (st.emptied hidden).get key =
      if hidden key then (st.get key).map fun _ => [] else st.get key := by
  unfold emptied get
  induction st.tables with
  | nil => simp
  | cons e t ih =>
    rw [map_cons, lookup_cons, lookup_cons, ih]
    by_cases hk : key = e.1
    · by_cases he : hidden e.1 <;> simp [hk, he]
    · by_cases he : hidden e.1 <;> simp [he, beq_eq_false_iff_ne.2 hk]

theorem agreeOn_emptied {hidden : String × String → Bool}
    (hh : ∀ key, hidden key = true → ∀ r, visible key r = false) (st : Storage Row) :
    st.AgreeOn visible (st.emptied hidden) where
  database := rfl
  views := rfl
  macros := rfl
  rows key := by
    rw [get_emptied]
    split
    · rename_i hk
      have hn : ∀ rows : List Row, rows.filter (visible key) = [] :=
        fun rows => List.filter_eq_nil_iff.2 fun r _ => by simp [hh key hk r]
      rw [Option.map_map]
      exact congrArg (fun f => (st.get key).map f) (funext fun rows => hn rows)
    · rfl

def restrict (visible : String × String → Row → Bool) (st : Storage Row) : Storage Row :=
  { st with tables := st.tables.map fun e => (e.1, e.2.filter (visible e.1)) }

theorem get_restrict (st : Storage Row) (key : String × String) :
    (st.restrict visible).get key = (st.get key).map (filter (visible key)) := by
  unfold restrict get
  induction st.tables with
  | nil => rfl
  | cons e t ih =>
    rw [map_cons, lookup_cons, lookup_cons, ih]
    by_cases hk : key = e.1
    · simp [hk]
    · simp [beq_eq_false_iff_ne.2 hk]

theorem agreeOn_restrict (st : Storage Row) : st.AgreeOn visible (st.restrict visible) where
  database := rfl
  views := rfl
  macros := rfl
  rows key := by
    rw [get_restrict, Option.map_map]
    exact congrArg (fun f => (st.get key).map f) (funext fun rows => by simp)

theorem view?_filled (rows : List Row) (t : Table) : (filled macros keys rows).view? t = none := by
  unfold view?
  cases (filled macros keys rows).resolve t <;> rfl

theorem viewsFollow_filled (c : Catalog) (rows : List Row) :
    (filled macros keys rows).ViewsFollow c := by
  intro key body h
  cases h

theorem ViewsFollow.view?_eq_none {c : Catalog} (hf : st.ViewsFollow c)
    (hv : ∀ id : TableId, id.key = (t.db, t.name) → c.viewBody id = none) :
    st.view? t = none := by
  by_contra hs
  obtain ⟨body, hb⟩ := ne_none_iff_exists'.1 hs
  obtain ⟨key, hk, hb⟩ := bind_eq_some_iff.1 hb
  obtain ⟨id, hi, rfl⟩ := hf _ _ hb
  unfold resolve at hk
  split at hk
  · exact hi (hv id (some.inj hk).symm)
  · cases hk

theorem ViewsFollow.view?_eq_none_of_isReserved {c : Catalog} (hf : st.ViewsFollow c)
    (ht : isReserved t.db = true) : st.view? t = none := by
  refine hf.view?_eq_none fun id hk => ?_
  have ho : isReserved id.key.1 = false := isReserved_schemaName id.project id.dataset
  rw [hk] at ho
  exact absurd (ht.symm.trans ho) (by decide)

end Storage

/-- What is visible when only rows of these tables are hidden: those that are not allowed. -/
def onlyHides (keys : List (String × String)) (allowed : Row → Bool) (key : String × String)
    (r : Row) : Bool :=
  key ∉ keys || allowed r

section OnlyHides

variable {keys : List (String × String)} {allowed : Row → Bool} {key : String × String}

theorem onlyHides_mem (hk : key ∈ keys) (r : Row) : onlyHides keys allowed key r = allowed r := by
  simp [onlyHides, hk]

end OnlyHides

/-! ## Text that does not depend on hidden rows -/

section Text

variable (db : Storage Row → Prop) (truth : String → Row → Truth)
  (visible : String × String → Row → Bool)

/-- **Noninterference**: with every engine, the text at a position means the same over databases of
a class that differ in hidden rows only. -/
def NonInterferingAt (p : Pos) (v : Sql) : Prop :=
  ∀ E : Engine Row, E.truth = truth → ∀ st st' : Storage Row, db st →
    st.AgreeOn visible st' → ∀ fuel,
      foldAt E.node (E.leafValue st fuel) p v = foldAt E.node (E.leafValue st' fuel) p v

variable {db truth visible}

/-- A construct around one leaf. -/
theorem NonInterferingAt.of_leaf {n : NodeClass} {k : ArgKey} {l : Leaf}
    (h : NonInterferingAt db truth visible ((n, k) :: p) (.leaf l)) :
    NonInterferingAt db truth visible p (.node n [(k, .leaf l)]) := by
  intro E hE st st' hf ha f
  refine foldAt_congr fun y hy => ?_
  simp only [leavesAt_singleton, leavesAt_leaf, mem_singleton] at hy
  rw [hy]
  exact h E hE st st' hf ha f

/-- A statement does not depend on hidden rows when its leaves do not. -/
theorem nonInterfering_of_tryBindAt {f : Pos → Leaf → Except DomainError Sql} {s u : Sql}
    (hu : tryBindAt f p s = .ok u)
    (h : ∀ x ∈ leavesAt p s, ∀ v, f x.1 x.2 = .ok v → NonInterferingAt db truth visible x.1 v) :
    NonInterferingAt db truth visible p u := by
  obtain ⟨g, hg, rfl⟩ := tryBindAt_eq_ok_iff_exists.1 hu
  intro E hE st st' hf ha fuel
  rw [foldAt_bindAt, foldAt_bindAt]
  exact foldAt_congr fun x hx => h x hx _ (hg x hx) E hE st st' hf ha fuel

theorem NonInterferingAt.of_visible (hal : ∀ key r, visible key r = true) (p : Pos) (v : Sql) :
    NonInterferingAt db truth visible p v := by
  intro E _ st st' _ ha f
  have hg : st.get = st'.get := funext fun key => ha.get_eq (hal key)
  have hr : ∀ s, E.readLeaf st s = E.readLeaf st' s := by
    intro s
    funext p l
    cases l <;>
      simp only [readLeaf, ha.rows?_eq (hal _), ha.view?_eq, ha.macros, hg]
  have hl : E.leafValue st f = E.leafValue st' f := by
    induction f with
    | zero => exact hr _
    | succ f ih => rw [leafValue, leafValue, ih, hr]
  rw [hl]

protected theorem NonInterferingAt.table (hal : ∀ r, visible (t.db, t.name) r = true)
    (hv : ∀ st, db st → st.view? t = none) :
    NonInterferingAt db truth visible p (.leaf (.table t)) := by
  intro E _ st st' hd ha f
  have hn := hv st hd
  rw [foldAt_leaf, foldAt_leaf, leafValue_table hn,
    leafValue_table (ha.view?_eq t ▸ hn), ha.rows?_eq hal]

theorem NonInterferingAt.selectWhere_visible (hal : ∀ r, visible (t.db, t.name) r = true) :
    NonInterferingAt db truth visible p (.leaf (.selectWhere t c)) := by
  intro E _ st st' _ ha f
  rw [foldAt_leaf, foldAt_leaf, leafValue_selectWhere, leafValue_selectWhere, ha.rows?_eq hal]

/-- The filtered query over a table with policies. -/
protected theorem NonInterferingAt.selectWhere
    (hc : ∀ r, (c.holds fun a => truth a r) = visible (t.db, t.name) r)
    (hm : t.modifier = none ∨ ∀ r, visible (t.db, t.name) r = false) :
    NonInterferingAt db truth visible p (.leaf (.selectWhere t c)) := by
  intro E hE st st' hfo ha f
  have hf : ∀ rows, E.filterBy c rows = rows.filter (visible (t.db, t.name)) := by
    intro rows
    rw [filterBy, hE]
    exact filter_congr fun r _ => hc r
  have hr := ha.rows?_filter (t := t)
  rw [foldAt_leaf, foldAt_leaf, leafValue_selectWhere, leafValue_selectWhere]
  cases hs : st.rows? t with
  | none =>
    rw [hs] at hr
    rw [map_eq_none_iff.1 (hr.symm.trans (map_none ..))]
  | some rows =>
    rw [hs, map_some] at hr
    obtain ⟨r', hs', heq⟩ := map_eq_some_iff.1 hr.symm
    rw [hs']
    rcases hm with hm | hm
    · simp only [elim_some, hm, modifyBy_none, hf, heq]
    · have he : ∀ rows : List Row, rows.filter (visible (t.db, t.name)) = [] :=
        fun rows => filter_eq_nil_iff.2 fun r _ => by simp [hm r]
      simp only [elim_some, hf, he]

/-! ## Leaks -/

theorem readLeaf_scan_empty (hm : ∀ m, modify m [] = []) (macros : List (String × Sql))
    (k : List (String × String)) {s : Sql → List Row} (hs : ∀ body, s body = []) (p : Pos)
    (l : Leaf) : (scanWith truth modify).readLeaf (.filled macros k []) s p l = [] := by
  have hr : ∀ t : Table, (filled macros k ([] : List Row)).rows? t = none ∨
      (filled macros k ([] : List Row)).rows? t = some [] := by
    intro t
    unfold rows?
    cases (filled macros k ([] : List Row)).resolve t with
    | none => exact .inl rfl
    | some key =>
      rw [bind_some, get_filled]
      split
      · exact .inr rfl
      · exact .inl rfl
  have hm' : ∀ m, (scanWith truth modify).modifyBy m [] = [] := by
    intro m
    cases m with
    | none => rfl
    | some m => exact hm m
  cases l with
  | table t =>
    rw [readLeaf_table (view?_filled macros k [] t)]
    rcases hr t with h | h <;> simp [h, hm']
  | selectWhere t c =>
    rw [readLeaf_selectWhere]
    rcases hr t with h | h <;> simp [h, hm', filterBy]
  | routine catalog db name =>
    rw [readLeaf]
    split
    · cases (filled macros k ([] : List Row)).macros.lookup name with
      | none => rfl
      | some body => exact hs body
    · rfl
  | _ => rfl

theorem leafValue_scan_empty (hm : ∀ m, modify m [] = []) (macros : List (String × Sql))
    (k : List (String × String)) (fuel : Nat) (p : Pos) (l : Leaf) :
    (scanWith truth modify).leafValue (.filled macros k []) fuel p l = [] := by
  -- the induction is on the depth to which the bodies of macros are expanded
  induction fuel generalizing p l with
  | zero => exact readLeaf_scan_empty hm macros k (fun _ => rfl) p l
  | succ fuel ih =>
    refine readLeaf_scan_empty hm macros k (fun body => ?_) p l
    refine (foldAt_scanWith truth modify _ _ _).trans ?_
    exact flatMap_eq_nil_iff.2 fun x _ => ih x.1 x.2

/-- A statement does when a scan of one of its leaves returns a hidden row. -/
theorem not_nonInterfering_of_leak (modify : String → List Row → List Row)
    (hm : ∀ m, modify m [] = []) {macros : List (String × Sql)} {k : List (String × String)}
    (hd : db (.filled macros k [])) {r : Row} (hr : ∀ key ∈ k, visible key r = false)
    {u : Sql} {y : Pos × Leaf} (hy : y ∈ leavesAt [] u) (fuel : Nat)
    (hl : (scanWith truth modify).leafValue (.filled macros k [r]) fuel y.1 y.2 ≠ []) :
    ¬ NonInterferingAt db truth visible [] u := by
  intro h
  have heq := h (scanWith truth modify) rfl _ _ hd
    (agreeOn_filled macros k hr) fuel
  rw [foldAt_scanWith, foldAt_scanWith] at heq
  have he : (leavesAt [] u).flatMap (fun x => (scanWith truth modify).leafValue
      (.filled macros k []) fuel x.1 x.2) = [] :=
    flatMap_eq_nil_iff.2 fun x _ => leafValue_scan_empty hm macros k fuel x.1 x.2
  rw [he] at heq
  exact hl (flatMap_eq_nil_iff.1 heq.symm y hy)

end Text

def openContext (grantee : String) : AppContext :=
  .ofCatalog {
    tables := [{ id := ⟨"p", "d", "t"⟩ }]
    policies := [{
      id := ⟨"p", "d", "t"⟩, policyId := "all",
      filterPredicate := "TRUE", grantees := [grantee] }] }
    0 1

theorem isOrdinary_table : TableId.IsOrdinary ⟨"p", "d", "t"⟩ := ⟨by decide, by decide, by decide⟩

end Bqemulator
