import Bqemulator.Versioning.MaterializedViews

/-!
# Freshness of materialized views

A query over materialized views returns what it would return over the current base tables, if every
one names the base tables it reads, and reads no other, and every query names those it reads.
Otherwise changes are not told, or views are not refreshed.
-/

namespace Bqemulator

open Derived List MvWorld Option

open Derived (Ranked Reaches)

variable {Row : Type} {E : ViewEngine Row} {depth : Nat} {r : TableId → Nat} {w w' : MvWorld Row}
  {w'' : MvWorld Row} {mv : MaterializedViewMeta} {request : MvRequest Row}

namespace MvWorld

/-! ## Graphs -/

/-- **A statement that names the base tables it reads**: what it reads through views is a base table
that it names. -/
def Flat (E : ViewEngine Row) (w : MvWorld Row) (b : String × Sql) : Prop :=
  ∀ i, Reaches E.semantics w.viewBody (references b.2 b.1) i → w.viewBody i = none →
    w.mvBody i = none ∧ i ∈ references b.2 b.1

/-- **A statement that names the materialized views it reads** through views. -/
def Direct (E : ViewEngine Row) (w : MvWorld Row) (b : String × Sql) : Prop :=
  ∀ i, Reaches E.semantics w.viewBody (references b.2 b.1) i → (w.mvBody i).isSome →
    i ∈ references b.2 b.1

/-- **The materialized views are registered**: as tables of their type, with handlers for the tables
they name. -/
structure Registered (w : MvWorld Row) : Prop where
  tableType : ∀ id mv, w.catalog.mviews.get? id = some mv →
    (w.catalog.getTable id).map TableMeta.tableType = some .materializedView
  baseTables : ∀ id mv, w.catalog.mviews.get? id = some mv →
    mv.baseTables = references mv.viewQuery id.project
  subscribed : ∀ id mv, w.catalog.mviews.get? id = some mv → ⟨id, mv.baseTables⟩ ∈ w.handlers

/-- The catalog is in order, and the views that are not stale have the rows they should have. -/
def UpToDate (E : ViewEngine Row) (depth : Nat) (w : MvWorld Row) : Prop :=
  ∀ id mv, w.catalog.mviews.get? id = some mv → mv.isStale = false →
    w.stored id = E.eval (id.project, mv.viewQuery) (w.current E depth)

/-- The views of two states are the same. -/
structure SameGraph (w w' : MvWorld Row) : Prop where
  shapes : SameShapes w.catalog w'.catalog
  mviews : ∀ id, (w'.catalog.mviews.get? id).map (fun mv => (mv.viewQuery, mv.baseTables)) =
    (w.catalog.mviews.get? id).map fun mv => (mv.viewQuery, mv.baseTables)
  handlers : w'.handlers = w.handlers

namespace SameGraph

theorem refl (w : MvWorld Row) : SameGraph w w :=
  ⟨fun _ => rfl, fun _ => rfl, rfl⟩

section

variable (h : SameGraph w w')

include h

theorem trans (h' : SameGraph w' w'') : SameGraph w w'' where
  shapes id := (h'.shapes id).trans (h.shapes id)
  mviews id := (h'.mviews id).trans (h.mviews id)
  handlers := h'.handlers.trans h.handlers

theorem viewBody : w'.viewBody = w.viewBody :=
  funext h.shapes.viewBody

theorem mvBody : w'.mvBody = w.mvBody := by
  funext id
  have hi := congrArg (Option.map fun p : Sql × List TableId => (id.project, p.1)) (h.mviews id)
  rw [Option.map_map, Option.map_map] at hi
  exact hi

theorem body : w'.body = w.body := by
  funext id
  rw [MvWorld.body, h.viewBody, h.mvBody, MvWorld.body]

theorem get? {id : TableId} (hm : w'.catalog.mviews.get? id = some mv) :
    ∃ old, w.catalog.mviews.get? id = some old ∧ mv.viewQuery = old.viewQuery ∧
      mv.baseTables = old.baseTables := by
  have hi := h.mviews id
  rw [hm, map_some, eq_comm, map_eq_some_iff] at hi
  obtain ⟨old, ho, hs⟩ := hi
  obtain ⟨hq, hb⟩ := Prod.mk.inj hs
  exact ⟨old, ho, hq.symm, hb.symm⟩

theorem registered (hw : w.Registered) : w'.Registered where
  tableType := by
    intro id mv hm
    obtain ⟨o, ho, -, -⟩ := h.get? hm
    rw [h.shapes.tableType]
    exact hw.tableType id o ho
  baseTables := by
    intro id mv hm
    obtain ⟨o, ho, hq, hb⟩ := h.get? hm
    rw [hq, hb]
    exact hw.baseTables id o ho
  subscribed := by
    intro id mv hm
    obtain ⟨o, ho, -, hb⟩ := h.get? hm
    rw [h.handlers, hb]
    exact hw.subscribed id o ho

theorem flat {b : String × Sql} (hf : w.Flat E b) : w'.Flat E b := by
  unfold Flat
  rw [h.viewBody, h.mvBody]
  exact hf

theorem direct {b : String × Sql} (hd : w.Direct E b) : w'.Direct E b := by
  unfold Direct
  rw [h.viewBody, h.mvBody]
  exact hd

end

end SameGraph

variable {id : TableId} {b : String × Sql}

theorem Registered.viewBody_eq_none (h : w.Registered) (hb : w.mvBody id = some b) :
    w.viewBody id = none := by
  obtain ⟨mv, hmv, -⟩ := map_eq_some_iff.1 hb
  obtain ⟨m, hm, ht⟩ := map_eq_some_iff.1 (h.tableType id mv hmv)
  rw [viewBody, hm, bind_some, TableMeta.viewBody, if_neg (by simp [ht])]
  rfl

theorem body_of_viewBody (hb : w.viewBody id = some b) : w.body id = some b := by
  rw [body, hb, some_or]

theorem body_of_viewBody_none (h : w.viewBody id = none) : w.body id = w.mvBody id := by
  rw [body, h, none_or]

/-! ## Reading -/

section

variable (hranked : Ranked E.semantics w.body r depth)

include hranked

theorem eval_read_eq_current
    (h : ∀ i, Reaches E.semantics w.viewBody (references b.2 b.1) i → w.viewBody i = none →
      w.stored i = w.current E depth i) :
    E.eval b (w.read E depth) = E.eval b (w.current E depth) :=
  eval_eq_of_reaches (S := E.semantics) hranked (fun _ _ => body_of_viewBody) h

theorem Flat.eval_read_eq_current
    (h : w.Flat E b) : E.eval b (w.read E depth) = E.eval b (w.current E depth) := by
  refine MvWorld.eval_read_eq_current hranked fun i hi hv => ?_
  have hb : w.body i = none := (body_of_viewBody_none hv).trans (h i hi hv).1
  exact (Derived.valueAt_of_none hb).symm

theorem Flat.eval_read_congr (hg : SameGraph w w') (h : w.Flat E b)
    (hs : ∀ i ∈ references b.2 b.1, w.mvBody i = none → w'.stored i = w.stored i) :
    E.eval b (w'.read E depth) = E.eval b (w.read E depth) := by
  unfold read
  rw [hg.viewBody]
  refine eval_eq_of_reaches (S := E.semantics)
    (hranked.of_subset fun _ _ => body_of_viewBody) (fun _ _ => id) fun i hi hv => ?_
  obtain ⟨hb, hn⟩ := h i hi hv
  rw [valueAt_of_none hv]
  exact hs i hn hb

end

/-! ## Steps -/

/-- **The invariant**: the views are in order, materialized views read base tables that they name,
and those not stale have the rows of their queries. -/
structure Sound (E : ViewEngine Row) (depth : Nat) (rank : TableId → Nat) (w : MvWorld Row) :
    Prop where
  ranked : Ranked E.semantics w.body rank depth
  registered : w.Registered
  flat : ∀ id b, w.mvBody id = some b → w.Flat E b
  fresh : ∀ id mv, w.catalog.mviews.get? id = some mv → mv.isStale = false →
    w.stored id = E.eval (id.project, mv.viewQuery) (w.read E depth)

theorem mvBody_of_get? (hm : w.catalog.mviews.get? id = some mv) :
    w.mvBody id = some (id.project, mv.viewQuery) := by
  rw [mvBody, hm, map_some]

section

variable (h : Sound E depth r w)

include h

theorem Sound.of_sameGraph (hg : SameGraph w w')
    (hf : ∀ id mv, w'.catalog.mviews.get? id = some mv → mv.isStale = false →
      w'.stored id = E.eval (id.project, mv.viewQuery) (w'.read E depth)) :
    Sound E depth r w' where
  ranked := hg.body ▸ h.ranked
  registered := hg.registered h.registered
  flat id b hb := hg.flat (h.flat id b (hg.mvBody ▸ hb))
  fresh := hf

/-- The step of a write: the views that name the table become stale, and no other view reads
it. -/
theorem Sound.recordWrite {e : Surroundings} {rows : List Row}
    (hok : (Requests.recordChange { e with subscribed := w.subscribedTo id } id
      w.catalog).result = .ok ()) : Sound E depth r (w.recordWrite e id rows) := by
  unfold MvWorld.recordWrite
  by_cases hb : (w.body id).isSome
  · rw [if_pos hb]
    exact h
  rw [if_neg hb, Option.not_isSome_iff_eq_none] at *
  obtain ⟨hta, hm⟩ := recordChange_state hok
  have hg : SameGraph w
      { w with
        stored := Function.update w.stored id rows
        catalog := (Requests.recordChange { e with subscribed := w.subscribedTo id } id
          w.catalog).state } := by
    refine ⟨fun i => ?_, fun i => ?_, rfl⟩
    · rw [MemoryRepository.getTable, hta]
      rfl
    · rw [hm, Option.map_map]
      congr 1
      funext mv
      by_cases hi : i ∈ w.subscribedTo id <;> simp [MaterializedViewMeta.markedIf, hi]
  refine h.of_sameGraph hg fun i mv hmv hs => ?_
  -- a view that is not stale was not stale, and was not told
  rw [hm, Option.map_eq_some_iff] at hmv
  obtain ⟨o, ho, rfl⟩ := hmv
  have ht : i ∉ w.subscribedTo id := by
    intro ht
    simp [MaterializedViewMeta.markedIf, ht] at hs
  simp only [MaterializedViewMeta.markedIf, ht, if_false] at hs ⊢
  have hn : id ∉ o.baseTables := by
    intro hn
    refine ht (List.mem_map.2 ⟨⟨i, o.baseTables⟩, ?_, rfl⟩)
    exact List.mem_filter.2 ⟨h.registered.subscribed i o ho, by simpa using hn⟩
  have hi : i ≠ id := by
    rintro rfl
    rw [body_of_viewBody_none (h.registered.viewBody_eq_none (mvBody_of_get? ho)),
      mvBody_of_get? ho] at hb
    cases hb
  rw [(h.flat i _ (mvBody_of_get? ho)).eval_read_congr h.ranked hg]
  · rw [Function.update_of_ne hi]
    exact h.fresh i o ho hs
  intro j hj _
  have hne : j ≠ id := by
    rintro rfl
    exact hn (h.registered.baseTables i o ho ▸ hj)
  exact Function.update_of_ne hne _ _

/-- The step of a refresh: the view gets the rows that its query reads, which no view reads
back. -/
theorem Sound.refresh (now : Time) (id : TableId) :
    Sound E depth r (w.refresh E depth now id) ∧ SameGraph w (w.refresh E depth now id) ∧
      (∀ i, w.body i = none → (w.refresh E depth now id).stored i = w.stored i) ∧
      ∀ i mv, (w.refresh E depth now id).catalog.mviews.get? i = some mv →
        i = id ∧ mv.isStale = false ∨ i ≠ id ∧ w.catalog.mviews.get? i = some mv := by
  unfold MvWorld.refresh
  cases hb : w.mvBody id with
  | none =>
    refine ⟨h, .refl w, fun _ _ => rfl, fun i mv hmv => .inr ⟨?_, hmv⟩⟩
    rintro rfl
    rw [mvBody_of_get? hmv] at hb
    cases hb
  | some b =>
    simp only
    obtain ⟨o, ho, rfl⟩ := Option.map_eq_some_iff.1 hb
    generalize hb' : (id.project, o.viewQuery) = b at *
    obtain ⟨hs, hm⟩ := refreshMaterializedView_state now
      (E.eval b (w.read E depth)).length ho
    have hg : SameGraph w
        { w with
          stored := Function.update w.stored id (E.eval b (w.read E depth))
          catalog := (Requests.refreshMaterializedView
            { now, introspected := .ok ([], (E.eval b (w.read E depth)).length) } id
            w.catalog).state } := by
      refine ⟨hs, fun i => ?_, rfl⟩
      rw [hm]
      by_cases hi : i = id
      · rw [if_pos hi, hi, ho]
        rfl
      · rw [if_neg hi]
    have hba : ∀ i, w.mvBody i = none →
        Function.update w.stored id (E.eval b (w.read E depth)) i = w.stored i := by
      intro i hi
      have hn : i ≠ id := by
        rintro rfl
        rw [hb] at hi
        cases hi
      exact Function.update_of_ne hn _ _
    refine ⟨h.of_sameGraph hg fun i mv hmv hst => ?_, hg, fun i hi => ?_, ?_⟩
    · rw [hm] at hmv
      by_cases hi : i = id
      · rw [if_pos hi] at hmv
        cases hmv
        subst hi
        refine (Function.update_self ..).trans ?_
        refine ((h.flat i b hb).eval_read_congr h.ranked hg fun j _ => hba j).symm.trans ?_
        exact congrArg (fun b => E.eval b _) hb'.symm
      · rw [if_neg hi] at hmv
        refine (Function.update_of_ne hi ..).trans ?_
        rw [(h.flat i _ (mvBody_of_get? hmv)).eval_read_congr h.ranked hg fun j _ => hba j]
        exact h.fresh i mv hmv hst
    · refine hba i ?_
      cases hv : w.viewBody i with
      | none => rwa [body_of_viewBody_none hv] at hi
      | some b' =>
        rw [body_of_viewBody hv] at hi
        cases hi
    · intro i mv hmv
      rw [hm] at hmv
      by_cases hi : i = id
      · rw [if_pos hi] at hmv
        cases hmv
        exact .inl ⟨hi, rfl⟩
      · rw [if_neg hi] at hmv
        exact .inr ⟨hi, hmv⟩

end

/-- What a refresh does: the invariant, the views and the base tables stay, and so do views that are
not stale. -/
structure Refreshed (E : ViewEngine Row) (depth : Nat) (rank : TableId → Nat)
    (w w' : MvWorld Row) : Prop where
  sound : Sound E depth rank w'
  graph : SameGraph w w'
  base : ∀ i, w.body i = none → w'.stored i = w.stored i
  fresh : ∀ i mv mv', w.catalog.mviews.get? i = some mv → mv.isStale = false →
    w'.catalog.mviews.get? i = some mv' → mv'.isStale = false

theorem Sound.refreshed_self (h : Sound E depth r w) : Refreshed E depth r w w where
  sound := h
  graph := .refl w
  base _ _ := rfl
  fresh := by
    intro i mv mv' hm hs hm'
    rw [hm] at hm'
    cases hm'
    exact hs

theorem Refreshed.trans (h : Refreshed E depth r w w') (h' : Refreshed E depth r w' w'') :
    Refreshed E depth r w w'' where
  sound := h'.sound
  graph := h.graph.trans h'.graph
  base i hi := (h'.base i (h.graph.body ▸ hi)).trans (h.base i hi)
  fresh := by
    intro i mv mv' hmv hs hm'
    obtain ⟨m, hm, -, -⟩ := h'.graph.get? hm'
    exact h'.fresh i m mv' hm (h.fresh i mv m hmv hs hm) hm'

theorem Sound.refreshIfStale (h : Sound E depth r w) (now : Time) (id : TableId) :
    Refreshed E depth r w (w.refreshIfStale E depth now id) ∧
      ∀ mv, (w.refreshIfStale E depth now id).catalog.mviews.get? id = some mv →
        mv.isStale = false := by
  unfold MvWorld.refreshIfStale
  cases hmv : w.catalog.mviews.get? id with
  | none =>
    refine ⟨h.refreshed_self, fun mv hm' => ?_⟩
    rw [hmv] at hm'
    cases hm'
  | some mv =>
    by_cases hs : mv.isStale
    · simp only [hs, if_true]
      obtain ⟨hso, hg, hb, hm⟩ := h.refresh now id
      refine ⟨⟨hso, hg, hb, ?_⟩, ?_⟩
      · intro i o n ho hf hn
        rcases hm i n hn with ⟨-, hn⟩ | ⟨-, hsa⟩
        · exact hn
        · rw [ho] at hsa
          cases hsa
          exact hf
      · intro n hn
        rcases hm id n hn with ⟨-, hn⟩ | ⟨hne, -⟩
        · exact hn
        · exact absurd rfl hne
    · simp only [hs, Bool.false_eq_true, if_false]
      refine ⟨h.refreshed_self, fun mv' hm' => ?_⟩
      rw [hmv] at hm'
      cases hm'
      simpa using hs

theorem Sound.refreshEach (h : Sound E depth r w) (n : Time) (ids : List TableId) :
    Refreshed E depth r w (refreshEach E depth n w ids) ∧
      ∀ id ∈ ids, ∀ mv, (refreshEach E depth n w ids).catalog.mviews.get? id = some mv →
        mv.isStale = false := by
  induction ids generalizing w with
  | nil => exact ⟨h.refreshed_self, fun _ hid => absurd hid not_mem_nil⟩
  | cons id ids ih =>
    unfold refreshEach
    by_cases ht : (w.catalog.getTable id).map TableMeta.tableType = some .materializedView
    · rw [if_pos ht]
      obtain ⟨hf, hfr⟩ := h.refreshIfStale n id
      obtain ⟨hr, his⟩ := ih hf.sound
      refine ⟨hf.trans hr, fun i hi mv hmv => ?_⟩
      rcases mem_cons.1 hi with rfl | hi
      · obtain ⟨m, hm, -, -⟩ := hr.graph.get? hmv
        exact hr.fresh i m mv hm (hfr m hm) hmv
      · exact his i hi mv hmv
    · rw [if_neg ht]
      obtain ⟨hr, his⟩ := ih h
      refine ⟨hr, fun i hi mv hmv => ?_⟩
      rcases mem_cons.1 hi with rfl | hi
      · -- a materialized view has its type in the catalog
        obtain ⟨o, ho, -, -⟩ := hr.graph.get? hmv
        exact absurd (h.registered.tableType i o ho) ht
      · exact his i hi mv hmv

theorem Sound.refreshDependentMvs (h : Sound E depth r w) (n : Time) (p : String)
    (q : Sql) :
    Refreshed E depth r w (w.refreshDependentMvs E depth n p q) ∧
      ∀ id ∈ references q p, ∀ mv,
        (w.refreshDependentMvs E depth n p q).catalog.mviews.get? id = some mv →
          mv.isStale = false := by
  unfold MvWorld.refreshDependentMvs
  by_cases he : w.catalog.mviews.rows = []
  · rw [if_pos he]
    refine ⟨h.refreshed_self, fun id _ mv hmv => ?_⟩
    have hm := (Keyed.get?_eq_some_iff.1 hmv).1
    rw [he] at hm
    exact absurd hm List.not_mem_nil
  · rw [if_neg he]
    exact h.refreshEach n _

theorem Sound.eval_read_eq_current (h : Sound E depth r w) (hd : w.Direct E b)
    (hf : ∀ id ∈ references b.2 b.1, ∀ mv, w.catalog.mviews.get? id = some mv →
      mv.isStale = false) : E.eval b (w.read E depth) = E.eval b (w.current E depth) := by
  refine MvWorld.eval_read_eq_current h.ranked fun i hi hv => ?_
  cases hmv : w.catalog.mviews.get? i with
  | none =>
    have hb : w.body i = none := by rw [body_of_viewBody_none hv, mvBody, hmv, Option.map_none]
    exact (Derived.valueAt_of_none hb).symm
  | some mv =>
    have hm := mvBody_of_get? hmv
    have hn : i ∈ references b.2 b.1 := hd i hi (by rw [hm]; rfl)
    calc w.stored i
        = E.eval (i.project, mv.viewQuery) (w.read E depth) :=
          h.fresh i mv hmv (hf i hn mv hmv)
      _ = E.eval (i.project, mv.viewQuery) (w.current E depth) :=
          (h.flat i _ hm).eval_read_eq_current h.ranked
      _ = w.current E depth i :=
          (Derived.valueAt_of_body h.ranked ((body_of_viewBody_none hv).trans hm)).symm

end MvWorld

/-! ## Runs -/

namespace MvRequest

/-- **The condition on a request**: a change is recorded, and a query names the materialized views
it reads. -/
def Covered (E : ViewEngine Row) (w : MvWorld Row) : MvRequest Row → Prop
  | .write env id _ => (Requests.recordChange { env with subscribed := w.subscribedTo id } id
      w.catalog).result = .ok ()
  | .query _ project sql => w.Direct E (project, sql)
  | .refresh _ _ => True

/-- **The property of a request**: a query returns what it returns over the current contents of the
base tables. -/
def Correct (E : ViewEngine Row) (depth : Nat) (w : MvWorld Row) : MvRequest Row → Prop
  | .query now project sql =>
    w.answer E depth now project sql = E.eval (project, sql) (w.current E depth)
  | _ => True

end MvRequest

namespace MvWorld

theorem Sound.after (h : Sound E depth r w) (hc : request.Covered E w) :
    Sound E depth r (w.after E depth request) := by
  cases request with
  | write => exact h.recordWrite hc
  | query n p query => exact (h.refreshDependentMvs n p query).1.sound
  | refresh n id => exact (h.refresh n id).1

theorem Sound.correct (h : Sound E depth r w) (hc : request.Covered E w) :
    request.Correct E depth w := by
  cases request with
  | write => trivial
  | query n p query =>
    obtain ⟨hr, hf⟩ := h.refreshDependentMvs n p query
    calc w.answer E depth n p query
        = E.eval (p, query)
            ((w.refreshDependentMvs E depth n p query).current E depth) :=
          hr.sound.eval_read_eq_current (hr.graph.direct hc) hf
      _ = E.eval (p, query) (w.current E depth) := by
          unfold current
          rw [hr.graph.body]
          refine eval_eq_of_reaches (S := E.semantics) h.ranked (fun _ _ => id) fun i _ hb => ?_
          rw [valueAt_of_none hb]
          exact hr.base i hb
  | refresh => trivial

end MvWorld

def selectFrom (name : String) : Sql := .selectStar (.table { db := "d", name })

def inD (name : String) : TableId := ⟨"p", "d", name⟩

def mvOver (view table : String) : MaterializedViewMeta :=
  ⟨inD view, selectFrom table, [inD table], 0, false⟩

def mvTableOver (view table : String) : TableMeta :=
  { id := inD view, tableType := .materializedView, viewQuery := some (selectFrom table) }

def unionEngine : ViewEngine Nat where
  eval b f := (references b.2 b.1).flatMap f
  eval_congr _ _ _ h := flatMap_congr h

def singleView : MvWorld Nat where
  catalog :=
    { tables := (Keyed.empty.put { id := inD "t" }).put (mvTableOver "m" "t")
      mviews := Keyed.empty.put (mvOver "m" "t") }
  stored _ := []
  handlers := [⟨inD "m", [inD "t"]⟩]

/-- A materialized view `n` over the materialized view `m` over the table `t`, all empty. -/
def nestedViews : MvWorld Nat where
  catalog :=
    { tables := ((Keyed.empty.put { id := inD "t" }).put (mvTableOver "m" "t")).put
        (mvTableOver "n" "m")
      mviews := (Keyed.empty.put (mvOver "m" "t")).put (mvOver "n" "m") }
  stored _ := []
  handlers := [⟨inD "m", [inD "t"]⟩, ⟨inD "n", [inD "m"]⟩]

theorem singleView_viewBody (id : TableId) : singleView.viewBody id = none := by
  unfold viewBody singleView MemoryRepository.getTable
  rw [Keyed.get?_put, Keyed.get?_put]
  by_cases hm : (mvTableOver "m" "t").id = id
  · rw [if_pos hm]
    rfl
  · rw [if_neg hm]
    split <;> rfl

theorem singleView_get? {id : TableId} (h : singleView.catalog.mviews.get? id = some mv) :
    id = inD "m" ∧ mv = mvOver "m" "t" := by
  unfold singleView at h
  rw [Keyed.get?_put] at h
  split at h
  · rename_i hi
    cases h
    exact ⟨hi.symm, rfl⟩
  · cases h

theorem singleView_mvBody {id : TableId} {b : String × Sql} (h : singleView.mvBody id = some b) :
    id = inD "m" ∧ b = ("p", selectFrom "t") := by
  obtain ⟨mv, hm, rfl⟩ := map_eq_some_iff.1 h
  obtain ⟨rfl, rfl⟩ := singleView_get? hm
  exact ⟨rfl, rfl⟩

theorem reaches_of_no_views (hv : ∀ id, w.viewBody id = none) {items : List TableId}
    {i : TableId} (h : Reaches E.semantics w.viewBody items i) : i ∈ items := by
  cases h with
  | here h => exact h
  | through _ hb _ =>
    rw [hv] at hb
    cases hb

end Bqemulator
