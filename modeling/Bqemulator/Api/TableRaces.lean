import Bqemulator.Api.TablePatch
import Bqemulator.Lib.Run
import Bqemulator.Lib.Serial

/-!
# Races on the record of a table

`insertAll` and `PATCH` read the record of a table, and put the whole record back after they have
waited for the body of the request, and `insertAll` also for the lock. What was written in between
is lost.
-/

namespace Bqemulator

open List Option

open Interleaving (System Served serveAll inOrder)

variable {ρ : Type}

/-! ## Requests -/

/-- What the requests to a table ask for. -/
structure RaceEnv (ρ : Type) where
  id : TableId
  generateEtag : (project dataset table : String) → Time → String
  bqToDuckdb : String → Option String
  converts : List TableField → ρ → Bool
  accepts : Option (List (String × String)) → List ρ → Bool

variable (env : RaceEnv ρ)

def RaceEnv.patchEnv (now : Time) : PatchEnv where
  now := now
  generateEtag := env.generateEtag
  bqToDuckdb := env.bqToDuckdb

/-- The requests. -/
inductive TableRequest (ρ : Type) where
  | insertAll (rows : List ρ) (skipInvalidRows : Bool)
  | patch (now : Time) (body : PatchBody)

/-- The tables, with the rows of the one that is written. -/
structure RaceStore (ρ : Type) extends TableStore where
  rows : List ρ

/-- The rows of a request: none that are to be inserted, one that does not fit, or some. -/
inductive PreparedRows (ρ : Type) where
  | nothing
  | invalid
  | some (good : List ρ)

/-- The rows that are inserted: all of them, or with `skipInvalidRows` those that fit. -/
def prepareRows (schema : List TableField) (rows : List ρ)
    (skipInvalidRows : Bool) : PreparedRows ρ :=
  if rows.isEmpty then .nothing
  else if skipInvalidRows then
    let good := rows.filter (env.converts schema)
    if good.isEmpty then .nothing else .some good
  else if rows.all (env.converts schema) then .some rows else .invalid

/-- Where a request waits: before it begins, with the record for its body, with rows for the
lock; or it has its answer or failed. -/
inductive RequestStage (ρ : Type) where
  | arrived (request : TableRequest ρ)
  | reading (request : TableRequest ρ) (record : TableRecord)
  | locking (good : List ρ) (record : TableRecord)
  | answered
  | failed

namespace RequestStage

/-- What a request does up to the next point where it waits. -/
def advance : RequestStage ρ → RaceStore ρ → RequestStage ρ × RaceStore ρ
  | arrived request, s =>
    match s.tables.get? env.id with
    | none => (failed, s)
    | some record => (reading request record, s)
  | reading (.insertAll rows skipInvalidRows) record, s =>
    match prepareRows env record.schema rows skipInvalidRows with
    | .nothing => (answered, s)
    | .invalid => (failed, s)
    | .some good => (locking good record, s)
  | reading (.patch now body) record, s =>
    match s.toTableStore.putPatch (env.patchEnv now) env.id body record with
    | .error _ => (failed, s)
    | .ok tables => (answered, { s with toTableStore := tables })
  | locking good record, s =>
    if env.accepts (s.physical env.id) good then
      -- the rows are there before the record is put
      let s := { s with rows := s.rows ++ good }
      let updated := { record with numRows := record.numRows + good.length }
      match updateIn s.tables updated updated.id.resourceRef with
      | .error _ => (failed, s)
      | .ok tables => (answered, { s with tables })
    else (failed, s)
  | answered, s => (answered, s)
  | failed, s => (failed, s)

def succeeded : RequestStage ρ → Bool
  | answered => true
  | _ => false

def result (x : RequestStage ρ × RaceStore ρ) : Option (RaceStore ρ) :=
  match x.1 with
  | answered => some x.2
  | _ => none

end RequestStage

/-- A request that is served alone. -/
def serveRequest (request : TableRequest ρ) (s : RaceStore ρ) : Option (RaceStore ρ) :=
  let x := RequestStage.advance env (.arrived request) s
  let x := RequestStage.advance env x.1 x.2
  RequestStage.result (RequestStage.advance env x.1 x.2)

/-- The request at an index goes on. -/
def raceStep : System (RequestStage ρ) (RaceStore ρ) → Nat →
    Except Unit (System (RequestStage ρ) (RaceStore ρ)) :=
  Interleaving.step (RequestStage.advance env) ()

variable (requests : List (TableRequest ρ))

def raceStart (s : RaceStore ρ) : System (RequestStage ρ) (RaceStore ρ) :=
  ⟨requests.map .arrived, s⟩

/-! ## The property -/

/-- The number of rows in the record has grown with the rows in the engine. -/
def RowsCounted (first s : RaceStore ρ) : Prop :=
  ∀ r, first.tables.get? env.id = some r → ∃ r', s.tables.get? env.id = some r' ∧
    r'.numRows + first.rows.length = r.numRows + s.rows.length

/-- The fields that a request sets. -/
def TableRequest.sets : TableRequest ρ → RecordField → Bool
  | insertAll _ _, _ => false
  | patch _ body, f => body.sets f

/-- The record that the body alone describes. -/
def TableRequest.given : TableRequest ρ → Option TableRecord
  | insertAll _ _ => none
  | patch now body => restToTableRecord (env.patchEnv now) env.id.project env.id.dataset
    (body.withReference env.id.table) none

/-- A field that requests set has the value of the last that does. -/
def FieldsOfLast (order : List (TableRequest ρ)) (s : RaceStore ρ) : Prop :=
  ∀ f earlier request later, order = earlier ++ request :: later → request.sets f = true →
    (∀ q ∈ later, TableRequest.sets q f = false) →
    ∃ given r, request.given env = some given ∧ s.tables.get? env.id = some r ∧ given.Agree r f

/-- **Served in some order**: the store is that of the requests one after the other, every row is
counted, and each field is that of the last patch that sets it. -/
def SerialOutcome (first : RaceStore ρ) (sys : System (RequestStage ρ) (RaceStore ρ)) : Prop :=
  (∀ stage ∈ sys.tasks, stage.succeeded = true) →
    ∃ order, order.Perm requests ∧ serveAll (serveRequest env) order first = some sys.store ∧
      RowsCounted env first sys.store ∧ FieldsOfLast env order sys.store

/-- **The condition on a step**: the record is the one the request has read; a patch is for the
table, and gives a kind or leaves no query in a table that is no view. -/
def RequestStage.Undisturbed (s : RaceStore ρ) : RequestStage ρ → Prop
  | reading (.insertAll _ _) record => s.tables.get? env.id = some record
  | reading (.patch _ body) record => s.tables.get? env.id = some record ∧
    restToTableId (body.withReference env.id.table) = some env.id.table ∧
    (body.sets .tableType = true ∨ isQuery (restToViewQuery body record) = false ∨
      record.tableType = .view)
  | locking _ record => s.tables.get? env.id = some record
  | _ => True

def UndisturbedStep (sys : System (RequestStage ρ) (RaceStore ρ)) (k : Nat) : Prop :=
  ∀ stage, sys.tasks[k]? = some stage → stage.Undisturbed env sys.store

/-! ## The fields of a patch -/

theorem TableRecord.Agree.refl (r : TableRecord) (f : RecordField) : r.Agree r f := by
  cases f <;> rfl

variable {f : RecordField} {rows good : List ρ} {skipInvalidRows : Bool}

theorem TableRecord.Agree.trans {r r' r'' : TableRecord} (h : r.Agree r' f) (h' : r'.Agree r'' f) :
    r.Agree r'' f := by
  cases f <;> exact Eq.trans h h'

section Fields

variable {env : PatchEnv} {projectId datasetId : String} {body : PatchBody} {r u : TableRecord}

theorem PatchBody.settable_of_sets (h : body.sets f = true) : f.settable = true := by
  cases f <;> first | rfl | cases h

theorem Built.agree_of_kind (h : Built env body r u) (hf : f.settable = true)
    (hs : body.sets f = false)
    (hk : body.sets .tableType = true ∨ isQuery (restToViewQuery body r) = false ∨
      r.tableType = .view) : r.Agree u f := by
  by_cases hn : f = .tableType
  · subst hn
    refine h.agree_tableType ?_ (hk.resolve_left (by simp [hs]))
    -- a null for the kind is refused
    have hv := h.view
    unfold PatchBody.sets at hs
    unfold PatchBody.restToViewQueryAndType at hv
    unfold PatchBody.hasKey
    cases hke : body.type <;> simp_all [Given.named]
  · exact h.agree_of_not_sets hf hn hs

theorem restToViewQueryAndType_none {view : Option String × TableType}
    (h : body.restToViewQueryAndType (some r) = some view) :
    ∃ type, body.restToViewQueryAndType none = some (restToViewQuery body none, type) ∧
      (body.sets .tableType = true → type = view.2) := by
  unfold PatchBody.restToViewQueryAndType PatchBody.sets at *
  cases hk : body.type <;> rw [hk] at h
  · exact ⟨_, rfl, nofun⟩
  · cases h
  · obtain ⟨type, ht, rfl⟩ := map_eq_some_iff.1 h
    exact ⟨type, map_eq_some_iff.2 ⟨type, ht, rfl⟩, fun _ => rfl⟩

theorem given_of_restToTableRecord
    (h : restToTableRecord env projectId datasetId body (some r) = some u) :
    ∃ given, restToTableRecord env projectId datasetId body none = some given ∧
      ∀ f, body.sets f = true → given.Agree u f := by
  obtain ⟨hb, -, -⟩ := built_of_restToTableRecord h
  have hre := hb.rest
  obtain ⟨schema, hsc, hsE⟩ := decides_schema hb.schema
  obtain ⟨raw, hra, hsc⟩ := bind_eq_some_iff.1 hsc
  obtain ⟨tp, htp, ht⟩ := decides_timePartitioning hb.timePartitioning
  obtain ⟨t, hv, hty⟩ := restToViewQueryAndType_none hb.view
  obtain ⟨labels, hla, hl⟩ := decides_labels hb.labels
  have hg : restToTableRecord env projectId datasetId body none = some
      { projectId, datasetId, tableId := u.tableId, tableType := t, schema
        friendlyName := body.friendlyName.orElse none, description := body.description.orElse none
        labels, timePartitioning := tp
        clustering := restToClustering body.clustering none, creationTime := env.now
        lastModifiedTime := env.now
        etag := env.generateEtag projectId datasetId u.tableId env.now
        viewQuery := restToViewQuery body none } := by
    simp only [restToTableRecord, bind_eq_bind, hb.tableId, hra, hsc, htp, hv,
      bind_some, elim_none, hla, bind_none]
  refine ⟨_, hg, fun f hs => ?_⟩
  cases f with
  | tableType => exact hty hs
  | schema => exact hsE.2 hs
  | friendlyName | description =>
    rw [hre]
    exact (decides_text _ _).2 hs
  | labels => exact hl.2 hs
  | timePartitioning => exact ht.2 hs
  | clustering =>
    rw [hre]
    exact decides_clustering.2 hs
  | viewQuery => exact (decides_viewQuery.2 hs).trans hb.viewQuery_eq.symm
  | rangePartitioning | expirationTime | creationTime | numRows | numBytes | useLegacySql
  | baseTable | snapshotTime => cases hs

end Fields

/-! ## Steps -/

section Steps

variable {env : RaceEnv ρ} {q : TableRequest ρ} {s : RaceStore ρ} {r : TableRecord}

/-- The stage is one of this request. -/
def RequestStage.For (env : RaceEnv ρ) (q : TableRequest ρ) : RequestStage ρ → Prop
  | arrived request | reading request _ => request = q
  | locking good record => ∃ rows skipInvalidRows, q = .insertAll rows skipInvalidRows ∧
    prepareRows env record.schema rows skipInvalidRows = .some good
  | _ => True

/-- **What a request does to the record**: it counts its rows, gives the fields it sets and keeps
the others. -/
structure RequestEffect (env : RaceEnv ρ) (q : TableRequest ρ) (s s' : RaceStore ρ)
    (r r' : TableRecord) :
    Prop where
  before : s.tables.get? env.id = some r
  after : s'.tables.get? env.id = some r'
  counted : r'.numRows + s.rows.length = r.numRows + s'.rows.length
  kept : ∀ f, f.settable = true → q.sets f = false → r.Agree r' f
  given : ∀ f, q.sets f = true → ∃ given, q.given env = some given ∧ given.Agree r' f

theorem serveRequest_of_get? (hr : s.tables.get? env.id = some r) : serveRequest env q s =
    let x := RequestStage.advance env (.reading q r) s
    RequestStage.result (RequestStage.advance env x.1 x.2) := by
  have hre : RequestStage.advance env (.arrived q) s = (.reading q r, s) := by
    rw [RequestStage.advance, hr]
  rw [serveRequest, hre]

theorem serveRequest_of_answered (hr : s.tables.get? env.id = some r) {s' : RaceStore ρ}
    (h : RequestStage.advance env (.reading q r) s = (.answered, s')) :
    serveRequest env q s = some s' := by
  rw [serveRequest_of_get? hr, h]
  rfl

/-- The effect of a `PATCH` that nothing has disturbed. -/
theorem effect_patch {n : Time} {body : PatchBody} {t : TableStore}
    (h : (RequestStage.reading (.patch n body) r).Undisturbed env s)
    (hp : s.toTableStore.putPatch (env.patchEnv n) env.id body r = .ok t) :
    ∃ r', RequestEffect env (.patch n body) s { s with toTableStore := t } r r' := by
  obtain ⟨hr, ho, hk⟩ := h
  rw [putPatch_eq] at hp
  cases hu : restToTableRecord (env.patchEnv n) env.id.project env.id.dataset
      (body.withReference env.id.table) (some r) with
  | none =>
    rw [hu] at hp
    cases hp
  | some u =>
    rw [hu] at hp
    obtain ⟨hb, hpr, hd⟩ := built_of_restToTableRecord hu
    have hi : u.id = env.id := by
      rw [TableRecord.id, hpr, hd, some.inj (hb.tableId.symm.trans ho)]
    simp only [hi, hr, isSome_some, if_true, Except.ok.injEq] at hp
    subst hp
    refine ⟨u, hr, ?_, ?_, fun f hf hs => ?_, fun f hs => ?_⟩
    · exact (Keyed.get?_put _ _ _).trans (if_pos hi)
    · have hro : u.numRows = r.numRows := by rw [hb.rest]; rfl
      rw [hro]
    · exact hb.agree_of_kind hf hs hk
    · obtain ⟨given, hg, ha⟩ := given_of_restToTableRecord hu
      exact ⟨given, hg, ha f hs⟩

section

variable (hr : s.tables.get? env.id = some r)

include hr

theorem effect_nothing : RequestEffect env (.insertAll rows skipInvalidRows) s s r r where
  before := hr
  after := hr
  counted := rfl
  kept f _ _ := TableRecord.Agree.refl r f
  given _ hs := nomatch hs

theorem advance_locking (ha : env.accepts (s.physical env.id) good = true) :
    RequestStage.advance env (.locking good r) s =
      (.answered, { s with
        rows := s.rows ++ good
        tables := s.tables.put { r with numRows := r.numRows + good.length } }) := by
  have hk : r.id = env.id := Keyed.key_of_get? hr
  have hi : TableRecord.id { r with numRows := r.numRows + good.length } = env.id := hk
  rw [RequestStage.advance, if_pos ha]
  simp only [updateIn, hi, hr, isSome_some, if_true]

/-- The effect of an `insertAll`. -/
theorem effect_insertAll : ∃ r', RequestEffect env (.insertAll rows skipInvalidRows) s
      { s with
        rows := s.rows ++ good
        tables := s.tables.put { r with numRows := r.numRows + good.length } } r r' := by
  have hk : r.id = env.id := Keyed.key_of_get? hr
  refine ⟨_, hr, (Keyed.get?_put _ _ _).trans (if_pos hk), ?_, fun f hf _ => ?_, nofun⟩
  · show r.numRows + good.length + s.rows.length = r.numRows + (s.rows ++ good).length
    rw [length_append]
    omega
  · cases f <;> first | rfl | cases hf

end

/-- A request that goes on undisturbed waits, fails without effect, or is served. -/
theorem advance_undisturbed {st : RequestStage ρ} (hf : st.For env q)
    (h : st.Undisturbed env s) (hrg : st.succeeded = false) :
    ((st.advance env s).1.succeeded = false ∧ (st.advance env s).2 = s ∧
      (st.advance env s).1.For env q) ∨
    ((st.advance env s).1 = .answered ∧ serveRequest env q s = some (st.advance env s).2 ∧
      ∃ r r', RequestEffect env q s (st.advance env s).2 r r') := by
  cases st with
  | arrived =>
    refine .inl ?_
    rw [RequestStage.advance]
    cases s.tables.get? env.id with
    | none => exact ⟨rfl, rfl, trivial⟩
    | some r => exact ⟨rfl, rfl, hf⟩
  | reading request r =>
    obtain rfl : request = q := hf
    cases request with
    | insertAll rows skip =>
      have hr : s.tables.get? env.id = some r := h
      cases hro : prepareRows env r.schema rows skip with
      | nothing =>
        have ha : RequestStage.advance env (.reading (.insertAll rows skip) r) s =
            (.answered, s) := by rw [RequestStage.advance, hro]
        rw [ha]
        exact .inr ⟨rfl, serveRequest_of_answered hr ha, r, r, effect_nothing hr⟩
      | invalid =>
        rw [RequestStage.advance, hro]
        exact .inl ⟨rfl, rfl, trivial⟩
      | some =>
        rw [RequestStage.advance, hro]
        exact .inl ⟨rfl, rfl, rows, skip, rfl, hro⟩
    | patch n body =>
      cases hp : s.toTableStore.putPatch (env.patchEnv n) env.id body r with
      | error e =>
        rw [RequestStage.advance, hp]
        exact .inl ⟨rfl, rfl, trivial⟩
      | ok t =>
        have ha : RequestStage.advance env (.reading (.patch n body) r) s =
            (.answered, { s with toTableStore := t }) := by rw [RequestStage.advance, hp]
        rw [ha]
        exact .inr ⟨rfl, serveRequest_of_answered h.1 ha, r, effect_patch h hp⟩
  | locking g r =>
    have hr : s.tables.get? env.id = some r := h
    obtain ⟨rows, skip, rfl, hro⟩ := hf
    by_cases hac : env.accepts (s.physical env.id) g = true
    · -- alone the request comes to the same rows, since it reads the same record
      have hs : serveRequest env (.insertAll rows skip) s =
          RequestStage.result (RequestStage.advance env (.locking g r) s) := by
        rw [serveRequest_of_get? hr, RequestStage.advance, hro]
      rw [hs, advance_locking hr hac]
      exact .inr ⟨rfl, rfl, r, effect_insertAll hr⟩
    · rw [RequestStage.advance, if_neg hac]
      exact .inl ⟨rfl, rfl, trivial⟩
  | answered => cases hrg
  | failed => exact .inl ⟨rfl, rfl, trivial⟩

end Steps

/-! ## Runs -/

section Runs

variable {env : RaceEnv ρ} {q : TableRequest ρ} {first s s' : RaceStore ρ} {r r' : TableRecord}

theorem TableRequest.settable_of_sets (h : q.sets f = true) : f.settable = true := by
  cases q with
  | insertAll => cases h
  | patch => exact PatchBody.settable_of_sets h

theorem RowsCounted.trans (h : RowsCounted env first s) (he : RequestEffect env q s s' r r') :
    RowsCounted env first s' := by
  intro r₀ hr₀
  obtain ⟨r₁, hr₁, hc⟩ := h r₀ hr₀
  obtain rfl : r = r₁ := some.inj (he.before.symm.trans hr₁)
  have hco := he.counted
  exact ⟨r', he.after, by omega⟩

theorem FieldsOfLast.concat {o : List (TableRequest ρ)} (h : FieldsOfLast env o s)
    (he : RequestEffect env q s s' r r') : FieldsOfLast env (o ++ [q]) s' := by
  intro f earlier request later ho hs hl
  rcases eq_nil_or_concat later with rfl | ⟨later, l, rfl⟩
  · -- the new request is the last that sets the field
    obtain ⟨rfl, hq⟩ := append_inj' ho rfl
    obtain rfl : q = request := singleton_inj.1 hq
    obtain ⟨given, hg, ha⟩ := he.given f hs
    exact ⟨given, r', hg, he.after, ha⟩
  · rw [concat_eq_append] at ho hl
    rw [← cons_append, ← append_assoc] at ho
    obtain ⟨hre, hq⟩ := append_inj' ho rfl
    obtain rfl : q = l := singleton_inj.1 hq
    obtain ⟨given, r₁, hg, hr₁, ha⟩ := h f earlier request later hre hs fun x hx =>
      hl x (mem_append_left _ hx)
    obtain rfl : r = r₁ := some.inj (he.before.symm.trans hr₁)
    have hk := he.kept f (TableRequest.settable_of_sets hs) (hl q (by simp))
    exact ⟨given, r', hg, he.after, ha.trans hk⟩

/-- **The invariant of a run**: the answered requests have been served in an order, and each stage
belongs to its request. -/
structure Serialized (env : RaceEnv ρ) (requests : List (TableRequest ρ)) (first : RaceStore ρ)
    (order : List Nat) (sys : System (RequestStage ρ) (RaceStore ρ)) : Prop where
  served : Served (serveRequest env) RequestStage.succeeded requests first order sys
  counted : RowsCounted env first sys.store
  fields : FieldsOfLast env (inOrder requests order) sys.store
  stages : ∀ (k : Nat) (stage : RequestStage ρ) (q : TableRequest ρ),
    sys.tasks[k]? = some stage → requests[k]? = some q → stage.For env q

variable {requests : List (TableRequest ρ)} {order : List Nat} {k : Nat}
  {sys sys' : System (RequestStage ρ) (RaceStore ρ)}

theorem serialized_start (e : RaceEnv ρ) (requests : List (TableRequest ρ))
    (first : RaceStore ρ) : Serialized e requests first [] (raceStart requests first) where
  served := Served.initial fun _ => rfl
  counted r hr := ⟨r, hr, rfl⟩
  fields f earlier request later ho := by simp [inOrder] at ho
  stages k stage q hs hq := by
    rw [raceStart, getElem?_map, hq] at hs
    cases hs
    rfl

section

variable (h : Serialized env requests first order sys)

include h

theorem Serialized.stages_set {s s' : RequestStage ρ} (hs : sys.tasks[k]? = some s)
    (hq : requests[k]? = some q) (hf : s'.For env q) (j : Nat) (x : RequestStage ρ)
    (q' : TableRequest ρ) (hx : (sys.tasks.set k s')[j]? = some x)
    (hq' : requests[j]? = some q') : x.For env q' := by
  by_cases hj : j = k
  · subst hj
    have hl : j < sys.tasks.length := (List.getElem?_eq_some_iff.1 hs).1
    rw [List.getElem?_set_self hl] at hx
    cases hx
    rw [hq] at hq'
    cases hq'
    exact hf
  · rw [List.getElem?_set_ne (Ne.symm hj)] at hx
    exact h.stages j x q' hx hq'

/-- An undisturbed step keeps the order of service. -/
theorem Serialized.step
    (hu : UndisturbedStep env sys k) (hst : raceStep env sys k = .ok sys') :
    ∃ order', Serialized env requests first order' sys' := by
  obtain ⟨s, hs, rfl⟩ := Interleaving.step_eq_ok hst
  have hl : k < requests.length := by
    rw [← h.served.length]
    exact (List.getElem?_eq_some_iff.1 hs).1
  obtain ⟨q, hq⟩ : ∃ q, requests[k]? = some q := ⟨_, List.getElem?_eq_getElem hl⟩
  have hf := h.stages k s q hs hq
  by_cases hrg : s.succeeded = true
  · -- a request that has its answer does nothing
    have ha : s = .answered := by
      cases s <;> first | rfl | cases hrg
    subst ha
    exact ⟨order, h.served.quiet hs rfl, h.counted, h.fields, h.stages_set hs hq trivial⟩
  rcases advance_undisturbed hf (hu s hs)
    (Bool.eq_false_of_not_eq_true hrg) with ⟨hn, hso, hf'⟩ | ⟨hen, hse, r, r', he⟩
  · rw [hso]
    refine ⟨order, h.served.quiet hs ?_, h.counted, h.fields, h.stages_set hs hq hf'⟩
    rw [hn, Bool.eq_false_of_not_eq_true hrg]
  rw [hen]
  refine ⟨order ++ [k], h.served.ending hs (Bool.eq_false_of_not_eq_true hrg) rfl hq hse,
    h.counted.trans he, ?_, h.stages_set hs hq trivial⟩
  rw [Interleaving.inOrder_concat hq]
  exact h.fields.concat he

/-- When all have succeeded, the order is the one of the outcome. -/
theorem Serialized.outcome : SerialOutcome env requests first sys :=
  fun ha => ⟨inOrder requests order, h.served.perm ha, h.served.served, h.counted, h.fields⟩

end

/-- **Undisturbed requests are served in some order**: in every interleaving in which a request goes
on only while the record is the one it has read, and patches keep the kind or set it. -/
theorem requests_serialized (env : RaceEnv ρ) (requests : List (TableRequest ρ))
    (first : RaceStore ρ) {schedule : List Nat}
    (h : Run.EachStep (raceStep env) (UndisturbedStep env) (raceStart requests first) schedule) :
    Run.Always (raceStep env) (SerialOutcome env requests first) (raceStart requests first)
      schedule := by
  refine Run.always_of_eachStep (I := fun s => ∃ o, Serialized env requests first o s)
    ?_ ?_ ⟨[], serialized_start env requests first⟩ h
  · rintro s ⟨o, hs⟩
    exact hs.outcome
  · rintro s k s' ⟨o, hs⟩ hu hst
    exact hs.step hu hst

end Runs

def raceEnv : RaceEnv Unit where
  id := plainTable.id
  generateEtag _ _ _ _ := "e5"
  bqToDuckdb type := some type
  converts _ _ := true
  accepts _ _ := true

def raceTable : RaceStore Unit := { twoTables with rows := [] }

/-- An insert of a row, and a `PATCH` of the description. -/
def insertAndPatch : List (TableRequest Unit) :=
  [.insertAll [()] false, .patch 5 { description := .value "x" }]

theorem requests_serialized_inTurn :
    Run.Always (raceStep raceEnv) (SerialOutcome raceEnv insertAndPatch raceTable)
      (raceStart insertAndPatch raceTable) [0, 0, 0, 1, 1] := by
  apply requests_serialized
  rintro _ ⟨⟩
  refine ⟨?_, ?_⟩
  · rintro _ ⟨⟩
    trivial
  rintro _ ⟨⟩
  refine ⟨?_, ?_⟩
  · rintro _ ⟨⟩
    rfl
  rintro _ ⟨⟩
  refine ⟨?_, ?_⟩
  · rintro _ ⟨⟩
    rfl
  rintro _ ⟨⟩
  refine ⟨?_, ?_⟩
  · rintro _ ⟨⟩
    trivial
  rintro _ ⟨⟩
  refine ⟨?_, trivial⟩
  rintro _ ⟨⟩
  exact ⟨rfl, rfl, .inr (.inl rfl)⟩

/-- **Requests that lose what others write**: of two inserts that have both read the record one is
counted, and a patch puts the count back. -/
theorem requests_not_serialized :
    ¬ Run.Always (raceStep raceEnv)
        (SerialOutcome raceEnv [.insertAll [()] false, .insertAll [()] false] raceTable)
        (raceStart [.insertAll [()] false, .insertAll [()] false] raceTable) [0, 1, 0, 0, 1, 1] ∧
      ¬ Run.Always (raceStep raceEnv) (SerialOutcome raceEnv insertAndPatch raceTable)
        (raceStart insertAndPatch raceTable) [1, 0, 0, 0, 1] := by
  constructor
  · intro h
    have hl := ((((((h.2 _ rfl).2 _ rfl).2 _ rfl).2 _ rfl).2 _ rfl).2 _ rfl)
    obtain ⟨-, -, -, hc, -⟩ := hl (by decide)
    obtain ⟨r', hr', hcn⟩ := hc plainTable rfl
    cases hr'
    exact absurd hcn (by decide)
  · intro h
    have hl := (((((h.2 _ rfl).2 _ rfl).2 _ rfl).2 _ rfl).2 _ rfl)
    obtain ⟨-, -, -, hc, -⟩ := hl (by decide)
    obtain ⟨r', hr', hcn⟩ := hc plainTable rfl
    cases hr'
    exact absurd hcn (by decide)

end Bqemulator
