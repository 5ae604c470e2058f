import Bqemulator.Jobs.QueryJobs
import Bqemulator.Lib.Run

/-!
# Results of jobs across projects

The catalog knows a job by its project and its id, the results are kept by the id alone: a project
reads what the last request with that id has left, for whichever project.
-/

namespace Bqemulator

open Comp Keyed

open Comp (Respects Sequential)

variable {V : Type}

/-! ## What a job leaves alone -/

variable {r : JobResult V} {c : JobM V JobAnswer} {config : QueryConfiguration} {isDryRun : Bool}

section Frame

variable {w w' : JobWorld V} {jobId : String}

/-- The states differ in the results of a job and of its reading back only, and the job keeps its
result. -/
def KeepsOthers (jobId : String) (w : JobWorld V) (_ : List Unit) (w' : JobWorld V) : Prop :=
  (∀ i, i ≠ jobId → i ≠ readbackJobId jobId → w'.result? i = w.result? i) ∧
    ((w.result? jobId).isSome → (w'.result? jobId).isSome)

theorem sequential_keepsOthers (j : String) :
    Sequential (KeepsOthers (V := V) j) where
  refl _ := ⟨fun _ _ _ => rfl, id⟩
  trans h h' :=
    ⟨fun i hi hi' => (h'.1 i hi hi').trans (h.1 i hi hi'), fun hs => h'.2 (h.2 hs)⟩

theorem readbackJobId_ne (j : String) : readbackJobId j ≠ j := by
  intro heq
  exact absurd (String.append_eq_right_iff.1 heq) (by decide)

theorem result?_of_results (h : w'.results = w.results) (i : String) :
    w'.result? i = w.result? i := by
  rw [JobWorld.result?, h, JobWorld.result?]

theorem result?_put (h : w'.results = w.results.put r) (i : String) :
    w'.result? i = if r.jobId = i then some r.table else w.result? i := by
  rw [JobWorld.result?, h, get?_put]
  split <;> rfl

theorem result?_erase (h : w'.results = w.results.erase jobId) (i : String) :
    w'.result? i = if i = jobId then none else w.result? i := by
  rw [JobWorld.result?, h, get?_erase]
  split <;> rfl

theorem KeepsOthers.of_results (h : w'.results = w.results) : KeepsOthers jobId w [] w' :=
  ⟨fun i _ _ => result?_of_results h i, by rw [result?_of_results h]; exact id⟩

protected theorem KeepsOthers.put (hid : r.jobId = jobId ∨ r.jobId = readbackJobId jobId)
    (h : w'.results = w.results.put r) : KeepsOthers jobId w [] w' := by
  refine ⟨fun i hi hi' => ?_, fun hs => ?_⟩
  · rw [result?_put h, if_neg]
    rintro rfl
    rcases hid with hid | hid
    · exact hi hid
    · exact hi' hid
  · rw [result?_put h]
    split
    · rfl
    · exact hs

theorem KeepsOthers.erase_readback (h : w'.results = w.results.erase (readbackJobId jobId)) :
    KeepsOthers jobId w [] w' := by
  refine ⟨fun i _ hi' => ?_, fun hs => ?_⟩
  · rw [result?_erase h, if_neg hi']
  · rw [result?_erase h, if_neg (readbackJobId_ne jobId).symm]
    exact hs

end Frame

/-! ## Appending queries -/

section Append

variable (env : QueryEnv V) (jobId : String)

theorem respects_readBack (id : TableId) :
    Respects (KeepsOthers jobId) (readBack env jobId id) := by
  have hs := sequential_keepsOthers (V := V) jobId
  refine .tryCatch hs (.bind hs ?_ fun existing =>
    Respects.bind hs ?_ fun _ => .ret hs _) fun e => ?_
  · intro w
    rcases executeQueryJob_cases env (readbackJobId jobId) id.project (selectAll id) w with
      ⟨table, w', hr, -, hrs, -⟩ | ⟨e, w', hr, -, hrs, -⟩
    · rw [hr]
      exact .put (.inr rfl) hrs
    · rw [hr]
      exact .of_results hrs
  · exact .modify fun w => .erase_readback rfl
  · split
    · exact .ret hs _
    · exact .raise hs e

theorem respects_replaceResult (result e : ArrowTable V) :
    Respects (KeepsOthers jobId) (replaceResult env jobId result e) := by
  unfold replaceResult
  split
  · exact .ret (sequential_keepsOthers jobId) _
  · exact .modify fun w => .put (.inl rfl) rfl

/-- The results that an appending query can change. -/
theorem respects_applyWriteAppend (p : String) (c : QueryConfiguration)
    (result : ArrowTable V) :
    Respects (KeepsOthers jobId) (applyWriteAppend env p jobId c result) := by
  have hs := sequential_keepsOthers (V := V) jobId
  intro w
  unfold applyWriteAppend
  split
  · split
    · exact hs.refl w
    rename_i m _
    refine Respects.bind hs (Respects.lift hs _) (fun a =>
      Respects.bind hs (respects_readBack env jobId m.id) fun e => ?_) w
    cases e with
    | none => exact .ret hs _
    | some e =>
      unfold appendExisting
      split
      · exact respects_replaceResult env jobId result e
      · refine .bind hs (fun w => ?_) fun _ => respects_replaceResult env jobId result _
        unfold evolveDestinationSchema
        split <;> exact .of_results rfl
  · exact hs.refl w

end Append

/-! ## What a query leaves -/

section Outcome

variable {env : QueryEnv V} {jobId : String} {st : Prop} {w w' w'' : JobWorld V}
  {answer : Except DomainError JobAnswer}

/-- What a query leaves of the results, and its answer. It keeps a result iff its statement returns
one, also where the checks of the destination turn the job down. -/
inductive QueryLeaves (jobId : String) (stores : Prop) (w w' : JobWorld V) :
    Except DomainError JobAnswer → Prop
  | untouched {answer : Except DomainError JobAnswer} (hstores : ¬stores)
      (hsame : ∀ i, w'.result? i = w.result? i) (hdone : answer ≠ .ok .done) :
      QueryLeaves jobId stores w w' answer
  | kept {answer : Except DomainError JobAnswer} (hstores : stores)
      (hothers : KeepsOthers jobId w [] w') (hsome : (w'.result? jobId).isSome)
      (hanswer : answer = .ok .done ∨ ∃ e, answer = .error e) :
      QueryLeaves jobId stores w w' answer
  | removed (hstores : ¬stores)
      (herased : ∀ i, w'.result? i = if i = jobId then none else w.result? i) :
      QueryLeaves jobId stores w w' (.ok .preview)

theorem QueryLeaves.of_results (h : QueryLeaves jobId st w w' answer)
    (hrs : w''.results = w'.results) : QueryLeaves jobId st w w'' answer := by
  have hr := result?_of_results hrs
  cases h with
  | untouched hs hsa hd =>
    exact .untouched hs (fun i => (hr i).trans (hsa i)) hd
  | kept hs ho hso ha =>
    refine .kept hs ⟨fun i hi hi' => (hr i).trans (ho.1 i hi hi'), fun _ => ?_⟩ ?_
      ha
    · rw [hr]
      exact hso
    · rw [hr]
      exact hso
  | removed hs he => exact .removed hs fun i => (hr i).trans (he i)

theorem QueryLeaves.registered (h : QueryLeaves jobId st w (c w).state (c w).result)
    (p : String) (j : JobType) :
    QueryLeaves jobId st w ((c >>= upsertJob p jobId j) w).state
      ((c >>= upsertJob p jobId j) w).result := by
  cases hr : (c w).result with
  | error e =>
    rw [run_bind_of_error hr]
    exact hr ▸ h
  | ok =>
    rw [run_bind_of_ok hr]
    exact (hr ▸ h).of_results rfl

variable (projectId sql : String)

theorem queryLeaves_executeQueryOrFailedMeta (c : QueryConfiguration) :
    QueryLeaves jobId (∃ table, (env.run projectId sql w.toQueryWorld).1 = .ok table) w
      (executeQueryOrFailedMeta env projectId jobId sql c w).state
      (executeQueryOrFailedMeta env projectId jobId sql c w).result := by
  unfold executeQueryOrFailedMeta
  rcases executeQueryJob_cases env jobId projectId sql w with
    ⟨table, w₁, hr, -, hrs, hok⟩ | ⟨e, w₁, hr, -, hrs, he⟩
  · rw [hr]
    have hs : (w₁.result? jobId).isSome := by
      rw [result?_put hrs, if_pos rfl]
      rfl
    have ho := respects_applyWriteAppend env jobId projectId c table w₁
    -- the result is there before the destination is looked at
    have hk : KeepsOthers jobId w []
        (applyWriteAppend env projectId jobId c table w₁).state :=
      (sequential_keepsOthers jobId).trans (.put (.inl rfl) hrs) ho
    cases hre : (applyWriteAppend env projectId jobId c table w₁).result with
    | error e =>
      simp only [run_bind_of_error hre]
      exact .kept ⟨table, hok⟩ hk (ho.2 hs) (.inr ⟨e, rfl⟩)
    | ok u =>
      simp only [run_bind_of_ok hre]
      exact .kept ⟨table, hok⟩ hk (ho.2 hs) (.inl rfl)
  · rw [hr]
    have hn : ¬∃ table, (env.run projectId sql w.toQueryWorld).1 = .ok table := by
      rw [he]
      rintro ⟨table, ht⟩
      cases ht
    simp only
    split
    · exact .untouched hn (result?_of_results hrs) (by simp)
    · exact .untouched hn (result?_of_results hrs) (by simp)

theorem executeQueryOrFailedMeta_result {p sql : String}
    (hp : config.writeDisposition ≠ some "WRITE_APPEND")
    (hd : (executeQueryOrFailedMeta env p jobId sql config w).result = .ok .done) :
    (executeQueryOrFailedMeta env p jobId sql config w).state.result? jobId =
      (env.run p sql w.toQueryWorld).1.toOption := by
  unfold executeQueryOrFailedMeta at hd ⊢
  rcases executeQueryJob_cases env jobId p sql w with
    ⟨table, w₁, hr, -, hrs, ho⟩ | ⟨e, w₁, hr, -, hrs, he⟩
  · have ha : applyWriteAppend env p jobId config table w₁ = ⟨[], .ok (), w₁⟩ := by
      rw [applyWriteAppend, if_neg hp]
      rfl
    rw [hr]
    simp only [run_bind_of_quiet ha]
    change w₁.result? jobId = _
    rw [result?_put hrs, if_pos rfl, ho]
    rfl
  · rw [hr] at hd
    simp only at hd
    split at hd <;> cases hd

theorem registered_done {p : String} {j : JobType}
    (hd : ((c >>= upsertJob p jobId j) w).result = .ok .done) :
    (c w).result = .ok .done ∧
      ((c >>= upsertJob p jobId j) w).state.result? jobId =
        (c w).state.result? jobId := by
  cases hr : (c w).result with
  | error e =>
    rw [run_bind_of_error hr] at hd
    cases hd
  | ok =>
    rw [run_bind_of_ok hr] at hd ⊢
    exact ⟨hd, rfl⟩

theorem queryLeaves_dryRun : QueryLeaves jobId False w (dryRun env projectId jobId sql w).state
      (dryRun env projectId jobId sql w).result := by
  unfold dryRun
  split
  · exact .untouched id (fun _ => rfl) (by simp [pure, ret])
  rcases executeQueryJob_cases env jobId projectId sql w with
    ⟨table, w₁, hr, -, hrs, -⟩ | ⟨e, w₁, hr, -, hrs, -⟩
  · rw [run_bind_of_quiet hr]
    refine .removed id fun i => ?_
    refine (result?_erase (w := w₁) rfl i).trans ?_
    by_cases hi : i = jobId
    · rw [if_pos hi, if_pos hi]
    · rw [if_neg hi, if_neg hi, result?_put hrs, if_neg (Ne.symm hi)]
  · rw [run_bind_of_raised hr]
    exact .untouched id (result?_of_results hrs) (by simp)

theorem dryRun_not_done : (dryRun env projectId jobId sql w).result ≠ .ok .done := by
  have hl : QueryLeaves jobId False w (dryRun env projectId jobId sql w).state
      (dryRun env projectId jobId sql w).result := queryLeaves_dryRun projectId sql
  generalize (dryRun env projectId jobId sql w).result = answer at hl
  cases hl with
  | untouched _ _ hd => exact hd
  | kept hs => exact hs.elim
  | removed => simp

end Outcome

theorem insertOther_results (p jobId : String) (j : JobType)
    (outcome : QueryWorld V → Except DomainError Unit × QueryWorld V) (w : JobWorld V) :
    (insertOther p jobId j outcome w).state.results = w.results := by
  unfold insertOther
  rcases outcome w.toQueryWorld with ⟨e | u, env⟩ <;> rfl

/-! ## Histories -/

structure QueryRecord (V : Type) where
  project : String
  job : String
  table : Option (ArrowTable V)

/-- The state, with the query jobs inserted in each project. -/
structure JobHistory (V : Type) where
  world : JobWorld V
  inserted : Keyed (fun r : QueryRecord V => (r.project, r.job))

/-- The rows of the job of a request that is done: those an appending query reports, else those of
the statement. -/
def JobRequest.reported (env : QueryEnv V) (w w' : JobWorld V) :
    JobRequest V → Option (ArrowTable V)
  | .query projectId _ sql _ => (env.run projectId sql w.toQueryWorld).1.toOption
  | .insertQuery projectId jobId config _ =>
    if config.writeDisposition = some "WRITE_APPEND" then w'.result? jobId
    else match env.prepare projectId config w.toQueryWorld with
      | .ok sql => (env.run projectId sql w.toQueryWorld).1.toOption
      | .error _ => none
  | _ => none

namespace JobHistory

section History

variable (env : QueryEnv V) (h : JobHistory V)

/-- The query jobs after a query with its answer: done, its job has rows; failed or a dry run, none;
turned down, the jobs stay. -/
def recordQuery (projectId jobId : String) (table : Option (ArrowTable V)) (previews : Bool) :
    Except DomainError JobAnswer → Keyed (fun r : QueryRecord V => (r.project, r.job))
  | .ok .done => h.inserted.put ⟨projectId, jobId, table⟩
  | .ok (.failed _) => h.inserted.put ⟨projectId, jobId, none⟩
  | .ok .preview => if previews then h.inserted.put ⟨projectId, jobId, none⟩ else h.inserted
  | _ => h.inserted

/-- The query jobs after a request with its answer. A dry run by `jobs.query` makes no job. -/
def record (w' : JobWorld V) (answer : Except DomainError JobAnswer) (request : JobRequest V) :
    Keyed (fun r : QueryRecord V => (r.project, r.job)) :=
  match request with
  | .query projectId jobId _ _ =>
    h.recordQuery projectId jobId (request.reported env h.world w') false answer
  | .insertQuery projectId jobId _ _ =>
    h.recordQuery projectId jobId (request.reported env h.world w') true answer
  | .insertOther _ _ _ _ => h.inserted
  | .deleteJob projectId jobId =>
    match answer with
    | .ok _ => h.inserted.erase (projectId, jobId)
    | .error _ => h.inserted

/-- The history after a request. -/
def after (request : JobRequest V) : JobHistory V where
  world := (serveJob env request h.world).state
  inserted := h.record env (serveJob env request h.world).state
    (serveJob env request h.world).result request

def step (h : JobHistory V) (request : JobRequest V) : Except DomainError (JobHistory V) :=
  .ok (h.after env request)

end History

/-- The server before its first request: there are no results, whatever the catalog has. -/
def start (engine : QueryWorld V) : JobHistory V :=
  ⟨{ engine with results := .empty }, .empty⟩

def due (projectId jobId : String) (offset maxResults : Nat) :
    Option (ArrowTable V) → Except DomainError (ResultPage V)
  | none => .error (resourceNotFound ⟨"job", projectId, none, jobId⟩)
  | some table => .ok (table.page offset maxResults)

/-- **Results by project and id**: the rows of the last query job inserted there, and nothing where
there is none. -/
def Strict (h : JobHistory V) : Prop :=
  ∀ projectId jobId offset maxResults,
    getQueryResults h.world projectId jobId offset maxResults =
      due projectId jobId offset maxResults ((h.inserted.get? (projectId, jobId)).bind (·.table))

/-- Where a query job was inserted, its rows are read. -/
def ReadsOwn (h : JobHistory V) : Prop :=
  ∀ r ∈ h.inserted.rows, ∀ offset maxResults,
    getQueryResults h.world r.project r.job offset maxResults =
      due r.project r.job offset maxResults r.table

/-- The requests that keep a result under an id. -/
def Stores (env : QueryEnv V) (h : JobHistory V) : JobRequest V → Prop
  | .query projectId _ sql isDryRun =>
    isDryRun = false ∧ Text.strip sql ≠ "" ∧
      ∃ table, (env.run projectId sql h.world.toQueryWorld).1 = .ok table
  | .insertQuery projectId _ config isDryRun =>
    isDryRun = false ∧ ∃ sql, env.prepare projectId config h.world.toQueryWorld = .ok sql ∧
      ∃ table, (env.run projectId sql h.world.toQueryWorld).1 = .ok table
  | _ => False

/-- No other project has inserted a query job under the id. -/
def OnlyIn (h : JobHistory V) (projectId jobId : String) : Prop :=
  ∀ r ∈ h.inserted.rows, r.job = jobId → r.project = projectId

instance (h : JobHistory V) (projectId jobId : String) : Decidable (h.OnlyIn projectId jobId) :=
  inferInstanceAs (Decidable (∀ r ∈ h.inserted.rows, r.job = jobId → r.project = projectId))

/-- No query job was inserted under the id, and no result is kept there. -/
def Unused (h : JobHistory V) (jobId : String) : Prop :=
  h.world.result? jobId = none ∧ ∀ r ∈ h.inserted.rows, r.job ≠ jobId

/-- **A request that leaves other jobs alone**: its id is used in its project only, is not that
under which another job's destination is read, and is new for a query that is not simply done. -/
def Isolated (env : QueryEnv V) (h : JobHistory V) : JobRequest V → Prop
  | request@(.query projectId jobId _ _) | request@(.insertQuery projectId jobId _ _) =>
    h.OnlyIn projectId jobId ∧ (∀ r ∈ h.inserted.rows, r.job ≠ readbackJobId jobId) ∧
      ((serveJob env request h.world).result ≠ .ok .done → h.Unused jobId)
  | .insertOther _ _ _ _ => True
  | .deleteJob projectId jobId => h.OnlyIn projectId jobId

/-! ## Steps -/

variable {st : Prop}

section Step

variable {env : QueryEnv V} {h : JobHistory V}

theorem getQueryResults_eq_due (w : JobWorld V) (p j : String)
    (o m : Nat) :
    getQueryResults w p j o m =
      due p j o m (w.result? j) := by
  unfold getQueryResults due
  cases w.result? j <;> rfl

theorem queryLeaves_query (p j sql : String) (i : Bool) :
    QueryLeaves j (h.Stores env (.query p j sql i)) h.world
      (serveJob env (.query p j sql i) h.world).state
      (serveJob env (.query p j sql i) h.world).result := by
  unfold Stores serveJob queryRoute
  cases i with
  | true =>
    simp only [Bool.true_eq_false, false_and]
    exact queryLeaves_dryRun p sql
  | false =>
    simp only [true_and]
    by_cases he : Text.strip sql = ""
    · simp only [if_pos he]
      exact .untouched (fun hs => hs.1 he) (fun _ => rfl) (by simp [raise])
    · simp only [ne_eq, he, not_false_eq_true, true_and]
      exact (queryLeaves_executeQueryOrFailedMeta p sql _).registered p .query

theorem queryLeaves_insertQuery (p j : String) (c : QueryConfiguration)
    (i : Bool) :
    QueryLeaves j (h.Stores env (.insertQuery p j c i)) h.world
      (serveJob env (.insertQuery p j c i) h.world).state
      (serveJob env (.insertQuery p j c i) h.world).result := by
  unfold Stores serveJob
  cases hp : env.prepare p c h.world.toQueryWorld with
  | error e =>
    simp only [insertQuery_of_rejected env hp]
    refine .untouched ?_ (fun _ => rfl) (by simp)
    rintro ⟨-, s, hs, -⟩
    cases hp.symm.trans hs
  | ok s =>
    simp only [insertQuery_of_prepared env hp, hp, Except.ok.injEq, exists_eq_left']
    cases i with
    | true =>
      simp only [Bool.true_eq_false, false_and]
      exact (queryLeaves_dryRun p s).registered p .query
    | false =>
      simp only [true_and]
      exact (queryLeaves_executeQueryOrFailedMeta p s c).registered p .query

variable {projectId jobId : String} {answer : Except DomainError JobAnswer}
  {table : Option (ArrowTable V)} {w' : JobWorld V} {request : JobRequest V}

theorem reported_query {sql : String}
    (hd : (serveJob env (.query projectId jobId sql isDryRun) h.world).result = .ok .done) :
    (serveJob env (.query projectId jobId sql isDryRun) h.world).state.result? jobId =
      JobRequest.reported env h.world
        (serveJob env (.query projectId jobId sql isDryRun) h.world).state
        (.query projectId jobId sql isDryRun) := by
  unfold serveJob queryRoute at hd ⊢
  cases isDryRun with
  | true =>
    exact absurd hd (dryRun_not_done projectId sql)
  | false =>
    simp only [Bool.false_eq_true, if_false] at hd ⊢
    by_cases he : Text.strip sql = ""
    · simp only [if_pos he] at hd
      cases hd
    · simp only [if_neg he] at hd ⊢
      obtain ⟨hd, hr⟩ := registered_done hd
      rw [hr]
      exact executeQueryOrFailedMeta_result (by simp) hd

theorem reported_insertQuery
    (hd : (serveJob env (.insertQuery projectId jobId config isDryRun) h.world).result =
      .ok .done) :
    (serveJob env (.insertQuery projectId jobId config isDryRun) h.world).state.result? jobId =
      JobRequest.reported env h.world
        (serveJob env (.insertQuery projectId jobId config isDryRun) h.world).state
        (.insertQuery projectId jobId config isDryRun) := by
  simp only [JobRequest.reported]
  by_cases ha : config.writeDisposition = some "WRITE_APPEND"
  · rw [if_pos ha]
  rw [if_neg ha]
  unfold serveJob at hd ⊢
  cases hp : env.prepare projectId config h.world.toQueryWorld with
  | error e =>
    simp only [insertQuery_of_rejected env hp] at hd
    cases hd
  | ok s =>
    simp only [insertQuery_of_prepared env hp] at hd ⊢
    obtain ⟨hd, hr⟩ := registered_done hd
    rw [hr]
    cases isDryRun with
    | true =>
      exact absurd hd (dryRun_not_done projectId s)
    | false => exact executeQueryOrFailedMeta_result ha hd

theorem mem_recordQuery {p : Bool} {r : QueryRecord V}
    (hr : r ∈ (h.recordQuery projectId jobId table p answer).rows) :
    r ∈ h.inserted.rows ∧ (answer = .ok .done → (r.project, r.job) ≠ (projectId, jobId)) ∨
      r.project = projectId ∧ r.job = jobId ∧
        (answer = .ok .done ∧ r.table = table ∨
          answer ≠ .ok .done ∧ (∀ e, answer ≠ .error e) ∧ r.table = none) := by
  unfold recordQuery at hr
  split at hr
  · rcases mem_put.1 hr with rfl | ⟨hr, hn⟩
    · exact .inr ⟨rfl, rfl, .inl ⟨rfl, rfl⟩⟩
    · exact .inl ⟨hr, fun _ => hn⟩
  · rcases mem_put.1 hr with rfl | ⟨hr, -⟩
    · exact .inr ⟨rfl, rfl, .inr ⟨by simp, by simp, rfl⟩⟩
    · exact .inl ⟨hr, by simp⟩
  · split at hr
    · rcases mem_put.1 hr with rfl | ⟨hr, -⟩
      · exact .inr ⟨rfl, rfl, .inr ⟨by simp, by simp, rfl⟩⟩
      · exact .inl ⟨hr, by simp⟩
    · exact .inl ⟨hr, by simp⟩
  · rename_i hd _ _
    exact .inl ⟨hr, fun h => absurd h hd⟩

/-- Where a job was inserted the result under its id is its own. -/
def Consistent (h : JobHistory V) : Prop :=
  ∀ r ∈ h.inserted.rows, h.world.result? r.job = r.table

theorem consistent_query (hI : h.Consistent) (hl : QueryLeaves jobId st h.world w' answer)
    (hre : answer = .ok .done → w'.result? jobId = table) (ho : h.OnlyIn projectId jobId)
    (hra : ∀ r ∈ h.inserted.rows, r.job ≠ readbackJobId jobId)
    (hn : answer ≠ .ok .done → h.Unused jobId) (p : Bool) :
    Consistent ⟨w', h.recordQuery projectId jobId table p answer⟩ := by
  intro r hr
  rcases mem_recordQuery hr with ⟨hr, hne⟩ | ⟨-, rfl, ⟨hd, rfl⟩ | ⟨hd, hm, ht⟩⟩
  · -- the record of another job, whose id is therefore another one
    have hj : r.job ≠ jobId := by
      intro hj
      by_cases hd : answer = .ok .done
      · exact hne hd (by rw [ho r hr hj, hj])
      · exact (hn hd).2 r hr hj
    rw [← hI r hr]
    cases hl with
    | untouched _ hs _ => exact hs r.job
    | kept _ hot _ _ => exact hot.1 r.job hj (hra r hr)
    | removed _ he => rw [he, if_neg hj]
  · exact hre hd
  · rw [ht]
    cases hl with
    | untouched _ hs _ => exact (hs r.job).trans (hn hd).1
    | kept _ _ _ ha =>
      rcases ha with ha | ⟨e, ha⟩
      · exact absurd ha hd
      · exact absurd ha (hm e)
    | removed _ he => rw [he, if_pos rfl]

theorem after_deleteJob (env : QueryEnv V) (h : JobHistory V) (p j : String) :
    h.after env (.deleteJob p j) = h ∨
      ∃ catalog, h.after env (.deleteJob p j) =
        ⟨{ h.world with catalog, results := h.world.results.erase j },
          h.inserted.erase (p, j)⟩ := by
  cases hd : h.world.catalog.deleteJob (p, j) false with
  | error e =>
    have hs : serveJob env (.deleteJob p j) h.world =
        ⟨[], .error e, h.world⟩ := by
      simp only [serveJob, deleteJob, hd]
    exact .inl (by simp only [after, record, hs])
  | ok catalog =>
    have hs : serveJob env (.deleteJob p j) h.world =
        ⟨[], .ok .deleted, { h.world with catalog, results := h.world.results.erase j }⟩ := by
      simp only [serveJob, deleteJob, hd]
    exact .inr ⟨catalog, by simp only [after, record, hs]⟩

theorem consistent_after (hI : h.Consistent) (hi : h.Isolated env request) :
    (h.after env request).Consistent := by
  cases request with
  | query p jobId s i =>
    obtain ⟨ho, hre, hn⟩ := hi
    exact consistent_query hI (queryLeaves_query p jobId s i) reported_query ho
      hre hn false
  | insertQuery p jobId c i =>
    obtain ⟨ho, hre, hn⟩ := hi
    exact consistent_query hI (queryLeaves_insertQuery p jobId c i)
      reported_insertQuery ho hre hn true
  | insertOther p jobId j outcome =>
    intro r hr
    rw [← hI r hr]
    exact result?_of_results (insertOther_results p jobId j outcome h.world) r.job
  | deleteJob p jobId =>
    rcases after_deleteJob env h p jobId with heq | ⟨catalog, heq⟩
    · rw [heq]
      exact hI
    rw [heq]
    intro r hr
    obtain ⟨hm, hne⟩ := mem_erase.1 hr
    have hj : r.job ≠ jobId := fun hj => hne (by rw [hi r hm hj, hj])
    refine (result?_erase (w := h.world) rfl r.job).trans ?_
    rw [if_neg hj]
    exact hI r hm

/-- No result is kept, and no query job has rows. -/
def Blank (h : JobHistory V) : Prop :=
  (∀ i, h.world.result? i = none) ∧ ∀ r ∈ h.inserted.rows, r.table = none

theorem Blank.strict (hI : h.Blank) : h.Strict := by
  intro p j o m
  rw [getQueryResults_eq_due, hI.1]
  cases hg : h.inserted.get? (p, j) with
  | none => rfl
  | some r =>
    rw [Option.bind_some, hI.2 r (get?_eq_some_iff.1 hg).1]

theorem blank_query (hI : h.Blank) (hl : QueryLeaves jobId st h.world w' answer)
    (hst : ¬st) (p : Bool) :
    Blank ⟨w', h.recordQuery projectId jobId table p answer⟩ := by
  have hn : answer ≠ .ok .done ∧ ∀ i, w'.result? i = none := by
    cases hl with
    | untouched _ hs hd => exact ⟨hd, fun i => (hs i).trans (hI.1 i)⟩
    | kept h => exact absurd h hst
    | removed _ he =>
      refine ⟨by simp, fun i => ?_⟩
      rw [he, hI.1]
      exact ite_self _
  refine ⟨hn.2, fun r hr => ?_⟩
  rcases mem_recordQuery hr with ⟨hr, -⟩ | ⟨-, -, ⟨hd, -⟩ | ⟨-, -, ht⟩⟩
  · exact hI.2 r hr
  · exact absurd hd hn.1
  · exact ht

theorem not_strict_query (hI : h.Blank) (hl : QueryLeaves jobId st h.world w' answer)
    (hst : st) (p : Bool) :
    ¬Strict ⟨w', h.recordQuery projectId jobId table p answer⟩ := by
  intro hsr
  have hs : (w'.result? jobId).isSome := by
    cases hl with
    | untouched h => exact absurd hst h
    | kept _ _ hs _ => exact hs
    | removed h => exact absurd hst h
  obtain ⟨kept, hk⟩ := Option.isSome_iff_exists.1 hs
  -- a project with a longer name has no rows under the id
  have ho : projectId ++ "-" ≠ projectId := fun heq =>
    absurd (String.append_eq_left_iff.1 heq) (by decide)
  have hre := hsr (projectId ++ "-") jobId 0 0
  rw [getQueryResults_eq_due] at hre
  simp only [hk] at hre
  cases hg : (h.recordQuery projectId jobId table p answer).get?
      (projectId ++ "-", jobId) with
  | none =>
    rw [hg] at hre
    cases hre
  | some r =>
    obtain ⟨hm, hke⟩ := get?_eq_some_iff.1 hg
    rcases mem_recordQuery hm with ⟨hr, -⟩ | ⟨hp, -, -⟩
    · rw [hg, Option.bind_some, hI.2 r hr] at hre
      cases hre
    · exact ho ((congrArg Prod.fst hke).symm.trans hp)

theorem blank_after (hI : h.Blank) (hs : ¬h.Stores env request) :
    (h.after env request).Blank := by
  cases request with
  | query p jobId s isDryRun =>
    exact blank_query hI (queryLeaves_query p jobId s isDryRun) hs false
  | insertQuery p jobId c isDryRun =>
    exact blank_query hI (queryLeaves_insertQuery p jobId c isDryRun) hs true
  | insertOther p jobId j outcome =>
    refine ⟨fun i => ?_, hI.2⟩
    rw [← hI.1 i]
    exact result?_of_results (insertOther_results p jobId j outcome h.world) i
  | deleteJob p jobId =>
    rcases after_deleteJob env h p jobId with heq | ⟨catalog, heq⟩
    · rw [heq]
      exact hI
    rw [heq]
    refine ⟨fun i => ?_, fun r hr => hI.2 r (mem_erase.1 hr).1⟩
    refine (result?_erase (w := h.world) rfl i).trans ?_
    rw [hI.1]
    exact ite_self _

theorem not_stores_of_strict_after (hI : h.Blank) (hst : (h.after env request).Strict) :
    ¬h.Stores env request := by
  intro hs
  cases request with
  | query p j s i =>
    exact not_strict_query hI (queryLeaves_query p j s i) hs false hst
  | insertQuery p j c i =>
    exact not_strict_query hI (queryLeaves_insertQuery p j c i) hs true
      hst
  | insertOther | deleteJob => exact hs

end Step

end JobHistory

/-! ## Runs -/

/-- **Results by project and id.** A run is strict iff no request keeps a result. Where each request
leaves other jobs alone, every project reads its own results of its jobs. -/
theorem job_results_isolated_iff (env : QueryEnv V) (engine : QueryWorld V)
    (requests : List (JobRequest V)) :
    (Run.Always (JobHistory.step env) JobHistory.Strict (.start engine) requests ↔
      Run.EachStep (JobHistory.step env) (fun h request => ¬h.Stores env request) (.start engine)
        requests) ∧
    (Run.EachStep (JobHistory.step env) (JobHistory.Isolated env) (.start engine) requests →
      Run.Always (JobHistory.step env) JobHistory.ReadsOwn (.start engine) requests) := by
  constructor
  · refine Run.always_iff_eachStep (I := JobHistory.Blank) (fun h hI => hI.strict) ?_ ?_ ?_
    · rintro h request _ hI hs ⟨⟩
      exact JobHistory.blank_after hI hs
    · rintro h request _ hI ⟨⟩ hst
      exact JobHistory.not_stores_of_strict_after hI hst
    · exact ⟨fun _ => rfl, fun r hr => absurd hr (List.not_mem_nil)⟩
  · refine Run.always_of_eachStep (I := JobHistory.Consistent) ?_ ?_ ?_
    · intro h hI r hr o m
      rw [JobHistory.getQueryResults_eq_due, hI r hr]
    · rintro h request _ hI hi ⟨⟩
      exact JobHistory.consistent_after hI hi
    · exact fun r hr => absurd hr List.not_mem_nil

def echoEnv : QueryEnv String where
  null := ""
  run _ sql engine := (.ok ⟨[("text", "VARCHAR")], [[sql]]⟩, engine)
  prepare _ config _ := .ok config.query
  isDestructive _ := false
  align table _ := some table.rows
  bqType := id

/-- Two jobs of one project and one of another, under ids of their own, the first of them
deleted. -/
theorem job_results_threeJobs :
    Run.Always (JobHistory.step echoEnv) JobHistory.ReadsOwn (.start ⟨{}, ⟨[], .empty⟩⟩)
      [.insertQuery "p" "job1" { query := "SELECT 1" } false,
        .insertQuery "p" "job2" { query := "SELECT 2" } false,
        .insertQuery "q" "job3" { query := "SELECT 3" } false, .deleteJob "p" "job1"] := by
  refine (job_results_isolated_iff echoEnv _ _).2 ?_
  rintro _ ⟨⟩
  refine ⟨⟨by decide, by decide, fun hd => absurd (by decide) hd⟩, ?_⟩
  rintro _ ⟨⟩
  refine ⟨⟨by decide, by decide, fun hd => absurd (by decide) hd⟩, ?_⟩
  rintro _ ⟨⟩
  refine ⟨⟨by decide, by decide, fun hd => absurd (by decide) hd⟩, ?_⟩
  rintro _ ⟨⟩
  exact ⟨(by decide : JobHistory.OnlyIn _ "p" "job1"), trivial⟩

/-- Two projects insert jobs under one id: each reads the rows of the second, and nothing after that
is deleted. -/
theorem job_results_shared :
    let first : JobRequest String := .insertQuery "p" "job" { query := "SELECT 1" } false
    let second : JobRequest String := .insertQuery "q" "job" { query := "SELECT 2" } false
    let h := ((JobHistory.start ⟨{}, ⟨[], .empty⟩⟩).after echoEnv first).after echoEnv second
    getQueryResults h.world "p" "job" 0 10 = .ok ⟨[("text", "VARCHAR")], [["SELECT 2"]], 1, none⟩ ∧
      (h.inserted.get? ("p", "job")).bind (·.table) =
        some ⟨[("text", "VARCHAR")], [["SELECT 1"]]⟩ ∧
      (h.after echoEnv (.deleteJob "q" "job")).world.result? "job" = none ∧
      ((h.after echoEnv (.deleteJob "q" "job")).inserted.get? ("p", "job")).isSome := by
  decide

end Bqemulator
