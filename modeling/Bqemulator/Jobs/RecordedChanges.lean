import Bqemulator.Jobs.QueryExecution
import Bqemulator.Scripting.Effects
import Bqemulator.Versioning.Snapshots

/-!
# The changes that query jobs record

When a query job returns, every table whose rows it has changed is to have a snapshot of its final
rows, and an event. The record is made from the one tree that the parser returns for the text: for
several statements that is a block, which is no `INSERT`, `UPDATE`, `DELETE`, `MERGE` or `TRUNCATE`.
-/

namespace Bqemulator

open List

variable {Row τ : Type}

/-! ## Changes and their record -/

namespace World

variable (w : World Row) (id : TableId)

def rowsOf : List Row :=
  (w.storage.get id.key).getD []

/-- **A table of the catalog whose rows have changed.** -/
def Changed (w w' : World Row) (id : TableId) : Prop :=
  (w'.catalog.getTable id).isSome ∧ w.rowsOf id ≠ w'.rowsOf id

/-- **A table has a snapshot equal to its rows.** -/
def HasSnapshot : Prop :=
  ∃ s ∈ w.catalog.snapshots, s.source = id ∧
    w.storage.get (s.duckdbSchema, s.duckdbTable) = some (w.rowsOf id)

/-- **The change of a table is announced** between two worlds. -/
def Published (w w' : World Row) (id : TableId) : Prop :=
  id ∈ w'.events.drop w.events.length

/-- A table whose changes are recorded with a snapshot. -/
def Recordable : Prop :=
  ∃ m, w.catalog.getTable id = some m ∧ m.tableType.isImmutable = false

/-- The tables of the snapshot schema are called like their snapshots. -/
def OwnTables : Prop :=
  ∀ s ∈ w.catalog.snapshots, s.duckdbSchema = snapshotsSchema → s.duckdbTable = s.snapshotId

end World

/-- **What the record of changes does**: every listed table of the catalog is announced and, unless
immutable, gets a snapshot of its rows. Tables and rows stay. -/
structure Captures (ids : List TableId) (w w' : World Row) : Prop where
  tables : w'.catalog.getTable = w.catalog.getTable
  rows : ∀ id, w'.rowsOf id = w.rowsOf id
  events : ∃ published, w'.events = w.events ++ published ∧
    ∀ id, id ∈ published ↔ id ∈ ids ∧ (w.catalog.getTable id).isSome
  snapshots : ∀ id, w'.HasSnapshot id ↔ w.HasSnapshot id ∨ id ∈ ids ∧ w.Recordable id
  ownTables : w'.OwnTables

variable {w : World Row} {id : TableId}

theorem captures_nil (h : w.OwnTables) : Captures [] w w where
  tables := rfl
  rows _ := rfl
  events := ⟨[], (List.append_nil _).symm, fun id => by simp⟩
  snapshots id := by simp
  ownTables := h

variable {ids : List TableId}

theorem Captures.trans {w' w'' : World Row} (h : Captures [id] w w') (h' : Captures ids w' w'') :
    Captures (id :: ids) w w'' where
  tables := h'.tables.trans h.tables
  rows T := (h'.rows T).trans (h.rows T)
  events := by
    obtain ⟨first, hf, hf'⟩ := h.events
    obtain ⟨r, hr, hr'⟩ := h'.events
    refine ⟨first ++ r, by rw [hr, hf, append_assoc], fun T => ?_⟩
    rw [mem_append, hf', hr', h.tables, mem_singleton, mem_cons, or_and_right]
  snapshots T := by
    have hre : w'.Recordable T ↔ w.Recordable T := by
      rw [World.Recordable, World.Recordable, h.tables]
    rw [h'.snapshots, h.snapshots, hre, mem_singleton, mem_cons, or_and_right, or_assoc]
  ownTables := h'.ownTables

theorem hasSnapshot_addSnapshot (h : w.OwnTables) {hex : String} {rows : List Row}
    (hro : w.storage.get id.key = some rows)
    (hf : ∀ t ∈ w.catalog.snapshots, t.snapshotId ≠ newSnapshotId w.now hex) (T : TableId) :
    (w.addSnapshot (snapshotMeta w.now w.retentionDays id .auto hex) rows).HasSnapshot T ↔
      w.HasSnapshot T ∨ T = id := by
  let s := snapshotMeta w.now w.retentionDays id .auto hex
  let key := (s.duckdbSchema, s.duckdbTable)
  have hk : ∀ T : TableId, (w.addSnapshot s rows).rowsOf T = w.rowsOf T := by
    intro T
    exact congrArg (Option.getD · []) (Storage.get_put_of_ne _ _ (key_ne_snapshot T _))
  -- no older snapshot is read from the new table
  have ho : ∀ t ∈ w.catalog.snapshots, (t.duckdbSchema, t.duckdbTable) ≠ key := by
    intro t ht heq
    obtain ⟨hs, hta⟩ := Prod.mk.inj heq
    exact hf t ht ((h t ht hs).symm.trans hta)
  constructor
  · rintro ⟨t, ht, rfl, hr⟩
    rw [hk] at hr
    rcases mem_append.1 ht with ht | ht
    · refine .inl ⟨t, ht, rfl, ?_⟩
      rwa [← Storage.get_put_of_ne w.storage rows (ho t ht)]
    · obtain rfl := mem_singleton.1 ht
      exact .inr rfl
  · rintro (⟨t, ht, rfl, hr⟩ | rfl)
    · refine ⟨t, mem_append_left _ ht, rfl, ?_⟩
      rw [hk, ← hr]
      exact Storage.get_put_of_ne w.storage rows (ho t ht)
    · refine ⟨s, mem_append_right _ (mem_singleton.2 rfl), rfl, ?_⟩
      rw [hk, World.rowsOf, hro]
      exact Storage.get_put_self w.storage key rows

theorem captures_recordChange {w' : World Row} (h : w.OwnTables) {m : TableMeta}
    (hm : w.catalog.getTable id = some m) (hmu : m.tableType.isImmutable = false) {hex : String}
    (hrd : w.recordChange id hex = .ok w') : Captures [id] w w' := by
  unfold World.recordChange at hrd
  cases hc : w.capture id .auto hex with
  | error e => simp [hc] at hrd
  | ok c =>
    obtain ⟨w₁, s⟩ := c
    rw [hc] at hrd
    obtain rfl := Except.ok.inj hrd
    rcases World.capture_cases hc with ⟨hn, -, -⟩ | ⟨m', rows, -, hr, -, hf, rfl, -⟩
    · rw [hm] at hn
      cases hn
    refine ⟨rfl, fun T => ?_, ⟨[id], rfl, fun T => ?_⟩, fun T => ?_, fun t ht hs => ?_⟩
    · exact congrArg (Option.getD · []) (Storage.get_put_of_ne _ _ (key_ne_snapshot T _))
    · rw [mem_singleton, iff_self_and]
      rintro rfl
      simp [hm]
    · refine (hasSnapshot_addSnapshot h hr hf T).trans (or_congr_right ?_)
      rw [mem_singleton, iff_self_and]
      rintro rfl
      exact ⟨m, hm, hmu⟩
    · rcases mem_append.1 ht with ht | ht
      · exact h t ht hs
      · obtain rfl := mem_singleton.1 ht
        rfl

/-! ## Jobs on a world -/

structure EmulatorState (Row τ : Type) where
  world : World Row
  rest : τ

/-- Query jobs on a world: changes are recorded there, with random digits for the ids of
snapshots. -/
def recordingEnv (env : QueryJobEnv (EmulatorState Row τ))
    (hex : TableId → EmulatorState Row τ → String) :
    QueryJobEnv (EmulatorState Row τ) :=
  { env with
    getTable s := s.world.catalog.getTable
    publish id s := { s with world := { s.world with events := s.world.events ++ [id] } }
    recordChange id s :=
      (s.world.recordChange id (hex id s)).map fun world => { s with world } }

variable {s s' : EmulatorState Row τ}

section

variable {env : QueryJobEnv (EmulatorState Row τ)} {hex : TableId → EmulatorState Row τ → String}

theorem captures_captureTarget (h : s.world.OwnTables)
    (hc : (recordingEnv env hex).captureTarget id s = .ok s') :
    Captures [id] s.world s'.world := by
  unfold QueryJobEnv.captureTarget at hc
  cases hm : s.world.catalog.getTable id with
  | none =>
    simp only [recordingEnv, hm, Except.ok.injEq] at hc
    obtain rfl := hc
    refine ⟨rfl, fun _ => rfl, ⟨[], (append_nil _).symm, fun T => ?_⟩, fun T => ?_, h⟩
    · refine iff_of_false not_mem_nil ?_
      rintro ⟨hT, hs⟩
      rw [mem_singleton.1 hT, hm] at hs
      cases hs
    · refine (or_iff_left ?_).symm
      rintro ⟨hT, m, hm', -⟩
      rw [mem_singleton.1 hT, hm] at hm'
      cases hm'
  | some m =>
    cases hi : m.tableType.isImmutable with
    | true =>
      simp only [recordingEnv, hm, hi, if_true, Except.ok.injEq] at hc
      obtain rfl := hc
      refine ⟨rfl, fun _ => rfl, ⟨[id], rfl, fun T => ?_⟩, fun T => ?_, h⟩
      · rw [mem_singleton, iff_self_and]
        rintro rfl
        simp [hm]
      refine (or_iff_left ?_).symm
      rintro ⟨hT, m', hm', hmu⟩
      obtain rfl := mem_singleton.1 hT
      obtain rfl := Option.some.inj (hm.symm.trans hm')
      rw [hi] at hmu
      cases hmu
    | false =>
      simp only [recordingEnv, hm, hi] at hc
      obtain ⟨world, hr, rfl⟩ := Except.map_eq_ok_iff.1 hc
      exact captures_recordChange h hm hi hr

/-- The record of changes takes a snapshot of each table. -/
theorem captures_captureEach (h : s.world.OwnTables)
    (hc : (recordingEnv env hex).captureEach ids s = (.ok (), s')) :
    Captures ids s.world s'.world := by
  induction ids generalizing s with
  | nil =>
    obtain rfl : s = s' := congrArg Prod.snd hc
    exact captures_nil h
  | cons id r ih =>
    rw [QueryJobEnv.captureEach] at hc
    cases hf : (recordingEnv env hex).captureTarget id s with
    | error e => simp [hf] at hc
    | ok s₁ =>
      rw [hf] at hc
      have hs := captures_captureTarget h hf
      exact hs.trans (ih hs.ownTables hc)

/-! ## What the statements of a job leave alone -/

/-- **No change is announced**, and snapshots are registered with tables called like them. -/
def DiscreetStep (s s' : EmulatorState Row τ) : Prop :=
  s'.world.events = s.world.events ∧ (s.world.OwnTables → s'.world.OwnTables)

/-- **The statements of a job announce no change**: in the source only the record after a query job
does. -/
structure Discreet (env : QueryJobEnv (EmulatorState Row τ)) : Prop where
  intercept : ∀ project sql s, DiscreetStep s (env.intercept project sql s).2
  fastPath : ∀ project sql s, DiscreetStep s (env.fastPath project sql s).2
  runSingleSql : ∀ project sql s, DiscreetStep s (env.runSingleSql project sql s).2
  perform : ∀ e s, DiscreetStep s (env.script.perform e s).2
  backup : ∀ target name s s', env.script.backup target name s = some s' → DiscreetStep s s'
  restore : ∀ target name s, DiscreetStep s (env.script.restore target name s)
  dropBackup : ∀ name s, DiscreetStep s (env.script.dropBackup name s)

theorem Discreet.worldRule (h : Discreet env) :
    WorldRule env.script (fun _ => True) (fun _ => True) DiscreetStep where
  refl _ := ⟨rfl, id⟩
  trans hf hs :=
    ⟨hs.1.trans hf.1, fun ho => hs.2 (hf.2 ho)⟩
  perform e s _ := h.perform e s
  backup target name s s' hb _ := ⟨trivial, h.backup target name s s' hb⟩
  restore target name s _ := h.restore target name s
  dropBackup := h.dropBackup

/-- The run of a text announces nothing. -/
theorem discreet_run (h : Discreet env) (p sql : String) (path : JobPath)
    (s : EmulatorState Row τ) : DiscreetStep s (env.run p sql path s).2 := by
  cases path with
  | intercepted => exact h.intercept p sql s
  | fastPath => exact h.fastPath p sql s
  | single => exact h.runSingleSql p sql s
  | script => exact h.worldRule.runJobScript (allEvents_of_forall (fun _ => trivial) _)

/-- **The jobs that change nothing but what they record**: a table whose rows change is a target of
the statement that the parser returns for the text, and not immutable, unless a snapshot has its new
rows already. -/
def CoversChanges (env : QueryJobEnv (EmulatorState Row τ)) (project sql : String)
    (s : EmulatorState Row τ) : Prop :=
  ∀ path, env.path project sql = .ok path → ∀ id,
    s.world.Changed (env.run project sql path s).2.world id →
      id ∈ env.recorded project sql path ∧
        ((env.run project sql path s).2.world.Recordable id ∨
          (env.run project sql path s).2.world.HasSnapshot id)

end

/-- **The jobs whose changes are all recorded**, with a snapshot of the final rows and an event, are
those that change nothing but what they record. -/
theorem changes_recorded_iff (env : QueryJobEnv (EmulatorState Row τ))
    (hex : TableId → EmulatorState Row τ → String) (hdiscreet : Discreet env) (project sql : String)
    (s : EmulatorState Row τ) (hown : s.world.OwnTables)
    (hok : ((recordingEnv env hex).execute project sql s).1 = .ok ()) :
    (∀ id, s.world.Changed ((recordingEnv env hex).execute project sql s).2.world id →
      ((recordingEnv env hex).execute project sql s).2.world.HasSnapshot id ∧
        s.world.Published ((recordingEnv env hex).execute project sql s).2.world id) ↔
    CoversChanges env project sql s := by
  obtain ⟨path, hp, -, hce⟩ := (recordingEnv env hex).execute_eq_ok project sql hok
  generalize ((recordingEnv env hex).execute project sql s).2 = s' at hce ⊢
  have hp' : env.path project sql = .ok path := hp
  obtain ⟨he, ho'⟩ := discreet_run hdiscreet project sql path s
  have hc : Captures (env.recorded project sql path) (env.run project sql path s).2.world
      s'.world := captures_captureEach (ho' hown) hce
  obtain ⟨p, hpu, hm⟩ := hc.events
  have hch : ∀ id, s.world.Changed s'.world id ↔
      s.world.Changed (env.run project sql path s).2.world id := by
    intro id
    rw [World.Changed, World.Changed, hc.tables, hc.rows]
  -- what is announced since the start is what the record announces
  have ha : ∀ id, s.world.Changed s'.world id → (s.world.Published s'.world id ↔
      id ∈ env.recorded project sql path) := by
    intro id hi
    rw [World.Published, hpu, ← he, drop_left, hm, and_iff_left]
    exact ((hch id).1 hi).1
  constructor
  · intro hrd p' hp'' id hi
    obtain rfl : path = p' := Except.ok.inj (hp'.symm.trans hp'')
    have hi' := (hch id).2 hi
    obtain ⟨hs, hph⟩ := hrd id hi'
    have hin := (ha id hi').1 hph
    refine ⟨hin, ?_⟩
    rcases (hc.snapshots id).1 hs with hb | ⟨-, hr⟩
    · exact .inr hb
    · exact .inl hr
  · intro hco id hi
    obtain ⟨hin, hw⟩ := hco path hp' id ((hch id).1 hi)
    refine ⟨(hc.snapshots id).2 ?_, (ha id hi).2 hin⟩
    rcases hw with hr | hb
    · exact .inr ⟨hin, hr⟩
    · exact .inl hb

def twoEmptyTables : EmulatorState Nat Unit where
  world := {
    now := 0
    retentionDays := 7
    catalog := { tables := [{ id := ⟨"p", "d", "t"⟩ }, { id := ⟨"p", "d", "u"⟩ }] }
    storage := { tables := [(("p__d", "t"), []), (("p__d", "u"), [])] } }
  rest := ()

def appendOne (key : String × String) (s : EmulatorState Nat Unit) : EmulatorState Nat Unit :=
  { s with world := { s.world with
    storage := s.world.storage.put key ((s.world.storage.get key).getD [] ++ [1]) } }

def runInsert (sql : String) (s : EmulatorState Nat Unit) : EmulatorState Nat Unit :=
  if sql = "INSERT d.t" then appendOne ("p__d", "t") s
  else if sql = "INSERT d.u" then appendOne ("p__d", "u") s
  else s

def insertTree (name : String) : Sql :=
  .node .insert [(.this, .leaf (.table { db := "d", name }))]

/-- The tree of a text: a statement, or the block of the two. -/
def parseInserts (sql : String) : Sql :=
  if sql = "INSERT d.t; INSERT d.u" then
    .node (.other "Block") [(.expressions, insertTree "t"), (.expressions, insertTree "u")]
  else insertTree (if sql = "INSERT d.u" then "u" else "t")

def insertStatements : QueryJobEnv (EmulatorState Nat Unit) where
  script := { ScriptEnv.idle _ with
    parseScript sql :=
      if sql = "INSERT d.t; INSERT d.u" then .ok [.sql "INSERT d.t", .sql "INSERT d.u"]
      else .ok [.sql sql]
    parseSql := parseInserts
    perform e s := (.ok {}, match e with
      | .runQuery _ _ sql _ => runInsert sql s
      | _ => s) }
  depth := 1
  detectDropRoutine _ := false
  isRowAccessDdl _ := false
  intercept _ _ s := (.ok (), s)
  fastPath _ _ s := (.ok (), s)
  guardSingleDdl _ _ _ := .ok ()
  runSingleSql _ sql s := (.ok (), runInsert sql s)
  getTable s := s.world.catalog.getTable
  publish _ s := s
  recordChange _ s := .ok s

theorem discreet_insertStatements : Discreet insertStatements := by
  have hi : ∀ sql s, DiscreetStep s (runInsert sql s) := by
    intro sql s
    unfold runInsert
    split
    · exact ⟨rfl, id⟩
    split
    · exact ⟨rfl, id⟩
    · exact ⟨rfl, id⟩
  refine ⟨fun _ _ s => ⟨rfl, id⟩, fun _ _ s => ⟨rfl, id⟩, fun _ sql s => hi sql s,
    fun e s => ?_, fun _ _ s s' h => ?_, fun _ _ s => ⟨rfl, id⟩, fun _ s => ⟨rfl, id⟩⟩
  · cases e with
    | runQuery isStatement p sql v => exact hi sql s
    | _ => exact ⟨rfl, id⟩
  · obtain rfl := Option.some.inj h
    exact ⟨rfl, id⟩

/-- The change of a single insertion is recorded. -/
theorem changes_recorded_single :
    let job :=
      (recordingEnv insertStatements fun _ _ => "0").execute "p" "INSERT d.t" twoEmptyTables
    ∀ id, twoEmptyTables.world.Changed job.2.world id →
      job.2.world.HasSnapshot id ∧ twoEmptyTables.world.Published job.2.world id := by
  have ho : twoEmptyTables.world.OwnTables := fun t ht => (nomatch ht)
  have hok : ((recordingEnv insertStatements fun _ _ => "0").execute "p" "INSERT d.t"
      twoEmptyTables).1 = .ok () := by decide +kernel
  refine (changes_recorded_iff insertStatements (fun _ _ => "0") discreet_insertStatements "p"
    "INSERT d.t" twoEmptyTables ho hok).2 fun path hp id hi => ?_
  obtain rfl : JobPath.single = path := by
    have hs : insertStatements.path "p" "INSERT d.t" = .ok .single := by decide +kernel
    exact Except.ok.inj (hs.symm.trans hp)
  -- of the two tables of the catalog one keeps its rows
  have hl : id = ⟨"p", "d", "t"⟩ ∨ id = ⟨"p", "d", "u"⟩ := by
    obtain ⟨m, hm⟩ := Option.isSome_iff_exists.1 hi.1
    have hme := mem_of_find?_eq_some hm
    have hk := Catalog.getTable_id hm
    rw [← hk]
    rcases mem_cons.1 hme with rfl | hme
    · exact .inl rfl
    · obtain rfl := mem_singleton.1 hme
      exact .inr rfl
  rcases hl with rfl | rfl
  · exact ⟨by decide +kernel, .inl ⟨{ id := ⟨"p", "d", "t"⟩ }, rfl, rfl⟩⟩
  · exact absurd (by decide +kernel) hi.2

/-- A script of two insertions changes two tables, and nobody is told of either. -/
theorem changes_not_recorded :
    let job := (recordingEnv insertStatements fun _ _ => "0").execute "p" "INSERT d.t; INSERT d.u"
      twoEmptyTables
    job.1 = .ok () ∧ twoEmptyTables.world.Changed job.2.world ⟨"p", "d", "t"⟩ ∧
      twoEmptyTables.world.Changed job.2.world ⟨"p", "d", "u"⟩ ∧
      job.2.world.events = [] ∧ job.2.world.catalog.snapshots = [] := by
  refine ⟨by decide +kernel, ⟨by decide +kernel, by decide +kernel⟩,
    ⟨by decide +kernel, by decide +kernel⟩, by decide +kernel, by decide +kernel⟩

end Bqemulator
