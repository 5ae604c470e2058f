import Bqemulator.Streaming.ExactlyOnce

/-!
# Atomicity of batch commits

A `BatchCommitWriteStreams` request checks every stream it names before it commits the first, and
then commits them one by one: a stream is marked as committed and emptied, and its rows are inserted
after that.
-/

namespace Bqemulator

open List WriteServer

variable {Row : Type}

/-! ## All or nothing -/

variable (s : WriteServer Row)

def WriteServer.bufferedInto (key : String × String) (name : String) : List Row :=
  match s.get name with
  | some stream => if stream.table.key = key then stream.buffer.flatMap Batch.rows else []
  | none => []

/-- **All streams of a set are committed**, with the rows of each in the tables once. -/
structure CommitsAll (s : WriteServer Row) (names : Set String) (s' : WriteServer Row) : Prop where
  committed : ∀ name ∈ names, ∃ stream, s'.get name = some stream ∧ stream.state = .committed
  once : ∃ order : List String, order.Nodup ∧ (∀ name, name ∈ order ↔ name ∈ names) ∧
    ∀ key : String × String, key.1 ≠ snapshotsSchema →
      s'.rowsAt key = s.rowsAt key ++ order.flatMap (s.bufferedInto key)

/-- A `PENDING` stream that is not committed can be: once finalized, a request that names it alone
commits it, if its batches fit together and its rows can be stored. By `canCommit` this is so in
every state. -/
def CanCommit (name : String) : Prop :=
  ∀ stream, s.get name = some stream → stream.streamType = .pending → stream.state ≠ .committed →
    ∀ fate rows, concatTables stream.buffer = .ok rows →
      (rowsOut rows ≠ [] → Storable s.world fate stream) →
      CommitsAll (handleFinalizeWriteStream name s).state {name}
        (handleBatchCommitWriteStreams fate [name] (handleFinalizeWriteStream name s).state).state

/-- **Nothing is committed**, and every stream can be committed later. -/
structure CommitsNone (s : WriteServer Row) (names : List String)
    (s' : WriteServer Row) : Prop where
  streams : ∀ name, s'.get name = s.get name
  rows : ∀ key : String × String, key.1 ≠ snapshotsSchema → s'.rowsAt key = s.rowsAt key
  later : ∀ name ∈ names, CanCommit s' name

/-! ## What the loop needs -/

variable (fate : Fate) (done : Set String)

/-- An id that no snapshot has, nor gets when the streams of `done` are committed. -/
def FreeAfter (id : String) : Prop :=
  s.world.SnapshotFree id ∧
    ∀ name ∈ done, ∀ other, s.get name = some other → other.buffer.flatMap Batch.rows ≠ [] →
      s.world.catalog.getTable other.table ≠ none → id ≠ snapshotIdOf s.world fate other

/-- The snapshot after the rows of a stream can be taken when the streams of `done` have taken
theirs. -/
def RecordableAfter (stream : WriteStream Row) : Prop :=
  s.world.catalog.getTable stream.table = none ∨
    FreeAfter s fate done (snapshotIdOf s.world fate stream)

/-- A stream fits after `done` and before `rest`: its batches have the same columns, its rows can be
inserted, and recorded too unless it is the last. -/
def FitsNext (name : String) (rest : List String) : Prop :=
  ∀ stream, s.get name = some stream → ∃ rows, concatTables stream.buffer = .ok rows ∧
    (rowsOut rows ≠ [] → Insertable s.world fate stream ∧
      (RecordableAfter s fate done stream ∨ ∀ n ∈ rest, n ∈ insert name done))

/-- **The streams of a batch fit**, when those of `done` are committed; a name that comes again adds
nothing. -/
def Fits (s : WriteServer Row) (fate : Fate) : Set String → List String → Prop
  | _, [] => True
  | done, name :: rest =>
    (name ∉ done → FitsNext s fate done name rest) ∧ Fits s fate (insert name done) rest

/-- The loop stops before it has changed anything. -/
def FirstUnfit : List String → Prop
  | [] => False
  | name :: _ => ∃ stream e, s.get name = some stream ∧ concatTables stream.buffer = .error e

/-! ## The loop -/

/-- **The invariant of the loop**: the streams of `done` are committed, in this order, the others as
in `s`. -/
structure Progress (s : WriteServer Row) (done : Set String) (order : List String)
    (s' : WriteServer Row) : Prop where
  nodup : order.Nodup
  mem : ∀ name, name ∈ order ↔ name ∈ done
  old : ∀ name, name ∉ done → s'.get name = s.get name
  new : ∀ name ∈ done, ∃ stream, s'.get name = some stream ∧ stream.state = .committed
  rows : ∀ key : String × String, key.1 ≠ snapshotsSchema →
    s'.rowsAt key = s.rowsAt key ++ order.flatMap (s.bufferedInto key)

/-- What can be inserted and recorded on the way is known from the start. -/
structure Foreseen (s : WriteServer Row) (fate : Fate) (done : Set String)
    (s' : WriteServer Row) : Prop where
  now : s'.world.now = s.world.now
  known : ∀ id, (s'.world.catalog.getTable id).isSome = (s.world.catalog.getTable id).isSome
  insertable : ∀ stream, Insertable s'.world fate stream ↔ Insertable s.world fate stream
  free : ∀ id, s'.world.SnapshotFree id ↔ FreeAfter s fate done id

variable {target : Set String}

section Loop

variable {s s' s'' : WriteServer Row} {fate : Fate} {done : Set String} {order : List String}
  {name : String} {stream : WriteStream Row}

theorem progress_start (s : WriteServer Row) : Progress s ∅ [] s where
  nodup := List.nodup_nil
  mem _ := by simp
  old _ _ := rfl
  new _ h := absurd h (Set.notMem_empty _)
  rows _ _ := (append_nil _).symm

theorem foreseen_start (s : WriteServer Row) (f : Fate) : Foreseen s f ∅ s where
  now := rfl
  known _ := rfl
  insertable _ := Iff.rfl
  free _ := ⟨fun h => ⟨h, fun _ h' => absurd h' (Set.notMem_empty _)⟩, fun h => h.1⟩

section

variable (h : Foreseen s fate done s')

include h

theorem Foreseen.of_world (hw : s''.world = s'.world) : Foreseen s fate done s'' := by
  constructor <;> rw [hw]
  · exact h.now
  · exact h.known
  · exact h.insertable
  · exact h.free

theorem Foreseen.none_iff (id : TableId) :
    s'.world.catalog.getTable id = none ↔ s.world.catalog.getTable id = none := by
  rw [← Option.not_isSome_iff_eq_none, ← Option.not_isSome_iff_eq_none, h.known]

theorem Foreseen.snapshotIdOf_eq (stream : WriteStream Row) :
    snapshotIdOf s'.world fate stream = snapshotIdOf s.world fate stream := by
  rw [snapshotIdOf, snapshotIdOf, h.now]

theorem Foreseen.recordable (stream : WriteStream Row) :
    Recordable s'.world fate stream ↔ RecordableAfter s fate done stream := by
  rw [Recordable, RecordableAfter, h.none_iff, h.free, h.snapshotIdOf_eq]

end

theorem Progress.congr (h : Progress s done order s') (hg : ∀ n, s''.get n = s'.get n)
    (hw : s''.world = s'.world) : Progress s done order s'' where
  nodup := h.nodup
  mem := h.mem
  old n hn := (hg n).trans (h.old n hn)
  new n hn := by rw [hg]; exact h.new n hn
  rows key hk := by
    rw [← h.rows key hk, WriteServer.rowsAt, hw]
    rfl

theorem Progress.commitsAll (h : Progress s done order s') : CommitsAll s done s' :=
  ⟨h.new, order, h.nodup, h.mem, h.rows⟩

variable {rows : Option (Batch Row)}

theorem rowsOut_concatTables {batches : List (Batch Row)} (h : concatTables batches = .ok rows) :
    rowsOut rows = batches.flatMap Batch.rows := by
  cases rows with
  | some b => exact concatTables_eq_ok h
  | none =>
    cases batches with
    | nil => rfl
    | cons =>
      rw [concatTables] at h
      split at h <;> cases h

theorem bufferedInto_eq (hg : s.get name = some stream)
    (hr : concatTables stream.buffer = .ok rows) (key : String × String) :
    s.bufferedInto key name = if key = stream.table.key then rowsOut rows else [] := by
  rw [bufferedInto, hg, rowsOut_concatTables hr]
  simp only [eq_comm]

theorem Progress.nodup_append (h : Progress s done order s') (hn : name ∉ done) :
    (order ++ [name]).Nodup := by
  rw [← concat_eq_append]
  exact h.nodup.concat (mt (h.mem name).1 hn)

theorem Progress.next (h : Progress s done order s') (hna : name ∉ done)
    (hg : s.get name = some stream) (hr : concatTables stream.buffer = .ok rows)
    (hg' : ∀ n, s''.get n = if n = name then some stream.committing else s'.get n)
    (hro : ∀ key : String × String, key.1 ≠ snapshotsSchema →
      s''.rowsAt key = s'.rowsAt key ++ if key = stream.table.key then rowsOut rows else []) :
    Progress s (insert name done) (order ++ [name]) s'' := by
  refine ⟨?_, fun n => ?_, fun n hn => ?_, fun n hn => ?_, fun key hk => ?_⟩
  · exact h.nodup_append hna
  · rw [mem_append, h.mem, mem_singleton, Set.mem_insert_iff, or_comm]
  · rw [Set.mem_insert_iff, not_or] at hn
    rw [hg', if_neg hn.1]
    exact h.old n hn.2
  · rw [hg']
    split
    · exact ⟨stream.committing, rfl, rfl⟩
    · rename_i hne
      exact h.new n (((Set.mem_insert_iff).1 hn).resolve_left hne)
  · rw [hro key hk, h.rows key hk, flatMap_append, append_assoc,
      flatMap_singleton, bufferedInto_eq hg hr]

theorem freeAfter_insert (id : String) (hg : s.get name = some stream) :
    FreeAfter s fate (insert name done) id ↔ FreeAfter s fate done id ∧
      (stream.buffer.flatMap Batch.rows ≠ [] → s.world.catalog.getTable stream.table ≠ none →
        id ≠ snapshotIdOf s.world fate stream) := by
  refine ⟨fun ⟨hf, h⟩ => ⟨⟨hf, fun n hn => h n (Set.mem_insert_of_mem _ hn)⟩,
    h name (Set.mem_insert _ _) stream hg⟩, fun ⟨⟨hf, h⟩, hne⟩ => ⟨hf, fun n hn => ?_⟩⟩
  rcases Set.mem_insert_iff.1 hn with rfl | hn
  · intro o ho
    obtain rfl : stream = o := Option.some.inj (hg.symm.trans ho)
    exact hne
  · exact h n hn

theorem Foreseen.next (h : Foreseen s fate done s') (hg : s.get name = some stream)
    (hr : stream.buffer.flatMap Batch.rows ≠ []) {written : List Row}
    {t : WriteStream Row} (hl : Landed s' t written s'')
    (hf : ∀ id, s''.world.SnapshotFree id ↔ s'.world.SnapshotFree id ∧
      (s'.world.catalog.getTable stream.table ≠ none → id ≠ snapshotIdOf s'.world fate stream)) :
    Foreseen s fate (insert name done) s'' := by
  refine ⟨hl.now.trans h.now, fun id => (hl.known id).trans (h.known id),
    fun u => (hl.insertable_iff fate u).trans (h.insertable u), fun id => ?_⟩
  rw [hf, h.free, freeAfter_insert id hg, h.snapshotIdOf_eq]
  refine and_congr_right fun _ => ?_
  rw [ne_eq, ne_eq, h.none_iff]
  exact ⟨fun h _ => h, fun h => h hr⟩

/-! ### The runs of one commit -/

theorem commitStreams_cons (f : Fate) (name : String) (names : List String) :
    commitStreams f (name :: names) =
      (commitStream f name >>= fun _ => commitStreams f names : WriteM Row Unit) := rfl

theorem commitStream_done (hg : s'.get name = some stream) (hs : stream.state = .committed) :
    commitStream fate name s' = ⟨[], .ok (), s'.set stream⟩ := by
  rcases stream.commit_cases with ⟨-, outcome, hc, hn⟩ | ⟨-, hf, -⟩
  · rw [commitStream, hg]
    simp only [hc, hn]
    rfl
  · rw [hs] at hf
    cases hf

theorem commitStream_unfit (f : Fate) (hg : s'.get name = some stream)
    (hk : stream.streamType = .pending) (hs : stream.state = .finalized) {e : DomainError}
    (he : concatTables stream.buffer = .error e) :
    commitStream f name s' = ⟨[], .error e, s'⟩ := by
  rcases stream.commit_cases with ⟨hn, -⟩ | ⟨-, -, ⟨e', he', hc⟩ | ⟨rows, hr, -⟩⟩
  · exact absurd ⟨hk, hs⟩ hn
  · obtain rfl : e = e' := Except.error.inj (he.symm.trans he')
    rw [commitStream, hg]
    simp only [hc]
  · rw [he] at hr
    cases hr

theorem commitStream_eq (hg : s'.get name = some stream) (hk : stream.streamType = .pending)
    (hs : stream.state = .finalized) (hr : concatTables stream.buffer = .ok rows) :
    commitStream fate name s' =
      writeOut fate stream.committing rows (s'.set stream.committing) := by
  rcases stream.commit_cases with ⟨hn, -⟩ | ⟨-, -, ⟨e, he, -⟩ | ⟨r', hr', hc⟩⟩
  · exact absurd ⟨hk, hs⟩ hn
  · rw [hr] at he
    cases he
  · obtain rfl : rows = r' := Except.ok.inj (hr.symm.trans hr')
    rw [commitStream, hg]
    simp only [hc]

/-- The commit of one more stream: the loop goes on with it committed, or stops before it, with
its rows lost, or with its rows in the table. -/
inductive CommitStep (s : WriteServer Row) (fate : Fate) (done : Set String) (order : List String)
    (s' : WriteServer Row) (stream : WriteStream Row) : Prop where
  | goesOn {rows : Option (Batch Row)} (hrows : concatTables stream.buffer = .ok rows)
      (hfits : rowsOut rows ≠ [] → Insertable s.world fate stream ∧
        RecordableAfter s fate done stream)
      (hok : (commitStream fate stream.name s').result = .ok ())
      (hprogress : Progress s (insert stream.name done) (order ++ [stream.name])
        (commitStream fate stream.name s').state)
      (hforeseen : Foreseen s fate (insert stream.name done)
        (commitStream fate stream.name s').state)
  | unfit {e : DomainError} (hrows : concatTables stream.buffer = .error e)
      (hrun : commitStream fate stream.name s' = ⟨[], .error e, s'⟩)
  | lost {e : DomainError} {rows : Option (Batch Row)}
      (hrows : concatTables stream.buffer = .ok rows)
      (hne : rowsOut rows ≠ []) (hins : ¬ Insertable s.world fate stream)
      (hrun : commitStream fate stream.name s' = ⟨[], .error e, s'.set stream.committing⟩)
  | unrecorded {e : DomainError} {rows : Option (Batch Row)}
      (hrows : concatTables stream.buffer = .ok rows) (hne : rowsOut rows ≠ [])
      (hins : Insertable s.world fate stream) (hrec : ¬ RecordableAfter s fate done stream)
      (herror : (commitStream fate stream.name s').result = .error e)
      (hprogress : Progress s (insert stream.name done) (order ++ [stream.name])
        (commitStream fate stream.name s').state)

theorem commitStep (hp : Progress s done order s') (hf : Foreseen s fate done s')
    (hn : stream.name ∉ done) (hg : s.get stream.name = some stream)
    (hki : stream.streamType = .pending) (hst : stream.state = .finalized) :
    CommitStep s fate done order s' stream := by
  have hg' : s'.get stream.name = some stream := (hp.old _ hn).trans hg
  cases hro : concatTables stream.buffer with
  | error e => exact .unfit hro (commitStream_unfit fate hg' hki hst hro)
  | ok rows =>
    have ho : s'.get stream.committing.name = some stream := hg'
    have ha := get_writeOut fate ho rows
    have hc : commitStream fate stream.name s' =
        writeOut fate stream.committing rows (s'.set stream.committing) :=
      commitStream_eq hg' hki hst hro
    rcases writeOut_cases fate stream.committing rows (s'.set stream.committing) with
      ⟨hni, hw⟩ | ⟨hne, hi, e, hw⟩ | ⟨hne, hi, -, hl, hre⟩
    · -- nothing to insert
      rw [hw] at hc ha
      refine .goesOn hro (fun hne => absurd hni hne) (by rw [hc]) ?_ ?_ <;> rw [hc]
      · refine hp.next hn hg hro ha fun key _ => ?_
        rw [hni, ite_self, append_nil]
        rfl
      · refine ⟨hf.now, hf.known, hf.insertable, fun id => ?_⟩
        rw [freeAfter_insert id hg, ← rowsOut_concatTables hro]
        exact (hf.free id).trans ⟨fun h => ⟨h, fun hne => absurd hni hne⟩, fun h => h.1⟩
    · exact .lost hro hne (fun h => hi ((hf.insertable stream).2 h))
        (hc.trans hw)
    · have hi' : Insertable s.world fate stream := (hf.insertable stream).1 hi
      have hp' : Progress s (insert stream.name done) (order ++ [stream.name])
          (writeOut fate stream.committing rows (s'.set stream.committing)).state :=
        hp.next hn hg hro ha fun key hk => hl.rowsAt hi.2.2 hk
      have hif : Recordable s'.world fate stream ↔ RecordableAfter s fate done stream :=
        hf.recordable stream
      rw [← hc] at hp'
      cases hr : (writeOut fate stream.committing rows (s'.set stream.committing)).result with
      | error e =>
        refine .unrecorded hro hne hi' (fun hrc => ?_) (by rw [hc, hr]) hp'
        have hok := hre.2 (hif.2 hrc)
        rw [hr] at hok
        cases hok
      | ok u =>
        refine .goesOn hro (fun _ => ⟨hi', hif.1 (hre.1 hr)⟩) (by rw [hc, hr])
          hp' ?_
        rw [hc]
        have hs : Foreseen s fate done (s'.set stream.committing) := hf.of_world rfl
        refine hs.next hg ?_ hl (snapshotFree_of_writeOut hne hi hr)
        rw [← rowsOut_concatTables hro]
        exact hne

/-! ### The whole loop -/

theorem length_flatMap_le {l l' : List String} (hl : l.Nodup) (hs : l ⊆ l')
    (f : String → List Row) : (l.flatMap f).length ≤ (l'.flatMap f).length := by
  obtain ⟨m, hp, hst⟩ := subperm_of_subset hl hs
  rw [← (hp.flatMap_right f).length_eq]
  exact (hst.flatMap f).length_le

theorem not_commitsAll_of_lost (h : Progress s done order s') (hna : name ∉ done)
    (hm : name ∈ target) (hs : done ⊆ target) {key : String × String}
    (hk : key.1 ≠ snapshotsSchema) (hl : s.bufferedInto key name ≠ [])
    (hr : s''.rowsAt key = s'.rowsAt key) : ¬ CommitsAll s target s'' := by
  rintro ⟨-, o', -, hm', hr'⟩
  have heq : o'.flatMap (s.bufferedInto key) = order.flatMap (s.bufferedInto key) := by
    have := (hr' key hk).symm.trans (hr.trans (h.rows key hk))
    exact append_cancel_left this
  have hs' : order ++ [name] ⊆ o' := by
    intro n hn
    rw [hm']
    rcases mem_append.1 hn with hn | hn
    · exact hs ((h.mem n).1 hn)
    · rw [mem_singleton.1 hn]
      exact hm
  -- the rows of the lost stream are missing from the count
  have hle := length_flatMap_le (h.nodup_append hna) hs' (s.bufferedInto key)
  rw [heq, flatMap_append, length_append, flatMap_singleton] at hle
  have hp := length_pos_of_ne_nil hl
  omega

variable {names : List String}

theorem fits_of_subset (h : ∀ n ∈ names, n ∈ done) : Fits s fate done names := by
  induction names generalizing done with
  | nil => trivial
  | cons name names ih =>
    refine ⟨fun hna => absurd (h name mem_cons_self) hna, ih fun n hn => ?_⟩
    exact Set.mem_insert_of_mem _ (h n (mem_cons_of_mem _ hn))

theorem exists_of_commitError (h : commitError s name = none) :
    ∃ stream, s.get name = some stream ∧ stream.streamType = .pending ∧
      stream.state = .finalized := by
  unfold commitError at h
  split at h
  · cases h
  rename_i stream hg
  split at h
  · cases h
  rename_i hk
  split at h
  · cases h
  rename_i hs
  exact ⟨stream, hg, not_not.1 hk, not_not.1 hs⟩

theorem setOf_cons (d : Set String) (name : String) (names : List String) :
    {n | n ∈ d ∨ n ∈ name :: names} = {n | n ∈ insert name d ∨ n ∈ names} := by
  ext n
  change (n ∈ d ∨ n ∈ name :: names) ↔ (n ∈ insert name d ∨ n ∈ names)
  rw [mem_cons, Set.mem_insert_iff, ← or_assoc, or_comm (a := n ∈ d)]

theorem not_commitsAll_of_old (hm : name ∈ target) (hg : s''.get name = some stream)
    (hs : stream.state = .finalized) : ¬ CommitsAll s target s'' := by
  intro h
  obtain ⟨s', hg', hs'⟩ := h.committed name hm
  obtain rfl : stream = s' := Option.some.inj (hg.symm.trans hg')
  rw [hs] at hs'
  cases hs'

theorem fitsNext_iff (hg : s.get name = some stream) (hr : concatTables stream.buffer = .ok rows) :
    FitsNext s fate done name names ↔ (rowsOut rows ≠ [] → Insertable s.world fate stream ∧
      (RecordableAfter s fate done stream ∨ ∀ n ∈ names, n ∈ insert name done)) := by
  refine ⟨fun h => ?_, fun h t ht => ?_⟩
  · obtain ⟨r', hr', h⟩ := h stream hg
    obtain rfl : rows = r' := Except.ok.inj (hr.symm.trans hr')
    exact h
  · obtain rfl : stream = t := Option.some.inj (hg.symm.trans ht)
    exact ⟨rows, hr, h⟩

end Loop

/-- The loop commits all streams iff they fit. -/
theorem commitStreams_iff {s : WriteServer Row} {f : Fate} {names : List String}
    (hv : ∀ n ∈ names, commitError s n = none) {d : Set String} {o : List String}
    {s' : WriteServer Row} (hp : Progress s d o s') (hfo : Foreseen s f d s') :
    CommitsAll s {n | n ∈ d ∨ n ∈ names} (commitStreams f names s').state ↔
      Fits s f d names := by
  induction names generalizing d o s' with
  | nil =>
    refine iff_of_true ?_ trivial
    have hse : {n | n ∈ d ∨ n ∈ ([] : List String)} = d := by ext n; simp
    rw [hse]
    exact hp.commitsAll
  | cons name names ih =>
    have hv' : ∀ n ∈ names, commitError s n = none :=
      fun n hn => hv n (mem_cons_of_mem _ hn)
    rw [commitStreams_cons, setOf_cons, Fits]
    by_cases hna : name ∈ d
    · -- a name that comes again
      obtain ⟨stream, hg, hst⟩ := hp.new name hna
      have hs := get_name hg
      subst hs
      rw [Comp.run_bind_of_ok (a := ()) (by rw [commitStream_done hg hst]),
        commitStream_done hg hst, Set.insert_eq_of_mem hna]
      refine (ih hv' (hp.congr (get_set_self hg) rfl) (hfo.of_world rfl)).trans ?_
      exact ⟨fun h => ⟨fun hno => absurd hna hno, h⟩, fun h => h.2⟩
    obtain ⟨stream, hg, hk, hst⟩ := exists_of_commitError (hv name mem_cons_self)
    have hs := get_name hg
    subst hs
    have hm : stream.name ∈ {n | n ∈ insert stream.name d ∨ n ∈ names} :=
      .inl (Set.mem_insert _ _)
    cases commitStep hp hfo hna hg hk hst with
    | goesOn hr hf ho hp' hf' =>
      rw [Comp.run_bind_of_ok ho, fitsNext_iff hg hr]
      refine (ih hv' hp' hf').trans ?_
      exact ⟨fun h => ⟨fun _ hne => ⟨(hf hne).1, .inl (hf hne).2⟩, h⟩, fun h => h.2⟩
    | unfit hr hru =>
      rw [Comp.run_bind_of_error (by rw [hru]), hru]
      refine iff_of_false ?_ fun h => ?_
      · exact not_commitsAll_of_old hm ((hp.old _ hna).trans hg) hst
      · obtain ⟨rows, ho, -⟩ := h.1 hna stream hg
        rw [hr] at ho
        cases ho
    | lost hr hne hi hru =>
      rw [Comp.run_bind_of_error (by rw [hru]), hru, fitsNext_iff hg hr]
      refine iff_of_false ?_ fun h => hi (h.1 hna hne).1
      refine not_commitsAll_of_lost hp hna hm
        (fun n hn => .inl (Set.mem_insert_of_mem _ hn)) (key_schema_ne stream.table) ?_ rfl
      rw [bufferedInto_eq hg hr, if_pos rfl]
      exact hne
    | unrecorded hr hne hi hre he hp' =>
      rw [Comp.run_bind_of_error he, fitsNext_iff hg hr]
      refine ⟨fun h => ?_, fun h => ?_⟩
      · -- a stream after it would be left as it was
        have hsu : ∀ n ∈ names, n ∈ insert stream.name d := by
          intro n hn
          by_contra hno
          obtain ⟨t, ht, -, hfi⟩ := exists_of_commitError (hv' n hn)
          exact not_commitsAll_of_old (.inr hn) ((hp'.old n hno).trans ht) hfi h
        exact ⟨fun _ _ => ⟨hi, .inr hsu⟩, fits_of_subset hsu⟩
      · have hsu := (h.1 hna hne).2.resolve_left hre
        have hse : {n | n ∈ insert stream.name d ∨ n ∈ names} = insert stream.name d := by
          ext n
          exact ⟨fun hn => hn.elim id (hsu n), Or.inl⟩
        rw [hse]
        exact hp'.commitsAll

/-! ## The request -/

section Request

variable {s : WriteServer Row} {fate : Fate} {names : List String}

theorem handleBatchCommit_of_valid (hv : ∀ n ∈ names, commitError s n = none) :
    (handleBatchCommitWriteStreams fate names s).state = (commitStreams fate names s).state := by
  rw [handleBatchCommitWriteStreams, filterMap_eq_nil_iff.2 hv, Comp.run_bind_pure]

theorem handleBatchCommit_of_invalid (hi : ∃ n ∈ names, commitError s n ≠ none) :
    (handleBatchCommitWriteStreams fate names s).state = s := by
  unfold handleBatchCommitWriteStreams
  split
  · rename_i hni
    obtain ⟨n, hn, he⟩ := hi
    exact absurd (filterMap_eq_nil_iff.1 hni n hn) he
  · rfl

theorem commitStreams_all_iff (hv : ∀ n ∈ names, commitError s n = none) :
    CommitsAll s {n | n ∈ names} (commitStreams fate names s).state ↔ Fits s fate ∅ names := by
  have hi := commitStreams_iff hv (progress_start s) (foreseen_start s fate)
  have hs : {n | n ∈ (∅ : Set String) ∨ n ∈ names} = {n | n ∈ names} := by
    ext n
    exact ⟨fun h => h.resolve_left (Set.notMem_empty n), Or.inr⟩
  rwa [hs] at hi

theorem finalize_pending {name : String} {stream : WriteStream Row}
    (hg : s.get name = some stream) (hk : stream.streamType = .pending)
    (hst : stream.state ≠ .committed) :
    (handleFinalizeWriteStream name s).state.get name = some stream.finalizing ∧
      (handleFinalizeWriteStream name s).state.world = s.world := by
  have hse := get_name hg
  subst hse
  rw [handleFinalizeWriteStream, hg]
  simp only
  rw [if_neg (by rw [hk]; decide)]
  cases hs : stream.state with
  | committed => exact absurd hs hst
  | finalized =>
    refine ⟨hg.trans ?_, rfl⟩
    rw [WriteStream.finalizing, ← hs]
  | open_ =>
    have ho : s.get stream.finalizing.name = some stream := hg
    exact ⟨(get_set ho _).trans (if_pos rfl), rfl⟩

/-- A stream that is not committed can be, in every state. -/
theorem canCommit (s : WriteServer Row) (name : String) : CanCommit s name := by
  intro stream hg hk hst f rows hr hs
  obtain ⟨hg', hw⟩ := finalize_pending hg hk hst
  have hv : ∀ n ∈ [name], commitError (handleFinalizeWriteStream name s).state n = none := by
    intro n hn
    rw [mem_singleton.1 hn, commitError, hg']
    simp [WriteStream.finalizing, hk]
  rw [handleBatchCommit_of_valid hv]
  have hse : ({name} : Set String) = {n | n ∈ [name]} := by
    ext n
    exact mem_singleton.symm
  rw [hse, commitStreams_all_iff hv]
  refine ⟨fun _ => (fitsNext_iff hg' hr).2 fun hne => ?_, trivial⟩
  obtain ⟨hi, hre⟩ := hs hne
  rw [← hw] at hi hre
  exact ⟨hi, .inr fun n hn => absurd hn not_mem_nil⟩

theorem commitsNone_self (names : List String) : CommitsNone s names s :=
  ⟨fun _ => rfl, fun _ _ => rfl, fun name _ => canCommit s name⟩

theorem respects_committed (name : String) (names : List String) :
    Comp.Respects (fun s (_ : List (WriteEvent Row)) s' => ∀ stream, s.get name = some stream →
        stream.state = .committed → s'.get name = some stream)
      (commitStreams fate names : WriteM Row Unit) := by
  have hse : Comp.Sequential (fun s (_ : List (WriteEvent Row)) (s' : WriteServer Row) =>
      ∀ stream, s.get name = some stream → stream.state = .committed → s'.get name = some stream) :=
    ⟨fun s stream hg _ => hg, fun h h' stream hg hst => h' stream (h stream hg hst) hst⟩
  induction names with
  | nil => exact .ret hse ()
  | cons n names ih =>
    refine .bind hse (fun s stream hg hst => ?_) fun _ => ih
    rcases commitStream_cases fate n s with ⟨hsa, -⟩ | ⟨t, rows, ht, -, hr⟩
    · exact (hsa name).trans hg
    have hs := get_name ht
    subst hs
    have ho : s.get t.committing.name = some t := ht
    by_cases hn : name = t.name
    · subst hn
      rw [commitStream_done hg hst]
      have hs := get_name hg
      rw [← hs] at hg ⊢
      exact (get_set_self hg _).trans hg
    · rw [hr]
      exact ((get_writeOut fate ho rows name).trans (if_neg hn)).trans hg

theorem committed_head (f : Fate) {name : String} (hv : commitError s name = none)
    (hf : ¬ FirstUnfit s (name :: names)) :
    ∃ stream, s.get name = some stream ∧ stream.state = .finalized ∧
      (commitStreams f (name :: names) s).state.get name = some stream.committing := by
  obtain ⟨stream, hg, hk, hst⟩ := exists_of_commitError hv
  have hs := get_name hg
  subst hs
  refine ⟨stream, hg, hst, ?_⟩
  cases hro : concatTables stream.buffer with
  | error e => exact absurd ⟨stream, e, hg, hro⟩ hf
  | ok rows =>
    have ho : s.get stream.committing.name = some stream := hg
    have ha : (commitStream f stream.name s).state.get stream.name =
        some stream.committing := by
      rw [commitStream_eq hg hk hst hro]
      exact (get_writeOut f ho rows _).trans (if_pos rfl)
    rw [commitStreams_cons]
    cases hr : (commitStream f stream.name s).result with
    | error e =>
      rw [Comp.run_bind_of_error hr]
      exact ha
    | ok u =>
      rw [Comp.run_bind_of_ok hr]
      exact respects_committed stream.name names _ _ ha rfl

end Request

/-- **Atomicity of a batch commit**: all named streams are committed, with their rows in the tables
once, or none is and each can be later, iff a name is refused up front, the first stream is unfit,
or all fit. -/
theorem batchCommit_atomic_iff (s : WriteServer Row) (fate : Fate) (names : List String) :
    (CommitsAll s {n | n ∈ names} (handleBatchCommitWriteStreams fate names s).state ∨
      CommitsNone s names (handleBatchCommitWriteStreams fate names s).state) ↔
    (∃ n ∈ names, commitError s n ≠ none) ∨ FirstUnfit s names ∨ Fits s fate ∅ names := by
  by_cases hv : ∀ n ∈ names, commitError s n = none
  · rw [handleBatchCommit_of_valid hv, commitStreams_all_iff hv]
    refine ⟨fun h => ?_, fun h => ?_⟩
    · rcases h with hf | hne
      · exact .inr (.inr hf)
      cases names with
      | nil => exact .inr (.inr trivial)
      | cons name names =>
        by_contra hno
        rw [not_or, not_or] at hno
        -- the first stream is committed, so something changed
        obtain ⟨stream, hg, hst, ha⟩ :=
          committed_head fate (hv name mem_cons_self) hno.2.1
        rw [hne.streams, hg] at ha
        rw [Option.some.inj ha] at hst
        cases hst
    · rcases h with ⟨n, hn, he⟩ | hu | hf
      · exact absurd (hv n hn) he
      · right
        cases names with
        | nil => exact absurd hu id
        | cons name names =>
          obtain ⟨stream, e, hg, hr⟩ := hu
          obtain ⟨s', hg', hk, hst⟩ :=
            exists_of_commitError (hv name mem_cons_self)
          obtain rfl : stream = s' := Option.some.inj (hg.symm.trans hg')
          have hs := commitStream_unfit fate hg hk hst hr
          have hs' : (commitStreams fate (name :: names) s).state = s := by
            rw [commitStreams_cons, Comp.run_bind_of_error (e := e) (by rw [hs]), hs]
          rw [hs']
          exact commitsNone_self _
      · exact .inl hf
  · have hi : ∃ n ∈ names, commitError s n ≠ none := by
      simpa only [not_forall, exists_prop] using hv
    rw [handleBatchCommit_of_invalid hi]
    exact iff_of_true (.inr (commitsNone_self names)) (.inl hi)

def twoPending : WriteServer String where
  world := emptyTarget
  streams :=
    [{ name := "a", table := ⟨"p", "d", "t"⟩, streamType := .pending, state := .finalized
       nextOffset := 1, buffer := [⟨"name: string", ["x"]⟩], rowCount := 1 },
      { name := "b", table := ⟨"p", "d", "t"⟩, streamType := .pending, state := .finalized
        nextOffset := 1, buffer := [⟨"name: string", ["y"]⟩], rowCount := 1 }]

def secondFails : Fate where
  now := 1
  insertFails name := if name = "b" then some (.engine "IO Error") else none
  hex name := name

/-- **A torn batch**: the request ends in an error with the first stream's rows in the table and the
second's, which is committed too, nowhere. -/
theorem tornBatch :
    (handleBatchCommitWriteStreams secondFails ["a", "b"] twoPending).result =
        .error (.engine "IO Error") ∧
      (handleBatchCommitWriteStreams secondFails ["a", "b"] twoPending).state.rowsAt ("p__d", "t") =
        ["x"] ∧
      (handleBatchCommitWriteStreams secondFails ["a", "b"] twoPending).state.streams.map
        (fun stream => (stream.state, stream.buffer)) = [(.committed, []), (.committed, [])] ∧
      ¬ (CommitsAll twoPending {n | n ∈ ["a", "b"]}
          (handleBatchCommitWriteStreams secondFails ["a", "b"] twoPending).state ∨
        CommitsNone twoPending ["a", "b"]
          (handleBatchCommitWriteStreams secondFails ["a", "b"] twoPending).state) := by
  refine ⟨by decide, by decide, by decide, ?_⟩
  rintro (⟨-, o, hnd, hm, hr⟩ | ⟨-, hr, -⟩)
  · -- both rows would have to be there
    have hl := congrArg length (hr ("p__d", "t") (by decide))
    have hle := length_flatMap_le (l := ["a", "b"]) (by decide)
      (fun n hn => (hm n).2 hn) (twoPending.bufferedInto ("p__d", "t"))
    rw [length_append] at hl
    revert hle hl
    generalize (o.flatMap (twoPending.bufferedInto ("p__d", "t"))).length = k
    intro hl hle
    have h1 : 1 = 0 + k := hl
    have h2 : 2 ≤ k := hle
    omega
  · exact absurd (hr ("p__d", "t") (by decide)) (by decide)

end Bqemulator
