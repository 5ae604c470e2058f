import Bqemulator.Streaming.ExactlyOnce

/-!
# What holds of a write stream in every run

A stream counts the rows that it has accepted, and a `PENDING` stream holds them until they are
committed. One that is finalized takes no more rows and no flush. Each stream of the service has had
such a run.
-/

namespace Bqemulator

open List

variable {Row : Type}

/-- The requests to a stream. -/
inductive StreamRequest (Row : Type) where
  | append (rows : Batch Row) (offset : Option Int)
  | flush (offset : Int)
  | finalize
  | commit

namespace WriteStream

/-- A request to a stream, with the rows it has accepted. A flush or commit that raises leaves
the stream as it was, and `DEFAULT` streams are not finalized. -/
def serve (cap : Nat) (run : WriteStream Row × List Row) :
    StreamRequest Row → WriteStream Row × List Row
  | .append rows offset =>
    let (outcome, stream) := run.1.append rows offset (some cap)
    (stream, if outcome.status = .ok then run.2 ++ rows.rows else run.2)
  | .flush offset =>
    match run.1.flush offset with
    | .error _ => run
    | .ok (_, stream) => (stream, run.2)
  | .finalize =>
    if run.1.streamType ≠ .default ∧ run.1.state = .open_ then (run.1.finalizing, run.2) else run
  | .commit =>
    match run.1.commit with
    | .error _ => run
    | .ok (_, stream) => (stream, run.2)

/-- **The invariant**: the counters are right, and a `PENDING` stream holds what it has accepted. -/
structure Sound (cap : Nat) (run : WriteStream Row × List Row) : Prop where
  nextOffset : run.1.nextOffset = run.2.length
  rowCount : run.1.rowCount = run.2.length
  flushedRows : run.1.flushedRows ≤ run.1.nextOffset
  default : run.1.streamType = .default → run.1.state = .open_
  pending : run.1.streamType = .pending → run.1.state ≠ .committed →
    run.1.buffer.flatMap Batch.rows = run.2 ∧ run.2.length ≤ cap
  committed : run.1.streamType = .pending → run.1.state = .committed → run.1.buffer = []

variable {cap : Nat} {run : WriteStream Row × List Row} {stream : WriteStream Row}
  {rows : Batch Row} {offset : Option Int}

/-- A stream that is not open takes no rows. -/
theorem append_of_not_open (hk : stream.streamType ≠ .default) (hst : stream.state ≠ .open_) :
    (stream.append rows offset (some cap)).1.status ≠ .ok := by
  unfold append
  cases h : stream.streamType with
  | default => exact absurd h hk
  | committed => simp [committedAppend, hst]
  | pending => cases hs : stream.state <;> simp_all [pendingAppend]
  | buffered => simp [bufferedAppend, hst]

theorem append_pending (hk : stream.streamType = .pending)
    (h : (stream.append rows offset (some cap)).1.status = .ok) :
    stream.rowCount + rows.rows.length ≤ cap := by
  by_contra hc
  refine absurd h ?_
  simp only [append, hk, pendingAppend, Option.filter, decide_eq_true (Nat.not_le.1 hc), if_true]
  split
  · simp
  split
  · simp
  split
  · exact offsetRejection_status (by assumption)
  · simp

theorem flush_of_not_open (hs : stream.state ≠ .open_) (o : Int) :
    ∃ outcome, stream.flush o = .ok (outcome, stream) ∧ outcome.ok = false := by
  unfold flush
  split
  · exact ⟨_, if_pos hs, rfl⟩
  · exact ⟨_, rfl, rfl⟩

theorem Sound.append (h : Sound cap run)
    (hs : (run.1.append rows offset (some cap)).1.status = .ok) :
    Sound cap (run.1.taking rows, run.2 ++ rows.rows) := by
  have ho : run.1.streamType = .pending → run.1.state = .open_ := fun hk =>
    by_contra fun hst => append_of_not_open (by simp [hk]) hst hs
  unfold taking
  split
  · exact {
      nextOffset := by simp [advance, h.nextOffset]
      rowCount := by simp [advance, h.rowCount]
      flushedRows := Nat.le_add_right_of_le h.flushedRows
      default := h.default
      pending hk hst := by
        refine ⟨by simp [advance, (h.pending hk hst).1], ?_⟩
        rw [length_append, ← h.rowCount]
        exact append_pending hk hs
      committed hk hst := nomatch hst.symm.trans (ho hk) }
  · rename_i hb
    exact {
      nextOffset := by simp [advance, h.nextOffset]
      rowCount := by simp [advance, h.rowCount]
      flushedRows := Nat.le_add_right_of_le h.flushedRows
      default := h.default
      pending hk := absurd (by simp_all [holdsBack, advance]) hb
      committed hk := absurd (by simp_all [holdsBack, advance]) hb }

/-- One request keeps the invariant. -/
theorem Sound.serve (h : Sound cap run) (r : StreamRequest Row) :
    Sound cap (WriteStream.serve cap run r) := by
  cases r with
  | append rows o =>
    rcases run.1.append_cases rows o (some cap) with ⟨hs, hsa⟩ | ht
    · simpa only [WriteStream.serve, if_neg hs, hsa] using h
    · have hs : (run.1.append rows o (some cap)).1.status = .ok := by rw [ht]
      simpa only [WriteStream.serve, ht, if_true] using h.append hs
  | flush o =>
    rcases run.1.flush_cases o with ⟨e, hf, -⟩ | ⟨outcome, hf, -⟩ |
      ⟨b, -, ⟨-, -, he⟩, -, hf⟩ <;> simp only [WriteStream.serve, hf]
    · exact h
    · exact h
    · exact ⟨h.nextOffset, h.rowCount, Int.toNat_le.2 he, h.default, h.pending, h.committed⟩
  | finalize =>
    simp only [WriteStream.serve]
    split
    · rename_i ho
      exact ⟨h.nextOffset, h.rowCount, h.flushedRows, fun hk => absurd hk ho.1,
        fun hk _ => h.pending hk (by simp [ho.2]), nofun⟩
    · exact h
  | commit =>
    rcases run.1.commit_cases with ⟨-, outcome, hc, -⟩ | ⟨hk, -, ⟨e, -, hc⟩ |
      ⟨rows, -, hc⟩⟩ <;> simp only [WriteStream.serve, hc]
    · exact h
    · exact h
    · exact ⟨h.nextOffset, h.rowCount, h.flushedRows, fun hd => (nomatch hk.symm.trans hd),
        fun _ hst => absurd rfl hst, fun _ _ => rfl⟩

theorem sound_new (cap : Nat) (name : String) (table : TableId) (kind : WriteStreamType) :
    Sound cap (({ name, table, streamType := kind } : WriteStream Row), []) :=
  ⟨rfl, rfl, Nat.le_refl 0, fun _ => rfl, fun _ _ => ⟨rfl, Nat.zero_le cap⟩, nofun⟩

/-- **Every run of a stream**: its next offset is the number of rows accepted; a `PENDING` stream
holds these, within the cap, until they are committed; and a finalized one takes no rows and refuses
every flush. -/
theorem stream_run (cap : Nat) (name : String) (table : TableId) (kind : WriteStreamType)
    (requests : List (StreamRequest Row)) :
    let run := requests.foldl (WriteStream.serve cap) ({ name, table, streamType := kind }, [])
    run.1.nextOffset = run.2.length ∧ run.1.flushedRows ≤ run.1.nextOffset ∧
      (run.1.streamType = .pending → if run.1.state = .committed then run.1.buffer = []
        else run.1.buffer.flatMap Batch.rows = run.2 ∧ run.2.length ≤ cap) ∧
      (run.1.state ≠ .open_ →
        (∀ rows offset, WriteStream.serve cap run (.append rows offset) = run) ∧
        ∀ offset, ∃ outcome, run.1.flush offset = .ok (outcome, run.1) ∧ outcome.ok = false) := by
  intro run
  have h : Sound cap run := foldlRecOn requests _ (sound_new cap name table kind)
    fun _ h r _ => h.serve r
  refine ⟨h.nextOffset, h.flushedRows, fun hk => ?_, fun hst => ⟨fun rows offset => ?_,
    flush_of_not_open hst⟩⟩
  · split
    · exact h.committed hk (by assumption)
    · exact h.pending hk (by assumption)
  have hs : (run.1.append rows offset (some cap)).1.status ≠ .ok :=
    append_of_not_open (fun hd => hst (h.default hd)) hst
  rcases run.1.append_cases rows offset (some cap) with ⟨-, hsa⟩ | ht
  · simp only [WriteStream.serve, if_neg hs, hsa]
  · exact absurd (by rw [ht]) hs

/-- A row that was acknowledged before its stream was finalized stays behind. -/
theorem stream_run_unflushed :
    let run := [.append ⟨"x", [1]⟩ none, .finalize].foldl (WriteStream.serve 10)
      (({ name := "s", table := ⟨"p", "d", "t"⟩, streamType := .buffered } : WriteStream Nat), [])
    run.2 = [1] ∧ run.1.flushedRows = 0 ∧ run.1.flush 1 =
      .ok ({ ok := false, detail := "Cannot flush stream in FINALIZED state" }, run.1) := by
  decide

/-! ## What reaches the table -/

/-- The rows that a request makes a stream hand to its table. -/
def handedOut (cap : Nat) (stream : WriteStream Row) : StreamRequest Row → Option (Batch Row)
  | .append rows offset =>
    let outcome := (stream.append rows offset (some cap)).1
    if outcome.status = .ok then outcome.committedRows else none
  | .flush offset =>
    match stream.flush offset with
    | .error _ => none
    | .ok (outcome, _) => if outcome.ok then outcome.committedRows else none
  | .finalize => none
  | .commit =>
    match stream.commit with
    | .error _ => none
    | .ok (outcome, _) => outcome.committedRows

/-- A request, with the rows handed out so far. -/
def deliver (cap : Nat) (run : (WriteStream Row × List Row) × List Row) (r : StreamRequest Row) :
    (WriteStream Row × List Row) × List Row :=
  (serve cap run.1 r, run.2 ++ ((run.1.1.handedOut cap r).map Batch.rows).getD [])

/-- How many of its rows a stream has handed out. -/
def visible (stream : WriteStream Row) : Nat :=
  match stream.streamType with
  | .default | .committed => stream.nextOffset
  | .pending => if stream.state = .committed then stream.nextOffset else 0
  | .buffered => stream.flushedRows

structure Delivers (cap : Nat) (run : (WriteStream Row × List Row) × List Row) : Prop where
  sound : Sound cap run.1
  buffer : run.1.1.streamType = .buffered → run.1.1.buffer.flatMap Batch.rows = run.1.2
  out : run.2 = run.1.2.take run.1.1.visible

theorem concatTables_rows {bs : List (Batch Row)} {b : Option (Batch Row)}
    (h : concatTables bs = .ok b) : (b.map Batch.rows).getD [] = bs.flatMap Batch.rows := by
  cases b with
  | none => rcases bs with _ | _ <;> grind [concatTables]
  | some b => exact concatTables_eq_ok h

theorem Delivers.deliver {run : (WriteStream Row × List Row) × List Row} (h : Delivers cap run)
    (r : StreamRequest Row) : Delivers cap (deliver cap run r) := by
  have hs := h.sound.serve r
  have hl := h.sound.nextOffset
  have hf := h.sound.flushedRows
  cases r with
  | append rows o =>
    rcases run.1.1.append_cases rows o (some cap) with ⟨hn, ha⟩ | ha
    · simpa [WriteStream.deliver, WriteStream.serve, handedOut, hn, ha] using h
    have hok : (run.1.1.append rows o (some cap)).1.status = .ok := by rw [ha]
    have hop : run.1.1.streamType = .pending → run.1.1.state = .open_ := fun hk =>
      by_contra fun hst => append_of_not_open (by simp [hk]) hst hok
    have hb := h.buffer
    refine ⟨hs, ?_, ?_⟩
    · simp only [WriteStream.deliver, WriteStream.serve, ha, taking]
      intro hk
      split at hk <;> simp_all [holdsBack, advance]
    · simp only [WriteStream.deliver, WriteStream.serve, handedOut, ha, taking, written, visible,
        h.out]
      rcases hk : run.1.1.streamType <;> simp_all [holdsBack, advance]
  | flush o =>
    rcases run.1.1.flush_cases o with ⟨e, hr, -⟩ | ⟨c, hr, hc⟩ | ⟨b, hk, ⟨-, hlo, hhi⟩, hc, hr⟩
    · simpa [WriteStream.deliver, WriteStream.serve, handedOut, hr] using h
    · simpa [WriteStream.deliver, WriteStream.serve, handedOut, hr, hc] using h
    -- the part between the two flushes follows what was handed out before
    simp only [WriteStream.deliver, WriteStream.serve, handedOut, hr] at hs ⊢
    refine ⟨hs, h.buffer, ?_⟩
    simp only [h.out, visible, flushing, hk, concatTables_eq_ok hc, h.buffer hk]
    exact OffsetLog.take_append_slice _ (by omega)
  | finalize =>
    by_cases hc : run.1.1.streamType ≠ .default ∧ run.1.1.state = .open_
    · simp only [WriteStream.deliver, WriteStream.serve, handedOut, if_pos hc] at hs ⊢
      refine ⟨hs, h.buffer, ?_⟩
      simp [h.out, visible, finalizing, hc.2]
    · simpa [WriteStream.deliver, WriteStream.serve, handedOut, hc] using h
  | commit =>
    rcases run.1.1.commit_cases with ⟨-, c, hr, hc⟩ | ⟨hk, hst, ⟨e, -, hr⟩ | ⟨b, hc, hr⟩⟩
    · simpa [WriteStream.deliver, WriteStream.serve, handedOut, hr, hc] using h
    · simpa [WriteStream.deliver, WriteStream.serve, handedOut, hr] using h
    simp only [WriteStream.deliver, WriteStream.serve, handedOut, hr] at hs ⊢
    refine ⟨hs, fun hk' => (by cases hk.symm.trans hk'), ?_⟩
    rw [concatTables_rows hc, (h.sound.pending hk (by simp [hst])).1]
    simp [h.out, visible, committing, hk, hst, hl]

/-- A request changes neither the name nor the kind of a stream. -/
theorem serve_name (run : WriteStream Row × List Row) (r : StreamRequest Row) :
    (serve cap run r).1.name = run.1.name ∧ (serve cap run r).1.streamType = run.1.streamType := by
  cases r with
  | append rows o =>
    rcases run.1.append_cases rows o (some cap) with ⟨-, ha⟩ | ha
    · simp [serve, ha]
    · simp [serve, ha]
  | flush o =>
    rcases run.1.flush_cases o with ⟨e, hr, -⟩ | ⟨c, hr, -⟩ | ⟨b, -, -, -, hr⟩ <;>
      simp [serve, hr, flushing]
  | finalize =>
    simp only [serve]
    split <;> simp [finalizing]
  | commit =>
    rcases run.1.commit_cases with ⟨-, c, hr, -⟩ | ⟨-, -, ⟨e, -, hr⟩ | ⟨b, -, hr⟩⟩ <;>
      simp [serve, hr, committing]

/-- **What a stream hands to its table** in every run is a beginning of what it has accepted: all
for `DEFAULT` and `COMMITTED`, the flushed part for `BUFFERED`, and for `PENDING` nothing before the
commit and all then. -/
theorem stream_delivers (cap : Nat) (name : String) (table : TableId) (kind : WriteStreamType)
    (requests : List (StreamRequest Row)) :
    let run := requests.foldl (deliver cap) (({ name, table, streamType := kind }, []), [])
    run.2 = run.1.2.take run.1.1.visible ∧
      run.2 = match kind with
        | .default | .committed => run.1.2
        | .pending => if run.1.1.state = .committed then run.1.2 else []
        | .buffered => run.1.2.take run.1.1.flushedRows := by
  intro run
  have h : Delivers cap run ∧ run.1.1.streamType = kind := by
    refine foldlRecOn (motive := fun run => Delivers cap run ∧ run.1.1.streamType = kind)
      requests _ ?_ fun run h r _ => ⟨h.1.deliver r, ?_⟩
    · exact ⟨⟨sound_new cap name table kind, fun _ => rfl, take_nil.symm⟩, rfl⟩
    · exact (serve_name run.1 r).2.trans h.2
  obtain ⟨h, hk⟩ := h
  refine ⟨h.out, ?_⟩
  rw [h.out, visible, hk]
  have hall : run.1.2.take run.1.1.nextOffset = run.1.2 := by
    rw [h.sound.nextOffset, take_length]
  cases kind with
  | default | committed => exact hall
  | pending =>
    simp only
    split
    · exact hall
    · rfl
  | buffered => rfl

/-! ## The streams of the service -/

/-- A stream as some requests leave a new one. -/
def Reached (cap : Nat) (stream : WriteStream Row) : Prop :=
  ∃ name table kind, ∃ requests : List (StreamRequest Row),
    stream = (requests.foldl (serve cap) ({ name, table, streamType := kind }, [])).1

theorem Reached.serve (h : Reached cap stream) (r : StreamRequest Row) :
    Reached cap (WriteStream.serve cap (stream, []) r).1 := by
  obtain ⟨name, table, kind, requests, rfl⟩ := h
  refine ⟨name, table, kind, requests ++ [r], ?_⟩
  rw [foldl_append, foldl_cons, foldl_nil]
  -- the rows accepted so far are recorded only
  cases r with
  | append => rfl
  | flush | finalize | commit =>
    simp only [WriteStream.serve]
    split <;> rfl

end WriteStream

/-- **Every stream that the service knows** is as requests to it leave a new stream. -/
def WriteServer.AllReached (cap : Nat) (s : WriteServer Row) : Prop :=
  ∀ name stream, s.get name = some stream → stream.Reached cap

namespace WriteServer

open WriteStream Comp

variable {cap : Nat} {s s' : WriteServer Row} {stream : WriteStream Row} {env : WriteEnv Row}

theorem AllReached.grows (h : AllReached cap s) (hg : Grows s s') : AllReached cap s' := by
  intro name stream hs
  rcases hg.get name with heq | ⟨-, new, hnew, n, table, kind, rfl⟩
  · exact h name stream (heq.symm.trans hs)
  · cases hnew.symm.trans hs
    exact ⟨n, table, kind, [], rfl⟩

theorem AllReached.congr (h : AllReached cap s) (hs : s'.streams = s.streams) :
    AllReached cap s' := by
  intro name stream hg
  rw [get, hs] at hg
  exact h name stream hg

/-- A stream that is found takes one more request. -/
theorem AllReached.set_serve {name : String} (h : AllReached cap s)
    (hg : s.get name = some stream) (r : StreamRequest Row) :
    AllReached cap (s.set (WriteStream.serve cap (stream, []) r).1) := by
  obtain rfl := get_name hg
  intro name other ho
  have hn : (WriteStream.serve cap (stream, []) r).1.name = stream.name := (serve_name _ r).1
  rw [get_set (by rw [hn]; exact hg)] at ho
  split at ho
  · cases ho
    exact (h _ stream hg).serve r
  · exact h name other ho

theorem AllReached.commitStream (h : AllReached cap s) (fate : Fate) (name : String) :
    AllReached cap (commitStream fate name s).state := by
  unfold Bqemulator.commitStream
  split
  · exact h
  rename_i stream hg
  split
  · exact h
  · rename_i outcome stream' hc
    have hs := h.set_serve hg .commit
    simp only [WriteStream.serve, hc] at hs
    exact hs.congr (writeOut_streams _ _)

theorem AllReached.batchCommit (h : AllReached cap s) (fate : Fate) (names : List String) :
    AllReached cap (handleBatchCommitWriteStreams fate names s).state := by
  let R (s : WriteServer Row) (_ : List (WriteEvent Row)) (s' : WriteServer Row) : Prop :=
    AllReached cap s → AllReached cap s'
  have hR : Comp.Sequential R := ⟨fun _ h => h, fun h h' hs => h' (h hs)⟩
  have hall : Respects R (commitStreams fate names : WriteM Row Unit) := by
    induction names with
    | nil => exact .ret hR ()
    | cons name names ih => exact .bind hR (fun _ h => h.commitStream fate name) fun _ => ih
  unfold handleBatchCommitWriteStreams
  split
  · exact Respects.bind hR hall (fun _ => .ret hR _) s h
  · exact h

theorem AllReached.finalize (h : AllReached cap s) (name : String) :
    AllReached cap (handleFinalizeWriteStream name s).state := by
  unfold handleFinalizeWriteStream
  split
  · exact h
  rename_i stream hg
  split
  · exact h
  rename_i hk
  split
  · exact h
  · exact h
  · rename_i ho
    have hs := h.set_serve hg .finalize
    rwa [WriteStream.serve, if_pos ⟨hk, ho⟩] at hs

theorem AllReached.flush (h : AllReached cap s) (fate : Fate) (name : String) (offset : Int) :
    AllReached cap (handleFlushRows fate name offset s).state := by
  unfold handleFlushRows
  split
  · exact h
  rename_i stream hg
  split
  · exact h
  split
  · exact h
  rename_i outcome stream' hf
  have hs := h.set_serve hg (.flush offset)
  simp only [WriteStream.serve, hf] at hs
  split
  · rw [run_bind_of_ok (a := ()) rfl, run_bind_pure]
    exact hs.congr (writeOut_streams _ _)
  · exact hs

theorem AllReached.append (h : AllReached env.maxStreamRows s) (fate : Fate) (conn : Nat)
    (request : AppendRowsRequest) :
    AllReached env.maxStreamRows (handleAppendRows env fate conn request s).state := by
  have hs := h.grows (receive_sound env s conn request).1
  cases hr : (receive env s conn request).1 with
  | answered | raised =>
    unfold handleAppendRows
    rw [← Prod.mk.eta (p := receive env s conn request), hr]
    exact hs
  | batch stream rows offset =>
    have hs := hs.set_serve (receive_found hr).get (.append rows offset)
    refine AllReached.congr ?_ (handleAppendRows_batch fate hr).2.2.1
    unfold performAppend
    rw [run_bind_of_ok (a := ()) rfl, run_bind_of_ok (a := ()) rfl]
    split
    · rw [run_bind_pure]
      exact hs.congr (writeOut_streams _ _)
    · exact hs

/-- One request keeps it. -/
theorem AllReached.serve (h : AllReached env.maxStreamRows s) (input : WriteRequest × Fate) :
    AllReached env.maxStreamRows (s.serve env input).state := by
  have h : AllReached env.maxStreamRows (s.atTime input.2.now) := h
  unfold WriteServer.serve
  cases input.1 with
  | create parent kind streamId => exact h.grows (idle_handleCreateWriteStream _ _ _).grows
  | get name => exact h.grows (idle_handleGetWriteStream name).grows
  | append conn request => exact h.append input.2 conn request
  | flush name offset => exact h.flush input.2 name offset
  | finalize name => exact h.finalize name
  | batchCommit names => exact h.batchCommit input.2 names

/-- Every run of the service, from a start without streams: each stream is as requests to it
alone leave a new one. -/
theorem reached_run (env : WriteEnv Row) (w : World Row) (inputs : List (WriteRequest × Fate)) :
    AllReached env.maxStreamRows
      (inputs.foldl (fun s input => (s.serve env input).state) { world := w }) :=
  foldlRecOn inputs _ (fun _ _ hg => nomatch hg) fun _ h input _ => h.serve input

end WriteServer

end Bqemulator
