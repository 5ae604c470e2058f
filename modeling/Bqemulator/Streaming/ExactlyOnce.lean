import Bqemulator.Grpc.WriteServicer
import Bqemulator.Lib.OffsetLog

/-!
# Exactly-once delivery of write streams

A client that appends to a `COMMITTED` stream, or flushes a `BUFFERED` one, is to find every
acknowledged batch once in the table, in the order of the offsets; and an error is to leave the
stream as it was. The servicer counts the rows before it inserts them, and so keeps to this in
exactly the runs in which every batch it counts is also inserted and recorded.
-/

namespace Bqemulator

open Comp Except List OffsetLog Option WriteServer WriteStream

variable {Row : Type}

/-! ## Sessions -/

def WriteServer.atTime (s : WriteServer Row) (now : Time) : WriteServer Row :=
  { s with world := { s.world with now } }

structure Observation (Row : Type) where
  request : WriteRequest
  trace : List (WriteEvent Row)
  answer : Except DomainError WriteAnswer

/-- The server with the history of what clients saw. -/
structure WriteSession (Row : Type) where
  server : WriteServer Row
  history : List (Observation Row) := []

variable (env : WriteEnv Row)

def WriteServer.serve (s : WriteServer Row) (input : WriteRequest × Fate) :
    Outcome (WriteEvent Row) DomainError (WriteServer Row) WriteAnswer :=
  handleWrite env input.2 input.1 (s.atTime input.2.now)

def observe (s : WriteServer Row) (input : WriteRequest × Fate) : Observation Row :=
  ⟨input.1, (s.serve env input).trace, (s.serve env input).result⟩

variable (ws : WriteSession Row) (input : WriteRequest × Fate)

/-- One request. An exception ends the request, not the session. -/
def WriteSession.step : Except DomainError (WriteSession Row) :=
  .ok ⟨(ws.server.serve env input).state, ws.history ++ [observe env ws.server input]⟩

variable (w : World Row)

def WriteSession.start : WriteSession Row := ⟨{ world := w }, []⟩

/-! ## What was acknowledged and what was received -/

variable (o : Observation Row) (name : String)

def WriteEvent.batchFor : WriteEvent Row → List Row
  | .batch n rows => if n = name then rows else []
  | .inserted _ _ _ => []

def WriteEvent.rowsFor : WriteEvent Row → List Row
  | .batch _ _ => []
  | .inserted n _ rows => if n = name then rows else []

def WriteEvent.rowsInto (key : String × String) : WriteEvent Row → List Row
  | .batch _ _ => []
  | .inserted _ k rows => if k = key then rows else []

def WriteEvent.stream : WriteEvent Row → String
  | .batch n _ => n
  | .inserted n _ _ => n

namespace Observation

def acked : List (Int × List Row) :=
  match o.answer with
  | .ok (.appended n offset) =>
    if n = name then [(offset, o.trace.flatMap (WriteEvent.batchFor name))] else []
  | _ => []

def flushes : List Int :=
  match o.request, o.answer with
  | .flush n _, .ok (.flushed offset) => if n = name then [offset] else []
  | _, _ => []

def received : List Row :=
  o.trace.flatMap (WriteEvent.rowsFor name)

def isError : Bool :=
  match o.answer with
  | .error _ => true
  | .ok answer => answer.isError

/-- Nothing was acknowledged or received. -/
def Quiet : Prop :=
  o.acked name = [] ∧ o.flushes name = [] ∧ o.received name = []

end Observation

namespace WriteSession

def acked : List (Int × List Row) :=
  ws.history.flatMap fun o => o.acked name

def flushes : List Int :=
  ws.history.flatMap fun o => o.flushes name

def received : List Row :=
  ws.history.flatMap fun o => o.received name

def inserted (key : String × String) : List Row :=
  ws.history.flatMap fun o => o.trace.flatMap (WriteEvent.rowsInto key)

end WriteSession

/-! ## The property and its condition -/

/-- **Exactly-once delivery**, in a session that began with the rows of `st`: acknowledged batches
are in offset order; the table of a `COMMITTED` stream has received them, that of a `BUFFERED`
stream the part up to the furthest acknowledged flush; and every table has its first rows and what
it received. -/
structure ExactlyOnce (st : Storage Row) (ws : WriteSession Row) : Prop where
  inOrder : ∀ name stream, ws.server.get name = some stream →
    stream.streamType = .committed ∨ stream.streamType = .buffered →
    OffsetLog.InOrder (ws.acked name)
  committed : ∀ name stream, ws.server.get name = some stream → stream.streamType = .committed →
    ws.received name = rows (ws.acked name)
  buffered : ∀ name stream, ws.server.get name = some stream → stream.streamType = .buffered →
    ws.received name =
      (rows (ws.acked name)).take (upTo (ws.flushes name))
  tables : ∀ key : String × String, key.1 ≠ snapshotsSchema →
    ws.server.rowsAt key = (st.get key).getD [] ++ ws.inserted key

/-- **An error leaves streams as they were**: it changes no next offset, buffer or flushed count of
a `COMMITTED` or `BUFFERED` stream, which takes what it would have taken before. -/
def KeepsOnError : Prop :=
  (observe env ws.server input).isError = true → ∀ name stream, ws.server.get name = some stream →
    stream.streamType = .committed ∨ stream.streamType = .buffered →
    ∃ stream', (ws.server.serve env input).state.get name = some stream' ∧
      stream'.nextOffset = stream.nextOffset ∧ stream'.buffer = stream.buffer ∧
      stream'.flushedRows = stream.flushedRows ∧
      (∀ rows offset cap, (stream'.append rows offset cap).1 = (stream.append rows offset cap).1) ∧
      ∀ offset, (stream'.flush offset).map Prod.fst = (stream.flush offset).map Prod.fst

/-- The rows of a stream can be inserted and recorded. -/
def Storable (fate : Fate) (stream : WriteStream Row) : Prop :=
  Insertable w fate stream ∧ Recordable w fate stream

/-- **A request lands**: rows that it brings in sequence to a `COMMITTED` stream, or flushes of a
`BUFFERED` stream, can be inserted and recorded. -/
def Lands : Prop :=
  let s := ws.server.atTime input.2.now
  match input.1 with
  | .append conn request => ∀ stream rows offset,
      (receive env s conn request).1 = .batch stream rows offset →
      stream.streamType = .committed → stream.Accepts offset → rows.rows ≠ [] →
      Storable s.world input.2 stream
  | .flush name offset => ∀ stream b, s.get name = some stream → stream.streamType = .buffered →
      stream.Flushes offset → concatTables stream.buffer = .ok (some b) →
      Storable s.world input.2 stream
  | _ => True

/-! ## New streams -/

/-- A stream that nothing was appended to. -/
def WriteStream.IsFresh (stream : WriteStream Row) : Prop :=
  ∃ name table kind, stream = { name, table, streamType := kind }

/-- The server after at most new streams came to be. -/
structure Grows (s s' : WriteServer Row) : Prop where
  world : s'.world = s.world
  get : ∀ name, s'.get name = s.get name ∨
    (s.get name = none ∧ ∃ stream, s'.get name = some stream ∧ stream.IsFresh)

protected theorem Grows.refl (s : WriteServer Row) : Grows s s := ⟨rfl, fun _ => .inl rfl⟩

variable {s s' : WriteServer Row} {stream : WriteStream Row} {name : String} {env : WriteEnv Row}
  {conn : Nat} {request : AppendRowsRequest} {rows : Batch Row}

theorem Grows.setConnection (h : Grows s s') (conn : Nat) (c : Connection) :
    Grows s (s'.setConnection conn c) := ⟨h.world, h.get⟩

theorem get_concat (s : WriteServer Row) (stream : WriteStream Row) (name : String) :
    ({ s with streams := s.streams ++ [stream] } : WriteServer Row).get name =
      (s.get name).or (if stream.name = name then some stream else none) := by
  rw [WriteServer.get, List.find?_append]
  congr 1
  by_cases h : stream.name = name <;> simp

protected theorem Grows.concat (hn : s.get stream.name = none) (hf : stream.IsFresh) :
    Grows s { s with streams := s.streams ++ [stream] } := by
  refine ⟨rfl, fun name => ?_⟩
  rw [get_concat]
  by_cases hna : stream.name = name
  · subst hna
    exact .inr ⟨hn, stream, by rw [hn, if_pos rfl]; rfl, hf⟩
  · rw [if_neg hna]
    exact .inl or_none

/-- The stream of a request, and the server in which it is found: it was there before, or is a new
implicit stream. -/
structure Found (s : WriteServer Row) (stream : WriteStream Row) (s' : WriteServer Row) : Prop where
  grows : Grows s s'
  get : s'.get stream.name = some stream
  old : s.get stream.name = some stream ∨
    (s.get stream.name = none ∧ stream.streamType = .default)

theorem found_of_get (h : s.get name = some stream) : Found s stream s := by
  have hn := get_name h
  subst hn
  exact ⟨.refl s, h, .inl h⟩

theorem getOrCreateDefault_found (s : WriteServer Row) (id : TableId) :
    Found s (s.getOrCreateDefault id).1 (s.getOrCreateDefault id).2 := by
  unfold getOrCreateDefault
  split
  · rename_i stream hg
    exact found_of_get hg
  · rename_i hn
    refine ⟨.concat hn ⟨_, _, _, rfl⟩, ?_, .inr ⟨hn, rfl⟩⟩
    rw [get_concat, hn, if_pos rfl]
    rfl

theorem lookUpStream_found (h : lookUpStream s name = .ok (stream, s')) : Found s stream s' := by
  unfold lookUpStream at h
  split at h
  · rename_i stream hg
    cases h
    exact found_of_get hg
  split at h
  · split at h
    · cases h
    rename_i id streamId _
    split at h
    · cases h
    · have hf := getOrCreateDefault_found s id
      rw [ok.inj h] at hf
      exact hf
  · cases h

theorem resolveAppendStream_found (h : resolveAppendStream s name = .ok (stream, s')) :
    Found s stream s' := by
  unfold resolveAppendStream at h
  split at h
  · split at h
    · cases h
    rename_i id streamId _
    split at h
    · cases h
    · have hf := getOrCreateDefault_found s id
      rw [ok.inj h] at hf
      exact hf
  · split at h
    · cases h
    · rename_i stream hg
      cases h
      exact found_of_get hg

theorem ensureStreamBound_found {c : Connection} {schema : String}
    (h : ensureStreamBound env s c name = .ok (stream, schema, s')) : Found s stream s' := by
  unfold ensureStreamBound at h
  simp only at h
  split at h
  · rename_i found hc
    cases h
    -- the stream the connection is bound to is still there
    obtain ⟨b, -, hb⟩ := bind_eq_some_iff.1 hc
    obtain ⟨st', hg, heq⟩ := map_eq_some_iff.1 hb
    cases heq
    exact found_of_get hg
  · unfold bindStreamToTarget at h
    obtain ⟨⟨st', s1⟩, hr, h⟩ := bind_eq_ok_iff.1 h
    simp only at h
    split at h
    · cases h
    · cases h
      exact resolveAppendStream_found hr

/-- What a message may come to: an answer is an error, and a batch has its stream. -/
def Received.Sound (s s' : WriteServer Row) : Received Row → Prop
  | .answered answer => answer.isError = true
  | .raised _ => True
  | .batch stream _ _ => Found s stream s'

theorem receive_sound (e : WriteEnv Row) (s : WriteServer Row) (conn : Nat)
    (r : AppendRowsRequest) :
    Grows s (receive e s conn r).2 ∧
      (receive e s conn r).1.Sound s (receive e s conn r).2 := by
  unfold receive
  simp only
  split
  · exact ⟨.refl s, rfl⟩
  split
  · exact ⟨.refl s, rfl⟩
  split
  · exact ⟨(Grows.refl s).setConnection conn _, rfl⟩
  rename_i stream schema s' hb
  have hf := ensureStreamBound_found hb
  have hg := hf.grows.setConnection conn
  split
  · exact ⟨hg _, rfl⟩
  · exact ⟨hg _, trivial⟩
  · exact ⟨hg _, hg _, hf.get, hf.old⟩

variable {offset : Option Int}

theorem receive_found
    (h : (receive env s conn request).1 = .batch stream rows offset) :
    Found s stream (receive env s conn request).2 := by
  have hs := (receive_sound env s conn request).2
  rwa [h] at hs

/-! ## Appends -/

variable {b : Option (Batch Row)} {answer : WriteAnswer} {stream' : WriteStream Row}

section Append

variable {fate : Fate} {offset : Option Int}

/-- The insertion of a batch that the stream takes. -/
def insertTaken (fate : Fate) (stream : WriteStream Row) (rows : Batch Row) : WriteM Row Unit :=
  fun s => writeOut fate (stream.taking rows) (stream.written rows) (s.set (stream.taking rows))

theorem performAppend_taken
    (h : stream.append rows offset (some env.maxStreamRows) =
      ({ status := .ok, committedRows := stream.written rows, offset := stream.nextOffset },
        stream.taking rows)) (s : WriteServer Row) :
    performAppend env fate stream rows offset s =
      let r := insertTaken fate stream rows s
      ⟨.batch stream.name rows.rows :: r.trace,
        r.result.map fun _ => .appended stream.name stream.nextOffset, r.state⟩ := by
  simp only [performAppend, h, if_true]
  rw [run_bind_of_ok (a := ()) rfl, run_bind_of_ok (a := ()) rfl, run_bind_pure]
  rfl

theorem handleAppendRows_batch (f : Fate)
    (h : (receive env s conn request).1 = .batch stream rows offset) :
    let r := performAppend env f stream rows offset (receive env s conn request).2
    (handleAppendRows env f conn request s).trace = r.trace ∧
      (handleAppendRows env f conn request s).result = r.result ∧
      (handleAppendRows env f conn request s).state.streams = r.state.streams ∧
      (handleAppendRows env f conn request s).state.world = r.state.world := by
  intro r
  have hre : receive env s conn request =
      (.batch stream rows offset, (receive env s conn request).2) := Prod.ext h rfl
  unfold handleAppendRows
  rw [hre]
  simp only
  cases hr : (performAppend env f stream rows offset (receive env s conn request).2).result with
  | ok a =>
    rw [run_tryCatch_of_ok hr]
    exact ⟨rfl, rfl, rfl, rfl⟩
  | error e =>
    rw [run_tryCatch_of_error hr]
    refine ⟨?_, rfl, rfl, rfl⟩
    exact append_nil _

@[simp] theorem taking_name : (stream.taking rows).name = stream.name := by
  unfold taking
  split <;> rfl

@[simp] theorem taking_table : (stream.taking rows).table = stream.table := by
  unfold taking
  split <;> rfl

@[simp] theorem taking_streamType : (stream.taking rows).streamType = stream.streamType := by
  unfold taking
  split <;> rfl

theorem taking_nextOffset :
    (stream.taking rows).nextOffset = stream.nextOffset + rows.rows.length := by
  unfold taking
  split <;> rfl

theorem rowsOut_written :
    rowsOut (stream.written rows) = if stream.holdsBack then [] else rows.rows := by
  unfold written
  split <;> rfl

theorem storable_taking {w : World Row} :
    (Insertable w fate (stream.taking rows) ↔ Insertable w fate stream) ∧
      (Recordable w fate (stream.taking rows) ↔ Recordable w fate stream) := by
  simp [Insertable, Recordable, snapshotIdOf]

theorem writeOut_streams (b : Option (Batch Row)) (s : WriteServer Row) :
    (writeOut fate stream b s).state.streams = s.streams := by
  rcases writeOut_cases fate stream b s with ⟨-, h⟩ | ⟨-, -, e, h⟩ | ⟨-, -, -, h, -⟩
  · rw [h]
  · rw [h]
  · exact h.streams

theorem writeOut_trace (b : Option (Batch Row)) (s : WriteServer Row) :
    ∀ e ∈ (writeOut fate stream b s).trace,
      e = .inserted stream.name stream.table.key (rowsOut b) := by
  rcases writeOut_cases fate stream b s with ⟨-, h⟩ | ⟨-, -, e, h⟩ | ⟨-, -, h, -, -⟩ <;> rw [h]
  · exact fun e he => absurd he not_mem_nil
  · exact fun e he => absurd he not_mem_nil
  · exact fun e he => mem_singleton.1 he

theorem writeOut_fails (hro : rowsOut b ≠ []) (h : ¬ Storable s.world fate stream) :
    ∃ e, (writeOut fate stream b s).result = .error e := by
  rcases writeOut_cases fate stream b s with
    ⟨hn, -⟩ | ⟨-, -, e, he⟩ | ⟨-, hi, -, -, hre⟩
  · exact absurd hn hro
  · exact ⟨e, by rw [he]⟩
  · cases hr : (writeOut fate stream b s).result with
    | error e => exact ⟨e, rfl⟩
    | ok u => exact absurd ⟨hi, hre.1 hr⟩ h

theorem writeOut_stored (h : rowsOut b ≠ [] → Storable s.world fate stream) :
    (writeOut fate stream b s).result = .ok () ∧
      ∀ name, (writeOut fate stream b s).trace.flatMap (WriteEvent.rowsFor name) =
        if name = stream.name then rowsOut b else [] := by
  rcases writeOut_cases fate stream b s with
    ⟨hn, he⟩ | ⟨hr, hi, -⟩ | ⟨hr, -, ht, -, hre⟩
  · rw [he, hn]
    exact ⟨rfl, fun name => (ite_self _).symm⟩
  · exact absurd (h hr).1 hi
  · refine ⟨hre.2 (h hr).2, fun name => ?_⟩
    rw [ht]
    simp [WriteEvent.rowsFor, eq_comm]

theorem get_writeOut (f : Fate) {o : WriteStream Row} (hg : s.get stream.name = some o)
    (b : Option (Batch Row)) (name : String) :
    (writeOut f stream b (s.set stream)).state.get name =
      if name = stream.name then some stream else s.get name := by
  rw [WriteServer.get, writeOut_streams]
  exact WriteServer.get_set hg name

theorem get_insertTaken (hg : s.get stream.name = some stream) (name : String) :
    (insertTaken fate stream rows s).state.get name =
      if name = stream.name then some (stream.taking rows) else s.get name := by
  have hn : (stream.taking rows).name = stream.name := taking_name
  rw [← hn] at hg ⊢
  exact get_writeOut fate hg _ name

end Append

/-! ## What a request does to a stream -/

/-- The streams whose delivery is promised. -/
def WriteStream.Tracked (stream : WriteStream Row) : Prop :=
  stream.streamType = .committed ∨ stream.streamType = .buffered

/-- What a request that lands does to the stream of a name, with what is seen of it. -/
inductive StreamEffect (name : String) (s s' : WriteServer Row) (o : Observation Row) : Prop where
  | kept (hget : s'.get name = s.get name) (hquiet : o.Quiet name)
  | created {stream : WriteStream Row} (hnone : s.get name = none)
      (hget : s'.get name = some stream) (hfresh : stream.IsFresh) (hquiet : o.Quiet name)
  | finalized {stream : WriteStream Row} (hsome : s.get name = some stream)
      (hget : s'.get name = some stream.finalizing) (hquiet : o.Quiet name)
      (hok : o.isError = false)
  | untracked {stream' : WriteStream Row}
      (hbefore : ∀ stream, s.get name = some stream → ¬ stream.Tracked)
      (hget : s'.get name = some stream') (hafter : ¬ stream'.Tracked)
  | taken {stream : WriteStream Row} {rows : Batch Row} (hsome : s.get name = some stream)
      (hget : s'.get name = some (stream.taking rows))
      (hacked : o.acked name = [((stream.nextOffset : Int), rows.rows)])
      (hflushes : o.flushes name = [])
      (hreceived : o.received name = if stream.holdsBack then [] else rows.rows)
      (hok : o.isError = false)
  | flushed {stream : WriteStream Row} {b : Batch Row} {offset : Int}
      (hsome : s.get name = some stream) (hflush : stream.Flushes offset)
      (hkind : stream.streamType = .buffered) (hb : concatTables stream.buffer = .ok (some b))
      (hget : s'.get name = some (stream.flushing offset))
      (hacked : o.acked name = []) (hflushes : o.flushes name = [offset])
      (hreceived : o.received name =
        (b.rows.drop stream.flushedRows).take (offset.toNat - stream.flushedRows))
      (hok : o.isError = false)

variable {o : Observation Row} {ws : WriteSession Row} {input : WriteRequest × Fate}

theorem Observation.quiet (ht : ∀ e ∈ o.trace, e.rowsFor name = [])
    (hac : ∀ offset, o.answer ≠ .ok (.appended name offset))
    (hf : ∀ n offset offset', o.request = .flush n offset → o.answer = .ok (.flushed offset') →
      n ≠ name) : o.Quiet name := by
  refine ⟨?_, ?_, flatMap_eq_nil_iff.2 ht⟩
  · unfold acked
    split
    · rename_i n offset ha
      apply if_neg
      intro hn
      exact hac offset (hn ▸ ha)
    · rfl
  · unfold flushes
    split
    · rename_i n offset' offset hr ha
      exact if_neg (hf n offset' offset hr ha)
    · rfl

theorem StreamEffect.congr {u u' : WriteServer Row} (h : StreamEffect name s s' o)
    (hu : u.streams = s.streams) (hu' : u'.streams = s'.streams) : StreamEffect name u u' o := by
  have hg : u.get name = s.get name := by rw [WriteServer.get, hu]; rfl
  have hg' : u'.get name = s'.get name := by rw [WriteServer.get, hu']; rfl
  cases h with
  | kept h hq => exact .kept (hg'.trans (h.trans hg.symm)) hq
  | created hn h hfr hq =>
    exact .created (hg.trans hn) (hg'.trans h) hfr hq
  | finalized hs h hq ho =>
    exact .finalized (hg.trans hs) (hg'.trans h) hq ho
  | untracked hbe h haf =>
    exact .untracked (fun t ht => hbe t (hg.symm.trans ht)) (hg'.trans h) haf
  | taken hs h ha hf hr ho =>
    exact .taken (hg.trans hs) (hg'.trans h) ha hf hr ho
  | flushed hs hfh hk hb h ha hf hr ho =>
    exact .flushed (hg.trans hs) hfh hk hb (hg'.trans h) ha hf hr ho

theorem StreamEffect.of_grows (hgr : Grows s s') (hq : o.Quiet name) :
    StreamEffect name s s' o := by
  rcases hgr.get name with hg | ⟨hn, stream, hg, hf⟩
  · exact .kept hg hq
  · exact .created hn hg hf hq

variable {r : Outcome (WriteEvent Row) DomainError (WriteServer Row) WriteAnswer}

section Requests

variable {fate : Fate}

def seen (request : WriteRequest)
    (r : Outcome (WriteEvent Row) DomainError (WriteServer Row) WriteAnswer) : Observation Row :=
  ⟨request, r.trace, r.result⟩

/-- The outcome of a request that brings no rows: at most new streams come to be. -/
structure Idle (s : WriteServer Row)
    (r : Outcome (WriteEvent Row) DomainError (WriteServer Row) WriteAnswer) : Prop where
  grows : Grows s r.state
  trace : r.trace = []
  answer : ∀ name offset, r.result ≠ .ok (.appended name offset) ∧ r.result ≠ .ok (.flushed offset)

theorem Idle.effect (h : Idle s r) (request : WriteRequest) (name : String) :
    StreamEffect name s r.state (seen request r) := by
  refine .of_grows h.grows (Observation.quiet ?_ (fun o => (h.answer name o).1) ?_)
  · intro e he
    rw [seen, h.trace] at he
    cases he
  · intro n o o' _ ha
    exact absurd ha (h.answer name o').2

theorem Idle.of_isError (hg : Grows s s') (h : answer.isError = true) :
    Idle s ⟨[], .ok answer, s'⟩ := by
  refine ⟨hg, rfl, fun name o => ⟨fun heq => ?_, fun heq => ?_⟩⟩ <;>
    cases ok.inj heq <;> cases h

theorem idle_handleCreateWriteStream (p : String) (kind : ProtoStreamType)
    (st : String) : Idle s (handleCreateWriteStream p kind st s) := by
  unfold handleCreateWriteStream
  split
  · exact ⟨.refl s, rfl, by simp⟩
  split
  · exact ⟨.refl s, rfl, by simp⟩
  · exact ⟨.refl s, rfl, by simp⟩
  · exact ⟨.refl s, rfl, by simp⟩
  split
  · exact ⟨.refl s, rfl, by simp⟩
  rename_i stream s' hc
  refine ⟨?_, rfl, by simp⟩
  unfold create at hc
  simp only at hc
  split at hc
  · cases hc
  · rename_i hn
    cases hc
    exact .concat (not_isSome_iff_eq_none.1 hn) ⟨_, _, _, rfl⟩

theorem lookUpStream_error (h : lookUpStream s name = .error answer) : answer.isError = true := by
  unfold lookUpStream at h
  split at h
  · cases h
  split at h
  · split at h
    · cases h
      rfl
    split at h
    · cases h
      rfl
    · cases h
  · cases h
    rfl

theorem idle_handleGetWriteStream (name : String) : Idle s (handleGetWriteStream name s) := by
  unfold handleGetWriteStream
  split
  · split
    · rename_i answer hl
      exact .of_isError (.refl s) (lookUpStream_error hl)
    · rename_i stream s' hl
      exact ⟨(lookUpStream_found hl).grows, rfl, by simp⟩
  · exact .of_isError (.refl s) rfl

/-- Between two states the stream of a name stays `PENDING`, or is left alone with nothing inserted
for it. -/
def OnlyPending (name : String) (s : WriteServer Row) (t : List (WriteEvent Row))
    (s' : WriteServer Row) : Prop :=
  ((∃ stream, s.get name = some stream ∧ stream.streamType = .pending) ∧
    ∃ stream, s'.get name = some stream ∧ stream.streamType = .pending) ∨
  (s'.get name = s.get name ∧ ∀ e ∈ t, e.rowsFor name = [])

theorem onlyPending_sequential (name : String) :
    Comp.Sequential (OnlyPending name : WriteServer Row → _ → _ → Prop) where
  refl s := .inr ⟨rfl, fun e he => absurd he not_mem_nil⟩
  trans {s s' s'' t t'} h h' := by
    rcases h with ⟨hs, hs'⟩ | ⟨hg, ht⟩
    · rcases h' with ⟨-, hs''⟩ | ⟨hg', -⟩
      · exact .inl ⟨hs, hs''⟩
      · exact .inl ⟨hs, by rw [hg']; exact hs'⟩
    rcases h' with ⟨hs', hs''⟩ | ⟨hg', ht'⟩
    · exact .inl ⟨by rw [← hg]; exact hs', hs''⟩
    · refine .inr ⟨hg'.trans hg, fun e he => ?_⟩
      rcases mem_append.1 he with he | he
      · exact ht e he
      · exact ht' e he

theorem get_set_self (h : s.get stream.name = some stream) (name : String) :
    (s.set stream).get name = s.get name := by
  rw [get_set h]
  split
  · rename_i hn
    rw [hn, h]
  · rfl

theorem Grows.set_self (hg : Grows s s') (h : s'.get stream.name = some stream) :
    Grows s (s'.set stream) :=
  ⟨hg.world, fun name => by rw [get_set_self h]; exact hg.get name⟩

theorem commitStream_cases (f : Fate) (n : String) (s : WriteServer Row) :
    ((∀ name, (commitStream f n s).state.get name = s.get name) ∧
      (commitStream f n s).trace = []) ∨
    ∃ stream rows, s.get n = some stream ∧ stream.streamType = .pending ∧
      commitStream f n s = writeOut f stream.committing rows (s.set stream.committing) := by
  unfold commitStream
  split
  · exact .inl ⟨fun _ => rfl, rfl⟩
  rename_i stream hg
  have hn := get_name hg
  subst hn
  rcases stream.commit_cases with
    ⟨-, outcome, hc, hno⟩ | ⟨hk, -, ⟨e, -, hc⟩ | ⟨rows, -, hc⟩⟩
  · -- a refused commit puts the stream back
    rw [hc]
    simp only [hno]
    exact .inl ⟨get_set_self hg, rfl⟩
  · rw [hc]
    exact .inl ⟨fun _ => rfl, rfl⟩
  · exact .inr ⟨stream, rows, hg, hk, by rw [hc]⟩

theorem respects_commitStream (name n : String) :
    Comp.Respects (OnlyPending name) (commitStream fate n : WriteM Row Unit) := by
  intro s
  rcases commitStream_cases fate n s with ⟨hg, ht⟩ | ⟨stream, rows, hg, hk, hr⟩
  · refine .inr ⟨hg name, fun e he => ?_⟩
    rw [ht] at he
    cases he
  have hn := get_name hg
  subst hn
  have ho : s.get stream.committing.name = some stream := hg
  have hg' := get_writeOut fate ho rows
  rw [hr]
  by_cases h : name = stream.name
  · subst h
    exact .inl ⟨⟨stream, hg, hk⟩, stream.committing, (hg' _).trans (if_pos rfl), hk⟩
  · refine .inr ⟨(hg' name).trans (if_neg h), fun e he => ?_⟩
    rw [writeOut_trace _ _ e he]
    exact if_neg fun heq => h heq.symm

theorem respects_commitStreams (name : String) (names : List String) :
    Comp.Respects (OnlyPending name) (commitStreams fate names : WriteM Row Unit) := by
  induction names with
  | nil => exact .ret (onlyPending_sequential name) ()
  | cons n names ih =>
    exact .bind (onlyPending_sequential name) (respects_commitStream name n)
      fun _ => ih

theorem not_tracked_of_pending (h : stream.streamType = .pending) : ¬ stream.Tracked := by
  simp [WriteStream.Tracked, h]

theorem effect_finalize (name n : String) :
    StreamEffect name s (handleFinalizeWriteStream n s).state
      (seen (.finalize n) (handleFinalizeWriteStream n s)) := by
  unfold handleFinalizeWriteStream
  split
  · exact (Idle.of_isError (.refl s) rfl).effect _ name
  rename_i stream hg
  have hn := get_name hg
  subst hn
  split
  · exact (Idle.of_isError (.refl s) rfl).effect _ name
  split
  · exact (Idle.of_isError (.refl s) rfl).effect _ name
  · exact Idle.effect ⟨.refl s, rfl, by simp⟩ _ name
  have ho : s.get stream.finalizing.name = some stream := hg
  by_cases h : name = stream.name
  · subst h
    exact .finalized hg ((get_set ho _).trans (if_pos rfl)) ⟨rfl, rfl, rfl⟩ rfl
  · exact .kept ((get_set ho _).trans (if_neg h)) ⟨rfl, rfl, rfl⟩

theorem effect_batchCommit (name : String) (names : List String) :
    StreamEffect name s (handleBatchCommitWriteStreams fate names s).state
      (seen (.batchCommit names) (handleBatchCommitWriteStreams fate names s)) := by
  have ha : ∀ o, (handleBatchCommitWriteStreams fate names s).result ≠
      .ok (.appended name o) := by
    intro o
    unfold handleBatchCommitWriteStreams
    split
    · rw [run_bind_pure]
      cases (commitStreams fate names s).result <;> simp [Except.map]
    · simp
  have ho : OnlyPending name s (handleBatchCommitWriteStreams fate names s).trace
      (handleBatchCommitWriteStreams fate names s).state := by
    unfold handleBatchCommitWriteStreams
    split
    · exact Respects.bind (onlyPending_sequential name) (respects_commitStreams name names)
        (fun _ => .ret (onlyPending_sequential name) _) s
    · exact (onlyPending_sequential name).refl s
  rcases ho with ⟨⟨stream, hg, hk⟩, s', hg', hk'⟩ | ⟨hg, htr⟩
  · refine .untracked (fun t ht => ?_) hg' (not_tracked_of_pending hk')
    obtain rfl : stream = t := some.inj (hg.symm.trans ht)
    exact not_tracked_of_pending hk
  · exact .kept hg (Observation.quiet htr ha (by simp [seen]))

theorem handleFlushRows_flushed {b : Batch Row} {offset : Int}
    (hg : s.get stream.name = some stream) (hk : stream.streamType = .buffered)
    (hf : stream.flush offset =
      .ok ({ ok := true, offset, committedRows := some b }, stream')) :
    handleFlushRows fate stream.name offset s =
      let r := writeOut fate stream' (some b) (s.set stream')
      ⟨r.trace, r.result.map fun _ => .flushed offset, r.state⟩ := by
  simp only [handleFlushRows, hg, hk, hf]
  rw [run_bind_of_ok (a := ()) rfl, run_bind_pure]
  rfl

/-- What a flush does to a stream. -/
theorem effect_flush {n : String} {offset : Int}
    (hl : ∀ stream b, s.get n = some stream → stream.streamType = .buffered →
      stream.Flushes offset → concatTables stream.buffer = .ok (some b) →
      Storable s.world fate stream) (name : String) :
    StreamEffect name s (handleFlushRows fate n offset s).state
      (seen (.flush n offset) (handleFlushRows fate n offset s)) := by
  cases hg : s.get n with
  | none =>
    simp only [handleFlushRows, hg]
    exact (Idle.of_isError (.refl s) rfl).effect _ name
  | some stream =>
    have hn := get_name hg
    subst hn
    by_cases hk : stream.streamType = .buffered
    · rcases stream.flush_cases offset with
        ⟨e, hf, -⟩ | ⟨outcome, hf, hok⟩ | ⟨b, -, hs, hb, hf⟩
      · simp only [handleFlushRows, hg, hk, hf]
        exact Idle.effect ⟨.refl s, rfl, by simp⟩ _ name
      · simp only [handleFlushRows, hg, hk, hf, hok]
        exact (Idle.of_isError ((Grows.refl s).set_self hg) rfl).effect _ name
      -- the rows are inserted, as the request lands
      have hst : Storable (s.set (stream.flushing offset)).world fate
          (stream.flushing offset) := hl stream b hg hk hs hb
      have ho : s.get (stream.flushing offset).name = some stream := hg
      obtain ⟨hre, hr⟩ := writeOut_stored (b := some ⟨b.schema,
        (b.rows.drop stream.flushedRows).take (offset.toNat - stream.flushedRows)⟩)
        (fun _ => hst)
      rw [handleFlushRows_flushed hg hk hf]
      simp only [hre]
      by_cases h : name = stream.name
      · subst h
        refine .flushed hg hs hk hb ?_ rfl ?_ ?_ rfl
        · rw [get_writeOut fate ho]
          exact if_pos rfl
        · exact if_pos rfl
        · exact (hr _).trans (if_pos rfl)
      · refine .kept ?_ ⟨rfl, if_neg (Ne.symm h), (hr _).trans (if_neg h)⟩
        rw [get_writeOut fate ho]
        exact if_neg h
    · simp only [handleFlushRows, hg, ne_eq, hk]
      exact (Idle.of_isError (.refl s) rfl).effect _ name

theorem seen_taken {t : List (WriteEvent Row)} (ht : ∀ e ∈ t, e.batchFor stream.name = []) :
    (seen (.append conn request) ⟨.batch stream.name rows.rows :: t,
      .ok (.appended stream.name stream.nextOffset), s'⟩).acked stream.name =
        [((stream.nextOffset : Int), rows.rows)] := by
  refine (if_pos rfl).trans ?_
  have hr : (WriteEvent.batch stream.name rows.rows :: t).flatMap
      (WriteEvent.batchFor stream.name) = rows.rows := by
    rw [flatMap_cons, flatMap_eq_nil_iff.2 ht, append_nil]
    exact if_pos rfl
  exact congrArg (fun l => [((stream.nextOffset : Int), l)]) hr

theorem effect_performAppend (env : WriteEnv Row) {s1 : WriteServer Row} (hf : Found s stream s1)
    (hl : stream.streamType = .committed → stream.Accepts offset → rows.rows ≠ [] →
      Storable s.world fate stream) (conn : Nat) (request : AppendRowsRequest) (name : String) :
    StreamEffect name s (performAppend env fate stream rows offset s1).state
      (seen (.append conn request) (performAppend env fate stream rows offset s1)) := by
  rcases stream.append_cases rows offset (some env.maxStreamRows) with ⟨hst, hsa⟩ | hta
  · simp only [performAppend, if_neg hst, hsa]
    exact .of_grows (hf.grows.set_self hf.get) ⟨rfl, rfl, rfl⟩
  rw [performAppend_taken hta]
  by_cases hn : name = stream.name
  · subst hn
    have hg : (insertTaken fate stream rows s1).state.get stream.name = some (stream.taking rows) :=
      (get_insertTaken hf.get _).trans (if_pos rfl)
    by_cases htr : stream.Tracked
    · have hs : s.get stream.name = some stream := by
        rcases hf.old with h | ⟨-, hk⟩
        · exact h
        · rw [WriteStream.Tracked, hk] at htr
          simp at htr
      -- only a `COMMITTED` stream writes rows out, and it takes only batches in sequence
      have hso : rowsOut (stream.written rows) ≠ [] →
          Storable (s1.set (stream.taking rows)).world fate (stream.taking rows) := by
        intro hr
        rw [rowsOut_written] at hr
        split at hr
        · exact absurd rfl hr
        rename_i hb
        have hk : stream.streamType = .committed := by
          rcases htr with h | h
          · exact h
          · exact absurd (by simp [holdsBack, h]) hb
        have ha : stream.Accepts offset :=
          (append_committed hk rows offset (some env.maxStreamRows)).1 (by rw [hta])
        change Storable s1.world fate (stream.taking rows)
        rw [hf.grows.world, Storable, storable_taking.1, storable_taking.2]
        exact hl hk ha hr
      obtain ⟨hre, hr⟩ := writeOut_stored hso
      simp only [insertTaken, hre]
      refine .taken hs hg ?_ rfl ?_ rfl
      · refine seen_taken fun e he => ?_
        rw [writeOut_trace _ _ e he]
        rfl
      · exact (hr stream.name).trans ((if_pos taking_name.symm).trans rowsOut_written)
    · refine .untracked (fun t ht => ?_) hg ?_
      · rcases hf.old with h | ⟨h, -⟩
        · obtain rfl : stream = t := some.inj (h.symm.trans ht)
          exact htr
        · rw [h] at ht
          cases ht
      · rw [WriteStream.Tracked, taking_streamType]
        exact htr
  · have hg : (insertTaken fate stream rows s1).state.get name = s1.get name :=
      (get_insertTaken hf.get name).trans (if_neg hn)
    have hq : (seen (.append conn request) (let r := insertTaken fate stream rows s1
        ⟨.batch stream.name rows.rows :: r.trace,
          r.result.map fun _ => .appended stream.name stream.nextOffset, r.state⟩)).Quiet name := by
      refine Observation.quiet ?_ ?_ (by simp [seen])
      · intro e he
        rcases mem_cons.1 he with rfl | he
        · rfl
        · rw [writeOut_trace _ _ e he, taking_name]
          exact if_neg (Ne.symm hn)
      · intro o ho
        obtain ⟨u, -, hu⟩ := map_eq_ok_iff.1 ho
        exact hn (WriteAnswer.appended.inj hu).1.symm
    rcases hf.grows.get name with h | ⟨hno, t, ht, hfr⟩
    · exact .kept (hg.trans h) hq
    · exact .created hno (hg.trans ht) hfr hq

theorem effect_append
    (hl : ∀ stream rows offset, (receive env s conn request).1 = .batch stream rows offset →
      stream.streamType = .committed → stream.Accepts offset → rows.rows ≠ [] →
      Storable s.world fate stream) (name : String) :
    StreamEffect name s (handleAppendRows env fate conn request s).state
      (seen (.append conn request) (handleAppendRows env fate conn request s)) := by
  obtain ⟨hg, hs⟩ := receive_sound env s conn request
  cases hr : (receive env s conn request).1 with
  | answered answer =>
    have hp : receive env s conn request = (.answered answer, (receive env s conn request).2) :=
      Prod.ext hr rfl
    rw [hr] at hs
    rw [handleAppendRows, hp]
    exact (Idle.of_isError hg hs).effect _ name
  | raised e =>
    have hp : receive env s conn request = (.raised e, (receive env s conn request).2) :=
      Prod.ext hr rfl
    rw [handleAppendRows, hp]
    exact Idle.effect ⟨hg, rfl, by simp⟩ _ name
  | batch stream rows offset =>
    obtain ⟨ht, hrt, hst, -⟩ := handleAppendRows_batch fate hr
    have he := effect_performAppend env (receive_found hr)
      (hl stream rows offset hr) conn request name
    have hse : seen (.append conn request) (handleAppendRows env fate conn request s) =
        seen (.append conn request) (performAppend env fate stream rows offset
          (receive env s conn request).2) := by
      rw [seen, ht, hrt]
      rfl
    rw [hse]
    exact he.congr rfl hst

end Requests

/-- What one request does to one stream. -/
theorem streamEffect (h : Lands env ws input) (name : String) :
    StreamEffect name ws.server (ws.server.serve env input).state
      (observe env ws.server input) := by
  obtain ⟨r, f⟩ := input
  -- the clock is no matter for the streams
  have hc : ws.server.streams = (ws.server.atTime f.now).streams := rfl
  cases r with
  | create p kind s =>
    exact ((idle_handleCreateWriteStream p kind s).effect _ name).congr hc rfl
  | get n => exact ((idle_handleGetWriteStream n).effect _ name).congr hc rfl
  | append => exact (effect_append h name).congr hc rfl
  | flush => exact (effect_flush h name).congr hc rfl
  | finalize n => exact (effect_finalize name n).congr hc rfl
  | batchCommit names => exact (effect_batchCommit name names).congr hc rfl

/-! ## What the tables receive -/

/-- The rows of the tables grow by what is inserted into them. -/
def RowsGrow (s : WriteServer Row) (t : List (WriteEvent Row)) (s' : WriteServer Row) : Prop :=
  ∀ key : String × String, key.1 ≠ snapshotsSchema →
    s'.rowsAt key = s.rowsAt key ++ t.flatMap (WriteEvent.rowsInto key)

theorem rowsGrow_sequential : Comp.Sequential (RowsGrow : WriteServer Row → _ → _ → Prop) where
  refl s key _ := (append_nil _).symm
  trans h h' key hk := by
    rw [h' key hk, h key hk, append_assoc, flatMap_append]

protected theorem RowsGrow.refl (s : WriteServer Row) : RowsGrow s [] s :=
  rowsGrow_sequential.refl s

theorem RowsGrow.of_world (h : s'.world = s.world) : RowsGrow s [] s' := by
  intro key _
  rw [WriteServer.rowsAt, h]
  exact (append_nil _).symm

theorem Idle.rowsGrow (h : Idle s r) : RowsGrow s r.trace r.state := by
  rw [h.trace]
  exact .of_world h.grows.world

variable (fate : Fate)

theorem respects_writeOut (stream : WriteStream Row) (b : Option (Batch Row)) :
    Comp.Respects RowsGrow (writeOut fate stream b) := by
  intro s
  rcases writeOut_cases fate stream b s with ⟨-, h⟩ | ⟨-, -, e, h⟩ | ⟨-, hi, ht, hl, -⟩
  · rw [h]
    exact .refl s
  · rw [h]
    exact .refl s
  · intro key hk
    rw [ht, hl.rowsAt hi.2.2 hk]
    simp [WriteEvent.rowsInto, eq_comm]

theorem rowsGrow_commitStreams (names : List String) :
    Comp.Respects RowsGrow (commitStreams fate names : WriteM Row Unit) := by
  induction names with
  | nil => exact .ret rowsGrow_sequential ()
  | cons n names ih =>
    refine .bind rowsGrow_sequential (fun s => ?_) fun _ => ih
    unfold commitStream
    split
    · exact .refl s
    split
    · exact .refl s
    · exact rowsGrow_sequential.trans (.of_world rfl) (respects_writeOut fate _ _ _)

theorem rowsGrow_flush (n : String) (o : Int) :
    Comp.Respects RowsGrow (handleFlushRows fate n o : WriteM Row WriteAnswer) := by
  intro s
  unfold handleFlushRows
  split
  · exact .refl s
  split
  · exact .refl s
  split
  · exact .refl s
  split
  · refine Respects.bind rowsGrow_sequential (fun s => .of_world rfl) (fun _ => ?_) s
    refine Respects.bind rowsGrow_sequential (respects_writeOut fate _ _) fun _ => ?_
    exact .ret rowsGrow_sequential _
  · exact .of_world rfl

theorem rowsGrow_append (env : WriteEnv Row) (f : Fate) (conn : Nat)
    (r : AppendRowsRequest) :
    Comp.Respects RowsGrow (handleAppendRows env f conn r) := by
  intro s
  have hs := RowsGrow.of_world (receive_sound env s conn r).1.world
  unfold handleAppendRows
  split
  · rename_i answer s' hr
    rw [hr] at hs
    exact hs
  · rename_i e s' hr
    rw [hr] at hs
    exact hs
  rename_i stream rows o s' hr
  rw [hr] at hs
  refine rowsGrow_sequential.trans hs (Respects.tryCatch rowsGrow_sequential ?_ ?_ s')
  · -- the strategy changes no table
    refine .bind rowsGrow_sequential (fun s key _ => (append_nil _).symm)
      fun _ => ?_
    refine .bind rowsGrow_sequential (fun s => .of_world rfl) fun _ => ?_
    split
    · refine .bind rowsGrow_sequential (respects_writeOut f _ _) fun _ => ?_
      exact .ret rowsGrow_sequential _
    · exact .ret rowsGrow_sequential _
  · intro e
    refine .bind rowsGrow_sequential (fun s => .of_world rfl) fun _ => ?_
    exact .raise rowsGrow_sequential e

protected theorem RowsGrow.serve (env : WriteEnv Row) (s : WriteServer Row)
    (input : WriteRequest × Fate) :
    RowsGrow s (s.serve env input).trace (s.serve env input).state := by
  obtain ⟨r, f⟩ := input
  have hc : RowsGrow s [] (s.atTime f.now) := fun key _ => (append_nil _).symm
  refine rowsGrow_sequential.trans hc ?_
  cases r with
  | create p kind st => exact (idle_handleCreateWriteStream p kind st).rowsGrow
  | get n => exact (idle_handleGetWriteStream n).rowsGrow
  | append conn r => exact rowsGrow_append env f conn r _
  | flush n o => exact rowsGrow_flush f n o _
  | finalize n =>
    change RowsGrow _ (handleFinalizeWriteStream n _).trace (handleFinalizeWriteStream n _).state
    unfold handleFinalizeWriteStream
    split
    · exact .refl _
    split
    · exact .refl _
    split
    · exact .refl _
    · exact .refl _
    · exact .of_world rfl
  | batchCommit names =>
    change RowsGrow _ (handleBatchCommitWriteStreams f names _).trace
      (handleBatchCommitWriteStreams f names _).state
    unfold handleBatchCommitWriteStreams
    split
    · exact Respects.bind rowsGrow_sequential (rowsGrow_commitStreams f names)
        (fun _ => .ret rowsGrow_sequential _) _
    · exact .refl _

/-! ## The invariant -/

/-- **The invariant of a stream**: its counters and buffer are those of the acknowledged batches and
flushes, and the table has received the rows below the last flush, or all. -/
structure Delivered (ws : WriteSession Row) (name : String) (stream : WriteStream Row) : Prop where
  inOrder : OffsetLog.InOrder (ws.acked name)
  nextOffset : stream.nextOffset = (OffsetLog.rows (ws.acked name)).length
  committed : stream.streamType = .committed →
    ws.received name = OffsetLog.rows (ws.acked name)
  buffer : stream.streamType = .buffered →
    stream.buffer.flatMap Batch.rows = OffsetLog.rows (ws.acked name)
  flushedRows : stream.streamType = .buffered →
    stream.flushedRows = OffsetLog.upTo (ws.flushes name)
  flushedRows_le : stream.streamType = .buffered → stream.flushedRows ≤ stream.nextOffset
  buffered : stream.streamType = .buffered →
    ws.received name = (OffsetLog.rows (ws.acked name)).take stream.flushedRows

/-- **The invariant of a session** that began with the rows of `st`. -/
structure SessionInv (st : Storage Row) (ws : WriteSession Row) : Prop where
  absent : ∀ name, ws.server.get name = none →
    ws.acked name = [] ∧ ws.flushes name = [] ∧ ws.received name = []
  delivered : ∀ name stream, ws.server.get name = some stream → stream.Tracked →
    Delivered ws name stream
  tables : ∀ key : String × String, key.1 ≠ snapshotsSchema →
    ws.server.rowsAt key = (st.get key).getD [] ++ ws.inserted key

theorem sessionInv_start : SessionInv w.storage (WriteSession.start w) where
  absent _ _ := ⟨rfl, rfl, rfl⟩
  delivered _ _ h := by cases h
  tables _ _ := (append_nil _).symm

variable {st : Storage Row}

theorem SessionInv.exactlyOnce (h : SessionInv st ws) : ExactlyOnce st ws where
  inOrder name stream hg hk := (h.delivered name stream hg hk).inOrder
  committed name stream hg hk := (h.delivered name stream hg (.inl hk)).committed hk
  buffered name stream hg hk := by
    have hd := h.delivered name stream hg (.inr hk)
    rw [hd.buffered hk, hd.flushedRows hk]
  tables := h.tables

def WriteSession.after (ws : WriteSession Row) (s' : WriteServer Row) (o : Observation Row) :
    WriteSession Row := ⟨s', ws.history ++ [o]⟩

@[simp] theorem acked_after : (ws.after s' o).acked name = ws.acked name ++ o.acked name := by
  simp [WriteSession.after, WriteSession.acked]

@[simp] theorem flushes_after :
    (ws.after s' o).flushes name = ws.flushes name ++ o.flushes name := by
  simp [WriteSession.after, WriteSession.flushes]

@[simp] theorem received_after :
    (ws.after s' o).received name = ws.received name ++ o.received name := by
  simp [WriteSession.after, WriteSession.received]

theorem Delivered.quiet (h : Delivered ws name stream) (hq : o.Quiet name)
    (hk : stream'.streamType = stream.streamType)
    (hn : stream'.nextOffset = stream.nextOffset) (hb : stream'.buffer = stream.buffer)
    (hf : stream'.flushedRows = stream.flushedRows) :
    Delivered (ws.after s' o) name stream' := by
  obtain ⟨ha, hfs, hr⟩ := hq
  constructor <;> simp only [acked_after, flushes_after, received_after, ha, hfs, hr,
    append_nil, hk, hn, hb, hf]
  · exact h.inOrder
  · exact h.nextOffset
  · exact h.committed
  · exact h.buffer
  · exact h.flushedRows
  · exact h.flushedRows_le
  · exact h.buffered

theorem Delivered.taken (h : Delivered ws name stream)
    (ha : o.acked name = [((stream.nextOffset : Int), rows.rows)]) (hf : o.flushes name = [])
    (hr : o.received name = if stream.holdsBack then [] else rows.rows) :
    Delivered (ws.after s' o) name (stream.taking rows) := by
  constructor <;> simp only [acked_after, flushes_after, received_after, ha, hf,
    append_nil, rows_concat, taking_streamType, taking_nextOffset, length_append]
  · exact inOrder_concat h.inOrder (congrArg Nat.cast h.nextOffset)
  · rw [h.nextOffset]
  · intro hk
    rw [hr, if_neg (by simp [holdsBack, hk]), h.committed hk]
  · intro hk
    rw [taking, if_pos (by simp [holdsBack, hk])]
    simp [WriteStream.advance, h.buffer hk]
  · intro hk
    rw [taking, if_pos (by simp [holdsBack, hk])]
    exact h.flushedRows hk
  · intro hk
    rw [taking, if_pos (by simp [holdsBack, hk])]
    exact Nat.le_add_right_of_le (h.flushedRows_le hk)
  intro hk
  have hl := h.flushedRows_le hk
  rw [h.nextOffset] at hl
  rw [hr, if_pos (by simp [holdsBack, hk]), append_nil,
    h.buffered hk, taking, if_pos (by simp [holdsBack, hk])]
  exact (take_append_of_le_length hl).symm

theorem Delivered.flushed {b : Batch Row} {offset : Int} (h : Delivered ws name stream)
    (hfh : stream.Flushes offset) (hk : stream.streamType = .buffered)
    (hb : concatTables stream.buffer = .ok (some b)) (ha : o.acked name = [])
    (hf : o.flushes name = [offset]) (hr : o.received name =
      (b.rows.drop stream.flushedRows).take (offset.toNat - stream.flushedRows)) :
    Delivered (ws.after s' o) name (stream.flushing offset) := by
  obtain ⟨-, hn, he⟩ := hfh
  have hA : (ws.after s' o).acked name = ws.acked name := by
    rw [acked_after, ha, append_nil]
  refine ⟨?_, ?_, ?_, ?_, fun _ => ?_, fun _ => ?_, fun _ => ?_⟩
  · rw [hA]
    exact h.inOrder
  · rw [hA]
    exact h.nextOffset
  · intro hk'
    exact absurd (hk.symm.trans hk') (by decide)
  · rw [hA]
    exact h.buffer
  · rw [flushes_after, hf, upTo_concat (by rw [← h.flushedRows hk]; exact hn)]
    rfl
  · change offset.toNat ≤ stream.nextOffset
    omega
  · rw [hA, received_after, hr, h.buffered hk, concatTables_eq_ok hb, h.buffer hk]
    exact take_append_slice _ (by omega)

/-- One request keeps the invariant, if it lands. -/
theorem SessionInv.step {w' : WriteSession Row} (h : SessionInv st ws)
    (hl : Lands env ws input) (hst : ws.step env input = .ok w') : SessionInv st w' := by
  obtain rfl : ws.after (ws.server.serve env input).state (observe env ws.server input) = w' :=
    ok.inj hst
  refine ⟨fun name hn => ?_, fun name stream hg htr => ?_, fun key hk => ?_⟩
  · -- a stream never goes, so the name had none before
    cases streamEffect hl name with
    | kept hg hq =>
      obtain ⟨ha, hfs, hr⟩ := h.absent name (hg.symm.trans hn)
      refine ⟨?_, ?_, ?_⟩
      · rw [acked_after, ha, hq.1, append_nil]
      · rw [flushes_after, hfs, hq.2.1, append_nil]
      · rw [received_after, hr, hq.2.2, append_nil]
    | created _ hg | finalized _ hg | untracked _ hg | taken _ hg | flushed _ _ _ _ hg =>
      exact nomatch hn.symm.trans hg
  · have hs : ∀ {t : WriteStream Row}, (ws.server.serve env input).state.get name = some t →
        stream = t := fun ht => some.inj (hg.symm.trans ht)
    cases streamEffect hl name with
    | kept hg' hq =>
      exact (h.delivered name stream (hg'.symm.trans hg) htr).quiet hq rfl rfl rfl rfl
    | created hn hg' hf hq =>
      obtain rfl := hs hg'
      obtain ⟨ha, hfs, hr⟩ := h.absent name hn
      obtain ⟨n, table, kind, rfl⟩ := hf
      -- nothing was acknowledged before and nothing was now
      constructor <;> simp [ha, hfs, hr, hq.1, hq.2.1, hq.2.2, inOrder_nil]
    | finalized hso hg' hq =>
      obtain rfl := hs hg'
      exact (h.delivered name _ hso htr).quiet hq rfl rfl rfl rfl
    | untracked _ hg' haf => exact absurd (hs hg' ▸ htr) haf
    | taken hso hg' ha hfs hr =>
      obtain rfl := hs hg'
      rw [WriteStream.Tracked, taking_streamType] at htr
      exact (h.delivered name _ hso htr).taken ha hfs hr
    | flushed hso hfh hki hb hg' ha hfs hr =>
      obtain rfl := hs hg'
      exact (h.delivered name _ hso htr).flushed hfh hki hb ha hfs hr
  · change (ws.server.serve env input).state.rowsAt key = _
    rw [RowsGrow.serve env ws.server input key hk, h.tables key hk, append_assoc]
    simp [WriteSession.after, WriteSession.inserted, observe]

/-! ## Requests that do not land -/

theorem keepsOnError_of_lands (h : Lands env ws input) : KeepsOnError env ws input := by
  intro he name stream hg hk
  cases streamEffect h name with
  | kept hg' => exact ⟨stream, hg'.trans hg, rfl, rfl, rfl, fun _ _ _ => rfl, fun _ => rfl⟩
  | created hn => exact nomatch hn.symm.trans hg
  | untracked hb => exact absurd hk (hb stream hg)
  | finalized _ _ _ ho | taken _ _ _ _ _ ho | flushed _ _ _ _ _ _ _ _ ho =>
    exact nomatch he.symm.trans ho

theorem storable_of_keeps_append {f : Fate}
    (h : KeepsOnError env ws (.append conn request, f))
    (hre : (receive env (ws.server.atTime f.now) conn request).1 = .batch stream rows offset)
    (hk : stream.streamType = .committed) (ha : stream.Accepts offset)
    (hr : rows.rows ≠ []) : Storable (ws.server.atTime f.now).world f stream := by
  by_contra hs
  have hf := receive_found hre
  have hg : ws.server.get stream.name = some stream := by
    rcases hf.old with ho | ⟨-, hd⟩
    · exact ho
    · exact absurd (hk.symm.trans hd) (by decide)
  -- the strategy takes the batch
  have ht := ((stream.append_cases rows offset (some env.maxStreamRows)).resolve_left
    fun hrf => hrf.1 ((WriteStream.append_committed hk _ _ _).2 ha))
  have hb : stream.holdsBack = false := by simp [WriteStream.holdsBack, hk]
  have hou : rowsOut (stream.written rows) ≠ [] := by
    rw [rowsOut_written, if_neg (by simp [hb])]
    exact hr
  -- the insertion fails after that
  have hfa : ∃ e, (insertTaken f stream rows
      (receive env (ws.server.atTime f.now) conn request).2).result = .error e := by
    refine writeOut_fails hou fun hs' => hs ?_
    change Storable (receive env (ws.server.atTime f.now) conn request).2.world f
      (stream.taking rows) at hs'
    rw [hf.grows.world, Storable, storable_taking.1, storable_taking.2] at hs'
    exact hs'
  obtain ⟨e, he⟩ := hfa
  obtain ⟨-, hrt, hst, -⟩ := handleAppendRows_batch f hre
  have her : (observe env ws.server (.append conn request, f)).isError = true := by
    change (match (handleAppendRows env f conn request _).result with
      | .error _ => true | .ok answer => answer.isError) = true
    rw [hrt, performAppend_taken ht]
    simp only [he]
    rfl
  have haf : (ws.server.serve env (.append conn request, f)).state.get stream.name =
      some (stream.taking rows) := by
    change (handleAppendRows env f conn request _).state.get stream.name = _
    rw [WriteServer.get, hst, performAppend_taken ht]
    exact (get_insertTaken hf.get _).trans (if_pos rfl)
  obtain ⟨s', hg', hn, -⟩ := h her stream.name stream hg (.inl hk)
  obtain rfl := Option.some.inj (haf.symm.trans hg')
  rw [taking_nextOffset] at hn
  exact hr (List.eq_nil_of_length_eq_zero (by omega))

theorem storable_of_keeps_flush (hi : SessionInv st ws) {offset : Int} {fate : Fate}
    (h : KeepsOnError env ws (.flush name offset, fate)) {b : Batch Row}
    (hg : ws.server.get name = some stream) (hk : stream.streamType = .buffered)
    (hfh : stream.Flushes offset) (hb : concatTables stream.buffer = .ok (some b)) :
    Storable (ws.server.atTime fate.now).world fate stream := by
  by_contra hst
  have hn := get_name hg
  subst hn
  have hd := hi.delivered stream.name stream hg (.inr hk)
  have hr := flush_eq hk hfh hb
  obtain ⟨-, hne, hen⟩ := hfh
  -- the buffer has all the rows the stream counts, so there are rows to flush
  have hl : b.rows.length = stream.nextOffset := by
    rw [concatTables_eq_ok hb, hd.buffer hk, hd.nextOffset]
  have ho : rowsOut (some (⟨b.schema, (b.rows.drop stream.flushedRows).take
      (offset.toNat - stream.flushedRows)⟩ : Batch Row)) ≠ [] := by
    apply ne_nil_of_length_pos
    simp only [rowsOut, map_some, getD_some, length_take, length_drop]
    omega
  have hs' : ¬ Storable ((ws.server.atTime fate.now).set (stream.flushing offset)).world fate
      (stream.flushing offset) := hst
  obtain ⟨e, he⟩ := writeOut_fails ho hs'
  have hg' : (ws.server.atTime fate.now).get stream.name = some stream := hg
  have hs : ws.server.serve env (.flush stream.name offset, fate) = _ :=
    handleFlushRows_flushed hg' hk hr
  have her : (observe env ws.server (.flush stream.name offset, fate)).isError = true := by
    rw [observe, hs]
    simp only [he]
    rfl
  obtain ⟨s', ha, -, -, hf, -⟩ := h her stream.name stream hg (.inr hk)
  rw [hs] at ha
  have hol : (ws.server.atTime fate.now).get (stream.flushing offset).name = some stream := hg
  obtain rfl := some.inj
    (((get_writeOut fate hol _ _).trans (if_pos rfl)).symm.trans ha)
  change offset.toNat = stream.flushedRows at hf
  omega

theorem keepsOnError_iff_lands (hi : SessionInv st ws) (i : WriteRequest × Fate) :
    KeepsOnError env ws i ↔ Lands env ws i := by
  refine ⟨fun h => ?_, keepsOnError_of_lands⟩
  obtain ⟨r, f⟩ := i
  cases r with
  | append =>
    intro stream rows o hre hk ha hr
    exact storable_of_keeps_append h hre hk ha hr
  | flush =>
    intro stream b hg hk hf hb
    exact storable_of_keeps_flush hi h hg hk hf hb
  | create | get | finalize | batchCommit => trivial

/-! ## Exactly-once delivery -/

/-- **Exactly-once delivery**, and errors that leave streams as they were, hold along a run iff
every batch or flush that a `COMMITTED` or `BUFFERED` stream takes can be inserted and recorded. -/
theorem exactlyOnce_iff (env : WriteEnv Row) (w : World Row) (inputs : List (WriteRequest × Fate)) :
    (Run.Always (WriteSession.step env) (ExactlyOnce w.storage) (WriteSession.start w) inputs ∧
      Run.EachStep (WriteSession.step env) (KeepsOnError env) (WriteSession.start w) inputs) ↔
    Run.EachStep (WriteSession.step env) (Lands env) (WriteSession.start w) inputs := by
  have hst := sessionInv_start w
  have hif : Run.EachStep (WriteSession.step env) (Lands env) (WriteSession.start w) inputs ↔
      Run.EachStep (WriteSession.step env) (KeepsOnError env) (WriteSession.start w) inputs :=
    Run.eachStep_congr (fun ws i hi => (keepsOnError_iff_lands hi i).symm)
      (fun ws i ws' hi hl hs => SessionInv.step hi hl hs) hst
  refine ⟨fun h => hif.2 h.2, fun h => ⟨?_, hif.1 h⟩⟩
  exact Run.always_of_eachStep (fun ws hi => SessionInv.exactlyOnce hi)
    (fun ws i ws' hi hl hs => SessionInv.step hi hl hs) hst h

def verbatimEnv : WriteEnv String where
  tableArrowSchema _ := "name: string"
  protoRows _ rows _ := .ok rows
  arrowRows _ _ _ := .ok []

def emptyTarget : World String where
  now := 0
  retentionDays := 7
  catalog := { tables := [{ id := ⟨"p", "d", "t"⟩ }] }
  storage := { tables := [(("p__d", "t"), [])] }

/-- A batch is appended at offset 0 of a new stream while `INSERT`s fail, and again when they
work. -/
def failedAppend : List (WriteRequest × Fate) :=
  let batch : AppendRowsRequest :=
    { size := 1, writeStream := "projects/p/datasets/d/tables/t/streams/s1", offset := some 0
      rows := .protoRows (some "name") ["a"] }
  [(.create "projects/p/datasets/d/tables/t" .committed "s1", { now := 1, hex _ := "h1" }),
    (.append 1 batch, { now := 2, insertFails _ := some (.engine "IO Error"),
                        hex _ := "h2" }),
    (.append 2 batch, { now := 3, hex _ := "h3" })]

/-- **A lost batch**: its `INSERT` fails, the stream counts it, the retry is refused as a duplicate,
and the table stays empty. -/
theorem failedAppend_loses :
    (failedAppend.foldlM (WriteSession.step verbatimEnv) (WriteSession.start emptyTarget)).map
        (fun ws => (ws.history.map Observation.answer, ws.server.rowsAt ("p__d", "t"))) =
      .ok ([.ok (.stream "projects/p/datasets/d/tables/t/streams/s1" .committed [] ""),
          .error (.engine "IO Error"),
          .ok (.appendError "projects/p/datasets/d/tables/t/streams/s1" .alreadyExists
            "Offset 0 already committed; next expected 1")], []) ∧
    ¬ (Run.Always (WriteSession.step verbatimEnv) (ExactlyOnce emptyTarget.storage)
        (WriteSession.start emptyTarget) failedAppend ∧
      Run.EachStep (WriteSession.step verbatimEnv) (KeepsOnError verbatimEnv)
        (WriteSession.start emptyTarget) failedAppend) := by
  refine ⟨by decide, fun ⟨_, hk⟩ => ?_⟩
  -- the second request is answered with an error and moves the next offset
  have hs := ((hk _ rfl).2 _ rfl).1
  obtain ⟨s', hg, hn, -⟩ := hs (by decide)
    "projects/p/datasets/d/tables/t/streams/s1" _ rfl (.inl rfl)
  obtain rfl := some.inj hg
  exact absurd hn (by decide)

/-- **Tables only grow**: in every run a table holds the rows that it had and then those of the
inserts that went through, in order. -/
theorem rowsAt_run (env : WriteEnv Row) (w : World Row) (inputs : List (WriteRequest × Fate)) :
    Run.Always (WriteSession.step env)
      (fun ws => ∀ key : String × String, key.1 ≠ snapshotsSchema →
        ws.server.rowsAt key = (w.storage.get key).getD [] ++ ws.inserted key)
      (WriteSession.start w) inputs := by
  refine Run.always_of_invariant (fun _ h => h) (fun ws i ws' h hs key hk => ?_)
    (fun key _ => (append_nil _).symm) inputs
  cases hs
  rw [RowsGrow.serve env ws.server i key hk, h key hk, append_assoc]
  simp [WriteSession.inserted, observe]

end Bqemulator
