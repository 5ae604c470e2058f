import Bqemulator.Storage.Tables

/-!
# Write streams and their strategies

A write stream counts the rows appended to it, and holds back those not yet visible. Each kind has a
strategy for appends, flushes and commits, which answers from the stream alone and says which rows
are to be written now.
-/

namespace Bqemulator

variable {Row : Type}

/-! ## The state of a stream -/

inductive WriteStreamType where
  | default
  | committed
  | pending
  | buffered
deriving DecidableEq

def WriteStreamType.value : WriteStreamType → String
  | .default => "DEFAULT"
  | .committed => "COMMITTED"
  | .pending => "PENDING"
  | .buffered => "BUFFERED"

inductive WriteStreamState where
  | open_
  | finalized
  | committed
deriving DecidableEq

def WriteStreamState.value : WriteStreamState → String
  | .open_ => "OPEN"
  | .finalized => "FINALIZED"
  | .committed => "COMMITTED"

structure Batch (Row : Type) where
  schema : String
  rows : List Row
deriving DecidableEq

/-- **A write stream**: the offset of the next append, the batches not yet visible or kept for later
flushes, and the numbers of rows flushed and ever appended. -/
structure WriteStream (Row : Type) where
  name : String
  table : TableId
  streamType : WriteStreamType
  state : WriteStreamState := .open_
  nextOffset : Nat := 0
  buffer : List (Batch Row) := []
  flushedRows : Nat := 0
  rowCount : Nat := 0
deriving DecidableEq

def defaultStreamSuffix : String := "_default"

def buildStreamName (id : TableId) (streamId : String) : String :=
  "projects/" ++ id.project ++ "/datasets/" ++ id.dataset ++ "/tables/" ++ id.table ++
    "/streams/" ++ streamId

def defaultStreamName (id : TableId) : String :=
  buildStreamName id defaultStreamSuffix

def pathParts (name : String) : List String :=
  (name.toList.splitOn '/').map String.ofList

/-- The table and the id in a stream name; of the words between them only the first and last are
checked. -/
def parseStreamName (name : String) : Except String (TableId × String) :=
  match pathParts name with
  | ["projects", project, _, dataset, _, table, "streams", streamId] =>
    .ok (⟨project, dataset, table⟩, streamId)
  | _ => .error ("Invalid stream name: " ++ name)

def parseTableParent (parent : String) : Except String TableId :=
  match pathParts parent with
  | ["projects", project, _, dataset, _, table] => .ok ⟨project, dataset, table⟩
  | _ => .error ("Invalid table parent: " ++ parent)

/-- One table out of several; their columns have to be the same. No tables give none. -/
def concatTables : List (Batch Row) → Except DomainError (Option (Batch Row))
  | [] => .ok none
  | b :: rest =>
    if rest.all fun c => c.schema = b.schema then
      .ok (some ⟨b.schema, (b :: rest).flatMap Batch.rows⟩)
    else .error (.engine "Schema at index was different")

theorem concatTables_eq_ok {batches : List (Batch Row)} {b : Batch Row}
    (h : concatTables batches = .ok (some b)) : b.rows = batches.flatMap Batch.rows := by
  cases batches with
  | nil => cases h
  | cons =>
    rw [concatTables] at h
    split at h
    · obtain rfl := Option.some.inj (Except.ok.inj h)
      rfl
    · cases h

/-! ## The answers of a strategy -/

inductive AppendStatus where
  | ok
  | alreadyExists
  | outOfRange
  | streamFinalized
  | invalidArgument
  | resourceExhausted
deriving DecidableEq

/-- The answer to an append: the rows to be written to the table now, and the offset for the
client. -/
structure AppendOutcome (Row : Type) where
  status : AppendStatus
  committedRows : Option (Batch Row) := none
  offset : Int := 0
  detail : String := ""
deriving DecidableEq

/-- The answer of a strategy to a flush. -/
structure FlushOutcome (Row : Type) where
  ok : Bool
  offset : Int := 0
  committedRows : Option (Batch Row) := none
  detail : String := ""
deriving DecidableEq

/-- The answer of a strategy to a commit. -/
structure CommitOutcome (Row : Type) where
  ok : Bool
  committedRows : Option (Batch Row) := none
  detail : String := ""
deriving DecidableEq

/-- The answer to an append whose offset is not the expected one; `verb` says what happened to rows
with a smaller one. -/
def offsetRejection (verb : String) (expected : Nat) : Option Int → Option (AppendOutcome Row)
  | none => none
  | some offset =>
    if offset < expected then
      some { status := .alreadyExists, offset
             detail := "Offset " ++ toString offset ++ " already " ++ verb ++ "; next expected " ++
               toString expected }
    else if offset > expected then
      some { status := .outOfRange, offset
             detail := "Offset " ++ toString offset ++ " beyond next expected " ++
               toString expected }
    else none

def flushNotSupported (kind : WriteStreamType) : FlushOutcome Row :=
  { ok := false, detail := "FlushRows not supported on " ++ kind.value ++ " stream" }

def commitNotSupported (detail : String) : CommitOutcome Row :=
  { ok := false, detail }

variable {expected : Nat} {offset : Option Int} {stream : WriteStream Row}

namespace WriteStream

/-! ## The strategies -/

variable (stream)

def advance (rows : Nat) : WriteStream Row :=
  { stream with nextOffset := stream.nextOffset + rows, rowCount := stream.rowCount + rows }

variable (rows : Batch Row)

/-- An append to a `DEFAULT` stream: written at once, without an offset. -/
def defaultAppend (offset : Option Int) : AppendOutcome Row × WriteStream Row :=
  match offset with
  | some _ =>
    ({ status := .invalidArgument, detail := "DEFAULT stream does not accept offsets" }, stream)
  | none =>
    ({ status := .ok, committedRows := some rows, offset := stream.nextOffset },
      stream.advance rows.rows.length)

/-- An append to a `COMMITTED` stream: written at once if it is in sequence. -/
def committedAppend (offset : Option Int) : AppendOutcome Row × WriteStream Row :=
  if stream.state ≠ .open_ then
    ({ status := .streamFinalized, detail := "Stream is " ++ stream.state.value }, stream)
  else
    match offsetRejection "committed" stream.nextOffset offset with
    | some rejection => (rejection, stream)
    | none =>
      ({ status := .ok, committedRows := some rows, offset := stream.nextOffset },
        stream.advance rows.rows.length)

/-- An append to a `PENDING` stream: held back if it is in sequence and below the cap. -/
def pendingAppend (offset : Option Int)
    (maxBufferedRows : Option Nat) : AppendOutcome Row × WriteStream Row :=
  if stream.state = .committed then
    ({ status := .streamFinalized, detail := "Stream is already committed" }, stream)
  else if stream.state = .finalized then
    ({ status := .streamFinalized, detail := "Stream is finalized; no further appends allowed" },
      stream)
  else
    match offsetRejection "buffered" stream.nextOffset offset with
    | some rejection => (rejection, stream)
    | none =>
      match maxBufferedRows.filter fun cap => stream.rowCount + rows.rows.length > cap with
      | some cap =>
        ({ status := .resourceExhausted
           detail := "PENDING stream buffer would exceed the per-stream cap (" ++ toString cap ++
             " rows). Finalize + BatchCommit to release." }, stream)
      | none =>
        ({ status := .ok, offset := stream.nextOffset },
          { stream with buffer := stream.buffer ++ [rows] }.advance rows.rows.length)

/-- An append to a `BUFFERED` stream: held back if in sequence and the unflushed rows stay below the
cap. -/
def bufferedAppend (offset : Option Int)
    (maxBufferedRows : Option Nat) : AppendOutcome Row × WriteStream Row :=
  if stream.state ≠ .open_ then
    ({ status := .streamFinalized, detail := "Stream is " ++ stream.state.value }, stream)
  else
    match offsetRejection "buffered" stream.nextOffset offset with
    | some rejection => (rejection, stream)
    | none =>
      let pendingRows : Int := stream.nextOffset - stream.flushedRows + rows.rows.length
      match maxBufferedRows.filter fun cap => pendingRows > cap with
      | some cap =>
        ({ status := .resourceExhausted
           detail := "BUFFERED stream pending-rows (" ++ toString pendingRows ++
             ") would exceed per-stream cap (" ++ toString cap ++
             "). Call FlushRows to release." }, stream)
      | none =>
        ({ status := .ok, offset := stream.nextOffset },
          { stream with buffer := stream.buffer ++ [rows] }.advance rows.rows.length)

def beyondEnd (offset : Int) : String :=
  "Offset " ++ toString offset ++ " is beyond the end of the stream Entity: " ++ stream.name

def flushing (offset : Int) : WriteStream Row :=
  { stream with flushedRows := offset.toNat }

/-- A flush of a `BUFFERED` stream: the rows from the last flush up to `offset`. The buffer
keeps all rows ever appended. -/
def bufferedFlush (offset : Int) : Except DomainError (FlushOutcome Row × WriteStream Row) :=
  if stream.state ≠ .open_ then
    .ok ({ ok := false, detail := "Cannot flush stream in " ++ stream.state.value ++ " state" },
      stream)
  else if offset > stream.nextOffset then
    .ok ({ ok := false, offset, detail := stream.beyondEnd offset }, stream)
  else if offset ≤ stream.flushedRows then
    .ok ({ ok := false, offset
           detail := if stream.flushedRows = 0 ∧ stream.nextOffset = 0 then stream.beyondEnd offset
             else "Offset " ++ toString offset ++ " already flushed; next expected > " ++
               toString stream.flushedRows }, stream)
  else
    match concatTables stream.buffer with
    | .error e => .error e
    | .ok none =>
      .ok ({ ok := false, offset
             detail := "Internal error: buffer empty but offset > flushed_rows" }, stream)
    | .ok (some buffered) =>
      let rows := (buffered.rows.drop stream.flushedRows).take (offset.toNat - stream.flushedRows)
      .ok ({ ok := true, offset, committedRows := some ⟨buffered.schema, rows⟩ },
        stream.flushing offset)

def finalizing : WriteStream Row :=
  { stream with state := .finalized }

def committing : WriteStream Row :=
  { stream with buffer := [], state := .committed }

/-- A commit of a `PENDING` stream, which has to be finalized: its whole buffer. -/
def pendingCommit : Except DomainError (CommitOutcome Row × WriteStream Row) :=
  if stream.state ≠ .finalized then
    .ok (commitNotSupported ("Stream must be finalized before BatchCommit; current state: " ++
      stream.state.value), stream)
  else
    match concatTables stream.buffer with
    | .error e => .error e
    | .ok rows => .ok ({ ok := true, committedRows := rows }, stream.committing)

/-- The append of the stream's strategy. -/
def append (offset : Option Int)
    (maxBufferedRows : Option Nat) : AppendOutcome Row × WriteStream Row :=
  match stream.streamType with
  | .default => stream.defaultAppend rows offset
  | .committed => stream.committedAppend rows offset
  | .pending => stream.pendingAppend rows offset maxBufferedRows
  | .buffered => stream.bufferedAppend rows offset maxBufferedRows

/-- The flush of the stream's strategy. -/
def flush (offset : Int) : Except DomainError (FlushOutcome Row × WriteStream Row) :=
  match stream.streamType with
  | .buffered => stream.bufferedFlush offset
  | kind => .ok (flushNotSupported kind, stream)

/-- The commit of the stream's strategy. -/
def commit : Except DomainError (CommitOutcome Row × WriteStream Row) :=
  match stream.streamType with
  | .default =>
    .ok (commitNotSupported "BatchCommitWriteStreams not supported on DEFAULT stream", stream)
  | .committed => .ok (commitNotSupported "BatchCommit not supported on COMMITTED stream", stream)
  | .pending => stream.pendingCommit
  | .buffered => .ok (commitNotSupported "BatchCommit not supported on BUFFERED stream", stream)

/-! ## What the strategies do -/

def holdsBack : Bool :=
  stream.streamType = .pending || stream.streamType = .buffered

def taking : WriteStream Row :=
  if stream.holdsBack then
    { stream with buffer := stream.buffer ++ [rows] }.advance rows.rows.length
  else stream.advance rows.rows.length

def written : Option (Batch Row) :=
  if stream.holdsBack then none else some rows

/-- **In sequence**: the stream is open, and an offset is the expected one. -/
def Accepts (offset : Option Int) : Prop :=
  stream.state = .open_ ∧ ∀ o ∈ offset, o = stream.nextOffset

/-- A flush in sequence: past the last one, and not past the end. -/
def Flushes (offset : Int) : Prop :=
  stream.state = .open_ ∧ stream.flushedRows < offset ∧ offset ≤ stream.nextOffset

theorem offsetRejection_eq_none_iff {verb : String} :
    (offsetRejection verb expected offset : Option (AppendOutcome Row)) = none ↔
      ∀ o ∈ offset, o = (expected : Int) := by
  cases offset with
  | none => simp [offsetRejection]
  | some o =>
    simp only [offsetRejection, Option.mem_some_iff, forall_eq']
    split
    · simp only [reduceCtorEq, false_iff]
      omega
    split
    · simp only [reduceCtorEq, false_iff]
      omega
    · simp only [true_iff]
      omega

theorem offsetRejection_status {verb : String} {r : AppendOutcome Row}
    (h : offsetRejection verb expected offset = some r) : r.status ≠ .ok := by
  cases offset with
  | none => cases h
  | some o =>
    rw [offsetRejection] at h
    split at h
    · obtain rfl := Option.some.inj h
      simp
    · split at h
      · obtain rfl := Option.some.inj h
        simp
      · cases h

/-- What an append does: it is refused and leaves the stream as it was, or the stream takes the
batch at its next offset. -/
theorem append_cases (offset : Option Int) (c : Option Nat) :
    ((stream.append rows offset c).1.status ≠ .ok ∧
      (stream.append rows offset c).2 = stream) ∨
    stream.append rows offset c =
      ({ status := .ok, committedRows := stream.written rows, offset := stream.nextOffset },
        stream.taking rows) := by
  unfold append
  cases hk : stream.streamType with
  | default =>
    cases offset with
    | none => exact .inr (by simp [defaultAppend, written, taking, holdsBack, hk])
    | some o => exact .inl (by simp [defaultAppend])
  | committed =>
    simp only [committedAppend]
    split
    · exact .inl (by simp)
    · split
      · rename_i rejection hr
        exact .inl ⟨offsetRejection_status hr, rfl⟩
      · exact .inr (by simp [written, taking, holdsBack, hk])
  | pending =>
    simp only [pendingAppend]
    split
    · exact .inl (by simp)
    split
    · exact .inl (by simp)
    split
    · rename_i rejection hr
      exact .inl ⟨offsetRejection_status hr, rfl⟩
    split
    · exact .inl (by simp)
    · exact .inr (by simp [written, taking, holdsBack, hk])
  | buffered =>
    simp only [bufferedAppend]
    split
    · exact .inl (by simp)
    split
    · rename_i rejection hr
      exact .inl ⟨offsetRejection_status hr, rfl⟩
    split
    · exact .inl (by simp)
    · exact .inr (by simp [written, taking, holdsBack, hk])

variable {stream}

/-- A `COMMITTED` stream takes exactly the batches in sequence. -/
theorem append_committed (hk : stream.streamType = .committed) (rows : Batch Row)
    (offset : Option Int) (c : Option Nat) :
    (stream.append rows offset c).1.status = .ok ↔ stream.Accepts offset := by
  have hi : (offsetRejection "committed" stream.nextOffset offset : Option (AppendOutcome Row)) =
      none ↔ ∀ o ∈ offset, o = (stream.nextOffset : Int) := offsetRejection_eq_none_iff
  simp only [append, hk, committedAppend, Accepts, ← hi]
  by_cases ho : stream.state = .open_
  · simp only [ho]
    cases hr : (offsetRejection "committed" stream.nextOffset offset : Option (AppendOutcome Row))
      with
    | none => simp
    | some => simpa using offsetRejection_status hr
  · simp [ho]

/-- What a flush does: it fails before the stream changes, is refused and leaves the stream as
it was, or takes the rows up to its offset. -/
theorem flush_cases (stream : WriteStream Row) (offset : Int) :
    (∃ e, stream.flush offset = .error e ∧ concatTables stream.buffer = .error e) ∨
    (∃ outcome, stream.flush offset = .ok (outcome, stream) ∧ outcome.ok = false) ∨
    ∃ b, stream.streamType = .buffered ∧ stream.Flushes offset ∧
      concatTables stream.buffer = .ok (some b) ∧
      stream.flush offset = .ok
        ({ ok := true, offset
           committedRows := some ⟨b.schema,
             (b.rows.drop stream.flushedRows).take (offset.toNat - stream.flushedRows)⟩ },
          stream.flushing offset) := by
  by_cases hk : stream.streamType = .buffered
  · simp only [flush, hk, bufferedFlush]
    split
    · exact .inr (.inl ⟨_, rfl, rfl⟩)
    rename_i ho
    split
    · exact .inr (.inl ⟨_, rfl, rfl⟩)
    rename_i hen
    split
    · exact .inr (.inl ⟨_, rfl, rfl⟩)
    rename_i hn
    split
    · rename_i e he
      exact .inl ⟨e, rfl, he⟩
    · exact .inr (.inl ⟨_, rfl, rfl⟩)
    · rename_i b hb
      refine .inr (.inr ⟨b, trivial, ⟨not_not.1 ho, ?_, ?_⟩, hb, rfl⟩) <;> omega
  · refine .inr (.inl ⟨flushNotSupported stream.streamType, ?_, rfl⟩)
    unfold flush
    split
    · exact absurd (by assumption) hk
    · rfl

theorem flush_eq {offset : Int} {b : Batch Row} (hk : stream.streamType = .buffered)
    (h : stream.Flushes offset) (hb : concatTables stream.buffer = .ok (some b)) :
    stream.flush offset = .ok
      ({ ok := true, offset
         committedRows := some ⟨b.schema,
           (b.rows.drop stream.flushedRows).take (offset.toNat - stream.flushedRows)⟩ },
        stream.flushing offset) := by
  obtain ⟨ho, hn, he⟩ := h
  simp only [flush, hk, bufferedFlush, ho, ne_eq, not_true_eq_false, if_false, hb]
  rw [if_neg (by omega), if_neg (by omega)]

/-- What a commit does: a finalized `PENDING` stream gives its buffer, unless its batches do not
fit together; every other one is left as it was. -/
theorem commit_cases (stream : WriteStream Row) :
    (¬ (stream.streamType = .pending ∧ stream.state = .finalized) ∧
      ∃ outcome, stream.commit = .ok (outcome, stream) ∧ outcome.committedRows = none) ∨
    (stream.streamType = .pending ∧ stream.state = .finalized ∧
      ((∃ e, concatTables stream.buffer = .error e ∧ stream.commit = .error e) ∨
        ∃ rows, concatTables stream.buffer = .ok rows ∧
          stream.commit = .ok ({ ok := true, committedRows := rows }, stream.committing))) := by
  by_cases hk : stream.streamType = .pending
  · simp only [commit, hk, pendingCommit]
    by_cases hs : stream.state = .finalized
    · refine .inr ⟨trivial, hs, ?_⟩
      simp only [hs]
      cases concatTables stream.buffer with
      | error e => exact .inl ⟨e, rfl, rfl⟩
      | ok rows => exact .inr ⟨rows, rfl, rfl⟩
    · rw [if_pos hs]
      exact .inl ⟨fun h => hs h.2, _, rfl, rfl⟩
  · refine .inl ⟨fun h => hk h.1, ?_⟩
    unfold commit
    split
    · exact ⟨_, rfl, rfl⟩
    · exact ⟨_, rfl, rfl⟩
    · exact absurd (by assumption) hk
    · exact ⟨_, rfl, rfl⟩

end WriteStream

end Bqemulator
