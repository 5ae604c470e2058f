import Bqemulator.Streaming.SplitStream

/-!
# Reading the rows of a stream

`ReadRows` answers with the rows of a stream in messages of at most 65536 rows, the first of which
has the schema. The offset is not read: a client that reconnects gets the stream from its first row.
-/

namespace Bqemulator

open List

variable {Row : Type}

/-! ## Batches -/

/-- The rows in pieces of the given size, which is not zero; the last one may be smaller. -/
def splitEvery (size : Nat) : List Row → List (List Row)
  | [] => []
  | row :: rest =>
    (row :: rest.take (size - 1)) :: splitEvery size (rest.drop (size - 1))
termination_by rows => rows.length
decreasing_by
  rw [List.length_drop, List.length_cons]
  omega

theorem flatten_splitEvery (size : Nat) (rows : List Row) :
    (splitEvery size rows).flatten = rows := by
  fun_induction splitEvery size rows with
  | case1 => rfl
  | case2 row r ih => rw [flatten_cons, ih, cons_append, take_append_drop]

theorem ne_nil_of_mem_splitEvery {size : Nat} {rows b : List Row}
    (h : b ∈ splitEvery size rows) : b ≠ [] := by
  fun_induction splitEvery size rows with
  | case1 => cases h
  | case2 row r ih =>
    rcases mem_cons.1 h with rfl | h
    · exact cons_ne_nil _ _
    · exact ih h

/-- The batches of a table, no longer than the given size. A batch ends where a chunk does;
`chunks` are the engine's lengths of them. -/
def toBatches (maxChunksize : Nat) : List Nat → List Row → List (List Row)
  | [], rows => splitEvery maxChunksize rows
  | length :: chunks, rows =>
    splitEvery maxChunksize (rows.take length) ++ toBatches maxChunksize chunks (rows.drop length)

theorem flatten_toBatches (size : Nat) (c : List Nat) (rows : List Row) :
    (toBatches size c rows).flatten = rows := by
  induction c generalizing rows with
  | nil => exact flatten_splitEvery size rows
  | cons length c ih =>
    rw [toBatches, flatten_append, flatten_splitEvery, ih, take_append_drop]

theorem ne_nil_of_mem_toBatches {size : Nat} {c : List Nat} {rows b : List Row}
    (h : b ∈ toBatches size c rows) : b ≠ [] := by
  induction c generalizing rows with
  | nil => exact ne_nil_of_mem_splitEvery h
  | cons length c ih =>
    rcases mem_append.1 h with h | h
    · exact ne_nil_of_mem_splitEvery h
    · exact ih h

/-! ## The handler -/

structure ReadRowsRequest where
  readStream : String
  offset : Int

inductive BatchPayload (Row : Type) where
  | arrowRecordBatch (rows : List Row)
  | avroRows (rows : List Row)
deriving DecidableEq

def BatchPayload.rows : BatchPayload Row → List Row
  | .arrowRecordBatch rows => rows
  | .avroRows rows => rows

inductive BatchSchema where
  | arrowSchema (serializedSchema : List UInt8)
  | avroSchema (schema : String)
deriving DecidableEq

/-- A message: its rows, their number, the progress it reports, and the schema if it is the
first. -/
structure ReadRowsResponse (Row : Type) where
  rowCount : Nat
  progress : Nat × Nat
  payload : BatchPayload Row
  schema : Option BatchSchema
deriving DecidableEq

variable (session : StoredSession Row)

def readRowsResponse (isFirst : Bool) (batch : List Row) : ReadRowsResponse Row where
  rowCount := batch.length
  progress := (0, 1)
  payload := match session.dataFormat with
    | .avro => .avroRows batch
    | .arrow => .arrowRecordBatch batch
  schema := if isFirst then some (match session.dataFormat with
    | .avro => .avroSchema session.avroSchemaJson
    | .arrow => .arrowSchema session.arrowSchemaBytes) else none

def readRowsResponses : List (List Row) → List (ReadRowsResponse Row)
  | [] => []
  | batch :: rest =>
    readRowsResponse session true batch :: rest.map (readRowsResponse session false)

/-- The handler of `ReadRows`. The session of a stream that is found is there. -/
def handleReadRows (server : ReadServer Row) (chunks : List Nat) (request : ReadRowsRequest) :
    Except RpcError (List (ReadRowsResponse Row)) :=
  match server.target request.readStream with
  | none => .error (streamNotFound request.readStream)
  | some (session, stream, _) =>
    .ok (readRowsResponses session (toBatches 65536 chunks (session.streamData stream)))

def delivered (responses : List (ReadRowsResponse Row)) : List Row :=
  responses.flatMap fun response => response.payload.rows

def ReadServer.messages (server : ReadServer Row) (chunks : List Nat) (request : ReadRowsRequest) :
    List (ReadRowsResponse Row) :=
  match handleReadRows server chunks request with
  | .ok responses => responses
  | .error _ => []

/-- What a client has that asks from the number of rows it has, is cut off after these numbers
of messages, and then reads to the end. -/
def ReadServer.receive (server : ReadServer Row) (chunks : List Nat) (name : String) :
    List Row → List Nat → List Row
  | received, [] => received ++ delivered (server.messages chunks ⟨name, received.length⟩)
  | received, count :: cuts =>
    server.receive chunks name
      (received ++ delivered ((server.messages chunks ⟨name, received.length⟩).take count)) cuts

/-! ## What is delivered -/

theorem rows_readRowsResponse (i : Bool) (b : List Row) :
    (readRowsResponse session i b).payload.rows = b := by
  unfold readRowsResponse
  cases session.dataFormat <;> rfl

theorem map_rows_readRowsResponses (b : List (List Row)) :
    (readRowsResponses session b).map (fun response => response.payload.rows) = b := by
  cases b with
  | nil => rfl
  | cons =>
    simp [readRowsResponses, rows_readRowsResponse, Function.comp_def]

section Found

variable {s : ReadServer Row} {name : String} {session : StoredSession Row}
  {stream : ReadStream} {index : Nat} (h : s.target name = some (session, stream, index))
  (chunks : List Nat)

include h

variable (offset : Int)

theorem handleReadRows_eq : handleReadRows s chunks ⟨name, offset⟩ =
    .ok (readRowsResponses session (toBatches 65536 chunks (session.streamData stream))) := by
  simp only [handleReadRows, h]

theorem messages_eq : s.messages chunks ⟨name, offset⟩ =
    readRowsResponses session (toBatches 65536 chunks (session.streamData stream)) := by
  simp only [ReadServer.messages, handleReadRows_eq h]

/-- A call delivers the whole stream, in order. -/
theorem delivered_messages :
    delivered (s.messages chunks ⟨name, offset⟩) = session.streamData stream := by
  rw [messages_eq h, delivered, flatMap_def, map_rows_readRowsResponses, flatten_toBatches]

theorem delivered_take_eq_nil_iff (count : Nat) :
    delivered ((s.messages chunks ⟨name, offset⟩).take count) = [] ↔
      session.streamData stream = [] ∨ count = 0 := by
  have hbs := map_rows_readRowsResponses session
  rw [messages_eq h, delivered, flatMap_def, map_take, hbs]
  constructor
  · intro hn
    rcases count with _ | count
    · exact .inr rfl
    left
    rcases hb : toBatches 65536 chunks (session.streamData stream) with _ | ⟨b, r⟩
    · rw [← flatten_toBatches 65536 chunks (session.streamData stream), hb, flatten_nil]
    -- the first batch has a row
    rw [hb, take_succ_cons, flatten_cons, append_eq_nil_iff] at hn
    have hm : b ∈ toBatches 65536 chunks (session.streamData stream) := by
      rw [hb]; exact mem_cons_self
    exact absurd hn.1 (ne_nil_of_mem_toBatches hm)
  · rintro (he | rfl)
    · have hf := flatten_toBatches 65536 chunks (session.streamData stream)
      rw [he, flatten_eq_nil_iff] at hf
      rw [flatten_eq_nil_iff]
      intro b hba
      rw [he] at hba
      exact hf b (mem_of_mem_take hba)
    · rw [take_zero, flatten_nil]

theorem receive_eq_iff (received : List Row) (c : List Nat) :
    s.receive chunks name received c = session.streamData stream ↔
      received = [] ∧ (session.streamData stream = [] ∨ ∀ count ∈ c, count = 0) := by
  induction c generalizing received with
  | nil =>
    rw [ReadServer.receive, delivered_messages h, append_left_eq_self]
    simp
  | cons count c ih =>
    rw [ReadServer.receive, ih, append_eq_nil_iff, delivered_take_eq_nil_iff h, forall_mem_cons]
    tauto

end Found

/-- **Resuming a stream**: a call delivers the rows from its offset on only for offset zero, and a
client that reconnects obtains every row once only if it had none. -/
theorem readRows_resumes_iff (server : ReadServer Row) (chunks : List Nat) (name : String)
    (session : StoredSession Row) (stream : ReadStream) (index : Nat)
    (h : server.target name = some (session, stream, index)) :
    (∀ k ≤ (session.streamData stream).length, ∃ responses,
      handleReadRows server chunks ⟨name, k⟩ = .ok responses ∧
        (delivered responses = (session.streamData stream).drop k ↔ k = 0)) ∧
    ∀ cuts, server.receive chunks name [] cuts = session.streamData stream ↔
      session.streamData stream = [] ∨ ∀ count ∈ cuts, count = 0 := by
  constructor
  · intro k hk
    refine ⟨_, handleReadRows_eq h chunks k, ?_⟩
    have ha := delivered_messages h chunks k
    rw [messages_eq h] at ha
    rw [ha]
    constructor
    · -- the rows from the offset on are fewer than all rows
      intro heq
      have hl := congrArg length heq
      rw [length_drop] at hl
      omega
    · rintro rfl
      rw [drop_zero]
  · intro cuts
    rw [receive_eq_iff h chunks [] cuts]
    exact and_iff_right rfl

def twoRowServer : ReadServer Nat :=
  ReadServer.start.after (.createReadSession "s" [10, 20] 16 1 .arrow [] "")

theorem readRows_resumes_twoRows : ∃ responses,
    handleReadRows twoRowServer [] ⟨"s/streams/0", 0⟩ = .ok responses ∧
      delivered responses = [10, 20] := by
  obtain ⟨ho, -⟩ := readRows_resumes_iff twoRowServer [] "s/streams/0" _ _ _ rfl
  obtain ⟨responses, hok, hi⟩ := ho 0 (Nat.zero_le _)
  exact ⟨responses, hok, hi.2 rfl⟩

/-- **An offset is not honoured**: the call at offset one delivers both rows, so a client that was
cut off has one twice. -/
theorem readRows_repeats_rows :
    delivered (twoRowServer.messages [] ⟨"s/streams/0", 1⟩) ≠ [10, 20].drop 1 ∧
      twoRowServer.receive [] "s/streams/0" [] [1] ≠ [10, 20] := by
  have ht : twoRowServer.target "s/streams/0" = some (_, _, _) := rfl
  constructor
  · rw [delivered_messages ht]
    decide
  · intro heq
    rcases ((receive_eq_iff ht [] [] [1]).1 heq).2 with he | hc
    · exact absurd he (by decide)
    · exact absurd (hc 1 mem_cons_self) (by decide)

end Bqemulator
