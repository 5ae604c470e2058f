import Bqemulator.Lib.Comp
import Bqemulator.Streaming.WriteStream
import Bqemulator.Versioning.Snapshots

/-!
# The Storage Write API

The handlers of the write service share a manager of write streams. An append goes through the
strategy of its stream, which counts the rows, and the rows it gives out are then inserted into the
table, counted in the catalog and recorded; a flush and a commit work the same way.
-/

namespace Bqemulator

open Comp Option Storage

variable {Row : Type}

/-! ## The server -/

/-- A connection of `AppendRows`: its stream with the columns of the table, and the schemas the
client sent. -/
structure Connection where
  bound : Option (String × String) := none
  protoDecoder : Option String := none
  arrowSchemaBytes : Option String := none
  closed : Bool := false

/-- **The state of the write service**: the streams by name, and the connections. -/
structure WriteServer (Row : Type) where
  world : World Row
  streams : List (WriteStream Row) := []
  connections : List (Nat × Connection) := []

/-- What the outside decides while one request is handled, such as which `INSERT`s fail. -/
structure Fate where
  now : Time
  insertFails : String → Option DomainError := fun _ => none
  hex : String → String

/-- The settings, and what libraries are asked: the serialized schema of a table, and the rows of a
message. -/
structure WriteEnv (Row : Type) where
  maxRequestBytes : Nat := 10485760
  maxStreamRows : Nat := 1000000
  tableArrowSchema : List FieldSchema → String
  protoRows : String → List String → String → Except (String ⊕ DomainError) (List Row)
  arrowRows : String → String → String → Except (String ⊕ DomainError) (List Row)

/-- What a request leaves in its trace. -/
inductive WriteEvent (Row : Type) where
  | batch (stream : String) (rows : List Row)
  | inserted (stream : String) (key : String × String) (rows : List Row)
deriving DecidableEq

/-- The handlers: they may end in an exception, which leaves the state as it was then. -/
abbrev WriteM (Row : Type) := Comp (WriteEvent Row) DomainError (WriteServer Row)

namespace WriteServer

variable (s : WriteServer Row)

def get (name : String) : Option (WriteStream Row) :=
  s.streams.find? fun stream => stream.name = name

def set (stream : WriteStream Row) : WriteServer Row :=
  { s with streams := s.streams.map fun t => if t.name = stream.name then stream else t }

def create (id : TableId) (streamId : String) (kind : WriteStreamType) :
    Except DomainError (WriteStream Row × WriteServer Row) :=
  let stream : WriteStream Row :=
    { name := buildStreamName id streamId, table := id, streamType := kind }
  if (s.get stream.name).isSome then .error (.engine ("Stream already exists: " ++ stream.name))
  else .ok (stream, { s with streams := s.streams ++ [stream] })

def getOrCreateDefault (id : TableId) : WriteStream Row × WriteServer Row :=
  match s.get (defaultStreamName id) with
  | some stream => (stream, s)
  | none =>
    let stream : WriteStream Row :=
      { name := defaultStreamName id, table := id, streamType := .default }
    (stream, { s with streams := s.streams ++ [stream] })

def connection (conn : Nat) : Connection :=
  (s.connections.lookup conn).getD {}

def setConnection (conn : Nat) (c : Connection) : WriteServer Row :=
  { s with connections := (conn, c) :: s.connections.filter fun e => e.1 ≠ conn }

def rowsAt (key : String × String) : List Row :=
  (s.world.storage.get key).getD []

theorem get_name {s : WriteServer Row} {name : String} {stream : WriteStream Row}
    (h : s.get name = some stream) : stream.name = name := by
  simpa using List.find?_some h

theorem get_set {s : WriteServer Row} {stream o : WriteStream Row}
    (h : s.get stream.name = some o) (name : String) :
    (s.set stream).get name = if name = stream.name then some stream else s.get name := by
  have hna : (fun t : WriteStream Row => decide (t.name = name)) ∘
      (fun t => if t.name = stream.name then stream else t) = fun t => decide (t.name = name) := by
    ext t
    by_cases ht : t.name = stream.name
    · simp [ht]
    · simp [ht]
  rw [get, set, List.find?_map, hna]
  change (s.get name).map _ = _
  by_cases hn : name = stream.name
  · subst hn
    rw [h, if_pos rfl, map_some, if_pos (get_name h)]
  · rw [if_neg hn]
    cases hg : s.get name with
    | none => rfl
    | some t => rw [map_some, if_neg (get_name hg ▸ hn)]

end WriteServer

/-! ## Inserting rows -/

variable (fate : Fate) (stream : WriteStream Row)

def insertRows (key : String × String) (rows : List Row) : WriteM Row Unit := fun s =>
  match fate.insertFails stream.name, s.world.storage.get key with
  | some e, _ => ⟨[], .error e, s⟩
  | none, none => ⟨[], .error (.engine s!"Table with name {key.2} does not exist!"), s⟩
  | none, some old =>
    ⟨[.inserted stream.name key rows], .ok (),
      { s with world := { s.world with storage := s.world.storage.put key (old ++ rows) } }⟩

def countRows (count : Nat) : WriteM Row Unit := fun s =>
  match s.world.catalog.getTable stream.table with
  | none => ⟨[], .ok (), s⟩
  | some m =>
    match s.world.catalog.updateTable { m with numRows := m.numRows + count } with
    | .error e => ⟨[], .error e, s⟩
    | .ok cat => ⟨[], .ok (), { s with world := { s.world with catalog := cat } }⟩

def recordInsert : WriteM Row Unit := fun s =>
  match s.world.recordChange stream.table (fate.hex stream.name) with
  | .error e => ⟨[], .error e, s⟩
  | .ok w => ⟨[], .ok (), { s with world := w }⟩

/-- The insertion of rows into the table of a stream. -/
def flushToTarget (rows : List Row) : WriteM Row Unit := do
  let key ← lift fun _ => quotedTableRef stream.table
  insertRows fate stream key rows
  countRows stream rows.length
  recordInsert fate stream

def writeOut : Option (Batch Row) → WriteM Row Unit
  | none => pure ()
  | some b => if b.rows = [] then pure () else flushToTarget fate stream b.rows

/-! ## What an insertion does -/

variable (w : World Row)

/-- **The `INSERT` succeeds**: nothing outside makes it fail, and the table has a name that can be
written. -/
def Insertable (fate : Fate) (stream : WriteStream Row) : Prop :=
  fate.insertFails stream.name = none ∧ (∃ key, quotedTableRef stream.table = .ok key) ∧
    (w.storage.get stream.table.key).isSome

def snapshotIdOf (fate : Fate) (stream : WriteStream Row) : String :=
  newSnapshotId w.now (fate.hex stream.name)

/-- **The snapshot after an `INSERT` succeeds**: none is taken, or its id is free. -/
def Recordable (fate : Fate) (stream : WriteStream Row) : Prop :=
  w.catalog.getTable stream.table = none ∨ w.SnapshotFree (snapshotIdOf w fate stream)

/-- **The server after rows were inserted**: the table has them at its end, all else is as
before. -/
structure Landed (s : WriteServer Row) (stream : WriteStream Row) (rows : List Row)
    (s' : WriteServer Row) : Prop where
  streams : s'.streams = s.streams
  connections : s'.connections = s.connections
  now : s'.world.now = s.world.now
  known : ∀ id, (s'.world.catalog.getTable id).isSome = (s.world.catalog.getTable id).isSome
  stored : ∀ key, key.1 ≠ snapshotsSchema →
    s'.world.storage.get key = if key = stream.table.key then
      (s.world.storage.get key).map (· ++ rows) else s.world.storage.get key

theorem key_schema_ne (id : TableId) : id.key.1 ≠ snapshotsSchema := by
  intro h
  exact key_ne_snapshot id id.table (by rw [← h]; rfl)

variable {key : String × String} {old : List Row}

namespace Landed

variable {s s' s'' : WriteServer Row} {stream : WriteStream Row} {rows : List Row}

section

variable (h : Landed s stream rows s')

include h

theorem of_world {w : World Row} (hn : w.now = s'.world.now)
    (hkn : ∀ id, (w.catalog.getTable id).isSome = (s'.world.catalog.getTable id).isSome)
    (hs : ∀ key, key.1 ≠ snapshotsSchema → w.storage.get key = s'.world.storage.get key) :
    Landed s stream rows { s' with world := w } where
  streams := h.streams
  connections := h.connections
  now := hn.trans h.now
  known id := (hkn id).trans (h.known id)
  stored key hk := (hs key hk).trans (h.stored key hk)

theorem insertable_iff (f : Fate) (t : WriteStream Row) :
    Insertable s'.world f t ↔ Insertable s.world f t := by
  have hs : (s'.world.storage.get t.table.key).isSome =
      (s.world.storage.get t.table.key).isSome := by
    rw [h.stored _ (key_schema_ne t.table)]
    split
    · rw [isSome_map]
    · rfl
  rw [Insertable, Insertable, hs]

theorem rowsAt (hs : (s.world.storage.get stream.table.key).isSome) (hk : key.1 ≠ snapshotsSchema) :
    s'.rowsAt key = s.rowsAt key ++ if key = stream.table.key then rows else [] := by
  unfold WriteServer.rowsAt
  rw [h.stored key hk]
  split
  · rename_i heq
    obtain ⟨o, ho⟩ := isSome_iff_exists.1 (heq ▸ hs)
    rw [ho]
    rfl
  · rw [List.append_nil]

end

end Landed

variable {fate : Fate} {stream : WriteStream Row} {s : WriteServer Row}

theorem landed_put (s : WriteServer Row) (stream : WriteStream Row) (rows : List Row)
    (ho : s.world.storage.get stream.table.key = some old) :
    Landed s stream rows
      { s with world :=
        { s.world with storage := s.world.storage.put stream.table.key (old ++ rows) } } where
  streams := rfl
  connections := rfl
  now := rfl
  known _ := rfl
  stored key _ := by
    split
    · rename_i heq
      rw [heq, ho]
      exact get_put_self _ _ _
    · rename_i hn
      exact get_put_of_ne _ _ hn

theorem countRows_cases (stream : WriteStream Row) (count : Nat) (s : WriteServer Row) :
    ∃ cat, countRows stream count s =
      ⟨[], .ok (), { s with world := { s.world with catalog := cat } }⟩ ∧
      cat.snapshots = s.world.catalog.snapshots ∧
      ∀ id, (cat.getTable id).isSome = (s.world.catalog.getTable id).isSome := by
  unfold countRows
  cases hm : s.world.catalog.getTable stream.table with
  | none => exact ⟨s.world.catalog, rfl, rfl, fun _ => rfl⟩
  | some m =>
    have hi : m.id = stream.table := Catalog.getTable_id hm
    cases hu : s.world.catalog.updateTable { m with numRows := m.numRows + count } with
    | error e =>
      -- the entry that is replaced is there
      rw [Catalog.updateTable, if_pos (by rw [hi, hm]; rfl)] at hu
      cases hu
    | ok cat =>
      exact ⟨cat, by simp only [hu], Catalog.updateTable_snapshots hu,
        Catalog.updateTable_isSome hu⟩

theorem flushToTarget_of_not_insertable (h : ¬ Insertable s.world fate stream) (rows : List Row) :
    ∃ e, flushToTarget fate stream rows s = ⟨[], .error e, s⟩ := by
  cases hk : quotedTableRef stream.table with
  | error e =>
    refine ⟨e, ?_⟩
    rw [flushToTarget, run_bind_of_error (by rw [lift, hk])]
    rfl
  | ok key =>
    obtain rfl := (quotedTableRef_eq_ok hk).1
    have hfa : ∃ e, insertRows fate stream stream.table.key rows s = ⟨[], .error e, s⟩ := by
      unfold insertRows
      cases hf : fate.insertFails stream.name with
      | some e => exact ⟨e, rfl⟩
      | none =>
        cases ho : s.world.storage.get stream.table.key with
        | none => exact ⟨_, rfl⟩
        | some o => exact absurd ⟨hf, ⟨_, hk⟩, by rw [ho]; rfl⟩ h
    obtain ⟨e, he⟩ := hfa
    refine ⟨e, ?_⟩
    rw [flushToTarget, run_bind_of_ok (a := stream.table.key) (by rw [lift, hk])]
    rw [run_bind_of_error (e := e) (by rw [lift, he])]
    rw [lift, he]
    rfl

theorem recordInsert_landed {rows : List Row} {s' : WriteServer Row} (h : Landed s stream rows s') :
    Landed s stream rows (recordInsert fate stream s').state := by
  unfold recordInsert
  split
  · exact h
  rename_i w hw
  rcases World.recordChange_cases hw with ⟨-, rfl⟩ | ⟨m, c, -, rfl⟩
  · exact h.of_world rfl (fun _ => rfl) fun _ _ => rfl
  · refine h.of_world rfl (fun _ => rfl) fun key hk => ?_
    exact get_put_of_ne _ _ fun heq => hk (by rw [heq]; rfl)

/-- What an insertion that succeeds does. -/
theorem flushToTarget_eq (h : Insertable s.world fate stream) (rows : List Row) :
    ∃ s', Landed s stream rows s' ∧ (∃ new, s'.world.storage.get stream.table.key = some new) ∧
      (∀ id, s'.world.SnapshotFree id ↔ s.world.SnapshotFree id) ∧
      flushToTarget fate stream rows s = ⟨[.inserted stream.name stream.table.key rows],
        (recordInsert fate stream s').result, (recordInsert fate stream s').state⟩ := by
  obtain ⟨hf, ⟨key, hk⟩, hs⟩ := h
  obtain rfl := (quotedTableRef_eq_ok hk).1
  obtain ⟨o, ho⟩ := isSome_iff_exists.1 hs
  -- the state after the `INSERT`, and the one after the rows were counted
  let s1 : WriteServer Row := { s with world :=
    { s.world with storage := s.world.storage.put stream.table.key (o ++ rows) } }
  obtain ⟨c, hc, hsn, hkn⟩ := countRows_cases stream rows.length s1
  let s2 : WriteServer Row := { s1 with world := { s1.world with catalog := c } }
  have ht : (recordInsert fate stream s2).trace = [] := by
    unfold recordInsert
    split <;> rfl
  refine ⟨s2, (landed_put s stream rows ho).of_world rfl hkn fun _ _ => rfl,
    ⟨o ++ rows, get_put_self _ _ _⟩, fun id => and_congr ?_ ?_, ?_⟩
  · rw [show s2.world.storage.get (snapshotsSchema, id) = s.world.storage.get (snapshotsSchema, id)
      from get_put_of_ne _ _ fun heq => key_ne_snapshot stream.table _ heq.symm]
  · rw [show s2.world.catalog.snapshots = s.world.catalog.snapshots from hsn]
  have hi : insertRows fate stream stream.table.key rows s =
      ⟨[.inserted stream.name stream.table.key rows], .ok (), s1⟩ := by
    rw [insertRows, hf, ho]
  rw [flushToTarget, run_bind_of_ok (a := stream.table.key) (by rw [lift, hk])]
  rw [run_bind_of_ok (a := ()) (by rw [lift, hi])]
  rw [lift, hi, run_bind_of_ok (a := ()) (by rw [hc])]
  rw [hc]
  rw [show (recordInsert fate stream { s1 with world := { s1.world with catalog := c } }).trace =
    [] from ht]
  rfl

/-- The rows that a strategy gives out to be inserted. -/
def rowsOut (b : Option (Batch Row)) : List Row := (b.map Batch.rows).getD []

/-- What an insertion does: nothing without rows, an error without effect where the `INSERT` fails,
and else the rows are in the table; it ends well iff the snapshot can be taken. -/
theorem writeOut_cases (f : Fate) (stream : WriteStream Row) (b : Option (Batch Row))
    (s : WriteServer Row) :
    (rowsOut b = [] ∧ writeOut f stream b s = ⟨[], .ok (), s⟩) ∨
    (rowsOut b ≠ [] ∧ ¬ Insertable s.world f stream ∧
      ∃ e, writeOut f stream b s = ⟨[], .error e, s⟩) ∨
    (rowsOut b ≠ [] ∧ Insertable s.world f stream ∧
      (writeOut f stream b s).trace = [.inserted stream.name stream.table.key (rowsOut b)] ∧
      Landed s stream (rowsOut b) (writeOut f stream b s).state ∧
      ((writeOut f stream b s).result = .ok () ↔ Recordable s.world f stream)) := by
  cases b with
  | none => exact .inl ⟨rfl, rfl⟩
  | some b =>
    by_cases hr : b.rows = []
    · exact .inl ⟨hr, by rw [writeOut, if_pos hr]; rfl⟩
    rw [writeOut, if_neg hr]
    by_cases hi : Insertable s.world f stream
    · obtain ⟨s', hl, ⟨n, hs⟩, hf, hru⟩ := flushToTarget_eq hi b.rows
      have hrt : (recordInsert f stream s').result = .ok () ↔
          ∃ w', s'.world.recordChange stream.table (f.hex stream.name) = .ok w' := by
        unfold recordInsert
        cases s'.world.recordChange stream.table (f.hex stream.name) <;> simp
      obtain ⟨key, hk⟩ := hi.2.1
      rw [hru]
      refine .inr (.inr ⟨hr, hi, rfl, recordInsert_landed hl, ?_⟩)
      rw [hrt, World.recordChange_eq_ok_iff hk hs, hl.now]
      refine or_congr ?_ (hf _)
      rw [← not_isSome_iff_eq_none, ← not_isSome_iff_eq_none, hl.known]
    · exact .inr (.inl ⟨hr, hi, flushToTarget_of_not_insertable hi b.rows⟩)

theorem snapshotFree_of_writeOut {b : Option (Batch Row)} (hne : rowsOut b ≠ [])
    (h : Insertable s.world fate stream) (ho : (writeOut fate stream b s).result = .ok ())
    (id : String) :
    (writeOut fate stream b s).state.world.SnapshotFree id ↔
      s.world.SnapshotFree id ∧
        (s.world.catalog.getTable stream.table ≠ none → id ≠ snapshotIdOf s.world fate stream) := by
  cases b with
  | none => exact absurd rfl hne
  | some b =>
    have hwr : writeOut fate stream (some b) = flushToTarget fate stream b.rows := if_neg hne
    obtain ⟨s', hl, -, hf, hr⟩ := flushToTarget_eq h b.rows
    have hk : s.world.catalog.getTable stream.table ≠ none ↔
        s'.world.catalog.getTable stream.table ≠ none := by
      rw [← isSome_iff_ne_none, ← isSome_iff_ne_none, hl.known]
    rw [hwr, hr] at ho ⊢
    rw [← hf, hk]
    simp only [snapshotIdOf, ← hl.now] at ho ⊢
    unfold recordInsert at ho ⊢
    split at ho
    · cases ho
    rename_i w hw
    rcases World.recordChange_cases hw with ⟨hn, rfl⟩ | ⟨m, c, hm, rfl⟩
    · simp only [hn, ne_eq, not_true_eq_false, false_implies, and_true]
      exact Iff.rfl
    · simp only [hm, ne_eq, reduceCtorEq, not_false_eq_true, true_implies]
      exact World.snapshotFree_addSnapshot s'.world _ _ _ _ _ _ id

/-! ## The answers -/

inductive StorageErrorCode where
  | streamNotFound
  | invalidStreamType
  | invalidStreamState
deriving DecidableEq

structure StorageError where
  code : StorageErrorCode
  entity : String
  errorMessage : String
deriving DecidableEq

inductive WriteAnswer where
  | stream (name : String) (streamType : WriteStreamType) (fields : List FieldSchema)
      (location : String)
  | appended (writeStream : String) (offset : Int)
  | appendError (writeStream : String) (code : StatusCode) (message : String)
  | finalized (rowCount : Nat)
  | committed (commitTime : Time)
  | commitErrors (streamErrors : List StorageError)
  | flushed (offset : Int)
  | status (error : RpcError)
  | connectionClosed
deriving DecidableEq

def WriteAnswer.isError : WriteAnswer → Bool
  | .appendError .. | .commitErrors _ | .status _ | .connectionClosed => true
  | _ => false

/-! ## The handlers of single streams -/

inductive ProtoStreamType where
  | typeUnspecified
  | committed
  | pending
  | buffered
deriving DecidableEq

def protoTypeToStrategy : ProtoStreamType → Option WriteStreamType
  | .committed => some .committed
  | .pending => some .pending
  | .buffered => some .buffered
  | .typeUnspecified => none

def strategyTypeToProto : WriteStreamType → WriteStreamType
  | .default => .committed
  | kind => kind

def dotted (id : TableId) : String := id.project ++ "." ++ id.dataset ++ "." ++ id.table

/-- `CreateWriteStream`, with the random id of the stream. -/
def handleCreateWriteStream (parent : String) (requestedType : ProtoStreamType)
    (streamId : String) : WriteM Row WriteAnswer := fun s =>
  match parseTableParent parent with
  | .error message => ⟨[], .ok (.status ⟨.invalidArgument, message⟩), s⟩
  | .ok id =>
    match quotedTableRef id, s.world.catalog.getTable id, protoTypeToStrategy requestedType with
    | .error e, _, _ => ⟨[], .ok (.status ⟨.invalidArgument, e.message⟩), s⟩
    | .ok _, none, _ => ⟨[], .ok (.status ⟨.notFound, "Table " ++ dotted id ++ " not found"⟩), s⟩
    | .ok _, some _, none =>
      ⟨[], .ok (.status ⟨.invalidArgument, "Unsupported stream type: TYPE_UNSPECIFIED"⟩), s⟩
    | .ok _, some m, some kind =>
      match s.create id streamId kind with
      | .error e => ⟨[], .error e, s⟩
      | .ok (stream, s') => ⟨[], .ok (.stream stream.name kind m.fields ""), s'⟩

/-- Whether a text is a stream id: sixteen hexadecimal digits or the one of the implicit stream. -/
def isStreamId (streamId : String) : Bool :=
  let chars := Text.anchored streamId
  (chars.length = 16 && chars.all fun c => c.isDigit || ('a' ≤ c && c ≤ 'f')) ||
    chars = defaultStreamSuffix.toList

variable (name : String)

def isValidStreamName : Bool :=
  match parseStreamName name with
  | .error _ => false
  | .ok (_, streamId) => isStreamId streamId

def namesDefault : Bool :=
  Text.endsWith name ("/streams/" ++ defaultStreamSuffix)

def entityNotFound : WriteAnswer :=
  .status ⟨.notFound, "Requested entity was not found. Entity: " ++ name⟩

/-- The stream of a `GetWriteStream` request; the implicit stream of a table comes to be here. -/
def lookUpStream (s : WriteServer Row) (name : String) :
    Except WriteAnswer (WriteStream Row × WriteServer Row) :=
  match s.get name with
  | some stream => .ok (stream, s)
  | none =>
    if namesDefault name then
      match parseStreamName name with
      | .error message => .error (.status ⟨.invalidArgument, message⟩)
      | .ok (id, _) =>
        match s.world.catalog.getTable id with
        | none => .error (entityNotFound name)
        | some _ => .ok (s.getOrCreateDefault id)
    else .error (entityNotFound name)

/-- `GetWriteStream`. -/
def handleGetWriteStream : WriteM Row WriteAnswer := fun s =>
  if isValidStreamName name then
    match lookUpStream s name with
    | .error answer => ⟨[], .ok answer, s⟩
    | .ok (stream, s') =>
      let fields := ((s.world.catalog.getTable stream.table).map TableMeta.fields).getD []
      ⟨[], .ok (.stream stream.name (strategyTypeToProto stream.streamType) fields "us"), s'⟩
  else ⟨[], .ok (.status ⟨.invalidArgument, "Invalid stream name. Entity: " ++ name⟩), s⟩

/-- `FinalizeWriteStream`: no append is taken from now on. -/
def handleFinalizeWriteStream : WriteM Row WriteAnswer := fun s =>
  match s.get name with
  | none => ⟨[], .ok (entityNotFound name), s⟩
  | some stream =>
    if stream.streamType = .default then
      ⟨[], .ok (.status ⟨.invalidArgument, "DEFAULT streams cannot be finalized"⟩), s⟩
    else
      match stream.state with
      | .committed =>
        ⟨[], .ok (.status ⟨.failedPrecondition, "Stream has already been committed"⟩), s⟩
      | .finalized => ⟨[], .ok (.finalized stream.rowCount), s⟩
      | .open_ => ⟨[], .ok (.finalized stream.rowCount), s.set stream.finalizing⟩

/-- `FlushRows`. -/
def handleFlushRows (fate : Fate) (name : String) (offset : Int) :
    WriteM Row WriteAnswer := fun s =>
  match s.get name with
  | none => ⟨[], .ok (.status ⟨.notFound, "Stream not found: " ++ name⟩), s⟩
  | some stream =>
    if stream.streamType ≠ .buffered then
      ⟨[], .ok (.status ⟨.invalidArgument,
        "FlushRows only valid on BUFFERED streams; got " ++ stream.streamType.value⟩), s⟩
    else
      match stream.flush offset with
      | .error e => ⟨[], .error e, s⟩
      | .ok (outcome, stream') =>
        if outcome.ok then
          (do
            modify fun s => s.set stream'
            writeOut fate stream' outcome.committedRows
            pure (.flushed outcome.offset) : WriteM Row WriteAnswer) s
        else ⟨[], .ok (.status ⟨.outOfRange, outcome.detail⟩), s.set stream'⟩

/-! ## `AppendRows` -/

/-- The rows of a message, and the schema of the client if the message brings one. -/
inductive RowsPayload where
  | protoRows (writerSchema : Option String) (serializedRows : List String)
  | arrowRows (writerSchema : Option String) (recordBatch : String)
  | none

structure AppendRowsRequest where
  size : Nat
  writeStream : String
  offset : Option Int := none
  rows : RowsPayload

variable (env : WriteEnv Row)

/-- The rows of a message in the columns of the table. A message without rows keeps a connection
alive. -/
def rowsForRequest (c : Connection) (targetSchema : String) :
    RowsPayload → Except (String ⊕ DomainError) (Batch Row × Connection)
  | .protoRows writerSchema serializedRows =>
    match writerSchema <|> c.protoDecoder with
    | none => .error (.inl "proto_rows sent without prior writer_schema on this connection")
    | some decoder => (env.protoRows decoder serializedRows targetSchema).map fun rows =>
        (⟨targetSchema, rows⟩, { c with protoDecoder := some decoder })
  | .arrowRows writerSchema recordBatch =>
    match writerSchema <|> c.arrowSchemaBytes with
    | none => .error (.inl "arrow_rows sent without prior writer_schema on this connection")
    | some schema => (env.arrowRows schema recordBatch targetSchema).map fun rows =>
        (⟨targetSchema, rows⟩, { c with arrowSchemaBytes := some schema })
  | .none => .ok (⟨targetSchema, []⟩, c)

def resolveAppendStream (s : WriteServer Row) (name : String) :
    Except RpcError (WriteStream Row × WriteServer Row) :=
  if namesDefault name then
    match parseStreamName name with
    | .error message => .error ⟨.invalidArgument, message⟩
    | .ok (id, _) =>
      match s.world.catalog.getTable id with
      | none => .error ⟨.notFound, "Table not found for default stream: " ++ name⟩
      | some _ => .ok (s.getOrCreateDefault id)
  else
    match s.get name with
    | none => .error ⟨.notFound, "Stream not found: " ++ name⟩
    | some stream => .ok (stream, s)

def bindStreamToTarget (s : WriteServer Row) (name : String) :
    Except RpcError (WriteStream Row × String × WriteServer Row) :=
  (resolveAppendStream s name).bind fun (stream, s') =>
    match s.world.catalog.getTable stream.table with
    | none => .error ⟨.notFound, "Table gone: " ++ dotted stream.table⟩
    | some m => .ok (stream, env.tableArrowSchema m.fields, s')

/-- The stream of a message: the one the connection is bound to, if the message names it. -/
def ensureStreamBound (s : WriteServer Row) (c : Connection) (name : String) :
    Except RpcError (WriteStream Row × String × WriteServer Row) :=
  let current := (c.bound.filter fun b => b.1 = name).bind fun b =>
    (s.get b.1).map fun stream => (stream, b.2)
  match current with
  | some (stream, schema) => .ok (stream, schema, s)
  | none => bindStreamToTarget env s name

inductive Received (Row : Type) where
  | answered (answer : WriteAnswer)
  | raised (error : DomainError)
  | batch (stream : WriteStream Row) (rows : Batch Row) (offset : Option Int)

/-- The way of a message to its stream: the size guard, the binding of the connection, the
decoding. A connection that ends stays closed. -/
def receive (s : WriteServer Row) (conn : Nat) (request : AppendRowsRequest) :
    Received Row × WriteServer Row :=
  let c := s.connection conn
  if c.closed then (.answered .connectionClosed, s)
  else if request.size > env.maxRequestBytes then
    (.answered (.appendError ((c.bound.map Prod.fst).getD "") .resourceExhausted
      ("AppendRowsRequest exceeds the " ++ toString env.maxRequestBytes ++ "-byte size cap (" ++
        toString request.size ++ " bytes). Split the payload into smaller batches.")), s)
  else
    match ensureStreamBound env s c request.writeStream with
    | .error e => (.answered (.status e), s.setConnection conn { c with closed := true })
    | .ok (stream, schema, s') =>
      match rowsForRequest env { c with bound := some (stream.name, schema) }
        schema request.rows with
      | .error (.inl message) =>
        (.answered (.appendError stream.name .invalidArgument message),
          s'.setConnection conn { c with bound := some (stream.name, schema) })
      | .error (.inr e) => (.raised e, s'.setConnection conn { c with closed := true })
      | .ok (rows, c') => (.batch stream rows request.offset, s'.setConnection conn c')

def appendStatusCode : AppendStatus → StatusCode
  | .alreadyExists => .alreadyExists
  | .outOfRange => .outOfRange
  | .streamFinalized => .failedPrecondition
  | .invalidArgument => .invalidArgument
  | .resourceExhausted => .resourceExhausted
  | .ok => .unknown

/-- The append of a batch to its stream: the strategy first, then the insertion. -/
def performAppend (fate : Fate) (stream : WriteStream Row) (rows : Batch Row)
    (offset : Option Int) : WriteM Row WriteAnswer := do
  let outcome := stream.append rows offset (some env.maxStreamRows)
  emit (.batch stream.name rows.rows)
  modify fun s => s.set outcome.2
  if outcome.1.status = .ok then
    writeOut fate outcome.2 outcome.1.committedRows
    pure (.appended stream.name outcome.1.offset)
  else
    pure (.appendError stream.name (appendStatusCode outcome.1.status) outcome.1.detail)

/-- `AppendRows`, one message: an exception ends the connection. -/
def handleAppendRows (fate : Fate) (conn : Nat) (request : AppendRowsRequest) :
    WriteM Row WriteAnswer := fun s =>
  match receive env s conn request with
  | (.answered answer, s') => ⟨[], .ok answer, s'⟩
  | (.raised e, s') => ⟨[], .error e, s'⟩
  | (.batch stream rows offset, s') =>
    tryCatch (performAppend env fate stream rows offset)
      (fun e => do
        modify fun s => s.setConnection conn { s.connection conn with closed := true }
        raise e) s'

/-! ## `BatchCommitWriteStreams` -/

/-- Why a stream cannot be committed. -/
def commitError (s : WriteServer Row) (name : String) : Option StorageError :=
  match s.get name with
  | none => some ⟨.streamNotFound, name, "Stream not found: " ++ name⟩
  | some stream =>
    if stream.streamType ≠ .pending then
      some ⟨.invalidStreamType, name,
        "Only PENDING streams can be batch committed; got " ++ stream.streamType.value⟩
    else if stream.state ≠ .finalized then
      some ⟨.invalidStreamState, name,
        "Stream must be finalized before BatchCommit; state=" ++ stream.state.value⟩
    else none

/-- The commit of one stream. A commit that is refused has no rows, and nothing tells of it. -/
def commitStream (fate : Fate) (name : String) : WriteM Row Unit := fun s =>
  match s.get name with
  | none => ⟨[], .ok (), s⟩
  | some stream =>
    match stream.commit with
    | .error e => ⟨[], .error e, s⟩
    | .ok (outcome, stream') => writeOut fate stream' outcome.committedRows (s.set stream')

def commitStreams (fate : Fate) : List String → WriteM Row Unit
  | [] => pure ()
  | name :: names => do
    commitStream fate name
    commitStreams fate names

/-- `BatchCommitWriteStreams`: every name is checked before the first stream is committed. -/
def handleBatchCommitWriteStreams (fate : Fate) (names : List String) :
    WriteM Row WriteAnswer := fun s =>
  match names.filterMap (commitError s) with
  | [] => (do
      commitStreams fate names
      pure (.committed fate.now) : WriteM Row WriteAnswer) s
  | errors => ⟨[], .ok (.commitErrors errors), s⟩

/-! ## The service -/

inductive WriteRequest where
  | create (parent : String) (requestedType : ProtoStreamType) (streamId : String)
  | get (name : String)
  | append (conn : Nat) (request : AppendRowsRequest)
  | flush (name : String) (offset : Int)
  | finalize (name : String)
  | batchCommit (names : List String)

/-- The write service: the handler of a request. -/
def handleWrite (fate : Fate) : WriteRequest → WriteM Row WriteAnswer
  | .create parent requestedType streamId => handleCreateWriteStream parent requestedType streamId
  | .get name => handleGetWriteStream name
  | .append conn request => handleAppendRows env fate conn request
  | .flush name offset => handleFlushRows fate name offset
  | .finalize name => handleFinalizeWriteStream name
  | .batchCommit names => handleBatchCommitWriteStreams fate names

end Bqemulator
