import Bqemulator.Grpc.ReadServicer
import Bqemulator.Lib.Keyed

/-!
# Splitting the streams of a read session

The server keeps its sessions by name. `SplitReadStream` cuts the rows of a stream in two and adds
both parts to the session's streams; the stream itself stays, so that it can be split once more. A
stream that no call has split is a leaf.
-/

namespace Bqemulator

open List

variable {Row : Type}

/-! ## The sessions of a server -/

structure StoredSession (Row : Type) extends ReadSessionState Row where
  dataFormat : WireFormat
  arrowSchemaBytes : List UInt8
  avroSchemaJson : String

/-- The sessions by name. `split` records the splits by session and stream; no handler reads it. -/
structure ReadServer (Row : Type) where
  sessions : Keyed (fun session : StoredSession Row => session.sessionName)
  split : List (String × Nat)

def ReadServer.start : ReadServer Row := ⟨Keyed.empty, []⟩

/-- The name of the session a stream belongs to: all but the last two parts of the stream's. -/
def sessionNameOf (streamName : String) : String :=
  String.ofList (intercalate ['/'] (streamName.toList.splitOn '/').dropLast.dropLast)

/-- A request to split a stream. `fraction` is the number `int(width * fraction)` of a width, or the
text of the exception when that is not finite; the ids are those of the two parts. -/
structure SplitReadStreamRequest where
  name : String
  fraction : Int → Except String Int
  primaryId : String
  remainderId : String

def splitRow (target : ReadStream) (scaled : Int) : Nat :=
  target.startRow + (max 0 (min ((target.endRow : Int) - target.startRow) scaled)).toNat

variable (server : ReadServer Row) (session : StoredSession Row) (req : SplitReadStreamRequest)
  (name : String)

def streamNotFound : RpcError := ⟨.notFound, "Stream not found: " ++ name⟩

def StoredSession.findStream : Option (ReadStream × Nat) :=
  session.streams.zipIdx.find? fun entry => entry.1.name = name

def ReadServer.target : Option (StoredSession Row × ReadStream × Nat) :=
  (server.sessions.get? (sessionNameOf name)).bind fun session =>
    (session.findStream name).map fun entry => (session, entry)

def streamParts (target : ReadStream) (cut : Nat) : ReadStream × ReadStream :=
  (⟨sessionNameOf req.name ++ "/streams/p" ++ req.primaryId, target.startRow, cut⟩,
    ⟨sessionNameOf req.name ++ "/streams/r" ++ req.remainderId, cut, target.endRow⟩)

/-- The handler of `SplitReadStream`: the names of the parts, and the server with them. -/
def handleSplitReadStream : Except RpcError ((String × String) × ReadServer Row) :=
  match server.target req.name with
  | none => .error (streamNotFound req.name)
  | some (session, target, index) =>
    match req.fraction ((target.endRow : Int) - target.startRow) with
    | .error e => .error ⟨.unknown, e⟩
    | .ok scaled =>
      let (primary, remainder) := streamParts req target (splitRow target scaled)
      .ok ((primary.name, remainder.name),
        { sessions := server.sessions.put
            { session with streams := session.streams ++ [primary, remainder] }
          split := (session.sessionName, index) :: server.split })

/-- The calls that change sessions. A new session is given with the result it holds. -/
inductive ReadCall (Row : Type) where
  | createReadSession (sessionName : String) (table : List Row) (tableBytes : Nat)
      (maxStreams : Int) (dataFormat : WireFormat) (arrowSchemaBytes : List UInt8)
      (avroSchemaJson : String)
  | splitReadStream (req : SplitReadStreamRequest)

/-- The server after a call. A session takes the place of one of its name; a failure changes
nothing. -/
def ReadServer.after : ReadCall Row → ReadServer Row
  | .createReadSession sessionName table tableBytes maxStreams dataFormat arrow avro =>
    { sessions := server.sessions.put
        { createReadSession sessionName table tableBytes maxStreams with
          dataFormat, arrowSchemaBytes := arrow, avroSchemaJson := avro }
      split := server.split.filter fun entry => entry.1 ≠ sessionName }
  | .splitReadStream req =>
    match handleSplitReadStream server req with
    | .ok (_, server') => server'
    | .error _ => server

def ReadServer.step (call : ReadCall Row) : Except RpcError (ReadServer Row) :=
  .ok (server.after call)

/-! ## Leaves -/

def leavesOf (done : Nat → Bool) (streams : List ReadStream) : List ReadStream :=
  (streams.zipIdx.filter fun entry => !done entry.2).map Prod.fst

def ReadServer.isSplit (sessionName : String) (index : Nat) : Bool :=
  (sessionName, index) ∈ server.split

/-- The streams of a session that no call has split. -/
def ReadServer.leaves : List ReadStream :=
  leavesOf (server.isSplit session.sessionName) session.streams

/-- The ranges are laid end to end over the rows `0 … n - 1`, in some order. -/
abbrev PartitionRows (n : Nat) (streams : List ReadStream) : Prop :=
  Tiling.Partitions ReadStream.startRow ReadStream.endRow 0 n streams

/-- **The leaves are laid end to end over the rows** of every session. -/
def ReadServer.LeavesPartition : Prop :=
  ∀ session ∈ server.sessions.rows, PartitionRows session.table.length (server.leaves session)

/-! ## One split -/

section Laid

variable {n index : Nat} {done : Nat → Bool} {st : List ReadStream} {target p q : ReadStream}

def markSplit (done : Nat → Bool) (index i : Nat) : Bool := i = index || done i

theorem leavesOf_markSplit_of_done (h : done index) :
    leavesOf (markSplit done index) st = leavesOf done st := by
  have hm : markSplit done index = done := by
    funext i
    by_cases hi : i = index
    · simp [markSplit, hi, h]
    · simp [markSplit, hi]
  rw [hm]

theorem leavesOf_perm (htarget : (target, index) ∈ st.zipIdx) (h : done index = false) :
    (leavesOf done st).Perm (target :: leavesOf (markSplit done index) st) := by
  have hl : (target, index) ∈ st.zipIdx.filter fun entry => !done entry.2 :=
    mem_filter.2 ⟨htarget, by simp [h]⟩
  have hn : st.zipIdx.Nodup := by
    apply List.Nodup.of_map Prod.snd
    rw [zipIdx_map_snd]
    exact nodup_range'
  have hs : ∀ entry ∈ st.zipIdx, (entry ≠ (target, index) ↔ entry.2 ≠ index) := by
    rintro ⟨stream, i⟩ he
    refine not_congr ⟨fun heq => congrArg Prod.snd heq, ?_⟩
    rintro rfl
    -- a position has one stream
    have hst := mk_mem_zipIdx_iff_getElem?.1 he
    have ht' := mk_mem_zipIdx_iff_getElem?.1 htarget
    rw [hst] at ht'
    rw [Option.some.inj ht']
  have hr : (st.zipIdx.filter fun entry => !done entry.2).erase (target, index) =
      st.zipIdx.filter fun entry => !markSplit done index entry.2 := by
    rw [(hn.filter _).erase_eq_filter, filter_filter]
    apply filter_congr
    intro entry he
    have := hs entry he
    by_cases hi : entry.2 = index <;> simp_all [markSplit]
  have hp := (perm_cons_erase hl).map Prod.fst
  rw [hr] at hp
  exact hp

/-- **The invariant of a session** with `n` rows: its leaves partition them, every stream is a range
that starts where some leaf starts, and only its streams are split. -/
structure Laid (n : Nat) (done : Nat → Bool) (streams : List ReadStream) : Prop where
  partition : PartitionRows n (leavesOf done streams)
  bounds : ∀ stream ∈ streams, stream.startRow ≤ stream.endRow ∧ stream.endRow ≤ n
  starts : ∀ stream ∈ streams, ∃ leaf ∈ leavesOf done streams, leaf.startRow = stream.startRow
  known : ∀ i, done i → i < streams.length

theorem leavesOf_none (s : List ReadStream) :
    leavesOf (fun _ => false) s = s := by
  simp [leavesOf]

/-- The parts `p` and `q` are the range of `target` in order. -/
structure CutsOf (target p q : ReadStream) : Prop where
  start : p.startRow = target.startRow
  consecutive : q.startRow = p.endRow
  finish : q.endRow = target.endRow
  primary : p.startRow ≤ p.endRow
  remainder : q.startRow ≤ q.endRow

theorem index_lt_of_mem_zipIdx (htarget : (target, index) ∈ st.zipIdx) :
    index < st.length := by
  obtain ⟨hl, -⟩ := List.getElem?_eq_some_iff.1 (List.mk_mem_zipIdx_iff_getElem?.1 htarget)
  exact hl

theorem mem_of_mem_zipIdx (htarget : (target, index) ∈ st.zipIdx) : target ∈ st :=
  mem_of_getElem? (mk_mem_zipIdx_iff_getElem?.1 htarget)

namespace Laid

variable (h : Laid n done st) (htarget : (target, index) ∈ st.zipIdx)
  (hcut : CutsOf target p q)

include h htarget

theorem leavesOf_eq : leavesOf (markSplit done index) (st ++ [p, q]) =
    leavesOf (markSplit done index) st ++ [p, q] := by
  have hin := index_lt_of_mem_zipIdx htarget
  have hn : ∀ i, st.length ≤ i → markSplit done index i = false := by
    intro i hi
    have hne : i ≠ index := by omega
    have hf : done i = false := by
      rcases hd : done i
      · rfl
      · exact absurd (h.known i hd) (by omega)
    simp [markSplit, hne, hf]
  simp [leavesOf, zipIdx_append, hn]

include hcut

theorem of_leaves
    (hpa : PartitionRows n (leavesOf (markSplit done index) st ++ [p, q]))
    (hl : ∀ leaf ∈ leavesOf done st, ∃ leaf' ∈ leavesOf (markSplit done index) st ++
      [p, q], leaf'.startRow = leaf.startRow) :
    Laid n (markSplit done index) (st ++ [p, q]) := by
  have hb := h.bounds target (mem_of_mem_zipIdx htarget)
  have hin := index_lt_of_mem_zipIdx htarget
  rw [← h.leavesOf_eq htarget] at hpa hl
  refine ⟨hpa, ?_, ?_, ?_⟩
  · have hp := hcut.primary
    have hq := hcut.remainder
    have hf := hcut.finish
    have hm := hcut.consecutive
    intro stream hme
    simp only [mem_append, mem_cons, not_mem_nil, or_false] at hme
    rcases hme with hme | rfl | rfl
    · exact h.bounds stream hme
    · omega
    · omega
  · intro stream hme
    simp only [mem_append] at hme
    rcases hme with hme | hn
    · obtain ⟨leaf, ho, hs⟩ := h.starts stream hme
      obtain ⟨leaf', hn, hs'⟩ := hl leaf ho
      exact ⟨leaf', hn, hs'.trans hs⟩
    · refine ⟨stream, ?_, rfl⟩
      rw [h.leavesOf_eq htarget]
      simp [hn]
  · intro i hi
    rw [length_append]
    simp only [markSplit, Bool.or_eq_true, decide_eq_true_eq] at hi
    rcases hi with rfl | hi
    · omega
    · exact Nat.lt_add_right _ (h.known i hi)

/-- Splitting a leaf keeps the invariant. -/
theorem split (hn : done index = false) : Laid n (markSplit done index) (st ++ [p, q]) := by
  have hp := leavesOf_perm htarget hn
  apply h.of_leaves htarget hcut
  · -- the parts take the place of the leaf
    have hr := (h.partition.perm hp).replace hcut.start hcut.consecutive hcut.finish
      hcut.primary hcut.remainder
    exact hr.perm (@List.perm_append_comm _ [p, q] _)
  · intro l hl
    rcases mem_cons.1 (hp.mem_iff.1 hl) with rfl | hl
    · exact ⟨p, by simp, hcut.start⟩
    · exact ⟨l, mem_append_left _ hl, rfl⟩

/-- Splitting a stream without rows again keeps the invariant: its parts are empty. -/
theorem split_again (hd : done index) (he : target.startRow = target.endRow) :
    Laid n (markSplit done index) (st ++ [p, q]) := by
  obtain ⟨l, hl, hs⟩ := h.starts target (mem_of_mem_zipIdx htarget)
  have hp := hcut.primary
  have hq := hcut.remainder
  have hf := hcut.start
  have hm := hcut.consecutive
  have hfi := hcut.finish
  apply h.of_leaves htarget hcut
  · rw [leavesOf_markSplit_of_done hd]
    have ho := h.partition.insert (p := q) hl (by omega) (by omega)
    have ht := ho.insert (p := p) (mem_cons_of_mem q hl) (by omega) (by omega)
    exact ht.perm (@List.perm_append_comm _ [p, q] _)
  · intro o hot
    rw [leavesOf_markSplit_of_done hd]
    exact ⟨o, mem_append_left _ hot, rfl⟩

theorem empty_of_partition (hd : done index)
    (hp : PartitionRows n (leavesOf (markSplit done index) (st ++ [p, q]))) :
    target.startRow = target.endRow := by
  have hbo := h.bounds target (mem_of_mem_zipIdx htarget)
  by_contra hn
  have hb := h.partition.countP target.startRow
  have ha := hp.countP target.startRow
  rw [h.leavesOf_eq htarget, leavesOf_markSplit_of_done hd, countP_append, hb] at ha
  have hpa : 0 < [p, q].countP
      (Tiling.Covers ReadStream.startRow ReadStream.endRow target.startRow) := by
    rw [countP_pos_iff]
    have hf := hcut.start
    have hm := hcut.consecutive
    have hfi := hcut.finish
    -- the first row lies in the primary part unless that is empty
    by_cases hc : target.startRow < p.endRow
    · exact ⟨p, by simp, by simp [Tiling.Covers, hf, hc]⟩
    · refine ⟨q, by simp, ?_⟩
      simp only [Tiling.Covers, Bool.and_eq_true, decide_eq_true_eq]
      omega
  omega

end Laid

end Laid

/-! ## Runs of the server -/

variable {target : ReadStream}

theorem streamParts_cutsOf (h : target.startRow ≤ target.endRow) (s : Int) :
    CutsOf target (streamParts req target (splitRow target s)).1
      (streamParts req target (splitRow target s)).2 := by
  constructor
  all_goals simp only [streamParts, splitRow]
  · omega
  · omega

variable {session : StoredSession Row}

namespace ReadServer

variable {server server' : ReadServer Row} {req : SplitReadStreamRequest}

theorem target_eq_some {name : String} {index : Nat}
    (h : server.target name = some (session, target, index)) :
    session ∈ server.sessions.rows ∧ (target, index) ∈ session.streams.zipIdx := by
  obtain ⟨found, hfo, he⟩ := Option.bind_eq_some_iff.1 h
  obtain ⟨entry, hf, heq⟩ := Option.map_eq_some_iff.1 he
  obtain ⟨rfl, rfl⟩ := Prod.mk.inj heq
  exact ⟨(Keyed.get?_eq_some_iff.1 hfo).1, mem_of_find?_eq_some hf⟩

def addParts (server : ReadServer Row) (session : StoredSession Row) (index : Nat)
    (p q : ReadStream) : ReadServer Row where
  sessions := server.sessions.put { session with streams := session.streams ++ [p, q] }
  split := (session.sessionName, index) :: server.split

theorem handleSplitReadStream_eq_ok {names : String × String}
    (h : handleSplitReadStream server req = .ok (names, server')) :
    ∃ session target index scaled, server.target req.name = some (session, target, index) ∧
      req.fraction ((target.endRow : Int) - target.startRow) = .ok scaled ∧
      names = ((streamParts req target (splitRow target scaled)).1.name,
        (streamParts req target (splitRow target scaled)).2.name) ∧
      server' = server.addParts session index
        (streamParts req target (splitRow target scaled)).1
        (streamParts req target (splitRow target scaled)).2 := by
  unfold handleSplitReadStream at h
  rcases htarget : server.target req.name with _ | ⟨session, target, index⟩
  · simp [htarget] at h
  · rcases hs : req.fraction ((target.endRow : Int) - target.startRow) with e | scaled
    · simp [htarget, hs] at h
    · simp only [htarget, hs, Except.ok.injEq, Prod.mk.injEq] at h
      exact ⟨session, target, index, scaled, rfl, hs, h.1.symm, h.2.symm⟩

theorem isSplit_addParts (s : ReadServer Row) (session : StoredSession Row) (index : Nat)
    (p q : ReadStream) (name : String) :
    (s.addParts session index p q).isSplit name =
      if name = session.sessionName then markSplit (s.isSplit name) index
      else s.isSplit name := by
  funext i
  by_cases hn : name = session.sessionName
  · simp [isSplit, addParts, markSplit, hn]
  · simp [isSplit, addParts, hn]

/-- A relation of a session's rows, the positions split and its streams, in all sessions. -/
def Each (P : Nat → (Nat → Bool) → List ReadStream → Prop) (server : ReadServer Row) : Prop :=
  ∀ session ∈ server.sessions.rows,
    P session.table.length (server.isSplit session.sessionName) session.streams

variable {P : Nat → (Nat → Bool) → List ReadStream → Prop}

theorem Each.addParts (h : Each P server) {index : Nat} {p q : ReadStream}
    (hP : P session.table.length (markSplit (server.isSplit session.sessionName) index)
      (session.streams ++ [p, q])) : Each P (server.addParts session index p q) := by
  intro o ho
  rw [isSplit_addParts]
  rcases Keyed.mem_put.1 ho with rfl | ⟨hol, hn⟩
  · rw [if_pos rfl]
    exact hP
  · rw [if_neg hn]
    exact h o hol

theorem Each.create (h : Each P server) {s : String} {t : List Row}
    {bytes : Nat} {m : Int} (hP : P t.length (fun _ => false)
      (createReadSession s t bytes m).streams)
    (d : WireFormat) (a : List UInt8) (avro : String) :
    Each P (server.after (.createReadSession s t bytes m d
      a avro)) := by
  intro o ho
  rcases Keyed.mem_put.1 ho with rfl | ⟨hol, hne⟩
  · have hn : (server.after (.createReadSession s t bytes m d a avro)).isSplit s =
        fun _ => false := by
      funext i
      simp [isSplit, after]
    exact hn ▸ hP
  have hs : (server.after (.createReadSession s t bytes m
      d a avro)).isSplit o.sessionName = server.isSplit o.sessionName := by
    have hna : o.sessionName ≠ s := hne
    funext i
    simp [isSplit, after, hna]
  rw [hs]
  exact h o hol

variable {call : ReadCall Row}

theorem Each.after (h : Each P server)
    (hn : ∀ (s : String) (t : List Row) tableBytes maxStreams,
      P t.length (fun _ => false)
        (createReadSession s t tableBytes maxStreams).streams)
    (hs : ∀ req, call = .splitReadStream req → ∀ session target index scaled,
      server.target req.name = some (session, target, index) →
      req.fraction ((target.endRow : Int) - target.startRow) = .ok scaled →
      P session.table.length (markSplit (server.isSplit session.sessionName) index)
        (session.streams ++ [(streamParts req target (splitRow target scaled)).1,
          (streamParts req target (splitRow target scaled)).2])) : Each P (server.after call) := by
  cases call with
  | createReadSession s t tableBytes maxStreams d a avro =>
    exact h.create (hn s t tableBytes maxStreams) d a avro
  | splitReadStream req =>
    rw [ReadServer.after]
    rcases hh : handleSplitReadStream server req with e | ⟨names, s'⟩
    · exact h
    · obtain ⟨session, target, index, scaled, htarget, hsc, -, rfl⟩ :=
        handleSplitReadStream_eq_ok hh
      exact h.addParts (hs req rfl session target index scaled htarget hsc)

/-- Every stream of a session is a range of its rows. -/
def InBounds (n : Nat) (_ : Nat → Bool) (streams : List ReadStream) : Prop :=
  ∀ stream ∈ streams, stream.startRow ≤ stream.endRow ∧ stream.endRow ≤ n

theorem laid_createReadSession (s : String) (t : List Row) (bytes : Nat)
    (m : Int) :
    Laid t.length (fun _ => false)
      (createReadSession s t bytes m).streams := by
  have ht := tiles_createReadSession s t bytes m
  have hl :=
    leavesOf_none (createReadSession s t bytes m).streams
  refine ⟨?_, ?_, ?_, fun i hi => absurd hi Bool.false_ne_true⟩
  · rw [hl]
    exact ⟨_, List.Perm.refl _, ht⟩
  · intro stream hs
    obtain ⟨l₁, l₂, -, -, hle, hr⟩ :=
      Tiling.Partitions.around ⟨_, List.Perm.refl _, ht⟩ hs
    exact ⟨hle, hr.le⟩
  · intro stream hs
    exact ⟨stream, hl.symm ▸ hs, rfl⟩

theorem inBounds_after (h : Each InBounds server) (call : ReadCall Row) :
    Each InBounds (server.after call) := by
  apply h.after
  · exact fun s bytes t m =>
      (laid_createReadSession s bytes t m).bounds
  intro r _ session target index scale htarget _ stream hs
  obtain ⟨hm, he⟩ := target_eq_some htarget
  have hb := h session hm target (mem_of_mem_zipIdx he)
  have hcut := streamParts_cutsOf r hb.1 scale
  simp only [mem_append, mem_cons, not_mem_nil, or_false] at hs
  rcases hs with ho | rfl | rfl
  · exact h session hm stream ho
  · have := hcut.primary; have := hcut.consecutive; have := hcut.remainder
    have := hcut.finish
    omega
  · have := hcut.remainder; have := hcut.finish
    omega

/-- The two parts of a split are the stream's range in order. -/
def CutsInOrder (server : ReadServer Row) : ReadCall Row → Prop
  | .createReadSession .. => True
  | .splitReadStream req => ∀ names server',
    handleSplitReadStream server req = .ok (names, server') →
      ∃ session target index, server.target req.name = some (session, target, index) ∧
        ∃ p q, (p.name, q.name) = names ∧ CutsOf target p q ∧
          { session with streams := session.streams ++ [p, q] } ∈ server'.sessions.rows

def SplitsOnce (server : ReadServer Row) : ReadCall Row → Prop
  | .createReadSession .. => True
  | .splitReadStream req => ∀ session target index scaled,
      server.target req.name = some (session, target, index) →
        req.fraction ((target.endRow : Int) - target.startRow) = .ok scaled →
          server.isSplit session.sessionName index → target.startRow = target.endRow

theorem cutsInOrder_of_inBounds (h : Each InBounds server) (call : ReadCall Row) :
    server.CutsInOrder call := by
  cases call with
  | createReadSession => trivial
  | splitReadStream r =>
    intro names s' hh
    obtain ⟨s, target, index, scale, htarget, -, rfl, rfl⟩ :=
      handleSplitReadStream_eq_ok hh
    obtain ⟨hm, he⟩ := target_eq_some htarget
    have hb := h s hm target (mem_of_mem_zipIdx he)
    exact ⟨s, target, index, htarget, _, _, rfl, streamParts_cutsOf r hb.1 scale,
      Keyed.mem_put.2 (.inl rfl)⟩

theorem laid_after (h : Each Laid server) (ho : server.SplitsOnce call) :
    Each Laid (server.after call) := by
  apply h.after laid_createReadSession
  rintro r rfl s target index scale htarget hs
  obtain ⟨hm, he⟩ := target_eq_some htarget
  have hl := h s hm
  have hcut := streamParts_cutsOf r (hl.bounds target (mem_of_mem_zipIdx he)).1 scale
  rcases hd : server.isSplit s.sessionName index
  · exact hl.split he hcut hd
  · exact hl.split_again he hcut hd (ho s target index scale htarget hs hd)

theorem splitsOnce_of_leavesPartition (h : Each Laid server)
    (hp : (server.after call).LeavesPartition) : server.SplitsOnce call := by
  cases call with
  | createReadSession => trivial
  | splitReadStream r =>
    intro s target index scale htarget hsc hd
    obtain ⟨hm, he⟩ := target_eq_some htarget
    have hl := h s hm
    have ha : server.after (.splitReadStream r) = server.addParts s index
        (streamParts r target (splitRow target scale)).1
        (streamParts r target (splitRow target scale)).2 := by
      simp [after, handleSplitReadStream, htarget, hsc, addParts]
    rw [ha] at hp
    have hs := hp _ (Keyed.mem_put.2 (.inl rfl))
    rw [leaves, isSplit_addParts, if_pos rfl] at hs
    exact hl.empty_of_partition he
      (streamParts_cutsOf r (hl.bounds target (mem_of_mem_zipIdx he)).1 scale) hd
      hs

end ReadServer

/-- **Splitting along a run**: the parts of each split are the stream's range in order; and the
leaves of all sessions partition their rows in every state of exactly the runs in which no stream
with rows is split twice. -/
theorem leaves_partition_iff (calls : List (ReadCall Row)) :
    Run.EachStep ReadServer.step ReadServer.CutsInOrder ReadServer.start calls ∧
      (Run.Always ReadServer.step ReadServer.LeavesPartition ReadServer.start calls ↔
        Run.EachStep ReadServer.step ReadServer.SplitsOnce ReadServer.start calls) := by
  constructor
  · refine Run.eachStep_of_invariant (I := ReadServer.Each ReadServer.InBounds)
      (fun session call h => ReadServer.cutsInOrder_of_inBounds h call) ?_ ?_ calls
    · rintro session call s' h hs
      cases hs
      exact ReadServer.inBounds_after h call
    · intro s hm
      cases hm
  · refine Run.always_iff_eachStep (I := ReadServer.Each Laid)
      (fun session h s hm => (h s hm).partition) ?_ ?_ ?_
    · rintro session call s' h ho hs
      cases hs
      exact ReadServer.laid_after h ho
    · rintro session call s' h hs hp
      cases hs
      exact ReadServer.splitsOnce_of_leavesPartition h hp
    · intro s hm
      cases hm

def splitTwice : List (ReadCall Nat) :=
  let half id : ReadCall Nat :=
    .splitReadStream ⟨"s/streams/0", fun width => .ok (width / 2), id, id⟩
  [.createReadSession "s" [10, 20] 16 1 .arrow [] "", half "a", half "b"]

/-- **A stream split twice is covered twice** by the leaves. -/
theorem leaves_overlap :
    ¬ Run.Always ReadServer.step ReadServer.LeavesPartition ReadServer.start splitTwice := by
  intro h
  have hl := ((h.2 _ rfl).2 _ rfl).2 _ rfl
  have hlv := hl _ mem_cons_self
  have hc := hlv.countP 0
  revert hc
  decide

end Bqemulator
