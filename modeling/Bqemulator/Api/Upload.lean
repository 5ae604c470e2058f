import Bqemulator.Jobs.UploadSessionManager
import Bqemulator.Lib.Run
import Bqemulator.Lib.Tiling

/-!
# The upload host

A resumable upload is started by a request that makes a session; its bytes come in `PUT` requests.
The one that completes the session runs the load job over the staging file and removes the session.
Requests interleave where a handler waits, which is while it reads a body.
-/

namespace Bqemulator

open Keyed List UploadSession UploadSessionManager

variable {Config : Type}

/-! ## Requests -/

inductive AsgiMessage where
  | httpRequest (body : List UInt8) (moreBody : Bool)
  | httpDisconnect
  | other

/-- The parts of a body, up to the message that ends it. -/
def iterRequestBody : List AsgiMessage → List (List UInt8)
  | [] => []
  | .httpDisconnect :: _ => []
  | .other :: rest => iterRequestBody rest
  | .httpRequest body moreBody :: rest =>
    (if body = [] then [] else [body]) ++ if moreBody then iterRequestBody rest else []

def readParts (cap : Nat) (received : List UInt8) :
    List (List UInt8) → Except DomainError (List UInt8)
  | [] => .ok received
  | chunk :: rest =>
    if cap < received.length + chunk.length then
      .error (uploadSizeExceeded (received.length + chunk.length) cap)
    else readParts cap (received ++ chunk) rest

/-- The body of a request, if it is not larger than the cap. -/
def readBodyCapped (cap : Nat) (messages : List AsgiMessage) : Except DomainError (List UInt8) :=
  readParts cap [] (iterRequestBody messages)

structure PutRequest where
  now : Int
  uploadId : String
  contentRange : Option String
  messages : List AsgiMessage

/-- The request only asks how far the session is. -/
def PutRequest.isProbe (req : PutRequest) : Bool :=
  req.contentRange.any fun value => "bytes */".toList.isPrefixOf (stripHeader value)

/-- How far a request gets: it fails, reports the status, has its body stored, or completes the
session, and the load is run. -/
inductive ChunkStep (Config : Type) where
  | failed (e : DomainError)
  | probed (session : UploadSession Config)
  | stored (session : UploadSession Config) (body : List UInt8)
  | finished (session : UploadSession Config) (body : List UInt8)

/-- The `Range` header of an answer to go on. -/
def resumeIncompleteRange (session : UploadSession Config) : Option String :=
  if session.receivedBytes = 0 then none
  else some ("bytes=0-" ++ toString (session.receivedBytes - 1))

/-- The answer of a request that ends before a load: an error, or 308 with the `Range` header. -/
def ChunkStep.answer : ChunkStep Config → Option (Except DomainError (Option String))
  | .failed e => some (.error e)
  | .probed session => some (.ok (resumeIncompleteRange session))
  | .stored session _ => some (.ok (resumeIncompleteRange session))
  | .finished .. => none

/-- A `PUT` request up to the load. -/
def uploadChunk (m : UploadSessionManager Config) (req : PutRequest) :
    UploadSessionManager Config × ChunkStep Config :=
  if req.uploadId = "" then
    (m, .failed (.validation "Missing required query parameter 'upload_id'" ""))
  else match readBodyCapped m.maxBytes req.messages with
    | .error e => (m, .failed e)
    | .ok body =>
      if req.isProbe then
        match m.get req.now req.uploadId with
        | (m, .error e) => (m, .failed e)
        | (m, .ok session) => (m, .probed session)
      else
        match m.append req.now req.uploadId body req.contentRange with
        | (m, .error e) => (m, .failed e)
        | (m, .ok (session, false)) => (m, .stored session body)
        | (m, .ok (session, true)) => (m, .finished session body)

/-! ## The server -/

/-- A body that went into a staging file: the start its header named, and where it went. -/
structure AcceptedChunk where
  sessionId : String
  start : Option Nat
  offset : Nat
  body : List UInt8

/-- The sessions. `loads` and `accepted` record the loads run and the bodies stored; no handler
reads them. -/
structure UploadServer (Config : Type) where
  manager : UploadSessionManager Config
  loads : List String
  accepted : List AcceptedChunk

variable (maxBytes : Nat)

def UploadServer.start (ttl : Int) : UploadServer Config :=
  ⟨⟨maxBytes, ttl, empty⟩, [], []⟩

/-- What happens between two points at which handlers wait: a session is made, or a request goes on
to its end. -/
inductive UploadEvent (Config : Type) where
  | initiate (now : Int) (sessionId projectId : String) (configuration : Config)
  | put (req : PutRequest)

def acceptedChunk (req : PutRequest) (session : UploadSession Config) (body : List UInt8) :
    AcceptedChunk where
  sessionId := req.uploadId
  start := match extractRangeFields req.contentRange with
    | .ok range => range.start
    | .error _ => none
  offset := session.receivedBytes - body.length
  body := body

variable (server : UploadServer Config)

/-- The server after an event. -/
def UploadServer.after : UploadEvent Config → UploadServer Config
  | .initiate now sessionId projectId configuration =>
    match server.manager.create now sessionId projectId configuration with
    | .error _ => server
    | .ok manager =>
      { server with
        manager
        loads := server.loads.filter (· ≠ sessionId)
        accepted := server.accepted.filter fun chunk => chunk.sessionId ≠ sessionId }
  | .put req =>
    match uploadChunk server.manager req with
    | (manager, .failed _) | (manager, .probed _) => { server with manager }
    | (manager, .stored session body) =>
      { server with manager, accepted := server.accepted ++ [acceptedChunk req session body] }
    | (manager, .finished session body) =>
      -- the session is removed whether the load failed or not
      { manager := manager.remove req.uploadId
        loads := req.uploadId :: server.loads
        accepted := server.accepted ++ [acceptedChunk req session body] }

def UploadServer.step (event : UploadEvent Config) : Except DomainError (UploadServer Config) :=
  .ok (server.after event)

/-! ## The requests that are received -/

section Receives

variable {m : UploadSessionManager Config} {req : PutRequest} {session : UploadSession Config}
  {range : ContentRange} {body : List UInt8}

/-- **The request is received**: no probe, for a session that is there and not idle for too long,
with a body that passes the checks. -/
structure Receives (m : UploadSessionManager Config) (req : PutRequest)
    (session : UploadSession Config) (range : ContentRange) (body : List UInt8) : Prop where
  read : readBodyCapped m.maxBytes req.messages = .ok body
  chunk : req.isProbe = false
  id : isUploadId req.uploadId
  live : (m.evictExpired req.now).sessions.get? req.uploadId = some session
  header : extractRangeFields req.contentRange = .ok range
  accepts : session.Accepts m.maxBytes range body

theorem Receives.sessionId_eq (h : Receives m req session range body) :
    session.sessionId = req.uploadId :=
  key_of_get? h.live

theorem Receives.mem (h : Receives m req session range body) : session ∈ m.sessions.rows :=
  mem_of_mem_filter (get?_eq_some_iff.1 h.live).1

/-- The session takes a body that is in place. -/
def storeChunk (m : UploadSessionManager Config) (req : PutRequest)
    (session : UploadSession Config) (range : ContentRange) (body : List UInt8) :
    UploadSessionManager Config :=
  { m with sessions := (m.evictExpired req.now).sessions.put (session.extend range body req.now) }

theorem uploadChunk_of_receives (h : Receives m req session range body) :
    uploadChunk m req = (storeChunk m req session range body,
      if (session.extend range body req.now).complete then
        .finished (session.extend range body req.now) body
      else .stored (session.extend range body req.now) body) := by
  have hi : req.uploadId ≠ "" := by
    intro he
    have hl := h.id
    rw [he] at hl
    exact absurd hl (by decide)
  have hr : receive session m.maxBytes req.now body req.contentRange =
      .ok (session.extend range body req.now, (session.extend range body req.now).complete) :=
    receive_eq_ok.2 ⟨range, h.header, h.accepts, rfl, rfl⟩
  have ha : m.append req.now req.uploadId body req.contentRange =
      (storeChunk m req session range body,
        .ok (session.extend range body req.now, (session.extend range body req.now).complete)) := by
    have hc : (m.evictExpired req.now).maxBytes = m.maxBytes := rfl
    simp only [UploadSessionManager.append, UploadSessionManager.get, h.id, Bool.not_true,
      Bool.false_eq_true, if_false, h.live, hc, hr]
    rfl
  rw [uploadChunk, if_neg hi, h.read]
  simp only [h.chunk, Bool.false_eq_true, if_false, ha]
  cases (session.extend range body req.now).complete <;> rfl

theorem uploadChunk_of_not_receives
    (h : ∀ session range body, ¬ Receives m req session range body) :
    ((uploadChunk m req).1 = m ∨ (uploadChunk m req).1 = m.evictExpired req.now) ∧
      ((∃ e, (uploadChunk m req).2 = .failed e) ∨ ∃ s, (uploadChunk m req).2 = .probed s) := by
  unfold uploadChunk
  by_cases he : req.uploadId = ""
  · rw [if_pos he]
    exact ⟨.inl rfl, .inl ⟨_, rfl⟩⟩
  rw [if_neg he]
  rcases hb : readBodyCapped m.maxBytes req.messages with e | body
  · exact ⟨.inl rfl, .inl ⟨e, rfl⟩⟩
  rcases m.get_cases req.now req.uploadId with
    ⟨e, hg⟩ | ⟨e, hg⟩ | ⟨session, hi, hl, hg⟩
  · by_cases hp : req.isProbe <;> simp [hp, UploadSessionManager.append, hg]
  · by_cases hp : req.isProbe <;> simp [hp, UploadSessionManager.append, hg]
  by_cases hp : req.isProbe
  · simp [hp, hg]
  -- the session is there, so that the checks must have failed
  rcases hr : receive session (m.evictExpired req.now).maxBytes
      req.now body req.contentRange with e | ⟨session', complete⟩
  · simp [hp, UploadSessionManager.append, hg, hr]
  · obtain ⟨range, hh, ha, -, -⟩ := receive_eq_ok.1 hr
    exact absurd ⟨hb, by simpa using hp, hi, hl, hh, ha⟩
      (h session range body)

theorem receives_or_not (m : UploadSessionManager Config) (r : PutRequest) :
    (∃ session range body, Receives m r session range body) ∨
      ∀ session range body, ¬ Receives m r session range body := by
  by_cases h : ∃ session range body, Receives m r session range body
  · exact .inl h
  · exact .inr fun session range body hr => h ⟨session, range, body, hr⟩

end Receives

/-! ## Staging files -/

/-- **A staging file made of the bodies received**: the session counts its bytes, within the cap,
and each body is the part of the file at the place its header said, without gaps. -/
structure Assembled (maxBytes : Nat) (session : UploadSession Config)
    (chunks : List AcceptedChunk) : Prop where
  length : session.receivedBytes = session.staged.length
  cap : session.receivedBytes ≤ maxBytes
  tiles : Tiling.Tiles AcceptedChunk.offset (fun chunk => chunk.offset + chunk.body.length) 0
    session.receivedBytes chunks
  starts : ∀ chunk ∈ chunks, ∀ start, chunk.start = some start → start = chunk.offset
  bytes : ∀ chunk ∈ chunks,
    (session.staged.drop chunk.offset).take chunk.body.length = chunk.body

variable {session : UploadSession Config}

theorem Assembled.extend {m : Nat} {c : List AcceptedChunk}
    (h : Assembled m session c) {r : ContentRange} (chunk : AcceptedChunk)
    {n : Int} (ha : session.Accepts m r chunk.body)
    (hst : chunk.start = r.start) (ho : chunk.offset = session.receivedBytes) :
    Assembled m (session.extend r chunk.body n) (c ++ [chunk]) where
  length := by
    simp only [UploadSession.extend, List.length_append, h.length]
  cap := ha.fits
  tiles := by
    refine Tiling.tiles_append.2 ⟨session.receivedBytes, h.tiles, ho, ?_, ?_⟩
    · rw [← ho]
      exact Nat.le_add_right _ _
    · show chunk.offset + chunk.body.length = session.receivedBytes + chunk.body.length
      rw [ho]
  starts := by
    intro o hot start hs
    rcases List.mem_append.1 hot with hol | hn
    · exact h.starts o hol start hs
    · rw [List.mem_singleton.1 hn] at hs ⊢
      rw [ho]
      exact ha.offset start (hst ▸ hs)
  bytes := by
    intro o hot
    simp only [UploadSession.extend]
    rcases List.mem_append.1 hot with hol | hn
    · -- an earlier body ends before the new one begins
      obtain ⟨l₁, l₂, -, -, -, hr⟩ :=
        Tiling.Partitions.around ⟨c, List.Perm.refl _, h.tiles⟩ hol
      have he : o.offset + o.body.length ≤ session.staged.length :=
        h.length ▸ hr.le
      rw [List.drop_append_of_le_length (by omega), List.take_append_of_le_length
        (by rw [List.length_drop]; omega)]
      exact h.bytes o hol
    · rw [List.mem_singleton.1 hn, ho, h.length, List.drop_left, List.take_length]

variable {server' : UploadServer Config} {event : UploadEvent Config}

namespace UploadServer

variable {server : UploadServer Config} {req : PutRequest} {range : ContentRange}
  {body : List UInt8}

variable (server)

/-- The bodies that a session has taken. -/
def chunksOf (sessionId : String) : List AcceptedChunk :=
  server.accepted.filter fun chunk => chunk.sessionId = sessionId

/-- **Every staging file is put together from the bodies of its session.** -/
def Assembles : Prop :=
  ∀ session ∈ server.manager.sessions.rows,
    Assembled server.manager.maxBytes session (server.chunksOf session.sessionId)

variable {server}

theorem after_put_of_receives (h : Receives server.manager req session range body) :
    server.after (.put req) =
      { manager := if (session.extend range body req.now).complete then
          (storeChunk server.manager req session range body).remove req.uploadId
          else storeChunk server.manager req session range body
        loads := if (session.extend range body req.now).complete then
          req.uploadId :: server.loads else server.loads
        accepted := server.accepted ++
          [⟨req.uploadId, range.start, session.receivedBytes, body⟩] } := by
  rw [after, uploadChunk_of_receives h]
  cases hc : (session.extend range body req.now).complete <;>
    simp [acceptedChunk, h.header, extend]

theorem after_put_of_not_receives
    (h : ∀ session range body, ¬ Receives server.manager req session range body) :
    ∃ manager, server.after (.put req) = { server with manager } ∧
      (manager = server.manager ∨ manager = server.manager.evictExpired req.now) := by
  obtain ⟨hm, hs⟩ := uploadChunk_of_not_receives h
  refine ⟨(uploadChunk server.manager req).1, ?_, hm⟩
  rw [after]
  rcases hs with ⟨e, hf⟩ | ⟨session, hp⟩
  · rw [show uploadChunk server.manager req = (_, .failed e) from Prod.ext rfl hf]
  · rw [show uploadChunk server.manager req = (_, .probed session) from Prod.ext rfl hp]

section

variable (h : server.Assembles)

include h

theorem Assembles.of_subset (hm : server'.manager.maxBytes = server.manager.maxBytes)
    (ha : server'.accepted = server.accepted)
    (hr : ∀ session ∈ server'.manager.sessions.rows, session ∈ server.manager.sessions.rows) :
    server'.Assembles := by
  intro session hs
  rw [hm, chunksOf, ha]
  exact h session (hr session hs)

theorem assembles_initiate (n : Int) (sessionId p : String) (config : Config) :
    (server.after (.initiate n sessionId p config)).Assembles := by
  rw [after, create]
  rcases hf : server.manager.sessions.get? sessionId with _ | taken
  · intro s hse
    rcases mem_put.1 hse with rfl | ⟨ho, hne⟩
    · have hn : (server.accepted.filter fun c => c.sessionId ≠ sessionId).filter
          (fun c => c.sessionId = sessionId) = [] := by
        simp [filter_filter]
      rw [chunksOf, hn]
      exact ⟨rfl, Nat.zero_le _, rfl, fun _ h => absurd h not_mem_nil,
        fun _ h => absurd h not_mem_nil⟩
    · have hs : (server.accepted.filter fun c => c.sessionId ≠ sessionId).filter
          (fun c => c.sessionId = s.sessionId) = server.chunksOf s.sessionId := by
        have hna : s.sessionId ≠ sessionId := hne
        rw [filter_filter, chunksOf]
        apply filter_congr
        intro c _
        by_cases hc : c.sessionId = s.sessionId <;> simp [hc, hna]
      rw [chunksOf, hs]
      exact h s ho
  · exact h

theorem assembles_receives (hr : Receives server.manager req session range body) :
    (server.after (.put req)).Assembles := by
  have hi := hr.sessionId_eq
  rw [after_put_of_receives hr]
  intro o ho
  have hstored : o ∈ (storeChunk server.manager req session range body).sessions.rows := by
    split at ho
    · exact mem_of_mem_filter ho
    · exact ho
  have hcap : (if (session.extend range body req.now).complete then
      (storeChunk server.manager req session range body).remove req.uploadId
      else storeChunk server.manager req session range body).maxBytes =
        server.manager.maxBytes := by
    split <;> rfl
  rw [hcap, chunksOf, filter_append]
  rcases mem_put.1 hstored with rfl | ⟨hol, hne⟩
  · rw [show (session.extend range body req.now).sessionId = req.uploadId from hi]
    rw [filter_singleton, decide_eq_true rfl, cond_true]
    have hs := h session hr.mem
    rw [hi] at hs
    exact hs.extend ⟨req.uploadId, range.start, session.receivedBytes, body⟩
      hr.accepts rfl rfl
  · have hn : req.uploadId ≠ o.sessionId := fun heq => hne (heq ▸ hi.symm)
    rw [filter_singleton, decide_eq_false hn, cond_false, append_nil]
    exact h o (mem_of_mem_filter hol)

theorem assembles_after (e : UploadEvent Config) : (server.after e).Assembles := by
  cases e with
  | initiate n s p c =>
    exact assembles_initiate h n s p c
  | put req =>
    rcases receives_or_not server.manager req with ⟨session, r, body, hr⟩ | hn
    · exact assembles_receives h hr
    obtain ⟨m, ha, rfl | rfl⟩ := after_put_of_not_receives hn
    · rw [ha]
      exact h
    · rw [ha]
      exact h.of_subset rfl rfl fun session hs => mem_of_mem_filter hs

end

/-! ## Completion -/

variable (server)

/-- A request that fails changes no session: at most those that were idle for too long are gone. -/
def KeepsOnFailure : UploadEvent Config → Prop
  | .put req => ∀ e, (uploadChunk server.manager req).2 = .failed e →
      (server.after (.put req)).manager = server.manager ∨
        (server.after (.put req)).manager = server.manager.evictExpired req.now
  | _ => True

/-- **A session that is reported complete** has as many bytes as it declared. -/
def CompletesExactly : UploadEvent Config → Prop
  | .put req => ∀ session body, (uploadChunk server.manager req).2 = .finished session body →
      session.declaredTotalBytes = some session.staged.length
  | _ => True

/-- A body that is received does not go past the total, declared before or with it. -/
def WithinTotal : UploadEvent Config → Prop
  | .put req => ∀ session range body, Receives server.manager req session range body →
      ∀ total, session.declaredTotalBytes.or range.total = some total →
        session.receivedBytes + body.length ≤ total
  | _ => True

theorem keepsOnFailure (event : UploadEvent Config) : server.KeepsOnFailure event := by
  cases event with
  | put req =>
    intro e hf
    have hn : ∀ s r body, ¬ Receives server.manager req s r body := by
      intro s r body hr
      rw [uploadChunk_of_receives hr] at hf
      cases hc : (s.extend r body req.now).complete <;>
        simp [hc] at hf
    obtain ⟨m, ha, hm⟩ := after_put_of_not_receives hn
    rw [ha]
    exact hm
  | _ => trivial

variable {server}

theorem completesExactly_iff (h : server.Assembles) (event : UploadEvent Config) :
    server.CompletesExactly event ↔ server.WithinTotal event := by
  cases event with
  | put req =>
    constructor
    · intro he session r body hrs total ht
      have hl := (h session hrs.mem).length
      by_contra hp
      have hc : (session.extend r body req.now).complete = true := by
        refine complete_iff.2 ⟨total, ht, ?_⟩
        simp only [extend]
        omega
      have hf := he (session.extend r body req.now) body
        (by rw [uploadChunk_of_receives hrs, if_pos hc])
      simp only [extend, ht, length_append, Option.some.injEq] at hf
      omega
    · intro hw s' body hf
      rcases receives_or_not server.manager req with ⟨session, r, c, hrs⟩ | hn
      · have hl := (h session hrs.mem).length
        rw [uploadChunk_of_receives hrs] at hf
        cases hc : (session.extend r c req.now).complete with
        | false => simp [hc] at hf
        | true =>
          simp only [hc, if_true, ChunkStep.finished.injEq] at hf
          obtain ⟨rfl, rfl⟩ := hf
          obtain ⟨total, ht, hr⟩ := complete_iff.1 hc
          have hle := hw session r c hrs total ht
          simp only [extend] at ht hr
          simp only [extend, ht, length_append, Option.some.injEq]
          omega
      · obtain ⟨-, ⟨e, hs⟩ | ⟨s, hs⟩⟩ := uploadChunk_of_not_receives hn
        · rw [hs] at hf; cases hf
        · rw [hs] at hf; cases hf
  | _ => exact Iff.rfl

end UploadServer

/-- A declared total of five bytes, and a body of six. -/
def oversizedUpload : List (UploadEvent Unit) :=
  [.initiate 0 "aaaaaaaa" "p" (),
    .put ⟨0, "aaaaaaaa", some "bytes 0-4/5", [.httpRequest [1, 2, 3, 4, 5, 6] false]⟩]

theorem Assembled.flatMap_body {n : Nat} {chunks : List AcceptedChunk}
    (h : Assembled n session chunks) : chunks.flatMap AcceptedChunk.body = session.staged := by
  have hs := h.tiles.flatMap_slice session.staged
  rw [h.length, Nat.sub_zero, drop_zero, take_length] at hs
  rw [← hs]
  exact flatMap_congr fun c hc => by simpa using (h.bytes c hc).symm

variable {m : UploadSessionManager Config} {req : PutRequest}

theorem get?_of_probed (h : (uploadChunk m req).2 = .probed session) :
    (uploadChunk m req).1.sessions.get? req.uploadId = some session := by
  unfold uploadChunk at h ⊢
  split at h
  · cases h
  rw [if_neg (by assumption)]
  split at h
  · cases h
  split at h
  · rw [if_pos (by assumption)]
    rcases m.get_cases req.now req.uploadId with ⟨e, hg⟩ | ⟨e, hg⟩ | ⟨o, -, hl, hg⟩ <;>
      rw [hg] at h ⊢ <;> cases h
    exact hl
  · split at h <;> cases h

/-- A 308 answer tells the offset of the session that is there afterwards. -/
theorem answer_eq_ok {header : Option String}
    (h : (uploadChunk m req).2.answer = some (.ok header)) :
    ∃ s, (uploadChunk m req).1.sessions.get? req.uploadId = some s ∧
      header = resumeIncompleteRange s := by
  rcases receives_or_not m req with ⟨s, r, body, hr⟩ | hn
  · rw [uploadChunk_of_receives hr] at h ⊢
    split at h
    · cases h
    · cases h
      exact ⟨_, (get?_put _ _ _).trans (if_pos hr.sessionId_eq), rfl⟩
  · obtain ⟨-, ⟨e, he⟩ | ⟨s, hs⟩⟩ := uploadChunk_of_not_receives hn
    · rw [he] at h
      cases h
    · rw [hs] at h
      cases h
      exact ⟨s, get?_of_probed hs, rfl⟩

namespace UploadServer

/-- **The header of a 308 answer** tells how many bytes of the accepted bodies there are. -/
def TellsOffset : UploadEvent Config → Prop
  | .put req => ∀ header, (uploadChunk server.manager req).2.answer = some (.ok header) →
      let bytes := ((server.after (.put req)).chunksOf req.uploadId).flatMap AcceptedChunk.body
      header = if bytes = [] then none else some ("bytes=0-" ++ toString (bytes.length - 1))
  | _ => True

theorem after_put_manager {req : PutRequest} {header : Option String}
    (h : (uploadChunk server.manager req).2.answer = some (.ok header)) :
    (server.after (.put req)).manager = (uploadChunk server.manager req).1 := by
  rw [after]
  split
  all_goals
    rename_i hchunk
    rw [hchunk] at h ⊢
  -- a request that runs a load has another answer
  cases h

theorem tellsOffset (h : server.Assembles) (e : UploadEvent Config) : server.TellsOffset e := by
  cases e with
  | put req =>
    intro header ho
    obtain ⟨s, hs, rfl⟩ := answer_eq_ok ho
    rw [← after_put_manager server ho, get?_eq_some_iff] at hs
    have ha := assembles_after h (.put req) s hs.1
    rw [hs.2] at ha
    simp only [resumeIncompleteRange, ha.flatMap_body, ha.length, length_eq_zero_iff]
  | _ => trivial

end UploadServer

/-- **A client can resume where it is told to**: the `Range` header of a 308 answer ends at the last
byte accepted, and is missing as long as there is none. -/
theorem upload_tells_offset (ttl : Int) (events : List (UploadEvent Config)) :
    Run.EachStep UploadServer.step UploadServer.TellsOffset (UploadServer.start maxBytes ttl)
      events := by
  refine Run.eachStep_of_invariant (I := UploadServer.Assembles)
    (fun _ e h => UploadServer.tellsOffset _ h e) ?_ ?_ events
  · intro s e s' h hs
    cases hs
    exact UploadServer.assembles_after h e
  · intro s hs
    cases hs

/-! ## Loads -/

namespace UploadServer

variable {server : UploadServer Config}

/-- **Every session has been loaded at most once.** -/
def LoadsOnce (server : UploadServer Config) : Prop :=
  ∀ sessionId, server.loads.count sessionId ≤ 1

/-- The invariant of loads: there is at most one for each session, and a session that has been
loaded is gone. -/
structure LoadsRemoved (server : UploadServer Config) : Prop where
  once : server.LoadsOnce
  removed : ∀ session ∈ server.manager.sessions.rows, session.sessionId ∉ server.loads

section

variable (h : server.LoadsRemoved)

include h

theorem loadsRemoved_initiate (now : Int) (sessionId projectId : String) (configuration : Config) :
    (server.after (.initiate now sessionId projectId configuration)).LoadsRemoved := by
  rw [after, create]
  rcases server.manager.sessions.get? sessionId with _ | taken
  · refine ⟨fun id => (filter_sublist.count_le id).trans (h.once id), fun s hs hl => ?_⟩
    obtain ⟨hloaded, hne⟩ := mem_filter.1 hl
    rcases mem_put.1 hs with rfl | ⟨hs, -⟩
    · simp at hne
    · exact h.removed s hs hloaded
  · exact h

theorem loadsRemoved_receives {req : PutRequest} {range : ContentRange} {body : List UInt8}
    (hr : Receives server.manager req session range body) :
    (server.after (.put req)).LoadsRemoved := by
  have hid := hr.sessionId_eq
  have hfirst : req.uploadId ∉ server.loads := hid ▸ h.removed session hr.mem
  rw [after_put_of_receives hr]
  cases (session.extend range body req.now).complete with
  | false =>
    refine ⟨h.once, fun s hs => ?_⟩
    rcases mem_put.1 hs with rfl | ⟨hs, -⟩
    · exact h.removed session hr.mem
    · exact h.removed s (mem_of_mem_filter hs)
  | true =>
    refine ⟨fun id => ?_, fun s hs hl => ?_⟩
    · have honce := h.once id
      simp only [if_true, count_cons]
      split
      · rename_i heq
        rw [← eq_of_beq heq, count_eq_zero.2 hfirst]
      · omega
    · obtain ⟨hs, hne⟩ := mem_filter.1 hs
      rcases mem_cons.1 hl with heq | hl
      · simp [heq] at hne
      rcases mem_put.1 hs with rfl | ⟨hs, -⟩
      · exact h.removed session hr.mem hl
      · exact h.removed s (mem_of_mem_filter hs) hl

theorem loadsRemoved_after (event : UploadEvent Config) : (server.after event).LoadsRemoved := by
  cases event with
  | initiate now sessionId projectId configuration =>
    exact loadsRemoved_initiate h now sessionId projectId configuration
  | put req =>
    rcases receives_or_not server.manager req with ⟨session, range, body, hr⟩ | hn
    · exact loadsRemoved_receives h hr
    obtain ⟨manager, ha, rfl | rfl⟩ := after_put_of_not_receives hn
    · rw [ha]
      exact h
    · rw [ha]
      exact ⟨h.once, fun s hs => h.removed s (mem_of_mem_filter hs)⟩

end

end UploadServer

/-- **Loads of a session**: in every interleaving of the handlers, each session is loaded at most
once. -/
theorem upload_loads_once (ttl : Int) (events : List (UploadEvent Config)) :
    Run.Always UploadServer.step UploadServer.LoadsOnce
      (UploadServer.start maxBytes ttl) events := by
  refine Run.always_of_invariant (I := UploadServer.LoadsRemoved) (fun _ h => h.once) ?_ ?_ events
  · intro server event server' h hs
    cases hs
    exact UploadServer.loadsRemoved_after h event
  · exact ⟨fun _ => Nat.zero_le _, fun session hm => by cases hm⟩

/-- A retry of the last chunk finds no session. -/
example : ([.initiate 0 "aaaaaaaa" "p" (),
      .put ⟨0, "aaaaaaaa", some "bytes 0-4/5", [.httpRequest [1, 2, 3, 4, 5] false]⟩,
      .put ⟨0, "aaaaaaaa", none, [.httpRequest [] false]⟩].foldl UploadServer.after
    (UploadServer.start 100 3600 : UploadServer Unit)).loads = ["aaaaaaaa"] := by decide

end Bqemulator
