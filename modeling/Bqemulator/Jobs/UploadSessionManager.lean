import Bqemulator.Catalog.Models
import Bqemulator.Lib.Keyed

/-!
# Resumable upload sessions

A session collects the bytes of an upload in a staging file. The manager checks the start in the
`Content-Range` header against the bytes received, the sizes against the cap, and the total against
the one declared; the length of the body is compared with none of them. `finalize` has no caller.
-/

namespace Bqemulator

/-! ## The header -/

def isHeaderSpace (c : Char) : Bool :=
  (9 ≤ c.toNat && c.toNat ≤ 13) || (28 ≤ c.toNat && c.toNat ≤ 32) || c.toNat = 133 || c.toNat = 160

variable (value : String)

def stripHeader : List Char :=
  ((value.toList.dropWhile isHeaderSpace).reverse.dropWhile isHeaderSpace).reverse

/-- The numbers of a header: the first and the last byte of the chunk, and the size of the
upload. -/
structure ContentRange where
  start : Option Nat
  endInclusive : Option Nat
  total : Option Nat
deriving DecidableEq

def intOfDigits (digits : List Char) : Except DomainError Nat :=
  if 4300 < digits.length then
    .error (.internal ("Exceeds the limit (4300 digits) for integer string conversion: " ++
      "value has " ++ toString digits.length ++ " digits"))
  else .ok (digits.foldl (fun n c => 10 * n + (c.toNat - 48)) 0)

def afterUnit : List Char → Option (List Char)
  | 'b' :: 'y' :: 't' :: 'e' :: 's' :: rest =>
    match rest.span isHeaderSpace with
    | ([], _) => none
    | (_ :: _, rest) => some rest
  | _ => none

variable (text : List Char)

def leadingDigits : Option (List Char × List Char) :=
  match text.span Char.isDigit with
  | ([], _) => none
  | (digits, rest) => some (digits, rest)

def matchProbe : Option (List Char) :=
  match afterUnit text with
  | some ('*' :: '/' :: rest) =>
    match leadingDigits rest with
    | some (total, []) => some total
    | _ => none
  | _ => none

/-- The parts of a chunk's header, `bytes <start>-<end>/<total>`; the total may be a star. -/
def matchBytes : Option (List Char × List Char × Option (List Char)) :=
  match (afterUnit text).bind leadingDigits with
  | some (start, '-' :: rest) =>
    match leadingDigits rest with
    | some (last, '/' :: '*' :: []) => some (start, last, none)
    | some (last, '/' :: rest) =>
      match leadingDigits rest with
      | some (total, []) => some (start, last, some total)
      | _ => none
    | _ => none
  | _ => none

def totalOfDigits : Option (List Char) → Except DomainError (Option Nat)
  | none => .ok none
  | some digits => (intOfDigits digits).map some

def checkedRange (start last : Nat) (total : Option Nat) : Except DomainError ContentRange :=
  if last < start then .error (.invalidQuery
    ("Content-Range end=" ++ toString last ++ " precedes start=" ++ toString start))
  else match total with
    | none => .ok ⟨some start, some last, none⟩
    | some size =>
      if size ≤ last then .error (.invalidQuery ("Content-Range end=" ++ toString last ++
        " not less than total=" ++ toString size))
      else .ok ⟨some start, some last, some size⟩

/-- The numbers of a header. -/
def parseContentRange : Except DomainError ContentRange :=
  match matchProbe (stripHeader value) with
  | some total => (intOfDigits total).map fun total => ⟨none, none, some total⟩
  | none =>
    match matchBytes (stripHeader value) with
    | none => .error (.invalidQuery ("Malformed Content-Range header: " ++ Text.quoted value))
    | some (start, last, total) =>
      (intOfDigits start).bind fun start => (intOfDigits last).bind fun last =>
        (totalOfDigits total).bind (checkedRange start last)

def extractRangeFields : Option String → Except DomainError ContentRange
  | none => .ok ⟨none, none, none⟩
  | some value => parseContentRange value

/-! ## Sessions -/

variable {Config : Type}

/-- A session, with its staging file. -/
structure UploadSession (Config : Type) where
  sessionId : String
  projectId : String
  configuration : Config
  staged : List UInt8 := []
  receivedBytes : Nat := 0
  declaredTotalBytes : Option Nat := none
  lastActiveAt : Int

/-- **The sessions**, and the limits. -/
structure UploadSessionManager (Config : Type) where
  maxBytes : Nat
  ttl : Int
  sessions : Keyed (fun session : UploadSession Config => session.sessionId)

def isUploadId : Bool :=
  let chars := Text.anchored value
  chars.all (fun c => c.isAlphanum || c = '_' || c = '-') && 8 ≤ chars.length && chars.length ≤ 64

def uploadSizeExceeded (declared cap : Nat) : DomainError :=
  .invalidQuery ("Upload size " ++ toString declared ++ " exceeds the configured cap of " ++
    toString cap ++ " bytes")

namespace UploadSession

variable (session : UploadSession Config)

def verifyOffsetMatches : Option Nat → Except DomainError Unit
  | none => .ok ()
  | some start =>
    if start ≠ session.receivedBytes then .error (.invalidQuery
      ("Content-Range start=" ++ toString start ++ " does not match the session's " ++
        "current offset " ++ toString session.receivedBytes))
    else .ok ()

def verifySizeCaps (maxBytes : Nat) (chunk : List UInt8) (declaredTotal : Option Nat) :
    Except DomainError Unit :=
  if maxBytes < session.receivedBytes + chunk.length then
    .error (uploadSizeExceeded (session.receivedBytes + chunk.length) maxBytes)
  else match declaredTotal with
    | none => .ok ()
    | some total =>
      if maxBytes < total then .error (uploadSizeExceeded total maxBytes) else .ok ()

def reconcileDeclaredTotal : Option Nat → Except DomainError (UploadSession Config)
  | none => .ok session
  | some total =>
    match session.declaredTotalBytes with
    | none => .ok { session with declaredTotalBytes := some total }
    | some declared =>
      if declared ≠ total then .error (.invalidQuery
        ("Content-Range total=" ++ toString total ++ " disagrees with the " ++
          "previously declared total " ++ toString declared))
      else .ok session

def writeChunk (chunk : List UInt8) : UploadSession Config :=
  if chunk = [] then session
  else { session with
    staged := session.staged ++ chunk, receivedBytes := session.receivedBytes + chunk.length }

/-- Whether a session is complete. -/
def isSessionComplete (endInclusive declaredTotal : Option Nat) : Bool :=
  match session.declaredTotalBytes, endInclusive, declaredTotal with
  | some total, _, _ => total ≤ session.receivedBytes
  | none, some last, some total => last + 1 = total
  | none, _, _ => false

end UploadSession

namespace UploadSessionManager

variable (m : UploadSessionManager Config) (now : Int)

def evictExpired : UploadSessionManager Config :=
  { m with sessions := m.sessions.removeIf fun session => session.lastActiveAt < now - m.ttl }

variable (sessionId : String)

def get : UploadSessionManager Config × Except DomainError (UploadSession Config) :=
  if !isUploadId sessionId then
    (m, .error (.notFound ("Upload session " ++ Text.quoted sessionId ++ " not found")))
  else
    (m.evictExpired now, match (m.evictExpired now).sessions.get? sessionId with
      | none => .error (.notFound ("Upload session " ++ sessionId ++ " not found"))
      | some session => .ok session)

def create (sessionId projectId : String) (configuration : Config) :
    Except DomainError (UploadSessionManager Config) :=
  match m.sessions.get? sessionId with
  | some _ => .error (.internal "File exists")
  | none =>
    let session : UploadSession Config :=
      { sessionId, projectId, configuration, lastActiveAt := now }
    .ok { m with sessions := m.sessions.put session }

def receive (session : UploadSession Config) (maxBytes : Nat) (now : Int) (chunk : List UInt8)
    (contentRange : Option String) : Except DomainError (UploadSession Config × Bool) :=
  (extractRangeFields contentRange).bind fun range =>
    (session.verifyOffsetMatches range.start).bind fun _ =>
      (session.verifySizeCaps maxBytes chunk range.total).bind fun _ =>
        (session.reconcileDeclaredTotal range.total).map fun session =>
          let written : UploadSession Config :=
            { session.writeChunk chunk with lastActiveAt := now }
          (written, written.isSessionComplete range.endInclusive range.total)

/-- One chunk: the manager after it, and the session with whether it is complete. -/
def append (chunk : List UInt8) (contentRange : Option String) :
    UploadSessionManager Config × Except DomainError (UploadSession Config × Bool) :=
  match m.get now sessionId with
  | (m, .error e) => (m, .error e)
  | (m, .ok session) =>
    match receive session m.maxBytes now chunk contentRange with
    | .error e => (m, .error e)
    | .ok (session, complete) =>
      ({ m with sessions := m.sessions.put session }, .ok (session, complete))

def remove : UploadSessionManager Config :=
  { m with sessions := m.sessions.erase sessionId }

end UploadSessionManager

/-! ## What a chunk does -/

variable {total : Option Nat} {session' : UploadSession Config}

namespace UploadSession

variable {session : UploadSession Config} {maxBytes : Nat} {now : Int} {chunk : List UInt8}
  {range : ContentRange}

/-- **The chunks that pass the checks**: the start is where the file ends, the sizes are within the
cap, the total is the one declared. -/
structure Accepts (session : UploadSession Config) (maxBytes : Nat) (range : ContentRange)
    (chunk : List UInt8) : Prop where
  offset : ∀ start, range.start = some start → start = session.receivedBytes
  fits : session.receivedBytes + chunk.length ≤ maxBytes
  totalFits : ∀ total, range.total = some total → total ≤ maxBytes
  agrees : ∀ total declared, range.total = some total →
    session.declaredTotalBytes = some declared → declared = total

def extend (session : UploadSession Config) (range : ContentRange) (chunk : List UInt8)
    (now : Int) : UploadSession Config :=
  { session with
    staged := session.staged ++ chunk
    receivedBytes := session.receivedBytes + chunk.length
    declaredTotalBytes := session.declaredTotalBytes.or range.total
    lastActiveAt := now }

def complete (session : UploadSession Config) : Bool :=
  session.declaredTotalBytes.any (· ≤ session.receivedBytes)

theorem complete_iff : session.complete ↔
    ∃ total, session.declaredTotalBytes = some total ∧ total ≤ session.receivedBytes := by
  simp [complete, Option.any_eq_true]

attribute [local simp] verifyOffsetMatches verifySizeCaps reconcileDeclaredTotal
  isSessionComplete complete

theorem verifyOffsetMatches_eq_ok {start : Option Nat} {u : Unit} :
    session.verifyOffsetMatches start = .ok u ↔
      ∀ s, start = some s → s = session.receivedBytes := by
  rcases start with _ | start
  · simp
  · by_cases h : start = session.receivedBytes <;> simp

theorem verifySizeCaps_eq_ok {u : Unit} :
    session.verifySizeCaps maxBytes chunk total = .ok u ↔
      session.receivedBytes + chunk.length ≤ maxBytes ∧ ∀ t, total = some t → t ≤ maxBytes := by
  by_cases h : maxBytes < session.receivedBytes + chunk.length
  · simp [h]
  rcases total with _ | total
  · simp
  · by_cases ht : maxBytes < total
    · simp [h, ht]
    · simp [h, Nat.not_lt.1 h]

theorem reconcileDeclaredTotal_eq_ok :
    session.reconcileDeclaredTotal total = .ok session' ↔
      (∀ t declared, total = some t → session.declaredTotalBytes = some declared →
        declared = t) ∧
      session' = { session with declaredTotalBytes := session.declaredTotalBytes.or total } := by
  rcases session with ⟨id, p, c, s, received, declared, a⟩
  rcases total with _ | total
  · simp [eq_comm]
  · rcases declared with _ | declared
    · simp [eq_comm]
    · by_cases h : declared = total <;> simp [h, eq_comm]

theorem writeChunk_eq : session.writeChunk chunk = { session with
    staged := session.staged ++ chunk, receivedBytes := session.receivedBytes + chunk.length } := by
  by_cases h : chunk = [] <;> simp [writeChunk, h]

theorem isSessionComplete_extend :
    (session.extend range chunk now).isSessionComplete range.endInclusive range.total =
      (session.extend range chunk now).complete := by
  rcases hd : session.declaredTotalBytes with _ | declared
  · rcases ht : range.total with _ | total
    · cases range.endInclusive <;> simp [extend, hd, ht]
    · simp [extend, ht]
  · simp [extend, hd]

end UploadSession

namespace UploadSessionManager

open UploadSession

variable {m : UploadSessionManager Config} {session : UploadSession Config} {now : Int}
  {chunk : List UInt8} {header : Option String}

/-- What the manager answers to a request for a session. -/
theorem get_cases (m : UploadSessionManager Config) (n : Int) (s : String) :
    (∃ e, m.get n s = (m, .error e)) ∨
      (∃ e, m.get n s = (m.evictExpired n, .error e)) ∨
      ∃ session, isUploadId s ∧
        (m.evictExpired n).sessions.get? s = some session ∧
        m.get n s = (m.evictExpired n, .ok session) := by
  unfold get
  by_cases hi : isUploadId s
  · rw [if_neg (by simp [hi])]
    rcases hl : (m.evictExpired n).sessions.get? s with _ | session
    · exact .inr (.inl ⟨_, rfl⟩)
    · exact .inr (.inr ⟨session, hi, rfl, rfl⟩)
  · rw [if_pos (by simp [hi])]
    exact .inl ⟨_, rfl⟩

/-- A chunk is received when its header is well formed and the chunk passes the checks. -/
theorem receive_eq_ok {m : Nat} {complete : Bool} :
    receive session m now chunk header = .ok (session', complete) ↔
      ∃ range, extractRangeFields header = .ok range ∧ session.Accepts m range chunk ∧
        session' = session.extend range chunk now ∧ complete = session'.complete := by
  simp only [receive, Except.bind_eq_ok_iff, Except.map_eq_ok_iff, verifyOffsetMatches_eq_ok,
    verifySizeCaps_eq_ok, reconcileDeclaredTotal_eq_ok]
  constructor
  · rintro ⟨range, hr, _, ho, _, ⟨hf, ht⟩, s₁, ⟨ha, rfl⟩, heq⟩
    rw [Prod.mk.injEq, writeChunk_eq] at heq
    obtain ⟨rfl, rfl⟩ := heq
    exact ⟨range, hr, ⟨ho, hf, ht, ha⟩, rfl, isSessionComplete_extend⟩
  · rintro ⟨range, hr, ⟨ho, hf, ht, ha⟩, rfl, rfl⟩
    refine ⟨range, hr, (), ho, (), ⟨hf, ht⟩, _, ⟨ha, rfl⟩, ?_⟩
    rw [writeChunk_eq, Prod.mk.injEq]
    exact ⟨rfl, isSessionComplete_extend⟩

end UploadSessionManager

end Bqemulator
