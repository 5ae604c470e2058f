import Bqemulator.Lib.Tiling

/-!
# Read sessions

A read session holds the result of its query and a list of streams, each a range of rows of the
result. A client reads the session by reading its streams.
-/

namespace Bqemulator

variable {Row : Type}

/-- A range of rows of a session's result. -/
structure ReadStream where
  name : String
  startRow : Nat
  endRow : Nat
deriving DecidableEq

/-- **A session**: the result of its query, and its streams. -/
structure ReadSessionState (Row : Type) where
  sessionName : String
  table : List Row
  streams : List ReadStream
deriving DecidableEq

def smallTableByteThreshold : Nat := 1000000

def computeStreamLayout (numRows tableBytes : Nat) (maxStreams : Int) : Nat × Nat :=
  let requested := (max maxStreams 1).toNat
  let effectiveStreams :=
    if tableBytes < smallTableByteThreshold then (if numRows > 0 then 1 else 0)
    else min (min requested 10) (max numRows 1)
  (effectiveStreams, if effectiveStreams > 0 then max (numRows / effectiveStreams) 1 else 0)

/-- The streams with the given numbers, up to the first that would start past the end. The last one
takes the remainder. -/
def buildStreamsFrom (sessionName : String) (effectiveStreams chunkSize numRows : Nat) :
    List Nat → List ReadStream
  | [] => []
  | i :: rest =>
    if i * chunkSize ≥ numRows then []
    else
      { name := sessionName ++ "/streams/" ++ toString i
        startRow := i * chunkSize
        endRow := if i < effectiveStreams - 1 then (i + 1) * chunkSize else numRows } ::
        buildStreamsFrom sessionName effectiveStreams chunkSize numRows rest

def buildStreams (sessionName : String) (effectiveStreams chunkSize numRows : Nat) :
    List ReadStream :=
  buildStreamsFrom sessionName effectiveStreams chunkSize numRows (List.range effectiveStreams)

/-- The session of a result. -/
def createReadSession (sessionName : String) (table : List Row) (tableBytes : Nat)
    (maxStreams : Int) : ReadSessionState Row :=
  let (effectiveStreams, chunkSize) := computeStreamLayout table.length tableBytes maxStreams
  { sessionName
    table
    streams := buildStreams sessionName effectiveStreams chunkSize table.length }

variable (state : ReadSessionState Row)

def ReadSessionState.streamData (stream : ReadStream) : List Row :=
  (state.table.drop stream.startRow).take (stream.endRow - stream.startRow)

def ReadSessionState.readAll : List Row :=
  state.streams.flatMap state.streamData

/-! ## The layout of the streams -/

theorem computeStreamLayout_fits {n t s c : Nat} {m : Int}
    (h : computeStreamLayout n t m = (s, c)) :
    (s = 0 → n = 0) ∧ (s - 1) * c ≤ n := by
  simp only [computeStreamLayout, Prod.mk.injEq] at h
  obtain ⟨hs, hch⟩ := h
  rw [hs] at hch
  have hc : (s = 0 → n = 0) ∧ (0 < n → s ≤ n) ∧
      (n = 0 → s ≤ 1) := by
    split at hs
    · split at hs <;> omega
    · omega
  refine ⟨hc.1, ?_⟩
  rcases Nat.eq_zero_or_pos n with hr | hr
  · have ho : s - 1 = 0 := by have := hc.2.2 hr; omega
    rw [ho, Nat.zero_mul]
    exact Nat.zero_le _
  -- there are no more streams than rows, so that the quotient is the size of a stream
  have hp : 0 < s := by
    rcases Nat.eq_zero_or_pos s with hz | hp
    · exact absurd (hc.1 hz) (by omega)
    · exact hp
  have hq : 1 ≤ n / s := (Nat.one_le_div_iff hp).2 (hc.2.1 hr)
  rw [if_pos hp, Nat.max_eq_left hq] at hch
  calc (s - 1) * c ≤ s * (n / s) := by
        rw [← hch]; exact Nat.mul_le_mul_right _ (Nat.sub_le _ _)
    _ ≤ n := Nat.mul_div_le _ _

variable (sessionName : String)

theorem tiles_buildStreamsFrom (c n count : Nat) :
    ∀ i, (i + count) * c ≤ n →
      Tiling.Tiles ReadStream.startRow ReadStream.endRow (i * c) n
        (buildStreamsFrom sessionName (i + (count + 1)) c n
          (List.range' i (count + 1))) := by
  induction count with
  | zero =>
    intro i hf
    rw [List.range'_one, buildStreamsFrom]
    split
    · exact Nat.le_antisymm hf ‹_›
    · have hl : ¬ i < i + (0 + 1) - 1 := by omega
      simp only [hl]
      exact ⟨rfl, hf, rfl⟩
  | succ count ih =>
    intro i hf
    have hn : (i + 1 + count) * c ≤ n := by
      rwa [show i + 1 + count = i + (count + 1) by omega]
    have hle : i * c ≤ (i + 1) * c := Nat.mul_le_mul_right _ (Nat.le_succ i)
    have hb : (i + 1) * c ≤ n :=
      (Nat.mul_le_mul_right _ (by omega)).trans hn
    rw [List.range'_succ, buildStreamsFrom]
    split
    · exact Nat.le_antisymm (hle.trans hb) ‹_›
    have hr := ih (i + 1) hn
    rw [show i + 1 + (count + 1) = i + (count + 1 + 1) by omega] at hr
    have hl : i < i + (count + 1 + 1) - 1 := by omega
    simp only [hl]
    exact ⟨rfl, hle, hr⟩

/-- The streams of a session are laid end to end over its result. -/
theorem tiles_createReadSession (t : List Row) (bytes : Nat) (m : Int) :
    Tiling.Tiles ReadStream.startRow ReadStream.endRow 0 t.length
      (createReadSession sessionName t bytes m).streams := by
  rcases hl : computeStreamLayout t.length bytes m with ⟨streams, c⟩
  obtain ⟨hn, hf⟩ := computeStreamLayout_fits hl
  simp only [createReadSession, hl]
  cases streams with
  | zero => exact (hn rfl).symm
  | succ count =>
    have h := tiles_buildStreamsFrom sessionName c t.length count 0 (by simpa using hf)
    rwa [Nat.zero_add, Nat.zero_mul, ← List.range_eq_range'] at h

/-- A session serves its result: reading every stream gives each row once, in order. -/
theorem ReadSessionState.readAll_createReadSession (t : List Row) (bytes : Nat)
    (m : Int) :
    (createReadSession sessionName t bytes m).readAll = t := by
  have h := (tiles_createReadSession sessionName t bytes m).flatMap_slice t
  rw [List.drop_zero, Nat.sub_zero, List.take_length] at h
  exact h

end Bqemulator
