import Mathlib

/-!
# The text of an interval

An interval is sent as `Y-M D H:M:S` with one sign for all of it, which is `-` if any of its parts
is negative. What is read back has that sign in every part.
-/

namespace Bqemulator

open List

/-- Separators, and numerals with the digits after their point. -/
inductive Piece where
  | numeral (whole : ℕ) (fraction : List ℕ)
  | plus
  | dash
  | space
  | colon
deriving DecidableEq

/-! ## Writing -/

/-- The digits of `{micro:06d}`. -/
def microDigits (micro : ℕ) : List ℕ :=
  [micro / 100000, micro / 10000 % 10, micro / 1000 % 10, micro / 100 % 10, micro / 10 % 10,
    micro % 10]

/-- The text of an interval. -/
def formatBqInterval (months days nanoseconds : ℤ) : List Piece :=
  let sign := if months < 0 ∨ days < 0 ∨ nanoseconds < 0 then [Piece.dash] else []
  let m := months.natAbs
  let totalSeconds := nanoseconds.natAbs / 1000000000
  let fracNanos := nanoseconds.natAbs % 1000000000
  let remSeconds := totalSeconds % 3600
  -- the zeros at the end are stripped, and the point with them
  let fraction :=
    if fracNanos ≠ 0 then (microDigits (fracNanos / 1000)).rdropWhile (· = 0) else []
  sign ++ [.numeral (m / 12) [], .dash, .numeral (m % 12) [], .space, .numeral days.natAbs [],
    .space, .numeral (totalSeconds / 3600) [], .colon, .numeral (remSeconds / 60) [], .colon,
    .numeral (remSeconds % 60) fraction]

/-! ## Reading -/

inductive IntervalField where
  | years | months | days | hours | minutes | seconds
deriving DecidableEq

inductive IntervalSpan where
  | yearToSecond | dayToSecond | hourToSecond | hourToMinute | yearToMonth | day

open IntervalField in
def IntervalSpan.fields : IntervalSpan → List IntervalField
  | .yearToSecond => [years, months, days, hours, minutes, seconds]
  | .dayToSecond => [days, hours, minutes, seconds]
  | .hourToSecond => [hours, minutes, seconds]
  | .hourToMinute => [hours, minutes]
  | .yearToMonth => [years, months]
  | .day => [days]

structure IntervalParts where
  years : ℤ := 0
  months : ℤ := 0
  days : ℤ := 0
  hours : ℤ := 0
  minutes : ℤ := 0
  seconds : ℚ := 0

def fractionValue (digits : List ℕ) : ℚ :=
  digits.foldr (fun (digit : ℕ) (value : ℚ) => (digit + value) / 10) 0

/-- `Decimal(raw)`. -/
def readDecimal : List Piece → Option ℚ
  | [.numeral whole fraction] => some (whole + fractionValue fraction)
  | [.plus, .numeral whole fraction] => some (whole + fractionValue fraction)
  | [.dash, .numeral whole fraction] => some (-(whole + fractionValue fraction))
  | _ => none

/-- `int(raw)`. -/
def readInt : List Piece → Option ℤ
  | [.numeral whole []] => some whole
  | [.plus, .numeral whole []] => some whole
  | [.dash, .numeral whole []] => some (-whole)
  | _ => none

def IntervalParts.put (out : IntervalParts) (raw : List Piece) :
    IntervalField → Option IntervalParts
  | .years => (readInt raw).map fun x => { out with years := x }
  | .months => (readInt raw).map fun x => { out with months := x }
  | .days => (readInt raw).map fun x => { out with days := x }
  | .hours => (readInt raw).map fun x => { out with hours := x }
  | .minutes => (readInt raw).map fun x => { out with minutes := x }
  | .seconds => (readDecimal raw).map fun x => { out with seconds := x }

section Blocks

variable (fields : List IntervalField) (out : IntervalParts)

def consumeYearMonthBlock : List (List Piece) → Option (IntervalParts × List (List Piece))
  | [] => some (out, [])
  | token :: rest =>
    if .years ∉ fields ∧ .months ∉ fields then some (out, token :: rest)
    else if .years ∈ fields ∧ .months ∈ fields ∧ .dash ∈ token ∧ token.head? ≠ some .dash then
      (out.put (token.takeWhile (· ≠ .dash)) .years).bind fun out =>
        (out.put (token.dropWhile (· ≠ .dash)).tail .months).map (·, rest)
    else (out.put token (if .years ∈ fields then .years else .months)).map (·, rest)

def consumeDayBlock : List (List Piece) → Option (IntervalParts × List (List Piece))
  | [] => some (out, [])
  | token :: rest =>
    if .days ∉ fields ∨ .colon ∈ token then some (out, token :: rest)
    else (out.put token .days).map (·, rest)

def consumeTimeBlock : List (List Piece) → Option (IntervalParts × List (List Piece))
  | [] => some (out, [])
  | token :: rest =>
    match [.hours, .minutes, .seconds].filter (· ∈ fields) with
    | [] => some (out, token :: rest)
    | [field] => (out.put token field).map (·, rest)
    | timeFields =>
      let segs := token.splitOn Piece.colon
      if .colon ∉ token ∨ timeFields.length < segs.length then none
      else ((timeFields.zip segs).foldlM (fun (out : IntervalParts) x => out.put x.2 x.1) out).map
        (·, rest)

end Blocks

def consumeBlocks (blocks : List (List Piece)) (fields : List IntervalField) :
    Option IntervalParts := do
  let (out, blocks) ← consumeYearMonthBlock fields {} blocks
  let (out, blocks) ← consumeDayBlock fields out blocks
  let (out, blocks) ← consumeTimeBlock fields out blocks
  if blocks = [] then some out else none

def splitBlocks (raw : List Piece) : List (List Piece) := (raw.splitOn .space).filter (· ≠ [])

/-- A leading `-` is the sign of every part. -/
def parseIntervalLiteral (literal : List Piece) (span : IntervalSpan) : Option IntervalParts :=
  let sign : ℤ := if literal.head? = some .dash then -1 else 1
  let raw := if literal.head? = some .dash then literal.tail else literal
  let parts : Option IntervalParts := match span with
    | .day => ({} : IntervalParts).put raw .days
    | _ => if splitBlocks raw = [] then none else consumeBlocks (splitBlocks raw) span.fields
  parts.map fun p => ⟨p.years * sign, p.months * sign, p.days * sign, p.hours * sign,
    p.minutes * sign, p.seconds * sign⟩

/-- Which of the forms a text has. -/
def detectIntervalForm (cleaned : List Piece) : IntervalSpan :=
  let signless := cleaned.dropWhile fun x => x = .plus ∨ x = .dash
  match decide (.space ∈ signless), decide (.colon ∈ signless), decide (.dash ∈ signless) with
  | true, true, _ =>
    if .dash ∈ (splitBlocks signless).headD [] then .yearToSecond else .dayToSecond
  | false, true, false => if signless.count .colon = 2 then .hourToSecond else .hourToMinute
  | false, false, true => .yearToMonth
  | _, _, _ => .day

/-- The months, days and microseconds of a text. -/
def bqIntervalStringToTuple (text : List Piece) : Option (ℤ × ℤ × ℤ) :=
  (parseIntervalLiteral text (detectIntervalForm text)).map fun p =>
    let nanos := p.seconds * 1000000000
    (p.years * 12 + p.months, p.days,
      p.hours * 3600 * 1000000000 + p.minutes * 60 * 1000000000 + nanos.num.tdiv nanos.den)

/-! ## Reading back what was written -/

theorem fractionValue_rdropWhile (l : List ℕ) :
    fractionValue (l.rdropWhile (· = 0)) = fractionValue l := by
  induction l using reverseRecOn with
  | nil => rfl
  | append_singleton l d ih =>
    rw [rdropWhile_concat]
    split
    · rename_i hd
      rw [ih]
      simp [fractionValue, of_decide_eq_true hd]
    · rfl

theorem fractionValue_microDigits (m : ℕ) :
    fractionValue (microDigits m) = (m : ℚ) / 1000000 := by
  have h : m = 100000 * (m / 100000) + 10000 * (m / 10000 % 10) +
      1000 * (m / 1000 % 10) + 100 * (m / 100 % 10) + 10 * (m / 10 % 10) +
      m % 10 := by omega
  have hq := congrArg (Nat.cast (R := ℚ)) h
  push_cast at hq
  simp only [microDigits, fractionValue, foldr_cons, foldr_nil]
  linarith

/-- What is read for the parts of the text. -/
theorem bqIntervalStringToTuple_pieces (n : Bool) (y mo d h mi s : ℕ) (f : List ℕ) :
    bqIntervalStringToTuple ((if n then [Piece.dash] else []) ++
      [.numeral y [], .dash, .numeral mo [], .space, .numeral d [], .space, .numeral h [], .colon,
        .numeral mi [], .colon, .numeral s f]) =
      let sign : ℤ := if n then -1 else 1
      let nanos := (s + fractionValue f) * sign * 1000000000
      some (y * sign * 12 + mo * sign, d * sign, h * sign * 3600 * 1000000000 +
        mi * sign * 60 * 1000000000 + nanos.num.tdiv nanos.den) := by
  cases n <;> rfl

/-- Whole microseconds make whole nanoseconds. -/
theorem nanos_tdiv (s m : ℕ) (sign : ℤ) :
    let nanos : ℚ := (s + (m : ℚ) / 1000000) * sign * 1000000000
    nanos.num.tdiv nanos.den = (s * 1000000000 + m * 1000) * sign := by
  intro nanos
  have h : nanos = (((s * 1000000000 + m * 1000) * sign : ℤ) : ℚ) := by
    push_cast
    ring
  rw [h, Rat.num_intCast, Rat.den_intCast]
  exact Int.tdiv_one _

theorem bqIntervalStringToTuple_format (m d : ℤ) {n : ℤ} (hn : 1000 ∣ n) :
    bqIntervalStringToTuple (formatBqInterval m d n) =
      let sign : ℤ := if m < 0 ∨ d < 0 ∨ n < 0 then -1 else 1
      some (m.natAbs * sign, d.natAbs * sign, n.natAbs * sign) := by
  have hp := bqIntervalStringToTuple_pieces (decide (m < 0 ∨ d < 0 ∨ n < 0))
  have hf : ∀ f, fractionValue (if f ≠ 0 then
      (microDigits (f / 1000)).rdropWhile (· = 0) else []) = (f / 1000 : ℕ) / 1000000 := by
    intro f
    split
    · rw [fractionValue_rdropWhile, fractionValue_microDigits]
    · rename_i h
      simp [not_not.1 h, fractionValue]
  simp only [decide_eq_true_eq] at hp
  unfold formatBqInterval
  simp only [hp, hf, nanos_tdiv, Option.some.injEq, Prod.mk.injEq]
  by_cases hne : m < 0 ∨ d < 0 ∨ n < 0
  · simp only [if_pos hne]
    refine ⟨?_, trivial, ?_⟩ <;> omega
  · simp only [if_neg hne]
    refine ⟨?_, trivial, ?_⟩ <;> omega

/-- **Reading back an interval**: an interval of whole microseconds is read back from its text iff
its parts do not differ in sign. -/
theorem bqIntervalStringToTuple_format_iff (m d : ℤ) {n : ℤ} (hn : 1000 ∣ n) :
    bqIntervalStringToTuple (formatBqInterval m d n) = some (m, d, n) ↔
      (0 ≤ m ∧ 0 ≤ d ∧ 0 ≤ n) ∨ (m ≤ 0 ∧ d ≤ 0 ∧ n ≤ 0) := by
  rw [bqIntervalStringToTuple_format m d hn]
  simp only [Option.some.injEq, Prod.mk.injEq]
  split <;> omega

theorem bqIntervalStringToTuple_format_ago :
    bqIntervalStringToTuple (formatBqInterval (-14) (-3) (-4500000000)) =
      some (-14, -3, -4500000000) :=
  (bqIntervalStringToTuple_format_iff (-14) (-3) (by decide)).2 (.inr (by decide))

/-- **A month less a day** is read back as a month and a day, both negative. -/
theorem bqIntervalStringToTuple_format_mixed :
    bqIntervalStringToTuple (formatBqInterval 1 (-1) 0) = some (-1, -1, 0) ∧
      bqIntervalStringToTuple (formatBqInterval 1 (-1) 0) ≠ some (1, -1, 0) := by
  decide +kernel

end Bqemulator
