import Mathlib

/-!
# The text of a range

A `RANGE` goes over the wire as `[start, end)`. Timestamps are numbers of microseconds, which go
through a floating-point number of seconds; a column of timestamps is written in integer arithmetic.
-/

namespace Bqemulator

def unbounded : List Char := "UNBOUNDED".toList

/-- **A notation for values**: they are written without a comma, and read back. -/
structure TextForm (α : Type) where
  write : α → List Char
  read : List Char → Option α
  read_write : ∀ a, read (write a) = some a
  comma_notMem : ∀ a, ',' ∉ write a
  write_ne : ∀ a, write a ≠ unbounded

theorem isDigit_of_mem_toString {m : ℤ} {c : Char} (h : c ∈ (toString m).toList) :
    c.isDigit ∨ c = '-' := by
  have hna {n : ℕ} (hn : c ∈ n.repr.toList) : c.isDigit :=
    Nat.isDigit_of_mem_toDigits (by simp) le_rfl (Nat.toList_repr ▸ hn)
  cases m with
  | ofNat n => exact .inl (hna h)
  | negSucc n =>
    rcases List.mem_cons.1 (show c ∈ '-' :: (n + 1).repr.toList by simpa [Int.repr] using h) with
      rfl | hn
    · exact .inr rfl
    · exact .inl (hna hn)

/-- `str` and `int` -/
def intText : TextForm ℤ where
  write m := (toString m).toList
  read t := (String.ofList t).toInt?
  read_write m := by
    rw [String.ofList_toList]
    exact m.toInt?_repr
  comma_notMem m h := absurd (isDigit_of_mem_toString h) (by decide)
  write_ne m h :=
    absurd (isDigit_of_mem_toString (h ▸ by decide : 'U' ∈ (toString m).toList)) (by decide)

/-- A range, with endpoints that may be unbounded. A timestamp is its microseconds since the
epoch. -/
inductive RangeValue (Date Datetime : Type) where
  | date (start stop : Option Date)
  | datetime (start stop : Option Datetime)
  | timestamp (start stop : Option ℤ)

/-- **The surroundings**: `isoformat`, and rounding to the nearest double, which keeps whole numbers
of at most 53 binary digits and some zeros. -/
structure RangeWire (Date Datetime : Type) where
  date : TextForm Date
  datetime : TextForm Datetime
  double : ℚ → ℚ
  double_eq : ∀ (n : ℤ) (k : ℕ), |n| ≤ 2 ^ 53 → k ≤ 900 → double (n * 2 ^ k) = n * 2 ^ k

section Text

variable {α : Type} (T : TextForm α)

def formatRangeEndpoint : Option α → List Char
  | none => unbounded
  | some a => T.write a

def rangeText (start stop : Option α) : List Char :=
  '[' :: (formatRangeEndpoint T start ++ ',' :: ' ' :: formatRangeEndpoint T stop ++ [')'])

/-- How a client reads an endpoint. -/
def readEndpoint (text : List Char) : Option (Option α) :=
  if text = unbounded then some none else (T.read text).map some

/-- How a client reads a range: between the brackets, on both sides of the comma. -/
def readRange (text : List Char) : Option (Option α × Option α) := do
  let inner := text.tail.dropLast
  let start ← readEndpoint T (inner.takeWhile (· ≠ ','))
  let stop ← readEndpoint T ((inner.dropWhile (· ≠ ',')).drop 2)
  return (start, stop)

theorem readEndpoint_format (x : Option α) : readEndpoint T (formatRangeEndpoint T x) = some x := by
  cases x with
  | none => exact if_pos rfl
  | some a =>
    rw [formatRangeEndpoint, readEndpoint, if_neg (T.write_ne a), T.read_write, Option.map_some]

theorem readRange_rangeText (start s : Option α) :
    readRange T (rangeText T start s) = some (start, s) := by
  have hn : ',' ∉ formatRangeEndpoint T start := by
    cases start with
    | none => exact show ',' ∉ unbounded by decide
    | some a => exact T.comma_notMem a
  -- so the first comma is the one between the endpoints
  have hco : ∀ c ∈ formatRangeEndpoint T start, decide (c ≠ ',') = true := fun c hc =>
    decide_eq_true fun h => hn (h ▸ hc)
  rw [readRange, rangeText, List.tail_cons, List.dropLast_concat,
    List.takeWhile_append_of_pos hco, List.dropWhile_append_of_pos hco]
  simp [readEndpoint_format]

end Text

variable {Date Datetime : Type} (W : RangeWire Date Datetime)

namespace RangeWire

/-- `int(ts.timestamp() * 1_000_000)` -/
def timestampMicros (m : ℤ) : ℤ :=
  let x := W.double (W.double (m / 10 ^ 6) * 10 ^ 6)
  if 0 ≤ x then ⌊x⌋ else ⌈x⌉

/-- The text of a range. -/
def formatRangeValue : RangeValue Date Datetime → List Char
  | .date start stop => rangeText W.date start stop
  | .datetime start stop => rangeText W.datetime start stop
  | .timestamp start stop =>
    rangeText intText (start.map W.timestampMicros) (stop.map W.timestampMicros)

end RangeWire

/-- The text of a timestamp in a column of its own. -/
def fmtBqTimestamp (m : ℤ) : List Char :=
  let days := m / 86400000000
  let seconds := m % 86400000000 / 1000000
  intText.write (days * 86400000000 + seconds * 1000000 + m % 1000000)

/-- **The text of a range determines it**, and a timestamp in it is written as in a column. -/
def RangeValue.Determined : RangeValue Date Datetime → Prop
  | .date start stop =>
    readRange W.date (W.formatRangeValue (.date start stop)) = some (start, stop)
  | .datetime start stop =>
    readRange W.datetime (W.formatRangeValue (.datetime start stop)) = some (start, stop)
  | .timestamp start stop =>
    readRange intText (W.formatRangeValue (.timestamp start stop)) = some (start, stop) ∧
      ∀ m ∈ start.toList ++ stop.toList, intText.write (W.timestampMicros m) = fmtBqTimestamp m

def RangeValue.timestamps : RangeValue Date Datetime → List ℤ
  | .timestamp start stop => start.toList ++ stop.toList
  | _ => []

variable {W}

theorem fmtBqTimestamp_eq (m : ℤ) : fmtBqTimestamp m = intText.write m := by
  refine congrArg intText.write ?_
  omega

/-- The text of a range determines it if the floating-point numbers keep the microseconds of its
timestamps. -/
theorem RangeValue.determined_of_micros {v : RangeValue Date Datetime}
    (h : ∀ m ∈ v.timestamps, W.timestampMicros m = m) : v.Determined W := by
  cases v with
  | date start stop | datetime start stop =>
    simp [Determined, RangeWire.formatRangeValue, readRange_rangeText]
  | timestamp start stop =>
    have hk (x : Option ℤ) (hx : ∀ m ∈ x.toList, W.timestampMicros m = m) :
        x.map W.timestampMicros = x := by
      cases x <;> simp_all
    obtain ⟨hs, he⟩ := List.forall_mem_append.1 h
    refine ⟨?_, fun m hm => ?_⟩
    · rw [RangeWire.formatRangeValue, hk start hs, hk stop he, readRange_rangeText]
    · rw [fmtBqTimestamp_eq, h m hm]

/-- The microseconds of a whole second have six binary zeros at the end. -/
theorem double_seconds {k : ℤ} (h : |k| ≤ 2 ^ 38) :
    W.double k = k ∧ W.double (k * 10 ^ 6) = (k * 10 ^ 6 : ℤ) := by
  constructor
  · simpa using W.double_eq k 0 (h.trans (by norm_num)) (by norm_num)
  · have hb : |k * 15625| ≤ 2 ^ 53 := by
      rw [abs_mul]
      norm_num at h ⊢
      omega
    have heq := W.double_eq (k * 15625) 6 hb (by norm_num)
    norm_num [mul_assoc] at heq ⊢
    exact heq

/-- Where neither rounding changes anything, the microseconds stay as they are. -/
theorem timestampMicros_of_exact {k : ℤ}
    (h : W.double k = k ∧ W.double (k * 10 ^ 6) = (k * 10 ^ 6 : ℤ)) :
    W.timestampMicros (k * 10 ^ 6) = k * 10 ^ 6 := by
  have hs : ((k * 10 ^ 6 : ℤ) / 10 ^ 6 : ℚ) = k := by
    push_cast
    exact mul_div_cancel_right₀ _ (by norm_num)
  rw [RangeWire.timestampMicros, hs, h.1, h.2, Int.floor_intCast, Int.ceil_intCast, ite_self]

/-- **The text of a range determines it** if its timestamps are whole seconds, among them all of the
years 1 to 9999. -/
theorem RangeValue.determined_seconds (v : RangeValue Date Datetime)
    (h : ∀ m ∈ v.timestamps, ∃ k : ℤ, |k| ≤ 2 ^ 38 ∧ m = k * 10 ^ 6) : v.Determined W := by
  refine determined_of_micros fun m hm => ?_
  obtain ⟨k, hk, rfl⟩ := h m hm
  exact timestampMicros_of_exact (double_seconds hk)

/-- **Whole seconds survive** the two roundings. -/
theorem timestampMicros_seconds {k : ℤ} (h : |k| ≤ 2 ^ 38) :
    W.timestampMicros (k * 10 ^ 6) = k * 10 ^ 6 :=
  timestampMicros_of_exact (double_seconds h)

/-- A notation for a type of one value. -/
def unitText : TextForm Unit :=
  ⟨fun _ => [], fun _ => some (), fun _ => rfl, by simp, fun _ => by decide⟩

theorem timestampMicros_seconds_one :
    (⟨unitText, unitText, id, fun _ _ _ _ => rfl⟩ : RangeWire Unit Unit).timestampMicros
      (1 * 10 ^ 6) = 1 * 10 ^ 6 := by
  exact timestampMicros_seconds (by norm_num)

/-- The doubles that occur with 249 microseconds. -/
def doubleOf249 (q : ℚ) : ℚ :=
  if q = 249 / 10 ^ 6 then 2296619637176839 / 2 ^ 63
  else if q = 2296619637176839 / 2 ^ 63 * 10 ^ 6 then 8760908650119167 / 2 ^ 45 else q

theorem doubleOf249_int (n : ℤ) : doubleOf249 n = n := by
  have hs : (n : ℚ) ≠ 249 / 10 ^ 6 := by
    rw [ne_eq, eq_div_iff (by norm_num)]
    norm_cast
    omega
  have hp : (n : ℚ) ≠ 2296619637176839 / 2 ^ 63 * 10 ^ 6 := by
    rw [ne_eq, div_mul_eq_mul_div, eq_div_iff (by norm_num)]
    norm_cast
    omega
  rw [doubleOf249, if_neg hs, if_neg hp]

def wireOf249 : RangeWire Unit Unit :=
  ⟨unitText, unitText, doubleOf249, fun n k _ _ => by exact_mod_cast doubleOf249_int (n * 2 ^ k)⟩

/-- The range from the first second of 1970 to the first second of the year 10000. -/
theorem determined_seconds_years :
    RangeValue.Determined wireOf249 (.timestamp (some 0) (some (253402300800 * 10 ^ 6))) := by
  refine RangeValue.determined_seconds _ fun m hm => ?_
  rcases List.mem_cons.1 hm with rfl | hm
  · exact ⟨0, by norm_num, rfl⟩
  · exact ⟨253402300800, by norm_num, List.mem_singleton.1 hm⟩

/-- 249 microseconds are written as 248: neither the seconds nor their million-fold are doubles. -/
theorem not_determined_micros :
    ¬ RangeValue.Determined wireOf249 (.timestamp (some 249) none) := by
  intro h
  have hm : wireOf249.timestampMicros 249 = 248 := by
    norm_num [RangeWire.timestampMicros, wireOf249, doubleOf249, Int.floor_eq_iff]
  have hc := h.2 249 (by simp)
  rw [hm] at hc
  exact absurd hc (by decide)

end Bqemulator
