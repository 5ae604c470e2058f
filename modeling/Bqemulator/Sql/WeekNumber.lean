import Mathlib

/-!
# Week numbers

BigQuery counts weeks from the Sundays of a year, DuckDB by ISO 8601. `EXTRACT(WEEK FROM x)` becomes
a formula over the day of the year and the weekday of 1 January, which misses the first week of a
year that begins with a Sunday.
-/

namespace Bqemulator

/-! ## Dates -/

def isLeapYear (year : Nat) : Bool := year % 4 = 0 && (year % 100 ≠ 0 || year % 400 = 0)

def daysIn (year : Nat) : Nat := if isLeapYear year then 366 else 365

/-- Days of the proleptic Gregorian calendar. -/
structure Date where
  year : Nat
  dayOfYear : Nat
  year_pos : 0 < year
  year_le : year ≤ 9999
  dayOfYear_pos : 0 < dayOfYear
  dayOfYear_le : dayOfYear ≤ daysIn year

namespace Date

variable (d : Date)

def dayNumber : Nat :=
  let y := d.year - 1
  365 * y + y / 4 - y / 100 + y / 400 + d.dayOfYear

def dayOfWeek : Nat := d.dayNumber % 7

def yearStart : Date where
  year := d.year
  dayOfYear := 1
  year_pos := d.year_pos
  year_le := d.year_le
  dayOfYear_pos := Nat.one_pos
  dayOfYear_le := Nat.le_trans d.dayOfYear_pos d.dayOfYear_le

theorem yearStart_dayOfWeek_lt : d.yearStart.dayOfWeek < 7 := Nat.mod_lt _ (by omega)

theorem yearStart_congr {d e : Date} (h : d.year = e.year) : d.yearStart = e.yearStart := by
  simp only [yearStart, h]

end Date

/-! ## The rules -/

inductive DatePart where
  | week
  | dayofweek
  | doy
deriving DecidableEq

inductive DateExpr where
  | operand
  | dateTruncYear (e : DateExpr)
deriving DecidableEq

inductive PartExpr where
  | extract (part : DatePart) (e : DateExpr)
  | number (n : Int)
  | add (a b : PartExpr)
  | sub (a b : PartExpr)
  | intDiv (a b : PartExpr)
  | paren (a : PartExpr)
deriving DecidableEq

def extractDayofweek : PartExpr → Option PartExpr
  | .extract .dayofweek e => some (.paren (.add (.extract .dayofweek e) (.number 1)))
  | _ => none

/-- The rule `EXTRACT_WEEK_SUNDAY_START`. -/
def extractWeekSundayStart : PartExpr → Option PartExpr
  | .extract .week e => some
      (.intDiv (.paren (.add (.sub (.extract .doy e) (.number 1))
        (.extract .dayofweek (.dateTruncYear e)))) (.number 7))
  | _ => none

def applyFirstMatchingRule (e : PartExpr) : PartExpr :=
  ((extractDayofweek e).or (extractWeekSundayStart e)).getD e

/-- The rules at every node, children first. What a rule builds is not visited again. -/
def applyExtractRules : PartExpr → PartExpr
  | .extract part e => applyFirstMatchingRule (.extract part e)
  | .number n => .number n
  | .add a b => applyFirstMatchingRule (.add (applyExtractRules a) (applyExtractRules b))
  | .sub a b => applyFirstMatchingRule (.sub (applyExtractRules a) (applyExtractRules b))
  | .intDiv a b => applyFirstMatchingRule (.intDiv (applyExtractRules a) (applyExtractRules b))
  | .paren a => applyFirstMatchingRule (.paren (applyExtractRules a))

/-! ## Values in DuckDB -/

def DatePart.eval (isoWeek : Date → Int) (d : Date) : DatePart → Int
  | .week => isoWeek d
  | .dayofweek => d.dayOfWeek
  | .doy => d.dayOfYear

def DateExpr.eval (d : Date) : DateExpr → Date
  | .operand => d
  | .dateTruncYear e => (e.eval d).yearStart

def PartExpr.eval (isoWeek : Date → Int) (d : Date) : PartExpr → Int
  | .extract part e => part.eval isoWeek (e.eval d)
  | .number n => n
  | .add a b => a.eval isoWeek d + b.eval isoWeek d
  | .sub a b => a.eval isoWeek d - b.eval isoWeek d
  | .intDiv a b => (a.eval isoWeek d).tdiv (b.eval isoWeek d)
  | .paren a => a.eval isoWeek d

def extractWeek (isoWeek : Date → Int) (d : Date) : Int :=
  (applyExtractRules (.extract .week .operand)).eval isoWeek d

variable (isoWeek : Date → Int) (d : Date)

/-- The value of the formula. -/
theorem week_eval :
    extractWeek isoWeek d = ((d.dayOfYear - 1 + d.yearStart.dayOfWeek) / 7 : Nat) := by
  have hp := d.dayOfYear_pos
  have hs : ((d.dayOfYear : Int) - 1 + d.yearStart.dayOfWeek) =
      ((d.dayOfYear - 1 + d.yearStart.dayOfWeek : Nat) : Int) := by omega
  change ((d.dayOfYear : Int) - 1 + d.yearStart.dayOfWeek).tdiv 7 = _
  rw [hs]
  exact Int.tdiv_eq_ediv_of_nonneg (Int.natCast_nonneg _)

/-! ## Sundays -/

def sundays : Nat :=
  Nat.count (fun i => (d.yearStart.dayNumber + i) % 7 = 0) d.dayOfYear

theorem count_sundays (f n : Nat) :
    Nat.count (fun i => (f + i) % 7 = 0) n = (f % 7 + n + 6) / 7 - (f % 7 + 6) / 7 := by
  induction n with
  | zero => simp
  | succ n ih =>
    rw [Nat.count_succ, ih]
    -- one more day is one more Sunday exactly if the quotient grows
    split <;> omega

/-- The number of Sundays, from the first day of the year. -/
theorem sundays_eq : sundays d =
    (d.yearStart.dayOfWeek + d.dayOfYear + 6) / 7 - (d.yearStart.dayOfWeek + 6) / 7 :=
  count_sundays _ _

/-- **A right week number**: the one of BigQuery, and no later day of the year has a smaller one. -/
def WeekCorrect : Prop :=
  extractWeek isoWeek d = sundays d ∧ ∀ e : Date, e.year = d.year → d.dayOfYear ≤ e.dayOfYear →
    extractWeek isoWeek d ≤ extractWeek isoWeek e

/-- **When the week number is right**: in the years that do not begin with a Sunday. -/
theorem week_correct_iff : WeekCorrect isoWeek d ↔ d.yearStart.dayOfWeek ≠ 0 := by
  have hl := d.yearStart_dayOfWeek_lt
  have hp := d.dayOfYear_pos
  have hv : extractWeek isoWeek d = sundays d ↔ d.yearStart.dayOfWeek ≠ 0 := by
    rw [week_eval, sundays_eq, Int.ofNat_inj]
    omega
  refine ⟨fun h => hv.1 h.1, fun h => ⟨hv.2 h, fun e hy hle => ?_⟩⟩
  rw [week_eval, week_eval, Date.yearStart_congr hy]
  omega

def newYear2023 : Date := ⟨2023, 1, by decide, by decide, by decide, by decide⟩

/-- **A year that begins with a Sunday**: its first day is in week 1, and the formula gives 0. -/
theorem week_not_correct :
    extractWeek (fun _ => 52) newYear2023 = 0 ∧ sundays newYear2023 = 1 ∧
      ¬ WeekCorrect (fun _ => 52) newYear2023 := by
  refine ⟨by decide, by decide, fun h => ?_⟩
  exact absurd h.1 (by decide)

end Bqemulator
