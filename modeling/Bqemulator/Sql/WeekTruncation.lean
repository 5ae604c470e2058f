import Bqemulator.Sql.WeekNumber

/-!
# Truncation to weeks

`DATE_TRUNC` with a week becomes a `time_bucket` of seven days, shifted from the Monday that the
buckets of the engine begin with. `LAST_DAY` adds the days that are left to Saturday. -/

namespace Bqemulator

inductive Weekday where
  | sunday | monday | tuesday | wednesday | thursday | friday | saturday
deriving DecidableEq

def Weekday.index : Weekday → Nat
  | .sunday => 0
  | .monday => 1
  | .tuesday => 2
  | .wednesday => 3
  | .thursday => 4
  | .friday => 5
  | .saturday => 6

/-- The units of weeks. -/
inductive WeekUnit where
  | week
  | isoweek
  | weekStart (w : Weekday)

/-- The first day of the week that the call hands over. -/
def dateTruncGranularity : WeekUnit → Weekday
  | .week => .sunday
  | .isoweek => .monday
  | .weekStart w => w

/-- 3 January 2000, a Monday, the day from which the engine counts weeks. -/
def bucketOrigin : Date := ⟨2000, 3, by decide, by decide, by decide, by decide⟩

variable (timeBucket : Int → Int → Int)

/-- **`time_bucket` of seven days**, with an offset: the bucket of a day begins a number of weeks
from the origin and the offset. -/
def BucketsWeeks : Prop :=
  ∀ offset d, (timeBucket offset d - (bucketOrigin.dayNumber + offset)) % 7 = 0 ∧
    timeBucket offset d ≤ d ∧ d < timeBucket offset d + 7

/-- `DATE_TRUNC` of a day, by its number. -/
def dateTrunc (unit : WeekUnit) (d : Int) : Int :=
  timeBucket (((dateTruncGranularity unit).index - 1) % 7) d

def lastDayWeek (isoWeek : Date → Int) (d : Date) : Int :=
  d.dayNumber + (applyExtractRules
    (.paren (.sub (.number 7) (.extract .dayofweek .operand)))).eval isoWeek d

/-- The latest day up to `d` that falls on `w`. -/
def LatestOn (w : Weekday) (d latest : Int) : Prop :=
  latest % 7 = w.index ∧ latest ≤ d ∧ ∀ e ≤ d, e % 7 = w.index → e ≤ latest

/-- **Dates are truncated to their weeks**, and the last day of a week is its Saturday. -/
structure TruncatesWeeks (timeBucket : Int → Int → Int) (isoWeek : Date → Int) (d : Date) :
    Prop where
  weekStart : ∀ w, LatestOn w d.dayNumber (dateTrunc timeBucket (.weekStart w) d.dayNumber)
  week : LatestOn .sunday d.dayNumber (dateTrunc timeBucket .week d.dayNumber)
  isoweek : LatestOn .monday d.dayNumber (dateTrunc timeBucket .isoweek d.dayNumber)
  lastDay : lastDayWeek isoWeek d % 7 = Weekday.saturday.index ∧
    d.dayNumber ≤ lastDayWeek isoWeek d ∧
    lastDayWeek isoWeek d = dateTrunc timeBucket .week d.dayNumber + 6
  idempotent : ∀ unit, dateTrunc timeBucket unit (dateTrunc timeBucket unit d.dayNumber) =
    dateTrunc timeBucket unit d.dayNumber

theorem dateTrunc_latest {t : Int → Int → Int} (h : BucketsWeeks t)
    (u : WeekUnit) (d : Int) :
    LatestOn (dateTruncGranularity u) d (dateTrunc t u d) := by
  obtain ⟨hs, hl, hlt⟩ := h (((dateTruncGranularity u).index - 1) % 7) d
  have ho : bucketOrigin.dayNumber = 730122 := by decide
  rw [ho] at hs
  -- the origin is a Monday, so that the offset moves the buckets to the first day of the week
  have hd : dateTrunc t u d % 7 = (dateTruncGranularity u).index := by
    rw [dateTrunc]
    cases hf : dateTruncGranularity u <;> rw [hf] at hs <;>
      simp only [Weekday.index] at hs ⊢ <;> omega
  refine ⟨hd, hl, fun e he hm => ?_⟩
  have hw : d < dateTrunc t u d + 7 := hlt
  omega

theorem latestOn_self {w : Weekday} {d l : Int} (h : LatestOn w d l) {a : Int}
    (ha : LatestOn w l a) : a = l :=
  Int.le_antisymm ha.2.1 (ha.2.2 l le_rfl h.1)

/-- **Dates are truncated to the weeks of BigQuery.** -/
theorem truncatesWeeks (isoWeek : Date → Int)
    (hbucket : BucketsWeeks timeBucket) (d : Date) : TruncatesWeeks timeBucket isoWeek d where
  weekStart w := dateTrunc_latest hbucket (.weekStart w) d.dayNumber
  week := dateTrunc_latest hbucket .week d.dayNumber
  isoweek := dateTrunc_latest hbucket .isoweek d.dayNumber
  lastDay := by
    obtain ⟨hm, hle, hl⟩ := dateTrunc_latest hbucket .week d.dayNumber
    have hla : lastDayWeek isoWeek d = d.dayNumber + (7 - ((d.dayNumber % 7 : Nat) + 1)) := rfl
    have hf := hl (d.dayNumber - d.dayNumber % 7) (by omega)
    simp only [dateTruncGranularity, Weekday.index] at hm hf ⊢
    omega
  idempotent unit := latestOn_self (dateTrunc_latest hbucket unit _)
    (dateTrunc_latest hbucket unit _)

theorem truncatesWeeks_floor : TruncatesWeeks
    (fun offset d => d - (d - (bucketOrigin.dayNumber + offset)) % 7)
      (fun _ => 0) bucketOrigin := by
  refine truncatesWeeks _ _ (fun offset d => ?_) bucketOrigin
  omega

end Bqemulator
