import Mathlib

/-!
# Intervals

The translation spells `JUSTIFY` functions out over the parts of an interval. The whole days of the
hours are added after the whole months were taken, so that `JUSTIFY_INTERVAL` may leave a month or
more in the days.
-/

namespace Bqemulator

/-- An interval of the engine. -/
structure Interval where
  months : Int
  days : Int
  micros : Int
deriving DecidableEq

namespace Interval

variable (x : Interval)

-- the parts as `EXTRACT` gives them, all of the sign of the interval
def year : Int := x.months.tdiv 12

def month : Int := x.months.tmod 12

def hour : Int := x.micros.tdiv 3600000000

def minute : Int := (x.micros.tmod 3600000000).tdiv 60000000

def microsecond : Int := x.micros.tmod 60000000

variable (justifyHours justifyDays : Bool)

/-- The expression that is built. -/
def justifyTemplate : Interval where
  months := x.year * 12 + x.month + if justifyDays then x.days.tdiv 30 else 0
  days := (if justifyDays then x.days.tmod 30 else x.days) +
    if justifyHours then x.hour.tdiv 24 else 0
  micros := (if justifyHours then x.hour.tmod 24 else x.hour) * 3600000000 +
    x.minute * 60000000 + x.microsecond

def justifyHoursExpr : Interval := x.justifyTemplate true false

def justifyDaysExpr : Interval := x.justifyTemplate false true

def justifyIntervalExpr : Interval := x.justifyTemplate true true

/-- The length of an interval in microseconds, with months of 30 days. -/
def total : Int := (x.months * 30 + x.days) * 86400000000 + x.micros

/-- **The length is kept and the parts are in their bounds.** -/
structure Justified : Prop where
  total_interval : x.justifyIntervalExpr.total = x.total
  days_interval : x.justifyIntervalExpr.days.natAbs < 30
  hour_interval : x.justifyIntervalExpr.hour.natAbs < 24
  total_hours : x.justifyHoursExpr.total = x.total
  hour_hours : x.justifyHoursExpr.hour.natAbs < 24
  total_days : x.justifyDaysExpr.total = x.total
  days_days : x.justifyDaysExpr.days.natAbs < 30

theorem natAbs_tmod_lt (a : Int) {b : Nat} (hb : 0 < b) : (a.tmod b).natAbs < b := by
  rw [Int.natAbs_tmod]
  exact Nat.mod_lt _ hb

/-- The minutes and microseconds are what is left of the whole hours. -/
theorem minute_add_microsecond :
    x.minute * 60000000 + x.microsecond = x.micros.tmod 3600000000 := by
  have hr := Int.tmod_add_mul_tdiv (x.micros.tmod 3600000000) 60000000
  rw [Int.tmod_tmod_of_dvd _ (by decide)] at hr
  rw [minute, microsecond]
  omega

theorem total_justifyTemplate : (x.justifyTemplate justifyHours justifyDays).total = x.total := by
  have hm := Int.tmod_add_mul_tdiv x.months 12
  have hd := Int.tmod_add_mul_tdiv x.days 30
  have hh := Int.tmod_add_mul_tdiv x.hour 24
  have hmi : _ + _ * x.hour = _ := Int.tmod_add_mul_tdiv x.micros 3600000000
  have hr := x.minute_add_microsecond
  rw [total, total, justifyTemplate, year, month]
  cases justifyHours <;> cases justifyDays <;> simp only [if_true, Bool.false_eq_true, if_false] <;>
    omega

theorem hour_justifyTemplate (j : Bool) :
    (x.justifyTemplate true j).hour.natAbs < 24 := by
  have hh : (x.hour.tmod 24).natAbs < 24 := natAbs_tmod_lt x.hour (by decide)
  have hr : (x.micros.tmod 3600000000).natAbs < 3600000000 :=
    natAbs_tmod_lt x.micros (by decide)
  have hm : (x.justifyTemplate true j).micros =
      x.hour.tmod 24 * 3600000000 + x.micros.tmod 3600000000 := by
    rw [← minute_add_microsecond, ← Int.add_assoc]
    rfl
  rw [hour, Int.natAbs_tdiv, hm]
  apply Nat.div_lt_of_lt_mul
  omega

end Interval

/-- When the days of the result are fewer than a month's. -/
theorem justified_iff (x : Interval) :
    x.Justified ↔ (x.days.tmod 30 + x.hour.tdiv 24).natAbs < 30 := by
  refine ⟨fun h => h.days_interval, fun h => ⟨?_, h, ?_, ?_, ?_, ?_, ?_⟩⟩
  · exact x.total_justifyTemplate true true
  · exact x.hour_justifyTemplate true
  · exact x.total_justifyTemplate true false
  · exact x.hour_justifyTemplate false
  · exact x.total_justifyTemplate false true
  · change (x.days.tmod 30 + 0).natAbs < 30
    rw [Int.add_zero]
    exact Interval.natAbs_tmod_lt x.days (by decide)

/-- 29 days and 48 hours stay 31 days. -/
theorem justified_fails : ¬ (⟨0, 29, 48 * 3600000000⟩ : Interval).Justified := by
  intro h
  exact absurd h.days_interval (by decide)

end Bqemulator
