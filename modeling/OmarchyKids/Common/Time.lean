import Mathlib

/-!
# OmarchyKids.Common.Time

The part of `chrono` the daemon relies on: UTC instants, differences between
them, and the local calendar dates of a time zone.

An instant is a number of nanoseconds since the Unix epoch, a difference of two
instants a number of nanoseconds. A time zone is an arbitrary pair of maps: what
the wall clock shows at an instant, and which instants a wall-clock reading
stands for (none or two of them around a clock change).
-/

namespace OmarchyKids

/-- `DateTime<Utc>`: nanoseconds since the Unix epoch. -/
abbrev DateTime := Int

/-- `TimeDelta::num_seconds`: whole seconds of a difference, rounded toward zero. -/
def numSeconds (delta : Int) : Int := delta.tdiv 1000000000

/-- `Duration::minutes`. -/
def minutesDelta (n : Int) : Int := n * 60000000000

/-- `Duration::days`. -/
def daysDelta (n : Int) : Int := n * 86400000000000

theorem numSeconds_nonneg {delta : Int} (h : 0 ≤ delta) : 0 ≤ numSeconds delta :=
  Int.tdiv_nonneg h (by decide)

@[simp] theorem numSeconds_zero : numSeconds 0 = 0 := rfl

theorem numSeconds_mono {a b : Int} (h : a ≤ b) : numSeconds a ≤ numSeconds b :=
  Int.tdiv_le_tdiv (by decide) h

/-! ### Local time -/

/-- `chrono::Weekday`. -/
inductive Weekday
  | mon | tue | wed | thu | fri | sat | sun
  deriving DecidableEq, Repr

/-- `Weekday::pred`: the day before. -/
def Weekday.pred : Weekday → Weekday
  | mon => sun
  | tue => mon
  | wed => tue
  | thu => wed
  | fri => thu
  | sat => fri
  | sun => sat

/-- `NaiveTime`: nanoseconds since local midnight. -/
abbrev NaiveTime := Nat

/-- `NaiveDateTime`: a calendar date, as days since 1970-01-01, and a time of day. -/
structure NaiveDateTime where
  date : Int
  time : NaiveTime
  deriving DecidableEq, Repr

/-- The weekday of a date; 1970-01-01 was a Thursday. -/
def NaiveDateTime.weekday (t : NaiveDateTime) : Weekday :=
  match (t.date + 3) % 7 with
  | 0 => .mon
  | 1 => .tue
  | 2 => .wed
  | 3 => .thu
  | 4 => .fri
  | 5 => .sat
  | _ => .sun

/-- `MappedLocalTime<DateTime<Utc>>`: the instants a wall-clock reading stands for. -/
inductive MappedLocalTime
  | none
  | single (t : DateTime)
  | ambiguous (earliest latest : DateTime)

/-- `MappedLocalTime::single`: the instant, when there is exactly one. -/
def MappedLocalTime.single? : MappedLocalTime → Option DateTime
  | single t => some t
  | _ => Option.none

/-- A time zone. -/
structure Zone where
  /-- What the wall clock shows at an instant. -/
  toLocal : DateTime → NaiveDateTime
  /-- `TimeZone::from_local_datetime`. -/
  fromLocal : NaiveDateTime → MappedLocalTime

end OmarchyKids
