/-!
# The calendar

Days are counted from 1970-01-01 in the proleptic Gregorian calendar, years before 0001 included. `daysOfDate` counts
the days before a date and `dateOfDays` finds the date again: the year is estimated from the mean length of a year and
then moved by at most one, the month by subtracting the lengths of the months before it.
-/

namespace CentLedger

/-- A day of the calendar. -/
structure Date where
  year : Int
  month : Nat
  day : Nat
  deriving DecidableEq, Repr

namespace Calendar

/-- A year is a leap year iff it is divisible by four, but a century only if divisible by four hundred. -/
def isLeap (year : Int) : Bool :=
  year % 4 == 0 && (year % 100 != 0 || year % 400 == 0)

/-- The number of days of a month. -/
def monthLength (year : Int) (month : Nat) : Nat :=
  match month with
  | 2 => if isLeap year then 29 else 28
  | 4 | 6 | 9 | 11 => 30
  | _ => 31

/-- The days from 0000-01-01 to the first day of a year. -/
def daysBeforeYear (year : Int) : Int :=
  365 * year + (year + 3) / 4 - (year + 99) / 100 + (year + 399) / 400

/-- The days of a year before the first day of a month. -/
def daysBeforeMonth (year : Int) : Nat → Nat
  | 0 => 0
  | 1 => 0
  | month + 1 => daysBeforeMonth year month + monthLength year month

/-- The days from 0000-01-01 to 1970-01-01. -/
def epochOffset : Int := 719528

/-- The days from 1970-01-01 to a date. -/
def daysOfDate (d : Date) : Int :=
  daysBeforeYear d.year + daysBeforeMonth d.year d.month + (d.day - 1 : Int) - epochOffset

/-- The year that a day belongs to, the day counted from 0000-01-01. -/
def yearOfDay (n : Int) : Int :=
  let y := n * 400 / 146097
  if n < daysBeforeYear y then y - 1 else if daysBeforeYear (y + 1) ≤ n then y + 1 else y

/-- The month and the day of the month that a day of a year is, months counted from `month` on. -/
def monthOfDay (year : Int) : (months : Nat) → (month n : Nat) → Nat × Nat
  | 0, month, n => (month, n + 1)
  | months + 1, month, n =>
    if n < monthLength year month then (month, n + 1)
    else monthOfDay year months (month + 1) (n - monthLength year month)

/-- The date of a day counted from 1970-01-01. -/
def dateOfDays (days : Int) : Date :=
  let n := days + epochOffset
  let year := yearOfDay n
  let (month, day) := monthOfDay year 11 1 (n - daysBeforeYear year).toNat
  ⟨year, month, day⟩

/-- A date is valid iff its month and its day exist. -/
def Valid (d : Date) : Prop :=
  1 ≤ d.month ∧ d.month ≤ 12 ∧ 1 ≤ d.day ∧ d.day ≤ monthLength d.year d.month

instance (d : Date) : Decidable (Valid d) := by unfold Valid; infer_instance

/-- The day of the week of a day counted from 1970-01-01, a Thursday: 1 is Sunday, 7 is Saturday. -/
def weekday (days : Int) : Nat :=
  ((days + 4) % 7).toNat + 1

end Calendar

end CentLedger
