import CentLedger.Schedule.Cron

/-!
# The next occurrence

`Cron.next? c t` looks for an instant after `t` that the expression selects, unit by unit from the year down. While
the search is still within the unit that holds `t`, the lower bound of a unit is the component of `t`; once a unit has
moved on, it and all smaller units start from their least value. Which units are still at their start is kept in
`Fresh`. The bounds of the first year also hold in the first listed year, so the search may pass over an occurrence of
a later year.
-/

namespace CentLedger

namespace Cron

/-- Which units are still bounded by the instant that the search starts from. -/
structure Fresh where
  month : Bool
  day : Bool
  hour : Bool
  minute : Bool
  second : Bool
  deriving DecidableEq, Repr

namespace Fresh

/-- At the start of a search all units are. -/
def start : Fresh := ⟨true, true, true, true, true⟩

/-- A month passed. -/
def pastMonth (_ : Fresh) : Fresh := ⟨false, false, false, false, false⟩
/-- A day passed. -/
def pastDay (f : Fresh) : Fresh := ⟨f.month, false, false, false, false⟩
/-- An hour passed. -/
def pastHour (f : Fresh) : Fresh := ⟨f.month, f.day, false, false, false⟩
/-- A minute passed. -/
def pastMinute (f : Fresh) : Fresh := ⟨f.month, f.day, f.hour, false, false⟩

end Fresh

/-- The outcome of a search within a unit. -/
inductive Search
  /-- The instant that was looked for. -/
  | found (t : Instant)
  /-- The date is not on a selected weekday. -/
  | wrongDay (fresh : Fresh)
  /-- The unit holds no further value. -/
  | exhausted (fresh : Fresh)

/-- Search the seconds of a minute. -/
def searchSeconds (c : Cron) (start : TimeOfDay) (date : Date) (h m : Nat) (fresh : Fresh) : Search :=
  let lower := if fresh.second then start.second else 0
  let fresh := { fresh with second := false }
  match c.seconds.filter (lower ≤ ·) with
  | [] => .exhausted fresh
  | s :: _ =>
    let days := Calendar.daysOfDate date
    if c.weekdays.contains (Calendar.weekday days) then
      .found (.ofSeconds (days * 86400 + ((h * 3600 + m * 60 + s : Nat) : Int)))
    else .wrongDay fresh

/-- Search some minutes of an hour. -/
def searchMinutes (c : Cron) (start : TimeOfDay) (date : Date) (h : Nat) : List Nat → Fresh → Search
  | [], fresh => .exhausted fresh
  | m :: rest, fresh =>
    match searchSeconds c start date h m fresh with
    | .exhausted fresh => searchMinutes c start date h rest fresh.pastMinute
    | other => other

/-- Search some hours of a day. -/
def searchHours (c : Cron) (start : TimeOfDay) (date : Date) : List Nat → Fresh → Search
  | [], fresh => .exhausted fresh
  | h :: rest, fresh =>
    let lower := if fresh.minute then start.minute else 0
    let cleared := { fresh with minute := false }
    let fresh := if c.minutes.contains lower then cleared else cleared.pastMinute
    match searchMinutes c start date h (c.minutes.filter (lower ≤ ·)) fresh with
    | .exhausted fresh => searchHours c start date rest fresh.pastHour
    | other => other

/-- Search some days of a month. -/
def searchDays (c : Cron) (start : TimeOfDay) (year : Int) (month : Nat) : List Nat → Fresh → Search
  | [], fresh => .exhausted fresh
  | d :: rest, fresh =>
    let lower := if fresh.hour then start.hour else 0
    let cleared := { fresh with hour := false }
    let fresh := if c.hours.contains lower then cleared else cleared.pastHour
    match searchHours c start ⟨year, month, d⟩ (c.hours.filter (lower ≤ ·)) fresh with
    | .exhausted fresh => searchDays c start year month rest fresh.pastDay
    | .wrongDay fresh => searchDays c start year month rest fresh
    | .found t => .found t

/-- Search some months of a year. -/
def searchMonths (c : Cron) (date : Date) (start : TimeOfDay) (year : Int) : List Nat → Fresh → Search
  | [], fresh => .exhausted fresh
  | m :: rest, fresh =>
    let lower := if fresh.day then date.day else 1
    let cleared := { fresh with day := false }
    let fresh := if c.days.contains lower then cleared else cleared.pastDay
    let last := Calendar.monthLength year m
    match searchDays c start year m (c.days.filter fun d => min lower last ≤ d && d ≤ last) fresh with
    | .exhausted fresh => searchMonths c date start year rest fresh.pastMonth
    | other => other

/-- Search some years. -/
def searchYears (c : Cron) (date : Date) (start : TimeOfDay) : List Nat → Fresh → Option Instant
  | [], _ => none
  | y :: rest, fresh =>
    let lower := if fresh.month then date.month else 1
    let cleared := { fresh with month := false }
    let fresh := if c.months.contains lower then cleared else cleared.pastMonth
    match searchMonths c date start y (c.months.filter (lower ≤ ·)) fresh with
    | .found t => some t
    | .wrongDay fresh => searchYears c date start rest fresh
    | .exhausted fresh => searchYears c date start rest fresh

/-- The occurrence that follows an instant, if the search finds one. -/
def next? (c : Cron) (t : Instant) : Option Instant :=
  let t := Instant.ofSeconds (t.seconds + 1)
  searchYears c t.date t.timeOfDay (c.years.filter fun (y : Nat) => decide (t.date.year ≤ (y : Int))) .start

end Cron

end CentLedger
