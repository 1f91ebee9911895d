import CentLedger.Time.Calendar

/-!
# Instants

A point of time in UTC, to the nanosecond: whole seconds since 1970-01-01T00:00:00Z and the nanoseconds after them. An
inserted leap second continues the second before it, so the nanoseconds may pass one billion in the last second of a
minute, and only there. Instants are ordered by seconds, then nanoseconds.
-/

namespace CentLedger

/-- A point of time in UTC. -/
structure Instant where
  seconds : Int
  nanos : Nat
  valid : nanos < 1_000_000_000 ∨ (nanos < 2_000_000_000 ∧ seconds % 60 = 59)
  deriving DecidableEq

/-- The hour, minute and second of a clock. -/
structure TimeOfDay where
  hour : Nat
  minute : Nat
  second : Nat
  deriving DecidableEq, Repr

namespace Instant

/-- The instant at a whole second. -/
def ofSeconds (seconds : Int) : Instant :=
  ⟨seconds, 0, .inl (by decide)⟩

/-- The instant some nanoseconds after the epoch. -/
def ofNanos (n : Int) : Instant :=
  ⟨n / 1_000_000_000, (n % 1_000_000_000).toNat, .inl (by omega)⟩

/-- The nanoseconds since the epoch; a leap second counts into the minute after it. -/
def toNanos (t : Instant) : Int :=
  t.seconds * 1_000_000_000 + t.nanos

/-- The order of instants. -/
def le (a b : Instant) : Prop :=
  a.seconds < b.seconds ∨ (a.seconds = b.seconds ∧ a.nanos ≤ b.nanos)

instance : LE Instant := ⟨le⟩

instance (a b : Instant) : Decidable (a ≤ b) := by
  show Decidable (le a b)
  unfold le
  infer_instance

/-- The instant a number of milliseconds later, or earlier if the number is negative. -/
def addMillis (t : Instant) (ms : Int) : Instant :=
  ofNanos (t.toNanos + ms * 1_000_000)

/-- The whole milliseconds since the epoch. -/
def unixMillis (t : Instant) : Int :=
  t.seconds * 1000 + t.nanos / 1_000_000

/-- The instant at a whole millisecond since the epoch. -/
def ofUnixMillis (ms : Int) : Instant :=
  ofNanos (ms * 1_000_000)

/-- An instant as a clock of milliseconds shows it. -/
def toMillis (t : Instant) : Instant :=
  ofUnixMillis t.unixMillis

/-- The day, counted from 1970-01-01. -/
def days (t : Instant) : Int :=
  t.seconds / 86400

/-- The date in UTC. -/
def date (t : Instant) : Date :=
  Calendar.dateOfDays t.days

/-- The time of day in UTC; a leap second shows the second before it. -/
def timeOfDay (t : Instant) : TimeOfDay :=
  let s := (t.seconds % 86400).toNat
  ⟨s / 3600, s / 60 % 60, s % 60⟩

/-- The start of 2000-01-01, from which a database counts its microseconds. -/
def year2000 : Instant :=
  ofSeconds 946684800

/-- The distance to 2000-01-01T00:00:00Z in whole microseconds, cut toward zero. -/
def micros2000 (t : Instant) : Int :=
  (t.toNanos - year2000.toNanos).tdiv 1000

/-- The instant a number of microseconds after 2000-01-01T00:00:00Z. -/
def ofMicros2000 (us : Int) : Instant :=
  ofNanos (year2000.toNanos + us * 1000)

/-- An instant as it comes back from a clock of microseconds that counts from 2000-01-01T00:00:00Z. -/
def toMicros (t : Instant) : Instant :=
  ofMicros2000 t.micros2000

end Instant

end CentLedger
