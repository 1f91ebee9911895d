import CentLedger.Money
import CentLedger.Time.Instant

/-!
# Tallies

What a pool of workers counts about its jobs. A job is counted when it is taken off the queue and again when it
finishes; the difference is `pending`. The sum of the amounts of successful jobs is kept in one signed 64-bit word and
wraps around.
-/

namespace CentLedger

/-- The counters of a pool. -/
structure Tally where
  total : Nat
  successful : Nat
  failed : Nat
  /-- Jobs taken off the queue and not finished, as counted since the last reset. -/
  pending : Int
  totalAmount : Cents
  /-- The Unix time in milliseconds of the last finished job, zero if none. -/
  lastMillis : Int
  /-- Submissions that found the queue full. -/
  queueFull : Nat
  deriving DecidableEq

namespace Tally

/-- Nothing counted yet. -/
def empty : Tally :=
  ⟨0, 0, 0, 0, 0, 0, 0⟩

/-- A job was taken off the queue. -/
def dequeued (s : Tally) : Tally :=
  { s with total := s.total + 1, pending := s.pending + 1 }

/-- A job of some amount finished. -/
def finished (s : Tally) (success : Bool) (amount : Cents) (now : Instant) : Tally :=
  if success then
    { s with
      pending := s.pending - 1, successful := s.successful + 1, totalAmount := s.totalAmount + amount,
      lastMillis := now.unixMillis }
  else { s with pending := s.pending - 1, failed := s.failed + 1, lastMillis := now.unixMillis }

/-- A submission found the queue full. -/
def refused (s : Tally) : Tally :=
  { s with queueFull := s.queueFull + 1 }

/-- The mean amount of the successful jobs in major units. -/
def average (s : Tally) : Decimal :=
  averageMajor s.totalAmount s.successful

/-- The text of the mean amount, without trailing zeros. -/
def averageText (s : Tally) : String :=
  s.average.normalize.text

/-- The share of successful jobs in percent, zero while no job was taken. -/
def successRate (s : Tally) : Float :=
  if s.total = 0 then 0.0
  else (UInt64.ofNat s.successful).toFloat / (UInt64.ofNat s.total).toFloat * 100.0

/-- The line that reports a tally. -/
def text (s : Tally) : String :=
  "Transaction Stats: total=" ++ toString s.total ++ ", ok=" ++ toString s.successful ++ ", failed=" ++
    toString s.failed ++ ", pending=" ++ toString s.pending ++ ", amount=" ++ (majorOfCents s.totalAmount).text ++
    ", queue_full=" ++ toString s.queueFull

end Tally

end CentLedger
