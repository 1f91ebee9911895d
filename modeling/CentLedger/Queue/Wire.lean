import CentLedger.Queue.Pool
import CentLedger.Record.Wire

/-!
# Tallies and results as JSON

A tally is shown with its counters, the bits of its success rate, its mean amount and its line of text; a result with
its job and with the record or the error that came of it.
-/

namespace CentLedger

namespace Tally

/-- The bits of a double as sixteen hexadecimal digits. -/
def hexBits (bits : UInt64) : String :=
  String.ofList ((List.range 16).map fun i => Json.hexDigit (bits.toNat / Nat.pow 16 (15 - i) % 16))

/-- The counters as a JSON object. -/
def counters (s : Tally) : Json :=
  .obj [("total", .int s.total), ("successful", .int s.successful), ("failed", .int s.failed),
    ("pending", .int s.pending), ("total_amount_cents", Json.ofSignedWord s.totalAmount),
    ("last_transaction_ms", .int s.lastMillis), ("queue_full", .int s.queueFull)]

/-- The members of a tally as a JSON object. -/
def members (s : Tally) : List (String × Json) :=
  [("fields", s.counters), ("success_rate_bits", .str (hexBits s.successRate.toBits)),
    ("average_amount_major", .str s.averageText), ("display", .str s.text)]

/-- A tally as a JSON object. -/
def toJson (s : Tally) : Json :=
  .obj s.members

/-- A tally as a JSON object, with the short counts of jobs. -/
def toJsonWithCounts (s : Tally) : Json :=
  .obj (s.members ++ [("job_counts", .obj [("ok_count", .int s.successful), ("failed_count", .int s.failed)])])

end Tally

/-- The record or the error that came of a recorded operation, as a JSON object. -/
def Transfer.outcomeJson : Transfer.Outcome → Json
  | .ok t => t.toJson
  | .error e => e.toJson

/-- A result as a JSON object. -/
def JobResult.toJson (r : JobResult) : Json :=
  .obj [("success", .bool r.isSuccess), ("job", r.job.toJson), ("outcome", Transfer.outcomeJson r.outcome),
    ("has_record", .bool r.transaction?.isSome), ("processed_at", Json.ofInstant r.processedAt)]

end CentLedger
