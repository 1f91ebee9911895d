import CentLedger.Console.Console
import CentLedger.Queue.Wire

/-!
# Answers as JSON

The JSON form of what a console answers. An error takes the place of a result; a command that speaks of something that
is not there is bad input.
-/

namespace CentLedger

/-- A value or an error as JSON. -/
def Json.ofResult {α : Type} (value : α → Json) : Except Error α → Json
  | .ok a => value a
  | .error e => e.toJson

/-- That something was done, as JSON. -/
def Json.ofDone : Except Error Unit → Json :=
  Json.ofResult fun _ => .obj [("ok", .bool true)]

/-- A recorded operation as JSON. -/
def Transfer.Outcome.toJson : Transfer.Outcome → Json
  | .ok t => .obj [("transaction", t.toJson)]
  | .error e => e.toJson

/-- An event that a listener was told of, as a JSON object. -/
def Event.noticeJson (listener : String) (e : Event) : Json :=
  .obj [("handler", .str listener), ("type", .str e.type), ("aggregate_id", .str e.aggregateId),
    ("version", .int e.version.toNat), ("data", e.data), ("metadata", e.metadata.toJson),
    ("timestamp", Json.ofInstant e.timestamp)]

/-- One notice comes before another: by time, then by what it is about. -/
def Event.noticeLe (a b : String × Event) : Bool :=
  if a.2.timestamp = b.2.timestamp then a.2.aggregateId ≤ b.2.aggregateId else a.2.timestamp ≤ b.2.timestamp

/-- The word for what is not there. -/
def NameKind.text : NameKind → String
  | record => "tx"
  | ticket => "ticket"
  | token => "token"
  | batch => "batch"
  | command => "step"

namespace Answer

/-- A list as JSON. -/
def list {α : Type} (item : α → Json) (xs : List α) : Json :=
  .arr (xs.map item)

/-- Notices as JSON. -/
def notices : List (String × Event) → Json :=
  list fun n => Event.noticeJson n.1 n.2

/-- An answer as JSON. -/
def toJson : Answer → Json
  | done r => Json.ofDone r
  | applied r => Transfer.Outcome.toJson r
  | balance r => Json.ofResult Balance.toJson r
  | moved r => Json.ofResult (fun p => .obj [("source", p.1.toJson), ("dest", p.2.toJson)]) r
  | snapshot r => Json.ofResult Snapshot.toJson r
  | snapshots r => Json.ofResult (list Snapshot.toJson) r
  | record r => Json.ofResult Transaction.toJson r
  | closed r after => .obj [("result", Json.ofDone r), ("record", after.toJson)]
  | found r => Json.ofResult (fun t => .obj [("tx", Json.ofNullable Transaction.toJson t)]) r
  | records r => Json.ofResult (list Transaction.toJson) r
  | rows n => .obj [("rows", .int n), ("empty", .bool (n = 0))]
  | audit kept logged =>
    .obj [("entries", list AuditEntry.toJson kept), ("traced", list (fun r => .obj r.members) logged)]
  | each rs => list Json.ofDone rs
  | result r => Json.ofResult JobResult.toJson r
  | dropped was => .obj [("dropped", .bool was)]
  | tally t => t.toJsonWithCounts
  | batchTally t => t.toJson
  | pool size capacity isClosed =>
    .obj [("workers", .int size), ("capacity", .int capacity), ("closed", .bool isClosed)]
  | cancelled was => .obj [("cancelled", .bool was)]
  | batch b => b.toJson
  | batchStatus b => .obj [("batch", Json.ofNullable Batch.toJson b)]
  | pruned n => .obj [("pruned", .int n)]
  | tracked n => .obj [("tracked", .int n)]
  | subscribed r => Json.ofResult (fun id => .obj [("id", .str ("sub-" ++ toString id))]) r
  | removed was => .obj [("removed", .bool was)]
  | handlers n => .obj [("count", .int n)]
  | events ns => notices ns
  | passed ns => .obj [("events", notices (ns.mergeSort Event.noticeLe))]
  | order r => Json.ofResult StandingOrder.toJson r
  | schedule l => .obj [("schedule", Json.ofNullable Listing.toJson l)]
  | schedules ls => list Listing.toJson ls
  | pending => .obj [("pending", .bool true)]
  | crashed => .obj [("error", .str "panic")]
  | unknown kind => .obj [("error", .str "bad_input"), ("message", .str kind.text)]

end Answer

end CentLedger
