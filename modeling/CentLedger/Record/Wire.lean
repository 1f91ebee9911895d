import CentLedger.Account.Balance
import CentLedger.Json.Record
import CentLedger.Json.Writer
import CentLedger.Record.Transaction

/-!
# Records as JSON

The wire forms of transaction records, balances and snapshots. Each type has the list of its fields, a writer, and a
reader of slots; the text forms follow from these three.
-/

namespace CentLedger

open Json (Field)

namespace Transaction

/-- The fields of a transaction record, in order. -/
def fields : List Field :=
  [⟨"id", .required⟩, ⟨"from_user_id", .nullable⟩, ⟨"to_user_id", .nullable⟩, ⟨"amount_cents", .required⟩,
    ⟨"type", .required⟩, ⟨"status", .required⟩, ⟨"failure_cause", .nullable⟩, ⟨"created_at", .required⟩,
    ⟨"updated_at", .required⟩]

/-- A transaction record as a JSON object. -/
def toJson (t : Transaction) : Json :=
  .obj [("id", .int t.id), ("from_user_id", Json.ofNullable Json.ofWord t.source),
    ("to_user_id", Json.ofNullable Json.ofWord t.target), ("amount_cents", Json.ofSignedWord t.amount),
    ("type", .str t.kind.text), ("status", .str t.status.text), ("failure_cause", Json.ofNullable .str t.failureCause),
    ("created_at", Json.ofInstant t.createdAt), ("updated_at", Json.ofInstant t.updatedAt)]

/-- A transaction record from its slots. -/
def ofSlots? : List (Option Json) → Option Transaction
  | [some id, some source, some target, some amount, some kind, some status, some cause, some created,
      some updated] => do
    return {
      id := ← Json.asNatBelow? UInt64.size id
      source := ← Json.asNullable? Json.asWord? source
      target := ← Json.asNullable? Json.asWord? target
      amount := ← Json.asSignedWord? amount
      kind := ← Json.asWordOf? Kind.ofText? kind
      status := ← Json.asWordOf? Status.ofText? status
      failureCause := ← Json.asNullable? Json.asString? cause
      createdAt := ← Json.asInstant? created
      updatedAt := ← Json.asInstant? updated }
  | _ => none

/-- A transaction record from a JSON value. -/
def ofJson? (j : Json) : Option Transaction :=
  (Json.slots fields j).bind ofSlots?

/-- A transaction record from a JSON text. -/
def parse (s : String) : Option Transaction :=
  (Json.parseSlots fields s).bind ofSlots?

/-- The JSON text of a transaction record. -/
def text (t : Transaction) : String :=
  t.toJson.text

end Transaction

namespace Balance

/-- The fields of a balance, in order. -/
def fields : List Field :=
  [⟨"user_id", .required⟩, ⟨"amount_cents", .required⟩, ⟨"last_updated", .required⟩]

/-- A balance as a JSON object. -/
def toJson (b : Balance) : Json :=
  .obj [("user_id", Json.ofWord b.user), ("amount_cents", Json.ofSignedWord b.amount),
    ("last_updated", Json.ofInstant b.lastUpdated)]

/-- A balance from its slots; a negative amount is taken as it is. -/
def ofSlots? : List (Option Json) → Option Balance
  | [some user, some amount, some updated] => do
    return {
      user := ← Json.asWord? user
      amount := ← Json.asSignedWord? amount
      lastUpdated := ← Json.asInstant? updated }
  | _ => none

/-- A balance from a JSON value. -/
def ofJson? (j : Json) : Option Balance :=
  (Json.slots fields j).bind ofSlots?

/-- A balance from a JSON text. -/
def parse (s : String) : Option Balance :=
  (Json.parseSlots fields s).bind ofSlots?

/-- The JSON text of a balance. -/
def text (b : Balance) : String :=
  b.toJson.text

end Balance

namespace Snapshot

/-- The fields of a snapshot, in order. -/
def fields : List Field :=
  [⟨"id", .required⟩, ⟨"user_id", .required⟩, ⟨"amount_cents", .required⟩, ⟨"created_at", .required⟩]

/-- A snapshot as a JSON object. -/
def toJson (s : Snapshot) : Json :=
  .obj [("id", .int s.id), ("user_id", Json.ofWord s.user), ("amount_cents", Json.ofSignedWord s.amount),
    ("created_at", Json.ofInstant s.createdAt)]

/-- A snapshot from its slots. -/
def ofSlots? : List (Option Json) → Option Snapshot
  | [some id, some user, some amount, some created] => do
    return {
      id := ← Json.asNatBelow? UInt64.size id
      user := ← Json.asWord? user
      amount := ← Json.asSignedWord? amount
      createdAt := ← Json.asInstant? created }
  | _ => none

/-- A snapshot from a JSON value. -/
def ofJson? (j : Json) : Option Snapshot :=
  (Json.slots fields j).bind ofSlots?

end Snapshot

/-- The code and the message of an error. -/
def Error.toJson (e : Error) : Json :=
  .obj [("error", .str e.code), ("message", .str e.message)]

/-- The code, the message and the record of a failed operation. -/
def ApplyError.toJson (e : ApplyError) : Json :=
  .obj [("error", .str e.cause.code), ("message", .str e.cause.message),
    ("transaction", Json.ofNullable Transaction.toJson e.transaction)]

end CentLedger
