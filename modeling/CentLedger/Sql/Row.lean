import CentLedger.Sql.Statement

/-!
# Rows

What the ledger makes of the rows that a server returns. A column that is absent is an error even where null would do; a
null where a value is needed, a value of another type, or a word that names no kind or status, is an error that says so.
Columns are looked at in a fixed order, and the first bad one decides.
-/

namespace CentLedger

namespace Sql

/-- The value of a column. -/
inductive Cell
  | null
  | int (i : Int64)
  | text (s : String)
  | time (t : Instant)
  deriving DecidableEq

/-- A row: its columns in order, each with its name and value. -/
abbrev Row := List (String × Cell)

/-- An error of the server or of its answer. -/
def failure (text : String) : Error :=
  .storageUnavailable text

/-- The error for a null in a place that cannot be null. -/
def unexpectedNull (place : String) : Error :=
  failure ("error occurred while decoding column " ++ place ++ ": unexpected null; try decoding as an `Option`")

/-- The error for a value of another type. -/
def wrongType (place : String) : Error :=
  failure ("error occurred while decoding column " ++ place ++ ": mismatched types")

/-- The error for a column that is not there. -/
def missingColumn (name : String) : Error :=
  failure ("no column found for name: " ++ name)

namespace Cell

/-- A whole number. -/
def asInt? : Cell → Option Int64
  | int i => some i
  | _ => none

/-- A text. -/
def asText? : Cell → Option String
  | text s => some s
  | _ => none

/-- A time, in whole microseconds. -/
def asTime? : Cell → Option Instant
  | time t => some t.toMicros
  | _ => none

/-- Null, or what is read of another value. -/
def asNullable? {α : Type} (value? : Cell → Option α) : Cell → Option (Option α)
  | null => some none
  | c => (value? c).map some

/-- What is read of the value in some place. -/
def read {α : Type} (value? : Cell → Option α) (place : String) (c : Cell) : Except Error α :=
  match value? c with
  | some a => .ok a
  | none => .error (if c = null then unexpectedNull place else wrongType place)

end Cell

namespace Row

/-- The value of a column, if the row has it; of repeated names the last counts. -/
def cell? (row : Row) (name : String) : Option Cell :=
  (row.reverse.find? fun c => c.1 = name).map (·.2)

/-- What is read of a column. -/
def get {α : Type} (row : Row) (value? : Cell → Option α) (name : String) : Except Error α :=
  match row.cell? name with
  | none => .error (missingColumn name)
  | some c => c.read value? ("\"" ++ name ++ "\"")

/-- A whole number. -/
def int (row : Row) (name : String) : Except Error Int64 :=
  row.get Cell.asInt? name

/-- A text. -/
def text (row : Row) (name : String) : Except Error String :=
  row.get Cell.asText? name

/-- A time, in whole microseconds. -/
def time (row : Row) (name : String) : Except Error Instant :=
  row.get Cell.asTime? name

/-- A whole number or nothing. -/
def int? (row : Row) (name : String) : Except Error (Option Int64) :=
  row.get (Cell.asNullable? Cell.asInt?) name

/-- A text or nothing. -/
def text? (row : Row) (name : String) : Except Error (Option String) :=
  row.get (Cell.asNullable? Cell.asText?) name

/-- The balance of a user that a row holds. -/
def toBalance (row : Row) (user : UserId) : Except Error Balance := do
  let amount ← row.int "amount_cents"
  let updated ← row.time "last_updated"
  Balance.restore user amount updated

/-- The snapshot that a row holds. -/
def toSnapshot (row : Row) : Except Error Snapshot := do
  let id ← row.int "id"
  let user ← row.int "user_id"
  let amount ← row.int "amount_cents"
  let created ← row.time "created_at"
  return ⟨(toWord id).toNat, toWord user, amount, created⟩

/-- The transaction record that a row holds. -/
def toTransaction (row : Row) : Except Error Transaction := do
  let kind ← row.text "tx_type"
  let status ← row.text "status"
  let id ← row.int "id"
  let source ← row.int? "from_user_id"
  let target ← row.int? "to_user_id"
  let amount ← row.int "amount_cents"
  let kind ← Kind.parse kind
  let status ← Status.parse status
  let cause ← row.text? "failure_cause"
  let created ← row.time "created_at"
  let updated ← row.time "updated_at"
  return ⟨(toWord id).toNat, source.map toWord, target.map toWord, amount, kind, status, cause, created, updated⟩

/-- The row that holds a transaction record. -/
def ofTransaction (t : Transaction) : Row :=
  let nullable {α : Type} (value : α → Cell) : Option α → Cell
    | none => .null
    | some a => value a
  [("id", .int (ofNat t.id)), ("from_user_id", nullable (fun u => .int (ofWord u)) t.source),
    ("to_user_id", nullable (fun u => .int (ofWord u)) t.target), ("amount_cents", .int t.amount),
    ("tx_type", .text t.kind.text), ("status", .text t.status.text), ("failure_cause", nullable .text t.failureCause),
    ("created_at", .time t.createdAt), ("updated_at", .time t.updatedAt)]

end Row

end Sql

end CentLedger
