import CentLedger.Json.Record
import CentLedger.Sql.Dialogue

/-!
# Statements and replies as JSON

A statement is shown by its text and its parameters. A reply is read from an object with an error text, or with the
number of rows changed and the rows returned, either of which may be left out; a reply that only returns rows counts
as having changed as many. A row returned has all columns of the tables, the identifier first; what its object leaves
out is null.
-/

namespace CentLedger

namespace Sql

/-- A parameter as a JSON value. -/
def Param.toJson : Param → Json
  | null => .null
  | int i => Json.ofSignedWord i
  | text s => .str s
  | time t => Json.ofInstant t

/-- A statement as a JSON object. -/
def Statement.toJson (s : Statement) : Json :=
  .obj [("sql", .str s.text), ("params", .arr (s.params.map Param.toJson))]

/-- The columns that hold times. -/
def timeColumns : List String :=
  ["last_updated", "created_at", "updated_at"]

/-- The value of a column from a JSON value. -/
def Cell.ofJson? (column : String) : Json → Option Cell
  | .null => some .null
  | .int i => (Json.asSignedWord? (.int i)).map .int
  | .str s => if timeColumns.contains column then (Instant.read s).map .time else some (.text s)
  | _ => none

/-- The columns of the tables. -/
def columns : List String :=
  ["id", "user_id", "from_user_id", "to_user_id", "amount_cents", "last_updated", "tx_type", "status", "failure_cause",
    "created_at", "updated_at"]

/-- A row from a JSON object. -/
def Row.ofJson? : Json → Option Row
  | .obj members => do
    let given ← members.mapM fun m => (Cell.ofJson? m.1 m.2).map fun c => (m.1, c)
    return columns.map fun name => (name, (Row.cell? given name).getD .null)
  | _ => none

/-- The rows of a reply. -/
def rowsOf? (j : Json) : Option (List Row) :=
  match j.member? "rows" with
  | none => some []
  | some (.arr rows) => rows.mapM Row.ofJson?
  | some _ => none

/-- A reply from a JSON object. -/
def ServerReply.ofJson? (j : Json) : Option ServerReply :=
  match j.member? "error" with
  | some (.str text) => some (.failed text)
  | some _ => none
  | none => do
    let rows ← rowsOf? j
    return .executed (((j.member? "affected").bind (Json.asNatBelow? UInt64.size)).getD rows.length) rows

end Sql

end CentLedger
