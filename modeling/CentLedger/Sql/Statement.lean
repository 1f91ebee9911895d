import CentLedger.Account.Balance
import CentLedger.Record.Transaction

/-!
# Statements

The statements that the ledger sends to a PostgreSQL server, each with the values bound to its parameters. The server
knows signed 64-bit words only, so identifiers and users travel as the signed word with the same bits; and its times
have whole microseconds.
-/

namespace CentLedger

namespace Sql

/-- The signed word with the bits of an unsigned one. -/
def ofWord (w : UInt64) : Int64 :=
  w.toInt64

/-- The unsigned word with the bits of a signed one. -/
def toWord (i : Int64) : UInt64 :=
  i.toUInt64

/-- The signed word with the lowest 64 bits of a number. -/
def ofNat (n : Nat) : Int64 :=
  ofWord (UInt64.ofNat n)

/-- A value bound to a parameter. -/
inductive Param
  | null
  | int (i : Int64)
  | text (s : String)
  | time (t : Instant)
  deriving DecidableEq

/-- A parameter that may be null. -/
def Param.ofNullable {α : Type} (value : α → Param) : Option α → Param
  | none => null
  | some a => value a

/-- A statement and the values bound to its parameters. -/
inductive Statement
  | createBalances
  | createHistory
  | createHistoryIndex
  | createTransactions
  /-- Make a zero row for a user who has none. -/
  | insertZeroBalance (user : Int64)
  | selectBalance (user : Int64)
  /-- Make or replace the row of a user. -/
  | upsertBalance (user amount : Int64) (updated : Instant)
  | insertSnapshot (user amount : Int64) (created : Instant)
  | selectHistory (user : Int64) (asOf : Option Instant) (limit : Int64)
  | insertTransaction (source target : Option Int64) (amount : Int64) (kind status : String) (cause : Option String)
      (created updated : Instant)
  /-- Close a record, if it is still pending. -/
  | updateTransaction (status : String) (cause : Option String) (updated : Instant) (id : Int64)
  | selectTransaction (id : Int64)
  | selectLatest (limit : Int64)
  deriving DecidableEq

namespace Statement

/-- The text of a statement. -/
def text : Statement → String
  | createBalances =>
    "CREATE TABLE IF NOT EXISTS balances ( user_id BIGINT PRIMARY KEY, " ++
      "amount_cents BIGINT NOT NULL CHECK (amount_cents >= 0), last_updated TIMESTAMPTZ NOT NULL )"
  | createHistory =>
    "CREATE TABLE IF NOT EXISTS balance_history ( id BIGSERIAL PRIMARY KEY, user_id BIGINT NOT NULL, " ++
      "amount_cents BIGINT NOT NULL, created_at TIMESTAMPTZ NOT NULL )"
  | createHistoryIndex =>
    "CREATE INDEX IF NOT EXISTS idx_balance_history_user ON balance_history (user_id, created_at DESC)"
  | createTransactions =>
    "CREATE TABLE IF NOT EXISTS transactions ( id BIGSERIAL PRIMARY KEY, from_user_id BIGINT, to_user_id BIGINT, " ++
      "amount_cents BIGINT NOT NULL CHECK (amount_cents > 0), tx_type TEXT NOT NULL, status TEXT NOT NULL, " ++
      "failure_cause TEXT, created_at TIMESTAMPTZ NOT NULL, updated_at TIMESTAMPTZ NOT NULL )"
  | insertZeroBalance _ =>
    "INSERT INTO balances (user_id, amount_cents, last_updated) VALUES ($1, 0, NOW()) ON CONFLICT (user_id) DO NOTHING"
  | selectBalance _ => "SELECT amount_cents, last_updated FROM balances WHERE user_id = $1"
  | upsertBalance _ _ _ =>
    "INSERT INTO balances (user_id, amount_cents, last_updated) VALUES ($1, $2, $3) ON CONFLICT (user_id) " ++
      "DO UPDATE SET amount_cents = EXCLUDED.amount_cents, last_updated = EXCLUDED.last_updated"
  | insertSnapshot _ _ _ =>
    "INSERT INTO balance_history (user_id, amount_cents, created_at) VALUES ($1, $2, $3) RETURNING id"
  | selectHistory _ _ _ =>
    "SELECT id, user_id, amount_cents, created_at FROM balance_history WHERE user_id = $1 AND " ++
      "($2::TIMESTAMPTZ IS NULL OR created_at <= $2) ORDER BY created_at DESC, id DESC LIMIT $3"
  | insertTransaction _ _ _ _ _ _ _ _ =>
    "INSERT INTO transactions (from_user_id, to_user_id, amount_cents, tx_type, status, failure_cause, created_at, " ++
      "updated_at) VALUES ($1, $2, $3, $4, $5, $6, $7, $8) RETURNING id"
  | updateTransaction _ _ _ _ =>
    "UPDATE transactions SET status = $1, failure_cause = $2, updated_at = $3 WHERE id = $4 AND status = 'pending'"
  | selectTransaction _ =>
    "SELECT id, from_user_id, to_user_id, amount_cents, tx_type, status, failure_cause, created_at, updated_at " ++
      "FROM transactions WHERE id = $1"
  | selectLatest _ =>
    "SELECT id, from_user_id, to_user_id, amount_cents, tx_type, status, failure_cause, created_at, updated_at " ++
      "FROM transactions ORDER BY id DESC LIMIT $1"

/-- The values bound to the parameters of a statement, in order; times are cut to whole microseconds. -/
def params : Statement → List Param
  | createBalances | createHistory | createHistoryIndex | createTransactions => []
  | insertZeroBalance user => [.int user]
  | selectBalance user => [.int user]
  | upsertBalance user amount updated => [.int user, .int amount, .time updated.toMicros]
  | insertSnapshot user amount created => [.int user, .int amount, .time created.toMicros]
  | selectHistory user asOf limit => [.int user, .ofNullable (fun t => .time t.toMicros) asOf, .int limit]
  | insertTransaction source target amount kind status cause created updated =>
    [.ofNullable .int source, .ofNullable .int target, .int amount, .text kind, .text status, .ofNullable .text cause,
      .time created.toMicros, .time updated.toMicros]
  | updateTransaction status cause updated id =>
    [.text status, .ofNullable .text cause, .time updated.toMicros, .int id]
  | selectTransaction id => [.int id]
  | selectLatest limit => [.int limit]

end Statement

end Sql

end CentLedger
