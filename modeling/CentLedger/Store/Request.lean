import CentLedger.Account.Balance
import CentLedger.Record.Transaction

/-!
# Requests to the store

What the ledger asks of whatever keeps its rows: eight kinds of request, each with the type of its answer. The
operations are written against these requests alone, so the same operation runs over rows in memory and over a
database.
-/

namespace CentLedger

/-- A request to the store. -/
inductive StoreRequest
  /-- The balance of a user; a zero row is made if there is none. -/
  | balance (user : UserId)
  /-- Replace the row of the user that a balance names. -/
  | saveBalance (balance : Balance)
  /-- Add a snapshot to the history, under a new identifier. -/
  | appendHistory (snapshot : Snapshot)
  /-- Snapshots of a user, newest first, up to an instant if one is given. -/
  | history (user : UserId) (asOf : Option Instant) (limit : Nat)
  /-- Add a transaction record, under a new identifier. -/
  | insertTransaction (record : Transaction)
  /-- Replace a transaction record that is not terminal. -/
  | updateTransaction (record : Transaction)
  /-- The transaction record with an identifier. -/
  | transaction (id : TransactionId)
  /-- The transaction records with the largest identifiers, newest first. -/
  | latest (limit : Nat)

namespace StoreRequest

/-- The type of the answer to a request. -/
abbrev Answer : StoreRequest → Type
  | balance _ => Balance
  | saveBalance _ => Unit
  | appendHistory _ => Snapshot
  | history _ _ _ => List Snapshot
  | insertTransaction _ => Transaction
  | updateTransaction _ => Unit
  | transaction _ => Option Transaction
  | latest _ => List Transaction

/-- The user whose balance a request writes. -/
def written? : StoreRequest → Option UserId
  | saveBalance b => some b.user
  | _ => none

end StoreRequest

/-- The error for an identifier that no transaction record has. -/
def noTransaction (id : TransactionId) : Error :=
  .notFound ("transaction " ++ toString id)

end CentLedger
