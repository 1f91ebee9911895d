import CentLedger.Operation.Program

/-!
# Operations on transaction records

A record is opened once its request was found valid, and closed once. Closing writes before it tells: the caller gets
the new record only when the store took it, and otherwise keeps the record that the store still holds.
-/

namespace CentLedger

namespace Records

/-- Add a pending record for a valid request. -/
def openRecord (r : Request) : Program (Except Error Transaction) :=
  match r.validate with
  | .error e => return .error e
  | .ok () => do Program.ask (.insertTransaction (.ofRequest r (← Program.clock)))

/-- Move a record, and write it. -/
def close (move : Instant → Except Error Transaction) : Program (Except Error Transaction) := do
  match move (← Program.clock) with
  | .error e => return .error e
  | .ok next =>
    match ← Program.ask (.updateTransaction next) with
    | .error e => return .error e
    | .ok () => return .ok next

/-- Close a record as completed. -/
def complete (t : Transaction) : Program (Except Error Transaction) :=
  close t.complete

/-- Close a record as failed, with a cause. -/
def fail (t : Transaction) (cause : String) : Program (Except Error Transaction) :=
  close (t.fail cause)

/-- The record with an identifier. -/
def get (id : TransactionId) : Program (Except Error Transaction) := do
  match ← Program.ask (.transaction id) with
  | .error e => return .error e
  | .ok none => return .error (noTransaction id)
  | .ok (some t) => return .ok t

/-- The newest records, newest first. -/
def latest (limit : Nat) : Program (Except Error (List Transaction)) :=
  Program.ask (.latest limit)

end Records

end CentLedger
