import CentLedger.Operation.Program

/-!
# Operations on accounts

A change of a balance reads the row, computes the new balance and writes it back, all under the lock of the account;
then it adds a snapshot to the history and a record to the audit, and neither can fail the change. A transfer holds
both locks, taken in ascending order, and puts the source back as it was if the target cannot be written.
-/

namespace CentLedger

namespace Account

/-- The balance of a user. -/
def balance (user : UserId) : Program (Except Error Balance) :=
  Program.ask (.balance user)

/-- The snapshots of a user, newest first. -/
def history (user : UserId) (asOf : Option Instant) (limit : Nat) : Program (Except Error (List Snapshot)) :=
  Program.ask (.history user asOf limit)

/-- Leave a trace of a balance that was written: a snapshot and an audit record. -/
def trace (b : Balance) (movement : Movement) (delta : Cents) : Program Unit := do
  let _ ← Program.ask (.appendHistory b.snapshot)
  Program.note (.balance b.user movement delta b.amount)

/-- Read the balance of a user, change it, and write it back. -/
def adjust (user : UserId) (change : Balance → Instant → Except Error Balance) : Program (Except Error Balance) := do
  match ← Program.ask (.balance user) with
  | .error e => return .error e
  | .ok before =>
    match change before (← Program.clock) with
    | .error e => return .error e
    | .ok after =>
      match ← Program.ask (.saveBalance after) with
      | .error e => return .error e
      | .ok () => return .ok after

/-- Change the balance of a user under the lock of the account, and leave a trace of the change. -/
def change (user : UserId) (movement : Movement) (delta : Cents)
    (apply : Balance → Instant → Except Error Balance) : Program (Except Error Balance) := do
  Program.lock user
  match ← adjust user apply with
  | .error e =>
    Program.unlock user
    return .error e
  | .ok b =>
    trace b movement delta
    Program.unlock user
    return .ok b

/-- Add to the account of a user. -/
def credit (user : UserId) (amount : Cents) : Program (Except Error Balance) :=
  if amount ≤ 0 then return .error .invalidAmount
  else change user .credit amount fun b now => b.credit amount now

/-- Take from the account of a user. -/
def debit (user : UserId) (amount : Cents) : Program (Except Error Balance) :=
  if amount ≤ 0 then return .error .invalidAmount
  else change user .debit (-amount) fun b now => b.debit amount now

/-- The error when the source could not be put back either. -/
def restoreFailure (cause : Error) (source : UserId) (restore : Error) : Error :=
  .storageUnavailable (cause.message ++ "; restoring user " ++ Error.userText source ++ " also failed: " ++
    restore.message)

/-- Write both balances of a transfer; if the target cannot be written, the source goes back to what it was. -/
def writeBoth (before source target : Balance) : Program (Except Error Unit) := do
  match ← Program.ask (.saveBalance source) with
  | .error e => return .error e
  | .ok () =>
    match ← Program.ask (.saveBalance target) with
    | .ok () => return .ok ()
    | .error e =>
      match ← Program.ask (.saveBalance before) with
      | .ok () => return .error e
      | .error restore => return .error (restoreFailure e before.user restore)

/-- Read two balances, move an amount from one to the other, and write them. -/
def move (source target : UserId) (amount : Cents) : Program (Except Error (Balance × Balance)) := do
  match ← Program.ask (.balance source) with
  | .error e => return .error e
  | .ok before =>
    match ← Program.ask (.balance target) with
    | .error e => return .error e
    | .ok other =>
      match before.debit amount (← Program.clock) with
      | .error e => return .error e
      | .ok less =>
        match other.credit amount (← Program.clock) with
        | .error e => return .error e
        | .ok more =>
          match ← writeBoth before less more with
          | .error e => return .error e
          | .ok () => return .ok (less, more)

/-- Move an amount from one account to another, under both locks. -/
def transfer (source target : UserId) (amount : Cents) : Program (Except Error (Balance × Balance)) :=
  if amount ≤ 0 then return .error .invalidAmount
  else if source = target then return .error .sameAccountTransfer
  else do
    let first := if source < target then source else target
    let second := if source < target then target else source
    Program.lock first
    Program.lock second
    match ← move source target amount with
    | .error e =>
      Program.unlock first
      Program.unlock second
      return .error e
    | .ok (less, more) =>
      trace less .debit (-amount)
      trace more .credit amount
      Program.unlock first
      Program.unlock second
      return .ok (less, more)

end Account

end CentLedger
