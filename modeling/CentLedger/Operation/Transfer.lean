import CentLedger.Operation.Account
import CentLedger.Operation.Records
import CentLedger.Queue.Job

/-!
# Recorded operations

A recorded operation opens a record, changes balances, and closes the record as completed or failed. A transfer
changes two accounts one after the other; when the target cannot be credited, the source is credited again, and when
that fails too, the ledger is out of balance and the error says so. An operation that failed returns its record as it
is stored.
-/

namespace CentLedger

namespace Transfer

/-- The outcome of a recorded operation: the completed record, or an error with the record if one was opened. -/
abbrev Outcome := Except ApplyError Transaction

/-- Close the record of an operation whose balances were changed. -/
def settle (t : Transaction) : Program Outcome := do
  match ← Records.complete t with
  | .error e => return .error (.withRecord t e)
  | .ok t =>
    Program.note (.transaction t)
    return .ok t

/-- The error when an operation failed and that could not be written down: a critical cause stays, any other becomes
part of the message. -/
def unrecorded (cause e : Error) : Error :=
  if cause.severity = .critical then cause
  else .storageUnavailable (e.message ++ "; unrecorded failure: " ++ cause.message)

/-- Close the record of an operation that failed. -/
def giveUp (t : Transaction) (cause : Error) : Program Outcome := do
  match ← Records.fail t cause.message with
  | .error e => return .error (.withRecord t (unrecorded cause e))
  | .ok t => return .error (.withRecord t cause)

/-- Close a record by the result of its balance change. -/
def finish {α : Type} (t : Transaction) : Except Error α → Program Outcome
  | .ok _ => settle t
  | .error e => giveUp t e

/-- The error when a transfer could neither be carried through nor undone. -/
def compensationFailure (t : Transaction) (source : UserId) (amount : Cents) (credit compensation : Error) : Error :=
  .compensationFailed t.id source amount
    ("credit failed: " ++ credit.message ++ "; compensation failed: " ++ compensation.message)

/-- Credit the source of a transfer again, after its target could not be credited. -/
def compensate (t : Transaction) (source : UserId) (amount : Cents) (cause : Error) : Program Outcome := do
  match ← Account.credit source amount with
  | .ok _ => giveUp t cause
  | .error e => giveUp t (compensationFailure t source amount cause e)

/-- Add to an account, with a record. -/
def applyCredit (user : UserId) (amount : Cents) : Program Outcome := do
  match ← Records.openRecord (.credit user amount) with
  | .error e => return .error (.rejected e)
  | .ok t => finish t (← Account.credit user amount)

/-- Take from an account, with a record. -/
def applyDebit (user : UserId) (amount : Cents) : Program Outcome := do
  match ← Records.openRecord (.debit user amount) with
  | .error e => return .error (.rejected e)
  | .ok t => finish t (← Account.debit user amount)

/-- Move between two accounts, with a record. -/
def applyTransfer (source target : UserId) (amount : Cents) : Program Outcome :=
  if source = target then return .error (.rejected .sameAccountTransfer)
  else do
    match ← Records.openRecord (.transfer source target amount) with
    | .error e => return .error (.rejected e)
    | .ok t =>
      match ← Account.debit source amount with
      | .error e => giveUp t e
      | .ok _ =>
        match ← Account.credit target amount with
        | .ok _ => settle t
        | .error e => compensate t source amount e

/-- Do a job. -/
def execute : Job → Program Outcome
  | .credit user amount => applyCredit user amount
  | .debit user amount => applyDebit user amount
  | .transfer source target amount => applyTransfer source target amount

end Transfer

end CentLedger
