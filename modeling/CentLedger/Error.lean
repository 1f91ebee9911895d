import CentLedger.Money
import CentLedger.Record.Status

/-!
# Errors of the ledger

Every way an operation can be refused or fail, as a cause with the data its message shows. `Error.message` is the text
for people, `Error.code` the stable code for programs, and `Error.severity` says how a caller should take it.
-/

namespace CentLedger

/-- How a caller should treat an error. -/
inductive Severity
  /-- The request was refused; its outcome is definite. -/
  | rejected
  /-- The operation was turned away or given up on; the caller may try again. -/
  | retriable
  /-- A part that the ledger relies on failed. -/
  | fatal
  /-- The ledger is out of balance and an operator has to act. -/
  | critical
  deriving DecidableEq, Repr

namespace Severity

/-- The word for a severity. -/
def text : Severity → String
  | rejected => "rejected"
  | retriable => "retriable"
  | fatal => "fatal"
  | critical => "critical"

end Severity

/-- Why an operation of the ledger did not succeed. -/
inductive Error
  | invalidAmount
  | sameAccountTransfer
  | invalidTransaction (text : String)
  | insufficientFunds (user : UserId) (available requested : Cents)
  | illegalTransition (source target : Status)
  | notFound (text : String)
  | queueFull
  | cancelled
  | poolClosed
  | emptyBatch
  | batchTooLarge (size max : Nat)
  | invalidSchedule (text : String)
  | scheduleNotFound (text : String)
  | scheduler (text : String)
  | eventHandler (text : String)
  | storageUnavailable (text : String)
  | compensationFailed (transaction : Nat) (user : UserId) (amount : Cents) (cause : String)
  deriving DecidableEq, Repr

namespace Error

/-- The text of an amount of cents. -/
def centsText (c : Cents) : String := toString c.toInt

/-- The text of a user's identifier. -/
def userText (u : UserId) : String := toString u.toNat

/-- The text shown to people. -/
def message : Error → String
  | invalidAmount => "Amount must be greater than zero"
  | sameAccountTransfer => "Source and target account cannot be the same"
  | invalidTransaction text => "Invalid transaction: " ++ text
  | insufficientFunds user available requested =>
    "Insufficient funds for user " ++ userText user ++ ": available=" ++ centsText available ++ ", requested=" ++
      centsText requested
  | illegalTransition source target => "Illegal state transition: " ++ source.text ++ " -> " ++ target.text
  | notFound text => "Not found: " ++ text
  | queueFull => "Worker pool queue is full"
  | cancelled => "Operation cancelled before completion"
  | poolClosed => "Worker pool is closed"
  | emptyBatch => "Batch is empty"
  | batchTooLarge size max => "Batch size " ++ toString size ++ " exceeds maximum " ++ toString max
  | invalidSchedule text => "Invalid schedule: " ++ text
  | scheduleNotFound text => "Scheduled transaction not found: " ++ text
  | scheduler text => "Scheduler error: " ++ text
  | eventHandler text => "Event handler failed: " ++ text
  | storageUnavailable text => "Storage unavailable: " ++ text
  | compensationFailed transaction user amount cause =>
    "Compensation failed for transaction " ++ toString transaction ++ ": " ++ centsText amount ++
      " cents owed to user " ++ userText user ++ " (" ++ cause ++ ")"

/-- The stable code of an error. -/
def code : Error → String
  | invalidAmount => "INVALID_AMOUNT"
  | sameAccountTransfer => "SAME_ACCOUNT_TRANSFER"
  | invalidTransaction _ => "INVALID_TRANSACTION"
  | insufficientFunds _ _ _ => "INSUFFICIENT_FUNDS"
  | illegalTransition _ _ => "ILLEGAL_STATE_TRANSITION"
  | notFound _ => "NOT_FOUND"
  | queueFull => "QUEUE_FULL"
  | cancelled => "CANCELLED"
  | poolClosed => "POOL_CLOSED"
  | emptyBatch => "EMPTY_BATCH"
  | batchTooLarge _ _ => "BATCH_TOO_LARGE"
  | invalidSchedule _ => "INVALID_SCHEDULE"
  | scheduleNotFound _ => "SCHEDULE_NOT_FOUND"
  | scheduler _ => "SCHEDULER_ERROR"
  | eventHandler _ => "EVENT_HANDLER_FAILED"
  | storageUnavailable _ => "STORAGE_UNAVAILABLE"
  | compensationFailed _ _ _ _ => "COMPENSATION_FAILED"

/-- How a caller should treat an error. -/
def severity : Error → Severity
  | queueFull | cancelled => .retriable
  | storageUnavailable _ | poolClosed | scheduler _ | eventHandler _ => .fatal
  | compensationFailed _ _ _ _ => .critical
  | _ => .rejected

/-- The caller may submit again. -/
def isRetriable (e : Error) : Bool :=
  e.severity = .retriable

end Error

end CentLedger
