/-!
# Kinds and statuses of transactions

A transaction credits an account, debits one, or transfers between two. It starts `pending` and ends `completed` or
`failed`; both ends are terminal, and no other move exists.
-/

namespace CentLedger

/-- What a transaction does to the accounts it names. -/
inductive Kind
  | credit
  | debit
  | transfer
  deriving DecidableEq, Repr

/-- How far a transaction has come. -/
inductive Status
  | pending
  | completed
  | failed
  deriving DecidableEq, Repr

namespace Kind

/-- The word for a kind, in records and messages. -/
def text : Kind → String
  | credit => "credit"
  | debit => "debit"
  | transfer => "transfer"

/-- The kind that a word names. -/
def ofText? (s : String) : Option Kind :=
  if s = "credit" then some credit
  else if s = "debit" then some debit
  else if s = "transfer" then some transfer
  else none

@[simp] theorem ofText?_text (k : Kind) : ofText? k.text = some k := by cases k <;> rfl

end Kind

namespace Status

/-- The word for a status, in records and messages. -/
def text : Status → String
  | pending => "pending"
  | completed => "completed"
  | failed => "failed"

/-- The status that a word names. -/
def ofText? (s : String) : Option Status :=
  if s = "pending" then some pending
  else if s = "completed" then some completed
  else if s = "failed" then some failed
  else none

@[simp] theorem ofText?_text (s : Status) : ofText? s.text = some s := by cases s <;> rfl

/-- A terminal status admits no further move. -/
def isTerminal : Status → Bool
  | pending => false
  | completed => true
  | failed => true

/-- The moves of the state machine: from `pending` to either end. -/
def canMoveTo : Status → Status → Bool
  | pending, completed => true
  | pending, failed => true
  | _, _ => false

end Status

end CentLedger
