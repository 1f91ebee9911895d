import CentLedger.Error
import CentLedger.Time.Instant

/-!
# Transaction records

A request names a kind, accounts and an amount; a record adds an identifier, a status with its cause, and two times. The
shape rules say which accounts a kind names: `checkShape` refuses the first of them that a request breaks, the amount
before the accounts. A record moves along its state machine once, and every move stamps `updatedAt`.
-/

namespace CentLedger

/-- The identifier that the store gives a transaction record. -/
abbrev TransactionId := Nat

/-- What a caller asks for. -/
structure Request where
  kind : Kind
  source : Option UserId
  target : Option UserId
  amount : Cents
  deriving DecidableEq, Repr

/-- A transaction record. -/
structure Transaction where
  id : TransactionId
  source : Option UserId
  target : Option UserId
  amount : Cents
  kind : Kind
  status : Status
  failureCause : Option String
  createdAt : Instant
  updatedAt : Instant
  deriving DecidableEq

/-- The first rule that a kind, accounts and an amount break. -/
def checkShape (kind : Kind) (source target : Option UserId) (amount : Cents) : Except Error Unit :=
  if amount ≤ 0 then .error .invalidAmount
  else
    match kind, source, target with
    | .transfer, some f, some t => if f = t then .error .sameAccountTransfer else .ok ()
    | .transfer, _, _ => .error (.invalidTransaction "transfer requires both from and to user IDs")
    | .credit, none, some _ => .ok ()
    | .credit, _, _ => .error (.invalidTransaction "credit must set only to_user_id")
    | .debit, some _, none => .ok ()
    | .debit, _, _ => .error (.invalidTransaction "debit must set only from_user_id")

namespace Request

/-- A request to add to an account. -/
def credit (user : UserId) (amount : Cents) : Request :=
  ⟨.credit, none, some user, amount⟩

/-- A request to take from an account. -/
def debit (user : UserId) (amount : Cents) : Request :=
  ⟨.debit, some user, none, amount⟩

/-- A request to move from one account to another. -/
def transfer (source target : UserId) (amount : Cents) : Request :=
  ⟨.transfer, some source, some target, amount⟩

/-- The first shape rule that a request breaks. -/
def validate (r : Request) : Except Error Unit :=
  checkShape r.kind r.source r.target r.amount

end Request

namespace Transaction

/-- The record that a request opens, before the store gives it an identifier. -/
def ofRequest (r : Request) (now : Instant) : Transaction where
  id := 0
  source := r.source
  target := r.target
  amount := r.amount
  kind := r.kind
  status := .pending
  failureCause := none
  createdAt := now
  updatedAt := now

/-- The first shape rule that a record breaks. -/
def validate (t : Transaction) : Except Error Unit :=
  checkShape t.kind t.source t.target t.amount

/-- Move to another status, if the state machine has that move. -/
def moveTo (t : Transaction) (next : Status) (now : Instant) : Except Error Transaction :=
  if t.status.canMoveTo next then .ok { t with status := next, updatedAt := now }
  else .error (.illegalTransition t.status next)

/-- Mark a record completed. -/
def complete (t : Transaction) (now : Instant) : Except Error Transaction :=
  t.moveTo .completed now

/-- Mark a record failed and keep the cause. -/
def fail (t : Transaction) (cause : String) (now : Instant) : Except Error Transaction :=
  (t.moveTo .failed now).map fun t => { t with failureCause := some cause }

/-- The amount in major units. -/
def amountMajor (t : Transaction) : Decimal :=
  majorOfCents t.amount

end Transaction

/-- The failure of an orchestrated operation: its cause, and the record as stored if one was opened. -/
structure ApplyError where
  transaction : Option Transaction
  cause : Error
  deriving DecidableEq

/-- A refusal before anything was written. -/
def ApplyError.rejected (e : Error) : ApplyError :=
  ⟨none, e⟩

/-- A failure after the record was opened. -/
def ApplyError.withRecord (t : Transaction) (e : Error) : ApplyError :=
  ⟨some t, e⟩

/-- The kind that a word names, or the error that names the word. -/
def Kind.parse (s : String) : Except Error Kind :=
  match Kind.ofText? s with
  | some k => .ok k
  | none => .error (.invalidTransaction ("unknown transaction type: " ++ s))

/-- The status that a word names, or the error that names the word. -/
def Status.parse (s : String) : Except Error Status :=
  match Status.ofText? s with
  | some t => .ok t
  | none => .error (.invalidTransaction ("unknown transaction status: " ++ s))

end CentLedger
