import CentLedger.Error
import CentLedger.Time.Instant

/-!
# Balances

The arithmetic of one account. A credit refuses an amount that is not positive and a sum that does not fit; a debit
refuses an amount that is not positive and one above the balance. Both stamp the balance with the time of the change and
leave it alone when they refuse. A snapshot is a balance as it is kept in the history.
-/

namespace CentLedger

/-- The balance of one account. -/
structure Balance where
  user : UserId
  amount : Cents
  lastUpdated : Instant
  deriving DecidableEq

/-- One entry of an account's history; the store gives it its identifier. -/
structure Snapshot where
  id : Nat
  user : UserId
  amount : Cents
  createdAt : Instant
  deriving DecidableEq

namespace Balance

/-- The balance of an account that nothing was booked on. -/
def zero (user : UserId) (now : Instant) : Balance :=
  ⟨user, 0, now⟩

/-- A balance read back from storage; a negative one is a corrupted row. -/
def restore (user : UserId) (amount : Cents) (lastUpdated : Instant) : Except Error Balance :=
  if amount < 0 then
    .error (.invalidTransaction
      ("stored balance for user " ++ Error.userText user ++ " is negative: " ++ Error.centsText amount))
  else .ok ⟨user, amount, lastUpdated⟩

/-- Add to the balance. -/
def credit (b : Balance) (amount : Cents) (now : Instant) : Except Error Balance :=
  if amount ≤ 0 then .error .invalidAmount
  else if b.amount.toInt + amount.toInt > maxCents then
    .error (.invalidTransaction ("credit overflow for user " ++ Error.userText b.user))
  else .ok { b with amount := b.amount + amount, lastUpdated := now }

/-- Take from the balance. -/
def debit (b : Balance) (amount : Cents) (now : Instant) : Except Error Balance :=
  if amount ≤ 0 then .error .invalidAmount
  else if b.amount < amount then .error (.insufficientFunds b.user b.amount amount)
  else .ok { b with amount := b.amount - amount, lastUpdated := now }

/-- The balance as an entry of the history, not yet numbered. -/
def snapshot (b : Balance) : Snapshot :=
  ⟨0, b.user, b.amount, b.lastUpdated⟩

/-- The amount in major units. -/
def amountMajor (b : Balance) : Decimal :=
  majorOfCents b.amount

end Balance

end CentLedger
