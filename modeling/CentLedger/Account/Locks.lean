import CentLedger.Money

/-!
# Account locks

Each account has a lock, and calls wait for it in the order in which they came. The queue of an account holds the call
that has the lock, and behind it those that wait; an account without a queue is free.
-/

namespace CentLedger

/-- The number of a call in progress. -/
abbrev CallId := Nat

/-- The queues of the accounts that are not free. -/
structure Locks where
  queues : List (UserId × List CallId)
  deriving DecidableEq, Repr

namespace Locks

/-- All accounts are free. -/
def free : Locks :=
  ⟨[]⟩

/-- The call that has the lock of an account, and those that wait for it. -/
def queue (l : Locks) (user : UserId) : List CallId :=
  ((l.queues.find? fun q => q.1 = user).map (·.2)).getD []

/-- The call that has the lock of an account. -/
def holder? (l : Locks) (user : UserId) : Option CallId :=
  (l.queue user).head?

/-- Replace the queue of an account; an empty one goes. -/
def setQueue (user : UserId) (calls : List CallId) : List (UserId × List CallId) → List (UserId × List CallId)
  | [] => if calls.isEmpty then [] else [(user, calls)]
  | (u, q) :: rest =>
    if u = user then if calls.isEmpty then rest else (user, calls) :: rest
    else (u, q) :: setQueue user calls rest

/-- Line up for the lock of an account; whether the call has it at once. -/
def acquire (l : Locks) (user : UserId) (call : CallId) : Bool × Locks :=
  let q := l.queue user
  (q.isEmpty, ⟨setQueue user (q ++ [call]) l.queues⟩)

/-- Release the lock of an account; the call that has it next. -/
def release (l : Locks) (user : UserId) : Option CallId × Locks :=
  let q := (l.queue user).tail
  (q.head?, ⟨setQueue user q l.queues⟩)

/-- The accounts whose locks a call has. -/
def heldBy (l : Locks) (call : CallId) : List UserId :=
  (l.queues.filter fun q => q.2.head? = some call).map (·.1)

end Locks

end CentLedger
