import CentLedger.Store.Memory

/-!
# A store that fails

Rows in memory behind a list of faults. A fault refuses a kind of request, or the balance reads or writes of a user; the
balance writes can also be counted, so that all after a number of them are refused. A refused request leaves the rows
alone. Worse than a refusal is a crash: a balance write for certain users ends whatever asked for it.
-/

namespace CentLedger

/-- A way in which a store fails. -/
inductive Fault
  | read (user : UserId)
  | write (user : UserId)
  | crash (user : UserId)
  | history
  | insert
  | update
  | query
  deriving DecidableEq, Repr

/-- What a store refuses to do. -/
structure Faults where
  /-- Users whose balances cannot be read. -/
  reads : List UserId
  /-- Users whose balances cannot be written. -/
  writes : List UserId
  /-- Users for whom a balance write crashes. -/
  crashes : List UserId
  /-- The history can neither be written nor read. -/
  history : Bool
  /-- No transaction record can be added. -/
  inserts : Bool
  /-- No transaction record can be replaced. -/
  updates : Bool
  /-- No transaction record can be read. -/
  queries : Bool
  /-- Balance writes that still succeed, unless there is no limit. -/
  writesLeft : Option Nat
  deriving DecidableEq, Repr

namespace Faults

/-- A store that does what it is asked. -/
def none : Faults :=
  ⟨[], [], [], false, false, false, false, .none⟩

/-- Put a user on a list, or take the user off. -/
def mark (on : Bool) (user : UserId) (users : List UserId) : List UserId :=
  let others := users.filter (· ≠ user)
  if on then user :: others else others

/-- Turn a fault on or off. -/
def set (f : Faults) (on : Bool) : Fault → Faults
  | .read user => { f with reads := mark on user f.reads }
  | .write user => { f with writes := mark on user f.writes }
  | .crash user => { f with crashes := mark on user f.crashes }
  | .history => { f with history := on }
  | .insert => { f with inserts := on }
  | .update => { f with updates := on }
  | .query => { f with queries := on }

/-- The refusal of a balance write. -/
def writeFailure (user : UserId) : Error :=
  .storageUnavailable ("injected write failure for user " ++ Error.userText user)

/-- Why a request is refused, if it is. -/
def refusal? (f : Faults) : StoreRequest → Option Error
  | .balance user =>
    if user ∈ f.reads then some (.storageUnavailable ("injected read failure for user " ++ Error.userText user))
    else .none
  | .saveBalance b => if b.user ∈ f.writes ∨ f.writesLeft = some 0 then some (writeFailure b.user) else .none
  | .appendHistory _ => if f.history then some (.storageUnavailable "injected history failure") else .none
  | .history _ _ _ => if f.history then some (.storageUnavailable "injected history failure") else .none
  | .insertTransaction _ => if f.inserts then some (.storageUnavailable "injected insert failure") else .none
  | .updateTransaction t =>
    if f.updates then some (.storageUnavailable ("injected update failure for transaction " ++ toString t.id))
    else .none
  | .transaction _ => if f.queries then some (.storageUnavailable "injected query failure") else .none
  | .latest _ => if f.queries then some (.storageUnavailable "injected query failure") else .none

/-- A request crashes whatever asked for it. -/
def crashes? (f : Faults) : StoreRequest → Bool
  | .saveBalance b => f.crashes.contains b.user
  | _ => false

/-- The faults after a request that was not refused: a balance write uses up one of those left. -/
def after (f : Faults) : StoreRequest → Faults
  | .saveBalance _ => { f with writesLeft := f.writesLeft.map (· - 1) }
  | _ => f

end Faults

/-- Rows in memory and the faults in front of them. -/
structure Store where
  memory : Memory
  faults : Faults
  deriving DecidableEq

namespace Store

/-- A store without rows that does what it is asked. -/
def empty : Store :=
  ⟨.empty, .none⟩

/-- Answer a request at some time; no answer if the request crashes. -/
def perform (s : Store) (now : Instant) (request : StoreRequest) : Option (Except Error request.Answer) × Store :=
  if s.faults.crashes? request then (none, s)
  else
    match s.faults.refusal? request with
    | some e => (some (.error e), s)
    | none =>
      let (answer, memory) := s.memory.perform now request
      (some answer, ⟨memory, s.faults.after request⟩)

end Store

end CentLedger
