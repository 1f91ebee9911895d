import CentLedger.Audit.Trail
import CentLedger.Store.Request

/-!
# Programs

An operation of the ledger is a program: a tree of atomic actions, each with the reply that decides how to go on. The
actions are all that an operation can do to the world: take and release the lock of an account, look at the clock, ask
the store, and record for the audit. Programs know nothing of how these are done, so the same operation can run alone,
interleaved with others, or against a database.
-/

namespace CentLedger

/-- An atomic action of an operation. -/
inductive Action
  /-- Wait for the lock of an account, and take it. -/
  | lock (user : UserId)
  /-- Release the lock of an account. -/
  | unlock (user : UserId)
  /-- Look at the clock. -/
  | clock
  /-- Ask the store. -/
  | store (request : StoreRequest)
  /-- Record for the audit. -/
  | audit (record : AuditRecord)

/-- The type of the reply to an action. -/
abbrev Action.Reply : Action → Type
  | .lock _ => Unit
  | .unlock _ => Unit
  | .clock => Instant
  | .store request => Except Error request.Answer
  | .audit _ => Except Error Unit

/-- A program that ends with a value. -/
inductive Program (α : Type)
  /-- The program is done. -/
  | done (value : α)
  /-- Do an action and go on from its reply. -/
  | act (action : Action) (next : action.Reply → Program α)

namespace Program

variable {α β : Type}

/-- One program after another. -/
def bind (p : Program α) (k : α → Program β) : Program β :=
  match p with
  | done a => k a
  | act action next => act action fun reply => (next reply).bind k

instance : Monad Program where
  pure := done
  bind := bind

/-- A program that ends with another value. -/
def map (f : α → β) (p : Program α) : Program β :=
  p.bind fun a => done (f a)

/-- Wait for the lock of an account, and take it. -/
def lock (user : UserId) : Program Unit :=
  act (.lock user) done

/-- Release the lock of an account. -/
def unlock (user : UserId) : Program Unit :=
  act (.unlock user) done

/-- The time. -/
def clock : Program Instant :=
  act .clock done

/-- Ask the store. -/
def ask (request : StoreRequest) : Program (Except Error request.Answer) :=
  act (.store request) done

/-- Record for the audit; that a record was refused changes nothing. -/
def note (record : AuditRecord) : Program Unit :=
  act (.audit record) fun _ => done ()

end Program

end CentLedger
