import CentLedger.Account.Locks
import CentLedger.Operation.Program
import CentLedger.Store.Fault

/-!
# The ledger that calls share

Calls run programs over one store, one audit trail and one set of locks. `Ledger.act` does one action of a call, or
finds that the call has to wait: for a lock, or at the gate that can hold balance writes up. `Ledger.run` runs a call
up to the point where it ends, has to wait, or crashes; a call that crashes gives up its locks and nothing else.
-/

namespace CentLedger

/-- A gate before balance writes: while it is closed they wait, in the order in which they came. -/
structure Gate where
  closed : Bool
  waiting : List CallId
  deriving DecidableEq, Repr

namespace Gate

/-- A gate that holds nothing up. -/
def opened : Gate :=
  ⟨false, []⟩

/-- Close the gate. -/
def close (g : Gate) : Gate :=
  { g with closed := true }

/-- Let the first writes through, up to a number of them. -/
def permit (g : Gate) (n : Nat) : List CallId × Gate :=
  (g.waiting.take n, { g with waiting := g.waiting.drop n })

end Gate

/-- What calls share. -/
structure Ledger where
  store : Store
  trail : Trail
  locks : Locks
  gate : Gate
  now : Instant
  /-- Calls that need not wait any longer, in the order in which that came about. -/
  woken : List CallId

/-- What came of an action. -/
inductive Attempt (α : Type)
  | reply (value : α)
  /-- The call has to wait before it can do the action. -/
  | wait
  /-- The call ends here. -/
  | crash

/-- Where a call stands. -/
inductive Progress (α : Type)
  | finished (value : α)
  /-- The call waits before the first action of what is left of its program. -/
  | waiting (rest : Program α)
  | crashed

namespace Ledger

/-- A ledger without rows, at some time. -/
def empty (now : Instant) : Ledger :=
  ⟨.empty, .empty, .free, .opened, now, []⟩

/-- Release the lock of an account, and wake the call that has it next. -/
def release (l : Ledger) (user : UserId) : Ledger :=
  let (next, locks) := l.locks.release user
  { l with locks := locks, woken := l.woken ++ next.toList }

/-- Release all locks that a call has. -/
def releaseAll (l : Ledger) (call : CallId) : Ledger :=
  (l.locks.heldBy call).foldl release l

/-- Do an action of a call. A call that was granted what it waited for does not wait again. -/
def act (l : Ledger) (call : CallId) (granted : Bool) : (action : Action) → Attempt action.Reply × Ledger
  | .lock user =>
    if granted then (.reply (), l)
    else
      let (atOnce, locks) := l.locks.acquire user call
      (if atOnce then .reply () else .wait, { l with locks := locks })
  | .unlock user => (.reply (), l.release user)
  | .clock => (.reply l.now, l)
  | .store request =>
    if l.gate.closed && !granted && request.written?.isSome then
      (.wait, { l with gate := { l.gate with waiting := l.gate.waiting ++ [call] } })
    else
      match l.store.perform l.now request with
      | (none, store) => (.crash, { l with store := store })
      | (some answer, store) => (.reply answer, { l with store := store })
  | .audit record =>
    let (answer, trail) := l.trail.record l.now record
    (.reply answer, { l with trail := trail })

/-- Run a call for as long as it need not wait. -/
def run {α : Type} (call : CallId) : (granted : Bool) → Program α → Ledger → Progress α × Ledger
  | _, .done a, l => (.finished a, l)
  | granted, .act action next, l =>
    match l.act call granted action with
    | (.reply r, l) => run call false (next r) l
    | (.wait, l) => (.waiting (.act action next), l)
    | (.crash, l) => (.crashed, l.releaseAll call)

end Ledger

end CentLedger
