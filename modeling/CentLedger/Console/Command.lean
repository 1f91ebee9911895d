import CentLedger.Service.Control

/-!
# Commands and answers

What a console can tell a service to do, and what it gets back. Records, tickets, tokens, timers, batches and
subscriptions go by names that the console gives them.
-/

namespace CentLedger

/-- A command of a console. -/
inductive Command
  | applyCredit (user : UserId) (amount : Cents)
  | applyDebit (user : UserId) (amount : Cents)
  | applyTransfer (source target : UserId) (amount : Cents)
  | credit (user : UserId) (amount : Cents)
  | debit (user : UserId) (amount : Cents)
  | transfer (source target : UserId) (amount : Cents)
  | balance (user : UserId)
  | history (user : UserId) (asOf : Option Instant) (limit : Nat)
  | openRecord (request : Request) (name : String)
  | complete (name : String)
  | fail (name cause : String)
  | get (id : TransactionId) (name : Option String)
  | latest (limit : Nat)
  /-- The number of balance rows. -/
  | rows
  /-- A request to the store itself. -/
  | store (request : StoreRequest)
  | audit (entity : Option String)
  | breakAudit (on : Bool)
  | fault (fault : Fault) (on : Bool)
  | writesLeft (n : Option Nat)
  | closeGate
  | openGate
  | permit (n : Nat)
  | submit (job : Job) (name : String) (token : Option String)
  | submitMany (jobs : List Job) (name : String) (token : Option String)
  | wait (ticket : String) (token : Option String)
  | waitTimeout (ticket : String) (ms : Nat)
  | dropTicket (ticket : String)
  | execute (job : Job) (ms : Option Nat)
  | tally
  | resetTally
  | pool
  | shutdownPool
  | stopPool
  | cancel (token : String)
  | isCancelled (token : String)
  | awaitToken (token : String)
  | cancelAfter (token : String) (ms : Nat)
  | abortTimer (token : String)
  /-- Start a number of equal batches. -/
  | batch (title : String) (jobs : List Job) (name : String) (times : Nat)
  | batchWait (name : String)
  | batchStatus (name : String)
  | batchPrune
  | batchTracked
  | batchTally
  | subscribe (type name : String) (failure : Option Error)
  | unsubscribe (name : String)
  | handlers (type : String)
  | events
  | publish (type aggregate : String) (data : Json)
  | register (order : StandingOrder)
  | unregister (id : String)
  | updateSchedule (id schedule : String)
  | schedule (id : String)
  | schedules
  | startScheduler
  | stopScheduler
  | start
  | shutdown
  | jump (moment : Instant)
  | advance (ms : Nat)
  /-- Ask again for the answer of an earlier command. -/
  | join (index : Nat)

/-- What a name stands for. -/
inductive NameKind
  | record
  | ticket
  | token
  | batch
  | command
  deriving DecidableEq, Repr

/-- An answer to a command. -/
inductive Answer
  | done (r : Except Error Unit)
  | applied (r : Transfer.Outcome)
  | balance (r : Except Error Balance)
  | moved (r : Except Error (Balance × Balance))
  | snapshot (r : Except Error Snapshot)
  | snapshots (r : Except Error (List Snapshot))
  | record (r : Except Error Transaction)
  /-- The outcome of closing a record, and the record after it. -/
  | closed (r : Except Error Unit) (after : Transaction)
  | found (r : Except Error (Option Transaction))
  | records (r : Except Error (List Transaction))
  | rows (n : Nat)
  | audit (kept : List AuditEntry) (logged : List AuditRecord)
  | each (rs : List (Except Error Unit))
  | result (r : Except Error JobResult)
  | dropped (was : Bool)
  | tally (t : Tally)
  | batchTally (t : Tally)
  | pool (size capacity : Nat) (isClosed : Bool)
  | cancelled (was : Bool)
  | batch (b : Batch)
  | batchStatus (b : Option Batch)
  | pruned (n : Nat)
  | tracked (n : Nat)
  | subscribed (r : Except Error SubscriptionId)
  | removed (was : Bool)
  | handlers (n : Nat)
  | events (notices : List (String × Event))
  | passed (notices : List (String × Event))
  | order (r : Except Error StandingOrder)
  | schedule (l : Option Listing)
  | schedules (ls : List Listing)
  /-- The command is not finished yet. -/
  | pending
  /-- What the command did ended in a crash. -/
  | crashed
  /-- The command speaks of something that is not there. -/
  | unknown (kind : NameKind)

namespace Answer

/-- The command did what it was told. -/
def ok : Answer :=
  done (.ok ())

end Answer

end CentLedger
