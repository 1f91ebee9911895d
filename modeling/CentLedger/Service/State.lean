import CentLedger.Batch.Processor
import CentLedger.Event.Bus
import CentLedger.Operation.Ledger
import CentLedger.Schedule.Registry
import CentLedger.Settings.Settings

/-!
# The ledger service

The service holds the ledger, the pool of workers, the batches, the standing orders and the bus that joins them: an
event of a standing order becomes a job of the pool. Whoever asks something of the service makes a call, and gets an
answer of the type `ρ` at once or later; calls that have to wait are kept with what is left of them.
-/

namespace CentLedger

/-- What the handlers of events act on. -/
structure Hub where
  pool : Pool
  /-- The events that listeners were told of, each with the name of the listener, in order. -/
  journal : List (String × Event)

/-- The refusal of an event that holds no standing order. -/
def badPayload : Error :=
  .eventHandler "invalid scheduled transaction payload: "

/-- The handler that submits the job of a standing order's event to the pool. -/
def bridge : Handler Hub := fun event =>
  match StandingOrder.ofJson? event.data with
  | none => .finish (.error badPayload)
  | some order =>
    match order.toJob with
    | .error e => .finish (.error e)
    | .ok job =>
      .observe fun hub =>
        let (answer, pool) := hub.pool.submit false job
        .update (fun hub => { hub with pool := pool }) (.finish (answer.map fun _ => ()))

/-- A handler that notes each event under its name, and then fails or not. -/
def listener (name : String) (failure : Option Error) : Handler Hub := fun event =>
  .update (fun hub => { hub with journal := hub.journal ++ [(name, event)] })
    (.finish (match failure with | some e => .error e | none => .ok ()))

/-- What a service is about to do. -/
inductive Task
  /-- Go on with a call that waited for a lock or at the gate. -/
  | resume (call : CallId)
  /-- Let a free worker look at the queue. -/
  | receive
  /-- Submit the jobs of a batch. -/
  | launch (batch : BatchId)
  /-- End the time of a batch. -/
  | expire (batch : BatchId)
  /-- Look at the jobs of a batch. -/
  | review (batch : BatchId)
  deriving DecidableEq, Repr

/-- A call in progress: that of a caller, or the job of a worker. -/
inductive Call (ρ : Type)
  | caller (program : Program ρ)
  | worker (job : JobId) (program : Program Transfer.Outcome)

/-- How a caller's call ended. -/
inductive Ending (ρ : Type)
  | answered (answer : ρ)
  | crashed

/-- What a caller waits for besides the ledger. -/
inductive Awaited (ρ : Type)
  /-- The result of a job, a token, or a deadline, whichever is first. -/
  | ticket (job : JobId) (token : Option String) (deadline : Option Nat) (answer : Except Error JobResult → ρ)
  | token (name : String) (answer : ρ)
  | batch (id : BatchId) (answer : Batch → ρ)
  /-- That all workers have left. -/
  | workers (answer : ρ)

/-- A ledger service whose callers get answers of a type. -/
structure Service (ρ : Type) where
  settings : Settings
  ledger : Ledger
  hub : Hub
  bus : Bus Hub
  processor : Processor
  registry : Registry
  ticker : Ticker
  /-- The milliseconds that timers have counted. -/
  elapsed : Nat
  /-- The tokens that were cancelled. -/
  cancelled : List String
  /-- The tokens that will be cancelled, and when. -/
  timers : List (String × Nat)
  calls : List (CallId × Call ρ)
  awaiting : List (CallId × Awaited ρ)
  ready : List Task
  /-- The calls that have ended, with their endings. -/
  endings : List (CallId × Ending ρ)
  nextCall : CallId

namespace Service

variable {ρ : Type}

/-- A service at rest. -/
def create (settings : Settings) (now : Instant) : Service ρ where
  settings := settings
  ledger := .empty now
  hub := ⟨.start settings.worker.workers settings.worker.effectiveCapacity, []⟩
  bus := (Bus.empty.subscribe Event.scheduledType bridge).2
  processor := .empty settings.batch.maxBatchSize settings.batch.batchTimeoutMs
  registry := .empty
  ticker := .idle
  elapsed := 0
  cancelled := []
  timers := []
  calls := []
  awaiting := []
  ready := []
  endings := []
  nextCall := 0

/-- The subscription of the bridge. -/
def bridgeId : SubscriptionId := 0

/-- The time on the wall clock. -/
def now (s : Service ρ) : Instant :=
  s.ledger.now

/-- The pool of workers. -/
def pool (s : Service ρ) : Pool :=
  s.hub.pool

/-- Replace the pool. -/
def withPool (s : Service ρ) (pool : Pool) : Service ρ :=
  { s with hub := { s.hub with pool := pool } }

/-- Put a task behind those that are ready. -/
def push (s : Service ρ) (task : Task) : Service ρ :=
  { s with ready := s.ready ++ [task] }

/-- A token was cancelled; a call without a token cannot be. -/
def isCancelled (s : Service ρ) : Option String → Bool
  | none => false
  | some name => s.cancelled.contains name

/-- Note how a call ended. -/
def finish (s : Service ρ) (call : CallId) (ending : Ending ρ) : Service ρ :=
  { s with endings := (call, ending) :: s.endings }

/-- Let a free worker look at the queue, if there is something in it. -/
def wakeWorker (s : Service ρ) : Service ρ :=
  if s.pool.queue.isEmpty || s.pool.idle = 0 || s.ready.contains .receive then s else s.push .receive

end Service

end CentLedger
