import CentLedger.Service.Turn

/-!
# Asking something of a service

The requests that a service takes: calls on the ledger, jobs and tickets, tokens and timers, batches, subscriptions and
events, standing orders, and the clock. A request does what it does at once; the caller then lets the service settle.
-/

namespace CentLedger

namespace Service

variable {ρ : Type}

/-! ## Calls and waits -/

/-- Run a program as a call. -/
def call (s : Service ρ) (p : Program ρ) : CallId × Service ρ :=
  (s.nextCall, { s with nextCall := s.nextCall + 1 }.runCaller s.nextCall false p)

/-- Wait for something. -/
def await (s : Service ρ) (w : Awaited ρ) : CallId × Service ρ :=
  let id := s.nextCall
  let s := { s with nextCall := s.nextCall + 1 }
  match s.answer? w with
  | some r => (id, s.finish id (.answered r))
  | none => (id, { s with awaiting := s.awaiting ++ [(id, w)] })

/-- How a call ended, if it has; an ending is handed out once. -/
def collect (s : Service ρ) (call : CallId) : Option (Ending ρ) × Service ρ :=
  ((s.endings.find? fun e => e.1 = call).map (·.2), { s with endings := s.endings.filter fun e => e.1 ≠ call })

/-! ## Jobs -/

/-- Submit a job, under a token if one is given. -/
def submit (s : Service ρ) (token : Option String) (job : Job) : Except Error JobId × Service ρ :=
  let (r, pool) := s.pool.submit (s.isCancelled token) job
  (r, (s.withPool pool).wakeWorker)

/-- Wait for the result of a job, up to a number of milliseconds if one is given. -/
def awaitJob (s : Service ρ) (job : JobId) (token : Option String) (ms : Option Nat)
    (answer : Except Error JobResult → ρ) : CallId × Service ρ :=
  s.await (.ticket job token (ms.map (s.elapsed + ·)) answer)

/-- Submit a job and wait for its result, for the time that the settings give unless another is given. -/
def execute (s : Service ρ) (job : Job) (ms : Option Nat) (answer : Except Error JobResult → ρ) :
    Except Error CallId × Service ρ :=
  match s.submit none job with
  | (.error e, s) => (.error e, s)
  | (.ok id, s) =>
    let (call, s) := s.awaitJob id none (some (ms.getD s.settings.worker.resultTimeoutMs)) answer
    (.ok call, s)

/-- Wait for the workers, if that remains to be done. -/
def awaitWorkers (s : Service ρ) (remains : Bool) (answer : ρ) : CallId × Service ρ :=
  if remains then s.await (.workers answer)
  else (s.nextCall, { s with nextCall := s.nextCall + 1 }.finish s.nextCall (.answered answer))

/-- Close the pool, and wait for its workers. -/
def shutdownPool (s : Service ρ) (answer : ρ) : CallId × Service ρ :=
  let (remains, pool) := s.pool.close.join
  (s.withPool pool).awaitWorkers remains answer

/-- Stop the pool, and wait for its workers. -/
def stopPool (s : Service ρ) (answer : ρ) : CallId × Service ρ :=
  let (remains, pool) := s.pool.stop.join
  (s.withPool pool).awaitWorkers remains answer

/-! ## Tokens -/

/-- Cancel a token. -/
def cancel (s : Service ρ) (token : String) : Service ρ :=
  { s with cancelled := if s.cancelled.contains token then s.cancelled else token :: s.cancelled }

/-- Cancel a token after a number of milliseconds. -/
def cancelAfter (s : Service ρ) (token : String) (ms : Nat) : Service ρ :=
  if ms = 0 then s.cancel token else { s with timers := s.timers ++ [(token, s.elapsed + ms)] }

/-- Take back the timer of a token that was set last. -/
def abortTimer (s : Service ρ) (token : String) : Service ρ :=
  { s with timers := (s.timers.reverse.eraseP fun t => t.1 = token).reverse }

/-! ## Batches -/

/-- Start a batch. -/
def startBatch (s : Service ρ) (name : String) (jobs : List Job) : Except Error BatchId × Service ρ :=
  match s.processor.start name jobs s.now with
  | (.error e, processor) => (.error e, { s with processor := processor })
  | (.ok id, processor) => (.ok id, { s with processor := processor }.push (.launch id))

/-- Forget the batches that are over; their number. -/
def pruneBatches (s : Service ρ) : Nat × Service ρ :=
  let processor := s.processor.prune
  (s.processor.tracked.length - processor.tracked.length, { s with processor := processor })

/-! ## Events -/

/-- How deep events may lead to further events. -/
def maxNesting : Nat := 64

/-- Publish an event. -/
def publish (s : Service ρ) (event : Event) : Except Error Unit × Service ρ :=
  match Bus.publish maxNesting event (s.bus, s.hub) with
  | none => (.error (.eventHandler "events nest too deeply"), s)
  | some d => (d.result, { s with bus := d.state.1, hub := d.state.2 }.wakeWorker)

/-- Subscribe a listener. -/
def subscribe (s : Service ρ) (type name : String) (failure : Option Error) :
    Except Error SubscriptionId × Service ρ :=
  let (r, bus) := s.bus.subscribe type (listener name failure)
  (r, { s with bus := bus })

/-- Remove a subscription. -/
def unsubscribe (s : Service ρ) (type : String) (id : SubscriptionId) : Bool × Service ρ :=
  let (r, bus) := s.bus.unsubscribe type id
  (r, { s with bus := bus })

/-- What listeners have noted; it is handed out once. -/
def readJournal (s : Service ρ) : List (String × Event) × Service ρ :=
  (s.hub.journal, { s with hub := { s.hub with journal := [] } })

/-! ## Standing orders -/

/-- Register a standing order. -/
def register (s : Service ρ) (order : StandingOrder) : Except Error Unit × Service ρ :=
  let (r, registry) := s.registry.register order s.now
  (r, { s with registry := registry })

/-- Remove a standing order. -/
def unregister (s : Service ρ) (id : String) : Except Error StandingOrder × Service ρ :=
  let (r, registry) := s.registry.unregister id
  (r, { s with registry := registry })

/-- Change the expression of a standing order. -/
def updateSchedule (s : Service ρ) (id schedule : String) : Except Error Unit × Service ρ :=
  let (r, registry) := s.registry.updateSchedule id schedule s.now
  (r, { s with registry := registry })

/-- Start the scheduler. -/
def startScheduler (s : Service ρ) : Except Error Unit × Service ρ :=
  let (r, ticker) := s.ticker.start s.elapsed
  (r, { s with ticker := ticker })

/-- Stop the scheduler. -/
def stopScheduler (s : Service ρ) : Service ρ :=
  { s with ticker := s.ticker.stop }

/-- Let everything that is due occur; that a handler fails keeps nothing else from occurring. -/
def fireDue (s : Service ρ) : Service ρ :=
  let (events, registry) := s.registry.fireDue s.now
  events.foldl (fun s event => (s.publish event).2) { s with registry := registry }

/-! ## The whole service -/

/-- Start the service: its scheduler, unless the settings turn it off. -/
def start (s : Service ρ) : Except Error Unit × Service ρ :=
  if s.settings.scheduler.enabled then s.startScheduler else (.ok (), s)

/-- Shut the service down: stop the scheduler, take the bridge off the bus, and drain the pool. -/
def shutdown (s : Service ρ) (answer : ρ) : CallId × Service ρ :=
  let s := if s.settings.scheduler.enabled then s.stopScheduler else s
  (s.unsubscribe Event.scheduledType bridgeId).2.shutdownPool answer

/-! ## The gate -/

/-- Let the first balance writes at the gate through, up to a number of them. -/
def permit (s : Service ρ) (n : Nat) : Service ρ :=
  let (calls, gate) := s.ledger.gate.permit n
  { s with ledger := { s.ledger with gate := gate }, ready := s.ready ++ calls.map .resume }

/-- Close the gate. -/
def closeGate (s : Service ρ) : Service ρ :=
  { s with ledger := { s.ledger with gate := s.ledger.gate.close } }

/-- Open the gate, and let everything through. -/
def openGate (s : Service ρ) : Service ρ :=
  let s := s.permit s.ledger.gate.waiting.length
  { s with ledger := { s.ledger with gate := .opened } }

/-- Change the faults of the store. -/
def withFaults (s : Service ρ) (f : Faults → Faults) : Service ρ :=
  { s with ledger := { s.ledger with store := { s.ledger.store with faults := f s.ledger.store.faults } } }

/-- Break or mend the audit trail. -/
def breakTrail (s : Service ρ) (broken : Bool) : Service ρ :=
  { s with ledger := { s.ledger with trail := { s.ledger.trail with broken := broken } } }

/-! ## Time -/

/-- Set the wall clock, which has milliseconds. -/
def jump (s : Service ρ) (moment : Instant) : Service ρ :=
  { s with ledger := { s.ledger with now := moment.toMillis } }

/-- Cancel the tokens whose time has come. -/
def fireTimers (s : Service ρ) : Service ρ :=
  let (due, later) := s.timers.partition fun t => t.2 ≤ s.elapsed
  due.foldl (fun s t => s.cancel t.1) { s with timers := later }

/-- Let the scheduler look for what is due, if it is time. -/
def tick (s : Service ρ) : Service ρ :=
  if s.ticker.isDue s.elapsed then { s with ticker := s.ticker.afterWake s.elapsed }.fireDue else s

/-- Let both clocks run for some milliseconds, and do what is due then. -/
def elapse (s : Service ρ) (ms : Nat) : Service ρ :=
  let s := { s with elapsed := s.elapsed + ms, ledger := { s.ledger with now := s.ledger.now.addMillis ms } }
  let s := s.fireTimers
  let s := (s.processor.due s.elapsed).foldl (fun s batch => s.push (.expire batch)) s
  s.tick.settle

/-- The milliseconds of one hop of the clocks. -/
def hop : Nat := 100

/-- Let the clocks run in hops. -/
def advanceHops : (hops : Nat) → Service ρ → Service ρ
  | 0, s => s
  | hops + 1, s => advanceHops hops (s.elapse hop)

/-- Let the clocks run for some milliseconds, in hops. -/
def advance (s : Service ρ) (ms : Nat) : Service ρ :=
  let s := advanceHops (ms / hop) s
  if ms % hop = 0 then s else s.elapse (ms % hop)

end Service

end CentLedger
