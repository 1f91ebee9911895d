import CentLedger.Service.State

/-!
# How a service proceeds

The service does one task after another, in the order in which they became ready; a task goes on until it has to wait.
A worker that has finished a job takes the next at once unless other workers are free. When no task is ready, the
service looks at its batches, and at the callers that wait for something.
-/

namespace CentLedger

namespace Service

variable {ρ : Type}

/-- Take over the ledger after a call ran, and make ready the calls that it woke. -/
def withLedger (s : Service ρ) (ledger : Ledger) : Service ρ :=
  { s with ledger := { ledger with woken := [] }, ready := s.ready ++ ledger.woken.map .resume }

/-- Keep a call that has to wait. -/
def keep (s : Service ρ) (call : CallId) (rest : Call ρ) : Service ρ :=
  { s with calls := (call, rest) :: s.calls }

/-- Run the call of a caller. -/
def runCaller (s : Service ρ) (call : CallId) (granted : Bool) (p : Program ρ) : Service ρ :=
  match s.ledger.run call granted p with
  | (.finished r, ledger) => (s.withLedger ledger).finish call (.answered r)
  | (.waiting rest, ledger) => (s.withLedger ledger).keep call (.caller rest)
  | (.crashed, ledger) => (s.withLedger ledger).finish call .crashed

/-- A worker is done with a job; if no other is free, it looks at the queue at once. -/
def workerDone (s : Service ρ) (pool : Pool) : Service ρ :=
  let alone := s.pool.idle = 0 && !pool.queue.isEmpty && 0 < pool.idle
  let s := s.withPool pool
  if alone then { s with ready := .receive :: s.ready } else s

/-- Run the job of a worker. -/
def runWorker (s : Service ρ) (call : CallId) (granted : Bool) (job : JobId) (p : Program Transfer.Outcome) :
    Service ρ :=
  match s.ledger.run call granted p with
  | (.finished outcome, ledger) => (s.withLedger ledger).workerDone (s.pool.finish job outcome s.now)
  | (.waiting rest, ledger) => (s.withLedger ledger).keep call (.worker job rest)
  | (.crashed, ledger) => (s.withLedger ledger).withPool (s.pool.crash job)

/-- Go on with a call that was granted what it waited for. -/
def resume (s : Service ρ) (call : CallId) : Service ρ :=
  let others := { s with calls := s.calls.filter fun c => c.1 ≠ call }
  match s.calls.find? fun c => c.1 = call with
  | none => s
  | some (_, .caller p) => others.runCaller call true p
  | some (_, .worker job p) => others.runWorker call true job p

/-- Let a free worker take a job, and run it. -/
def receive (s : Service ρ) : Service ρ :=
  match s.pool.take? with
  | none => s
  | some ((id, job), pool) =>
    let call := s.nextCall
    { s.withPool pool with nextCall := call + 1 }.wakeWorker.runWorker call false id (Transfer.execute job)

/-- Submit the jobs of a batch; a batch without any time is over as soon as it is looked at. -/
def launch (s : Service ρ) (batch : BatchId) : Service ρ :=
  let (processor, pool) := s.processor.launch batch s.pool s.elapsed
  let s := { s.withPool pool with processor := processor }
  (if processor.timeoutMs = 0 then s.push (.expire batch) else s).wakeWorker

/-- Do a task. -/
def turn (s : Service ρ) : Task → Service ρ
  | .resume call => s.resume call
  | .receive => s.receive
  | .launch batch => s.launch batch
  | .expire batch => { s with processor := s.processor.expire batch }.push (.review batch)
  | .review batch => { s with processor := s.processor.review batch s.pool s.now }

/-- Do tasks until none is ready. -/
def proceed : (fuel : Nat) → Service ρ → Service ρ
  | 0, s => s
  | fuel + 1, s =>
    match s.ready with
    | [] => s
    | task :: rest => proceed fuel ({ s with ready := rest }.turn task)

/-- More tasks than can come up before none is ready: each call takes a lock three times at most. -/
def workload (s : Service ρ) : Nat :=
  let unsubmitted := s.processor.runs.foldl (fun n r => n + r.jobs.length + 1) 0
  16 * (s.ready.length + s.calls.length + s.pool.queue.length + unsubmitted + 1)

/-- What a caller waits for has come. -/
def answer? (s : Service ρ) : Awaited ρ → Option ρ
  | .ticket job token deadline answer =>
    let late := match deadline with
      | none => false
      | some t => t ≤ s.elapsed
    (s.pool.answer? job (s.isCancelled token || late)).map answer
  | .token name answer => if s.cancelled.contains name then some answer else none
  | .batch id answer => (s.processor.result? id).map answer
  | .workers answer => if s.pool.alive = 0 then some answer else none

/-- Answer the callers whose wait is over. -/
def answerWaits (s : Service ρ) : Service ρ :=
  s.awaiting.foldl
    (fun s w =>
      match s.answer? w.2 with
      | some r => s.finish w.1 (.answered r)
      | none => { s with awaiting := s.awaiting ++ [w] })
    { s with awaiting := [] }

/-- Do all that can be done without anything coming from outside. -/
def settle (s : Service ρ) : Service ρ :=
  let s := proceed s.workload s
  { s with processor := s.processor.reviewAll s.pool s.now }.answerWaits

end Service

end CentLedger
