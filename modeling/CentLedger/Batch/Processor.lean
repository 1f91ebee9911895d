import CentLedger.Batch.Batch
import CentLedger.Queue.Pool

/-!
# The batch processor

A batch that was started is tracked from then on. Its run submits all jobs at once and then waits for each; a job that
was refused, or whose wait ended with the batch's time, counts as failed. When all jobs are over, the record gets its
final status, and the processor's own tally grows by the batch. Finished records are pruned when there are too many.
-/

namespace CentLedger

/-- What a batch knows of one of its jobs. -/
inductive JobState
  /-- The job was accepted, and its result is awaited. -/
  | awaited (id : JobId)
  /-- The job is over, as far as the batch is concerned. -/
  | over (success : Bool)
  deriving DecidableEq, Repr

/-- A batch in progress. -/
structure BatchRun where
  id : BatchId
  /-- The jobs that are yet to be submitted. -/
  jobs : List Job
  /-- The amount and the state of each job that was. -/
  states : List (Cents × JobState)
  /-- When its time is over, on the clock of timers. -/
  deadline : Nat
  /-- Its time is over. -/
  expired : Bool

namespace BatchRun

/-- Submit jobs one after another. -/
def submitAll (cancelled : Bool) : List Job → Pool → List (Cents × JobState) × Pool
  | [], p => ([], p)
  | job :: rest, p =>
    let (r, p) := p.submit cancelled job
    let state := match r with
      | .ok id => JobState.awaited id
      | .error _ => JobState.over false
    let (states, p) := submitAll cancelled rest p
    ((job.amount, state) :: states, p)

/-- What is known of a job after a look at its ticket: a result counts even if the time is over. -/
def look (p : Pool) (expired : Bool) : JobState → JobState
  | .over success => .over success
  | .awaited id =>
    match p.delivery? id with
    | some (.result r) => .over r.isSuccess
    | some .dropped => .over false
    | none => if expired then .over false else .awaited id

/-- Look at the tickets of all jobs. -/
def lookAll (p : Pool) (r : BatchRun) : BatchRun :=
  { r with states := r.states.map fun s => (s.1, look p r.expired s.2) }

/-- How a job ended, if it is over. -/
def ended? : JobState → Option Bool
  | .over success => some success
  | .awaited _ => none

/-- The amounts and the ends of the jobs, if all are over. -/
def ends? (r : BatchRun) : Option (List (Cents × Bool)) :=
  if r.jobs.isEmpty then r.states.mapM fun s => (ended? s.2).map fun success => (s.1, success) else none

end BatchRun

/-- The batches of a service. -/
structure Processor where
  maxSize : Nat
  timeoutMs : Nat
  /-- The records that are tracked, in the order of their start. -/
  tracked : List Batch
  runs : List BatchRun
  /-- The records of all batches that are over, for those who wait for one. -/
  finished : List Batch
  nextBatch : BatchId
  tally : Tally

namespace Processor

/-- A processor without batches. -/
def empty (maxSize timeoutMs : Nat) : Processor :=
  ⟨maxSize, timeoutMs, [], [], [], 0, .empty⟩

/-- The number of tracked batches from which on a start prunes. -/
def maxRetained : Nat := 1000

/-- Forget the batches that are over. -/
def prune (p : Processor) : Processor :=
  { p with tracked := p.tracked.filter fun b => !b.status.isTerminal }

/-- Forget the batches that are over, if there are too many batches. -/
def pruneIfFull (p : Processor) : Processor :=
  if maxRetained ≤ p.tracked.length then p.prune else p

/-- Start a batch. -/
def start (p : Processor) (name : String) (jobs : List Job) (now : Instant) : Except Error BatchId × Processor :=
  if jobs.isEmpty then (.error .emptyBatch, p)
  else if p.maxSize < jobs.length then (.error (.batchTooLarge jobs.length p.maxSize), p)
  else
    let p := p.pruneIfFull
    (.ok p.nextBatch, { p with
      tracked := p.tracked ++ [.create p.nextBatch name jobs.length now]
      runs := p.runs ++ [⟨p.nextBatch, jobs, [], 0, false⟩]
      nextBatch := p.nextBatch + 1 })

/-- Change the record of a batch. -/
def change (id : BatchId) (f : Batch → Batch) (batches : List Batch) : List Batch :=
  batches.map fun b => if b.id = id then f b else b

/-- The record of a batch, while it is tracked. -/
def status? (p : Processor) (id : BatchId) : Option Batch :=
  p.tracked.find? fun b => b.id = id

/-- The run of a batch. -/
def run? (p : Processor) (id : BatchId) : Option BatchRun :=
  p.runs.find? fun r => r.id = id

/-- Replace the run of a batch. -/
def putRun (r : BatchRun) (runs : List BatchRun) : List BatchRun :=
  runs.map fun s => if s.id = r.id then r else s

/-- Submit the jobs of a batch, and set its deadline. -/
def launch (p : Processor) (id : BatchId) (pool : Pool) (elapsed : Nat) : Processor × Pool :=
  match p.run? id with
  | none => (p, pool)
  | some r =>
    let (states, pool) := BatchRun.submitAll r.expired r.jobs pool
    let r := { r with jobs := [], states := states, deadline := elapsed + p.timeoutMs }
    ({ p with
      tracked := change id (fun b => { b with status := .processing }) p.tracked
      runs := putRun r p.runs }, pool)

/-- The time of a batch is over. -/
def expire (p : Processor) (id : BatchId) : Processor :=
  { p with runs := p.runs.map fun r => if r.id = id then { r with expired := true } else r }

/-- Count the jobs of a batch. -/
def count (ends : List (Cents × Bool)) (now : Instant) (tally : Tally) : Tally :=
  ends.foldl (fun t e => t.dequeued.finished e.2 e.1 now) tally

/-- Write down how a batch ended. -/
def conclude (p : Processor) (id : BatchId) (ends : List (Cents × Bool)) (now : Instant) : Processor :=
  let succeeded := (ends.filter (·.2)).length
  let failed := (ends.filter (!·.2)).length
  let tracked := change id (fun b => b.finish succeeded failed now) p.tracked
  { p with
    tracked := tracked
    runs := p.runs.filter fun r => r.id ≠ id
    finished := (tracked.filter fun b => b.id = id) ++ p.finished
    tally := count ends now p.tally }

/-- Look at the jobs of a batch, and write down how it ended if all are over. -/
def review (p : Processor) (id : BatchId) (pool : Pool) (now : Instant) : Processor :=
  match p.run? id with
  | none => p
  | some r =>
    let r := r.lookAll pool
    match r.ends? with
    | some ends => p.conclude id ends now
    | none => { p with runs := putRun r p.runs }

/-- Look at the jobs of all batches. -/
def reviewAll (p : Processor) (pool : Pool) (now : Instant) : Processor :=
  p.runs.foldl (fun p r => p.review r.id pool now) p

/-- The batches whose time is over at some moment. -/
def due (p : Processor) (elapsed : Nat) : List BatchId :=
  (p.runs.filter fun r => r.jobs.isEmpty && !r.expired && r.deadline ≤ elapsed).map (·.id)

/-- The record of a batch that is over. -/
def result? (p : Processor) (id : BatchId) : Option Batch :=
  p.finished.find? fun b => b.id = id

end Processor

end CentLedger
