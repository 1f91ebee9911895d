import CentLedger.Operation.Transfer
import CentLedger.Queue.Tally

/-!
# The pool of workers

Workers share one bounded queue of jobs, first come first served. A job that was accepted has a ticket, on which its
result is delivered; a ticket whose job will never give a result is delivered as dropped. Closing the pool turns
further jobs away and lets the workers drain the queue; stopping it makes them leave as soon as they are free, and
what is still queued when the last one has left is dropped. A worker whose job crashes is gone.
-/

namespace CentLedger

/-- The number of a job, counted in the order of acceptance. -/
abbrev JobId := Nat

/-- A job that was done. -/
structure JobResult where
  job : Job
  outcome : Transfer.Outcome
  processedAt : Instant

namespace JobResult

/-- The job succeeded. -/
def isSuccess (r : JobResult) : Bool :=
  match r.outcome with
  | .ok _ => true
  | .error _ => false

/-- The record of the job, if one was opened. -/
def transaction? (r : JobResult) : Option Transaction :=
  match r.outcome with
  | .ok t => some t
  | .error e => e.transaction

end JobResult

/-- What is delivered on a ticket. -/
inductive Delivery
  | result (r : JobResult)
  | dropped

/-- What the holder of a ticket learns. -/
def Delivery.answer : Delivery → Except Error JobResult
  | result r => .ok r
  | dropped => .error .poolClosed

/-- A pool of workers. -/
structure Pool where
  /-- The number of workers that the pool was made with. -/
  size : Nat
  /-- The number of jobs that may be queued. -/
  capacity : Nat
  /-- No further jobs are accepted. -/
  closed : Bool
  /-- Workers leave as soon as they are free. -/
  stopped : Bool
  /-- Someone has taken it on to wait for the workers. -/
  joined : Bool
  /-- The number of workers that have not left. -/
  alive : Nat
  queue : List (JobId × Job)
  running : List (JobId × Job)
  delivered : List (JobId × Delivery)
  nextJob : JobId
  tally : Tally

namespace Pool

/-- The number of jobs for each worker that may be queued where no capacity is given. -/
def slotsPerWorker : Nat := 10

/-- The number of jobs that may be queued, in a word of 64 bits: the capacity, or a number for each worker if that is
zero. -/
def slots (workers capacity : Nat) : Nat :=
  if capacity = 0 then max workers 1 * slotsPerWorker % UInt64.size else capacity

/-- A pool at rest. -/
def start (workers capacity : Nat) : Pool where
  size := max workers 1
  capacity := slots workers capacity
  closed := false
  stopped := false
  joined := false
  alive := max workers 1
  queue := []
  running := []
  delivered := []
  nextJob := 0
  tally := .empty

/-- The number of workers that are free. -/
def idle (p : Pool) : Nat :=
  p.alive - p.running.length

/-- Submit a job, under a token that may have been cancelled. -/
def submit (p : Pool) (cancelled : Bool) (job : Job) : Except Error JobId × Pool :=
  if cancelled then (.error .cancelled, p)
  else if p.closed || p.alive = 0 then (.error .poolClosed, p)
  else if p.capacity ≤ p.queue.length then (.error .queueFull, { p with tally := p.tally.refused })
  else (.ok p.nextJob, { p with queue := p.queue ++ [(p.nextJob, job)], nextJob := p.nextJob + 1 })

/-- A worker receives the first job of the queue. -/
def receive? (p : Pool) : Option ((JobId × Job) × Pool) :=
  match p.queue with
  | [] => none
  | j :: rest => some (j, { p with queue := rest, running := j :: p.running, tally := p.tally.dequeued })

/-- A free worker takes the first job of the queue, unless the workers are to leave. -/
def take? (p : Pool) : Option ((JobId × Job) × Pool) :=
  if p.idle = 0 || p.stopped then none else p.receive?

/-- Deliver something on the tickets of jobs. -/
def drop (jobs : List (JobId × Job)) : List (JobId × Delivery) :=
  jobs.map fun j => (j.1, .dropped)

/-- Drop what is queued if no worker is left. -/
def dropQueue (p : Pool) : Pool :=
  if p.alive = 0 then { p with queue := [], delivered := drop p.queue ++ p.delivered } else p

/-- A worker leaves. -/
def leave (p : Pool) : Pool :=
  dropQueue { p with alive := p.alive - 1 }

/-- Free workers leave if the pool was stopped, or closed and drained. -/
def retire (p : Pool) : Pool :=
  if p.stopped || (p.closed && p.queue.isEmpty) then dropQueue { p with alive := p.running.length } else p

/-- The jobs that run besides one. -/
def others (id : JobId) (running : List (JobId × Job)) : List (JobId × Job) :=
  running.filter fun j => j.1 ≠ id

/-- The job with a number that a worker is at. -/
def runs? (p : Pool) (id : JobId) : Option Job :=
  (p.running.find? fun j => j.1 = id).map (·.2)

/-- A worker is done with a job, and delivers its result. -/
def deliver (p : Pool) (id : JobId) (result : JobResult) : Pool :=
  { p with
    running := others id p.running
    delivered := (id, .result result) :: p.delivered
    tally := p.tally.finished result.isSuccess result.job.amount result.processedAt }

/-- A worker finished a job, and looks for the next. -/
def finish (p : Pool) (id : JobId) (outcome : Transfer.Outcome) (now : Instant) : Pool :=
  match p.runs? id with
  | none => p
  | some job => (p.deliver id ⟨job, outcome, now⟩).retire

/-- The job of a worker crashed, and the worker is gone. -/
def crash (p : Pool) (id : JobId) : Pool :=
  retire (leave { p with running := others id p.running, delivered := (id, .dropped) :: p.delivered })

/-- Accept no further jobs. -/
def shut (p : Pool) : Pool :=
  { p with closed := true }

/-- Let the workers leave as soon as they are free. -/
def halt (p : Pool) : Pool :=
  { p with stopped := true }

/-- Accept no further jobs; what is queued is still done. -/
def close (p : Pool) : Pool :=
  p.shut.retire

/-- Accept no further jobs, and let the workers leave as soon as they are free. -/
def stop (p : Pool) : Pool :=
  p.shut.halt.retire

/-- Take it on to wait for the workers, unless someone else has; whether it remains to wait. -/
def join (p : Pool) : Bool × Pool :=
  (!p.joined && 0 < p.alive, { p with joined := true })

/-- What was delivered on the ticket of a job. -/
def delivery? (p : Pool) (id : JobId) : Option Delivery :=
  (p.delivered.find? fun d => d.1 = id).map (·.2)

/-- What the holder of a ticket learns, if the wait is over: what was delivered on it, and nothing else counts then; that
the wait was given up, if it was. -/
def answer? (p : Pool) (id : JobId) (givenUp : Bool) : Option (Except Error JobResult) :=
  match p.delivery? id with
  | some d => some d.answer
  | none => if givenUp then some (.error .cancelled) else none

/-- Count from zero again. -/
def resetTally (p : Pool) : Pool :=
  { p with tally := .empty }

end Pool

end CentLedger
