import CentLedger.Queue.Pool
import Mathlib

/-!
# The pool at work

A pool of workers with the clients around it, one step at a time. Clients submit jobs, look at their tickets, and close
the pool; each worker looks whether it is to leave, turns to the queue, and delivers the result of the job it is at. The
steps of all of them interleave in any order. `Workshop.Sound` is what holds in every state that such steps lead to.

The steps are those of `Pool`, taken apart: only one worker at a time has the receiving end of the queue, and the stop
signal may come between its look at the signal and its look at the queue; a worker that leaves does so on its own; a
call that closes the pool shuts it, stops it and takes on the wait in steps of their own.
-/

namespace CentLedger

namespace Pool

variable {p : Pool} {id : JobId} {job : Job}

/-! ## What the operations of a pool do -/

/-- A submission is queued under the next number, or it is refused and counted at most. -/
theorem submit_cases (p : Pool) (cancelled : Bool) (job : Job) :
    (p.closed = false ∧ 0 < p.alive ∧ p.queue.length < p.capacity ∧ p.submit cancelled job =
      (.ok p.nextJob, { p with queue := p.queue ++ [(p.nextJob, job)], nextJob := p.nextJob + 1 })) ∨
    ∃ e tally, p.submit cancelled job = (.error e, { p with tally := tally }) := by
  unfold submit
  split
  · exact Or.inr ⟨_, p.tally, rfl⟩
  split
  · exact Or.inr ⟨_, p.tally, rfl⟩
  split
  · exact Or.inr ⟨_, _, rfl⟩
  · rename_i hopen hroom
    simp only [Bool.or_eq_true, decide_eq_true_eq, not_or, Bool.not_eq_true] at hopen
    exact Or.inl ⟨hopen.1, Nat.pos_of_ne_zero hopen.2, Nat.lt_of_not_le hroom, rfl⟩

/-- A submission is refused for want of room, for a pool that is closed, or for a token that was cancelled. -/
theorem submit_error {cancelled : Bool} {e : Error} (h : (p.submit cancelled job).1 = .error e) :
    e = .queueFull ∨ e = .poolClosed ∨ e = .cancelled ∧ cancelled = true := by
  unfold submit at h
  split at h
  · rename_i hcancelled
    cases h
    exact Or.inr (Or.inr ⟨rfl, hcancelled⟩)
  · split at h
    · cases h
      exact Or.inr (Or.inl rfl)
    · split at h
      · cases h
        exact Or.inl rfl
      · cases h

/-- Without a worker, a submission leaves the pool as it is. -/
theorem submit_gone (h : p.alive = 0) (cancelled : Bool) (job : Job) :
    ∃ e, p.submit cancelled job = (.error e, p) := by
  unfold submit
  split
  · exact ⟨_, rfl⟩
  · simp [h]

/-- What is received is the head of the queue; it is in the hands of a worker from then on. -/
theorem queue_of_receive? {j : JobId × Job} {p' : Pool} (h : p.receive? = some (j, p')) :
    ∃ rest, p.queue = j :: rest ∧
      p' = { p with queue := rest, running := j :: p.running, tally := p.tally.dequeued } := by
  unfold receive? at h
  split at h
  · cases h
  · rename_i k rest hq
    cases h
    exact ⟨rest, hq, rfl⟩

/-- Nothing is received only from an empty queue. -/
theorem queue_of_receive?_none (h : p.receive? = none) : p.queue = [] := by
  unfold receive? at h
  split at h
  · assumption
  · cases h

/-- The last worker leaves, and what is queued is dropped. -/
theorem leave_last (h : p.alive = 1) :
    p.leave = { p with alive := 0, queue := [], delivered := drop p.queue ++ p.delivered } := by
  simp [leave, dropQueue, h]

/-- A worker that is not the last one leaves, and nothing else changes. -/
theorem leave_others (h : 1 < p.alive) : p.leave = { p with alive := p.alive - 1 } := by
  have hne : p.alive - 1 ≠ 0 := by omega
  simp [leave, dropQueue, hne]

@[simp] theorem stopped_leave (p : Pool) : p.leave.stopped = p.stopped := by
  unfold leave dropQueue
  split <;> rfl

@[simp] theorem joined_leave (p : Pool) : p.leave.joined = p.joined := by
  unfold leave dropQueue
  split <;> rfl

@[simp] theorem alive_leave (p : Pool) : p.leave.alive = p.alive - 1 := by
  unfold leave dropQueue
  split <;> rfl

/-- A job that runs under an identifier is in the hands of a worker under it. -/
theorem mem_of_runs? (h : p.runs? id = some job) : (id, job) ∈ p.running := by
  simp only [runs?, Option.map_eq_some_iff] at h
  obtain ⟨j, hj, rfl⟩ := h
  have hid : j.1 = id := by simpa using List.find?_some hj
  exact hid ▸ List.mem_of_find?_eq_some hj

/-- The jobs that run are one of them and the others. -/
theorem perm_others {running : List (JobId × Job)} (hnd : (running.map (·.1)).Nodup) (h : (id, job) ∈ running) :
    running.Perm ((id, job) :: others id running) := by
  have hothers : (id, job) ∉ others id running := by simp [others]
  refine (List.perm_ext_iff_of_nodup (hnd.of_map _)
    (List.nodup_cons.2 ⟨hothers, (hnd.of_map _).filter _⟩)).2 fun j => ?_
  constructor
  · intro hj
    by_cases hid : j.1 = id
    · exact List.mem_cons.2 (Or.inl (List.inj_on_of_nodup_map hnd hj h hid))
    · exact List.mem_cons_of_mem _ (List.mem_filter.2 ⟨hj, by simpa using hid⟩)
  · intro hj
    rcases List.mem_cons.1 hj with rfl | hj
    · exact h
    · exact (List.mem_filter.1 hj).1

/-- What is found on a ticket was delivered to it. -/
theorem mem_of_delivery? {d : Delivery} (h : p.delivery? id = some d) : (id, d) ∈ p.delivered := by
  simp only [delivery?, Option.map_eq_some_iff] at h
  obtain ⟨e, he, rfl⟩ := h
  have hid : e.1 = id := by simpa using List.find?_some he
  exact hid ▸ List.mem_of_find?_eq_some he

/-- If nothing was delivered twice on a ticket, what was delivered is what is found. -/
theorem delivery?_of_mem {d : Delivery} (hnd : (p.delivered.map (·.1)).Nodup) (h : (id, d) ∈ p.delivered) :
    p.delivery? id = some d := by
  have hsome : (p.delivered.find? fun e => e.1 = id).isSome := by
    rw [List.find?_isSome]
    exact ⟨_, h, by simp⟩
  obtain ⟨e, he⟩ := Option.isSome_iff_exists.1 hsome
  have hid : e.1 = id := by simpa using List.find?_some he
  rw [delivery?, he, List.inj_on_of_nodup_map hnd (List.mem_of_find?_eq_some he) h hid]
  rfl

end Pool

/-- How far a call that closes the pool has come. -/
inductive Closing
  /-- It is about to turn further jobs away. -/
  | shut (abrupt : Bool)
  /-- It is about to tell the workers to leave. -/
  | halt
  /-- It is about to take it on to wait for the workers. -/
  | join
  /-- It waits for the workers. -/
  | wait
  | returned
  deriving DecidableEq

/-- A pool with the clients around it, and what has happened so far. -/
structure Workshop where
  pool : Pool
  /-- A worker has the receiving end of the queue, and has found that it is not to leave. -/
  looking : Bool
  closings : List Closing
  /-- The submissions with their answers, in order. -/
  submitted : List (Job × Except Error JobId)
  /-- The jobs that workers took, in order. -/
  taken : List (JobId × Job)
  /-- What came out of the jobs that are done. -/
  ended : List (JobId × JobResult)
  /-- The jobs that were queued when the last worker left. -/
  lost : List (JobId × Job)
  /-- What the holders of tickets were told. -/
  told : List (JobId × Except Error JobResult)
  /-- What was queued when the workers were first told to leave. -/
  atStop : Option (List (JobId × Job))

namespace Workshop

/-- A pool that was just made. -/
def opened (workers capacity : Nat) : Workshop :=
  ⟨.start workers capacity, false, [], [], [], [], [], [], none⟩

/-- The jobs that were accepted, in order. -/
def accepted (w : Workshop) : List (JobId × Job) :=
  w.submitted.filterMap fun s =>
    match s.2 with
    | .ok id => some (id, s.1)
    | .error _ => none

/-- A client submits a job. -/
def submit (w : Workshop) (cancelled : Bool) (job : Job) : Workshop :=
  { w with
    pool := (w.pool.submit cancelled job).2
    submitted := w.submitted ++ [(job, (w.pool.submit cancelled job).1)] }

/-- The holder of a ticket looks at it. -/
def await (w : Workshop) (id : JobId) (givenUp : Bool) : Workshop :=
  if id < w.pool.nextJob then
    match w.pool.answer? id givenUp with
    | none => w
    | some answer => { w with told := w.told ++ [(id, answer)] }
  else w

/-- A worker leaves, and with the last one goes what is queued. -/
def leave (w : Workshop) : Workshop :=
  { w with
    pool := w.pool.leave
    looking := false
    lost := if w.pool.alive = 1 then w.lost ++ w.pool.queue else w.lost }

/-- A free worker gets the receiving end, and looks whether it is to leave. -/
def look (w : Workshop) : Workshop :=
  if w.looking || w.pool.idle = 0 then w
  else if w.pool.stopped then w.leave
  else { w with looking := true }

/-- The worker with the receiving end takes a job; if there is none, it leaves if there will be none, and gives the
receiving end up. -/
def receive (w : Workshop) : Workshop :=
  if w.looking then
    match w.pool.receive? with
    | some (j, pool) => { w with pool := pool, looking := false, taken := w.taken ++ [j] }
    | none => if w.pool.closed then w.leave else { w with looking := false }
  else w

/-- A worker is done with its job. -/
def deliver (w : Workshop) (id : JobId) (outcome : Transfer.Outcome) (now : Instant) : Workshop :=
  match w.pool.runs? id with
  | none => w
  | some job =>
    { w with
      pool := w.pool.deliver id ⟨job, outcome, now⟩
      ended := w.ended ++ [(id, ⟨job, outcome, now⟩)] }

/-- A call that closes the pool has come further. -/
def goOn (w : Workshop) (call : Nat) (closing : Closing) : Workshop :=
  { w with closings := w.closings.set call closing }

/-- A call that closes the pool does what it is about to do. -/
def proceed (w : Workshop) (call : Nat) : Workshop :=
  match w.closings[call]? with
  | none | some .returned => w
  | some (.shut abrupt) => { w with pool := w.pool.shut }.goOn call (if abrupt then .halt else .join)
  | some .halt =>
    { w with
      pool := w.pool.halt
      atStop := if w.pool.stopped then w.atStop else some w.pool.queue }.goOn call .join
  | some .join => { w with pool := w.pool.join.2 }.goOn call (if w.pool.join.1 then .wait else .returned)
  | some .wait => if w.pool.alive = 0 then w.goOn call .returned else w

/-- What a client or a worker can do next. -/
inductive Act
  | submit (cancelled : Bool) (job : Job)
  | await (id : JobId) (givenUp : Bool)
  | look
  | receive
  | deliver (id : JobId) (outcome : Transfer.Outcome) (now : Instant)
  | reset
  | shutdown (abrupt : Bool)
  | proceed (call : Nat)

/-- Someone does something. -/
def step (w : Workshop) : Act → Workshop
  | .submit cancelled job => w.submit cancelled job
  | .await id givenUp => w.await id givenUp
  | .look => w.look
  | .receive => w.receive
  | .deliver id outcome now => w.deliver id outcome now
  | .reset => { w with pool := w.pool.resetTally }
  | .shutdown abrupt => { w with closings := w.closings ++ [.shut abrupt] }
  | .proceed call => w.proceed call

/-- One thing after another is done. -/
def run (w : Workshop) (acts : List Act) : Workshop :=
  acts.foldl step w

/-! ## What holds throughout -/

/-- The job that something came out of. -/
def origin (e : JobId × JobResult) : JobId × Job :=
  (e.1, e.2.job)

/-- What was delivered for a job that is done. -/
def delivery (e : JobId × JobResult) : JobId × Delivery :=
  (e.1, .result e.2)

/-- What holds whatever clients and workers do. Each job that was accepted is queued, in the hands of a worker, done, or
lost, in the order of acceptance; only what is done or lost has something on its ticket. -/
structure Sound (workers capacity : Nat) (w : Workshop) : Prop where
  slots : w.pool.capacity = Pool.slots workers capacity
  room : w.pool.queue.length ≤ Pool.slots workers capacity
  crew : w.pool.alive ≤ max workers 1
  /-- The workers with a job and the one with the receiving end are there. -/
  manned : w.pool.running.length + w.looking.toNat ≤ w.pool.alive
  order : w.accepted = w.taken ++ (w.lost ++ w.pool.queue)
  numbered : w.accepted.map (·.1) = List.range w.pool.nextJob
  inHand : (w.ended.map origin ++ w.pool.running).Perm w.taken
  delivered : w.pool.delivered.Perm (w.ended.map delivery ++ Pool.drop w.lost)
  deserted : w.pool.alive = 0 → w.pool.queue = []
  kept : 0 < w.pool.alive → w.lost = []
  /-- Workers are told to leave only when no further jobs come. -/
  shut : w.pool.stopped = true → w.pool.closed = true
  halting : .halt ∈ w.closings → w.pool.closed = true
  /-- Nothing is lost unless the workers are told to leave. -/
  spared : w.pool.stopped = false → w.lost = []
  /-- What is queued or lost after that was queued then. -/
  caught : w.pool.stopped = true → ∃ queue, w.atStop = some queue ∧ w.lost ++ w.pool.queue <:+ queue
  toldOf : ∀ t ∈ w.told, t.1 < w.pool.nextJob
  toldResult : ∀ id r, (id, .ok r) ∈ w.told → (id, r) ∈ w.ended
  toldError : ∀ id e, (id, .error e) ∈ w.told →
    e = .cancelled ∨ e = .poolClosed ∧ id ∈ w.lost.map (·.1)

variable {workers capacity : Nat} {w : Workshop}

namespace Sound

/-- Each job that was accepted has a number of its own. -/
theorem accepted_nodup (h : w.Sound workers capacity) : (w.accepted.map (·.1)).Nodup :=
  h.numbered ▸ List.nodup_range

/-- No two jobs that are queued or in the hands of workers have the same identifier. -/
theorem taken_nodup (h : w.Sound workers capacity) : (w.taken.map (·.1)).Nodup := by
  have hall := h.accepted_nodup
  rw [h.order, List.map_append] at hall
  exact hall.of_append_left

/-- No two jobs in the hands of workers have the same identifier. -/
theorem running_nodup (h : w.Sound workers capacity) : (w.pool.running.map (·.1)).Nodup := by
  have hnd := ((h.inHand.map (·.1)).nodup_iff).2 h.taken_nodup
  rw [List.map_append] at hnd
  exact hnd.of_append_right

/-- Without a worker, no job is in hand and nobody is at the queue. -/
theorem idle_of_gone (h : w.Sound workers capacity) (hgone : w.pool.alive = 0) :
    w.pool.running = [] ∧ w.looking = false := by
  have hmanned := h.manned
  rw [hgone] at hmanned
  refine ⟨List.length_eq_zero_iff.1 (by omega), ?_⟩
  cases hlooking : w.looking with
  | false => rfl
  | true => simp [hlooking] at hmanned

/-- The numbers on which something was delivered are those of the jobs that are done or lost. -/
theorem delivered_ids (h : w.Sound workers capacity) :
    (w.pool.delivered.map (·.1)).Perm ((w.ended.map origin ++ w.lost).map (·.1)) := by
  refine (h.delivered.map _).trans (.of_eq ?_)
  simp [Pool.drop, Function.comp_def, origin, delivery]

/-- Nothing is delivered twice on a ticket. -/
theorem delivered_nodup (h : w.Sound workers capacity) : (w.pool.delivered.map (·.1)).Nodup := by
  have hall := h.accepted_nodup
  rw [h.order, ← List.append_assoc, List.map_append] at hall
  have hperm : (w.ended.map origin ++ w.pool.running ++ w.lost).Perm (w.taken ++ w.lost) := h.inHand.append_right _
  have hnd := ((hperm.map (·.1)).nodup_iff).2 hall.of_append_left
  refine h.delivered_ids.nodup_iff.2 (hnd.sublist (List.Sublist.map _ ?_))
  exact (List.sublist_append_left _ _).append_right _

/-- What came out of a job is on its ticket. -/
theorem delivery?_ended (h : w.Sound workers capacity) {e : JobId × JobResult} (he : e ∈ w.ended) :
    w.pool.delivery? e.1 = some (.result e.2) :=
  Pool.delivery?_of_mem h.delivered_nodup
    (h.delivered.mem_iff.2 (List.mem_append_left _ (List.mem_map_of_mem (f := delivery) he)))

/-- The ticket of a job that is lost says that its sender was dropped. -/
theorem delivery?_lost (h : w.Sound workers capacity) {id : JobId} (hid : id ∈ w.lost.map (·.1)) :
    w.pool.delivery? id = some .dropped := by
  obtain ⟨j, hj, rfl⟩ := List.mem_map.1 hid
  refine Pool.delivery?_of_mem h.delivered_nodup (h.delivered.mem_iff.2 (List.mem_append_right _ ?_))
  exact List.mem_map.2 ⟨j, hj, rfl⟩

/-- What is on a ticket came out of its job, or says that it is lost. -/
theorem of_delivery? (h : w.Sound workers capacity) {id : JobId} {d : Delivery} (hd : w.pool.delivery? id = some d) :
    (∃ r, d = .result r ∧ (id, r) ∈ w.ended) ∨ d = .dropped ∧ id ∈ w.lost.map (·.1) := by
  have hmem := h.delivered.mem_iff.1 (Pool.mem_of_delivery? hd)
  rcases List.mem_append.1 hmem with hmem | hmem
  · obtain ⟨e, he, heq⟩ := List.mem_map.1 hmem
    cases heq
    exact Or.inl ⟨_, rfl, he⟩
  · obtain ⟨j, hj, heq⟩ := List.mem_map.1 hmem
    cases heq
    exact Or.inr ⟨rfl, List.mem_map_of_mem hj⟩

/-! ## Every step keeps it -/

/-- A new pool is sound. -/
theorem start (workers capacity : Nat) : (opened workers capacity).Sound workers capacity where
  slots := rfl
  room := Nat.zero_le _
  crew := Nat.le_refl _
  manned := Nat.zero_le _
  order := rfl
  numbered := rfl
  inHand := .refl _
  delivered := .refl _
  deserted _ := rfl
  kept _ := rfl
  shut h := nomatch h
  halting h := nomatch h
  spared _ := rfl
  caught h := nomatch h
  toldOf _ h := nomatch h
  toldResult _ _ h := nomatch h
  toldError _ _ h := nomatch h

/-- Submitting a job keeps a pool sound, whether it is queued or refused. -/
theorem submit (h : w.Sound workers capacity) (cancelled : Bool) (job : Job) :
    (w.submit cancelled job).Sound workers capacity := by
  rcases w.pool.submit_cases cancelled job with ⟨hopen, halive, hroom, heq⟩ | ⟨e, tally, heq⟩
  · have hstopped : w.pool.stopped ≠ true := fun hs => by simp [h.shut hs] at hopen
    simp only [Workshop.submit, heq]
    exact { h with
      room := by simpa using h.slots ▸ hroom
      order := by simpa [accepted] using congrArg (· ++ [(w.pool.nextJob, job)]) h.order
      numbered := by simpa [accepted, List.range_succ] using h.numbered
      deserted := fun hgone => absurd halive (Nat.not_lt.2 (Nat.le_of_eq hgone))
      caught := fun hs => absurd hs hstopped
      toldOf := fun t ht => Nat.lt_succ_of_lt (h.toldOf t ht) }
  · simp only [Workshop.submit, heq]
    exact { h with
      order := by simpa [accepted] using h.order
      numbered := by simpa [accepted] using h.numbered }

/-- Whoever is told something at a ticket is told what is on it, or that the wait is over. -/
theorem of_answer? (h : w.Sound workers capacity) {id : JobId} {givenUp : Bool} {answer : Except Error JobResult}
    (hanswer : w.pool.answer? id givenUp = some answer) :
    (∃ r, answer = .ok r ∧ (id, r) ∈ w.ended) ∨ answer = .error .poolClosed ∧ id ∈ w.lost.map (·.1) ∨
      answer = .error .cancelled := by
  unfold Pool.answer? at hanswer
  split at hanswer
  · rename_i d hd
    cases hanswer
    rcases h.of_delivery? hd with ⟨r, rfl, hr⟩ | ⟨rfl, hid⟩
    · exact Or.inl ⟨r, rfl, hr⟩
    · exact Or.inr (Or.inl ⟨rfl, hid⟩)
  · split at hanswer
    · cases hanswer
      exact Or.inr (Or.inr rfl)
    · cases hanswer

/-- A look at a ticket keeps a pool sound. -/
theorem await (h : w.Sound workers capacity) (id : JobId) (givenUp : Bool) :
    (w.await id givenUp).Sound workers capacity := by
  unfold Workshop.await
  split
  · rename_i hid
    split
    · exact h
    · rename_i answer hanswer
      have hnew := h.of_answer? hanswer
      exact { h with
        toldOf := by
          intro t ht
          rcases List.mem_append.1 ht with ht | ht
          · exact h.toldOf t ht
          · cases List.mem_singleton.1 ht
            exact hid
        toldResult := by
          intro id' r ht
          rcases List.mem_append.1 ht with ht | ht
          · exact h.toldResult id' r ht
          · cases List.mem_singleton.1 ht
            simpa using hnew
        toldError := by
          intro id' e ht
          rcases List.mem_append.1 ht with ht | ht
          · exact h.toldError id' e ht
          · cases List.mem_singleton.1 ht
            simpa [or_comm] using hnew }
  · exact h

/-- An idle worker may leave once it is told to stop or nothing is queued. With the last worker the queue is lost, and
with it the tickets of what was queued. -/
theorem leave (h : w.Sound workers capacity) (hidle : 0 < w.pool.idle)
    (hwhy : w.pool.stopped = true ∨ w.pool.queue = []) : w.leave.Sound workers capacity := by
  have hmanned := h.manned
  have hcrew := h.crew
  unfold Pool.idle at hidle
  by_cases hlast : w.pool.alive = 1
  · have hlost : w.lost = [] := h.kept (by omega)
    simp only [Workshop.leave, Pool.leave_last hlast, hlast, if_true, hlost, List.nil_append]
    exact { h with
      room := Nat.zero_le _
      crew := Nat.zero_le _
      manned := show w.pool.running.length + 0 ≤ 0 by omega
      order := by simpa [accepted, hlost] using h.order
      delivered := by simpa [hlost, Pool.drop] using h.delivered.append_left _ |>.trans List.perm_append_comm
      deserted := fun _ => rfl
      kept := fun hpos => absurd hpos (Nat.lt_irrefl 0)
      spared := fun hs => hwhy.resolve_left fun hstopped => nomatch hstopped.symm.trans hs
      caught := by simpa [hlost] using h.caught
      toldError := by
        intro id e ht
        exact (h.toldError id e ht).imp_right fun ⟨_, hid⟩ => by simp [hlost] at hid }
  · have hmore : 1 < w.pool.alive := by omega
    simp only [Workshop.leave, Pool.leave_others hmore, hlast, if_false]
    exact { h with
      crew := Nat.le_trans (Nat.sub_le _ _) hcrew
      manned := by simp; omega
      deserted := fun hgone => absurd hgone (by simp; omega)
      kept := fun _ => h.kept (by omega) }

/-- A worker that gets the receiving end and looks at the signals keeps the pool sound. -/
theorem look (h : w.Sound workers capacity) : w.look.Sound workers capacity := by
  unfold Workshop.look
  split
  · exact h
  · rename_i hfree
    simp only [Bool.or_eq_true, decide_eq_true_eq, not_or, Bool.not_eq_true] at hfree
    have hidle : 0 < w.pool.idle := Nat.pos_of_ne_zero hfree.2
    split
    · rename_i hstopped
      exact h.leave hidle (Or.inl hstopped)
    · unfold Pool.idle at hidle
      exact { h with manned := by simp; omega }

/-- A worker that takes a job, or leaves for want of one, keeps the pool sound. -/
theorem receive (h : w.Sound workers capacity) : w.receive.Sound workers capacity := by
  unfold Workshop.receive
  split
  · rename_i hlooking
    have hmanned : w.pool.running.length + 1 ≤ w.pool.alive := by simpa [hlooking] using h.manned
    split
    · rename_i j pool hreceive
      obtain ⟨rest, hqueue, rfl⟩ := Pool.queue_of_receive? hreceive
      have hlost : w.lost = [] := h.kept (by omega)
      have hroom := h.room
      rw [hqueue, List.length_cons] at hroom
      exact { h with
        room := Nat.le_of_succ_le hroom
        manned := by simpa using hmanned
        order := by simpa [accepted, hqueue, hlost] using h.order
        inHand := by
          refine (List.perm_middle.trans (h.inHand.cons j)).trans ?_
          exact (List.perm_append_singleton j w.taken).symm
        deserted := fun hgone => absurd hgone (by simp; omega)
        caught := by
          intro hs
          obtain ⟨queue, hq, hsuffix⟩ := h.caught hs
          refine ⟨queue, hq, .trans ?_ hsuffix⟩
          simp [hlost, hqueue] }
    · rename_i hreceive
      have hqueue := Pool.queue_of_receive?_none hreceive
      split
      · exact h.leave (by unfold Pool.idle; omega) (Or.inr hqueue)
      · exact { h with manned := by simp; omega }
  · exact h

/-- A result that is delivered keeps the pool sound. -/
theorem deliver (h : w.Sound workers capacity) (id : JobId) (outcome : Transfer.Outcome) (now : Instant) :
    (w.deliver id outcome now).Sound workers capacity := by
  unfold Workshop.deliver
  split
  · exact h
  · rename_i job hruns
    have hperm := Pool.perm_others h.running_nodup (Pool.mem_of_runs? hruns)
    have hlength := hperm.length_eq
    have hmanned := h.manned
    exact { h with
      manned := by simp [Pool.deliver] at *; omega
      inHand := by
        refine .trans ?_ h.inHand
        simpa [Pool.deliver, origin] using hperm.symm.append_left (w.ended.map origin)
      delivered := by
        refine (h.delivered.cons (id, .result ⟨job, outcome, now⟩)).trans ?_
        simpa [delivery] using List.perm_middle.symm
      toldResult := fun id' r ht => List.mem_append_left _ (h.toldResult id' r ht) }

/-- A call that closes the pool comes further without harm; to halt the workers it must have closed the queue. -/
theorem goOn (h : w.Sound workers capacity) (call : Nat) {closing : Closing}
    (hclosing : closing = .halt → w.pool.closed = true) : (w.goOn call closing).Sound workers capacity :=
  { h with
    halting := fun hmem => (List.mem_or_eq_of_mem_set hmem).elim h.halting fun e => hclosing e.symm }

/-- What a call that closes the pool does next keeps the pool sound. -/
theorem proceed (h : w.Sound workers capacity) (call : Nat) : (w.proceed call).Sound workers capacity := by
  unfold Workshop.proceed
  split
  · exact h
  · exact h
  · refine goOn ?_ _ fun _ => rfl
    exact { h with shut := fun _ => rfl, halting := fun _ => rfl }
  · rename_i hcall
    have hclosed := h.halting (List.mem_of_getElem? hcall)
    refine goOn ?_ _ nofun
    exact { h with
      shut := fun _ => hclosed
      spared := nofun
      caught := by
        intro _
        by_cases hstopped : w.pool.stopped = true
        · simpa [hstopped, Pool.halt] using h.caught hstopped
        · have hlost := h.spared (by simpa using hstopped)
          exact ⟨w.pool.queue, by simp [hstopped], by simp [hlost, Pool.halt]⟩ }
  · have hjoined : { w with pool := w.pool.join.2 }.Sound workers capacity := { h with }
    exact hjoined.goOn _ (by split <;> nofun)
  · split
    · exact h.goOn _ nofun
    · exact h

/-- Every step of clients and workers keeps a pool sound. -/
theorem step (h : w.Sound workers capacity) (act : Act) : (w.step act).Sound workers capacity := by
  cases act with
  | submit cancelled job => exact h.submit cancelled job
  | await id givenUp => exact h.await id givenUp
  | look => exact h.look
  | receive => exact h.receive
  | deliver id outcome now => exact h.deliver id outcome now
  | reset => exact { h with }
  | shutdown abrupt =>
    exact { h with
      halting := fun hmem => (List.mem_append.1 hmem).elim h.halting fun hnew => nomatch List.mem_singleton.1 hnew }
  | proceed call => exact h.proceed call

/-- Whatever clients and workers do, a pool stays sound. -/
theorem run (h : w.Sound workers capacity) (acts : List Act) : (w.run acts).Sound workers capacity := by
  induction acts generalizing w with
  | nil => exact h
  | cons act acts ih => exact ih (h.step act)

end Sound

/-! ## What a step leaves alone -/

/-- What a worker or a client does in the course of the work: the signals to the workers stay as they are, as do the
calls that close the pool; no worker comes back and no job that is lost, and only a worker with the receiving end takes
a job. -/
structure Ordinary (w w' : Workshop) : Prop where
  stopped : w'.pool.stopped = w.pool.stopped
  joined : w'.pool.joined = w.pool.joined
  alive : w'.pool.alive ≤ w.pool.alive
  closings : w'.closings = w.closings
  lost : w.lost <+: w'.lost
  taken : w.looking = false → w'.taken = w.taken

namespace Ordinary

/-- To do nothing is ordinary. -/
theorem refl (w : Workshop) : Ordinary w w :=
  ⟨rfl, rfl, Nat.le_refl _, rfl, List.prefix_refl _, fun _ => rfl⟩

/-- Submitting a job is ordinary. -/
theorem submit (w : Workshop) (cancelled : Bool) (job : Job) : Ordinary w (w.submit cancelled job) := by
  rcases w.pool.submit_cases cancelled job with ⟨-, -, -, heq⟩ | ⟨e, tally, heq⟩
  · simp only [Workshop.submit, heq]
    exact { refl w with }
  · simp only [Workshop.submit, heq]
    exact { refl w with }

/-- Looking at a ticket is ordinary. -/
theorem await (w : Workshop) (id : JobId) (givenUp : Bool) : Ordinary w (w.await id givenUp) := by
  unfold Workshop.await
  split
  · split
    · exact refl w
    · exact { refl w with }
  · exact refl w

/-- That a worker leaves is ordinary. -/
theorem leave (w : Workshop) : Ordinary w w.leave where
  stopped := w.pool.stopped_leave
  joined := w.pool.joined_leave
  alive := w.pool.alive_leave ▸ Nat.sub_le _ _
  closings := rfl
  lost := by
    unfold Workshop.leave
    split
    · exact List.prefix_append _ _
    · exact List.prefix_refl _
  taken _ := rfl

/-- Getting the receiving end and looking at the signals is ordinary. -/
theorem look (w : Workshop) : Ordinary w w.look := by
  unfold Workshop.look
  split
  · exact refl w
  · split
    · exact leave w
    · exact { refl w with }

/-- Taking a job is ordinary. -/
theorem receive (w : Workshop) : Ordinary w w.receive := by
  unfold Workshop.receive
  split
  · split
    · rename_i hreceive
      obtain ⟨rest, -, rfl⟩ := Pool.queue_of_receive? hreceive
      exact { refl w with taken := fun hnot => by simp_all }
    · split
      · exact leave w
      · exact { refl w with }
  · exact refl w

/-- Delivering a result is ordinary. -/
theorem deliver (w : Workshop) (id : JobId) (outcome : Transfer.Outcome) (now : Instant) :
    Ordinary w (w.deliver id outcome now) := by
  unfold Workshop.deliver
  split
  · exact refl w
  · exact { refl w with }

end Ordinary

/-- Each step is in the course of the work, or it is one of a call that closes the pool. -/
theorem step_cases (w : Workshop) (act : Act) :
    Ordinary w (w.step act) ∨ (∃ abrupt, act = .shutdown abrupt) ∨ ∃ call, act = .proceed call := by
  cases act with
  | submit cancelled job => exact Or.inl (.submit w cancelled job)
  | await id givenUp => exact Or.inl (.await w id givenUp)
  | look => exact Or.inl (.look w)
  | receive => exact Or.inl (.receive w)
  | deliver id outcome now => exact Or.inl (.deliver w id outcome now)
  | reset => exact Or.inl { Ordinary.refl w with }
  | shutdown abrupt => exact Or.inr (Or.inl ⟨abrupt, rfl⟩)
  | proceed call => exact Or.inr (Or.inr ⟨call, rfl⟩)

/-- Calls that close the pool make no worker leave by themselves, and take and lose no job. -/
theorem proceed_spares (w : Workshop) (call : Nat) :
    (w.proceed call).pool.alive = w.pool.alive ∧ (w.proceed call).lost = w.lost ∧
      (w.proceed call).taken = w.taken := by
  unfold proceed
  split
  · exact ⟨rfl, rfl, rfl⟩
  · exact ⟨rfl, rfl, rfl⟩
  · exact ⟨rfl, rfl, rfl⟩
  · exact ⟨rfl, rfl, rfl⟩
  · exact ⟨rfl, rfl, rfl⟩
  · split <;> exact ⟨rfl, rfl, rfl⟩

/-- Only a client that submits a job adds to what was submitted. -/
theorem submitted_step (w : Workshop) (act : Act) (h : ∀ cancelled job, act ≠ .submit cancelled job) :
    (w.step act).submitted = w.submitted := by
  cases act with
  | submit cancelled job => exact absurd rfl (h cancelled job)
  | reset | shutdown => rfl
  | _ =>
    simp only [step, await, look, receive, deliver, proceed]
    repeat' split
    all_goals rfl

/-- Only a worker at the queue takes a job. -/
theorem taken_step (w : Workshop) (act : Act) (h : act ≠ .receive) : (w.step act).taken = w.taken := by
  cases act with
  | receive => exact absurd rfl h
  | submit | reset | shutdown => rfl
  | _ =>
    simp only [step, await, look, deliver, proceed]
    repeat' split
    all_goals rfl

/-- Only a worker with a job gets done with one. -/
theorem ended_step (w : Workshop) (act : Act) (h : ∀ id outcome now, act ≠ .deliver id outcome now) :
    (w.step act).ended = w.ended := by
  cases act with
  | deliver id outcome now => exact absurd rfl (h id outcome now)
  | submit | reset | shutdown => rfl
  | _ =>
    simp only [step, await, look, receive, proceed]
    repeat' split
    all_goals rfl

/-- A call that closes the pool goes on, but none comes or goes. -/
theorem length_proceed (w : Workshop) (call : Nat) : (w.proceed call).closings.length = w.closings.length := by
  simp only [proceed, goOn]
  repeat' split
  all_goals simp

/-- What is lost stays lost. -/
theorem lost_step (w : Workshop) (act : Act) : w.lost <+: (w.step act).lost := by
  rcases w.step_cases act with h | ⟨abrupt, rfl⟩ | ⟨call, rfl⟩
  · exact h.lost
  · exact List.prefix_refl _
  · exact (w.proceed_spares call).2.1 ▸ List.prefix_refl _

/-- What is lost stays lost. -/
theorem lost_run (w : Workshop) (acts : List Act) : w.lost <+: (w.run acts).lost := by
  induction acts generalizing w with
  | nil => exact List.prefix_refl _
  | cons act acts ih => exact (lost_step w act).trans (ih (w.step act))

/-- No worker comes back. -/
theorem alive_step (w : Workshop) (act : Act) : (w.step act).pool.alive ≤ w.pool.alive := by
  rcases w.step_cases act with h | ⟨abrupt, rfl⟩ | ⟨call, rfl⟩
  · exact h.alive
  · exact Nat.le_refl _
  · exact (w.proceed_spares call).1.le

/-! ## What only grows -/

/-- Nothing that was submitted, done or lost is taken back. -/
structure Grows (w w' : Workshop) : Prop where
  submitted : w.submitted <+: w'.submitted
  ended : w.ended <+: w'.ended
  lost : w.lost <+: w'.lost

namespace Grows

theorem refl (w : Workshop) : Grows w w :=
  ⟨List.prefix_refl _, List.prefix_refl _, List.prefix_refl _⟩

/-- What has grown twice has grown. -/
theorem trans {w w' w'' : Workshop} (h : Grows w w') (h' : Grows w' w'') : Grows w w'' :=
  ⟨h.submitted.trans h'.submitted, h.ended.trans h'.ended, h.lost.trans h'.lost⟩

theorem submit (w : Workshop) (cancelled : Bool) (job : Job) : Grows w (w.submit cancelled job) :=
  { refl w with submitted := List.prefix_append _ _ }

theorem await (w : Workshop) (id : JobId) (givenUp : Bool) : Grows w (w.await id givenUp) := by
  unfold Workshop.await
  split
  · split
    · exact refl w
    · exact { refl w with }
  · exact refl w

theorem look (w : Workshop) : Grows w w.look := by
  refine ⟨?_, ?_, lost_step w .look⟩
  all_goals
    unfold Workshop.look
    repeat' split
    all_goals exact List.prefix_refl _

theorem receive (w : Workshop) : Grows w w.receive := by
  refine ⟨?_, ?_, lost_step w .receive⟩
  all_goals
    unfold Workshop.receive
    repeat' split
    all_goals exact List.prefix_refl _

theorem deliver (w : Workshop) (id : JobId) (outcome : Transfer.Outcome) (now : Instant) :
    Grows w (w.deliver id outcome now) := by
  unfold Workshop.deliver
  split
  · exact refl w
  · exact { refl w with ended := List.prefix_append _ _ }

/-- A call that closes the pool takes back nothing that was submitted, done or lost. -/
theorem proceed (w : Workshop) (call : Nat) : Grows w (w.proceed call) := by
  refine ⟨?_, ?_, lost_step w (.proceed call)⟩
  all_goals
    unfold Workshop.proceed
    repeat' split
    all_goals exact List.prefix_refl _

/-- No step takes back anything that was submitted, done or lost. -/
theorem step (w : Workshop) (act : Act) : Grows w (w.step act) := by
  cases act with
  | submit cancelled job => exact submit w cancelled job
  | await id givenUp => exact await w id givenUp
  | look => exact look w
  | receive => exact receive w
  | deliver id outcome now => exact deliver w id outcome now
  | reset => exact { refl w with }
  | shutdown abrupt => exact { refl w with }
  | proceed call => exact proceed w call

/-- Nothing that was submitted, done or lost is ever taken back. -/
theorem run (w : Workshop) (acts : List Act) : Grows w (w.run acts) := by
  induction acts generalizing w with
  | nil => exact refl w
  | cons act acts ih => exact (step w act).trans (ih (w.step act))

end Grows

end Workshop

end CentLedger
