import CentLedger.Batch.Processor
import CentLedger.Proofs.Keys
import CentLedger.Proofs.Workshop

/-!
# Batches at work

Batches over a pool that others use as well, one step at a time. A batch that was started is taken up, submits its jobs
one after another, looks at their tickets, counts how each of them ended once all are over, and closes its record; its
timer may end its time at any moment. The steps of all batches and of all who use the pool interleave in any order.

The steps are those of `Processor`, taken apart (`CentLedger.Proofs.BatchUse`). Of each batch there is a docket beside
them, which keeps what it was given and what its submissions were answered. `Depot.View` is all that concerns one batch,
and `View.Step` says what one step of anyone can do to it; `View.Lawful` is what holds of it in every state that such
steps lead to.
-/

namespace CentLedger

/-- What has become of a batch. -/
structure Docket where
  /-- The jobs that it was given. -/
  jobs : List Job
  /-- It was taken up. -/
  begun : Bool
  /-- The jobs that it has submitted, with the answers, in order. -/
  submitted : List (Job × Except Error JobId)
  /-- Its time was over before it was. -/
  expired : Bool
  /-- Its time was over when the last wait for one of its jobs ended. -/
  late : Bool

namespace Processor

variable {p : Processor} {id : BatchId} {r : BatchRun} {b : Batch}

/-! ## Runs and records by number -/

/-- The run of a batch bears its identifier. -/
theorem id_of_run? (h : p.run? id = some r) : r.id = id :=
  (Keyed.of_find? h).2

/-- Storing a run replaces the one under its identifier, if there is one, and no other. -/
theorem find?_putRun (r : BatchRun) (runs : List BatchRun) (id : BatchId) :
    ((putRun r runs).find? fun s => s.id = id) =
      if id = r.id then (runs.find? fun s => s.id = id).map fun _ => r else runs.find? fun s => s.id = id :=
  Keyed.find?_map_ite BatchRun.id (fun _ => r) (fun _ _ => rfl) runs id

/-- A change of one record is found under its identifier, and under no other. -/
theorem find?_change (f : Batch → Batch) (hf : ∀ b, (f b).id = b.id) (i : BatchId) (batches : List Batch)
    (id : BatchId) :
    ((change i f batches).find? fun b => b.id = id) =
      if id = i then (batches.find? fun b => b.id = id).map f else batches.find? fun b => b.id = id :=
  Keyed.find?_map_ite Batch.id f (fun b hb => (hf b).trans hb) batches id

/-- Only the batch whose time is over runs on with its time over. -/
theorem run?_expire (p : Processor) (i id : BatchId) :
    (p.expire i).run? id = if id = i then (p.run? id).map fun r => { r with expired := true } else p.run? id :=
  Keyed.find?_map_ite BatchRun.id (fun r => { r with expired := true }) (fun _ hr => hr) p.runs id

/-- A batch that is concluded does not run any more; all others run on. -/
theorem run?_conclude (p : Processor) (i : BatchId) (ends : List (Cents × Bool)) (now : Instant) (id : BatchId) :
    (p.conclude i ends now).run? id = if id = i then none else p.run? id :=
  Keyed.find?_filter_ne BatchRun.id p.runs i id

/-- The record of a batch when its jobs have ended. -/
def closed (ends : List (Cents × Bool)) (now : Instant) (b : Batch) : Batch :=
  b.finish (ends.filter (·.2)).length (ends.filter (!·.2)).length now

/-- The record of a concluded batch is the closed one. -/
theorem status?_conclude (p : Processor) (i : BatchId) (ends : List (Cents × Bool)) (now : Instant) (id : BatchId) :
    (p.conclude i ends now).status? id = if id = i then (p.status? id).map (closed ends now) else p.status? id :=
  find?_change (closed ends now) (fun _ => rfl) i p.tracked id

/-- The result of a concluded batch is its closed record, if it has a record. -/
theorem result?_conclude (p : Processor) (i : BatchId) (ends : List (Cents × Bool)) (now : Instant) (id : BatchId) :
    (p.conclude i ends now).result? id =
      if id = i then ((p.status? id).map (closed ends now)).or (p.result? id) else p.result? id := by
  have hfound : (((change i (closed ends now) p.tracked).filter fun b => b.id = i).find? fun b => b.id = id) =
      if id = i then (p.status? id).map (closed ends now) else none := by
    rw [List.find?_filter]
    split
    · rename_i hid
      subst hid
      have hstatus := status?_conclude p id ends now id
      rw [if_pos rfl] at hstatus
      rw [← hstatus]
      exact congrArg (fun q => List.find? q _) (funext fun b => by simp)
    · rename_i hid
      refine List.find?_eq_none.2 fun b _ => ?_
      simpa using fun hb hb' => hid (hb'.symm.trans hb)
  show ((((change i (closed ends now) p.tracked).filter fun b => b.id = i) ++ p.finished).find? fun b => b.id = id) = _
  rw [List.find?_append, hfound]
  split <;> rfl

/-- The records that are over are forgotten, the others stay. -/
theorem status?_prune (hnodup : (p.tracked.map (·.id)).Nodup) (id : BatchId) :
    p.prune.status? id = (p.status? id).filter fun b => !b.status.isTerminal := by
  have hnodup' : (p.prune.tracked.map (·.id)).Nodup := (List.filter_sublist.map _).nodup hnodup
  refine Option.ext fun b => ?_
  rw [status?, Keyed.find?_eq_some hnodup', Option.filter_eq_some_iff, status?, Keyed.find?_eq_some hnodup, prune,
    List.mem_filter, and_right_comm]

end Processor

namespace BatchRun

/-- What a batch knows of a job that it has submitted. -/
def stateOf : Except Error JobId → JobState
  | .ok id => .awaited id
  | .error _ => .over false

end BatchRun

/-- A pool with the clients around it, and the batches. -/
structure Depot where
  workshop : Workshop
  processor : Processor
  /-- The dockets of the batches that were started, by number. -/
  dockets : BatchId → Option Docket
  /-- The jobs that were counted, each with the number of its batch, in order. -/
  counted : List (BatchId × Cents × Bool)

namespace Depot

/-- A pool and a processor that were just made. -/
def opened (workers capacity maxSize timeoutMs : Nat) : Depot :=
  ⟨.opened workers capacity, .empty maxSize timeoutMs, fun _ => none, []⟩

/-- The jobs of a batch that were counted. -/
def countedOf (d : Depot) (id : BatchId) : List (Cents × Bool) :=
  (d.counted.filter fun x => x.1 = id).map (·.2)

/-- Write something on the docket of a batch. -/
def note (d : Depot) (id : BatchId) (k : Docket) : BatchId → Option Docket :=
  Function.update d.dockets id (some k)

/-- Replace the docket and the run of a batch. -/
def turn (d : Depot) (id : BatchId) (k : Docket) (r : BatchRun) : Depot :=
  { d with
    processor := { d.processor with runs := Processor.putRun r d.processor.runs }
    dockets := d.note id k }

/-- A client starts a batch. -/
def start (d : Depot) (name : String) (jobs : List Job) (now : Instant) : Depot :=
  match d.processor.start name jobs now with
  | (.error _, p) => { d with processor := p }
  | (.ok id, p) => { d with processor := p, dockets := d.note id ⟨jobs, false, [], false, false⟩ }

/-- A batch is taken up, and its time begins. -/
def takeUp (d : Depot) (id : BatchId) (elapsed : Nat) : Depot :=
  match d.dockets id, d.processor.run? id with
  | some k, some r =>
    if k.begun then d
    else { d with
      processor := { d.processor with
        tracked := Processor.change id (fun b => { b with status := .processing }) d.processor.tracked
        runs := Processor.putRun { r with deadline := elapsed + d.processor.timeoutMs } d.processor.runs }
      dockets := d.note id { k with begun := true } }
  | _, _ => d

/-- A batch that was taken up submits its next job. -/
def submit (d : Depot) (id : BatchId) : Depot :=
  match d.dockets id, d.processor.run? id with
  | some k, some r =>
    match r.jobs with
    | [] => d
    | job :: rest =>
      if k.begun then
        let answer := (d.workshop.pool.submit r.expired job).1
        { d with workshop := d.workshop.submit r.expired job }.turn id
          { k with submitted := k.submitted ++ [(job, answer)] }
          { r with jobs := rest, states := r.states ++ [(job.amount, BatchRun.stateOf answer)] }
      else d
  | _, _ => d

/-- A batch looks at the ticket of one of its jobs. -/
def look (d : Depot) (id : BatchId) (i : Nat) : Depot :=
  match d.dockets id, d.processor.run? id with
  | some k, some r =>
    match r.states[i]? with
    | some (amount, .awaited job) =>
      match BatchRun.look d.workshop.pool r.expired (.awaited job) with
      | .awaited _ => d
      | .over success =>
        d.turn id { k with late := r.expired } { r with states := r.states.set i (amount, .over success) }
    | _ => d
  | _, _ => d

/-- The time of a batch is over. -/
def expire (d : Depot) (id : BatchId) : Depot :=
  match d.dockets id, d.processor.run? id with
  | some k, some _ => { d with processor := d.processor.expire id, dockets := d.note id { k with expired := true } }
  | _, _ => d

/-- A batch whose jobs are over counts the next of them. -/
def count (d : Depot) (id : BatchId) (now : Instant) : Depot :=
  match (d.processor.run? id).bind BatchRun.ends? with
  | none => d
  | some ends =>
    match ends[(d.countedOf id).length]? with
    | none => d
    | some e =>
      { d with
        processor := { d.processor with tally := Processor.count [e] now d.processor.tally }
        counted := d.counted ++ [(id, e)] }

/-- A batch that has counted its jobs closes its record. -/
def close (d : Depot) (id : BatchId) (now : Instant) : Depot :=
  match (d.processor.run? id).bind BatchRun.ends? with
  | none => d
  | some ends =>
    if (d.countedOf id).length = ends.length then
      { d with processor := { d.processor.conclude id ends now with tally := d.processor.tally } }
    else d

/-- What a batch, or someone else, can do next. -/
inductive Act
  /-- Someone uses the pool. -/
  | work (act : Workshop.Act)
  | start (name : String) (jobs : List Job) (now : Instant)
  | prune
  | takeUp (id : BatchId) (elapsed : Nat)
  | submit (id : BatchId)
  | look (id : BatchId) (i : Nat)
  | expire (id : BatchId)
  | count (id : BatchId) (now : Instant)
  | close (id : BatchId) (now : Instant)

/-- Someone does something. -/
def step (d : Depot) : Act → Depot
  | .work act => { d with workshop := d.workshop.step act }
  | .start name jobs now => d.start name jobs now
  | .prune => { d with processor := d.processor.prune }
  | .takeUp id elapsed => d.takeUp id elapsed
  | .submit id => d.submit id
  | .look id i => d.look id i
  | .expire id => d.expire id
  | .count id now => d.count id now
  | .close id now => d.close id now

/-- One thing after another is done. -/
def run (d : Depot) (acts : List Act) : Depot :=
  acts.foldl step d

/-! ## What concerns one batch -/

/-- All that concerns one batch. -/
structure View where
  docket : Option Docket
  run : Option BatchRun
  /-- Its record, while it is tracked. -/
  record : Option Batch
  /-- The record for those who wait for it. -/
  result : Option Batch
  counted : List (Cents × Bool)

/-- What concerns a batch that was not started. -/
def View.blank : View :=
  ⟨none, none, none, none, []⟩

/-- What concerns a batch. -/
def view (d : Depot) (id : BatchId) : View :=
  ⟨d.dockets id, d.processor.run? id, d.processor.status? id, d.processor.result? id, d.countedOf id⟩

variable {w w' : Workshop}

/-- What one step, of the batch itself or of anyone else, does to what concerns a batch. -/
inductive View.Step (w w' : Workshop) (v : View) : View → Prop
  | same : Step w w' v v
  | start (id : BatchId) (name : String) {jobs : List Job} (now : Instant) (hjobs : jobs ≠ []) (hv : v = .blank) :
    Step w w' v ⟨some ⟨jobs, false, [], false, false⟩, some ⟨id, jobs, [], 0, false⟩,
      some (.create id name jobs.length now), none, []⟩
  | prune {b : Batch} (hrecord : v.record = some b) (hterminal : b.status.isTerminal = true) :
    Step w w' v { v with record := none }
  | takeUp {k : Docket} {r : BatchRun} (hk : v.docket = some k) (hr : v.run = some r) (hbegun : k.begun = false)
    (deadline : Nat) :
    Step w w' v { v with
      docket := some { k with begun := true }
      run := some { r with deadline := deadline }
      record := v.record.map fun b => { b with status := .processing } }
  | submit {k : Docket} {r : BatchRun} (hk : v.docket = some k) (hr : v.run = some r) (hbegun : k.begun = true)
    {job : Job} {rest : List Job} (hjobs : r.jobs = job :: rest) (hw : w' = w.submit r.expired job) :
    Step w w' v { v with
      docket := some { k with submitted := k.submitted ++ [(job, (w.pool.submit r.expired job).1)] }
      run := some { r with
        jobs := rest
        states := r.states ++ [(job.amount, BatchRun.stateOf (w.pool.submit r.expired job).1)] } }
  | look {k : Docket} {r : BatchRun} (hk : v.docket = some k) (hr : v.run = some r) {i : Nat} {amount : Cents}
    {job : JobId} {success : Bool} (hstate : r.states[i]? = some (amount, .awaited job))
    (hlook : BatchRun.look w.pool r.expired (.awaited job) = .over success) :
    Step w w' v { v with
      docket := some { k with late := r.expired }
      run := some { r with states := r.states.set i (amount, .over success) } }
  | expire {k : Docket} {r : BatchRun} (hk : v.docket = some k) (hr : v.run = some r) :
    Step w w' v { v with docket := some { k with expired := true }, run := some { r with expired := true } }
  | count {r : BatchRun} (hr : v.run = some r) {ends : List (Cents × Bool)} {e : Cents × Bool}
    (hends : r.ends? = some ends) (he : ends[v.counted.length]? = some e) :
    Step w w' v { v with counted := v.counted ++ [e] }
  | close {r : BatchRun} (hr : v.run = some r) {ends : List (Cents × Bool)} (hends : r.ends? = some ends)
    (hcounted : v.counted.length = ends.length) (now : Instant) :
    Step w w' v { v with
      run := none
      record := v.record.map (Processor.closed ends now)
      result := (v.record.map (Processor.closed ends now)).or v.result }

/-! ## What a step does to the batches -/

variable {d : Depot} {id : BatchId}

/-- A step whose end is written otherwise is the same step. -/
theorem View.Step.of_eq {v v' v'' : View} (h : View.Step w w' v v') (he : v'' = v') : View.Step w w' v v'' :=
  he ▸ h

/-- Where the docket and the run of a batch are replaced, nothing else is. -/
theorem view_turn {i : BatchId} {r : BatchRun} (hr : d.processor.run? i = some r) (r' : BatchRun) (hid : r'.id = r.id)
    (k : Docket) (id : BatchId) :
    (d.turn i k r').view id = if id = i then { d.view id with docket := some k, run := some r' } else d.view id := by
  have hid' : r'.id = i := hid.trans (Processor.id_of_run? hr)
  unfold Processor.run? at hr
  split
  · rename_i h
    subst h
    simp [view, note, turn, Processor.run?, Processor.find?_putRun, hid', hr, Processor.status?, Processor.result?,
      countedOf]
  · rename_i h
    simp [view, note, turn, Processor.run?, Processor.find?_putRun, hid', h, Processor.status?, Processor.result?,
      countedOf]

/-- Pruning takes away the record of a batch, and nothing else that concerns it. -/
theorem view_pruned (hnodup : (d.processor.tracked.map (·.id)).Nodup) (id : BatchId) :
    { d with processor := d.processor.prune : Depot }.view id =
      { d.view id with record := (d.view id).record.filter fun b => !b.status.isTerminal } :=
  congrArg (fun record => View.mk (d.dockets id) (d.processor.run? id) record (d.processor.result? id) (d.countedOf id))
    (Processor.status?_prune hnodup id)

/-- A batch whose record is forgotten was over. -/
theorem view_prune (hnodup : (d.processor.tracked.map (·.id)).Nodup) (id : BatchId) :
    View.Step w w' (d.view id) ({ d with processor := d.processor.prune : Depot }.view id) := by
  rw [view_pruned hnodup]
  obtain ⟨docket, run, record, result, counted⟩ := d.view id
  cases record with
  | none => exact .same
  | some b =>
    by_cases hterminal : b.status.isTerminal = true
    · exact .of_eq (.prune rfl hterminal) (by simp [hterminal])
    · exact .of_eq .same (by simp [hterminal])

/-- A batch more. -/
def added (d : Depot) (name : String) (jobs : List Job) (now : Instant) : Depot :=
  { d with
    processor := { d.processor with
      tracked := d.processor.tracked ++ [.create d.processor.nextBatch name jobs.length now]
      runs := d.processor.runs ++ [⟨d.processor.nextBatch, jobs, [], 0, false⟩]
      nextBatch := d.processor.nextBatch + 1 }
    dockets := d.note d.processor.nextBatch ⟨jobs, false, [], false, false⟩ }

/-- A batch that is added concerns nobody but itself. -/
theorem view_added (hfresh : d.view d.processor.nextBatch = .blank) (name : String) (jobs : List Job) (now : Instant)
    (id : BatchId) :
    (d.added name jobs now).view id =
      if id = d.processor.nextBatch then
        ⟨some ⟨jobs, false, [], false, false⟩, some ⟨id, jobs, [], 0, false⟩,
          some (.create id name jobs.length now), none, []⟩
      else d.view id := by
  split
  · rename_i h
    subst h
    simp only [view, View.blank, View.mk.injEq, Processor.run?, Processor.status?] at hfresh
    obtain ⟨-, hrun, hrecord, hresult, hcounted⟩ := hfresh
    simp only [view, added, View.mk.injEq, Processor.run?, Processor.status?, List.find?_append, hrun, hrecord]
    exact ⟨by simp [note], by simp, by simp [Batch.create], hresult, hcounted⟩
  · rename_i h
    have hne := Ne.symm h
    simp only [view, added, View.mk.injEq, Processor.run?, Processor.status?, List.find?_append]
    exact ⟨by simp [note, h], by simp [hne], by simp [Batch.create, hne], rfl, rfl⟩

/-- A batch is started, or nothing changes. -/
theorem start_cases (d : Depot) (name : String) (jobs : List Job) (now : Instant) :
    (jobs ≠ [] ∧ jobs.length ≤ d.processor.maxSize ∧
      d.start name jobs now = { d with processor := d.processor.pruneIfFull : Depot }.added name jobs now) ∨
    ¬(jobs ≠ [] ∧ jobs.length ≤ d.processor.maxSize) ∧ d.start name jobs now = d := by
  unfold start Processor.start
  by_cases hempty : jobs.isEmpty = true
  · rw [if_pos hempty]
    exact Or.inr ⟨fun h => h.1 (by simpa using hempty), rfl⟩
  by_cases hlarge : d.processor.maxSize < jobs.length
  · rw [if_neg hempty, if_pos hlarge]
    exact Or.inr ⟨fun h => Nat.not_le.2 hlarge h.2, rfl⟩
  rw [if_neg hempty, if_neg hlarge]
  exact Or.inl ⟨by simpa using hempty, Nat.not_lt.1 hlarge, rfl⟩

/-- Some batches that are over may be forgotten when another is started. -/
theorem view_pruneIfFull (hnodup : (d.processor.tracked.map (·.id)).Nodup) (id : BatchId) :
    View.Step w w' (d.view id) ({ d with processor := d.processor.pruneIfFull : Depot }.view id) := by
  unfold Processor.pruneIfFull
  split
  · exact view_prune hnodup id
  · exact .same

/-- What was not there does not come by that. -/
theorem blank_pruneIfFull (hnodup : (d.processor.tracked.map (·.id)).Nodup) {id : BatchId}
    (hblank : d.view id = .blank) :
    { d with processor := d.processor.pruneIfFull : Depot }.view id = .blank := by
  unfold Processor.pruneIfFull
  split
  · rw [view_pruned hnodup, hblank]
    rfl
  · exact hblank

/-- A batch that is started was not there before. -/
theorem view_start (hnodup : (d.processor.tracked.map (·.id)).Nodup) (hfresh : d.view d.processor.nextBatch = .blank)
    (name : String) (jobs : List Job) (now : Instant) (id : BatchId) :
    View.Step w w' (d.view id) ((d.start name jobs now).view id) := by
  rcases start_cases d name jobs now with ⟨hjobs, -, hstart⟩ | ⟨-, hstart⟩
  · have hnext : d.processor.pruneIfFull.nextBatch = d.processor.nextBatch := by
      unfold Processor.pruneIfFull
      split <;> rfl
    have hblank := blank_pruneIfFull hnodup hfresh
    rw [← hnext] at hblank
    rw [hstart, view_added hblank]
    split
    · rename_i h
      exact .start id name now hjobs (by rw [h, ← hfresh]; exact congrArg d.view hnext)
    · exact view_pruneIfFull hnodup id
  · rw [hstart]
    exact .same

/-- To take up a batch is a step of this batch, and leaves alone what concerns others. -/
theorem view_takeUp (d : Depot) (i : BatchId) (elapsed : Nat) (id : BatchId) :
    View.Step w w' (d.view id) ((d.takeUp i elapsed).view id) := by
  unfold takeUp
  split
  · rename_i k r hk hr
    split
    · exact .same
    · rename_i hbegun
      have hid := Processor.id_of_run? hr
      by_cases h : id = i
      · subst h
        refine .of_eq (.takeUp hk hr (by simpa using hbegun) (elapsed + d.processor.timeoutMs)) ?_
        unfold Processor.run? at hr
        simp [view, note, Processor.run?, Processor.status?, Processor.result?, countedOf, Processor.find?_putRun,
          Processor.find?_change, hid, hr]
      · refine .of_eq .same ?_
        simp [view, note, Processor.run?, Processor.status?, Processor.result?, countedOf, Processor.find?_putRun,
          Processor.find?_change, hid, h]
  · exact .same

/-- To submit the next job of a batch is a step of this batch only. -/
theorem view_submit (d : Depot) (i id : BatchId) :
    View.Step d.workshop (d.submit i).workshop (d.view id) ((d.submit i).view id) := by
  unfold submit
  split
  · rename_i k r hk hr
    split
    · exact .same
    · rename_i job rest hjobs
      split
      · rename_i hbegun
        have hview := view_turn (d := { d with workshop := d.workshop.submit r.expired job }) hr
          { r with
            jobs := rest
            states := r.states ++ [(job.amount, BatchRun.stateOf (d.workshop.pool.submit r.expired job).1)] } rfl
          { k with submitted := k.submitted ++ [(job, (d.workshop.pool.submit r.expired job).1)] } id
        by_cases h : id = i
        · subst h
          exact .of_eq (.submit hk hr hbegun hjobs rfl) (hview.trans (if_pos rfl))
        · exact .of_eq .same (hview.trans (if_neg h))
      · exact .same
  · exact .same

/-- To look at the ticket of a job is a step of its batch only. -/
theorem view_look (d : Depot) (i : BatchId) (n : Nat) (id : BatchId) :
    View.Step d.workshop w' (d.view id) ((d.look i n).view id) := by
  unfold look
  split
  · rename_i k r hk hr
    split
    · rename_i amount job hstate
      split
      · exact .same
      · rename_i success hlook
        by_cases h : id = i
        · subst h
          exact .of_eq (.look hk hr hstate hlook) ((view_turn hr _ (by rfl) _ id).trans (if_pos rfl))
        · exact .of_eq .same ((view_turn hr _ (by rfl) _ id).trans (if_neg h))
    · exact .same
  · exact .same

/-- That the time of a batch is over is a step of this batch only. -/
theorem view_expire (d : Depot) (i id : BatchId) : View.Step w w' (d.view id) ((d.expire i).view id) := by
  unfold expire
  split
  · rename_i k r hk hr
    by_cases h : id = i
    · subst h
      refine .of_eq (.expire hk hr) ?_
      simp [view, note, Processor.run?_expire, hr, countedOf]
      exact ⟨rfl, rfl⟩
    · refine .of_eq .same ?_
      simp [view, note, Processor.run?_expire, h, countedOf]
      exact ⟨rfl, rfl⟩
  · exact .same

/-- To count a job is a step of its batch only. -/
theorem view_count (d : Depot) (i : BatchId) (now : Instant) (id : BatchId) :
    View.Step w w' (d.view id) ((d.count i now).view id) := by
  unfold count
  split
  · exact .same
  · rename_i ends hbind
    obtain ⟨r, hr, hends⟩ := Option.bind_eq_some_iff.1 hbind
    split
    · exact .same
    · rename_i e he
      by_cases h : id = i
      · subst h
        refine .of_eq (.count hr hends he) ?_
        simp [view, countedOf]
        exact ⟨rfl, rfl, rfl⟩
      · refine .of_eq .same ?_
        simp [view, countedOf, Ne.symm h]
        exact ⟨rfl, rfl, rfl⟩

/-- To close a record is a step of its batch only. -/
theorem view_close (d : Depot) (i : BatchId) (now : Instant) (id : BatchId) :
    View.Step w w' (d.view id) ((d.close i now).view id) := by
  unfold close
  split
  · exact .same
  · rename_i ends hbind
    obtain ⟨r, hr, hends⟩ := Option.bind_eq_some_iff.1 hbind
    split
    · rename_i hcounted
      have hrun := Processor.run?_conclude d.processor i ends now id
      have hstatus := Processor.status?_conclude d.processor i ends now id
      have hresult := Processor.result?_conclude d.processor i ends now id
      by_cases h : id = i
      · subst h
        rw [if_pos rfl] at hrun hstatus hresult
        refine .of_eq (.close hr hends hcounted now) ?_
        simp only [view, View.mk.injEq]
        exact ⟨trivial, hrun, hstatus, hresult, rfl⟩
      · rw [if_neg h] at hrun hstatus hresult
        refine .of_eq .same ?_
        simp only [view, View.mk.injEq]
        exact ⟨trivial, hrun, hstatus, hresult, rfl⟩
    · exact .same

/-- Whatever is done concerns a batch in one of these ways. -/
theorem view_step (hnodup : (d.processor.tracked.map (·.id)).Nodup) (hfresh : d.view d.processor.nextBatch = .blank)
    (act : Act) (id : BatchId) :
    View.Step d.workshop (d.step act).workshop (d.view id) ((d.step act).view id) := by
  cases act with
  | work act => exact .same
  | start name jobs now => exact view_start hnodup hfresh name jobs now id
  | prune => exact view_prune hnodup id
  | takeUp i elapsed => exact view_takeUp d i elapsed id
  | submit i => exact view_submit d i id
  | look i n => exact view_look d i n id
  | expire i => exact view_expire d i id
  | count i now => exact view_count d i now id
  | close i now => exact view_close d i now id

end Depot

end CentLedger
