import CentLedger.Proofs.PoolUse
import CentLedger.Proofs.Tickets

/-!
# What a tally tells

A pool counts a job when a worker takes it and again when it is done, and it counts the submissions that found the queue
full; anyone may set the tally to zero at any moment. `Tally.Counts` says what a tally tells of the jobs taken, the jobs
done and the submissions made since then, and `Workshop.tally_accounts` that it tells this in every state.

The number of pending jobs is what was taken less what is done since then. So it is the number of jobs in flight, less
those that were in flight when the tally was set to zero (`Workshop.pending_gauge`): a tally that is set to zero while
jobs run does not tell how many are in flight, then or later (`Workshop.pending_below_zero`).
-/

namespace CentLedger

/-! ## What one tally counts -/

/-- A tally tells of some jobs that were taken, of what came out of some jobs, and of some submissions, each in
order. -/
structure Tally.Counts (t : Tally) (taken : List (JobId × Job)) (ended : List (JobId × JobResult))
    (submitted : List (Job × Except Error JobId)) : Prop where
  total : t.total = taken.length
  successful : t.successful = ended.countP fun e => e.2.isSuccess
  failed : t.failed = ended.countP fun e => !e.2.isSuccess
  pending : t.pending = taken.length - ended.length
  /-- The sum of the amounts that went through, as far as the word reaches. -/
  amount : t.totalAmount = Int64.ofInt ((ended.filter fun e => e.2.isSuccess).map fun e => e.2.job.amount.toInt).sum
  /-- The time of the last job that is done. -/
  last : t.lastMillis = (ended.getLast?.map fun e => e.2.processedAt.unixMillis).getD 0
  full : t.queueFull = submitted.countP fun s => s.2 = .error .queueFull

namespace Tally.Counts

variable {t : Tally} {taken : List (JobId × Job)} {ended : List (JobId × JobResult)}
  {submitted : List (Job × Except Error JobId)}

/-- An empty tally counts nothing. -/
theorem empty : Tally.empty.Counts [] [] [] where
  total := rfl
  successful := rfl
  failed := rfl
  pending := rfl
  amount := rfl
  last := rfl
  full := rfl

/-- A job that is taken from the queue is pending from then on. -/
theorem dequeued (h : t.Counts taken ended submitted) (j : JobId × Job) :
    t.dequeued.Counts (taken ++ [j]) ended submitted :=
  { h with
    total := by simp [Tally.dequeued, h.total]
    pending := by
      simp only [Tally.dequeued, h.pending, List.length_append, List.length_singleton]
      omega }

/-- A result is counted once, with its amount if it is a success. -/
theorem finished (h : t.Counts taken ended submitted) (id : JobId) (r : JobResult) :
    (t.finished r.isSuccess r.job.amount r.processedAt).Counts taken (ended ++ [(id, r)]) submitted := by
  have hpending : t.pending - 1 = (taken.length : Int) - (ended ++ [(id, r)]).length := by
    simp only [h.pending, List.length_append, List.length_singleton]
    omega
  unfold Tally.finished
  cases hr : r.isSuccess with
  | true =>
    exact {
      total := h.total
      successful := by simp [h.successful, hr]
      failed := by simp [h.failed, hr]
      pending := hpending
      amount := by simp [h.amount, hr, Int64.ofInt_add]
      last := by simp
      full := h.full }
  | false =>
    exact {
      total := h.total
      successful := by simp [h.successful, hr]
      failed := by simp [h.failed, hr]
      pending := hpending
      amount := by simp [h.amount, hr]
      last := by simp
      full := h.full }

/-- An answer to a submission is counted if the queue was full. -/
theorem answered (h : t.Counts taken ended submitted) (job : Job) (answer : Except Error JobId) :
    (if answer = .error .queueFull then t.refused else t).Counts taken ended (submitted ++ [(job, answer)]) := by
  by_cases hfull : answer = .error .queueFull
  · rw [if_pos hfull]
    exact { h with full := by simp [Tally.refused, h.full, hfull] }
  · rw [if_neg hfull]
    exact { h with full := by simp [h.full, hfull] }

/-- What was taken went through, failed, or is pending. -/
theorem balanced (h : t.Counts taken ended submitted) : (t.total : Int) = t.successful + t.failed + t.pending := by
  have hlength := ended.length_eq_countP_add_countP fun e => e.2.isSuccess
  have hnot : ended.countP (fun e => decide ¬e.2.isSuccess = true) = t.failed := by simp [h.failed]
  rw [h.total, h.pending, h.successful]
  omega

end Tally.Counts

/-- A submission is counted if it found the queue full, and only then. -/
theorem Pool.tally_submit (p : Pool) (cancelled : Bool) (job : Job) :
    (p.submit cancelled job).2.tally =
      if (p.submit cancelled job).1 = .error .queueFull then p.tally.refused else p.tally := by
  unfold submit
  split
  · rfl
  split
  · rfl
  split
  · rfl
  · rfl

namespace Workshop

variable {workers capacity : Nat} {w since : Workshop}

/-! ## What the tally counts since it was set to zero -/

/-- The tally counts what happened since some earlier state, and nothing else. -/
def CountsSince (since w : Workshop) : Prop :=
  ∃ taken ended submitted, w.taken = since.taken ++ taken ∧ w.ended = since.ended ++ ended ∧
    w.submitted = since.submitted ++ submitted ∧ w.pool.tally.Counts taken ended submitted

/-- A tally that was set to zero counts from then on. -/
theorem countsSince_self (h : w.pool.tally = .empty) : CountsSince w w :=
  ⟨[], [], [], by simp, by simp, by simp, h ▸ .empty⟩

/-- Only submissions, workers that take a job or are done with one, and setting it to zero change the tally. -/
theorem tally_step (w : Workshop) (act : Act) (hsubmit : ∀ cancelled job, act ≠ .submit cancelled job)
    (hreceive : act ≠ .receive) (hdeliver : ∀ id outcome now, act ≠ .deliver id outcome now) (hreset : act ≠ .reset) :
    (w.step act).pool.tally = w.pool.tally := by
  cases act with
  | submit cancelled job => exact absurd rfl (hsubmit cancelled job)
  | receive => exact absurd rfl hreceive
  | deliver id outcome now => exact absurd rfl (hdeliver id outcome now)
  | reset => exact absurd rfl hreset
  | shutdown => rfl
  | _ =>
    simp only [step, await, look, proceed, leave, Pool.leave, Pool.dropQueue]
    repeat' split
    all_goals rfl

namespace CountsSince

/-- The tally stays in step with the submissions, of which it counts those that found the queue full. -/
theorem submit (h : CountsSince since w) (cancelled : Bool) (job : Job) :
    CountsSince since (w.submit cancelled job) := by
  obtain ⟨taken, ended, submitted, htaken, hended, hsubmitted, hcounts⟩ := h
  refine ⟨taken, ended, submitted ++ [(job, (w.pool.submit cancelled job).1)], htaken, hended, ?_, ?_⟩
  · simp [Workshop.submit, hsubmitted]
  · rw [Workshop.submit, Pool.tally_submit]
    exact hcounts.answered job _

/-- The tally stays in step with the jobs that workers take. -/
theorem receive (h : CountsSince since w) : CountsSince since w.receive := by
  unfold Workshop.receive
  split
  · split
    · rename_i j pool hreceive
      obtain ⟨rest, -, rfl⟩ := Pool.queue_of_receive? hreceive
      obtain ⟨taken, ended, submitted, htaken, hended, hsubmitted, hcounts⟩ := h
      exact ⟨taken ++ [j], ended, submitted, by simp [htaken], hended, hsubmitted, hcounts.dequeued j⟩
    · split
      · unfold Workshop.leave Pool.leave Pool.dropQueue
        split <;> exact h
      · exact h
  · exact h

/-- The tally stays in step with the results that workers deliver. -/
theorem deliver (h : CountsSince since w) (id : JobId) (outcome : Transfer.Outcome) (now : Instant) :
    CountsSince since (w.deliver id outcome now) := by
  unfold Workshop.deliver
  split
  · exact h
  · rename_i job hruns
    obtain ⟨taken, ended, submitted, htaken, hended, hsubmitted, hcounts⟩ := h
    refine ⟨taken, ended ++ [(id, ⟨job, outcome, now⟩)], submitted, htaken, ?_, hsubmitted, ?_⟩
    · simp [hended]
    · exact hcounts.finished id ⟨job, outcome, now⟩

/-- Whatever happens is counted, until the tally is set to zero. -/
theorem step (h : CountsSince since w) {act : Act} (hact : act ≠ .reset) : CountsSince since (w.step act) := by
  by_cases hsubmit : ∃ cancelled job, act = .submit cancelled job
  · obtain ⟨cancelled, job, rfl⟩ := hsubmit
    exact h.submit cancelled job
  by_cases hreceive : act = .receive
  · exact hreceive ▸ h.receive
  by_cases hdeliver : ∃ id outcome now, act = .deliver id outcome now
  · obtain ⟨id, outcome, now, rfl⟩ := hdeliver
    exact h.deliver id outcome now
  simp only [not_exists] at hsubmit hdeliver
  unfold CountsSince
  rw [taken_step w act hreceive, ended_step w act hdeliver, submitted_step w act hsubmit,
    tally_step w act hsubmit hreceive hdeliver hact]
  exact h

end CountsSince

/-- The tally is set to zero. -/
def Act.isReset : Act → Bool
  | .reset => true
  | _ => false

/-- The steps up to the last one that sets the tally to zero; none, if none does. -/
def Act.untilReset (acts : List Act) : List Act :=
  acts.rdropWhile fun act => !act.isReset

/-- After any steps, the tally counts what happened since it was last set to zero. -/
theorem countsSince_run (workers capacity : Nat) (acts : List Act) :
    CountsSince ((opened workers capacity).run (Act.untilReset acts)) ((opened workers capacity).run acts) := by
  induction acts using List.reverseRecOn with
  | nil => exact countsSince_self rfl
  | append_singleton acts act ih =>
    cases hact : act.isReset with
    | true =>
      obtain rfl : act = .reset := by cases act <;> first | rfl | cases hact
      rw [Act.untilReset, List.rdropWhile_concat_neg _ _ _ (by simp [hact]), run_append]
      exact countsSince_self rfl
    | false =>
      rw [Act.untilReset, List.rdropWhile_concat_pos _ _ _ (by simp [hact]), run_append]
      exact ih.step (by rintro rfl; cases hact)

/-! ## Who waits for a job does not matter -/

/-- The same pool at work, with nothing told to anyone. -/
def untold (w : Workshop) : Workshop :=
  { w with told := [] }

/-- A client looks at its ticket. -/
def Act.isAwait : Act → Bool
  | .await _ _ => true
  | _ => false

/-- What is told to the holder of a ticket changes nothing else. -/
theorem untold_await (w : Workshop) (id : JobId) (givenUp : Bool) : (w.await id givenUp).untold = w.untold := by
  unfold await
  split
  · split <;> rfl
  · rfl

/-- What was told plays no part in what happens next. -/
theorem untold_step (w : Workshop) {act : Act} (hact : act.isAwait = false) :
    (w.step act).untold = w.untold.step act := by
  cases act with
  | await id givenUp => cases hact
  | submit | reset | shutdown => rfl
  | look =>
    simp only [step, look, leave, apply_ite untold]
    rfl
  | receive =>
    cases hreceive : w.pool.receive? with
    | none =>
      have hreceive' : w.untold.pool.receive? = none := hreceive
      simp only [step, receive, leave, hreceive, hreceive', apply_ite untold]
      rfl
    | some j =>
      have hreceive' : w.untold.pool.receive? = some j := hreceive
      simp only [step, receive, hreceive, hreceive', apply_ite untold]
      rfl
  | deliver id outcome now =>
    simp only [step, deliver, untold]
    cases w.pool.runs? id <;> rfl
  | proceed call =>
    have hclosings : w.untold.closings = w.closings := rfl
    simp only [step, proceed, hclosings]
    rcases w.closings[call]? with _ | closing
    · rfl
    · cases closing with
      | wait => exact apply_ite untold _ _ _
      | _ => rfl

/-- What happens is what would happen if no client looked at its ticket. -/
theorem untold_run (w : Workshop) (acts : List Act) :
    (w.run acts).untold = w.untold.run (acts.filter fun act => !act.isAwait) := by
  induction acts generalizing w with
  | nil => rfl
  | cons act acts ih =>
    show ((w.step act).run acts).untold = _
    rw [ih, List.filter_cons]
    cases hact : act.isAwait with
    | true =>
      obtain ⟨id, givenUp, rfl⟩ : ∃ id givenUp, act = .await id givenUp := by
        cases act <;> first | exact ⟨_, _, rfl⟩ | cases hact
      rw [step, untold_await]
      rfl
    | false =>
      rw [untold_step w hact]
      rfl

/-! ## What the tally accounts for -/

/-- What the tally of a pool tells after some steps, since it was last set to zero. -/
structure Accounted (workers capacity : Nat) (acts : List Act) (since w : Workshop) : Prop where
  /-- Each job taken, each job done and each submission since then is counted, with its amount and its time. -/
  counts : CountsSince since w
  /-- What was taken went through, failed, or is pending. -/
  balanced : (w.pool.tally.total : Int) = w.pool.tally.successful + w.pool.tally.failed + w.pool.tally.pending
  /-- A job that is counted was accepted. -/
  accepted : w.taken <+: w.accepted
  /-- No job is counted twice, neither when it is taken nor when it is done. -/
  once : (w.taken.map (·.1)).Nodup ∧ (w.ended.map (·.1)).Nodup
  /-- A job that was dropped from the queue is not counted. -/
  dropped : ∀ j ∈ w.lost, j.1 ∉ w.taken.map (·.1) ∧ j.1 ∉ w.ended.map (·.1)
  /-- A submission that is refused is counted if it found the queue full, and otherwise leaves the tally alone. -/
  refused : ∀ cancelled job e, (w.pool.submit cancelled job).1 = .error e →
    (w.submit cancelled job).pool.tally = if e = .queueFull then w.pool.tally.refused else w.pool.tally
  /-- The tally is the same as if no client had waited for its job, or given up the wait. -/
  unwaited : w.pool.tally = ((opened workers capacity).run (acts.filter fun act => !act.isAwait)).pool.tally

/-- The tally of a pool accounts for every job, whatever its clients and workers do and in whatever order, and however
often and at whatever moments it is set to zero. -/
theorem tally_accounts (workers capacity : Nat) (acts : List Act) :
    Accounted workers capacity acts ((opened workers capacity).run (Act.untilReset acts))
      ((opened workers capacity).run acts) := by
  have h := (Sound.start workers capacity).run acts
  have hcounts := countsSince_run workers capacity acts
  have hunwaited := congrArg (·.pool.tally) (untold_run (opened workers capacity) acts)
  generalize (opened workers capacity).run acts = w at h hcounts hunwaited ⊢
  exact {
    counts := hcounts
    balanced := by
      obtain ⟨taken, ended, submitted, -, -, -, htally⟩ := hcounts
      exact htally.balanced
    accepted := h.order ▸ List.prefix_append _ _
    once := ⟨h.taken_nodup, h.ended_nodup⟩
    dropped := by
      intro j hj
      have htaken : j.1 ∉ w.taken.map (·.1) := h.lost_not_taken (List.mem_map_of_mem hj)
      refine ⟨htaken, fun hended => htaken ?_⟩
      obtain ⟨e, he, hid⟩ := List.mem_map.1 hended
      exact hid ▸ List.mem_map_of_mem (f := (·.1)) (h.taken_of_ended he)
    refused := by
      intro cancelled job e he
      rw [submit, Pool.tally_submit, he]
      simp only [Except.error.injEq]
    unwaited := hunwaited }

/-! ## How many jobs are pending -/

/-- How far the tally tells the number of jobs in flight, since it was last set to zero. -/
structure Gauged (since w : Workshop) : Prop where
  /-- It tells those in flight, less those that were in flight then. -/
  pending : w.pool.tally.pending = w.pool.running.length - since.pool.running.length
  /-- So it tells the number of jobs in flight exactly if there were none then. -/
  truthful : w.pool.tally.pending = w.pool.running.length ↔ since.pool.running = []
  /-- In that case it is not negative, and no more jobs are done than were taken. -/
  bounded : since.pool.running = [] →
    0 ≤ w.pool.tally.pending ∧ w.pool.tally.successful + w.pool.tally.failed ≤ w.pool.tally.total

/-- Every job that was taken is done or in flight. -/
theorem Sound.length_running (h : w.Sound workers capacity) :
    w.ended.length + w.pool.running.length = w.taken.length := by
  simpa using h.inHand.length_eq

/-- The number of pending jobs is the number of jobs in flight if none was in flight when the tally was last set to
zero, and it falls short of it by those that were. -/
theorem pending_gauge (workers capacity : Nat) (acts : List Act) :
    Gauged ((opened workers capacity).run (Act.untilReset acts)) ((opened workers capacity).run acts) := by
  have hsince := ((Sound.start workers capacity).run (Act.untilReset acts)).length_running
  have hnow := ((Sound.start workers capacity).run acts).length_running
  obtain ⟨taken, ended, submitted, htaken, hended, -, htally⟩ := countsSince_run workers capacity acts
  generalize (opened workers capacity).run acts = w at *
  generalize (opened workers capacity).run (Act.untilReset acts) = since at *
  have hpending : w.pool.tally.pending = w.pool.running.length - since.pool.running.length := by
    rw [htaken, hended, List.length_append, List.length_append] at hnow
    rw [htally.pending]
    omega
  refine ⟨hpending, ?_, fun hnone => ?_⟩
  · rw [hpending, ← List.length_eq_zero_iff]
    omega
  · have hbalanced := htally.balanced
    rw [hpending, hnone] at *
    simp only [List.length_nil] at *
    omega

/-- The tally is set to zero while a worker is at a job. When the job is done the tally counts one that failed and none
that was taken, and less than no job is pending. -/
theorem pending_below_zero : ¬∀ (workers capacity : Nat) (acts : List Act),
    let w := (opened workers capacity).run acts
    w.pool.tally.pending = w.pool.running.length ∧ 0 ≤ w.pool.tally.pending ∧
      w.pool.tally.successful + w.pool.tally.failed ≤ w.pool.tally.total := by
  intro htruthful
  have hbelow := (htruthful 1 1 [.submit false (.credit 1 100), .look, .receive, .reset,
    .deliver 0 (.error ⟨none, .invalidAmount⟩) (.ofSeconds 0)]).2.1
  exact absurd hbelow (by decide)

end Workshop

end CentLedger
