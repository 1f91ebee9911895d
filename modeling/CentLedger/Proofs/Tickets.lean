import CentLedger.Proofs.Workshop

/-!
# What a ticket is worth

What clients of a pool can rely on (`Workshop.Reliable`): the bounds, the order, one execution at most, results that
reach their own ticket, and the reason of every refusal. Then what an error is worth that says to try again
(`Workshop.Retrying`): nothing was done where a submission is refused, but a client that gave up a wait may find its job
done all the same, unless the workers were made to leave it.
-/

namespace CentLedger

namespace Workshop

variable {workers capacity : Nat} {w : Workshop}

/-! ## Where a job is -/

namespace Sound

/-- A job that is lost was not taken. -/
theorem lost_not_taken (h : w.Sound workers capacity) {id : JobId} (hid : id ∈ w.lost.map (·.1)) :
    id ∉ w.taken.map (·.1) := by
  have hnd := h.accepted_nodup
  rw [h.order, List.map_append, List.map_append] at hnd
  exact fun htaken => List.disjoint_of_nodup_append hnd htaken (List.mem_append_left _ hid)

/-- Nor is it taken later. -/
theorem never_taken (h : w.Sound workers capacity) {id : JobId} (hid : id ∈ w.lost.map (·.1)) (more : List Act) :
    id ∉ (w.run more).taken.map (·.1) :=
  (h.run more).lost_not_taken (((lost_run w more).map _).subset hid)

/-- A job that was taken is done once no worker is left. -/
theorem ended_of_taken (h : w.Sound workers capacity) (hgone : w.pool.alive = 0) {j : JobId × Job} (hj : j ∈ w.taken) :
    ∃ r : JobResult, r.job = j.2 ∧ (j.1, r) ∈ w.ended := by
  have hmem := h.inHand.mem_iff.2 hj
  rw [(h.idle_of_gone hgone).1, List.append_nil] at hmem
  obtain ⟨e, he, rfl⟩ := List.mem_map.1 hmem
  exact ⟨e.2, rfl, he⟩

/-- A job was taken before something came out of it. -/
theorem taken_of_ended (h : w.Sound workers capacity) {e : JobId × JobResult} (he : e ∈ w.ended) :
    origin e ∈ w.taken :=
  h.inHand.mem_iff.1 (List.mem_append_left _ (List.mem_map_of_mem he))

/-- No job is done twice. -/
theorem ended_nodup (h : w.Sound workers capacity) : (w.ended.map (·.1)).Nodup := by
  have hnd := ((h.inHand.map (·.1)).nodup_iff).2 h.taken_nodup
  rw [List.map_append, List.map_map] at hnd
  exact hnd.of_append_left

/-- Only one thing came out of a job. -/
theorem ended_unique (h : w.Sound workers capacity) {e e' : JobId × JobResult} (he : e ∈ w.ended) (he' : e' ∈ w.ended)
    (hid : e.1 = e'.1) : e = e' :=
  List.inj_on_of_nodup_map h.ended_nodup he he' hid

/-- What was taken from the queue was accepted. -/
theorem accepted_of_taken (h : w.Sound workers capacity) {j : JobId × Job} (hj : j ∈ w.taken) : j ∈ w.accepted :=
  h.order ▸ List.mem_append_left _ hj

/-- A job is lost only when the workers are told to leave, and then it was queued. -/
theorem queued_at_stop (h : w.Sound workers capacity) {id : JobId} (hid : id ∈ w.lost.map (·.1)) :
    ∃ queue, w.atStop = some queue ∧ id ∈ queue.map (·.1) := by
  have hstopped : w.pool.stopped = true := by
    by_contra hnot
    simp [h.spared (by simpa using hnot)] at hid
  obtain ⟨queue, hq, hsuffix⟩ := h.caught hstopped
  exact ⟨queue, hq, (hsuffix.map _).subset (by simpa using Or.inl hid)⟩

end Sound

/-! ## A pool that is closed gently -/

/-- No call has set out to make the workers leave their queue. -/
structure Gentle (w : Workshop) : Prop where
  unstopped : w.pool.stopped = false
  noHalt : .halt ∉ w.closings
  noAbrupt : .shut true ∉ w.closings

namespace Gentle

/-- A call that neither halts the workers nor sets out to is gentle. -/
theorem goOn (h : w.Gentle) (call : Nat) {closing : Closing} (hhalt : closing ≠ .halt) (habrupt : closing ≠ .shut true) :
    (w.goOn call closing).Gentle where
  unstopped := h.unstopped
  noHalt hmem := (List.mem_or_eq_of_mem_set hmem).elim h.noHalt fun e => hhalt e.symm
  noAbrupt hmem := (List.mem_or_eq_of_mem_set hmem).elim h.noAbrupt fun e => habrupt e.symm

/-- A call that closes a pool gently stays gentle. -/
theorem proceed (h : w.Gentle) (call : Nat) : (w.proceed call).Gentle := by
  unfold Workshop.proceed
  split
  · exact h
  · exact h
  · rename_i abrupt hcall
    have hgentle : abrupt = false := by
      by_contra habrupt
      exact h.noAbrupt (List.mem_of_getElem? (by simpa [habrupt] using hcall))
    have hshut : { w with pool := w.pool.shut }.Gentle := { h with }
    exact hshut.goOn _ (by simp [hgentle]) (by simp [hgentle])
  · rename_i hcall
    exact absurd (List.mem_of_getElem? hcall) h.noHalt
  · have hjoined : { w with pool := w.pool.join.2 }.Gentle := { h with }
    exact hjoined.goOn _ (by split <;> nofun) (by split <;> nofun)
  · split
    · exact h.goOn _ nofun nofun
    · exact h

/-- Every step but an abrupt shutdown is gentle. -/
theorem step (h : w.Gentle) {act : Act} (hact : act ≠ .shutdown true) : (w.step act).Gentle := by
  rcases w.step_cases act with hordinary | ⟨abrupt, rfl⟩ | ⟨call, rfl⟩
  · exact ⟨hordinary.stopped ▸ h.unstopped, hordinary.closings ▸ h.noHalt, hordinary.closings ▸ h.noAbrupt⟩
  · have hgentle : abrupt = false := by simpa using hact
    exact {
      unstopped := h.unstopped
      noHalt := fun hmem => (List.mem_append.1 hmem).elim h.noHalt fun hnew => nomatch List.mem_singleton.1 hnew
      noAbrupt := fun hmem => (List.mem_append.1 hmem).elim h.noAbrupt fun hnew => by
        simp [hgentle] at hnew }
  · exact h.proceed call

/-- A run without an abrupt shutdown is gentle. -/
theorem run (h : w.Gentle) {acts : List Act} (hacts : ∀ act ∈ acts, act ≠ .shutdown true) : (w.run acts).Gentle := by
  induction acts generalizing w with
  | nil => exact h
  | cons act acts ih =>
    exact ih (h.step (hacts act List.mem_cons_self)) fun act' hmem => hacts act' (List.mem_cons_of_mem _ hmem)

/-- A new pool was closed by nobody. -/
theorem start (workers capacity : Nat) : (opened workers capacity).Gentle :=
  ⟨rfl, nofun, nofun⟩

end Gentle

/-- If the pool was closed gently and the workers have left, each job that was accepted was taken. -/
theorem Sound.accepted_eq_taken (h : w.Sound workers capacity) (hgentle : w.Gentle) (hgone : w.pool.alive = 0) :
    w.accepted = w.taken := by
  rw [h.order, h.spared hgentle.unstopped, h.deserted hgone, List.append_nil, List.append_nil]

/-- Each of them is done, then. -/
theorem Sound.ended_of_accepted (h : w.Sound workers capacity) (hgentle : w.Gentle) (hgone : w.pool.alive = 0)
    {j : JobId × Job} (hj : j ∈ w.accepted) : ∃ r : JobResult, r.job = j.2 ∧ (j.1, r) ∈ w.ended :=
  h.ended_of_taken hgone (h.accepted_eq_taken hgentle hgone ▸ hj)

/-! ## What clients can rely on -/

/-- What clients of a pool can rely on after some steps. -/
structure Reliable (workers capacity : Nat) (acts : List Act) (w : Workshop) : Prop where
  /-- The queue holds no more jobs than it has slots. -/
  room : w.pool.queue.length ≤ Pool.slots workers capacity
  /-- Each job that was taken is done or in the hands of a worker, and only those are. -/
  inHand : (w.ended.map origin ++ w.pool.running).Perm w.taken
  /-- There are no more jobs in flight than workers. -/
  flight : w.pool.running.length ≤ max workers 1
  /-- Each job that was accepted has a ticket of its own. -/
  tickets : (w.accepted.map (·.1)).Nodup
  /-- Jobs leave the queue in the order in which they were accepted, and nothing that was refused is among them. -/
  order : w.taken <+: w.accepted
  /-- No job is taken twice. -/
  once : (w.taken.map (·.1)).Nodup
  /-- A submission that is refused leaves no trace but in the tally. -/
  refused : ∀ cancelled job e, (w.pool.submit cancelled job).1 = .error e →
    (w.submit cancelled job).accepted = w.accepted ∧
      ∃ tally, (w.submit cancelled job).pool = { w.pool with tally := tally }
  /-- A result that was told is what came out of the job of the ticket. -/
  own : ∀ id r, (id, .ok r) ∈ w.told → (id, r) ∈ w.ended ∧ (id, r.job) ∈ w.accepted
  /-- A job that is done has its result on its ticket, also for a client that gave up the wait. -/
  given : ∀ id r, (id, r) ∈ w.ended → ∀ givenUp, w.pool.answer? id givenUp = some (.ok r)
  /-- A client is told that the pool is closed only if the job was queued when the workers were told to leave, and
  nobody ever takes it. -/
  abandoned : ∀ id, (id, .error .poolClosed) ∈ w.told →
    (∃ queue, w.atStop = some queue ∧ id ∈ queue.map (·.1)) ∧ ∀ more, id ∉ (w.run more).taken.map (·.1)
  /-- If the pool was closed gently and the workers have left, each job that was accepted is done. -/
  drained : (∀ act ∈ acts, act ≠ .shutdown true) → w.pool.alive = 0 →
    ∀ j ∈ w.accepted, ∃ r : JobResult, r.job = j.2 ∧ (j.1, r) ∈ w.ended

/-- A submission that is refused leaves the pool as it is, apart from the tally. -/
theorem accepted_of_refused {cancelled : Bool} {job : Job} {e : Error} (h : (w.pool.submit cancelled job).1 = .error e) :
    (w.submit cancelled job).accepted = w.accepted ∧
      ∃ tally, (w.submit cancelled job).pool = { w.pool with tally := tally } := by
  refine ⟨by simp [accepted, Workshop.submit, h], ?_⟩
  rcases w.pool.submit_cases cancelled job with ⟨-, -, -, heq⟩ | ⟨e', tally, heq⟩
  · simp [heq] at h
  · exact ⟨tally, congrArg Prod.snd heq⟩

/-- A pool neither loses, duplicates nor misdelivers jobs, whatever its clients and workers do and in whatever order. -/
theorem pool_reliable (workers capacity : Nat) (acts : List Act) :
    Reliable workers capacity acts ((opened workers capacity).run acts) := by
  have h := (Sound.start workers capacity).run acts
  have hgentle : (∀ act ∈ acts, act ≠ .shutdown true) → ((opened workers capacity).run acts).Gentle :=
    (Gentle.start workers capacity).run
  generalize (opened workers capacity).run acts = w at h hgentle ⊢
  exact {
    room := h.room
    inHand := h.inHand
    flight := by
      have hmanned := h.manned
      have hcrew := h.crew
      omega
    tickets := h.accepted_nodup
    order := h.order ▸ List.prefix_append _ _
    once := h.taken_nodup
    refused := fun _ _ _ => accepted_of_refused
    own := by
      intro id r htold
      have hended := h.toldResult id r htold
      exact ⟨hended, h.accepted_of_taken (h.taken_of_ended hended)⟩
    given := by
      intro id r hended givenUp
      simp [Pool.answer?, h.delivery?_ended hended, Delivery.answer]
    abandoned := by
      intro id htold
      rcases h.toldError id _ htold with hcancelled | ⟨-, hid⟩
      · cases hcancelled
      · exact ⟨h.queued_at_stop hid, h.never_taken hid⟩
    drained := fun hacts hgone j hj => h.ended_of_accepted (hgentle hacts) hgone hj }

/-- A job is accepted before the pool is shut, and done by the worker before it leaves. -/
example :
    let w := (opened 1 1).run [.submit false (.credit 1 100), .shutdown false, .proceed 0, .look, .receive,
      .deliver 0 (.error ⟨none, .invalidAmount⟩) (.ofSeconds 0), .look, .receive]
    w.pool.alive = 0 ∧ w.ended.map origin = w.accepted :=
  ⟨rfl, rfl⟩

/-! ## What an error that says to try again is worth -/

/-- What a client may conclude from an error that says to try again. -/
structure Retrying (w : Workshop) : Prop where
  /-- Only what was accepted is taken. -/
  order : w.taken <+: w.accepted
  /-- A submission that is refused adds nothing to that, and leaves no trace but in the tally. -/
  refused : ∀ cancelled job e, (w.pool.submit cancelled job).1 = .error e →
    (w.submit cancelled job).accepted = w.accepted ∧
      ∃ tally, (w.submit cancelled job).pool = { w.pool with tally := tally }
  /-- At a ticket it is always that the wait was given up. -/
  givenUp : ∀ id e, (id, .error e) ∈ w.told → e.isRetriable = true → e = .cancelled
  /-- Any other error at a ticket means that the job is never taken. -/
  final : ∀ id e, (id, .error e) ∈ w.told → e.isRetriable = false → ∀ more, id ∉ (w.run more).taken.map (·.1)
  /-- A job that was dropped is never taken. -/
  dropped : ∀ id, w.pool.delivery? id = some .dropped → ∀ more, id ∉ (w.run more).taken.map (·.1)
  /-- Once the workers have left, a job with a ticket that was not dropped was done. -/
  done : w.pool.alive = 0 → ∀ id answer, (id, answer) ∈ w.told → w.pool.delivery? id ≠ some .dropped →
    ∃ r, (id, r) ∈ w.ended

/-- After any steps of clients and workers, a client that is told to try again knows that its job was never taken where
a submission was refused; where it gave up a wait, that holds of the jobs that are dropped, and of no others. -/
theorem retrying_run (workers capacity : Nat) (acts : List Act) : Retrying ((opened workers capacity).run acts) := by
  have h := (Sound.start workers capacity).run acts
  generalize (opened workers capacity).run acts = w at h ⊢
  exact {
    order := h.order ▸ List.prefix_append _ _
    refused := fun _ _ _ => accepted_of_refused
    givenUp := by
      intro id e htold hretry
      rcases h.toldError id e htold with rfl | ⟨rfl, -⟩
      · rfl
      · cases hretry
    final := by
      intro id e htold hfinal more
      rcases h.toldError id e htold with rfl | ⟨rfl, hid⟩
      · cases hfinal
      · exact h.never_taken hid more
    dropped := by
      intro id hd more
      rcases h.of_delivery? hd with ⟨r, hr, -⟩ | ⟨-, hid⟩
      · cases hr
      · exact h.never_taken hid more
    done := by
      intro hgone id answer htold hd
      have hlost : id ∉ w.lost.map (·.1) := fun hid => hd (h.delivery?_lost hid)
      have hid : id ∈ w.accepted.map (·.1) := h.numbered ▸ List.mem_range.2 (h.toldOf _ htold)
      rw [h.order, h.deserted hgone, List.append_nil, List.map_append, List.mem_append] at hid
      obtain ⟨j, hj, rfl⟩ := List.mem_map.1 (hid.resolve_right hlost)
      obtain ⟨r, -, hr⟩ := h.ended_of_taken hgone hj
      exact ⟨r, hr⟩ }

/-- A client that gave up the wait for a queued job is told to try again, and a worker takes the job after that. -/
theorem taken_after_retriable : ¬∀ (workers capacity : Nat) (acts : List Act) (id : JobId) (e : Error),
    (id, .error e) ∈ ((opened workers capacity).run acts).told → e.isRetriable = true →
      ∀ more, id ∉ (((opened workers capacity).run acts).run more).taken.map (·.1) := by
  intro hnever
  have htold : ((0 : JobId), (.error .cancelled : Except Error JobResult)) ∈
      ((opened 1 1).run [.submit false (.credit 1 100), .await 0 true]).told := List.mem_singleton.2 rfl
  exact hnever 1 1 _ 0 .cancelled htold rfl [.look, .receive] (List.mem_singleton.2 rfl)

end Workshop

end CentLedger
