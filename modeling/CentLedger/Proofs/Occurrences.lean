import CentLedger.Proofs.OfficeLaws

/-!
# Each occurrence is executed once or refused

A standing order that occurs is counted by its trigger whatever becomes of it. If the bridge was subscribed when the
publish looked for its handlers and the publisher was told that all went well, then one job was queued for it; once the
service is shut down, that job was done, once. If the publisher was told of an error, there is no job. The statement of
that, `Office.occurrences_executed_once`, is about all interleavings of occurrences, clients, workers and the shutdown.
-/

namespace CentLedger

namespace Office

variable {workers capacity : Nat} {o : Office} {i : Nat} {p : Publication}

/-- What holds in every state of an office. -/
structure Sound (workers capacity : Nat) (o : Office) : Prop where
  staffed : Staffed workers capacity o.workshop o.traffic
  unharmed : o.traffic.Unharmed
  counted : Counted o.registry (o.publications.map (·.source))
  booked : Booked o.workshop o.bridged o.publications o.clients

/-- A publish goes on from the same source. -/
theorem sources_set {publications : List Publication} (hp : publications[i]? = some p) (c : Course) :
    (publications.set i { p with course := c }).map (·.source) = publications.map (·.source) := by
  obtain ⟨hlt, hget⟩ := List.getElem?_eq_some_iff.1 hp
  rw [List.map_set]
  refine (congrArg _ ?_).trans (List.set_getElem_self (by simpa using hlt))
  simp [hget]

/-! ## Every step keeps it -/

namespace Sound

/-- An office that was just opened is sound. -/
theorem opened (workers capacity : Nat) (m : Memory) (trail : Trail) (now : Instant) :
    (Office.opened workers capacity m trail now).Sound workers capacity where
  staffed := ⟨.start workers capacity, .start workers capacity, .start workers capacity, Nat.zero_le _, rfl,
    List.forall_mem_nil _⟩
  unharmed := .start m trail now
  counted := .start
  booked := .start workers capacity

/-- A trigger fires, and its event is the job of its standing order. -/
theorem fire (h : o.Sound workers capacity) (trigger : TriggerId) (now : Instant) :
    (o.fire trigger now).Sound workers capacity := by
  rcases Registry.fire_cases h.counted.sound trigger now with ⟨t, ht, rfl, -, hfire⟩ | ⟨-, hfire⟩
  · have hsource : ((o.registry.trigger? t.id).map fun u => (t.id, u.order)) = some (t.id, t.order) := by
      rw [Registry.trigger?_eq_some h.counted.sound ht]
      rfl
    have htells := Registry.tells_fire t now
    simp only [Office.fire, hfire, hsource]
    have hcounted := h.counted.fire ht now
    refine ⟨h.staffed, h.unharmed, by simpa using hcounted, h.booked.begin rfl fun x hx => ?_⟩
    cases hx
    obtain ⟨job, hjob⟩ := StandingOrder.toJob_of_validate (hcounted.valid (t.id, t.order) (by simp))
    exact ⟨htells.type, job, hjob, by simp [Event.requestedJob, htells.data, hjob], trivial⟩
  · simp only [Office.fire, hfire]
    exact h

/-- A publish that comes further keeps the office sound. -/
theorem goOn (h : o.Sound workers capacity) (i : Nat) : (o.goOn i).Sound workers capacity := by
  unfold Office.goOn
  split
  · exact h
  rename_i p hp
  split
  · rename_i hcourse
    refine ⟨h.staffed, h.unharmed, by rw [sources_set hp]; exact h.counted,
      h.booked.goOn hp (by simp [Publication.job?, hcourse]) (by simp) fun x job _ htype _ _ => ?_⟩
    simp [Course.Fits, htype]
  · rename_i hcourse
    refine ⟨h.staffed, h.unharmed, by rw [sources_set hp]; exact h.counted,
      h.booked.goOn hp (by simp [Publication.job?, hcourse]) (by simp) fun x job _ _ _ hfits => ?_⟩
    rw [hcourse] at hfits
    exact hfits rfl
  · rename_i hcourse
    refine ⟨?_, h.unharmed, by rw [sources_set hp]; exact h.counted,
      h.booked.relay hp (by simp [Publication.job?, hcourse])⟩
    rcases o.workshop.relay_cases p.event with ⟨job, hrelay⟩ | ⟨e, hrelay⟩
    · rw [hrelay]
      exact h.staffed.submit false job
    · rw [hrelay]
      exact h.staffed
  · exact h

/-- The shutdown of the service keeps the office sound. -/
theorem shutDown (h : o.Sound workers capacity) : o.shutDown.Sound workers capacity := by
  unfold Office.shutDown
  split
  · exact ⟨h.staffed, h.unharmed, h.counted, h.booked.unbridged⟩
  split
  · rename_i hnone
    exact ⟨h.staffed.shutdown hnone, h.unharmed, h.counted, h.booked.step (.shutdown false) (by simp)⟩
  · exact ⟨h.staffed.proceed 0, h.unharmed, h.counted, h.booked.step (.proceed 0) (by simp)⟩

/-- Every step of publishers, workers and the shutdown keeps the office sound. -/
theorem step (h : o.Sound workers capacity) (act : Act) : (o.step act).Sound workers capacity := by
  cases act with
  | submit cancelled job => exact ⟨h.staffed.submit cancelled job, h.unharmed, h.counted, h.booked.submit cancelled job⟩
  | await id givenUp =>
    exact ⟨h.staffed.await id givenUp, h.unharmed, h.counted, h.booked.step (.await id givenUp) (by simp)⟩
  | look => exact ⟨h.staffed.look, h.unharmed, h.counted, h.booked.step .look (by simp)⟩
  | receive => exact ⟨h.staffed.receive, h.unharmed.join _, h.counted, h.booked.step .receive (by simp)⟩
  | move mv => exact ⟨h.staffed.move mv, h.unharmed.step mv, h.counted, h.booked⟩
  | deliver call now =>
    show (o.deliver call now).Sound workers capacity
    unfold Office.deliver
    split
    · rename_i j outcome hcall hresult
      exact ⟨h.staffed.deliver hcall hresult now, h.unharmed, h.counted,
        h.booked.step (.deliver j.1 outcome now) (by simp)⟩
    · exact h
  | register order now => exact ⟨h.staffed, h.unharmed, h.counted.register order now, h.booked⟩
  | unregister id => exact ⟨h.staffed, h.unharmed, h.counted.unregister id, h.booked⟩
  | updateSchedule id schedule now => exact ⟨h.staffed, h.unharmed, h.counted.updateSchedule id schedule now, h.booked⟩
  | fire trigger now => exact h.fire trigger now
  | publish event =>
    exact ⟨h.staffed, h.unharmed, by simpa [Office.step] using h.counted.publish, h.booked.begin rfl nofun⟩
  | goOn i => exact h.goOn i
  | shutDown => exact h.shutDown

/-- An office is sound whatever is done in it. -/
theorem run (h : o.Sound workers capacity) (acts : List Act) : (o.run acts).Sound workers capacity := by
  induction acts generalizing o with
  | nil => exact h
  | cons act acts ih => exact ih (h.step act)

end Sound

/-! ## After the shutdown -/

/-- The call that shuts the service down has returned. -/
def ShutDown (o : Office) : Prop :=
  o.workshop.closings[0]? = some .returned

instance (o : Office) : Decidable o.ShutDown :=
  inferInstanceAs (Decidable (_ = _))

/-- After the shutdown, nothing that is done reaches the pool or the ledger. -/
theorem still_step (h : o.Sound workers capacity) (hdown : o.ShutDown) (act : Act) :
    (o.step act).ShutDown ∧ (o.step act).workshop.pool = o.workshop.pool ∧ (o.step act).traffic = o.traffic := by
  have hgone := h.staffed.gone_of_returned hdown
  have hsound := h.staffed.sound
  -- a step that leaves the workshop as it is, and the traffic
  have hsame : ∀ {w : Workshop}, w = o.workshop → w.closings[0]? = some .returned ∧ w.pool = o.workshop.pool := by
    rintro _ rfl
    exact ⟨hdown, rfl⟩
  cases act with
  | submit cancelled job => exact ⟨hdown, Workshop.pool_submit_gone hgone cancelled job, rfl⟩
  | await id givenUp =>
    have hclosings := (Workshop.Ordinary.await o.workshop id givenUp).closings
    exact ⟨(congrArg (·[0]?) hclosings).trans hdown, o.workshop.pool_await id givenUp, rfl⟩
  | look =>
    obtain ⟨hdown', hpool⟩ := hsame (Workshop.look_gone hgone)
    exact ⟨hdown', hpool, rfl⟩
  | receive =>
    obtain ⟨hdown', hpool⟩ := hsame (hsound.receive_gone hgone)
    refine ⟨hdown', hpool, ?_⟩
    simp [Office.step, Office.receive, hsound.receive_gone hgone, Traffic.join]
  | move mv =>
    -- the call is that of a job that is done, or there is none
    refine ⟨hdown, rfl, Traffic.step_idle ?_⟩
    cases hcall : o.workshop.taken[mv.call]? with
    | none =>
      rw [List.getElem?_eq_none_iff, ← h.staffed.calls] at hcall
      exact Or.inl (List.getElem?_eq_none_iff.2 hcall)
    | some j =>
      obtain ⟨outcome, now, hresult, -⟩ := h.staffed.result_of_taken hgone hcall
      exact Or.inr (by rw [hresult]; rfl)
  | deliver call now =>
    simp only [Office.step, Office.deliver, hsound.deliver_gone hgone]
    split
    · exact ⟨hdown, rfl, rfl⟩
    · exact ⟨hdown, rfl, rfl⟩
  | register | unregister | updateSchedule | publish => exact ⟨hdown, rfl, rfl⟩
  | fire trigger now =>
    simp only [Office.step, Office.fire]
    split
    · exact ⟨hdown, rfl, rfl⟩
    · exact ⟨hdown, rfl, rfl⟩
  | goOn i =>
    simp only [Office.step, Office.goOn]
    split
    · exact ⟨hdown, rfl, rfl⟩
    split
    · exact ⟨hdown, rfl, rfl⟩
    · exact ⟨hdown, rfl, rfl⟩
    · rename_i p _ _ _
      obtain ⟨hpool, hclosings⟩ := Workshop.relay_gone hgone p.event
      exact ⟨(congrArg (·[0]?) hclosings).trans hdown, hpool, rfl⟩
    · exact ⟨hdown, rfl, rfl⟩
  | shutDown =>
    have hsome : o.workshop.closings ≠ [] := by
      intro hnone
      simp [ShutDown, hnone] at hdown
    simp only [Office.step, Office.shutDown, Workshop.step, hsome, if_false, Workshop.proceed_returned hdown]
    split
    · exact ⟨hdown, rfl, rfl⟩
    · exact ⟨hdown, rfl, rfl⟩

/-- After the shutdown neither the pool nor the ledger changes any more. -/
theorem still_run (h : o.Sound workers capacity) (hdown : o.ShutDown) (acts : List Act) :
    (o.run acts).workshop.pool = o.workshop.pool ∧ (o.run acts).traffic = o.traffic := by
  induction acts generalizing o with
  | nil => exact ⟨rfl, rfl⟩
  | cons act acts ih =>
    obtain ⟨hdown', hpool, htraffic⟩ := still_step h hdown act
    obtain ⟨hpool', htraffic'⟩ := ih (h.step act) hdown'
    exact ⟨hpool'.trans hpool, htraffic'.trans htraffic⟩

/-! ## Jobs and occurrences counted -/

/-- The occurrences of certain triggers and standing orders. -/
def fired (o : Office) (which : TriggerId × StandingOrder → Bool) : Nat :=
  o.publications.countP fun p => p.isOf which

/-- Those of them whose publish found the bridge subscribed, and whose publisher was told that all went well. -/
def effective (o : Office) (which : TriggerId × StandingOrder → Bool) : Nat :=
  o.publications.countP fun p => p.effective && p.isOf which

/-- The jobs that were queued for them. -/
def jobsOf (o : Office) (which : TriggerId × StandingOrder → Bool) : List JobId :=
  (o.publications.filter fun p => p.isOf which).filterMap Publication.job?

/-- How many times a worker was done with one of these jobs. -/
def executed (o : Office) (which : TriggerId × StandingOrder → Bool) : Nat :=
  o.workshop.ended.countP fun e => e.1 ∈ o.jobsOf which

/-- There is one job for each occurrence that came to one. -/
theorem length_jobsOf (o : Office) (which : TriggerId × StandingOrder → Bool) :
    (o.jobsOf which).length = o.effective which := by
  simp only [jobsOf, List.length_filterMap_eq_countP, List.countP_filter, effective, Publication.effective_eq]

variable {which : TriggerId × StandingOrder → Bool}

/-- The executions of certain jobs are the results with their identifiers. -/
theorem executed_eq (o : Office) (which : TriggerId × StandingOrder → Bool) :
    o.executed which = ((o.workshop.ended.map (·.1)).filter fun id => id ∈ o.jobsOf which).length := by
  rw [executed, List.countP_eq_length_filter, List.filter_map, List.length_map]
  rfl

namespace Sound

/-- No job was queued for two publishes, and each was accepted. -/
theorem jobsOf_sound (h : o.Sound workers capacity) :
    (o.jobsOf which).Nodup ∧ ∀ id ∈ o.jobsOf which, id ∈ o.workshop.accepted.map (·.1) := by
  have hsublist : (o.jobsOf which).Sublist (o.publications.filterMap Publication.job? ++ o.clients) :=
    (List.filter_sublist.filterMap _).trans (List.sublist_append_left _ _)
  have hnodup := (h.booked.owned.nodup_iff).2 h.staffed.sound.accepted_nodup
  exact ⟨hnodup.sublist hsublist, fun id hid => h.booked.owned.subset (hsublist.subset hid)⟩

/-- There are no more executions than occurrences that came to a job. -/
theorem executed_le (h : o.Sound workers capacity) (which : TriggerId × StandingOrder → Bool) :
    o.executed which ≤ o.effective which := by
  rw [executed_eq, ← length_jobsOf]
  exact (h.staffed.sound.ended_nodup.filter _).subperm (fun id hid => by simpa using (List.mem_filter.1 hid).2)
    |>.length_le

/-- Once the service is shut down, each job that was queued was done, once. -/
theorem executed_of_shutDown (h : o.Sound workers capacity) (hdown : o.ShutDown)
    (which : TriggerId × StandingOrder → Bool) : o.executed which = o.effective which := by
  refine Nat.le_antisymm (h.executed_le which) ?_
  rw [executed_eq, ← length_jobsOf]
  refine (h.jobsOf_sound.1.subperm fun id hid => ?_).length_le
  obtain ⟨j, hj, rfl⟩ := List.mem_map.1 (h.jobsOf_sound.2 id hid)
  obtain ⟨r, -, hr⟩ :=
    h.staffed.sound.ended_of_accepted h.staffed.gentle (h.staffed.gone_of_returned hdown) hj
  exact List.mem_filter.2 ⟨List.mem_map.2 ⟨_, hr, rfl⟩, by simpa using hid⟩

end Sound

/-! ## What publishers and clients can rely on -/

/-- What the publish of an occurrence of a standing order came to: it found no handler, or its job was queued, or the
job was refused and there is none. -/
def Told (o : Office) (order : StandingOrder) (p : Publication) : Except Error Unit → Prop
  | .ok () =>
    p.heard = false ∧ o.bridged = false ∧ p.job? = none ∨
      p.heard = true ∧ ∃ id job, p.job? = some id ∧ order.toJob = .ok job ∧ (id, job) ∈ o.workshop.accepted
  | .error e => (e = Bus.wrap .queueFull ∨ e = Bus.wrap .poolClosed) ∧ p.job? = none

/-- How things stand once the service is shut down. -/
structure Settled (o : Office) : Prop where
  /-- No worker is left. -/
  gone : o.workshop.pool.alive = 0
  /-- Each job that was accepted was carried through on the ledger by the call of the worker that took it. -/
  done : ∀ j ∈ o.workshop.accepted, ∃ (call : CallId) (outcome : Transfer.Outcome) (now : Instant),
    o.workshop.taken[call]? = some j ∧ o.traffic.result? call = some outcome ∧
      (j.1, ⟨j.2, outcome, now⟩) ∈ o.workshop.ended
  /-- As many jobs were done as there are occurrences that were to have one. -/
  executed : ∀ which, o.executed which = o.effective which
  /-- Whatever is done after that, the ledger stays as it is, and so does the pool with all that it counts. -/
  still : ∀ acts, (o.run acts).traffic.ledger = o.traffic.ledger ∧ (o.run acts).workshop.pool = o.workshop.pool

/-- Standing orders are executed as they occur. -/
structure Dependable (o : Office) : Prop where
  /-- Each trigger has counted its occurrences, also those whose publish was told of an error. -/
  counted : ∀ t ∈ o.registry.triggers, t.fireCount = o.fired fun x => x.1 = t.id
  told : ∀ p ∈ o.publications, ∀ x, p.source = some x → ∀ result, p.result? = some result → o.Told x.2 p result
  /-- As long as the bridge is subscribed, whoever was told that all went well published to it. -/
  timely : o.bridged = true → ∀ p ∈ o.publications, ∀ x, p.source = some x → p.result? = some (.ok ()) →
    p.effective = true
  /-- Each job that was accepted belongs to one publish, or to a client. -/
  owned : (o.publications.filterMap Publication.job? ++ o.clients).Perm (o.workshop.accepted.map (·.1))
  /-- No worker is lost to its job, whatever the store refuses. -/
  whole : ∀ call : CallId, o.traffic.stages[call]? ≠ some .crashed
  /-- No job is done twice. -/
  once : (o.workshop.ended.map (·.1)).Nodup
  executed : ∀ which, o.executed which ≤ o.effective which
  settled : o.ShutDown → o.Settled

/-- What a publisher was told of an occurrence is what it came to. -/
theorem Sound.told (h : o.Sound workers capacity) (hp : p ∈ o.publications) {x : TriggerId × StandingOrder}
    (hx : p.source = some x) {result : Except Error Unit} (hresult : p.result? = some result) :
    o.Told x.2 p result := by
  obtain ⟨-, job, horder, -, hfits⟩ := h.booked.fires p hp x hx
  obtain ⟨source, event, course⟩ := p
  rcases course with _ | heard | _ | e | id
  · cases hresult
  · cases hresult
  · cases hresult
    exact Or.inl ⟨rfl, hfits, rfl⟩
  · cases hresult
    exact ⟨hfits.imp (congrArg Bus.wrap) (congrArg Bus.wrap), rfl⟩
  · cases hresult
    exact Or.inr ⟨rfl, id, job, rfl, horder, hfits⟩

/-- Once the service is shut down, all is settled. -/
theorem Sound.settled (h : o.Sound workers capacity) (hdown : o.ShutDown) : o.Settled where
  gone := h.staffed.gone_of_returned hdown
  done := fun j hj => by
    have hgone := h.staffed.gone_of_returned hdown
    rw [h.staffed.sound.accepted_eq_taken h.staffed.gentle hgone] at hj
    obtain ⟨call, hcall⟩ := List.mem_iff_getElem?.1 hj
    obtain ⟨outcome, now, hresult, hended⟩ := h.staffed.result_of_taken hgone hcall
    exact ⟨call, outcome, now, hcall, hresult, hended⟩
  executed := h.executed_of_shutDown hdown
  still := fun acts => ⟨congrArg Traffic.ledger (still_run h hdown acts).2, (still_run h hdown acts).1⟩

/-- Whatever occurs, whatever clients and workers do, and however all this and the shutdown interleave: each occurrence
that was accepted is executed once, and each that was refused never. -/
theorem occurrences_executed_once (workers capacity : Nat) (m : Memory) (trail : Trail) (now : Instant)
    (acts : List Act) : ((opened workers capacity m trail now).run acts).Dependable := by
  have h := (Sound.opened workers capacity m trail now).run acts
  generalize (opened workers capacity m trail now).run acts = o at h
  exact {
    counted := fun t ht => by
      rw [h.counted.counted t ht, List.countP_map]
      rfl
    told := fun p hp x hx result hresult => h.told hp hx hresult
    timely := fun hbridged p hp x hx hresult => by
      rcases h.told hp hx hresult with ⟨-, hoff, -⟩ | ⟨hheard, -⟩
      · rw [hbridged] at hoff
        cases hoff
      · simp only [Publication.effective, hresult, hheard]
    owned := h.booked.owned
    whole := h.unharmed.whole
    once := h.staffed.sound.ended_nodup
    executed := h.executed_le
    settled := h.settled }

/-- A standing order occurs twice. The first job fills the queue, and the second is refused; the service is shut down
while a worker is at the first. -/
example :
    let now : Instant := .ofSeconds 0
    let begin : List Act := [.register (.credit "rent" 1 500 "0 0 9 1 * *") now, .fire 0 now, .goOn 0, .goOn 0,
      .fire 0 now, .goOn 1, .goOn 1, .look, .receive, .shutDown, .shutDown, .shutDown]
    let work : List Act := List.replicate 20 (.move ⟨0, ⟨now, none, false⟩⟩)
    let finish : List Act := [.deliver 0 now, .look, .receive, .shutDown]
    let o := (opened 1 1 .empty .empty now).run (begin ++ work ++ finish)
    o.ShutDown ∧ o.fired (fun _ => true) = 2 ∧ o.executed (fun _ => true) = 1 := by
  decide +kernel

end Office

end CentLedger
