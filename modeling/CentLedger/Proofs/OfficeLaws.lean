import CentLedger.Proofs.Office
import CentLedger.Proofs.Shutdown
import CentLedger.Proofs.Tickets

/-!
# What holds in an office

Three invariants, each about a part of the state, and each kept by every step. `Staffed` is about the pool and the calls
of its workers: every job that was taken is one call, and what came out of a job is what its call ended with. `Counted`
is about the registry and the occurrences whose events were published: each trigger has counted its own. `Booked` is
about the publishes and the jobs: which publish has which job, and how a publish can fail.
-/

namespace CentLedger

namespace Workshop

variable {w : Workshop} {id : JobId} {job : Job} {event : Event}

/-- A job that is submitted is accepted last, if it is accepted. -/
theorem accepted_submit (w : Workshop) (cancelled : Bool) (job : Job) :
    (w.submit cancelled job).accepted =
      w.accepted ++ ((w.pool.submit cancelled job).1.toOption.map fun id => (id, job)).toList := by
  simp only [accepted, submit, List.filterMap_append]
  cases (w.pool.submit cancelled job).1 <;> rfl

/-- Nothing but a submission makes a job accepted. -/
theorem accepted_step (w : Workshop) (act : Act) (h : ∀ cancelled job, act ≠ .submit cancelled job) :
    (w.step act).accepted = w.accepted := by
  rw [accepted, accepted, submitted_step w act h]

/-- What is taken from the queue is taken after all that was taken before. -/
theorem taken_receive (w : Workshop) : w.taken <+: w.receive.taken := by
  unfold receive
  split
  · split
    · exact List.prefix_append _ _
    · split
      · exact List.prefix_refl _
      · exact List.prefix_refl _
  · exact List.prefix_refl _

/-- A job that is done comes last, with the outcome. -/
theorem deliver_cases (w : Workshop) (id : JobId) (outcome : Transfer.Outcome) (now : Instant) :
    w.deliver id outcome now = w ∨ ∃ job, (id, job) ∈ w.pool.running ∧
      (w.deliver id outcome now).ended = w.ended ++ [(id, ⟨job, outcome, now⟩)] := by
  unfold deliver
  split
  · exact Or.inl rfl
  · rename_i job hruns
    exact Or.inr ⟨job, Pool.mem_of_runs? hruns, rfl⟩

/-- The bridge submits the job of an event, if the event has one. -/
theorem relay_of_job (h : event.requestedJob = .ok job) :
    w.relay event = ((w.pool.submit false job).1, w.submit false job) := by
  rw [relay, h]

/-- What the bridge does is that it submits a job, or nothing. -/
theorem relay_cases (w : Workshop) (event : Event) :
    (∃ job, w.relay event = ((w.pool.submit false job).1, w.submit false job)) ∨
      ∃ e, w.relay event = (.error e, w) := by
  cases h : event.requestedJob with
  | ok job => exact Or.inl ⟨job, relay_of_job h⟩
  | error e => exact Or.inr ⟨e, by rw [relay, h]⟩

/-- The relay of an event makes its job accepted, or nothing. -/
theorem accepted_relay (w : Workshop) (event : Event) :
    ∃ job, (w.relay event).2.accepted =
      w.accepted ++ ((w.relay event).1.toOption.map fun id => (id, job)).toList := by
  rcases w.relay_cases event with ⟨job, hrelay⟩ | ⟨e, hrelay⟩
  · rw [hrelay]
    exact ⟨job, w.accepted_submit false job⟩
  · rw [hrelay]
    exact ⟨.credit 0 0, (List.append_nil _).symm⟩

/-! ## Without a worker -/

section gone

variable {workers capacity : Nat}

/-- Where no worker is left, a submission leaves the pool alone. -/
theorem pool_submit_gone (hgone : w.pool.alive = 0) (cancelled : Bool) (job : Job) :
    (w.submit cancelled job).pool = w.pool := by
  obtain ⟨e, he⟩ := Pool.submit_gone hgone cancelled job
  simp [submit, he]

/-- Nor does the bridge reach the pool. -/
theorem relay_gone (hgone : w.pool.alive = 0) (event : Event) :
    (w.relay event).2.pool = w.pool ∧ (w.relay event).2.closings = w.closings := by
  rcases w.relay_cases event with ⟨job, hrelay⟩ | ⟨e, hrelay⟩
  · rw [hrelay]
    exact ⟨pool_submit_gone hgone false job, rfl⟩
  · rw [hrelay]
    exact ⟨rfl, rfl⟩

/-- Where no worker is left, nobody looks at the signals. -/
theorem look_gone (hgone : w.pool.alive = 0) : w.look = w := by
  simp [look, Pool.idle, hgone]

/-- Where no worker is left, no job is taken. -/
theorem Sound.receive_gone (h : w.Sound workers capacity) (hgone : w.pool.alive = 0) : w.receive = w := by
  simp [Workshop.receive, (h.idle_of_gone hgone).2]

/-- Where no worker is left, no result is delivered. -/
theorem Sound.deliver_gone (h : w.Sound workers capacity) (hgone : w.pool.alive = 0) (id : JobId)
    (outcome : Transfer.Outcome) (now : Instant) : w.deliver id outcome now = w := by
  simp [Workshop.deliver, Pool.runs?, (h.idle_of_gone hgone).1]

end gone

/-- A look at a ticket is none at the pool. -/
theorem pool_await (w : Workshop) (id : JobId) (givenUp : Bool) : (w.await id givenUp).pool = w.pool := by
  unfold await
  repeat' split
  all_goals rfl

/-- A call that has returned does nothing more. -/
theorem proceed_returned {call : Nat} (h : w.closings[call]? = some .returned) : w.proceed call = w := by
  simp only [proceed, h]

end Workshop

/-! ## The workers -/

/-- The pool was closed by one call at most, and gently. Every job that was taken is a call, and what came out of a job
is what its call ended with. -/
structure Staffed (workers capacity : Nat) (w : Workshop) (s : Traffic Transfer.Outcome) : Prop where
  sound : w.Sound workers capacity
  gentle : w.Gentle
  attended : w.Attended
  single : w.closings.length ≤ 1
  calls : s.stages.length = w.taken.length
  results : ∀ e ∈ w.ended, ∃ call : CallId,
    w.taken[call]? = some (Workshop.origin e) ∧ s.result? call = some e.2.outcome

namespace Staffed

variable {workers capacity : Nat} {w : Workshop} {s : Traffic Transfer.Outcome}

/-- Someone does something, but takes no job and is done with none, and does not make the workers leave their queue. -/
theorem step (h : Staffed workers capacity w s) (act : Workshop.Act) (hgentle : act ≠ .shutdown true)
    (htaken : act ≠ .receive) (hended : ∀ id outcome now, act ≠ .deliver id outcome now)
    (hsingle : (w.step act).closings.length ≤ 1) : Staffed workers capacity (w.step act) s where
  sound := h.sound.step act
  gentle := h.gentle.step hgentle
  attended := h.attended.step act
  single := hsingle
  calls := by rw [w.taken_step act htaken]; exact h.calls
  results := by rw [w.taken_step act htaken, w.ended_step act hended]; exact h.results

/-- A client that submits a job leaves the workers to their calls. -/
theorem submit (h : Staffed workers capacity w s) (cancelled : Bool) (job : Job) :
    Staffed workers capacity (w.submit cancelled job) s :=
  h.step (.submit cancelled job) (by simp) (by simp) (by simp) h.single

/-- A look at a ticket leaves the workers to their calls. -/
theorem await (h : Staffed workers capacity w s) (id : JobId) (givenUp : Bool) :
    Staffed workers capacity (w.step (.await id givenUp)) s :=
  h.step (.await id givenUp) (by simp) (by simp) (by simp)
    ((Workshop.Ordinary.await w id givenUp).closings ▸ h.single)

/-- A worker that looks at the signals leaves the others to their calls. -/
theorem look (h : Staffed workers capacity w s) : Staffed workers capacity (w.step .look) s :=
  h.step .look (by simp) (by simp) (by simp) ((Workshop.Ordinary.look w).closings ▸ h.single)

/-- The worker at the queue takes a job, and begins with it. -/
theorem receive (h : Staffed workers capacity w s) : Staffed workers capacity w.receive
    (s.join ((w.receive.taken.drop w.taken.length).map fun j => Transfer.execute j.2)) where
  sound := h.sound.receive
  gentle := show (w.step .receive).Gentle from h.gentle.step (by simp)
  attended := h.attended.step .receive
  single := (Workshop.Ordinary.receive w).closings ▸ h.single
  calls := by
    have hlength := w.taken_receive.length_le
    simp only [Traffic.join, List.length_append, List.length_map, List.length_drop, h.calls]
    omega
  results := fun e he => by
    obtain ⟨call, hcall, hresult⟩ := h.results e (w.ended_step .receive (by simp) ▸ he)
    have hlt := (List.getElem?_eq_some_iff.1 hcall).1
    refine ⟨call, ?_, Traffic.result?_join hresult _⟩
    rw [← hcall, List.prefix_iff_getElem?.1 w.taken_receive call hlt, List.getElem?_eq_getElem hlt]

/-- The worker whose call has ended is done with its job. -/
theorem deliver (h : Staffed workers capacity w s) {call : CallId} {j : JobId × Job} {outcome : Transfer.Outcome}
    (hcall : w.taken[call]? = some j) (hresult : s.result? call = some outcome) (now : Instant) :
    Staffed workers capacity (w.deliver j.1 outcome now) s := by
  rcases w.deliver_cases j.1 outcome now with hsame | ⟨job, hrunning, hended⟩
  · rw [hsame]
    exact h
  · -- the job in hand is the one that was taken under this number
    have htaken : (j.1, job) ∈ w.taken := h.sound.inHand.mem_iff.1 (List.mem_append_right _ hrunning)
    have hjob : (j.1, job) = j := List.inj_on_of_nodup_map h.sound.taken_nodup htaken (List.mem_of_getElem? hcall) rfl
    have hsame : (w.deliver j.1 outcome now).taken = w.taken := w.taken_step (.deliver j.1 outcome now) (by simp)
    have hgentle : (w.step (.deliver j.1 outcome now)).Gentle := h.gentle.step (by simp)
    refine ⟨h.sound.deliver j.1 outcome now, hgentle,
      h.attended.step (.deliver j.1 outcome now),
      (Workshop.Ordinary.deliver w j.1 outcome now).closings ▸ h.single, by rw [hsame]; exact h.calls, fun e he => ?_⟩
    rw [hended] at he
    rw [hsame]
    rcases List.mem_append.1 he with he | he
    · exact h.results e he
    · rw [List.mem_singleton.1 he]
      exact ⟨call, hcall.trans (congrArg some hjob.symm), hresult⟩

/-- A call does its next action. -/
theorem move (h : Staffed workers capacity w s) (mv : Move) : Staffed workers capacity w (s.step mv) :=
  { h with
    calls := (s.length_step mv).trans h.calls
    results := fun e he => by
      obtain ⟨call, hcall, hresult⟩ := h.results e he
      exact ⟨call, hcall, Traffic.result?_step hresult mv⟩ }

/-- The only call that closes the pool begins. -/
theorem shutdown (h : Staffed workers capacity w s) (hnone : w.closings = []) :
    Staffed workers capacity (w.step (.shutdown false)) s :=
  h.step (.shutdown false) (by simp) (by simp) (by simp) (by simp [Workshop.step, hnone])

/-- A call that closes the pool leaves the workers to their calls. -/
theorem proceed (h : Staffed workers capacity w s) (call : Nat) :
    Staffed workers capacity (w.step (.proceed call)) s :=
  h.step (.proceed call) (by simp) (by simp) (by simp) ((w.length_proceed call).trans_le h.single)

/-- When the only call that closes the pool has returned, no worker is left. -/
theorem gone_of_returned (h : Staffed workers capacity w s) (hreturned : w.closings[0]? = some .returned) :
    w.pool.alive = 0 := by
  refine (h.attended.waiting (h.attended.returned (List.mem_of_getElem? hreturned))).resolve_right fun hwait => ?_
  have hsingle : w.closings = [.returned] := by
    have hle := h.single
    cases hclosings : w.closings with
    | nil => simp [hclosings] at hreturned
    | cons closing rest =>
      rw [hclosings] at hle hreturned
      simp only [List.length_cons] at hle
      rw [List.length_eq_zero_iff.1 (by omega : rest.length = 0)]
      simpa using hreturned
  rw [hsingle] at hwait
  simp at hwait

/-- Without a worker, the call of each job that was taken has ended, and the job is done. -/
theorem result_of_taken (h : Staffed workers capacity w s) (hgone : w.pool.alive = 0) {call : CallId} {j : JobId × Job}
    (hcall : w.taken[call]? = some j) :
    ∃ outcome now, s.result? call = some outcome ∧ (j.1, ⟨j.2, outcome, now⟩) ∈ w.ended := by
  obtain ⟨r, hjob, hr⟩ := h.sound.ended_of_taken hgone (List.mem_of_getElem? hcall)
  obtain ⟨other, hother, hresult⟩ := h.results _ hr
  have horigin : Workshop.origin (j.1, r) = j := Prod.ext rfl hjob
  have hsame : other = call := by
    refine (List.getElem?_inj (List.getElem?_eq_some_iff.1 hother).1 h.sound.taken_nodup.of_map).1 ?_
    rw [hother, hcall, horigin]
  refine ⟨r.outcome, r.processedAt, hsame ▸ hresult, ?_⟩
  rw [← hjob]
  exact hr

end Staffed

/-! ## The triggers -/

/-- Each trigger has counted the occurrences whose events were published for it, and each of them was of a valid
standing order. -/
structure Counted (r : Registry) (sources : List (Option (TriggerId × StandingOrder))) : Prop where
  sound : r.Sound
  fresh : ∀ x : TriggerId × StandingOrder, some x ∈ sources → x.1 < r.nextTrigger
  valid : ∀ x : TriggerId × StandingOrder, some x ∈ sources → x.2.validate = .ok ()
  counted : ∀ t ∈ r.triggers, t.fireCount = sources.countP fun x => x.any fun y => y.1 = t.id

namespace Counted

variable {r : Registry} {sources : List (Option (TriggerId × StandingOrder))}

/-- An empty registry has counted nothing. -/
theorem start : Counted .empty [] :=
  ⟨Registry.sound_empty, by simp, by simp, by simp [Registry.empty]⟩

/-- Without an occurrence of it, a trigger has counted none. -/
theorem countP_eq_zero (h : Counted r sources) {number : TriggerId} (hnew : r.nextTrigger ≤ number) :
    (sources.countP fun x => x.any fun y => y.1 = number) = 0 := by
  refine List.countP_eq_zero.2 fun x hx => ?_
  cases x with
  | none => simp
  | some y =>
    have hlt := h.fresh y hx
    simp only [Option.any_some, decide_eq_true_eq]
    exact Nat.ne_of_lt (Nat.lt_of_lt_of_le hlt hnew)

/-- A new standing order has no occurrences so far. -/
theorem register (h : Counted r sources) (order : StandingOrder) (now : Instant) :
    Counted (r.register order now).2 sources := by
  rcases Registry.register_cases r order now with ⟨hvalid, hfree, cron, hregister⟩ | ⟨-, e, hregister⟩
  · rw [hregister]
    refine ⟨h.sound.added hvalid hfree cron now, fun x hx => Nat.lt_succ_of_lt (h.fresh x hx), h.valid, fun t ht => ?_⟩
    rcases List.mem_append.1 ht with ht | ht
    · exact h.counted t ht
    · rw [List.mem_singleton.1 ht]
      exact (h.countP_eq_zero (Nat.le_refl _)).symm
  · rw [hregister]
    exact h

/-- What was counted for other standing orders is counted still. -/
theorem unregister (h : Counted r sources) (id : String) : Counted (r.unregister id).2 sources := by
  rcases Registry.unregister_cases h.sound id with ⟨e, he, -, hunregister⟩ | ⟨-, hunregister⟩
  · rw [hunregister]
    exact ⟨h.sound.dropped he, h.fresh, h.valid, fun t ht => h.counted t (List.mem_filter.1 ht).1⟩
  · rw [hunregister]
    exact h

/-- A standing order whose schedule is changed is counted anew, under a trigger of its own. -/
theorem updateSchedule (h : Counted r sources) (id schedule : String) (now : Instant) :
    Counted (r.updateSchedule id schedule now).2 sources := by
  have hremoved := h.unregister id
  unfold Registry.updateSchedule
  cases Cron.validate schedule with
  | error e => exact h
  | ok _ =>
    cases hunregister : r.unregister id with
    | mk result r' =>
      rw [hunregister] at hremoved
      cases result with
      | error e => exact hremoved
      | ok order => exact hremoved.register _ now

/-- A trigger counts its occurrence. -/
theorem fire (h : Counted r sources) {t : Trigger} (ht : t ∈ r.triggers) (now : Instant) :
    Counted (r.fired t now) (sources ++ [some (t.id, t.order)]) := by
  refine ⟨h.sound.fired ht now, fun x hx => ?_, fun x hx => ?_, fun u hu => ?_⟩
  · rcases List.mem_append.1 hx with hx | hx
    · exact h.fresh x hx
    · cases List.mem_singleton.1 hx
      exact h.sound.fresh t ht
  · rcases List.mem_append.1 hx with hx | hx
    · exact h.valid x hx
    · cases List.mem_singleton.1 hx
      obtain ⟨entry, hentry, -, -, horder⟩ := h.sound.entry_of_trigger ht
      exact horder ▸ h.sound.valid entry hentry
  · obtain ⟨v, hv, rfl⟩ := List.mem_map.1 hu
    rw [List.countP_append]
    split
    · rename_i hid
      show t.fireCount + 1 = (sources.countP fun x => x.any fun y => y.1 = t.id) + _
      rw [← h.counted t ht]
      simp [Trigger.fire]
    · rename_i hid
      rw [← h.counted v hv]
      simp [Ne.symm hid]

/-- Someone else publishes an event. -/
theorem publish (h : Counted r sources) : Counted r (sources ++ [none]) where
  sound := h.sound
  fresh := fun x hx => h.fresh x (by simpa using hx)
  valid := fun x hx => h.valid x (by simpa using hx)
  counted := fun t ht => by simp [List.countP_append, ← h.counted t ht]

end Counted

/-! ## The publishes -/

/-- What can become of the publish of a standing order whose job is `job`. -/
def Course.Fits (accepted : List (JobId × Job)) (bridged : Bool) (job : Job) : Course → Prop
  | .begun => True
  | .found heard => heard = false → bridged = false
  | .returned none => bridged = false
  | .returned (some (.ok id)) => (id, job) ∈ accepted
  | .returned (some (.error e)) => e = .queueFull ∨ e = .poolClosed

/-- A course that fits still fits when more jobs were accepted, and when the bridge was unsubscribed. -/
theorem Course.Fits.mono {accepted accepted' : List (JobId × Job)} {bridged bridged' : Bool} {job : Job} {c : Course}
    (h : c.Fits accepted bridged job) (haccepted : accepted ⊆ accepted') (hbridged : bridged' = true → bridged = true) :
    c.Fits accepted' bridged' job := by
  have hoff : bridged = false → bridged' = false := by
    intro hbridged'
    rw [Bool.eq_false_iff] at hbridged' ⊢
    exact mt hbridged hbridged'
  rcases c with _ | heard | _ | e | id
  · trivial
  · exact fun hheard => hoff (h hheard)
  · exact hoff h
  · exact h
  · exact haccepted h

/-- The event of a standing order reaches the bridge, which makes it the job of the order; and the publish is at a point
that fits. -/
structure Publication.Sound (accepted : List (JobId × Job)) (bridged : Bool) (order : StandingOrder) (p : Publication) :
    Prop where
  type : p.event.type = Event.scheduledType
  job : ∃ job, order.toJob = .ok job ∧ p.event.requestedJob = .ok job ∧ p.course.Fits accepted bridged job

/-- Each job that was accepted belongs to a publish or to a client, and to one alone. -/
structure Booked (w : Workshop) (bridged : Bool) (publications : List Publication) (clients : List JobId) : Prop where
  fires : ∀ p ∈ publications, ∀ x, p.source = some x → p.Sound w.accepted bridged x.2
  owned : (publications.filterMap Publication.job? ++ clients).Perm (w.accepted.map (·.1))

namespace Booked

variable {w w' : Workshop} {bridged : Bool} {publications : List Publication} {clients : List JobId} {p : Publication}
  {i : Nat}

/-- At the start no job belongs to anybody. -/
theorem start (workers capacity : Nat) : Booked (.opened workers capacity) true [] [] :=
  ⟨List.forall_mem_nil _, .refl _⟩

/-- Nothing was submitted. -/
theorem same (h : Booked w bridged publications clients) (haccepted : w'.accepted = w.accepted) :
    Booked w' bridged publications clients := by
  refine ⟨?_, ?_⟩
  · rw [haccepted]
    exact h.fires
  · rw [haccepted]
    exact h.owned

/-- What workers and waiting clients do makes no job belong to anybody else. -/
theorem step (h : Booked w bridged publications clients) (act : Workshop.Act)
    (hact : ∀ cancelled job, act ≠ .submit cancelled job) : Booked (w.step act) bridged publications clients :=
  h.same (w.accepted_step act hact)

/-- A client submits a job. -/
theorem submit (h : Booked w bridged publications clients) (cancelled : Bool) (job : Job) :
    Booked (w.submit cancelled job) bridged publications
      (clients ++ (w.pool.submit cancelled job).1.toOption.toList) := by
  refine ⟨fun p hp x hx => ?_, ?_⟩
  · obtain ⟨htype, job', hjob, hrequested, hfits⟩ := h.fires p hp x hx
    refine ⟨htype, job', hjob, hrequested, hfits.mono ?_ id⟩
    rw [w.accepted_submit]
    exact List.subset_append_left _ _
  · rw [w.accepted_submit, List.map_append, ← List.append_assoc]
    refine h.owned.append (.of_eq ?_)
    cases (w.pool.submit cancelled job).1 <;> rfl

/-- The bridge is taken off. -/
theorem unbridged (h : Booked w bridged publications clients) : Booked w false publications clients := by
  refine ⟨fun p hp x hx => ?_, h.owned⟩
  obtain ⟨htype, job, hjob, hrequested, hfits⟩ := h.fires p hp x hx
  exact ⟨htype, job, hjob, hrequested, hfits.mono (List.Subset.refl _) nofun⟩

/-- A publish begins. -/
theorem begin (h : Booked w bridged publications clients) (hjob : p.job? = none)
    (hnew : ∀ x, p.source = some x → p.Sound w.accepted bridged x.2) :
    Booked w bridged (publications ++ [p]) clients := by
  refine ⟨fun q hq x hx => ?_, ?_⟩
  · rcases List.mem_append.1 hq with hq | hq
    · exact h.fires q hq x hx
    · cases List.mem_singleton.1 hq
      exact hnew x hx
  · simpa [hjob] using h.owned

/-- The jobs of publishes when one of them goes on. -/
theorem jobs_set (hp : publications[i]? = some p) (hjob : p.job? = none) (q : Publication) :
    ((publications.set i q).filterMap Publication.job?).Perm
      (q.job?.toList ++ publications.filterMap Publication.job?) := by
  obtain ⟨hlt, hget⟩ := List.getElem?_eq_some_iff.1 hp
  have hold := (List.getElem_cons_eraseIdx_perm hlt).filterMap Publication.job?
  have hnew := (List.set_perm_cons_eraseIdx hlt q).filterMap Publication.job?
  rw [hget, List.filterMap_cons_none hjob] at hold
  refine hnew.trans ?_
  cases hq : q.job? with
  | none => rw [List.filterMap_cons_none hq]; exact hold
  | some id => rw [List.filterMap_cons_some hq]; exact hold.cons id

/-- A publish goes on without a job. -/
theorem goOn (h : Booked w bridged publications clients) (hp : publications[i]? = some p) (hjob : p.job? = none)
    {c : Course} (hc : ∀ id, c ≠ .returned (some (.ok id)))
    (hfits : ∀ x job, p.source = some x → p.event.type = Event.scheduledType → p.event.requestedJob = .ok job →
      p.course.Fits w.accepted bridged job → c.Fits w.accepted bridged job) :
    Booked w bridged (publications.set i { p with course := c }) clients := by
  have hnone : Publication.job? { p with course := c } = none := by
    rcases c with _ | heard | _ | e | id
    · rfl
    · rfl
    · rfl
    · rfl
    · exact absurd rfl (hc id)
  refine ⟨fun q hq x hx => ?_, ?_⟩
  · rcases List.mem_or_eq_of_mem_set hq with hq | rfl
    · exact h.fires q hq x hx
    · obtain ⟨htype, job, horder, hrequested, hold⟩ := h.fires p (List.mem_of_getElem? hp) x hx
      exact ⟨htype, job, horder, hrequested, hfits x job hx htype hrequested hold⟩
  · refine .trans (.append_right _ ?_) h.owned
    simpa [hnone] using jobs_set hp hjob { p with course := c }

/-- How the bridge fares with the event of a standing order. -/
theorem fits_relay (w : Workshop) (bridged : Bool) {event : Event} {job : Job} (h : event.requestedJob = .ok job) :
    (Course.returned (some (w.relay event).1)).Fits (w.relay event).2.accepted bridged job := by
  rw [Workshop.relay_of_job h]
  cases hanswer : (w.pool.submit false job).1 with
  | ok id =>
    show (id, job) ∈ _
    simp [Workshop.accepted_submit, hanswer, Except.toOption]
  | error e =>
    rcases Pool.submit_error hanswer with rfl | rfl | ⟨-, hcancelled⟩
    · exact Or.inl rfl
    · exact Or.inr rfl
    · cases hcancelled

/-- The bridge submits the job of an event, and the publish returns. -/
theorem relay (h : Booked w bridged publications clients) (hp : publications[i]? = some p) (hjob : p.job? = none) :
    Booked (w.relay p.event).2 bridged
      (publications.set i { p with course := .returned (some (w.relay p.event).1) }) clients := by
  obtain ⟨job, haccepted⟩ := w.accepted_relay p.event
  refine ⟨fun q hq x hx => ?_, ?_⟩
  · rcases List.mem_or_eq_of_mem_set hq with hq | rfl
    · obtain ⟨htype, job', hjob, hrequested, hfits⟩ := h.fires q hq x hx
      refine ⟨htype, job', hjob, hrequested, hfits.mono ?_ id⟩
      rw [haccepted]
      exact List.subset_append_left _ _
    · obtain ⟨htype, job', horder, hrequested, -⟩ := h.fires p (List.mem_of_getElem? hp) x hx
      exact ⟨htype, job', horder, hrequested, fits_relay w bridged hrequested⟩
  · -- the job that was submitted comes first among those of publishes, and last among those accepted
    refine ((jobs_set hp hjob _).append_right clients).trans ?_
    rw [List.append_assoc, haccepted, List.map_append]
    refine List.perm_append_comm.trans (h.owned.append (.of_eq ?_))
    simp only [Publication.job?]
    cases (w.relay p.event).1 <;> rfl

end Booked

end CentLedger
