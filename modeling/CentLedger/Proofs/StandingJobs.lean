import CentLedger.Proofs.Registrations
import CentLedger.Proofs.Reports
import CentLedger.Proofs.Tracing
import CentLedger.Proofs.Traffic
import CentLedger.Service.State

/-!
# Standing orders become jobs that execute

The shape of a transaction is decided in four places: when a standing order is registered, when its job is made, when a
transfer is begun, and when a record is opened. They agree: the request of the job of a valid standing order is the shape
of the order, and it is valid (`StandingOrder.toJob_eq_ok`). Over a store that answers, a job with a valid request always
opens its record and ends with it completed or failed (`Transfer.keeps_recorded`), so no standing order that was accepted
is refused when it occurs (`StandingOrder.standing_orders_execute`).
-/

namespace CentLedger

namespace StandingOrder

/-- What a standing order asks for at each occurrence. -/
def request (o : StandingOrder) : Request :=
  ⟨o.kind, o.source, o.target, o.amount⟩

variable {o : StandingOrder}

/-- The shape of a valid standing order is that of a transaction. -/
theorem request_valid (h : o.validate = .ok ()) : o.request.validate = .ok () := by
  unfold validate at h
  split at h
  · cases h
  · split at h
    · cases h
    · exact h

/-- The job of a standing order of valid shape makes the request of the order. -/
theorem toJob_of_shape (h : o.request.validate = .ok ()) :
    ∃ job, o.toJob = .ok job ∧ job.kind = o.kind ∧ job.amount = o.amount ∧ job.request = o.request := by
  obtain ⟨id, kind, source, target, amount, schedule, metadata⟩ := o
  unfold Request.validate checkShape at h
  split at h
  · cases h
  · -- each kind names the accounts that its job needs, and no others
    cases kind <;> cases source <;> cases target <;> simp [request] at h <;>
      exact ⟨_, rfl, rfl, rfl, rfl⟩

end StandingOrder

/-! ## Jobs with a valid request -/

namespace Program

variable {α : Type} {faulty : Bool}

/-- A program does what it does. -/
theorem keeps_anything (p : Program α) (past : Deeds) :
    p.Keeps (fun _ _ => True) faulty (fun _ _ => True) past := by
  induction p generalizing past with
  | done a => trivial
  | act action next ih => exact ⟨trivial, fun reply _ => ih reply _⟩

end Program

namespace Transfer

open Program

variable {faulty : Bool} {past : Deeds} {t : Transaction}

/-- The outcome hands out a record. -/
def Recorded (o : Outcome) : Prop :=
  (recordOf o).isSome = true

/-- A call that settles its record ends with a record. -/
theorem keeps_settle_recorded (t : Transaction) (past : Deeds) :
    (settle t).Keeps (fun _ _ => True) faulty (fun o _ => Recorded o) past := by
  unfold settle
  refine (keeps_anything (Records.complete t) past).bind ?_
  rintro (e | next) past' -
  · rfl
  · exact ⟨trivial, fun _ _ => rfl⟩

/-- A call that gives its record up ends with a record. -/
theorem keeps_giveUp_recorded (t : Transaction) (cause : Error) (past : Deeds) :
    (giveUp t cause).Keeps (fun _ _ => True) faulty (fun o _ => Recorded o) past := by
  unfold giveUp
  refine (keeps_anything (Records.fail t cause.message) past).bind ?_
  rintro (e | next) past' -
  · rfl
  · rfl

/-- A call that has opened its record ends with a record. -/
theorem keeps_finish_recorded {α : Type} (t : Transaction) (r : Except Error α) (past : Deeds) :
    (finish t r).Keeps (fun _ _ => True) faulty (fun o _ => Recorded o) past := by
  cases r with
  | ok a => exact keeps_settle_recorded t past
  | error e => exact keeps_giveUp_recorded t e past

/-- Over a store that answers, a valid request opens its record. -/
theorem keeps_openRecord_valid {r : Request} (hvalid : r.validate = .ok ()) (past : Deeds) :
    (Records.openRecord r).Keeps (fun _ _ => True) false (fun result _ => ∃ t, result = .ok t) past := by
  unfold Records.openRecord
  rw [hvalid]
  refine keeps_clock.2 ⟨trivial, fun now => ⟨trivial, ?_⟩⟩
  intro reply hreply
  cases reply with
  | error e => cases hreply.1
  | ok t => exact ⟨t, rfl⟩

/-- Over a store that answers, a job with a valid request ends with a record. -/
theorem keeps_recorded {j : Job} (hvalid : j.request.validate = .ok ()) :
    (execute j).Keeps (fun _ _ => True) false (fun o _ => Recorded o) [] := by
  have hopen := keeps_openRecord_valid hvalid []
  cases j with
  | credit user amount | debit user amount =>
    refine hopen.bind ?_
    rintro _ past ⟨t, rfl⟩
    exact (keeps_anything _ past).bind fun r past' _ => keeps_finish_recorded t r past'
  | transfer source target amount =>
    have hne : source ≠ target := by
      intro hsame
      have hshape : (if amount ≤ 0 then .error .invalidAmount
          else if source = target then .error .sameAccountTransfer else .ok ()) = Except.ok (ε := Error) () := hvalid
      rw [if_pos hsame] at hshape
      split at hshape
      · cases hshape
      · cases hshape
    rw [execute, applyTransfer, if_neg hne]
    refine hopen.bind ?_
    rintro _ past ⟨t, rfl⟩
    refine (keeps_anything _ past).bind ?_
    rintro (e | b) past' -
    · exact keeps_giveUp_recorded t e past'
    · refine (keeps_anything _ past').bind ?_
      rintro (e | b') past'' -
      · refine (keeps_anything _ past'').bind ?_
        rintro (e' | b'') later -
        · exact keeps_giveUp_recorded t _ later
        · exact keeps_giveUp_recorded t e later
      · exact keeps_settle_recorded t past''

/-- A job ended with the record of a request, completed, or failed with its cause. -/
def Ended (r : Request) (o : Outcome) (t : Transaction) : Prop :=
  t.For r ∧ (t.status = .completed ∧ o = .ok t ∨
    t.status = .failed ∧ ∃ e, o = .error (.withRecord t e) ∧ t.failureCause = some e.message)

/-- Over a store that answers, a job with a valid request ends with its record completed or failed. -/
theorem keeps_ended {j : Job} (hvalid : j.request.validate = .ok ()) :
    (execute j).Keeps j.Rule false (fun o past => ∃ t, past.record = some t ∧ Ended j.request o t) [] := by
  refine (keeps_execute j false).and (keeps_recorded hvalid) (fun _ _ h _ => h) ?_
  rintro o past ⟨hreported, -⟩ hrecorded
  match o with
  | .ok t => exact ⟨t, hreported.1, hreported.2.1, .inl ⟨hreported.2.2.1, rfl⟩⟩
  | .error ⟨none, e⟩ => cases hrecorded
  | .error ⟨some t, e⟩ =>
    obtain ⟨hrecord, hfor, ⟨hfailed, hcause, -⟩ | ⟨-, -, hfaulty, -⟩⟩ := hreported
    · exact ⟨t, hrecord, hfor, .inr ⟨hfailed, e, rfl, hcause⟩⟩
    · cases hfaulty

end Transfer

/-! ## From the order to the record -/

namespace Traffic

open Transfer

/-- Jobs that run at once over a store that answers: a call whose job has a valid request ends with the record that it
opened, and opens no other. -/
theorem ended_of_result {m : Memory} (hm : m.Reachable) (trail : Trail) (now : Instant) {jobs : List Job}
    {moves : List Move} (hcalm : ∀ mv ∈ moves, mv.circumstance.outage = none) {call : CallId} {job : Job}
    (hjob : jobs[call]? = some job) (hvalid : job.request.validate = .ok ()) {out : Outcome}
    (hout : ((start (.atRest m trail now) (jobs.map execute)).run moves).result? call = some out) :
    ∃ t, Ended job.request out t ∧
      ((start (.atRest m trail now) (jobs.map execute)).run moves).ledger.store.memory.transaction? t.id = some t ∧
      ((start (.atRest m trail now) (jobs.map execute)).run moves).chronicle.opened.count call = 1 := by
  have hstart : Good m (fun call => ((jobs[call]?).getD job).Rule) false (fun call out past =>
      ((jobs[call]?).getD job).request.validate = .ok () →
        ∃ t, past.record = some t ∧ Ended ((jobs[call]?).getD job).request out t)
      (start (.atRest m trail now) (jobs.map execute)) := by
    refine Good.start hm.sound trail now fun call p hp => ?_
    rw [List.getElem?_map, Option.map_eq_some_iff] at hp
    obtain ⟨j, hj, rfl⟩ := hp
    rw [hj, Option.getD_some]
    by_cases hj' : j.request.validate = .ok ()
    · exact (keeps_ended hj').mono fun _ _ h _ => h
    · exact (keeps_execute j false).mono fun _ _ _ h => absurd h hj'
  have hgood := hstart.run (fun _ _ _ h => h.1) fun mv hmv => .inl (hcalm mv hmv)
  have hended := hgood.ended hout
  rw [hjob, Option.getD_some] at hended
  obtain ⟨t, hrecord, ht⟩ := hended hvalid
  refine ⟨t, ht, hgood.agrees.sound.transaction?_of_mem (hgood.agrees.records.stored hrecord), ?_⟩
  refine List.count_eq_one_of_mem hgood.agrees.records.once ((hgood.agrees.records.openers call).2 ?_)
  rw [hrecord]
  rfl

end Traffic

namespace StandingOrder

open Transfer

/-- Each occurrence of a standing order comes to one job that executes. -/
structure Executes (o : StandingOrder) (job : Job) : Prop where
  /-- The order makes the job, of its own kind, accounts and amount. -/
  made : o.toJob = .ok job ∧ job.kind = o.kind ∧ job.amount = o.amount ∧ job.request = o.request
  /-- The data of its events are read back as the order. -/
  encoded : (∀ (t : Trigger) (now : Instant), t.order = o → (t.event now).data = o.toJson.canonical) ∧
    ofJson? o.toJson.canonical = some o
  /-- The bridge submits the job for an event with these data, and does nothing else. -/
  submitted : ∀ event : Event, event.data = o.toJson.canonical → ∀ publish (b : Bus Hub) (hub : Hub),
    Bus.react publish (bridge event) (b, hub) =
      some ((hub.pool.submit false job).1.map fun _ => (), b, { hub with pool := (hub.pool.submit false job).2 })
  /-- Alone over a store that answers, the job comes to its end, and all that became of the records is the one that it
  opened, with the shape of the order, which is completed or failed. -/
  executed : ∀ m : Memory, m.Reachable → ∀ (trail : Trail) (now : Instant) (weather : Nat → Circumstance),
    (∀ i, (weather i).outage = none) → ∀ call, ∃ out l past t,
      (Ledger.atRest m trail now).runUnder weather call (execute job) [] = (.finished out, l, past) ∧
        Ended o.request out t ∧ l.store.memory.transactions = m.transactions ++ [t]
  /-- So does the job among any others that run at once: when it has ended, it has opened one record. -/
  interleaved : ∀ m : Memory, m.Reachable → ∀ (trail : Trail) (now : Instant) (jobs : List Job) (moves : List Move),
    (∀ mv ∈ moves, mv.circumstance.outage = none) → ∀ call, jobs[call]? = some job →
      ∀ s, s = (Traffic.start (.atRest m trail now) (jobs.map execute)).run moves → ∀ out, s.result? call = some out →
        ∃ t, Ended o.request out t ∧ s.ledger.store.memory.transaction? t.id = some t ∧ s.chronicle.opened.count call = 1

variable {o : StandingOrder} {job : Job}

/-- The event of a standing order makes the bridge submit its job. -/
theorem submitted_of_toJob (hjob : o.toJob = .ok job) {event : Event} (hdata : event.data = o.toJson.canonical)
    (publish : Event → Bus.State Hub → Option (Bus.Dispatch Hub)) (b : Bus Hub) (hub : Hub) :
    Bus.react publish (bridge event) (b, hub) =
      some ((hub.pool.submit false job).1.map fun _ => (), b, { hub with pool := (hub.pool.submit false job).2 }) := by
  unfold bridge
  rw [hdata, ofJson?_canonical]
  simp only [hjob]
  rfl

/-- Where the store answers, the job of a valid request comes to its end, and its record is the only new one. -/
theorem executed_of_request {m : Memory} (hm : m.Reachable) (trail : Trail) (now : Instant)
    {weather : Nat → Circumstance} (hcalm : ∀ i, (weather i).outage = none) (call : CallId)
    (hvalid : job.request.validate = .ok ()) :
    ∃ out l past t, (Ledger.atRest m trail now).runUnder weather call (execute job) [] = (.finished out, l, past) ∧
      Ended job.request out t ∧ l.store.memory.transactions = m.transactions ++ [t] := by
  have hserves := (Ledger.vacant_atRest hm.sound trail now).serves call
  obtain ⟨out, l, past, hrun, ⟨t, hrecord, ht⟩, hs, -⟩ :=
    Ledger.runUnder_keeps (fun _ _ h => h.1) (fun i => .inl (hcalm i)) hserves (keeps_ended hvalid)
  refine ⟨out, l, past, t, hrun, ht, ?_⟩
  have hrows := hs.agrees.records.alone
  rw [hrecord] at hrows
  exact hrows

/-- Every occurrence of a valid standing order becomes one job that the store takes through to a record: nothing that
was accepted when it was registered is refused when it is due. -/
theorem standing_orders_execute (o : StandingOrder) (h : o.validate = .ok ()) : ∃ job, o.Executes job := by
  have hshape := request_valid h
  obtain ⟨job, hjob, hkind, hamount, hrequest⟩ := toJob_of_shape hshape
  have hvalid : job.request.validate = .ok () := hrequest ▸ hshape
  refine ⟨job, ⟨hjob, hkind, hamount, hrequest⟩, ⟨?_, ofJson?_canonical o⟩,
    fun event hdata publish b hub => submitted_of_toJob hjob hdata publish b hub, ?_, ?_⟩
  · rintro t now rfl
    rfl
  · intro m hm trail now weather hcalm call
    rw [← hrequest]
    exact executed_of_request hm trail now hcalm call hvalid
  · rintro m hm trail now jobs moves hcalm call hcall s rfl out hout
    rw [← hrequest]
    exact Traffic.ended_of_result hm trail now hcalm hcall hvalid hout

/-- A transfer that recurs every day at nine. -/
theorem standing_orders_execute_daily :
    ∃ job, Executes (.transfer "rent" 7 8 120_000 "0 0 9 * * *") job :=
  standing_orders_execute _ (by decide +kernel)

end StandingOrder

end CentLedger
