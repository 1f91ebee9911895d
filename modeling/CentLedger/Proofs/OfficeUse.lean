import CentLedger.Proofs.Occurrences
import CentLedger.Proofs.PoolUse
import CentLedger.Proofs.Subscriptions
import CentLedger.Service.Control

/-!
# The standing orders of a service

A service does at once what an office does in steps: it publishes an event and runs its handlers, lets everything occur
that is due, or shuts down up to the wait for the workers. `Office.Depicts` says that an office has the pool, the
standing orders and the bridge of a service. Each such operation of a service is a run of the office that depicts it, so
what holds of all runs holds of services.
-/

namespace CentLedger

namespace Bus

variable {id : SubscriptionId}

/-- The bridge submits the job of an event to the pool. -/
theorem react_bridge (publish : Event → State Hub → Option (Dispatch Hub)) (event : Event) (b : Bus Hub) {hub : Hub}
    {w : Workshop} (hpool : w.pool = hub.pool) :
    react publish (bridge event) (b, hub) =
      some ((w.relay event).1.map fun _ => (), b, { hub with pool := (w.relay event).2.pool }) := by
  obtain ⟨pool, journal⟩ := hub
  obtain rfl : w.pool = pool := hpool
  unfold bridge Workshop.relay Event.requestedJob
  cases StandingOrder.ofJson? event.data with
  | none => rfl
  | some order =>
    simp only
    cases order.toJob <;> rfl

/-- What a publisher is told when the bridge fared so. -/
theorem publish_bridge (depth : Nat) {event : Event} {b : Bus Hub} {hub : Hub} {w : Workshop}
    (hpool : w.pool = hub.pool) (hbus : b.subscriptions event.type = [(id, bridge)]) :
    ∃ result, (Publication.result? ⟨none, event, .returned (some (w.relay event).1)⟩) = some result ∧
      publish (depth + 1) event (b, hub) =
        some ⟨[id], result, b, { hub with pool := (w.relay event).2.pool }⟩ := by
  simp only [publish, hbus, runHandlers, react_bridge _ event b hpool]
  cases (w.relay event).1 <;> exact ⟨_, rfl, rfl⟩

end Bus

namespace Office

variable {ρ : Type} {workers capacity : Nat} {o : Office} {s : Service ρ} {event : Event}

/-- An office has the pool, the standing orders and the bridge of a service, and nobody is at the queue. -/
structure Depicts (o : Office) (s : Service ρ) : Prop where
  pool : o.workshop.pool = s.pool
  registry : o.registry = s.registry
  keyed : (s.bus.handlers.map (·.1)).Nodup
  bridge : s.bus.subscriptions Event.scheduledType = if o.bridged then [(Service.bridgeId, CentLedger.bridge)] else []
  looking : o.workshop.looking = false

/-- A service that was just made. -/
theorem depicts_create (settings : Settings) (now : Instant) (m : Memory) (trail : Trail) :
    (opened settings.worker.workers settings.worker.effectiveCapacity m trail now).Depicts
      (Service.create settings now : Service ρ) := by
  refine ⟨rfl, rfl, ?_, ?_, rfl⟩
  · simp [Service.create, Bus.subscribe, Bus.empty, Bus.addHandler, Event.scheduledType]
  · simp [Service.create, Bus.subscribe, Bus.subscriptions, Bus.empty, Bus.addHandler, Event.scheduledType, opened,
      Service.bridgeId]

/-- A service with the same pool, standing orders and bus. -/
theorem Depicts.congr (h : o.Depicts s) {s' : Service ρ} (hpool : s'.pool = s.pool)
    (hregistry : s'.registry = s.registry) (hbus : s'.bus = s.bus) : o.Depicts s' := by
  refine ⟨hpool ▸ h.pool, hregistry ▸ h.registry, ?_, ?_, h.looking⟩
  · rw [hbus]
    exact h.keyed
  · rw [hbus]
    exact h.bridge

theorem Depicts.wakeWorker (h : o.Depicts s) : o.Depicts s.wakeWorker := by
  unfold Service.wakeWorker
  split
  · exact h
  · exact h.congr rfl rfl rfl

/-! ## Clients and standing orders -/

theorem submit_is_run (h : o.Depicts s) (token : Option String) (job : Job) :
    (o.run [.submit (s.isCancelled token) job]).Depicts (s.submit token job).2 := by
  have hpool : (o.workshop.submit (s.isCancelled token) job).pool = (s.pool.submit (s.isCancelled token) job).2 :=
    congrArg (fun pool : Pool => (pool.submit (s.isCancelled token) job).2) h.pool
  exact Depicts.wakeWorker ⟨hpool, h.registry, h.keyed, h.bridge, h.looking⟩

theorem register_is_run (h : o.Depicts s) (order : StandingOrder) :
    (o.run [.register order s.now]).Depicts (s.register order).2 :=
  ⟨h.pool, congrArg (fun r : Registry => (r.register order s.now).2) h.registry, h.keyed, h.bridge, h.looking⟩

theorem unregister_is_run (h : o.Depicts s) (id : String) :
    (o.run [.unregister id]).Depicts (s.unregister id).2 :=
  ⟨h.pool, congrArg (fun r : Registry => (r.unregister id).2) h.registry, h.keyed, h.bridge, h.looking⟩

theorem updateSchedule_is_run (h : o.Depicts s) (id schedule : String) :
    (o.run [.updateSchedule id schedule s.now]).Depicts (s.updateSchedule id schedule).2 :=
  ⟨h.pool, congrArg (fun r : Registry => (r.updateSchedule id schedule s.now).2) h.registry, h.keyed, h.bridge,
    h.looking⟩

/-! ## Events -/

/-- A publish that has begun goes on to its end, as a service publishes at once. -/
theorem publish_is_run (h : o.Depicts s) {i : Nat} {source : Option (TriggerId × StandingOrder)}
    (hbegun : o.publications[i]? = some ⟨source, event, .begun⟩) (htype : event.type = Event.scheduledType) :
    ∃ answer, (o.run [.goOn i, .goOn i]).Depicts (s.publish event).2 ∧
      (o.run [.goOn i, .goOn i]).publications = o.publications.set i ⟨source, event, .returned answer⟩ ∧
      Publication.result? ⟨source, event, .returned answer⟩ = some (s.publish event).1 := by
  have hlt : i < o.publications.length := (List.getElem?_eq_some_iff.1 hbegun).1
  have hfound : o.run [.goOn i, .goOn i] =
      Office.goOn { o with publications := o.publications.set i ⟨source, event, .found o.bridged⟩ } i := by
    simp [run, step, goOn, hbegun, htype]
  rw [hfound]
  have hbus := h.bridge
  rw [← htype] at hbus
  cases hbridged : o.bridged with
  | true =>
    obtain ⟨result, hresult, hpublish⟩ := Bus.publish_bridge 63 h.pool (by simpa [hbridged] using hbus)
    have hservice : s.publish event = (result,
        { s with hub := { s.hub with pool := (o.workshop.relay event).2.pool } }.wakeWorker) := by
      rw [Service.publish, show Service.maxNesting = 63 + 1 from rfl, hpublish]
    have hlooking : (o.workshop.relay event).2.looking = false := by
      rcases o.workshop.relay_cases event with ⟨job, hrelay⟩ | ⟨e, hrelay⟩
      · rw [hrelay]
        exact h.looking
      · rw [hrelay]
        exact h.looking
    refine ⟨some (o.workshop.relay event).1, ?_, by simp [goOn, hlt], by rw [hservice]; exact hresult⟩
    rw [hservice]
    refine Depicts.wakeWorker ?_
    simp only [goOn, List.getElem?_set_self hlt]
    exact ⟨rfl, h.registry, h.keyed, by simpa [hbridged] using h.bridge, hlooking⟩
  | false =>
    have hservice : s.publish event = (.ok (), s.wakeWorker) := by
      simp only [Service.publish, Service.maxNesting, Bus.publish, hbus, hbridged]
      rfl
    refine ⟨none, ?_, by simp [goOn, hlt], by rw [hservice]; rfl⟩
    rw [hservice]
    refine Depicts.wakeWorker ?_
    simp only [goOn, List.getElem?_set_self hlt]
    exact ⟨h.pool, h.registry, h.keyed, by simpa [hbridged] using h.bridge, h.looking⟩

/-- Someone publishes an event that is like that of a standing order. -/
theorem foreign_publish_is_run (h : o.Depicts s) (htype : event.type = Event.scheduledType) :
    ∃ acts, (o.run acts).Depicts (s.publish event).2 := by
  have hbegun : (o.step (.publish event)).publications[o.publications.length]? = some ⟨none, event, .begun⟩ := by
    simp [step]
  have h' : (o.step (.publish event)).Depicts s := ⟨h.pool, h.registry, h.keyed, h.bridge, h.looking⟩
  obtain ⟨-, hdepicts, -⟩ := publish_is_run h' hbegun htype
  exact ⟨[.publish event, .goOn o.publications.length, .goOn o.publications.length], hdepicts⟩

/-- A trigger that is due fires, and a publish of its event begins. -/
theorem fire_of_due (o : Office) {id : TriggerId} {now : Instant} (hdue : o.registry.isDue id now = true) :
    ∃ p : Publication, (o.registry.fire id now).1 = some p.event ∧ p.course = .begun ∧
      p.event.type = Event.scheduledType ∧ o.step (.fire id now) = { o with
        registry := (o.registry.fire id now).2
        publications := o.publications ++ [p] } := by
  unfold Registry.isDue at hdue
  cases hfound : o.registry.trigger? id with
  | none =>
    rw [hfound] at hdue
    cases hdue
  | some t =>
    refine ⟨⟨some (id, t.order), (t.fire now).1, .begun⟩, ?_, rfl, rfl, ?_⟩
    · simp [Registry.fire, hfound]
    · simp [step, fire, Registry.fire, hfound]

/-- What is due fires, one trigger after another, and for each of them a publish begins. -/
theorem fires_are_run (o : Office) (now : Instant) (triggers : List TriggerId) :
    ∃ acts new, o.run acts = { o with
        registry := (Registry.fireEach now triggers o.registry).2
        publications := o.publications ++ new } ∧
      new.map (·.event) = (Registry.fireEach now triggers o.registry).1 ∧
      ∀ p ∈ new, p.course = .begun ∧ p.event.type = Event.scheduledType := by
  induction triggers generalizing o with
  | nil => exact ⟨[], [], by simp [run, Registry.fireEach], rfl, List.forall_mem_nil _⟩
  | cons id rest ih =>
    unfold Registry.fireEach
    by_cases hdue : o.registry.isDue id now = true
    · obtain ⟨p, hevent, hcourse, htype, hstep⟩ := fire_of_due o hdue
      obtain ⟨acts, new, hrun, hevents, hbegun⟩ := ih (o.step (.fire id now))
      rw [hstep] at hevents
      refine ⟨.fire id now :: acts, p :: new, ?_, ?_, List.forall_mem_cons.2 ⟨⟨hcourse, htype⟩, hbegun⟩⟩
      · show (o.step (.fire id now)).run acts = _
        rw [hrun, hstep, if_pos hdue]
        simp
      · rw [if_pos hdue]
        simp [hevent, hevents]
    · obtain ⟨acts, new, hrun, hevents, hbegun⟩ := ih o
      rw [if_neg hdue]
      exact ⟨acts, new, hrun, hevents, hbegun⟩

/-- Publishes that have begun go on to their ends, one after another. -/
theorem publishes_are_run (h : o.Depicts s) (old : List Publication) {new : List Publication}
    (hall : o.publications = old ++ new)
    (hnew : ∀ p ∈ new, p.course = .begun ∧ p.event.type = Event.scheduledType) :
    ∃ acts, (o.run acts).Depicts ((new.map (·.event)).foldl (fun s event => (s.publish event).2) s) := by
  induction new generalizing o s old with
  | nil => exact ⟨[], h⟩
  | cons p rest ih =>
    obtain ⟨hcourse, htype⟩ := hnew p List.mem_cons_self
    obtain ⟨source, event, course⟩ := p
    obtain rfl : course = .begun := hcourse
    have hbegun : o.publications[old.length]? = some ⟨source, event, .begun⟩ := by simp [hall]
    obtain ⟨answer, h', hset, -⟩ := publish_is_run h hbegun htype
    have hall' : o.publications.set old.length ⟨source, event, .returned answer⟩ =
        (old ++ [⟨source, event, .returned answer⟩]) ++ rest := by
      simp [hall]
    obtain ⟨more, hmore⟩ := ih h' _ (hset.trans hall') fun q hq => hnew q (List.mem_cons_of_mem _ hq)
    exact ⟨[Act.goOn old.length, .goOn old.length] ++ more, by rw [run_append]; exact hmore⟩

/-- Everything that is due occurs. -/
theorem fireDue_is_run (h : o.Depicts s) : ∃ acts, (o.run acts).Depicts s.fireDue := by
  obtain ⟨acts, new, hrun, hevents, hbegun⟩ :=
    fires_are_run o s.now (s.registry.entries.map fun e => e.2.trigger)
  have h' : (o.run acts).Depicts { s with registry := (s.registry.fireDue s.now).2 } := by
    rw [hrun]
    exact ⟨h.pool, by rw [h.registry]; rfl, h.keyed, h.bridge, h.looking⟩
  obtain ⟨more, hmore⟩ := publishes_are_run h' o.publications (by rw [hrun]) hbegun
  rw [hevents, h.registry] at hmore
  exact ⟨acts ++ more, by rw [run_append]; exact hmore⟩

/-! ## Workers -/

/-- What free workers do, they do in an office. -/
theorem free_is_run (o : Office) {acts : List Workshop.Act} (hfree : ∀ act ∈ acts, act.Free) :
    ∃ more traffic, o.run more = { o with workshop := o.workshop.run acts, traffic := traffic } := by
  induction acts generalizing o with
  | nil => exact ⟨[], o.traffic, rfl⟩
  | cons act acts ih =>
    rcases hfree act List.mem_cons_self with rfl | rfl
    · obtain ⟨more, traffic, hrun⟩ := ih (o.step .look) fun act hact => hfree act (List.mem_cons_of_mem _ hact)
      exact ⟨.look :: more, traffic, hrun⟩
    · obtain ⟨more, traffic, hrun⟩ := ih (o.step .receive) fun act hact => hfree act (List.mem_cons_of_mem _ hact)
      exact ⟨.receive :: more, traffic, hrun⟩

/-- A free worker takes a job. -/
theorem take_is_run (h : o.Depicts s) {j : JobId × Job} {pool : Pool} (htake : s.pool.take? = some (j, pool)) :
    (o.run [.look, .receive]).Depicts (s.withPool pool) ∧
      (o.run [.look, .receive]).workshop.taken = o.workshop.taken ++ [j] := by
  rw [← h.pool] at htake
  unfold Pool.take? at htake
  split at htake
  · cases htake
  · rename_i hfree
    simp only [Bool.or_eq_true, decide_eq_true_eq, not_or, Bool.not_eq_true] at hfree
    have hrun : o.workshop.look.receive = { o.workshop with
        pool := pool
        looking := false
        taken := o.workshop.taken ++ [j] } := by
      simp [Workshop.look, Workshop.receive, h.looking, hfree, htake]
    have hworkshop : (o.run [.look, .receive]).workshop = o.workshop.look.receive := rfl
    refine ⟨⟨?_, h.registry, h.keyed, h.bridge, ?_⟩, ?_⟩
    · rw [hworkshop, hrun]
      rfl
    · rw [hworkshop, hrun]
    · rw [hworkshop, hrun]

/-- A worker is done with a job whose call has ended. -/
theorem finish_is_run (hsound : o.Sound workers capacity) (h : o.Depicts s) {call : CallId} {j : JobId × Job}
    {outcome : Transfer.Outcome} (hcall : o.workshop.taken[call]? = some j)
    (hresult : o.traffic.result? call = some outcome) (now : Instant) :
    ∃ acts, (o.run acts).Depicts (s.withPool (s.pool.finish j.1 outcome now)) := by
  rw [← h.pool]
  unfold Pool.finish
  split
  · exact ⟨[], rfl, h.registry, h.keyed, h.bridge, h.looking⟩
  · rename_i job hruns
    have hdeliver : o.workshop.deliver j.1 outcome now = { o.workshop with
        pool := o.workshop.pool.deliver j.1 ⟨job, outcome, now⟩
        ended := o.workshop.ended ++ [(j.1, ⟨job, outcome, now⟩)] } := by
      simp [Workshop.deliver, hruns]
    have hstep : o.step (.deliver call now) = { o with workshop := o.workshop.deliver j.1 outcome now } := by
      simp [step, deliver, hcall, hresult]
    obtain ⟨acts, hfree, hpool, hlooking, -⟩ :=
      Workshop.retires (hsound.staffed.sound.deliver j.1 outcome now) (by rw [hdeliver]; exact h.looking)
    obtain ⟨more, traffic, hrun⟩ := free_is_run (o.step (.deliver call now)) hfree
    refine ⟨.deliver call now :: more, ?_⟩
    rw [show o.run (.deliver call now :: more) = (o.step (.deliver call now)).run more from rfl, hrun, hstep]
    exact ⟨by rw [hpool, hdeliver]; rfl, h.registry, h.keyed, h.bridge, hlooking⟩

/-! ## The shutdown -/

/-- Waiting for the workers does nothing to the pool, the standing orders and the bus. -/
theorem Depicts.awaitWorkers (h : o.Depicts s) (remains : Bool) (answer : ρ) :
    o.Depicts (s.awaitWorkers remains answer).2 := by
  unfold Service.awaitWorkers
  split
  · unfold Service.await
    simp only
    split
    · exact h.congr rfl rfl rfl
    · exact h.congr rfl rfl rfl
  · exact h.congr rfl rfl rfl

/-- A service shuts down, up to the wait for its workers. -/
theorem shutdown_is_run (hsound : o.Sound workers capacity) (h : o.Depicts s) (hbridged : o.bridged = true)
    (hfirst : o.workshop.closings = []) (answer : ρ) : ∃ acts, (o.run acts).Depicts (s.shutdown answer).2 := by
  -- the bridge is taken off, and the pool turns further jobs away
  have hbegin : o.run [.shutDown, .shutDown, .shutDown] = { o with
      bridged := false
      workshop := o.workshop.run (Workshop.begins false 0) } := by
    simp [run, step, shutDown, hbridged, hfirst, Workshop.run, Workshop.step, Workshop.begins]
  -- the workers with nothing left to do leave
  obtain ⟨acts, hfree, hcall, hpool, hlooking⟩ := Workshop.closes hsound.staffed.sound h.looking false
  rw [hfirst, List.length_nil] at hcall hpool hlooking
  obtain ⟨more, traffic, hrun⟩ := free_is_run (o.run [.shutDown, .shutDown, .shutDown]) hfree
  -- the wait begins
  have hjoin := Workshop.proceed_of_join hcall
  have hsome : ((o.workshop.run (Workshop.begins false 0)).run acts).closings ≠ [] := by
    intro hnone
    simp [hnone] at hcall
  have hend : o.run ([Act.shutDown, .shutDown, .shutDown] ++ more ++ [Act.shutDown]) = { o with
      bridged := false
      workshop := ((o.workshop.run (Workshop.begins false 0)).run acts).proceed 0
      traffic := traffic } := by
    rw [run_append, run_append, hrun, hbegin]
    simp [run, step, shutDown, hsome, Workshop.step]
  have hbus : (s.bus.unsubscribe Event.scheduledType Service.bridgeId).2.subscriptions Event.scheduledType = [] := by
    rw [Bus.subscriptions_unsubscribe h.keyed]
    simp [h.bridge, hbridged]
  have hdepicts : (o.run ([Act.shutDown, .shutDown, .shutDown] ++ more ++ [Act.shutDown])).Depicts
      ({ s with bus := (s.bus.unsubscribe Event.scheduledType Service.bridgeId).2 }.withPool s.pool.close.join.2) := by
    rw [hend]
    refine ⟨?_, h.registry, Bus.Keyed.unsubscribe h.keyed _ _, hbus, hjoin.2.trans hlooking⟩
    rw [hjoin.1, hpool, h.pool]
    rfl
  refine ⟨[Act.shutDown, .shutDown, .shutDown] ++ more ++ [Act.shutDown], ?_⟩
  generalize o.run ([Act.shutDown, .shutDown, .shutDown] ++ more ++ [Act.shutDown]) = o' at hdepicts ⊢
  unfold Service.shutdown
  split
  · have hstopped : o'.Depicts
        ((s.stopScheduler.unsubscribe Event.scheduledType Service.bridgeId).2.withPool s.pool.close.join.2) :=
      hdepicts.congr rfl rfl rfl
    exact hstopped.awaitWorkers _ answer
  · exact hdepicts.awaitWorkers _ answer

end Office

end CentLedger
