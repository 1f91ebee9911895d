import CentLedger.Proofs.RegistryMap
import CentLedger.Proofs.Traffic
import CentLedger.Proofs.Workshop
import CentLedger.Service.State

/-!
# From standing orders to the ledger

A standing order that occurs is counted, and its event is published; the bridge, if it is subscribed, makes the event a
job of the pool; a worker takes the job and does it, one action on the ledger after another. `Office` puts these
together with the clients that submit jobs of their own, and with the call that shuts everything down: it takes the
bridge off the bus, closes the pool, and waits for the workers.

Each of them goes one step at a time, and the steps interleave in any order. A publish has three: it begins, it looks
for its handlers, and it returns when the bridge, if it was found, has submitted the job; in between the bridge may be
taken off and the pool may be closed.
-/

namespace CentLedger

/-- The job that the bridge makes of an event. -/
def Event.requestedJob (event : Event) : Except Error Job :=
  match StandingOrder.ofJson? event.data with
  | none => .error badPayload
  | some order => order.toJob

/-- The bridge submits the job of an event. -/
def Workshop.relay (w : Workshop) (event : Event) : Except Error JobId × Workshop :=
  match event.requestedJob with
  | .error e => (.error e, w)
  | .ok job => ((w.pool.submit false job).1, w.submit false job)

/-- How far a publish has come. -/
inductive Course
  | begun
  /-- It has looked for its handlers, and the bridge was one of them or there were none. -/
  | found (heard : Bool)
  /-- It has returned; how the bridge fared, if it was found. -/
  | returned (answer : Option (Except Error JobId))

/-- A publish of an event. -/
structure Publication where
  /-- The trigger and the standing order that occurred; without them, someone else publishes the event. -/
  source : Option (TriggerId × StandingOrder)
  event : Event
  course : Course

namespace Publication

/-- What the publisher is told. -/
def result? (p : Publication) : Option (Except Error Unit) :=
  match p.course with
  | .returned (some (.error e)) => some (.error (Bus.wrap e))
  | .returned _ => some (.ok ())
  | _ => none

/-- The bridge was subscribed when the publish looked for its handlers. -/
def heard (p : Publication) : Bool :=
  match p.course with
  | .begun => false
  | .found heard => heard
  | .returned answer => answer.isSome

/-- The job that was queued for the event. -/
def job? (p : Publication) : Option JobId :=
  match p.course with
  | .returned (some (.ok id)) => some id
  | _ => none

/-- The publish was told that all went well, and it was the bridge that made it so. -/
def effective (p : Publication) : Bool :=
  match p.result? with
  | some (.ok ()) => p.heard
  | _ => false

/-- The publish is that of an occurrence of certain triggers and standing orders. -/
def isOf (which : TriggerId × StandingOrder → Bool) (p : Publication) : Bool :=
  p.source.any which

/-- A publish took effect exactly if a job was queued for its event. -/
theorem effective_eq (p : Publication) : p.effective = p.job?.isSome := by
  obtain ⟨source, event, course⟩ := p
  rcases course with _ | heard | _ | e | id <;> rfl

end Publication

/-- More calls begin their programs. -/
def Traffic.join {α : Type} (s : Traffic α) (programs : List (Program α)) : Traffic α :=
  { s with stages := s.stages ++ programs.map .ready }

/-- The standing orders, the bus, the pool and the ledger, with what is in progress. -/
structure Office where
  workshop : Workshop
  /-- What the workers do on the ledger, one call for each job that was taken, in order. -/
  traffic : Traffic Transfer.Outcome
  registry : Registry
  /-- The bridge is subscribed. -/
  bridged : Bool
  publications : List Publication
  /-- The jobs that clients have submitted. -/
  clients : List JobId

namespace Office

/-- An office over a ledger at rest. -/
def opened (workers capacity : Nat) (m : Memory) (trail : Trail) (now : Instant) : Office :=
  ⟨.opened workers capacity, .start (.atRest m trail now) [], .empty, true, [], []⟩

/-- A client submits a job. -/
def submit (o : Office) (cancelled : Bool) (job : Job) : Office :=
  { o with
    workshop := o.workshop.submit cancelled job
    clients := o.clients ++ (o.workshop.pool.submit cancelled job).1.toOption.toList }

/-- The worker at the queue takes a job, if there is one, and begins with it. -/
def receive (o : Office) : Office :=
  { o with
    workshop := o.workshop.receive
    traffic := o.traffic.join
      ((o.workshop.receive.taken.drop o.workshop.taken.length).map fun j => Transfer.execute j.2) }

/-- The worker whose call has ended is done with its job. -/
def deliver (o : Office) (call : CallId) (now : Instant) : Office :=
  match o.workshop.taken[call]?, o.traffic.result? call with
  | some j, some outcome => { o with workshop := o.workshop.deliver j.1 outcome now }
  | _, _ => o

/-- A trigger fires: the occurrence is counted, and the publish of its event begins. -/
def fire (o : Office) (trigger : TriggerId) (now : Instant) : Office :=
  match o.registry.fire trigger now with
  | (none, _) => o
  | (some event, registry) =>
    { o with
      registry := registry
      publications := o.publications ++
        [⟨(o.registry.trigger? trigger).map fun t => (trigger, t.order), event, .begun⟩] }

/-- A publish goes on. -/
def goOn (o : Office) (i : Nat) : Office :=
  match o.publications[i]? with
  | none => o
  | some p =>
    match p.course with
    | .begun =>
      let heard := o.bridged && p.event.type = Event.scheduledType
      { o with publications := o.publications.set i { p with course := .found heard } }
    | .found false => { o with publications := o.publications.set i { p with course := .returned none } }
    | .found true =>
      { o with
        workshop := (o.workshop.relay p.event).2
        publications := o.publications.set i { p with course := .returned (some (o.workshop.relay p.event).1) } }
    | .returned _ => o

/-- The call that shuts the service down goes on: it takes the bridge off, closes the pool, and waits for the workers.
-/
def shutDown (o : Office) : Office :=
  if o.bridged then { o with bridged := false }
  else if o.workshop.closings = [] then { o with workshop := o.workshop.step (.shutdown false) }
  else { o with workshop := o.workshop.step (.proceed 0) }

/-- What can be done next. -/
inductive Act
  | submit (cancelled : Bool) (job : Job)
  | await (id : JobId) (givenUp : Bool)
  | look
  | receive
  | move (mv : Move)
  | deliver (call : CallId) (now : Instant)
  | register (order : StandingOrder) (now : Instant)
  | unregister (id : String)
  | updateSchedule (id schedule : String) (now : Instant)
  | fire (trigger : TriggerId) (now : Instant)
  | publish (event : Event)
  | goOn (publication : Nat)
  | shutDown

/-- Something is done. -/
def step (o : Office) : Act → Office
  | .submit cancelled job => o.submit cancelled job
  | .await id givenUp => { o with workshop := o.workshop.step (.await id givenUp) }
  | .look => { o with workshop := o.workshop.step .look }
  | .receive => o.receive
  | .move mv => { o with traffic := o.traffic.step mv }
  | .deliver call now => o.deliver call now
  | .register order now => { o with registry := (o.registry.register order now).2 }
  | .unregister id => { o with registry := (o.registry.unregister id).2 }
  | .updateSchedule id schedule now => { o with registry := (o.registry.updateSchedule id schedule now).2 }
  | .fire trigger now => o.fire trigger now
  | .publish event => { o with publications := o.publications ++ [⟨none, event, .begun⟩] }
  | .goOn i => o.goOn i
  | .shutDown => o.shutDown

/-- One thing after another is done. -/
def run (o : Office) (acts : List Act) : Office :=
  acts.foldl step o

/-- Steps after steps. -/
theorem run_append (o : Office) (acts more : List Act) : o.run (acts ++ more) = (o.run acts).run more :=
  List.foldl_append

end Office

/-! ## Calls that have ended -/

namespace Traffic

variable {α : Type} {s : Traffic α} {call : CallId} {a : α}

/-- A call has ended with a value exactly if its program is done. -/
theorem result?_eq_some : s.result? call = some a ↔ s.stages[call]? = some (.ready (.done a)) := by
  unfold result?
  split
  · rename_i hst
    simp [hst]
  · rename_i hnot
    refine ⟨nofun, fun hst => absurd hst (hnot a)⟩

/-- Calls that begin change no result. -/
theorem result?_join (h : s.result? call = some a) (programs : List (Program α)) :
    (s.join programs).result? call = some a := by
  rw [result?_eq_some] at h ⊢
  exact (List.getElem?_append_left (List.getElem?_eq_some_iff.1 h).1).trans h

/-- A move makes nothing of a call that has ended, nor of one that is not there. -/
theorem step_idle {mv : Move} (h : s.stages[mv.call]? = none ∨ (s.result? mv.call).isSome) : s.step mv = s := by
  rcases h with h | h
  · simp [step, h]
  · obtain ⟨a, ha⟩ := Option.isSome_iff_exists.1 h
    simp [step, result?_eq_some.1 ha]

/-- A move changes no stage but that of its call. -/
theorem stage_step {mv : Move} (h : mv.call ≠ call) : (s.step mv).stages[call]? = s.stages[call]? := by
  have hattempt : ∀ (s : Traffic α) granted action next,
      (s.attempt mv.circumstance mv.call granted action next).stages[call]? = s.stages[call]? := by
    intro s granted action next
    unfold attempt
    split <;> exact List.getElem?_set_ne h
  unfold step
  split
  · exact hattempt _ _ _ _
  · split
    · exact hattempt _ _ _ _
    · rfl
  · rfl

/-- What a call ended with stays. -/
theorem result?_step (h : s.result? call = some a) (mv : Move) : (s.step mv).result? call = some a := by
  by_cases hcall : mv.call = call
  · rw [step_idle (Or.inr (by rw [hcall, h]; rfl))]
    exact h
  · rw [result?_eq_some] at h ⊢
    exact (stage_step hcall).trans h

/-! ## Calls that crash -/

/-- The ledger works, and no call has crashed. -/
structure Unharmed (s : Traffic α) : Prop where
  working : s.ledger.Working
  whole : ∀ call : CallId, s.stages[call]? ≠ some .crashed

namespace Unharmed

/-- Where no call has begun, none has crashed. -/
theorem start (m : Memory) (trail : Trail) (now : Instant) :
    (Traffic.start (α := α) (.atRest m trail now) []).Unharmed :=
  ⟨Ledger.working_atRest m trail now, fun _ => by simp [Traffic.start]⟩

/-- Calls that begin have not crashed. -/
theorem join (h : s.Unharmed) (programs : List (Program α)) : (s.join programs).Unharmed := by
  refine ⟨h.working, fun call hcall => ?_⟩
  simp only [Traffic.join, List.getElem?_append, List.getElem?_map] at hcall
  split at hcall
  · exact h.whole call hcall
  · obtain ⟨program, -, hstage⟩ := Option.map_eq_some_iff.1 hcall
    cases hstage

/-- Where the ledger works, an attempt crashes no call: the action is done, or the call waits for a lock. -/
theorem attempt (h : s.Unharmed) {st : Stage α} (hst : s.stages[call]? = some st) (c : Circumstance) (granted : Bool)
    (action : Action) (next : action.Reply → Program α) : (s.attempt c call granted action next).Unharmed := by
  rcases Ledger.actUnder_replies_or_waits h.working c call granted action with
    ⟨reply, l', hact⟩ | ⟨-, user, rfl, -, hact⟩
  · simp only [Traffic.attempt, hact]
    exact ⟨(Ledger.actUnder_turned h.working hact).1, whole_set hst h.whole (by simp)⟩
  · simp only [Traffic.attempt, hact]
    exact ⟨⟨h.working.faultless, h.working.gate⟩, whole_set hst h.whole (by simp)⟩

/-- Where the ledger works, no move crashes a call. -/
theorem step (h : s.Unharmed) (mv : Move) : (s.step mv).Unharmed := by
  unfold Traffic.step
  split
  · rename_i hst
    exact h.attempt hst _ _ _ _
  · rename_i hst
    split
    · have hwoken : Unharmed { s with ledger := { s.ledger with
          woken := s.ledger.woken.filter (· ≠ mv.call) } } :=
        ⟨⟨h.working.faultless, h.working.gate⟩, h.whole⟩
      exact hwoken.attempt hst _ _ _ _
    · exact h
  · exact h

end Unharmed

end Traffic

end CentLedger
