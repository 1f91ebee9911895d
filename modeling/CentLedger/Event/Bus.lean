import CentLedger.Error
import CentLedger.Event.Event

/-!
# The event bus

Handlers subscribe to a type of event and get numbers in the order in which they came. `Bus.publish` runs the handlers
that the type has at that moment, in order, and stops at the first that fails. A handler may subscribe, unsubscribe
and publish itself, so what it does is a `Reaction`: a tree of such requests, over a world `σ` outside the bus.
Publishing within publishing is bounded by a depth; within it the outcome does not depend on the bound.
-/

namespace CentLedger

/-- The number of a subscription. -/
abbrev SubscriptionId := Nat

/-- What a handler does about an event, one request after another. -/
inductive Reaction (σ : Type)
  /-- The handler is done. -/
  | finish (result : Except Error Unit)
  /-- Look at the world. -/
  | observe (next : σ → Reaction σ)
  /-- Change the world. -/
  | update (change : σ → σ) (next : Reaction σ)
  /-- Subscribe a handler. -/
  | subscribe (type : String) (handler : Event → Reaction σ) (next : Except Error SubscriptionId → Reaction σ)
  /-- Remove a subscription. -/
  | unsubscribe (type : String) (id : SubscriptionId) (next : Bool → Reaction σ)
  /-- Publish an event, and wait until its handlers are done. -/
  | publish (event : Event) (next : Except Error Unit → Reaction σ)

/-- A handler of events. -/
abbrev Handler (σ : Type) := Event → Reaction σ

/-- The subscriptions of each type, in the order of their numbers, and the next number. -/
structure Bus (σ : Type) where
  handlers : List (String × List (SubscriptionId × Handler σ))
  nextId : SubscriptionId

namespace Bus

variable {σ : Type}

/-- A bus without subscriptions. -/
def empty : Bus σ :=
  ⟨[], 0⟩

/-- The subscriptions of a type. -/
def subscriptions (b : Bus σ) (type : String) : List (SubscriptionId × Handler σ) :=
  ((b.handlers.find? fun h => h.1 = type).map (·.2)).getD []

/-- The number of subscriptions of a type. -/
def handlerCount (b : Bus σ) (type : String) : Nat :=
  (b.subscriptions type).length

/-- Add a subscription to the list of its type. -/
def addHandler (type : String) (entry : SubscriptionId × Handler σ) :
    List (String × List (SubscriptionId × Handler σ)) → List (String × List (SubscriptionId × Handler σ))
  | [] => [(type, [entry])]
  | (t, list) :: rest => if t = type then (t, list ++ [entry]) :: rest else (t, list) :: addHandler type entry rest

/-- Subscribe a handler to a type, which may not be empty. -/
def subscribe (b : Bus σ) (type : String) (handler : Handler σ) : Except Error SubscriptionId × Bus σ :=
  if type = "" then (.error (.eventHandler "event type must not be empty"), b)
  else (.ok b.nextId, ⟨addHandler type (b.nextId, handler) b.handlers, b.nextId + 1⟩)

/-- Remove a subscription from the list of a type; a list that becomes empty goes too. -/
def removeHandler (type : String) (id : SubscriptionId) :
    List (String × List (SubscriptionId × Handler σ)) → List (String × List (SubscriptionId × Handler σ))
  | [] => []
  | (t, list) :: rest =>
    if t = type then
      let kept := list.filter fun h => h.1 ≠ id
      if kept.isEmpty then rest else (t, kept) :: rest
    else (t, list) :: removeHandler type id rest

/-- Remove a subscription of a type, if it is one. -/
def unsubscribe (b : Bus σ) (type : String) (id : SubscriptionId) : Bool × Bus σ :=
  ((b.subscriptions type).any fun h => h.1 = id, { b with handlers := removeHandler type id b.handlers })

/-! ## Dispatch -/

/-- A bus and the world around it. -/
abbrev State (σ : Type) := Bus σ × σ

/-- The outcome of a dispatch: the subscriptions that ran at its own level, its result, and the state after it. -/
structure Dispatch (σ : Type) where
  ran : List SubscriptionId
  result : Except Error Unit
  state : State σ

/-- The error that a publisher sees when a handler fails: its own, wrapped once unless it already says so. -/
def wrap : Error → Error
  | .eventHandler text => .eventHandler text
  | e => .eventHandler e.message

/-- Run a reaction, with a way to publish; nothing if a nested dispatch went too deep. -/
def react (publish : Event → State σ → Option (Dispatch σ)) :
    Reaction σ → State σ → Option (Except Error Unit × State σ)
  | .finish result, s => some (result, s)
  | .observe next, s => react publish (next s.2) s
  | .update change next, s => react publish next (s.1, change s.2)
  | .subscribe type handler next, s =>
    let (r, b) := s.1.subscribe type handler
    react publish (next r) (b, s.2)
  | .unsubscribe type id next, s =>
    let (r, b) := s.1.unsubscribe type id
    react publish (next r) (b, s.2)
  | .publish event next, s =>
    match publish event s with
    | none => none
    | some d => react publish (next d.result) d.state

/-- Run handlers in order up to the first that fails. -/
def runHandlers (publish : Event → State σ → Option (Dispatch σ)) (event : Event) :
    List (SubscriptionId × Handler σ) → State σ → Option (Dispatch σ)
  | [], s => some ⟨[], .ok (), s⟩
  | (id, handler) :: rest, s =>
    match react publish (handler event) s with
    | none => none
    | some (.error e, s) => some ⟨[id], .error (wrap e), s⟩
    | some (.ok (), s) => (runHandlers publish event rest s).map fun d => { d with ran := id :: d.ran }

/-- Publish an event to the handlers that its type has now; nothing if publishing nests deeper than `depth`. -/
def publish : (depth : Nat) → Event → State σ → Option (Dispatch σ)
  | 0, _, _ => none
  | depth + 1, event, s => runHandlers (publish depth) event (s.1.subscriptions event.type) s

end Bus

end CentLedger
