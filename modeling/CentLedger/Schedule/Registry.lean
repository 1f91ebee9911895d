import CentLedger.Event.Event
import CentLedger.Schedule.Occurrence
import CentLedger.Schedule.StandingOrder

/-!
# The registry of standing orders

A standing order that is registered is valid, and its identifier is unique. What fires it is a trigger, which has a copy
of the order of its own and counts its occurrences; the registry knows it by its number. What is due occurs once, however
many occurrences were missed, and each occurrence makes one event.
-/

namespace CentLedger

/-- The number of a trigger, counted in the order of registration. -/
abbrev TriggerId := Nat

/-- What fires a standing order. -/
structure Trigger where
  id : TriggerId
  /-- The order as it was when the trigger was made. -/
  order : StandingOrder
  fireCount : Nat
  /-- The Unix time in milliseconds of the last occurrence, zero if there was none. -/
  lastMillis : Int
  cron : Cron
  /-- The occurrence that is next due; without one, the order never occurs again. -/
  next : Option Instant
  /-- When the order was last found due. -/
  lastWake : Option Instant

namespace Trigger

/-- A trigger that is made at some time. -/
def create (id : TriggerId) (order : StandingOrder) (cron : Cron) (now : Instant) : Trigger :=
  ⟨id, order, 0, 0, cron, cron.next? now, none⟩

/-- The order is due. -/
def isDue (t : Trigger) (now : Instant) : Bool :=
  match t.next with
  | none => false
  | some due =>
    due ≤ now &&
      match t.lastWake with
      | none => true
      | some last => last ≤ due

/-- The event of an occurrence. -/
def event (t : Trigger) (now : Instant) : Event :=
  let id := Event.identifier now t.fireCount
  let event := Event.create id Event.scheduledType t.order.id t.order.toJson.canonical now
  (event.withMetadata "source" "scheduler").withMetadata "fire_count" (toString t.fireCount)

/-- The trigger after an occurrence, and its event. -/
def fire (t : Trigger) (now : Instant) : Event × Trigger :=
  let t := { t with
    fireCount := t.fireCount + 1
    lastMillis := now.unixMillis
    next := t.cron.next? now
    lastWake := some now }
  (t.event now, t)

/-- The time of the last occurrence. -/
def lastFiredAt (t : Trigger) : Option Instant :=
  if 0 < t.lastMillis then some (.ofUnixMillis t.lastMillis) else none

end Trigger

/-- A standing order that is registered. -/
structure Entry where
  order : StandingOrder
  trigger : TriggerId

/-- What a caller is shown of a standing order. -/
structure Listing where
  order : StandingOrder
  fireCount : Nat
  lastFiredAt : Option Instant
  deriving DecidableEq

/-- A listing as a JSON object. -/
def Listing.toJson (l : Listing) : Json :=
  .obj [("definition", l.order.toJson), ("fire_count", .int l.fireCount),
    ("last_fired_at", Json.ofNullable Json.ofInstant l.lastFiredAt)]

/-- The registered standing orders, in the order of their identifiers, and the triggers, in the order of their making. -/
structure Registry where
  entries : List (String × Entry)
  triggers : List Trigger
  nextTrigger : TriggerId

namespace Registry

/-- No standing orders. -/
def empty : Registry :=
  ⟨[], [], 0⟩

/-- The entry of an identifier. -/
def entry? (r : Registry) (id : String) : Option Entry :=
  (r.entries.find? fun e => e.1 = id).map (·.2)

/-- The trigger with a number, unless it was removed. -/
def trigger? (r : Registry) (id : TriggerId) : Option Trigger :=
  r.triggers.find? fun t => t.id = id

/-- An entry with what its trigger has counted. -/
def listing (r : Registry) (e : Entry) : Listing :=
  match r.trigger? e.trigger with
  | none => ⟨e.order, 0, none⟩
  | some t => ⟨e.order, t.fireCount, t.lastFiredAt⟩

/-- The standing order of an identifier. -/
def get? (r : Registry) (id : String) : Option Listing :=
  (r.entry? id).map r.listing

/-- All standing orders, in the order of their identifiers. -/
def list (r : Registry) : List Listing :=
  r.entries.map fun e => r.listing e.2

/-- Register a standing order. -/
def register (r : Registry) (order : StandingOrder) (now : Instant) : Except Error Unit × Registry :=
  match order.validate with
  | .error e => (.error e, r)
  | .ok () =>
    match r.entry? order.id with
    | some _ => (.error (.invalidSchedule ("schedule " ++ order.id ++ " already registered")), r)
    | none =>
      match Cron.parse order.schedule with
      | none => (.error (.invalidSchedule (order.schedule ++ ": ParseSchedule")), r)
      | some cron =>
        (.ok (), {
          entries := Json.insertMember order.id ⟨order, r.nextTrigger⟩ r.entries
          triggers := r.triggers ++ [.create r.nextTrigger order cron now]
          nextTrigger := r.nextTrigger + 1 })

/-- Remove a standing order and its trigger. -/
def unregister (r : Registry) (id : String) : Except Error StandingOrder × Registry :=
  match r.entry? id with
  | none => (.error (.scheduleNotFound id), r)
  | some e =>
    (.ok e.order, { r with
      entries := r.entries.filter fun x => x.1 ≠ id
      triggers := r.triggers.filter fun t => t.id ≠ e.trigger })

/-- Change the expression of a standing order; its occurrences are counted anew. -/
def updateSchedule (r : Registry) (id schedule : String) (now : Instant) : Except Error Unit × Registry :=
  match Cron.validate schedule with
  | .error e => (.error e, r)
  | .ok () =>
    match r.unregister id with
    | (.error e, r) => (.error e, r)
    | (.ok order, r) => r.register { order with schedule := schedule } now

/-- Let a trigger fire: its event, and the registry after it. -/
def fire (r : Registry) (id : TriggerId) (now : Instant) : Option Event × Registry :=
  match r.trigger? id with
  | none => (none, r)
  | some t =>
    let (event, t) := t.fire now
    (some event, { r with triggers := r.triggers.map fun u => if u.id = id then t else u })

/-- A trigger is due. -/
def isDue (r : Registry) (id : TriggerId) (now : Instant) : Bool :=
  match r.trigger? id with
  | none => false
  | some t => t.isDue now

/-- Let those triggers fire that are due, one after another: their events, and the registry after them. -/
def fireEach (now : Instant) : List TriggerId → Registry → List Event × Registry
  | [], r => ([], r)
  | id :: rest, r =>
    if r.isDue id now then
      let (event, r) := r.fire id now
      let (events, r) := fireEach now rest r
      (event.toList ++ events, r)
    else fireEach now rest r

/-- Let everything that is due occur, in the order of identifiers. -/
def fireDue (r : Registry) (now : Instant) : List Event × Registry :=
  fireEach now (r.entries.map fun e => e.2.trigger) r

end Registry

/-- The clockwork that looks for what is due, twice a second. -/
structure Ticker where
  started : Bool
  /-- It was told to stop, which it notices only after its next look. -/
  stopping : Bool
  /-- Its next look, on the clock of timers. -/
  nextWake : Option Nat
  deriving DecidableEq, Repr

namespace Ticker

/-- A ticker that was not started. -/
def idle : Ticker :=
  ⟨false, false, none⟩

/-- Milliseconds between two looks. -/
def period : Nat := 500

/-- Start the ticker, which can be done once. One that was told to stop before never looks. -/
def start (t : Ticker) (elapsed : Nat) : Except Error Unit × Ticker :=
  if t.started then (.error (.scheduler "StartScheduler"), t)
  else (.ok (), { t with started := true, nextWake := if t.stopping then none else some (elapsed + period) })

/-- Tell the ticker to stop. -/
def stop (t : Ticker) : Ticker :=
  { t with stopping := true }

/-- The ticker looks now. -/
def isDue (t : Ticker) (elapsed : Nat) : Bool :=
  match t.nextWake with
  | none => false
  | some w => w ≤ elapsed

/-- The ticker after a look. -/
def afterWake (t : Ticker) (elapsed : Nat) : Ticker :=
  { t with nextWake := if t.stopping then none else some (elapsed + period) }

end Ticker

end CentLedger
