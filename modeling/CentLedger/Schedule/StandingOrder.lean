import CentLedger.Queue.Job
import CentLedger.Schedule.Cron

/-!
# Standing orders

A transaction that recurs: what to book, and the expression that says when. A valid standing order has an identifier
that is not blank, an expression that can be read, and the shape of a transaction; it then always makes a job.
-/

namespace CentLedger

/-- A recurring transaction. -/
structure StandingOrder where
  id : String
  kind : Kind
  source : Option UserId
  target : Option UserId
  amount : Cents
  schedule : String
  metadata : Metadata
  deriving DecidableEq

namespace StandingOrder

/-- A recurring credit. -/
def credit (id : String) (user : UserId) (amount : Cents) (schedule : String) : StandingOrder :=
  ⟨id, .credit, none, some user, amount, schedule, .empty⟩

/-- A recurring debit. -/
def debit (id : String) (user : UserId) (amount : Cents) (schedule : String) : StandingOrder :=
  ⟨id, .debit, some user, none, amount, schedule, .empty⟩

/-- A recurring transfer. -/
def transfer (id : String) (source target : UserId) (amount : Cents) (schedule : String) : StandingOrder :=
  ⟨id, .transfer, some source, some target, amount, schedule, .empty⟩

/-- An account that a standing order names on one side, or the error that names the side. -/
def side (o : StandingOrder) (name : String) : Option UserId → Except Error UserId
  | some u => .ok u
  | none => .error (.invalidTransaction (o.kind.text ++ " requires " ++ name ++ "_user_id"))

/-- The job of one occurrence. -/
def toJob (o : StandingOrder) : Except Error Job :=
  match o.kind with
  | .credit => do return .credit (← o.side "to" o.target) o.amount
  | .debit => do return .debit (← o.side "from" o.source) o.amount
  | .transfer => do return .transfer (← o.side "from" o.source) (← o.side "to" o.target) o.amount

/-- The first rule that a standing order breaks: identifier, expression, amount, shape. -/
def validate (o : StandingOrder) : Except Error Unit :=
  if !hasWord o.id.toList then .error (.invalidSchedule "schedule id is required")
  else
    match Cron.validate o.schedule with
    | .error e => .error e
    | .ok () => checkShape o.kind o.source o.target o.amount

/-- The fields of a standing order, in order. -/
def fields : List Json.Field :=
  [⟨"id", .required⟩, ⟨"type", .required⟩, ⟨"from_user_id", .nullable⟩, ⟨"to_user_id", .nullable⟩,
    ⟨"amount_cents", .required⟩, ⟨"schedule", .required⟩, ⟨"metadata", .defaulted⟩]

/-- A standing order as a JSON object. -/
def toJson (o : StandingOrder) : Json :=
  .obj [("id", .str o.id), ("type", .str o.kind.text), ("from_user_id", Json.ofNullable Json.ofWord o.source),
    ("to_user_id", Json.ofNullable Json.ofWord o.target), ("amount_cents", Json.ofSignedWord o.amount),
    ("schedule", .str o.schedule), ("metadata", o.metadata.toJson)]

/-- A standing order from its slots. -/
def ofSlots? : List (Option Json) → Option StandingOrder
  | [some id, some kind, some source, some target, some amount, some schedule, metadata] => do
    return {
      id := ← Json.asString? id
      kind := ← Json.asWordOf? Kind.ofText? kind
      source := ← Json.asNullable? Json.asWord? source
      target := ← Json.asNullable? Json.asWord? target
      amount := ← Json.asSignedWord? amount
      schedule := ← Json.asString? schedule
      metadata := ← match metadata with
        | some m => Json.asMetadata? m
        | none => some .empty }
  | _ => none

/-- A standing order from a JSON value. -/
def ofJson? (j : Json) : Option StandingOrder :=
  (Json.slots fields j).bind ofSlots?

/-- A standing order from a JSON text. -/
def parse (s : String) : Option StandingOrder :=
  (Json.parseSlots fields s).bind ofSlots?

/-- The JSON text of a standing order. -/
def text (o : StandingOrder) : String :=
  o.toJson.text

end StandingOrder

end CentLedger
