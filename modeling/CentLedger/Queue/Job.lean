import CentLedger.Json.Record
import CentLedger.Json.Writer
import CentLedger.Record.Transaction

/-!
# Jobs

A unit of work for the pool: one credit, debit or transfer. In JSON the member `kind` says which, and the other members
are those of that kind.
-/

namespace CentLedger

/-- A unit of work. -/
inductive Job
  | credit (user : UserId) (amount : Cents)
  | debit (user : UserId) (amount : Cents)
  | transfer (source target : UserId) (amount : Cents)
  deriving DecidableEq, Repr

namespace Job

/-- What a job does. -/
def kind : Job → Kind
  | credit _ _ => .credit
  | debit _ _ => .debit
  | transfer _ _ _ => .transfer

/-- The amount that a job books. -/
def amount : Job → Cents
  | credit _ a => a
  | debit _ a => a
  | transfer _ _ a => a

/-- The request that a job makes. -/
def request : Job → Request
  | credit user a => .credit user a
  | debit user a => .debit user a
  | transfer source target a => .transfer source target a

/-- The members of a kind of job besides its kind, in order. -/
def fields : Kind → List Json.Field
  | .credit => [⟨"user_id", .required⟩, ⟨"amount", .required⟩]
  | .debit => [⟨"user_id", .required⟩, ⟨"amount", .required⟩]
  | .transfer => [⟨"from", .required⟩, ⟨"to", .required⟩, ⟨"amount", .required⟩]

/-- A job as a JSON object. -/
def toJson (j : Job) : Json :=
  match j with
  | credit user a => .obj [("kind", .str j.kind.text), ("user_id", Json.ofWord user), ("amount", Json.ofSignedWord a)]
  | debit user a => .obj [("kind", .str j.kind.text), ("user_id", Json.ofWord user), ("amount", Json.ofSignedWord a)]
  | transfer source target a =>
    .obj [("kind", .str j.kind.text), ("from", Json.ofWord source), ("to", Json.ofWord target),
      ("amount", Json.ofSignedWord a)]

/-- A job of a kind from its slots. -/
def ofSlots? : Kind → List (Option Json) → Option Job
  | .credit, [some user, some a] => do return credit (← Json.asWord? user) (← Json.asSignedWord? a)
  | .debit, [some user, some a] => do return debit (← Json.asWord? user) (← Json.asSignedWord? a)
  | .transfer, [some source, some target, some a] => do
    return transfer (← Json.asWord? source) (← Json.asWord? target) (← Json.asSignedWord? a)
  | _, _ => none

/-- A job from a JSON value: an object with one `kind`, or an array that starts with the kind. -/
def ofJson? : Json → Option Job
  | .obj members =>
    match members.filter fun m => m.1 = "kind" with
    | [(_, .str k)] => do
      let k ← Kind.ofText? k
      ofSlots? k (← Json.slotsOfMembers (fields k) (members.filter fun m => m.1 ≠ "kind"))
    | _ => none
  | .arr (.str k :: items) => do
    let k ← Kind.ofText? k
    ofSlots? k (← Json.slotsOfItems (fields k) items)
  | _ => none

/-- A job from a JSON text. -/
def parse (s : String) : Option Job :=
  (Json.parse s).bind ofJson?

/-- The JSON text of a job. -/
def text (j : Job) : String :=
  j.toJson.text

end Job

end CentLedger
