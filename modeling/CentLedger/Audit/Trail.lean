import CentLedger.Json.Record
import CentLedger.Json.Writer
import CentLedger.Record.Transaction

/-!
# The audit trail

Two things are worth a line in the trail: a balance that changed, and a transaction that was completed. A record says
which entity it is about, what was done to it, and the details as JSON. The trail keeps the records with their times,
unless its sink is broken; it then refuses them.
-/

namespace CentLedger

/-- What a balance change did. -/
inductive Movement
  | credit
  | debit
  deriving DecidableEq, Repr

/-- The word for a movement. -/
def Movement.text : Movement → String
  | credit => "credit"
  | debit => "debit"

/-- A line for the audit trail. -/
inductive AuditRecord
  /-- The balance of a user changed by a signed amount, and what it is after that. -/
  | balance (user : UserId) (movement : Movement) (delta after : Cents)
  /-- A transaction was completed. -/
  | transaction (record : Transaction)
  deriving DecidableEq

namespace AuditRecord

/-- The kind of thing that a record is about. -/
def entityType : AuditRecord → String
  | balance _ _ _ _ => "balance"
  | transaction _ => "transaction"

/-- The thing that a record is about. -/
def entityId : AuditRecord → String
  | balance user _ _ _ => Error.userText user
  | transaction t => toString t.id

/-- What was done. -/
def action : AuditRecord → String
  | balance _ movement _ _ => movement.text
  | transaction t => t.kind.text

/-- The details of what was done. -/
def details : AuditRecord → Json
  | balance _ _ delta after => .obj [("balance_after", Json.ofSignedWord after), ("delta", Json.ofSignedWord delta)]
  | transaction t =>
    .obj [("amount_cents", Json.ofSignedWord t.amount), ("from_user_id", Json.ofNullable Json.ofWord t.source),
      ("status", .str t.status.text), ("to_user_id", Json.ofNullable Json.ofWord t.target)]

/-- A record as the members of a JSON object. -/
def members (r : AuditRecord) : List (String × Json) :=
  [("entity_type", .str r.entityType), ("entity_id", .str r.entityId), ("action", .str r.action),
    ("details", r.details)]

end AuditRecord

/-- A record and the time when it was taken. -/
structure AuditEntry where
  record : AuditRecord
  recordedAt : Instant
  deriving DecidableEq

/-- An entry as a JSON object. -/
def AuditEntry.toJson (e : AuditEntry) : Json :=
  .obj (e.record.members ++ [("recorded_at", Json.ofInstant e.recordedAt)])

/-- The records taken so far, in order, and whether further ones are refused. -/
structure Trail where
  entries : List AuditEntry
  broken : Bool
  deriving DecidableEq

namespace Trail

/-- A working trail without records. -/
def empty : Trail :=
  ⟨[], false⟩

/-- The refusal of a broken sink. -/
def refusal : Error :=
  .storageUnavailable "injected audit failure"

/-- Take a record. -/
def record (t : Trail) (now : Instant) (r : AuditRecord) : Except Error Unit × Trail :=
  if t.broken then (.error refusal, t) else (.ok (), { t with entries := t.entries ++ [⟨r, now⟩] })

/-- The entries about one kind of thing, or all of them. -/
def about (t : Trail) : Option String → List AuditEntry
  | none => t.entries
  | some type => t.entries.filter fun e => e.record.entityType = type

end Trail

end CentLedger
