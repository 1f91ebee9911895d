import CentLedger.Json.Carrier
import CentLedger.Json.Record
import CentLedger.Json.Writer

/-!
# Domain events

What the ledger tells the rest of a system: a type, the thing it is about, free-form data and metadata, and a time. An
event is written as a JSON object and read back from any JSON text of its shape; what carriers inside the data carry is
put in their places, objects inside the data keep of a repeated key the last member, and their keys are sorted.
-/

namespace CentLedger

/-- A domain event. -/
structure Event where
  id : String
  type : String
  aggregateId : String
  version : UInt32
  data : Json
  metadata : Metadata
  timestamp : Instant

namespace Event

/-- The type of the event that a standing order publishes when it is due. -/
def scheduledType : String := "transaction.scheduled"

/-- The alphabet of generated identifiers: digits and capitals without those that are easily confused. -/
def identifierAlphabet : List Char :=
  "0123456789ABCDEFGHJKMNPQRSTVWXYZ".toList

/-- The digits of a number in the identifier alphabet, up to a width. -/
def identifierDigits : (width : Nat) → (n : Nat) → List Char
  | 0, _ => []
  | width + 1, n => identifierDigits width (n / 32) ++ [identifierAlphabet.getD (n % 32) '0']

/-- A generated identifier: 26 characters that sort by time, from the milliseconds of the clock and 80 bits of
chance. -/
def identifier (now : Instant) (chance : Nat) : String :=
  let bits := Nat.pow 2 80
  String.ofList (identifierDigits 26 (now.unixMillis.toNat % Nat.pow 2 48 * bits + chance % bits))

/-- A new event of the first version, without metadata. -/
def create (id type aggregateId : String) (data : Json) (now : Instant) : Event :=
  ⟨id, type, aggregateId, 1, data, .empty, now⟩

/-- An event with one more metadata entry. -/
def withMetadata (e : Event) (key value : String) : Event :=
  { e with metadata := e.metadata.insert key value }

/-- The fields of an event, in order. -/
def fields : List Json.Field :=
  [⟨"id", .required⟩, ⟨"type", .required⟩, ⟨"aggregate_id", .required⟩, ⟨"version", .required⟩, ⟨"data", .required⟩,
    ⟨"metadata", .defaulted⟩, ⟨"timestamp", .required⟩]

/-- An event as a JSON object. -/
def toJson (e : Event) : Json :=
  .obj [("id", .str e.id), ("type", .str e.type), ("aggregate_id", .str e.aggregateId),
    ("version", .int e.version.toNat), ("data", e.data), ("metadata", e.metadata.toJson),
    ("timestamp", Json.ofInstant e.timestamp)]

/-- An event from its slots; texts are carried in its data at most so many levels deep. -/
def ofSlots? (levels : Nat) : List (Option Json) → Option Event
  | [some id, some type, some aggregate, some version, some data, metadata, some timestamp] => do
    return {
      id := ← Json.asString? id
      type := ← Json.asString? type
      aggregateId := ← Json.asString? aggregate
      version := UInt32.ofNat (← Json.asNatBelow? UInt32.size version)
      data := (← data.reveal levels).canonical
      metadata := ← match metadata with
        | some m => Json.asMetadata? m
        | none => some .empty
      timestamp := ← Json.asInstant? timestamp }
  | _ => none

/-- An event from a JSON text. A carried text is shorter than the text it stands in, so there are never more levels than
characters. -/
def parse (s : String) : Option Event :=
  (Json.parseSlots fields s).bind (ofSlots? s.length)

/-- The JSON text of an event. -/
def text (e : Event) : String :=
  e.toJson.text

end Event

end CentLedger
