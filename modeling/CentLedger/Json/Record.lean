import CentLedger.Json.Metadata
import CentLedger.Json.Reader
import CentLedger.Record.Status

/-!
# Records in JSON

A record type lists its fields in order. It is read from an object, where unknown members are skipped and a repeated
known one is an error, or from an array that holds the values in order. Either way the outcome is one slot for each
field, empty where a field with a default was left out.
-/

namespace CentLedger

namespace Json

/-- What happens when a field is left out. -/
inductive Presence
  /-- The record cannot be read. -/
  | required
  /-- An object may leave it out; it is then null. -/
  | nullable
  /-- It may be left out; the record then takes its default. -/
  | defaulted
  deriving DecidableEq, Repr

/-- A field of a record type. -/
structure Field where
  name : String
  presence : Presence
  deriving DecidableEq, Repr

/-- The slots of a record, read from the members of an object. -/
def slotsOfMembers (fields : List Field) (members : List (String × Json)) : Option (List (Option Json)) :=
  fields.mapM fun f =>
    match members.filter fun m => m.1 = f.name with
    | [] =>
      match f.presence with
      | .required => none
      | .nullable => some (some null)
      | .defaulted => some none
    | [m] => some (some m.2)
    | _ => none

/-- The slots of a record, read from the items of an array. -/
def slotsOfItems : List Field → List Json → Option (List (Option Json))
  | [], [] => some []
  | [], _ :: _ => none
  | f :: fields, [] => if f.presence = .defaulted then (slotsOfItems fields []).map (none :: ·) else none
  | _ :: fields, x :: items => (slotsOfItems fields items).map (some x :: ·)

/-- The slots of a record, read from a value. -/
def slots (fields : List Field) : Json → Option (List (Option Json))
  | obj members => slotsOfMembers fields members
  | arr items => slotsOfItems fields items
  | _ => none

/-- A member whose value is read if its key is that of a field, and skipped otherwise. -/
def readKnownMember (fields : List Field) : Read (String × Option Json) :=
  readMember false fun k s =>
    if fields.any fun f => f.name = k then (readValue false (maxDepth - 1) s).map fun (v, r) => (some v, r)
    else (skipValue s).map fun (_, r) => (none, r)

/-- The slots of a record, read from characters. -/
def readSlots (fields : List Field) : Read (List (Option Json))
  | [] => none
  | c :: s =>
    if c = '\x7b' then do
      let (members, r) ← readGroup (readKnownMember fields) '\x7d' s
      let slots ← slotsOfMembers fields (members.filterMap fun m => m.2.map fun v => (m.1, v))
      return (slots, r)
    else if c = '[' then do
      let (items, r) ← readGroup (readValue false (maxDepth - 1)) ']' s
      let slots ← slotsOfItems fields items
      return (slots, r)
    else none

/-- The slots of a record, read from a whole text. -/
def parseSlots (fields : List Field) (s : String) : Option (List (Option Json)) :=
  readAll (readSlots fields) s.toList

/-! ## Values of fields -/

/-- A string. -/
def asString? : Json → Option String
  | str s => some s
  | _ => none

/-- An integer. -/
def asInt? : Json → Option Int
  | int i => some i
  | _ => none

/-- A natural number below a bound. -/
def asNatBelow? (bound : Nat) : Json → Option Nat
  | int i => if 0 ≤ i ∧ i < bound then some i.toNat else none
  | _ => none

/-- An unsigned 64-bit word. -/
def asWord? (j : Json) : Option UInt64 :=
  (asNatBelow? UInt64.size j).map UInt64.ofNat

/-- A signed 64-bit word. -/
def asSignedWord? : Json → Option Int64
  | int i => if Int64.minValue.toInt ≤ i ∧ i ≤ Int64.maxValue.toInt then some (Int64.ofInt i) else none
  | _ => none

/-- Null, or a value of another reading. -/
def asNullable? {α : Type} (value : Json → Option α) : Json → Option (Option α)
  | null => some none
  | j => (value j).map some

/-- An instant. -/
def asInstant? : Json → Option Instant
  | str s => Instant.read s
  | _ => none

/-- A word of a fixed vocabulary: the word itself, or an object with the word as its only key and null as its value. -/
def asWordOf? {α : Type} (ofText? : String → Option α) : Json → Option α
  | str s => ofText? s
  | obj [(s, null)] => ofText? s
  | _ => none

/-- An object whose values are all strings. -/
def asMetadata? : Json → Option Metadata
  | obj members => (members.mapM fun m => (asString? m.2).map fun v => (m.1, v)).map Metadata.ofList
  | _ => none

/-- A word in JSON. -/
def ofWord (w : UInt64) : Json := int w.toNat

/-- A signed word in JSON. -/
def ofSignedWord (w : Int64) : Json := int w.toInt

/-- A value or null. -/
def ofNullable {α : Type} (value : α → Json) : Option α → Json
  | none => null
  | some a => value a

/-- An instant in JSON. -/
def ofInstant (t : Instant) : Json := str t.text

end Json

end CentLedger
