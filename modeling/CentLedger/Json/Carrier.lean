import CentLedger.Json.Reader

/-!
# Values carried as texts

A free-form value may stand in a text as another text: an object whose first key is `Json.carrierKey` is a carrier, and
stands for the value that its only member writes. `Json.reveal` puts what is carried in the place of its carriers, and
again what that carries. Behind another key, the key of carriers is a key like any other.
-/

namespace CentLedger

namespace Json

/-- The first key of a carrier. -/
def carrierKey : String := "$serde_json::private::RawValue"

/-- The value is a carrier. -/
def isCarrier : Json → Bool
  | obj ((key, _) :: _) => key = carrierKey
  | _ => false

/-- The text in a carrier, if there is nothing else in it. -/
def carried? : List (String × Json) → Option String
  | [(_, str s)] => some s
  | _ => none

mutual

/-- The value with what is read of its carriers in their places. -/
def uncarry (read : String → Option Json) : Json → Option Json
  | arr items => (uncarryItems read items).map arr
  | obj members =>
    if (obj members).isCarrier then (carried? members).bind read else (uncarryMembers read members).map obj
  | other => some other

/-- `uncarry` on each item. -/
def uncarryItems (read : String → Option Json) : List Json → Option (List Json)
  | [] => some []
  | x :: rest => do return (← uncarry read x) :: (← uncarryItems read rest)

/-- `uncarry` on the value of each member. -/
def uncarryMembers (read : String → Option Json) : List (String × Json) → Option (List (String × Json))
  | [] => some []
  | (k, v) :: rest => do return (k, ← uncarry read v) :: (← uncarryMembers read rest)

end

/-- The value that a value stands for, where texts are carried in texts at most so many levels deep. -/
def reveal : (levels : Nat) → Json → Option Json
  | 0 => uncarry fun _ => none
  | levels + 1 => uncarry fun s => (parse s).bind (reveal levels)

end Json

end CentLedger
