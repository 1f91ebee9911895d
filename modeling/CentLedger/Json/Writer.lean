import CentLedger.Json.Double
import CentLedger.Json.Value

/-!
# Writing JSON

The compact text of a value: no blanks, members in the order of the value, and an escape only where JSON asks for one.
-/

namespace CentLedger

namespace Json

mutual

/-- The compact text of a value. -/
def write : Json → List Char
  | null => ['n', 'u', 'l', 'l']
  | bool true => ['t', 'r', 'u', 'e']
  | bool false => ['f', 'a', 'l', 's', 'e']
  | int i => writeInt i
  | double bits => Double.write bits
  | str s => writeString s
  | arr items => '[' :: writeItems items
  | obj members => '\x7b' :: writeMembers members

/-- The items of an array up to its closing bracket. -/
def writeItems : List Json → List Char
  | [] => [']']
  | x :: rest => write x ++ writeMoreItems rest

/-- The items of an array after the first, up to its closing bracket. -/
def writeMoreItems : List Json → List Char
  | [] => [']']
  | x :: rest => ',' :: write x ++ writeMoreItems rest

/-- The members of an object up to its closing brace. -/
def writeMembers : List (String × Json) → List Char
  | [] => ['\x7d']
  | (k, v) :: rest => writeString k ++ ':' :: write v ++ writeMoreMembers rest

/-- The members of an object after the first, up to its closing brace. -/
def writeMoreMembers : List (String × Json) → List Char
  | [] => ['\x7d']
  | (k, v) :: rest => ',' :: writeString k ++ ':' :: write v ++ writeMoreMembers rest

end

/-- The compact text of a value, as a string. -/
def text (j : Json) : String :=
  String.ofList j.write

end Json

end CentLedger
