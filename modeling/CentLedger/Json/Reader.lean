import CentLedger.Json.Double
import CentLedger.Json.Value
import CentLedger.Time.Rfc3339

/-!
# Reading JSON

A reader takes characters and gives a value with the characters after it. The grammar is strict: no leading zeros, no
trailing commas, no comments, no unpaired surrogates, and a bound on the nesting. A value that nobody asks for is
skipped by a `lenient` reading, which keeps the grammar but lets an unpaired surrogate, in a string or in a key, or a
double that is too large pass.
-/

namespace CentLedger

namespace Json

/-- A reader: the value and the characters after it, or nothing. -/
abbrev Read (α : Type) := List Char → Option (α × List Char)

/-- The deepest nesting of arrays and objects that is read. -/
def maxDepth : Nat := 127

/-- The blanks of JSON. -/
def isBlank (c : Char) : Bool :=
  c = ' ' || c = '\n' || c = '\t' || c = '\r'

/-- The characters after leading blanks. -/
def skipBlanks (s : List Char) : List Char :=
  s.dropWhile isBlank

/-- The characters after a given word. -/
def skipWord : List Char → List Char → Option (List Char)
  | [], s => some s
  | c :: word, d :: s => if c = d then skipWord word s else none
  | _ :: _, [] => none

/-! ## Strings -/

/-- The value of a hexadecimal digit. -/
def hexValue? (c : Char) : Option Nat :=
  if '0' ≤ c ∧ c ≤ '9' then some (c.toNat - '0'.toNat)
  else if 'a' ≤ c ∧ c ≤ 'f' then some (c.toNat - 'a'.toNat + 10)
  else if 'A' ≤ c ∧ c ≤ 'F' then some (c.toNat - 'A'.toNat + 10)
  else none

/-- The value of four hexadecimal digits. -/
def hex4? (a b c d : Char) : Option Nat := do
  let a ← hexValue? a
  let b ← hexValue? b
  let c ← hexValue? c
  let d ← hexValue? d
  return ((a * 16 + b) * 16 + c) * 16 + d

/-- The character after a backslash that stands for one character. -/
def simpleEscape? (c : Char) : Option Char :=
  if c = '"' then some '"'
  else if c = '\\' then some '\\'
  else if c = '/' then some '/'
  else if c = 'b' then some '\x08'
  else if c = 'f' then some '\x0c'
  else if c = 'n' then some '\n'
  else if c = 'r' then some '\r'
  else if c = 't' then some '\t'
  else none

/-- A unit that opens a surrogate pair. -/
def isHighSurrogate (n : Nat) : Bool := 0xD800 ≤ n && n ≤ 0xDBFF

/-- A unit that closes a surrogate pair. -/
def isLowSurrogate (n : Nat) : Bool := 0xDC00 ≤ n && n ≤ 0xDFFF

/-- The characters of a string up to its closing quote. -/
def readStringBody (lenient : Bool) : Read (List Char)
  | [] => none
  | '"' :: s => some ([], s)
  | '\\' :: 'u' :: a :: b :: c :: d :: s =>
    match hex4? a b c d with
    | none => none
    | some n =>
      if isHighSurrogate n && !lenient then
        match s with
        | '\\' :: 'u' :: e :: f :: g :: h :: s =>
          match hex4? e f g h with
          | some m =>
            if isLowSurrogate m then
              (readStringBody lenient s).map fun (t, r) =>
                (Char.ofNat (0x10000 + (n - 0xD800) * 1024 + (m - 0xDC00)) :: t, r)
            else none
          | none => none
        | _ => none
      else if isLowSurrogate n && !lenient then none
      else (readStringBody lenient s).map fun (t, r) => (Char.ofNat n :: t, r)
  | '\\' :: c :: s =>
    match simpleEscape? c with
    | some c => (readStringBody lenient s).map fun (t, r) => (c :: t, r)
    | none => none
  | c :: s =>
    if c.toNat < 32 ∨ c = '\\' then none
    else (readStringBody lenient s).map fun (t, r) => (c :: t, r)

/-- A string from its opening quote on. -/
def readString (lenient : Bool) : Read String
  | '"' :: s => (readStringBody lenient s).map fun (t, r) => (String.ofList t, r)
  | _ => none

/-! ## Numbers -/

/-- The leading decimal digits, and the characters after them. -/
def spanDigits : List Char → List Nat × List Char
  | [] => ([], [])
  | c :: s =>
    match Instant.digit? c with
    | some d => let (ds, r) := spanDigits s; (d :: ds, r)
    | none => ([], c :: s)

/-- The number that decimal digits write. -/
def ofDigits (ds : List Nat) : Nat :=
  ds.foldl (fun n d => n * 10 + d) 0

/-- The digits before the point: no leading zero. -/
def readWhole (s : List Char) : Option (List Nat × List Char) :=
  match spanDigits s with
  | ([], _) => none
  | (0 :: _ :: _, _) => none
  | (ds, r) => some (ds, r)

/-- The digits after the point, if there is one. -/
def readFraction : List Char → Option (Option (List Nat) × List Char)
  | '.' :: s =>
    match spanDigits s with
    | ([], _) => none
    | (ds, r) => some (some ds, r)
  | s => some (none, s)

/-- The exponent, if there is one. -/
def readExponent : List Char → Option (Option Int × List Char)
  | [] => some (none, [])
  | c :: s =>
    if c = 'e' ∨ c = 'E' then
      let (negative, s) := match s with
        | '+' :: r => (false, r)
        | '-' :: r => (true, r)
        | r => (false, r)
      match spanDigits s with
      | ([], _) => none
      | (ds, r) => some (some (if negative then -(ofDigits ds : Int) else ofDigits ds), r)
    else some (none, c :: s)

/-- The value of a number: an integer where it has neither fraction nor exponent and fits in 64 bits with or without a
sign; minus zero is a double. -/
def numberValue (lenient negative : Bool) (whole : List Nat) (fraction : Option (List Nat)) (exponent : Option Int) :
    Option Json :=
  let n := ofDigits whole
  let asDouble :=
    match Double.ofDigits negative whole (fraction.getD []) (exponent.getD 0) with
    | some bits => some (double bits)
    | none => if lenient then some null else none
  match fraction, exponent with
  | none, none =>
    if negative then (if 0 < n ∧ n ≤ Int64.minValue.toInt.natAbs then some (int (-(n : Int))) else asDouble)
    else if n < UInt64.size then some (int n)
    else asDouble
  | _, _ => asDouble

/-- A number. -/
def readNumber (lenient : Bool) (s : List Char) : Option (Json × List Char) := do
  let (negative, s) := match s with
    | '-' :: r => (true, r)
    | r => (false, r)
  let (whole, s) ← readWhole s
  let (fraction, s) ← readFraction s
  let (exponent, s) ← readExponent s
  let v ← numberValue lenient negative whole fraction exponent
  return (v, s)

/-! ## Arrays and objects -/

/-- One or more items with commas between them, up to the closing character. -/
def readSeries {α : Type} (item : Read α) (close : Char) : (fuel : Nat) → Read (List α)
  | 0, _ => none
  | fuel + 1, s =>
    match item s with
    | none => none
    | some (x, s) =>
      match skipBlanks s with
      | [] => none
      | c :: s =>
        if c = ',' then (readSeries item close fuel (skipBlanks s)).map fun (xs, r) => (x :: xs, r)
        else if c = close then some ([x], s)
        else none

/-- Items with commas between them, up to the closing character. -/
def readGroup {α : Type} (item : Read α) (close : Char) (s : List Char) : Option (List α × List Char) :=
  match skipBlanks s with
  | [] => none
  | c :: r => if c = close then some ([], r) else readSeries item close (r.length + 1) (c :: r)

/-- A key, a colon, and what follows it by a reader that may look at the key. -/
def readMember {α : Type} (lenient : Bool) (value : String → Read α) : Read (String × α) := fun s =>
  match readString lenient s with
  | none => none
  | some (k, s) =>
    match skipBlanks s with
    | ':' :: s => (value k (skipBlanks s)).map fun (v, r) => ((k, v), r)
    | _ => none

/-- A value, nested at most `depth` deep. -/
def readValue (lenient : Bool) : (depth : Nat) → Read Json
  | _, [] => none
  | depth, c :: s =>
    if c = 'n' then (skipWord ['u', 'l', 'l'] s).map fun r => (null, r)
    else if c = 't' then (skipWord ['r', 'u', 'e'] s).map fun r => (bool true, r)
    else if c = 'f' then (skipWord ['a', 'l', 's', 'e'] s).map fun r => (bool false, r)
    else if c = '"' then (readString lenient (c :: s)).map fun (t, r) => (str t, r)
    else if c = '[' then
      match depth with
      | 0 => none
      | depth + 1 => (readGroup (readValue lenient depth) ']' s).map fun (xs, r) => (arr xs, r)
    else if c = '\x7b' then
      match depth with
      | 0 => none
      | depth + 1 =>
        (readGroup (readMember lenient fun _ => readValue lenient depth) '\x7d' s).map fun (ms, r) => (obj ms, r)
    else readNumber lenient (c :: s)

/-- The value of a whole text: blanks around it, and nothing after it. -/
def readAll {α : Type} (value : Read α) (s : List Char) : Option α :=
  match value (skipBlanks s) with
  | some (v, r) => if (skipBlanks r).isEmpty then some v else none
  | none => none

/-- The value that a text writes. -/
def parse (s : String) : Option Json :=
  readAll (readValue false maxDepth) s.toList

/-- Skip a value of any depth. -/
def skipValue : Read Unit := fun s =>
  (readValue true s.length s).map fun (_, r) => ((), r)

end Json

end CentLedger
