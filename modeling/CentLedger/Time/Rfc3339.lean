import CentLedger.Money
import CentLedger.Text.Blank
import CentLedger.Time.Instant

/-!
# Written instants

`Instant.text` writes an instant in UTC in the form of RFC 3339, with `Z` and the fewest of 0, 3, 6 or 9 decimals that
are exact. `Instant.read` takes any offset, blanks around the separators, numbers without leading zeros, and decimals
after the ninth, which it drops; it refuses a missing offset, a date or time that does not exist, and a year the
calendar of the ledger does not reach.
-/

namespace CentLedger

namespace Instant

/-- The years that the ledger's clock reaches. -/
def minYear : Int := -262143
/-- The last year that the ledger's clock reaches. -/
def maxYear : Int := 262142

/-- A year as four digits, or with a sign and at least four digits when it is not of 0000 to 9999. -/
def yearText (y : Int) : List Char :=
  if 0 ≤ y ∧ y ≤ 9999 then Decimal.padded 4 y.toNat
  else (if y < 0 then '-' else '+') :: Decimal.padded 4 y.natAbs

/-- The decimals of a second, the fewest of 0, 3, 6 or 9 that are exact. -/
def fractionText (nanos : Nat) : List Char :=
  if nanos = 0 then []
  else if nanos % 1_000_000 = 0 then '.' :: Decimal.padded 3 (nanos / 1_000_000)
  else if nanos % 1000 = 0 then '.' :: Decimal.padded 6 (nanos / 1000)
  else '.' :: Decimal.padded 9 nanos

/-- The characters of an instant in UTC. -/
def chars (t : Instant) : List Char :=
  let d := t.date
  let c := t.timeOfDay
  let second := if t.nanos < 1_000_000_000 then c.second else c.second + 1
  yearText d.year ++ '-' :: Decimal.padded 2 d.month ++ '-' :: Decimal.padded 2 d.day ++
    'T' :: Decimal.padded 2 c.hour ++ ':' :: Decimal.padded 2 c.minute ++ ':' :: Decimal.padded 2 second ++
    fractionText (t.nanos % 1_000_000_000) ++ ['Z']

/-- The text of an instant in UTC. -/
def text (t : Instant) : String :=
  String.ofList t.chars

/-! ## Reading -/

/-- The value of a decimal digit. -/
def digit? (c : Char) : Option Nat :=
  if '0' ≤ c ∧ c ≤ '9' then some (c.toNat - '0'.toNat) else none

/-- At most `width` digits, added to the number read so far. -/
def readDigits : (width : Nat) → (acc : Nat) → List Char → Nat × List Char
  | 0, acc, s => (acc, s)
  | _, acc, [] => (acc, [])
  | width + 1, acc, c :: s =>
    match digit? c with
    | some d => readDigits width (acc * 10 + d) s
    | none => (acc, c :: s)

/-- A number of one to `width` digits. -/
def readNumber (width : Nat) (s : List Char) : Option (Nat × List Char) :=
  match s with
  | c :: _ => if (digit? c).isSome then some (readDigits width 0 s) else none
  | [] => none

/-- A year: up to four digits, or a sign and any number of digits. -/
def readYear (s : List Char) : Option (Int × List Char) :=
  match s with
  | '-' :: rest => (readNumber rest.length rest).map fun (n, r) => (-(n : Int), r)
  | '+' :: rest => (readNumber rest.length rest).map fun (n, r) => ((n : Int), r)
  | _ => (readNumber 4 s).map fun (n, r) => ((n : Int), r)

/-- The given character, after blanks. -/
def readMark (c : Char) (s : List Char) : Option (List Char) :=
  match trimStart s with
  | d :: rest => if d = c then some rest else none
  | [] => none

/-- The decimals of a second as nanoseconds: one to nine digits count, further ones are dropped. -/
def readFraction (s : List Char) : Option (Nat × List Char) :=
  match s with
  | '.' :: rest =>
    match readNumber 9 rest with
    | some (n, r) => some (n * Nat.pow 10 (9 - (rest.length - r.length)), r.dropWhile fun c => (digit? c).isSome)
    | none => none
  | _ => some (0, s)

/-- The letter in lower case, for ASCII letters. -/
def isLetter (lower c : Char) : Bool :=
  c.toLower = lower

/-- An offset from UTC in seconds: `Z`, `UTC`, or a sign, two digits of hours and two of minutes with any colons and
blanks between them. -/
def readOffset (s : List Char) : Option (Int × List Char) :=
  match s with
  | [] => none
  | c :: rest =>
    if isLetter 'z' c then some (0, rest)
    else if isLetter 'u' c then
      match rest with
      | t :: u :: r => if isLetter 't' t && isLetter 'c' u then some (0, r) else none
      | _ => none
    else
      let sign : Option Int := if c = '+' then some 1 else if c = '-' ∨ c = '\u2212' then some (-1) else none
      match sign, rest with
      | some sign, h1 :: h0 :: r =>
        match digit? h1, digit? h0, r.dropWhile (fun c => c = ':' || isBlank c) with
        | some h1, some h0, m1 :: m0 :: r =>
          match digit? m1, digit? m0 with
          | some m1, some m0 =>
            if m1 < 6 then some (sign * (((h1 * 10 + h0) * 3600 + (m1 * 10 + m0) * 60 : Nat) : Int), r) else none
          | _, _ => none
        | _, _, _ => none
      | _, _ => none

/-- A year lies in the reach of the ledger's clock. -/
def inReach (year : Int) : Bool :=
  minYear ≤ year && year ≤ maxYear

/-- The instant of a local date, time and offset, if they exist. -/
def ofLocal (d : Date) (hour minute second nanos : Nat) (offset : Int) : Option Instant :=
  if Calendar.Valid d ∧ inReach d.year ∧ hour < 24 ∧ minute < 60 ∧ second ≤ 60 ∧ -86400 < offset ∧ offset < 86400 then
    let whole := if second = 60 then 59 else second
    let nanos := if second = 60 then nanos + 1_000_000_000 else nanos
    let seconds := Calendar.daysOfDate d * 86400 + ((hour * 3600 + minute * 60 + whole : Nat) : Int) - offset
    if h : nanos < 1_000_000_000 ∨ (nanos < 2_000_000_000 ∧ seconds % 60 = 59) then
      let t : Instant := ⟨seconds, nanos, h⟩
      if inReach t.date.year then some t else none
    else none
  else none

/-- Read a written instant. -/
def readChars (s : List Char) : Option Instant := do
  let (year, s) ← readYear (trimStart s)
  let (month, s) ← readNumber 2 (trimStart (← readMark '-' s))
  let (day, s) ← readNumber 2 (trimStart (← readMark '-' s))
  let s ← match s with
    | c :: rest => if c = 't' ∨ c = 'T' ∨ c = ' ' then some rest else none
    | [] => none
  let (hour, s) ← readNumber 2 (trimStart s)
  let (minute, s) ← readNumber 2 (trimStart (← readMark ':' s))
  let (second, s) ← readNumber 2 (trimStart (← readMark ':' s))
  let (nanos, s) ← readFraction s
  let (offset, s) ← readOffset (trimStart s)
  if (trimStart s).isEmpty then ofLocal ⟨year, month, day⟩ hour minute second nanos offset else none

/-- Read a written instant from a text. -/
def read (s : String) : Option Instant :=
  readChars s.toList

end Instant

end CentLedger
