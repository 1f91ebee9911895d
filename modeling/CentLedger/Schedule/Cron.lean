import CentLedger.Error
import CentLedger.Text.Blank
import CentLedger.Time.Rfc3339

/-!
# Schedule expressions

An expression lists seconds, minutes, hours, days of the month, months, days of the week and, optionally, years. Each
field is a comma-separated list of items, and an item is a value, a range, a name, everything, or one of these with a
step. The grammar is greedy and does not go back: it reads fields one after another and takes the first alternative
that matches, whether or not blanks stand between the fields. Only the count of words is checked before, by
`Cron.validate`.
-/

namespace CentLedger

/-- The instants that an expression selects, unit by unit; every list ascends strictly. -/
structure Cron where
  seconds : List Nat
  minutes : List Nat
  hours : List Nat
  days : List Nat
  months : List Nat
  weekdays : List Nat
  years : List Nat
  deriving DecidableEq, Repr

namespace Cron

/-! ## Units -/

/-- A unit of time: its bounds and the names of its values. -/
structure Scale where
  min : Nat
  max : Nat
  names : List (String × Nat)

/-- Seconds and minutes. -/
def sixty : Scale := ⟨0, 59, []⟩
/-- Hours. -/
def hour : Scale := ⟨0, 23, []⟩
/-- Days of the month. -/
def day : Scale := ⟨1, 31, []⟩
/-- Years. -/
def year : Scale := ⟨1970, 2100, []⟩

/-- Months, with their names and the usual three letters of each. -/
def month : Scale :=
  ⟨1, 12,
    [("jan", 1), ("january", 1), ("feb", 2), ("february", 2), ("mar", 3), ("march", 3), ("apr", 4), ("april", 4),
      ("may", 5), ("jun", 6), ("june", 6), ("jul", 7), ("july", 7), ("aug", 8), ("august", 8), ("sep", 9),
      ("september", 9), ("oct", 10), ("october", 10), ("nov", 11), ("november", 11), ("dec", 12), ("december", 12)]⟩

/-- Days of the week from Sunday on, with their names and abbreviations. -/
def weekday : Scale :=
  ⟨1, 7,
    [("sun", 1), ("sunday", 1), ("mon", 2), ("monday", 2), ("tue", 3), ("tues", 3), ("tuesday", 3), ("wed", 4),
      ("wednesday", 4), ("thu", 5), ("thurs", 5), ("thursday", 5), ("fri", 6), ("friday", 6), ("sat", 7),
      ("saturday", 7)]⟩

namespace Scale

/-- The values of a unit in order, from one to another. -/
def between (first last : Nat) : List Nat :=
  (List.range (last + 1 - first)).map (first + ·)

/-- All values of a unit. -/
def all (u : Scale) : List Nat :=
  between u.min u.max

/-- A value within the bounds. -/
def value? (u : Scale) (n : Nat) : Option Nat :=
  if u.min ≤ n ∧ n ≤ u.max then some n else none

/-- The value of a name, in letters of any case. -/
def named? (u : Scale) (name : List Char) : Option Nat :=
  (u.names.find? fun x => x.1.toList = name.map Char.toLower).map (·.2)

/-- The values of a range; it may not run backwards. -/
def range? (u : Scale) (first last : Nat) : Option (List Nat) := do
  let first ← u.value? first
  let last ← u.value? last
  if first ≤ last then some (between first last) else none

end Scale

/-! ## The grammar -/

/-- What an item selects before a step is applied. -/
inductive Base
  | all
  | point (n : Nat)
  | range (first last : Nat)
  | namedRange (first last : List Char)
  deriving DecidableEq, Repr

/-- An item of a field. -/
inductive Item
  | plain (base : Base)
  | stepped (base : Base) (step : Nat)
  | named (name : List Char)
  deriving DecidableEq, Repr

/-- The blanks that the grammar skips. -/
def isSpace (c : Char) : Bool :=
  c = ' ' || c = '\t' || c = '\r' || c = '\n'

/-- The characters after leading blanks. -/
def skipSpace (s : List Char) : List Char :=
  s.dropWhile isSpace

/-- The characters after a given one. -/
def readChar (c : Char) : List Char → Option (List Char)
  | d :: s => if d = c then some s else none
  | [] => none

/-- The largest number that the grammar takes. -/
def maxNumber : Nat := 4_294_967_295

/-- Decimal digits with blanks around them. -/
def readNumber (s : List Char) : Option (Nat × List Char) := do
  let s := skipSpace s
  let (n, rest) ← Instant.readNumber s.length s
  if n ≤ maxNumber then some (n, skipSpace rest) else none

/-- A letter of the ASCII alphabet. -/
def isLetter (c : Char) : Bool :=
  ('a' ≤ c && c ≤ 'z') || ('A' ≤ c && c ≤ 'Z')

/-- Letters with blanks around them. -/
def readName (s : List Char) : Option (List Char × List Char) :=
  let s := skipSpace s
  let name := s.takeWhile isLetter
  if name.isEmpty then none else some (name, skipSpace (s.dropWhile isLetter))

/-- Two parts with a hyphen between them. -/
def readPair {α : Type} (part : List Char → Option (α × List Char)) (s : List Char) : Option ((α × α) × List Char) := do
  let (first, s) ← part s
  let s ← readChar '-' s
  let (last, s) ← part s
  return ((first, last), s)

/-- Everything, a range, a value or a range of names: the first that matches. A question mark is another way to say
everything where `any` allows it. -/
def readBase (any : Bool) (s : List Char) : Option (Base × List Char) :=
  match (if any then readChar '?' s else none) with
  | some s => some (.all, s)
  | none =>
    match readChar '*' s with
    | some s => some (.all, s)
    | none =>
      match readPair readNumber s with
      | some ((first, last), s) => some (.range first last, s)
      | none =>
        match readNumber s with
        | some (n, s) => some (.point n, s)
        | none => (readPair readName s).map fun ((first, last), s) => (.namedRange first last, s)

/-- A base with a step, a base alone or a name: the first that matches. -/
def readItem (any : Bool) (s : List Char) : Option (Item × List Char) :=
  match readBase any s with
  | some (base, rest) =>
    match (readChar '/' rest).bind readNumber with
    | some (step, rest) => some (.stepped base step, rest)
    | none => some (.plain base, rest)
  | none => (readName s).map fun (name, rest) => (.named name, rest)

/-- Further items, each after a comma; a comma that no item follows is left unread. -/
def readMoreItems (any : Bool) : (fuel : Nat) → List Char → List Item × List Char
  | 0, s => ([], s)
  | fuel + 1, s =>
    match (readChar ',' s).bind (readItem any) with
    | some (item, rest) => let (items, rest) := readMoreItems any fuel rest; (item :: items, rest)
    | none => ([], s)

/-- The items of a field, with blanks around them. -/
def readItems (any : Bool) (s : List Char) : Option (List Item × List Char) := do
  let (item, s) ← readItem any (skipSpace s)
  let (items, s) := readMoreItems any s.length s
  return (item :: items, skipSpace s)

/-! ## Sets of values -/

/-- The values that a base selects. -/
def baseValues? (u : Scale) : Base → Option (List Nat)
  | .all => some u.all
  | .point n => (u.value? n).map fun n => [n]
  | .range first last => u.range? first last
  | .namedRange first last => do u.range? (← u.named? first) (← u.named? last)

/-- Every `step`-th value of a list, from the first on; `wait` values are skipped before. -/
def everyNth (step : Nat) : (wait : Nat) → List Nat → List Nat
  | _, [] => []
  | 0, n :: rest => n :: everyNth step (step - 1) rest
  | wait + 1, _ :: rest => everyNth step wait rest

/-- The values that an item selects; with a step, a single value stands for all from it on. -/
def itemValues? (u : Scale) : Item → Option (List Nat)
  | .plain base => baseValues? u base
  | .named name => (u.named? name).map fun n => [n]
  | .stepped base step =>
    if step = 0 then none
    else
      match base with
      | .point n => (u.value? n).map fun n => everyNth step 0 (Scale.between n u.max)
      | base => (baseValues? u base).map (everyNth step 0)

/-- The values that the items of a field select together, in order. -/
def values? (u : Scale) (items : List Item) : Option (List Nat) := do
  let sets ← items.mapM (itemValues? u)
  return u.all.filter fun n => sets.any fun set => set.contains n

/-- A field of a unit. -/
def readField (u : Scale) (any : Bool) (s : List Char) : Option (List Nat × List Char) := do
  let (items, s) ← readItems any s
  let set ← values? u items
  return (set, s)

/-- Read an expression. A year that cannot be read counts as absent, and then what stands there is left over. -/
def readChars (s : List Char) : Option Cron := do
  let (seconds, s) ← readField sixty false s
  let (minutes, s) ← readField sixty false s
  let (hours, s) ← readField hour false s
  let (days, s) ← readField day true s
  let (months, s) ← readField month false s
  let (weekdays, s) ← readField weekday true s
  let (years, s) := (readField year false s).getD (year.all, s)
  if s.isEmpty then some ⟨seconds, minutes, hours, days, months, weekdays, years⟩ else none

/-- Read an expression from a text. -/
def parse (s : String) : Option Cron :=
  readChars s.toList

/-- The first rule that an expression breaks: some word, then six or seven of them, then the grammar. -/
def validate (expr : String) : Except Error Unit :=
  let n := wordCount expr.toList
  if n = 0 then .error (.invalidSchedule "schedule is required")
  else if n ≠ 6 ∧ n ≠ 7 then
    .error (.invalidSchedule ("expected 6 or 7 fields, got " ++ toString n ++ ": " ++ expr))
  else
    match parse expr with
    | some _ => .ok ()
    | none => .error (.invalidSchedule (expr ++ ": ParseSchedule"))

end Cron

end CentLedger
