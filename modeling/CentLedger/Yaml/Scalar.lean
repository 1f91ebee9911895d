import CentLedger.Json.Reader
import CentLedger.Yaml.Cursor

/-!
# YAML scalars

A scalar is plain, quoted once, quoted twice, or a block of lines. A plain or quoted scalar may run over several
lines: one line break is then a space, and each further one a line feed. Whether a scalar was plain is kept, because
only a plain one can stand for a number, a truth value or nothing; so is its tag, because a tag can say that it stands
for nothing.
-/

namespace CentLedger

namespace Yaml

/-- A scalar: its text, whether it was written without quotes, and its tag. -/
structure Scalar where
  plain : Bool
  text : String
  tag : Option String := none
  deriving DecidableEq, Repr

/-- A scalar that was read: the scalar, whether it ended on the line where it began, and the place after it. -/
structure ReadScalar where
  scalar : Scalar
  oneLine : Bool
  next : Cursor

/-- The characters that a number of line breaks between two words stands for. -/
def fold (breaks : Nat) : List Char :=
  if breaks = 1 then [' '] else List.replicate (breaks - 1) '\n'

/-- White space between words: the blanks before the first break, the number of breaks, and the place after it all. -/
def readWhite : (fuel : Nat) → Cursor → List Char × Nat × Cursor
  | 0, cur => ([], 0, cur)
  | fuel + 1, cur =>
    match cur.rest with
    | [] => ([], 0, cur)
    | c :: rest =>
      if c = '\n' then
        let (_, breaks, cur) := readWhite fuel (Cursor.nextLine rest)
        ([], breaks + 1, cur)
      else if isBlankChar c then
        let (blanks, breaks, cur) := readWhite fuel ⟨rest, cur.column + 1, cur.fresh⟩
        (c :: blanks, breaks, cur)
      else ([], 0, cur)

/-! ## Plain scalars -/

/-- The characters that end a plain scalar within a flow collection. -/
def isFlowIndicator (c : Char) : Bool :=
  c = ',' || c = '[' || c = ']' || c = '\x7b' || c = '\x7d'

/-- A plain scalar may begin with this character, given what follows it. -/
def startsPlain (flow : Bool) (c : Char) (rest : List Char) : Bool :=
  if c = '-' then !atGap rest
  else if c = '?' || c = ':' then !flow && !atGap rest
  else !isFlowIndicator c && !isBlankChar c && c ≠ '\n' && !("#&*!|>'\"%@`".toList.contains c)

/-- Within a flow collection, a colon may not stand right before this. -/
def clashesWithColon : List Char → Bool
  | [] => false
  | c :: _ => isFlowIndicator c || c = '?'

/-- The characters of a plain scalar up to white space or its end. -/
def plainWord (flow : Bool) : List Char → List Char × List Char
  | [] => ([], [])
  | c :: rest =>
    if isBlankChar c || c = '\n' || (c = ':' && (atGap rest || (flow && clashesWithColon rest))) ||
        (flow && isFlowIndicator c) then
      ([], c :: rest)
    else
      let (word, rest) := plainWord flow rest
      (c :: word, rest)

/-- The words of a plain scalar and the white space between them; further lines stand at or right of a column. -/
def plainWords (flow : Bool) (indent : Nat) : (fuel : Nat) → Cursor → List Char × Bool × Cursor
  | 0, cur => ([], true, cur)
  | fuel + 1, cur =>
    let (word, rest) := plainWord flow cur.rest
    let after := cur.past word rest
    let (blanks, breaks, next) := readWhite rest.length after
    let stops := word.isEmpty || next.atEnd || next.atBoundary || next.rest.head? = some '#' ||
      (breaks ≠ 0 && !flow && next.column < indent) || (plainWord flow next.rest).1.isEmpty
    if stops then (word, true, after)
    else
      let (more, oneLine, last) := plainWords flow indent fuel next
      (word ++ (if breaks = 0 then blanks else fold breaks) ++ more, oneLine && breaks = 0, last)

/-- A plain scalar. -/
def readPlain (flow : Bool) (indent : Nat) (cur : Cursor) : ReadScalar :=
  let (text, oneLine, next) := plainWords flow indent cur.rest.length cur
  ⟨{ plain := true, text := String.ofList text }, oneLine, next⟩

/-! ## Quoted scalars -/

/-- The white space inside quotes: folded if it has line breaks, and kept otherwise. -/
def foldWhite (blanks : List Char) (breaks : Nat) : List Char :=
  if breaks = 0 then blanks else fold breaks

/-- The text up to the quote that ends it; two quotes stand for one. -/
def singleQuoted : (fuel : Nat) → Cursor → Option (List Char × Bool × Cursor)
  | 0, _ => none
  | fuel + 1, cur =>
    match cur.rest with
    | [] => none
    | '\'' :: '\'' :: rest =>
      (singleQuoted fuel (cur.past ['\'', '\''] rest)).map fun (text, one, last) => ('\'' :: text, one, last)
    | '\'' :: rest => some ([], true, cur.past ['\''] rest)
    | c :: rest =>
      if cur.atBoundary then none
      else if isBlankChar c || c = '\n' then
        let (blanks, breaks, next) := readWhite cur.rest.length cur
        (singleQuoted fuel next).map fun (text, one, last) => (foldWhite blanks breaks ++ text, one && breaks = 0, last)
      else (singleQuoted fuel (cur.past [c] rest)).map fun (text, one, last) => (c :: text, one, last)

/-- The characters that one letter after a backslash stands for. -/
def letterEscapes : List (Char × Char) :=
  [('0', '\x00'), ('a', '\x07'), ('b', '\x08'), ('t', '\t'), ('\t', '\t'), ('n', '\n'), ('v', '\x0b'), ('f', '\x0c'),
    ('r', '\r'), ('e', '\x1b'), (' ', ' '), ('"', '"'), ('/', '/'), ('\\', '\\'), ('N', '\u0085'), ('_', '\u00a0'),
    ('L', '\u2028'), ('P', '\u2029')]

/-- The number of hexadecimal digits after a letter. -/
def codeLength? (c : Char) : Option Nat :=
  if c = 'x' then some 2 else if c = 'u' then some 4 else if c = 'U' then some 8 else none

/-- The number that hexadecimal digits stand for. -/
def hexNumber? (digits : List Char) : Option Nat :=
  digits.foldl (fun n c => do return (← n) * 16 + (← Json.hexValue? c)) (some 0)

/-- The character that an escape stands for, and the place after it. -/
def readEscape (cur : Cursor) : Option (Char × Cursor) :=
  match cur.rest with
  | [] => none
  | c :: rest =>
    match letterEscapes.find? fun e => e.1 = c with
    | some (_, d) => some (d, cur.past [c] rest)
    | none => do
      let n ← codeLength? c
      let digits := rest.take n
      let code ← if digits.length = n then hexNumber? digits else none
      if code.isValidChar then some (Char.ofNat code, cur.past (c :: digits) (rest.drop n)) else none

/-- The text up to the quote that ends it, with escapes; an escaped line break stands for nothing. -/
def doubleQuoted : (fuel : Nat) → Cursor → Option (List Char × Bool × Cursor)
  | 0, _ => none
  | fuel + 1, cur =>
    match cur.rest with
    | [] => none
    | '"' :: rest => some ([], true, cur.past ['"'] rest)
    | '\\' :: '\n' :: rest =>
      let (_, breaks, next) := readWhite rest.length (Cursor.nextLine rest)
      (doubleQuoted fuel next).map fun (text, _, last) => (List.replicate breaks '\n' ++ text, false, last)
    | '\\' :: rest => do
      let (c, next) ← readEscape (cur.past ['\\'] rest)
      let (text, one, last) ← doubleQuoted fuel next
      return (c :: text, one, last)
    | c :: rest =>
      if cur.atBoundary then none
      else if isBlankChar c || c = '\n' then
        let (blanks, breaks, next) := readWhite cur.rest.length cur
        (doubleQuoted fuel next).map fun (text, one, last) => (foldWhite blanks breaks ++ text, one && breaks = 0, last)
      else (doubleQuoted fuel (cur.past [c] rest)).map fun (text, one, last) => (c :: text, one, last)

/-- A scalar in quotes, if one begins here. -/
def readQuoted (cur : Cursor) : Option ReadScalar := do
  let (text, oneLine, next) ←
    match cur.rest with
    | '\'' :: rest => singleQuoted (rest.length + 1) (cur.past ['\''] rest)
    | '"' :: rest => doubleQuoted (rest.length + 1) (cur.past ['"'] rest)
    | _ => none
  return ⟨{ plain := false, text := String.ofList text }, oneLine, next⟩

/-! ## Blocks of lines -/

/-- What becomes of the line breaks at the end of a block. -/
inductive Chomp
  | clip
  | strip
  | keep
  deriving DecidableEq

/-- The header of a block: how to end it, and its indentation if that is given. -/
def blockHeader : List Char → Option (Chomp × Option Nat × List Char)
  | '+' :: d :: rest =>
    if '1' ≤ d ∧ d ≤ '9' then some (.keep, some (d.toNat - '0'.toNat), rest) else some (.keep, none, d :: rest)
  | '-' :: d :: rest =>
    if '1' ≤ d ∧ d ≤ '9' then some (.strip, some (d.toNat - '0'.toNat), rest) else some (.strip, none, d :: rest)
  | ['+'] => some (.keep, none, [])
  | ['-'] => some (.strip, none, [])
  | d :: rest =>
    if '1' ≤ d ∧ d ≤ '9' then
      match rest with
      | '+' :: rest => some (.keep, some (d.toNat - '0'.toNat), rest)
      | '-' :: rest => some (.strip, some (d.toNat - '0'.toNat), rest)
      | rest => some (.clip, some (d.toNat - '0'.toNat), rest)
    else some (.clip, none, d :: rest)
  | [] => some (.clip, none, [])

/-- The number of spaces before the first character of a line. -/
def indentOf (line : List Char) : Nat :=
  (line.takeWhile (· = ' ')).length

/-- The lines of a text, without their breaks. -/
def linesOf : List Char → List (List Char)
  | [] => []
  | c :: rest =>
    if c = '\n' then [] :: linesOf rest
    else
      match linesOf rest with
      | [] => [[c]]
      | line :: lines => (c :: line) :: lines

/-- The lines of a block: those that are empty or indented far enough, and the rest. -/
def blockLines (indent : Nat) : List (List Char) → List (List Char) × List (List Char)
  | [] => ([], [])
  | line :: rest =>
    if line.all (· = ' ') || indent ≤ indentOf line then
      let (body, rest) := blockLines indent rest
      (line.drop indent :: body, rest)
    else ([], line :: rest)

/-- The indentation of a block: the greatest of the lines up to the first that is not empty, but no less than a
column. -/
def blockIndent (least : Nat) : List (List Char) → Nat
  | [] => least
  | line :: rest =>
    if line.all (· = ' ') then blockIndent (max least line.length) rest else max least (indentOf line)

/-- The lines of a block joined, each with its break. -/
def joinLiteral (lines : List (List Char)) : List Char :=
  lines.flatMap (· ++ ['\n'])

/-- The lines of a block joined: a break between two lines of text is a space, unless one of them is indented
further. -/
def joinFolded : List (List Char) → List Char
  | [] => []
  | [line] => line ++ ['\n']
  | line :: next :: rest =>
    let text (l : List Char) : Bool := match l with | [] => false | c :: _ => !isBlankChar c
    if text line && text next then line ++ ' ' :: joinFolded (next :: rest)
    else if text line && next.isEmpty then
      let gap := (next :: rest).takeWhile List.isEmpty
      match (next :: rest).drop gap.length with
      | l :: _ => line ++ (if text l then [] else ['\n']) ++ joinFolded (next :: rest)
      | [] => line ++ '\n' :: joinFolded (next :: rest)
    else line ++ '\n' :: joinFolded (next :: rest)

/-- A block of lines, if one begins here; its lines stand at or right of a column. -/
def readBlock (least : Nat) (cur : Cursor) : Option ReadScalar := do
  let (folded, header) ←
    match cur.rest with
    | '|' :: rest => some (false, rest)
    | '>' :: rest => some (true, rest)
    | _ => none
  let (chomp, given, rest) ← blockHeader header
  let tail := rest.dropWhile isBlankChar
  if !(tail.isEmpty || tail.head? = some '\n' || (tail.head? = some '#' && atGap rest)) then none
  else
    let lines := linesOf ((dropLine tail).drop 1)
    let indent := match given with
      | some n => least - 1 + n
      | none => blockIndent least lines
    let (body, rest) := blockLines indent lines
    let content := (body.reverse.dropWhile List.isEmpty).reverse
    let joined := if folded then joinFolded content else joinLiteral content
    let text := match chomp with
      | .strip => joined.dropLast
      | .clip => joined
      | .keep => joined ++ List.replicate (body.length - content.length) '\n'
    return ⟨{ plain := false, text := String.ofList text }, false, Cursor.nextLine (joinLiteral rest)⟩

end Yaml

end CentLedger
