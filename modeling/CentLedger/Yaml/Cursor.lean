/-!
# Places in a YAML text

YAML gives a meaning to columns, so a reader has to know where it is: what is left of the text, the column, and whether
anything but spaces stands before it on its line. `Cursor.skip` passes over blanks, comments and line breaks to the next
thing that means something.
-/

namespace CentLedger

namespace Yaml

/-- A place in a text. -/
structure Cursor where
  rest : List Char
  column : Nat
  /-- Only spaces stand before this place on its line. -/
  fresh : Bool

/-- A space or a tab. -/
def isBlankChar (c : Char) : Bool :=
  c = ' ' || c = '\t'

/-- The text ends here, or a blank or a line break follows. -/
def atGap : List Char → Bool
  | [] => true
  | c :: _ => isBlankChar c || c = '\n'

/-- The text without its current line. -/
def dropLine (s : List Char) : List Char :=
  s.dropWhile (· ≠ '\n')

namespace Cursor

/-- The beginning of a text. -/
def start (s : List Char) : Cursor :=
  ⟨s, 0, true⟩

/-- The place after some characters that are no line breaks, before what is left. -/
def past (cur : Cursor) (taken : List Char) (rest : List Char) : Cursor :=
  ⟨rest, cur.column + taken.length, false⟩

/-- The beginning of the next line. -/
def nextLine (rest : List Char) : Cursor :=
  ⟨rest, 0, true⟩

/-- The text is used up. -/
def atEnd (cur : Cursor) : Bool :=
  cur.rest.isEmpty

/-- Three equal marks at the start of a line, with a gap after them. -/
def atMark (mark : Char) (cur : Cursor) : Bool :=
  cur.column = 0 &&
    match cur.rest with
    | a :: b :: c :: rest => a = mark && b = mark && c = mark && atGap rest
    | _ => false

/-- A document begins or ends here. -/
def atBoundary (cur : Cursor) : Bool :=
  cur.atMark '-' || cur.atMark '.'

/-- The next character is a given one, and a gap follows it. -/
def atIndicator (indicator : Char) (cur : Cursor) : Bool :=
  match cur.rest with
  | c :: rest => c = indicator && atGap rest
  | [] => false

/-- Pass over blanks, comments and line breaks; outside of flow collections a tab may not begin a line. -/
def skipFrom (flow : Bool) : (fuel : Nat) → Cursor → Cursor
  | 0, cur => cur
  | fuel + 1, cur =>
    match cur.rest with
    | [] => cur
    | c :: rest =>
      if c = '\n' then skipFrom flow fuel (nextLine rest)
      else if c = ' ' then skipFrom flow fuel ⟨rest, cur.column + 1, cur.fresh⟩
      else if c = '\t' && (flow || !cur.fresh) then skipFrom flow fuel ⟨rest, cur.column + 1, cur.fresh⟩
      else if c = '#' then skipFrom flow fuel (cur.past [c] (dropLine rest))
      else cur

/-- Pass over blanks, comments and line breaks. -/
def skip (flow : Bool) (cur : Cursor) : Cursor :=
  skipFrom flow cur.rest.length cur

end Cursor

/-- The characters that a YAML text may hold. -/
def isAllowed (c : Char) : Bool :=
  let n := c.toNat
  n = 9 || n = 10 || (0x20 ≤ n && n ≤ 0x7E) || n = 0x85 || (0xA0 ≤ n && n ≤ 0xFFFD && n ≠ 0xFEFF) || 0x10000 ≤ n

/-- A text with every line break written as one line feed. -/
def unifyBreaks : List Char → List Char
  | [] => []
  | '\r' :: '\n' :: rest => '\n' :: unifyBreaks rest
  | c :: rest => (if c = '\r' || c = '\x85' then '\n' else c) :: unifyBreaks rest

/-- A text without the mark that may begin it. -/
def dropByteOrderMark : List Char → List Char
  | c :: rest => if c.toNat = 0xFEFF then rest else c :: rest
  | [] => []

end Yaml

end CentLedger
