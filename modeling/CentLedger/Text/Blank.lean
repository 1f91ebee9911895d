/-!
# Blank characters

The characters that count as white space wherever the ledger trims a text or splits it into words: those with the
Unicode property `White_Space`. The class is wider than the four ASCII blanks, and narrower than what an editor shows
as empty: a zero-width space is not in it.
-/

namespace CentLedger

/-- The characters with the Unicode property `White_Space`. -/
def isBlank (c : Char) : Bool :=
  let n := c.toNat
  (9 ≤ n && n ≤ 13) || n == 0x20 || n == 0x85 || n == 0xA0 || n == 0x1680 || (0x2000 ≤ n && n ≤ 0x200A) ||
    n == 0x2028 || n == 0x2029 || n == 0x202F || n == 0x205F || n == 0x3000

/-- A text without its leading blanks. -/
def trimStart (s : List Char) : List Char :=
  s.dropWhile isBlank

/-- A text holds a word iff some character of it is not blank. -/
def hasWord (s : List Char) : Bool :=
  s.any fun c => !isBlank c

/-- The number of maximal runs of characters that are not blank. -/
def wordCount : List Char → Nat
  | [] => 0
  | [c] => if isBlank c then 0 else 1
  | c :: d :: rest => (if !isBlank c && isBlank d then 1 else 0) + wordCount (d :: rest)

end CentLedger
