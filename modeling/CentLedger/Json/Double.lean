import CentLedger.Money

/-!
# Doubles in JSON texts

A number with a fraction, with an exponent, or beyond 64 bits is kept as a double. It is read from at most 64 bits of
leading digits by one multiplication or division with a power of ten, and written with the fewest digits that read back,
positionally from 1e-5 up to below 1e16 and with an exponent elsewhere.
-/

namespace CentLedger

namespace Double

/-- The weight of the significand's first bit, which is not written where the exponent is not zero. -/
def hiddenBit : Nat := 4_503_599_627_370_496

/-- The number of exponents that can be written. -/
def exponents : Nat := 2048

/-- The weight of the bit that says that a double is negative. -/
def signBit : Nat := 9_223_372_036_854_775_808

/-- The significand and the exponent of the binary representation of a finite positive double. -/
def decompose (bits : UInt64) : Nat × Int :=
  let fraction : Nat := bits.toNat % hiddenBit
  let exponent : Nat := bits.toNat / hiddenBit % exponents
  if exponent = 0 then (fraction, -1074) else (hiddenBit + fraction, Int.ofNat exponent - 1075)

/-- The interval of the rationals that round to a double, times a common denominator: lower end, value, upper end and
the denominator, and whether the ends belong to it. -/
def interval (bits : UInt64) : Nat × Nat × Nat × Nat × Bool :=
  let (m, e) := decompose bits
  let atPower := bits.toNat % hiddenBit = 0 ∧ 1 < bits.toNat / hiddenBit % exponents
  let below := if atPower then 4 * m - 1 else 4 * m - 2
  let ends := m % 2 = 0
  if 0 ≤ e then
    let p := Nat.pow 2 e.toNat
    (below * p, 4 * m * p, (4 * m + 2) * p, 4, ends)
  else (below, 4 * m, 4 * m + 2, 4 * Nat.pow 2 (-e).toNat, ends)

/-- A candidate `d · 10 ^ k` for the text of a double, if it rounds to it, with its distance from the double. -/
def candidate (bits : UInt64) (k : Int) (d : Nat) : Option (Nat × Nat) :=
  let (lo, value, hi, den, ends) := interval bits
  let scale := if 0 ≤ k then (Nat.pow 10 k.toNat * den, 1) else (den, Nat.pow 10 (-k).toNat)
  let x := d * scale.1
  let lo := lo * scale.2
  let hi := hi * scale.2
  let value := value * scale.2
  let inside := if ends then lo ≤ x ∧ x ≤ hi else lo < x ∧ x < hi
  if d ≠ 0 ∧ inside then some (d, if x ≤ value then value - x else x - value) else none

/-- The nearest candidate on the grid of multiples of `10 ^ k`, if one rounds to the double. -/
def onGrid (bits : UInt64) (k : Int) : Option Nat :=
  let (_, value, _, den, _) := interval bits
  let d := if 0 ≤ k then value / (den * Nat.pow 10 k.toNat) else value * Nat.pow 10 (-k).toNat / den
  match candidate bits k d, candidate bits k (d + 1) with
  | some (a, x), some (b, y) => some (if x < y ∨ (x = y ∧ a % 2 = 0) then a else b)
  | some (a, _), none => some a
  | none, some (b, _) => some b
  | none, none => none

/-- The shortest decimal `d · 10 ^ k` that reads back, searched from coarse grids to fine ones. -/
def shortest (bits : UInt64) : (grids : Nat) → (k : Int) → Nat × Int
  | 0, k => (0, k)
  | grids + 1, k =>
    match onGrid bits k with
    | some d => (d, k)
    | none => shortest bits grids (k - 1)

/-- Digits and a decimal exponent as text: positional from 1e-5 up to below 1e16. -/
def layout (ds : List Char) (k : Int) : List Char :=
  let point := (ds.length : Int) + k
  if 0 ≤ k ∧ point ≤ 16 then ds ++ List.replicate k.toNat '0' ++ ['.', '0']
  else if 0 < point ∧ point ≤ 16 then ds.take point.toNat ++ '.' :: ds.drop point.toNat
  else if -5 < point ∧ point ≤ 0 then '0' :: '.' :: List.replicate (-point).toNat '0' ++ ds
  else
    let e := point - 1
    let exponent := 'e' :: (if e < 0 then '-' :: Decimal.digits e.natAbs else Decimal.digits e.natAbs)
    match ds with
    | [d] => d :: exponent
    | d :: rest => d :: '.' :: rest ++ exponent
    | [] => exponent

/-- The text of a finite double. -/
def write (bits : UInt64) : List Char :=
  let sign := if bits.toNat / signBit = 1 then ['-'] else []
  let bits := UInt64.ofNat (bits.toNat % signBit)
  if bits = 0 then sign ++ ['0', '.', '0']
  else
    let (d, k) := shortest bits 700 309
    let stripped := Decimal.stripZeros 400 (d : Int)
    sign ++ layout (Decimal.digits stripped.mantissa.toNat) (k + 400 - stripped.scale)

/-- The double nearest to a power of ten. -/
def powerOfTen (n : Nat) : Float :=
  Float.ofScientific 1 false n

/-- A double divided by a power of ten, in steps of at most `1e308`; three of them leave nothing of any significand. -/
def divPowerOfTen : (steps : Nat) → Float → Nat → Float
  | 0, f, _ => f
  | steps + 1, f, n => if n ≤ 308 then f / powerOfTen n else divPowerOfTen steps (f / powerOfTen 308) (n - 308)

/-- The double of `significand · 10 ^ exponent`; none if it would be infinite. -/
def ofParts (negative : Bool) (significand : UInt64) (exponent : Int) : Option UInt64 :=
  let f := significand.toFloat
  let f? :=
    if exponent < 0 then some (if f == 0.0 then f else divPowerOfTen 3 f exponent.natAbs)
    else if exponent ≤ 308 then
      let g := f * powerOfTen exponent.toNat
      if g.isInf then none else some g
    else if f == 0.0 then some f else none
  f?.map fun f => (if negative then -f else f).toBits

/-- Add decimal digits to a significand while it stays below 2 ^ 64; the rest of the digits is counted. -/
def accumulate : (digits : List Nat) → (significand : Nat) → Nat × Nat
  | [], acc => (acc, 0)
  | d :: rest, acc => if acc * 10 + d < UInt64.size then accumulate rest (acc * 10 + d) else (acc, rest.length + 1)

/-- The double of a written number: digits before the point, digits after it, and the exponent. Digits beyond the
first that do not fit in 64 bits are dropped. -/
def ofDigits (negative : Bool) (whole fraction : List Nat) (exponent : Int) : Option UInt64 :=
  let (m, dropped) := accumulate whole 0
  let (m, skipped) := accumulate fraction m
  ofParts negative (UInt64.ofNat m) (dropped + exponent - (fraction.length - skipped : Nat))

end Double

end CentLedger
