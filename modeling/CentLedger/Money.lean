/-!
# Money

Amounts are whole cents in a signed 64-bit word. At the reporting boundary they become decimals in major units, and a
decimal in major units becomes cents only when nothing is lost: `centsOfMajor` refuses a third decimal place instead
of rounding it away. `averageMajor` is the one place where numbers are rounded, first to the digits of a quotient and
then to two places, with ties to the even digit.
-/

namespace CentLedger

/-- An amount of money in cents. -/
abbrev Cents := Int64

/-- The identifier of an account holder. -/
abbrev UserId := UInt64

/-- The largest amount of cents. -/
def maxCents : Int := 9_223_372_036_854_775_807

/-- Decimal places of the minor unit. -/
def minorPlaces : Nat := 2

/-- The decimal number `mantissa · 10 ^ (-scale)`. -/
structure Decimal where
  mantissa : Int
  scale : Nat
  deriving DecidableEq, Repr

namespace Decimal

/-- The decimal digits of a number, most significant first. -/
def digits (n : Nat) : List Char :=
  Nat.toDigits 10 n

/-- Digits with zeros put in front, up to a width. -/
def padded (width n : Nat) : List Char :=
  List.replicate (width - (digits n).length) '0' ++ digits n

/-- The text of a decimal: sign, whole part, and exactly `scale` decimals after a point. -/
def text (d : Decimal) : String :=
  let m := d.mantissa.natAbs
  let sign := if d.mantissa < 0 then ['-'] else []
  let whole := digits (m / Nat.pow 10 d.scale)
  let fraction := if d.scale = 0 then [] else '.' :: padded d.scale (m % Nat.pow 10 d.scale)
  String.ofList (sign ++ whole ++ fraction)

/-- Drop trailing zeros of the mantissa, at most `scale` of them. -/
def stripZeros : Nat → Int → Decimal
  | 0, m => ⟨m, 0⟩
  | scale + 1, m => if m % 10 = 0 then stripZeros scale (m / 10) else ⟨m, scale + 1⟩

/-- The same number with the least scale that represents it exactly. -/
def normalize (d : Decimal) : Decimal :=
  stripZeros d.scale d.mantissa

/-- The integer nearest to `num / den`, a tie going to the even one. -/
def roundDiv (num : Int) (den : Nat) : Int :=
  let q := num / den
  let r := num % den
  if 2 * r < den then q else if 2 * r > den then q + 1 else if q % 2 = 0 then q else q + 1

/-- The decimal of a given scale nearest to a decimal, a tie going to the even last digit. -/
def roundTo (scale : Nat) (d : Decimal) : Decimal :=
  if d.scale ≤ scale then d else ⟨roundDiv d.mantissa (Nat.pow 10 (d.scale - scale)), scale⟩

/-- Significant digits of a quotient that does not end earlier. -/
def quotientDigits : Nat := 28

/-- A decimal divided by a positive whole number, rounded to `quotientDigits` digits from the first digit before the
point on (or from the point on, for a quotient below one). -/
def divNat (d : Decimal) (n : Nat) : Decimal :=
  let whole := d.mantissa.natAbs / Nat.pow 10 d.scale / n
  let scale := if whole = 0 then quotientDigits else quotientDigits - (digits whole).length
  ⟨roundDiv (d.mantissa * Nat.pow 10 scale) (Nat.pow 10 d.scale * n), scale⟩

end Decimal

/-- Why a decimal in major units is no amount of cents. -/
inductive MoneyError
  | invalidAmount
  | precisionOverflow (provided max : Nat)
  | overflow
  deriving DecidableEq, Repr

namespace MoneyError

/-- The name of the kind of error. -/
def kind : MoneyError → String
  | invalidAmount => "InvalidAmount"
  | precisionOverflow _ _ => "PrecisionOverflow"
  | overflow => "Overflow"

/-- The text shown to a caller. -/
def message : MoneyError → String
  | invalidAmount => "Amount must be positive"
  | precisionOverflow provided max => s!"Precision overflow: provided {provided} decimals, max allowed {max}"
  | overflow => "Amount too large, would overflow"

end MoneyError

/-- An amount of cents in major units: 1250 cents are 12.50. -/
def majorOfCents (cents : Cents) : Decimal :=
  ⟨cents.toInt, minorPlaces⟩

/-- The cents of a positive amount in major units that has at most two decimals and fits. -/
def centsOfMajor (amount : Decimal) : Except MoneyError Cents :=
  if amount.mantissa ≤ 0 then
    .error .invalidAmount
  else
    let d := amount.normalize
    if d.scale > minorPlaces then
      .error (.precisionOverflow d.scale minorPlaces)
    else
      let cents := d.mantissa * Nat.pow 10 (minorPlaces - d.scale)
      if cents > maxCents then .error .overflow else .ok (Int64.ofInt cents)

/-- The mean of `total` cents over `count` amounts, in major units with two places; zero when there are none. -/
def averageMajor (total : Cents) (count : Nat) : Decimal :=
  if count = 0 then ⟨0, 0⟩ else ((majorOfCents total).divNat count).roundTo minorPlaces

end CentLedger
