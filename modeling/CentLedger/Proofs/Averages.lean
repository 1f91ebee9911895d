import CentLedger.Proofs.Roundings
import CentLedger.Queue.Tally

/-!
# Means that are rounded twice

A mean is a quotient that is rounded to the digits of a decimal, and then to two places (`Tally.average`). Rounding
twice may go wrong where the first rounding moves a number to the middle between two cents or across it. It cannot go
wrong here: a sum of 63 bits over a count of 64 bits is in the middle exactly, and then the quotient ends after three
places, or else it is farther from the middle than the first rounding moves it (`Decimal.IsQuotient.nearestEven`).

The digits of a quotient are up to the library of decimals of 96 bits that computes it (`Decimal.Division`); whichever
it is, the mean is the exact quotient, rounded once (`average_rounds_once`).
-/

namespace CentLedger

namespace Decimal

/-! ## Quotients of decimals -/

/-- What is computed for a quotient: the number itself, or else one of those nearest to it with 28 significant digits or
more, or with 28 places where that many digits have no place. -/
inductive IsQuotient (x q : ℚ) : Prop
  | exact (heq : q = x)
  | rounded {places : ℕ} {m : ℤ} (hm : 10 ^ places * q = m) (hnear : |10 ^ places * x - m| ≤ 1 / 2)
      (hdigits : 10 ^ 27 ≤ |m| ∨ 28 ≤ places)

/-- A mean that has so many digits has places enough for the parts of a cent that the count makes. -/
theorem hundred_mul_lt {x : ℚ} {n places : ℕ} {m : ℤ} (hpos : 0 < n) (hn : n < 2 ^ 64) (hx : 100 * n * |x| ≤ 2 ^ 63)
    (hnear : |10 ^ places * x - m| ≤ 1 / 2) (hdigits : 10 ^ 27 ≤ |m| ∨ 28 ≤ places) : 100 * n < 10 ^ places := by
  rcases hdigits with hlarge | hplaces
  · have hcount : (0 : ℚ) < 100 * n := by exact_mod_cast Nat.mul_pos (by decide) hpos
    have hscaled : (10 ^ 27 - 1 / 2 : ℚ) ≤ 10 ^ places * |x| := by
      have hlarge' : (10 ^ 27 : ℚ) ≤ |(m : ℚ)| := by exact_mod_cast hlarge
      have habs := abs_sub_abs_le_abs_sub (m : ℚ) (10 ^ places * x)
      rw [abs_sub_comm, abs_mul, abs_of_pos (by positivity : (0 : ℚ) < 10 ^ places)] at habs
      linarith
    have hbound : (100 * n : ℚ) * 2 ^ 63 < 10 ^ places * 2 ^ 63 :=
      calc (100 * n : ℚ) * 2 ^ 63 < 100 * n * (10 ^ 27 - 1 / 2) := mul_lt_mul_of_pos_left (by norm_num) hcount
        _ ≤ 100 * n * (10 ^ places * |x|) := mul_le_mul_of_nonneg_left hscaled hcount.le
        _ = 10 ^ places * (100 * n * |x|) := by ring
        _ ≤ 10 ^ places * 2 ^ 63 := mul_le_mul_of_nonneg_left hx (by positivity)
    exact_mod_cast lt_of_mul_lt_mul_right hbound (by positivity)
  · calc 100 * n < 10 ^ 28 := by omega
      _ ≤ 10 ^ places := Nat.pow_le_pow_right (by decide) hplaces

/-- In the middle between two cents a quotient has three places only, so it is not rounded to more of them. -/
theorem eq_of_middle {x q : ℚ} {places : ℕ} {m j : ℤ} (hplaces : 3 ≤ places) (hm : 10 ^ places * q = m)
    (hnear : |10 ^ places * x - m| ≤ 1 / 2) (hmiddle : 100 * x = j + 1 / 2) : q = x := by
  obtain ⟨i, rfl⟩ := Nat.exists_eq_add_of_le hplaces
  have hwhole : 10 ^ (3 + i) * x = (10 ^ i * (10 * j + 5) : ℤ) := by
    push_cast
    rw [pow_add, show x = (j + 1 / 2) / 100 by linarith]
    ring
  have hsame : 10 ^ i * (10 * j + 5) = m := by
    rw [hwhole] at hnear
    have hlt : |((10 ^ i * (10 * j + 5) : ℤ) : ℚ) - m| < 1 := by linarith
    exact sub_eq_zero.1 (Int.abs_lt_one_iff.1 (by exact_mod_cast hlt))
  rw [hsame, ← hm] at hwhole
  exact (mul_left_cancel₀ (by positivity) hwhole).symm

/-- The cents nearest to a mean are those nearest to its quotient as a decimal. -/
theorem IsQuotient.nearestEven {total : Cents} {n : ℕ} (hpos : 0 < n) (hn : n < 2 ^ 64) {q : ℚ} {k : ℤ}
    (hq : IsQuotient ((majorOfCents total).value / n) q) (h : NearestEven (100 * q) k) :
    NearestEven (100 * ((majorOfCents total).value / n)) k := by
  have hcount : (0 : ℚ) < n := Nat.cast_pos.2 hpos
  have hparts : n * (100 * ((majorOfCents total).value / n)) = total.toInt := by
    rw [value_majorOfCents]
    field_simp
  generalize (majorOfCents total).value / n = x at hq hparts ⊢
  cases hq with
  | exact heq => exact heq ▸ h
  | @rounded places m hm hnear hdigits =>
    have hx : 100 * n * |x| ≤ 2 ^ 63 := by
      rw [← abs_of_pos (by positivity : (0 : ℚ) < 100 * n), ← abs_mul, mul_comm 100 (n : ℚ), mul_assoc, hparts]
      have hmin := total.le_toInt
      have hmax := total.toInt_lt
      have hbound : |total.toInt| ≤ 2 ^ 63 := abs_le.2 ⟨by omega, by omega⟩
      exact_mod_cast hbound
    have hfine := hundred_mul_lt hpos hn hx hnear hdigits
    refine h.of_close hpos hparts ?_ fun j hmiddle => ?_
    · have hten : (0 : ℚ) < 10 ^ places := by positivity
      have herror : 10 ^ places * |100 * q - 100 * x| ≤ 50 := by
        rw [← hm, ← mul_sub, abs_mul, abs_of_pos hten, abs_sub_comm] at hnear
        rw [← mul_sub, abs_mul, abs_of_pos (by norm_num : (0 : ℚ) < 100)]
        linarith
      have hfine' : (100 * n : ℚ) < 10 ^ places := by exact_mod_cast hfine
      refine lt_of_mul_lt_mul_left ?_ hten.le
      calc 10 ^ places * (2 * n * |100 * q - 100 * x|) = 2 * n * (10 ^ places * |100 * q - 100 * x|) := by ring
        _ ≤ 2 * n * 50 := mul_le_mul_of_nonneg_left herror (by positivity)
        _ < 10 ^ places * 1 := by linarith
    · have hplaces : 3 ≤ places := by
        by_contra! hlt
        have hpow : 10 ^ places ≤ 10 ^ 2 := Nat.pow_le_pow_right (by decide) (by omega)
        omega
      rw [eq_of_middle hplaces hm hnear hmiddle]

/-! ## Quotients with 28 digits -/

/-- The places of a quotient with some whole part. -/
def quotientPlaces (whole : ℕ) : ℕ :=
  if whole = 0 then quotientDigits else quotientDigits - (digits whole).length

/-- A quotient has at most as many places as a decimal can have. -/
theorem quotientPlaces_le (whole : ℕ) : quotientPlaces whole ≤ 28 := by
  unfold quotientPlaces quotientDigits
  split <;> omega

/-- With so many places, the whole part alone has 28 digits, unless it is zero. -/
theorem digits_quotientPlaces {whole : ℕ} (hne : whole ≠ 0) : 10 ^ 27 ≤ whole * 10 ^ quotientPlaces whole := by
  have hlength : 10 ^ ((digits whole).length - 1) ≤ whole := by
    by_contra! hlt
    rcases Nat.eq_zero_or_pos ((digits whole).length - 1) with hzero | hpos
    · rw [hzero] at hlt
      omega
    · have hle := (Nat.length_toDigits_le_iff (by decide) hpos).2 hlt
      rw [← digits] at hle
      omega
  calc 10 ^ 27 ≤ 10 ^ ((digits whole).length - 1 + quotientPlaces whole) :=
        Nat.pow_le_pow_right (by decide) (by rw [quotientPlaces, if_neg hne, quotientDigits]; omega)
    _ ≤ whole * 10 ^ quotientPlaces whole := by
        rw [pow_add]
        exact Nat.mul_le_mul_right _ hlength

/-- The places do not give the quotient more than 28 digits. -/
theorem bound_quotientPlaces (whole : ℕ) :
    (whole + 1) * 10 ^ quotientPlaces whole ≤ 10 ^ 28 ∨ quotientPlaces whole = 0 := by
  by_cases hzero : whole = 0
  · exact Or.inl (by rw [quotientPlaces, if_pos hzero, hzero, quotientDigits, zero_add, one_mul])
  · have hlt : whole < 10 ^ (digits whole).length :=
      (Nat.length_toDigits_le_iff (by decide) Nat.length_toDigits_pos).1 le_rfl
    rw [quotientPlaces, if_neg hzero, quotientDigits]
    by_cases hle : (digits whole).length ≤ 28
    · refine Or.inl ?_
      calc (whole + 1) * 10 ^ (28 - (digits whole).length)
          ≤ 10 ^ (digits whole).length * 10 ^ (28 - (digits whole).length) := Nat.mul_le_mul_right _ hlt
        _ = 10 ^ 28 := by rw [← pow_add, Nat.add_sub_cancel' hle]
    · exact Or.inr (by omega)

/-- The whole part of a quotient, without its sign. -/
def wholePart (d : Decimal) (n : ℕ) : ℕ :=
  d.mantissa.natAbs / 10 ^ d.scale / n

/-- A quotient, without its sign, lies between its whole part and the next number. -/
theorem wholePart_bounds (d : Decimal) {n : ℕ} (hpos : 0 < n) :
    d.wholePart n ≤ |d.value / n| ∧ |d.value / n| < d.wholePart n + 1 := by
  have hden : 0 < 10 ^ d.scale * n := by positivity
  have habs : |d.value / n| = (d.mantissa.natAbs : ℚ) / (10 ^ d.scale * n : ℕ) := by
    rw [value, div_div, abs_div, Nat.cast_natAbs, Int.cast_abs]
    push_cast
    rw [abs_of_pos (by positivity : (0 : ℚ) < 10 ^ d.scale * n)]
  rw [habs, wholePart, Nat.div_div_eq_div_mul]
  refine ⟨Nat.cast_div_le, ?_⟩
  rw [div_lt_iff₀ (by exact_mod_cast hden), mul_comm]
  exact_mod_cast Nat.lt_mul_div_succ d.mantissa.natAbs hden

/-- A quotient has as many places as its whole part leaves room for. -/
theorem scale_divNat (d : Decimal) (n : ℕ) : (d.divNat n).scale = quotientPlaces (d.wholePart n) :=
  rfl

/-- A quotient that is computed to 28 digits is the nearest of its places. -/
theorem nearestEven_divNat (d : Decimal) {n : ℕ} (hpos : 0 < n) :
    NearestEven (10 ^ quotientPlaces (d.wholePart n) * (d.value / n)) (d.divNat n).mantissa := by
  have hquotient : 10 ^ quotientPlaces (d.wholePart n) * (d.value / n) =
      (d.mantissa * (10 ^ quotientPlaces (d.wholePart n) : ℕ) : ℤ) / ((10 ^ d.scale * n : ℕ) : ℚ) := by
    rw [value]
    push_cast
    field_simp
  rw [hquotient]
  exact nearestEven_roundDiv _ (by positivity)

variable {d : Decimal} {n : ℕ}

/-- It is a decimal of 96 bits. -/
theorem inRange_divNat (hd : d.InRange) (hpos : 0 < n) : (d.divNat n).InRange := by
  have hnearest := nearestEven_divNat d hpos
  refine ⟨?_, quotientPlaces_le _⟩
  rcases bound_quotientPlaces (d.wholePart n) with hbound | hzero
  · have hle : |10 ^ quotientPlaces (d.wholePart n) * (d.value / n)| ≤ (10 ^ 28 : ℕ) := by
      rw [abs_mul, abs_of_pos (by positivity), mul_comm]
      calc |d.value / n| * 10 ^ quotientPlaces (d.wholePart n)
          ≤ (d.wholePart n + 1) * 10 ^ quotientPlaces (d.wholePart n) :=
            mul_le_mul_of_nonneg_right (wholePart_bounds d hpos).2.le (by positivity)
        _ ≤ (10 ^ 28 : ℕ) := by exact_mod_cast hbound
    exact (hnearest.abs_le_of_abs_le hle).trans_lt (by norm_num)
  · -- a quotient without places is no larger than what was divided
    have hle : |10 ^ quotientPlaces (d.wholePart n) * (d.value / n)| ≤ (2 ^ 96 - 1 : ℕ) := by
      have hmantissa : |d.mantissa| ≤ 2 ^ 96 - 1 := Int.le_sub_one_of_lt hd.mantissa
      rw [hzero, pow_zero, one_mul, abs_div, Nat.abs_cast]
      calc |d.value| / n ≤ |d.value| := div_le_self (abs_nonneg _) (by exact_mod_cast hpos)
        _ ≤ |d.mantissa| := abs_value_le d
        _ ≤ (2 ^ 96 - 1 : ℕ) := by exact_mod_cast hmantissa
    exact (hnearest.abs_le_of_abs_le hle).trans_lt (by norm_num)

/-- It has 28 digits, or 28 places if there is nothing before the point. -/
theorem isQuotient_divNat (hpos : 0 < n) : IsQuotient (d.value / n) (d.divNat n).value := by
  have hnearest := nearestEven_divNat d hpos
  refine .rounded ((mul_comm _ _).trans (value_mul_pow _)) hnearest.near ?_
  by_cases hzero : d.wholePart n = 0
  · exact Or.inr (by rw [scale_divNat, quotientPlaces, if_pos hzero, quotientDigits])
  · refine Or.inl (hnearest.le_abs_of_le_abs (m := 10 ^ 27) ?_)
    rw [abs_mul, abs_of_pos (by positivity), mul_comm]
    calc ((10 ^ 27 : ℕ) : ℚ) ≤ d.wholePart n * 10 ^ quotientPlaces (d.wholePart n) := by
          exact_mod_cast digits_quotientPlaces hzero
      _ ≤ |d.value / n| * 10 ^ quotientPlaces (d.wholePart n) :=
          mul_le_mul_of_nonneg_right (wholePart_bounds d hpos).1 (by positivity)

/-! ## Libraries of decimals -/

/-- What a mean needs from a library of decimals of 96 bits: quotients, which may be refused, and rounding to places. -/
structure Division where
  div? : Decimal → Decimal → Option Decimal
  roundTo : ℕ → Decimal → Decimal

/-- What such a library promises of quotients by whole numbers, and of rounding with ties to the even digit. -/
structure Division.Correct (a : Division) : Prop where
  quotient {d : Decimal} (hd : d.InRange) {n : ℕ} (hpos : 0 < n) (hn : n < 2 ^ 96) :
    ∃ q, a.div? d ⟨n, 0⟩ = some q ∧ q.InRange ∧ IsQuotient (d.value / n) q.value
  rounds {d : Decimal} (hd : d.InRange) (places : ℕ) : RoundsTo places d.value (a.roundTo places d).value

namespace Division

/-- The mean of `total` cents over `count` amounts, with the operations of the library. -/
def averageMajor (a : Division) (total : Cents) (count : ℕ) : Option Decimal :=
  if count = 0 then some ⟨0, 0⟩ else (a.div? (majorOfCents total) ⟨count, 0⟩).map (a.roundTo minorPlaces)

variable {a : Division}

/-- The quotient is given, and rounding it is rounding the mean. -/
theorem Correct.roundsTo_averageMajor (h : a.Correct) (total : Cents) {n : ℕ} (hpos : 0 < n) (hn : n < 2 ^ 64) :
    ∃ d, a.averageMajor total n = some d ∧ RoundsTo minorPlaces ((majorOfCents total).value / n) d.value := by
  obtain ⟨q, hq, hrange, hquotient⟩ := h.quotient (inRange_majorOfCents total) hpos (by omega)
  refine ⟨a.roundTo minorPlaces q, ?_, ?_⟩
  · rw [averageMajor, if_neg hpos.ne', hq, Option.map_some]
  · have hhundred : (10 : ℚ) ^ minorPlaces = 100 := by norm_num [minorPlaces]
    obtain ⟨k, hk, hnearest⟩ := roundsTo_iff.1 (h.rounds hrange minorPlaces)
    rw [hhundred] at hnearest
    exact roundsTo_iff.2 ⟨k, hk, by rw [hhundred]; exact hquotient.nearestEven hpos hn hnearest⟩

/-- Quotients by whole numbers that are computed digit by digit. -/
def longhand : Division where
  div? d e := if e.scale = 0 ∧ 0 < e.mantissa then some (d.divNat e.mantissa.toNat) else none
  roundTo := Decimal.roundTo

/-- Division digit by digit is correct. -/
theorem longhand_correct : longhand.Correct where
  quotient hd _ hpos _ := ⟨_, if_pos ⟨rfl, Int.natCast_pos.2 hpos⟩, inRange_divNat hd hpos, isQuotient_divNat hpos⟩
  rounds _ places := roundsTo_roundTo _ places

/-- With this division, the mean amount is that of the tally. -/
theorem longhand_averageMajor (total : Cents) (n : ℕ) :
    longhand.averageMajor total n = some (CentLedger.averageMajor total n) := by
  by_cases hzero : n = 0
  · rw [averageMajor, CentLedger.averageMajor, if_pos hzero, if_pos hzero]
  · rw [averageMajor, CentLedger.averageMajor, if_neg hzero, if_neg hzero]
    simp [longhand, Nat.pos_of_ne_zero hzero]

end Division

end Decimal

/-! ## The mean of a tally -/

open Decimal

/-- Whichever library of decimals of 96 bits computes it, the mean amount of the successful jobs is the exact quotient,
rounded once to two places with ties to the even digit, and nothing else; it is zero if no job was successful. -/
theorem average_rounds_once (a : Division) (h : a.Correct) (s : Tally) (hcount : s.successful < 2 ^ 64) :
    ∃ d, a.averageMajor s.totalAmount s.successful = some d ∧ s.average.value = d.value ∧
      (s.successful = 0 → d = ⟨0, 0⟩) ∧
      (s.successful ≠ 0 → ∀ y, RoundsTo minorPlaces (s.totalAmount.toInt / (100 * s.successful)) y ↔ y = d.value) := by
  by_cases hzero : s.successful = 0
  · refine ⟨⟨0, 0⟩, ?_, ?_, fun _ => rfl, fun hne => absurd hzero hne⟩
    · rw [Division.averageMajor, if_pos hzero]
    · rw [Tally.average, averageMajor, if_pos hzero]
  · have hpos := Nat.pos_of_ne_zero hzero
    have hmean : (majorOfCents s.totalAmount).value / s.successful = s.totalAmount.toInt / (100 * s.successful) := by
      rw [value_majorOfCents, div_div]
    obtain ⟨d, hd, hrounds⟩ := h.roundsTo_averageMajor s.totalAmount hpos hcount
    obtain ⟨e, he, hrounds_e⟩ := Division.longhand_correct.roundsTo_averageMajor s.totalAmount hpos hcount
    obtain rfl : s.average = e := Option.some.inj ((Division.longhand_averageMajor _ _).symm.trans he)
    refine ⟨d, hd, hrounds_e.unique hrounds, fun hnone => absurd hnone hzero, fun _ y => ⟨fun hy => ?_, ?_⟩⟩
    · exact hy.unique (hmean ▸ hrounds)
    · rintro rfl
      exact hmean ▸ hrounds

/-- A mean as close to the middle between two cents as any other that is not there, and one that is in the middle. -/
theorem average_rounds_once_at_middle :
    Division.longhand.Correct ∧ 2 ^ 64 - 1 < 2 ^ 64 ∧
      Division.longhand.averageMajor Int64.minValue (2 ^ 64 - 1) = some ⟨-1, 2⟩ ∧
      RoundsTo minorPlaces (-2 ^ 63 / (100 * (2 ^ 64 - 1))) (-1 / 100) ∧
      Division.longhand.averageMajor (-25) 10 = some ⟨-2, 2⟩ ∧ RoundsTo minorPlaces (-25 / (100 * 10)) (-2 / 100) := by
  obtain ⟨d, hd, -, -, hrounds⟩ := average_rounds_once Division.longhand Division.longhand_correct
    { Tally.empty with successful := 2 ^ 64 - 1, totalAmount := Int64.minValue } (by decide)
  obtain ⟨e, he, -, -, hrounds_e⟩ := average_rounds_once Division.longhand Division.longhand_correct
    { Tally.empty with successful := 10, totalAmount := -25 } (by decide)
  have hclose : Division.longhand.averageMajor Int64.minValue (2 ^ 64 - 1) = some ⟨-1, 2⟩ := by decide +kernel
  have hmiddle : Division.longhand.averageMajor (-25) 10 = some ⟨-2, 2⟩ := by decide +kernel
  refine ⟨Division.longhand_correct, by decide, hclose, ?_, hmiddle, ?_⟩
  · obtain rfl : (⟨-1, 2⟩ : Decimal) = d := Option.some.inj (hclose.symm.trans hd)
    have hspec := (hrounds (by decide) _).2 rfl
    simp only [show Int64.minValue.toInt = -2 ^ 63 by decide] at hspec
    norm_num [value] at hspec ⊢
    exact hspec
  · obtain rfl : (⟨-2, 2⟩ : Decimal) = e := Option.some.inj (hmiddle.symm.trans he)
    have hspec := (hrounds_e (by decide) _).2 rfl
    simp only [show (-25 : Int64).toInt = -25 by decide] at hspec
    norm_num [value] at hspec ⊢
    exact hspec

end CentLedger
