import CentLedger.Proofs.Amounts
import CentLedger.Proofs.Digits

/-!
# Major units and cents

A decimal in major units is an amount of cents in exactly one way, or it is none for exactly one reason
(`Decimal.InCents`): it is not positive, or it has more than two places, or it does not fit. `centsOfMajor` computes
with whole numbers of any size. A program that computes with decimals of 96 bits (`Decimal.Arithmetic`) may see a
product overflow although the cents might fit, but never before the amount is larger than any amount of cents, so it
gives the same answers. In the other direction every amount of cents is a decimal with two places, and its text tells
it.
-/

namespace CentLedger

/-- A number without a fraction. -/
def Whole (x : ℚ) : Prop :=
  ∃ n : ℤ, x = n

namespace Decimal

/-- The number that a decimal stands for. -/
def value (d : Decimal) : ℚ :=
  d.mantissa / 10 ^ d.scale

/-- The decimals of 96 bits with at most 28 places. -/
structure InRange (d : Decimal) : Prop where
  mantissa : |d.mantissa| < 2 ^ 96
  scale : d.scale ≤ 28

/-- A decimal is in range exactly if its mantissa has 96 bits at most and it has 28 places at most. -/
theorem inRange_iff (d : Decimal) : d.InRange ↔ |d.mantissa| < 2 ^ 96 ∧ d.scale ≤ 28 :=
  ⟨fun h => ⟨h.mantissa, h.scale⟩, fun h => ⟨h.1, h.2⟩⟩

instance (d : Decimal) : Decidable d.InRange :=
  decidable_of_iff _ (inRange_iff d).symm

/-- No zero can be dropped at the end. -/
def Trimmed (d : Decimal) : Prop :=
  d.scale = 0 ∨ ¬10 ∣ d.mantissa

/-- What a decimal in major units is in cents: the cents that are exactly as much, or the first reason why there are
none. -/
inductive InCents (d : Decimal) : Except MoneyError Cents → Prop
  | notPositive (hneg : d.value ≤ 0) : InCents d (.error .invalidAmount)
  | tooPrecise {s : ℕ} (hpos : 0 < d.value) (hpart : ¬Whole (100 * d.value))
      (hleast : IsLeast {s : ℕ | Whole (10 ^ s * d.value)} s) : InCents d (.error (.precisionOverflow s minorPlaces))
  | tooLarge (hpos : 0 < d.value) (hwhole : Whole (100 * d.value)) (hlarge : (maxCents : ℚ) < 100 * d.value) :
      InCents d (.error .overflow)
  | exact {c : Cents} (hpos : 0 < d.value) (hc : (c.toInt : ℚ) = 100 * d.value) : InCents d (.ok c)

/-! ## Values and places -/

variable {d e : Decimal}

/-- The mantissa is the number with its places moved before the point. -/
theorem value_mul_pow (d : Decimal) : d.value * 10 ^ d.scale = d.mantissa :=
  div_mul_cancel₀ _ (by positivity)

/-- A decimal is positive exactly if its mantissa is. -/
theorem value_pos_iff (d : Decimal) : 0 < d.value ↔ 0 < d.mantissa := by
  rw [value, div_pos_iff_of_pos_right (by positivity), Int.cast_pos]

/-- A decimal is not positive exactly if its mantissa is not. -/
theorem value_nonpos_iff (d : Decimal) : d.value ≤ 0 ↔ d.mantissa ≤ 0 := by
  rw [← not_lt, value_pos_iff, not_lt]

/-- A decimal with trimmed zeros has no places to spare. -/
theorem Trimmed.whole_iff (h : d.Trimmed) (s : ℕ) : Whole (10 ^ s * d.value) ↔ d.scale ≤ s := by
  constructor
  · rintro ⟨n, hn⟩
    by_contra! hlt
    obtain ⟨j, hj⟩ := Nat.exists_eq_add_of_lt hlt
    have hmantissa : d.mantissa = n * 10 ^ (j + 1) := by
      have hq : (d.mantissa : ℚ) = n * 10 ^ (j + 1) := by
        rw [← value_mul_pow, ← hn, hj]
        ring
      exact_mod_cast hq
    rcases h with hzero | hten
    · omega
    · exact hten (hmantissa ▸ Dvd.dvd.mul_left (dvd_pow_self 10 (by omega)) n)
  · intro hle
    obtain ⟨j, hj⟩ := Nat.exists_eq_add_of_le hle
    refine ⟨d.mantissa * 10 ^ j, ?_⟩
    rw [Int.cast_mul, ← value_mul_pow, hj]
    push_cast
    ring

/-- The scale of a decimal with trimmed zeros is the least that represents it. -/
theorem Trimmed.isLeast (h : d.Trimmed) : IsLeast {s : ℕ | Whole (10 ^ s * d.value)} d.scale :=
  ⟨(h.whole_iff _).2 le_rfl, fun s hs => (h.whole_iff s).1 hs⟩

/-- A decimal with trimmed zeros is a whole number of cents if it has no more than two places. -/
theorem Trimmed.whole_cents_iff (h : d.Trimmed) : Whole (100 * d.value) ↔ d.scale ≤ minorPlaces := by
  rw [← h.whole_iff, minorPlaces]
  norm_num

/-- With no more than two places, the cents can be told from the mantissa. -/
theorem hundred_value_eq (h : d.scale ≤ minorPlaces) :
    100 * d.value = ((d.mantissa * 10 ^ (minorPlaces - d.scale) : ℤ) : ℚ) := by
  have hten : (100 : ℚ) = 10 ^ d.scale * 10 ^ (minorPlaces - d.scale) := by
    rw [← pow_add, Nat.add_sub_cancel' h, minorPlaces]
    norm_num
  rw [hten]
  push_cast
  rw [← value_mul_pow]
  ring

/-- The product of decimals stands for the product of their numbers. -/
theorem value_mul (d e : Decimal) : value ⟨d.mantissa * e.mantissa, d.scale + e.scale⟩ = d.value * e.value := by
  simp only [value]
  push_cast
  rw [pow_add, div_mul_div_comm]

/-- Places make a number no larger. -/
theorem abs_value_le (d : Decimal) : |d.value| ≤ |d.mantissa| := by
  rw [value, abs_div, abs_of_pos (pow_pos (by norm_num : (0 : ℚ) < 10) d.scale), Int.cast_abs]
  exact div_le_self (abs_nonneg _) (one_le_pow₀ (by norm_num))

/-- What is out of range in value is so in the mantissa. -/
theorem not_inRange_of_large (hlarge : 2 ^ 96 ≤ |d.value|) : ¬d.InRange := by
  intro hd
  have hmantissa : (|d.mantissa| : ℚ) < 2 ^ 96 := by exact_mod_cast hd.mantissa
  have hvalue := abs_value_le d
  push_cast at hvalue
  linarith

/-! ## Zeros at the end -/

/-- Stripping zeros keeps the number, leaves none, and makes neither the mantissa nor the scale larger. -/
theorem stripZeros_spec (scale : ℕ) (m : ℤ) :
    (stripZeros scale m).value = value ⟨m, scale⟩ ∧ (stripZeros scale m).Trimmed ∧
      |(stripZeros scale m).mantissa| ≤ |m| ∧ (stripZeros scale m).scale ≤ scale := by
  induction scale generalizing m with
  | zero => exact ⟨rfl, .inl rfl, le_rfl, le_rfl⟩
  | succ scale ih =>
    rw [stripZeros]
    split
    · rename_i hten
      obtain ⟨k, rfl⟩ := Int.dvd_of_emod_eq_zero hten
      rw [Int.mul_ediv_cancel_left k (by decide)]
      obtain ⟨hvalue, htrim, hmantissa, hscale⟩ := ih k
      refine ⟨?_, htrim, ?_, by omega⟩
      · rw [hvalue, value, value]
        push_cast
        rw [pow_succ]
        field_simp
      · rw [abs_mul, show |(10 : ℤ)| = 10 from rfl]
        linarith [abs_nonneg k]
    · rename_i hten
      exact ⟨rfl, .inr fun hdvd => hten (Int.emod_eq_zero_of_dvd hdvd), le_rfl, le_rfl⟩

/-- A decimal in normal form stands for the same number. -/
theorem value_normalize (d : Decimal) : d.normalize.value = d.value :=
  (stripZeros_spec d.scale d.mantissa).1

/-- A decimal in normal form has no zeros at the end. -/
theorem trimmed_normalize (d : Decimal) : d.normalize.Trimmed :=
  (stripZeros_spec d.scale d.mantissa).2.1

/-- A decimal in range stays so in normal form. -/
theorem InRange.normalize (h : d.InRange) : d.normalize.InRange :=
  ⟨(stripZeros_spec d.scale d.mantissa).2.2.1.trans_lt h.mantissa,
    (stripZeros_spec d.scale d.mantissa).2.2.2.trans h.scale⟩

/-! ## Cents of a decimal -/

/-- There is only one answer. -/
theorem InCents.unique {r r' : Except MoneyError Cents} (h : d.InCents r) (h' : d.InCents r') : r = r' := by
  have hfits (c : Cents) : (c.toInt : ℚ) ≤ maxCents := Int.cast_le.2 (toInt_le_maxCents c)
  cases h with
  | notPositive hneg =>
    cases h' with
    | notPositive => rfl
    | tooPrecise hpos | tooLarge hpos | exact hpos => exact absurd hneg hpos.not_ge
  | tooPrecise hpos hpart hleast =>
    cases h' with
    | notPositive hneg => exact absurd hneg hpos.not_ge
    | tooPrecise _ _ hleast' => rw [hleast.unique hleast']
    | tooLarge _ hwhole => exact absurd hwhole hpart
    | exact _ hc => exact absurd ⟨_, hc.symm⟩ hpart
  | tooLarge hpos hwhole hlarge =>
    cases h' with
    | notPositive hneg => exact absurd hneg hpos.not_ge
    | tooPrecise _ hpart => exact absurd hwhole hpart
    | tooLarge => rfl
    | exact _ hc => exact absurd (hc ▸ hfits _) hlarge.not_ge
  | exact hpos hc =>
    cases h' with
    | notPositive hneg => exact absurd hneg hpos.not_ge
    | tooPrecise _ hpart => exact absurd ⟨_, hc.symm⟩ hpart
    | tooLarge _ _ hlarge => exact absurd (hc ▸ hfits _) hlarge.not_ge
    | exact _ hc' => rw [Int64.toInt_inj.1 (Int.cast_injective (hc.trans hc'.symm))]

/-- With trimmed zeros, more than two places are too many. -/
theorem InCents.of_places (hpos : 0 < d.value) (hvalue : e.value = d.value) (htrim : e.Trimmed)
    (hscale : minorPlaces < e.scale) : d.InCents (.error (.precisionOverflow e.scale minorPlaces)) := by
  refine .tooPrecise hpos ?_ (hvalue ▸ htrim.isLeast)
  rw [← hvalue, htrim.whole_cents_iff]
  exact hscale.not_ge

/-- A whole number of cents is given if it fits. -/
theorem InCents.of_whole (hpos : 0 < d.value) {n : ℤ} (hn : 100 * d.value = n) :
    d.InCents (if n > maxCents then .error .overflow else .ok (Int64.ofInt n)) := by
  split
  · rename_i hlarge
    exact .tooLarge hpos ⟨n, hn⟩ (hn ▸ Int.cast_lt.2 hlarge)
  · rename_i hfits
    have hn_pos : 0 < n := Int.cast_pos.1 (hn ▸ mul_pos (by norm_num) hpos)
    refine .exact hpos ?_
    simp only [maxCents] at hfits
    rw [hn, Int64.toInt_ofInt_of_le (by omega) (by omega)]

/-- The conversion gives the cents that a decimal in major units is, or the reason why there are none. -/
theorem inCents_centsOfMajor (d : Decimal) : d.InCents (centsOfMajor d) := by
  rw [centsOfMajor]
  split
  · rename_i hneg
    exact .notPositive ((value_nonpos_iff d).2 hneg)
  · rename_i hpos
    have hvalue_pos := (value_pos_iff d).2 (not_le.1 hpos)
    dsimp only
    split
    · rename_i hscale
      exact .of_places hvalue_pos (value_normalize d) (trimmed_normalize d) hscale
    · rename_i hscale
      exact .of_whole hvalue_pos (value_normalize d ▸ hundred_value_eq (not_lt.1 hscale))

/-! ## Decimals of 96 bits -/

/-- What the conversion needs from a library of decimals of 96 bits: normal forms, products that may be refused, and
whole numbers as words. -/
structure Arithmetic where
  normalize : Decimal → Decimal
  mul? : Decimal → Decimal → Option Decimal
  toCents? : Decimal → Option Cents

/-- What such a library promises. A product of mantissas that fits is not refused, and one that is out of range is; what
is given is exact wherever the product is a decimal. -/
structure Arithmetic.Exact (a : Arithmetic) : Prop where
  value_normalize {d : Decimal} (hd : d.InRange) : (a.normalize d).value = d.value
  trimmed_normalize {d : Decimal} (hd : d.InRange) : (a.normalize d).Trimmed
  inRange_normalize {d : Decimal} (hd : d.InRange) : (a.normalize d).InRange
  mul_fits {d e : Decimal} (hd : d.InRange) (he : e.InRange) (hmantissa : |d.mantissa * e.mantissa| < 2 ^ 96)
    (hscale : d.scale + e.scale ≤ 28) : (a.mul? d e).isSome
  mul_overflow {d e : Decimal} (hd : d.InRange) (he : e.InRange) (hlarge : 2 ^ 96 ≤ |d.value * e.value|) :
    a.mul? d e = none
  mul_exact {d e p q : Decimal} (hd : d.InRange) (he : e.InRange) (hp : a.mul? d e = some p) (hq : q.InRange)
    (hvalue : q.value = d.value * e.value) : p.InRange ∧ p.value = d.value * e.value
  toCents_whole {d : Decimal} (hd : d.InRange) {n : ℤ} (hn : d.value = n) :
    a.toCents? d = if -2 ^ 63 ≤ n ∧ n ≤ maxCents then some (Int64.ofInt n) else none

namespace Arithmetic

/-- The conversion of major units, with the operations of the library. -/
def centsOf (a : Arithmetic) (amount : Decimal) : Except MoneyError Cents :=
  if amount.mantissa ≤ 0 then
    .error .invalidAmount
  else
    let d := a.normalize amount
    if d.scale > minorPlaces then
      .error (.precisionOverflow d.scale minorPlaces)
    else
      match a.mul? d ⟨10 ^ minorPlaces, 0⟩ with
      | none => .error .overflow
      | some scaled =>
        match a.toCents? scaled with
        | none => .error .overflow
        | some cents => .ok cents

variable {a : Arithmetic}

/-- The decimal that the conversion multiplies by. -/
theorem hundred_inRange : InRange ⟨10 ^ minorPlaces, 0⟩ :=
  ⟨by norm_num [minorPlaces], by norm_num⟩

/-- The product with one hundred is one hundred times as much. -/
theorem value_mul_hundred (d : Decimal) : d.value * value ⟨10 ^ minorPlaces, 0⟩ = 100 * d.value := by
  rw [mul_comm]
  norm_num [value, minorPlaces]

/-- With no more than two places, a product that is refused is larger than any amount of cents. -/
theorem Exact.large_of_refused (h : a.Exact) (hd : d.InRange) (hscale : d.scale ≤ minorPlaces) (hpos : 0 < d.value)
    (hmul : a.mul? d ⟨10 ^ minorPlaces, 0⟩ = none) : (maxCents : ℚ) < 100 * d.value := by
  by_contra! hle
  -- The mantissas of a product that fits in 63 bits have at most two more places, which 96 bits hold.
  have hplaces : (10 : ℚ) ^ d.scale ≤ 10 ^ minorPlaces := pow_le_pow_right₀ (by norm_num) hscale
  have hproduct : ((d.mantissa * 10 ^ minorPlaces : ℤ) : ℚ) ≤ maxCents * 10 ^ minorPlaces :=
    calc ((d.mantissa * 10 ^ minorPlaces : ℤ) : ℚ) = 100 * d.value * 10 ^ d.scale := by
          push_cast
          rw [← value_mul_pow, minorPlaces]
          ring
      _ ≤ maxCents * 10 ^ minorPlaces := mul_le_mul hle hplaces (by positivity) (by norm_num [maxCents])
  have hfits : |d.mantissa * 10 ^ minorPlaces| < 2 ^ 96 := by
    rw [abs_of_pos (mul_pos ((value_pos_iff d).1 hpos) (by norm_num))]
    exact lt_of_le_of_lt (by exact_mod_cast hproduct) (by norm_num [maxCents, minorPlaces])
  have hgiven := h.mul_fits hd hundred_inRange hfits (hscale.trans (by decide))
  rw [hmul] at hgiven
  cases hgiven

/-- Where the product is given, it is exact. -/
theorem Exact.scaled (h : a.Exact) (hd : d.InRange) {p : Decimal} (hscale : d.scale ≤ minorPlaces)
    (hmul : a.mul? d ⟨10 ^ minorPlaces, 0⟩ = some p) : p.InRange ∧ p.value = 100 * d.value := by
  rw [← value_mul_hundred]
  by_cases hlarge : 2 ^ 96 ≤ |d.value * value ⟨10 ^ minorPlaces, 0⟩|
  · rw [h.mul_overflow hd hundred_inRange hlarge] at hmul
    cases hmul
  · -- The product is a whole number below the range, which is a decimal without places.
    rw [value_mul_hundred, hundred_value_eq hscale] at hlarge
    refine h.mul_exact hd hundred_inRange hmul (q := ⟨d.mantissa * 10 ^ (minorPlaces - d.scale), 0⟩) ⟨?_, by simp⟩ ?_
    · exact_mod_cast not_le.1 hlarge
    · rw [value_mul_hundred, hundred_value_eq hscale]
      simp [value]

/-- The conversion is right with any library that keeps its promises. -/
theorem Exact.inCents_centsOf (h : a.Exact) (hd : d.InRange) : d.InCents (a.centsOf d) := by
  rw [centsOf]
  split
  · rename_i hneg
    exact .notPositive ((value_nonpos_iff d).2 hneg)
  · rename_i hpos
    have hvalue_pos := (value_pos_iff d).2 (not_le.1 hpos)
    have hvalue := h.value_normalize hd
    have hrange := h.inRange_normalize hd
    dsimp only
    split
    · rename_i hscale
      exact .of_places hvalue_pos hvalue (h.trimmed_normalize hd) hscale
    · rename_i hscale
      have hplaces := not_lt.1 hscale
      have hcents := hundred_value_eq hplaces
      cases hmul : a.mul? (a.normalize d) ⟨10 ^ minorPlaces, 0⟩ with
      | none =>
        refine .tooLarge hvalue_pos ⟨_, hvalue ▸ hcents⟩ ?_
        exact hvalue ▸ h.large_of_refused hrange hplaces (hvalue ▸ hvalue_pos) hmul
      | some p =>
        obtain ⟨hp, hpvalue⟩ := h.scaled hrange hplaces hmul
        have hwhole := hpvalue.trans hcents
        have hcents_pos : 0 < (a.normalize d).mantissa * 10 ^ (minorPlaces - (a.normalize d).scale) :=
          mul_pos ((value_pos_iff _).1 (hvalue ▸ hvalue_pos)) (by norm_num)
        have hgiven := InCents.of_whole hvalue_pos (hvalue ▸ hcents)
        simp only [h.toCents_whole hp hwhole]
        split at hgiven
        · rename_i hlarge
          rwa [if_neg fun hfits => absurd hfits.2 (not_le.2 hlarge)]
        · rename_i hfits
          rwa [if_pos ⟨by omega, not_lt.1 hfits⟩]

/-- Decimals of 96 bits whose products are refused unless they can be given exactly. -/
def strict : Arithmetic where
  normalize := Decimal.normalize
  mul? d e :=
    let p : Decimal := ⟨d.mantissa * e.mantissa, d.scale + e.scale⟩
    if p.InRange then some p else if p.normalize.InRange then some p.normalize else none
  toCents? d :=
    let n := d.mantissa.tdiv (10 ^ d.scale)
    if -2 ^ 63 ≤ n ∧ n ≤ maxCents then some (Int64.ofInt n) else none

/-- The strict library keeps its promises. -/
theorem strict_exact : strict.Exact where
  value_normalize _ := Decimal.value_normalize _
  trimmed_normalize _ := Decimal.trimmed_normalize _
  inRange_normalize hd := hd.normalize
  mul_fits {d e} hd he hmantissa hscale := by
    simp only [strict, if_pos (InRange.mk (d := ⟨d.mantissa * e.mantissa, d.scale + e.scale⟩) hmantissa hscale),
      Option.isSome_some]
  mul_overflow {d e} hd he hlarge := by
    rw [← value_mul] at hlarge
    simp only [strict, if_neg (not_inRange_of_large hlarge)]
    rw [← Decimal.value_normalize] at hlarge
    exact if_neg (not_inRange_of_large hlarge)
  mul_exact {d e p q} hd he hp hq hvalue := by
    rw [← value_mul]
    simp only [strict] at hp
    split at hp
    · cases hp
      exact ⟨‹_›, rfl⟩
    · split at hp
      · cases hp
        exact ⟨‹_›, Decimal.value_normalize _⟩
      · cases hp
  toCents_whole {d} hd n hn := by
    have hmantissa : d.mantissa = n * 10 ^ d.scale := by
      have hq := value_mul_pow d
      rw [hn] at hq
      exact_mod_cast hq.symm
    simp only [strict, hmantissa, Int.mul_tdiv_cancel n (pow_ne_zero d.scale (by decide : (10 : ℤ) ≠ 0))]

end Arithmetic

end Decimal

/-! ## Cents in major units -/

open Decimal

/-- A text tells an amount of cents: a sign if it is negative, the units without a zero too many, a point, and two
places. -/
structure TellsCents (c : Cents) (sign units places : List Char) : Prop where
  sign_eq : sign = if c < 0 then ['-'] else []
  units_ne_nil : units ≠ []
  units_digits : AreDigits units
  units_head : units.head? = some '0' → units = ['0']
  places_length : places.length = 2
  places_digits : AreDigits places
  total : Nat.ofDigitChars 10 units 0 * 100 + Nat.ofDigitChars 10 places 0 = c.toInt.natAbs

/-- An amount in major units is a hundredth of its cents. -/
theorem value_majorOfCents (c : Cents) : (majorOfCents c).value = c.toInt / 100 := by
  norm_num [Decimal.value, majorOfCents, minorPlaces]

/-- Every amount of cents is a decimal in range. -/
theorem inRange_majorOfCents (c : Cents) : (majorOfCents c).InRange := by
  have hmin := c.le_toInt
  have hmax := c.toInt_lt
  refine ⟨abs_lt.2 ⟨?_, ?_⟩, (by decide : minorPlaces ≤ 28)⟩ <;> simp only [majorOfCents] <;> omega

/-- The text of an amount in major units has exactly two places and no superfluous zero. -/
theorem text_majorOfCents (c : Cents) :
    ∃ sign units places, (majorOfCents c).text = String.ofList (sign ++ units ++ '.' :: places) ∧
      TellsCents c sign units places := by
  refine ⟨_, digits (c.toInt.natAbs / 100), padded 2 (c.toInt.natAbs % 100), ?_, rfl, digits_ne_nil _,
    areDigits_digits _, ?_, ?_, areDigits_padded _ _, ?_⟩
  · simp only [Decimal.text, majorOfCents, minorPlaces, cents_lt_zero_iff]
    rfl
  · intro hhead
    rw [head_digits hhead]
    rfl
  · exact length_padded (by decide) (Nat.mod_lt _ (by decide))
  · rw [ofDigitChars_digits, ofDigitChars_padded]
    omega

/-- The sign is found before the point, since it is no digit. -/
theorem TellsCents.minus_mem_iff {c : Cents} {sign units places : List Char} (h : TellsCents c sign units places) :
    '-' ∈ sign ++ units ↔ c < 0 := by
  have hunits : '-' ∉ units := fun hmem => absurd (h.units_digits '-' hmem) (by decide)
  rw [h.sign_eq]
  split <;> simp_all

/-- A text tells at most one amount. -/
theorem TellsCents.unique {c c' : Cents} {sign units places sign' units' places' : List Char}
    (h : TellsCents c sign units places) (h' : TellsCents c' sign' units' places')
    (heq : sign ++ units ++ '.' :: places = sign' ++ units' ++ '.' :: places') : c = c' := by
  obtain ⟨hfront, htail⟩ := List.append_inj' heq (by simp only [List.length_cons, h.places_length, h'.places_length])
  have hneg : c < 0 ↔ c' < 0 := by rw [← h.minus_mem_iff, ← h'.minus_mem_iff, hfront]
  have hsign : sign = sign' := by simp only [h.sign_eq, h'.sign_eq, hneg]
  rw [hsign] at hfront
  have htotal := h.total
  rw [List.append_cancel_left hfront, (List.cons.inj htail).2, h'.total] at htotal
  rw [cents_lt_zero_iff, cents_lt_zero_iff] at hneg
  exact Int64.toInt_inj.1 (by omega)

/-- Different amounts are printed differently. -/
theorem text_majorOfCents_injective {c c' : Cents} (htext : (majorOfCents c).text = (majorOfCents c').text) :
    c = c' := by
  obtain ⟨sign, units, places, hc, htells⟩ := text_majorOfCents c
  obtain ⟨sign', units', places', hc', htells'⟩ := text_majorOfCents c'
  rw [hc, hc'] at htext
  exact htells.unique htells' (String.ofList_injective htext)

/-- A positive amount in major units is given back. -/
theorem centsOfMajor_majorOfCents {c : Cents} (hpos : 0 < c) : centsOfMajor (majorOfCents c) = .ok c := by
  refine (inCents_centsOfMajor _).unique (.exact ?_ ?_)
  · rw [value_pos_iff]
    exact Int64.lt_iff_toInt_lt.1 hpos
  · rw [value_majorOfCents]
    ring

/-- Conversion is exact in both directions, whichever library of decimals of 96 bits computes it: a decimal is in cents
what `Decimal.InCents` says and nothing else, and an amount of cents is a decimal of its value that is printed with two
places, differently from all others, and is given back if it is positive. -/
theorem conversions_exact (a : Arithmetic) (h : a.Exact) :
    (∀ d : Decimal, d.InRange → a.centsOf d = centsOfMajor d ∧ ∀ r, centsOfMajor d = r ↔ d.InCents r) ∧
      ∀ c : Cents, (majorOfCents c).InRange ∧ (majorOfCents c).value = c.toInt / 100 ∧
        (∃ sign units places, (majorOfCents c).text = String.ofList (sign ++ units ++ '.' :: places) ∧
          TellsCents c sign units places) ∧
        (∀ c', (majorOfCents c).text = (majorOfCents c').text → c = c') ∧
        (0 < c → centsOfMajor (majorOfCents c) = .ok c) := by
  refine ⟨fun d hd => ⟨?_, fun r => ⟨?_, ?_⟩⟩,
    fun c => ⟨inRange_majorOfCents c, value_majorOfCents c, text_majorOfCents c, ?_, ?_⟩⟩
  · exact (h.inCents_centsOf hd).unique (inCents_centsOfMajor d)
  · rintro rfl
    exact inCents_centsOfMajor d
  · exact (inCents_centsOfMajor d).unique
  · exact fun c' => text_majorOfCents_injective
  · exact centsOfMajor_majorOfCents

/-- The largest amount of cents, given with a zero too many, and an amount below zero. -/
theorem conversions_exact_strict :
    Arithmetic.strict.Exact ∧ Arithmetic.strict.centsOf ⟨92_233_720_368_547_758_070, 3⟩ = .ok Int64.maxValue ∧
      InCents ⟨92_233_720_368_547_758_070, 3⟩ (.ok Int64.maxValue) ∧ (majorOfCents (-5)).text = "-0.05" := by
  obtain ⟨hdecimals, -⟩ := conversions_exact Arithmetic.strict Arithmetic.strict_exact
  obtain ⟨heq, hiff⟩ := hdecimals ⟨92_233_720_368_547_758_070, 3⟩ (by decide)
  have hvalue : centsOfMajor ⟨92_233_720_368_547_758_070, 3⟩ = .ok Int64.maxValue := by decide
  exact ⟨Arithmetic.strict_exact, heq.trans hvalue, (hiff _).1 hvalue, by decide⟩

end CentLedger
