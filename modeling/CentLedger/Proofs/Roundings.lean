import CentLedger.Proofs.Conversions

/-!
# Roundings

A number is rounded to places if the result has no more of them and is nearest among all numbers that have not, with the
even last digit if there are two such (`RoundsTo`). Counted in units of the last place it is the nearest whole number
(`NearestEven`), as `Decimal.roundDiv` computes it. Numbers that are close to each other may be rounded differently; a
fraction is rounded like a number close to it if they are closer than one half of a part of its denominator, unless the
fraction is in the middle between two whole numbers (`NearestEven.of_close`).
-/

namespace CentLedger

/-! ## Nearest numbers -/

/-- The number with so many places that is nearest to another one; of two such numbers, the one whose last digit is
even. -/
structure RoundsTo (places : ℕ) (x y : ℚ) : Prop where
  whole : Whole (10 ^ places * y)
  nearest : ∀ z, Whole (10 ^ places * z) → |x - y| ≤ |x - z|
  even : ∀ z, Whole (10 ^ places * z) → z ≠ y → |x - z| = |x - y| → ∃ n : ℤ, 10 ^ places * y = 2 * n

/-- The whole number that is nearest, an even one if there are two, as it is told from the distance alone. -/
structure NearestEven (x : ℚ) (k : ℤ) : Prop where
  near : |x - k| ≤ 1 / 2
  even : |x - k| = 1 / 2 → Even k

namespace NearestEven

variable {x y : ℚ} {j k : ℤ}

/-- No other whole number is nearer than one half. -/
theorem half_le (h : NearestEven x k) (hne : j ≠ k) : 1 / 2 ≤ |x - j| := by
  have hgap : (1 : ℚ) ≤ |(j : ℚ) - k| := by exact_mod_cast Int.one_le_abs (sub_ne_zero.2 hne)
  have htri := abs_sub_le (j : ℚ) x k
  rw [abs_sub_comm (j : ℚ) x] at htri
  linarith [h.near]

theorem unique (hj : NearestEven x j) (hk : NearestEven x k) : j = k := by
  by_contra hne
  have hj_half := le_antisymm hj.near (hk.half_le hne)
  have hk_half := le_antisymm hk.near (hj.half_le (Ne.symm hne))
  -- two even numbers are not one apart
  obtain ⟨a, rfl⟩ := hj.even hj_half
  obtain ⟨b, rfl⟩ := hk.even hk_half
  have hgap : |((a + a : ℤ) : ℚ) - (b + b : ℤ)| ≤ 1 := by
    have htri := abs_sub_le ((a + a : ℤ) : ℚ) x (b + b : ℤ)
    rw [abs_sub_comm ((a + a : ℤ) : ℚ) x] at htri
    linarith
  have hint : |(a + a) - (b + b)| ≤ 1 := by exact_mod_cast hgap
  rw [abs_le] at hint
  omega

/-- Rounding does not lead over a whole number. -/
theorem abs_le_of_abs_le (h : NearestEven x k) {m : ℕ} (hx : |x| ≤ m) : |k| ≤ m := by
  have htri := abs_sub_abs_le_abs_sub (k : ℚ) x
  rw [abs_sub_comm] at htri
  have hlt : |(k : ℚ)| < m + 1 := by linarith [h.near]
  exact Int.lt_add_one_iff.1 (by exact_mod_cast hlt)

theorem le_abs_of_le_abs (h : NearestEven x k) {m : ℕ} (hx : m ≤ |x|) : m ≤ |k| := by
  have htri := abs_sub_abs_le_abs_sub x (k : ℚ)
  have hlt : (m : ℚ) < |(k : ℚ)| + 1 := by linarith [h.near]
  exact Int.lt_add_one_iff.1 (by exact_mod_cast hlt)

/-- A whole number that is no nearer than its neighbours are. -/
theorem of_neighbours (hnext : |x - k| ≤ |x - (k + 1 : ℤ)|) (hlast : |x - k| ≤ |x - (k - 1 : ℤ)|)
    (heven : ∀ j : ℤ, j ≠ k → |x - j| = |x - k| → Even k) : NearestEven x k := by
  have hupper : x - k ≤ 1 / 2 := by
    have hsq := sq_le_sq.2 hnext
    push_cast at hsq
    linarith
  have hlower : -(1 / 2) ≤ x - k := by
    have hsq := sq_le_sq.2 hlast
    push_cast at hsq
    linarith
  refine ⟨abs_le.2 ⟨hlower, hupper⟩, fun hhalf => ?_⟩
  rcases (abs_eq (by norm_num)).1 hhalf with hmiddle | hmiddle
  · refine heven (k + 1) (by omega) ?_
    rw [hhalf, show x - (k + 1 : ℤ) = -(1 / 2) by push_cast; linarith]
    norm_num
  · refine heven (k - 1) (by omega) ?_
    rw [hhalf, show x - (k - 1 : ℤ) = 1 / 2 by push_cast; linarith]
    norm_num

section

variable {n : ℕ} {t : ℤ}

/-- In halves of a part of its denominator, the distance of a fraction from a whole number is whole. -/
theorem two_mul_dist (hx : n * x = t) (k : ℤ) : 2 * n * |x - k| = (|2 * (t - n * k)| : ℤ) := by
  push_cast
  rw [← hx, ← mul_sub, ← mul_assoc, abs_mul, abs_of_nonneg (by positivity : (0 : ℚ) ≤ 2 * n)]

/-- Which whole number is nearest to a fraction is told from its parts. -/
theorem iff_of_fraction (hn : 0 < n) (hx : n * x = t) :
    NearestEven x k ↔ |2 * (t - n * k)| ≤ n ∧ (|2 * (t - n * k)| = n → Even k) := by
  have hpos : (0 : ℚ) < n := Nat.cast_pos.2 hn
  have hdist := two_mul_dist hx k
  have hnear : |x - k| ≤ 1 / 2 ↔ |2 * (t - n * k)| ≤ n := by
    rw [← Int.cast_le (R := ℚ), ← hdist, Int.cast_natCast]
    constructor <;> intro _ <;> nlinarith
  have hmiddle : |x - k| = 1 / 2 ↔ |2 * (t - n * k)| = n := by
    rw [← Int.cast_inj (α := ℚ), ← hdist, Int.cast_natCast]
    constructor <;> intro _ <;> nlinarith
  rw [← hnear, ← hmiddle]
  exact ⟨fun h => ⟨h.near, h.even⟩, fun h => ⟨h.1, h.2⟩⟩

/-- A fraction and a number close to it are rounded alike, if a fraction in the middle is that number. -/
theorem of_close (h : NearestEven y k) (hn : 0 < n) (hx : n * x = t) (hclose : 2 * n * |y - x| < 1)
    (hmiddle : ∀ j : ℤ, x = j + 1 / 2 → y = x) : NearestEven x k := by
  have hpos : (0 : ℚ) < n := Nat.cast_pos.2 hn
  have hdist := two_mul_dist hx k
  constructor
  · -- the number is within one half, and the fraction less than a part farther, so it is not farther at all
    have hlt : (|2 * (t - n * k)| : ℤ) < (n + 1 : ℚ) := by
      have htri := abs_sub_le x y k
      rw [abs_sub_comm x y] at htri
      rw [← hdist]
      nlinarith [h.near]
    have hle : ((|2 * (t - n * k)| : ℤ) : ℚ) ≤ n := by
      exact_mod_cast Int.lt_add_one_iff.1 (by exact_mod_cast hlt : |2 * (t - n * k)| < (n : ℤ) + 1)
    nlinarith
  · intro hhalf
    obtain ⟨j, hj⟩ : ∃ j : ℤ, x = j + 1 / 2 := by
      rcases (abs_eq (by norm_num)).1 hhalf with hmiddle | hmiddle
      · exact ⟨k, by linarith⟩
      · exact ⟨k - 1, by push_cast; linarith⟩
    exact h.even (hmiddle j hj ▸ hhalf)

end

end NearestEven

/-- Rounding to places is rounding to a whole number of units of the last place. -/
theorem roundsTo_iff {places : ℕ} {x y : ℚ} :
    RoundsTo places x y ↔ ∃ k : ℤ, 10 ^ places * y = k ∧ NearestEven (10 ^ places * x) k := by
  have hten : (0 : ℚ) < 10 ^ places := by positivity
  have hunits (z : ℚ) : |10 ^ places * x - 10 ^ places * z| = 10 ^ places * |x - z| := by
    rw [← mul_sub, abs_mul, abs_of_pos hten]
  constructor
  · intro h
    obtain ⟨k, hk⟩ := h.whole
    have hof (j : ℤ) : 10 ^ places * (j / 10 ^ places : ℚ) = j := mul_div_cancel₀ _ hten.ne'
    have hdist (j : ℤ) : |10 ^ places * x - j| = 10 ^ places * |x - j / 10 ^ places| := by
      rw [← hunits, hof]
    have hnear (j : ℤ) : |10 ^ places * x - k| ≤ |10 ^ places * x - j| := by
      rw [← hk, hunits, hdist]
      exact mul_le_mul_of_nonneg_left (h.nearest _ ⟨j, hof j⟩) hten.le
    refine ⟨k, hk, .of_neighbours (hnear _) (hnear _) fun j hne hsame => ?_⟩
    have hother : (j / 10 ^ places : ℚ) ≠ y := by
      rintro rfl
      exact hne (Int.cast_injective ((hof j).symm.trans hk))
    rw [← hk, hunits, hdist] at hsame
    obtain ⟨n, hn⟩ := h.even _ ⟨j, hof j⟩ hother (mul_left_cancel₀ hten.ne' hsame)
    exact even_iff_two_dvd.2 ⟨n, by exact_mod_cast hk.symm.trans hn⟩
  · rintro ⟨k, hk, h⟩
    have hle {z : ℚ} {j : ℤ} (hj : 10 ^ places * z = j) (hne : z ≠ y) : 1 / 2 ≤ 10 ^ places * |x - z| := by
      rw [← hunits, hj]
      refine h.half_le ?_
      rintro rfl
      exact hne (mul_left_cancel₀ hten.ne' (hj.trans hk.symm))
    have hnear : 10 ^ places * |x - y| ≤ 1 / 2 := by
      rw [← hunits, hk]
      exact h.near
    refine ⟨⟨k, hk⟩, ?_, ?_⟩
    · rintro z ⟨j, hj⟩
      by_cases hne : z = y
      · rw [hne]
      · exact le_of_mul_le_mul_left (hnear.trans (hle hj hne)) hten
    · rintro z ⟨j, hj⟩ hne hsame
      obtain ⟨n, rfl⟩ := h.even (by rw [← hk, hunits]; exact le_antisymm hnear (hsame ▸ hle hj hne))
      exact ⟨n, by rw [hk]; push_cast; ring⟩

/-- There is one such number only. -/
theorem RoundsTo.unique {places : ℕ} {x y z : ℚ} (hy : RoundsTo places x y) (hz : RoundsTo places x z) : y = z := by
  obtain ⟨j, hj, hyj⟩ := roundsTo_iff.1 hy
  obtain ⟨k, hk, hzk⟩ := roundsTo_iff.1 hz
  rw [hyj.unique hzk, ← hk] at hj
  exact mul_left_cancel₀ (by positivity) hj

namespace Decimal

/-- The rounded quotient of whole numbers is the whole number nearest to it. -/
theorem nearestEven_roundDiv (num : ℤ) {den : ℕ} (hden : 0 < den) : NearestEven (num / den) (roundDiv num den) := by
  have hquotient : (den : ℚ) * (num / den) = num := mul_div_cancel₀ _ (Nat.cast_ne_zero.2 hden.ne')
  have hrest := Int.emod_nonneg num (Int.natCast_ne_zero.2 hden.ne')
  have hlt := Int.emod_lt_of_pos num (Int.natCast_pos.2 hden)
  have hlast : num - den * (num / den) = num % den := by
    have hsplit := Int.mul_ediv_add_emod num den
    omega
  have hnext : num - den * (num / den + 1) = num % den - den := by
    rw [mul_add, ← hlast]
    omega
  rw [NearestEven.iff_of_fraction hden hquotient, Int.even_iff]
  unfold roundDiv
  dsimp only
  split_ifs with hbelow habove heven
  · rw [hlast, abs_le, abs_eq (by omega)]
    omega
  · rw [hnext, abs_le, abs_eq (by omega)]
    omega
  · rw [hlast, abs_le]
    exact ⟨by omega, fun _ => heven⟩
  · rw [hnext, abs_le]
    exact ⟨by omega, fun _ => by omega⟩

/-- Rounding a decimal to places. -/
theorem roundsTo_roundTo (d : Decimal) (places : ℕ) : RoundsTo places d.value (d.roundTo places).value := by
  rw [roundsTo_iff, roundTo]
  split
  · rename_i hle
    obtain ⟨j, hj⟩ := Nat.exists_eq_add_of_le hle
    have hwhole : 10 ^ places * d.value = ((d.mantissa * 10 ^ j : ℤ) : ℚ) := by
      rw [Int.cast_mul, ← value_mul_pow, hj]
      push_cast
      ring
    refine ⟨_, hwhole, ?_⟩
    rw [hwhole]
    exact ⟨by norm_num, by norm_num⟩
  · rename_i hgt
    obtain ⟨j, hj⟩ := Nat.exists_eq_add_of_le (not_le.1 hgt).le
    refine ⟨_, mul_div_cancel₀ _ (by positivity), ?_⟩
    have hquotient : 10 ^ places * d.value = d.mantissa / ((10 ^ (d.scale - places) : ℕ) : ℚ) := by
      rw [value, hj, Nat.add_sub_cancel_left, pow_add]
      push_cast
      field_simp
    rw [hquotient]
    exact nearestEven_roundDiv _ (by positivity)

end Decimal

end CentLedger
