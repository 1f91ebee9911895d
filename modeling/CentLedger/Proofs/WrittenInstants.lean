import CentLedger.Proofs.Dates
import CentLedger.Proofs.Digits

/-!
# Instants are read back

An instant that the ledger's clock reaches is read back from its text as it was, to the nanosecond and with its leap
second (`Instant.read_text`): the date and the time of day that it shows are those that it was made of, and each part
of the text is read up to the mark after it.
-/

namespace CentLedger

namespace Instant

open Decimal

/-! ## The parts of a text -/

/-- No digit is blank. -/
theorem not_isBlank_of_isDigit {c : Char} (h : c.isDigit = true) : isBlank c = false := by
  simp only [Char.isDigit, Bool.and_eq_true, decide_eq_true_eq, ge_iff_le, UInt32.le_iff_toNat_le] at h
  have hlo : 48 ≤ c.toNat := h.1
  have hhi : c.toNat ≤ 57 := h.2
  simp only [isBlank, Bool.or_eq_false_iff, Bool.and_eq_false_iff, decide_eq_false_iff_not, beq_eq_false_iff_ne]
  omega

/-- Nothing is trimmed before digits. -/
theorem trimStart_padded (width n : Nat) (rest : List Char) :
    trimStart (padded width n ++ rest) = padded width n ++ rest := by
  obtain ⟨c, cs, hcs⟩ := List.exists_cons_of_ne_nil (padded_ne_nil width n)
  have hc : c.isDigit = true := areDigits_padded width n c (hcs ▸ List.mem_cons_self)
  rw [hcs, List.cons_append]
  exact List.dropWhile_cons_of_neg (by simp [not_isBlank_of_isDigit hc])

/-- A year begins with no blank. -/
theorem trimStart_yearText (y : Int) (rest : List Char) : trimStart (yearText y ++ rest) = yearText y ++ rest := by
  unfold yearText
  split
  · exact trimStart_padded _ _ _
  · split <;> exact List.dropWhile_cons_of_neg (by decide)

/-- A mark is read where it stands. -/
theorem readMark_cons {c : Char} (hc : isBlank c = false) (rest : List Char) : readMark c (c :: rest) = some rest := by
  rw [readMark, trimStart, List.dropWhile_cons_of_neg (by simp [hc])]
  exact if_pos rfl

/-- A mark is no digit. -/
theorem noDigit_mark {c : Char} {rest : List Char} (hc : c.isDigit = false) : NoDigit (c :: rest) :=
  noDigit_cons.2 hc

/-- A year is read up to the mark after it. -/
theorem readYear_yearText (y : Int) (rest : List Char) :
    readYear (yearText y ++ '-' :: rest) = some (y, '-' :: rest) := by
  have hmark : NoDigit ('-' :: rest) := noDigit_mark rfl
  have hsigned : ∀ n : Nat, readNumber (padded 4 n ++ '-' :: rest).length (padded 4 n ++ '-' :: rest) =
      some (n, '-' :: rest) := by
    intro n
    rw [readNumber_append (padded_ne_nil 4 n) (areDigits_padded 4 n) (by simp) (Or.inr hmark), ofDigitChars_padded]
  unfold yearText
  split
  · rename_i hfour
    obtain ⟨c, cs, hcs⟩ := List.exists_cons_of_ne_nil (padded_ne_nil 4 y.toNat)
    have hc : c.isDigit = true := areDigits_padded 4 y.toNat c (hcs ▸ List.mem_cons_self)
    have hread : readYear (padded 4 y.toNat ++ '-' :: rest) =
        (readNumber 4 (padded 4 y.toNat ++ '-' :: rest)).map fun x => ((x.1 : Int), x.2) := by
      rw [hcs, List.cons_append]
      unfold readYear
      split
      · rename_i h
        cases h
        cases hc
      · rename_i h
        cases h
        cases hc
      · rfl
    rw [hread, readNumber_padded (by decide) (by omega) (Nat.le_refl 4) (Or.inr hmark)]
    exact congrArg (fun x => some (x, '-' :: rest)) (Int.toNat_of_nonneg hfour.1)
  · have hminus : ∀ s, readYear ('-' :: s) = (readNumber s.length s).map fun x => (-(x.1 : Int), x.2) := fun _ => rfl
    have hplus : ∀ s, readYear ('+' :: s) = (readNumber s.length s).map fun x => ((x.1 : Int), x.2) := fun _ => rfl
    split
    · rename_i hneg
      rw [List.cons_append, hminus, hsigned]
      exact congrArg (fun x => some (x, '-' :: rest)) (by omega)
    · rename_i hpos
      rw [List.cons_append, hplus, hsigned]
      exact congrArg (fun x => some (x, '-' :: rest)) (by omega)

/-- Decimals that were written are read as nanoseconds. -/
theorem readFraction_padded {width n : Nat} (hwidth : 0 < width) (hnine : width ≤ 9) (hfits : n < 10 ^ width) :
    readFraction ('.' :: padded width n ++ ['Z']) = some (n * 10 ^ (9 - width), ['Z']) := by
  have hnumber : readNumber 9 (padded width n ++ ['Z']) = some (n, ['Z']) :=
    readNumber_padded hwidth hfits hnine (Or.inr (noDigit_mark rfl))
  have hlen : (padded width n ++ ['Z']).length - ['Z'].length = width := by
    rw [List.length_append, length_padded hwidth hfits, Nat.add_sub_cancel]
  rw [List.cons_append]
  simp only [readFraction, hnumber, hlen]
  rfl

/-- The decimals of a second are read back. -/
theorem readFraction_fractionText {nanos : Nat} (h : nanos < 1_000_000_000) :
    readFraction (fractionText nanos ++ ['Z']) = some (nanos, ['Z']) := by
  unfold fractionText
  split
  · rename_i hzero
    rw [hzero]
    rfl
  · split
    · rename_i hmillis
      rw [readFraction_padded (by decide) (by decide) (by omega)]
      exact congrArg (fun x => some (x, ['Z'])) (by omega)
    · split
      · rename_i hmicros
        rw [readFraction_padded (by decide) (by decide) (by omega)]
        exact congrArg (fun x => some (x, ['Z'])) (by omega)
      · rw [readFraction_padded (by decide) (by decide) (by omega)]
        exact congrArg (fun x => some (x, ['Z'])) (by omega)

/-! ## The whole text -/

/-- The second that an instant shows: a leap second counts as the sixtieth of its minute. -/
def shownSecond (t : Instant) : Nat :=
  if t.nanos < 1_000_000_000 then t.timeOfDay.second else t.timeOfDay.second + 1

/-- A reader goes on with what it has read. -/
theorem bind_of_eq {α β : Type} {found : Option α} {a : α} (h : found = some a) (next : α → Option β) :
    (found >>= next) = next a := by
  rw [h]
  rfl

/-- The text of an instant is read as the date, the time of day and the decimals that it shows. -/
theorem readChars_chars (t : Instant) :
    readChars t.chars = ofLocal t.date t.timeOfDay.hour t.timeOfDay.minute t.shownSecond (t.nanos % 1_000_000_000) 0 := by
  have hvalid : Calendar.Valid t.date := Calendar.valid_dateOfDays t.days
  obtain ⟨-, hmonth, -, hday⟩ := hvalid
  have hlength := Calendar.monthLength_le t.date.year t.date.month
  obtain ⟨hhour, hminute, hsecond⟩ := t.timeOfDay_bounds
  have hshown : t.shownSecond < 10 ^ 2 := by
    unfold shownSecond
    split <;> omega
  have hnanos : t.nanos % 1_000_000_000 < 1_000_000_000 := Nat.mod_lt _ (by decide)
  have hyear : ∀ rest, readYear (trimStart (yearText t.date.year ++ '-' :: rest)) = some (t.date.year, '-' :: rest) := by
    intro rest
    rw [trimStart_yearText, readYear_yearText]
  have htwo : ∀ {n : Nat}, n < 10 ^ 2 → ∀ rest, readNumber 2 (trimStart (padded 2 n ++ rest)) = some (n, rest) := by
    intro n hn rest
    rw [trimStart_padded, readNumber_padded (by decide) hn (Nat.le_refl 2) (Or.inl rfl)]
  have hchars : t.chars = yearText t.date.year ++ '-' :: (padded 2 t.date.month ++ '-' :: (padded 2 t.date.day ++
      'T' :: (padded 2 t.timeOfDay.hour ++ ':' :: (padded 2 t.timeOfDay.minute ++ ':' :: (padded 2 t.shownSecond ++
        (fractionText (t.nanos % 1_000_000_000) ++ ['Z'])))))) := by
    simp only [chars, shownSecond, List.append_assoc, List.cons_append]
  rw [hchars]
  refine (bind_of_eq (hyear _) _).trans ?_
  refine (bind_of_eq (readMark_cons (by decide) _) _).trans ?_
  refine (bind_of_eq (htwo (n := t.date.month) (by omega) _) _).trans ?_
  refine (bind_of_eq (readMark_cons (by decide) _) _).trans ?_
  refine (bind_of_eq (htwo (n := t.date.day) (by omega) _) _).trans ?_
  refine (bind_of_eq (htwo (n := t.timeOfDay.hour) (by omega) _) _).trans ?_
  refine (bind_of_eq (readMark_cons (by decide) _) _).trans ?_
  refine (bind_of_eq (htwo (n := t.timeOfDay.minute) (by omega) _) _).trans ?_
  refine (bind_of_eq (readMark_cons (by decide) _) _).trans ?_
  refine (bind_of_eq (htwo hshown _) _).trans ?_
  exact bind_of_eq (readFraction_fractionText hnanos) _

/-- What an instant shows is the instant again. -/
theorem ofLocal_shown {t : Instant} (hreach : inReach t.date.year = true) :
    ofLocal t.date t.timeOfDay.hour t.timeOfDay.minute t.shownSecond (t.nanos % 1_000_000_000) 0 = some t := by
  have hvalid : Calendar.Valid t.date := Calendar.valid_dateOfDays t.days
  obtain ⟨hhour, hminute, hsecond⟩ := t.timeOfDay_bounds
  have hnanos : t.nanos < 2_000_000_000 := by
    rcases t.valid with h | h <;> omega
  have hparts : (if t.shownSecond = 60 then 59 else t.shownSecond) = t.timeOfDay.second ∧
      (if t.shownSecond = 60 then t.nanos % 1_000_000_000 + 1_000_000_000 else t.nanos % 1_000_000_000) = t.nanos ∧
      t.shownSecond ≤ 60 := by
    unfold shownSecond
    split
    · rename_i h
      rw [if_neg (by omega), if_neg (by omega)]
      omega
    · rename_i h
      have hlast := second_of_leap (t := t) (by omega)
      rw [hlast, if_pos rfl, if_pos rfl]
      omega
  obtain ⟨hwhole, hnanos, hsixty⟩ := hparts
  have hseconds := t.seconds_eq
  unfold ofLocal
  rw [if_pos ⟨hvalid, hreach, hhour, hminute, hsixty, by decide, by decide⟩]
  simp only [hwhole, hnanos, Int.sub_zero, ← hseconds]
  rw [dif_pos t.valid, if_pos hreach]

/-- An instant that the ledger's clock reaches is read back from its text. -/
theorem read_text {t : Instant} (hreach : inReach t.date.year = true) : read t.text = some t := by
  rw [read, text, String.toList_ofList, readChars_chars, ofLocal_shown hreach]

/-- The year of an instant has four digits. -/
def InFourDigits (t : Instant) : Prop :=
  0 ≤ t.date.year ∧ t.date.year ≤ 9999

instance (t : Instant) : Decidable t.InFourDigits :=
  inferInstanceAs (Decidable (_ ∧ _))

/-- An instant of a year with four digits is read back from its text. -/
theorem InFourDigits.read_text {t : Instant} (h : t.InFourDigits) : read t.text = some t := by
  refine Instant.read_text ?_
  have hfrom : minYear ≤ t.date.year := Int.le_trans (by decide) h.1
  have hto : t.date.year ≤ maxYear := Int.le_trans h.2 (by decide)
  simp [inReach, hfrom, hto]

end Instant

end CentLedger
