import CentLedger.Time.Rfc3339
import Mathlib.Algebra.Group.Nat.Defs

/-!
# Decimal digits, written and read

A number is written with its decimal digits, and with zeros before them where a width is asked for. Digits that are
followed by something else are read as the number that they write (`Instant.readNumber_padded`).
-/

namespace CentLedger

namespace Decimal

/-- All characters are decimal digits. -/
def AreDigits (cs : List Char) : Prop :=
  ∀ c ∈ cs, c.isDigit = true

/-- A number is written in digits. -/
theorem areDigits_digits (n : Nat) : AreDigits (digits n) :=
  fun _ hc => Nat.isDigit_of_mem_toDigits (by decide) (by decide) hc

/-- A number is written with one digit at least. -/
theorem digits_ne_nil (n : Nat) : digits n ≠ [] :=
  Nat.toDigits_ne_nil

/-- A number is read back from its digits. -/
@[simp] theorem ofDigitChars_digits (n : Nat) : Nat.ofDigitChars 10 (digits n) 0 = n :=
  Nat.ofDigitChars_ten_toDigits

/-- Only zero begins with a zero. -/
theorem head_digits {n : Nat} (h : (digits n).head? = some '0') : n = 0 := by
  induction n using Nat.strongRecOn with
  | ind n ih =>
    unfold digits at h ih
    rw [Nat.toDigits_eq_if (by decide)] at h
    split at h
    · exact Nat.digitChar_eq_zero.1 (Option.some.inj h)
    · rename_i hge
      obtain ⟨c, cs, hcs⟩ := List.exists_cons_of_ne_nil (Nat.toDigits_ne_nil (b := 10) (n := n / 10))
      rw [hcs] at h
      have hless := ih (n / 10) (by omega) (by rw [hcs]; exact h)
      omega

/-- Zeros in front are digits too. -/
theorem areDigits_padded (width n : Nat) : AreDigits (padded width n) := by
  intro c hc
  rcases List.mem_append.1 hc with hzero | hdigit
  · rw [List.eq_of_mem_replicate hzero]
    rfl
  · exact areDigits_digits n c hdigit

/-- A padded number has one digit at least. -/
theorem padded_ne_nil (width n : Nat) : padded width n ≠ [] :=
  List.append_ne_nil_of_right_ne_nil _ (digits_ne_nil n)

/-- Zeros in front do not change the number that is read. -/
@[simp] theorem ofDigitChars_padded (width n : Nat) : Nat.ofDigitChars 10 (padded width n) 0 = n := by
  rw [padded, Nat.ofDigitChars_append, Nat.ofDigitChars_replicate_zero, Nat.mul_zero, ofDigitChars_digits]

/-- A number that fits has exactly the width. -/
theorem length_padded {width n : Nat} (hwidth : 0 < width) (hfits : n < 10 ^ width) :
    (padded width n).length = width := by
  have hlen : (digits n).length ≤ width := (Nat.length_toDigits_le_iff (by decide) hwidth).2 hfits
  rw [padded, List.length_append, List.length_replicate]
  omega

/-- A text does not go on with a digit. -/
def NoDigit (s : List Char) : Prop :=
  ∀ c ∈ s.head?, c.isDigit = false

/-- No digit comes next exactly if the next character is none. -/
theorem noDigit_cons {c : Char} {s : List Char} : NoDigit (c :: s) ↔ c.isDigit = false :=
  ⟨fun h => h c rfl, fun h _ hd => Option.some.inj hd ▸ h⟩

end Decimal

namespace Instant

open Decimal

/-- The value of a character that is a digit. -/
theorem digit?_of_isDigit {c : Char} (h : c.isDigit = true) : digit? c = some (c.toNat - '0'.toNat) := by
  simp only [Char.isDigit, Bool.and_eq_true, decide_eq_true_eq] at h
  exact if_pos ⟨h.1, h.2⟩

/-- A character that is not a decimal digit has no value. -/
theorem digit?_of_not_isDigit {c : Char} (h : c.isDigit = false) : digit? c = none := by
  refine if_neg ?_
  rintro ⟨hlo, hhi⟩
  have : c.isDigit = true := by
    simp only [Char.isDigit, Bool.and_eq_true, decide_eq_true_eq]
    exact ⟨hlo, hhi⟩
  rw [h] at this
  cases this

/-- Exactly the decimal digits have a value. -/
theorem isSome_digit? (c : Char) : (digit? c).isSome = c.isDigit := by
  cases h : c.isDigit with
  | true => rw [digit?_of_isDigit h]; rfl
  | false => rw [digit?_of_not_isDigit h]; rfl

/-- Digits are read up to their end, if the width allows. -/
theorem readDigits_append {cs rest : List Char} (hdigits : AreDigits cs) {width : Nat} (hlen : cs.length ≤ width)
    (hstop : cs.length = width ∨ NoDigit rest) (acc : Nat) :
    readDigits width acc (cs ++ rest) = (Nat.ofDigitChars 10 cs acc, rest) := by
  induction cs generalizing width acc with
  | nil =>
    cases width with
    | zero => rfl
    | succ width =>
      have hrest := hstop.resolve_left (by simp)
      cases rest with
      | nil => rfl
      | cons c rest => simp only [List.nil_append, readDigits, digit?_of_not_isDigit (noDigit_cons.1 hrest),
          Nat.ofDigitChars_nil]
  | cons c cs ih =>
    cases width with
    | zero => cases hlen
    | succ width =>
      have hmore : AreDigits cs := fun d hd => hdigits d (List.mem_cons_of_mem _ hd)
      have hsucc : cs.length = width ∨ NoDigit rest := hstop.imp_left fun h => by simpa using h
      rw [List.cons_append, readDigits, digit?_of_isDigit (hdigits c List.mem_cons_self)]
      show readDigits width (acc * 10 + _) (cs ++ rest) = _
      rw [ih hmore (Nat.le_of_succ_le_succ hlen) hsucc, Nat.ofDigitChars_cons, Nat.mul_comm]

/-- A number is read up to the end of its digits, if the width allows. -/
theorem readNumber_append {cs rest : List Char} (hne : cs ≠ []) (hdigits : AreDigits cs) {width : Nat}
    (hlen : cs.length ≤ width) (hstop : cs.length = width ∨ NoDigit rest) :
    readNumber width (cs ++ rest) = some (Nat.ofDigitChars 10 cs 0, rest) := by
  cases cs with
  | nil => exact absurd rfl hne
  | cons c cs =>
    have hc : (digit? c).isSome = true := by
      rw [isSome_digit?]
      exact hdigits c List.mem_cons_self
    rw [← readDigits_append hdigits hlen hstop 0]
    exact if_pos hc

/-- A number that was written with a width is read back. -/
theorem readNumber_padded {n width : Nat} (hwidth : 0 < width) (hfits : n < 10 ^ width) {limit : Nat}
    (hlimit : width ≤ limit) {rest : List Char} (hstop : width = limit ∨ NoDigit rest) :
    readNumber limit (padded width n ++ rest) = some (n, rest) := by
  have hlen := length_padded hwidth hfits
  rw [readNumber_append (padded_ne_nil width n) (areDigits_padded width n) (by omega) (by rwa [hlen]),
    ofDigitChars_padded]

end Instant

end CentLedger
