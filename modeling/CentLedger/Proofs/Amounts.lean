import CentLedger.Account.Balance
import Mathlib

/-!
# Amounts as whole numbers

Statements about `Balance.credit` and `Balance.debit`, said in whole numbers. The words of an amount wrap, but a change
of a balance never does: a credit checks the sum before it adds, and a debit takes no more than there is. `Adjusts` is
what the two have in common: a change that fits adds a fixed number, and one that does not is refused.
-/

namespace CentLedger

/-! ## Words -/

/-- Every amount is at most the largest one. -/
theorem toInt_le_maxCents (a : Cents) : a.toInt ≤ maxCents := by
  have h := a.toInt_lt
  simp only [maxCents]
  omega

/-- A word is negative exactly when its number is. -/
theorem cents_lt_zero_iff (a : Cents) : a < 0 ↔ a.toInt < 0 := by
  rw [Int64.lt_iff_toInt_lt, Int64.toInt_zero]

/-- A word is positive exactly when its number is. -/
theorem not_cents_le_zero_iff (a : Cents) : ¬a ≤ 0 ↔ 0 < a.toInt := by
  rw [Int64.le_iff_toInt_le, Int64.toInt_zero]
  omega

/-- A sum that fits is exact. -/
theorem toInt_add_of_fits (a b : Cents) (hlo : -2 ^ 63 ≤ a.toInt + b.toInt) (hhi : a.toInt + b.toInt ≤ maxCents) :
    (a + b).toInt = a.toInt + b.toInt := by
  rw [Int64.toInt_add]
  simp only [maxCents] at hhi
  exact Int.bmod_eq_of_le (by omega) (by omega)

/-- A difference that fits is exact. -/
theorem toInt_sub_of_fits (a b : Cents) (hlo : -2 ^ 63 ≤ a.toInt - b.toInt) (hhi : a.toInt - b.toInt ≤ maxCents) :
    (a - b).toInt = a.toInt - b.toInt := by
  rw [Int64.toInt_sub]
  simp only [maxCents] at hhi
  exact Int.bmod_eq_of_le (by omega) (by omega)

/-! ## Changes of a balance -/

namespace Balance

/-- A credit that fits is exact. -/
theorem credit_of_fits (b : Balance) (now : Instant) {amount : Cents} (hpos : 0 < amount.toInt)
    (hfit : b.amount.toInt + amount.toInt ≤ maxCents) :
    b.credit amount now = .ok { b with amount := b.amount + amount, lastUpdated := now } ∧
      (b.amount + amount).toInt = b.amount.toInt + amount.toInt := by
  have ha : ¬amount ≤ 0 := (not_cents_le_zero_iff amount).2 hpos
  have hmin := b.amount.le_toInt
  refine ⟨?_, toInt_add_of_fits b.amount amount (by omega) hfit⟩
  simp only [credit, if_neg ha, gt_iff_lt, not_lt.2 hfit, if_false]

/-- A credit that does not fit is refused. -/
theorem credit_refused (b : Balance) (now : Instant) {amount : Cents}
    (hfit : ¬(0 < amount.toInt ∧ b.amount.toInt + amount.toInt ≤ maxCents)) :
    ∃ e, b.credit amount now = .error e ∧ e.severity = .rejected := by
  by_cases hpos : 0 < amount.toInt
  · have ha : ¬amount ≤ 0 := (not_cents_le_zero_iff amount).2 hpos
    have hover : b.amount.toInt + amount.toInt > maxCents := not_le.1 fun h => hfit ⟨hpos, h⟩
    exact ⟨_, by rw [credit, if_neg ha, if_pos hover], rfl⟩
  · have ha : amount ≤ 0 := not_not.1 fun h => hpos ((not_cents_le_zero_iff amount).1 h)
    exact ⟨_, by rw [credit, if_pos ha], rfl⟩

/-- A debit that is covered is exact. -/
theorem debit_of_fits (b : Balance) (now : Instant) {amount : Cents} (hpos : 0 < amount.toInt)
    (hfit : amount.toInt ≤ b.amount.toInt) :
    b.debit amount now = .ok { b with amount := b.amount - amount, lastUpdated := now } ∧
      (b.amount - amount).toInt = b.amount.toInt - amount.toInt := by
  have ha : ¬amount ≤ 0 := (not_cents_le_zero_iff amount).2 hpos
  have hmax := toInt_le_maxCents b.amount
  have hlt : ¬b.amount < amount := by
    rw [Int64.lt_iff_toInt_lt]
    omega
  exact ⟨by rw [debit, if_neg ha, if_neg hlt], toInt_sub_of_fits b.amount amount (by omega) (by omega)⟩

/-- A debit that is not covered is refused. -/
theorem debit_refused (b : Balance) (now : Instant) {amount : Cents}
    (hfit : ¬(0 < amount.toInt ∧ amount.toInt ≤ b.amount.toInt)) :
    ∃ e, b.debit amount now = .error e ∧ e.severity = .rejected := by
  by_cases hpos : 0 < amount.toInt
  · have ha : ¬amount ≤ 0 := (not_cents_le_zero_iff amount).2 hpos
    have hlt : b.amount < amount := by
      rw [Int64.lt_iff_toInt_lt]
      omega
    exact ⟨_, by rw [debit, if_neg ha, if_pos hlt], rfl⟩
  · have ha : amount ≤ 0 := not_not.1 fun h => hpos ((not_cents_le_zero_iff amount).1 h)
    exact ⟨_, by rw [debit, if_pos ha], rfl⟩

/-- A change of a balance adds `delta` where the amount fits, and is refused where it does not. -/
def Adjusts (change : Balance → Instant → Except Error Balance) (fits : Int → Prop) (delta : Int) : Prop :=
  ∀ (b : Balance) (now : Instant), 0 ≤ b.amount.toInt →
    (fits b.amount.toInt ∧ ∃ after, change b now = .ok after ∧ after.user = b.user ∧
        after.amount.toInt = b.amount.toInt + delta ∧ 0 ≤ after.amount.toInt) ∨
      (¬fits b.amount.toInt ∧ ∃ e, change b now = .error e ∧ e.severity = .rejected)

/-- A positive credit fits where the sum is an amount. -/
theorem adjusts_credit (amount : Cents) (hpos : 0 < amount.toInt) :
    Adjusts (fun b now => b.credit amount now) (fun held => held + amount.toInt ≤ maxCents) amount.toInt := by
  intro b now hb
  by_cases hfit : b.amount.toInt + amount.toInt ≤ maxCents
  · left
    obtain ⟨hcredit, hsum⟩ := b.credit_of_fits now hpos hfit
    refine ⟨hfit, _, hcredit, rfl, hsum, ?_⟩
    simp only [hsum]
    omega
  · exact Or.inr ⟨hfit, b.credit_refused now fun h => hfit h.2⟩

/-- A positive debit fits where the balance covers it. -/
theorem adjusts_debit (amount : Cents) (hpos : 0 < amount.toInt) :
    Adjusts (fun b now => b.debit amount now) (fun held => amount.toInt ≤ held) (-amount.toInt) := by
  intro b now hb
  by_cases hfit : amount.toInt ≤ b.amount.toInt
  · left
    obtain ⟨hdebit, hdiff⟩ := b.debit_of_fits now hpos hfit
    refine ⟨hfit, _, hdebit, rfl, ?_, ?_⟩
    · simp only [hdiff]
      omega
    · simp only [hdiff]
      omega
  · exact Or.inr ⟨hfit, b.debit_refused now fun h => hfit h.2⟩

end Balance

end CentLedger
