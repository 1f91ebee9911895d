import CentLedger.Proofs.Amounts
import CentLedger.Record.Wire

/-!
# Bookings on a balance

A `Booking` is a credit or a debit at some time, and `Balance.book` is what it does to whoever holds the balance: the new
value where it succeeds, and the old one where it is refused. An `Origin` is a way to come by a balance at all.

A booking is exact, or changes nothing, whatever the balance (`booked`). So a balance that is covered stays covered, and
one that is not stays as it is until credits make up for it. A zero balance is covered, and so is one that was read back
from storage, but a JSON text may hold one that is not (`parse_uncovered`). `balances_disciplined` puts these together.
-/

namespace CentLedger

/-- A change of a balance at some time. -/
inductive Booking
  | credit (amount : Cents) (now : Instant)
  | debit (amount : Cents) (now : Instant)
  deriving DecidableEq

namespace Booking

/-- The time of a booking. -/
def time : Booking → Instant
  | credit _ now => now
  | debit _ now => now

/-- What a booking adds to the amount. -/
def delta : Booking → Int
  | credit amount _ => amount.toInt
  | debit amount _ => -amount.toInt

/-- A booking of a positive amount, which goes on the account or is covered by it. -/
def Fits (held : Int) : Booking → Prop
  | credit amount _ => 0 < amount.toInt ∧ held + amount.toInt ≤ maxCents
  | debit amount _ => 0 < amount.toInt ∧ amount.toInt ≤ held

/-- The balance after a booking, if it is not refused. -/
def apply (b : Balance) : Booking → Except Error Balance
  | credit amount now => b.credit amount now
  | debit amount now => b.debit amount now

end Booking

namespace Balance

/-- Book on a balance: the answer, and the balance from then on. -/
def book (b : Balance) (k : Booking) : Except Error Unit × Balance :=
  ((k.apply b).map fun _ => (), (k.apply b).toOption.getD b)

/-- A balance after bookings, one after another. -/
def after (b : Balance) (ks : List Booking) : Balance :=
  ks.foldl (fun b k => (b.book k).2) b

/-- What a booking comes to: it succeeds exactly if it fits, and is exact then; else the balance is as it was. -/
structure Booked (b : Balance) (k : Booking) (r : Except Error Unit × Balance) : Prop where
  succeeds : r.1 = .ok () ↔ k.Fits b.amount.toInt
  exactly : r.1 = .ok () →
    r.2.user = b.user ∧ r.2.amount.toInt = b.amount.toInt + k.delta ∧ r.2.lastUpdated = k.time
  unchanged : ∀ e, r.1 = .error e → r.2 = b

variable {b : Balance} {k : Booking}

/-- A booking that fits is done. -/
theorem Booked.done {next : Balance} (hfits : k.Fits b.amount.toInt) (happly : k.apply b = .ok next)
    (huser : next.user = b.user) (hamount : next.amount.toInt = b.amount.toInt + k.delta)
    (htime : next.lastUpdated = k.time) : Booked b k (b.book k) := by
  unfold book
  rw [happly]
  exact ⟨⟨fun _ => hfits, fun _ => rfl⟩, fun _ => ⟨huser, hamount, htime⟩, fun e h => by cases h⟩

/-- A booking that does not fit is refused. -/
theorem Booked.refused {e : Error} (hfits : ¬k.Fits b.amount.toInt) (happly : k.apply b = .error e) :
    Booked b k (b.book k) := by
  unfold book
  rw [happly]
  exact ⟨⟨(fun h => by cases h), fun h => absurd h hfits⟩, (fun h => by cases h), fun _ _ => rfl⟩

/-- Every booking is exact or changes nothing, whatever the balance. -/
theorem booked (b : Balance) (k : Booking) : Booked b k (b.book k) := by
  by_cases hfits : k.Fits b.amount.toInt
  · cases k with
    | credit amount now =>
      obtain ⟨hcredit, hsum⟩ := b.credit_of_fits now hfits.1 hfits.2
      exact .done hfits hcredit rfl hsum rfl
    | debit amount now =>
      obtain ⟨hdebit, hdiff⟩ := b.debit_of_fits now hfits.1 hfits.2
      exact .done hfits hdebit rfl (hdiff.trans (Int.sub_eq_add_neg ..)) rfl
  · cases k with
    | credit amount now =>
      obtain ⟨e, he, -⟩ := b.credit_refused now hfits
      exact .refused hfits he
    | debit amount now =>
      obtain ⟨e, he, -⟩ := b.debit_refused now hfits
      exact .refused hfits he

/-- A balance that is covered is covered after a booking. -/
theorem covered_book (hb : 0 ≤ b.amount.toInt) (k : Booking) : 0 ≤ (b.book k).2.amount.toInt := by
  have hbooked := b.booked k
  cases hr : (b.book k).1 with
  | error e => rwa [hbooked.unchanged e hr]
  | ok _ =>
    have hfits := hbooked.succeeds.1 hr
    have hamount := (hbooked.exactly hr).2.1
    cases k with
    | credit amount now =>
      simp only [Booking.Fits, Booking.delta] at hfits hamount
      omega
    | debit amount now =>
      simp only [Booking.Fits, Booking.delta] at hfits hamount
      omega

/-- A balance that is covered is covered after any bookings. -/
theorem covered_after (hb : 0 ≤ b.amount.toInt) (ks : List Booking) : 0 ≤ (b.after ks).amount.toInt := by
  induction ks generalizing b with
  | nil => exact hb
  | cons k ks ih => exact ih (covered_book hb k)

/-! ## Where balances come from -/

/-- A way to come by a balance. -/
inductive Origin
  /-- The balance of an account that nothing was booked on. -/
  | zero (user : UserId) (now : Instant)
  /-- A balance read back from storage. -/
  | restore (user : UserId) (amount : Cents) (lastUpdated : Instant)
  /-- A balance in a JSON text. -/
  | parse (text : String)
  deriving DecidableEq

/-- The balance that an origin gives, if it gives one. -/
def Origin.balance? : Origin → Option Balance
  | zero user now => some (Balance.zero user now)
  | restore user amount lastUpdated => (Balance.restore user amount lastUpdated).toOption
  | parse text => Balance.parse text

/-- An origin that has its balances checked: any but a JSON text. -/
def Origin.Checked : Origin → Prop
  | parse _ => False
  | _ => True

/-- What is checked is covered. -/
theorem Origin.Checked.covered {o : Origin} (ho : o.Checked) (h : o.balance? = some b) : 0 ≤ b.amount.toInt := by
  cases o with
  | parse text => exact ho.elim
  | zero user now =>
    cases h
    exact le_of_eq Int64.toInt_zero.symm
  | restore user amount lastUpdated =>
    simp only [balance?, Balance.restore] at h
    split at h
    · cases h
    · rename_i hneg
      cases h
      rw [cents_lt_zero_iff] at hneg
      exact not_lt.1 hneg

/-- However somebody came by a balance, each booking on it, after any others, is exact or changes nothing; and the
amount stays within its bounds whatever is booked exactly if it was not negative at first, as it never is where it was
checked. -/
theorem balances_disciplined (o : Origin) {b : Balance} (h : o.balance? = some b) :
    (∀ ks k, Booked (b.after ks) k ((b.after ks).book k)) ∧
      ((∀ ks, 0 ≤ (b.after ks).amount.toInt ∧ (b.after ks).amount.toInt ≤ maxCents) ↔ 0 ≤ b.amount.toInt) ∧
      (o.Checked → 0 ≤ b.amount.toInt) := by
  refine ⟨fun ks k => booked _ k, ⟨fun hall => (hall []).1, fun hb ks => ?_⟩, fun ho => ho.covered h⟩
  exact ⟨covered_after hb ks, toInt_le_maxCents _⟩

/-- A balance of the largest amount, read back from storage. -/
theorem balances_disciplined_full :
    ∃ b, (Origin.restore 7 9_223_372_036_854_775_807 (.ofSeconds 0)).balance? = some b ∧
      (b.book (.credit 1 (.ofSeconds 1))).2 = b ∧
      (∀ ks k, Booked (b.after ks) k ((b.after ks).book k)) ∧
      ((∀ ks, 0 ≤ (b.after ks).amount.toInt ∧ (b.after ks).amount.toInt ≤ maxCents) ↔ 0 ≤ b.amount.toInt) ∧
      ((Origin.restore 7 9_223_372_036_854_775_807 (.ofSeconds 0)).Checked → 0 ≤ b.amount.toInt) :=
  ⟨_, rfl, by decide, balances_disciplined (.restore 7 9_223_372_036_854_775_807 (.ofSeconds 0)) rfl⟩

/-- A JSON text may hold a negative balance, and a credit that is taken need not mend it. -/
theorem parse_uncovered :
    ∃ b, Balance.parse "\x7b\"user_id\":7,\"amount_cents\":-5,\"last_updated\":\"2024-01-01T00:00:00Z\"\x7d" = some b ∧
      b.amount = -5 ∧ (b.book (.credit 3 (.ofSeconds 0))).1 = .ok () ∧
      (b.book (.credit 3 (.ofSeconds 0))).2.amount.toInt < 0 :=
  ⟨⟨7, -5, .ofSeconds 1_704_067_200⟩, by decide +kernel, rfl, by decide, by decide⟩

end Balance

end CentLedger
