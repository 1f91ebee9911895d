import CentLedger.Proofs.Jobs
import CentLedger.Proofs.Transcripts

/-!
# The statements of a transfer

What a recorded transfer says over a database is a word of one shape (`TransferWord`), whatever the server replies. A
record is opened; the source is debited; only if its row was written, the target is credited; only if the row of the
target was not, the source is credited again; and the record is closed once, as completed exactly when both rows were
written. The main statement is `statements_of_transfer`.
-/

namespace CentLedger

open Sql

/-! ## Records -/

namespace Records

open Program

/-- The statement that opens a record. -/
def opening (r : Request) (now : Instant) : Statement :=
  .insertTransaction (r.source.map ofWord) (r.target.map ofWord) r.amount r.kind.text "pending" none now now

/-- The statement that closes a record, as completed or as failed. -/
def closing (id : Int64) (completed : Bool) (cause : Option String) (now : Instant) : Statement :=
  .updateTransaction (if completed then "completed" else "failed") cause now id

/-- What is said to close a record: one update, and a look at the record only if no row obeyed. A failure has a cause,
and nothing else has. -/
inductive ClosingWord (id : Int64) (completed : Bool) : List Exchange → Prop
  | closed {cause now r} (because : cause.isNone = completed) (obeyed : ∀ rows, r ≠ .executed 0 rows) :
      ClosingWord id completed [(closing id completed cause now, r)]
  | refused {cause now rows r} (because : cause.isNone = completed) :
      ClosingWord id completed [(closing id completed cause now, .executed 0 rows), (.selectTransaction id, r)]

/-- A record has the identifier that the server gave. -/
theorem ofNat_toNat_toWord (id : Int64) : ofNat (toWord id).toNat = id := by
  simp [ofNat, toWord, ofWord]

/-- What is said to open a record, and the record if the server gave an identifier. -/
def Opening (r : Request) (w : List Exchange) (result : Except Error Transaction) : Prop :=
  ((∃ e, r.validate = .error e) ∧ w = [] ∧ ∃ e, result = .error e) ∨
    r.validate = .ok () ∧ ∃ now reply, w = [(opening r now, reply)] ∧
      ((∃ id t, reply.Gives id ∧ result = .ok t ∧ ofNat t.id = id ∧ t.status = .pending ∧ t.failureCause = none) ∨
        (∀ id, ¬reply.Gives id) ∧ ∃ e, result = .error e)

/-- The opening of a record is one insertion, and the record bears the identifier that it was given. -/
theorem says_openRecord (r : Request) : (openRecord r).Says (Opening r) := by
  unfold openRecord
  cases hvalid : r.validate with
  | error e => exact Or.inl ⟨⟨e, hvalid⟩, rfl, e, rfl⟩
  | ok _ =>
    refine says_clock fun now => says_ask ?_
    show (addTransaction (.ofRequest r now)).Says _
    intro reply
    refine Or.inr ⟨hvalid, now, reply, rfl, ?_⟩
    rcases reply.newId?_cases with ⟨id, hid, hok⟩ | ⟨hnone, e, he⟩
    · refine Or.inl ⟨id, { Transaction.ofRequest r now with id := (toWord id).toNat }, hid, ?_,
        ofNat_toNat_toWord id, rfl, rfl⟩
      rw [hok]
      rfl
    · refine Or.inr ⟨hnone, e, ?_⟩
      rw [he]
      rfl

/-- The record that a move writes. -/
def Writes (t : Transaction) (completed : Bool) (next : Transaction) : Prop :=
  next.id = t.id ∧ next.status.text = (if completed then "completed" else "failed") ∧
    next.failureCause.isNone = completed

/-- Closing a record says a closing word. -/
theorem says_close {t : Transaction} {completed : Bool} {move : Instant → Except Error Transaction}
    (hmove : ∀ now, ∃ next, move now = .ok next ∧ Writes t completed next) :
    (close move).Says fun w _ => ClosingWord (ofNat t.id) completed w := by
  unfold close
  refine says_clock fun now => ?_
  obtain ⟨next, hnext, hid, hstatus, hcause⟩ := hmove now
  rw [hnext]
  refine Says.bind (P := fun w _ => ClosingWord (ofNat t.id) completed w) (says_ask ?_) ?_
  · show (closeTransaction next).Says _
    unfold closeTransaction
    rw [hid, hstatus]
    intro reply
    cases hreply : reply.affected? with
    | error e =>
      simp only [hreply]
      refine ClosingWord.closed hcause ?_
      rintro rows rfl
      cases hreply
    | ok n =>
      cases n with
      | succ n =>
        simp only [hreply]
        refine ClosingWord.closed hcause ?_
        rintro rows rfl
        cases hreply
      | zero =>
        simp only [hreply]
        cases reply with
        | executed n rows =>
          obtain rfl : n = 0 := Except.ok.inj hreply
          exact fun reply' => ClosingWord.refused hcause
        | failed text => cases hreply
        | closed => cases hreply
  · rintro w r hw
    have hend : ClosingWord (ofNat t.id) completed (w ++ []) := by rwa [List.append_nil]
    cases r with
    | error e => exact hend
    | ok _ => exact hend

variable {t : Transaction}

/-- A pending record without a cause can be completed, and has no cause then. -/
theorem writes_complete (hpending : t.status = .pending) (hcause : t.failureCause = none) (now : Instant) :
    ∃ next, t.complete now = .ok next ∧ Writes t true next := by
  refine ⟨{ t with status := .completed, updatedAt := now }, ?_, rfl, rfl, ?_⟩
  · simp [Transaction.complete, Transaction.moveTo, hpending, Status.canMoveTo]
  · simp [hcause]

/-- A pending record can be failed, and has a cause then. -/
theorem writes_fail (hpending : t.status = .pending) (cause : String) (now : Instant) :
    ∃ next, t.fail cause now = .ok next ∧ Writes t false next := by
  refine ⟨{ t with status := .failed, updatedAt := now, failureCause := some cause }, ?_, rfl, rfl, rfl⟩
  simp [Transaction.fail, Transaction.moveTo, hpending, Status.canMoveTo, Except.map]

end Records

/-! ## Recorded operations -/

/-- What a recorded operation says: nothing if the request is not proper; the opening of a record; and, if the server
gave the record an identifier, what changes the balances and what closes the record, as completed exactly if the
changes were made. -/
inductive RecordedWord (r : Request) (proper : Prop) (booking : List Exchange → Bool → Prop) : List Exchange → Prop
  | nothing (improper : ¬proper) : RecordedWord r proper booking []
  | unopened {now reply} (is : proper) (unnamed : ∀ id, ¬reply.Gives id) :
      RecordedWord r proper booking [(Records.opening r now, reply)]
  | closed {now reply id w completed w'} (is : proper) (named : reply.Gives id) (booked : booking w completed)
      (closed : Records.ClosingWord id completed w') :
      RecordedWord r proper booking ((Records.opening r now, reply) :: (w ++ w'))

/-- What a transfer says to change the balances, and whether both rows were written. The target is credited only after
the source was debited, and the source is credited again only after the target was not. -/
inductive BookingWord (source target : UserId) (amount : Cents) : List Exchange → Bool → Prop
  | undebited {w} (debit : DebitWord source amount w false) : BookingWord source target amount w false
  | booked {w w'} (debit : DebitWord source amount w true) (credit : CreditWord target amount w' true) :
      BookingWord source target amount (w ++ w') true
  | compensated {w w' w'' back} (debit : DebitWord source amount w true) (credit : CreditWord target amount w' false)
      (again : CreditWord source amount w'' back) : BookingWord source target amount (w ++ w' ++ w'') false

/-- What a recorded transfer says. -/
abbrev TransferWord (source target : UserId) (amount : Cents) : List Exchange → Prop :=
  RecordedWord (.transfer source target amount) (source ≠ target ∧ 0 < amount.toInt) (BookingWord source target amount)

namespace Transfer

open Program

variable {t : Transaction}

/-- To settle a pending record, it is closed as completed. -/
theorem says_settle (hpending : t.status = .pending) (hcause : t.failureCause = none) :
    (settle t).Says fun w _ => Records.ClosingWord (ofNat t.id) true w := by
  unfold settle
  refine (Records.says_close (Records.writes_complete hpending hcause)).bind ?_
  intro w r hw
  have hend : Records.ClosingWord (ofNat t.id) true (w ++ []) := by rwa [List.append_nil]
  cases r with
  | error e => exact hend
  | ok t' => exact says_note hend

/-- To give a pending record up, it is closed as failed. -/
theorem says_giveUp (hpending : t.status = .pending) (cause : Error) :
    (giveUp t cause).Says fun w _ => Records.ClosingWord (ofNat t.id) false w := by
  unfold giveUp
  refine (Records.says_close (Records.writes_fail hpending cause.message)).bind ?_
  intro w r hw
  have hend : Records.ClosingWord (ofNat t.id) false (w ++ []) := by rwa [List.append_nil]
  cases r with
  | error e => exact hend
  | ok t' => exact hend

/-- A change of balances and the closing of the record after it. -/
def Concluded (booking : List Exchange → Bool → Prop) (id : Int64) (w : List Exchange) : Prop :=
  ∃ w₁ completed w₂, w = w₁ ++ w₂ ∧ booking w₁ completed ∧ Records.ClosingWord id completed w₂

/-- A booking and what ends the operation: the record is closed as completed exactly if the booking went well. -/
theorem says_finish {α : Type} {booking : List Exchange → Bool → Prop} (hpending : t.status = .pending)
    (hcause : t.failureCause = none) {w : List Exchange} {r : Except Error α} (hw : booking w r.isOk) :
    (finish t r).Says fun w' _ => Concluded booking (ofNat t.id) (w ++ w') := by
  cases r with
  | ok a => exact (says_settle hpending hcause).mono fun w' _ hw' => ⟨w, true, w', rfl, hw, hw'⟩
  | error e => exact (says_giveUp hpending e).mono fun w' _ hw' => ⟨w, false, w', rfl, hw, hw'⟩

/-- An operation that opens a record and then changes balances and closes the record. -/
theorem says_recorded {r : Request} {proper : Prop} {booking : List Exchange → Bool → Prop}
    (hproper : r.validate = .ok () ↔ proper) {rest : Transaction → Program Outcome}
    (hrest : proper → ∀ t, t.status = .pending → t.failureCause = none →
      (rest t).Says fun w _ => Concluded booking (ofNat t.id) w) :
    (do match ← Records.openRecord r with
      | .error e => return .error (.rejected e)
      | .ok t => rest t : Program Outcome).Says fun w _ => RecordedWord r proper booking w := by
  refine (Records.says_openRecord r).bind ?_
  rintro w result (⟨⟨e, hinvalid⟩, rfl, e', rfl⟩ | ⟨hvalid, now, reply, rfl, hresult⟩)
  · refine RecordedWord.nothing fun h => ?_
    rw [hproper.2 h] at hinvalid
    cases hinvalid
  · rcases hresult with ⟨id, t, hid, rfl, ht, hpending, hcause⟩ | ⟨hnone, e, rfl⟩
    · refine (hrest (hproper.1 hvalid) t hpending hcause).mono ?_
      rintro w - ⟨w₁, completed, w₂, rfl, hbooked, hclosed⟩
      rw [ht] at hclosed
      exact RecordedWord.closed (w := w₁) (hproper.1 hvalid) hid hbooked hclosed
    · exact RecordedWord.unopened (hproper.1 hvalid) hnone

/-- A request for a transfer is valid exactly if it is between different accounts and its amount is positive. -/
theorem validate_transfer (source target : UserId) (amount : Cents) :
    (Request.transfer source target amount).validate = .ok () ↔ source ≠ target ∧ 0 < amount.toInt := by
  rw [← not_cents_le_zero_iff]
  simp only [Request.validate, Request.transfer, checkShape]
  by_cases hle : amount ≤ 0
  · simp [hle]
  · by_cases heq : source = target <;> simp [hle, heq]

/-- Where the source was debited and the target was not credited, the source is credited and the record closed as
failed. -/
theorem says_compensate {source target : UserId} {amount : Cents} (hpos : 0 < amount.toInt)
    (hpending : t.status = .pending) {w w' : List Exchange} (hdebit : DebitWord source amount w true)
    (hcredit : CreditWord target amount w' false) (cause : Error) :
    (compensate t source amount cause).Says fun w'' _ =>
      Concluded (BookingWord source target amount) (ofNat t.id) (w ++ (w' ++ w'')) := by
  unfold compensate
  refine (Account.says_credit source hpos).bind ?_
  intro w'' r hagain
  have hend : ∀ cause', (giveUp t cause').Says fun w₂ _ =>
      Concluded (BookingWord source target amount) (ofNat t.id) (w ++ (w' ++ (w'' ++ w₂))) := by
    intro cause'
    refine (says_giveUp hpending cause').mono fun w₂ _ hclosed => ?_
    exact ⟨w ++ w' ++ w'', false, w₂, by simp only [List.append_assoc], .compensated hdebit hcredit hagain, hclosed⟩
  cases r with
  | ok b => exact hend cause
  | error e => exact hend _

/-- A transfer says a word of a transfer. -/
theorem says_applyTransfer (source target : UserId) (amount : Cents) :
    (applyTransfer source target amount).Says fun w _ => TransferWord source target amount w := by
  unfold applyTransfer
  split
  · rename_i heq
    exact RecordedWord.nothing fun h => h.1 heq
  · refine says_recorded (validate_transfer source target amount) ?_
    rintro ⟨-, hpos⟩ t hpending hcause
    refine (Account.says_debit source hpos).bind ?_
    intro w r hdebit
    cases r with
    | error e =>
      refine (says_giveUp hpending e).mono fun w' _ hclosed => ?_
      exact ⟨w, false, w', rfl, .undebited hdebit, hclosed⟩
    | ok b =>
      refine (Account.says_credit target hpos).bind ?_
      intro w' r hcredit
      cases r with
      | ok b' =>
        refine (says_settle hpending hcause).mono fun w₂ _ hclosed => ?_
        exact ⟨w ++ w', true, w₂, by rw [List.append_assoc], .booked hdebit hcredit, hclosed⟩
      | error e => exact says_compensate hpos hpending hdebit hcredit e

/-- Whatever the server replies, at whatever times and with whatever audit, the statements that a transfer sends form a
word of a transfer. -/
theorem statements_of_transfer (source target : UserId) (amount : Cents) (weather : Nat → Circumstance)
    (replies : List ServerReply) :
    TransferWord source target amount
      ((converseUnder weather 0 (applyTransfer source target amount)).transcript replies) :=
  ((says_applyTransfer source target amount).converseUnder weather 0).transcript replies

end Transfer

end CentLedger
