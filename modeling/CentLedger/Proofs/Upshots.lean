import CentLedger.Proofs.Yields

/-!
# The upshot of a job

Where nothing fails, the amounts on the accounts that a job names decide everything it comes to: what it posts, what it
tells, and the record it leaves, up to identifiers and times. `Job.upshot` says this as a function of the amounts, and
`Transfer.reaches_execute` that a job comes to it.
-/

namespace CentLedger

/-- A record up to its identifier and its times. -/
def Transaction.bare (t : Transaction) : Transaction :=
  { t with id := 0, createdAt := .ofSeconds 0, updatedAt := .ofSeconds 0 }

/-- An outcome up to the identifier and the times of its record. -/
def Transfer.Outcome.bare : Transfer.Outcome → Transfer.Outcome
  | .ok t => .ok t.bare
  | .error e => .error { e with transaction := e.transaction.map Transaction.bare }

/-- What a job posts, and what it tells up to identifiers and times. -/
structure Upshot where
  postings : List Posting
  outcome : Transfer.Outcome

namespace Upshot

/-- A job that is refused before it has a record. -/
def rejected (e : Error) : Upshot :=
  ⟨[], .error (.rejected e)⟩

/-- A job that goes through. -/
def completed (r : Request) (ps : List Posting) : Upshot :=
  ⟨ps, .ok { Transaction.ofRequest r (.ofSeconds 0) with status := .completed }⟩

/-- A job that fails for a cause. -/
def failed (r : Request) (ps : List Posting) (cause : Error) : Upshot :=
  ⟨ps, .error (.withRecord
    { Transaction.ofRequest r (.ofSeconds 0) with status := .failed, failureCause := some cause.message } cause)⟩

/-- A job that makes one change of an account. -/
def single (r : Request) (user : UserId) : Except Error Cents → Upshot
  | .error e => failed r [] e
  | .ok amount => completed r [(user, amount)]

end Upshot

namespace Job

open Account

/-- The upshot of a job, by the amounts on the accounts. -/
def upshot : Job → (UserId → Cents) → Upshot
  | credit user amount, amounts =>
    if amount ≤ 0 then .rejected .invalidAmount
    else .single (.credit user amount) user (credited user amount (amounts user))
  | debit user amount, amounts =>
    if amount ≤ 0 then .rejected .invalidAmount
    else .single (.debit user amount) user (debited user amount (amounts user))
  | transfer source target amount, amounts =>
    if source = target then .rejected .sameAccountTransfer
    else if amount ≤ 0 then .rejected .invalidAmount
    else
      match debited source amount (amounts source) with
      | .error e => .failed (.transfer source target amount) [] e
      | .ok less =>
        match credited target amount (amounts target) with
        -- the source gets back what was taken from it
        | .error e => .failed (.transfer source target amount) [(source, less), (source, amounts source)] e
        | .ok more => .completed (.transfer source target amount) [(source, less), (target, more)]

end Job

/-- An outcome and the rows after it are those of an upshot. -/
structure Upshot.Reached (u : Upshot) (m : Memory) (o : Transfer.Outcome) (m' : Memory) : Prop where
  told : o.bare = u.outcome
  posted : m.Posted u.postings m'

namespace Transfer

open Program Account

variable {m m₁ : Memory} {r : Request} {t : Transaction} {ps : List Posting} {amount : Cents}

/-- A record was opened for a request, and is pending and stored. -/
structure Pends (m : Memory) (r : Request) (t : Transaction) : Prop where
  stored : t ∈ m.transactions
  opened : ∃ now id, t = { Transaction.ofRequest r now with id := id }

/-- A record that pends is pending. -/
theorem Pends.status (h : Pends m r t) : t.status = .pending := by
  obtain ⟨now, id, rfl⟩ := h.opened
  rfl

/-- A record pends as long as the records of the store are the same. -/
theorem Pends.of_records (h : Pends m r t) (hrecords : m₁.transactions = m.transactions) : Pends m₁ r t :=
  ⟨hrecords ▸ h.stored, h.opened⟩

/-! ## The parts of a job -/

/-- A pending record whose amounts were posted is settled as completed. -/
theorem yields_settle (hm : m₁.Sound) (hpends : Pends m₁ r t) (hposted : m.Posted ps m₁) :
    (settle t).Yields ((Upshot.completed r ps).Reached m) m₁ := by
  unfold settle
  refine (Records.yields_close hm hpends.stored hpends.status (Records.complete_pending hpends.status)
    fun _ => rfl).bind ?_
  rintro _ m₂ ⟨⟨now, rfl⟩, hsame⟩
  obtain ⟨opened, id, rfl⟩ := hpends.opened
  exact yields_note.2 ⟨rfl, List.append_nil ps ▸ hposted.trans hsame⟩

/-- A pending record is given up as failed, with the cause and whatever was posted before. -/
theorem yields_giveUp (hm : m₁.Sound) (hpends : Pends m₁ r t) (hposted : m.Posted ps m₁) (cause : Error) :
    (giveUp t cause).Yields ((Upshot.failed r ps cause).Reached m) m₁ := by
  unfold giveUp
  refine (Records.yields_close hm hpends.stored hpends.status (Records.fail_pending hpends.status cause.message)
    fun _ => rfl).bind ?_
  rintro _ m₂ ⟨⟨now, rfl⟩, hsame⟩
  obtain ⟨opened, id, rfl⟩ := hpends.opened
  exact ⟨rfl, List.append_nil ps ▸ hposted.trans hsame⟩

/-- A source from which an amount was taken gets it back. -/
theorem yields_compensate (hm : m₁.Sound) (hpends : Pends m₁ r t) {source : UserId} {held : Cents}
    (hpos : 0 < amount.toInt) (hposted : m.Posted ps m₁)
    (hback : credited source amount (m₁.amountOf source) = .ok held) (cause : Error) :
    (compensate t source amount cause).Yields ((Upshot.failed r (ps ++ [(source, held)]) cause).Reached m) m₁ := by
  unfold compensate
  refine ((yields_credit hm hpos).sound hm).bind ?_
  rw [hback]
  rintro _ m₂ ⟨hm₂, hbooked⟩
  obtain ⟨b, rfl⟩ := hbooked.ok
  exact yields_giveUp hm₂ (hpends.of_records hbooked.records) (hposted.trans hbooked.posted) cause

/-- A job that opens a record, makes one change and closes the record comes to what the change decides. -/
theorem yields_single (hm : m.Sound) (hvalid : r.validate = .ok ()) {user : UserId} {outcome : Except Error Cents}
    {change : Program (Except Error Balance)}
    (hchange : ∀ m₁ : Memory, m₁.Sound → m₁.amountOf = m.amountOf → change.Yields (Booked m₁ user outcome) m₁) :
    (do
      match ← Records.openRecord r with
      | .error e => return .error (.rejected e)
      | .ok t => finish t (← change) : Program Outcome).Yields
        ((Upshot.single r user outcome).Reached m) m := by
  refine (Records.yields_openRecord hm hvalid).bind ?_
  rintro _ m₁ ⟨hm₁, hposted, now, id, rfl, hstored⟩
  have hpends : Pends m₁ r { Transaction.ofRequest r now with id := id } := ⟨hstored, now, id, rfl⟩
  refine ((hchange m₁ hm₁ hposted.amountOf_eq).sound hm₁).bind ?_
  rintro result m₂ ⟨hm₂, hbooked⟩
  have hpends₂ := hpends.of_records hbooked.records
  cases outcome with
  | error e =>
    obtain rfl := hbooked.error
    exact yields_giveUp hm₂ hpends₂ (hposted.trans hbooked.posted) e
  | ok amount =>
    obtain ⟨b, rfl⟩ := hbooked.ok
    exact yields_settle hm₂ hpends₂ (hposted.trans hbooked.posted)

/-- A job that opens a record first: its request is refused if the amount is not positive, and no row changes then. -/
theorem yields_opening {k : Except Error Transaction → Program Outcome} {u : Upshot}
    (hk : k (.error .invalidAmount) = .done (.error (.rejected .invalidAmount)))
    (hopens : ¬r.amount ≤ 0 → (Records.openRecord r >>= k).Yields (u.Reached m) m) :
    (Records.openRecord r >>= k).Yields ((if r.amount ≤ 0 then .rejected .invalidAmount else u).Reached m) m := by
  by_cases hle : r.amount ≤ 0
  · have hinvalid : r.validate = .error .invalidAmount := if_pos hle
    rw [if_pos hle, Records.openRecord, hinvalid]
    show (k (.error .invalidAmount)).Yields _ m
    rw [hk]
    exact ⟨rfl, .none rfl rfl⟩
  · rw [if_neg hle]
    exact hopens hle

/-- A recorded credit comes to the upshot of its job. -/
theorem reaches_applyCredit (hm : m.Sound) (user : UserId) (amount : Cents) :
    (applyCredit user amount).Yields (((Job.credit user amount).upshot m.amountOf).Reached m) m := by
  refine yields_opening (r := .credit user amount) rfl fun hle => ?_
  have hvalid : (Request.credit user amount).validate = .ok () := if_neg hle
  exact yields_single hm hvalid fun m₁ hm₁ hamounts =>
    hamounts ▸ yields_credit hm₁ ((not_cents_le_zero_iff amount).1 hle)

/-- A recorded debit comes to the upshot of its job. -/
theorem reaches_applyDebit (hm : m.Sound) (user : UserId) (amount : Cents) :
    (applyDebit user amount).Yields (((Job.debit user amount).upshot m.amountOf).Reached m) m := by
  refine yields_opening (r := .debit user amount) rfl fun hle => ?_
  have hvalid : (Request.debit user amount).validate = .ok () := if_neg hle
  exact yields_single hm hvalid fun m₁ hm₁ hamounts =>
    hamounts ▸ yields_debit hm₁ ((not_cents_le_zero_iff amount).1 hle)

/-- A recorded transfer comes to the upshot of its job. -/
theorem reaches_applyTransfer (hm : m.Sound) (source target : UserId) (amount : Cents) :
    (applyTransfer source target amount).Yields (((Job.transfer source target amount).upshot m.amountOf).Reached m)
      m := by
  rw [applyTransfer, Job.upshot]
  by_cases hne : source = target
  · rw [if_pos hne, if_pos hne]
    exact ⟨rfl, .none rfl rfl⟩
  rw [if_neg hne, if_neg hne]
  refine yields_opening (r := .transfer source target amount) rfl fun (hle : ¬amount ≤ 0) => ?_
  have hpos := (not_cents_le_zero_iff amount).1 hle
  have hvalid : (Request.transfer source target amount).validate = .ok () := by
    simp [Request.validate, Request.transfer, checkShape, hle, hne]
  refine (Records.yields_openRecord hm hvalid).bind ?_
  rintro _ m₁ ⟨hm₁, hopened, now, id, rfl, hstored⟩
  have hpends : Pends m₁ (Request.transfer source target amount)
      { Transaction.ofRequest (Request.transfer source target amount) now with id := id } := ⟨hstored, now, id, rfl⟩
  refine ((yields_debit hm₁ hpos).sound hm₁).bind ?_
  rw [hopened.amountOf_eq]
  rintro r m₂ ⟨hm₂, hdebited⟩
  have hpends₂ := hpends.of_records hdebited.records
  have hposted₂ := hopened.trans hdebited.posted
  cases hless : debited source amount (m.amountOf source) with
  | error e =>
    rw [hless] at hdebited hposted₂
    obtain rfl := hdebited.error
    exact yields_giveUp hm₂ hpends₂ hposted₂ e
  | ok less =>
    rw [hless] at hdebited hposted₂
    obtain ⟨b, rfl⟩ := hdebited.ok
    have hsource : m₂.amountOf source = less := by
      rw [hposted₂.amounts]
      exact Function.update_self source less m.amountOf
    -- the debit left the target alone, so the credit is decided by what the target held at first
    have htarget : m₂.amountOf target = m.amountOf target := by
      rw [hposted₂.amounts]
      exact Function.update_of_ne (Ne.symm hne) less m.amountOf
    refine ((yields_credit hm₂ hpos).sound hm₂).bind ?_
    rw [htarget]
    rintro r m₃ ⟨hm₃, hcredited⟩
    have hpends₃ := hpends₂.of_records hcredited.records
    have hposted₃ := hposted₂.trans hcredited.posted
    cases hmore : credited target amount (m.amountOf target) with
    | ok more =>
      rw [hmore] at hcredited hposted₃
      obtain ⟨b', rfl⟩ := hcredited.ok
      exact yields_settle hm₃ hpends₃ hposted₃
    | error e =>
      rw [hmore] at hcredited hposted₃
      obtain rfl := hcredited.error
      -- what was just taken from the source can be held there again
      have hback : credited source amount (m₃.amountOf source) = .ok (m.amountOf source) := by
        rw [hcredited.posted.amountOf_eq, hsource]
        exact credited_back hpos hless
      exact yields_compensate hm₃ hpends₃ hpos hposted₃ hback e

/-- Where nothing fails, a job comes to its upshot. -/
theorem reaches_execute (hm : m.Sound) (j : Job) : (execute j).Yields ((j.upshot m.amountOf).Reached m) m := by
  cases j with
  | credit user amount => exact reaches_applyCredit hm user amount
  | debit user amount => exact reaches_applyDebit hm user amount
  | transfer source target amount => exact reaches_applyTransfer hm source target amount

end Transfer

end CentLedger
