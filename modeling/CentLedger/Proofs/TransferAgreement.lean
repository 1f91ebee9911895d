import CentLedger.Proofs.Conservation
import CentLedger.Proofs.Operations
import CentLedger.Proofs.Upshots

/-!
# Two ways to move money agree

An amount is moved between two accounts in two ways: at one stroke under both locks, after both checks were made, or as
a recorded transfer that debits, credits, and puts the source back where the target cannot be credited.
`Account.moved` says what either comes to, from the amounts alone: the first rule that is broken, or the new amounts. So
where nothing fails the two agree, in what they tell and in every amount (`transfers_agree`).
-/

namespace CentLedger

namespace Account

open Program

variable {m : Memory} {source target : UserId} {amount : Cents}

/-- What comes of moving an amount between two accounts. -/
def moved (source target : UserId) (amount : Cents) (amounts : UserId → Cents) : Except Error (UserId → Cents) :=
  if amount ≤ 0 then .error .invalidAmount
  else
    match debited source amount (amounts source) with
    | .error e => .error e
    | .ok less =>
      match credited target amount (amounts target) with
      | .error e => .error e
      | .ok more => .ok (Function.update (Function.update amounts source less) target more)

/-- The first rule that is broken is told and nothing has changed, or the amounts are the new ones. -/
def Tells (m : Memory) : Except Error (UserId → Cents) → Except Error Unit → Memory → Prop
  | .ok amounts, r, m' => r = .ok () ∧ m'.amountOf = amounts
  | .error e, r, m' => r = .error e ∧ m'.amountOf = m.amountOf

/-! ## The rules -/

/-- A rule that is broken is told as a refusal. -/
theorem severity_of_moved {amounts : UserId → Cents} {e : Error} (h : moved source target amount amounts = .error e) :
    e.severity = .rejected := by
  unfold moved debited credited at h
  split at h
  · cases h
    rfl
  · split at h
    · rename_i hdebit
      cases h
      split at hdebit <;> cases hdebit
      rfl
    · split at h
      · rename_i hcredit
        cases h
        split at hcredit <;> cases hcredit
        rfl
      · cases h

/-- An amount is moved exactly if the transfer succeeds on the amounts, and then they become what it makes of them. -/
theorem moved_cases (amount : Cents) {amounts : UserId → Cents} (hamounts : ∀ user, 0 ≤ (amounts user).toInt)
    (hne : source ≠ target) :
    ((Op.transfer source target amount).Succeeds (fun user => (amounts user).toInt) ∧
        ∃ amounts', moved source target amount amounts = .ok amounts' ∧
          ∀ user, (amounts' user).toInt = (amounts user).toInt + Change.total user
            (Op.transfer source target amount).changes) ∨
      ¬(Op.transfer source target amount).Succeeds (fun user => (amounts user).toInt) ∧
        ∃ e, moved source target amount amounts = .error e := by
  unfold moved
  by_cases hle : amount ≤ 0
  · refine Or.inr ⟨fun hs => (not_cents_le_zero_iff amount).2 hs.1 hle, ?_⟩
    rw [if_pos hle]
    exact ⟨_, rfl⟩
  have hpos := (not_cents_le_zero_iff amount).1 hle
  rw [if_neg hle]
  rcases debited_cases source hpos (amounts source) with ⟨hshort, hdebit⟩ | ⟨hcovers, hdebit, hless⟩
  · rw [hdebit]
    exact Or.inr ⟨fun hs => absurd hs.2.2.1 (Int.not_le.2 hshort), _, rfl⟩
  rcases credited_cases target hpos (hamounts target) with ⟨hover, hcredit⟩ | ⟨hfits, hcredit, hmore⟩
  · rw [hdebit, hcredit]
    exact Or.inr ⟨fun hs => absurd hs.2.2.2 (Int.not_le.2 hover), _, rfl⟩
  · rw [hdebit, hcredit]
    refine Or.inl ⟨⟨hpos, hne, hcovers, hfits⟩, _, rfl, fun user => ?_⟩
    simp only [Function.update_apply, Op.changes, Change.total]
    by_cases htarget : user = target
    · subst htarget
      simp [hmore, hne]
    · by_cases hsource : user = source
      · subst hsource
        simp [hless, htarget, Ne.symm htarget]
        omega
      · simp [htarget, hsource, Ne.symm htarget, Ne.symm hsource]

/-! ## At one stroke -/

theorem yields_writeBoth {before less more : Balance} (hless : 0 ≤ less.amount.toInt) (hmore : 0 ≤ more.amount.toInt) :
    (writeBoth before less more).Yields (fun r m' => r = .ok () ∧
      m'.amountOf = Function.update (Function.update m.amountOf less.user less.amount) more.user more.amount) m := by
  unfold writeBoth
  refine yields_write hless fun m₁ h₁ _ _ => yields_write hmore fun m₂ h₂ _ _ => ⟨rfl, ?_⟩
  rw [h₂, h₁]

theorem yields_move (hm : m.Sound) (hpos : 0 < amount.toInt) :
    (move source target amount).Yields (fun r m' =>
      Tells m (moved source target amount m.amountOf) (r.map fun _ => ()) m') m := by
  unfold move moved
  rw [if_neg ((not_cents_le_zero_iff amount).2 hpos)]
  refine yields_read hm fun before m₁ hsource hbefore hbefore' hm₁ hsame₁ _ => ?_
  refine yields_read hm₁ fun other m₂ htarget hother hother' _ hsame₂ _ => yields_clock.2 fun now => ?_
  have h₂ := (hsame₁.trans hsame₂).amountOf_eq
  rw [hsame₁.amountOf_eq] at hother
  have hdebit := decidedBy_debited source hpos before now hsource hbefore'
  rw [hbefore] at hdebit
  cases hout : debited source amount (m.amountOf source) with
  | error e =>
    rw [hout] at hdebit
    simp only [hdebit]
    exact ⟨rfl, h₂⟩
  | ok less =>
    rw [hout] at hdebit
    simp only [hdebit.1]
    refine yields_clock.2 fun now' => ?_
    have hcredit := decidedBy_credited target hpos other now' htarget hother'
    rw [hother] at hcredit
    cases hout' : credited target amount (m.amountOf target) with
    | error e =>
      rw [hout'] at hcredit
      simp only [hcredit]
      exact ⟨rfl, h₂⟩
    | ok more =>
      rw [hout'] at hcredit
      simp only [hcredit.1]
      refine (yields_writeBoth hdebit.2 hcredit.2).bind ?_
      rintro r m₃ ⟨rfl, h₃⟩
      rw [h₂] at h₃
      exact ⟨rfl, h₃⟩

/-- A transfer at one stroke tells what the amounts decide. -/
theorem yields_transfer (hm : m.Sound) (hne : source ≠ target) :
    (transfer source target amount).Yields (fun r m' =>
      Tells m (moved source target amount m.amountOf) (r.map fun _ => ()) m') m := by
  unfold transfer
  by_cases hle : amount ≤ 0
  · rw [if_pos hle, moved, if_pos hle]
    exact ⟨rfl, rfl⟩
  rw [if_neg hle, if_neg hne]
  refine yields_lock.2 (yields_lock.2 ((yields_move hm ((not_cents_le_zero_iff amount).1 hle)).bind ?_))
  intro r m₁ hr
  cases r with
  | error e => exact yields_unlock.2 (yields_unlock.2 hr)
  | ok both =>
    have hstill : ∀ m₂ : Memory, m₂.amountOf = m₁.amountOf →
        Tells m (moved source target amount m.amountOf) (.ok ()) m₂ := by
      intro m₂ h₂
      cases hout : moved source target amount m.amountOf with
      | error e =>
        rw [hout] at hr
        cases hr.1
      | ok amounts =>
        rw [hout] at hr
        exact ⟨rfl, h₂.trans hr.2⟩
    have htrace : ∀ (b : Balance) (movement : Movement) (delta : Cents) (m₂ : Memory), m₂.amountOf = m₁.amountOf →
        (trace b movement delta).Yields (fun _ m₃ => m₃.amountOf = m₁.amountOf) m₂ :=
      fun b movement delta m₂ h₂ => yields_trace fun m₃ h₃ _ _ => h₃.trans h₂
    refine (htrace both.1 .debit (-amount) m₁ rfl).bind fun _ m₂ h₂ => ?_
    exact (htrace both.2 .credit amount m₂ h₂).bind fun _ m₃ h₃ => yields_unlock.2 (yields_unlock.2 (hstill m₃ h₃))

end Account

/-! ## With a record -/

namespace Transfer

open Program Account

variable {m : Memory} {source target : UserId} {amount : Cents} {t : Transaction}

/-- What an outcome tells. -/
def verdict : Outcome → Except Error Unit
  | .ok _ => .ok ()
  | .error e => .error e.cause

/-- What an outcome tells does not depend on identifiers and times. -/
theorem verdict_bare (o : Outcome) : verdict o.bare = verdict o := by
  cases o <;> rfl

/-- The upshot of a transfer tells what the amounts decide. -/
theorem tells_of_reached (hne : source ≠ target) {o : Outcome} {m' : Memory}
    (h : ((Job.transfer source target amount).upshot m.amountOf).Reached m o m') :
    Tells m (moved source target amount m.amountOf) (verdict o) m' := by
  obtain ⟨htold, hposted⟩ := h
  rw [← verdict_bare, htold]
  have hamounts := hposted.amounts
  rw [Job.upshot, if_neg hne] at hamounts ⊢
  rw [moved]
  by_cases hle : amount ≤ 0
  · rw [if_pos hle] at hamounts ⊢
    rw [if_pos hle]
    exact ⟨rfl, hamounts⟩
  rw [if_neg hle] at hamounts ⊢
  rw [if_neg hle]
  cases hless : debited source amount (m.amountOf source) with
  | error e =>
    simp only [hless] at hamounts ⊢
    exact ⟨rfl, hamounts⟩
  | ok less =>
    cases hmore : credited target amount (m.amountOf target) with
    | ok more =>
      simp only [hless, hmore] at hamounts ⊢
      exact ⟨rfl, hamounts⟩
    | error e =>
      simp only [hless, hmore] at hamounts ⊢
      refine ⟨rfl, ?_⟩
      rw [hamounts]
      show Function.update (Function.update m.amountOf source less) source (m.amountOf source) = m.amountOf
      rw [Function.update_idem, Function.update_eq_self]

/-- A recorded transfer between two accounts tells what the amounts decide. -/
theorem yields_applyTransfer (hm : m.Sound) (hne : source ≠ target) :
    (applyTransfer source target amount).Yields (fun o m' =>
      Tells m (moved source target amount m.amountOf) (verdict o) m') m :=
  (reaches_applyTransfer hm source target amount).mono fun _ _ => tells_of_reached hne

/-! ## Agreement -/

/-- Two transfers of the same amount between the same accounts, from the same rows: what they told and what is left. -/
structure Agreement (m : Memory) (source target : UserId) (amount : Cents) (o : Outcome) (m₁ : Memory)
    (r : Except Error (Balance × Balance)) (m₂ : Memory) : Prop where
  /-- Both succeed, or both fail with the same error. -/
  told : (∃ t both, o = .ok t ∧ r = .ok both) ∨ ∃ e, (∃ t, o = .error ⟨t, e⟩) ∧ r = .error e
  /-- Every account ends with the same amount. -/
  amounts : ∀ user, m₁.amountOf user = m₂.amountOf user
  /-- The amounts at first decide whether they succeed. -/
  succeeds : (∃ both, r = .ok both) ↔ (Op.transfer source target amount).Succeeds fun user => (m.amountOf user).toInt
  /-- The amounts are those of a transfer at one stroke, or those at first. -/
  applied : ∀ user, (m₂.amountOf user).toInt =
    (Op.transfer source target amount).apply (fun u => (m.amountOf u).toInt) user
  /-- No money is left stranded. -/
  whole : ¬IsCompensationFailure o

theorem Agreement.of_tells (hm : m.Sound) (hne : source ≠ target) {o : Outcome} {m₁ m₂ : Memory}
    {r : Except Error (Balance × Balance)} (h₁ : Tells m (moved source target amount m.amountOf) (verdict o) m₁)
    (h₂ : Tells m (moved source target amount m.amountOf) (r.map fun _ => ()) m₂) :
    Agreement m source target amount o m₁ r m₂ := by
  rcases moved_cases amount hm.amountOf_nonneg hne with ⟨hs, amounts, hok, htotal⟩ | ⟨hs, e, herror⟩
  · rw [hok] at h₁ h₂
    obtain ⟨ho, hm₁⟩ := h₁
    obtain ⟨hr, hm₂⟩ := h₂
    rcases o with e | t
    · cases ho
    rcases r with e | both
    · cases hr
    refine ⟨Or.inl ⟨t, both, rfl, rfl⟩, fun user => by rw [hm₁, hm₂], iff_of_true ⟨both, rfl⟩ hs, fun user => ?_, ?_⟩
    · rw [hm₂, htotal, Op.apply, if_pos hs]
    · rintro ⟨e, he, -⟩
      cases he
  · have hsev := severity_of_moved herror
    rw [herror] at h₁ h₂
    obtain ⟨ho, hm₁⟩ := h₁
    obtain ⟨hr, hm₂⟩ := h₂
    rcases o with ⟨t, e'⟩ | t
    swap
    · cases ho
    rcases r with e'' | both
    swap
    · cases hr
    cases ho
    cases hr
    refine ⟨Or.inr ⟨_, ⟨t, rfl⟩, rfl⟩, fun user => by rw [hm₁, hm₂], iff_of_false ?_ hs, fun user => ?_, ?_⟩
    · rintro ⟨both, hboth⟩
      cases hboth
    · rw [hm₂, Op.apply, if_neg hs]
    · exact not_isCompensationFailure (by simp [hsev])

/-- A program that maps its end ends where the program does. -/
theorem runUnder_of_map {α β : Type} {weather : Nat → Circumstance} {call : CallId} {p : Program α} {f : α → β}
    {past past' : Deeds} {l l' : Ledger} {b : β}
    (h : l.runUnder weather call (p.map f) past = (.finished b, l', past')) :
    ∃ a, l.runUnder weather call p past = (.finished a, l', past') := by
  induction p generalizing l past with
  | done a =>
    cases h
    exact ⟨a, rfl⟩
  | act action next ih =>
    simp only [Program.map, Program.bind, Ledger.runUnder] at h ⊢
    split at h
    · exact ih _ h
    · cases h
    · cases h

/-- A recorded transfer and one at one stroke, each alone over the same sound rows with a store that answers, agree:
whatever the amount is, and whatever clock and audit each of them finds. -/
theorem transfers_agree (hm : m.Sound) (trail : Trail) (now : Instant) (call : CallId) (source target : UserId)
    (amount : Cents) (hne : source ≠ target) (weather₁ weather₂ : Nat → Circumstance)
    (hcalm₁ : ∀ i, (weather₁ i).outage = none) (hcalm₂ : ∀ i, (weather₂ i).outage = none) :
    ∃ o l₁ past₁ r l₂ past₂,
      (Ledger.atRest m trail now).runUnder weather₁ call (applyTransfer source target amount) [] =
        (.finished o, l₁, past₁) ∧
      (Ledger.atRest m trail now).runUnder weather₂ call (Account.transfer source target amount) [] =
        (.finished r, l₂, past₂) ∧
      Agreement m source target amount o l₁.store.memory r l₂.store.memory := by
  have hw := Ledger.working_atRest m trail now
  have hserves := (Ledger.vacant_atRest hm trail now).serves call
  obtain ⟨o, l₁, past₁, hrun₁, -, -⟩ :=
    runUnder_rule weather₁ hserves (keeps_applyTransfer source target amount)
  obtain ⟨_, l₂, past₂, hrun, -⟩ := Ledger.runUnder_keeps (fun _ _ h => h.orderly) (fun i => Or.inl (hcalm₂ i)) hserves
    (Op.keeps_program (.transfer source target amount))
  obtain ⟨r, hrun₂⟩ := runUnder_of_map hrun
  have h₁ := Ledger.runUnder_yields (p := applyTransfer source target amount) hw hcalm₁ (yields_applyTransfer hm hne)
    hrun₁
  have h₂ := Ledger.runUnder_yields (p := Account.transfer source target amount) hw hcalm₂ (yields_transfer hm hne)
    hrun₂
  exact ⟨o, l₁, past₁, r, l₂, past₂, hrun₁, hrun₂, .of_tells hm hne h₁ h₂⟩

/-- The target cannot take a cent more: one transfer finds that before it writes, the other debits, fails and puts the
source back, and both say that the credit would overflow. -/
theorem transfers_agree_overflowing :
    ∃ m : Memory, m = ((Memory.empty.perform (.ofSeconds 0) (.saveBalance ⟨1, 500, .ofSeconds 0⟩)).2.perform
        (.ofSeconds 0) (.saveBalance ⟨2, Int64.maxValue, .ofSeconds 0⟩)).2 ∧
      ∃ o l₁ past₁ r l₂ past₂,
        (Ledger.atRest m .empty (.ofSeconds 0)).runUnder (fun i => ⟨.ofSeconds i, none, false⟩) 0
          (applyTransfer 1 2 200) [] = (.finished o, l₁, past₁) ∧
        (Ledger.atRest m .empty (.ofSeconds 0)).runUnder (fun _ => ⟨.ofSeconds 9, none, true⟩) 0
          (Account.transfer 1 2 200) [] = (.finished r, l₂, past₂) ∧
        Agreement m 1 2 200 o l₁.store.memory r l₂.store.memory ∧
        ∃ e, (∃ t, o = .error ⟨t, e⟩) ∧ r = .error e := by
  refine ⟨_, rfl, ?_⟩
  have hreachable := Memory.Reachable.perform (.ofSeconds 0) (.saveBalance ⟨2, Int64.maxValue, .ofSeconds 0⟩)
    (.perform (.ofSeconds 0) (.saveBalance ⟨1, 500, .ofSeconds 0⟩) .empty)
  obtain ⟨o, l₁, past₁, r, l₂, past₂, hrun₁, hrun₂, hagreement⟩ := transfers_agree hreachable.sound .empty
    (.ofSeconds 0) 0 1 2 200 (by decide) (fun i => ⟨.ofSeconds i, none, false⟩) (fun _ => ⟨.ofSeconds 9, none, true⟩)
    (fun _ => rfl) (fun _ => rfl)
  refine ⟨o, l₁, past₁, r, l₂, past₂, hrun₁, hrun₂, hagreement, hagreement.told.resolve_left ?_⟩
  rintro ⟨-, both, -, hboth⟩
  exact absurd (hagreement.succeeds.1 ⟨both, hboth⟩) (by decide)

end Transfer

end CentLedger
