import CentLedger.Proofs.Jobs
import CentLedger.Proofs.Solitary

/-!
# What a caller is told

A job that runs alone tells its caller what is stored, whatever requests the store refuses on the way:
`report_agrees_with_rows` puts the outcome beside the rows before and after the run.
-/

namespace CentLedger

namespace Transfer

/-- The record that an outcome hands to the caller. -/
def recordOf : Outcome → Option Transaction
  | .ok t => some t
  | .error e => e.transaction

/-- The outcome of a job tells what the rows came to, from those at first and what the call did. -/
structure Faithful (m : Memory) (j : Job) (o : Outcome) (m' : Memory) (past : Deeds) : Prop where
  /-- The only new row is the record that the caller gets, and no other row changed. -/
  rows : m'.transactions = m.transactions ++ (recordOf o).toList
  /-- The record that the caller gets is the stored one. -/
  stored : ∀ t, recordOf o = some t → m'.transaction? t.id = some t
  /-- A job that went through is completed and has made each of its changes once. -/
  completed : ∀ t, o = .ok t → t.status = .completed ∧ past.changes = j.changes ∧
    ∀ user, (m'.amountOf user).toInt = (m.amountOf user).toInt + j.effect user
  /-- A job without a record changed no amount. -/
  rejected : ∀ e, o = .error (.rejected e) → ∀ user, m'.amountOf user = m.amountOf user
  /-- A job with a record failed for the cause that is written there, and changed no amount unless it says so, or its
  record is pending, and the last thing it did was to be refused the new status. -/
  recorded : ∀ t e, o = .error (.withRecord t e) →
    t.status = .failed ∧ t.failureCause = some e.message ∧
        (e.isCompensationFailure = false → ∀ user, m'.amountOf user = m.amountOf user) ∨
      t.status = .pending ∧ t.failureCause = none ∧ ∃ s, s.id = t.id ∧ Job.WriteRefused past s

variable {m : Memory} {l : Ledger} {call : CallId} {j : Job} {past : Deeds} {faulty : Bool} {o : Outcome}

/-- The record that a report tells is the one that the call last saw. -/
theorem recordOf_eq (h : j.Reported faulty o past) : recordOf o = past.record := by
  match o with
  | .ok t => exact h.1.symm
  | .error ⟨none, e⟩ => exact h.1.symm
  | .error ⟨some t, e⟩ => exact h.1.symm

/-- Where the changes of a call to an account come to nothing, its amount is as it was. -/
theorem amount_same {user : UserId} (hs : l.Serves m call past) (hnet : past.net user = 0) :
    l.store.memory.amountOf user = m.amountOf user := by
  have h := hs.amounts user
  rw [hnet, Int.add_zero] at h
  exact Int64.toInt_inj.1 h

/-- A report about a call alone is faithful. -/
theorem Faithful.of_reported (hs : l.Serves m call past) (h : j.Reported faulty o past) :
    Faithful m j o l.store.memory past := by
  have hrows := hs.agrees.records.alone
  refine ⟨?_, ?_, ?_, ?_, ?_⟩
  · rw [recordOf_eq h]
    exact hrows
  · intro t ht
    rw [recordOf_eq h] at ht
    apply hs.agrees.sound.transaction?_of_mem
    rw [hrows, ht]
    simp
  · rintro t rfl
    refine ⟨h.2.2.1, h.2.2.2, ?_⟩
    intro user
    rw [hs.amounts user, Deeds.net, h.2.2.2, Job.effect]
  · rintro e rfl user
    refine amount_same hs ?_
    rw [Deeds.net, h.2.1]
    rfl
  · rintro t e rfl
    rcases h.2.2 with ⟨hfailed, hcause, htold⟩ | ⟨hpending, hcause, -, s, hrefused, hid, -⟩
    · refine Or.inl ⟨hfailed, hcause, ?_⟩
      intro hkind user
      rw [Job.Told, hkind, if_neg Bool.false_ne_true] at htold
      exact amount_same hs (htold user)
    · exact Or.inr ⟨hpending, hcause, s, hid, hrefused⟩

/-- A part of a job, run alone from where the call stands. -/
theorem runUnder_rule (weather : Nat → Circumstance) {α : Type} {p : Program α} {ends : α → Deeds → Prop}
    (hs : l.Serves m call past) (hp : p.Keeps j.Rule true ends past) :
    ∃ a l' past', l.runUnder weather call p past = (.finished a, l', past') ∧ ends a past' ∧
      l'.Serves m call past' := by
  have hcalm : ∀ i, (weather i).outage = none ∨ true = true := fun _ => Or.inr rfl
  obtain ⟨a, l', past', hrun, hends, hs', -⟩ := Ledger.runUnder_keeps (fun _ _ h => h.1) hcalm hs hp
  exact ⟨a, l', past', hrun, hends, hs'⟩

/-- A job that runs alone over rows that ever came about comes to its end, and its outcome tells what is stored,
whatever requests the store refuses. -/
theorem report_agrees_with_rows (hm : m.Reachable) (trail : Trail) (now : Instant) (weather : Nat → Circumstance)
    (call : CallId) (j : Job) :
    ∃ o l past, (Ledger.atRest m trail now).runUnder weather call (execute j) [] = (.finished o, l, past) ∧
      Faithful m j o l.store.memory past := by
  obtain ⟨o, l, past, hrun, hreported, hs⟩ :=
    runUnder_rule weather ((Ledger.vacant_atRest hm.sound trail now).serves call) (keeps_execute j true)
  exact ⟨o, l, past, hrun, .of_reported hs hreported.1⟩

/-- A credit of 250 whose last request is refused, as its eleventh action: the balance is written, and the record is
pending. -/
theorem report_agrees_with_rows_refused :
    ∃ o l past, (Ledger.atRest .empty .empty (.ofSeconds 0)).runUnder
        (fun i => ⟨.ofSeconds 0, if i = 10 then some "disk full" else none, false⟩) 0 (execute (.credit 7 250)) [] =
        (.finished o, l, past) ∧
      Faithful .empty (.credit 7 250) o l.store.memory past :=
  report_agrees_with_rows .empty _ _ _ _ _

end Transfer

end CentLedger
