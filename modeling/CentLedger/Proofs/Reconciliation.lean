import CentLedger.Proofs.Jobs
import CentLedger.Proofs.Traffic

/-!
# Balances and records reconcile

Any number of jobs run at once over rows that were empty at first. At every moment the balance of an account is what the
completed records say, and what the calls with pending records have done so far, less what compensation failures owe
(`balances_reconcile`). The share of each call follows from how its record stands (`net_of_opened`); the shares are then
summed over all calls.
-/

namespace CentLedger

/-- The amounts that completed records brought to an account. -/
def Memory.completedInto (m : Memory) (user : UserId) : Int :=
  (m.transactions.map fun t => if t.status = .completed ∧ t.target = some user then t.amount.toInt else 0).sum

/-- The amounts that completed records took from an account. -/
def Memory.completedFrom (m : Memory) (user : UserId) : Int :=
  (m.transactions.map fun t => if t.status = .completed ∧ t.source = some user then t.amount.toInt else 0).sum

/-- A call ended with an error that names a record and says that its transfer could neither be carried through nor
undone. -/
def Stage.stranded (t : Transaction) : Stage Transfer.Outcome → Bool
  | .ready (.done (.error ⟨some r, e⟩)) => r.id = t.id ∧ e.isCompensationFailure
  | _ => false

namespace Traffic

open Transfer Chronicle

/-- The row of the record that a call opened. -/
def rowOf (s : Traffic Outcome) (call : CallId) : Option Transaction :=
  (s.chronicle.deeds call).record.bind fun t => s.ledger.store.memory.transaction? t.id

/-- What the calls whose records are pending did to an account so far. -/
def inFlight (s : Traffic Outcome) (user : UserId) : Int :=
  ∑ call ∈ Finset.range s.stages.length,
    if (s.rowOf call).any (·.status = .pending) then (s.chronicle.deeds call).net user else 0

/-- The amounts of the failed records that took from an account, and whose calls ended in compensation failures. -/
def owed (s : Traffic Outcome) (user : UserId) : Int :=
  (s.ledger.store.memory.transactions.map fun t =>
    if t.status = .failed ∧ t.source = some user ∧ s.stages.any (Stage.stranded t) then t.amount.toInt else 0).sum

/-- Calls that are about to do jobs, over rows that are empty. -/
def ofJobs (trail : Trail) (now : Instant) (jobs : List Job) : Traffic Outcome :=
  start (.atRest .empty trail now) (jobs.map execute)

/-- The job of a call; calls without one have nothing to do. -/
def jobOf (jobs : List Job) (call : CallId) : Job :=
  jobs[call]?.getD (.credit 0 0)

/-- The invariant of calls that do jobs. -/
abbrev GoodJobs (jobs : List Job) (s : Traffic Outcome) : Prop :=
  Good .empty (fun call => (jobOf jobs call).Rule) false (fun call o past => (jobOf jobs call).Reported false o past) s

variable {jobs : List Job} {s : Traffic Outcome} {call : CallId}

theorem GoodJobs.start (trail : Trail) (now : Instant) (jobs : List Job) : GoodJobs jobs (ofJobs trail now jobs) := by
  refine Good.start Memory.sound_empty trail now ?_
  intro call p hp
  rw [List.getElem?_map, Option.map_eq_some_iff] at hp
  obtain ⟨j, hj, rfl⟩ := hp
  have hjob : jobOf jobs call = j := by rw [jobOf, hj]; rfl
  rw [hjob]
  exact (keeps_execute j false).mono fun o past h => h.1

/-- The row of a call is the record as the call last saw it. -/
theorem GoodJobs.rowOf_eq (hg : GoodJobs jobs s) (call : CallId) : s.rowOf call = (s.chronicle.deeds call).record := by
  unfold rowOf
  cases ht : (s.chronicle.deeds call).record with
  | none => rfl
  | some t => exact hg.agrees.sound.transaction?_of_mem (hg.agrees.records.stored ht)

/-- What came to an account from a record that stands as it does. -/
def share (user : UserId) (stranded : Bool) (t : Transaction) (pending : Int) : Int :=
  match t.status with
  | .completed =>
    (if t.target = some user then t.amount.toInt else 0) - if t.source = some user then t.amount.toInt else 0
  | .pending => pending
  | .failed => -if t.source = some user ∧ stranded = true then t.amount.toInt else 0

/-- The share of a record as one term for each sum over the rows. -/
theorem share_eq (user : UserId) (stranded : Bool) (t : Transaction) (pending : Int) :
    share user stranded t pending =
      (if t.status = .completed ∧ t.target = some user then t.amount.toInt else 0) -
        (if t.status = .completed ∧ t.source = some user then t.amount.toInt else 0) +
        (if t.status = .pending then pending else 0) -
        (if t.status = .failed ∧ t.source = some user ∧ stranded = true then t.amount.toInt else 0) := by
  unfold share
  split
  · rename_i h
    simp [h]
  · rename_i h
    simp [h]
  · rename_i h
    simp [h]

/-- The changes of a job are those of the record that it opened. -/
theorem effect_of_record {j : Job} {t : Transaction} (hfor : t.For j.request) (user : UserId) :
    j.effect user =
      (if t.target = some user then t.amount.toInt else 0) - if t.source = some user then t.amount.toInt else 0 := by
  rw [hfor.source, hfor.target, hfor.amount]
  cases j with
  | credit u a => simp [Job.effect, Job.changes, Change.total, Job.request, Request.credit]
  | debit u a =>
    simp only [Job.effect, Job.changes, Change.total, Job.request, Request.debit]
    by_cases hu : u = user
    · simp [hu]
    · simp [hu]
  | transfer a b amount =>
    simp only [Job.effect, Job.changes, Change.total, Job.request, Request.transfer]
    by_cases ha : a = user
    · by_cases hb : b = user
      · simp [ha, hb]
      · simp [ha, hb]
    · by_cases hb : b = user
      · simp [ha, hb]
      · simp [ha, hb]

/-- Some call ended in a compensation failure that names the record of a call exactly if that call did. -/
theorem GoodJobs.stranded_iff (hg : GoodJobs jobs s) {t : Transaction} (ht : (s.chronicle.deeds call).record = some t) :
    s.stages.any (Stage.stranded t) = true ↔
      ∃ r e, s.result? call = some (.error ⟨some r, e⟩) ∧ e.isCompensationFailure = true := by
  rw [List.any_eq_true]
  constructor
  · rintro ⟨st, hmem, hst⟩
    obtain ⟨c, hc⟩ := List.mem_iff_getElem?.1 hmem
    unfold Stage.stranded at hst
    split at hst
    · rename_i r e
      have hresult : s.result? c = some (.error ⟨some r, e⟩) := by simp only [result?, hc]
      obtain ⟨hid, hkind⟩ := of_decide_eq_true hst
      have hreported := hg.ended hresult
      have hsame : c = call := hg.agrees.records.owners c call r t hreported.1 ht hid
      exact ⟨r, e, hsame ▸ hresult, hkind⟩
    · cases hst
  · rintro ⟨r, e, hresult, hkind⟩
    have hrecord : (s.chronicle.deeds call).record = some r := (hg.ended hresult).1
    cases hrecord.symm.trans ht
    unfold result? at hresult
    split at hresult
    · rename_i o hc
      cases hresult
      exact ⟨_, List.mem_of_getElem? hc, decide_eq_true ⟨rfl, hkind⟩⟩
    · cases hresult

/-- A call without a record came to nothing. -/
theorem GoodJobs.net_of_unopened (hg : GoodJobs jobs s) (hr : (s.chronicle.deeds call).record = none)
    (user : UserId) : (s.chronicle.deeds call).net user = 0 := by
  have hnothing : (s.chronicle.deeds call).changes = [] := by
    rcases hg.position call with ⟨action, -, hunderway⟩ | ⟨o, -, hreported⟩ | ⟨-, hdeeds⟩
    · rw [Job.Underway, hr] at hunderway
      exact hunderway
    · rcases o with ⟨_ | t, e⟩ | t
      · exact hreported.2.1
      · cases hr.symm.trans hreported.1
      · cases hr.symm.trans hreported.1
    · rw [hdeeds]
      rfl
  rw [Deeds.net, hnothing]
  rfl

/-- A job that went through came to what its completed record says. -/
theorem share_of_completed {j : Job} {t : Transaction} {past : Deeds} (hfor : t.For j.request)
    (hstatus : t.status = .completed) (hchanges : past.changes = j.changes) (user : UserId) (stranded : Bool)
    (pending : Int) : past.net user = share user stranded t pending := by
  have heffect : past.net user = j.effect user := by rw [Deeds.net, hchanges]; rfl
  rw [heffect, effect_of_record hfor]
  simp only [share, hstatus]

/-- A job that failed came to what it owes, and that is nothing unless its error says so. -/
theorem GoodJobs.share_of_failed (hg : GoodJobs jobs s) {t : Transaction} {e : Error}
    (hresult : s.result? call = some (.error (.withRecord t e))) (hr : (s.chronicle.deeds call).record = some t)
    (hfor : t.For (jobOf jobs call).request) (hstatus : t.status = .failed)
    (htold : (jobOf jobs call).Told t e (s.chronicle.deeds call)) (user : UserId) (pending : Int) :
    (s.chronicle.deeds call).net user = share user (s.stages.any (Stage.stranded t)) t pending := by
  have hiff := hg.stranded_iff hr
  simp only [share, hstatus]
  by_cases hkind : e.isCompensationFailure = true
  · rw [Job.Told, if_pos hkind] at htold
    obtain ⟨source, target, amount, text, hj, -, hchanges⟩ := htold
    have hsource : t.source = some source := by rw [hfor.source, hj]; rfl
    have hamount : t.amount = amount := by rw [hfor.amount, hj]; rfl
    have hany := hiff.2 ⟨t, e, hresult, hkind⟩
    rw [Deeds.net, hchanges, hany, hsource, hamount]
    by_cases hu : source = user
    · simp [Change.total, hu]
    · simp [Change.total, hu]
  · rw [Job.Told, if_neg hkind] at htold
    have hany : ¬s.stages.any (Stage.stranded t) = true := by
      rw [hiff]
      rintro ⟨r, e', hresult', hkind'⟩
      cases hresult.symm.trans hresult'
      exact hkind hkind'
    rw [htold user, if_neg fun h => hany h.2]
    rfl

/-- A call with a record came to the share of this record. -/
theorem GoodJobs.net_of_opened (hg : GoodJobs jobs s) {t : Transaction} (hr : (s.chronicle.deeds call).record = some t)
    (user : UserId) :
    (s.chronicle.deeds call).net user =
      share user (s.stages.any (Stage.stranded t)) t ((s.chronicle.deeds call).net user) := by
  rcases hg.position call with ⟨action, -, hunderway⟩ | ⟨o, hresult, hreported⟩ | ⟨-, hdeeds⟩
  · rw [Job.Underway, hr] at hunderway
    rcases hunderway with ⟨hfor, ⟨hpending, -⟩ | ⟨hstatus, hchanges⟩⟩
    · simp only [share, hpending]
    · exact share_of_completed hfor hstatus hchanges user _ _
  · rcases o with ⟨_ | r, e⟩ | r
    · cases hr.symm.trans hreported.1
    · cases hreported.1.symm.trans hr
      obtain ⟨-, hfor, ⟨hfailed, -, htold⟩ | ⟨-, -, hfaulty, -⟩⟩ := hreported
      · exact hg.share_of_failed hresult hr hfor hfailed htold user _
      · cases hfaulty
    · cases hreported.1.symm.trans hr
      exact share_of_completed hreported.2.1 hreported.2.2.1 hreported.2.2.2 user _ _
  · rw [hdeeds] at hr
    cases hr

/-- The balance of an account is the sum of the shares of all calls. -/
theorem GoodJobs.reconciled (hg : GoodJobs jobs s) (user : UserId) :
    (s.ledger.store.memory.amountOf user).toInt =
      s.ledger.store.memory.completedInto user - s.ledger.store.memory.completedFrom user + s.inFlight user -
        s.owed user := by
  have hrows : s.ledger.store.memory.transactions = s.chronicle.records := hg.agrees.records.rows
  have hsum := fun f => hg.agrees.records.sum_records hg.strangers f
  rw [hg.agrees.amounts.amounts user, net_eq_sum hg.strangers user]
  show 0 + _ = _
  unfold Memory.completedInto Memory.completedFrom owed inFlight
  rw [hrows, hsum, hsum, hsum, Int.zero_add, ← Finset.sum_sub_distrib, ← Finset.sum_add_distrib,
    ← Finset.sum_sub_distrib]
  refine Finset.sum_congr rfl ?_
  intro call _
  rw [hg.rowOf_eq call]
  cases hr : (s.chronicle.deeds call).record with
  | none => simpa using hg.net_of_unopened hr user
  | some t =>
    have hnet := hg.net_of_opened hr user
    rw [share_eq] at hnet
    simpa using hnet

/-- When all calls have ended, no record is pending. -/
theorem GoodJobs.terminal (hg : GoodJobs jobs s) (hdone : s.Finished) {t : Transaction}
    (ht : (s.chronicle.deeds call).record = some t) : t.status ≠ .pending := by
  have hlt : call < s.stages.length := by
    by_contra h
    rw [hg.strangers call (Nat.not_lt.1 h)] at ht
    cases ht
  obtain ⟨o, ho⟩ := Option.isSome_iff_exists.1 (hdone call hlt)
  have hreported := hg.ended ho
  match o with
  | .ok r =>
    cases hreported.1.symm.trans ht
    rw [hreported.2.2.1]
    intro h
    cases h
  | .error ⟨none, e⟩ => nomatch hreported.1.symm.trans ht
  | .error ⟨some r, e⟩ =>
    cases hreported.1.symm.trans ht
    rcases hreported.2.2 with ⟨hfailed, -⟩ | ⟨-, -, hfaulty, -⟩
    · rw [hfailed]
      intro h
      cases h
    · cases hfaulty

/-- The balance of an account, put beside the records. -/
structure Reconciled (s : Traffic Outcome) (user : UserId) : Prop where
  /-- The balance is not negative and not too large. -/
  bounds : 0 ≤ (s.ledger.store.memory.amountOf user).toInt ∧ (s.ledger.store.memory.amountOf user).toInt ≤ maxCents
  /-- The balance is what completed records brought, less what they took, and what the calls with pending records did so
  far, less what compensation failures owe. -/
  balance : (s.ledger.store.memory.amountOf user).toInt =
    s.ledger.store.memory.completedInto user - s.ledger.store.memory.completedFrom user + s.inFlight user - s.owed user
  /-- When all calls have ended, every record is terminal. -/
  terminal : s.Finished → ∀ t ∈ s.ledger.store.memory.transactions, t.status.isTerminal = true
  /-- When all calls have ended, the balance is what the records say. -/
  replayed : s.Finished → (s.ledger.store.memory.amountOf user).toInt =
    s.ledger.store.memory.completedInto user - s.ledger.store.memory.completedFrom user - s.owed user

/-- Whatever jobs run at once over rows that were empty, and however their steps interleave, balances and records
reconcile at every moment. -/
theorem balances_reconcile (trail : Trail) (now : Instant) (jobs : List Job) (moves : List Move)
    (hcalm : ∀ mv ∈ moves, mv.circumstance.outage = none) (user : UserId) :
    Reconciled ((ofJobs trail now jobs).run moves) user := by
  have hg : GoodJobs jobs ((ofJobs trail now jobs).run moves) :=
    Good.run (GoodJobs.start trail now jobs) (fun _ _ _ h => h.1) fun mv hmv => Or.inl (hcalm mv hmv)
  generalize (ofJobs trail now jobs).run moves = s at hg ⊢
  have hreconciled := hg.reconciled user
  refine ⟨⟨hg.agrees.sound.amountOf_nonneg user, toInt_le_maxCents _⟩, hreconciled, ?_, ?_⟩
  · intro hdone t ht
    have hrows : s.ledger.store.memory.transactions = s.chronicle.records := hg.agrees.records.rows
    rw [hrows] at ht
    obtain ⟨call, -, hr⟩ := List.mem_filterMap.1 ht
    have hstatus := hg.terminal hdone hr
    cases h : t.status with
    | pending => exact absurd h hstatus
    | completed => rfl
    | failed => rfl
  · intro hdone
    have hnothing : s.inFlight user = 0 := by
      refine Finset.sum_eq_zero ?_
      intro call _
      rw [hg.rowOf_eq call]
      cases hr : (s.chronicle.deeds call).record with
      | none => rfl
      | some t => simp [hg.terminal hdone hr]
    rw [hnothing, Int.add_zero] at hreconciled
    exact hreconciled

/-- Two accounts are filled up, and a transfer of 5 between them is overtaken by a credit of 5 to its source: the target
has no room for it, and after the credit neither has the source. -/
theorem balances_reconcile_overtaken :
    ∃ s, s = (ofJobs .empty (.ofSeconds 0) [.credit 1 9_223_372_036_854_775_807, .credit 2 9_223_372_036_854_775_807,
        .transfer 1 2 5, .credit 1 5]).run (turns (.ofSeconds 0) (List.replicate 12 0 ++ List.replicate 12 1 ++
        List.replicate 9 2 ++ List.replicate 12 3 ++ List.replicate 10 2)) ∧
      s.owed 1 = 5 ∧ Reconciled s 1 :=
  ⟨_, rfl, by decide +kernel, balances_reconcile _ _ _ _ (calm_turns _ _) _⟩

end Traffic

end CentLedger
