import CentLedger.Proofs.Reports

/-!
# Transfers conserve money, or say that they did not

A transfer debits the source and then credits the target; where that fails it credits the source again. Only if this
fails too is money missing, and then the error says whose it is and how much. `transfer_conserves_or_tells` states it of
a transfer alone, for every pattern of requests that the store refuses.
-/

namespace CentLedger

namespace Transfer

open Program Ledger

/-- The debit of a transfer was written, and neither the credit of the target nor the one that would undo the debit went
through. The steps are run one after another, as the transfer takes them. -/
def Stranded (weather : Nat → Circumstance) (call : CallId) (l : Ledger) (source target : UserId) (amount : Cents)
    (t : Transaction) : Prop :=
  ∃ l₁ past₁ debited l₂ past₂ e l₃ past₃ e' l₄ past₄,
    l.runUnder weather call (Records.openRecord (.transfer source target amount)) [] = (.finished (.ok t), l₁, past₁) ∧
    l₁.runUnder weather call (Account.debit source amount) past₁ = (.finished debited, l₂, past₂) ∧
    past₂.changes = past₁.changes ++ [⟨source, -amount.toInt⟩] ∧
    l₂.runUnder weather call (Account.credit target amount) past₂ = (.finished (.error e), l₃, past₃) ∧
    l₃.runUnder weather call (Account.credit source amount) past₃ = (.finished (.error e'), l₄, past₄)

/-- The outcome is that a transfer could neither be carried through nor undone. -/
def IsCompensationFailure (o : Outcome) : Prop :=
  ∃ e, o = .error e ∧ e.cause.isCompensationFailure = true

/-- Both accounts of a transfer were written, and the store refused to complete the record. -/
def Unsettled (source target : UserId) (amount : Cents) (past : Deeds) : Prop :=
  past.changes = [⟨source, -amount.toInt⟩, ⟨target, amount.toInt⟩] ∧
    ∃ s, s.status = .completed ∧ Job.WriteRefused past s

variable {m : Memory} {l l' : Ledger} {call : CallId} {weather : Nat → Circumstance} {source target : UserId}
  {amount : Cents} {past' : Deeds} {o : Outcome}

/-- An error of another severity is no compensation failure. -/
theorem not_isCompensationFailure {r : Option Transaction} {e : Error} (he : e.severity ≠ .critical) :
    ¬IsCompensationFailure (.error ⟨r, e⟩) := by
  rintro ⟨e', h, hkind⟩
  cases h
  exact he ((Error.isCompensationFailure_iff e).1 hkind)

/-- The error of a transfer that gives up is a compensation failure exactly if its cause is. -/
theorem isCompensationFailure_of_giveUp {cause : Error} {t : Transaction}
    (h : ∃ s e, o = .error (.withRecord s e) ∧ s.id = t.id ∧
      (e = cause ∨ e.isCompensationFailure = false ∧ cause.isCompensationFailure = false)) :
    IsCompensationFailure o ↔ cause.isCompensationFailure = true := by
  obtain ⟨s, e, rfl, -, he⟩ := h
  rcases he with rfl | ⟨he, hc⟩
  · exact ⟨fun ⟨e', h, hk⟩ => by cases h; exact hk, fun hk => ⟨_, rfl, hk⟩⟩
  · rw [hc]
    refine ⟨fun ⟨e', h, hk⟩ => ?_, fun h => (nomatch h)⟩
    cases h
    exact absurd hk (by simp [ApplyError.withRecord, he])

/-- No record is opened for a transfer from an account to itself. -/
theorem not_stranded_same (t : Transaction) : ¬Stranded weather call l source source amount t := by
  rintro ⟨l₁, past₁, -, -, -, -, -, -, -, -, -, hopen, -⟩
  have hinvalid : ∃ e, (Request.transfer source source amount).validate = .error e := by
    simp only [Request.validate, Request.transfer, checkShape]
    by_cases h : amount ≤ 0
    · exact ⟨.invalidAmount, if_pos h⟩
    · exact ⟨.sameAccountTransfer, by simp [h]⟩
  obtain ⟨e, he⟩ := hinvalid
  simp only [Records.openRecord, he] at hopen
  cases hopen

/-- The error of a transfer that was settled is no compensation failure. -/
theorem not_isCompensationFailure_of_settled (h : ∀ e, o = .error e → e.cause.isCompensationFailure = false) :
    ¬IsCompensationFailure o := by
  rintro ⟨e, rfl, hkind⟩
  rw [h e rfl] at hkind
  cases hkind

/-- What came of putting the source back: it was credited, or it was not, and then the error says so. -/
theorem compensate_cases {t : Transaction} {cause : Error} {past : Deeds} (hs : l.Serves m call past)
    (hp : (Job.transfer source target amount).Pending t past) (hpos : 0 < amount.toInt)
    (hchanges : past.changes = [⟨source, -amount.toInt⟩]) (hcause : cause.severity ≠ .critical)
    (hrun : l.runUnder weather call (compensate t source amount cause) past = (.finished o, l', past')) :
    ∃ result l₁ past₁, l.runUnder weather call (Account.credit source amount) past = (.finished result, l₁, past₁) ∧
      match result with
      | .ok _ => ¬IsCompensationFailure o
      | .error _ => IsCompensationFailure o ∧
          ∃ s text, o = .error (.withRecord s (.compensationFailed t.id source amount text)) ∧ s.id = t.id := by
  obtain ⟨result, l₁, past₁, hback, ⟨hcredited, hp₁⟩, hs₁⟩ :=
    runUnder_rule weather hs (keeps_creditPending hp source hpos)
  refine ⟨result, l₁, past₁, hback, ?_⟩
  unfold compensate at hrun
  rw [runUnder_bind hback] at hrun
  cases result with
  | ok b =>
    have hundone : past₁.changes = [⟨source, -amount.toInt⟩, ⟨source, amount.toInt⟩] := by
      rw [hcredited.ok b rfl, hchanges]
      rfl
    obtain ⟨o', l₂, past₂, hgive, ⟨hgiven, -⟩, -⟩ :=
      runUnder_rule weather hs₁ (keeps_giveUp hp₁ (told_undone hcause hundone))
    cases hgive.symm.trans hrun
    show ¬IsCompensationFailure o
    rw [isCompensationFailure_of_giveUp hgiven, Error.isCompensationFailure_iff]
    exact hcause
  | error e =>
    have howed : past₁.changes = [⟨source, -amount.toInt⟩] := (hcredited.error e rfl).2.trans hchanges
    have htold : (Job.transfer source target amount).Told t (compensationFailure t source amount cause e) past₁ :=
      told_owed howed
    obtain ⟨o', l₂, past₂, hgive, ⟨hgiven, -⟩, -⟩ := runUnder_rule weather hs₁ (keeps_giveUp hp₁ htold)
    cases hgive.symm.trans hrun
    refine ⟨(isCompensationFailure_of_giveUp hgiven).2 rfl, ?_⟩
    obtain ⟨s, e', rfl, hid, rfl | ⟨-, hk⟩⟩ := hgiven
    · exact ⟨s, _, rfl, hid⟩
    · cases hk

/-- An outcome is a compensation failure exactly if some record was left stranded, and then its error names this record,
the source and the amount. -/
def Confesses (source : UserId) (amount : Cents) (o : Outcome) (stranded : Transaction → Prop) : Prop :=
  (IsCompensationFailure o ↔ ∃ t, stranded t) ∧ ∀ t, stranded t →
    ∃ s text, o = .error (.withRecord s (.compensationFailed t.id source amount text)) ∧ s.id = t.id

/-- Where nothing was left stranded, there is nothing to say. -/
theorem Confesses.nothing {stranded : Transaction → Prop} (ho : ¬IsCompensationFailure o) (hnot : ∀ t, ¬stranded t) :
    Confesses source amount o stranded :=
  ⟨iff_of_false ho fun ⟨t, h⟩ => hnot t h, fun t h => absurd h (hnot t)⟩

/-- A transfer that has debited its source, from there on. -/
theorem confesses_of_debited {l₁ l₂ : Ledger} {past₁ past₂ : Deeds} {t : Transaction} {b : Balance}
    (hopen : l.runUnder weather call (Records.openRecord (.transfer source target amount)) [] =
      (.finished (.ok t), l₁, past₁))
    (hdebit : l₁.runUnder weather call (Account.debit source amount) past₁ = (.finished (.ok b), l₂, past₂))
    (hnone : past₁.changes = []) (hwritten : past₂.changes = past₁.changes ++ [⟨source, -amount.toInt⟩])
    (hpos : 0 < amount.toInt) (hs : l₂.Serves m call past₂) (hp : (Job.transfer source target amount).Pending t past₂)
    (hrun : l₂.runUnder weather call (Account.credit target amount >>= fun
      | .ok _ => settle t
      | .error e => compensate t source amount e) past₂ = (.finished o, l', past')) :
    Confesses source amount o (Stranded weather call l source target amount) := by
  obtain ⟨r, l₃, past₃, hcredit, ⟨hcredited, hp₃⟩, hs₃⟩ := runUnder_rule weather hs (keeps_creditPending hp target hpos)
  rw [runUnder_bind hcredit] at hrun
  cases r with
  | ok b' =>
    have hchanges : past₃.changes = (Job.transfer source target amount).changes := by
      rw [hcredited.ok b' rfl, hwritten, hnone]
      rfl
    obtain ⟨o', l₄, past₄, hsettle, ⟨hkind, -⟩, -⟩ := runUnder_rule weather hs₃ (keeps_settle hp₃ hchanges)
    cases hsettle.symm.trans hrun
    refine .nothing (not_isCompensationFailure_of_settled hkind) ?_
    -- the run is one function of the circumstances, so a stranded run would have met a refused credit
    rintro t' ⟨_, _, _, _, _, _, _, _, _, _, _, hopen', hdebit', -, hcredit', -⟩
    cases hopen.symm.trans hopen'
    cases hdebit.symm.trans hdebit'
    cases hcredit.symm.trans hcredit'
  | error e =>
    obtain ⟨hsev, hsame⟩ := hcredited.error e rfl
    have hchanges : past₃.changes = [⟨source, -amount.toInt⟩] := by
      rw [hsame, hwritten, hnone]
      rfl
    -- the credit was refused, so all depends on whether the source can be credited again
    obtain ⟨result, l₄, past₄, hback, hresult⟩ := compensate_cases hs₃ hp₃ hpos hchanges hsev hrun
    cases result with
    | ok b' =>
      refine .nothing hresult ?_
      rintro t' ⟨_, _, _, _, _, _, _, _, _, _, _, hopen', hdebit', -, hcredit', hback'⟩
      cases hopen.symm.trans hopen'
      cases hdebit.symm.trans hdebit'
      cases hcredit.symm.trans hcredit'
      cases hback.symm.trans hback'
    | error e' =>
      refine ⟨iff_of_true hresult.1 ⟨t, _, _, _, _, _, _, _, _, _, _, _, hopen, hdebit, hwritten, hcredit, hback⟩, ?_⟩
      rintro t' ⟨_, _, _, _, _, _, _, _, _, _, _, hopen', -⟩
      cases hopen.symm.trans hopen'
      exact hresult.2

/-- A transfer alone ends in a compensation failure exactly if it is stranded, and then the error says so. -/
theorem confesses_of_run (hs : l.Serves m call [])
    (hrun : l.runUnder weather call (applyTransfer source target amount) [] = (.finished o, l', past')) :
    Confesses source amount o (Stranded weather call l source target amount) := by
  unfold applyTransfer at hrun
  by_cases hne : source = target
  · subst hne
    rw [if_pos rfl] at hrun
    cases hrun
    exact .nothing (not_isCompensationFailure (by simp [Error.severity])) not_stranded_same
  rw [if_neg hne] at hrun
  obtain ⟨r, l₁, past₁, hopen, ⟨hnone, hr⟩, hs₁⟩ :=
    runUnder_rule weather hs (keeps_openPending (.transfer source target amount))
  change l.runUnder weather call (Records.openRecord (.transfer source target amount)) [] = _ at hopen
  rw [runUnder_bind hopen] at hrun
  cases r with
  | error e =>
    cases hrun
    refine .nothing (not_isCompensationFailure hr.2.2) ?_
    rintro t ⟨_, _, _, _, _, _, _, _, _, _, _, hopen', -⟩
    cases hopen.symm.trans hopen'
  | ok t =>
    have hp := hr.1
    have hpos : 0 < amount.toInt := hr.2
    obtain ⟨r, l₂, past₂, hdebit, ⟨hdebited, hp₂⟩, hs₂⟩ := runUnder_rule weather hs₁ (keeps_debitPending hp source hpos)
    dsimp only at hrun
    rw [runUnder_bind hdebit] at hrun
    cases r with
    | error e =>
      obtain ⟨hsev, hsame⟩ := hdebited.error e rfl
      obtain ⟨o', l₃, past₃, hgive, ⟨hgiven, -⟩, -⟩ :=
        runUnder_rule weather hs₂ (keeps_giveUp hp₂ (told_unchanged hsev (hsame.trans hnone)))
      cases hgive.symm.trans hrun
      refine .nothing ?_ ?_
      · rw [isCompensationFailure_of_giveUp hgiven, Error.isCompensationFailure_iff]
        exact hsev
      · rintro t' ⟨_, _, _, _, _, _, _, _, _, _, _, hopen', hdebit', hwritten, -⟩
        cases hopen.symm.trans hopen'
        cases hdebit.symm.trans hdebit'
        rw [hsame] at hwritten
        simp at hwritten
    | ok b => exact confesses_of_debited hopen hdebit hnone (hdebited.ok b rfl) hpos hs₂ hp₂ hrun

/-- The changes of a transfer by its outcome: the debit that is owed, both legs, or none that remain. -/
theorem changes_of_reported {past : Deeds} {faulty : Bool}
    (h : (Job.transfer source target amount).Reported faulty o past) :
    (IsCompensationFailure o ∧ past.changes = [⟨source, -amount.toInt⟩]) ∨
      (¬IsCompensationFailure o ∧ ((∃ t, o = .ok t) ∨ Unsettled source target amount past) ∧
        past.changes = (Job.transfer source target amount).changes) ∨
      (¬IsCompensationFailure o ∧ (∃ e, o = .error e) ∧ ∀ user, past.net user = 0) := by
  have htold : ∀ (t : Transaction) (e : Error), o = .error (.withRecord t e) →
      (Job.transfer source target amount).Told t e past →
      (IsCompensationFailure o ∧ past.changes = [⟨source, -amount.toInt⟩]) ∨
        (¬IsCompensationFailure o ∧ (∃ e, o = .error e) ∧ ∀ user, past.net user = 0) := by
    rintro t e rfl htold
    by_cases hkind : e.isCompensationFailure = true
    · rw [Job.Told, if_pos hkind] at htold
      obtain ⟨s', t', a', text, hj, -, hchanges⟩ := htold
      cases hj
      exact Or.inl ⟨⟨_, rfl, hkind⟩, hchanges⟩
    · rw [Job.Told, if_neg hkind] at htold
      refine Or.inr ⟨?_, ⟨_, rfl⟩, htold⟩
      rintro ⟨e', he', hkind'⟩
      cases he'
      exact hkind hkind'
  rcases o with ⟨_ | t, e⟩ | t
  · refine Or.inr (Or.inr ⟨not_isCompensationFailure h.2.2, ⟨_, rfl⟩, ?_⟩)
    intro user
    rw [Deeds.net, h.2.1]
    rfl
  · rcases h.2.2 with ⟨-, -, ht⟩ | ⟨-, -, -, s, hrefused, -, ⟨-, ht⟩ | ⟨hcompleted, hkind, hchanges⟩⟩
    · exact (htold t e rfl ht).imp_right Or.inr
    · exact (htold t e rfl ht).imp_right Or.inr
    · refine Or.inr (Or.inl ⟨?_, Or.inr ⟨hchanges, s, hcompleted, hrefused⟩, hchanges⟩)
      rintro ⟨e', he', hkind'⟩
      cases he'
      rw [hkind] at hkind'
      cases hkind'
  · refine Or.inr (Or.inl ⟨?_, Or.inl ⟨t, rfl⟩, h.2.2.2⟩)
    rintro ⟨e, he, -⟩
    cases he

/-- Where the money of a transfer is, by its outcome. -/
structure Accounted (weather : Nat → Circumstance) (call : CallId) (l : Ledger) (source target : UserId)
    (amount : Cents) (o : Outcome) (l' : Ledger) (past : Deeds) : Prop where
  /-- It is a compensation failure exactly if both ways were barred. -/
  failure : IsCompensationFailure o ↔ ∃ t, Stranded weather call l source target amount t
  /-- The error then names the opened record, the source and the amount, also where the record could not be failed. -/
  named : ∀ t, Stranded weather call l source target amount t →
    ∃ s text, o = .error (.withRecord s (.compensationFailed t.id source amount text)) ∧ s.id = t.id ∧
      (s.status = .failed ∨ s.status = .pending ∧ ∃ r, r.status = .failed ∧ Job.WriteRefused past r)
  /-- The source then has less by the amount, and no other account changed. -/
  owed : IsCompensationFailure o → source ≠ target ∧
    (l'.store.memory.amountOf source).toInt = (l.store.memory.amountOf source).toInt - amount.toInt ∧
    ∀ user, user ≠ source → l'.store.memory.amountOf user = l.store.memory.amountOf user
  /-- Otherwise the two accounts have together what they had. -/
  conserved : ¬IsCompensationFailure o →
    (l'.store.memory.amountOf source).toInt + (l'.store.memory.amountOf target).toInt =
      (l.store.memory.amountOf source).toInt + (l.store.memory.amountOf target).toInt
  /-- Any other error leaves all accounts as they were, unless both legs were written and only the status was not. -/
  undone : ∀ e, o = .error e → ¬IsCompensationFailure o → ¬Unsettled source target amount past →
    ∀ user, l'.store.memory.amountOf user = l.store.memory.amountOf user
  /-- In that case the money has moved. -/
  unsettled : Unsettled source target amount past → ∀ user, (l'.store.memory.amountOf user).toInt =
    (l.store.memory.amountOf user).toInt + (Job.transfer source target amount).effect user

/-- A transfer that runs alone over rows that ever came about, whatever requests the store refuses, conserves money or
says that it did not. -/
theorem transfer_conserves_or_tells (hm : m.Reachable) (trail : Trail) (now : Instant) (weather : Nat → Circumstance)
    (call : CallId) (source target : UserId) (amount : Cents) :
    ∃ o l' past, (atRest m trail now).runUnder weather call (applyTransfer source target amount) [] =
        (.finished o, l', past) ∧
      Accounted weather call (atRest m trail now) source target amount o l' past := by
  have hstart := (vacant_atRest hm.sound trail now).serves call
  obtain ⟨o, l', past, hrun, ⟨hreported, -⟩, hs⟩ :=
    runUnder_rule weather hstart (keeps_applyTransfer source target amount)
  obtain ⟨hiff, hnamed⟩ := confesses_of_run hstart hrun
  refine ⟨o, l', past, hrun, hiff, ?_, ?_, ?_, ?_, ?_⟩
  · intro t ht
    obtain ⟨s, text, rfl, hid⟩ := hnamed t ht
    refine ⟨s, text, rfl, hid, ?_⟩
    rcases hreported.2.2 with ⟨hfailed, -⟩ | ⟨hpending, -, -, r, hrefused, -, ⟨hr, -⟩ | ⟨-, hkind, -⟩⟩
    · exact Or.inl hfailed
    · exact Or.inr ⟨hpending, r, hr, hrefused⟩
    · cases hkind
  · intro ho
    -- what was reported fixes the changes, and the rows differ by the changes alone
    rcases changes_of_reported hreported with ⟨-, hchanges⟩ | ⟨hnot, -⟩ | ⟨hnot, -⟩
    · refine ⟨?_, ?_, ?_⟩
      · rintro rfl
        obtain ⟨t, ht⟩ := hiff.1 ho
        exact not_stranded_same t ht
      · rw [hs.amounts source, Deeds.net, hchanges]
        simp only [Change.total, if_true]
        omega
      · intro user hne
        refine amount_same hs ?_
        rw [Deeds.net, hchanges]
        simp [Change.total, hne.symm]
    · exact absurd ho hnot
    · exact absurd ho hnot
  · intro ho
    have hsum : past.net source + past.net target = 0 := by
      rcases changes_of_reported hreported with ⟨h, -⟩ | ⟨-, -, hchanges⟩ | ⟨-, -, hnet⟩
      · exact absurd h ho
      · rw [Deeds.net, Deeds.net, hchanges]
        by_cases hne : source = target
        · simp [Job.changes, Change.total, hne]
        · simp [Job.changes, Change.total, hne, Ne.symm hne]
      · rw [hnet, hnet, Int.add_zero]
    rw [hs.amounts source, hs.amounts target]
    omega
  · rintro e rfl ho hsettled user
    rcases changes_of_reported hreported with ⟨h, -⟩ | ⟨-, ⟨t, ht⟩ | h, -⟩ | ⟨-, -, hnet⟩
    · exact absurd h ho
    · cases ht
    · exact absurd h hsettled
    · exact amount_same hs (hnet user)
  · rintro ⟨hchanges, -⟩ user
    rw [hs.amounts user, Deeds.net, hchanges]
    rfl

/-- The caller was told of a failed compensation. -/
def toldCompensationFailure : Progress Outcome → Bool
  | .finished (.error e) => e.cause.isCompensationFailure
  | _ => false

/-- A transfer of 200 out of 500: its eleventh and fourteenth action are the reads of the two credits, its seventeenth
writes the failed status. All three are refused, and the compensation failure is told nevertheless. -/
theorem transfer_conserves_or_tells_stranded :
    ∃ weather l, weather = (fun i => ⟨.ofSeconds 1, if i ∈ [10, 13, 16] then some "disk full" else none, false⟩) ∧
      l = atRest (Memory.empty.perform (.ofSeconds 0) (.saveBalance ⟨1, 500, .ofSeconds 0⟩)).2 .empty (.ofSeconds 0) ∧
      ∃ o l' past, l.runUnder weather 0 (applyTransfer 1 2 200) [] = (.finished o, l', past) ∧
        Accounted weather 0 l 1 2 200 o l' past ∧ IsCompensationFailure o := by
  refine ⟨_, _, rfl, rfl, ?_⟩
  obtain ⟨o, l', past, hrun, haccounted⟩ := transfer_conserves_or_tells
    (.perform (.ofSeconds 0) (.saveBalance ⟨1, 500, .ofSeconds 0⟩) .empty) .empty (.ofSeconds 0)
    (fun i => ⟨.ofSeconds 1, if i ∈ [10, 13, 16] then some "disk full" else none, false⟩) 0 1 2 200
  refine ⟨o, l', past, hrun, haccounted, ?_⟩
  have howed := congrArg (fun r => toldCompensationFailure r.1) hrun
  cases o with
  | ok t => cases (show true = false from howed)
  | error e => exact ⟨e, rfl, howed.symm⟩

end Transfer

end CentLedger
