import CentLedger.Operation.Transfer
import CentLedger.Proofs.Accounts

/-!
# What recorded operations do

A job keeps the rule `Job.Rule`: it does only what is orderly, changes no balance before it has a record, and goes on
after its record was completed only if it has made its changes. It ends in the way that `Job.Reported` says: the outcome
tells the record as the call last saw it stored, the error of a failed record is the cause that is written there, and
the changes are those of the job, or come to nothing, or are the debit of a transfer that could neither be carried
through nor undone.
-/

namespace CentLedger

/-- The error says that a transfer could neither be carried through nor undone. -/
def Error.isCompensationFailure : Error → Bool
  | compensationFailed _ _ _ _ => true
  | _ => false

theorem Error.isCompensationFailure_iff (e : Error) : e.isCompensationFailure = true ↔ e.severity = .critical := by
  cases e <;> simp [isCompensationFailure, severity]

/-- A record is one that a request opens. -/
structure Transaction.For (t : Transaction) (r : Request) : Prop where
  kind : t.kind = r.kind
  source : t.source = r.source
  target : t.target = r.target
  amount : t.amount = r.amount

namespace Job

/-- The changes of a job that goes through. -/
def changes : Job → List Change
  | credit user amount => [⟨user, amount.toInt⟩]
  | debit user amount => [⟨user, -amount.toInt⟩]
  | transfer source target amount => [⟨source, -amount.toInt⟩, ⟨target, amount.toInt⟩]

/-- What a job that goes through comes to on the account of a user. -/
def effect (j : Job) (user : UserId) : Int :=
  Change.total user j.changes

/-- A call that does a job is on its way: it has changed nothing before its record was opened, and its record is not
completed before the changes were made. -/
def Underway (j : Job) (past : Deeds) : Prop :=
  match past.record with
  | none => past.changes = []
  | some t => t.For j.request ∧
      (t.status = .pending ∧ t.failureCause = none ∨ t.status = .completed ∧ past.changes = j.changes)

/-- The rule that jobs keep. -/
def Rule (j : Job) (past : Deeds) (action : Action) : Prop :=
  past.Orderly action ∧ j.Underway past

/-- A failure of a job left the changes that its error tells: the debit of a transfer that is owed to the source, or
nothing. -/
def Told (j : Job) (t : Transaction) (e : Error) (past : Deeds) : Prop :=
  if e.isCompensationFailure then
    ∃ source target amount text, j = .transfer source target amount ∧
      e = .compensationFailed t.id source amount text ∧ past.changes = [⟨source, -amount.toInt⟩]
  else ∀ user, past.net user = 0

/-- The last deed is that the store refused to replace a record. -/
def WriteRefused (past : Deeds) (s : Transaction) : Prop :=
  ∃ text, past.head? = some (.refused (.updateTransaction s) (.storageUnavailable text))

/-- A call that does a job has a pending record and holds no lock. -/
structure Pending (j : Job) (t : Transaction) (past : Deeds) : Prop where
  record : past.record = some t
  request : t.For j.request
  status : t.status = .pending
  cause : t.failureCause = none
  held : past.held = []

/-- How a job ends. -/
def Reported (j : Job) (faulty : Bool) : Transfer.Outcome → Deeds → Prop
  | .ok t, past => past.record = some t ∧ t.For j.request ∧ t.status = .completed ∧ past.changes = j.changes
  | .error ⟨none, e⟩, past => past.record = none ∧ past.changes = [] ∧ e.severity ≠ .critical
  | .error ⟨some t, e⟩, past => past.record = some t ∧ t.For j.request ∧
      (t.status = .failed ∧ t.failureCause = some e.message ∧ j.Told t e past ∨
        t.status = .pending ∧ t.failureCause = none ∧ faulty = true ∧ ∃ s, WriteRefused past s ∧ s.id = t.id ∧
          (s.status = .failed ∧ j.Told t e past ∨
            s.status = .completed ∧ e.isCompensationFailure = false ∧ past.changes = j.changes))

end Job

/-! ## Opening a record -/

namespace Records

open Program Deeds

variable {j : Job} {faulty : Bool} {past : Deeds}

/-- What came of opening a record. -/
structure Opened (past : Deeds) (r : Request) (result : Except Error Transaction) (past' : Deeds) : Prop where
  held : past'.held = past.held
  changes : past'.changes = past.changes
  ok : ∀ t, result = .ok t → past'.record = some t ∧ t.For r ∧ t.status = .pending ∧ t.failureCause = none ∧
    r.validate = .ok ()
  error : ∀ e, result = .error e → past'.record = past.record ∧ e.severity ≠ .critical

/-- What is wrong with a request is not critical. -/
theorem severity_of_invalid {r : Request} {e : Error} (h : r.validate = .error e) : e.severity ≠ .critical := by
  unfold Request.validate checkShape at h
  split at h
  · cases h
    simp [Error.severity]
  · split at h <;> (try split at h) <;> cases h <;> simp [Error.severity]

/-- A record is opened for a valid request, unless the store refuses. -/
theorem keeps_openRecord (r : Request) {rule : Deeds → Action → Prop} (hrecord : past.record = none)
    (hrule : ∀ past' action, past'.record = none → past'.changes = past.changes → past'.Orderly action →
      rule past' action) :
    (openRecord r).Keeps rule faulty (Opened past r) past := by
  unfold openRecord
  cases hvalid : r.validate with
  | error e =>
    refine ⟨rfl, rfl, by rintro t ⟨⟩, ?_⟩
    rintro e' ⟨⟩
    exact ⟨rfl, severity_of_invalid hvalid⟩
  | ok _ =>
    refine keeps_clock.2 ⟨hrule past _ hrecord rfl trivial, ?_⟩
    intro now
    have hchanges : Deeds.changes (.looked now :: past) = past.changes := changes_quiet rfl
    refine ⟨hrule (.looked now :: past) _ hrecord hchanges hrecord, ?_⟩
    intro reply hreply
    cases reply with
    | error e =>
      obtain ⟨-, text, rfl⟩ := hreply
      refine ⟨rfl, (changes_quiet rfl).trans hchanges, by rintro t ⟨⟩, ?_⟩
      rintro e' ⟨⟩
      exact ⟨rfl, by simp [Error.severity]⟩
    | ok t =>
      have ht : t = { Transaction.ofRequest r now with id := t.id } := hreply
      refine ⟨rfl, (changes_quiet rfl).trans hchanges, ?_, by rintro e ⟨⟩⟩
      rintro s ⟨⟩
      rw [ht]
      exact ⟨rfl, ⟨rfl, rfl, rfl, rfl⟩, rfl, rfl, hvalid⟩

/-! ## Closing a record -/

/-- A pending record is closed, unless the store refuses; then it is still the old one. -/
theorem keeps_close {t : Transaction} {move : Instant → Except Error Transaction} {moved : Transaction → Prop}
    (hmove : ∀ now, ∃ next, move now = .ok next ∧ next.id = t.id ∧ moved next) (hrecord : past.record = some t)
    (hpending : t.status = .pending) {rule : Deeds → Action → Prop}
    (hrule : ∀ past' action, past'.record = some t → past'.changes = past.changes → past'.held = past.held →
      past'.Orderly action → rule past' action) :
    (close move).Keeps rule faulty (fun result past' => past'.changes = past.changes ∧ past'.held = past.held ∧
      match result with
      | .ok next => moved next ∧ past'.record = some next
      | .error e => past'.record = some t ∧ faulty = true ∧ e.severity ≠ .critical ∧
          ∃ next, moved next ∧ next.id = t.id ∧ Job.WriteRefused past' next) past := by
  unfold close
  refine keeps_clock.2 ⟨hrule past _ hrecord rfl rfl trivial, ?_⟩
  intro now
  obtain ⟨next, hnext, hid, hmoved⟩ := hmove now
  have hchanges : Deeds.changes (.looked now :: past) = past.changes := changes_quiet rfl
  simp only [hnext]
  refine keeps_ask.2 ⟨hrule (.looked now :: past) _ hrecord hchanges rfl ⟨t, hrecord, hid.symm, hpending⟩, ?_⟩
  intro reply hreply
  cases reply with
  | error e =>
    obtain ⟨hfaulty, text, rfl⟩ := hreply
    exact ⟨(changes_quiet rfl).trans hchanges, rfl, hrecord, hfaulty, by simp [Error.severity], next, hmoved, hid, text,
      rfl⟩
  | ok _ => exact ⟨(changes_quiet rfl).trans hchanges, rfl, hmoved, rfl⟩

end Records

/-! ## Settling and giving up -/

namespace Transfer

open Program Deeds

variable {j : Job} {faulty : Bool} {past : Deeds} {t : Transaction}

/-- A call with a pending record keeps the rule of its job with whatever is orderly. -/
theorem rule_of_pending (hp : j.Pending t past) {past' : Deeds} {action : Action} (hrecord : past'.record = past.record)
    (horder : past'.Orderly action) : j.Rule past' action := by
  refine ⟨horder, ?_⟩
  simp only [Job.Underway, hrecord.trans hp.record]
  exact ⟨hp.request, Or.inl ⟨hp.status, hp.cause⟩⟩

/-- A job whose changes were made is settled: its record is completed, or still pending because the store refused. -/
theorem keeps_settle (hp : j.Pending t past) (hchanges : past.changes = j.changes) :
    (settle t).Keeps j.Rule faulty (fun o past' => (∀ e, o = .error e → e.cause.isCompensationFailure = false) ∧
      j.Reported faulty o past' ∧ past'.held = []) past := by
  have hmove : ∀ now, ∃ next, t.complete now = .ok next ∧ next.id = t.id ∧ next.For j.request ∧
      next.status = .completed := by
    intro now
    have hfor := hp.request
    refine ⟨{ t with status := .completed, updatedAt := now }, ?_, rfl,
      ⟨hfor.kind, hfor.source, hfor.target, hfor.amount⟩, rfl⟩
    simp [Transaction.complete, Transaction.moveTo, hp.status, Status.canMoveTo]
  unfold settle
  refine (Records.keeps_close hmove hp.record hp.status fun past' action hr _ _ ho =>
    rule_of_pending hp (hr.trans hp.record.symm) ho).bind ?_
  rintro result past' ⟨hsame, hheld, hresult⟩
  cases result with
  | error e =>
    obtain ⟨hr, hfaulty, hsev, next, ⟨-, hcompleted⟩, hid, hrefused⟩ := hresult
    have hkind : e.isCompensationFailure = false := by
      rw [← Bool.not_eq_true, Error.isCompensationFailure_iff]
      exact hsev
    refine ⟨?_, ⟨hr, hp.request, Or.inr ⟨hp.status, hp.cause, hfaulty, next, hrefused, hid,
      Or.inr ⟨hcompleted, hkind, ?_⟩⟩⟩, hheld.trans hp.held⟩
    · rintro e' ⟨⟩
      exact hkind
    · exact hsame.trans hchanges
  | ok next =>
    obtain ⟨⟨hfor, hcompleted⟩, hr⟩ := hresult
    have hrule : j.Rule past' (.audit (.transaction next)) := by
      refine ⟨trivial, ?_⟩
      simp only [Job.Underway, hr]
      exact ⟨hfor, Or.inr ⟨hcompleted, hsame.trans hchanges⟩⟩
    refine ⟨hrule, ?_⟩
    intro reply _
    have hidle : (Deed.of (.audit (.transaction next)) reply).Idle := by cases reply <;> trivial
    refine ⟨fun _ h => (nomatch h), ⟨(record_idle hidle past').trans hr, hfor, hcompleted, ?_⟩,
      (held_idle hidle past').trans (hheld.trans hp.held)⟩
    exact (changes_quiet (changeOf_idle hidle past')).trans (hsame.trans hchanges)

/-- A job that failed is given up: its record is failed and keeps the cause, or it is still pending because the store
refused. A critical cause is told in either case. -/
theorem keeps_giveUp (hp : j.Pending t past) {cause : Error} (htold : j.Told t cause past) :
    (giveUp t cause).Keeps j.Rule faulty (fun o past' => (∃ s e, o = .error (.withRecord s e) ∧ s.id = t.id ∧
      (e = cause ∨ e.isCompensationFailure = false ∧ cause.isCompensationFailure = false)) ∧
      past'.changes = past.changes ∧ j.Reported faulty o past' ∧ past'.held = []) past := by
  have hmove : ∀ now, ∃ next, t.fail cause.message now = .ok next ∧ next.id = t.id ∧ (next.id = t.id ∧
      next.For j.request) ∧ next.status = .failed ∧ next.failureCause = some cause.message := by
    intro now
    have hfor := hp.request
    refine ⟨{ t with status := .failed, updatedAt := now, failureCause := some cause.message }, ?_, rfl,
      ⟨rfl, hfor.kind, hfor.source, hfor.target, hfor.amount⟩, rfl, rfl⟩
    simp [Transaction.fail, Transaction.moveTo, hp.status, Status.canMoveTo, Except.map]
  unfold giveUp
  refine (Records.keeps_close hmove hp.record hp.status fun past' action hr _ _ ho =>
    rule_of_pending hp (hr.trans hp.record.symm) ho).bind ?_
  rintro result past' ⟨hsame, hheld, hresult⟩
  -- what is told of the changes does not depend on the status of the record
  have hstill : ∀ s e, s.id = t.id →
      (e = cause ∨ e.isCompensationFailure = false ∧ cause.isCompensationFailure = false) → j.Told s e past' := by
    intro s e hid he
    have hnet : past'.net = past.net := by
      funext user
      simp only [Deeds.net, hsame]
    rcases he with rfl | ⟨he, hc⟩
    · simpa only [Job.Told, hid, hsame, hnet] using htold
    · simpa only [Job.Told, he, hc, hnet, Bool.false_eq_true, if_false] using htold
  cases result with
  | ok next =>
    obtain ⟨⟨⟨hid, hfor⟩, hfailed, htext⟩, hr⟩ := hresult
    exact ⟨⟨next, cause, rfl, hid, Or.inl rfl⟩, hsame,
      ⟨hr, hfor, Or.inl ⟨hfailed, htext, hstill next cause hid (Or.inl rfl)⟩⟩, hheld.trans hp.held⟩
  | error e =>
    obtain ⟨hr, hfaulty, hsev, next, ⟨-, hfailed, -⟩, hid, hrefused⟩ := hresult
    have hkind : unrecorded cause e = cause ∨
        (unrecorded cause e).isCompensationFailure = false ∧ cause.isCompensationFailure = false := by
      by_cases hc : cause.severity = .critical
      · exact Or.inl (if_pos hc)
      · right
        rw [unrecorded, if_neg hc]
        refine ⟨rfl, ?_⟩
        rw [← Bool.not_eq_true, Error.isCompensationFailure_iff]
        exact hc
    exact ⟨⟨t, _, rfl, rfl, hkind⟩, hsame, ⟨hr, hp.request, Or.inr ⟨hp.status, hp.cause, hfaulty, next, hrefused, hid,
      Or.inl ⟨hfailed, hstill t _ rfl hkind⟩⟩⟩, hheld.trans hp.held⟩

/-! ## Jobs -/

/-- A call with a pending record changes a balance. -/
theorem keeps_changePending (hp : j.Pending t past) (user : UserId) (movement : Movement) (cents : Cents)
    {apply : Balance → Instant → Except Error Balance} {fits : Int → Prop} {delta : Int}
    (hadjusts : Balance.Adjusts apply fits delta) :
    (Account.change user movement cents apply).Keeps j.Rule faulty
      (fun r past' => Changed past user delta r past' ∧ j.Pending t past') past := by
  have horder : ∀ other ∈ past.held, other < user := by
    rw [hp.held]
    intro other h
    cases h
  refine (Account.keeps_change movement cents hadjusts horder ?_ ?_).mono ?_
  · intro past' action hamid ho _
    exact rule_of_pending hp hamid.record ho
  · intro _ past' hamid hheld _
    exact rule_of_pending hp hamid.record (by simp [Orderly, hheld])
  · intro r past' hc
    exact ⟨hc, hc.record.trans hp.record, hp.request, hp.status, hp.cause, hc.held.trans hp.held⟩

theorem keeps_creditPending (hp : j.Pending t past) (user : UserId) {amount : Cents} (hpos : 0 < amount.toInt) :
    (Account.credit user amount).Keeps j.Rule faulty
      (fun r past' => Changed past user amount.toInt r past' ∧ j.Pending t past') past := by
  unfold Account.credit
  rw [if_neg ((not_cents_le_zero_iff amount).2 hpos)]
  exact keeps_changePending hp user .credit amount (Balance.adjusts_credit amount hpos)

theorem keeps_debitPending (hp : j.Pending t past) (user : UserId) {amount : Cents} (hpos : 0 < amount.toInt) :
    (Account.debit user amount).Keeps j.Rule faulty
      (fun r past' => Changed past user (-amount.toInt) r past' ∧ j.Pending t past') past := by
  unfold Account.debit
  rw [if_neg ((not_cents_le_zero_iff amount).2 hpos)]
  exact keeps_changePending hp user .debit (-amount) (Balance.adjusts_debit amount hpos)

/-- A request that is valid asks for a positive amount. -/
theorem pos_of_valid {r : Request} (h : r.validate = .ok ()) : 0 < r.amount.toInt := by
  rw [← not_cents_le_zero_iff]
  intro hle
  simp [Request.validate, checkShape, hle] at h

/-- A failure whose changes come to nothing leaves nothing to tell. -/
theorem told_nothing {e : Error} (he : e.severity ≠ .critical) (hnet : ∀ user, past.net user = 0) :
    j.Told t e past := by
  have hc : ¬e.isCompensationFailure = true := by
    rw [Error.isCompensationFailure_iff]
    exact he
  rw [Job.Told, if_neg hc]
  exact hnet

theorem told_unchanged {e : Error} (he : e.severity ≠ .critical) (hchanges : past.changes = []) : j.Told t e past := by
  refine told_nothing he ?_
  intro user
  rw [Deeds.net, hchanges]
  rfl

theorem told_undone {e : Error} (he : e.severity ≠ .critical) {user : UserId} {amount : Int}
    (hchanges : past.changes = [⟨user, -amount⟩, ⟨user, amount⟩]) : j.Told t e past := by
  refine told_nothing he ?_
  intro u
  rw [Deeds.net, hchanges]
  by_cases hu : user = u
  · simp [Change.total, hu]
  · simp [Change.total, hu]

/-- The error of a transfer that could not be undone tells what is owed to the source. -/
theorem told_owed {source target : UserId} {amount : Cents} {cause restore : Error}
    (hchanges : past.changes = [⟨source, -amount.toInt⟩]) :
    (Job.transfer source target amount).Told t (compensationFailure t source amount cause restore) past := by
  have hkind : (compensationFailure t source amount cause restore).isCompensationFailure = true := rfl
  rw [Job.Told, if_pos hkind]
  exact ⟨source, target, amount, _, rfl, rfl, hchanges⟩

/-- A transfer whose target could not be credited is undone, or the error says that it could not be. -/
theorem keeps_compensate {source target : UserId} {amount : Cents}
    (hp : (Job.transfer source target amount).Pending t past) (hpos : 0 < amount.toInt)
    (hchanges : past.changes = [⟨source, -amount.toInt⟩]) {cause : Error} (hcause : cause.severity ≠ .critical) :
    (compensate t source amount cause).Keeps (Job.transfer source target amount).Rule faulty (fun o past' =>
      (Job.transfer source target amount).Reported faulty o past' ∧ past'.held = []) past := by
  unfold compensate
  refine (keeps_creditPending hp source hpos).bind ?_
  rintro r past' ⟨hc, hp'⟩
  cases r with
  | ok b =>
    have hundone : past'.changes = [⟨source, -amount.toInt⟩, ⟨source, amount.toInt⟩] := by
      rw [hc.ok b rfl, hchanges]
      rfl
    exact (keeps_giveUp hp' (told_undone hcause hundone)).mono fun o past' h => h.2.2
  | error e =>
    exact (keeps_giveUp hp' (told_owed ((hc.error e rfl).2.trans hchanges))).mono fun o past' h => h.2.2

/-- A call keeps the rule of its job as long as it has done nothing about records and balances. -/
theorem rule_of_unopened {past' : Deeds} {action : Action} (hrecord : past'.record = none)
    (hchanges : past'.changes = []) (horder : past'.Orderly action) : j.Rule past' action := by
  refine ⟨horder, ?_⟩
  simp only [Job.Underway, hrecord]
  exact hchanges

/-- The record of a job is opened. -/
theorem keeps_openPending (j : Job) :
    (Records.openRecord j.request).Keeps j.Rule faulty (fun r past' => past'.changes = [] ∧
      match r with
      | .ok t => j.Pending t past' ∧ 0 < j.amount.toInt
      | .error e => past'.record = none ∧ past'.held = [] ∧ e.severity ≠ .critical) [] := by
  have hrule : ∀ (past' : Deeds) action, past'.record = none → past'.changes = Deeds.changes [] →
      past'.Orderly action → j.Rule past' action := fun _ _ hr hc ho => rule_of_unopened hr hc ho
  refine (Records.keeps_openRecord j.request rfl hrule).mono ?_
  intro r past' ho
  refine ⟨ho.changes, ?_⟩
  cases r with
  | error e => exact ⟨(ho.error e rfl).1, ho.held, (ho.error e rfl).2⟩
  | ok t =>
    obtain ⟨hrecord, hfor, hpending, hcause, hvalid⟩ := ho.ok t rfl
    have hamount : j.request.amount = j.amount := by cases j <;> rfl
    exact ⟨⟨hrecord, hfor, hpending, hcause, ho.held⟩, hamount ▸ pos_of_valid hvalid⟩

/-- A job with one change keeps its rule and reports what it did. -/
theorem keeps_single {α : Type} {change : Program (Except Error α)} {c : Change} (hj : j.changes = [c])
    (hchange : ∀ t past, j.Pending t past → 0 < j.amount.toInt → change.Keeps j.Rule faulty (fun r past' =>
      j.Pending t past' ∧ (∀ a, r = .ok a → past'.changes = past.changes ++ [c]) ∧
        ∀ e, r = .error e → e.severity ≠ .critical ∧ past'.changes = past.changes) past) :
    (do
      match ← Records.openRecord j.request with
      | .error e => return .error (.rejected e)
      | .ok t => finish t (← change) : Program Outcome).Keeps j.Rule faulty
        (fun o past' => j.Reported faulty o past' ∧ past'.held = []) [] := by
  refine (keeps_openPending j).bind ?_
  rintro r past ⟨hnone, hr⟩
  cases r with
  | error e => exact ⟨⟨hr.1, hnone, hr.2.2⟩, hr.2.1⟩
  | ok t =>
    refine (hchange t past hr.1 hr.2).bind ?_
    rintro r' past' ⟨hp, hok, herror⟩
    cases r' with
    | ok a =>
      refine (keeps_settle hp ?_).mono fun o past' h => h.2
      rw [hok a rfl, hnone, hj, List.nil_append]
    | error e =>
      obtain ⟨hsev, hsame⟩ := herror e rfl
      exact (keeps_giveUp hp (told_unchanged hsev (hsame.trans hnone))).mono fun o past' h => h.2.2

/-- A transfer keeps its rule and reports what it did. -/
theorem keeps_applyTransfer (source target : UserId) (amount : Cents) :
    (applyTransfer source target amount).Keeps (Job.transfer source target amount).Rule faulty (fun o past' =>
      (Job.transfer source target amount).Reported faulty o past' ∧ past'.held = []) [] := by
  unfold applyTransfer
  by_cases hne : source = target
  · rw [if_pos hne]
    exact ⟨⟨rfl, rfl, by simp [Error.severity]⟩, rfl⟩
  rw [if_neg hne]
  refine (keeps_openPending (Job.transfer source target amount)).bind ?_
  rintro r past ⟨hnone, hr⟩
  cases r with
  | error e => exact ⟨⟨hr.1, hnone, hr.2.2⟩, hr.2.1⟩
  | ok t =>
    obtain ⟨hp, hpos⟩ := hr
    refine (keeps_debitPending hp source hpos).bind ?_
    rintro r past' ⟨hc, hp'⟩
    cases r with
    | error e =>
      obtain ⟨hsev, hsame⟩ := hc.error e rfl
      exact (keeps_giveUp hp' (told_unchanged hsev (hsame.trans hnone))).mono fun o past' h => h.2.2
    | ok b =>
      have hdebited : past'.changes = [⟨source, -amount.toInt⟩] := by
        rw [hc.ok b rfl, hnone]
        rfl
      refine (keeps_creditPending hp' target hpos).bind ?_
      rintro r past'' ⟨hc', hp''⟩
      cases r with
      | ok b' =>
        refine (keeps_settle hp'' ?_).mono fun o past' h => h.2
        rw [hc'.ok b' rfl, hdebited]
        rfl
      | error e => exact keeps_compensate hp'' hpos ((hc'.error e rfl).2.trans hdebited) (hc'.error e rfl).1

/-- Every job keeps its rule, reports what it did, and holds no lock at its end. -/
theorem keeps_execute (j : Job) (faulty : Bool) :
    (execute j).Keeps j.Rule faulty (fun o past' => j.Reported faulty o past' ∧ past'.held = []) [] := by
  cases j with
  | credit user amount =>
    refine keeps_single (c := ⟨user, amount.toInt⟩) rfl ?_
    intro t past hp hpos
    exact (keeps_creditPending hp user hpos).mono fun r past' h => ⟨h.2, h.1.ok, h.1.error⟩
  | debit user amount =>
    refine keeps_single (c := ⟨user, -amount.toInt⟩) rfl ?_
    intro t past hp hpos
    exact (keeps_debitPending hp user hpos).mono fun r past' h => ⟨h.2, h.1.ok, h.1.error⟩
  | transfer source target amount => exact keeps_applyTransfer source target amount

end Transfer

end CentLedger
