import CentLedger.Proofs.BalanceTrail
import CentLedger.Proofs.Seasons

/-!
# Traces that nobody waits for

An operation leaves traces: snapshots in the history, and records for the audit. It does not ask what came of them, so
programs are `Blind`: the reply to a trace does not decide how they go on. Through two seasons that differ only in the
traces that are refused, a blind program does the same actions with the same replies, and it comes to the same end
(`Alike.runThrough`). What is left is the history itself, which shows the snapshots that it has.

The main statement is `traces_unheard`: balances, records and results do not depend on which traces were refused, save
for the snapshots that a look at the history lists.
-/

namespace CentLedger

/-- The action leaves a trace: a snapshot, or a record for the audit. -/
def Action.Traces : Action → Prop
  | .store (.appendHistory _) => True
  | .audit _ => True
  | _ => False

/-- The action shows the traces that were left in the history. -/
def Action.Looks : Action → Prop
  | .store (.history _ _ _) => True
  | _ => False

/-- Two replies tell the same, save for the snapshots that they list. -/
def Action.Agree : (action : Action) → action.Reply → action.Reply → Prop
  | .store (.history _ _ _), reply, reply' => (reply.map fun _ => ()) = reply'.map fun _ => ()
  | _, reply, reply' => reply = reply'

/-- An action that does not look at traces has one reply only for all who agree. -/
theorem Action.Agree.eq {action : Action} {reply reply' : action.Reply} (h : action.Agree reply reply')
    (hlook : ¬action.Looks) : reply = reply' := by
  cases action with
  | store request =>
    cases request with
    | history user asOf limit => exact absurd trivial hlook
    | _ => exact h
  | _ => exact h

/-- Two seasons that differ at most in the traces that are refused. -/
structure Season.Alike (w w' : Season) : Prop where
  clock : w.clock = w'.clock
  refusal : ∀ n request, ¬(Action.store request).Traces → w.refusal n request = w'.refusal n request

/-- The season in which every trace is refused, and all else is the same. -/
def Season.untraced (w : Season) (text : String) : Season where
  clock := w.clock
  refusal
    | _, .appendHistory _ => some text
    | n, request => w.refusal n request
  mute _ := true

/-- A season and the one in which every trace is refused differ in the traces only. -/
theorem Season.alike_untraced (w : Season) (text : String) : w.Alike (w.untraced text) := by
  refine ⟨rfl, fun n request htrace => ?_⟩
  cases request with
  | appendHistory s => exact absurd trivial htrace
  | _ => rfl

/-! ## Ledgers that differ in their traces -/

/-- Two stores that differ at most in their histories. -/
structure Memory.Alike (m m' : Memory) : Prop where
  balances : m.balances = m'.balances
  transactions : m.transactions = m'.transactions

/-- Two stores that differ in their histories answer alike, save for what they show of these. -/
theorem Memory.Alike.perform {m m' : Memory} (h : m.Alike m') (now : Instant) {request : StoreRequest}
    (htrace : ¬(Action.store request).Traces) :
    (m.perform now request).2.Alike (m'.perform now request).2 ∧
      (Action.store request).Agree (m.perform now request).1 (m'.perform now request).1 := by
  obtain ⟨balances, history, transactions⟩ := m
  obtain ⟨balances', history', transactions'⟩ := m'
  obtain ⟨rfl, rfl⟩ : balances = balances' ∧ transactions = transactions' := ⟨h.balances, h.transactions⟩
  cases request with
  | balance user =>
    simp only [Memory.perform, Memory.balance?]
    split
    · exact ⟨⟨rfl, rfl⟩, rfl⟩
    · exact ⟨⟨rfl, rfl⟩, rfl⟩
  | saveBalance b =>
    simp only [Memory.perform]
    split
    · exact ⟨⟨rfl, rfl⟩, rfl⟩
    · exact ⟨⟨rfl, rfl⟩, rfl⟩
  | appendHistory s => exact absurd trivial htrace
  | history user asOf limit => exact ⟨⟨rfl, rfl⟩, rfl⟩
  | insertTransaction t => exact ⟨⟨rfl, rfl⟩, rfl⟩
  | updateTransaction t =>
    simp only [Memory.perform, Memory.transaction?]
    split
    · exact ⟨⟨rfl, rfl⟩, rfl⟩
    · split
      · exact ⟨⟨rfl, rfl⟩, rfl⟩
      · exact ⟨⟨rfl, rfl⟩, rfl⟩
  | transaction id => exact ⟨⟨rfl, rfl⟩, rfl⟩
  | latest limit => exact ⟨⟨rfl, rfl⟩, rfl⟩

namespace Ledger

/-- Two ledgers that differ at most in their traces. -/
structure Alike (l l' : Ledger) : Prop where
  working : l.Working
  working' : l'.Working
  locks : l.locks = l'.locks
  rows : l.store.memory.Alike l'.store.memory

variable {l l' k : Ledger} {call : CallId} {w w' : Season} {n : Nat}

/-- A trace gets a reply, whatever becomes of it, and changes neither locks nor rows. -/
theorem actUnder_trace (hw : l.Working) {action : Action} (htrace : action.Traces) (c : Circumstance) (call : CallId) :
    ∃ reply k, l.actUnder c call false action = (.reply reply, k) ∧ k.Working ∧ k.locks = l.locks ∧
      k.store.memory.Alike l.store.memory := by
  cases action with
  | audit record => exact ⟨_, _, actUnder_audit record, ⟨hw.faultless, hw.gate⟩, rfl, rfl, rfl⟩
  | store request =>
    cases request with
    | appendHistory s =>
      cases hc : c.outage with
      | none => exact ⟨_, _, actUnder_store hw hc _, ⟨rfl, hw.gate⟩, rfl, rfl, rfl⟩
      | some text => exact ⟨_, _, actUnder_refused hc _, hw.under c, rfl, rfl, rfl⟩
    | _ => exact htrace.elim
  | _ => exact htrace.elim

/-- Ledgers that differ in their traces do so after a further one. -/
theorem Alike.trace (h : Alike l l') {action : Action} (htrace : action.Traces) {c : Circumstance}
    {reply : action.Reply} (hact : l.actUnder c call false action = (.reply reply, k)) (c' : Circumstance) :
    ∃ reply' k', l'.actUnder c' call false action = (.reply reply', k') ∧ Alike k k' := by
  obtain ⟨_, _, hact₁, hworking, hlocks, hrows⟩ := actUnder_trace h.working htrace c call
  obtain rfl := (Prod.mk.inj (hact₁.symm.trans hact)).2
  obtain ⟨reply', k', hact', hworking', hlocks', hrows'⟩ := actUnder_trace h.working' htrace c' call
  exact ⟨reply', k', hact', hworking, hworking', hlocks.trans (h.locks.trans hlocks'.symm),
    hrows.balances.trans (h.rows.balances.trans hrows'.balances.symm),
    hrows.transactions.trans (h.rows.transactions.trans hrows'.transactions.symm)⟩

/-- Another request gets replies that agree from ledgers that differ in their traces, or is refused by both. -/
theorem Alike.ask (h : Alike l l') (hw : w.Alike w') {request : StoreRequest} (htrace : ¬(Action.store request).Traces)
    {reply : (Action.store request).Reply}
    (hact : l.actUnder (w.circumstance n (.store request)) call false (.store request) = (.reply reply, k)) :
    ∃ reply' k', l'.actUnder (w'.circumstance n (.store request)) call false (.store request) = (.reply reply', k') ∧
      Alike k k' ∧ (Action.store request).Agree reply reply' := by
  cases hc : w.refusal n request with
  | some text =>
    have hout : (w.circumstance n (.store request)).outage = some text := hc
    have hout' : (w'.circumstance n (.store request)).outage = some text :=
      (hw.refusal n request htrace).symm.trans hc
    rw [actUnder_refused hout, Prod.mk.injEq, Attempt.reply.injEq] at hact
    obtain ⟨rfl, rfl⟩ := hact
    refine ⟨_, _, actUnder_refused hout' request, ⟨h.working.under _, h.working'.under _, h.locks, h.rows⟩, ?_⟩
    cases request <;> rfl
  | none =>
    have hout' : (w'.circumstance n (.store request)).outage = none := (hw.refusal n request htrace).symm.trans hc
    rw [actUnder_store h.working hc, Prod.mk.injEq, Attempt.reply.injEq] at hact
    obtain ⟨rfl, rfl⟩ := hact
    obtain ⟨hrows, hanswer⟩ := h.rows.perform (w.clock n) htrace
    have hnow : w.clock n = w'.clock n := congrFun hw.clock n
    refine ⟨_, _, actUnder_store h.working' hout' request,
      ⟨⟨rfl, h.working.gate⟩, ⟨rfl, h.working'.gate⟩, h.locks, ?_⟩, ?_⟩
    · show (l.store.memory.perform (w.clock n) request).2.Alike (l'.store.memory.perform (w'.clock n) request).2
      rwa [← hnow]
    · show (Action.store request).Agree (l.store.memory.perform (w.clock n) request).1
        (l'.store.memory.perform (w'.clock n) request).1
      rwa [← hnow]

/-- Any other action gets replies that agree from ledgers that differ in their traces. -/
theorem Alike.act (h : Alike l l') (hw : w.Alike w') {action : Action} (htrace : ¬action.Traces)
    {reply : action.Reply} (hact : l.actUnder (w.circumstance n action) call false action = (.reply reply, k)) :
    ∃ reply' k', l'.actUnder (w'.circumstance n action) call false action = (.reply reply', k') ∧ Alike k k' ∧
      action.Agree reply reply' := by
  cases action with
  | lock user =>
    have hact' : l'.actUnder (w'.circumstance n (.lock user)) call false (.lock user) =
        (.reply reply, { l'.under (w'.circumstance n (.lock user)) with
          locks := (l'.locks.acquire user call).2 }) := by
      rw [actUnder_lock] at hact ⊢
      rw [← h.locks, (Prod.mk.inj hact).1]
    rw [actUnder_lock] at hact
    obtain rfl := (Prod.mk.inj hact).2
    exact ⟨reply, _, hact', ⟨⟨h.working.faultless, h.working.gate⟩, ⟨h.working'.faultless, h.working'.gate⟩,
      congrArg (fun locks => (locks.acquire user call).2) h.locks, h.rows⟩, rfl⟩
  | unlock user =>
    rw [actUnder_unlock] at hact
    obtain rfl := (Prod.mk.inj hact).2
    exact ⟨reply, _, actUnder_unlock user, ⟨⟨h.working.faultless, h.working.gate⟩,
      ⟨h.working'.faultless, h.working'.gate⟩, congrArg (fun locks => (locks.release user).2) h.locks, h.rows⟩,
      rfl⟩
  | clock =>
    rw [actUnder_clock, Prod.mk.injEq, Attempt.reply.injEq] at hact
    obtain ⟨rfl, rfl⟩ := hact
    exact ⟨_, _, actUnder_clock, ⟨h.working.under _, h.working'.under _, h.locks, h.rows⟩, congrFun hw.clock n⟩
  | audit record => exact absurd trivial htrace
  | store request => exact h.ask hw htrace hact

end Ledger

/-! ## Blind programs -/

/-- A program that neither looks at traces nor asks what became of those that it leaves. -/
def Program.Blind {α : Type} : Program α → Prop
  | .done _ => True
  | .act action next =>
    ¬action.Looks ∧ (action.Traces → ∀ reply reply', next reply = next reply') ∧ ∀ reply, (next reply).Blind

namespace Ledger

variable {α : Type} {l l' k : Ledger} {call : CallId} {w w' : Season} {since : Nat} {past past' q : Deeds}

/-- Through seasons that differ in the traces that are refused, a blind program comes to the same end, after as many
actions. -/
theorem Alike.runThrough {p : Program α} {a : α} (h : Alike l l') (hw : w.Alike w') (hp : p.Blind)
    (hlen : past.length = past'.length) (hrun : l.runThrough w since call p past = (.finished a, k, q)) :
    ∃ k' q', l'.runThrough w' since call p past' = (.finished a, k', q') ∧ q.length = q'.length ∧ Alike k k' := by
  induction p generalizing l l' past past' with
  | done b =>
    simp only [Ledger.runThrough, Prod.mk.injEq, Progress.finished.injEq] at hrun ⊢
    obtain ⟨rfl, rfl, rfl⟩ := hrun
    exact ⟨_, _, ⟨rfl, rfl, rfl⟩, hlen, h⟩
  | act action next ih =>
    obtain ⟨hlook, hblind, hnext⟩ := hp
    simp only [Ledger.runThrough, ← hlen] at hrun ⊢
    cases hact : l.actUnder (w.circumstance (since + past.length) action) call false action with
    | mk attempt l₁ =>
      rw [hact] at hrun
      cases attempt with
      | wait => cases hrun
      | crash => cases hrun
      | reply reply =>
        replace hrun : l₁.runThrough w since call (next reply) (.of action reply :: past) = (.finished a, k, q) := hrun
        have hsame : ∀ reply', (Deed.of action reply :: past).length = (Deed.of action reply' :: past').length :=
          fun _ => congrArg Nat.succ hlen
        by_cases htrace : action.Traces
        · obtain ⟨reply', l₁', hact', hrest⟩ :=
            h.trace htrace hact (w'.circumstance (since + past.length) action)
          rw [hblind htrace reply reply'] at hrun
          rw [hact']
          exact ih reply' hrest (hnext reply') (hsame reply') hrun
        · obtain ⟨reply', l₁', hact', hrest, hreply⟩ := h.act hw htrace hact
          obtain rfl := hreply.eq hlook
          rw [hact']
          exact ih reply hrest (hnext reply) (hsame reply) hrun

end Ledger

namespace Program

variable {α β : Type}

/-- A blind program goes on with blind ones. -/
theorem Blind.bind {p : Program α} {k : α → Program β} (hp : p.Blind) (hk : ∀ a, (k a).Blind) : (p >>= k).Blind := by
  show (p.bind k).Blind
  induction p with
  | done a => exact hk a
  | act action next ih =>
    obtain ⟨hlook, hblind, hnext⟩ := hp
    exact ⟨hlook, fun htrace reply reply' => congrArg (·.bind k) (hblind htrace reply reply'),
      fun reply => ih reply (hnext reply)⟩

/-- A blind program that may fail, and what is done in either case. -/
theorem Blind.bindExcept {p : Program (Except Error α)} {k : Except Error α → Program β} (hp : p.Blind)
    (herror : ∀ e, (k (.error e)).Blind) (hok : ∀ a, (k (.ok a)).Blind) : (p >>= k).Blind := by
  refine hp.bind ?_
  intro result
  cases result with
  | error e => exact herror e
  | ok a => exact hok a

/-- What is made of the result of a blind program is blind too. -/
theorem Blind.map {p : Program α} (hp : p.Blind) (f : α → β) : (p.map f).Blind :=
  Blind.bind (k := fun a => done (f a)) hp fun _ => trivial

theorem blind_lock (user : UserId) : (lock user).Blind :=
  ⟨not_false, False.elim, fun _ => trivial⟩

theorem blind_unlock (user : UserId) : (unlock user).Blind :=
  ⟨not_false, False.elim, fun _ => trivial⟩

/-- The clock shows no traces. -/
theorem blind_clock : clock.Blind :=
  ⟨not_false, False.elim, fun _ => trivial⟩

/-- A program that only asks the store is blind unless it asks about the history. -/
theorem blind_ask (request : StoreRequest) (hlook : ¬(Action.store request).Looks)
    (htrace : ¬(Action.store request).Traces) : (ask request).Blind :=
  ⟨hlook, fun h => absurd h htrace, fun _ => trivial⟩

/-- A record for the audit is left, and nobody asks what became of it. -/
theorem blind_note (record : AuditRecord) : (note record).Blind :=
  ⟨not_false, fun _ _ _ => rfl, fun _ => trivial⟩

end Program

/-! ### Operations on accounts -/

namespace Account

open Program

/-- A trace is left behind whether or not it is refused. -/
theorem blind_trace (b : Balance) (movement : Movement) (delta : Cents) : (trace b movement delta).Blind :=
  ⟨not_false, fun _ _ _ => rfl, fun _ => blind_note _⟩

/-- A change of an account is blind up to its trace. -/
theorem blind_adjust (user : UserId) (apply : Balance → Instant → Except Error Balance) :
    (adjust user apply).Blind := by
  unfold adjust
  refine (blind_ask (.balance user) not_false not_false).bindExcept (fun _ => trivial) ?_
  intro before
  refine blind_clock.bind ?_
  intro now
  cases apply before now with
  | error e => trivial
  | ok after => exact (blind_ask (.saveBalance after) not_false not_false).bindExcept (fun _ => trivial) fun _ => trivial

/-- A change of an account and its trace are blind. -/
theorem blind_change (user : UserId) (movement : Movement) (delta : Cents)
    (apply : Balance → Instant → Except Error Balance) : (change user movement delta apply).Blind := by
  unfold change
  refine (blind_lock user).bind fun _ => (blind_adjust user apply).bindExcept ?_ ?_
  · exact fun _ => (blind_unlock user).bind fun _ => trivial
  · exact fun b => (blind_trace b movement delta).bind fun _ => (blind_unlock user).bind fun _ => trivial

theorem blind_credit (user : UserId) (amount : Cents) : (credit user amount).Blind := by
  unfold credit
  split
  · trivial
  · exact blind_change _ _ _ _

theorem blind_debit (user : UserId) (amount : Cents) : (debit user amount).Blind := by
  unfold debit
  split
  · trivial
  · exact blind_change _ _ _ _

/-- The two rows of a transfer are written blindly; the restoring of the first depends on the second only. -/
theorem blind_writeBoth (before source target : Balance) : (writeBoth before source target).Blind := by
  unfold writeBoth
  refine (blind_ask (.saveBalance source) not_false not_false).bindExcept (fun _ => trivial) fun _ => ?_
  refine (blind_ask (.saveBalance target) not_false not_false).bindExcept ?_ fun _ => trivial
  intro e
  exact (blind_ask (.saveBalance before) not_false not_false).bindExcept (fun _ => trivial) fun _ => trivial

/-- A transfer between two accounts is blind once both locks are held. -/
theorem blind_move (source target : UserId) (amount : Cents) : (move source target amount).Blind := by
  unfold move
  refine (blind_ask (.balance source) not_false not_false).bindExcept (fun _ => trivial) ?_
  intro before
  refine (blind_ask (.balance target) not_false not_false).bindExcept (fun _ => trivial) ?_
  intro other
  refine blind_clock.bind ?_
  intro now
  cases before.debit amount now with
  | error e => trivial
  | ok less =>
    refine blind_clock.bind ?_
    intro now
    cases other.credit amount now with
    | error e => trivial
    | ok more => exact (blind_writeBoth before less more).bindExcept (fun _ => trivial) fun _ => trivial

/-- A direct transfer is blind. -/
theorem blind_transfer (source target : UserId) (amount : Cents) : (transfer source target amount).Blind := by
  unfold transfer
  split
  · trivial
  split
  · trivial
  refine (blind_lock _).bind fun _ => (blind_lock _).bind fun _ => (blind_move source target amount).bindExcept ?_ ?_
  · exact fun _ => (blind_unlock _).bind fun _ => (blind_unlock _).bind fun _ => trivial
  · intro bs
    refine (blind_trace bs.1 .debit (-amount)).bind fun _ => (blind_trace bs.2 .credit amount).bind fun _ => ?_
    exact (blind_unlock _).bind fun _ => (blind_unlock _).bind fun _ => trivial

/-- Every operation on the ledger is blind. -/
theorem Op.blind_program (op : Op) : op.program.Blind := by
  cases op with
  | balance user => exact (blind_ask (.balance user) not_false not_false).map _
  | credit user amount => exact (blind_credit user amount).map _
  | debit user amount => exact (blind_debit user amount).map _
  | transfer source target amount => exact (blind_transfer source target amount).map _

end Account

/-! ### Recorded operations -/

namespace Records

open Program

/-- The opening of a record is blind. -/
theorem blind_openRecord (r : Request) : (openRecord r).Blind := by
  unfold openRecord
  cases r.validate with
  | error e => trivial
  | ok _ => exact blind_clock.bind fun now => blind_ask (.insertTransaction (.ofRequest r now)) not_false not_false

/-- The closing of a record is blind. -/
theorem blind_close (move : Instant → Except Error Transaction) : (close move).Blind := by
  unfold close
  refine blind_clock.bind ?_
  intro now
  cases move now with
  | error e => trivial
  | ok next =>
    exact (blind_ask (.updateTransaction next) not_false not_false).bindExcept (fun _ => trivial) fun _ => trivial

end Records

namespace Transfer

open Program

theorem blind_settle (t : Transaction) : (settle t).Blind := by
  unfold settle
  exact (Records.blind_close _).bindExcept (fun _ => trivial) fun _ => (blind_note _).bind fun _ => trivial

theorem blind_giveUp (t : Transaction) (cause : Error) : (giveUp t cause).Blind := by
  unfold giveUp
  exact (Records.blind_close _).bindExcept (fun _ => trivial) fun _ => trivial

/-- The end of a recorded operation is blind, whether it completes the record or fails it. -/
theorem blind_finish {α : Type} (t : Transaction) (result : Except Error α) : (finish t result).Blind := by
  cases result with
  | ok a => exact blind_settle t
  | error e => exact blind_giveUp t e

/-- The way back from a transfer that got stuck half-way is blind. -/
theorem blind_compensate (t : Transaction) (source : UserId) (amount : Cents) (cause : Error) :
    (compensate t source amount cause).Blind := by
  unfold compensate
  exact (Account.blind_credit source amount).bindExcept (fun _ => blind_giveUp t _) fun _ => blind_giveUp t cause

/-- A recorded transfer is blind. -/
theorem blind_applyTransfer (source target : UserId) (amount : Cents) :
    (applyTransfer source target amount).Blind := by
  unfold applyTransfer
  split
  · trivial
  refine (Records.blind_openRecord _).bindExcept (fun _ => trivial) ?_
  intro t
  refine (Account.blind_debit source amount).bindExcept (fun e => blind_giveUp t e) fun _ => ?_
  exact (Account.blind_credit target amount).bindExcept (fun e => blind_compensate t source amount e)
    fun _ => blind_settle t

/-- The execution of a job is blind. -/
theorem blind_execute (j : Job) : (execute j).Blind := by
  cases j with
  | credit user amount =>
    refine (Records.blind_openRecord _).bindExcept (fun _ => trivial) ?_
    intro t
    exact (Account.blind_credit user amount).bind fun result => blind_finish t result
  | debit user amount =>
    refine (Records.blind_openRecord _).bindExcept (fun _ => trivial) ?_
    intro t
    exact (Account.blind_debit user amount).bind fun result => blind_finish t result
  | transfer source target amount => exact blind_applyTransfer source target amount

end Transfer

/-- Every errand is blind. -/
theorem Errand.blind_program (e : Errand) : e.program.Blind := by
  cases e with
  | op o => exact o.blind_program.map _
  | job j => exact (Transfer.blind_execute j).map _

/-! ## Calls one after another -/

/-- What a visit gives back, without the snapshots that a look at the history lists. -/
def Visit.told : Visit.Result → Errand.Result ⊕ Except Error Unit
  | .inl result => .inl result
  | .inr answer => .inr (answer.map fun _ => ())

namespace Ledger

/-- Run visits through a season, one after another; the first action has the number `since`. A visit has a result if it
comes to its end. -/
def visitThrough (w : Season) : (since : Nat) → List Visit → Ledger → List (Option Visit.Result) × Ledger
  | _, [], l => ([], l)
  | since, v :: rest, l =>
    let (r, l, past) := l.runThrough w since 0 v.program []
    let (rs, l) := visitThrough w (since + past.length) rest l
    (r.result? :: rs, l)

variable {l l' : Ledger} {w w' : Season}

/-- A visit comes to its end through either season, with results that tell the same. -/
theorem Alike.visit (h : Alike l l') (hw : w.Alike w') (hlent : l.Lent 0 []) (v : Visit) (since : Nat) :
    ∃ r r' k k' q q', l.runThrough w since 0 v.program [] = (.finished r, k, q) ∧
      l'.runThrough w' since 0 v.program [] = (.finished r', k', q') ∧ Visit.told r = Visit.told r' ∧
      q.length = q'.length ∧ Alike k k' ∧ k.Lent 0 [] := by
  cases v with
  | errand e =>
    obtain ⟨r, k, q, hrun, hleft⟩ := hlent.runThrough (e.ascends_program.map Sum.inl) w since []
    obtain ⟨k', q', hrun', hlen, hk⟩ := h.runThrough hw (e.blind_program.map Sum.inl) rfl hrun
    exact ⟨r, r, k, k', q, q', hrun, hrun', rfl, hlen, hk, hleft⟩
  | look user asOf limit =>
    have hasc : (Action.store (.history user asOf limit)).Ascends [] := trivial
    have htrace : ¬(Action.store (.history user asOf limit)).Traces := not_false
    obtain ⟨reply, k, hact, hleft⟩ := hlent.act hasc (w.circumstance since (.store (.history user asOf limit)))
    obtain ⟨reply', k', hact', hk, hagree⟩ := h.act hw htrace hact
    refine ⟨.inr reply, .inr reply', k, k', [.of (.store (.history user asOf limit)) reply],
      [.of (.store (.history user asOf limit)) reply'], ?_, ?_, congrArg Sum.inr hagree, rfl, hk, hleft⟩
    · simp only [Visit.program, Account.history, Program.ask, Program.map, Program.bind, Ledger.runThrough,
        List.length_nil, Nat.add_zero, hact]
    · simp only [Visit.program, Account.history, Program.ask, Program.map, Program.bind, Ledger.runThrough,
        List.length_nil, Nat.add_zero, hact']

/-- Visits one after another come to their ends through either season, with results that tell the same. -/
theorem Alike.visitThrough (h : Alike l l') (hw : w.Alike w') (hlent : l.Lent 0 []) (visits : List Visit)
    (since : Nat) :
    ∃ results results' : List Visit.Result, (l.visitThrough w since visits).1 = results.map some ∧
      (l'.visitThrough w' since visits).1 = results'.map some ∧ results.length = visits.length ∧
      results.map Visit.told = results'.map Visit.told ∧
      Alike (l.visitThrough w since visits).2 (l'.visitThrough w' since visits).2 := by
  induction visits generalizing l l' since with
  | nil => exact ⟨[], [], rfl, rfl, rfl, rfl, h⟩
  | cons v visits ih =>
    obtain ⟨r, r', k, k', q, q', hrun, hrun', htold, hlen, hk, hleft⟩ := h.visit hw hlent v since
    obtain ⟨results, results', hresults, hresults', hcount, hsame, halike⟩ := ih hk hleft (since + q.length)
    simp only [Ledger.visitThrough, hrun, hrun', ← hlen]
    refine ⟨r :: results, r' :: results', ?_, ?_, congrArg Nat.succ hcount, ?_, halike⟩
    · rw [hresults]
      rfl
    · rw [hresults']
      rfl
    · rw [List.map_cons, List.map_cons, htold, hsame]

/-- Which traces are refused makes no difference to results, balances and records, whatever requests the store refuses,
save for the snapshots that looks at the history list. -/
theorem traces_unheard (hw : w.Alike w') (m : Memory) (trail : Trail) (now : Instant) (visits : List Visit) :
    ∃ results results' : List Visit.Result,
      ((atRest m trail now).visitThrough w 0 visits).1 = results.map some ∧
      ((atRest m trail now).visitThrough w' 0 visits).1 = results'.map some ∧
      results.length = visits.length ∧ results.map Visit.told = results'.map Visit.told ∧
      ((atRest m trail now).visitThrough w 0 visits).2.store.memory.Alike
        ((atRest m trail now).visitThrough w' 0 visits).2.store.memory := by
  have hworking := working_atRest m trail now
  have hself : Alike (atRest m trail now) (atRest m trail now) := ⟨hworking, hworking, rfl, rfl, rfl⟩
  obtain ⟨results, results', hresults, hresults', hcount, hsame, halike⟩ :=
    hself.visitThrough hw (lent_atRest m trail now 0) visits 0
  exact ⟨results, results', hresults, hresults', hcount, hsame, halike.rows⟩

/-- Some calls through a season in which the account of user 8 cannot be written, with all traces refused or none: the
transfer is undone, and the looks at the history differ. -/
theorem traces_unheard_compensated :
    ∃ w w' : Season, w.Alike w' ∧
      let visits : List Visit :=
        [.errand (.op (.credit 7 100)), .errand (.job (.transfer 7 8 30)), .look 7 none 10, .errand (.op (.balance 7))]
      let l := atRest .empty .empty (.ofSeconds 0)
      (l.visitThrough w 0 visits).2.store.memory.transactions.map (·.status) = [.failed] ∧
        (l.visitThrough w 0 visits).2.store.memory.history.length = 3 ∧
        (l.visitThrough w' 0 visits).2.store.memory.history = [] ∧
        ∃ results results' : List Visit.Result,
          (l.visitThrough w 0 visits).1 = results.map some ∧ (l.visitThrough w' 0 visits).1 = results'.map some ∧
          results.length = visits.length ∧ results.map Visit.told = results'.map Visit.told ∧
          (l.visitThrough w 0 visits).2.store.memory.Alike (l.visitThrough w' 0 visits).2.store.memory :=
  let w : Season := {
    clock := fun n => .ofSeconds n
    refusal := fun _ request => if request.written? = some 8 then some "disk full" else none
    mute := fun _ => false }
  ⟨w, w.untraced "disk full", w.alike_untraced _, by decide +kernel, by decide +kernel, by decide +kernel,
    traces_unheard (w.alike_untraced _) .empty .empty (.ofSeconds 0) _⟩

/-- A look at the history lists the snapshots that were not refused. -/
theorem history_heard :
    ∃ w w' : Season, w.Alike w' ∧
      let visits : List Visit := [.errand (.op (.credit 7 100)), .look 7 none 10]
      let l := atRest .empty .empty (.ofSeconds 0)
      (l.visitThrough w 0 visits).1 =
          [some (.inl (.inl (.ok [⟨7, 100, .ofSeconds 0⟩]))), some (.inr (.ok [⟨1, 7, 100, .ofSeconds 0⟩]))] ∧
        (l.visitThrough w' 0 visits).1 =
          [some (.inl (.inl (.ok [⟨7, 100, .ofSeconds 0⟩]))), some (.inr (.ok []))] :=
  let w : Season := { clock := fun _ => .ofSeconds 0, refusal := fun _ _ => none, mute := fun _ => false }
  ⟨w, w.untraced "disk full", w.alike_untraced _, rfl, rfl⟩

end Ledger

end CentLedger
