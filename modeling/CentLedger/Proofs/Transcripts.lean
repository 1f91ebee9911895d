import CentLedger.Operation.Transfer
import CentLedger.Proofs.Amounts
import CentLedger.Proofs.Circumstances
import CentLedger.Sql.Store

/-!
# Transcripts

What is said when the ledger talks to a server: each statement with the reply to it. `Dialogue.Says` and `Program.Says`
say of all replies at once what the transcript and the value are like, and of a program also at all times and with any
audit. The words of a balance that is read (`ReadWord`) and changed (`ChangeWord`) are the transcripts that the
operations on accounts are made of, whatever the server replies (`says_credit`, `says_debit`).
-/

namespace CentLedger

namespace Sql

/-- A statement and the reply to it. -/
abbrev Exchange := Statement × ServerReply

/-- Users travel as the words that have their bits. -/
theorem ofWord_inj {u v : UserId} : ofWord u = ofWord v ↔ u = v := by
  refine ⟨fun h => ?_, congrArg ofWord⟩
  simpa [ofWord] using congrArg Int64.toUInt64 h

/-! ## Replies -/

namespace ServerReply

/-- The statement was executed. -/
def Executed (r : ServerReply) : Prop :=
  ∃ n rows, r = executed n rows

/-- The first row of a reply holds a balance that is there, is no null and is not negative. -/
def Holds (r : ServerReply) (amount : Cents) : Prop :=
  ∃ n row rows t, r = executed n (row :: rows) ∧ row.cell? "amount_cents" = some (.int amount) ∧
    row.cell? "last_updated" = some (.time t) ∧ 0 ≤ amount.toInt

/-- The first column of the first row of a reply gives an identifier. -/
def Gives (r : ServerReply) (id : Int64) : Prop :=
  ∃ n name row rows, r = executed n (((name, .int id) :: row) :: rows)

/-- A statement that was executed tells how many rows it changed; any other gives an error. -/
theorem affected?_cases (r : ServerReply) :
    (∃ n rows, r = executed n rows ∧ r.affected? = .ok n) ∨ ¬r.Executed ∧ ∃ e, r.affected? = .error e := by
  cases r with
  | executed n rows => exact Or.inl ⟨n, rows, rfl, rfl⟩
  | failed text =>
    refine Or.inr ⟨?_, _, rfl⟩
    rintro ⟨n, rows, ⟨⟩⟩
  | closed =>
    refine Or.inr ⟨?_, _, rfl⟩
    rintro ⟨n, rows, ⟨⟩⟩

/-- A reply has a first row, or it is an error to ask for one. -/
theorem row?_cases (r : ServerReply) :
    (∃ n row rows, r = executed n (row :: rows) ∧ r.row? = .ok row) ∨
      (∀ n row rows, r ≠ executed n (row :: rows)) ∧ ∃ e, r.row? = .error e := by
  cases r with
  | executed n rows =>
    cases rows with
    | nil =>
      refine Or.inr ⟨?_, _, rfl⟩
      rintro n row rows ⟨⟩
    | cons row rows => exact Or.inl ⟨n, row, rows, rfl, rfl⟩
  | failed text =>
    refine Or.inr ⟨?_, _, rfl⟩
    rintro n row rows ⟨⟩
  | closed =>
    refine Or.inr ⟨?_, _, rfl⟩
    rintro n row rows ⟨⟩

/-- The identifier that a reply gives, or an error if it gives none. -/
theorem newId?_cases (r : ServerReply) :
    (∃ id, r.Gives id ∧ r.newId? = .ok id) ∨ (∀ id, ¬r.Gives id) ∧ ∃ e, r.newId? = .error e := by
  unfold newId?
  rcases r.row?_cases with ⟨n, row, rows, rfl, hrow⟩ | ⟨hnone, e, hrow⟩
  · rw [hrow]
    rcases row with _ | ⟨⟨name, c⟩, row⟩
    · exact Or.inr ⟨nofun, _, rfl⟩
    · cases c with
      | int id => exact Or.inl ⟨id, ⟨n, name, row, rows, rfl⟩, rfl⟩
      | _ => exact Or.inr ⟨nofun, _, rfl⟩
  · rw [hrow]
    refine Or.inr ⟨?_, _, rfl⟩
    rintro id ⟨n, name, row, rows, h⟩
    exact hnone n _ rows h

end ServerReply

/-! ## What is said -/

namespace Dialogue

variable {α β : Type}

/-- What is said when a dialogue is held against a list of replies; when they are used up, the server answers that it
found nothing and changed nothing. -/
def transcript (d : Dialogue α) (replies : List ServerReply) : List Exchange :=
  (d.run replies).1.mapIdx fun i s => (s, replies[i]?.getD .nothing)

/-- Whatever the server replies, transcript and value are like this. -/
def Says : (List Exchange → α → Prop) → Dialogue α → Prop
  | P, done a => P [] a
  | P, send s next => ∀ reply, (next reply).Says fun w a => P ((s, reply) :: w) a

/-- What a dialogue says may be told less precisely. -/
theorem Says.mono {P Q : List Exchange → α → Prop} {d : Dialogue α} (h : d.Says P) (hPQ : ∀ w a, P w a → Q w a) :
    d.Says Q := by
  induction d generalizing P Q with
  | done a => exact hPQ _ a h
  | send s next ih => exact fun reply => ih reply (h reply) fun w a => hPQ _ a

/-- What one dialogue says after another. -/
theorem Says.bind {P : List Exchange → α → Prop} {Q : List Exchange → β → Prop} {d : Dialogue α} {k : α → Dialogue β}
    (hd : d.Says P) (hk : ∀ w a, P w a → (k a).Says fun w' b => Q (w ++ w') b) : (d.bind k).Says Q := by
  induction d generalizing P Q with
  | done a => exact hk [] a hd
  | send s next ih => exact fun reply => ih reply (hd reply) fun w a hw => hk _ a hw

/-- What holds whatever the server replies holds of the transcript with any list of replies. -/
theorem Says.transcript {P : List Exchange → α → Prop} {d : Dialogue α} (h : d.Says P) (replies : List ServerReply) :
    P (d.transcript replies) (d.run replies).2 := by
  induction d generalizing P replies with
  | done a => exact h
  | send s next ih =>
    cases replies with
    | nil =>
      have := ih .nothing (h .nothing) []
      simpa [Dialogue.transcript, run, List.mapIdx_cons] using this
    | cons reply replies =>
      have := ih reply (h reply) replies
      simpa [Dialogue.transcript, run, List.mapIdx_cons] using this

end Dialogue

/-- The dialogue that a program makes when it runs alone, at the times and with the audit of some circumstances; they
are numbered by the actions of the program. -/
def converseUnder {α : Type} (weather : Nat → Circumstance) : Nat → Program α → Dialogue α
  | _, .done a => .done a
  | n, .act (.lock _) next => converseUnder weather (n + 1) (next ())
  | n, .act (.unlock _) next => converseUnder weather (n + 1) (next ())
  | n, .act .clock next => converseUnder weather (n + 1) (next (weather n).now)
  | n, .act (.store request) next => (perform request).bind fun answer => converseUnder weather (n + 1) (next answer)
  | n, .act (.audit _) next =>
    converseUnder weather (n + 1) (next (if (weather n).mute then .error Trail.refusal else .ok ()))

/-- Under circumstances that never change, a program makes the dialogue of `converse`. -/
theorem converseUnder_steady {α : Type} (now : Instant) (outage : Option String) (n : Nat) (p : Program α) :
    converseUnder (fun _ => ⟨now, outage, false⟩) n p = converse now p := by
  induction p generalizing n with
  | done a => rfl
  | act action next ih =>
    cases action with
    | lock user => exact ih _ _
    | unlock user => exact ih _ _
    | clock => exact ih _ _
    | store request =>
      have hnext : (fun answer => converseUnder (fun _ => ⟨now, outage, false⟩) (n + 1) (next answer)) =
          fun answer => converse now (next answer) := funext fun answer => ih answer _
      exact congrArg (perform request).bind hnext
    | audit record => exact ih _ _

end Sql

open Sql

namespace Program

variable {α β : Type} {P : List Exchange → α → Prop} {Q : List Exchange → β → Prop}

/-- Whatever the server replies, at whatever times and with whatever audit, what a program says over a database and
what it ends with are like this. -/
def Says : (List Exchange → α → Prop) → Program α → Prop
  | P, done a => P [] a
  | P, act (.store request) next => (perform request).Says fun w answer => (next answer).Says fun w' a => P (w ++ w') a
  | P, act (.lock _) next => (next ()).Says P
  | P, act (.unlock _) next => (next ()).Says P
  | P, act .clock next => ∀ now, (next now).Says P
  | P, act (.audit _) next => ∀ reply, (next reply).Says P

/-- What a program says may be told less precisely. -/
theorem Says.mono {P' : List Exchange → α → Prop} {p : Program α} (h : p.Says P) (hP : ∀ w a, P w a → P' w a) :
    p.Says P' := by
  induction p generalizing P P' with
  | done a => exact hP _ a h
  | act action next ih =>
    cases action with
    | lock user => exact ih _ h hP
    | unlock user => exact ih _ h hP
    | clock => exact fun now => ih now (h now) hP
    | store request => exact Dialogue.Says.mono h fun w answer hw => ih answer hw fun w' a => hP _ a
    | audit record => exact fun reply => ih reply (h reply) hP

/-- What one program says after another. -/
theorem Says.bind {p : Program α} {k : α → Program β} (hp : p.Says P)
    (hk : ∀ w a, P w a → (k a).Says fun w' b => Q (w ++ w') b) : (p >>= k).Says Q := by
  show (p.bind k).Says Q
  induction p generalizing P Q with
  | done a => exact hk [] a hp
  | act action next ih =>
    cases action with
    | lock user => exact ih _ hp hk
    | unlock user => exact ih _ hp hk
    | clock => exact fun now => ih now (hp now) hk
    | store request =>
      refine Dialogue.Says.mono hp fun w answer hw => ih answer hw fun w' a hw' => ?_
      exact (hk _ a hw').mono fun w'' b => by rw [List.append_assoc]; exact id
    | audit record => exact fun reply => ih reply (hp reply) hk

/-- What is made of the result of a program says nothing. -/
theorem Says.map {Q : List Exchange → β → Prop} {p : Program α} {f : α → β} (h : p.Says fun w a => Q w (f a)) :
    (p.map f).Says Q := by
  refine Says.bind (k := fun a => done (f a)) h fun w a hw => ?_
  show Q (w ++ []) (f a)
  rwa [List.append_nil]

/-- Locks, the clock and the audit say nothing. -/
theorem says_lock {user : UserId} {k : Unit → Program β} (h : (k ()).Says Q) : (lock user >>= k).Says Q :=
  h

/-- To give a lock back says nothing. -/
theorem says_unlock {user : UserId} {k : Unit → Program β} (h : (k ()).Says Q) : (unlock user >>= k).Says Q :=
  h

/-- To look at the clock says nothing. -/
theorem says_clock {k : Instant → Program β} (h : ∀ now, (k now).Says Q) : (clock >>= k).Says Q :=
  h

/-- To tell the audit says nothing. -/
theorem says_note {record : AuditRecord} {k : Unit → Program β} (h : (k ()).Says Q) : (note record >>= k).Says Q :=
  fun _ => h

/-- Programs that ask the store say what the request says. -/
theorem says_ask {request : StoreRequest} {P : List Exchange → Except Error request.Answer → Prop}
    (h : (perform request).Says P) : (ask request).Says P := by
  refine Dialogue.Says.mono h fun w answer hw => ?_
  show P (w ++ []) answer
  rwa [List.append_nil]

/-- What a program says whatever happens, its dialogue says under all circumstances. -/
theorem Says.converseUnder {p : Program α} (h : p.Says P) (weather : Nat → Circumstance) (n : Nat) :
    (Sql.converseUnder weather n p).Says P := by
  induction p generalizing P n with
  | done a => exact h
  | act action next ih =>
    cases action with
    | lock user => exact ih _ h _
    | unlock user => exact ih _ h _
    | clock => exact ih _ (h _) _
    | store request => exact Dialogue.Says.bind h fun w answer hw => ih answer hw _
    | audit record => exact ih _ (h _) _

end Program

/-! ## Balances -/

/-- What is said to read the balance of a user, and the amount that was read. -/
inductive ReadWord (user : UserId) : List Exchange → Option Cents → Prop
  /-- The server could not make sure that there is a row. -/
  | unmade {r} (failed : ¬r.Executed) : ReadWord user [(.insertZeroBalance (ofWord user), r)] none
  /-- The row is not there, or holds no balance. -/
  | unread {r r'} (made : r.Executed) (bad : ∀ a, ¬r'.Holds a) :
      ReadWord user [(.insertZeroBalance (ofWord user), r), (.selectBalance (ofWord user), r')] none
  | read {r r' a} (made : r.Executed) (holds : r'.Holds a) :
      ReadWord user [(.insertZeroBalance (ofWord user), r), (.selectBalance (ofWord user), r')] (some a)

/-- What is said to change the balance of a user by a number, if the amount that is read fits, and whether the row was
written. -/
inductive ChangeWord (user : UserId) (fits : Int → Prop) (delta : Int) : List Exchange → Bool → Prop
  | unread {w} (read : ReadWord user w none) : ChangeWord user fits delta w false
  | refused {w a} (read : ReadWord user w (some a)) (unfit : ¬fits a.toInt) : ChangeWord user fits delta w false
  | unwritten {w a b now r} (read : ReadWord user w (some a)) (fit : fits a.toInt) (sum : b.toInt = a.toInt + delta)
      (nonneg : 0 ≤ b.toInt) (failed : ¬r.Executed) :
      ChangeWord user fits delta (w ++ [(.upsertBalance (ofWord user) b now, r)]) false
  /-- The row is written; whether the snapshot is does not matter. -/
  | written {w a b now r r'} (read : ReadWord user w (some a)) (fit : fits a.toInt) (sum : b.toInt = a.toInt + delta)
      (nonneg : 0 ≤ b.toInt) (done : r.Executed) :
      ChangeWord user fits delta
        (w ++ [(.upsertBalance (ofWord user) b now, r), (.insertSnapshot (ofWord user) b now, r')]) true

/-- What is said to add to the account of a user: the sum must fit. -/
abbrev CreditWord (user : UserId) (amount : Cents) : List Exchange → Bool → Prop :=
  ChangeWord user (fun held => held + amount.toInt ≤ maxCents) amount.toInt

/-- What is said to take from the account of a user: the balance must cover the amount. -/
abbrev DebitWord (user : UserId) (amount : Cents) : List Exchange → Bool → Prop :=
  ChangeWord user (fun held => amount.toInt ≤ held) (-amount.toInt)

namespace Sql

/-- A column is there and read as a value, or it is an error to read it. -/
theorem Row.get_cases {α : Type} (value? : Cell → Option α) (row : Row) (name : String) :
    (∃ c a, row.cell? name = some c ∧ value? c = some a ∧ row.get value? name = .ok a) ∨
      (∀ c, row.cell? name = some c → value? c = none) ∧ ∃ e, row.get value? name = .error e := by
  unfold get Cell.read
  cases hcell : row.cell? name with
  | none => exact Or.inr ⟨nofun, _, rfl⟩
  | some c =>
    cases hvalue : value? c with
    | none =>
      refine Or.inr ⟨?_, ?_⟩
      · rintro _ ⟨⟩
        exact hvalue
      · simp only [hvalue]
        exact ⟨_, rfl⟩
    | some a => exact Or.inl ⟨c, a, rfl, hvalue, by simp only [hvalue]⟩

/-- A column holds a whole number, or it is an error to read one. -/
theorem Row.int_cases (row : Row) (name : String) :
    (∃ i, row.cell? name = some (.int i) ∧ row.int name = .ok i) ∨
      (∀ i, row.cell? name ≠ some (.int i)) ∧ ∃ e, row.int name = .error e := by
  rcases row.get_cases Cell.asInt? name with ⟨c, i, hcell, hvalue, hread⟩ | ⟨hnone, herror⟩
  · cases c with
    | int j =>
      obtain rfl : j = i := Option.some.inj hvalue
      exact Or.inl ⟨j, hcell, hread⟩
    | _ => cases hvalue
  · exact Or.inr ⟨fun i hi => (nomatch hnone _ hi), herror⟩

/-- A column holds a time, or it is an error to read one. -/
theorem Row.time_cases (row : Row) (name : String) :
    (∃ t, row.cell? name = some (.time t) ∧ row.time name = .ok t.toMicros) ∨
      (∀ t, row.cell? name ≠ some (.time t)) ∧ ∃ e, row.time name = .error e := by
  rcases row.get_cases Cell.asTime? name with ⟨c, t, hcell, hvalue, hread⟩ | ⟨hnone, herror⟩
  · cases c with
    | time s =>
      obtain rfl : s.toMicros = t := Option.some.inj hvalue
      exact Or.inl ⟨s, hcell, hread⟩
    | _ => cases hvalue
  · exact Or.inr ⟨fun t ht => (nomatch hnone _ ht), herror⟩

/-- A row holds a balance, which is read as it is, or it is an error to read one. -/
theorem Row.toBalance_cases (row : Row) (user : UserId) :
    (∃ b t, row.toBalance user = .ok b ∧ b.user = user ∧ row.cell? "amount_cents" = some (.int b.amount) ∧
        row.cell? "last_updated" = some (.time t) ∧ 0 ≤ b.amount.toInt) ∨
      (∀ a t, row.cell? "amount_cents" = some (.int a) → row.cell? "last_updated" = some (.time t) → a.toInt < 0) ∧
        ∃ e, row.toBalance user = .error e := by
  unfold Row.toBalance
  rcases row.int_cases "amount_cents" with ⟨a, ha, hint⟩ | ⟨hnone, e, hint⟩
  · rcases row.time_cases "last_updated" with ⟨t, ht, htime⟩ | ⟨hnone, e, htime⟩
    · rw [hint, htime]
      show (∃ b t', Balance.restore user a t.toMicros = .ok b ∧ _) ∨
        _ ∧ ∃ e, Balance.restore user a t.toMicros = .error e
      unfold Balance.restore
      by_cases hneg : a < 0
      · rw [if_pos hneg]
        refine Or.inr ⟨?_, _, rfl⟩
        intro a' t' ha' _
        rw [ha, Option.some.injEq, Cell.int.injEq] at ha'
        subst ha'
        exact (cents_lt_zero_iff a).1 hneg
      · rw [if_neg hneg]
        exact Or.inl ⟨_, t, rfl, rfl, ha, ht, not_lt.1 fun h => hneg ((cents_lt_zero_iff a).2 h)⟩
    · rw [hint, htime]
      exact Or.inr ⟨fun _ t _ ht => absurd ht (hnone t), _, rfl⟩
  · rw [hint]
    exact Or.inr ⟨fun a _ ha _ => absurd ha (hnone a), _, rfl⟩

/-- The first row of a reply holds a balance, which is read as it is, or it is an error to read one. -/
theorem ServerReply.balance_cases (r : ServerReply) (user : UserId) :
    (∃ b, (do (← r.row?).toBalance user) = .ok b ∧ b.user = user ∧ r.Holds b.amount) ∨
      (∀ a, ¬r.Holds a) ∧ ∃ e, (do (← r.row?).toBalance user) = .error e := by
  rcases r.row?_cases with ⟨n, row, rows, rfl, hrow⟩ | ⟨hnone, e, hrow⟩
  · rw [hrow]
    rcases row.toBalance_cases user with ⟨b, t, hb, huser, hamount, htime, hpos⟩ | ⟨hneg, e, he⟩
    · exact Or.inl ⟨b, hb, huser, n, row, rows, t, rfl, hamount, htime, hpos⟩
    · refine Or.inr ⟨?_, e, he⟩
      rintro a ⟨n', row', rows', t, ⟨⟩, hamount, htime, hpos⟩
      exact absurd hpos (not_le.2 (hneg a t hamount htime))
  · rw [hrow]
    refine Or.inr ⟨?_, _, rfl⟩
    rintro a ⟨n, row, rows, t, h, -⟩
    exact hnone n row rows h

end Sql

namespace Account

open Program

variable {user : UserId} {apply : Balance → Instant → Except Error Balance} {fits : Int → Prop} {delta : Int}

/-- Reading a balance says a reading word, and gives what was read. -/
theorem says_read (user : UserId) :
    (ask (.balance user)).Says fun w r => ReadWord user w (r.toOption.map (·.amount)) ∧
      ∀ b, r = .ok b → b.user = user ∧ 0 ≤ b.amount.toInt := by
  refine says_ask ?_
  show (readBalance user).Says _
  intro r
  rcases r.affected?_cases with ⟨n, rows, rfl, hr⟩ | ⟨hfailed, e, hr⟩
  · simp only [hr]
    intro r'
    show ReadWord user _ (Except.toOption (do (← r'.row?).toBalance user) |>.map (·.amount)) ∧
      ∀ b, (do (← r'.row?).toBalance user) = .ok b → _
    rcases r'.balance_cases user with ⟨b, hb, huser, hholds⟩ | ⟨hbad, e, he⟩
    · rw [hb]
      refine ⟨.read ⟨n, rows, rfl⟩ hholds, ?_⟩
      rintro b' ⟨⟩
      obtain ⟨-, -, -, -, -, -, -, hpos⟩ := hholds
      exact ⟨huser, hpos⟩
    · rw [he]
      refine ⟨.unread ⟨n, rows, rfl⟩ hbad, ?_⟩
      rintro b' ⟨⟩
  · simp only [hr]
    refine ⟨.unmade hfailed, ?_⟩
    rintro b' ⟨⟩

/-- Writing a balance says one statement, and succeeds exactly if it was executed. -/
theorem says_write (b : Balance) :
    (ask (.saveBalance b)).Says fun w r =>
      ∃ reply, w = [(.upsertBalance (ofWord b.user) b.amount b.lastUpdated, reply)] ∧
      (r = .ok () ∧ reply.Executed ∨ (∃ e, r = .error e) ∧ ¬reply.Executed) := by
  refine says_ask ?_
  show (writeBalance b).Says _
  intro reply
  refine ⟨reply, rfl, ?_⟩
  rcases reply.affected?_cases with ⟨n, rows, rfl, hr⟩ | ⟨hfailed, e, hr⟩
  · rw [hr]
    exact Or.inl ⟨rfl, n, rows, rfl⟩
  · rw [hr]
    exact Or.inr ⟨⟨e, rfl⟩, hfailed⟩

/-- A trace is one statement, whatever comes of it. -/
theorem says_trace (b : Balance) (movement : Movement) (cents : Cents) :
    (trace b movement cents).Says fun w _ =>
      ∃ reply, w = [(.insertSnapshot (ofWord b.user) b.amount b.lastUpdated, reply)] :=
  fun reply _ => ⟨reply, rfl⟩

/-- A change of a balance, as far as it got before the trace: the balance that was written, if it was. -/
def Adjusting (user : UserId) (fits : Int → Prop) (delta : Int) (w : List Exchange) (r : Except Error Balance) : Prop :=
  (∃ e, r = .error e) ∧ ChangeWord user fits delta w false ∨
    ∃ b, r = .ok b ∧ b.user = user ∧ 0 ≤ b.amount.toInt ∧
      ∃ w' a reply, w = w' ++ [(.upsertBalance (ofWord user) b.amount b.lastUpdated, reply)] ∧
        ReadWord user w' (some a) ∧ fits a.toInt ∧ b.amount.toInt = a.toInt + delta ∧ reply.Executed

/-- An adjustment reads the balance, and writes it if the change fits. -/
theorem says_adjust (hadjusts : Balance.Adjusts apply fits delta) :
    (adjust user apply).Says (Adjusting user fits delta) := by
  unfold adjust
  refine (says_read user).bind ?_
  rintro w r ⟨hread, hr⟩
  cases r with
  | error e => exact Or.inl ⟨⟨e, rfl⟩, by rw [List.append_nil]; exact .unread hread⟩
  | ok before =>
    obtain ⟨huser, hpos⟩ := hr before rfl
    refine says_clock fun now => ?_
    rcases hadjusts before now hpos with ⟨hfit, after, hafter, huser', hsum, hpos'⟩ | ⟨hunfit, e, he, -⟩
    · simp only [hafter]
      refine Says.bind (says_write after) ?_
      rintro w' r ⟨reply, rfl, hr⟩
      rw [huser', huser]
      rcases hr with ⟨rfl, hdone⟩ | ⟨⟨e, rfl⟩, hfailed⟩
      · refine Or.inr ⟨after, rfl, huser'.trans huser, hpos', w, before.amount, reply, ?_, hread, hfit, hsum, hdone⟩
        rfl
      · exact Or.inl ⟨⟨e, rfl⟩, .unwritten hread hfit hsum hpos' hfailed⟩
    · simp only [he]
      exact Or.inl ⟨⟨e, rfl⟩, by rw [List.append_nil]; exact .refused hread hunfit⟩

/-- A change of a balance says a changing word; it succeeds exactly if the row was written. -/
theorem says_change (movement : Movement) (cents : Cents) (hadjusts : Balance.Adjusts apply fits delta) :
    (change user movement cents apply).Says fun w r => ChangeWord user fits delta w r.isOk := by
  unfold change
  refine says_lock ((says_adjust hadjusts).bind ?_)
  rintro w r (⟨⟨e, rfl⟩, hw⟩ | ⟨b, rfl, rfl, hpos, w', a, reply, rfl, hread, hfit, hsum, hdone⟩)
  · show ChangeWord user fits delta (w ++ []) false
    rwa [List.append_nil]
  · refine Says.bind (says_trace b movement cents) ?_
    rintro w'' - ⟨reply', rfl⟩
    show ChangeWord b.user fits delta (_ ++ ([_] ++ [])) true
    rw [List.append_assoc]
    exact .written hread hfit hsum hpos hdone

/-- A credit says so, and whether it was made. -/
theorem says_credit (user : UserId) {amount : Cents} (hpos : 0 < amount.toInt) :
    (credit user amount).Says fun w r => CreditWord user amount w r.isOk := by
  unfold credit
  rw [if_neg ((not_cents_le_zero_iff amount).2 hpos)]
  exact says_change .credit amount (Balance.adjusts_credit amount hpos)

/-- A debit says so, and whether it was made. -/
theorem says_debit (user : UserId) {amount : Cents} (hpos : 0 < amount.toInt) :
    (debit user amount).Says fun w r => DebitWord user amount w r.isOk := by
  unfold debit
  rw [if_neg ((not_cents_le_zero_iff amount).2 hpos)]
  exact says_change .debit (-amount) (Balance.adjusts_debit amount hpos)

end Account

end CentLedger
