import CentLedger.Proofs.LockOrder
import CentLedger.Proofs.Protocol

/-!
# The values that statements bind

A server may answer with rows that nobody wrote. What the ledger writes is sound all the same, and it comes from what
the server said: a row that an errand writes holds what the errand read for the same user, changed by a step of the
errand (`Errand.steps`); a snapshot repeats the row that was just written; a record is pending and of a valid shape.

`Errand.Throughout` says so of a whole transcript, statement by statement, each after those before it. It holds of the
words of all errands (`ChangeWord.throughout`, `MoveWord.throughout`, `RecordedWord.throughout`); the main statement is
`Errand.bound_values_sound`, about any errands one after another.
-/

namespace CentLedger

open Sql

/-! ## What was said before a statement -/

/-- The last time that the balance of a user was read, it was this amount. -/
def ReadLast (user : Int64) (past : List Exchange) (amount : Cents) : Prop :=
  ∃ past' r since, past = past' ++ (.selectBalance user, r) :: since ∧ r.Holds amount ∧
    ∀ r', (Statement.selectBalance user, r') ∉ since

/-- The last time that the balance of a user was written, it was this amount with this time, and it was written. -/
def WroteLast (user : Int64) (past : List Exchange) (amount : Cents) (time : Instant) : Prop :=
  ∃ past' r since, past = past' ++ (.upsertBalance user amount time, r) :: since ∧ r.Executed ∧
    ∀ amount' time' r', (Statement.upsertBalance user amount' time', r') ∉ since

/-- The statement before was to write the balance of a user, and failed. -/
def FailedToWrite (user : Int64) (past : List Exchange) : Prop :=
  ∃ past' amount time r, past = past' ++ [(.upsertBalance user amount time, r)] ∧ ¬r.Executed

/-- What was read last stays so until the user is read again. -/
theorem ReadLast.append {user : Int64} {past w : List Exchange} {amount : Cents} (h : ReadLast user past amount)
    (hw : ∀ r, (Statement.selectBalance user, r) ∉ w) : ReadLast user (past ++ w) amount := by
  obtain ⟨past', r, since, rfl, hr, hsince⟩ := h
  refine ⟨past', r, since ++ w, by simp, hr, ?_⟩
  intro r' hmem
  rcases List.mem_append.1 hmem with hmem | hmem
  · exact hsince r' hmem
  · exact hw r' hmem

/-- What was written last stays so until the user is written again. -/
theorem WroteLast.append {user : Int64} {past w : List Exchange} {amount : Cents} {time : Instant}
    (h : WroteLast user past amount time)
    (hw : ∀ amount' time' r, (Statement.upsertBalance user amount' time', r) ∉ w) :
    WroteLast user (past ++ w) amount time := by
  obtain ⟨past', r, since, rfl, hr, hsince⟩ := h
  refine ⟨past', r, since ++ w, by simp, hr, ?_⟩
  intro amount' time' r' hmem
  rcases List.mem_append.1 hmem with hmem | hmem
  · exact hsince _ _ r' hmem
  · exact hw _ _ r' hmem

/-- What was just written. -/
theorem WroteLast.now {user : Int64} {amount : Cents} {time : Instant} {r : ServerReply} (past : List Exchange)
    (hr : r.Executed) : WroteLast user (past ++ [(.upsertBalance user amount time, r)]) amount time :=
  ⟨past, r, [], rfl, hr, fun _ _ _ h => (nomatch h)⟩

/-- After a word that reads a balance, that is what was read last. -/
theorem ReadWord.readLast {user : UserId} {w : List Exchange} {a : Cents} (h : ReadWord user w (some a))
    (past : List Exchange) : ReadLast (ofWord user) (past ++ w) a := by
  cases h with
  | @read r r' _ made holds =>
    exact ⟨past ++ [(.insertZeroBalance (ofWord user), r)], r', [], by simp, holds, fun _ h => (nomatch h)⟩

/-- A balance that was read is not negative. -/
theorem ReadWord.nonneg {user : UserId} {w : List Exchange} {a : Cents} (h : ReadWord user w (some a)) :
    0 ≤ a.toInt := by
  cases h with
  | read made holds =>
    obtain ⟨-, -, -, -, -, -, -, hpos⟩ := holds
    exact hpos

/-- A word that reads the balance of one user reads that of no other. -/
theorem ReadWord.other {user other : UserId} {w : List Exchange} {a : Option Cents} (h : ReadWord user w a)
    (hne : user ≠ other) (r : ServerReply) : (Statement.selectBalance (ofWord other), r) ∉ w := by
  have hother : ofWord other ≠ ofWord user := fun h => hne (ofWord_inj.1 h).symm
  cases h <;> simp [hother]

/-! ## Sound statements -/

/-- The changes that a job makes when it could not be carried through and is undone. -/
def Job.compensation : Job → List Change
  | .credit _ _ => []
  | .debit _ _ => []
  | .transfer source _ amount => [⟨source, amount.toInt⟩]

namespace Errand

/-- The steps of an errand: the changes that it makes to single balances. -/
def steps : Errand → List Change
  | .op o => o.changes
  | .job j => j.changes ++ j.compensation

/-- An errand may write a row over what was said before: the row is the balance that the errand read last for the user,
changed by a step of the errand; or it is that balance unchanged, where a transfer puts its source back because the
statement before, for the row of the target, failed. -/
def MayWrite (e : Errand) (past : List Exchange) (user : Int64) (amount : Cents) : Prop :=
  0 ≤ amount.toInt ∧ ∃ read, ReadLast user past read ∧
    ((∃ step ∈ e.steps, ofWord step.user = user ∧ amount.toInt = read.toInt + step.delta) ∨
      ∃ source target cents, e = .op (.transfer source target cents) ∧ ofWord source = user ∧
        FailedToWrite (ofWord target) past ∧ amount = read)

/-- A record may be added: it is pending, and its kind, accounts and amount are those of a valid request. -/
def MayOpen (source target : Option Int64) (amount : Cents) (kind status : String) : Prop :=
  0 < amount.toInt ∧ status = "pending" ∧ ∃ r : Request, r.validate = .ok () ∧ r.kind.text = kind ∧
    r.source.map ofWord = source ∧ r.target.map ofWord = target ∧ r.amount = amount

/-- What an errand may say after what it said before. -/
def May (e : Errand) (past : List Exchange) : Statement → Prop
  | .upsertBalance user amount _ => e.MayWrite past user amount
  | .insertSnapshot user amount time => WroteLast user past amount time
  | .insertTransaction source target amount kind status _ _ _ => MayOpen source target amount kind status
  | _ => True

/-- An errand may say each statement of a word after those before it. -/
def Throughout (e : Errand) (past : List Exchange) : List Exchange → Prop
  | [] => True
  | x :: w => e.May past x.1 ∧ e.Throughout (past ++ [x]) w

variable {e : Errand} {past w w' : List Exchange}

/-- An errand may say one word after another exactly if it may say the first, and then the second. -/
theorem throughout_append : e.Throughout past (w ++ w') ↔ e.Throughout past w ∧ e.Throughout (past ++ w) w' := by
  induction w generalizing past with
  | nil => simp [Throughout]
  | cons x w ih => simp [Throughout, ih, and_assoc]

/-- Each statement of a word is one that the errand may say after those before it. -/
theorem Throughout.may (h : e.Throughout past w) {before after : List Exchange} {s : Statement} {r : ServerReply}
    (hw : w = before ++ (s, r) :: after) : e.May (past ++ before) s := by
  subst hw
  exact (throughout_append.1 h).2.1

end Errand

/-- Reading writes nothing. -/
theorem ReadWord.throughout {user : UserId} {w : List Exchange} {a : Option Cents} (h : ReadWord user w a) (e : Errand)
    (past : List Exchange) : e.Throughout past w := by
  cases h <;> simp [Errand.Throughout, Errand.May]

section

variable {e : Errand} {w : List Exchange}

/-- A change of a balance is sound if it is a step of the errand. -/
theorem ChangeWord.throughout {user : UserId} {fits : Int → Prop} {delta : Int} {done : Bool}
    (h : ChangeWord user fits delta w done) (hstep : ⟨user, delta⟩ ∈ e.steps) (past : List Exchange) :
    e.Throughout past w := by
  have hmay : ∀ {w a b}, ReadWord user w (some a) → b.toInt = a.toInt + delta → 0 ≤ b.toInt →
      e.MayWrite (past ++ w) (ofWord user) b :=
    fun read sum nonneg => ⟨nonneg, _, read.readLast past, Or.inl ⟨_, hstep, rfl, sum⟩⟩
  cases h with
  | unread read => exact read.throughout e past
  | refused read => exact read.throughout e past
  | unwritten read fit sum nonneg failed =>
    exact Errand.throughout_append.2 ⟨read.throughout e past, hmay read sum nonneg, trivial⟩
  | written read fit sum nonneg done =>
    exact Errand.throughout_append.2 ⟨read.throughout e past, hmay read sum nonneg, .now _ done, trivial⟩

/-- Closing a record binds no balance. -/
theorem Records.ClosingWord.throughout {id : Int64} {completed : Bool} (h : Records.ClosingWord id completed w)
    (e : Errand) (past : List Exchange) : e.Throughout past w := by
  cases h <;> simp [Errand.Throughout, Errand.May, Records.closing]

/-- A recorded operation is sound if its record is and what it does to the balances is. -/
theorem RecordedWord.throughout {r : Request} {proper : Prop} {booking : List Exchange → Bool → Prop}
    (h : RecordedWord r proper booking w) (hvalid : proper → r.validate = .ok ())
    (hbooking : ∀ w completed, booking w completed → ∀ past, e.Throughout past w) (past : List Exchange) :
    e.Throughout past w := by
  have hmay : proper → Errand.MayOpen (r.source.map ofWord) (r.target.map ofWord) r.amount r.kind.text "pending" :=
    fun is => ⟨Transfer.pos_of_valid (hvalid is), rfl, r, hvalid is, rfl, rfl, rfl, rfl⟩
  cases h with
  | nothing => trivial
  | unopened is => exact ⟨hmay is, trivial⟩
  | closed is named booked closed =>
    exact ⟨hmay is, Errand.throughout_append.2 ⟨hbooking _ _ booked _, closed.throughout e _⟩⟩

/-- What a recorded transfer does to the balances is sound. -/
theorem BookingWord.throughout {source target : UserId} {amount : Cents} {completed : Bool}
    (h : BookingWord source target amount w completed) (past : List Exchange) :
    (Errand.job (.transfer source target amount)).Throughout past w := by
  cases h with
  | undebited debit => exact debit.throughout (by simp [Errand.steps, Job.changes]) past
  | booked debit credit =>
    refine Errand.throughout_append.2 ⟨debit.throughout ?_ past, credit.throughout ?_ _⟩ <;>
      simp [Errand.steps, Job.changes]
  | compensated debit credit again =>
    rw [List.append_assoc]
    refine Errand.throughout_append.2 ⟨debit.throughout ?_ past,
      Errand.throughout_append.2 ⟨credit.throughout ?_ _, again.throughout ?_ _⟩⟩ <;>
      simp [Errand.steps, Job.changes, Job.compensation]

end

/-! ## Moves -/

/-- Two balances that were read and what becomes of them: an amount moves from the source to the target. -/
structure Moves (source target : UserId) (amount : Cents) (before other less more : Balance) : Prop where
  source : before.user = source ∧ less.user = source
  target : more.user = target
  less : less.amount.toInt = before.amount.toInt - amount.toInt ∧ 0 ≤ less.amount.toInt
  more : more.amount.toInt = other.amount.toInt + amount.toInt ∧ 0 ≤ more.amount.toInt

/-- The statement that writes a balance. -/
abbrev writing (b : Balance) : Statement :=
  .upsertBalance (ofWord b.user) b.amount b.lastUpdated

/-- The statement that adds a balance to the history. -/
abbrev tracing (b : Balance) : Statement :=
  .insertSnapshot (ofWord b.user) b.amount b.lastUpdated

/-- What is said to write both balances of a move, and whether both were written. -/
inductive WritingWord (before less more : Balance) : List Exchange → Bool → Prop
  | unwritten {r} (failed : ¬r.Executed) : WritingWord before less more [(writing less, r)] false
  | restored {r r' r''} (done : r.Executed) (failed : ¬r'.Executed) :
      WritingWord before less more [(writing less, r), (writing more, r'), (writing before, r'')] false
  | written {r r'} (done : r.Executed) (done' : r'.Executed) :
      WritingWord before less more [(writing less, r), (writing more, r')] true

/-- What a transfer without a record says. -/
inductive MoveWord (source target : UserId) (amount : Cents) : List Exchange → Prop
  | nothing (improper : source = target ∨ amount.toInt ≤ 0) : MoveWord source target amount []
  | sourceUnread {w} (read : ReadWord source w none) : MoveWord source target amount w
  | targetUnread {w w' a} (read : ReadWord source w (some a)) (read' : ReadWord target w' none) :
      MoveWord source target amount (w ++ w')
  | refused {w w' a a'} (read : ReadWord source w (some a)) (read' : ReadWord target w' (some a'))
      (unfit : ¬(amount.toInt ≤ a.toInt ∧ a'.toInt + amount.toInt ≤ maxCents)) :
      MoveWord source target amount (w ++ w')
  | unwritten {before other less more w w' w''} (apart : source ≠ target)
      (read : ReadWord source w (some before.amount)) (read' : ReadWord target w' (some other.amount))
      (moves : Moves source target amount before other less more)
      (wrote : WritingWord before less more w'' false) : MoveWord source target amount (w ++ w' ++ w'')
  | written {before other less more w w' w'' r r'} (apart : source ≠ target)
      (read : ReadWord source w (some before.amount)) (read' : ReadWord target w' (some other.amount))
      (moves : Moves source target amount before other less more)
      (wrote : WritingWord before less more w'' true) :
      MoveWord source target amount (w ++ w' ++ w'' ++ [(tracing less, r), (tracing more, r')])

namespace Account

open Program

variable {source target : UserId} {amount : Cents}

/-- The writing of both rows says what it writes, and whether it wrote it. -/
theorem says_writeBoth (before less more : Balance) :
    (writeBoth before less more).Says fun w r => WritingWord before less more w r.isOk := by
  unfold writeBoth
  refine (says_write less).bind ?_
  rintro w r ⟨reply, rfl, ⟨rfl, hdone⟩ | ⟨⟨e, rfl⟩, hfailed⟩⟩
  · refine Says.bind (says_write more) ?_
    rintro w r ⟨reply', rfl, ⟨rfl, hdone'⟩ | ⟨⟨e, rfl⟩, hfailed⟩⟩
    · exact WritingWord.written hdone hdone'
    · refine Says.bind (says_write before) ?_
      rintro w r ⟨reply'', rfl, ⟨rfl, -⟩ | ⟨⟨e, rfl⟩, -⟩⟩
      · exact WritingWord.restored hdone hfailed
      · exact WritingWord.restored hdone hfailed
  · exact WritingWord.unwritten hfailed

/-- A move, as far as it got before the traces: the balances that were written, if they were. -/
def Moving (source target : UserId) (amount : Cents) (w : List Exchange) (r : Except Error (Balance × Balance)) :
    Prop :=
  (∃ e, r = .error e) ∧ MoveWord source target amount w ∨
    ∃ before other less more w₁ w₂ w₃, r = .ok (less, more) ∧ w = w₁ ++ w₂ ++ w₃ ∧
      ReadWord source w₁ (some before.amount) ∧ ReadWord target w₂ (some other.amount) ∧
      Moves source target amount before other less more ∧ WritingWord before less more w₃ true

/-- A move of a positive amount between different accounts says what it moves. -/
theorem says_move (hne : source ≠ target) (hpos : 0 < amount.toInt) :
    (move source target amount).Says (Moving source target amount) := by
  unfold move
  refine (says_read source).bind ?_
  rintro w r ⟨hread, hr⟩
  cases r with
  | error e => exact Or.inl ⟨⟨e, rfl⟩, by rw [List.append_nil]; exact .sourceUnread hread⟩
  | ok before =>
    obtain ⟨hbefore, hbeforePos⟩ := hr before rfl
    refine (says_read target).bind ?_
    rintro w' r ⟨hread', hr⟩
    cases r with
    | error e => exact Or.inl ⟨⟨e, rfl⟩, by rw [List.append_nil]; exact .targetUnread hread hread'⟩
    | ok other =>
      obtain ⟨hother, hotherPos⟩ := hr other rfl
      refine says_clock fun now => ?_
      rcases Balance.adjusts_debit amount hpos before now hbeforePos with
        ⟨hcovered, less, hless, huser, hsum, hlessPos⟩ | ⟨huncovered, e, he, -⟩
      · simp only [hless]
        refine says_clock fun now' => ?_
        rcases Balance.adjusts_credit amount hpos other now' hotherPos with
          ⟨hfits, more, hmore, huser', hsum', hmorePos⟩ | ⟨hunfit, e, he, -⟩
        · simp only [hmore]
          have hmoves : Moves source target amount before other less more :=
            ⟨⟨hbefore, huser.trans hbefore⟩, huser'.trans hother, ⟨by omega, hlessPos⟩, hsum', hmorePos⟩
          refine (says_writeBoth before less more).bind ?_
          intro w'' r hwriting
          cases r with
          | error e =>
            refine Or.inl ⟨⟨e, rfl⟩, ?_⟩
            rw [List.append_nil, ← List.append_assoc]
            exact .unwritten hne hread hread' hmoves hwriting
          | ok _ =>
            refine Or.inr ⟨before, other, less, more, w, w', w'', rfl, ?_, hread, hread', hmoves, hwriting⟩
            rw [List.append_nil, List.append_assoc]
        · simp only [he]
          refine Or.inl ⟨⟨e, rfl⟩, ?_⟩
          rw [List.append_nil]
          exact .refused hread hread' fun h => hunfit h.2
      · simp only [he]
        refine Or.inl ⟨⟨e, rfl⟩, ?_⟩
        rw [List.append_nil]
        exact .refused hread hread' fun h => huncovered h.1

/-- A transfer without a record says what it moves. -/
theorem says_transfer (source target : UserId) (amount : Cents) :
    (transfer source target amount).Says fun w _ => MoveWord source target amount w := by
  unfold transfer
  split
  · rename_i hle
    rw [← not_not (a := amount ≤ 0), not_cents_le_zero_iff] at hle
    exact MoveWord.nothing (Or.inr (not_lt.1 hle))
  split
  · rename_i heq
    exact MoveWord.nothing (Or.inl heq)
  rename_i hle hne
  refine says_lock (says_lock ((says_move hne ((not_cents_le_zero_iff amount).1 hle)).bind ?_))
  rintro w r (⟨⟨e, rfl⟩, hw⟩ | ⟨before, other, less, more, w₁, w₂, w₃, rfl, rfl, hread, hread', hmoves, hwriting⟩)
  · refine says_unlock (says_unlock ?_)
    show MoveWord source target amount (w ++ [])
    rwa [List.append_nil]
  · refine Says.bind (says_trace less .debit (-amount)) ?_
    rintro w - ⟨reply, rfl⟩
    refine Says.bind (says_trace more .credit amount) ?_
    rintro w - ⟨reply', rfl⟩
    refine says_unlock (says_unlock ?_)
    exact MoveWord.written hne hread hread' hmoves hwriting

end Account

section

variable {source target : UserId} {amount : Cents} {before other less more : Balance} {w : List Exchange} {done : Bool}

/-- The rows of a move are sound, and so is the row of the source that is put back. -/
theorem WritingWord.throughout (h : WritingWord before less more w done)
    (hmoves : Moves source target amount before other less more) {past : List Exchange}
    (hsource : ReadLast (ofWord source) past before.amount) (hpos : 0 ≤ before.amount.toInt)
    (htarget : ReadLast (ofWord target) past other.amount) :
    (Errand.op (.transfer source target amount)).Throughout past w := by
  obtain ⟨⟨hbefore, hless⟩, hmore, ⟨hdiff, hlessPos⟩, hsum, hmorePos⟩ := hmoves
  have hmayLess : (Errand.op (.transfer source target amount)).MayWrite past (ofWord less.user) less.amount := by
    have hdiff' : less.amount.toInt = before.amount.toInt + -amount.toInt := by omega
    refine ⟨hlessPos, _, by rwa [hless], Or.inl ⟨⟨source, -amount.toInt⟩, ?_, by rw [hless], hdiff'⟩⟩
    simp [Errand.steps, Account.Op.changes]
  have hmayMore : ∀ r, (Errand.op (.transfer source target amount)).MayWrite (past ++ [(writing less, r)])
      (ofWord more.user) more.amount := by
    intro r
    refine ⟨hmorePos, _, ?_, Or.inl ⟨⟨target, amount.toInt⟩, ?_, by rw [hmore], hsum⟩⟩
    · rw [hmore]
      exact htarget.append (by simp)
    · simp [Errand.steps, Account.Op.changes]
  cases h with
  | unwritten failed => exact ⟨hmayLess, trivial⟩
  | restored done failed =>
    refine ⟨hmayLess, hmayMore _, ⟨hpos, before.amount, ?_, Or.inr ⟨source, target, amount, rfl, ?_, ?_, rfl⟩⟩, trivial⟩
    · rw [hbefore]
      exact (hsource.append (by simp)).append (by simp)
    · rw [hbefore]
    · exact ⟨_, more.amount, more.lastUpdated, _, by rw [← hmore], failed⟩
  | written done done' => exact ⟨hmayLess, hmayMore _, trivial⟩

/-- The snapshots of a move repeat the rows that were written. -/
theorem WritingWord.traced (h : WritingWord before less more w true) (hne : less.user ≠ more.user)
    (past : List Exchange) (r : ServerReply) :
    WroteLast (ofWord less.user) (past ++ w) less.amount less.lastUpdated ∧
      WroteLast (ofWord more.user) (past ++ w ++ [(tracing less, r)]) more.amount more.lastUpdated := by
  cases h with
  | @written r₁ r₂ done done' =>
    have hother : ofWord less.user ≠ ofWord more.user := fun h => hne (ofWord_inj.1 h)
    have hsplit : past ++ [(writing less, r₁), (writing more, r₂)] =
        past ++ [(writing less, r₁)] ++ [(writing more, r₂)] := by simp
    rw [hsplit]
    refine ⟨(WroteLast.now past done).append ?_, (WroteLast.now _ done').append ?_⟩
    · simp [hother]
    · simp

/-- A transfer without a record is sound. -/
theorem MoveWord.throughout (h : MoveWord source target amount w) (past : List Exchange) :
    (Errand.op (.transfer source target amount)).Throughout past w := by
  have hreads : ∀ {w w' a a'}, ReadWord source w a → ReadWord target w' a' →
      (Errand.op (.transfer source target amount)).Throughout past (w ++ w') :=
    fun read read' => Errand.throughout_append.2 ⟨read.throughout _ past, read'.throughout _ _⟩
  have hwrites : ∀ {before other less more w w' w'' done}, source ≠ target →
      ReadWord source w (some before.amount) → ReadWord target w' (some other.amount) →
      Moves source target amount before other less more → WritingWord before less more w'' done →
      (Errand.op (.transfer source target amount)).Throughout past (w ++ w' ++ w'') := by
    intro before other less more w w' w'' done apart read read' moves wrote
    refine Errand.throughout_append.2 ⟨hreads read read', ?_⟩
    rw [← List.append_assoc]
    refine wrote.throughout moves ?_ read.nonneg (read'.readLast _)
    exact (read.readLast past).append (read'.other apart.symm)
  cases h with
  | nothing => trivial
  | sourceUnread read => exact read.throughout _ past
  | targetUnread read read' => exact hreads read read'
  | refused read read' => exact hreads read read'
  | unwritten apart read read' moves wrote => exact hwrites apart read read' moves wrote
  | @written before other less more w w' w'' r r' apart read read' moves wrote =>
    refine Errand.throughout_append.2 ⟨hwrites apart read read' moves wrote, ?_⟩
    have hne : less.user ≠ more.user := by
      rw [moves.source.2, moves.target]
      exact apart
    rw [← List.append_assoc]
    obtain ⟨hless, hmore⟩ := wrote.traced hne (past ++ (w ++ w')) r
    exact ⟨hless, hmore, trivial⟩

end

/-! ## Errands -/

namespace Transfer

open Program

/-- A request for a credit is valid exactly if its amount is positive. -/
theorem validate_credit (user : UserId) (amount : Cents) :
    (Request.credit user amount).validate = .ok () ↔ 0 < amount.toInt := by
  rw [← not_cents_le_zero_iff]
  by_cases hle : amount ≤ 0 <;> simp [Request.validate, Request.credit, checkShape, hle]

/-- A request for a debit is valid exactly if its amount is positive. -/
theorem validate_debit (user : UserId) (amount : Cents) :
    (Request.debit user amount).validate = .ok () ↔ 0 < amount.toInt := by
  rw [← not_cents_le_zero_iff]
  by_cases hle : amount ≤ 0 <;> simp [Request.validate, Request.debit, checkShape, hle]

/-- A recorded credit says so. -/
theorem says_applyCredit (user : UserId) (amount : Cents) :
    (applyCredit user amount).Says fun w _ =>
      RecordedWord (.credit user amount) (0 < amount.toInt) (CreditWord user amount) w := by
  refine says_recorded (validate_credit user amount) ?_
  intro hpos t hpending hcause
  exact (Account.says_credit user hpos).bind fun w r hw => says_finish hpending hcause hw

/-- A recorded debit says so. -/
theorem says_applyDebit (user : UserId) (amount : Cents) :
    (applyDebit user amount).Says fun w _ =>
      RecordedWord (.debit user amount) (0 < amount.toInt) (DebitWord user amount) w := by
  refine says_recorded (validate_debit user amount) ?_
  intro hpos t hpending hcause
  exact (Account.says_debit user hpos).bind fun w r hw => says_finish hpending hcause hw

end Transfer

namespace Errand

open Program

/-- A change of one balance that is refused at once says nothing; any other says its word. -/
theorem says_program (e : Errand) : e.program.Says fun w _ => ∀ past, e.Throughout past w := by
  cases e with
  | op o =>
    refine Says.map ?_
    cases o with
    | balance user =>
      exact Says.map ((Account.says_read user).mono fun w r h past => h.1.throughout _ past)
    | credit user amount =>
      refine Says.map ?_
      by_cases hpos : 0 < amount.toInt
      · refine (Account.says_credit user hpos).mono fun w r hw past => hw.throughout ?_ past
        simp [steps, Account.Op.changes]
      · rw [← not_cents_le_zero_iff, not_not] at hpos
        rw [Account.credit, if_pos hpos]
        exact fun past => trivial
    | debit user amount =>
      refine Says.map ?_
      by_cases hpos : 0 < amount.toInt
      · refine (Account.says_debit user hpos).mono fun w r hw past => hw.throughout ?_ past
        simp [steps, Account.Op.changes]
      · rw [← not_cents_le_zero_iff, not_not] at hpos
        rw [Account.debit, if_pos hpos]
        exact fun past => trivial
    | transfer source target amount =>
      exact Says.map ((Account.says_transfer source target amount).mono fun w r h past => h.throughout past)
  | job j =>
    refine Says.map ?_
    cases j with
    | credit user amount =>
      refine (Transfer.says_applyCredit user amount).mono fun w r h past => ?_
      refine h.throughout (Transfer.validate_credit user amount).2 (fun w c hw past => hw.throughout ?_ past) past
      simp [steps, Job.changes]
    | debit user amount =>
      refine (Transfer.says_applyDebit user amount).mono fun w r h past => ?_
      refine h.throughout (Transfer.validate_debit user amount).2 (fun w c hw past => hw.throughout ?_ past) past
      simp [steps, Job.changes]
    | transfer source target amount =>
      refine (Transfer.says_applyTransfer source target amount).mono fun w r h past => ?_
      exact h.throughout (Transfer.validate_transfer source target amount).2
        (fun w c hw past => hw.throughout past) past

/-- What an errand says is sound: whatever was said before each statement, the statement may follow. -/
structure Sound (e : Errand) (w : List Exchange) : Prop where
  /-- A row that is written is not negative, and is what the errand read last for the same user, changed by a step of
  the errand or put back. -/
  balances : ∀ before user amount time reply after,
    w = before ++ (.upsertBalance user amount time, reply) :: after → e.MayWrite before user amount
  /-- A snapshot repeats the row of the same user that was written last. -/
  history : ∀ before user amount time reply after,
    w = before ++ (.insertSnapshot user amount time, reply) :: after → WroteLast user before amount time
  /-- A record that is added is pending and of a valid shape. -/
  records : ∀ before source target amount kind status cause created updated reply after,
    w = before ++ (.insertTransaction source target amount kind status cause created updated, reply) :: after →
      MayOpen source target amount kind status

/-- What an errand may say throughout is sound. -/
theorem Throughout.sound {e : Errand} {w : List Exchange} (h : e.Throughout [] w) : e.Sound w where
  balances _ _ _ _ _ _ hw := h.may hw
  history _ _ _ _ _ _ hw := h.may hw
  records _ _ _ _ _ _ _ _ _ _ _ hw := h.may hw

/-- What is said in errands one after another, each under circumstances of its own and with the replies that those
before it left. -/
def transcripts : List (Errand × (Nat → Circumstance)) → List ServerReply → List (Errand × List Exchange)
  | [], _ => []
  | (e, weather) :: later, replies =>
    let w := (converseUnder weather 0 e.program).transcript replies
    (e, w) :: transcripts later (replies.drop w.length)

/-- Whatever the server replies to errands one after another, what each of them says is sound. -/
theorem bound_values_sound (errands : List (Errand × (Nat → Circumstance))) (replies : List ServerReply) :
    (transcripts errands replies).Forall fun x => x.1.Sound x.2 := by
  induction errands generalizing replies with
  | nil => trivial
  | cons x later ih =>
    obtain ⟨e, weather⟩ := x
    have hword := ((says_program e).converseUnder weather 0).transcript replies []
    exact (List.forall_cons _ _ _).2 ⟨hword.sound, ih _⟩

end Errand

end CentLedger
