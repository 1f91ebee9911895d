import CentLedger.Operation.Transfer
import CentLedger.Proofs.Operations

/-!
# Locks in ascending order

`Program.Ascends` says of a program that, whatever replies it gets, it asks for a lock only when the account is above
all those whose locks it holds, gives back only locks that it holds, and ends with certain locks. It looks at no amount
and no row, so it holds over any store. All operations ascend, those on accounts and the recorded ones, and they end
without a lock (`Errand.ascends_program`).
-/

namespace CentLedger

/-- A call that holds some locks may do the action: it takes a lock above all of them, or gives one of them back, or the
action is about no lock. -/
def Action.Ascends (held : List UserId) : Action → Prop
  | .lock user => ∀ other ∈ held, other < user
  | .unlock user => user ∈ held
  | _ => True

namespace Program

variable {α β : Type} {held mid left : List UserId}

/-- Whatever replies it gets, a program that holds some locks takes further ones in ascending order, gives back only
those that it holds, and ends with the locks that are `left`. -/
def Ascends (left : List UserId) : Program α → (held : List UserId) → Prop
  | .done _, held => held = left
  | .act action next, held => action.Ascends held ∧ ∀ reply, (next reply).Ascends left (action.heldAfter held)

/-- One program after another ascends when the second goes on from the locks that the first leaves. -/
theorem Ascends.bind {p : Program α} {k : α → Program β} (hp : p.Ascends mid held)
    (hk : ∀ a, (k a).Ascends left mid) : (p >>= k).Ascends left held := by
  show (p.bind k).Ascends left held
  induction p generalizing held with
  | done a =>
    obtain rfl : held = mid := hp
    exact hk a
  | act action next ih => exact ⟨hp.1, fun reply => ih reply (hp.2 reply)⟩

/-- What is made of the value takes no locks. -/
theorem Ascends.map {p : Program α} (hp : p.Ascends left held) (f : α → β) : (p.map f).Ascends left held :=
  Ascends.bind (k := fun a => done (f a)) hp fun _ => rfl

/-- A lock may be taken above all locks that are held. -/
theorem ascends_lock {user : UserId} (h : ∀ other ∈ held, other < user) : (lock user).Ascends (user :: held) held :=
  ⟨h, fun _ => rfl⟩

/-- A lock that is held may be given back. -/
theorem ascends_unlock {user : UserId} (h : user ∈ held) : (unlock user).Ascends (held.erase user) held :=
  ⟨h, fun _ => rfl⟩

/-- The time, the store and the audit are about no lock. -/
theorem ascends_clock (held : List UserId) : clock.Ascends held held :=
  ⟨trivial, fun _ => rfl⟩

/-- Asking the store takes no locks. -/
theorem ascends_ask (request : StoreRequest) (held : List UserId) : (ask request).Ascends held held :=
  ⟨trivial, fun _ => rfl⟩

/-- Telling the audit takes no locks. -/
theorem ascends_note (record : AuditRecord) (held : List UserId) : (note record).Ascends held held :=
  ⟨trivial, fun _ => rfl⟩

end Program

/-! ## Operations on accounts -/

namespace Account

open Program

variable {held : List UserId}

/-- Tracing a change takes no locks. -/
theorem ascends_trace (b : Balance) (movement : Movement) (delta : Cents) (held : List UserId) :
    (trace b movement delta).Ascends held held :=
  (ascends_ask _ held).bind fun _ => ascends_note _ held

/-- Changing a balance under a lock takes no others. -/
theorem ascends_adjust (user : UserId) (apply : Balance → Instant → Except Error Balance) (held : List UserId) :
    (adjust user apply).Ascends held held := by
  unfold adjust
  refine (ascends_ask _ held).bind ?_
  intro reply
  cases reply with
  | error e => rfl
  | ok before =>
    refine (ascends_clock held).bind ?_
    intro now
    cases apply before now with
    | error e => rfl
    | ok after =>
      refine (ascends_ask _ held).bind ?_
      intro reply
      cases reply with
      | error e => rfl
      | ok _ => rfl

/-- A change takes one lock, above all that the call holds, and gives it back on every path. -/
theorem ascends_change {user : UserId} (horder : ∀ other ∈ held, other < user) (movement : Movement) (delta : Cents)
    (apply : Balance → Instant → Except Error Balance) : (change user movement delta apply).Ascends held held := by
  have hback : (unlock user).Ascends held (user :: held) := by
    have h : (unlock user).Ascends ((user :: held).erase user) (user :: held) := ascends_unlock List.mem_cons_self
    rwa [List.erase_cons_head] at h
  unfold change
  refine (ascends_lock horder).bind fun _ => (ascends_adjust user apply (user :: held)).bind ?_
  intro result
  cases result with
  | error e => exact hback.bind fun _ => rfl
  | ok b => exact (ascends_trace b movement delta (user :: held)).bind fun _ => hback.bind fun _ => rfl

/-- A credit takes and gives back one lock, which must be above those held. -/
theorem ascends_credit {user : UserId} (horder : ∀ other ∈ held, other < user) (amount : Cents) :
    (credit user amount).Ascends held held := by
  unfold credit
  split
  · rfl
  · exact ascends_change horder _ _ _

/-- A debit takes and gives back one lock, which must be above those held. -/
theorem ascends_debit {user : UserId} (horder : ∀ other ∈ held, other < user) (amount : Cents) :
    (debit user amount).Ascends held held := by
  unfold debit
  split
  · rfl
  · exact ascends_change horder _ _ _

/-- Writing both balances of a transfer takes no locks. -/
theorem ascends_writeBoth (before source target : Balance) (held : List UserId) :
    (writeBoth before source target).Ascends held held := by
  unfold writeBoth
  refine (ascends_ask _ held).bind ?_
  intro reply
  cases reply with
  | error e => rfl
  | ok _ =>
    refine (ascends_ask _ held).bind ?_
    intro reply
    cases reply with
    | ok _ => rfl
    | error e =>
      refine (ascends_ask _ held).bind ?_
      intro reply
      cases reply with
      | ok _ => rfl
      | error e => rfl

/-- Moving money between two balances takes no locks: the transfer holds both. -/
theorem ascends_move (source target : UserId) (amount : Cents) (held : List UserId) :
    (move source target amount).Ascends held held := by
  unfold move
  refine (ascends_ask _ held).bind ?_
  intro reply
  cases reply with
  | error e => rfl
  | ok before =>
    refine (ascends_ask _ held).bind ?_
    intro reply
    cases reply with
    | error e => rfl
    | ok other =>
      refine (ascends_clock held).bind ?_
      intro now
      cases before.debit amount now with
      | error e => rfl
      | ok less =>
        refine (ascends_clock held).bind ?_
        intro now
        cases other.credit amount now with
        | error e => rfl
        | ok more =>
          refine (ascends_writeBoth before less more held).bind ?_
          intro result
          cases result with
          | error e => rfl
          | ok _ => rfl

/-- A transfer takes the lower lock first and then the other, and gives both back on every path. -/
theorem ascends_transfer (source target : UserId) (amount : Cents) : (transfer source target amount).Ascends [] [] := by
  unfold transfer
  split
  · rfl
  split
  · rfl
  rename_i hne
  have hlt := ascending hne
  generalize (if source < target then source else target) = first at hlt ⊢
  generalize (if source < target then target else source) = second at hlt ⊢
  have hback : ∀ r : Except Error (Balance × Balance),
      (do unlock first; unlock second; return r : Program _).Ascends [] [second, first] := by
    intro r
    have hne : second ≠ first := fun e => UInt64.lt_irrefl first (e ▸ hlt)
    have hfirst : (unlock first).Ascends [second] [second, first] := by
      have h : (unlock first).Ascends ([second, first].erase first) [second, first] := ascends_unlock (by simp)
      rwa [List.erase_cons_tail (by simpa using hne), List.erase_cons_head] at h
    have hsecond : (unlock second).Ascends [] [second] := by
      have h : (unlock second).Ascends ([second].erase second) [second] := ascends_unlock (by simp)
      rwa [List.erase_cons_head] at h
    exact hfirst.bind fun _ => hsecond.bind fun _ => rfl
  have hlock : (lock first).Ascends [first] [] := ascends_lock (by simp)
  have hlock' : (lock second).Ascends [second, first] [first] := ascends_lock (by simpa using hlt)
  refine hlock.bind fun _ => hlock'.bind fun _ => ?_
  refine (ascends_move source target amount [second, first]).bind ?_
  intro result
  cases result with
  | error e => exact hback (.error e)
  | ok bs =>
    refine (ascends_trace bs.1 .debit (-amount) [second, first]).bind fun _ => ?_
    exact (ascends_trace bs.2 .credit amount [second, first]).bind fun _ => hback (.ok bs)

/-- Every operation on accounts takes its locks in ascending order, and gives them all back. -/
theorem Op.ascends_program (op : Op) : op.program.Ascends [] [] := by
  cases op with
  | balance user => exact (ascends_ask _ []).map _
  | credit user amount => exact (ascends_credit (by simp) amount).map _
  | debit user amount => exact (ascends_debit (by simp) amount).map _
  | transfer source target amount => exact (ascends_transfer source target amount).map _

end Account

/-! ## Recorded operations -/

namespace Records

open Program

/-- Opening a record takes no locks. -/
theorem ascends_openRecord (r : Request) (held : List UserId) : (openRecord r).Ascends held held := by
  unfold openRecord
  cases r.validate with
  | error e => rfl
  | ok _ => exact (ascends_clock held).bind fun now => ascends_ask _ held

/-- Closing a record takes no locks. -/
theorem ascends_close (move : Instant → Except Error Transaction) (held : List UserId) :
    (close move).Ascends held held := by
  unfold close
  refine (ascends_clock held).bind ?_
  intro now
  cases move now with
  | error e => rfl
  | ok next =>
    refine (ascends_ask _ held).bind ?_
    intro reply
    cases reply with
    | error e => rfl
    | ok _ => rfl

end Records

namespace Transfer

open Program

/-- Settling a record takes no locks. -/
theorem ascends_settle (t : Transaction) (held : List UserId) : (settle t).Ascends held held := by
  unfold settle
  refine (Records.ascends_close _ held).bind ?_
  intro result
  cases result with
  | error e => rfl
  | ok t => exact (ascends_note _ held).bind fun _ => rfl

/-- Giving up a record takes no locks. -/
theorem ascends_giveUp (t : Transaction) (cause : Error) (held : List UserId) :
    (giveUp t cause).Ascends held held := by
  unfold giveUp
  refine (Records.ascends_close _ held).bind ?_
  intro result
  cases result with
  | error e => rfl
  | ok t => rfl

/-- Finishing a record takes no locks, whatever came out. -/
theorem ascends_finish {α : Type} (t : Transaction) (result : Except Error α) (held : List UserId) :
    (finish t result).Ascends held held := by
  cases result with
  | ok a => exact ascends_settle t held
  | error e => exact ascends_giveUp t e held

/-- Undoing the debit of a transfer takes one lock, when no other is held. -/
theorem ascends_compensate (t : Transaction) (source : UserId) (amount : Cents) (cause : Error) :
    (compensate t source amount cause).Ascends [] [] := by
  unfold compensate
  refine (Account.ascends_credit (by simp) amount).bind ?_
  intro result
  cases result with
  | ok b => exact ascends_giveUp t cause []
  | error e => exact ascends_giveUp t _ []

/-- A recorded transfer holds the lock of one account at a time: it has given the source back before it asks for the
target, and the target before it asks for the source again. -/
theorem ascends_applyTransfer (source target : UserId) (amount : Cents) :
    (applyTransfer source target amount).Ascends [] [] := by
  unfold applyTransfer
  split
  · rfl
  refine (Records.ascends_openRecord _ []).bind ?_
  intro result
  cases result with
  | error e => rfl
  | ok t =>
    refine (Account.ascends_debit (by simp) amount).bind ?_
    intro result
    cases result with
    | error e => exact ascends_giveUp t e []
    | ok b =>
      refine (Account.ascends_credit (by simp) amount).bind ?_
      intro result
      cases result with
      | ok b => exact ascends_settle t []
      | error e => exact ascends_compensate t source amount e

/-- Every job takes its locks in ascending order, and gives them all back. -/
theorem ascends_execute (j : Job) : (execute j).Ascends [] [] := by
  cases j with
  | credit user amount =>
    refine (Records.ascends_openRecord _ []).bind ?_
    intro result
    cases result with
    | error e => rfl
    | ok t => exact (Account.ascends_credit (by simp) amount).bind fun result => ascends_finish t result []
  | debit user amount =>
    refine (Records.ascends_openRecord _ []).bind ?_
    intro result
    cases result with
    | error e => rfl
    | ok t => exact (Account.ascends_debit (by simp) amount).bind fun result => ascends_finish t result []
  | transfer source target amount => exact ascends_applyTransfer source target amount

end Transfer

/-! ## Errands -/

/-- What a call is about: an operation on accounts, or a recorded one. -/
inductive Errand
  | op (op : Account.Op)
  | job (job : Job)
  deriving DecidableEq, Repr

namespace Errand

/-- What an errand gives back. -/
abbrev Result := Account.Op.Result ⊕ Transfer.Outcome

/-- The program of an errand. -/
def program : Errand → Program Result
  | op o => o.program.map .inl
  | job j => (Transfer.execute j).map .inr

/-- Every errand takes locks in ascending order, and ends without one. -/
theorem ascends_program (e : Errand) : e.program.Ascends [] [] := by
  cases e with
  | op o => exact o.ascends_program.map _
  | job j => exact (Transfer.ascends_execute j).map _

end Errand

end CentLedger
