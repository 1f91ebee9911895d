import CentLedger.Operation.Program
import CentLedger.Proofs.Amounts

/-!
# What a call did

A call does one action after another and goes on from the replies. `Deed` is an action with what came of it, and `Deeds`
are those of one call, newest first. They say all that a call can know for itself: which locks it holds, what is on the
accounts it has locked, which changes it made to them, and how its record stands.

`Program.Keeps` says of a program that it does only what a rule allows, whatever replies it gets, and that it ends in a
certain way. A rule sees the deeds so far and the next action. `Orderly` is the rule that all operations keep: locks are
taken in ascending order, a balance is written only under its lock and after it was read, and only a pending record of
its own is closed.
-/

namespace CentLedger

/-- An action that a call did, and what came of it. -/
inductive Deed
  /-- It took the lock of an account. -/
  | took (user : UserId)
  /-- It gave the lock of an account back. -/
  | gave (user : UserId)
  /-- It looked at the clock. -/
  | looked (now : Instant)
  /-- It read a balance. -/
  | read (balance : Balance)
  /-- It wrote a balance. -/
  | wrote (balance : Balance)
  /-- It added a snapshot to the history. -/
  | filed (snapshot : Snapshot)
  /-- It added a transaction record. -/
  | opened (record : Transaction)
  /-- It replaced a transaction record. -/
  | closed (record : Transaction)
  /-- It looked at the history or at records. -/
  | queried
  /-- The store refused a request. -/
  | refused (request : StoreRequest) (error : Error)
  /-- It recorded for the audit. -/
  | noted (record : AuditRecord)
  /-- The audit refused a record. -/
  | unnoted (record : AuditRecord)

/-- The deed that an action with its reply amounts to. -/
def Deed.of : (action : Action) → action.Reply → Deed
  | .lock user, _ => .took user
  | .unlock user, _ => .gave user
  | .clock, now => .looked now
  | .audit record, .ok () => .noted record
  | .audit record, .error _ => .unnoted record
  | .store request, .error e => .refused request e
  | .store (.balance _), .ok b => .read b
  | .store (.saveBalance b), .ok () => .wrote b
  | .store (.appendHistory _), .ok s => .filed s
  | .store (.insertTransaction _), .ok t => .opened t
  | .store (.updateTransaction t), .ok () => .closed t
  | .store (.history _ _ _), .ok _ => .queried
  | .store (.transaction _), .ok _ => .queried
  | .store (.latest _), .ok _ => .queried

/-- The locks that a call holds after an action. -/
def Action.heldAfter (held : List UserId) : Action → List UserId
  | .lock user => user :: held
  | .unlock user => held.erase user
  | _ => held

/-- A change of an account by a signed amount. -/
structure Change where
  user : UserId
  delta : Int
  deriving DecidableEq, Repr

namespace Change

/-- What changes come to on the account of a user. -/
def total (user : UserId) : List Change → Int
  | [] => 0
  | c :: rest => (if c.user = user then c.delta else 0) + total user rest

/-- The total of two lists of changes is the sum of their totals. -/
theorem total_append (user : UserId) (cs ds : List Change) : total user (cs ++ ds) = total user cs + total user ds := by
  induction cs with
  | nil => simp [total]
  | cons c cs ih => simp only [List.cons_append, total, ih, Int.add_assoc]

end Change

/-- What a call has done, newest first. -/
abbrev Deeds := List Deed

namespace Deeds

/-- The accounts whose locks a call holds, the newest first. -/
def held : Deeds → List UserId
  | [] => []
  | .took user :: past => user :: held past
  | .gave user :: past => (held past).erase user
  | _ :: past => held past

/-- What is held after an action is what it makes of what was held before. -/
theorem held_of (action : Action) (reply : action.Reply) (past : Deeds) :
    held (.of action reply :: past) = action.heldAfter past.held := by
  cases action with
  | lock user => rfl
  | unlock user => rfl
  | clock => rfl
  | store request => cases request <;> cases reply <;> rfl
  | audit record => cases reply <;> rfl

/-- The amount that a call knows to be on an account: the one it last read or wrote there since it has the lock. -/
def known : Deeds → UserId → Option Cents
  | [], _ => none
  | .read b :: past, user => if b.user = user ∧ user ∈ held past then some b.amount else known past user
  | .wrote b :: past, user => if b.user = user then some b.amount else known past user
  | .gave u :: past, user => if u = user then none else known past user
  | _ :: past, user => known past user

/-- The change that a deed makes: what it writes less what the call knew to be there. -/
def changeOf (past : Deeds) : Deed → List Change
  | .wrote b => [⟨b.user, b.amount.toInt - ((past.known b.user).getD 0).toInt⟩]
  | _ => []

/-- The changes that a call made, oldest first. -/
def changes : Deeds → List Change
  | [] => []
  | d :: past => changes past ++ changeOf past d

/-- A deed that writes no balance adds no change. -/
theorem changes_quiet {past : Deeds} {d : Deed} (h : past.changeOf d = []) : changes (d :: past) = past.changes := by
  show past.changes ++ past.changeOf d = _
  rw [h, List.append_nil]

/-- What the changes of a call come to on the account of a user. -/
def net (past : Deeds) (user : UserId) : Int :=
  Change.total user past.changes

/-- The record that a call opened, as the call last saw it stored. -/
def record : Deeds → Option Transaction
  | [] => none
  | .opened t :: _ => some t
  | .closed t :: _ => some t
  | _ :: past => record past

/-- The replies that a call has to reckon with. Where the store may fail, any request may be refused; else a read gives
what the call knows, and a new snapshot or record is the given one under some identifier. -/
def Expects (faulty : Bool) (past : Deeds) : (action : Action) → action.Reply → Prop
  | .store _, .error e => faulty = true ∧ ∃ text, e = .storageUnavailable text
  | .store (.balance user), .ok b => b.user = user ∧ 0 ≤ b.amount.toInt ∧ ∀ a, past.known user = some a → b.amount = a
  | .store (.appendHistory s), .ok t => t = { s with id := t.id }
  | .store (.insertTransaction t), .ok s => s = { t with id := s.id }
  | _, _ => True

/-- The rule that all operations keep. -/
def Orderly (past : Deeds) : Action → Prop
  | .lock user => ∀ other ∈ past.held, other < user
  | .unlock user => user ∈ past.held
  | .store (.saveBalance b) => 0 ≤ b.amount.toInt ∧ (past.known b.user).isSome
  | .store (.insertTransaction _) => past.record = none
  | .store (.updateTransaction t) => ∃ s, past.record = some s ∧ s.id = t.id ∧ s.status = .pending
  | _ => True

/-- The call has given a lock back. -/
def released : Deeds → Bool
  | [] => false
  | .gave _ :: _ => true
  | _ :: past => released past

end Deeds

/-! ## Idle deeds -/

/-- A deed that changes no lock, balance or record, and tells nothing about them. -/
def Deed.Idle : Deed → Prop
  | looked _ => True
  | filed _ => True
  | queried => True
  | refused _ _ => True
  | noted _ => True
  | unnoted _ => True
  | _ => False

namespace Deeds

variable {d : Deed}

/-- An idle deed takes no lock and gives none back. -/
theorem held_idle (h : d.Idle) (past : Deeds) : held (d :: past) = past.held := by
  cases d <;> first | rfl | exact h.elim

/-- An idle deed tells nothing of a balance. -/
theorem known_idle (h : d.Idle) (past : Deeds) : known (d :: past) = past.known := by
  cases d <;> first | rfl | exact h.elim

/-- A balance that is read under its lock is known. -/
theorem known_read {b : Balance} {user : UserId} (hb : b.user = user) {past : Deeds} (hheld : user ∈ past.held) :
    known (.read b :: past) user = some b.amount :=
  if_pos ⟨hb, hheld⟩

/-- Reading one balance hides nothing that is known of another. -/
theorem known_read_other {b : Balance} {user other : UserId} (hb : b.user = other) (hne : user ≠ other) (past : Deeds) :
    known (.read b :: past) user = past.known user :=
  if_neg fun h => hne (h.1.symm.trans hb)

/-- An idle deed is no change of a balance. -/
theorem changeOf_idle (h : d.Idle) (past : Deeds) : past.changeOf d = [] := by
  cases d <;> first | rfl | exact h.elim

/-- An idle deed opens no record. -/
theorem record_idle (h : d.Idle) (past : Deeds) : record (d :: past) = past.record := by
  cases d <;> first | rfl | exact h.elim

/-- An idle deed gives no lock back. -/
theorem released_idle (h : d.Idle) (past : Deeds) : released (d :: past) = past.released := by
  cases d <;> first | rfl | exact h.elim

end Deeds

/-! ## Programs that keep to a rule -/

namespace Program

variable {α β : Type} {rule : Deeds → Action → Prop} {faulty : Bool} {past : Deeds}

/-- Whatever replies it gets, a program does only what a rule allows, and it ends with a value and deeds of a certain
kind. -/
def Keeps (rule : Deeds → Action → Prop) (faulty : Bool) (ends : α → Deeds → Prop) : Program α → Deeds → Prop
  | .done a, past => ends a past
  | .act action next, past =>
    rule past action ∧
      ∀ reply, past.Expects faulty action reply → Keeps rule faulty ends (next reply) (.of action reply :: past)

/-- One program after another keeps to a rule when the first does and ends in such a way that the second does. -/
theorem keeps_bind {ends : β → Deeds → Prop} (p : Program α) (k : α → Program β) :
    (p >>= k).Keeps rule faulty ends past ↔
      p.Keeps rule faulty (fun a past => (k a).Keeps rule faulty ends past) past := by
  show (p.bind k).Keeps rule faulty ends past ↔ _
  induction p generalizing past with
  | done a => exact Iff.rfl
  | act action next ih => exact and_congr_right fun _ => forall_congr' fun reply => imp_congr_right fun _ => ih reply

/-- The way in which a program ends may be weakened. -/
theorem Keeps.mono {ends ends' : α → Deeds → Prop} {p : Program α} (h : p.Keeps rule faulty ends past)
    (hle : ∀ a past, ends a past → ends' a past) : p.Keeps rule faulty ends' past := by
  induction p generalizing past with
  | done a => exact hle a past h
  | act action next ih => exact ⟨h.1, fun reply hr => ih reply (h.2 reply hr)⟩

/-- A program that keeps to a rule, followed by one that goes on from each of its ends. -/
theorem Keeps.bind {mid : α → Deeds → Prop} {ends : β → Deeds → Prop} {p : Program α} {k : α → Program β}
    (h : p.Keeps rule faulty mid past) (hk : ∀ a past, mid a past → (k a).Keeps rule faulty ends past) :
    (p >>= k).Keeps rule faulty ends past :=
  (keeps_bind p k).2 (h.mono hk)

/-- A program that maps its end. -/
theorem Keeps.map {mid : α → Deeds → Prop} {ends : β → Deeds → Prop} {p : Program α} {f : α → β}
    (h : p.Keeps rule faulty mid past) (hf : ∀ a past, mid a past → ends (f a) past) :
    (p.map f).Keeps rule faulty ends past :=
  Keeps.bind (k := fun a => done (f a)) h hf

section actions

variable {ends : α → Deeds → Prop}

/-- To keep a rule while locking is to obey it there, and to keep it with the lock held. -/
theorem keeps_lock {user : UserId} {k : Unit → Program α} :
    (lock user >>= k).Keeps rule faulty ends past ↔
      rule past (.lock user) ∧ (k ()).Keeps rule faulty ends (.took user :: past) :=
  and_congr_right fun _ => ⟨fun h => h () trivial, fun h _ _ => h⟩

/-- To keep a rule while unlocking is to obey it there, and to keep it with the lock given back. -/
theorem keeps_unlock {user : UserId} {k : Unit → Program α} :
    (unlock user >>= k).Keeps rule faulty ends past ↔
      rule past (.unlock user) ∧ (k ()).Keeps rule faulty ends (.gave user :: past) :=
  and_congr_right fun _ => ⟨fun h => h () trivial, fun h _ _ => h⟩

/-- To keep a rule at the clock is to obey it there, and to keep it at any time it may show. -/
theorem keeps_clock {k : Instant → Program α} :
    (clock >>= k).Keeps rule faulty ends past ↔
      rule past .clock ∧ ∀ now, (k now).Keeps rule faulty ends (.looked now :: past) :=
  and_congr_right fun _ => forall_congr' fun _ => ⟨fun h => h trivial, fun h _ => h⟩

/-- To keep a rule while asking the store is to obey it there, and to keep it after any answer that is to be expected.
-/
theorem keeps_ask {request : StoreRequest} {k : Except Error request.Answer → Program α} :
    (ask request >>= k).Keeps rule faulty ends past ↔
      rule past (.store request) ∧ ∀ reply, past.Expects faulty (.store request) reply →
        (k reply).Keeps rule faulty ends (.of (.store request) reply :: past) :=
  Iff.rfl

end actions

end Program

end CentLedger
