import CentLedger.Operation.Transfer
import CentLedger.Proofs.Deeds

/-!
# What programs never do

Some statements are about one kind of action only. `Program.Avoids` says that a program never does an action of a kind,
whatever replies it gets. Such a program keeps every rule that is about that kind alone, and leaves alone what only such
actions change (`Program.Avoids.keeps`).
-/

namespace CentLedger

namespace Program

variable {α β : Type} {kind : Action → Prop}

/-- Whatever replies it gets, a program never does an action of a kind. -/
def Avoids (kind : Action → Prop) : Program α → Prop
  | .done _ => True
  | .act action next => ¬kind action ∧ ∀ reply, (next reply).Avoids kind

theorem Avoids.bind {p : Program α} {k : α → Program β} (hp : p.Avoids kind) (hk : ∀ a, (k a).Avoids kind) :
    (p >>= k).Avoids kind := by
  show (p.bind k).Avoids kind
  induction p with
  | done a => exact hk a
  | act action next ih => exact ⟨hp.1, fun reply => ih reply (hp.2 reply)⟩

/-- A program that does one action avoids all of another kind. -/
theorem avoids_act {action : Action} {value : action.Reply → α} (haction : ¬kind action) :
    (act action fun reply => done (value reply)).Avoids kind :=
  ⟨haction, fun _ => trivial⟩

/-- What holds of a call and is lost by actions of a kind alone still holds after a program that avoids them. -/
theorem Avoids.keeps {p : Program α} (hp : p.Avoids kind) {rule : Deeds → Action → Prop} {faulty : Bool}
    {holds : Deeds → Prop} (hrule : ∀ past action, ¬kind action → rule past action)
    (hholds : ∀ past action (reply : action.Reply), ¬kind action → holds past → holds (.of action reply :: past))
    {past : Deeds} (hpast : holds past) : p.Keeps rule faulty (fun _ past' => holds past') past := by
  induction p generalizing past with
  | done a => exact hpast
  | act action next ih =>
    exact ⟨hrule past action hp.1, fun reply _ => ih reply (hp.2 reply) (hholds past action reply hp.1 hpast)⟩

end Program

open Program

variable {kind : Action → Prop}

namespace Records

/-- A record is opened by a look at the clock and an insertion. -/
theorem avoids_openRecord (hclock : ¬kind .clock) (hinsert : ∀ t, ¬kind (.store (.insertTransaction t))) (r : Request) :
    (openRecord r).Avoids kind := by
  unfold openRecord
  split
  · trivial
  · exact (avoids_act hclock).bind fun _ => avoids_act (hinsert _)

/-- A record is closed by a look at the clock and an update. -/
theorem avoids_close (hclock : ¬kind .clock) (hupdate : ∀ t, ¬kind (.store (.updateTransaction t)))
    (move : Instant → Except Error Transaction) : (close move).Avoids kind := by
  refine (avoids_act hclock).bind fun now => ?_
  cases move now with
  | error e => trivial
  | ok next =>
    refine (avoids_act (hupdate next)).bind fun reply => ?_
    cases reply <;> trivial

end Records

/-- The traces of a balance are a snapshot and a record for the audit. -/
theorem Account.avoids_trace {b : Balance} {movement : Movement} {delta : Cents}
    (hfile : ¬kind (.store (.appendHistory b.snapshot)))
    (htell : ¬kind (.audit (.balance b.user movement delta b.amount))) : (trace b movement delta).Avoids kind :=
  (avoids_act hfile).bind fun _ => avoids_act htell

end CentLedger
