import CentLedger.Proofs.LockOrder
import CentLedger.Proofs.Solitary

/-!
# Calls through a season

A circumstance is what the world is like when a call does one action. A `Season` says so of all the actions that calls
will do, one call after another: what the clock shows at each, which requests the store refuses, and whether the audit
takes a record. `Ledger.runThrough` runs a call through a season; it is `Ledger.runUnder` under some circumstances
(`runThrough_eq_runUnder`).

The main statement is `Ledger.Lent.runThrough`: a call that takes its locks in ascending order comes to its end when it
is alone, whatever the season.
-/

namespace CentLedger

/-- What the world is like during the actions of calls, which are numbered. -/
structure Season where
  clock : Nat → Instant
  /-- The words in which the store refuses a request, if it does. -/
  refusal : Nat → StoreRequest → Option String
  /-- The audit takes no record. -/
  mute : Nat → Bool

/-- The circumstance under which an action is done. -/
def Season.circumstance (w : Season) (n : Nat) : Action → Circumstance
  | .store request => ⟨w.clock n, w.refusal n request, w.mute n⟩
  | _ => ⟨w.clock n, none, w.mute n⟩

/-- The value of a call that came to its end. -/
def Progress.result? {α : Type} : Progress α → Option α
  | finished a => some a
  | _ => none

namespace Ledger

variable {α : Type}

/-- Run a call that is alone through a season, from what it did before; its first action has the number `since`. -/
def runThrough (w : Season) (since : Nat) (call : CallId) : Program α → Deeds → Ledger → Progress α × Ledger × Deeds
  | .done a, past, l => (.finished a, l, past)
  | .act action next, past, l =>
    match l.actUnder (w.circumstance (since + past.length) action) call false action with
    | (.reply r, l) => runThrough w since call (next r) (.of action r :: past) l
    | (.wait, l) => (.waiting (.act action next), l, past)
    | (.crash, l) => (.crashed, l.releaseAll call, past)

variable {w : Season} {since : Nat} {call : CallId} {l : Ledger} {past : Deeds}

/-- Through a season a call runs as it does under some circumstances. -/
theorem runThrough_eq_runUnder (p : Program α) (past : Deeds) (l : Ledger) :
    ∃ weather, l.runThrough w since call p past = l.runUnder weather call p past := by
  induction p generalizing past l with
  | done a => exact ⟨fun _ => l.circumstance, rfl⟩
  | act action next ih =>
    generalize hc : w.circumstance (since + past.length) action = c
    cases hact : l.actUnder c call false action with
    | mk attempt l' =>
      cases attempt with
      | reply r =>
        obtain ⟨weather, hrest⟩ := ih r (.of action r :: past) l'
        refine ⟨fun i => if i = past.length then c else weather i, ?_⟩
        simp only [runThrough, runUnder, hc, if_true, hact]
        rw [hrest]
        refine runUnder_congr (next r) _ l' fun i hi => ?_
        exact (if_neg (Nat.ne_of_gt hi)).symm
      | wait => exact ⟨fun _ => c, by simp only [runThrough, runUnder, hc, hact]⟩
      | crash => exact ⟨fun _ => c, by simp only [runThrough, runUnder, hc, hact]⟩

/-! ## Calls that are alone come to their end -/

/-- A ledger whose locks one call has, and nobody else waits for. -/
structure Lent (l : Ledger) (call : CallId) (held : List UserId) : Prop where
  working : l.Working
  keyed : l.locks.Keyed
  once : held.Nodup
  line : ∀ user, l.locks.queue user = if user ∈ held then [call] else []

variable {held left : List UserId} {c : Circumstance}

theorem lent_atRest (m : Memory) (trail : Trail) (now : Instant) (call : CallId) : (atRest m trail now).Lent call [] :=
  ⟨working_atRest m trail now, Locks.keyed_free, List.nodup_nil, Locks.queue_free⟩

/-- An ascending action of a call that is alone gets a reply. -/
theorem Lent.act (h : l.Lent call held) {action : Action} (hasc : action.Ascends held) (c : Circumstance) :
    ∃ reply l', l.actUnder c call false action = (.reply reply, l') ∧ l'.Lent call (action.heldAfter held) := by
  have hnew : ∀ user, action = .lock user → user ∉ held := by
    rintro user rfl hmem
    exact UInt64.lt_irrefl user (hasc user hmem)
  rcases actUnder_replies_or_waits h.working c call false action with ⟨reply, l', hact⟩ | ⟨-, user, rfl, hqueue, -⟩
  · obtain ⟨hworking, hlocks, -⟩ := actUnder_turned h.working hact
    refine ⟨reply, l', hact, hworking, ?_, ?_, fun user => ?_⟩
    · rw [hlocks]
      cases action with
      | lock user => exact h.keyed.acquire user call
      | unlock user => exact h.keyed.release user
      | clock => exact h.keyed
      | store request => exact h.keyed
      | audit record => exact h.keyed
    · cases action with
      | lock user => exact List.nodup_cons.2 ⟨hnew user rfl, h.once⟩
      | unlock user => exact h.once.erase user
      | clock => exact h.once
      | store request => exact h.once
      | audit record => exact h.once
    · rw [hlocks]
      exact line_turned h.keyed h.once h.line hnew user
  · rw [h.line user, if_neg (hnew user rfl)] at hqueue
    cases hqueue

/-- A program that takes locks in ascending order comes to its end when it is alone. -/
theorem Lent.runThrough {p : Program α} (h : l.Lent call held) (hp : p.Ascends left held) (w : Season) (since : Nat)
    (past : Deeds) :
    ∃ a l' past', l.runThrough w since call p past = (.finished a, l', past') ∧ l'.Lent call left := by
  induction p generalizing l past held with
  | done a =>
    obtain rfl : held = left := hp
    exact ⟨a, l, past, rfl, h⟩
  | act action next ih =>
    obtain ⟨reply, l', hact, h'⟩ := h.act hp.1 (w.circumstance (since + past.length) action)
    obtain ⟨a, l'', past'', hrun, hleft⟩ := ih reply h' (hp.2 reply) (.of action reply :: past)
    refine ⟨a, l'', past'', ?_, hleft⟩
    simp only [Ledger.runThrough, hact]
    exact hrun

end Ledger

end CentLedger
