import CentLedger.Proofs.Circumstances

/-!
# Calls that run alone

`Ledger.runUnder` runs a call that is alone with the ledger, each action under a circumstance of its own, and keeps the
deeds of the call. Where the circumstances never change it is `Ledger.run` (`runUnder_steady`), and a run over a store
with faults is a run over one without them, under some circumstances (`run_mended`).

The main statement is `Ledger.runUnder_keeps`: a program that keeps to an orderly rule comes to its end, however the
store fails on the way, and rows and locks agree with what it did.
-/

namespace CentLedger

namespace Ledger

variable {α β : Type}

/-- Run a call that is alone, from what it did before; the circumstances are numbered by its actions. -/
def runUnder (weather : Nat → Circumstance) (call : CallId) : Program α → Deeds → Ledger → Progress α × Ledger × Deeds
  | .done a, past, l => (.finished a, l, past)
  | .act action next, past, l =>
    match l.actUnder (weather past.length) call false action with
    | (.reply r, l) => runUnder weather call (next r) (.of action r :: past) l
    | (.wait, l) => (.waiting (.act action next), l, past)
    | (.crash, l) => (.crashed, l.releaseAll call, past)

variable {weather : Nat → Circumstance} {call : CallId}

/-- Running one program after another. -/
theorem runUnder_bind {p : Program α} {k : α → Program β} {past past' : Deeds} {l l' : Ledger} {a : α}
    (h : l.runUnder weather call p past = (.finished a, l', past')) :
    l.runUnder weather call (p >>= k) past = l'.runUnder weather call (k a) past' := by
  show l.runUnder weather call (p.bind k) past = _
  induction p generalizing l past with
  | done b =>
    simp only [runUnder, Prod.mk.injEq, Progress.finished.injEq] at h
    obtain ⟨rfl, rfl, rfl⟩ := h
    rfl
  | act action next ih =>
    simp only [runUnder, Program.bind] at h ⊢
    split at h
    · exact ih _ h
    · cases h
    · cases h

/-! ## Steady circumstances -/

/-- The circumstances that a ledger is in, with a store that answers. -/
def circumstance (l : Ledger) : Circumstance :=
  ⟨l.now, none, l.trail.broken⟩

theorem actUnder_circumstance (l : Ledger) (call : CallId) (granted : Bool) (action : Action) :
    l.actUnder l.circumstance call granted action = l.act call granted action := by
  simp only [actUnder, circumstance]
  rfl

/-- No action changes the circumstances. -/
theorem circumstance_act (l : Ledger) (call : CallId) (granted : Bool) (action : Action) :
    (l.act call granted action).2.circumstance = l.circumstance := by
  cases action with
  | lock user =>
    cases granted with
    | true => rfl
    | false => rfl
  | unlock user => rfl
  | clock => rfl
  | store request =>
    simp only [act]
    split
    · rfl
    · split <;> rfl
  | audit record =>
    simp only [act, circumstance, Trail.record]
    split <;> rfl

/-- A call that is alone under steady circumstances runs as `Ledger.run` says. -/
theorem runUnder_steady (call : CallId) (p : Program α) (past : Deeds) (l : Ledger) :
    ((l.runUnder (fun _ => l.circumstance) call p past).1, (l.runUnder (fun _ => l.circumstance) call p past).2.1) =
      l.run call false p := by
  generalize hc : l.circumstance = c
  induction p generalizing l past with
  | done a => rfl
  | act action next ih =>
    have hact := circumstance_act l call false action
    rw [hc] at hact
    have hsame := actUnder_circumstance l call false action
    rw [hc] at hsame
    simp only [runUnder, run, hsame]
    cases hl : l.act call false action with
    | mk attempt l' =>
      rw [hl] at hact
      cases attempt with
      | reply r => exact ih r _ l' hact
      | wait => rfl
      | crash => rfl

/-! ## Faults of the store -/

/-- The run of a call depends only on circumstances that are still to come. -/
theorem runUnder_congr {weather' : Nat → Circumstance} (p : Program α) (past : Deeds) (l : Ledger)
    (h : ∀ i, past.length ≤ i → weather i = weather' i) :
    l.runUnder weather call p past = l.runUnder weather' call p past := by
  induction p generalizing past l with
  | done a => rfl
  | act action next ih =>
    simp only [runUnder, ← h past.length (Nat.le_refl _)]
    cases hl : l.actUnder (weather past.length) call false action with
    | mk attempt l' =>
      cases attempt with
      | reply r => exact ih r _ l' fun i hi => h i (Nat.le_of_succ_le hi)
      | wait => rfl
      | crash => rfl

/-- A ledger with a store that has no faults. -/
def mended (l : Ledger) : Ledger :=
  { l with store := ⟨l.store.memory, .none⟩ }

/-- What a store refuses, it refuses because it is not available. -/
theorem refusal_unavailable {f : Faults} {request : StoreRequest} {e : Error} (h : f.refusal? request = some e) :
    ∃ text, e = .storageUnavailable text := by
  cases request <;> simp only [Faults.refusal?, Option.ite_none_right_eq_some, Option.some.injEq] at h <;>
    exact ⟨_, h.2.symm⟩

/-- A store whose faults crash nobody does under its faults what one without faults does under some circumstance. -/
theorem act_mended (l : Ledger) (call : CallId) (action : Action) (hgate : l.gate.closed = false)
    (hcrash : l.store.faults.crashes = []) :
    (∃ c, l.mended.actUnder c call false action = ((l.act call false action).1, (l.act call false action).2.mended)) ∧
      (l.act call false action).2.gate.closed = false ∧ (l.act call false action).2.store.faults.crashes = [] := by
  have hsame : ∀ c : Circumstance, c = l.circumstance → l.mended.under c = l.mended := by
    rintro _ rfl
    rfl
  cases action with
  | store request =>
    have hnocrash : l.store.faults.crashes? request = false := by
      cases request <;> simp [Faults.crashes?, hcrash]
    simp only [act, hgate, Bool.false_and, Bool.false_eq_true, if_false, Store.perform, hnocrash]
    cases hr : l.store.faults.refusal? request with
    | some e =>
      obtain ⟨text, rfl⟩ := refusal_unavailable hr
      exact ⟨⟨⟨l.now, some text, l.trail.broken⟩, rfl⟩, hgate, hcrash⟩
    | none =>
      refine ⟨⟨l.circumstance, ?_⟩, hgate, ?_⟩
      · have hw : l.mended.Working := ⟨rfl, hgate⟩
        rw [actUnder_store hw rfl, hsame _ rfl]
        rfl
      · cases request <;> exact hcrash
  | lock user => exact ⟨⟨l.circumstance, rfl⟩, hgate, hcrash⟩
  | unlock user => exact ⟨⟨l.circumstance, rfl⟩, hgate, hcrash⟩
  | clock => exact ⟨⟨l.circumstance, rfl⟩, hgate, hcrash⟩
  | audit record => exact ⟨⟨l.circumstance, rfl⟩, hgate, hcrash⟩

/-- Whatever a store refuses because of its faults, a call that is alone runs as it does under some circumstances. -/
theorem run_mended (p : Program α) (past : Deeds) (l : Ledger) (hgate : l.gate.closed = false)
    (hcrash : l.store.faults.crashes = []) :
    ∃ weather, ((l.run call false p).1, (l.run call false p).2.mended) =
      ((l.mended.runUnder weather call p past).1, (l.mended.runUnder weather call p past).2.1) := by
  induction p generalizing l past with
  | done a => exact ⟨fun _ => l.circumstance, rfl⟩
  | act action next ih =>
    obtain ⟨⟨c, hact⟩, hgate', hcrash'⟩ := act_mended l call action hgate hcrash
    cases hl : l.act call false action with
    | mk attempt l' =>
      rw [hl] at hact hgate' hcrash'
      cases attempt with
      | reply r =>
        obtain ⟨weather, hrest⟩ := ih r (.of action r :: past) l' hgate' hcrash'
        refine ⟨fun i => if i = past.length then c else weather i, ?_⟩
        have hlater : ∀ i, (Deed.of action r :: past).length ≤ i →
            (if i = past.length then c else weather i) = weather i := by
          intro i hi
          exact if_neg (Nat.ne_of_gt hi)
        simp only [run, runUnder, hl, if_true, hact]
        rw [hrest, runUnder_congr (next r) _ l'.mended hlater]
      | wait =>
        refine ⟨fun _ => c, ?_⟩
        simp only [run, runUnder, hl, hact]
      | crash =>
        have hw : l.mended.Working := ⟨rfl, hgate⟩
        rcases actUnder_replies_or_waits hw c call false action with ⟨r, l'', h⟩ | ⟨-, user, -, -, h⟩
        · cases (Prod.mk.inj (hact.symm.trans h)).1
        · cases (Prod.mk.inj (hact.symm.trans h)).1

/-! ## Orderly programs -/

open Chronicle

/-- A ledger that serves one call alone, with the rows `m₀` at first: the call stands in line exactly where it holds the
lock. -/
structure Serves (m₀ : Memory) (call : CallId) (l : Ledger) (past : Deeds) : Prop where
  working : l.Working
  line : ∀ user, l.locks.queue user = if user ∈ past.held then [call] else []
  agrees : Agrees m₀ l.store.memory l.locks (alone call past)

variable {m₀ : Memory} {c : Circumstance} {faulty : Bool} {past : Deeds} {l : Ledger}

/-- A call alone that stands in line exactly where it holds the lock does so after every action, unless it asks for a
lock that it has. -/
theorem line_turned {held : List UserId} (hkeyed : l.locks.Keyed) (honce : held.Nodup)
    (hline : ∀ user, l.locks.queue user = if user ∈ held then [call] else []) {action : Action}
    (hnew : ∀ user, action = .lock user → user ∉ held) (user : UserId) :
    (l.turned call false action).1.queue user = if user ∈ action.heldAfter held then [call] else [] := by
  cases action with
  | lock u =>
    have hnot := hnew u rfl
    simp only [turned, Action.heldAfter, Bool.false_eq_true, if_false, Locks.queue_acquire hkeyed, hline user,
      List.mem_cons]
    by_cases hu : u = user
    · subst hu
      simp [hnot]
    · have hne : ¬user = u := fun e => hu e.symm
      simp [hu, hne]
  | unlock u =>
    simp only [turned, Action.heldAfter, Locks.queue_release hkeyed, hline user, honce.mem_erase_iff]
    by_cases hu : u = user
    · subst hu
      by_cases hmem : u ∈ held <;> simp [hmem]
    · have hne : ¬user = u := fun e => hu e.symm
      simp [hu, hne]
  | clock => exact hline user
  | store request => exact hline user
  | audit record => exact hline user

/-- After an action the call stands in line exactly where it holds the lock. -/
theorem Serves.line_act (hs : Serves m₀ call l past) {action : Action} {reply : action.Reply} {l' : Ledger}
    (horder : past.Orderly action) (hact : l.actUnder c call false action = (.reply reply, l')) (user : UserId) :
    l'.locks.queue user = if user ∈ Deeds.held (.of action reply :: past) then [call] else [] := by
  have honce : past.held.Nodup := by
    have := hs.agrees.locks.once call
    rwa [deeds_alone] at this
  rw [(actUnder_turned hs.working hact).2.1, Deeds.held_of]
  refine line_turned hs.agrees.locks.keyed honce hs.line ?_ user
  rintro u rfl hmem
  exact UInt64.lt_irrefl u (horder u hmem)

/-- An orderly action of a call alone never waits; its reply is one to reckon with. -/
theorem Serves.act (hs : Serves m₀ call l past) {action : Action} (horder : past.Orderly action)
    (hcalm : c.outage = none ∨ faulty = true) :
    ∃ reply l', l.actUnder c call false action = (.reply reply, l') ∧ past.Expects faulty action reply ∧
      Serves m₀ call l' (.of action reply :: past) := by
  rcases actUnder_replies_or_waits hs.working c call false action with
    ⟨reply, l', hact⟩ | ⟨-, user, rfl, hqueue, -⟩
  · have horder' : ((alone call past).deeds call).Orderly action := by rwa [deeds_alone]
    obtain ⟨hexpects, hworking, hagrees⟩ :=
      actUnder_agrees hs.working hs.agrees horder' hcalm (fun hg => by nomatch hg) hact
    rw [deeds_alone] at hexpects
    exact ⟨reply, l', hact, hexpects, hworking, hs.line_act horder hact, hagrees⟩
  · exfalso
    rw [hs.line user] at hqueue
    by_cases hmem : user ∈ past.held
    · exact UInt64.lt_irrefl user (horder user hmem)
    · rw [if_neg hmem] at hqueue
      cases hqueue

/-- A ledger with no call in progress. -/
structure Vacant (l : Ledger) : Prop where
  working : l.Working
  keyed : l.locks.Keyed
  free : ∀ user, l.locks.queue user = []
  sound : l.store.memory.Sound

theorem vacant_atRest {m : Memory} (hm : m.Sound) (trail : Trail) (now : Instant) : (atRest m trail now).Vacant :=
  ⟨working_atRest m trail now, Locks.keyed_free, Locks.queue_free, hm⟩

/-- A vacant ledger serves a call that has done nothing yet. -/
theorem Vacant.serves (hv : Vacant l) (call : CallId) : Serves l.store.memory call l [] where
  working := hv.working
  line := hv.free
  agrees := .start hv.sound hv.keyed

/-- The ledger is vacant again when the call has given all locks back. -/
theorem Serves.vacant (hs : Serves m₀ call l past) (hheld : past.held = []) : Vacant l where
  working := hs.working
  keyed := hs.agrees.locks.keyed
  free user := by
    rw [hs.line user, hheld]
    rfl
  sound := hs.agrees.sound

/-- The amounts on the accounts are those at first and the changes of the call. -/
theorem Serves.amounts (hs : Serves m₀ call l past) (user : UserId) :
    (l.store.memory.amountOf user).toInt = (m₀.amountOf user).toInt + past.net user := by
  rw [hs.agrees.amounts.amounts user, net_alone]

/-- A program that keeps to an orderly rule, alone with the ledger, comes to its end, and rows and locks agree with what
it did. -/
theorem runUnder_keeps {rule : Deeds → Action → Prop} {ends : α → Deeds → Prop}
    (hrule : ∀ past action, rule past action → past.Orderly action)
    (hcalm : ∀ i, (weather i).outage = none ∨ faulty = true) {p : Program α} (hs : Serves m₀ call l past)
    (hp : p.Keeps rule faulty ends past) :
    ∃ a l' past', l.runUnder weather call p past = (.finished a, l', past') ∧ ends a past' ∧
      Serves m₀ call l' past' ∧
      (Possible m₀ (fun _ => rule) faulty (alone call past) →
        Possible m₀ (fun _ => rule) faulty (alone call past')) := by
  induction p generalizing l past with
  | done a => exact ⟨a, l, past, rfl, hp, hs, id⟩
  | act action next ih =>
    obtain ⟨reply, l', hact, hexpects, hs'⟩ := hs.act (hrule past action hp.1) (hcalm past.length)
    obtain ⟨a, l'', past'', hrun, hends, hs'', hpossible⟩ := ih reply hs' (hp.2 reply hexpects)
    refine ⟨a, l'', past'', ?_, hends, hs'', ?_⟩
    · simp only [runUnder, hact]
      exact hrun
    · intro h
      have hself : (alone call past).deeds call = past := deeds_alone call past
      have hrule' : rule ((alone call past).deeds call) action := hself.symm ▸ hp.1
      have hexpects' : ((alone call past).deeds call).Expects faulty action reply := hself.symm ▸ hexpects
      exact hpossible (.cons reply h hs.agrees hrule' hexpects' hs'.agrees)

end Ledger

end CentLedger
