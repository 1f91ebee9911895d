import CentLedger.Proofs.LockOrder
import CentLedger.Proofs.Traffic

/-!
# Calls never wait for each other in a circle

Any number of errands run at once. Locks are waited for in line, and a call that holds some waits only for one above
them, so along a chain of waits the account that is waited for rises (`Climbing.rises`), and no chain closes. The call
at the top of a chain can move. As programs are finite trees, all calls can always be brought to their ends.

Nothing of this depends on what the store answers: before each move anything may have become of the rows
(`Traffic.onRows`), and any request may be refused. The main statement is `never_stuck`.
-/

namespace CentLedger

namespace Ledger

open Chronicle

/-- The locks agree with the chronicle after an action that takes none the call holds and gives back only such. -/
theorem actUnder_locksAgree {c : Circumstance} {l l' : Ledger} {call : CallId} {granted : Bool} {h : Chronicle}
    (hw : l.Working) (hl : LocksAgree l.locks h) {action : Action} {reply : action.Reply}
    (htakes : ∀ user, action = .lock user → user ∉ (h.deeds call).held)
    (hgives : ∀ user, action = .unlock user → user ∈ (h.deeds call).held)
    (hgranted : granted = true → ∀ user, action = .lock user → l.locks.holder? user = some call)
    (hact : l.actUnder c call granted action = (.reply reply, l')) :
    LocksAgree l'.locks ((call, .of action reply) :: h) := by
  obtain ⟨-, hlocks, -⟩ := actUnder_turned hw hact
  have hheld := Deeds.held_of action reply (h.deeds call)
  cases action with
  | lock user => exact (locksAgree_lock hl (htakes user rfl) (fun hg => hgranted hg user rfl) hact).1
  | unlock user =>
    rw [hlocks]
    exact hl.gave (hgives user rfl)
  | clock =>
    rw [hlocks]
    exact hl.congr (deeds_congr Deeds.held hheld)
  | store request =>
    rw [hlocks]
    exact hl.congr (deeds_congr Deeds.held hheld)
  | audit record =>
    rw [hlocks]
    exact hl.congr (deeds_congr Deeds.held hheld)

end Ledger

namespace Stage

variable {α : Type}

/-- A stage that a call may be at next, when it got the reply to its action. -/
def Follows (after before : Stage α) : Prop :=
  ∃ action next reply, after = .ready (next reply) ∧
    (before = .ready (.act action next) ∨ before = .inLine (.act action next))

/-- Programs are finite trees, so no call goes on from reply to reply forever. -/
theorem wellFounded_follows : WellFounded (Follows (α := α)) := by
  have hready : ∀ p : Program α, Acc Follows (.ready p) := by
    intro p
    induction p with
    | done a =>
      refine ⟨_, ?_⟩
      rintro _ ⟨action, next, reply, -, h | h⟩ <;> nomatch h
    | act action next ih =>
      refine ⟨_, ?_⟩
      rintro _ ⟨action', next', reply, rfl, h | h⟩
      · cases h
        exact ih reply
      · cases h
  refine ⟨fun before => ⟨_, ?_⟩⟩
  rintro _ ⟨action, next, reply, rfl, -⟩
  exact hready (next reply)

/-- When one of several calls goes on, the multiset of their stages gets smaller. -/
theorem cutExpand_set {stages : List (Stage α)} {call : CallId} {before after : Stage α}
    (hbefore : stages[call]? = some before) (hfollows : Follows after before) :
    Relation.CutExpand Follows (stages.set call after : Multiset (Stage α)) (stages : Multiset (Stage α)) := by
  obtain ⟨hlt, rfl⟩ := List.getElem?_eq_some_iff.1 hbefore
  refine ⟨{after}, stages[call], fun a ha => Multiset.mem_singleton.1 ha ▸ hfollows, ?_⟩
  have hset : (stages.set call after).Perm (after :: stages.eraseIdx call) := List.set_perm_cons_eraseIdx hlt after
  have herase : (stages[call] :: stages.eraseIdx call).Perm stages := List.getElem_cons_eraseIdx_perm hlt
  calc (↑(stages.set call after) + {stages[call]} : Multiset (Stage α))
      = ↑(after :: stages.eraseIdx call) + {stages[call]} := by rw [Multiset.coe_eq_coe.2 hset]
    _ = ↑(stages[call] :: stages.eraseIdx call) + {after} := by
      rw [← Multiset.cons_coe, ← Multiset.cons_coe, ← Multiset.singleton_add, ← Multiset.singleton_add]
      abel
    _ = ↑stages + {after} := by rw [Multiset.coe_eq_coe.2 herase]

end Stage

namespace Traffic

variable {α : Type}

/-- The same calls over other rows. -/
def onRows (s : Traffic α) (m : Memory) : Traffic α :=
  { s with ledger := { s.ledger with store := ⟨m, .none⟩ } }

/-- Do moves, one after another, each over the rows that it finds. -/
def runOnRows (s : Traffic α) (moves : List (Memory × Move)) : Traffic α :=
  moves.foldl (fun s mv => (s.onRows mv.1).step mv.2) s

/-- The next action of a call, which it is ready to do or stands in line for, and how it goes on from the reply. -/
def Faces (s : Traffic α) (call : CallId) (action : Action) (next : action.Reply → Program α) : Prop :=
  s.stages[call]? = some (.ready (.act action next)) ∨ s.stages[call]? = some (.inLine (.act action next))

/-- The next action of a call is to take the lock of an account. -/
def Wants (s : Traffic α) (call : CallId) (user : UserId) : Prop :=
  ∃ next, s.Faces call (.lock user) next

/-- A call wants a lock that another call has. -/
def WaitsFor (s : Traffic α) (call other : CallId) : Prop :=
  call ≠ other ∧ ∃ user, s.Wants call user ∧ s.ledger.locks.holder? user = some other

/-- A call can do its next action and go on from the reply, whatever rows it finds and under every circumstance. -/
def CanMove (s : Traffic α) (call : CallId) : Prop :=
  ∀ m c, ∃ action next reply, s.Faces call action next ∧
    ((s.onRows m).step ⟨call, c⟩).stages = s.stages.set call (.ready (next reply)) ∧
    ((s.onRows m).step ⟨call, c⟩).chronicle = (call, .of action reply) :: s.chronicle

/-- The calls of some traffic do not get stuck. -/
structure NeverStuck (s : Traffic α) : Prop where
  /-- There are no calls each of which waits for another of them. -/
  acyclic : ∀ calls : Set CallId, calls.Nonempty → ∃ call ∈ calls, ∀ other ∈ calls, ¬s.WaitsFor call other
  /-- As long as a call has not ended, some call that has not ended can move. -/
  moves : ∀ call < s.stages.length, s.result? call = none →
    ∃ other < s.stages.length, s.result? other = none ∧ s.CanMove other
  /-- All calls can be brought to their ends. -/
  ends : ∃ moves, (s.runOnRows moves).Finished

/-! ## The invariant -/

open Chronicle

/-- What calls that ascend keep over any rows: the queues of the locks are in order, and each call goes on to take
locks above those that it holds. -/
structure Climbing (s : Traffic α) : Prop where
  working : s.ledger.Working
  locks : LocksAgree s.ledger.locks s.chronicle
  order : InOrder s.ledger.locks s.ledger.woken s.stages s.chronicle
  ascends : ∀ (call : CallId) (p : Program α), s.stages[call]? = some (.ready p) ∨ s.stages[call]? = some (.inLine p) →
    p.Ascends [] (s.chronicle.deeds call).held
  whole : ∀ call : CallId, s.stages[call]? ≠ some .crashed
  strangers : ∀ call : CallId, s.stages.length ≤ call → s.chronicle.deeds call = []

variable {s : Traffic α} {call other : CallId} {user : UserId}

/-- At the start no lock is held. -/
theorem Climbing.start (m : Memory) (trail : Trail) (now : Instant) {programs : List (Program α)}
    (hascends : ∀ p ∈ programs, p.Ascends [] []) : Climbing (start (.atRest m trail now) programs) where
  working := Ledger.working_atRest m trail now
  locks := ⟨Locks.keyed_free, fun _ => List.nodup_nil, fun _ _ hu => (nomatch hu)⟩
  order := .start programs
  ascends := by
    intro call p h
    rcases h with h | h
    · obtain ⟨q, hq, hp⟩ := stage_start h
      cases hp
      exact hascends p (List.mem_of_getElem? hq)
    · obtain ⟨q, -, hp⟩ := stage_start h
      cases hp
  whole := by
    intro call h
    obtain ⟨q, -, hp⟩ := stage_start h
    cases hp
  strangers _ _ := rfl

/-- No lock changes with the rows. -/
theorem Climbing.onRows (hc : Climbing s) (m : Memory) : Climbing (s.onRows m) :=
  ⟨⟨rfl, hc.working.gate⟩, hc.locks, hc.order, hc.ascends, hc.whole, hc.strangers⟩

/-- A call got a reply to its action. -/
theorem Climbing.replied (hc : Climbing s) {action : Action} {next : action.Reply → Program α} {reply : action.Reply}
    {l' : Ledger} (hst : s.Faces call action next) (hworking : l'.Working)
    (hlocks : LocksAgree l'.locks ((call, .of action reply) :: s.chronicle))
    (horder : InOrder l'.locks l'.woken (s.stages.set call (.ready (next reply)))
      ((call, .of action reply) :: s.chronicle)) :
    Climbing ⟨l', s.stages.set call (.ready (next reply)), (call, .of action reply) :: s.chronicle⟩ := by
  obtain ⟨st, hst'⟩ : ∃ st, s.stages[call]? = some st := by
    rcases hst with hst | hst
    · exact ⟨_, hst⟩
    · exact ⟨_, hst⟩
  have hnext : (next reply).Ascends [] (Deeds.held (.of action reply :: s.chronicle.deeds call)) := by
    rw [Deeds.held_of]
    exact (hc.ascends call _ hst).2 reply
  exact ⟨hworking, hlocks, horder,
    forall_replied (P := fun _ p past => p.Ascends [] (Deeds.held past)) hst' hc.ascends hnext,
    whole_set hst' hc.whole (by simp), strangers_set hst' hc.strangers _⟩

/-- A call does not ask for a lock that it holds. -/
theorem Climbing.not_held (hc : Climbing s) {next : Unit → Program α} (hst : s.Faces call (.lock user) next) :
    user ∉ (s.chronicle.deeds call).held :=
  fun hmem => UInt64.lt_irrefl user ((hc.ascends call _ hst).1 user hmem)

/-- A call that is not in line does an action, or lines up for a lock. -/
theorem Climbing.attempt (hc : Climbing s) (c : Circumstance) {action : Action} {next : action.Reply → Program α}
    (hst : s.stages[call]? = some (.ready (.act action next))) : Climbing (s.attempt c call false action next) := by
  have hgives : ∀ user, action = .unlock user → user ∈ (s.chronicle.deeds call).held := by
    rintro user rfl
    exact (hc.ascends call _ (Or.inl hst)).1
  rcases Ledger.actUnder_replies_or_waits hc.working c call false action with
    ⟨reply, l', hact⟩ | ⟨-, user, rfl, hbusy, hact⟩
  · have htakes : ∀ user, action = .lock user → user ∉ (s.chronicle.deeds call).held := by
      rintro user rfl
      exact hc.not_held (Or.inl hst)
    have hlocks := Ledger.actUnder_locksAgree hc.working hc.locks htakes hgives (fun h => by nomatch h) hact
    simp only [Traffic.attempt, hact]
    exact hc.replied (Or.inl hst) (Ledger.actUnder_turned hc.working hact).1 hlocks
      (hc.order.replied hc.working hc.locks hst hgives hact (next reply))
  · have hnonempty : s.ledger.locks.queue user ≠ [] := by
      rw [← List.isEmpty_eq_false_iff]
      exact hbusy
    simp only [Traffic.attempt, hact]
    refine ⟨⟨hc.working.faultless, hc.working.gate⟩, hc.locks.linedUp hnonempty,
      hc.order.linedUp hc.locks.keyed hst (hc.not_held (Or.inl hst)) hnonempty, ?_, whole_set hst hc.whole (by simp), ?_⟩
    · exact forall_linedUp (P := fun _ p past => p.Ascends [] (Deeds.held past)) hst hc.ascends
    · intro other hlen
      rw [List.length_set] at hlen
      exact hc.strangers other hlen

/-- A call to which the lock was handed over takes it. -/
theorem Climbing.proceed (hc : Climbing s) (c : Circumstance) {action : Action} {next : action.Reply → Program α}
    (hst : s.stages[call]? = some (.inLine (.act action next))) (hwoken : call ∈ s.ledger.woken) :
    Climbing ({ s with ledger := { s.ledger with
      woken := s.ledger.woken.filter (· ≠ call) } }.attempt c call true action next) := by
  obtain ⟨user, next', hst', hholder⟩ := hc.order.handed call hwoken
  cases hst.symm.trans hst'
  have hlocks := hc.locks.granted hholder (hc.not_held (Or.inr hst))
  simp only [Traffic.attempt, Ledger.actUnder_granted]
  exact hc.replied (Or.inr hst) ⟨hc.working.faultless, hc.working.gate⟩ hlocks (hc.order.granted hst (next' ()))

/-- Every move keeps the invariant. -/
theorem Climbing.step (hc : Climbing s) (mv : Move) : Climbing (s.step mv) := by
  unfold Traffic.step
  split
  · rename_i action next hst
    exact hc.attempt mv.circumstance hst
  · rename_i action next hst
    split
    · rename_i hwoken
      exact hc.proceed mv.circumstance hst hwoken
    · exact hc
  · exact hc

/-- Every run over any rows keeps the invariant. -/
theorem Climbing.run (hc : Climbing s) (moves : List (Memory × Move)) : Climbing (s.runOnRows moves) := by
  induction moves generalizing s with
  | nil => exact hc
  | cons mv moves ih => exact ih ((hc.onRows mv.1).step mv.2)

/-! ## Who can move -/

/-- A call that faces an action is there and has not ended. -/
theorem Faces.unfinished {action : Action} {next : action.Reply → Program α} (h : s.Faces call action next) :
    call < s.stages.length ∧ s.result? call = none := by
  rcases h with h | h
  · exact ⟨(List.getElem?_eq_some_iff.1 h).1, by simp only [result?, h]⟩
  · exact ⟨(List.getElem?_eq_some_iff.1 h).1, by simp only [result?, h]⟩

/-- A call wants one lock at a time. -/
theorem Wants.unique {user' : UserId} (h : s.Wants call user) (h' : s.Wants call user') : user = user' := by
  obtain ⟨next, h⟩ := h
  obtain ⟨next', h'⟩ := h'
  rcases h with h | h <;> rcases h' with h' | h' <;> cases h.symm.trans h' <;> rfl

/-- A call that is not in line, and asks for no lock that others have, can move. -/
theorem Climbing.canMove_ready (hc : Climbing s) {action : Action} {next : action.Reply → Program α}
    (hst : s.stages[call]? = some (.ready (.act action next)))
    (hfree : ∀ user, action = .lock user → s.ledger.locks.queue user = []) : s.CanMove call := by
  intro m c
  have hst' : (s.onRows m).stages[call]? = some (.ready (.act action next)) := hst
  rcases Ledger.actUnder_replies_or_waits (hc.onRows m).working c call false action with
    ⟨reply, l', hact⟩ | ⟨-, user, haction, hbusy, -⟩
  · refine ⟨action, next, reply, Or.inl hst, ?_⟩
    simp only [Traffic.step, hst', Traffic.attempt, hact]
    exact ⟨rfl, rfl⟩
  · have hempty : (s.onRows m).ledger.locks.queue user = [] := hfree user haction
    rw [hempty] at hbusy
    cases hbusy

/-- A call to which a lock was handed over can move. -/
theorem Climbing.canMove_woken (hc : Climbing s) (hwoken : call ∈ s.ledger.woken) : s.CanMove call := by
  intro m c
  obtain ⟨user, next, hst, -⟩ := hc.order.handed call hwoken
  have hst' : (s.onRows m).stages[call]? = some (.inLine (.act (.lock user) next)) := hst
  have hwoken' : call ∈ (s.onRows m).ledger.woken := hwoken
  refine ⟨.lock user, next, (), Or.inr hst, ?_⟩
  simp only [Traffic.step, hst', if_pos hwoken', Traffic.attempt, Ledger.actUnder_granted]
  exact ⟨rfl, rfl⟩

/-- Who waits for another call cannot move. -/
theorem Climbing.not_canMove (hc : Climbing s) (h : s.WaitsFor call other) : ¬s.CanMove call := by
  obtain ⟨hne, user, ⟨next, hst⟩, hholder⟩ := h
  intro hcan
  obtain ⟨action, next', reply, -, -, hchronicle⟩ := hcan s.ledger.store.memory ⟨s.ledger.now, none, false⟩
  generalize s.ledger.store.memory = m at hchronicle
  have hbusy : ((s.onRows m).ledger.locks.queue user).isEmpty = false := by
    rw [List.isEmpty_eq_false_iff]
    exact List.ne_nil_of_mem (mem_queue_of_holder hholder)
  have hsame : ((s.onRows m).step ⟨call, ⟨s.ledger.now, none, false⟩⟩).chronicle = s.chronicle := by
    rcases hst with hst | hst
    · have hst' : (s.onRows m).stages[call]? = some (.ready (.act (.lock user) next)) := hst
      simp only [Traffic.step, hst', Traffic.attempt, Ledger.actUnder_lock, hbusy]
      rfl
    · have hst' : (s.onRows m).stages[call]? = some (.inLine (.act (.lock user) next)) := hst
      -- had the lock been handed over to the call, the call would have it, and not the other one
      have hasleep : call ∉ (s.onRows m).ledger.woken := by
        intro hwoken
        obtain ⟨user', next', hst'', hholder'⟩ := hc.order.handed call hwoken
        cases hst.symm.trans hst''
        exact hne (Option.some.inj (hholder'.symm.trans hholder))
      simp only [Traffic.step, hst', if_neg hasleep]
      rfl
  exact List.cons_ne_self _ _ (hchronicle.symm.trans hsame)

/-- Who has a lock can move, or wants a lock above it. -/
theorem Climbing.rises (hc : Climbing s) (hholder : s.ledger.locks.holder? user = some other) :
    s.CanMove other ∨ ∃ above, user < above ∧ s.Wants other above := by
  rcases hc.order.head user other hholder with hheld | hwoken
  · cases hst : s.stages[other]? with
    | none =>
      rw [hc.strangers other (List.getElem?_eq_none_iff.1 hst)] at hheld
      cases hheld
    | some st =>
      cases st with
      | ready p =>
        have hascends := hc.ascends other p (Or.inl hst)
        cases p with
        | done a =>
          -- a call that has ended holds no lock
          have hnone : (s.chronicle.deeds other).held = [] := hascends
          rw [hnone] at hheld
          cases hheld
        | act action next =>
          cases action with
          | lock above => exact Or.inr ⟨above, hascends.1 user hheld, next, Or.inl hst⟩
          | unlock _ => exact Or.inl (hc.canMove_ready hst fun _ h => nomatch h)
          | clock => exact Or.inl (hc.canMove_ready hst fun _ h => nomatch h)
          | store _ => exact Or.inl (hc.canMove_ready hst fun _ h => nomatch h)
          | audit _ => exact Or.inl (hc.canMove_ready hst fun _ h => nomatch h)
      | inLine p =>
        obtain ⟨above, next, rfl, -⟩ := hc.order.waiting other p hst
        exact Or.inr ⟨above, (hc.ascends other _ (Or.inr hst)).1 user hheld, next, Or.inr hst⟩
      | crashed => exact absurd hst (hc.whole other)
  · exact Or.inl (hc.canMove_woken hwoken)

/-- Accounts do not rise forever. -/
theorem wellFounded_above : WellFounded fun above user : UserId => user < above := by
  refine Subrelation.wf ?_ (measure fun user : UserId => UInt64.size - user.toNat).wf
  intro above user hlt
  have hbelow : user.toNat < above.toNat := UInt64.lt_iff_toNat_lt.1 hlt
  have hbound : above.toNat < UInt64.size := above.toNat_lt_size
  show UInt64.size - above.toNat < UInt64.size - user.toNat
  omega

/-- At the end of the chain of waits from a call is one that can move. -/
theorem Climbing.someone_moves (hc : Climbing s) (hwants : s.Wants call user) : ∃ other, s.CanMove other := by
  induction user using wellFounded_above.induction generalizing call with
  | _ user ih =>
    cases hq : s.ledger.locks.queue user with
    | nil =>
      obtain ⟨next, hst | hst⟩ := hwants
      · refine ⟨call, hc.canMove_ready hst ?_⟩
        rintro _ ⟨⟩
        exact hq
      · obtain ⟨user', next', hp, hmem⟩ := hc.order.waiting call _ hst
        cases hp
        rw [hq] at hmem
        cases hmem
    | cons other rest =>
      have hholder : s.ledger.locks.holder? user = some other := by rw [Locks.holder?, hq, List.head?_cons]
      rcases hc.rises hholder with hcan | ⟨above, hlt, habove⟩
      · exact ⟨other, hcan⟩
      · exact ih above hlt habove

/-- As long as a call has not ended, some call can move. -/
theorem Climbing.moves (hc : Climbing s) (hlt : call < s.stages.length) (hunfinished : s.result? call = none) :
    ∃ other, s.CanMove other := by
  cases hst : s.stages[call]? with
  | none => exact absurd hlt (Nat.not_lt_of_le (List.getElem?_eq_none_iff.1 hst))
  | some st =>
    cases st with
    | ready p =>
      cases p with
      | done a =>
        simp only [result?, hst] at hunfinished
        cases hunfinished
      | act action next =>
        cases action with
        | lock user => exact hc.someone_moves ⟨next, Or.inl hst⟩
        | unlock _ => exact ⟨call, hc.canMove_ready hst (by rintro user ⟨⟩)⟩
        | clock => exact ⟨call, hc.canMove_ready hst (by rintro user ⟨⟩)⟩
        | store _ => exact ⟨call, hc.canMove_ready hst (by rintro user ⟨⟩)⟩
        | audit _ => exact ⟨call, hc.canMove_ready hst (by rintro user ⟨⟩)⟩
    | inLine p =>
      obtain ⟨user, next, rfl, -⟩ := hc.order.waiting call p hst
      exact hc.someone_moves ⟨next, Or.inr hst⟩
    | crashed => exact absurd hst (hc.whole call)

/-- In every set of calls there is one that waits for none of them. -/
theorem Climbing.acyclic (hc : Climbing s) (calls : Set CallId) (hne : calls.Nonempty) :
    ∃ call ∈ calls, ∀ other ∈ calls, ¬s.WaitsFor call other := by
  by_contra hall
  push Not at hall
  -- the holder of a lock that a call of the set waits for waits itself, for a lock above it
  have hrises : ∀ user other, other ∈ calls → s.ledger.locks.holder? user = some other → False := by
    intro user
    induction user using wellFounded_above.induction with
    | _ user ih =>
      intro other hother hholder
      obtain ⟨third, hthird, hwaits⟩ := hall other hother
      rcases hc.rises hholder with hcan | ⟨above, hlt, habove⟩
      · exact hc.not_canMove hwaits hcan
      · obtain ⟨-, user', hwants, hholder'⟩ := hwaits
        cases habove.unique hwants
        exact ih above hlt third hthird hholder'
  obtain ⟨call, hcall⟩ := hne
  obtain ⟨other, hother, -, user, -, hholder⟩ := hall call hcall
  exact hrises user other hother hholder

/-! ## Coming to an end -/

/-- All calls can be brought to their ends: as long as one has not ended, some call can move, and what is left of its
program gets smaller. -/
theorem Climbing.can_end (hc : Climbing s) : ∃ moves, (s.runOnRows moves).Finished := by
  induction hstages : (s.stages : Multiset (Stage α)) using Stage.wellFounded_follows.cutExpand.induction
    generalizing s with
  | _ stages ih =>
    by_cases hdone : s.Finished
    · exact ⟨[], hdone⟩
    · obtain ⟨call, hlt, hunfinished⟩ : ∃ call < s.stages.length, s.result? call = none := by
        simpa [Finished] using hdone
      obtain ⟨other, hcan⟩ := hc.moves hlt hunfinished
      obtain ⟨action, next, reply, hst, hafter, -⟩ := hcan s.ledger.store.memory ⟨s.ledger.now, none, false⟩
      have hsmaller : Relation.CutExpand Stage.Follows
          (((s.onRows s.ledger.store.memory).step ⟨other, ⟨s.ledger.now, none, false⟩⟩).stages : Multiset (Stage α))
          stages := by
        rw [hafter, ← hstages]
        rcases hst with hst | hst
        · exact Stage.cutExpand_set hst ⟨action, next, reply, rfl, Or.inl rfl⟩
        · exact Stage.cutExpand_set hst ⟨action, next, reply, rfl, Or.inr rfl⟩
      obtain ⟨moves, hmoves⟩ := ih _ hsmaller ((hc.onRows _).step _) rfl
      exact ⟨(s.ledger.store.memory, ⟨other, ⟨s.ledger.now, none, false⟩⟩) :: moves, hmoves⟩

/-- Calls that keep the order of the locks do not get stuck. -/
theorem Climbing.neverStuck (hc : Climbing s) : NeverStuck s where
  acyclic := hc.acyclic
  moves call hlt hunfinished := by
    obtain ⟨other, hcan⟩ := hc.moves hlt hunfinished
    obtain ⟨_, _, _, hfaces, -⟩ := hcan s.ledger.store.memory ⟨s.ledger.now, none, false⟩
    exact ⟨other, hfaces.unfinished.1, hfaces.unfinished.2, hcan⟩
  ends := hc.can_end

/-- Calls that are about to do errands, over some rows. -/
def ofErrands (m : Memory) (trail : Trail) (now : Instant) (errands : List Errand) : Traffic Errand.Result :=
  start (.atRest m trail now) (errands.map Errand.program)

/-- Whatever errands run at once, however their steps interleave, and whatever rows they find and refusals they get,
they never get stuck. -/
theorem never_stuck (m : Memory) (trail : Trail) (now : Instant) (errands : List Errand)
    (moves : List (Memory × Move)) : NeverStuck ((ofErrands m trail now errands).runOnRows moves) := by
  refine Climbing.neverStuck (Climbing.run (Climbing.start m trail now ?_) moves)
  intro p hp
  obtain ⟨errand, -, rfl⟩ := List.mem_map.1 hp
  exact errand.ascends_program

end Traffic

end CentLedger
