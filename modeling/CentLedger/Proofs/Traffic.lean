import CentLedger.Proofs.Circumstances

/-!
# Many calls at once

`Traffic` is a ledger with calls in progress, each at some stage of its program. A move lets one call do its next action
under some circumstance, so a list of moves is an interleaving of the atomic steps of all calls; a call that stands in
line for a lock does not move until the lock was handed over to it.

`Traffic.Good` is the invariant: what the calls did is a possible chronicle with which rows and locks agree, each call
goes on to keep its rule, and the queues of the locks hold exactly the calls that have them or stand in line. Every move
keeps it (`Good.step`), so every run does (`Good.run`).
-/

namespace CentLedger

/-- Where a call stands. -/
inductive Stage (α : Type)
  /-- It does the first action of what is left of its program when it moves, or it is done. -/
  | ready (rest : Program α)
  /-- It stands in line for the lock that the first action takes. -/
  | inLine (rest : Program α)
  /-- It ended in the middle of its program. -/
  | crashed

/-- A call does its next action under a circumstance. -/
structure Move where
  call : CallId
  circumstance : Circumstance

/-- A ledger with calls in progress, and what they did so far. -/
structure Traffic (α : Type) where
  ledger : Ledger
  stages : List (Stage α)
  chronicle : Chronicle

namespace Traffic

variable {α : Type}

/-- Calls that are about to begin their programs. -/
def start (l : Ledger) (programs : List (Program α)) : Traffic α :=
  ⟨l, programs.map .ready, []⟩

/-- A call does an action, and goes on from its reply. -/
def attempt (s : Traffic α) (c : Circumstance) (call : CallId) (granted : Bool) (action : Action)
    (next : action.Reply → Program α) : Traffic α :=
  match s.ledger.actUnder c call granted action with
  | (.reply r, l) => ⟨l, s.stages.set call (.ready (next r)), (call, .of action r) :: s.chronicle⟩
  | (.wait, l) => ⟨l, s.stages.set call (.inLine (.act action next)), s.chronicle⟩
  | (.crash, l) => ⟨l.releaseAll call, s.stages.set call .crashed, s.chronicle⟩

/-- Do a move; nothing happens where the call is done, crashed, or stands in line. -/
def step (s : Traffic α) (mv : Move) : Traffic α :=
  match s.stages[mv.call]? with
  | some (.ready (.act action next)) => s.attempt mv.circumstance mv.call false action next
  | some (.inLine (.act action next)) =>
    if mv.call ∈ s.ledger.woken then
      { s with ledger := { s.ledger with woken := s.ledger.woken.filter (· ≠ mv.call) } }.attempt mv.circumstance
        mv.call true action next
    else s
  | _ => s

/-- Do moves, one after another. -/
def run (s : Traffic α) (moves : List Move) : Traffic α :=
  moves.foldl step s

/-- Calls move in turn, at one time, and the store answers whatever they ask. -/
def turns (now : Instant) (calls : List CallId) : List Move :=
  calls.map fun call => ⟨call, ⟨now, none, false⟩⟩

theorem calm_turns (now : Instant) (calls : List CallId) : ∀ mv ∈ turns now calls, mv.circumstance.outage = none := by
  intro mv hmv
  obtain ⟨call, -, rfl⟩ := List.mem_map.1 hmv
  rfl

/-- What a call ended with. -/
def result? (s : Traffic α) (call : CallId) : Option α :=
  match s.stages[call]? with
  | some (.ready (.done a)) => some a
  | _ => none

/-- All calls have ended. -/
def Finished (s : Traffic α) : Prop :=
  ∀ call < s.stages.length, (s.result? call).isSome = true

/-! ## Queues -/

/-- The queues of the locks hold the calls that have them and, behind, those that stand in line; a lock is held by the
head of its queue, or was handed over to it. -/
structure InOrder (locks : Locks) (woken : List CallId) (stages : List (Stage α)) (h : Chronicle) : Prop where
  nodup : ∀ user, (locks.queue user).Nodup
  member : ∀ user call, call ∈ locks.queue user → user ∈ (h.deeds call).held ∨
    ∃ next, stages[call]? = some (.inLine (.act (.lock user) next))
  waiting : ∀ call p, stages[call]? = some (.inLine p) →
    ∃ user next, p = .act (.lock user) next ∧ call ∈ locks.queue user
  handed : ∀ call ∈ woken, ∃ user next, stages[call]? = some (.inLine (.act (.lock user) next)) ∧
    locks.holder? user = some call
  head : ∀ user call, locks.holder? user = some call → user ∈ (h.deeds call).held ∨ call ∈ woken

open Chronicle

variable {locks : Locks} {woken : List CallId} {stages : List (Stage α)} {h : Chronicle} {call : CallId} {user : UserId}

/-- The stage of a call after it moved, and of the others. -/
theorem stage_set {st : Stage α} (hst : stages[call]? = some st) (st' : Stage α) (c : CallId) :
    (stages.set call st')[c]? = if call = c then some st' else stages[c]? := by
  have hlt : call < stages.length := (List.getElem?_eq_some_iff.1 hst).1
  rw [List.getElem?_set]
  by_cases hc : call = c
  · subst hc
    simp [hlt]
  · simp [hc]

/-- A call that was not in line and moves on does not change who stands in line. -/
theorem inLine_set {p p' : Program α} (hst : stages[call]? = some (.ready p)) (c : CallId) (q : Program α) :
    (stages.set call (.ready p'))[c]? = some (.inLine q) ↔ stages[c]? = some (.inLine q) := by
  rw [stage_set hst]
  by_cases hc : call = c
  · subst hc
    simp [hst]
  · simp [hc]

/-- A call that moves does not crash, and no other call does. -/
theorem whole_set {st st' : Stage α} (hst : stages[call]? = some st) (hwhole : ∀ c : CallId, stages[c]? ≠ some .crashed)
    (hst' : st' ≠ .crashed) (c : CallId) : (stages.set call st')[c]? ≠ some .crashed := by
  rw [stage_set hst]
  by_cases hc : call = c
  · rw [if_pos hc]
    exact fun e => hst' (Option.some.inj e)
  · rw [if_neg hc]
    exact hwhole c

/-- Nobody does anything but the calls that are there. -/
theorem strangers_set {st st' : Stage α} (hst : stages[call]? = some st)
    (hstrangers : ∀ c : CallId, stages.length ≤ c → h.deeds c = []) (d : Deed) (c : CallId)
    (hlen : (stages.set call st').length ≤ c) : deeds c ((call, d) :: h) = [] := by
  rw [List.length_set] at hlen
  have hc : call ≠ c := by
    rintro rfl
    exact absurd (List.getElem?_eq_some_iff.1 hst).1 (Nat.not_lt_of_le hlen)
  rw [deeds_other hc]
  exact hstrangers c hlen

section programs

variable {P : CallId → Program α → Deeds → Prop}

/-- What holds of every call with what is left of its program and with its deeds goes on to hold when it does of the
call that got a reply. -/
theorem forall_replied {st : Stage α} {p' : Program α} {d : Deed} (hst : stages[call]? = some st)
    (hall : ∀ (c : CallId) (p : Program α), stages[c]? = some (.ready p) ∨ stages[c]? = some (.inLine p) →
      P c p (h.deeds c))
    (hnew : P call p' (d :: h.deeds call)) (c : CallId) (p : Program α)
    (hp : (stages.set call (.ready p'))[c]? = some (.ready p) ∨ (stages.set call (.ready p'))[c]? = some (.inLine p)) :
    P c p (deeds c ((call, d) :: h)) := by
  simp only [stage_set hst] at hp
  by_cases hc : call = c
  · subst hc
    simp only [if_true, Option.some.injEq, Stage.ready.injEq, reduceCtorEq, or_false] at hp
    subst hp
    rw [deeds_self]
    exact hnew
  · rw [if_neg hc] at hp
    rw [deeds_other hc]
    exact hall c p hp

theorem forall_linedUp {p' : Program α} (hst : stages[call]? = some (.ready p'))
    (hall : ∀ (c : CallId) (p : Program α), stages[c]? = some (.ready p) ∨ stages[c]? = some (.inLine p) →
      P c p (h.deeds c))
    (c : CallId) (p : Program α)
    (hp : (stages.set call (.inLine p'))[c]? = some (.ready p) ∨
      (stages.set call (.inLine p'))[c]? = some (.inLine p)) : P c p (h.deeds c) := by
  simp only [stage_set hst] at hp
  by_cases hc : call = c
  · subst hc
    simp only [if_true, Option.some.injEq, Stage.inLine.injEq, reduceCtorEq, false_or] at hp
    subst hp
    exact hall call p' (Or.inl hst)
  · rw [if_neg hc] at hp
    exact hall c p hp

end programs

/-- The holder of a lock is in its queue. -/
theorem mem_queue_of_holder {c : CallId} (hc : locks.holder? user = some c) : c ∈ locks.queue user :=
  List.mem_of_mem_head? hc

/-- At the start every call is ready to begin its program. -/
theorem stage_start {l : Ledger} {programs : List (Program α)} {st : Stage α}
    (h : (start l programs).stages[call]? = some st) : ∃ p, programs[call]? = some p ∧ st = .ready p := by
  rw [start, List.getElem?_map, Option.map_eq_some_iff] at h
  obtain ⟨p, hp, rfl⟩ := h
  exact ⟨p, hp, rfl⟩

/-- At the start nobody has a lock, and nobody stands in line. -/
theorem InOrder.start (programs : List (Program α)) : InOrder .free [] (programs.map .ready) [] := by
  refine ⟨fun _ => List.nodup_nil, fun _ _ hc => (nomatch hc), ?_, fun _ hc => (nomatch hc), fun _ _ hc => (nomatch hc)⟩
  intro c p hp
  rw [List.getElem?_map, Option.map_eq_some_iff] at hp
  obtain ⟨q, -, hq⟩ := hp
  cases hq

/-- A call does something that is about no lock. -/
theorem InOrder.other (ho : InOrder locks woken stages h) {p : Program α} (hst : stages[call]? = some (.ready p))
    {d : Deed} (hheld : Deeds.held (d :: h.deeds call) = (h.deeds call).held) (p' : Program α) :
    InOrder locks woken (stages.set call (.ready p')) ((call, d) :: h) := by
  have hheld' : ∀ c, (deeds c ((call, d) :: h)).held = (h.deeds c).held := deeds_congr Deeds.held hheld
  refine ⟨ho.nodup, ?_, ?_, ?_, ?_⟩
  · intro u c hc
    rw [hheld']
    exact (ho.member u c hc).imp_right fun ⟨next, hn⟩ => ⟨next, (inLine_set hst c _).2 hn⟩
  · intro c q hq
    exact ho.waiting c q ((inLine_set hst c q).1 hq)
  · intro c hc
    obtain ⟨u, next, hs, hholder⟩ := ho.handed c hc
    exact ⟨u, next, (inLine_set hst c _).2 hs, hholder⟩
  · intro u c hc
    rw [hheld']
    exact ho.head u c hc

/-- Nobody loses a lock when a call takes one. -/
theorem held_took {c : CallId} {u : UserId} (hu : u ∈ (h.deeds c).held) :
    u ∈ (deeds c ((call, .took user) :: h)).held := by
  by_cases hc : call = c
  · subst hc
    rw [deeds_self]
    exact List.mem_cons_of_mem _ hu
  · rw [deeds_other hc]
    exact hu

/-- A call takes a lock for which nobody stands in line. -/
theorem InOrder.took (ho : InOrder locks woken stages h) (hk : locks.Keyed) {p : Program α}
    (hst : stages[call]? = some (.ready p)) (hempty : locks.queue user = []) (p' : Program α) :
    InOrder (locks.acquire user call).2 woken (stages.set call (.ready p')) ((call, .took user) :: h) := by
  have hqueue : ∀ u, (locks.acquire user call).2.queue u = if user = u then [call] else locks.queue u := by
    intro u
    rw [Locks.queue_acquire hk]
    by_cases hu : user = u
    · rw [if_pos hu, if_pos hu, ← hu, hempty]
      rfl
    · rw [if_neg hu, if_neg hu]
  have hself : user ∈ (deeds call ((call, .took user) :: h)).held := by
    rw [deeds_self]
    exact List.mem_cons_self
  -- one queue is the call alone now, and the others are as they were: so each clause is split by the account
  refine ⟨?_, ?_, ?_, ?_, ?_⟩
  · intro u
    rw [hqueue]
    by_cases hu : user = u
    · rw [if_pos hu]
      exact List.nodup_singleton call
    · rw [if_neg hu]
      exact ho.nodup u
  · intro u c hc
    rw [hqueue] at hc
    by_cases hu : user = u
    · subst hu
      rw [if_pos rfl, List.mem_singleton] at hc
      exact Or.inl (hc ▸ hself)
    · rw [if_neg hu] at hc
      exact (ho.member u c hc).imp held_took fun ⟨next, hn⟩ => ⟨next, (inLine_set hst c _).2 hn⟩
  · intro c q hq
    obtain ⟨u, next, rfl, hmem⟩ := ho.waiting c q ((inLine_set hst c q).1 hq)
    refine ⟨u, next, rfl, ?_⟩
    have hu : user ≠ u := fun e => by rw [← e, hempty] at hmem; cases hmem
    rw [hqueue, if_neg hu]
    exact hmem
  · intro c hc
    obtain ⟨u, next, hs, hholder⟩ := ho.handed c hc
    refine ⟨u, next, (inLine_set hst c _).2 hs, ?_⟩
    have hu : user ≠ u := fun e => by rw [← e, Locks.holder?, hempty] at hholder; cases hholder
    rw [Locks.holder?, hqueue, if_neg hu]
    exact hholder
  · intro u c hc
    rw [Locks.holder?, hqueue] at hc
    by_cases hu : user = u
    · subst hu
      rw [if_pos rfl] at hc
      cases hc
      exact Or.inl hself
    · rw [if_neg hu] at hc
      exact (ho.head u c hc).imp_left held_took

/-- A call takes a lock that was handed over to it. -/
theorem InOrder.granted (ho : InOrder locks woken stages h) {next : Unit → Program α}
    (hst : stages[call]? = some (.inLine (.act (.lock user) next))) (p' : Program α) :
    InOrder locks (woken.filter (· ≠ call)) (stages.set call (.ready p')) ((call, .took user) :: h) := by
  have hself : user ∈ (deeds call ((call, .took user) :: h)).held := by
    rw [deeds_self]
    exact List.mem_cons_self
  -- the call stood in line for this lock alone
  have honly : ∀ u, call ∈ locks.queue u → u ∈ (deeds call ((call, .took user) :: h)).held := by
    intro u hu
    rcases ho.member u call hu with hheld | ⟨next', hn⟩
    · exact held_took hheld
    · cases hst.symm.trans hn
      exact hself
  have hstay : ∀ (c : CallId) (st : Stage α), call ≠ c →
      ((stages.set call (.ready p'))[c]? = some st ↔ stages[c]? = some st) := by
    intro c st hc
    rw [stage_set hst, if_neg hc]
  refine ⟨ho.nodup, ?_, ?_, ?_, ?_⟩
  · intro u c hc
    by_cases hcall : call = c
    · subst hcall
      exact Or.inl (honly u hc)
    · exact (ho.member u c hc).imp held_took fun ⟨next, hn⟩ => ⟨next, (hstay c _ hcall).2 hn⟩
  · intro c q hq
    by_cases hcall : call = c
    · subst hcall
      rw [stage_set hst, if_pos rfl] at hq
      cases hq
    · exact ho.waiting c q ((hstay c _ hcall).1 hq)
  · intro c hc
    obtain ⟨hmem, hne⟩ := List.mem_filter.1 hc
    have hcall : call ≠ c := fun e => of_decide_eq_true hne e.symm
    obtain ⟨u, next, hs, hholder⟩ := ho.handed c hmem
    exact ⟨u, next, (hstay c _ hcall).2 hs, hholder⟩
  · intro u c hc
    by_cases hcall : call = c
    · subst hcall
      exact Or.inl (honly u (mem_queue_of_holder hc))
    · refine (ho.head u c hc).imp held_took fun hmem => ?_
      exact List.mem_filter.2 ⟨hmem, decide_eq_true fun e => hcall e.symm⟩

/-- Nobody loses another lock when a call gives one back. -/
theorem held_gave {c : CallId} {u : UserId} (hne : user ≠ u) (hu : u ∈ (h.deeds c).held) :
    u ∈ (deeds c ((call, .gave user) :: h)).held := by
  by_cases hc : call = c
  · subst hc
    rw [deeds_self]
    exact (List.mem_erase_of_ne fun e => hne e.symm).2 hu
  · rw [deeds_other hc]
    exact hu

/-- Behind a call that holds a lock, each once, are calls that stand in line for it. -/
theorem InOrder.behind (ho : InOrder locks woken stages h) (hl : LocksAgree locks h)
    (hheld : user ∈ (h.deeds call).held) :
    ∃ rest, locks.queue user = call :: rest ∧ rest.Nodup ∧
      ∀ c ∈ rest, ∃ next, stages[c]? = some (.inLine (.act (.lock user) next)) := by
  obtain ⟨rest, hrest⟩ : ∃ rest, locks.queue user = call :: rest := by
    have hholder := hl.holder call user hheld
    rw [Locks.holder?] at hholder
    cases hq : locks.queue user with
    | nil => rw [hq] at hholder; cases hholder
    | cons c rest =>
      rw [hq] at hholder
      cases hholder
      exact ⟨rest, rfl⟩
  have hnodup : call ∉ rest ∧ rest.Nodup := by
    have := ho.nodup user
    rwa [hrest, List.nodup_cons] at this
  refine ⟨rest, hrest, hnodup.2, ?_⟩
  intro c hc
  rcases ho.member user c (by rw [hrest]; exact List.mem_cons_of_mem _ hc) with hcheld | hline
  · have hsame : c = call := hl.unique hcheld hheld
    exact absurd (hsame ▸ hc) hnodup.1
  · exact hline

/-- A call gives a lock back; who stood behind it has the lock handed over. -/
theorem InOrder.gave (ho : InOrder locks woken stages h) (hl : LocksAgree locks h) {p : Program α}
    (hst : stages[call]? = some (.ready p)) (hheld : user ∈ (h.deeds call).held) (p' : Program α) :
    InOrder (locks.release user).2 (woken ++ (locks.release user).1.toList) (stages.set call (.ready p'))
      ((call, .gave user) :: h) := by
  obtain ⟨rest, hrest, hnodup, hbehind⟩ := ho.behind hl hheld
  have hqueue : ∀ u, (locks.release user).2.queue u = if user = u then rest else locks.queue u := by
    intro u
    rw [Locks.queue_release hl.keyed]
    by_cases hu : user = u
    · rw [if_pos hu, if_pos hu, ← hu, hrest]
      rfl
    · rw [if_neg hu, if_neg hu]
  have hnext : (locks.release user).1 = rest.head? := by
    show (locks.queue user).tail.head? = rest.head?
    rw [hrest]
    rfl
  refine ⟨?_, ?_, ?_, ?_, ?_⟩
  · intro u
    rw [hqueue]
    by_cases hu : user = u
    · rw [if_pos hu]
      exact hnodup
    · rw [if_neg hu]
      exact ho.nodup u
  · intro u c hc
    rw [hqueue] at hc
    by_cases hu : user = u
    · subst hu
      rw [if_pos rfl] at hc
      obtain ⟨next, hn⟩ := hbehind c hc
      exact Or.inr ⟨next, (inLine_set hst c _).2 hn⟩
    · rw [if_neg hu] at hc
      exact (ho.member u c hc).imp (held_gave hu) fun ⟨next, hn⟩ => ⟨next, (inLine_set hst c _).2 hn⟩
  · intro c q hq
    obtain ⟨u, next, rfl, hmem⟩ := ho.waiting c q ((inLine_set hst c q).1 hq)
    refine ⟨u, next, rfl, ?_⟩
    rw [hqueue]
    by_cases hu : user = u
    · subst hu
      rw [if_pos rfl]
      rw [hrest] at hmem
      rcases List.mem_cons.1 hmem with rfl | hmem
      · cases hst.symm.trans ((inLine_set hst _ _).1 hq)
      · exact hmem
    · rw [if_neg hu]
      exact hmem
  -- who was woken before waits for another lock: the call that heads this queue is not in line
  · intro c hc
    rcases List.mem_append.1 hc with hc | hc
    · obtain ⟨u, next, hs, hholder⟩ := ho.handed c hc
      refine ⟨u, next, (inLine_set hst c _).2 hs, ?_⟩
      have hu : user ≠ u := by
        rintro rfl
        rw [Locks.holder?, hrest] at hholder
        cases hholder
        cases hst.symm.trans hs
      rw [Locks.holder?, hqueue, if_neg hu]
      exact hholder
    · rw [hnext, Option.mem_toList] at hc
      obtain ⟨next, hn⟩ := hbehind c (List.mem_of_mem_head? hc)
      refine ⟨user, next, (inLine_set hst c _).2 hn, ?_⟩
      rw [Locks.holder?, hqueue, if_pos rfl]
      exact hc
  · intro u c hc
    rw [Locks.holder?, hqueue] at hc
    by_cases hu : user = u
    · subst hu
      rw [if_pos rfl] at hc
      refine Or.inr (List.mem_append_right _ ?_)
      rw [hnext, Option.mem_toList]
      exact hc
    · rw [if_neg hu] at hc
      exact (ho.head u c hc).imp (held_gave hu) (List.mem_append_left _)

/-- A call lines up for a lock that others have. -/
theorem InOrder.linedUp (ho : InOrder locks woken stages h) (hk : locks.Keyed) {next : Unit → Program α}
    (hst : stages[call]? = some (.ready (.act (.lock user) next))) (hnot : user ∉ (h.deeds call).held)
    (hbusy : locks.queue user ≠ []) :
    InOrder (locks.acquire user call).2 woken (stages.set call (.inLine (.act (.lock user) next))) h := by
  have hqueue := Locks.queue_acquire hk user call
  have hholder : ∀ u, (locks.acquire user call).2.holder? u = locks.holder? u := by
    intro u
    rw [Locks.holder?, hqueue, Locks.holder?]
    by_cases hu : user = u
    · rw [if_pos hu, List.head?_append_of_ne_nil _ (hu ▸ hbusy)]
    · rw [if_neg hu]
  have hnew : (stages.set call (.inLine (.act (.lock user) next)))[call]? =
      some (.inLine (.act (.lock user) next)) := by
    rw [stage_set hst, if_pos rfl]
  have hstay : ∀ (c : CallId) (q : Program α), stages[c]? = some (.inLine q) →
      (stages.set call (.inLine (.act (.lock user) next)))[c]? = some (.inLine q) := by
    intro c q hq
    have hcall : call ≠ c := by
      rintro rfl
      cases hst.symm.trans hq
    rw [stage_set hst, if_neg hcall]
    exact hq
  -- who stands in a queue has the lock or waits for it, and the call does neither yet
  have habsent : call ∉ locks.queue user := by
    intro hmem
    rcases ho.member user call hmem with hheld | ⟨next', hn⟩
    · exact hnot hheld
    · cases hst.symm.trans hn
  refine ⟨?_, ?_, ?_, ?_, ?_⟩
  · intro u
    rw [hqueue]
    by_cases hu : user = u
    · subst hu
      rw [if_pos rfl]
      exact (ho.nodup user).append (List.nodup_singleton call) (List.disjoint_singleton.2 habsent)
    · rw [if_neg hu]
      exact ho.nodup u
  · intro u c hc
    have hmem : c ∈ locks.queue u ∨ user = u ∧ c = call := by
      rw [hqueue] at hc
      by_cases hu : user = u
      · rw [if_pos hu] at hc
        exact (List.mem_append.1 hc).imp_right fun hc => ⟨hu, List.mem_singleton.1 hc⟩
      · rw [if_neg hu] at hc
        exact Or.inl hc
    rcases hmem with hc | ⟨rfl, rfl⟩
    · rcases ho.member u c hc with hheld | ⟨next', hn⟩
      · exact Or.inl hheld
      · exact Or.inr ⟨next', hstay c _ hn⟩
    · exact Or.inr ⟨next, hnew⟩
  · intro c q hq
    by_cases hcall : call = c
    · subst hcall
      cases hnew.symm.trans hq
      refine ⟨user, next, rfl, ?_⟩
      rw [hqueue, if_pos rfl]
      exact List.mem_append_right _ (List.mem_singleton.2 rfl)
    · rw [stage_set hst, if_neg hcall] at hq
      obtain ⟨u, next', rfl, hmem⟩ := ho.waiting c q hq
      refine ⟨u, next', rfl, ?_⟩
      rw [hqueue]
      by_cases hu : user = u
      · rw [if_pos hu]
        exact List.mem_append_left _ hmem
      · rw [if_neg hu]
        exact hmem
  · intro c hc
    obtain ⟨u, next', hs, hc'⟩ := ho.handed c hc
    exact ⟨u, next', hstay c _ hs, (hholder u).trans hc'⟩
  · intro u c hc
    exact ho.head u c ((hholder u).symm.trans hc)

/-- A call that is not in line does an action and goes on. -/
theorem InOrder.replied {l l' : Ledger} {c : Circumstance} (ho : InOrder l.locks l.woken stages h) (hw : l.Working)
    (hl : LocksAgree l.locks h) {p : Program α} (hst : stages[call]? = some (.ready p)) {action : Action}
    {reply : action.Reply} (hgives : ∀ user, action = .unlock user → user ∈ (h.deeds call).held)
    (hact : l.actUnder c call false action = (.reply reply, l')) (p' : Program α) :
    InOrder l'.locks l'.woken (stages.set call (.ready p')) ((call, .of action reply) :: h) := by
  obtain ⟨-, hlocks, hwoken⟩ := Ledger.actUnder_turned hw hact
  have hheld := Deeds.held_of action reply (h.deeds call)
  rw [hlocks, hwoken]
  cases action with
  | lock user =>
    rw [Ledger.actUnder_lock] at hact
    have hempty : l.locks.queue user = [] := by
      by_cases hq : (l.locks.queue user).isEmpty
      · exact List.isEmpty_iff.1 hq
      · rw [if_neg hq] at hact
        cases (Prod.mk.inj hact).1
    exact ho.took hl.keyed hst hempty p'
  | unlock user => exact ho.gave hl hst (hgives user rfl) p'
  | clock => exact ho.other hst hheld p'
  | store request => exact ho.other hst hheld p'
  | audit record => exact ho.other hst hheld p'

/-! ## The invariant -/

/-- What all traffic keeps, over rows that were `m₀` at first, of calls that keep a rule each and end in a certain way.
-/
structure Good (m₀ : Memory) (rule : CallId → Deeds → Action → Prop) (faulty : Bool) (ends : CallId → α → Deeds → Prop)
    (s : Traffic α) : Prop where
  working : s.ledger.Working
  agrees : Agrees m₀ s.ledger.store.memory s.ledger.locks s.chronicle
  possible : Possible m₀ rule faulty s.chronicle
  order : InOrder s.ledger.locks s.ledger.woken s.stages s.chronicle
  keeps : ∀ (call : CallId) (p : Program α), s.stages[call]? = some (.ready p) ∨ s.stages[call]? = some (.inLine p) →
    p.Keeps (rule call) faulty (ends call) (s.chronicle.deeds call)
  whole : ∀ call : CallId, s.stages[call]? ≠ some .crashed
  strangers : ∀ call : CallId, s.stages.length ≤ call → s.chronicle.deeds call = []

variable {m₀ : Memory} {rule : CallId → Deeds → Action → Prop} {faulty : Bool} {ends : CallId → α → Deeds → Prop}
  {s : Traffic α}

/-- At the start nothing was done and nobody stands in line. -/
theorem Good.start (hm : m₀.Sound) (trail : Trail) (now : Instant) {programs : List (Program α)}
    (hkeeps : ∀ (call : CallId) (p : Program α), programs[call]? = some p → p.Keeps (rule call) faulty (ends call) []) :
    Good m₀ rule faulty ends (start (.atRest m₀ trail now) programs) where
  working := Ledger.working_atRest m₀ trail now
  agrees := .start hm Locks.keyed_free
  possible := .nil
  order := .start programs
  keeps := by
    intro call p h
    obtain ⟨q, hq, hp⟩ : ∃ q, programs[call]? = some q ∧ Stage.ready p = .ready q := by
      rcases h with h | h
      · exact stage_start h
      · obtain ⟨q, -, hp⟩ := stage_start h
        cases hp
    cases hp
    exact hkeeps call p hq
  whole := by
    intro call h
    obtain ⟨q, -, hp⟩ := stage_start h
    cases hp
  strangers _ _ := rfl

/-- A call got a reply to its action. -/
theorem Good.replied (hg : Good m₀ rule faulty ends s) {action : Action} {next : action.Reply → Program α}
    {reply : action.Reply} {l' : Ledger}
    (hst : s.stages[call]? = some (.ready (.act action next)) ∨ s.stages[call]? = some (.inLine (.act action next)))
    (hexpects : (s.chronicle.deeds call).Expects faulty action reply) (hworking : l'.Working)
    (hagrees : Agrees m₀ l'.store.memory l'.locks ((call, .of action reply) :: s.chronicle))
    (horder : InOrder l'.locks l'.woken (s.stages.set call (.ready (next reply)))
      ((call, .of action reply) :: s.chronicle)) :
    Good m₀ rule faulty ends
      ⟨l', s.stages.set call (.ready (next reply)), (call, .of action reply) :: s.chronicle⟩ := by
  obtain ⟨hrule, hnext⟩ := hg.keeps call _ hst
  obtain ⟨st, hst'⟩ : ∃ st, s.stages[call]? = some st := by
    rcases hst with hst | hst
    · exact ⟨_, hst⟩
    · exact ⟨_, hst⟩
  exact ⟨hworking, hagrees, .cons reply hg.possible hg.agrees hrule hexpects hagrees, horder,
    forall_replied (P := fun c p past => p.Keeps (rule c) faulty (ends c) past) hst' hg.keeps (hnext reply hexpects),
    whole_set hst' hg.whole (by simp), strangers_set hst' hg.strangers _⟩

/-- A call that is not in line does an action, or lines up for a lock. -/
theorem Good.attempt (hg : Good m₀ rule faulty ends s)
    (hrule : ∀ call past action, rule call past action → past.Orderly action) {c : Circumstance}
    (hcalm : c.outage = none ∨ faulty = true) {action : Action} {next : action.Reply → Program α}
    (hst : s.stages[call]? = some (.ready (.act action next))) :
    Good m₀ rule faulty ends (s.attempt c call false action next) := by
  have horder := hrule call _ action (hg.keeps call _ (Or.inl hst)).1
  rcases Ledger.actUnder_replies_or_waits hg.working c call false action with
    ⟨reply, l', hact⟩ | ⟨-, user, rfl, hbusy, hact⟩
  · obtain ⟨hexpects, hworking, hagrees⟩ :=
      Ledger.actUnder_agrees hg.working hg.agrees horder hcalm (fun h => by nomatch h) hact
    have hgives : ∀ user, action = .unlock user → user ∈ (s.chronicle.deeds call).held := by
      rintro user rfl
      exact horder
    simp only [Traffic.attempt, hact]
    exact hg.replied (Or.inl hst) hexpects hworking hagrees
      (hg.order.replied hg.working hg.agrees.locks hst hgives hact (next reply))
  · have hnot : user ∉ (s.chronicle.deeds call).held := fun hmem => UInt64.lt_irrefl user (horder user hmem)
    have hnonempty : s.ledger.locks.queue user ≠ [] := by
      rw [← List.isEmpty_eq_false_iff]
      exact hbusy
    simp only [Traffic.attempt, hact]
    refine ⟨⟨hg.working.faultless, hg.working.gate⟩, ?_, hg.possible,
      hg.order.linedUp hg.agrees.locks.keyed hst hnot hnonempty, ?_, whole_set hst hg.whole (by simp), ?_⟩
    · exact ⟨hg.agrees.sound, hg.agrees.locks.linedUp hnonempty, hg.agrees.amounts, hg.agrees.records⟩
    · exact forall_linedUp (P := fun c p past => p.Keeps (rule c) faulty (ends c) past) hst hg.keeps
    · intro e hlen
      rw [List.length_set] at hlen
      exact hg.strangers e hlen

/-- A call to which the lock was handed over takes it. -/
theorem Good.proceed (hg : Good m₀ rule faulty ends s)
    (hrule : ∀ call past action, rule call past action → past.Orderly action) {c : Circumstance}
    (hcalm : c.outage = none ∨ faulty = true) {action : Action} {next : action.Reply → Program α}
    (hst : s.stages[call]? = some (.inLine (.act action next))) (hwoken : call ∈ s.ledger.woken) :
    Good m₀ rule faulty ends ({ s with ledger := { s.ledger with
      woken := s.ledger.woken.filter (· ≠ call) } }.attempt c call true action next) := by
  obtain ⟨user, next', hst', hholder⟩ := hg.order.handed call hwoken
  cases hst.symm.trans hst'
  have horder := hrule call _ _ (hg.keeps call _ (Or.inr hst)).1
  have hworking : Ledger.Working { s.ledger with woken := s.ledger.woken.filter (· ≠ call) } :=
    ⟨hg.working.faultless, hg.working.gate⟩
  have hact : Ledger.actUnder c { s.ledger with woken := s.ledger.woken.filter (· ≠ call) } call true (.lock user) =
      (.reply (), _) := Ledger.actUnder_granted user
  have hgranted : true = true → ∀ u, Action.lock user = .lock u → s.ledger.locks.holder? u = some call := by
    rintro - u hu
    cases hu
    exact hholder
  obtain ⟨hexpects, hworking', hagrees⟩ := Ledger.actUnder_agrees hworking hg.agrees horder hcalm hgranted hact
  simp only [Traffic.attempt, hact]
  exact hg.replied (Or.inr hst) hexpects hworking' hagrees (hg.order.granted hst (next' ()))

/-- Every move keeps the invariant. -/
theorem Good.step (hg : Good m₀ rule faulty ends s)
    (hrule : ∀ call past action, rule call past action → past.Orderly action) {mv : Move}
    (hcalm : mv.circumstance.outage = none ∨ faulty = true) : Good m₀ rule faulty ends (s.step mv) := by
  unfold Traffic.step
  split
  · rename_i action next hst
    exact hg.attempt hrule hcalm hst
  · rename_i action next hst
    split
    · rename_i hwoken
      exact hg.proceed hrule hcalm hst hwoken
    · exact hg
  · exact hg

/-- Every run keeps the invariant. -/
theorem Good.run (hg : Good m₀ rule faulty ends s)
    (hrule : ∀ call past action, rule call past action → past.Orderly action) {moves : List Move}
    (hcalm : ∀ mv ∈ moves, mv.circumstance.outage = none ∨ faulty = true) : Good m₀ rule faulty ends (s.run moves) := by
  induction moves generalizing s with
  | nil => exact hg
  | cons mv moves ih =>
    exact ih (hg.step hrule (hcalm mv List.mem_cons_self)) fun mv' h => hcalm mv' (List.mem_cons_of_mem _ h)

/-- A call that ended did so in the way of its rule. -/
theorem Good.ended (hg : Good m₀ rule faulty ends s) {a : α} (ha : s.result? call = some a) :
    ends call a (s.chronicle.deeds call) := by
  unfold result? at ha
  split at ha
  · rename_i hst
    cases ha
    exact hg.keeps call _ (Or.inl hst)
  · cases ha

/-- Every call is about to do something that its rule allows, or it has ended in the way of its rule, or it is a
stranger. -/
theorem Good.position (hg : Good m₀ rule faulty ends s) (call : CallId) :
    (∃ action, rule call (s.chronicle.deeds call) action) ∨
      (∃ a, s.result? call = some a ∧ ends call a (s.chronicle.deeds call)) ∨
      (s.stages[call]? = none ∧ s.chronicle.deeds call = []) := by
  cases hst : s.stages[call]? with
  | none => exact Or.inr (Or.inr ⟨rfl, hg.strangers call (List.getElem?_eq_none_iff.1 hst)⟩)
  | some st =>
    cases st with
    | ready p =>
      have hp := hg.keeps call p (Or.inl hst)
      cases p with
      | done a =>
        refine Or.inr (Or.inl ⟨a, ?_, hp⟩)
        simp only [result?, hst]
      | act action next => exact Or.inl ⟨action, hp.1⟩
    | inLine p =>
      obtain ⟨user, next, rfl, -⟩ := hg.order.waiting call p hst
      exact Or.inl ⟨_, (hg.keeps call _ (Or.inr hst)).1⟩
    | crashed => exact absurd hst (hg.whole call)

/-- No call comes or goes. -/
theorem length_step (s : Traffic α) (mv : Move) : (s.step mv).stages.length = s.stages.length := by
  have hattempt : ∀ (s : Traffic α) granted action next,
      (s.attempt mv.circumstance mv.call granted action next).stages.length = s.stages.length := by
    intro s granted action next
    unfold attempt
    split <;> exact List.length_set ..
  unfold step
  split
  · exact hattempt _ _ _ _
  · split
    · exact hattempt _ _ _ _
    · rfl
  · rfl

theorem length_run (s : Traffic α) (moves : List Move) : (s.run moves).stages.length = s.stages.length := by
  induction moves generalizing s with
  | nil => rfl
  | cons mv moves ih => exact (ih (s.step mv)).trans (length_step s mv)

end Traffic

end CentLedger
