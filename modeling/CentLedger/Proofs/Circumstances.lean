import CentLedger.Operation.Ledger
import CentLedger.Proofs.Chronicle

/-!
# Actions under all circumstances

`Ledger.act` does an action at the time of the ledger, with the faults that its store has, and with a trail that works
or not. Nothing promises a call that these stay as they are between two of its actions. `Ledger.actUnder` does an action
under any circumstances: at any time, with a store that answers or refuses this one request, and with an audit that
takes the record or does not. A refused request leaves the rows alone; any other is answered by the rows in memory.

The main statement is `Ledger.actUnder_agrees`: an orderly action gets a reply that the call reckons with, and rows and
locks go on agreeing with the chronicle.
-/

namespace CentLedger

/-- What the world is like when a call does an action. -/
structure Circumstance where
  now : Instant
  /-- The words in which the store refuses the request, if it does. -/
  outage : Option String
  /-- The audit takes no record. -/
  mute : Bool

namespace Ledger

/-- A ledger at the time of a circumstance, with the audit as it is then. -/
def under (l : Ledger) (c : Circumstance) : Ledger :=
  { l with now := c.now, trail := { l.trail with broken := c.mute } }

/-- Do an action of a call under a circumstance. -/
def actUnder (c : Circumstance) (l : Ledger) (call : CallId) (granted : Bool) (action : Action) :
    Attempt action.Reply × Ledger :=
  match c.outage, action with
  | some text, .store _ => (.reply (.error (.storageUnavailable text)), l.under c)
  | _, action => (l.under c).act call granted action

/-- A ledger whose store has no faults of its own and whose gate is open. -/
structure Working (l : Ledger) : Prop where
  faultless : l.store.faults = .none
  gate : l.gate.closed = false

/-- A ledger over rows, with a trail, and with no call in progress. -/
def atRest (m : Memory) (trail : Trail) (now : Instant) : Ledger :=
  { Ledger.empty now with store := ⟨m, .none⟩, trail := trail }

/-- A ledger at rest works. -/
theorem working_atRest (m : Memory) (trail : Trail) (now : Instant) : (atRest m trail now).Working :=
  ⟨rfl, rfl⟩

/-- A ledger works under all circumstances. -/
theorem Working.under {l : Ledger} (hw : l.Working) (c : Circumstance) : (l.under c).Working :=
  ⟨hw.faultless, hw.gate⟩

/-! ## What each action does -/

variable {c : Circumstance} {l l' : Ledger} {call : CallId} {granted : Bool}

/-- A store without faults does what the rows in memory do. -/
theorem perform_faultless {s : Store} (h : s.faults = .none) (now : Instant) (request : StoreRequest) :
    s.perform now request = (some (s.memory.perform now request).1, ⟨(s.memory.perform now request).2, .none⟩) := by
  obtain ⟨m, f⟩ := s
  simp only at h
  subst h
  have hcrash : Faults.none.crashes? request = false := by
    cases request <;> rfl
  have hrefusal : Faults.none.refusal? request = none := by
    cases request <;> simp [Faults.refusal?, Faults.none]
  have hafter : Faults.none.after request = .none := by
    cases request <;> rfl
  simp only [Store.perform, hcrash, hrefusal, hafter, Bool.false_eq_true, if_false]

/-- A request that is not refused is answered by the rows. -/
theorem actUnder_store (hw : l.Working) (hc : c.outage = none) (request : StoreRequest) :
    l.actUnder c call granted (.store request) =
      (.reply (l.store.memory.perform c.now request).1,
        { l.under c with store := ⟨(l.store.memory.perform c.now request).2, .none⟩ }) := by
  simp only [actUnder, hc, act, under, hw.gate, Bool.false_and, Bool.false_eq_true, if_false,
    perform_faultless hw.faultless]

/-- A request that is refused leaves everything alone. -/
theorem actUnder_refused {text : String} (hc : c.outage = some text) (request : StoreRequest) :
    l.actUnder c call granted (.store request) = (.reply (.error (.storageUnavailable text)), l.under c) := by
  simp only [actUnder, hc]

/-- A call that waited for a lock and has it now goes on. -/
theorem actUnder_granted (user : UserId) : l.actUnder c call true (.lock user) = (.reply (), l.under c) := by
  cases h : c.outage <;> simp [actUnder, h, act]

/-- A call that asks for a lock lines up, and has the lock if nobody was there. -/
theorem actUnder_lock (user : UserId) :
    l.actUnder c call false (.lock user) =
      (if (l.locks.queue user).isEmpty then .reply () else .wait,
        { l.under c with locks := (l.locks.acquire user call).2 }) := by
  cases h : c.outage <;> simp [actUnder, h, act, under, Locks.acquire]

/-- A lock that is given back is released. -/
theorem actUnder_unlock (user : UserId) :
    l.actUnder c call granted (.unlock user) = (.reply (), (l.under c).release user) := by
  cases h : c.outage <;> simp [actUnder, h, act]

/-- The clock shows the time of the circumstance. -/
theorem actUnder_clock : l.actUnder c call granted .clock = (.reply c.now, l.under c) := by
  cases h : c.outage <;> simp [actUnder, h, act, under]

/-- A record is told to the audit, which may refuse it. -/
theorem actUnder_audit (record : AuditRecord) :
    l.actUnder c call granted (.audit record) =
      (.reply ((l.under c).trail.record c.now record).1,
        { l.under c with trail := ((l.under c).trail.record c.now record).2 }) := by
  cases h : c.outage <;> simp [actUnder, h, act, under]

/-- An action gets a reply, unless it takes a lock for which others stand in line; then the call lines up behind them.
-/
theorem actUnder_replies_or_waits (hw : l.Working) (c : Circumstance) (call : CallId) (granted : Bool)
    (action : Action) :
    (∃ reply l', l.actUnder c call granted action = (.reply reply, l')) ∨
      (granted = false ∧ ∃ user, action = .lock user ∧ (l.locks.queue user).isEmpty = false ∧
        l.actUnder c call granted action = (.wait, { l.under c with locks := (l.locks.acquire user call).2 })) := by
  cases action with
  | lock user =>
    cases granted with
    | true => exact Or.inl ⟨_, _, actUnder_granted user⟩
    | false =>
      cases hq : (l.locks.queue user).isEmpty with
      | true =>
        left
        refine ⟨(), { l.under c with locks := (l.locks.acquire user call).2 }, ?_⟩
        rw [actUnder_lock, hq]
        rfl
      | false =>
        right
        refine ⟨rfl, user, rfl, hq, ?_⟩
        rw [actUnder_lock, hq]
        rfl
  | unlock user => exact Or.inl ⟨_, _, actUnder_unlock user⟩
  | clock => exact Or.inl ⟨_, _, actUnder_clock⟩
  | store request =>
    cases hc : c.outage with
    | none => exact Or.inl ⟨_, _, actUnder_store hw hc request⟩
    | some text => exact Or.inl ⟨_, _, actUnder_refused hc request⟩
  | audit record => exact Or.inl ⟨_, _, actUnder_audit record⟩

/-- The locks after an action of a call, and the calls that need not wait any longer. -/
def turned (l : Ledger) (call : CallId) (granted : Bool) : Action → Locks × List CallId
  | .lock user => (if granted then l.locks else (l.locks.acquire user call).2, l.woken)
  | .unlock user => ((l.locks.release user).2, l.woken ++ (l.locks.release user).1.toList)
  | _ => (l.locks, l.woken)

/-- An action turns the locks as it says, and leaves the ledger working. -/
theorem actUnder_turned (hw : l.Working) {action : Action} {reply : action.Reply}
    (hact : l.actUnder c call granted action = (.reply reply, l')) :
    l'.Working ∧ l'.locks = (l.turned call granted action).1 ∧ l'.woken = (l.turned call granted action).2 := by
  cases action with
  | lock user =>
    cases granted with
    | true =>
      rw [actUnder_granted] at hact
      obtain rfl := (Prod.mk.inj hact).2
      exact ⟨⟨hw.faultless, hw.gate⟩, rfl, rfl⟩
    | false =>
      rw [actUnder_lock] at hact
      obtain rfl := (Prod.mk.inj hact).2
      exact ⟨⟨hw.faultless, hw.gate⟩, rfl, rfl⟩
  | unlock user =>
    rw [actUnder_unlock] at hact
    obtain rfl := (Prod.mk.inj hact).2
    exact ⟨⟨hw.faultless, hw.gate⟩, rfl, rfl⟩
  | clock =>
    rw [actUnder_clock] at hact
    obtain rfl := (Prod.mk.inj hact).2
    exact ⟨⟨hw.faultless, hw.gate⟩, rfl, rfl⟩
  | store request =>
    cases hc : c.outage with
    | none =>
      rw [actUnder_store hw hc] at hact
      obtain rfl := (Prod.mk.inj hact).2
      exact ⟨⟨rfl, hw.gate⟩, rfl, rfl⟩
    | some text =>
      rw [actUnder_refused hc] at hact
      obtain rfl := (Prod.mk.inj hact).2
      exact ⟨⟨hw.faultless, hw.gate⟩, rfl, rfl⟩
  | audit record =>
    rw [actUnder_audit] at hact
    obtain rfl := (Prod.mk.inj hact).2
    exact ⟨⟨hw.faultless, hw.gate⟩, rfl, rfl⟩

/-! ## Orderly actions -/

section orderly

open Chronicle

variable {m₀ : Memory} {h : Chronicle} {faulty : Bool}

/-- A lock that is free, or was handed over to the call, becomes the call's. -/
theorem locksAgree_lock {user : UserId} (hl : LocksAgree l.locks h) (hnot : user ∉ (h.deeds call).held)
    (hgranted : granted = true → l.locks.holder? user = some call)
    (hact : l.actUnder c call granted (.lock user) = (.reply (), l')) :
    LocksAgree l'.locks ((call, .took user) :: h) ∧ l'.store = l.store := by
  cases granted with
  | true =>
    rw [actUnder_granted] at hact
    obtain rfl := (Prod.mk.inj hact).2
    exact ⟨hl.granted (hgranted rfl) hnot, rfl⟩
  | false =>
    rw [actUnder_lock] at hact
    cases hq : (l.locks.queue user).isEmpty with
    | false =>
      rw [hq] at hact
      cases (Prod.mk.inj hact).1
    | true =>
      obtain rfl := (Prod.mk.inj hact).2
      exact ⟨hl.acquired (List.isEmpty_iff.1 hq), rfl⟩

/-- The locks go on agreeing with the chronicle when a lock is granted. -/
theorem lock_agrees {user : UserId} (ha : Agrees m₀ l.store.memory l.locks h)
    (horder : (h.deeds call).Orderly (.lock user))
    (hgranted : granted = true → l.locks.holder? user = some call)
    (hact : l.actUnder c call granted (.lock user) = (.reply (), l')) :
    Agrees m₀ l'.store.memory l'.locks ((call, .took user) :: h) := by
  have hnot : user ∉ (h.deeds call).held := fun hmem => UInt64.lt_irrefl user (horder user hmem)
  obtain ⟨hlocks, hstore⟩ := locksAgree_lock ha.locks hnot hgranted hact
  rw [hstore]
  exact ⟨ha.sound, hlocks, ha.amounts.took user, ha.records.congr rfl (deeds_congr Deeds.record rfl) rfl⟩

/-- A lock that the call holds is given back. -/
theorem unlock_agrees {user : UserId} (ha : Agrees m₀ l.store.memory l.locks h)
    (hheld : user ∈ (h.deeds call).held) :
    Agrees m₀ l.store.memory (l.locks.release user).2 ((call, .gave user) :: h) :=
  ⟨ha.sound, ha.locks.gave hheld, ha.amounts.gave user, ha.records.congr rfl (deeds_congr Deeds.record rfl) rfl⟩

/-- A request that is answered gets an answer that the call reckons with. -/
theorem perform_agrees (faulty : Bool) {m : Memory} {locks : Locks} (ha : Agrees m₀ m locks h) {request : StoreRequest}
    (horder : (h.deeds call).Orderly (.store request)) (now : Instant) :
    (h.deeds call).Expects faulty (.store request) (m.perform now request).1 ∧
      Agrees m₀ (m.perform now request).2 locks ((call, .of (.store request) (m.perform now request).1) :: h) := by
  have hsound := ha.sound.perform now request
  cases request with
  | balance user =>
    obtain ⟨b, hanswer, huser, hamount⟩ := m.perform_balance now user
    obtain ⟨hsame, -⟩ := m.frame_balance now user
    rw [hanswer]
    refine ⟨⟨huser, hamount ▸ ha.sound.amountOf_nonneg user, fun a hk => ?_⟩, hsound, ?_, ?_, ?_⟩
    · exact hamount.trans (ha.amounts.known call user a hk).2
    · exact ha.locks.congr (deeds_congr Deeds.held rfl)
    · exact ha.amounts.read (huser ▸ hamount) (m.amountOf_perform_balance now user)
    · exact ha.records.congr rfl (deeds_congr Deeds.record rfl) hsame
  | saveBalance b =>
    obtain ⟨hpos, hknown⟩ := horder
    rw [m.perform_saveBalance now hpos] at hsound ⊢
    exact ⟨trivial, hsound, ha.locks.congr (deeds_congr Deeds.held rfl),
      ha.amounts.wrote ha.locks hknown fun user => m.amountOf_put b user,
      ha.records.congr rfl (deeds_congr Deeds.record rfl) rfl⟩
  | appendHistory s => exact ⟨rfl, ha.idle trivial hsound rfl rfl⟩
  | history user asOf limit => exact ⟨trivial, ha.idle trivial hsound rfl rfl⟩
  | insertTransaction t =>
    refine ⟨rfl, hsound, ha.locks.congr (deeds_congr Deeds.held rfl), ?_, ?_⟩
    · exact ha.amounts.congr (deeds_congr Deeds.held rfl) (deeds_congr Deeds.known rfl)
        (fun user => by rw [net_cons]; simp [Deed.of, Memory.perform, Deeds.changeOf, Change.total]) fun _ => rfl
    · exact ha.records.opened ha.sound horder rfl rfl
  | updateTransaction t =>
    obtain ⟨s, hs, hid, hpending⟩ := horder
    have hstored := ha.records.stored hs
    rw [Memory.perform_updateTransaction now ha.sound hstored hid hpending] at hsound ⊢
    refine ⟨trivial, hsound, ha.locks.congr (deeds_congr Deeds.held rfl), ?_, ?_⟩
    · exact ha.amounts.congr (deeds_congr Deeds.held rfl) (deeds_congr Deeds.known rfl)
        (fun user => by rw [net_cons]; simp [Deed.of, Deeds.changeOf, Change.total]) fun _ => rfl
    · exact ha.records.closed hs hid (Memory.putTransaction_eq_map t _ ha.sound.ids_nodup)
  | transaction id => exact ⟨trivial, ha.idle trivial hsound rfl rfl⟩
  | latest limit => exact ⟨trivial, ha.idle trivial hsound rfl rfl⟩

/-- An orderly action gets a reply that the call reckons with, and rows and locks go on agreeing with the chronicle. -/
theorem actUnder_agrees (hw : l.Working) (ha : Agrees m₀ l.store.memory l.locks h) {action : Action}
    {reply : action.Reply} (horder : (h.deeds call).Orderly action) (hcalm : c.outage = none ∨ faulty = true)
    (hgranted : granted = true → ∀ user, action = .lock user → l.locks.holder? user = some call)
    (hact : l.actUnder c call granted action = (.reply reply, l')) :
    (h.deeds call).Expects faulty action reply ∧ l'.Working ∧
      Agrees m₀ l'.store.memory l'.locks ((call, .of action reply) :: h) := by
  have hworking := (actUnder_turned hw hact).1
  cases action with
  | lock user => exact ⟨trivial, hworking, lock_agrees ha horder (fun hg => hgranted hg user rfl) hact⟩
  | unlock user =>
    rw [actUnder_unlock] at hact
    obtain rfl := (Prod.mk.inj hact).2
    exact ⟨trivial, hworking, unlock_agrees ha horder⟩
  | clock =>
    rw [actUnder_clock] at hact
    obtain rfl := (Prod.mk.inj hact).2
    exact ⟨trivial, hworking, ha.idle trivial ha.sound rfl rfl⟩
  | store request =>
    cases hc : c.outage with
    | none =>
      rw [actUnder_store hw hc, Prod.mk.injEq, Attempt.reply.injEq] at hact
      obtain ⟨rfl, rfl⟩ := hact
      obtain ⟨hexpects, hagrees⟩ := perform_agrees faulty ha horder c.now
      exact ⟨hexpects, hworking, hagrees⟩
    | some text =>
      have hfaulty : faulty = true := hcalm.resolve_left (by simp [hc])
      rw [actUnder_refused hc, Prod.mk.injEq, Attempt.reply.injEq] at hact
      obtain ⟨rfl, rfl⟩ := hact
      exact ⟨⟨hfaulty, text, rfl⟩, hworking, ha.idle trivial ha.sound rfl rfl⟩
  | audit record =>
    rw [actUnder_audit, Prod.mk.injEq, Attempt.reply.injEq] at hact
    obtain ⟨rfl, rfl⟩ := hact
    refine ⟨trivial, hworking, ?_⟩
    cases ((l.under c).trail.record c.now record).1 with
    | ok _ => exact ha.idle trivial ha.sound rfl rfl
    | error _ => exact ha.idle trivial ha.sound rfl rfl

end orderly

end Ledger

end CentLedger
