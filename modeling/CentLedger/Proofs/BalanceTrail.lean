import CentLedger.Proofs.Stories
import CentLedger.Proofs.Traffic

/-!
# The trail of an account

Any number of calls run at once over rows and a trail that were empty at first. Rows, snapshots and audit records are
three lists that grow one after the other. `Ledger.Mirrors` says that they are what the chronicle tells of writes,
snapshots and records; with the story of each account (`Chronicle.Chained`) they come together.

The main statement is `Traffic.trails_kept`: whenever nobody holds the lock of an account, its history and its audit
records tell every write to its row, in order.
-/

namespace CentLedger

/-! ## Rows, history and audit records -/

/-- The store answers, and the audit takes records. -/
structure Circumstance.Undisturbed (c : Circumstance) : Prop where
  answered : c.outage = none
  heard : c.mute = false

namespace Ledger

open Chronicle

/-- Rows, history and trail of a ledger are what a chronicle tells of writes, snapshots and records. -/
structure Mirrors (l : Ledger) (h : Chronicle) : Prop where
  history : l.store.memory.history = h.collect Deed.filed?
  numbered : l.store.memory.history.map (·.id) = List.range' 1 l.store.memory.history.length
  records : l.trail.entries.map (·.record) = h.told
  rows : ∀ user b, (h.written user).getLast? = some b → l.store.memory.balance? user = some b

variable {l l' : Ledger} {h : Chronicle} {c : Circumstance} {call : CallId} {granted : Bool}

/-- The locks, the gate and the time are no matter. -/
theorem Mirrors.congr (hm : l.Mirrors h) (hmemory : l'.store.memory = l.store.memory)
    (htrail : l'.trail.entries = l.trail.entries) : l'.Mirrors h := by
  obtain ⟨hhistory, hnumbered, hrecords, hrows⟩ := hm
  rw [← hmemory] at hhistory hnumbered hrows
  rw [← htrail] at hrecords
  exact ⟨hhistory, hnumbered, hrecords, hrows⟩

/-- A deed keeps the mirror when its snapshot and its record go behind the others, the snapshot under the next number,
and the row that it wrote is there, with all the others. -/
theorem Mirrors.cons {d : Deed} (hm : l.Mirrors h)
    (hhistory : l'.store.memory.history = l.store.memory.history ++ d.filed?.toList)
    (hnumber : ∀ s, d.filed? = some s → s.id = l.store.memory.history.length + 1)
    (hrecords : l'.trail.entries.map (·.record) = l.trail.entries.map (·.record) ++ d.told?.toList)
    (hwritten : ∀ b, d.wrote? = some b → l'.store.memory.balance? b.user = some b)
    (hothers : ∀ user b, (∀ b', d.wrote? = some b' → b'.user ≠ user) → l.store.memory.balance? user = some b →
      l'.store.memory.balance? user = some b) : l'.Mirrors ((call, d) :: h) where
  history := by rw [hhistory, hm.history, collect]
  numbered := by
    rw [hhistory, List.map_append, hm.numbered]
    cases hfiled : d.filed? with
    | none => simp
    | some s => simp [hnumber s hfiled, List.range'_concat, Nat.add_comm]
  records := by
    rw [hrecords, hm.records]
    rfl
  rows user b hb := by
    rw [written_cons] at hb
    cases hwrote : d.wrote? with
    | none =>
      simp only [hwrote, Option.toList_none, List.filter_nil, List.append_nil] at hb
      exact hothers user b (by simp [hwrote]) (hm.rows user b hb)
    | some b' =>
      by_cases hu : b'.user = user
      · obtain rfl : b' = b := by simpa [hwrote, hu] using hb
        rw [← hu]
        exact hwritten b' hwrote
      · have hbefore : (h.written user).getLast? = some b := by simpa [hwrote, hu] using hb
        exact hothers user b (by simp [hwrote, hu]) (hm.rows user b hbefore)

/-- A deed that neither wrote, nor filed, nor told anything, and left history and balances alone. -/
theorem Mirrors.idle {d : Deed} (hm : l.Mirrors h) (hhistory : l'.store.memory.history = l.store.memory.history)
    (hbalances : l'.store.memory.balances = l.store.memory.balances) (htrail : l'.trail.entries = l.trail.entries)
    (hd : d.wrote? = none ∧ d.filed? = none ∧ d.told? = none) : l'.Mirrors ((call, d) :: h) := by
  refine hm.cons (by simp [hhistory, hd.2.1]) (by simp [hd.2.1]) (by simp [htrail, hd.2.2]) (by simp [hd.1]) ?_
  intro user b _ hb
  rw [Memory.balance?, hbalances]
  exact hb

/-- Reading a balance may make a row where there was none. -/
theorem Mirrors.read (hm : l.Mirrors h) (now : Instant) (user : UserId) (call : CallId)
    (hmemory : l'.store.memory = (l.store.memory.perform now (.balance user)).2)
    (htrail : l'.trail.entries = l.trail.entries) :
    l'.Mirrors ((call, .of (.store (.balance user)) (l.store.memory.perform now (.balance user)).1) :: h) := by
  rw [Memory.perform] at hmemory ⊢
  cases hrow : l.store.memory.balance? user with
  | some b =>
    rw [hrow] at hmemory
    exact hm.idle (by rw [hmemory]) (by rw [hmemory]) htrail ⟨rfl, rfl, rfl⟩
  | none =>
    rw [hrow] at hmemory
    refine hm.cons (by simp [hmemory, Deed.of, Deed.filed?]) (by rintro s ⟨⟩) (by simp [htrail, Deed.of, Deed.told?])
      (by rintro b ⟨⟩) ?_
    intro u b _ hb
    have hne : (Balance.zero user now).user ≠ u := by
      rintro rfl
      cases hrow.symm.trans hb
    rw [hmemory, Memory.balance?, Memory.find?_putBalance, if_neg hne]
    exact hb

/-- A balance that is written is the row of its user from then on. -/
theorem Mirrors.write (hm : l.Mirrors h) {b : Balance} (call : CallId)
    (hmemory : l'.store.memory = { l.store.memory with balances := Memory.putBalance b l.store.memory.balances })
    (htrail : l'.trail.entries = l.trail.entries) : l'.Mirrors ((call, .wrote b) :: h) := by
  have hrow : ∀ user,
      l'.store.memory.balance? user = if b.user = user then some b else l.store.memory.balance? user := by
    intro user
    rw [hmemory, Memory.balance?, Memory.find?_putBalance]
    rfl
  refine hm.cons (by simp [hmemory, Deed.filed?]) (by rintro s ⟨⟩) (by simp [htrail, Deed.told?]) ?_ ?_
  · rintro _ ⟨⟩
    rw [hrow, if_pos rfl]
  · intro user b' hne hb'
    rw [hrow, if_neg (hne b rfl)]
    exact hb'

/-- A snapshot goes behind the others, under the next number. -/
theorem Mirrors.file (hm : l.Mirrors h) {s : Snapshot} (call : CallId)
    (hid : s.id = l.store.memory.history.length + 1)
    (hmemory : l'.store.memory = { l.store.memory with history := l.store.memory.history ++ [s] })
    (htrail : l'.trail.entries = l.trail.entries) : l'.Mirrors ((call, .filed s) :: h) := by
  refine hm.cons (by rw [hmemory]; rfl) ?_ (by simp [htrail, Deed.told?]) (by rintro b ⟨⟩) ?_
  · rintro _ ⟨⟩
    exact hid
  · intro user b _ hb
    rw [hmemory]
    exact hb

/-- A record that is told to a working audit is its next one. -/
theorem Mirrors.tell (hm : l.Mirrors h) (call : CallId) (now : Instant) (record : AuditRecord)
    (hmemory : l'.store.memory = l.store.memory) (htrail : l'.trail.entries = l.trail.entries ++ [⟨record, now⟩]) :
    l'.Mirrors ((call, .noted record) :: h) := by
  refine hm.cons (by simp [hmemory, Deed.filed?]) (by rintro s ⟨⟩) (by simp [htrail, Deed.told?]) (by rintro b ⟨⟩) ?_
  intro user b _ hb
  rw [hmemory]
  exact hb

/-- An answered request keeps the mirror. -/
theorem Mirrors.perform (hm : l.Mirrors h) (now : Instant) (request : StoreRequest) (call : CallId)
    (hmemory : l'.store.memory = (l.store.memory.perform now request).2) (htrail : l'.trail.entries = l.trail.entries) :
    l'.Mirrors ((call, .of (.store request) (l.store.memory.perform now request).1) :: h) := by
  cases request with
  | balance user => exact hm.read now user call hmemory htrail
  | saveBalance b =>
    by_cases hneg : b.amount < 0
    · simp only [Memory.perform, if_pos hneg] at hmemory ⊢
      exact hm.idle (by rw [hmemory]) (by rw [hmemory]) htrail ⟨rfl, rfl, rfl⟩
    · simp only [Memory.perform, if_neg hneg] at hmemory ⊢
      exact hm.write call hmemory htrail
  | appendHistory s => exact hm.file call rfl hmemory htrail
  | updateTransaction t =>
    obtain ⟨hhistory, hbalances⟩ := l.store.memory.frame_updateTransaction now t
    refine hm.idle (by rw [hmemory, hhistory]) (by rw [hmemory, hbalances]) htrail ?_
    cases (l.store.memory.perform now (.updateTransaction t)).1 <;> exact ⟨rfl, rfl, rfl⟩
  | history user asOf limit => exact hm.idle (by rw [hmemory]; rfl) (by rw [hmemory]; rfl) htrail ⟨rfl, rfl, rfl⟩
  | insertTransaction t => exact hm.idle (by rw [hmemory]; rfl) (by rw [hmemory]; rfl) htrail ⟨rfl, rfl, rfl⟩
  | transaction id => exact hm.idle (by rw [hmemory]; rfl) (by rw [hmemory]; rfl) htrail ⟨rfl, rfl, rfl⟩
  | latest limit => exact hm.idle (by rw [hmemory]; rfl) (by rw [hmemory]; rfl) htrail ⟨rfl, rfl, rfl⟩

/-- Where store and audit work, every action keeps the mirror. -/
theorem Mirrors.act (hm : l.Mirrors h) (hw : l.Working) (hcalm : c.Undisturbed) {action : Action}
    {reply : action.Reply} (hact : l.actUnder c call granted action = (.reply reply, l')) :
    l'.Mirrors ((call, .of action reply) :: h) := by
  cases action with
  | lock user =>
    cases granted with
    | true =>
      rw [actUnder_granted] at hact
      obtain rfl := (Prod.mk.inj hact).2
      exact hm.idle rfl rfl rfl ⟨rfl, rfl, rfl⟩
    | false =>
      rw [actUnder_lock] at hact
      obtain rfl := (Prod.mk.inj hact).2
      exact hm.idle rfl rfl rfl ⟨rfl, rfl, rfl⟩
  | unlock user =>
    rw [actUnder_unlock] at hact
    obtain rfl := (Prod.mk.inj hact).2
    exact hm.idle rfl rfl rfl ⟨rfl, rfl, rfl⟩
  | clock =>
    rw [actUnder_clock] at hact
    obtain rfl := (Prod.mk.inj hact).2
    exact hm.idle rfl rfl rfl ⟨rfl, rfl, rfl⟩
  | store request =>
    rw [actUnder_store hw hcalm.answered, Prod.mk.injEq, Attempt.reply.injEq] at hact
    obtain ⟨rfl, rfl⟩ := hact
    exact hm.perform c.now request call rfl rfl
  | audit record =>
    have hheard : (l.under c).trail.record c.now record =
        (.ok (), { (l.under c).trail with entries := l.trail.entries ++ [⟨record, c.now⟩] }) := by
      simp only [Trail.record, under, hcalm.heard, Bool.false_eq_true, if_false]
    rw [actUnder_audit, hheard, Prod.mk.injEq, Attempt.reply.injEq] at hact
    obtain ⟨rfl, rfl⟩ := hact
    exact hm.tell call c.now record rfl rfl

end Ledger

/-! ## Calls -/

/-- What a call is about: an errand, or a look at the history of an account. -/
inductive Visit
  | errand (e : Errand)
  | look (user : UserId) (asOf : Option Instant) (limit : Nat)

namespace Visit

open Program Deeds

/-- What a visit gives back. -/
abbrev Result := Errand.Result ⊕ Except Error (List Snapshot)

/-- The program of a visit. -/
def program : Visit → Program Result
  | errand e => e.program.map .inl
  | look user asOf limit => (Account.history user asOf limit).map .inr

/-- A recorded transfer that wrote a balance and failed for another reason than that it could not be undone has debited
the source, and then credited it again. -/
def Undone : Visit → Result → List Change → Prop
  | errand (.job (.transfer source target amount)), .inl (.inr (.error e)), made =>
    e.cause.isCompensationFailure = false → made ≠ [] →
      source ≠ target ∧ made = [⟨source, -amount.toInt⟩, ⟨source, amount.toInt⟩]
  | _, _, _ => True

variable {source target : UserId} {amount : Cents} {past : Deeds}

/-- Of a transfer that failed, and whose changes come to nothing, each change has been undone. -/
theorem undone_of_reported {e : ApplyError}
    (hreported : (Job.transfer source target amount).Reported false (.error e) past)
    (hmade : Transfer.Attempted source target amount past.changes) :
    (errand (.job (.transfer source target amount))).Undone (.inl (.inr (.error e))) past.changes := by
  intro hkind hsome
  obtain ⟨hpos, hne, hcarried⟩ := hmade.resolve_left hsome
  obtain ⟨_ | t, cause⟩ := e
  · exact absurd hreported.2.1 hsome
  rcases hreported.2.2 with ⟨-, -, htold⟩ | ⟨-, -, hfaulty, -⟩
  · rw [Job.Told, if_neg (by simpa using hkind)] at htold
    rcases hcarried with hway | ⟨-, hback⟩
    · -- on the way there the source has less than before
      have hless : Change.total source past.changes = -amount.toInt := by
        rcases List.prefix_cons_iff.1 hway with hnone | ⟨rest, hrest, hway'⟩
        · exact absurd hnone hsome
        · rw [hrest]
          rcases List.prefix_cons_iff.1 hway' with rfl | ⟨rest', rfl, hway''⟩
          · simp [Change.total]
          · obtain rfl := List.prefix_nil.1 hway''
            simp [Change.total, hne.symm]
      have hnet : Change.total source past.changes = 0 := htold source
      omega
    · exact ⟨hne, hback⟩
  · cases hfaulty

/-- Every visit keeps the rules of orderly calls and of traces, and leaves all traces. -/
theorem keeps_program (v : Visit) :
    v.program.Keeps (fun past action => past.Orderly action ∧ past.Traced action) false
      (fun a past => past.Paid ∧ v.Undone a past.changes) [] := by
  cases v with
  | look user asOf limit =>
    refine ⟨⟨trivial, trivial⟩, ?_⟩
    intro reply hreply
    cases reply with
    | error e => nomatch hreply.1
    | ok answer => exact ⟨⟨fun _ => rfl, rfl⟩, trivial⟩
  | errand e =>
    cases e with
    | op o =>
      have hop : (Errand.op o).program.Keeps o.Rule false (fun _ _ => True) [] :=
        o.keeps_program.map fun _ _ _ => trivial
      have hboth : (Errand.op o).program.Keeps (fun past action => past.Orderly action ∧ past.Traced action) false
          (fun _ past => past.Paid) [] :=
        hop.and (Errand.traced_program (.op o)) (fun _ _ h h' => ⟨h.orderly, h'⟩) fun _ _ _ h => h.1
      exact hboth.map fun _ _ h => ⟨h, trivial⟩
    | job j =>
      have hjob : (Errand.job j).program.Keeps j.Rule false
          (fun a past => ∃ o, a = .inr o ∧ j.Reported false o past) [] :=
        (Transfer.keeps_execute j false).map fun o _ h => ⟨o, rfl, h.1⟩
      have hboth : (Errand.job j).program.Keeps (fun past action => past.Orderly action ∧ past.Traced action) false
          (fun a past => past.Paid ∧ (errand (.job j)).Undone (.inl a) past.changes) [] := by
        refine hjob.and (Errand.traced_program (.job j)) (fun _ _ h h' => ⟨h.1, h'⟩) ?_
        rintro a past ⟨o, rfl, hreported⟩ ⟨hpaid, hmade⟩
        refine ⟨hpaid, ?_⟩
        cases j with
        | credit user amount => exact trivial
        | debit user amount => exact trivial
        | transfer source target amount =>
          cases o with
          | ok t => exact trivial
          | error e => exact undone_of_reported hreported hmade
      exact hboth.map fun _ _ h => h

end Visit

namespace Traffic

open Chronicle

/-! ## Runs -/

section runs

variable {α : Type} {s : Traffic α} {c : Circumstance} {call : CallId} {user : UserId}

/-- Rows, history and records go on telling what the calls did when one of them does an action or lines up. -/
theorem mirrors_attempt (hm : s.ledger.Mirrors s.chronicle) (hw : s.ledger.Working) (hcalm : c.Undisturbed)
    (granted : Bool) (action : Action) (next : action.Reply → Program α) :
    (s.attempt c call granted action next).ledger.Mirrors (s.attempt c call granted action next).chronicle := by
  rcases Ledger.actUnder_replies_or_waits hw c call granted action with ⟨reply, l', hact⟩ | ⟨-, user, rfl, -, hact⟩
  · simp only [attempt, hact]
    exact hm.act hw hcalm hact
  · simp only [attempt, hact]
    exact hm.congr rfl rfl

theorem mirrors_step (hm : s.ledger.Mirrors s.chronicle) (hw : s.ledger.Working) {mv : Move}
    (hcalm : mv.circumstance.Undisturbed) : (s.step mv).ledger.Mirrors (s.step mv).chronicle := by
  unfold step
  split
  · exact mirrors_attempt hm hw hcalm _ _ _
  · split
    · refine mirrors_attempt (s := { s with ledger := { s.ledger with
        woken := s.ledger.woken.filter (· ≠ mv.call) } }) ?_ ⟨hw.faultless, hw.gate⟩ hcalm _ _ _
      exact hm.congr rfl rfl
    · exact hm
  · exact hm

/-- A run that nothing disturbs leaves rows, history and records that tell what the calls did. -/
theorem Good.mirrors_run {m₀ : Memory} {rule : CallId → Deeds → Action → Prop} {faulty : Bool}
    {ends : CallId → α → Deeds → Prop} (hg : Good m₀ rule faulty ends s)
    (hrule : ∀ call past action, rule call past action → past.Orderly action)
    (hm : s.ledger.Mirrors s.chronicle) {moves : List Move} (hcalm : ∀ mv ∈ moves, mv.circumstance.Undisturbed) :
    (s.run moves).ledger.Mirrors (s.run moves).chronicle := by
  induction moves generalizing s with
  | nil => exact hm
  | cons mv moves ih =>
    have hmove := hcalm mv List.mem_cons_self
    exact ih (hg.step hrule (Or.inl hmove.answered)) (mirrors_step hm hg.working hmove) fun mv' hmv' =>
      hcalm mv' (List.mem_cons_of_mem _ hmv')

theorem undisturbed_turns (now : Instant) (calls : List CallId) :
    ∀ mv ∈ turns now calls, mv.circumstance.Undisturbed := by
  intro mv hmv
  obtain ⟨call, -, rfl⟩ := List.mem_map.1 hmv
  exact ⟨rfl, rfl⟩

/-- Nobody holds the lock of an account: it is free, or was handed over to a call that has not taken it yet. -/
def Unheld (s : Traffic α) (user : UserId) : Prop :=
  ∀ call, s.ledger.locks.holder? user = some call → user ∉ (s.chronicle.deeds call).held

/-- History and audit records of an account tell every write to its row, in order. -/
structure Trailed (s : Traffic α) (user : UserId) : Prop where
  /-- There is one snapshot for each write, with its amount and time. -/
  snapshots : ((s.ledger.store.memory.snapshots user).reverse.map fun t => (t.amount, t.createdAt)) =
    (s.chronicle.written user).map fun b => (b.amount, b.lastUpdated)
  /-- The records tell the steps from nothing to the first amount and on from each amount to the next. -/
  records : (s.ledger.trail.about (some "balance")).filterMap (·.record.step? user) =
    steps 0 ((s.ledger.store.memory.snapshots user).reverse.map (·.amount))
  covered : ∀ t ∈ s.ledger.store.memory.snapshots user, 0 ≤ t.amount.toInt
  numbered : ((s.ledger.store.memory.snapshots user).reverse.map (·.id)).Pairwise (· < ·)
  /-- The newest snapshot is the row as it stands. -/
  stored : ∀ t, (s.ledger.store.memory.snapshots user).head? = some t →
    s.ledger.store.memory.balance? user = some ⟨user, t.amount, t.createdAt⟩

/-- The records about balances tell all steps that there are. -/
theorem steps_about (t : Trail) (user : UserId) :
    (t.about (some "balance")).filterMap (·.record.step? user) =
      (t.entries.map (·.record)).filterMap (·.step? user) := by
  rw [Trail.about, List.filterMap_filter, List.filterMap_map]
  apply List.filterMap_congr
  intro e _
  cases h : e.record with
  | balance u movement delta after => simp [h, AuditRecord.entityType]
  | transaction r => simp [h, AuditRecord.entityType, AuditRecord.step?]

/-- Where nothing is owed to the trail of an account, rows, history and records tell it in full. -/
theorem Trailed.of_tallies (hm : s.ledger.Mirrors s.chronicle) (hc : s.chronicle.Chained user)
    (ht : s.chronicle.Tallies user .nothing) : s.Trailed user := by
  have hfiled : (s.ledger.store.memory.snapshots user).reverse = s.chronicle.filed user := by
    rw [Memory.snapshots, List.reverse_reverse, hm.history]
    rfl
  have hsnapshots : ((s.chronicle.filed user).map fun t => (t.amount, t.createdAt)) =
      (s.chronicle.written user).map fun b => (b.amount, b.lastUpdated) :=
    (List.append_nil _).symm.trans ht.snapshots
  have hamounts : (s.chronicle.filed user).map (·.amount) = s.chronicle.amounts user := by
    have h := congrArg (List.map Prod.fst) hsnapshots
    rwa [List.map_map, List.map_map] at h
  refine ⟨?_, ?_, ?_, ?_, ?_⟩
  · rw [hfiled]
    exact hsnapshots
  · rw [hfiled, hamounts, steps_about, hm.records, ← ht.entries]
    exact (List.append_nil _).symm
  · intro t hmem
    have hmem' : t.amount ∈ s.chronicle.amounts user := by
      rw [← hamounts, ← hfiled]
      exact List.mem_map_of_mem (List.mem_reverse.2 hmem)
    obtain ⟨b, hb, hamount⟩ := List.mem_map.1 hmem'
    exact hamount ▸ hc.covered b hb
  · have hids : (s.ledger.store.memory.history.map (·.id)).Pairwise (· < ·) := by
      rw [hm.numbered]
      exact List.pairwise_lt_range'
    rw [Memory.snapshots, List.reverse_reverse]
    exact hids.sublist (List.filter_sublist.map _)
  · intro t hlast
    have hlast' : ((s.chronicle.filed user).map fun t => (t.amount, t.createdAt)).getLast? =
        some (t.amount, t.createdAt) := by
      rw [← hfiled, List.getLast?_map, List.getLast?_reverse, hlast]
      rfl
    rw [hsnapshots, List.getLast?_map, Option.map_eq_some_iff] at hlast'
    obtain ⟨b, hb, htold⟩ := hlast'
    have hrow := hm.rows user b hb
    obtain ⟨huser, -⟩ := Memory.balance?_spec hrow
    rw [hrow, ← huser, ← (Prod.mk.inj htold).1, ← (Prod.mk.inj htold).2]

end runs

/-! ## All visits -/

/-- Calls that are about to pay visits to a ledger without rows and records. -/
def ofVisits (now : Instant) (visits : List Visit) : Traffic Visit.Result :=
  start (.atRest .empty .empty now) (visits.map Visit.program)

/-- The visit of a call; calls without one have nothing to do. -/
def visitOf (visits : List Visit) (call : CallId) : Visit :=
  visits[call]?.getD (.look 0 none 0)

/-- The invariant of calls that pay visits. -/
abbrev GoodVisits (visits : List Visit) (s : Traffic Visit.Result) : Prop :=
  Good .empty (fun _ past action => past.Orderly action ∧ past.Traced action) false
    (fun call a past => past.Paid ∧ (visitOf visits call).Undone a past.changes) s

theorem GoodVisits.start (now : Instant) (visits : List Visit) : GoodVisits visits (ofVisits now visits) := by
  refine Good.start Memory.sound_empty .empty now ?_
  intro call p hp
  rw [List.getElem?_map, Option.map_eq_some_iff] at hp
  obtain ⟨v, hv, rfl⟩ := hp
  have hvisit : visitOf visits call = v := by rw [visitOf, hv]; rfl
  rw [hvisit]
  exact v.keeps_program

/-- The trails that visits leave. -/
structure TrailsKept (visits : List Visit) (s : Traffic Visit.Result) : Prop where
  /-- The trail of an account is complete whenever nobody holds its lock. -/
  trailed : ∀ user, s.Unheld user → s.Trailed user
  /-- What a call told is in the trail, in order. -/
  recorded : ∀ call, (s.chronicle.deeds call).told.Sublist (s.ledger.trail.entries.map (·.record))
  /-- A call that has ended has told the changes that it made, and no others. -/
  paid : ∀ call a, s.result? call = some a →
    (s.chronicle.deeds call).toldChanges = (s.chronicle.deeds call).changes
  /-- A transfer that was compensated has told that the source was debited and then credited, and nothing else. -/
  compensated : ∀ call source target amount e,
    visits[call]? = some (.errand (.job (.transfer source target amount))) →
    s.result? call = some (.inl (.inr (.error e))) → e.cause.isCompensationFailure = false →
    (s.chronicle.deeds call).changes ≠ [] → source ≠ target ∧
      (s.chronicle.deeds call).toldChanges = [⟨source, -amount.toInt⟩, ⟨source, amount.toInt⟩]

/-- Whatever visits are paid at once, and however their steps interleave, the trails of all accounts are kept, as long
as nothing disturbs store and audit. -/
theorem trails_kept (now : Instant) (visits : List Visit) (moves : List Move)
    (hcalm : ∀ mv ∈ moves, mv.circumstance.Undisturbed) : TrailsKept visits ((ofVisits now visits).run moves) := by
  have hrule : ∀ (call : CallId) (past : Deeds) (action : Action),
      past.Orderly action ∧ past.Traced action → past.Orderly action := fun _ _ _ h => h.1
  have hstart : (ofVisits now visits).ledger.Mirrors (ofVisits now visits).chronicle :=
    ⟨rfl, rfl, rfl, fun _ _ hb => nomatch hb⟩
  have hg : GoodVisits visits ((ofVisits now visits).run moves) :=
    Good.run (GoodVisits.start now visits) hrule fun mv hmv => Or.inl (hcalm mv hmv).answered
  have hm := (GoodVisits.start now visits).mirrors_run hrule hstart hcalm
  generalize (ofVisits now visits).run moves = s at hg hm ⊢
  refine ⟨?_, ?_, ?_, ?_⟩
  · intro user hunheld
    have hc := hg.possible.chained (fun _ _ _ h => h) user
    exact .of_tallies hm hc (hc.free fun call hmem => hunheld call (hg.agrees.locks.holder call user hmem) hmem)
  · intro call
    rw [hm.records]
    exact s.chronicle.told_sublist call
  · intro call a ha
    exact (hg.ended ha).1.told
  · intro call source target amount e hvisit ha hkind hsome
    obtain ⟨hpaid, hundone⟩ := hg.ended ha
    have hvisit' : visitOf visits call = .errand (.job (.transfer source target amount)) := by rw [visitOf, hvisit]; rfl
    rw [hvisit'] at hundone
    rw [hpaid.told]
    exact hundone hkind hsome

/-- The account 2 is full, so a transfer of 30 from 1 to 2 is compensated; between its debit and its compensation
another call takes 20 from 1. -/
theorem trails_kept_compensated :
    ∃ s, s = (ofVisits (.ofSeconds 0) [.errand (.job (.credit 2 9_223_372_036_854_775_807)),
        .errand (.job (.credit 1 100)), .errand (.job (.transfer 1 2 30)), .errand (.op (.debit 1 20))]).run
          (turns (.ofSeconds 0) (List.replicate 12 0 ++ List.replicate 12 1 ++ List.replicate 12 2 ++
            List.replicate 8 3 ++ List.replicate 12 2)) ∧
      (s.ledger.trail.about (some "balance")).filterMap (·.record.step? 1) =
        [(100, 100), (-30, 70), (-20, 50), (30, 80)] ∧
      (s.chronicle.deeds 2).toldChanges = [⟨1, -30⟩, ⟨1, 30⟩] ∧ s.ledger.locks.holder? 1 = none ∧
      TrailsKept [.errand (.job (.credit 2 9_223_372_036_854_775_807)), .errand (.job (.credit 1 100)),
        .errand (.job (.transfer 1 2 30)), .errand (.op (.debit 1 20))] s :=
  ⟨_, rfl, by decide +kernel, by decide +kernel, by decide +kernel, trails_kept _ _ _ (undisturbed_turns _ _)⟩

end Traffic

end CentLedger
