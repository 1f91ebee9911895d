import CentLedger.Proofs.Gathering
import CentLedger.Proofs.Stamps

/-!
# Histories in time

A history lists snapshots in the order in which they were added; a question about it names a time. The two go together
as long as the clock does not go back: then calls see the times of moves in order (`Traffic.Good.looks_run`), so the
stamps of an account are in order too, and what a time selects is a beginning of what was written
(`Chronicle.Timely.writtenUntil_initial`).

The main statement is `Traffic.histories_in_time`: whenever no call is in the middle of its program, the history of an
account up to a time tells the last writes that are stamped with that time or an earlier one, and begins with the amount
that they left.
-/

namespace CentLedger

/-! ## What a time selects -/

namespace Instant

protected theorem le_trans {a b c : Instant} (hab : a ≤ b) (hbc : b ≤ c) : a ≤ c := by
  show le a c
  change le a b at hab
  change le b c at hbc
  unfold le at *
  omega

/-- A time is not after a limit; where there is no limit, none is. -/
def within (t : Instant) (asOf : Option Instant) : Bool :=
  asOf.all fun limit => t ≤ limit

/-- What was within a limit before is within it still at any earlier time. -/
theorem within_of_le {s t : Instant} {asOf : Option Instant} (hle : s ≤ t) (ht : t.within asOf = true) :
    s.within asOf = true := by
  cases asOf with
  | none => rfl
  | some limit => exact decide_eq_true (Instant.le_trans hle (of_decide_eq_true ht))

end Instant

/-- What is selected from a list is its beginning if with every entry all before it are selected. -/
theorem filter_initial {β : Type} {p : β → Bool} {l : List β} (hl : l.Pairwise fun a b => p b = true → p a = true) :
    l.filter p <+: l := by
  induction l with
  | nil => exact List.prefix_refl _
  | cons a l ih =>
    obtain ⟨hhead, htail⟩ := List.pairwise_cons.1 hl
    cases ha : p a with
    | true =>
      rw [List.filter_cons_of_pos ha]
      exact (List.prefix_cons_inj a).2 (ih htail)
    | false =>
      have hnone : (a :: l).filter p = [] := by
        rw [List.filter_eq_nil_iff]
        intro b hb hpb
        rcases List.mem_cons.1 hb with rfl | hb
        · rw [ha] at hpb
          cases hpb
        · have hpa := hhead b hb hpb
          rw [ha] at hpa
          cases hpa
      rw [hnone]
      exact List.nil_prefix

/-- The snapshots up to a time, as a selection from the history. -/
theorem Memory.snapshotsUntil_eq (m : Memory) (user : UserId) (asOf : Option Instant) :
    m.snapshotsUntil user asOf =
      ((m.history.filter (·.user = user)).filter fun t => t.createdAt.within asOf).reverse := by
  cases asOf with
  | none => simp [snapshotsUntil, snapshots, Instant.within]
  | some t => simp only [snapshotsUntil, snapshots, Instant.within, Option.all_some, List.filter_reverse]

/-- A call that looks at a history gets what the rows have, and changes nothing. -/
theorem Ledger.run_history {l : Ledger} (hw : l.Working) (call : CallId) (user : UserId) (asOf : Option Instant)
    (limit : Nat) :
    l.run call false (Account.history user asOf limit) =
      (.finished (.ok ((l.store.memory.snapshotsUntil user asOf).take limit)), l) := by
  obtain ⟨⟨memory, faults⟩, trail, locks, ⟨closed, waiting⟩, time, woken⟩ := l
  obtain rfl : faults = .none := hw.faultless
  obtain rfl : closed = false := hw.gate
  rfl

namespace Chronicle

/-- The balances that were written for a user and are stamped within a limit. -/
def writtenUntil (h : Chronicle) (user : UserId) (asOf : Option Instant) : List Balance :=
  (h.written user).filter fun b => b.lastUpdated.within asOf

variable {h : Chronicle} {user : UserId}

/-- Writes that are stamped within a limit come before all others. -/
theorem Timely.writtenUntil_initial (ht : h.Timely) (user : UserId) (asOf : Option Instant) :
    h.writtenUntil user asOf <+: h.written user :=
  filter_initial ((List.pairwise_map.1 (ht.ordered user)).imp fun hle => Instant.within_of_le hle)

/-- Where no trace of an account is owed, snapshots and writes within a limit are the same. -/
theorem Tallies.until (ht : h.Tallies user .nothing) (asOf : Option Instant) :
    (((h.filed user).filter fun t => t.createdAt.within asOf).map fun t => (t.amount, t.createdAt)) =
      (h.writtenUntil user asOf).map fun b => (b.amount, b.lastUpdated) := by
  have hall : ((h.filed user).map fun t => (t.amount, t.createdAt)) =
      (h.written user).map fun b => (b.amount, b.lastUpdated) :=
    (List.append_nil _).symm.trans ht.snapshots
  have hselected := congrArg (List.filter fun e => Instant.within e.2 asOf) hall
  rwa [List.filter_map, List.filter_map] at hselected

end Chronicle

/-! ## Runs -/

namespace Traffic

open Chronicle

section runs

variable {α : Type} {s s' : Traffic α} {mv : Move} {moves : List Move} {user : UserId} {m₀ : Memory}
  {rule : CallId → Deeds → Action → Prop} {faulty : Bool} {ends : CallId → α → Deeds → Prop}

/-- A call that looks at the clock in a move sees the time of the move. -/
theorem Follows.looks (hstep : s.Follows mv s') :
    s'.chronicle.looks.Sublist (s.chronicle.looks ++ [mv.circumstance.now]) := by
  rcases hstep with ⟨l, granted, action, reply, -, -, -, hact, hchronicle⟩ | ⟨-, -, hchronicle⟩
  · have hlooked : (Deed.of action reply).looked?.toList.Sublist [mv.circumstance.now] := by
      cases action with
      | clock =>
        rw [Ledger.actUnder_clock, Prod.mk.injEq, Attempt.reply.injEq] at hact
        rw [hact.1]
        exact List.Sublist.refl _
      | lock | unlock => exact List.nil_sublist _
      | audit record => cases reply <;> exact List.nil_sublist _
      | store request => cases request <;> cases reply <;> exact List.nil_sublist _
    rw [hchronicle]
    exact (List.Sublist.refl _).append hlooked
  · rw [hchronicle]
    exact List.sublist_append_left _ _

/-- Over a whole run, calls see times of moves, in order. -/
theorem Good.looks_run (hg : Good m₀ rule faulty ends s)
    (hrule : ∀ call past action, rule call past action → past.Orderly action)
    (hcalm : ∀ mv ∈ moves, mv.circumstance.outage = none ∨ faulty = true) :
    (s.run moves).chronicle.looks.Sublist (s.chronicle.looks ++ moves.map (·.circumstance.now)) := by
  induction moves generalizing s with
  | nil => exact List.sublist_append_left _ _
  | cons mv moves ih =>
    have hrest := ih (hg.step hrule (hcalm mv List.mem_cons_self)) fun mv' h => hcalm mv' (List.mem_cons_of_mem _ h)
    have hmove := (follows_step hg.working mv).looks.append (List.Sublist.refl (moves.map (·.circumstance.now)))
    rw [List.append_assoc] at hmove
    exact hrest.trans hmove

/-- A move writes one balance at most. -/
theorem Follows.written (hstep : s.Follows mv s') (user : UserId) :
    s'.chronicle.written user = s.chronicle.written user ∨
      ∃ b, s'.chronicle.written user = s.chronicle.written user ++ [b] := by
  rcases hstep with ⟨l, granted, action, reply, -, -, -, -, hchronicle⟩ | ⟨-, -, hchronicle⟩
  · rw [hchronicle, written_cons]
    cases hwrote : (Deed.of action reply).wrote? with
    | none => exact Or.inl (List.append_nil _)
    | some b =>
      by_cases hu : b.user = user
      · exact Or.inr ⟨b, by simp [hu]⟩
      · exact Or.inl (by simp [hu])
  · exact Or.inl (congrArg (Chronicle.written · user) hchronicle)

/-- Each account was written step by step: there was a moment when the first so many writes were done and no other. -/
theorem Good.exists_moment (hg : Good m₀ rule faulty ends s)
    (hrule : ∀ call past action, rule call past action → past.Orderly action)
    (hcalm : ∀ mv ∈ moves, mv.circumstance.outage = none ∨ faulty = true) (hstart : s.chronicle.written user = [])
    {made : List Balance} (hmade : made <+: (s.run moves).chronicle.written user) :
    ∃ before, before <+: moves ∧ (s.run before).chronicle.written user = made := by
  induction moves using List.reverseRecOn with
  | nil =>
    refine ⟨[], List.prefix_refl _, ?_⟩
    have hnone : made <+: s.chronicle.written user := hmade
    rw [hstart, List.prefix_nil] at hnone
    exact hstart.trans hnone.symm
  | append_singleton moves mv ih =>
    have hcalm' : ∀ mv' ∈ moves, mv'.circumstance.outage = none ∨ faulty = true :=
      fun mv' hmv' => hcalm mv' (List.mem_append_left _ hmv')
    have hlast : s.run (moves ++ [mv]) = (s.run moves).step mv := List.foldl_concat ..
    have hbefore : made <+: (s.run moves).chronicle.written user →
        ∃ before, before <+: moves ++ [mv] ∧ (s.run before).chronicle.written user = made := by
      intro h
      obtain ⟨before, hpart, hwritten⟩ := ih hcalm' h
      exact ⟨before, hpart.trans (List.prefix_append _ _), hwritten⟩
    rcases (follows_step (hg.run hrule hcalm').working mv).written user with hsame | ⟨b, hone⟩
    · rw [hlast, hsame] at hmade
      exact hbefore hmade
    · rw [hlast, hone, List.prefix_concat_iff] at hmade
      rcases hmade with rfl | h
      · exact ⟨moves ++ [mv], List.prefix_refl _, by rw [hlast, hone]⟩
      · exact hbefore h

end runs

/-! ## All visits -/

/-- The invariant of calls that pay visits and stamp what they write. -/
abbrev GoodTimedVisits (s : Traffic Visit.Result) : Prop :=
  Good .empty (fun _ past action => (past.Orderly action ∧ past.Traced action) ∧ past.Stamped action) false
    (fun _ _ past => past.Paid) s

variable {s : Traffic Visit.Result} {user : UserId}

theorem GoodTimedVisits.start (now : Instant) (visits : List Visit) : GoodTimedVisits (ofVisits now visits) := by
  refine Good.start Memory.sound_empty .empty now ?_
  intro call p hp
  rw [List.getElem?_map, Option.map_eq_some_iff] at hp
  obtain ⟨v, -, rfl⟩ := hp
  exact v.keeps_program.and (v.stamps_program []) (fun _ _ h h' => ⟨h, h'⟩) fun _ _ h _ => h.1

/-- At every moment an account holds the amount that was written last. -/
theorem GoodTimedVisits.amountOf_eq (hg : GoodTimedVisits s) (user : UserId) :
    s.ledger.store.memory.amountOf user = (s.chronicle.amounts user).getLast?.getD 0 := by
  have hc := hg.possible.chained (fun _ _ _ h => h.1) user
  have hsum := hg.agrees.amounts.amounts user
  have hzero : (Memory.empty.amountOf user).toInt = 0 := Int64.toInt_zero
  rw [hzero, Int.zero_add, hc.amount] at hsum
  exact Int64.toInt_inj.1 hsum

/-- At rest, no trace of an account is owed. -/
theorem GoodTimedVisits.tallies (hg : GoodTimedVisits s) (hrest : s.AtRest) (user : UserId) :
    s.chronicle.Tallies user .nothing := by
  have hc := hg.possible.chained (fun _ _ _ h => h.1) user
  have hpaid : ∀ call, (s.chronicle.deeds call).due user = .nothing := by
    intro call
    rcases hrest call with hended | hnone
    · obtain ⟨a, ha⟩ := Option.isSome_iff_exists.1 hended
      exact (hg.ended ha).due user
    · rw [hnone]
      rfl
  by_cases hheld : ∃ call, user ∈ (s.chronicle.deeds call).held
  · obtain ⟨call, hmem⟩ := hheld
    exact hpaid call ▸ hc.held call hmem
  · exact hc.free fun call hmem => hheld ⟨call, hmem⟩

/-- There was a moment when exactly the writes within a limit were done; the account held the last of them then. -/
theorem GoodTimedVisits.exists_moment_until {s₀ : Traffic Visit.Result} (hg : GoodTimedVisits s₀)
    (hstart : s₀.chronicle = []) {moves : List Move} (hcalm : ∀ mv ∈ moves, mv.circumstance.outage = none)
    (htimely : (s₀.run moves).chronicle.Timely) (user : UserId) (asOf : Option Instant) :
    ∃ before, before <+: moves ∧
      (s₀.run before).chronicle.written user = (s₀.run moves).chronicle.writtenUntil user asOf ∧
      (s₀.run before).ledger.store.memory.amountOf user =
        (((s₀.run moves).chronicle.writtenUntil user asOf).getLast?.map (·.amount)).getD 0 := by
  have hempty : s₀.chronicle.written user = [] := by
    rw [hstart]
    rfl
  obtain ⟨before, hpart, hwritten⟩ := hg.exists_moment (fun _ _ _ h => h.1.1) (fun mv hmv => Or.inl (hcalm mv hmv))
    hempty (htimely.writtenUntil_initial user asOf)
  have hgood : GoodTimedVisits (s₀.run before) :=
    hg.run (fun _ _ _ h => h.1.1) fun mv hmv => Or.inl (hcalm mv (hpart.subset hmv))
  refine ⟨before, hpart, hwritten, ?_⟩
  rw [hgood.amountOf_eq, amounts, hwritten, List.getLast?_map]

/-- An answer tells the history of an account up to a time. -/
structure Tells (s : Traffic Visit.Result) (user : UserId) (asOf : Option Instant) (limit : Nat)
    (answer : List Snapshot) : Prop where
  /-- It tells the last writes within the time, newest first, each with its amount and time. -/
  entries : answer.map (fun t => (t.amount, t.createdAt)) =
    ((s.chronicle.writtenUntil user asOf).reverse.take limit).map fun b => (b.amount, b.lastUpdated)
  /-- It tells as many as there are, up to the limit. -/
  count : answer.length = min limit (s.chronicle.writtenUntil user asOf).length
  own : ∀ t ∈ answer, t.user = user
  /-- No snapshot comes twice or out of order. -/
  numbered : (answer.map (·.id)).Pairwise (· > ·)
  times : (answer.map (·.createdAt)).Pairwise fun later earlier => earlier ≤ later
  /-- Writes within the time come before all others. -/
  first : s.chronicle.writtenUntil user asOf <+: s.chronicle.written user
  /-- Without a time, all writes are meant. -/
  always : asOf = none → s.chronicle.writtenUntil user asOf = s.chronicle.written user

variable {asOf : Option Instant} {limit : Nat} {answer : List Snapshot}

/-- An answer of any length is empty only if there is nothing to tell. -/
theorem Tells.eq_nil_iff (h : s.Tells user asOf limit answer) (hlimit : 0 < limit) :
    answer = [] ↔ s.chronicle.writtenUntil user asOf = [] := by
  rw [← List.length_eq_zero_iff, ← List.length_eq_zero_iff, h.count]
  omega

/-- An answer of any length begins with the amount that was written last. -/
theorem Tells.head? (h : s.Tells user asOf limit answer) (hlimit : 0 < limit) :
    answer.head?.map (·.amount) = (s.chronicle.writtenUntil user asOf).getLast?.map (·.amount) := by
  have hfirst := congrArg (fun l => l.head?.map Prod.fst) h.entries
  simp only [List.head?_map, Option.map_map, List.head?_take, if_neg (Nat.pos_iff_ne_zero.1 hlimit),
    List.head?_reverse] at hfirst
  exact hfirst

/-- What the store answers tells the history, where snapshots and writes go together. -/
theorem tells_answer (htimely : s.chronicle.Timely) (ht : s.chronicle.Tallies user .nothing)
    (hhistory : s.ledger.store.memory.history = s.chronicle.collect Deed.filed?)
    (hnumbered : s.ledger.store.memory.Numbered) (asOf : Option Instant) (limit : Nat) :
    s.Tells user asOf limit ((s.ledger.store.memory.snapshotsUntil user asOf).take limit) := by
  have hentries : ((s.ledger.store.memory.snapshotsUntil user asOf).take limit).map (fun t => (t.amount, t.createdAt)) =
      ((s.chronicle.writtenUntil user asOf).reverse.take limit).map fun b => (b.amount, b.lastUpdated) := by
    rw [Memory.snapshotsUntil_eq, hhistory, List.map_take, List.map_reverse, List.map_take, List.map_reverse,
      ← ht.until asOf]
    rfl
  refine ⟨hentries, ?_, ?_, ?_, ?_, htimely.writtenUntil_initial user asOf, ?_⟩
  · have hlength := congrArg List.length hentries
    simpa only [List.length_map, List.length_take, List.length_reverse] using hlength
  · intro t hmem
    rw [Memory.snapshotsUntil_eq] at hmem
    have hselected := (List.mem_filter.1 (List.mem_reverse.1 (List.mem_of_mem_take hmem))).1
    exact of_decide_eq_true (List.mem_filter.1 hselected).2
  · have hids : (s.ledger.store.memory.history.map (·.id)).Pairwise (· < ·) := by
      rw [(hnumbered : s.ledger.store.memory.history.map (·.id) = _)]
      exact List.pairwise_lt_range'
    rw [Memory.snapshotsUntil_eq, List.map_take, List.map_reverse]
    refine List.Pairwise.sublist (List.take_sublist _ _) (List.pairwise_reverse.2 ?_)
    exact hids.sublist ((List.filter_sublist.trans List.filter_sublist).map _)
  · have hstamps : ((s.chronicle.writtenUntil user asOf).map (·.lastUpdated)).Pairwise (· ≤ ·) :=
      (htimely.ordered user).sublist (List.filter_sublist.map _)
    have htimes := congrArg (List.map Prod.snd) hentries
    rw [List.map_map, List.map_map] at htimes
    refine htimes ▸ ?_
    rw [List.map_take, List.map_reverse]
    exact List.Pairwise.sublist (List.take_sublist _ _) (List.pairwise_reverse.2 hstamps)
  · rintro rfl
    exact List.filter_eq_self.2 fun _ _ => rfl

/-- After a run, a call asks for the history of an account up to a time: what it is told, and which moment of the run
the answer is about. -/
structure Recalls (s₀ : Traffic Visit.Result) (moves : List Move) (call : CallId) (user : UserId)
    (asOf : Option Instant) (limit : Nat) (answer : List Snapshot) (before : List Move) : Prop where
  answered : Ledger.run call false (Account.history user asOf limit) (s₀.run moves).ledger =
    (.finished (.ok answer), (s₀.run moves).ledger)
  tells : (s₀.run moves).Tells user asOf limit answer
  /-- The moment is one of the run. -/
  part : before <+: moves
  /-- Exactly the writes within the time were done then. -/
  moment : (s₀.run before).chronicle.written user = (s₀.run moves).chronicle.writtenUntil user asOf
  /-- The answer begins with what the account held then. -/
  first : 0 < limit →
    (answer.head?.map (·.amount)).getD 0 = (s₀.run before).ledger.store.memory.amountOf user
  /-- The answer is empty only if nothing had been written. -/
  empty : 0 < limit → (answer = [] ↔ (s₀.run moves).chronicle.writtenUntil user asOf = [])

/-- Whatever visits are paid at once, and however their steps interleave under a clock that does not go back: whenever
no call is in the middle of its program, whoever asks for the history of an account up to a time, or up to now, is told
the last writes within that time, beginning with what the account held after them. -/
theorem histories_in_time (now : Instant) (visits : List Visit) (moves : List Move)
    (hcalm : ∀ mv ∈ moves, mv.circumstance.outage = none)
    (hclock : (moves.map (·.circumstance.now)).Pairwise (· ≤ ·)) (hrest : ((ofVisits now visits).run moves).AtRest)
    (call : CallId) (user : UserId) (asOf : Option Instant) (limit : Nat) :
    ∃ answer before, Recalls (ofVisits now visits) moves call user asOf limit answer before := by
  have hrule : ∀ (call : CallId) (past : Deeds) (action : Action),
      (past.Orderly action ∧ past.Traced action) ∧ past.Stamped action → past.Orderly action := fun _ _ _ h => h.1.1
  have hcalm' : ∀ mv ∈ moves, mv.circumstance.outage = none ∨ false = true := fun mv hmv => Or.inl (hcalm mv hmv)
  have hstart := GoodTimedVisits.start now visits
  have hg : GoodTimedVisits ((ofVisits now visits).run moves) := hstart.run hrule hcalm'
  have htimely : ((ofVisits now visits).run moves).chronicle.Timely :=
    hg.possible.timely (fun _ _ _ h => ⟨h.1.1, h.2⟩) (hclock.sublist (hstart.looks_run hrule hcalm'))
  have hhistory : ((ofVisits now visits).run moves).Gathered (·.store.memory.history) Deed.filed? [] :=
    hstart.gathered_run Ledger.gathers_history hrule hcalm' (fun _ _ => trivial) (List.append_nil []).symm
  have hnumbered : ((ofVisits now visits).run moves).ledger.store.memory.Numbered :=
    hstart.memory_run Memory.Numbered hrule hcalm' (fun _ now request h => h.perform now request) rfl
  obtain ⟨before, hpart, hwritten, hamount⟩ := hstart.exists_moment_until rfl hcalm htimely user asOf
  have htells := tells_answer htimely (hg.tallies hrest user) hhistory hnumbered asOf limit
  refine ⟨_, before, Ledger.run_history hg.working call user asOf limit, htells, hpart, hwritten, ?_, ?_⟩
  · intro hlimit
    rw [htells.head? hlimit, hamount]
  · exact htells.eq_nil_iff

/-- The account 2 is full, so a transfer of 30 from 1 to 2 is compensated. While it is on its way, another call takes 20
from 1 in the same second; the compensation comes four seconds later. For the second of the two, the history of 1 tells
50, 70 and 100, or 50 and 70 where there is room for two. -/
theorem histories_in_time_compensated :
    ∃ visits moves s, visits = [.errand (.job (.credit 2 9_223_372_036_854_775_807)), .errand (.job (.credit 1 100)),
        .errand (.job (.transfer 1 2 30)), .errand (.op (.debit 1 20))] ∧
      moves = turns (.ofSeconds 1) (List.replicate 12 0 ++ List.replicate 12 1) ++
        turns (.ofSeconds 5) (List.replicate 12 2 ++ List.replicate 8 3) ++
        turns (.ofSeconds 9) (List.replicate 12 2) ∧
      s = (ofVisits (.ofSeconds 0) visits).run moves ∧
      (s.chronicle.written 1).map (fun b => (b.amount, b.lastUpdated.seconds)) = [(100, 1), (70, 5), (50, 5), (80, 9)] ∧
      (s.ledger.store.memory.snapshotsUntil 1 (some (.ofSeconds 5))).map (·.amount) = [50, 70, 100] ∧
      ∃ answer before, Recalls (ofVisits (.ofSeconds 0) visits) moves 4 1 (some (.ofSeconds 5)) 2 answer before := by
  refine ⟨_, _, _, rfl, rfl, rfl, by decide +kernel, by decide +kernel, ?_⟩
  refine histories_in_time _ _ _ (by decide +kernel) (by decide +kernel) ?_ 4 1 _ 2
  refine Good.atRest_of_finished (Good.run (GoodTimedVisits.start _ _) (fun _ _ _ h => h.1.1) ?_) ?_
  · decide +kernel
  · unfold Finished
    decide +kernel

end Traffic

end CentLedger
