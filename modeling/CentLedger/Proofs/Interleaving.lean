import CentLedger.Proofs.Serial

/-!
# No update is lost

Any number of operations on accounts run at once over one store. At every moment each account holds what it held at
first and the changes of all row writes since; an operation that succeeded has made its changes once, one that failed
has made none; and when all have ended, they could as well have run one after another, in an order in which they had
each lock (`no_update_lost`).
-/

namespace CentLedger

namespace Traffic

open Account Chronicle

/-- Calls that are about to do operations on accounts, over some rows. -/
def ofOps (m : Memory) (trail : Trail) (now : Instant) (ops : List Op) : Traffic Op.Result :=
  start (.atRest m trail now) (ops.map Op.program)

/-- The operation of a call; calls without one have nothing to do. -/
def opOf (ops : List Op) (call : CallId) : Op :=
  ops[call]?.getD (.balance 0)

/-- The invariant of calls that do operations on accounts. -/
abbrev GoodOps (m : Memory) (ops : List Op) (s : Traffic Op.Result) : Prop :=
  Good m (fun call => (opOf ops call).Rule) false (fun call => (opOf ops call).Ended) s

/-- What operations on accounts came to, over rows that were `m` at first. -/
structure NothingLost (m : Memory) (trail : Trail) (now : Instant) (ops : List Op) (s : Traffic Op.Result) : Prop where
  /-- An account holds what it held at first and the changes of all writes to its row since. -/
  amounts : ∀ user, (s.ledger.store.memory.amountOf user).toInt = (m.amountOf user).toInt + s.chronicle.net user
  /-- No account is overdrawn. -/
  covered : ∀ user, 0 ≤ (s.ledger.store.memory.amountOf user).toInt
  /-- The changes that a call made so far are the first of those that its operation makes. -/
  partly : ∀ call, (s.chronicle.deeds call).changes <+: (opOf ops call).changes
  /-- A call that succeeded made each of its changes once. -/
  succeeded : ∀ call bs, s.result? call = some (.ok bs) → (s.chronicle.deeds call).changes = (opOf ops call).changes
  /-- A call that failed made none. -/
  failed : ∀ call e, s.result? call = some (.error e) → (s.chronicle.deeds call).changes = []
  /-- When all calls have ended, the amounts are those of a run of one call after another, in an order in which they
  took each lock. -/
  serial : s.Finished → ∃ order l, order.Perm (List.range ops.length) ∧
    (∀ user, (s.chronicle.takers user).Sublist order) ∧
    Ledger.Serially (opOf ops) order (.atRest m trail now) l ∧
    ∀ user, s.ledger.store.memory.amountOf user = l.store.memory.amountOf user
  /-- When all calls have succeeded, the amounts do not depend on how they interleaved. -/
  free : (∀ call < ops.length, ∃ bs, s.result? call = some (.ok bs)) → ∀ user,
    (s.ledger.store.memory.amountOf user).toInt =
      (m.amountOf user).toInt + ∑ call ∈ Finset.range ops.length, Change.total user (opOf ops call).changes

variable {m : Memory} {trail : Trail} {now : Instant} {ops : List Op} {s : Traffic Op.Result} {call : CallId}

theorem GoodOps.start (hm : m.Sound) (trail : Trail) (now : Instant) (ops : List Op) :
    GoodOps m ops (ofOps m trail now ops) := by
  refine Good.start hm trail now ?_
  intro call p hp
  rw [List.getElem?_map, Option.map_eq_some_iff] at hp
  obtain ⟨op, hop, rfl⟩ := hp
  have hsame : opOf ops call = op := by rw [opOf, hop]; rfl
  rw [hsame]
  exact op.keeps_program

/-- The changes that a call made so far are the first of those that its operation makes. -/
theorem GoodOps.partly (hg : GoodOps m ops s) (call : CallId) :
    (s.chronicle.deeds call).changes <+: (opOf ops call).changes := by
  rcases hg.position call with ⟨action, hrule⟩ | ⟨result, -, hended⟩ | ⟨-, hdeeds⟩
  · exact hrule.partly
  · cases result with
    | ok bs =>
      rw [hended.ok bs rfl]
    | error e =>
      rw [hended.error e rfl]
      exact List.nil_prefix
  · rw [hdeeds]
    exact List.nil_prefix

/-- When all calls have ended, the amounts are those of the operations that gave a lock back, one after another, and
those operations come in an order in which they took each lock. -/
theorem GoodOps.finished (hg : GoodOps m ops s) (hdone : s.Finished) :
    (∀ user, (s.ledger.store.memory.amountOf user).toInt = after m (opOf ops) s.chronicle.released user) ∧
      ∀ user, (s.chronicle.takers user).Sublist s.chronicle.released := by
  have hserial := hg.possible.serial
  have hidle : ∀ c, (s.chronicle.deeds c).held = [] := by
    intro c
    by_cases hc : c < s.stages.length
    · obtain ⟨result, hr⟩ := Option.isSome_iff_exists.1 (hdone c hc)
      exact (hg.ended hr).held
    · rw [hg.strangers c (Nat.not_lt.1 hc)]
      rfl
  refine ⟨?_, ?_⟩
  · intro user
    rw [hg.agrees.amounts.amounts user]
    refine hserial.free user ?_
    intro c _ hu
    rw [hidle c] at hu
    cases hu
  · intro user
    rcases hserial.line user with ⟨-, hsub⟩ | ⟨c, -, hu, -⟩
    · exact hsub
    · rw [hidle c] at hu
      cases hu

/-- Calls that took no lock do not matter to what operations come to. -/
theorem GoodOps.after_append (hg : GoodOps m ops s) (hdone : s.Finished) {calls rest : List CallId}
    (hrest : ∀ c ∈ rest, c < s.stages.length ∧ c ∉ s.chronicle.released) :
    after m (opOf ops) (calls ++ rest) = after m (opOf ops) calls := by
  induction rest generalizing calls with
  | nil => rw [List.append_nil]
  | cons c rest ih =>
    obtain ⟨hlt, hnot⟩ := hrest c List.mem_cons_self
    obtain ⟨result, hr⟩ := Option.isSome_iff_exists.1 (hdone c hlt)
    have hreleased : (s.chronicle.deeds c).released = false := by
      rw [← Bool.not_eq_true, ← mem_released]
      exact hnot
    have hnothing : after m (opOf ops) (calls ++ [c]) = after m (opOf ops) calls := by
      rw [after, List.foldl_append]
      exact funext ((hg.ended hr).lockless hreleased _)
    rw [List.append_cons, ih fun d hd => hrest d (List.mem_cons_of_mem _ hd), hnothing]

/-- The calls that gave a lock back and then the others are all calls, each once. -/
theorem GoodOps.perm (hg : GoodOps m ops s) :
    (s.chronicle.released ++ (List.range s.stages.length).filter (· ∉ s.chronicle.released)).Perm
      (List.range s.stages.length) := by
  have hbelow : ∀ c ∈ s.chronicle.released, c < s.stages.length := by
    intro c hc
    by_contra hge
    rw [mem_released, hg.strangers c (Nat.not_lt.1 hge)] at hc
    cases hc
  refine (List.perm_ext_iff_of_nodup ?_ List.nodup_range).2 ?_
  · refine (nodup_released _).append (List.nodup_range.filter _) ?_
    intro c hc hc'
    exact of_decide_eq_true (List.mem_filter.1 hc').2 hc
  · intro c
    rw [List.mem_append, List.mem_filter, List.mem_range, decide_eq_true_eq]
    constructor
    · rintro (hc | hc)
      · exact hbelow c hc
      · exact hc.1
    · intro hc
      by_cases hmem : c ∈ s.chronicle.released
      · exact Or.inl hmem
      · exact Or.inr ⟨hc, hmem⟩

/-- Whatever operations run at once over rows that ever came about, and however their steps interleave, no update is
lost and none is made twice. -/
theorem no_update_lost (hm : m.Reachable) (trail : Trail) (now : Instant) (ops : List Op) (moves : List Move)
    (hcalm : ∀ mv ∈ moves, mv.circumstance.outage = none) :
    NothingLost m trail now ops ((ofOps m trail now ops).run moves) := by
  have hg : GoodOps m ops ((ofOps m trail now ops).run moves) :=
    Good.run (GoodOps.start hm.sound trail now ops) (fun _ _ _ h => h.orderly) fun mv hmv => Or.inl (hcalm mv hmv)
  have hlength : ((ofOps m trail now ops).run moves).stages.length = ops.length := by
    rw [length_run]
    simp [ofOps, Traffic.start]
  generalize (ofOps m trail now ops).run moves = s at hg hlength ⊢
  refine ⟨hg.agrees.amounts.amounts, hg.agrees.sound.amountOf_nonneg, hg.partly, ?_, ?_, ?_, ?_⟩
  · intro call bs hr
    exact (hg.ended hr).ok bs rfl
  · intro call e hr
    exact (hg.ended hr).error e rfl
  · intro hdone
    obtain ⟨hamounts, htakers⟩ := hg.finished hdone
    obtain ⟨l, hserially, hl⟩ := (Ledger.vacant_atRest hm.sound trail now).serially (opOf ops)
      (s.chronicle.released ++ (List.range s.stages.length).filter (· ∉ s.chronicle.released))
    refine ⟨_, l, hlength ▸ hg.perm, ?_, hserially, ?_⟩
    · intro user
      exact (htakers user).trans (List.sublist_append_left _ _)
    · intro user
      have hrest : ∀ c ∈ (List.range s.stages.length).filter (· ∉ s.chronicle.released),
          c < s.stages.length ∧ c ∉ s.chronicle.released := by
        intro c hc
        exact ⟨List.mem_range.1 (List.mem_filter.1 hc).1, of_decide_eq_true (List.mem_filter.1 hc).2⟩
      apply Int64.toInt_inj.1
      rw [hamounts user, hl user]
      exact (congrFun (hg.after_append hdone hrest) user).symm
  · intro hall user
    have hstrangers : ∀ c, ops.length ≤ c → s.chronicle.deeds c = [] := hlength ▸ hg.strangers
    rw [hg.agrees.amounts.amounts user, net_eq_sum hstrangers]
    congr 1
    refine Finset.sum_congr rfl ?_
    intro call hcall
    obtain ⟨bs, hr⟩ := hall call (Finset.mem_range.1 hcall)
    rw [Deeds.net, (hg.ended hr).ok bs rfl]

/-- Two transfers in opposite directions, a credit, a look and a debit that comes too early take turns until all have
ended. -/
theorem no_update_lost_crossed :
    ∃ s, s = (ofOps (Memory.empty.perform (.ofSeconds 0) (.saveBalance ⟨1, 100, .ofSeconds 0⟩)).2 .empty (.ofSeconds 0)
        [.transfer 1 2 30, .transfer 2 1 50, .credit 1 5, .balance 1, .debit 2 10]).run
        (turns (.ofSeconds 1) (List.replicate 40 [0, 1, 2, 3, 4]).flatten) ∧
      s.Finished ∧
      NothingLost (Memory.empty.perform (.ofSeconds 0) (.saveBalance ⟨1, 100, .ofSeconds 0⟩)).2 .empty (.ofSeconds 0)
        [.transfer 1 2 30, .transfer 2 1 50, .credit 1 5, .balance 1, .debit 2 10] s :=
  ⟨_, rfl, by unfold Finished; decide +kernel, no_update_lost (.perform _ _ .empty) _ _ _ _ (calm_turns _ _)⟩

end Traffic

end CentLedger
