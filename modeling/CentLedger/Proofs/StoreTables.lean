import CentLedger.Proofs.StoreLog
import Mathlib

/-!
# Rows in hash tables

Rows may be kept in hash tables, with two counters for the identifiers: a table has no order, a row that is written
again overwrites the old one, and the latest records are all of them, sorted and cut off (`Tables.perform`).
`Tables.Keeps` says that tables hold the rows of a `Memory`; under it both answer every request alike, in whatever order
a table is gone through, and keep doing so (`Tables.Keeps.perform`).

The main statement is `stores_follow_log`: whatever was asked of a new store before, it answers what the log of its
answers says, be its rows in tables or in order.
-/

namespace CentLedger

/-- The order in which the values of a table are gone through, which may be any. -/
structure Arrangement where
  arrange : List Transaction → List Transaction
  perm : ∀ ts, (arrange ts).Perm ts

/-- The rows of the ledger in hash tables. -/
structure Tables where
  balances : Std.HashMap UserId Balance
  /-- The snapshots of each user, in the order of writing. -/
  history : Std.HashMap UserId (List Snapshot)
  transactions : Std.HashMap TransactionId Transaction
  nextSnapshot : Nat
  nextTransaction : TransactionId

namespace Tables

/-- Tables without rows. -/
def empty : Tables :=
  ⟨∅, ∅, ∅, 1, 1⟩

/-- The snapshots of a user, in the order of writing. -/
def snapshots (t : Tables) (user : UserId) : List Snapshot :=
  t.history[user]?.getD []

/-- All records of the table, in no order. -/
def records (t : Tables) : List Transaction :=
  t.transactions.toList.map (·.2)

/-- Answer a request at some time. -/
def perform (order : Arrangement) (t : Tables) (now : Instant) :
    (request : StoreRequest) → Except Error request.Answer × Tables
  | .balance user =>
    match t.balances[user]? with
    | some b => (.ok b, t)
    | none => (.ok (.zero user now), { t with balances := t.balances.insert user (.zero user now) })
  | .saveBalance b =>
    if b.amount < 0 then
      (.error (.invalidTransaction ("refusing to store negative balance for user " ++ Error.userText b.user)), t)
    else (.ok (), { t with balances := t.balances.insert b.user b })
  | .appendHistory s =>
    let s := { s with id := t.nextSnapshot }
    (.ok s, { t with
      history := t.history.insert s.user (t.snapshots s.user ++ [s]), nextSnapshot := t.nextSnapshot + 1 })
  | .history user asOf limit =>
    (.ok (((t.snapshots user).reverse.filter fun s => s.createdAt.within asOf).take limit), t)
  | .insertTransaction x =>
    let x := { x with id := t.nextTransaction }
    (.ok x, { t with transactions := t.transactions.insert x.id x, nextTransaction := t.nextTransaction + 1 })
  | .updateTransaction x =>
    match t.transactions[x.id]? with
    | none => (.error (noTransaction x.id), t)
    | some stored =>
      if stored.status.isTerminal then (.error (.illegalTransition stored.status x.status), t)
      else (.ok (), { t with transactions := t.transactions.insert x.id x })
  | .transaction id => (.ok t.transactions[id]?, t)
  | .latest limit => (.ok (((order.arrange t.records).mergeSort fun x y => y.id ≤ x.id).take limit), t)

/-! ## Tables that hold the rows of a store -/

/-- The tables hold the rows of a store, and the counters are at the next identifiers. -/
structure Keeps (t : Tables) (m : Memory) : Prop where
  balances : ∀ user : UserId, t.balances[user]? = m.balance? user
  history : ∀ user, t.snapshots user = m.history.filter fun s => s.user = user
  transactions : ∀ id : TransactionId, t.transactions[id]? = m.transaction? id
  nextSnapshot : t.nextSnapshot = m.history.length + 1
  nextTransaction : t.nextTransaction = m.transactions.length + 1

variable {t : Tables} {m : Memory} {order : Arrangement}

/-- Empty tables hold the rows of an empty store. -/
theorem keeps_empty : Tables.empty.Keeps .empty where
  balances _ := Std.HashMap.getElem?_empty
  history user := by simp [snapshots, empty, Memory.empty]
  transactions _ := Std.HashMap.getElem?_empty
  nextSnapshot := rfl
  nextTransaction := rfl

/-- A record is in the table under its own identifier. -/
theorem Keeps.mem_toList_iff (h : t.Keeps m) (hm : m.Sound) (id : TransactionId) (x : Transaction) :
    (id, x) ∈ t.transactions.toList ↔ x ∈ m.transactions ∧ x.id = id := by
  rw [Std.HashMap.mem_toList_iff_getElem?_eq_some, h.transactions]
  exact Keyed.find?_eq_some hm.ids_nodup

/-- The table has the records of the store, each once. -/
theorem Keeps.records_perm (h : t.Keeps m) (hm : m.Sound) : t.records.Perm m.transactions := by
  have hkeys : t.records.map (·.id) = t.transactions.toList.map (·.1) := by
    rw [records, List.map_map]
    exact List.map_congr_left fun e he => ((h.mem_toList_iff hm e.1 e.2).1 he).2
  have hnodup : (t.records.map (·.id)).Nodup := by
    rw [hkeys, List.nodup_iff_pairwise_ne, List.pairwise_map]
    exact Std.HashMap.distinct_keys_toList.imp fun hne => by simpa using hne
  refine (List.perm_ext_iff_of_nodup hnodup.of_map hm.ids_nodup.of_map).2 fun x => ?_
  rw [records, List.mem_map]
  constructor
  · rintro ⟨⟨id, y⟩, hy, rfl⟩
    exact ((h.mem_toList_iff hm id y).1 hy).1
  · exact fun hx => ⟨(x.id, x), (h.mem_toList_iff hm x.id x).2 ⟨hx, rfl⟩, rfl⟩

/-- Sorted by identifiers, the last one first, the records of a table are those of the store from the end. -/
theorem Keeps.sorted (h : t.Keeps m) (hm : m.Sound) :
    (order.arrange t.records).mergeSort (fun x y => y.id ≤ x.id) = m.transactions.reverse := by
  have hperm := (List.mergeSort_perm (order.arrange t.records) fun x y => y.id ≤ x.id).trans
    ((order.perm t.records).trans (h.records_perm hm))
  have htrans : ∀ x y z : Transaction, decide (y.id ≤ x.id) = true → decide (z.id ≤ y.id) = true →
      decide (z.id ≤ x.id) = true := by
    intro x y z hxy hyz
    simp only [decide_eq_true_eq] at hxy hyz ⊢
    exact Nat.le_trans hyz hxy
  have htotal : ∀ x y : Transaction, (decide (y.id ≤ x.id) || decide (x.id ≤ y.id)) = true := by
    intro x y
    simp only [Bool.or_eq_true, decide_eq_true_eq]
    exact Nat.le_total _ _
  have hsorted := List.pairwise_mergeSort htrans htotal (order.arrange t.records)
  have hreverse : m.transactions.reverse.Pairwise fun x y => decide (y.id ≤ x.id) = true :=
    List.pairwise_reverse.2 (hm.ascending.imp fun hlt => decide_eq_true (Nat.le_of_lt hlt))
  refine List.Perm.eq_of_pairwise ?_ hsorted hreverse (hperm.trans (List.reverse_perm _).symm)
  intro x y hx hy hle hge
  have hid : x.id = y.id := Nat.le_antisymm (of_decide_eq_true hge) (of_decide_eq_true hle)
  exact List.inj_on_of_nodup_map hm.ids_nodup (hperm.mem_iff.1 hx) (List.mem_reverse.1 hy) hid

/-! ## Rows that are written -/

/-- Tables in which a balance is put hold the rows of the store in which it is put. -/
theorem Keeps.putBalance (h : t.Keeps m) (b : Balance) :
    Keeps { t with balances := t.balances.insert b.user b } { m with balances := Memory.putBalance b m.balances } := by
  refine ⟨fun user => ?_, h.history, h.transactions, h.nextSnapshot, h.nextTransaction⟩
  rw [Std.HashMap.getElem?_insert, h.balances, Memory.balance?_put]
  simp only [beq_iff_eq]

/-- Tables to which a snapshot is added hold the rows of the store to which it is added. -/
theorem Keeps.file (h : t.Keeps m) (s : Snapshot) :
    Keeps { t with
        history := t.history.insert s.user (t.snapshots s.user ++ [s]), nextSnapshot := t.nextSnapshot + 1 }
      { m with history := m.history ++ [s] } := by
  refine ⟨h.balances, fun user => ?_, h.transactions, ?_, h.nextTransaction⟩
  · rw [snapshots, Std.HashMap.getElem?_insert, List.filter_append, ← h.history]
    by_cases hu : s.user = user
    · subst hu
      simp
    · simp [hu, snapshots]
  · rw [h.nextSnapshot, List.length_append]
    rfl

/-- Tables to which a record is added hold the rows of the store to which it is added. -/
theorem Keeps.insertRecord (h : t.Keeps m) (hm : m.Sound) {x : Transaction} (hx : x.id = m.transactions.length + 1) :
    Keeps { t with
        transactions := t.transactions.insert x.id x, nextTransaction := t.nextTransaction + 1 }
      { m with transactions := m.transactions ++ [x] } := by
  refine ⟨h.balances, h.history, fun id => ?_, h.nextSnapshot, ?_⟩
  · rw [Std.HashMap.getElem?_insert, h.transactions, Memory.transaction?, Memory.transaction?, List.find?_append]
    by_cases hid : x.id = id
    · subst hid
      -- the identifier is new, so nothing was found under it before
      have hnone : (m.transactions.find? fun y => y.id = x.id) = none := by
        refine List.find?_eq_none.2 fun y hy => ?_
        simp only [decide_eq_true_eq]
        intro hy'
        exact Nat.not_succ_le_self _ (hx ▸ hy' ▸ (hm.id_bounds hy).2)
      simp [hnone]
    · simp [hid]
  · rw [h.nextTransaction, List.length_append]
    rfl

/-- Tables in which a record is replaced hold the rows of the store in which it is replaced. -/
theorem Keeps.replaceRecord (h : t.Keeps m) (hm : m.Sound) {x stored : Transaction}
    (hstored : m.transaction? x.id = some stored) :
    Keeps { t with transactions := t.transactions.insert x.id x }
      { m with transactions := Memory.putTransaction x m.transactions } := by
  refine ⟨h.balances, h.history, fun id => ?_, h.nextSnapshot, ?_⟩
  · have hkeep : ∀ y : Transaction, y.id = x.id → ((fun _ => x) y).id = x.id := fun _ _ => rfl
    rw [Std.HashMap.getElem?_insert, h.transactions, Memory.putTransaction_eq_map x _ hm.ids_nodup, Memory.transaction?,
      Memory.transaction?, Keyed.find?_map_ite (·.id) (fun _ => x) hkeep]
    by_cases hid : x.id = id
    · subst hid
      rw [Memory.transaction?] at hstored
      simp [hstored]
    · simp [hid, Ne.symm hid]
  · have hsame : (Memory.putTransaction x m.transactions).length = m.transactions.length := by
      simpa only [List.length_map] using congrArg List.length (Memory.map_id_putTransaction x m.transactions)
    rw [h.nextTransaction, hsame]

/-- Tables give the answers of the store whose rows they hold, and hold its rows after it. -/
theorem Keeps.perform (h : t.Keeps m) (hm : m.Sound) (order : Arrangement) (now : Instant) (request : StoreRequest) :
    (t.perform order now request).1 = (m.perform now request).1 ∧
      (t.perform order now request).2.Keeps (m.perform now request).2 := by
  cases request with
  | balance user =>
    rw [Tables.perform, Memory.perform, h.balances]
    cases m.balance? user with
    | some b => exact ⟨rfl, h⟩
    | none => exact ⟨rfl, h.putBalance (.zero user now)⟩
  | saveBalance b =>
    rw [Tables.perform, Memory.perform]
    by_cases hneg : b.amount < 0
    · rw [if_pos hneg, if_pos hneg]
      exact ⟨rfl, h⟩
    · rw [if_neg hneg, if_neg hneg]
      exact ⟨rfl, h.putBalance b⟩
  | appendHistory s =>
    rw [Tables.perform, Memory.perform, h.nextSnapshot]
    exact ⟨rfl, h.nextSnapshot ▸ h.file { s with id := m.history.length + 1 }⟩
  | history user asOf limit =>
    rw [Tables.perform, Memory.perform, h.history, Memory.snapshotsUntil_eq, List.filter_reverse]
    exact ⟨rfl, h⟩
  | insertTransaction x =>
    rw [Tables.perform, Memory.perform, h.nextTransaction]
    exact ⟨rfl, h.nextTransaction ▸ h.insertRecord hm (x := { x with id := m.transactions.length + 1 }) rfl⟩
  | updateTransaction x =>
    rw [Tables.perform, Memory.perform, h.transactions]
    cases hstored : m.transaction? x.id with
    | none => exact ⟨rfl, h⟩
    | some stored =>
      cases hterminal : stored.status.isTerminal with
      | true =>
        simp only [hterminal, if_true]
        exact ⟨trivial, h⟩
      | false =>
        simp only [hterminal, Bool.false_eq_true, if_false]
        exact ⟨trivial, h.replaceRecord hm hstored⟩
  | transaction id => exact ⟨congrArg Except.ok (h.transactions id), h⟩
  | latest limit =>
    rw [Tables.perform, Memory.perform, h.sorted hm]
    exact ⟨rfl, h⟩

/-- A request that is answered with an error leaves the tables as they were. -/
theorem perform_error {now : Instant} {request : StoreRequest} {e : Error}
    (herror : (t.perform order now request).1 = .error e) : (t.perform order now request).2 = t := by
  cases request with
  | balance user =>
    rw [perform] at herror
    split at herror <;> cases herror
  | saveBalance b =>
    by_cases hneg : b.amount < 0
    · rw [perform, if_pos hneg]
    · rw [perform, if_neg hneg] at herror
      cases herror
  | updateTransaction x =>
    revert herror
    rw [perform]
    cases t.transactions[x.id]? with
    | none => exact fun _ => rfl
    | some stored => by_cases hterminal : stored.status.isTerminal = true <;> simp [hterminal]
  | appendHistory | history | insertTransaction | transaction | latest => cases herror

end Tables

/-! ## Both follow the log -/

/-- What a log says of the answers of one store, it says of another that answers alike. -/
theorem FollowsLog.of_same_answers {S T : Type}
    {perform : S → Instant → (request : StoreRequest) → Except Error request.Answer × S}
    {perform' : T → Instant → (request : StoreRequest) → Except Error request.Answer × T} {s : S} {t : T}
    {log : StoreLog}
    (h : FollowsLog perform s log) (hsame : ∀ now request, (perform' t now request).1 = (perform s now request).1)
    (hrefused : ∀ now request e, (perform' t now request).1 = .error e → (perform' t now request).2 = t) :
    FollowsLog perform' t log where
  inserted := h.inserted
  insert now x := (hsame _ _).trans (h.insert now x)
  get now id := (hsame _ _).trans (h.get now id)
  update now x := by
    rw [hsame]
    exact h.update now x
  latest now limit := by
    rw [hsame]
    exact h.latest now limit
  filed := h.filed
  file now x := (hsame _ _).trans (h.file now x)
  history now user asOf limit := (hsame _ _).trans (h.history now user asOf limit)
  save now b := by
    rw [hsame]
    exact h.save now b
  balance now user := (hsame _ _).trans (h.balance now user)
  refused := hrefused

/-- Tables and the rows that they hold have the same log, whatever is asked. -/
theorem exchanges_agree (order : Arrangement) (requests : List (Instant × StoreRequest)) :
    ∃ log tables m, exchanges (Tables.perform order) .empty requests = (log, tables) ∧
      exchanges Memory.perform .empty requests = (log, m) ∧ tables.Keeps m ∧ m.Mirrors log := by
  induction requests using List.reverseRecOn with
  | nil => exact ⟨[], .empty, .empty, rfl, rfl, Tables.keeps_empty, Memory.mirrors_empty⟩
  | append_singleton requests x ih =>
    obtain ⟨log, tables, m, htables, hm, hkeeps, hmirrors⟩ := ih
    obtain ⟨hanswer, hkept⟩ := hkeeps.perform hmirrors.sound order x.1 x.2
    refine ⟨_, _, _, ?_, ?_, hkept, hmirrors.perform x.1 x.2⟩
    · rw [exchanges, Logbook.play_concat, ← exchanges, htables, Logbook.playNext, hanswer]
    · rw [exchanges, Logbook.play_concat, ← exchanges, hm, Logbook.playNext]

/-- Whatever was asked of a new store, one request after another, its answers make a log, the same for rows in tables,
however these are gone through, and for rows in order; and each answers any further request as the log says. -/
theorem stores_follow_log (order : Arrangement) (requests : List (Instant × StoreRequest)) :
    ∃ log tables m, exchanges (Tables.perform order) .empty requests = (log, tables) ∧
      exchanges Memory.perform .empty requests = (log, m) ∧
      FollowsLog (Tables.perform order) tables log ∧ FollowsLog Memory.perform m log := by
  obtain ⟨log, tables, m, htables, hm, hkeeps, hmirrors⟩ := exchanges_agree order requests
  refine ⟨log, tables, m, htables, hm, ?_, hmirrors.followsLog⟩
  exact hmirrors.followsLog.of_same_answers (fun now request => (hkeeps.perform hmirrors.sound order now request).1)
    fun _ _ _ herror => Tables.perform_error herror

end CentLedger
