import CentLedger.Proofs.Keys
import CentLedger.Proofs.Logs
import CentLedger.Proofs.TimedHistories

/-!
# The log of a store

All requests to a store, with their answers and in order, make a log to which entries are only added at the end
(`StoreLog`). What a store answers can be read off the log alone, without any rows: `FollowsLog` says for each kind of
request which answer the log gives. The rows of `Memory` are what the log says at all times (`Memory.Mirrors`), so the
answers are those of the log, whatever was asked before (`Memory.followsLog`).
-/

namespace CentLedger

/-- The type of the answer to a request that is made at some time. -/
abbrev StoreAnswer (c : Instant × StoreRequest) : Type := Except Error c.2.Answer

/-- What a store was asked, when, and what it answered, in order. -/
abbrev StoreLog := Logbook StoreAnswer

namespace StoreLog

/-! ## Reading the log -/

/-- The record that is offered for insertion. -/
def offered? : Logbook.Entry StoreAnswer → Option Transaction
  | ⟨(_, .insertTransaction t), _⟩ => some t
  | _ => none

/-- The record that was inserted, as it was answered. -/
def inserted? : Logbook.Entry StoreAnswer → Option Transaction
  | ⟨(_, .insertTransaction _), .ok t⟩ => some t
  | _ => none

/-- The record that was accepted in the place of another. -/
def replacement? : Logbook.Entry StoreAnswer → Option Transaction
  | ⟨(_, .updateTransaction t), .ok _⟩ => some t
  | _ => none

/-- The snapshot that is offered to the history. -/
def presented? : Logbook.Entry StoreAnswer → Option Snapshot
  | ⟨(_, .appendHistory s), _⟩ => some s
  | _ => none

/-- The snapshot that was added to the history, as it was answered. -/
def filed? : Logbook.Entry StoreAnswer → Option Snapshot
  | ⟨(_, .appendHistory _), .ok s⟩ => some s
  | _ => none

/-- The balance that is saved, unless it is negative. -/
def saved? : Logbook.Entry StoreAnswer → Option Balance
  | ⟨(_, .saveBalance b), _⟩ => if b.amount < 0 then none else some b
  | _ => none

/-- The row that an access makes if it is the first one of the user. -/
def zero? : Logbook.Entry StoreAnswer → Option Balance
  | ⟨(now, .balance user), _⟩ => some (.zero user now)
  | _ => none

variable (log : StoreLog)

/-- The records that were offered for insertion. -/
def offered : List Transaction := log.filterMap offered?

/-- The records that were inserted, as they were then. -/
def inserted : List Transaction := log.filterMap inserted?

/-- The records that were accepted in the place of others. -/
def replacements : List Transaction := log.filterMap replacement?

/-- An inserted record, overwritten by the last replacement that was accepted for it. -/
def current (t : Transaction) : Transaction :=
  (log.replacements.reverse.find? fun u => u.id = t.id).getD t

/-- The record with an identifier. -/
def record? (id : TransactionId) : Option Transaction :=
  (log.inserted.find? fun t => t.id = id).map log.current

/-- The snapshots that were offered to the history. -/
def presented : List Snapshot := log.filterMap presented?

/-- The snapshots that were added to the history. -/
def filed : List Snapshot := log.filterMap filed?

/-- The row of a user: the last balance saved that was not negative, or else the zero row of the first access. -/
def balance? (user : UserId) : Option Balance :=
  ((log.filterMap saved?).reverse.find? fun b => b.user = user).or
    ((log.filterMap zero?).find? fun b => b.user = user)

end StoreLog

/-! ## Answers that follow a log -/

section

variable {S : Type} (perform : S → Instant → (request : StoreRequest) → Except Error request.Answer × S)

/-- Requests that are made one after another, each at some time: their log, and the store after them. -/
def exchanges (start : S) (requests : List (Instant × StoreRequest)) : StoreLog × S :=
  Logbook.play (fun s c => perform s c.1 c.2) start requests

/-- What a store answers next, as far as its log says. -/
structure FollowsLog (s : S) (log : StoreLog) : Prop where
  /-- Records are numbered from one in the order of insertion, whatever identifiers they carried, and nothing else in
  them is changed. -/
  inserted : log.inserted = log.offered.mapIdx fun i t => { t with id := i + 1 }
  insert : ∀ now t, (perform s now (.insertTransaction t)).1 = .ok { t with id := log.inserted.length + 1 }
  /-- What is found is the inserted record, with the last replacement that was accepted for it. -/
  get : ∀ now id, (perform s now (.transaction id)).1 = .ok (log.record? id)
  /-- A replacement finds no record exactly under an identifier that was never given; it is refused exactly if the
  record is terminal, and accepted otherwise. -/
  update : ∀ now t,
    (t.id ∉ log.inserted.map (·.id) ∧
      (perform s now (.updateTransaction t)).1 = .error (noTransaction t.id)) ∨
    ∃ row, log.record? t.id = some row ∧
      (row.status.isTerminal = true ∧
          (perform s now (.updateTransaction t)).1 = .error (.illegalTransition row.status t.status) ∨
        row.status.isTerminal = false ∧ (perform s now (.updateTransaction t)).1 = .ok ())
  /-- The latest records are those with the largest identifiers, in descending order, each as it is found by its
  identifier. -/
  latest : ∀ now limit, ∃ ts, (perform s now (.latest limit)).1 = .ok ts ∧
    ts.map (·.id) = (List.range' 1 log.inserted.length).reverse.take limit ∧
    ts.Pairwise (fun t u => u.id < t.id) ∧ ∀ t ∈ ts, log.record? t.id = some t
  /-- Snapshots are numbered from one in the order in which they were added, over all users. -/
  filed : log.filed = log.presented.mapIdx fun i s => { s with id := i + 1 }
  file : ∀ now t, (perform s now (.appendHistory t)).1 = .ok { t with id := log.filed.length + 1 }
  /-- The history of a user is what was added for the user and is stamped within the time, newest first. -/
  history : ∀ now user asOf limit, (perform s now (.history user asOf limit)).1 =
    .ok ((log.filed.filter fun t => t.user = user ∧ t.createdAt.within asOf = true).reverse.take limit)
  /-- A balance is saved exactly if it is not negative. -/
  save : ∀ now b,
    (0 ≤ b.amount ∧ (perform s now (.saveBalance b)).1 = .ok ()) ∨
    (b.amount < 0 ∧ ∃ text, (perform s now (.saveBalance b)).1 = .error (.invalidTransaction text))
  /-- An access answers the row of the user, and makes a zero row if there is none. -/
  balance : ∀ now user, (perform s now (.balance user)).1 = .ok ((log.balance? user).getD (.zero user now))
  /-- A request that is answered with an error leaves the store as it was. -/
  refused : ∀ now request e, (perform s now request).1 = .error e → (perform s now request).2 = s

end

/-! ## The rows are what the log says -/

namespace StoreLog

/-- One more request, with what it inserted. -/
theorem inserted_concat (log : StoreLog) (x : Logbook.Entry StoreAnswer) :
    inserted (log ++ [x]) = log.inserted ++ (inserted? x).toList :=
  Logbook.filterMap_concat _ log x

/-- One more request, with what it offered. -/
theorem offered_concat (log : StoreLog) (x : Logbook.Entry StoreAnswer) :
    offered (log ++ [x]) = log.offered ++ (offered? x).toList :=
  Logbook.filterMap_concat _ log x

/-- One more request, with what it replaced. -/
theorem replacements_concat (log : StoreLog) (x : Logbook.Entry StoreAnswer) :
    replacements (log ++ [x]) = log.replacements ++ (replacement? x).toList :=
  Logbook.filterMap_concat _ log x

/-- One more request, with what it added to the history. -/
theorem filed_concat (log : StoreLog) (x : Logbook.Entry StoreAnswer) :
    filed (log ++ [x]) = log.filed ++ (filed? x).toList :=
  Logbook.filterMap_concat _ log x

/-- One more request, with what it presented to the history. -/
theorem presented_concat (log : StoreLog) (x : Logbook.Entry StoreAnswer) :
    presented (log ++ [x]) = log.presented ++ (presented? x).toList :=
  Logbook.filterMap_concat _ log x

/-- The last replacement of a record is the one that was accepted last. -/
theorem current_concat (log : StoreLog) (x : Logbook.Entry StoreAnswer) (t : Transaction) :
    current (log ++ [x]) t =
      match replacement? x with
      | none => log.current t
      | some u => if t.id = u.id then u else log.current t := by
  rw [current, replacements_concat, List.reverse_append]
  cases replacement? x with
  | none => rfl
  | some u =>
    by_cases h : t.id = u.id
    · simp [h]
    · simp [current, h, Ne.symm h]

/-- A record is overwritten under its own identifier only. -/
@[simp] theorem id_current (log : StoreLog) (t : Transaction) : (log.current t).id = t.id := by
  rw [current]
  cases h : log.replacements.reverse.find? fun u => u.id = t.id with
  | none => rfl
  | some u => simpa using List.find?_some h

/-- The row of a user after one more entry. -/
theorem balance?_concat (log : StoreLog) (x : Logbook.Entry StoreAnswer) (user : UserId) :
    balance? (log ++ [x]) user =
      ((saved? x).toList.find? fun b => b.user = user).or
        ((log.balance? user).or ((zero? x).toList.find? fun b => b.user = user)) := by
  have hone : (saved? x).toList.reverse = (saved? x).toList := by cases saved? x <;> rfl
  rw [balance?, Logbook.filterMap_concat, Logbook.filterMap_concat, List.reverse_append, hone, List.find?_append,
    List.find?_append, balance?, Option.or_assoc, Option.or_assoc]

end StoreLog

namespace Memory

variable {m m' : Memory} {log : StoreLog} {x : Logbook.Entry StoreAnswer}

/-- The records are the inserted ones, each with its last replacement. -/
structure MirrorsRecords (m : Memory) (log : StoreLog) : Prop where
  inserted : log.inserted = log.offered.mapIdx fun i t => { t with id := i + 1 }
  replaced : ∀ u ∈ log.replacements, u.id ∈ log.inserted.map (·.id)
  rows : m.transactions = log.inserted.map log.current

/-- The identifiers that were given are the numbers from one on. -/
theorem MirrorsRecords.ids (h : m.MirrorsRecords log) (hm : m.Sound) :
    log.inserted.map (·.id) = List.range' 1 log.inserted.length := by
  have hnumbered := hm.numbered
  rw [h.rows, List.map_map, List.length_map] at hnumbered
  simpa [Function.comp_def] using hnumbered

/-- What is found under an identifier is the record of the log. -/
theorem MirrorsRecords.transaction?_eq (h : m.MirrorsRecords log) (id : TransactionId) :
    m.transaction? id = log.record? id := by
  rw [transaction?, h.rows, List.find?_map, StoreLog.record?]
  congr 2
  funext t
  simp

/-- No replacement was accepted under an identifier that was not given. -/
theorem MirrorsRecords.current_new (h : m.MirrorsRecords log) {t : Transaction}
    (hnew : t.id ∉ log.inserted.map (·.id)) : log.current t = t := by
  have hnone : (log.replacements.reverse.find? fun u => u.id = t.id) = none := by
    refine List.find?_eq_none.2 fun u hu => ?_
    simp only [decide_eq_true_eq]
    exact fun hid => hnew (hid ▸ h.replaced u (List.mem_reverse.1 hu))
  rw [StoreLog.current, hnone]
  rfl

/-- A request that neither inserts a record nor replaces one. -/
theorem MirrorsRecords.same (h : m.MirrorsRecords log) (hrows : m'.transactions = m.transactions)
    (hoffered : StoreLog.offered? x = none) (hinserted : StoreLog.inserted? x = none)
    (hreplaced : StoreLog.replacement? x = none) : m'.MirrorsRecords (log ++ [x]) := by
  have hsame : StoreLog.inserted (log ++ [x]) = log.inserted := Logbook.filterMap_concat_none hinserted
  have hsame_offered : StoreLog.offered (log ++ [x]) = log.offered := Logbook.filterMap_concat_none hoffered
  have hsame_replaced : StoreLog.replacements (log ++ [x]) = log.replacements :=
    Logbook.filterMap_concat_none hreplaced
  refine ⟨?_, ?_, ?_⟩
  · rw [hsame, hsame_offered]
    exact h.inserted
  · rw [hsame, hsame_replaced]
    exact h.replaced
  · rw [hsame, hrows, h.rows]
    simp [StoreLog.current_concat, hreplaced]

/-- An insertion that is accepted adds its record to those of the log; one that is refused adds nothing to either. -/
theorem MirrorsRecords.insert (h : m.MirrorsRecords log) (hm : m.Sound) (now : Instant) (t : Transaction) :
    (m.perform now (.insertTransaction t)).2.MirrorsRecords
      (log ++ [⟨(now, .insertTransaction t), (m.perform now (.insertTransaction t)).1⟩]) := by
  have hrows : m.transactions.length = log.inserted.length := by rw [h.rows, List.length_map]
  have hoffered : log.inserted.length = log.offered.length := by rw [h.inserted, List.length_mapIdx]
  have hnew : log.inserted.length + 1 ∉ log.inserted.map (·.id) := by
    rw [h.ids hm, List.mem_range'_1]
    omega
  have hfresh : log.current { t with id := log.inserted.length + 1 } = { t with id := log.inserted.length + 1 } :=
    h.current_new hnew
  refine ⟨?_, ?_, ?_⟩
  · rw [StoreLog.inserted_concat, StoreLog.offered_concat, h.inserted]
    simp [StoreLog.inserted?, StoreLog.offered?, Memory.perform, hrows, hoffered]
  · intro u hu
    rw [StoreLog.replacements, Logbook.filterMap_concat_none rfl, ← StoreLog.replacements] at hu
    rw [StoreLog.inserted_concat, List.map_append, List.mem_append]
    exact Or.inl (h.replaced u hu)
  · simp [StoreLog.inserted_concat, StoreLog.current_concat, StoreLog.inserted?, StoreLog.replacement?,
      Memory.perform, hfresh, h.rows]

/-- An update replaces a record in the store exactly if it does in the log. -/
theorem MirrorsRecords.update (h : m.MirrorsRecords log) (hm : m.Sound) (now : Instant) (t : Transaction) :
    (m.perform now (.updateTransaction t)).2.MirrorsRecords
      (log ++ [⟨(now, .updateTransaction t), (m.perform now (.updateTransaction t)).1⟩]) := by
  rcases m.updateTransaction_answers now t with ⟨-, hperform⟩ | ⟨row, hrow, ⟨-, hperform⟩ | ⟨-, hperform⟩⟩
  · rw [hperform]
    exact h.same rfl rfl rfl rfl
  · rw [hperform]
    exact h.same rfl rfl rfl rfl
  · obtain ⟨hmem, hid⟩ := Keyed.of_find? hrow
    rw [hperform, putTransaction_eq_map t _ hm.ids_nodup]
    have hsame : StoreLog.inserted (log ++ [⟨(now, .updateTransaction t), .ok ()⟩]) = log.inserted :=
      Logbook.filterMap_concat_none rfl
    have hsame_offered : StoreLog.offered (log ++ [⟨(now, .updateTransaction t), .ok ()⟩]) = log.offered :=
      Logbook.filterMap_concat_none rfl
    refine ⟨?_, ?_, ?_⟩
    · rw [hsame, hsame_offered]
      exact h.inserted
    · rw [hsame, StoreLog.replacements_concat]
      intro u hu
      rcases List.mem_append.1 hu with hu | hu
      · exact h.replaced u hu
      · obtain rfl : u = t := by simpa [StoreLog.replacement?] using hu
        rw [h.rows] at hmem
        obtain ⟨v, hv, rfl⟩ := List.mem_map.1 hmem
        exact List.mem_map.2 ⟨v, hv, (log.id_current v).symm.trans hid⟩
    · rw [hsame, h.rows, List.map_map]
      refine List.map_congr_left fun u _ => ?_
      simp [StoreLog.current_concat, StoreLog.replacement?]

/-- The records go with the log, whatever is requested. -/
theorem MirrorsRecords.perform (h : m.MirrorsRecords log) (hm : m.Sound) (now : Instant) (request : StoreRequest) :
    (m.perform now request).2.MirrorsRecords (log ++ [⟨(now, request), (m.perform now request).1⟩]) := by
  cases request with
  | insertTransaction t => exact h.insert hm now t
  | updateTransaction t => exact h.update hm now t
  | balance user => exact h.same (m.frame_balance now user).1 rfl rfl rfl
  | saveBalance b => exact h.same (m.frame_saveBalance now b).1 rfl rfl rfl
  | appendHistory | history | transaction | latest => exact h.same rfl rfl rfl rfl

/-- The history is what was added, numbered in the order of adding. -/
structure MirrorsHistory (m : Memory) (log : StoreLog) : Prop where
  filed : log.filed = log.presented.mapIdx fun i s => { s with id := i + 1 }
  rows : m.history = log.filed

/-- The history goes with the log where neither changes. -/
theorem MirrorsHistory.same (h : m.MirrorsHistory log) (hrows : m'.history = m.history)
    (hpresented : StoreLog.presented? x = none) (hfiled : StoreLog.filed? x = none) :
    m'.MirrorsHistory (log ++ [x]) := by
  have hsame : StoreLog.filed (log ++ [x]) = log.filed := Logbook.filterMap_concat_none hfiled
  have hsame_presented : StoreLog.presented (log ++ [x]) = log.presented := Logbook.filterMap_concat_none hpresented
  refine ⟨?_, by rw [hsame, hrows, h.rows]⟩
  rw [hsame, hsame_presented]
  exact h.filed

/-- The history goes with the log, whatever is requested. -/
theorem MirrorsHistory.perform (h : m.MirrorsHistory log) (now : Instant) (request : StoreRequest) :
    (m.perform now request).2.MirrorsHistory (log ++ [⟨(now, request), (m.perform now request).1⟩]) := by
  cases request with
  | appendHistory s =>
    have hlength : m.history.length = log.presented.length := by rw [h.rows, h.filed, List.length_mapIdx]
    refine ⟨?_, ?_⟩
    · rw [StoreLog.filed_concat, StoreLog.presented_concat, h.filed]
      simp [StoreLog.filed?, StoreLog.presented?, Memory.perform, hlength]
    · rw [StoreLog.filed_concat, ← h.rows]
      rfl
  | balance user => exact h.same (m.frame_balance now user).2 rfl rfl
  | saveBalance b => exact h.same (m.frame_saveBalance now b).2 rfl rfl
  | updateTransaction t => exact h.same (m.frame_updateTransaction now t).1 rfl rfl
  | history | insertTransaction | transaction | latest => exact h.same rfl rfl rfl

/-- The row of each user is the last balance saved, or the zero row of the first access. -/
def MirrorsBalances (m : Memory) (log : StoreLog) : Prop :=
  ∀ user, m.balance? user = log.balance? user

/-- The balances go with the log where neither changes. -/
theorem MirrorsBalances.same (h : m.MirrorsBalances log) (hrows : m'.balances = m.balances)
    (hsaved : StoreLog.saved? x = none) (hzero : StoreLog.zero? x = none) : m'.MirrorsBalances (log ++ [x]) := by
  intro user
  rw [StoreLog.balance?_concat, hsaved, hzero, ← h user, balance?, hrows]
  exact (Option.or_none).symm

/-- The row of a user after one was put in place. -/
theorem balance?_put (m : Memory) (b : Balance) (user : UserId) :
    ({ m with balances := putBalance b m.balances } : Memory).balance? user =
      if b.user = user then some b else m.balance? user :=
  find?_putBalance b m.balances user

/-- An access to the balance of a user makes a zero row, in the store and in the log, if it is the first. -/
theorem MirrorsBalances.access (h : m.MirrorsBalances log) (now : Instant) (user : UserId) :
    (m.perform now (.balance user)).2.MirrorsBalances
      (log ++ [⟨(now, .balance user), (m.perform now (.balance user)).1⟩]) := by
  intro other
  rw [StoreLog.balance?_concat, ← h other]
  cases hrow : m.balance? user with
  | some b =>
    -- the row that is there hides the zero row of this access
    by_cases hother : user = other
    · subst hother
      simp [Memory.perform, hrow, StoreLog.saved?]
    · simp [Memory.perform, hrow, StoreLog.saved?, StoreLog.zero?, Balance.zero, hother]
  | none =>
    simp only [Memory.perform, hrow, balance?_put, StoreLog.saved?, StoreLog.zero?]
    by_cases hother : user = other
    · subst hother
      simp [Balance.zero, hrow]
    · simp [Balance.zero, hother]

/-- A balance that is saved is the row of its user, in the store and in the log, unless it is negative. -/
theorem MirrorsBalances.save (h : m.MirrorsBalances log) (now : Instant) (b : Balance) :
    (m.perform now (.saveBalance b)).2.MirrorsBalances
      (log ++ [⟨(now, .saveBalance b), (m.perform now (.saveBalance b)).1⟩]) := by
  by_cases hneg : b.amount < 0
  · refine h.same ?_ (if_pos hneg) rfl
    rw [Memory.perform, if_pos hneg]
  · intro other
    rw [StoreLog.balance?_concat, ← h other]
    simp only [Memory.perform, if_neg hneg, balance?_put, StoreLog.saved?, StoreLog.zero?]
    by_cases hother : b.user = other <;> simp [hother]

/-- The balances go with the log, whatever is requested. -/
theorem MirrorsBalances.perform (h : m.MirrorsBalances log) (now : Instant) (request : StoreRequest) :
    (m.perform now request).2.MirrorsBalances (log ++ [⟨(now, request), (m.perform now request).1⟩]) := by
  cases request with
  | balance user => exact h.access now user
  | saveBalance b => exact h.save now b
  | updateTransaction t => exact h.same (m.frame_updateTransaction now t).2 rfl rfl
  | appendHistory | history | insertTransaction | transaction | latest => exact h.same rfl rfl rfl

/-- All rows of a store are what its log says. -/
structure Mirrors (m : Memory) (log : StoreLog) : Prop where
  sound : m.Sound
  records : m.MirrorsRecords log
  history : m.MirrorsHistory log
  balances : m.MirrorsBalances log

/-- An empty store goes with an empty log. -/
theorem mirrors_empty : Memory.empty.Mirrors [] :=
  ⟨sound_empty, ⟨rfl, fun _ h => (nomatch h), rfl⟩, ⟨rfl, rfl⟩, fun _ => rfl⟩

/-- A store goes with its log, whatever is requested next. -/
theorem Mirrors.perform (h : m.Mirrors log) (now : Instant) (request : StoreRequest) :
    (m.perform now request).2.Mirrors (log ++ [⟨(now, request), (m.perform now request).1⟩]) :=
  ⟨h.sound.perform now request, h.records.perform h.sound now request, h.history.perform now request,
    h.balances.perform now request⟩

/-! ## The answers are those of the log -/

/-- The records of a sound store are in the order of their identifiers. -/
theorem Sound.ascending (h : m.Sound) : m.transactions.Pairwise fun t u => t.id < u.id := by
  have hids : (m.transactions.map (·.id)).Pairwise (· < ·) := by
    rw [h.numbered]
    exact List.pairwise_lt_range' 1
  exact List.pairwise_map.1 hids

/-- The latest records have the largest identifiers, in descending order. -/
theorem Mirrors.latest (h : m.Mirrors log) (limit : Nat) :
    (m.transactions.reverse.take limit).map (·.id) = (List.range' 1 log.inserted.length).reverse.take limit ∧
      (m.transactions.reverse.take limit).Pairwise (fun t u => u.id < t.id) ∧
      ∀ t ∈ m.transactions.reverse.take limit, log.record? t.id = some t := by
  refine ⟨?_, ?_, ?_⟩
  · rw [List.map_take, List.map_reverse, h.sound.numbered, h.records.rows, List.length_map]
  · exact (List.pairwise_reverse.2 h.sound.ascending).sublist (List.take_sublist _ _)
  · intro t ht
    rw [← h.records.transaction?_eq]
    exact h.sound.transaction?_of_mem (List.mem_reverse.1 (List.mem_of_mem_take ht))

/-- A store whose rows are what its log says gives the answers of the log. -/
theorem Mirrors.followsLog (h : m.Mirrors log) : FollowsLog Memory.perform m log where
  inserted := h.records.inserted
  insert now t := by
    rw [Memory.perform, h.records.rows, List.length_map]
  get now id := congrArg Except.ok (h.records.transaction?_eq id)
  update now t := by
    rw [← h.records.transaction?_eq]
    -- no row, a terminal row, or a pending one: the log says which
    rcases m.updateTransaction_answers now t with ⟨hnone, hperform⟩ | ⟨row, hrow, hperform⟩
    · refine Or.inl ⟨?_, congrArg Prod.fst hperform⟩
      have hgone := Keyed.not_mem_of_find? hnone
      rw [h.records.rows, List.map_map] at hgone
      simpa [Function.comp_def] using hgone
    · refine Or.inr ⟨row, hrow, ?_⟩
      rcases hperform with ⟨hterminal, hperform⟩ | ⟨hopen, hperform⟩
      · exact Or.inl ⟨hterminal, congrArg Prod.fst hperform⟩
      · exact Or.inr ⟨hopen, congrArg Prod.fst hperform⟩
  latest now limit := ⟨_, rfl, h.latest limit⟩
  filed := h.history.filed
  file now t := by rw [Memory.perform, h.history.rows]
  history now user asOf limit := by
    rw [Memory.perform, snapshotsUntil_eq, List.filter_filter, h.history.rows]
    simp only [Bool.and_comm, Bool.decide_and, Bool.decide_eq_true]
  save now b := by
    rw [Memory.perform]
    by_cases hneg : b.amount < 0
    · rw [if_pos hneg]
      exact Or.inr ⟨hneg, _, rfl⟩
    · rw [if_neg hneg]
      exact Or.inl ⟨Int64.not_lt.1 hneg, rfl⟩
  balance now user := by
    rw [Memory.perform, ← h.balances user]
    cases m.balance? user <;> rfl
  refused now request e herror := by
    cases request with
    | updateTransaction t =>
      rcases m.updateTransaction_answers now t with ⟨-, hperform⟩ | ⟨row, -, ⟨-, hperform⟩ | ⟨-, hperform⟩⟩
      · rw [hperform]
      · rw [hperform]
      · rw [hperform] at herror
        cases herror
    | balance user =>
      rw [Memory.perform] at herror
      split at herror <;> cases herror
    | saveBalance b =>
      by_cases hneg : b.amount < 0
      · rw [Memory.perform, if_pos hneg]
      · rw [Memory.perform, if_neg hneg] at herror
        cases herror
    | appendHistory | history | insertTransaction | transaction | latest => cases herror

end Memory

end CentLedger
