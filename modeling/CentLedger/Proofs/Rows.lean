import CentLedger.Proofs.Amounts
import CentLedger.Store.Memory

/-!
# The rows of a store

Statements about `Memory.perform`. A sound store has no negative balance, and its transaction records are numbered from
one in the order of insertion; every request keeps a store sound, whatever it asks, so every store that was ever empty
is sound (`Memory.Reachable.sound`). The other statements say what a request does to the amounts of the accounts and to
the records.
-/

namespace CentLedger

namespace Memory

/-- A store that was empty and has answered requests. -/
inductive Reachable : Memory → Prop where
  | empty : Reachable .empty
  | perform {m : Memory} (now : Instant) (request : StoreRequest) : Reachable m → Reachable (m.perform now request).2

/-- No balance is negative, and the records are numbered in order. -/
structure Sound (m : Memory) : Prop where
  covered : ∀ b ∈ m.balances, 0 ≤ b.amount.toInt
  numbered : m.transactions.map (·.id) = List.range' 1 m.transactions.length

/-! ## Balances -/

/-- Looking up a user after a row was put in place. -/
theorem find?_putBalance (b : Balance) (bs : List Balance) (user : UserId) :
    (putBalance b bs).find? (fun c => c.user = user) =
      if b.user = user then some b else bs.find? (fun c => c.user = user) := by
  induction bs with
  | nil =>
    by_cases hu : b.user = user
    · simp [putBalance, hu]
    · simp [putBalance, hu]
  | cons c bs ih =>
    by_cases hc : c.user = b.user
    · by_cases hu : b.user = user
      · simp [putBalance, hc, hu]
      · simp [putBalance, hc, hu]
    · by_cases hu : c.user = user
      · subst hu
        have hb : b.user ≠ c.user := fun h => hc h.symm
        simp [putBalance, hc, hb]
      · simp [putBalance, hc, hu, ih]

/-- The amount of a user after a row was put in place. -/
theorem amountOf_put (m : Memory) (b : Balance) (user : UserId) :
    ({ m with balances := putBalance b m.balances } : Memory).amountOf user =
      if b.user = user then b.amount else m.amountOf user := by
  simp only [amountOf, balance?, find?_putBalance]
  by_cases h : b.user = user
  · simp [h]
  · simp [h]

/-- The rows after one was put in place: the new one and old ones. -/
theorem mem_putBalance {b c : Balance} {bs : List Balance} (h : c ∈ putBalance b bs) : c = b ∨ c ∈ bs := by
  induction bs with
  | nil => exact Or.inl (List.mem_singleton.1 h)
  | cons d bs ih =>
    simp only [putBalance] at h
    split at h
    · rcases List.mem_cons.1 h with h | h
      · exact Or.inl h
      · exact Or.inr (List.mem_cons_of_mem _ h)
    · rcases List.mem_cons.1 h with h | h
      · exact Or.inr (h ▸ List.mem_cons_self)
      · exact (ih h).imp_right (List.mem_cons_of_mem _)

/-- A row that is found is the row of the user, and in the store. -/
theorem balance?_spec {m : Memory} {user : UserId} {b : Balance} (h : m.balance? user = some b) :
    b.user = user ∧ b ∈ m.balances := by
  have h1 := List.find?_some h
  exact ⟨by simpa using h1, List.mem_of_find?_eq_some h⟩

/-- A sound store has no negative amount. -/
theorem Sound.amountOf_nonneg {m : Memory} (h : m.Sound) (user : UserId) : 0 ≤ (m.amountOf user).toInt := by
  simp only [amountOf]
  cases hb : m.balance? user with
  | none => exact le_of_eq Int64.toInt_zero.symm
  | some b => exact h.covered b (balance?_spec hb).2

/-- Reading a balance answers the amount of the user. -/
theorem perform_balance (m : Memory) (now : Instant) (user : UserId) :
    ∃ b, (m.perform now (.balance user)).1 = .ok b ∧ b.user = user ∧ b.amount = m.amountOf user := by
  simp only [perform, amountOf]
  cases hb : m.balance? user with
  | none => exact ⟨.zero user now, rfl, rfl, rfl⟩
  | some b => exact ⟨b, rfl, (balance?_spec hb).1, rfl⟩

/-- Reading a balance leaves all amounts alone, also where it makes a row. -/
theorem amountOf_perform_balance (m : Memory) (now : Instant) (user other : UserId) :
    (m.perform now (.balance user)).2.amountOf other = m.amountOf other := by
  simp only [perform]
  cases hb : m.balance? user with
  | some b => rfl
  | none =>
    simp only [amountOf_put]
    by_cases h : user = other
    · subst h
      simp [Balance.zero, amountOf, hb]
    · simp [Balance.zero, h]

/-- An access to a balance touches the balances only. -/
theorem frame_balance (m : Memory) (now : Instant) (user : UserId) :
    (m.perform now (.balance user)).2.transactions = m.transactions ∧
      (m.perform now (.balance user)).2.history = m.history := by
  rw [perform]
  split <;> exact ⟨rfl, rfl⟩

/-- A balance that is not negative is written. -/
theorem perform_saveBalance (m : Memory) (now : Instant) {b : Balance} (h : 0 ≤ b.amount.toInt) :
    m.perform now (.saveBalance b) = (.ok (), { m with balances := putBalance b m.balances }) := by
  have hneg : ¬b.amount < 0 := by
    rw [cents_lt_zero_iff]
    omega
  simp only [perform, if_neg hneg]

/-- A balance that is saved touches the balances only. -/
theorem frame_saveBalance (m : Memory) (now : Instant) (b : Balance) :
    (m.perform now (.saveBalance b)).2.transactions = m.transactions ∧
      (m.perform now (.saveBalance b)).2.history = m.history := by
  rw [perform]
  split <;> exact ⟨rfl, rfl⟩

/-! ## Transaction records -/

/-- Replacing a record keeps all identifiers. -/
theorem map_id_putTransaction (t : Transaction) (ts : List Transaction) :
    (putTransaction t ts).map (·.id) = ts.map (·.id) := by
  induction ts with
  | nil => rfl
  | cons s ts ih =>
    by_cases h : s.id = t.id
    · simp [putTransaction, h]
    · simp [putTransaction, h, ih]

/-- Where no two records have one identifier, replacing a record replaces exactly the one that has it. -/
theorem putTransaction_eq_map (t : Transaction) (ts : List Transaction) (h : (ts.map (·.id)).Nodup) :
    putTransaction t ts = ts.map fun s => if s.id = t.id then t else s := by
  induction ts with
  | nil => rfl
  | cons s ts ih =>
    rw [List.map_cons, List.nodup_cons] at h
    by_cases hs : s.id = t.id
    · have hrest : ts.map (fun s => if s.id = t.id then t else s) = ts.map id := by
        apply List.map_congr_left
        intro r hr
        have hne : r.id ≠ t.id := fun e => h.1 (hs ▸ e ▸ List.mem_map_of_mem hr)
        simp [hne]
      simp [putTransaction, hs, hrest]
    · simp [putTransaction, hs, ih h.2]

/-- No two records of a sound store have one identifier. -/
theorem Sound.ids_nodup {m : Memory} (h : m.Sound) : (m.transactions.map (·.id)).Nodup := by
  rw [h.numbered]
  exact List.nodup_range'

/-- The identifiers of a sound store are the numbers from one to the number of its records. -/
theorem Sound.id_bounds {m : Memory} (h : m.Sound) {t : Transaction} (ht : t ∈ m.transactions) :
    1 ≤ t.id ∧ t.id ≤ m.transactions.length := by
  have hid : t.id ∈ m.transactions.map (·.id) := List.mem_map_of_mem ht
  rw [h.numbered, List.mem_range'_1] at hid
  exact ⟨hid.1, Nat.lt_one_add_iff.1 hid.2⟩

/-- A record of a sound store is found under its identifier. -/
theorem Sound.transaction?_of_mem {m : Memory} (h : m.Sound) {t : Transaction} (ht : t ∈ m.transactions) :
    m.transaction? t.id = some t := by
  have hsome : (m.transaction? t.id).isSome := by
    simp only [transaction?, List.find?_isSome]
    exact ⟨t, ht, by simp⟩
  obtain ⟨s, hs⟩ := Option.isSome_iff_exists.1 hsome
  have hid : s.id = t.id := by simpa using List.find?_some hs
  have hmem : s ∈ m.transactions := List.mem_of_find?_eq_some hs
  rw [hs, List.inj_on_of_nodup_map h.ids_nodup hmem ht hid]

/-- A record that is not terminal is replaced. -/
theorem perform_updateTransaction {m : Memory} (now : Instant) {s t : Transaction} (hm : m.Sound)
    (hs : s ∈ m.transactions) (hid : s.id = t.id) (hp : s.status = .pending) :
    m.perform now (.updateTransaction t) = (.ok (), { m with transactions := putTransaction t m.transactions }) := by
  have hfind : m.transaction? t.id = some s := hid ▸ hm.transaction?_of_mem hs
  simp [perform, hfind, hp, Status.isTerminal]

/-- What becomes of a replacement, by what is found under its identifier. -/
theorem updateTransaction_answers (m : Memory) (now : Instant) (t : Transaction) :
    (m.transaction? t.id = none ∧ m.perform now (.updateTransaction t) = (.error (noTransaction t.id), m)) ∨
    ∃ row, m.transaction? t.id = some row ∧
      (row.status.isTerminal = true ∧
          m.perform now (.updateTransaction t) = (.error (.illegalTransition row.status t.status), m) ∨
        row.status.isTerminal = false ∧
          m.perform now (.updateTransaction t) =
            (.ok (), { m with transactions := putTransaction t m.transactions })) := by
  rw [perform]
  cases m.transaction? t.id with
  | none => exact Or.inl ⟨rfl, rfl⟩
  | some row =>
    refine Or.inr ⟨row, rfl, ?_⟩
    cases hterminal : row.status.isTerminal with
    | true => exact Or.inl ⟨rfl, by simp only [hterminal, if_true]⟩
    | false => exact Or.inr ⟨rfl, by simp [hterminal]⟩

/-- A replacement touches the records only. -/
theorem frame_updateTransaction (m : Memory) (now : Instant) (t : Transaction) :
    (m.perform now (.updateTransaction t)).2.history = m.history ∧
      (m.perform now (.updateTransaction t)).2.balances = m.balances := by
  rcases m.updateTransaction_answers now t with ⟨-, hperform⟩ | ⟨_, -, ⟨-, hperform⟩ | ⟨-, hperform⟩⟩ <;>
    rw [hperform] <;> exact ⟨rfl, rfl⟩

/-! ## Every request keeps a store sound -/

theorem sound_empty : Memory.empty.Sound :=
  ⟨by simp [Memory.empty], rfl⟩

/-- A row that is not negative may be put in place. -/
theorem Sound.put {m : Memory} (h : m.Sound) {b : Balance} (hb : 0 ≤ b.amount.toInt) :
    ({ m with balances := putBalance b m.balances } : Memory).Sound := by
  refine ⟨fun c hc => ?_, h.numbered⟩
  rcases mem_putBalance hc with rfl | hc
  · exact hb
  · exact h.covered c hc

/-- Every request keeps a store sound. -/
theorem Sound.perform {m : Memory} (h : m.Sound) (now : Instant) (request : StoreRequest) :
    (m.perform now request).2.Sound := by
  cases request with
  | balance user =>
    simp only [Memory.perform]
    cases m.balance? user with
    | some b => exact h
    | none => exact h.put (le_of_eq Int64.toInt_zero.symm)
  | saveBalance b =>
    by_cases hb : 0 ≤ b.amount.toInt
    · rw [perform_saveBalance m now hb]
      exact h.put hb
    · have hneg : b.amount < 0 := (cents_lt_zero_iff _).2 (by omega)
      simp only [Memory.perform, if_pos hneg]
      exact h
  | appendHistory s => exact ⟨h.covered, h.numbered⟩
  | history user asOf limit => exact h
  | insertTransaction t =>
    refine ⟨h.covered, ?_⟩
    simp only [Memory.perform, List.map_append, List.length_append, h.numbered, List.map_cons, List.map_nil,
      List.length_cons, List.length_nil, List.range'_concat]
    simp [Nat.add_comm]
  | updateTransaction t =>
    simp only [Memory.perform]
    cases m.transaction? t.id with
    | none => exact h
    | some stored =>
      by_cases ht : stored.status.isTerminal = true
      · simp only [ht, if_true]
        exact h
      · have hlen : (putTransaction t m.transactions).length = m.transactions.length := by
          rw [← List.length_map (f := fun s : Transaction => s.id), map_id_putTransaction, List.length_map]
        simp only [if_neg ht]
        refine ⟨h.covered, ?_⟩
        simp only [map_id_putTransaction, hlen]
        exact h.numbered
  | transaction id => exact h
  | latest limit => exact h

/-- Every store that was ever empty is sound. -/
theorem Reachable.sound {m : Memory} (h : m.Reachable) : m.Sound := by
  induction h with
  | empty => exact sound_empty
  | perform now request _ ih => exact ih.perform now request

end Memory

end CentLedger
