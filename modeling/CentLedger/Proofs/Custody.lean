import CentLedger.Operation.Records
import CentLedger.Proofs.Solitary

/-!
# Copies of records

Callers keep copies of the records that the ledger hands out, copy them again, and close records through any of them. A
copy may be stale: it still says pending when the record was closed through another one. Both guards are needed then.
The copy's own status refuses what is known to be closed, and the store refuses to replace a terminal row.

`Custody.Sound` is the invariant: a copy is the stored record, or it is stale. Every dealing keeps it (`Sound.step`),
and keeps the rows (`Memory.RecordsKept`). The main statement is `terminal_records_absorb`: a record is closed at most
once, and nothing that anybody does afterwards changes it.
-/

namespace CentLedger

/-- What closing leaves alone in a record. -/
def Transaction.opening (t : Transaction) : TransactionId × Request × Instant :=
  (t.id, ⟨t.kind, t.source, t.target, t.amount⟩, t.createdAt)

/-- What closing leaves alone includes the identifier. -/
theorem Transaction.id_of_opening {s t : Transaction} (h : s.opening = t.opening) : s.id = t.id :=
  congrArg (·.1) h

/-- No record disappears, none is about another request than it was, and a terminal one does not change at all. -/
def Memory.RecordsKept (m m' : Memory) : Prop :=
  ∀ row ∈ m.transactions, ∃ row' ∈ m'.transactions, row'.opening = row.opening ∧
    (row.status.isTerminal = true → row' = row)

namespace Memory.RecordsKept

variable {m m' m'' : Memory}

/-- The same records are kept. -/
theorem of_eq (h : m'.transactions = m.transactions) : m.RecordsKept m' :=
  fun row hrow => ⟨row, h ▸ hrow, rfl, fun _ => rfl⟩

/-- What is kept twice is kept. -/
theorem trans (h : m.RecordsKept m') (h' : m'.RecordsKept m'') : m.RecordsKept m'' := by
  intro row hrow
  obtain ⟨row', hrow', hopening, hsame⟩ := h row hrow
  obtain ⟨row'', hrow'', hopening', hsame'⟩ := h' row' hrow'
  refine ⟨row'', hrow'', hopening'.trans hopening, ?_⟩
  intro hterminal
  have := hsame hterminal
  subst this
  exact hsame' hterminal

end Memory.RecordsKept

namespace Memory

/-- A copy is the stored record, or it is stale: it says pending, and the record was closed since. -/
def HasCopy (m : Memory) (t : Transaction) : Prop :=
  ∃ row ∈ m.transactions, row.opening = t.opening ∧ (row = t ∨ t.status = .pending ∧ row.status.isTerminal = true)

variable {m : Memory} {row t next : Transaction}

/-- There is one row under an identifier. -/
theorem Sound.row_unique (hm : m.Sound) (hrow : row ∈ m.transactions) (ht : t ∈ m.transactions) (hid : row.id = t.id) :
    row = t :=
  List.inj_on_of_nodup_map hm.ids_nodup hrow ht hid

/-- A copy of a record that is still pending is the stored one. -/
theorem HasCopy.eq_of_pending (h : m.HasCopy t) (hm : m.Sound) (hrow : row ∈ m.transactions) (hid : row.id = t.id)
    (hpending : row.status = .pending) : row = t := by
  obtain ⟨row', hrow', hopening, hcase⟩ := h
  have hsame : row' = row := hm.row_unique hrow' hrow ((Transaction.id_of_opening hopening).trans hid.symm)
  subst hsame
  rcases hcase with h | ⟨-, hterminal⟩
  · exact h
  · rw [hpending] at hterminal
    cases hterminal

/-- The rows after one of them was replaced. -/
theorem mem_replaced (hrow : row ∈ m.transactions) (next : Transaction) :
    (if row.id = next.id then next else row) ∈ m.transactions.map fun r => if r.id = next.id then next else r :=
  List.mem_map_of_mem hrow

/-- A record is replaced where the row is pending, and nowhere else. -/
theorem Sound.updateTransaction_cases (hm : m.Sound) (now : Instant) (t : Transaction) :
    (∃ row ∈ m.transactions, row.id = t.id ∧ row.status = .pending ∧
        m.perform now (.updateTransaction t) =
          (.ok (), { m with transactions := m.transactions.map fun r => if r.id = t.id then t else r })) ∨
      (∀ row ∈ m.transactions, row.id = t.id → row.status ≠ .pending) ∧
        ∃ e, m.perform now (.updateTransaction t) = (.error e, m) := by
  by_cases h : ∃ row ∈ m.transactions, row.id = t.id ∧ row.status = .pending
  · obtain ⟨row, hrow, hid, hpending⟩ := h
    refine Or.inl ⟨row, hrow, hid, hpending, ?_⟩
    rw [perform_updateTransaction now hm hrow hid hpending, putTransaction_eq_map t _ hm.ids_nodup]
  · refine Or.inr ⟨fun row hrow hid hpending => h ⟨row, hrow, hid, hpending⟩, ?_⟩
    rcases m.updateTransaction_answers now t with ⟨-, hperform⟩ | ⟨row, hrow, ⟨-, hperform⟩ | ⟨hopen, -⟩⟩
    · exact ⟨_, hperform⟩
    · exact ⟨_, hperform⟩
    · have hid : row.id = t.id := by simpa using List.find?_some hrow
      have hpending : row.status = .pending := by
        cases hs : row.status with
        | pending => rfl
        | completed | failed => simp [hs, Status.isTerminal] at hopen
      exact absurd ⟨row, List.mem_of_find?_eq_some hrow, hid, hpending⟩ h

end Memory

/-! ## Calls about records -/

namespace Ledger

variable {l : Ledger} {weather : Nat → Circumstance} {c : Circumstance} {call : CallId} {α : Type} {past : Deeds}

/-- A program that looks at the clock goes on with the time of the circumstance. -/
theorem runUnder_clock {k : Instant → Program α} (hat : weather past.length = c) :
    l.runUnder weather call (Program.clock >>= k) past =
      (l.under c).runUnder weather call (k c.now) (.looked c.now :: past) := by
  show runUnder weather call (.act .clock k) past l = _
  simp only [runUnder, hat, actUnder_clock]
  rfl

/-- A program that asks a store which answers goes on with the answer and the rows after it. -/
theorem runUnder_answered (hw : l.Working) {request : StoreRequest} {k : Except Error request.Answer → Program α}
    {answer : Except Error request.Answer} {m : Memory} (hm : l.store.memory.perform c.now request = (answer, m))
    (hc : c.outage = none) (hat : weather past.length = c) :
    l.runUnder weather call (Program.ask request >>= k) past =
      runUnder weather call (k answer) (.of (.store request) answer :: past)
        { l.under c with store := ⟨m, .none⟩ } := by
  show runUnder weather call (.act (.store request) k) past l = _
  simp only [runUnder, hat, actUnder_store hw hc, hm]

/-- A program that asks a store which is out goes on with a refusal, and the rows are as they were. -/
theorem runUnder_refused {request : StoreRequest} {k : Except Error request.Answer → Program α} {text : String}
    (hc : c.outage = some text) (hat : weather past.length = c) :
    l.runUnder weather call (Program.ask request >>= k) past =
      (l.under c).runUnder weather call (k (.error (.storageUnavailable text)))
        (.refused request (.storageUnavailable text) :: past) := by
  show runUnder weather call (.act (.store request) k) past l = _
  simp only [runUnder, hat, actUnder_refused hc]
  rfl

/-- A request comes to its end: the rows answer it, or the store refuses it and the rows are as they were. -/
theorem runUnder_ask (hw : l.Working) (hs : l.store.memory.Sound) (weather : Nat → Circumstance) (call : CallId)
    (past : Deeds) (request : StoreRequest) :
    ∃ answer l' past', l.runUnder weather call (Program.ask request) past = (.finished answer, l', past') ∧ l'.Working ∧
      l'.store.memory.Sound ∧ ((∃ now, (answer, l'.store.memory) = l.store.memory.perform now request) ∨
        (∃ e, answer = .error e) ∧ l'.store.memory = l.store.memory) := by
  cases hc : (weather past.length).outage with
  | none =>
    exact ⟨_, _, _, runUnder_answered (k := .done) hw rfl hc rfl, ⟨rfl, hw.gate⟩, hs.perform _ request, Or.inl ⟨_, rfl⟩⟩
  | some text =>
    exact ⟨_, _, _, runUnder_refused (k := .done) hc rfl, hw.under _, hs, Or.inr ⟨⟨_, rfl⟩, rfl⟩⟩

/-- What is made of the result of a program does not change what it does. -/
theorem runUnder_map {β : Type} {p : Program α} {a : α} {l' : Ledger} {past' : Deeds} (f : α → β)
    (h : l.runUnder weather call p past = (.finished a, l', past')) :
    l.runUnder weather call (p.map f) past = (.finished (f a), l', past') :=
  runUnder_bind h

end Ledger

namespace Records

variable {l : Ledger} {weather : Nat → Circumstance} {t : Transaction} {move : Instant → Except Error Transaction}

/-- A move closes a record that is pending, and is refused for one that is not. -/
def Closes (t : Transaction) (move : Instant → Except Error Transaction) : Prop :=
  ∀ now, t.status = .pending ∧
      (∃ next, move now = .ok next ∧ next.opening = t.opening ∧ next.status.isTerminal = true) ∨
    t.status ≠ .pending ∧ ∃ e, move now = .error e

/-- The state machine has a move to a terminal status from the pending one alone. -/
theorem moveTo_cases (t : Transaction) (status : Status) (hend : status.isTerminal = true) (now : Instant) :
    t.status = .pending ∧ t.moveTo status now = .ok { t with status := status, updatedAt := now } ∨
      t.status ≠ .pending ∧ ∃ e, t.moveTo status now = .error e := by
  unfold Transaction.moveTo
  cases hfrom : t.status <;> cases status <;> simp_all [Status.canMoveTo, Status.isTerminal]

/-- To complete a record closes it. -/
theorem closes_complete (t : Transaction) : Closes t t.complete := by
  intro now
  rcases moveTo_cases t .completed rfl now with ⟨hp, hok⟩ | ⟨hp, e, herror⟩
  · exact Or.inl ⟨hp, _, hok, rfl, rfl⟩
  · exact Or.inr ⟨hp, e, herror⟩

/-- To fail a record closes it. -/
theorem closes_fail (t : Transaction) (cause : String) : Closes t (t.fail cause) := by
  intro now
  rcases moveTo_cases t .failed rfl now with ⟨hp, hok⟩ | ⟨hp, e, herror⟩
  · refine Or.inl ⟨hp, { t with status := .failed, updatedAt := now, failureCause := some cause }, ?_, rfl, rfl⟩
    simp only [Transaction.fail, hok, Except.map]
  · exact Or.inr ⟨hp, e, by simp only [Transaction.fail, herror, Except.map]⟩

/-- What came of closing a record through a value: the value and the row under its identifier were pending, the store
answered, and the closed value is in the place of the row; or there is an error, and the rows are as they were. -/
inductive Replaced (t : Transaction) (m : Memory) (c : Circumstance) : Except Error Transaction → Memory → Prop
  | replaced {row next : Transaction} (pending : t.status = .pending) (calm : c.outage = none)
      (stored : row ∈ m.transactions) (same : row.id = t.id) (unclosed : row.status = .pending)
      (opening : next.opening = t.opening) (terminal : next.status.isTerminal = true) :
      Replaced t m c (.ok next)
        { m with transactions := m.transactions.map fun r => if r.id = next.id then next else r }
  | refused {e : Error} (because : t.status = .pending → c.outage = none →
      ∀ row ∈ m.transactions, row.id = t.id → row.status ≠ .pending) : Replaced t m c (.error e) m

/-- Closing a record through a value comes to its end. -/
theorem runUnder_replace (hw : l.Working) (hm : l.store.memory.Sound) (hmove : Closes t move)
    (weather : Nat → Circumstance) (call : CallId) :
    ∃ r l' past, l.runUnder weather call (close move) [] = (.finished r, l', past) ∧ l'.Working ∧
      l'.store.memory.Sound ∧ Replaced t l.store.memory (weather 1) r l'.store.memory := by
  unfold close
  rw [Ledger.runUnder_clock rfl]
  rcases hmove (weather 0).now with ⟨hpending, next, hnext, hopening, hterminal⟩ | ⟨hpending, e, herror⟩
  · have hid : next.id = t.id := Transaction.id_of_opening hopening
    simp only [List.length_nil, hnext]
    cases hc : (weather 1).outage with
    | some text =>
      rw [Ledger.runUnder_refused hc rfl]
      refine ⟨_, _, _, rfl, (hw.under _).under _, hm, .refused ?_⟩
      rw [hc]
      rintro - ⟨⟩
    | none =>
      have hsound := hm.perform (weather 1).now (.updateTransaction next)
      rcases hm.updateTransaction_cases (weather 1).now next with
        ⟨row, hrow, hsame, hopen, hperform⟩ | ⟨hnone, e, hperform⟩
      · rw [hperform] at hsound
        rw [Ledger.runUnder_answered (hw.under (weather 0)) hperform hc rfl]
        exact ⟨_, _, _, rfl, ⟨rfl, hw.gate⟩, hsound,
          .replaced hpending hc hrow (hsame.trans hid) hopen hopening hterminal⟩
      · rw [Ledger.runUnder_answered (hw.under (weather 0)) hperform hc rfl]
        exact ⟨_, _, _, rfl, ⟨rfl, hw.gate⟩, hm, .refused fun _ _ row hrow hsame => hnone row hrow (hsame.trans hid.symm)⟩
  · simp only [List.length_nil, herror]
    exact ⟨_, _, _, rfl, hw.under _, hm, .refused fun h => absurd h hpending⟩

/-- What came of closing a record through a copy: the copy was the stored record and pending, the store answered, and
the row was replaced; or there is an error, and the rows are as they were. -/
inductive Closed (t : Transaction) (m : Memory) (c : Circumstance) : Except Error Transaction → Memory → Prop
  | replaced {next : Transaction} (pending : t.status = .pending) (calm : c.outage = none) (stored : t ∈ m.transactions)
      (opening : next.opening = t.opening) (terminal : next.status.isTerminal = true) :
      Closed t m c (.ok next)
        { m with transactions := m.transactions.map fun r => if r.id = next.id then next else r }
  | refused {e : Error} (because : t.status = .pending → c.outage = none → t ∉ m.transactions) :
      Closed t m c (.error e) m

/-- Closing a record through a copy comes to its end. -/
theorem runUnder_close (hw : l.Working) (hm : l.store.memory.Sound) (ht : l.store.memory.HasCopy t)
    (hmove : Closes t move) (weather : Nat → Circumstance) (call : CallId) :
    ∃ r l' past, l.runUnder weather call (close move) [] = (.finished r, l', past) ∧ l'.Working ∧
      l'.store.memory.Sound ∧ Closed t l.store.memory (weather 1) r l'.store.memory := by
  obtain ⟨r, l', past, hrun, hw', hm', hrows⟩ := runUnder_replace hw hm hmove weather call
  refine ⟨r, l', past, hrun, hw', hm', ?_⟩
  generalize l'.store.memory = m' at hrows ⊢
  cases hrows with
  | replaced pending calm stored same unclosed opening terminal =>
    have hrow := ht.eq_of_pending hm stored same unclosed
    exact .replaced pending calm (hrow ▸ stored) opening terminal
  | refused because => exact .refused fun hp hc hmem => because hp hc t hmem rfl hp

/-- A record that was not closed left the rows alone; if the copy was pending and the store answered, the copy was
stale. -/
theorem Closed.of_error {m m' : Memory} {c : Circumstance} {e : Error} (h : Closed t m c (.error e) m') :
    m' = m ∧ (t.status = .pending → c.outage = none → t ∉ m.transactions) := by
  cases h with
  | refused because => exact ⟨rfl, because⟩

/-- A record that was closed was stored as the copy says, and the row under its identifier is terminal now. -/
theorem Closed.of_ok {m m' : Memory} {c : Circumstance} {next : Transaction} (h : Closed t m c (.ok next) m') :
    (t.status = .pending ∧ c.outage = none ∧ t ∈ m.transactions) ∧ next.id = t.id ∧ next ∈ m'.transactions ∧
      next.status.isTerminal = true := by
  cases h with
  | replaced pending calm stored opening terminal =>
    have hid := Transaction.id_of_opening opening
    refine ⟨⟨pending, calm, stored⟩, hid, ?_, terminal⟩
    have hmem := Memory.mem_replaced stored next
    rwa [if_pos hid.symm] at hmem

/-- Closing a record keeps the rows. -/
theorem Closed.kept {m m' : Memory} {c : Circumstance} {r : Except Error Transaction} (h : Closed t m c r m')
    (hm : m.Sound) : m.RecordsKept m' := by
  cases h with
  | refused => exact .of_eq rfl
  | @replaced next hpending _ hstored hopening _ =>
    intro row hrow
    refine ⟨_, Memory.mem_replaced hrow next, ?_⟩
    by_cases hid : row.id = next.id
    · have hsame := hm.row_unique hrow hstored (hid.trans (Transaction.id_of_opening hopening))
      subst hsame
      rw [if_pos hid, hpending]
      exact ⟨hopening, fun h => nomatch h⟩
    · rw [if_neg hid]
      exact ⟨rfl, fun _ => rfl⟩

/-- After a record was closed, other copies of it are stale, and the new record is stored. -/
theorem Closed.copies {m m' : Memory} {c : Circumstance} {r : Except Error Transaction} (h : Closed t m c r m')
    (hm : m.Sound) {s : Transaction} (hs : m.HasCopy s) : m'.HasCopy s := by
  cases h with
  | refused => exact hs
  | @replaced next hpending _ hstored hopening hterminal =>
    obtain ⟨row, hrow, hsame, hcase⟩ := hs
    refine ⟨_, Memory.mem_replaced hrow next, ?_⟩
    by_cases hid : row.id = next.id
    · have hrowt := hm.row_unique hrow hstored (hid.trans (Transaction.id_of_opening hopening))
      subst hrowt
      rw [if_pos hid]
      refine ⟨hopening.trans hsame, Or.inr ⟨?_, hterminal⟩⟩
      rcases hcase with rfl | ⟨hs, -⟩
      · exact hpending
      · exact hs
    · rw [if_neg hid]
      exact ⟨hsame, hcase⟩

/-- What came of asking for records: they are stored, and the rows that were there are as they were; or there is an
error, and all rows are. -/
inductive Handed (m : Memory) : Except Error (List Transaction) → Memory → Prop
  | given {ts added : List Transaction} {m' : Memory} (rows : m'.transactions = m.transactions ++ added)
      (stored : ∀ t ∈ ts, t ∈ m'.transactions) : Handed m (.ok ts) m'
  | refused {e : Error} : Handed m (.error e) m

/-- A program comes to its end with records that are stored. -/
def Hands (weather : Nat → Circumstance) (call : CallId) (l : Ledger) (p : Program (Except Error (List Transaction))) :
    Prop :=
  ∃ r l' past, l.runUnder weather call p [] = (.finished r, l', past) ∧ l'.Working ∧ l'.store.memory.Sound ∧
    Handed l.store.memory r l'.store.memory

variable {call : CallId}

/-- What came of opening a record: the request was valid, the store answered, and the record was added under the next
identifier; or there is an error, and the rows are as they were. -/
inductive Added (request : Request) (m : Memory) (now : Instant) (c : Circumstance) :
    Except Error Transaction → Memory → Prop
  | added (valid : request.validate = .ok ()) (calm : c.outage = none) {t : Transaction}
      (record : t = { Transaction.ofRequest request now with id := m.transactions.length + 1 }) :
      Added request m now c (.ok t) { m with transactions := m.transactions ++ [t] }
  | refused {e : Error} (because : request.validate = .ok () → c.outage ≠ none) : Added request m now c (.error e) m

/-- Opening a record comes to its end. -/
theorem runUnder_openRecord (hw : l.Working) (hm : l.store.memory.Sound) (request : Request)
    (weather : Nat → Circumstance) (call : CallId) :
    ∃ r l' past, l.runUnder weather call (openRecord request) [] = (.finished r, l', past) ∧ l'.Working ∧
      l'.store.memory.Sound ∧ Added request l.store.memory (weather 0).now (weather 1) r l'.store.memory := by
  unfold openRecord
  cases hvalid : request.validate with
  | error e =>
    refine ⟨_, _, _, rfl, hw, hm, .refused ?_⟩
    rw [hvalid]
    rintro ⟨⟩
  | ok _ =>
    have hclock : l.runUnder weather call (do Program.ask (.insertTransaction (.ofRequest request (← Program.clock)))) [] =
        (l.under (weather 0)).runUnder weather call
          (Program.ask (.insertTransaction (.ofRequest request (weather 0).now))) [.looked (weather 0).now] :=
      Ledger.runUnder_clock rfl
    cases hc : (weather 1).outage with
    | some text =>
      refine ⟨_, _, _, hclock.trans (Ledger.runUnder_refused (k := .done) hc rfl), (hw.under _).under _, hm, .refused ?_⟩
      rw [hc]
      rintro - ⟨⟩
    | none =>
      refine ⟨_, _, _, hclock.trans (Ledger.runUnder_answered (k := .done) (hw.under _) rfl hc rfl), ⟨rfl, hw.gate⟩,
        hm.perform (weather 1).now (.insertTransaction (.ofRequest request (weather 0).now)), ?_⟩
      exact .added hvalid hc rfl

/-- The opening of a record hands it to the caller. -/
theorem hands_openRecord (hw : l.Working) (hm : l.store.memory.Sound) (request : Request) :
    Hands weather call l ((openRecord request).map (Except.map fun t => [t])) := by
  obtain ⟨r, l', past, hrun, hw', hm', hrows⟩ := runUnder_openRecord hw hm request weather call
  refine ⟨_, _, _, Ledger.runUnder_map _ hrun, hw', hm', ?_⟩
  generalize l'.store.memory = m' at hrows ⊢
  cases hrows with
  | added valid calm record => exact .given rfl (by simp)
  | refused => exact .refused

/-- A record is handed to a caller who asks for it. -/
theorem hands_get (hw : l.Working) (hm : l.store.memory.Sound) (id : TransactionId) :
    Hands weather call l ((get id).map (Except.map fun t => [t])) := by
  obtain ⟨answer, l', past, hrun, hw', hm', hrows⟩ := Ledger.runUnder_ask hw hm weather call [] (.transaction id)
  rcases hrows with ⟨now, hrows⟩ | ⟨⟨e, rfl⟩, hrows⟩
  · obtain ⟨rfl, hmemory⟩ := Prod.mk.inj hrows
    have hsame : l'.store.memory = l.store.memory := hmemory
    cases hfound : l.store.memory.transaction? id with
    | none =>
      rw [hfound] at hrun
      refine ⟨_, _, _, Ledger.runUnder_map _ (Ledger.runUnder_bind hrun), hw', hm', ?_⟩
      rw [hsame]
      exact .refused
    | some t =>
      rw [hfound] at hrun
      refine ⟨_, _, _, Ledger.runUnder_map _ (Ledger.runUnder_bind hrun), hw', hm', ?_⟩
      rw [hsame]
      refine .given (List.append_nil _).symm ?_
      simpa using List.mem_of_find?_eq_some hfound
  · refine ⟨_, _, _, Ledger.runUnder_map _ (Ledger.runUnder_bind hrun), hw', hm', ?_⟩
    rw [hrows]
    exact .refused

/-- The latest records are handed to a caller who asks for them. -/
theorem hands_latest (hw : l.Working) (hm : l.store.memory.Sound) (limit : Nat) :
    Hands weather call l (latest limit) := by
  obtain ⟨answer, l', past, hrun, hw', hm', hrows⟩ := Ledger.runUnder_ask hw hm weather call [] (.latest limit)
  refine ⟨_, _, _, hrun, hw', hm', ?_⟩
  rcases hrows with ⟨now, hrows⟩ | ⟨⟨e, rfl⟩, hrows⟩
  · obtain ⟨rfl, hmemory⟩ := Prod.mk.inj hrows
    rw [hmemory]
    refine .given (List.append_nil _).symm ?_
    intro t ht
    exact List.mem_reverse.1 (List.mem_of_mem_take ht)
  · rw [hrows]
    exact .refused

variable {m m' : Memory} {r : Except Error (List Transaction)}

/-- Asking for records keeps the rows. -/
theorem Handed.kept (h : Handed m r m') : m.RecordsKept m' := by
  cases h with
  | refused => exact .of_eq rfl
  | given rows _ =>
    intro row hrow
    exact ⟨row, rows ▸ List.mem_append_left _ hrow, rfl, fun _ => rfl⟩

/-- Asking for records makes no copy stale. -/
theorem Handed.copies (h : Handed m r m') {s : Transaction} (hs : m.HasCopy s) : m'.HasCopy s := by
  cases h with
  | refused => exact hs
  | given rows _ =>
    obtain ⟨row, hrow, hcase⟩ := hs
    exact ⟨row, rows ▸ List.mem_append_left _ hrow, hcase⟩

/-- An error hands out nothing, and leaves the rows alone. -/
theorem Handed.of_error {e : Error} (h : Handed m (.error e) m') : m' = m := by
  cases h
  rfl

/-- What is handed out is stored. -/
theorem Handed.of_ok {ts : List Transaction} (h : Handed m (.ok ts) m') : ∀ t ∈ ts, t ∈ m'.transactions := by
  cases h with
  | given _ stored => exact stored

end Records

/-! ## Copies in the hands of callers -/

/-- What callers do with records. Copies go by the places in which callers keep them. -/
inductive Dealing
  | openRecord (request : Request)
  | get (id : TransactionId)
  | latest (limit : Nat)
  /-- Copy a copy. -/
  | duplicate (place : Nat)
  /-- Close the record of a copy as completed. -/
  | complete (place : Nat)
  /-- Close the record of a copy as failed. -/
  | fail (place : Nat) (cause : String)

/-- The place of the copy whose record is closed. -/
def Dealing.closes? : Dealing → Option Nat
  | complete place => some place
  | fail place _ => some place
  | _ => none

/-- A ledger, and the copies of records that callers keep. -/
structure Custody where
  ledger : Ledger
  copies : List Transaction
  /-- The records that were closed, the last one first: one entry for each closing that succeeded. -/
  closed : List TransactionId

namespace Custody

/-- Over some rows, before anybody has a copy. -/
def start (m : Memory) (trail : Trail) (now : Instant) : Custody :=
  ⟨.atRest m trail now, [], []⟩

/-- The rows of the ledger. -/
abbrev memory (s : Custody) : Memory :=
  s.ledger.store.memory

/-- Keep the records that a program ends with. -/
def hand (s : Custody) (weather : Nat → Circumstance) (p : Program (Except Error (List Transaction))) :
    Option (Except Error Unit) × Custody :=
  match s.ledger.runUnder weather 0 p [] with
  | (.finished (.ok ts), l, _) => (some (.ok ()), { s with ledger := l, copies := s.copies ++ ts })
  | (.finished (.error e), l, _) => (some (.error e), { s with ledger := l })
  | (_, l, _) => (none, { s with ledger := l })

/-- Close the record of a copy; the copy becomes the new record if that succeeds, and stays what it is if not. -/
def close (s : Custody) (weather : Nat → Circumstance) (place : Nat)
    (closing : Transaction → Program (Except Error Transaction)) : Option (Except Error Unit) × Custody :=
  match s.copies[place]? with
  | none => (none, s)
  | some t =>
    match s.ledger.runUnder weather 0 (closing t) [] with
    | (.finished r, l, _) =>
      (some (r.map fun _ => ()), {
        ledger := l
        copies := s.copies.set place (r.toOption.getD t)
        closed := (r.toOption.map (·.id)).toList ++ s.closed })
    | (_, l, _) => (none, { s with ledger := l })

/-- Deal with records under some circumstances; the outcome, if the ledger was called. -/
def step (s : Custody) (weather : Nat → Circumstance) : Dealing → Option (Except Error Unit) × Custody
  | .openRecord request => s.hand weather ((Records.openRecord request).map (Except.map fun t => [t]))
  | .get id => s.hand weather ((Records.get id).map (Except.map fun t => [t]))
  | .latest limit => s.hand weather (Records.latest limit)
  | .duplicate place => (none, { s with copies := s.copies ++ s.copies[place]?.toList })
  | .complete place => s.close weather place Records.complete
  | .fail place cause => s.close weather place fun t => Records.fail t cause

/-- Deal with records again and again, each time under circumstances of its own. -/
def run (s : Custody) (dealings : List (Dealing × (Nat → Circumstance))) : Custody :=
  dealings.foldl (fun s d => (s.step d.2 d.1).2) s

/-! ### The invariant -/

/-- What all dealings keep. -/
structure Sound (s : Custody) : Prop where
  working : s.ledger.Working
  rows : s.memory.Sound
  copies : ∀ t ∈ s.copies, s.memory.HasCopy t
  closed : ∀ id ∈ s.closed, ∃ row ∈ s.memory.transactions, row.id = id ∧ row.status.isTerminal = true
  once : s.closed.Nodup

variable {s : Custody} {weather : Nat → Circumstance}

/-- A step that is accounted for: it keeps the rows, and if the ledger answers with an error, then nothing changed. -/
structure Accounted (s : Custody) (r : Option (Except Error Unit) × Custody) : Prop where
  sound : r.2.Sound
  kept : s.memory.RecordsKept r.2.memory
  unchanged : ∀ e, r.1 = some (.error e) → r.2.copies = s.copies ∧ r.2.memory = s.memory ∧ r.2.closed = s.closed

/-- Records that were closed are terminal for good. -/
theorem closed_kept (hs : s.Sound) {m' : Memory} (hkept : s.memory.RecordsKept m') {id : TransactionId}
    (hid : id ∈ s.closed) : ∃ row ∈ m'.transactions, row.id = id ∧ row.status.isTerminal = true := by
  obtain ⟨row, hrow, hsame, hterminal⟩ := hs.closed id hid
  obtain ⟨row', hrow', -, hrow''⟩ := hkept row hrow
  have := hrow'' hterminal
  subst this
  exact ⟨row', hrow', hsame, hterminal⟩

/-- The caller keeps what it asked for. -/
theorem Sound.hand (hs : s.Sound) {p : Program (Except Error (List Transaction))}
    (hp : Records.Hands weather 0 s.ledger p) : s.Accounted (s.hand weather p) := by
  obtain ⟨r, l', past, hrun, hw, hm, hrows⟩ := hp
  have hclosed := fun (id : TransactionId) (hid : id ∈ s.closed) => closed_kept hs hrows.kept hid
  unfold Custody.hand
  rw [hrun]
  cases r with
  | error e =>
    refine ⟨⟨hw, hm, fun t ht => hrows.copies (hs.copies t ht), hclosed, hs.once⟩, hrows.kept, ?_⟩
    rintro e' ⟨⟩
    exact ⟨rfl, hrows.of_error, rfl⟩
  | ok ts =>
    refine ⟨⟨hw, hm, ?_, hclosed, hs.once⟩, hrows.kept, fun e h => (nomatch h)⟩
    intro t ht
    rcases List.mem_append.1 ht with ht | ht
    · exact hrows.copies (hs.copies t ht)
    · exact ⟨t, hrows.of_ok t ht, rfl, Or.inl rfl⟩

/-- A call to close the record of a copy is answered. It succeeds exactly if the copy is the stored record and pending,
and the store answers; then the copy and the row are the closed record. -/
structure Decided (s : Custody) (weather : Nat → Circumstance) (place : Nat) (t : Transaction)
    (r : Option (Except Error Unit) × Custody) : Prop where
  answered : r.1.isSome = true
  succeeds : r.1 = some (.ok ()) ↔ t.status = .pending ∧ (weather 1).outage = none ∧ t ∈ s.memory.transactions
  stored : r.1 = some (.ok ()) → ∃ next ∈ r.2.memory.transactions, next.id = t.id ∧ next.status.isTerminal = true ∧
    r.2.copies = s.copies.set place next ∧ r.2.closed = t.id :: s.closed

/-- The closing through a copy is accounted for, and decided by the copy, the row and the store alone. -/
theorem Sound.close (hs : s.Sound) {place : Nat} {t : Transaction} (hplace : s.copies[place]? = some t)
    {closing : Transaction → Program (Except Error Transaction)}
    (hclosing : ∃ move, closing t = Records.close move ∧ Records.Closes t move) :
    s.Accounted (s.close weather place closing) ∧ s.Decided weather place t (s.close weather place closing) := by
  obtain ⟨move, hmove, hcloses⟩ := hclosing
  have ht : s.memory.HasCopy t := hs.copies t (List.mem_of_getElem? hplace)
  obtain ⟨r, l', past, hrun, hw, hm, hrows⟩ :=
    Records.runUnder_close hs.working hs.rows ht hcloses weather 0
  have hclosed := fun (id : TransactionId) (hid : id ∈ s.closed) => closed_kept hs (hrows.kept hs.rows) hid
  unfold Custody.close
  rw [hplace]
  simp only [hmove, hrun]
  cases r with
  | error e =>
    have herror := hrows.of_error
    have hset : s.copies.set place t = s.copies := by
      obtain ⟨hlt, rfl⟩ := List.getElem?_eq_some_iff.1 hplace
      exact List.set_getElem_self hlt
    refine ⟨⟨⟨hw, hm, ?_, hclosed, hs.once⟩, hrows.kept hs.rows, ?_⟩, rfl, ?_, fun h => (nomatch h)⟩
    · intro u hu
      exact hrows.copies hs.rows (hs.copies u (hset ▸ hu))
    · rintro e' -
      exact ⟨hset, herror.1, rfl⟩
    · refine ⟨fun h => (nomatch h), ?_⟩
      rintro ⟨hpending, hcalm, hmem⟩
      exact absurd hmem (herror.2 hpending hcalm)
  | ok next =>
    obtain ⟨hwhen, hid, hstored, hterminal⟩ := hrows.of_ok
    refine ⟨⟨⟨hw, hm, ?_, ?_, ?_⟩, hrows.kept hs.rows, fun e h => (nomatch h)⟩, rfl,
      ⟨fun _ => hwhen, fun _ => rfl⟩, fun _ => ⟨next, hstored, hid, hterminal, rfl, congrArg (· :: s.closed) hid⟩⟩
    · intro u hu
      rcases List.mem_or_eq_of_mem_set hu with hu | hu
      · exact hrows.copies hs.rows (hs.copies u hu)
      · exact ⟨next, hstored, congrArg Transaction.opening hu.symm, Or.inl hu.symm⟩
    · intro id hmem
      rcases List.mem_cons.1 hmem with rfl | hmem
      · exact ⟨next, hstored, rfl, hterminal⟩
      · exact hclosed id hmem
    · refine List.nodup_cons.2 ⟨?_, hs.once⟩
      intro hmem
      obtain ⟨row, hrow, hrowid, hrowterminal⟩ := hs.closed next.id hmem
      have hsame := hs.rows.row_unique hrow hwhen.2.2 (hrowid.trans hid)
      rw [hsame, hwhen.1] at hrowterminal
      cases hrowterminal

/-- Every dealing is accounted for, and every closing is decided. -/
theorem Sound.step (hs : s.Sound) (weather : Nat → Circumstance) (d : Dealing) :
    s.Accounted (s.step weather d) ∧
      ∀ place t, d.closes? = some place → s.copies[place]? = some t → s.Decided weather place t (s.step weather d) := by
  have hclose : ∀ place (closing : Transaction → Program (Except Error Transaction)),
      (∀ t, ∃ move, closing t = Records.close move ∧ Records.Closes t move) →
      s.Accounted (s.close weather place closing) ∧ ∀ place' t, some place = some place' →
        s.copies[place']? = some t → s.Decided weather place' t (s.close weather place closing) := by
    intro place closing hclosing
    refine ⟨?_, ?_⟩
    · cases hplace : s.copies[place]? with
      | some t => exact (hs.close hplace (hclosing t)).1
      | none =>
        unfold Custody.close
        rw [hplace]
        exact ⟨hs, .of_eq rfl, fun e h => (nomatch h)⟩
    · rintro place' t ⟨⟩ hplace
      exact (hs.close hplace (hclosing t)).2
  cases d with
  | openRecord request =>
    exact ⟨hs.hand (Records.hands_openRecord hs.working hs.rows request), fun _ _ h => (nomatch h)⟩
  | get id => exact ⟨hs.hand (Records.hands_get hs.working hs.rows id), fun _ _ h => (nomatch h)⟩
  | latest limit => exact ⟨hs.hand (Records.hands_latest hs.working hs.rows limit), fun _ _ h => (nomatch h)⟩
  | duplicate place =>
    refine ⟨⟨⟨hs.working, hs.rows, ?_, hs.closed, hs.once⟩, .of_eq rfl, fun e h => (nomatch h)⟩,
      fun _ _ h => (nomatch h)⟩
    intro t ht
    rcases List.mem_append.1 ht with ht | ht
    · exact hs.copies t ht
    · exact hs.copies t (List.mem_of_getElem? (Option.mem_toList.1 ht))
  | complete place => exact hclose place _ fun t => ⟨_, rfl, Records.closes_complete t⟩
  | fail place cause => exact hclose place _ fun t => ⟨_, rfl, Records.closes_fail t cause⟩

/-- Every run of dealings keeps custody sound, and keeps the rows. -/
theorem Sound.run (hs : s.Sound) (dealings : List (Dealing × (Nat → Circumstance))) :
    (s.run dealings).Sound ∧ s.memory.RecordsKept (s.run dealings).memory := by
  induction dealings generalizing s with
  | nil => exact ⟨hs, .of_eq rfl⟩
  | cons d dealings ih =>
    have hstep := (hs.step d.2 d.1).1
    obtain ⟨hsound, hkept⟩ := ih hstep.sound
    exact ⟨hsound, hstep.kept.trans hkept⟩

/-- Before anybody has a copy, all is sound. -/
theorem Sound.start {m : Memory} (hm : m.Sound) (trail : Trail) (now : Instant) : (start m trail now).Sound :=
  ⟨Ledger.working_atRest m trail now, hm, fun _ h => (nomatch h), fun _ h => (nomatch h), List.nodup_nil⟩

/-- The row of a terminal record is found under its identifier for good. -/
theorem Sound.lasting (hs : s.Sound) {row : Transaction} (hrow : row ∈ s.memory.transactions)
    (hterminal : row.status.isTerminal = true) (dealings : List (Dealing × (Nat → Circumstance))) :
    (s.run dealings).memory.transaction? row.id = some row := by
  obtain ⟨hsound, hkept⟩ := hs.run dealings
  obtain ⟨row', hrow', -, hsame⟩ := hkept row hrow
  have := hsame hterminal
  subst this
  exact hsound.rows.transaction?_of_mem hrow'

/-- A record that was closed absorbs whatever callers go on to do with the copies that they have. -/
structure Absorbing (s : Custody) : Prop where
  /-- No two rows have one identifier. -/
  distinct : (s.memory.transactions.map (·.id)).Nodup
  /-- Whatever is dealt with from here on, no row disappears, none is about another request than it was, and a terminal
  one does not change. -/
  kept : ∀ dealings, s.memory.RecordsKept (s.run dealings).memory
  /-- A copy is the stored record, or it says pending and the record was closed since. -/
  copies : ∀ t ∈ s.copies, s.memory.HasCopy t
  /-- No record was closed twice. -/
  once : s.closed.Nodup
  /-- A record that was closed has a terminal row, and this row is there for good. -/
  settled : ∀ id ∈ s.closed, ∃ row, row.status.isTerminal = true ∧
    ∀ dealings, (s.run dealings).memory.transaction? id = some row
  /-- A closing through any copy is answered, and it succeeds exactly if the copy is the stored record and pending, and
  the store answers. -/
  decided : ∀ d place t, d.closes? = some place → s.copies[place]? = some t → ∀ weather,
    s.Decided weather place t (s.step weather d)
  /-- A further closing of a record that was closed, through any copy, gives an error, and changes neither rows nor
  copies. -/
  refused : ∀ d place t, d.closes? = some place → s.copies[place]? = some t → t.id ∈ s.closed → ∀ weather,
    (∃ e, (s.step weather d).1 = some (.error e)) ∧ (s.step weather d).2.memory = s.memory ∧
      (s.step weather d).2.copies = s.copies
  /-- A call that gives an error leaves all copies and rows as they were. -/
  unchanged : ∀ d weather e, (s.step weather d).1 = some (.error e) →
    (s.step weather d).2.copies = s.copies ∧ (s.step weather d).2.memory = s.memory ∧
      (s.step weather d).2.closed = s.closed

/-- A record that was closed cannot be closed again, whatever copy is used for it. -/
theorem Sound.refused (hs : s.Sound) (weather : Nat → Circumstance) {d : Dealing} {place : Nat} {t : Transaction}
    (hd : d.closes? = some place) (hplace : s.copies[place]? = some t) (hclosed : t.id ∈ s.closed) :
    ∃ e, (s.step weather d).1 = some (.error e) := by
  have hdecided := (hs.step weather d).2 place t hd hplace
  obtain ⟨r, hr⟩ := Option.isSome_iff_exists.1 hdecided.answered
  cases r with
  | error e => exact ⟨e, hr⟩
  | ok _ =>
    obtain ⟨hpending, -, hmem⟩ := hdecided.succeeds.1 hr
    obtain ⟨row, hrow, hid, hterminal⟩ := hs.closed t.id hclosed
    rw [hs.rows.row_unique hrow hmem hid, hpending] at hterminal
    cases hterminal

/-- Whatever callers did with records and copies of them, over rows that ever came about and whatever requests the store
refused, closed records are absorbing. -/
theorem terminal_records_absorb {m : Memory} (hm : m.Reachable) (trail : Trail) (now : Instant)
    (dealings : List (Dealing × (Nat → Circumstance))) : Absorbing ((start m trail now).run dealings) := by
  have hs := ((Sound.start hm.sound trail now).run dealings).1
  generalize (start m trail now).run dealings = s at hs ⊢
  refine ⟨hs.rows.ids_nodup, fun later => (hs.run later).2, hs.copies, hs.once, ?_, ?_, ?_, ?_⟩
  · intro id hid
    obtain ⟨row, hrow, rfl, hterminal⟩ := hs.closed id hid
    exact ⟨row, hterminal, hs.lasting hrow hterminal⟩
  · intro d place t hd hplace weather
    exact (hs.step weather d).2 place t hd hplace
  · intro d place t hd hplace hclosed weather
    obtain ⟨e, he⟩ := hs.refused weather hd hplace hclosed
    obtain ⟨hcopies, hmemory, -⟩ := (hs.step weather d).1.unchanged e he
    exact ⟨⟨e, he⟩, hmemory, hcopies⟩
  · intro d weather e he
    exact (hs.step weather d).1.unchanged e he

/-- A record is opened and copied twice. Completing it is refused by the store once and succeeds then; the stale copies
can neither complete nor fail it, and fetching the record gives a copy that cannot either. -/
theorem terminal_records_absorb_stale :
    ∃ s, s = (start .empty .empty (.ofSeconds 0)).run
        (let calm := fun _ => ⟨.ofSeconds 1, none, false⟩
         let outage := fun _ => ⟨.ofSeconds 1, some "disk full", false⟩
         [(.openRecord (.credit 7 250), calm), (.duplicate 0, calm), (.duplicate 1, calm), (.complete 0, outage),
          (.complete 0, calm), (.fail 1 "too late", calm), (.complete 2, calm), (.get 1, calm),
          (.fail 3 "again", calm)]) ∧
      s.closed = [1] ∧ s.copies.map (·.status) = [.completed, .pending, .pending, .completed] ∧ Absorbing s :=
  ⟨_, rfl, by decide +kernel, by decide +kernel, terminal_records_absorb .empty _ _ _⟩

end Custody

end CentLedger
