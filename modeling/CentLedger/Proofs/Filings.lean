import CentLedger.Proofs.ServerRows

/-!
# Records that are closed through any value

`complete` and `fail` take a record, and nothing ties it to what is stored: callers may change it first, or read it from
a text. Custody is about callers who only hand back what they got. Here they give whatever they like.

A request is checked where its record is opened, and never again, and the store in memory puts the given value in the
place of the row. So a row is what was opened, or what somebody gave to close it (`Stands`), and the ledger keeps records
as they were opened exactly if callers close them through values that agree with them (`Kept`). A server keeps them
whatever they give; `records_as_given` puts the two side by side.
-/

namespace CentLedger

/-- What callers ask for. The record to be closed may be any value. -/
inductive Filing
  | openRecord (request : Request)
  | complete (given : Transaction)
  | fail (given : Transaction) (cause : String)

/-- The value through which a record is to be closed. -/
def Filing.given? : Filing → Option Transaction
  | openRecord _ => none
  | complete given => some given
  | fail given _ => some given

/-- A ledger, and what happened to its records. -/
structure Files where
  ledger : Ledger
  /-- The records as they were opened, in order. -/
  opened : List Transaction
  /-- The values through which records were closed, the last one first. -/
  closings : List Transaction

namespace Files

/-- Over no rows. -/
def start (trail : Trail) (now : Instant) : Files :=
  ⟨.atRest .empty trail now, [], []⟩

/-- The rows of the ledger. -/
abbrev memory (s : Files) : Memory :=
  s.ledger.store.memory

/-- Run a program on the ledger; the outcome, if it came to its end. -/
def attempt (s : Files) (weather : Nat → Circumstance) (p : Program (Except Error Transaction)) :
    Option (Except Error Transaction) × Ledger :=
  match s.ledger.runUnder weather 0 p [] with
  | (.finished r, l, _) => (some r, l)
  | (_, l, _) => (none, l)

/-- Close a record through a value, and keep in mind what was given if that succeeds. -/
def close (s : Files) (weather : Nat → Circumstance) (given : Transaction) (p : Program (Except Error Transaction)) :
    Option (Except Error Transaction) × Files :=
  let (r, l) := s.attempt weather p
  (r, { s with ledger := l, closings := ((r.bind Except.toOption).map fun _ => given).toList ++ s.closings })

/-- Do what a filing asks for. -/
def step (s : Files) (weather : Nat → Circumstance) : Filing → Option (Except Error Transaction) × Files
  | .openRecord request =>
    let (r, l) := s.attempt weather (Records.openRecord request)
    (r, { s with ledger := l, opened := s.opened ++ (r.bind Except.toOption).toList })
  | .complete given => s.close weather given (Records.complete given)
  | .fail given cause => s.close weather given (Records.fail given cause)

/-- Do what filings ask for, one after another, each under circumstances of its own. -/
def run (s : Files) (filings : List (Filing × (Nat → Circumstance))) : Files :=
  filings.foldl (fun s f => (s.step f.2 f.1).2) s

/-! ## What became of the records -/

/-- What became of a record: nobody closed it, and the row is as it was opened; or somebody closed it, and in all that
closing leaves alone the row is what they gave. -/
inductive Stands (closings : List Transaction) (record : Transaction) : Transaction → Prop
  | unclosed (none : ∀ t ∈ closings, t.id ≠ record.id) : Stands closings record record
  | closed {t row : Transaction} (given : t ∈ closings) (same : t.id = record.id) (opening : row.opening = t.opening)
      (terminal : row.status.isTerminal = true) : Stands closings record row

/-- The rows, the records as they were opened, and the values through which they were closed: all filings keep this. -/
structure Kept (m : Memory) (opened closings : List Transaction) : Prop where
  rows : m.Sound
  valid : ∀ record ∈ opened, record.status = .pending ∧ record.validate = .ok ()
  stands : List.Forall₂ (Stands closings) opened m.transactions
  settled : ∀ t ∈ closings, ∃ row ∈ m.transactions, row.id = t.id ∧ row.status.isTerminal = true
  once : (closings.map (·.id)).Nodup

variable {m m' : Memory} {opened closings : List Transaction} {record row t : Transaction}

/-- A row stands under the identifier of its record. -/
theorem Stands.id_eq (h : Stands closings record row) : row.id = record.id := by
  cases h with
  | unclosed => rfl
  | closed _ same opening _ => exact (Transaction.id_of_opening opening).trans same

/-- Somebody closes the record, or another one. -/
theorem Stands.after {next : Transaction} (h : Stands closings record row) (opening : next.opening = t.opening)
    (terminal : next.status.isTerminal = true) :
    Stands (t :: closings) record (if row.id = next.id then next else row) := by
  have hid : next.id = t.id := Transaction.id_of_opening opening
  by_cases hrow : row.id = next.id
  · rw [if_pos hrow]
    exact .closed List.mem_cons_self (hid.symm.trans (hrow.symm.trans h.id_eq)) opening terminal
  · rw [if_neg hrow]
    cases h with
    | unclosed none =>
      refine .unclosed fun u hu => ?_
      rcases List.mem_cons.1 hu with rfl | hu
      · exact fun e => hrow (e.symm.trans hid.symm)
      · exact none u hu
    | closed given same opening terminal => exact .closed (List.mem_cons_of_mem _ given) same opening terminal

/-- What closing leaves alone holds of the row of a record exactly if it holds of the value through which the record was
closed, if it was. -/
theorem Stands.iff_given {P : Transaction → Prop} (hP : ∀ {a b : Transaction}, a.opening = b.opening → (P a ↔ P b))
    (h : Stands closings record row) (honce : (closings.map (·.id)).Nodup) (hrecord : P record) :
    P row ↔ ∀ t ∈ closings, t.id = record.id → P t := by
  cases h with
  | unclosed none => exact ⟨fun _ t ht hid => absurd hid (none t ht), fun _ => hrecord⟩
  | closed given same opening terminal =>
    refine ⟨fun hrow u hu hid => ?_, fun hall => (hP opening).2 (hall _ given same)⟩
    rw [List.inj_on_of_nodup_map honce hu given (hid.trans same.symm)]
    exact (hP opening).1 hrow

/-- No rows, and no records. -/
theorem Kept.empty : Kept .empty [] [] :=
  ⟨Memory.sound_empty, List.forall_mem_nil _, .nil, List.forall_mem_nil _, List.nodup_nil⟩

/-- A record is opened, or the request is refused. -/
theorem Kept.added (h : Kept m opened closings) (hm' : m'.Sound) {request : Request} {now : Instant}
    {c : Circumstance} {r : Except Error Transaction} (hrows : Records.Added request m now c r m') :
    Kept m' (opened ++ r.toOption.toList) closings := by
  cases hrows with
  | refused =>
    rw [show (Except.error _ : Except Error Transaction).toOption.toList = [] from rfl, List.append_nil]
    exact h
  | @added valid calm t record =>
    have hfresh : ∀ u ∈ closings, u.id ≠ t.id := by
      intro u hu hid
      obtain ⟨row, hrow, hrowid, -⟩ := h.settled u hu
      have hnext : row.id = m.transactions.length + 1 := by rw [hrowid, hid, record]
      exact Nat.not_succ_le_self _ (hnext ▸ (h.rows.id_bounds hrow).2)
    refine ⟨hm', ?_, List.rel_append h.stands (.cons (.unclosed hfresh) .nil), ?_, h.once⟩
    · intro u hu
      rcases List.mem_append.1 hu with hu | hu
      · exact h.valid u hu
      · obtain rfl : u = t := by simpa [Except.toOption] using hu
        rw [record]
        exact ⟨rfl, valid⟩
    · intro u hu
      obtain ⟨row, hrow, hcase⟩ := h.settled u hu
      exact ⟨row, List.mem_append_left _ hrow, hcase⟩

/-- A record is closed through a value, or the value is refused. -/
theorem Kept.replaced (h : Kept m opened closings) (hm' : m'.Sound) {c : Circumstance} {r : Except Error Transaction}
    (hrows : Records.Replaced t m c r m') :
    Kept m' opened ((r.toOption.map fun _ => t).toList ++ closings) := by
  cases hrows with
  | refused because => exact h
  | @replaced row next pending calm stored same unclosed opening terminal =>
    refine ⟨hm', h.valid, ?_, ?_, ?_⟩
    · exact List.forall₂_map_right_iff.2 (h.stands.imp fun _ _ hstands => hstands.after opening terminal)
    · intro u hu
      rcases List.mem_cons.1 hu with rfl | hu
      · refine ⟨_, Memory.mem_replaced stored next, ?_⟩
        rw [if_pos (same.trans (Transaction.id_of_opening opening).symm)]
        exact ⟨Transaction.id_of_opening opening, terminal⟩
      · obtain ⟨other, hother, hid, hterminal⟩ := h.settled u hu
        refine ⟨_, Memory.mem_replaced hother next, ?_⟩
        by_cases hsame : other.id = next.id
        · rw [if_pos hsame]
          exact ⟨hsame.symm.trans hid, terminal⟩
        · rw [if_neg hsame]
          exact ⟨hid, hterminal⟩
    · -- A row that was closed is terminal, and the one that is closed now was pending.
      refine List.nodup_cons.2 ⟨fun hmem => ?_, h.once⟩
      obtain ⟨u, hu, hid⟩ := List.mem_map.1 hmem
      obtain ⟨other, hother, hotherid, hterminal⟩ := h.settled u hu
      rw [h.rows.row_unique hother stored (hotherid.trans (hid.trans same.symm)), unclosed] at hterminal
      cases hterminal

end Files

/-- Whether a record is valid is seen from what closing leaves alone. -/
theorem Transaction.validate_of_opening {s t : Transaction} (h : s.opening = t.opening) : s.validate = t.validate :=
  congrArg (fun o => o.2.1.validate) h

namespace Records

variable {m m' : Memory} {t : Transaction} {c : Circumstance}

/-- A record that was not added left the rows alone; a valid one is refused by an outage only. -/
theorem Added.of_error {request : Request} {now : Instant} {e : Error} (h : Added request m now c (.error e) m') :
    m' = m ∧ (request.validate = .ok () → c.outage ≠ none) := by
  cases h with
  | refused because => exact ⟨rfl, because⟩

/-- A record that was added is that of its request, under the next identifier. -/
theorem Added.of_ok {request : Request} {now : Instant} (h : Added request m now c (.ok t) m') :
    (request.validate = .ok () ∧ c.outage = none) ∧
      t = { Transaction.ofRequest request now with id := m.transactions.length + 1 } ∧
      m'.transactions = m.transactions ++ [t] := by
  cases h with
  | added valid calm record => exact ⟨⟨valid, calm⟩, record, rfl⟩

/-- A record that was not closed left the rows alone; a pending one is refused by an outage, or by a row that is not
there or not pending. -/
theorem Replaced.of_error {e : Error} (h : Replaced t m c (.error e) m') :
    m' = m ∧ (t.status = .pending → c.outage = none →
      ∀ row ∈ m.transactions, row.id = t.id → row.status ≠ .pending) := by
  cases h with
  | refused because => exact ⟨rfl, because⟩

/-- A record that was closed is in the place of the pending row under its identifier. -/
theorem Replaced.of_ok {next : Transaction} (h : Replaced t m c (.ok next) m') :
    (t.status = .pending ∧ c.outage = none ∧ ∃ row ∈ m.transactions, row.id = t.id ∧ row.status = .pending) ∧
      next.opening = t.opening ∧ next.status.isTerminal = true ∧
      m'.transactions = m.transactions.map fun row => if row.id = t.id then next else row := by
  cases h with
  | @replaced row _ pending calm stored same unclosed opening terminal =>
    refine ⟨⟨pending, calm, row, stored, same, unclosed⟩, opening, terminal, ?_⟩
    rw [Transaction.id_of_opening opening]

end Records

namespace Files

/-! ## Every filing is answered -/

/-- Files of a working ledger. -/
structure Sound (s : Files) : Prop where
  working : s.ledger.Working
  kept : Kept s.memory s.opened s.closings

variable {s : Files} {t : Transaction}

/-- A filing is answered, and an error leaves everything as it was. -/
structure Answered (s : Files) (r : Option (Except Error Transaction) × Files) : Prop where
  answered : r.1.isSome = true
  unchanged : ∀ e, r.1 = some (.error e) →
    r.2.memory = s.memory ∧ r.2.opened = s.opened ∧ r.2.closings = s.closings

/-- A record is opened exactly if the request is valid and the store answers, and then it is the pending record of the
request under the next identifier. -/
structure Opens (s : Files) (weather : Nat → Circumstance) (request : Request)
    (r : Option (Except Error Transaction) × Files) : Prop where
  succeeds : (∃ t, r.1 = some (.ok t)) ↔ request.validate = .ok () ∧ (weather 1).outage = none
  adds : ∀ t, r.1 = some (.ok t) →
    t = { Transaction.ofRequest request (weather 0).now with id := s.memory.transactions.length + 1 } ∧
      r.2.memory.transactions = s.memory.transactions ++ [t] ∧ r.2.opened = s.opened ++ [t]

/-- A closing through a value succeeds exactly if the value says pending, the store answers, and the row under its
identifier is pending; then the closed value is in the place of this row. -/
structure Decided (s : Files) (weather : Nat → Circumstance) (given : Transaction)
    (r : Option (Except Error Transaction) × Files) : Prop where
  succeeds : (∃ next, r.1 = some (.ok next)) ↔ given.status = .pending ∧ (weather 1).outage = none ∧
    ∃ row ∈ s.memory.transactions, row.id = given.id ∧ row.status = .pending
  replaces : ∀ next, r.1 = some (.ok next) → next.opening = given.opening ∧ next.status.isTerminal = true ∧
    r.2.memory.transactions = s.memory.transactions.map (fun row => if row.id = given.id then next else row) ∧
    r.2.closings = given :: s.closings

/-- A record is opened exactly if its request is valid and the store answers. -/
theorem Sound.openRecord (hs : s.Sound) (weather : Nat → Circumstance) (request : Request) :
    (s.step weather (.openRecord request)).2.Sound ∧ s.Answered (s.step weather (.openRecord request)) ∧
      s.Opens weather request (s.step weather (.openRecord request)) := by
  obtain ⟨r, l, past, hrun, hw, hm, hrows⟩ := Records.runUnder_openRecord hs.working hs.kept.rows request weather 0
  have hkept := hs.kept.added hm hrows
  simp only [step, attempt, hrun]
  refine ⟨⟨hw, hkept⟩, ?_⟩
  cases r with
  | error e =>
    obtain ⟨hsame, hbecause⟩ := hrows.of_error
    refine ⟨⟨rfl, fun e' _ => ⟨hsame, List.append_nil _, rfl⟩⟩, ⟨?_, ?_⟩, ?_⟩
    · rintro ⟨t, ⟨⟩⟩
    · rintro ⟨hvalid, hcalm⟩
      exact absurd hcalm (hbecause hvalid)
    · rintro t ⟨⟩
  | ok t =>
    obtain ⟨hwhen, hrecord, htransactions⟩ := hrows.of_ok
    refine ⟨⟨rfl, ?_⟩, ⟨fun _ => hwhen, fun _ => ⟨t, rfl⟩⟩, ?_⟩
    · rintro e ⟨⟩
    · rintro t' ⟨⟩
      exact ⟨hrecord, htransactions, rfl⟩

/-- A record is closed exactly if it is pending, as given and as stored, and the store answers. -/
theorem Sound.close (hs : s.Sound) (weather : Nat → Circumstance) {move : Instant → Except Error Transaction}
    (hmove : Records.Closes t move) :
    (s.close weather t (Records.close move)).2.Sound ∧ s.Answered (s.close weather t (Records.close move)) ∧
      s.Decided weather t (s.close weather t (Records.close move)) := by
  obtain ⟨r, l, past, hrun, hw, hm, hrows⟩ := Records.runUnder_replace hs.working hs.kept.rows hmove weather 0
  have hkept := hs.kept.replaced hm hrows
  simp only [Files.close, attempt, hrun]
  refine ⟨⟨hw, hkept⟩, ?_⟩
  cases r with
  | error e =>
    obtain ⟨hsame, hbecause⟩ := hrows.of_error
    refine ⟨⟨rfl, fun e' _ => ⟨hsame, rfl, rfl⟩⟩, ⟨?_, ?_⟩, ?_⟩
    · rintro ⟨next, ⟨⟩⟩
    · rintro ⟨hpending, hcalm, row, hrow, hid, hopen⟩
      exact absurd hopen (hbecause hpending hcalm row hrow hid)
    · rintro next ⟨⟩
  | ok next =>
    obtain ⟨hwhen, hopening, hterminal, htransactions⟩ := hrows.of_ok
    refine ⟨⟨rfl, ?_⟩, ⟨fun _ => hwhen, fun _ => ⟨next, rfl⟩⟩, ?_⟩
    · rintro e ⟨⟩
    · rintro next' ⟨⟩
      exact ⟨hopening, hterminal, htransactions, rfl⟩

/-- Every filing is answered, and every closing is decided. -/
theorem Sound.step (hs : s.Sound) (weather : Nat → Circumstance) (f : Filing) :
    (s.step weather f).2.Sound ∧ s.Answered (s.step weather f) ∧
      ∀ t, f.given? = some t → s.Decided weather t (s.step weather f) := by
  have hclose : ∀ given move, Records.Closes given move →
      (s.close weather given (Records.close move)).2.Sound ∧
        s.Answered (s.close weather given (Records.close move)) ∧
        ∀ t, some given = some t → s.Decided weather t (s.close weather given (Records.close move)) := by
    intro given move hmove
    obtain ⟨hsound, hanswered, hdecided⟩ := hs.close weather hmove
    refine ⟨hsound, hanswered, ?_⟩
    rintro t ⟨⟩
    exact hdecided
  cases f with
  | openRecord request =>
    obtain ⟨hsound, hanswered, -⟩ := hs.openRecord weather request
    refine ⟨hsound, hanswered, ?_⟩
    rintro t ⟨⟩
  | complete given => exact hclose given _ (Records.closes_complete given)
  | fail given cause => exact hclose given _ (Records.closes_fail given cause)

/-- Files stay sound, whatever is filed. -/
theorem Sound.run (hs : s.Sound) (filings : List (Filing × (Nat → Circumstance))) : (s.run filings).Sound := by
  induction filings generalizing s with
  | nil => exact hs
  | cons f filings ih => exact ih (hs.step f.2 f.1).1

/-- Files are sound at the start. -/
theorem sound_start (trail : Trail) (now : Instant) : (start trail now).Sound :=
  ⟨Ledger.working_atRest .empty trail now, .empty⟩

/-! ## Records as they were opened -/

/-- What the ledger makes of filings, next to what a server makes of a closing. -/
structure Disciplined (server : Sql.Server) (s : Files) : Prop where
  /-- No two rows have one identifier. -/
  distinct : (s.memory.transactions.map (·.id)).Nodup
  /-- A record was pending and valid when it was opened. -/
  valid : ∀ record ∈ s.opened, record.status = .pending ∧ record.validate = .ok ()
  /-- A record was closed at most once. -/
  once : (s.closings.map (·.id)).Nodup
  /-- A row is as it was opened, or it is what somebody gave to close it. -/
  stands : List.Forall₂ (Stands s.closings) s.opened s.memory.transactions
  /-- A row is about the accounts, the amount and the time that it was opened with exactly if the value through which it
  was closed is, if it was. -/
  unaltered : List.Forall₂ (fun record row => row.opening = record.opening ↔
    ∀ t ∈ s.closings, t.id = record.id → t.opening = record.opening) s.opened s.memory.transactions
  /-- A row is valid exactly if the value through which it was closed is, if it was. -/
  validated : List.Forall₂ (fun record row => row.validate = .ok () ↔
    ∀ t ∈ s.closings, t.id = record.id → t.validate = .ok ()) s.opened s.memory.transactions
  /-- A filing is answered, and an error leaves everything as it was. -/
  answered : ∀ f weather, s.Answered (s.step weather f)
  /-- A record is opened exactly if the request is valid and the store answers. -/
  opens : ∀ request weather, s.Opens weather request (s.step weather (.openRecord request))
  /-- A closing through any value succeeds exactly if the value and the row under its identifier are pending and the
  store answers, and it puts the closed value in the place of the row. -/
  decided : ∀ f t, f.given? = some t → ∀ weather, s.Decided weather t (s.step weather f)
  /-- A server that keeps the same records answers a closing as the store in memory does, whatever value it is given, and
  sets status, cause and time of the last change of a pending row. So the rows are the same on both afterwards exactly if
  the value agrees with the pending row in all else. -/
  served : ∀ (t : Transaction) now, t.id < UInt64.size → s.memory.transactions.length < UInt64.size →
    (Sql.closeTransaction t).serve server (Sql.tableOf s.memory) =
        ((s.memory.perform now (.updateTransaction t)).1,
          s.memory.transactions.map fun row =>
            Sql.Row.keeping (if row.id = t.id ∧ row.status = .pending then row.closedAs t else row)) ∧
      (((Sql.closeTransaction t).serve server (Sql.tableOf s.memory)).2 =
          Sql.tableOf (s.memory.perform now (.updateTransaction t)).2 ↔
        ∀ row ∈ s.memory.transactions, row.id = t.id → row.status = .pending →
          row.toMicros.opening = t.toMicros.opening)

/-- Whatever values callers closed records through, and whatever requests the store refused, a record is kept as it was
opened exactly if it was closed through a value that agrees with it, if at all. -/
theorem records_as_given {server : Sql.Server} (hserver : server.Closes) (trail : Trail) (now : Instant)
    (filings : List (Filing × (Nat → Circumstance))) : Disciplined server ((start trail now).run filings) := by
  have hs := (sound_start trail now).run filings
  generalize (start trail now).run filings = s at hs ⊢
  have hkept := hs.kept
  have hvalid := (List.forall₂_and_left _ _).2 ⟨hkept.valid, hkept.stands⟩
  refine ⟨hkept.rows.ids_nodup, hkept.valid, hkept.once, hkept.stands, ?_, ?_, fun f weather => (hs.step weather f).2.1,
    fun request weather => (hs.openRecord weather request).2.2, fun f t hf weather => (hs.step weather f).2.2 t hf,
    fun t now hid hlen => ?_⟩
  · exact hkept.stands.imp fun record _ h =>
      h.iff_given (P := fun t => t.opening = record.opening) (fun hab => by rw [hab]) hkept.once rfl
  · exact hvalid.imp fun record _ h =>
      h.2.iff_given (P := fun t => t.validate = .ok ()) (fun hab => by rw [Transaction.validate_of_opening hab])
        hkept.once h.1.2
  · exact ⟨Sql.serve_closeTransaction hserver hkept.rows hlen hid now,
      Sql.serve_closeTransaction_iff hserver hkept.rows hlen hid now⟩

/-- A record is opened and completed as it is; another one is completed through a record that says less, which a server
would not take over. -/
theorem records_as_given_lowered :
    ∃ s, s = (start .empty (.ofSeconds 0)).run
        (let calm := fun _ => ⟨.ofSeconds 1, none, false⟩
         [(.openRecord (.credit 7 250), calm), (.openRecord (.transfer 7 8 100), calm),
          (.complete { Transaction.ofRequest (.credit 7 250) (.ofSeconds 1) with id := 1 }, calm),
          (.fail { Transaction.ofRequest (.transfer 7 8 1) (.ofSeconds 1) with id := 2 } "too late", calm)]) ∧
      s.opened.map (·.amount) = [250, 100] ∧ s.memory.transactions.map (·.amount) = [250, 1] ∧
      Sql.closingServer.Closes ∧ Disciplined Sql.closingServer s :=
  ⟨_, rfl, by decide +kernel, by decide +kernel, Sql.closes_closingServer,
    records_as_given Sql.closes_closingServer .empty _ _⟩

/-- A record of 250 cents is completed through a record of minus five, and the row is not valid from then on. -/
theorem records_altered :
    ∃ s, s = (start .empty (.ofSeconds 0)).run
        (let calm := fun _ => ⟨.ofSeconds 1, none, false⟩
         [(.openRecord (.credit 7 250), calm),
          (.complete { Transaction.ofRequest (.credit 7 (-5)) (.ofSeconds 1) with id := 1 }, calm)]) ∧
      s.opened.map (·.amount) = [250] ∧ s.memory.transactions.map (·.amount) = [-5] ∧
      s.memory.transactions.map (·.validate) = [.error .invalidAmount] :=
  ⟨_, rfl, by decide +kernel, by decide +kernel, by decide +kernel⟩

end Files

end CentLedger
