import CentLedger.Proofs.Custody
import CentLedger.Proofs.Transcripts

/-!
# Rows on a server

A server keeps a record in a row, and closes it by a statement that sets three columns of a pending row. The store in
memory puts the given record in the place of the row. Whatever record is given, the two give the same answer
(`serve_closeTransaction`), and they come to the same rows exactly if the given record agrees with the pending row in all
that the statement does not set (`serve_closeTransaction_iff`).

What a server does is a parameter here. `Server.Closes` is what it documents of the two statements that closing sends.
-/

namespace CentLedger

open Sql

/-- A record as it is kept with a clock of microseconds. -/
def Transaction.toMicros (t : Transaction) : Transaction :=
  { t with createdAt := t.createdAt.toMicros, updatedAt := t.updatedAt.toMicros }

/-- A record with the status, the cause and the time of the last change of another. -/
def Transaction.closedAs (row t : Transaction) : Transaction :=
  { row with status := t.status, failureCause := t.failureCause, updatedAt := t.updatedAt }

namespace Sql

/-- Identifiers below 2⁶⁴ are told apart by the words that they travel as. -/
theorem ofNat_inj {i j : Nat} (hi : i < UInt64.size) (hj : j < UInt64.size) : ofNat i = ofNat j ↔ i = j := by
  refine ⟨fun h => ?_, congrArg ofNat⟩
  have hword : UInt64.ofNat i = UInt64.ofNat j := ofWord_inj.1 h
  rw [← UInt64.toNat_ofNat_of_lt' hi, hword, UInt64.toNat_ofNat_of_lt' hj]

/-! ## The row of a record -/

namespace Row

/-- Set a column. -/
def set (row : Row) (name : String) (value : Cell) : Row :=
  row.map fun c => if c.1 = name then (name, value) else c

/-- Set the columns that closing a record sets. -/
def close (row : Row) (status : String) (cause : Option String) (updated : Instant) : Row :=
  ((row.set "status" (.text status)).set "failure_cause" (cause.elim .null .text)).set "updated_at"
    (.time updated.toMicros)

/-- The row is under an identifier, and pending. -/
def isOpen (id : Int64) (row : Row) : Bool :=
  row.cell? "id" = some (.int id) && row.cell? "status" = some (.text "pending")

/-- The row in which a server keeps a record. -/
def keeping (t : Transaction) : Row :=
  ofTransaction t.toMicros

variable {row t : Transaction}

/-- A record is kept under its identifier. -/
theorem keeping_id (t : Transaction) : (keeping t).cell? "id" = some (.int (ofNat t.id)) :=
  rfl

/-- A record is kept with its status. -/
theorem keeping_status (t : Transaction) : (keeping t).cell? "status" = some (.text t.status.text) :=
  rfl

/-- The row of a record is open exactly if the record has the identifier and is pending. -/
theorem isOpen_keeping (id : Int64) (t : Transaction) :
    (keeping t).isOpen id = true ↔ ofNat t.id = id ∧ t.status = .pending := by
  simp only [isOpen, keeping_id, keeping_status, Bool.and_eq_true, decide_eq_true_eq, Option.some.injEq, Cell.int.injEq,
    Cell.text.injEq]
  cases t.status <;> simp [Status.text]

/-- The row of a record is read back, with the status that the record has. -/
theorem toTransaction_keeping (t : Transaction) : ∃ s, (keeping t).toTransaction = .ok s ∧ s.status = t.status := by
  obtain ⟨id, source, target, amount, kind, status, cause, created, updated⟩ := t
  cases source <;> cases target <;> cases cause <;> cases kind <;> cases status <;> exact ⟨_, rfl, rfl⟩

/-- Closing a row sets three columns of the record that it keeps. -/
theorem close_keeping (row t : Transaction) :
    (keeping row).close t.status.text t.failureCause t.updatedAt = keeping (row.closedAs t) := by
  unfold Transaction.closedAs
  cases t.failureCause <;> rfl

/-- A closed row keeps the record through which it was closed exactly if the two agree in all other columns. -/
theorem keeping_closedAs_iff (hid : row.id = t.id) :
    keeping (row.closedAs t) = keeping t ↔ row.toMicros.opening = t.toMicros.opening := by
  have hkind : row.kind.text = t.kind.text ↔ row.kind = t.kind := by
    refine ⟨fun h => ?_, congrArg Kind.text⟩
    simpa using congrArg Kind.ofText? h
  simp only [keeping, ofTransaction, Transaction.closedAs, Transaction.toMicros, Transaction.opening, List.cons.injEq,
    Prod.mk.injEq, Request.mk.injEq, Cell.int.injEq, Cell.text.injEq, Cell.time.injEq, true_and, and_true, hid, hkind]
  cases row.source <;> cases t.source <;> cases row.target <;> cases t.target <;> simp [ofWord_inj] <;> tauto

end Row

/-! ## Servers -/

/-- What a server replies to a statement, and what it makes of the table of transaction records: its rows, in the order
of their identifiers. -/
abbrev Server := List Row → Statement → ServerReply × List Row

/-- A server closes records as its statement says: `UPDATE ... SET ... WHERE ...` sets the named columns of the rows that
the condition singles out, and tells how many they are; and `SELECT ... WHERE ...` returns such rows. -/
structure Server.Closes (server : Server) : Prop where
  update : ∀ table status cause updated id,
    server table (.updateTransaction status cause updated id) =
      (.executed (table.countP (Row.isOpen id)) [],
        table.map fun row => if row.isOpen id then row.close status cause updated else row)
  select : ∀ table id, ∃ n,
    server table (.selectTransaction id) = (.executed n (table.filter fun row => row.cell? "id" = some (.int id)), table)

/-- Hold a dialogue with a server: the value, and the table from then on. -/
def Dialogue.serve {α : Type} (server : Server) : Dialogue α → List Row → α × List Row
  | done a, table => (a, table)
  | send s next, table => (next (server table s).1).serve server (server table s).2

/-- A server that does this, and nothing else. -/
def closingServer : Server
  | table, .updateTransaction status cause updated id =>
    (.executed (table.countP (Row.isOpen id)) [],
      table.map fun row => if row.isOpen id then row.close status cause updated else row)
  | table, .selectTransaction id => (.executed 0 (table.filter fun row => row.cell? "id" = some (.int id)), table)
  | table, _ => (.nothing, table)

/-- The server of the model closes records as its statement says. -/
theorem closes_closingServer : closingServer.Closes :=
  ⟨fun _ _ _ _ _ => rfl, fun _ _ => ⟨0, rfl⟩⟩

/-- One dialogue after another with a server. -/
theorem Dialogue.serve_bind {α β : Type} (server : Server) (d : Dialogue α) (k : α → Dialogue β) (table : List Row) :
    (d >>= k).serve server table = (k (d.serve server table).1).serve server (d.serve server table).2 := by
  show (d.bind k).serve server table = _
  induction d generalizing table with
  | done a => rfl
  | send s next ih => exact ih _ _

/-! ## The two stores -/

/-- The table that keeps the records in memory. -/
def tableOf (m : Memory) : List Row :=
  m.transactions.map Row.keeping

variable {server : Server} {m : Memory} {row t : Transaction}

/-- Identifiers of records are the same exactly if their bits as signed numbers are. -/
theorem ofNat_id_inj (hm : m.Sound) (hlen : m.transactions.length < UInt64.size) (hrow : row ∈ m.transactions)
    (hid : t.id < UInt64.size) : ofNat row.id = ofNat t.id ↔ row.id = t.id :=
  ofNat_inj (lt_of_le_of_lt (hm.id_bounds hrow).2 hlen) hid

/-- Reading a record gives none where there is none, and else one with the status that it has. -/
theorem serve_readTransaction (hserver : server.Closes) (hm : m.Sound) (hlen : m.transactions.length < UInt64.size)
    (hid : t.id < UInt64.size) :
    ∃ found, (readTransaction t.id).serve server (tableOf m) = (.ok found, tableOf m) ∧
      found.map (·.status) = (m.transaction? t.id).map (·.status) := by
  obtain ⟨n, hselect⟩ := hserver.select (tableOf m) (ofNat t.id)
  have hfirst : ((tableOf m).filter fun row => row.cell? "id" = some (.int (ofNat t.id))).head? =
      (m.transaction? t.id).map Row.keeping := by
    rw [List.head?_filter, tableOf, List.find?_map]
    refine congrArg _ (List.find?_congr fun row hrow => ?_)
    simp [Row.keeping_id, ofNat_id_inj hm hlen hrow hid]
  have hread : (readTransaction t.id).serve server (tableOf m) =
      (((m.transaction? t.id).map Row.keeping).mapM Row.toTransaction, tableOf m) := by
    simp only [readTransaction, Dialogue.serve, hselect, ServerReply.firstRow?, ServerReply.rows?, bind, Except.bind,
      pure, Except.pure, hfirst]
  rw [hread]
  cases m.transaction? t.id with
  | none => exact ⟨none, rfl, rfl⟩
  | some stored =>
    obtain ⟨s, hs, hstatus⟩ := Row.toTransaction_keeping stored
    refine ⟨some s, ?_, congrArg some hstatus⟩
    simp only [Option.map_some, Option.mapM_some, hs]
    rfl

/-- The store in memory refuses to close a record in the words of the store on a server. -/
theorem perform_updateTransaction_refused (now : Instant)
    (hnone : ∀ row ∈ m.transactions, row.id = t.id → row.status ≠ .pending) :
    m.perform now (.updateTransaction t) = (.error (updateRefusal t (.ok (m.transaction? t.id))), m) := by
  simp only [Memory.perform]
  cases hfound : m.transaction? t.id with
  | none => rfl
  | some stored =>
    have hid : stored.id = t.id := by simpa using List.find?_some hfound
    have hterminal : stored.status.isTerminal = true := by
      have := hnone stored (List.mem_of_find?_eq_some hfound) hid
      cases hs : stored.status with
      | pending => exact absurd hs this
      | completed => rfl
      | failed => rfl
    simp only [hterminal, if_true]
    rfl

/-- Why an update is refused depends on the status of the stored record only. -/
theorem updateRefusal_congr {a b : Option Transaction} (h : a.map (·.status) = b.map (·.status)) :
    updateRefusal t (.ok a) = updateRefusal t (.ok b) := by
  cases a <;> cases b <;> simp_all [updateRefusal]

/-- Where no pending row is under an identifier, a server refuses to close a record, as the store in memory does. -/
theorem serve_closeTransaction_refused (hserver : server.Closes) (hm : m.Sound)
    (hlen : m.transactions.length < UInt64.size) (hid : t.id < UInt64.size)
    (hclosed : ∀ row ∈ tableOf m, ¬row.isOpen (ofNat t.id) = true) :
    (closeTransaction t).serve server (tableOf m) =
      (.error (updateRefusal t (.ok (m.transaction? t.id))), tableOf m) := by
  have hupdate := hserver.update (tableOf m) t.status.text t.failureCause t.updatedAt (ofNat t.id)
  have hcount : (tableOf m).countP (Row.isOpen (ofNat t.id)) = 0 := List.countP_eq_zero.2 hclosed
  have htable : ((tableOf m).map fun row =>
      if row.isOpen (ofNat t.id) then row.close t.status.text t.failureCause t.updatedAt else row) = tableOf m :=
    (List.map_congr_left fun row hrow => if_neg (hclosed row hrow)).trans (List.map_id' _)
  obtain ⟨found, hread, hstatus⟩ := serve_readTransaction hserver hm hlen hid
  simp only [closeTransaction, Dialogue.serve, hupdate, hcount, htable, ServerReply.affected?, Dialogue.serve_bind,
    hread, updateRefusal_congr hstatus]
  rfl

/-- Whatever record is given to close one, a server answers as the store in memory does, and sets status, cause and time
of the last change of the pending row under its identifier. -/
theorem serve_closeTransaction (hserver : server.Closes) (hm : m.Sound)
    (hlen : m.transactions.length < UInt64.size) (hid : t.id < UInt64.size) (now : Instant) :
    (closeTransaction t).serve server (tableOf m) =
      ((m.perform now (.updateTransaction t)).1,
        m.transactions.map fun row =>
          Row.keeping (if row.id = t.id ∧ row.status = .pending then row.closedAs t else row)) := by
  have hopen : ∀ row ∈ m.transactions, (Row.keeping row).isOpen (ofNat t.id) = true ↔
      row.id = t.id ∧ row.status = .pending := fun row hrow => by
    rw [Row.isOpen_keeping, ofNat_id_inj hm hlen hrow hid]
  by_cases h : ∃ row ∈ m.transactions, row.id = t.id ∧ row.status = .pending
  · obtain ⟨row, hrow, hsame, hpending⟩ := h
    have hcount : 0 < (tableOf m).countP (Row.isOpen (ofNat t.id)) :=
      List.countP_pos_iff.2 ⟨_, List.mem_map_of_mem hrow, (hopen row hrow).2 ⟨hsame, hpending⟩⟩
    obtain ⟨n, hn⟩ := Nat.exists_eq_succ_of_ne_zero hcount.ne'
    have hupdate := hserver.update (tableOf m) t.status.text t.failureCause t.updatedAt (ofNat t.id)
    simp only [closeTransaction, Dialogue.serve, hupdate, hn, ServerReply.affected?,
      Memory.perform_updateTransaction now hm hrow hsame hpending, Prod.mk.injEq, true_and]
    rw [tableOf, List.map_map]
    refine List.map_congr_left fun other hother => ?_
    by_cases ho : other.id = t.id ∧ other.status = .pending
    · simp only [Function.comp, (hopen other hother).2 ho, if_true, if_pos ho, Row.close_keeping]
    · simp only [Function.comp, mt (hopen other hother).1 ho, Bool.false_eq_true, if_false, if_neg ho]
  · have hnone : ∀ row ∈ m.transactions, ¬(row.id = t.id ∧ row.status = .pending) :=
      fun row hrow hopen => h ⟨row, hrow, hopen⟩
    have hclosed : ∀ row ∈ tableOf m, ¬row.isOpen (ofNat t.id) = true := by
      intro row hrow
      obtain ⟨r, hr, rfl⟩ := List.mem_map.1 hrow
      exact mt (hopen r hr).1 (hnone r hr)
    have hsame : (m.transactions.map fun row =>
        Row.keeping (if row.id = t.id ∧ row.status = .pending then row.closedAs t else row)) = tableOf m :=
      List.map_congr_left fun row hrow => by rw [if_neg (hnone row hrow)]
    rw [hsame, serve_closeTransaction_refused hserver hm hlen hid hclosed,
      perform_updateTransaction_refused now fun row hrow hid hpending => hnone row hrow ⟨hid, hpending⟩]

/-- A server and the store in memory come to the same rows exactly if the record agrees with the row that it closes, if
it closes one, in all but status, cause and time of the last change. -/
theorem serve_closeTransaction_iff (hserver : server.Closes) (hm : m.Sound)
    (hlen : m.transactions.length < UInt64.size) (hid : t.id < UInt64.size) (now : Instant) :
    ((closeTransaction t).serve server (tableOf m)).2 = tableOf (m.perform now (.updateTransaction t)).2 ↔
      ∀ row ∈ m.transactions, row.id = t.id → row.status = .pending →
        row.toMicros.opening = t.toMicros.opening := by
  rw [serve_closeTransaction hserver hm hlen hid now]
  by_cases h : ∃ row ∈ m.transactions, row.id = t.id ∧ row.status = .pending
  · obtain ⟨row, hrow, hsame, hpending⟩ := h
    rw [Memory.perform_updateTransaction now hm hrow hsame hpending]
    simp only [tableOf, Memory.putTransaction_eq_map t _ hm.ids_nodup, List.map_map, List.map_inj_left, Function.comp]
    refine forall₂_congr fun other hother => ?_
    by_cases hother' : other.id = t.id
    · obtain rfl := hm.row_unique hother hrow (hother'.trans hsame.symm)
      simp [hsame, hpending, Row.keeping_closedAs_iff hsame]
    · simp [hother']
  · have hnone : ∀ row ∈ m.transactions, row.id = t.id → row.status ≠ .pending :=
      fun row hrow hsame hpending => h ⟨row, hrow, hsame, hpending⟩
    rw [perform_updateTransaction_refused now hnone]
    refine ⟨fun _ row hrow hsame hpending => absurd hpending (hnone row hrow hsame), fun _ => ?_⟩
    exact List.map_congr_left fun row hrow => by rw [if_neg fun ho => hnone row hrow ho.1 ho.2]

end Sql

end CentLedger
