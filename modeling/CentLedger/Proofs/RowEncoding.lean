import CentLedger.Proofs.BoundValues
import CentLedger.Proofs.ServerRows

/-!
# Records in rows

A record is written by an insertion that binds a value to each of eight columns, and read from a row by a list of nine
columns of its own. The two are inverse (`rows_encode`): a row is read as a record exactly if each column holds what the
insertion of that record binds for it, and the record is one that a row can hold (`Row.toTransaction_eq_ok_iff`).
Balances are written and read in the same way (`Row.toBalance_eq_ok_iff`).

A row cannot hold every record. Its times have whole microseconds, and no leap second: the instant 23:59:60 comes back
as the start of the next day (`leap_second_moved`).
-/

namespace CentLedger

open Sql

/-! ## Times -/

namespace Instant

/-- The instant has whole microseconds and is in no leap second. -/
def InMicros (t : Instant) : Prop :=
  t.nanos % 1000 = 0 ∧ t.nanos < 1_000_000_000

/-- The nanoseconds from 2000-01-01T00:00:00Z to an instant. -/
def since2000 (t : Instant) : Int :=
  t.toNanos - year2000.toNanos

/-- An instant, cut to whole microseconds toward 2000-01-01T00:00:00Z. -/
structure CutTo (t cut : Instant) : Prop where
  whole : cut.InMicros
  /-- It is between the instant and 2000-01-01T00:00:00Z. -/
  toward : 0 ≤ cut.since2000 ∧ cut.since2000 ≤ t.since2000 ∨ t.since2000 ≤ cut.since2000 ∧ cut.since2000 ≤ 0
  near : |t.since2000 - cut.since2000| < 1000

variable {s t : Instant}

/-- An instant made from nanoseconds is so many nanoseconds after the epoch. -/
theorem toNanos_ofNanos (n : Int) : (ofNanos n).toNanos = n := by
  simp only [toNanos, ofNanos]
  omega

/-- An instant that is in no leap second is known by its nanoseconds. -/
theorem ofNanos_toNanos (h : t.nanos < 1_000_000_000) : ofNanos t.toNanos = t := by
  obtain ⟨seconds, nanos, valid⟩ := t
  simp only [ofNanos, toNanos, mk.injEq] at h ⊢
  omega

/-- Cutting to microseconds drops what is less than a microsecond, on either side of the year 2000. -/
theorem since2000_toMicros (t : Instant) : t.toMicros.since2000 = t.since2000.tdiv 1000 * 1000 := by
  rw [toMicros, ofMicros2000, micros2000, since2000, toNanos_ofNanos, since2000]
  ring

/-- Cutting toward zero. -/
theorem tdiv_mul_cases (n : Int) :
    (0 ≤ n.tdiv 1000 * 1000 ∧ n.tdiv 1000 * 1000 ≤ n ∨ n ≤ n.tdiv 1000 * 1000 ∧ n.tdiv 1000 * 1000 ≤ 0) ∧
      |n - n.tdiv 1000 * 1000| < 1000 := by
  rw [abs_lt]
  rcases le_total 0 n with h | h
  · rw [Int.tdiv_eq_ediv_of_nonneg h]
    omega
  · obtain ⟨m, rfl⟩ : ∃ m, n = -m := ⟨-n, by omega⟩
    rw [Int.neg_tdiv, Int.tdiv_eq_ediv_of_nonneg (by omega)]
    omega

/-- An instant that was cut to microseconds has whole ones. -/
theorem inMicros_toMicros (t : Instant) : t.toMicros.InMicros := by
  simp only [InMicros, toMicros, ofMicros2000, ofNanos, year2000, ofSeconds, toNanos]
  omega

/-- What a server makes of an instant is its cut toward the year 2000. -/
theorem cutTo_toMicros (t : Instant) : t.CutTo t.toMicros where
  whole := t.inMicros_toMicros
  toward := by
    rw [since2000_toMicros]
    exact (tdiv_mul_cases _).1
  near := by
    rw [since2000_toMicros]
    exact (tdiv_mul_cases _).2

/-- An instant stays as it is exactly if it has whole microseconds and is in no leap second. -/
theorem toMicros_eq_self_iff : t.toMicros = t ↔ t.InMicros := by
  refine ⟨fun h => h ▸ t.inMicros_toMicros, fun ⟨hwhole, hleap⟩ => ?_⟩
  have hdiv : (1000 : Int) ∣ t.since2000 := by
    simp only [since2000, toNanos, year2000, ofSeconds]
    omega
  have hnanos : t.toMicros.toNanos = t.toNanos := by
    have hsince : t.toMicros.since2000 = t.since2000 := by rw [since2000_toMicros, Int.tdiv_mul_cancel hdiv]
    simpa only [since2000, sub_left_inj] using hsince
  calc t.toMicros = ofNanos t.toMicros.toNanos := (ofNanos_toNanos t.inMicros_toMicros.2).symm
    _ = ofNanos t.toNanos := by rw [hnanos]
    _ = t := ofNanos_toNanos hleap

/-- An instant in a leap second is kept as the one in the next minute that it counts into. -/
theorem toMicros_congr (h : s.toNanos = t.toNanos) : s.toMicros = t.toMicros := by
  rw [toMicros, micros2000, h, toMicros, micros2000]

end Instant

/-- A record that a row can hold: its identifier is a word, and its times have whole microseconds. -/
structure Transaction.Fits (t : Transaction) : Prop where
  id : t.id < UInt64.size
  createdAt : t.createdAt.InMicros
  updatedAt : t.updatedAt.InMicros

/-- A record stays as it is exactly if both of its times do. -/
theorem Transaction.toMicros_eq_self_iff {t : Transaction} :
    t.toMicros = t ↔ t.createdAt.InMicros ∧ t.updatedAt.InMicros := by
  obtain ⟨id, source, target, amount, kind, status, cause, created, updated⟩ := t
  simp only [toMicros, mk.injEq, true_and, Instant.toMicros_eq_self_iff]

namespace Sql

/-! ## Words -/

/-- A word is read back from the signed number of its bits. -/
@[simp] theorem toWord_ofWord (w : UInt64) : toWord (ofWord w) = w := by
  simp [toWord, ofWord]

/-- A signed number is read back from the word of its bits. -/
@[simp] theorem ofWord_toWord (i : Int64) : ofWord (toWord i) = i := by
  simp [toWord, ofWord]

/-- A signed number is read back from the number of its bits. -/
@[simp] theorem ofNat_toWord (i : Int64) : ofNat (toWord i).toNat = i := by
  simp [ofNat]

/-- A number that fits in a word is read back from the signed number of its bits. -/
theorem toWord_ofNat {n : Nat} (h : n < UInt64.size) : (toWord (ofNat n)).toNat = n := by
  rw [ofNat, toWord_ofWord, UInt64.toNat_ofNat_of_lt' h]

/-- A word is read as a kind exactly if it is the word for it. -/
theorem kind_parse_eq_ok_iff {word : String} {k : Kind} : Kind.parse word = .ok k ↔ word = k.text := by
  refine ⟨fun h => ?_, fun h => by rw [h, Kind.parse, Kind.ofText?_text]⟩
  simp only [Kind.parse, Kind.ofText?] at h
  split_ifs at h with hcredit hdebit htransfer <;> cases h <;> assumption

/-- A word is read as a status exactly if it is the word for it. -/
theorem status_parse_eq_ok_iff {word : String} {s : Status} : Status.parse word = .ok s ↔ word = s.text := by
  refine ⟨fun h => ?_, fun h => by rw [h, Status.parse, Status.ofText?_text]⟩
  simp only [Status.parse, Status.ofText?] at h
  split_ifs at h with hpending hcompleted hfailed <;> cases h <;> assumption

/-! ## What is written -/

/-- The value that a column gets from a parameter. -/
def Param.cell : Param → Cell
  | null => .null
  | int i => .int i
  | text s => .text s
  | time t => .time t

/-- The columns of a transaction record other than its identifier. -/
def recordColumns : List String :=
  ["from_user_id", "to_user_id", "amount_cents", "tx_type", "status", "failure_cause", "created_at", "updated_at"]

/-- The columns that a record is read from. -/
def requiredColumns : List String :=
  "id" :: recordColumns

/-- The columns that are not null in the row of any record. -/
def valuedColumns : List String :=
  ["id", "amount_cents", "tx_type", "status", "created_at", "updated_at"]

/-- The columns of a balance. -/
def balanceColumns : List String :=
  ["user_id", "amount_cents", "last_updated"]

/-- The statement that writes a transaction record. -/
abbrev insertion (t : Transaction) : Statement :=
  .insertTransaction (t.source.map ofWord) (t.target.map ofWord) t.amount t.kind.text t.status.text t.failureCause
    t.createdAt t.updatedAt

/-- The columns of a record as they are written, under an identifier that the server gives. -/
def written (t : Transaction) (id : Int64) : Row :=
  ("id", .int id) :: recordColumns.zip ((insertion t).params.map Param.cell)

/-- The columns of a balance as they are written. -/
def writtenBalance (b : Balance) : Row :=
  balanceColumns.zip ((writing b).params.map Param.cell)

/-! ## What is read -/

/-- The value of a column as a server keeps it: a time has whole microseconds. -/
def Cell.toMicros : Cell → Cell
  | null => null
  | int i => int i
  | text s => text s
  | time t => time t.toMicros

namespace Row

/-- What a server keeps in a column. -/
def kept? (row : Row) (name : String) : Option Cell :=
  (row.cell? name).map Cell.toMicros

/-- A row has these columns, with their times in whole microseconds. -/
def Has (row : Row) (columns : List (String × Cell)) : Prop :=
  ∀ c ∈ columns, row.kept? c.1 = some c.2

instance (row : Row) (columns : List (String × Cell)) : Decidable (row.Has columns) :=
  inferInstanceAs (Decidable (∀ c ∈ columns, row.kept? c.1 = some c.2))

/-- The times of a row have whole microseconds. -/
def InMicros (row : Row) : Prop :=
  ∀ name t, row.cell? name = some (.time t) → t.InMicros

variable {row : Row} {name : String}

/-- In whole microseconds, a row has columns exactly if their values are the given ones. -/
theorem has_iff_of_inMicros {columns : List (String × Cell)} (h : row.InMicros) :
    row.Has columns ↔ ∀ c ∈ columns, row.cell? c.1 = some c.2 := by
  have hcell : ∀ name, row.kept? name = row.cell? name := fun name => by
    unfold kept?
    cases hname : row.cell? name with
    | none => rfl
    | some c =>
      cases c with
      | time t => exact congrArg (fun t => some (Cell.time t)) (Instant.toMicros_eq_self_iff.2 (h name t hname))
      | _ => rfl
  simp only [Has, hcell]

/-- A column is read exactly if the row has it and its value is one that is asked for. -/
theorem get_eq_ok_iff {α : Type} {value? : Cell → Option α} {a : α} :
    row.get value? name = .ok a ↔ ∃ c, row.cell? name = some c ∧ value? c = some a := by
  unfold get Cell.read
  cases row.cell? name with
  | none => simp
  | some c => cases hvalue : value? c <;> simp [hvalue]

/-- Where a reading gives a value exactly for the cell of that value, a column is read as the value exactly if that cell
is kept in it. -/
theorem get_eq_ok_iff_kept {α : Type} {value? : Cell → Option α} (cell : α → Cell)
    (hvalue : ∀ c a, value? c = some a ↔ c.toMicros = cell a) {a : α} :
    row.get value? name = .ok a ↔ row.kept? name = some (cell a) := by
  simp only [get_eq_ok_iff, hvalue, kept?, Option.map_eq_some_iff]

/-- A column is read as an integer exactly if an integer is kept in it. -/
theorem int_eq_ok_iff {i : Int64} : row.int name = .ok i ↔ row.kept? name = some (.int i) :=
  get_eq_ok_iff_kept .int fun c _ => by cases c <;> simp [Cell.asInt?, Cell.toMicros]

/-- A column is read as a text exactly if a text is kept in it. -/
theorem text_eq_ok_iff {s : String} : row.text name = .ok s ↔ row.kept? name = some (.text s) :=
  get_eq_ok_iff_kept .text fun c _ => by cases c <;> simp [Cell.asText?, Cell.toMicros]

/-- A column is read as a time exactly if this time is what is kept in it. -/
theorem time_eq_ok_iff {t : Instant} : row.time name = .ok t ↔ row.kept? name = some (.time t) :=
  get_eq_ok_iff_kept .time fun c _ => by cases c <;> simp [Cell.asTime?, Cell.toMicros]

/-- Null is read as nothing, and an absent column is not read. -/
theorem int?_eq_ok_iff {i : Option Int64} :
    row.int? name = .ok i ↔ row.kept? name = some (Param.ofNullable .int i).cell :=
  get_eq_ok_iff_kept (fun i => (Param.ofNullable .int i).cell) fun c i => by
    cases c <;> cases i <;> simp [Cell.asNullable?, Cell.asInt?, Cell.toMicros, Param.ofNullable, Param.cell]

/-- A column that may be null is read as what was written to it. -/
theorem text?_eq_ok_iff {s : Option String} :
    row.text? name = .ok s ↔ row.kept? name = some (Param.ofNullable .text s).cell :=
  get_eq_ok_iff_kept (fun s => (Param.ofNullable .text s).cell) fun c s => by
    cases c <;> cases s <;> simp [Cell.asNullable?, Cell.asText?, Cell.toMicros, Param.ofNullable, Param.cell]

/-- What is kept of a time has whole microseconds. -/
theorem inMicros_of_cell {t : Instant} (h : row.kept? name = some (.time t)) : t.InMicros := by
  obtain ⟨c, -, hc⟩ := Option.map_eq_some_iff.1 h
  cases c with
  | time s =>
    rw [Cell.toMicros, Cell.time.injEq] at hc
    exact hc ▸ s.inMicros_toMicros
  | _ => cases hc

/-- A text is kept as it is. -/
theorem cell?_eq_text {s : String} (h : row.kept? name = some (.text s)) : row.cell? name = some (.text s) := by
  obtain ⟨c, hc, htext⟩ := Option.map_eq_some_iff.1 h
  cases c with
  | text s' => exact hc.trans (congrArg some htext)
  | _ => cases htext

end Row

/-- A reading of two parts succeeds exactly if both succeed. -/
theorem bind_eq_ok_iff {α β : Type} {x : Except Error α} {f : α → Except Error β} {b : β} :
    (x >>= f) = .ok b ↔ ∃ a, x = .ok a ∧ f a = .ok b := by
  cases x <;> simp [bind, Except.bind]

namespace Row

variable {row : Row} {t : Transaction}

/-- The nine columns of a record, one by one. -/
theorem has_written_iff {id : Int64} : row.Has (written t id) ↔
    row.kept? "id" = some (.int id) ∧
    row.kept? "from_user_id" = some (Param.ofNullable .int (t.source.map ofWord)).cell ∧
    row.kept? "to_user_id" = some (Param.ofNullable .int (t.target.map ofWord)).cell ∧
    row.kept? "amount_cents" = some (.int t.amount) ∧
    row.kept? "tx_type" = some (.text t.kind.text) ∧
    row.kept? "status" = some (.text t.status.text) ∧
    row.kept? "failure_cause" = some (Param.ofNullable .text t.failureCause).cell ∧
    row.kept? "created_at" = some (.time t.createdAt.toMicros) ∧
    row.kept? "updated_at" = some (.time t.updatedAt.toMicros) := by
  simp only [Has, written, recordColumns, Statement.params, List.map_cons, List.map_nil, List.zip_cons_cons,
    List.zip_nil_left, List.forall_mem_cons, List.not_mem_nil, false_implies, implies_true, and_true, Param.cell]

/-- A record is read back from the columns that are written for it, under their identifier and with its times in whole
microseconds. -/
theorem toTransaction_of_has {id : Int64} (h : row.Has (written t id)) :
    row.toTransaction = .ok { t.toMicros with id := (toWord id).toNat } := by
  obtain ⟨hid, hsource, htarget, hamount, hkind, hstatus, hcause, hcreated, hupdated⟩ := has_written_iff.1 h
  have hwords : ∀ user : Option UserId, (user.map ofWord).map toWord = user := by
    rintro (_ | user) <;> simp
  simp only [toTransaction, text_eq_ok_iff.2 hkind, text_eq_ok_iff.2 hstatus, int_eq_ok_iff.2 hid,
    int?_eq_ok_iff.2 hsource, int?_eq_ok_iff.2 htarget, int_eq_ok_iff.2 hamount, kind_parse_eq_ok_iff.2 rfl,
    status_parse_eq_ok_iff.2 rfl, text?_eq_ok_iff.2 hcause, time_eq_ok_iff.2 hcreated, time_eq_ok_iff.2 hupdated, bind,
    Except.bind, pure, Except.pure, hwords, Transaction.toMicros]

/-- A row that is read as a record has the columns that are written for it, and the record fits. -/
theorem has_of_toTransaction (h : row.toTransaction = .ok t) : t.Fits ∧ row.Has (written t (ofNat t.id)) := by
  simp only [toTransaction, bind_eq_ok_iff, int_eq_ok_iff, text_eq_ok_iff, int?_eq_ok_iff, text?_eq_ok_iff,
    time_eq_ok_iff, kind_parse_eq_ok_iff, status_parse_eq_ok_iff, pure, Except.pure, Except.ok.injEq] at h
  obtain ⟨_, hkind, _, hstatus, id, hid, source, hsource, target, htarget, amount, hamount, kind, rfl, status, rfl,
    cause, hcause, created, hcreated, updated, hupdated, rfl⟩ := h
  have hwords : ∀ user : Option Int64, (user.map toWord).map ofWord = user := by
    rintro (_ | user) <;> simp
  refine ⟨⟨(toWord id).toNat_lt, inMicros_of_cell hcreated, inMicros_of_cell hupdated⟩, has_written_iff.2 ?_⟩
  rw [Instant.toMicros_eq_self_iff.2 (inMicros_of_cell hcreated),
    Instant.toMicros_eq_self_iff.2 (inMicros_of_cell hupdated), ofNat_toWord, hwords, hwords]
  exact ⟨hid, hsource, htarget, hamount, hkind, hstatus, hcause, hcreated, hupdated⟩

/-- A row is read as a record exactly if the record fits and the row has the columns that are written for it. -/
theorem toTransaction_eq_ok_iff : row.toTransaction = .ok t ↔ t.Fits ∧ row.Has (written t (ofNat t.id)) := by
  refine ⟨has_of_toTransaction, fun ⟨hfits, hhas⟩ => ?_⟩
  rw [toTransaction_of_has hhas, toWord_ofNat hfits.id,
    Transaction.toMicros_eq_self_iff.2 ⟨hfits.createdAt, hfits.updatedAt⟩]

/-- What is kept in a column comes from a column of the row. -/
theorem mem_of_kept {name : String} {kept : Cell} (h : row.kept? name = some kept) :
    ∃ c, (name, c) ∈ row ∧ c.toMicros = kept := by
  obtain ⟨c, hc, hkept⟩ := Option.map_eq_some_iff.1 h
  obtain ⟨⟨name', c'⟩, hfound, rfl⟩ := Option.map_eq_some_iff.1 hc
  obtain rfl : name' = name := by simpa using List.find?_some hfound
  exact ⟨c', List.mem_reverse.1 (List.mem_of_find?_eq_some hfound), hkept⟩

/-- A column in which something is kept is not null throughout the row. -/
theorem not_null_of_kept {name : String} {kept : Cell} (h : row.kept? name = some kept) (hkept : kept ≠ .null) :
    ¬∀ c ∈ row, c.1 = name → c.2 = .null := by
  intro hnull
  obtain ⟨c, hc, rfl⟩ := mem_of_kept h
  obtain rfl : c = .null := hnull (name, c) hc rfl
  exact hkept rfl

/-- A row that is read has every column of a record. -/
theorem mem_of_mem_required {name : String} (h : row.toTransaction = .ok t) (hname : name ∈ requiredColumns) :
    ∃ c, (name, c) ∈ row := by
  have hnames : (written t (ofNat t.id)).map (·.1) = requiredColumns := rfl
  rw [← hnames] at hname
  obtain ⟨column, hcolumn, rfl⟩ := List.mem_map.1 hname
  obtain ⟨c, hc, -⟩ := mem_of_kept ((toTransaction_eq_ok_iff.1 h).2 column hcolumn)
  exact ⟨c, hc⟩

/-- A row that is read holds something in the columns that are null in no record. -/
theorem kept_of_mem_valued {name : String} (h : row.toTransaction = .ok t) (hname : name ∈ valuedColumns) :
    ∃ kept, row.kept? name = some kept ∧ kept ≠ .null := by
  obtain ⟨hid, -, -, hamount, hkind, hstatus, -, hcreated, hupdated⟩ :=
    has_written_iff.1 (toTransaction_eq_ok_iff.1 h).2
  simp only [valuedColumns, List.mem_cons, List.not_mem_nil, or_false] at hname
  rcases hname with rfl | rfl | rfl | rfl | rfl | rfl
  · exact ⟨_, hid, nofun⟩
  · exact ⟨_, hamount, nofun⟩
  · exact ⟨_, hkind, nofun⟩
  · exact ⟨_, hstatus, nofun⟩
  · exact ⟨_, hcreated, nofun⟩
  · exact ⟨_, hupdated, nofun⟩

/-- The three columns of a balance, one by one. -/
theorem has_writtenBalance_iff {b : Balance} : row.Has (writtenBalance b) ↔
    row.kept? "user_id" = some (.int (ofWord b.user)) ∧ row.kept? "amount_cents" = some (.int b.amount) ∧
      row.kept? "last_updated" = some (.time b.lastUpdated.toMicros) := by
  simp only [Has, writtenBalance, balanceColumns, Statement.params, List.map_cons, List.map_nil, List.zip_cons_cons,
    List.zip_nil_left, List.forall_mem_cons, List.not_mem_nil, false_implies, implies_true, and_true, Param.cell]

/-- What is read as the balance of a user. -/
theorem toBalance_eq_ok_iff {user : UserId} {b : Balance} : row.toBalance user = .ok b ↔
    row.kept? "amount_cents" = some (.int b.amount) ∧ row.kept? "last_updated" = some (.time b.lastUpdated) ∧
      0 ≤ b.amount ∧ b.user = user := by
  simp only [toBalance, bind_eq_ok_iff, int_eq_ok_iff, time_eq_ok_iff, Balance.restore]
  constructor
  · rintro ⟨a, ha, t, ht, h⟩
    split_ifs at h with hneg
    cases h
    exact ⟨ha, ht, Int64.not_lt.1 hneg, rfl⟩
  · rintro ⟨ha, ht, hpos, rfl⟩
    exact ⟨_, ha, _, ht, if_neg (Int64.not_lt.2 hpos)⟩

end Row

/-! ## Records and rows -/

/-- What never succeeds fails. -/
theorem exists_error {α : Type} {x : Except Error α} (h : ∀ a, x ≠ .ok a) : ∃ e, x = .error e := by
  cases x with
  | error e => exact ⟨e, rfl⟩
  | ok a => exact absurd rfl (h a)

/-- The text that writes a row of some columns, each from the parameter of its number. -/
def insertText (table : String) (columns : List String) : String :=
  "INSERT INTO " ++ table ++ " (" ++ ", ".intercalate columns ++ ") VALUES (" ++
    ", ".intercalate ((List.range columns.length).map fun i => "$" ++ toString (i + 1)) ++ ")"

/-- The text that reads some columns of rows. -/
def selectText (table : String) (columns : List String) : String :=
  "SELECT " ++ ", ".intercalate columns ++ " FROM " ++ table

/-- How transaction records are written in rows and read from them. -/
structure RecordsEncoded : Prop where
  /-- A record is written by one statement, whatever the server replies. -/
  sent : ∀ t replies, ((addTransaction t).run replies).1 = [insertion t]
  /-- The statement names the columns of a record in the order in which their values are bound. -/
  inserted : ∀ t, (insertion t).text = insertText "transactions" recordColumns ++ " RETURNING id"
  /-- These and the identifier are the columns that are read. -/
  selected : ∀ id limit,
    (Statement.selectTransaction id).text = selectText "transactions" requiredColumns ++ " WHERE id = $1" ∧
      (Statement.selectLatest limit).text = selectText "transactions" requiredColumns ++ " ORDER BY id DESC LIMIT $1"
  /-- What was written is read back, under the identifier that the server returned and with its times in whole
  microseconds. -/
  readBack : ∀ (t : Transaction) (id : Int64) (row : Row), row.Has (written t id) →
    row.toTransaction = .ok { t.toMicros with id := (toWord id).toNat }
  /-- Times are cut toward 2000-01-01T00:00:00Z. -/
  cut : ∀ t : Instant, t.CutTo t.toMicros
  /-- They stay as they are exactly if they have whole microseconds and are in no leap second. -/
  exact : ∀ t : Instant, t.toMicros = t ↔ t.InMicros
  /-- A time in a leap second is kept as the one in the next minute that it counts into. -/
  leap : ∀ s t : Instant, s.toNanos = t.toNanos → s.toMicros = t.toMicros
  /-- For the record that is read from a row, the values that the row has would be written again. -/
  rewritten : ∀ (row : Row) (t : Transaction), row.toTransaction = .ok t → row.Has (written t (ofNat t.id))
  /-- A row from a server, whose times have whole microseconds, has exactly these values. -/
  values : ∀ (row : Row) columns, row.InMicros → (row.Has columns ↔ ∀ c ∈ columns, row.cell? c.1 = some c.2)
  /-- A row whose kind or status is no known word is not read. -/
  unknown : ∀ row : Row,
    ((∀ k : Kind, row.cell? "tx_type" ≠ some (.text k.text)) ∨ ∀ s : Status, row.cell? "status" ≠ some (.text s.text)) →
      ∃ e, row.toTransaction = .error e
  /-- A row that lacks a column is not read, even where null would do. -/
  lacking : ∀ row : Row, ∀ name ∈ requiredColumns, (∀ c ∈ row, c.1 ≠ name) → ∃ e, row.toTransaction = .error e
  /-- Nor is a row in which a column that must hold something is null. -/
  null : ∀ row : Row, ∀ name ∈ valuedColumns, (∀ c ∈ row, c.1 = name → c.2 = .null) →
    ∃ e, row.toTransaction = .error e

/-- How balances are written in rows and read from them. -/
structure BalancesEncoded : Prop where
  /-- A balance is written by one statement, whatever the server replies. -/
  sent : ∀ b replies, ((writeBalance b).run replies).1 = [writing b]
  /-- The statement names the columns of a balance in the order in which their values are bound, and replaces them if
  there is a row of the user. -/
  inserted : ∀ b, (writing b).text = insertText "balances" balanceColumns ++ " ON CONFLICT (user_id) " ++
    ("DO UPDATE SET " ++ ", ".intercalate (balanceColumns.tail.map fun c => c ++ " = EXCLUDED." ++ c))
  /-- Other than the user, these are the columns that are read. -/
  selected : ∀ user,
    (Statement.selectBalance user).text = selectText "balances" balanceColumns.tail ++ " WHERE user_id = $1"
  /-- What was written is read back with its time in whole microseconds, if the amount is not negative. -/
  readBack : ∀ (b : Balance) (row : Row), 0 ≤ b.amount → row.Has (writtenBalance b) →
    row.toBalance b.user = .ok { b with lastUpdated := b.lastUpdated.toMicros }
  /-- For the balance that is read from the row of a user, the values that the row has would be written again. -/
  rewritten : ∀ (user : UserId) (row : Row) (b : Balance), row.cell? "user_id" = some (.int (ofWord user)) →
    row.toBalance user = .ok b → row.Has (writtenBalance b)
  /-- A row with a negative amount is not read. -/
  negative : ∀ (user : UserId) (row : Row) amount, row.cell? "amount_cents" = some (.int amount) → amount < 0 →
    ∃ e, row.toBalance user = .error e
  /-- A row in which a column is absent or null is not read. -/
  lacking : ∀ (user : UserId) (row : Row), ∀ name ∈ balanceColumns.tail, (∀ c ∈ row, c.1 = name → c.2 = .null) →
    ∃ e, row.toBalance user = .error e

/-- Records are encoded in rows. -/
theorem records_encoded : RecordsEncoded where
  sent t replies := by cases replies <;> rfl
  inserted _ := rfl
  selected _ _ := ⟨rfl, rfl⟩
  readBack _ _ _ := Row.toTransaction_of_has
  cut := Instant.cutTo_toMicros
  exact _ := Instant.toMicros_eq_self_iff
  leap _ _ := Instant.toMicros_congr
  rewritten _ _ h := (Row.toTransaction_eq_ok_iff.1 h).2
  values _ _ := Row.has_iff_of_inMicros
  unknown row hunknown := by
    refine exists_error fun t hread => ?_
    obtain ⟨-, -, -, -, hkind, hstatus, -⟩ := Row.has_written_iff.1 (Row.toTransaction_eq_ok_iff.1 hread).2
    rcases hunknown with hunknown | hunknown
    · exact hunknown t.kind (Row.cell?_eq_text hkind)
    · exact hunknown t.status (Row.cell?_eq_text hstatus)
  lacking row name hname habsent := by
    refine exists_error fun t hread => ?_
    obtain ⟨c, hc⟩ := Row.mem_of_mem_required hread hname
    exact habsent (name, c) hc rfl
  null row name hname hnull := by
    refine exists_error fun t hread => ?_
    obtain ⟨kept, hkept, hne⟩ := Row.kept_of_mem_valued hread hname
    exact Row.not_null_of_kept hkept hne hnull

/-- A balance is written over the row of its user in all columns but the key. -/
theorem text_writing (b : Balance) : (writing b).text =
    insertText "balances" balanceColumns ++ " ON CONFLICT (user_id) " ++ ("DO UPDATE SET " ++
      ", ".intercalate (balanceColumns.tail.map fun c => c ++ " = EXCLUDED." ++ c)) := by
  have hinsert : insertText "balances" balanceColumns ++ " ON CONFLICT (user_id) " =
      "INSERT INTO balances (user_id, amount_cents, last_updated) VALUES ($1, $2, $3) ON CONFLICT (user_id) " := rfl
  have hset : "DO UPDATE SET " ++ ", ".intercalate (balanceColumns.tail.map fun c => c ++ " = EXCLUDED." ++ c) =
      "DO UPDATE SET amount_cents = EXCLUDED.amount_cents, last_updated = EXCLUDED.last_updated" := rfl
  exact congrArg₂ (· ++ ·) hinsert.symm hset.symm

/-- Balances are encoded in rows. -/
theorem balances_encoded : BalancesEncoded where
  sent b replies := by cases replies <;> rfl
  inserted := text_writing
  selected _ := rfl
  readBack b row hpos hhas := by
    obtain ⟨-, hamount, hupdated⟩ := Row.has_writtenBalance_iff.1 hhas
    exact Row.toBalance_eq_ok_iff.2 ⟨hamount, hupdated, hpos, rfl⟩
  rewritten user row b huser hread := by
    obtain ⟨hamount, hupdated, -, rfl⟩ := Row.toBalance_eq_ok_iff.1 hread
    refine Row.has_writtenBalance_iff.2 ⟨by rw [Row.kept?, huser]; rfl, hamount, ?_⟩
    rw [hupdated, Instant.toMicros_eq_self_iff.2 (Row.inMicros_of_cell hupdated)]
  negative user row amount hamount hneg := by
    refine exists_error fun b hread => ?_
    obtain ⟨hb, -, hpos, -⟩ := Row.toBalance_eq_ok_iff.1 hread
    have hsame : amount = b.amount := by simpa [Row.kept?, hamount, Cell.toMicros] using hb
    exact Int64.not_lt.2 hpos (hsame ▸ hneg)
  lacking user row name hname hnull := by
    refine exists_error fun b hread => ?_
    obtain ⟨hamount, hupdated, -⟩ := Row.toBalance_eq_ok_iff.1 hread
    simp only [balanceColumns, List.tail_cons, List.mem_cons, List.not_mem_nil, or_false] at hname
    rcases hname with rfl | rfl
    · exact Row.not_null_of_kept hamount nofun hnull
    · exact Row.not_null_of_kept hupdated nofun hnull

/-- Rows encode records, and balances that are not negative. What is written is read back, up to what a clock of
microseconds since 2000-01-01T00:00:00Z keeps of a time; what is read would be written again; and no other row is
read. -/
theorem rows_encode : RecordsEncoded ∧ BalancesEncoded :=
  ⟨records_encoded, balances_encoded⟩

/-- A time with whole microseconds is not always read back. The last second of 2016 was followed by a leap second, and a
record that was made then comes back as one of the year after. -/
theorem leap_second_moved : ¬∀ (t : Transaction) (id : Int64) (row : Row), row.Has (written t id) →
    t.createdAt.nanos % 1000 = 0 → t.updatedAt.nanos % 1000 = 0 →
      row.toTransaction = .ok { t with id := (toWord id).toNat } := by
  intro hexact
  let leap : Instant := ⟨1483228799, 1_000_000_000, .inr (by decide)⟩
  let t : Transaction := ⟨0, none, some 7, 250, .credit, .pending, none, leap, leap⟩
  have hhas : (written t 5).Has (written t 5) := by decide
  have hread := hexact t 5 (written t 5) hhas (by decide) (by decide)
  rw [Row.toTransaction_of_has hhas, Except.ok.injEq] at hread
  exact absurd (congrArg Transaction.createdAt hread) (by decide)

end Sql

end CentLedger
