import CentLedger.Store.Request

/-!
# The store in memory

Balances are one row for each user; history and transaction records are logs that only grow, so the identifier of an
entry is its place in the log, counted from one. `Memory.perform` answers one request; a request that is refused
leaves the store as it was.
-/

namespace CentLedger

/-- The rows of the ledger. -/
structure Memory where
  /-- One row for each user, in the order of first access. -/
  balances : List Balance
  /-- The snapshots of all users, in the order of writing. -/
  history : List Snapshot
  /-- The transaction records, in the order of insertion. -/
  transactions : List Transaction
  deriving DecidableEq

namespace Memory

/-- A store without rows. -/
def empty : Memory :=
  ⟨[], [], []⟩

/-- The row of a user. -/
def balance? (m : Memory) (user : UserId) : Option Balance :=
  m.balances.find? fun b => b.user = user

/-- The amount on a user's account; an account without a row holds nothing. -/
def amountOf (m : Memory) (user : UserId) : Cents :=
  ((m.balance? user).map (·.amount)).getD 0

/-- Replace the row of the user that a balance names, or add it behind the others. -/
def putBalance (b : Balance) : List Balance → List Balance
  | [] => [b]
  | c :: rest => if c.user = b.user then b :: rest else c :: putBalance b rest

/-- The snapshots of a user, newest first. -/
def snapshots (m : Memory) (user : UserId) : List Snapshot :=
  (m.history.filter fun s => s.user = user).reverse

/-- The snapshots of a user up to an instant, newest first. -/
def snapshotsUntil (m : Memory) (user : UserId) : Option Instant → List Snapshot
  | none => m.snapshots user
  | some t => (m.snapshots user).filter fun s => s.createdAt ≤ t

/-- The transaction record with an identifier. -/
def transaction? (m : Memory) (id : TransactionId) : Option Transaction :=
  m.transactions.find? fun t => t.id = id

/-- Replace the record that has the identifier of a given one. -/
def putTransaction (t : Transaction) : List Transaction → List Transaction
  | [] => []
  | s :: rest => if s.id = t.id then t :: rest else s :: putTransaction t rest

/-- Answer a request at some time. -/
def perform (m : Memory) (now : Instant) : (request : StoreRequest) → Except Error request.Answer × Memory
  | .balance user =>
    match m.balance? user with
    | some b => (.ok b, m)
    | none => (.ok (.zero user now), { m with balances := putBalance (.zero user now) m.balances })
  | .saveBalance b =>
    if b.amount < 0 then
      (.error (.invalidTransaction ("refusing to store negative balance for user " ++ Error.userText b.user)), m)
    else (.ok (), { m with balances := putBalance b m.balances })
  | .appendHistory s =>
    let s := { s with id := m.history.length + 1 }
    (.ok s, { m with history := m.history ++ [s] })
  | .history user asOf limit => (.ok ((m.snapshotsUntil user asOf).take limit), m)
  | .insertTransaction t =>
    let t := { t with id := m.transactions.length + 1 }
    (.ok t, { m with transactions := m.transactions ++ [t] })
  | .updateTransaction t =>
    match m.transaction? t.id with
    | none => (.error (noTransaction t.id), m)
    | some stored =>
      if stored.status.isTerminal then (.error (.illegalTransition stored.status t.status), m)
      else (.ok (), { m with transactions := putTransaction t m.transactions })
  | .transaction id => (.ok (m.transaction? id), m)
  | .latest limit => (.ok (m.transactions.reverse.take limit), m)

end Memory

end CentLedger
