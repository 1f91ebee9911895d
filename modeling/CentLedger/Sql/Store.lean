import CentLedger.Operation.Program
import CentLedger.Sql.Dialogue

/-!
# The store in a database

Each request to the store as a dialogue with a server, and each program as the dialogue that its requests make. A
record is closed by an update that only a pending row obeys; when no row did, the record is read back to tell why.
-/

namespace CentLedger

namespace Sql

/-- Make the tables and the index that are not there, up to the first failure. -/
def createAll : List Statement → Dialogue (Except Error Unit)
  | [] => .done (.ok ())
  | s :: rest =>
    .send s fun reply =>
      match reply.affected? with
      | .ok _ => createAll rest
      | .error e => .done (.error e)

/-- Make sure that the tables exist. -/
def ensureSchema : Dialogue (Except Error Unit) :=
  createAll [.createBalances, .createHistory, .createHistoryIndex, .createTransactions]

/-- The balance of a user, after making a zero row if there is none. -/
def readBalance (user : UserId) : Dialogue (Except Error Balance) :=
  .send (.insertZeroBalance (ofWord user)) fun inserted =>
    match inserted.affected? with
    | .error e => .done (.error e)
    | .ok _ => .send (.selectBalance (ofWord user)) fun selected => .done (do (← selected.row?).toBalance user)

/-- Write the balance of a user. -/
def writeBalance (b : Balance) : Dialogue (Except Error Unit) :=
  .send (.upsertBalance (ofWord b.user) b.amount b.lastUpdated) fun reply => .done (do let _ ← reply.affected?)

/-- Add a snapshot; the server numbers it. -/
def addSnapshot (s : Snapshot) : Dialogue (Except Error Snapshot) :=
  .send (.insertSnapshot (ofWord s.user) s.amount s.createdAt) fun reply =>
    .done (do return { s with id := (toWord (← reply.newId?)).toNat })

/-- The snapshots of a user, in the order in which the server returns them. -/
def readHistory (user : UserId) (asOf : Option Instant) (limit : Nat) : Dialogue (Except Error (List Snapshot)) :=
  .send (.selectHistory (ofWord user) asOf (ofNat limit)) fun reply => .done (do (← reply.rows?).mapM Row.toSnapshot)

/-- Add a transaction record; the server numbers it. -/
def addTransaction (t : Transaction) : Dialogue (Except Error Transaction) :=
  .send
    (.insertTransaction (t.source.map ofWord) (t.target.map ofWord) t.amount t.kind.text t.status.text t.failureCause
      t.createdAt t.updatedAt)
    fun reply => .done (do return { t with id := (toWord (← reply.newId?)).toNat })

/-- The transaction record with an identifier. -/
def readTransaction (id : TransactionId) : Dialogue (Except Error (Option Transaction)) :=
  .send (.selectTransaction (ofNat id)) fun reply => .done (do (← reply.firstRow?).mapM Row.toTransaction)

/-- Why no pending row had the identifier of a record: there is none, or it is terminal. -/
def updateRefusal (t : Transaction) : Except Error (Option Transaction) → Error
  | .error e => e
  | .ok (some stored) => .illegalTransition stored.status t.status
  | .ok none => noTransaction t.id

/-- Close a transaction record that is pending. -/
def closeTransaction (t : Transaction) : Dialogue (Except Error Unit) :=
  .send (.updateTransaction t.status.text t.failureCause t.updatedAt (ofNat t.id)) fun reply =>
    match reply.affected? with
    | .error e => .done (.error e)
    | .ok (_ + 1) => .done (.ok ())
    | .ok 0 => do return .error (updateRefusal t (← readTransaction t.id))

/-- The newest transaction records, in the order in which the server returns them. -/
def readLatest (limit : Nat) : Dialogue (Except Error (List Transaction)) :=
  .send (.selectLatest (ofNat limit)) fun reply => .done (do (← reply.rows?).mapM Row.toTransaction)

/-- Answer a request to the store. -/
def perform : (request : StoreRequest) → Dialogue (Except Error request.Answer)
  | .balance user => readBalance user
  | .saveBalance b => writeBalance b
  | .appendHistory s => addSnapshot s
  | .history user asOf limit => readHistory user asOf limit
  | .insertTransaction t => addTransaction t
  | .updateTransaction t => closeTransaction t
  | .transaction id => readTransaction id
  | .latest limit => readLatest limit

/-- The dialogue that a program makes when it runs alone at some time. -/
def converse {α : Type} (now : Instant) : Program α → Dialogue α
  | .done a => .done a
  | .act (.lock _) next => converse now (next ())
  | .act (.unlock _) next => converse now (next ())
  | .act .clock next => converse now (next now)
  | .act (.store request) next => (perform request).bind fun answer => converse now (next answer)
  | .act (.audit _) next => converse now (next (.ok ()))

end Sql

end CentLedger
