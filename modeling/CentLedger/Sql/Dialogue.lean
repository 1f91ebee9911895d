import CentLedger.Sql.Row

/-!
# Dialogues with a server

A dialogue is a tree of statements, each with the reply that decides how to go on. `Dialogue.run` holds one against a
list of replies and collects the statements that were sent; when the replies are used up, the server answers that it
found nothing and changed nothing.
-/

namespace CentLedger

namespace Sql

/-- The reply of a server to a statement. -/
inductive ServerReply
  /-- The statement was executed: how many rows it changed, and the rows it returned. -/
  | executed (affected : Nat) (rows : List Row)
  /-- The statement failed. -/
  | failed (text : String)
  /-- The connection was closed, and the statement was not sent. -/
  | closed
  deriving DecidableEq

namespace ServerReply

/-- Nothing found and nothing changed. -/
def nothing : ServerReply :=
  executed 0 []

/-- The number of rows that a statement changed. -/
def affected? : ServerReply → Except Error Nat
  | executed n _ => .ok n
  | failed text => .error (failure ("error returned from database: " ++ text))
  | closed => .error (failure "attempted to acquire a connection on a closed pool")

/-- The rows that a statement returned. -/
def rows? : ServerReply → Except Error (List Row)
  | executed _ rows => .ok rows
  | failed text => .error (failure ("error returned from database: " ++ text))
  | closed => .error (failure "attempted to acquire a connection on a closed pool")

/-- The first of the rows that a statement returned, if there is one. -/
def firstRow? (r : ServerReply) : Except Error (Option Row) := do
  return (← r.rows?).head?

/-- The first of the rows that a statement returned. -/
def row? (r : ServerReply) : Except Error Row := do
  match ← r.firstRow? with
  | some row => return row
  | none => throw (failure "no rows returned by a query that expected to return at least one row")

/-- The identifier that a statement returned: the first column of the first row, whatever its name. -/
def newId? (r : ServerReply) : Except Error Int64 := do
  match (← r.row?).head? with
  | some c => c.2.read Cell.asInt? "0"
  | none => throw (failure "column index out of bounds: the len is 0, but the index is 0")

end ServerReply

/-- Statements sent to a server, up to a value. -/
inductive Dialogue (α : Type)
  /-- Nothing more is sent. -/
  | done (value : α)
  /-- Send a statement and go on from its reply. -/
  | send (statement : Statement) (next : ServerReply → Dialogue α)

namespace Dialogue

variable {α β : Type}

/-- One dialogue after another. -/
def bind (d : Dialogue α) (k : α → Dialogue β) : Dialogue β :=
  match d with
  | done a => k a
  | send s next => send s fun reply => (next reply).bind k

instance : Monad Dialogue where
  pure := done
  bind := bind

/-- Send one statement. -/
def say (s : Statement) : Dialogue ServerReply :=
  send s done

/-- Hold a dialogue against a list of replies: the statements that were sent, and the value. -/
def run : Dialogue α → List ServerReply → List Statement × α
  | done a, _ => ([], a)
  | send s next, [] =>
    let (sent, a) := (next .nothing).run []
    (s :: sent, a)
  | send s next, reply :: replies =>
    let (sent, a) := (next reply).run replies
    (s :: sent, a)

/-- Hold a dialogue over a closed connection: nothing is sent. -/
def runClosed : Dialogue α → α
  | done a => a
  | send _ next => (next .closed).runClosed

end Dialogue

end Sql

end CentLedger
