import CentLedger.Json.Value
import CentLedger.Time.Rfc3339

/-!
# Batches

A batch is a named group of jobs that are submitted together. It is `pending` when it is made, `processing` once its
jobs are being submitted, and ends `completed`, or `failed` if none of its jobs succeeded.
-/

namespace CentLedger

/-- How far a batch has come. -/
inductive BatchStatus
  | pending
  | processing
  | completed
  | failed
  deriving DecidableEq, Repr

namespace BatchStatus

/-- The word for a status. -/
def text : BatchStatus → String
  | pending => "pending"
  | processing => "processing"
  | completed => "completed"
  | failed => "failed"

/-- The status that a word names. -/
def ofText? (s : String) : Option BatchStatus :=
  if s = "pending" then some pending
  else if s = "processing" then some processing
  else if s = "completed" then some completed
  else if s = "failed" then some failed
  else none

/-- A terminal status is not left again. -/
def isTerminal : BatchStatus → Bool
  | completed => true
  | failed => true
  | _ => false

end BatchStatus

/-- The number of a batch. -/
abbrev BatchId := Nat

/-- The record of a batch. -/
structure Batch where
  id : BatchId
  name : String
  status : BatchStatus
  jobCount : Nat
  succeeded : Nat
  failed : Nat
  /-- What went wrong, if something did. -/
  note : Option String
  createdAt : Instant
  completedAt : Option Instant
  deriving DecidableEq

namespace Batch

/-- A batch that was just made. -/
def create (id : BatchId) (name : String) (jobCount : Nat) (now : Instant) : Batch :=
  ⟨id, name, .pending, jobCount, 0, 0, none, now, none⟩

/-- The status of a batch when its jobs are over. -/
def finalStatus (succeeded failed : Nat) : BatchStatus :=
  if failed = 0 then .completed else if succeeded = 0 then .failed else .completed

/-- What is noted about a batch when its jobs are over. -/
def finalNote (succeeded failed : Nat) : Option String :=
  if failed = 0 then none
  else if succeeded = 0 then some "All jobs failed"
  else some (toString failed ++ " jobs failed")

/-- The record when the jobs are over. -/
def finish (b : Batch) (succeeded failed : Nat) (now : Instant) : Batch :=
  { b with
    status := finalStatus succeeded failed
    succeeded := succeeded
    failed := failed
    note := finalNote succeeded failed
    completedAt := some now }

/-- A batch as a JSON object, without its number. -/
def toJson (b : Batch) : Json :=
  .obj [("name", .str b.name), ("status", .str b.status.text), ("job_count", .int b.jobCount),
    ("succeeded", .int b.succeeded), ("failed", .int b.failed),
    ("note", match b.note with | some n => .str n | none => .null), ("created_at", .str b.createdAt.text),
    ("completed_at", match b.completedAt with | some t => .str t.text | none => .null)]

end Batch

end CentLedger
