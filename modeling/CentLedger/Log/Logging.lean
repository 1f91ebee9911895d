import CentLedger.Log.Filter
import CentLedger.Settings.Settings
import CentLedger.Time.Rfc3339
import CentLedger.Json.Writer

/-!
# Logging

There are two log files. The audit file takes the audit records and nothing else, whatever the filter says; the main
file takes every event that passes the filter, and so does the console unless the main file is in JSON. A file that
rotates bears the date, or the date and the hour, of its first line.
-/

namespace CentLedger

namespace Log

/-- Something to log: how severe it is, where it comes from, and what it says. -/
structure Event where
  level : Level
  target : String
  message : String
  fields : List (String × String)
  deriving DecidableEq, Repr

/-- The target of audit records. -/
def auditTarget : String := "audit"

/-- The name of the audit file. -/
def auditFile : String := "audit.log"

/-- The event of an audit record. -/
def auditEvent (entityType entityId action details : String) : Event :=
  ⟨.info, auditTarget, "Audit",
    [("entity_type", entityType), ("entity_id", entityId), ("action", action), ("details", details)]⟩

/-- When a file gives way to the next. -/
inductive Rotation
  | hourly
  | daily
  | never
  deriving DecidableEq, Repr

namespace Rotation

/-- The rotation that a setting names; every other text means never. -/
def ofText (s : String) : Rotation :=
  if s = "hourly" then hourly else if s = "daily" then daily else never

/-- The date in a file's name. -/
def stamp (r : Rotation) (now : Instant) : String :=
  let date := String.ofList (((now.text).toList).take 10)
  match r with
  | hourly => date ++ "-" ++ String.ofList (Decimal.padded 2 now.timeOfDay.hour)
  | _ => date

/-- The name of a log file; a file without a name is called by the date. -/
def fileName (r : Rotation) (name : String) (now : Instant) : String :=
  if name = "" then r.stamp now
  else
    match r with
    | never => name
    | _ => name ++ "." ++ r.stamp now

end Rotation

/-- What is logged where. -/
structure Setup where
  filter : Filter
  rotation : Rotation
  mainFile : String
  console : Bool
  deriving DecidableEq, Repr

namespace Setup

/-- The setup of a service. A filter from the environment, if it is one, takes the place of the one in the settings. -/
def ofSettings (s : Settings) (environment : Option String) : Setup where
  filter := (environment.bind Filter.parse).getD (Filter.parseLenient s.logLevel)
  rotation := .ofText s.rotation
  mainFile := s.logFile
  console := !s.useJson

/-- The names of the log files at some time. -/
def fileNames (s : Setup) (now : Instant) : List String :=
  [s.rotation.fileName auditFile now, s.rotation.fileName s.mainFile now]

/-- The events that the main file takes. -/
def main (s : Setup) (events : List Event) : List Event :=
  events.filter fun e => s.filter.allows e.target e.level

/-- The events that the audit file takes. -/
def audit (_ : Setup) (events : List Event) : List Event :=
  events.filter fun e => e.target = auditTarget && e.level.rank ≤ Level.info.rank

/-- The number of lines on the console. -/
def consoleLines (s : Setup) (events : List Event) : Nat :=
  if s.console then (s.main events).length else 0

end Setup

end Log

end CentLedger
