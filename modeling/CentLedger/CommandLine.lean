import CentLedger.Log.Logging
import CentLedger.Store.Request

/-!
# The command line

The program takes one option, the name of an environment. It loads the settings of that environment, sets up its logs,
says that it starts, builds the service, and runs until it is interrupted. `CommandLine.run` says what it prints and
logs on the way, given the files that it can read.
-/

namespace CentLedger

namespace CommandLine

/-- The version in the log. -/
def version : String := "0.1.0"

/-- The environment that arguments name: the word after the first option that has a word after it. -/
def environment : List String → String
  | option :: word :: rest =>
    if option = "--env" ∨ option = "-e" then word else environment (word :: rest)
  | _ => "dev"

/-- The target of the program's own events. -/
def target : String := "bank_ledger"

/-- The event that says that the program starts. -/
def started (env : String) : Log.Event :=
  ⟨.info, target, "Starting bank ledger in " ++ env ++ " mode", [("version", version)]⟩

/-- The event that says that the program was interrupted. -/
def interrupted : Log.Event :=
  ⟨.info, target, "Shutdown requested", []⟩

/-- What the program did. -/
structure Run where
  exitCode : Nat
  /-- It came to wait for an interruption. -/
  waited : Bool
  /-- The first line of its error output, empty if there is none. -/
  error : String
  /-- Where the logs are; nothing if none were set up. -/
  logs : Option (String × Log.Setup)
  /-- Its events that passed the filter. -/
  logged : List Log.Event
  deriving DecidableEq, Repr

/-- The line that reports an error. -/
def errorLine (message : String) : String :=
  "Error: " ++ message

/-- The error of a service whose database cannot be reached. -/
def unreachable : Error :=
  .storageUnavailable ""

/-- Run the program with some arguments, up to and including an interruption. No database can be reached. -/
def run (args : List String) (read : String → Option String) : Run :=
  let env := environment args
  match Settings.load env read with
  | .error e => ⟨1, false, errorLine e.message, none, []⟩
  | .ok settings =>
    let logs := Log.Setup.ofSettings settings none
    match settings.postgresUrl with
    | some _ =>
      ⟨1, false, errorLine unreachable.message, some (settings.logDir, logs), logs.main [started env]⟩
    | none => ⟨0, true, "", some (settings.logDir, logs), logs.main [started env, interrupted]⟩

end CommandLine

end CentLedger
