import CentLedger.CommandLine

/-!
# The program

Reads the settings of its environment from `config`, writes its logs, and runs until its standard input ends.
-/

namespace CentLedger

/-- A logged event as a line of JSON. -/
def logLine (e : Log.Event) : String :=
  (Json.obj ([("level", .str e.level.text), ("target", .str e.target), ("message", .str e.message)] ++
    e.fields.map fun f => (f.1, .str f.2))).text ++ "\n"

/-- Write the log files of a run. -/
def writeLogs (dir : String) (setup : Log.Setup) (now : Instant) (events : List Log.Event) : IO Unit := do
  IO.FS.createDirAll dir
  let append (name : String) (lines : List Log.Event) : IO Unit := do
    let file ← IO.FS.Handle.mk (dir ++ "/" ++ name) .append
    file.putStr (String.join (lines.map logLine))
  append (setup.rotation.fileName Log.auditFile now) (setup.audit events)
  append (setup.rotation.fileName setup.mainFile now) (setup.main events)

/-- Wait until standard input ends. -/
partial def waitForEnd (input : IO.FS.Stream) : IO Unit := do
  let line ← input.getLine
  if line.isEmpty then return () else waitForEnd input

/-- The text of a file, if it can be read. -/
def readFile? (path : String) : IO (Option String) := do
  try
    return some (← IO.FS.readFile path)
  catch _ => return none

end CentLedger

/-- Run the ledger service. -/
def main (args : List String) : IO UInt32 := do
  let path := CentLedger.Settings.path (CentLedger.CommandLine.environment args)
  let text ← CentLedger.readFile? path
  let run := CentLedger.CommandLine.run args fun p => if p = path then text else none
  match run.logs with
  | some (dir, setup) => CentLedger.writeLogs dir setup (.ofUnixMillis 0) run.logged
  | none => pure ()
  if run.error ≠ "" then IO.eprintln run.error
  if run.waited then CentLedger.waitForEnd (← IO.getStdin)
  return UInt32.ofNat run.exitCode
