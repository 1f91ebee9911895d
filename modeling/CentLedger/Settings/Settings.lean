import CentLedger.Json.Value
import CentLedger.Queue.Pool
import CentLedger.Yaml.Reader

/-!
# Settings

How a ledger service is set up. Every setting has a default, and a file in YAML may give any of them. A value of the
wrong kind, a setting given twice, or a section that is no mapping spoils the whole file; settings of other names are
ignored.
-/

namespace CentLedger

/-- Settings of the pool of workers. -/
structure WorkerSettings where
  workers : Nat := 4
  /-- The number of jobs that may wait; zero stands for ten for each worker. -/
  queueCapacity : Nat := 0
  /-- How long a caller waits for the result of a job. -/
  resultTimeoutMs : Nat := 5000
  deriving DecidableEq, Repr

/-- Settings of batches. -/
structure BatchSettings where
  maxBatchSize : Nat := 1000
  batchTimeoutMs : Nat := 30000
  deriving DecidableEq, Repr

/-- Settings of the scheduler. -/
structure SchedulerSettings where
  enabled : Bool := true
  deriving DecidableEq, Repr

/-- The settings of a ledger service. -/
structure Settings where
  logLevel : String := "info"
  logDir : String := "./logs"
  logFile : String := "ledger.log"
  useJson : Bool := false
  /-- `hourly` or `daily`; with anything else a log goes on for ever. -/
  rotation : String := "daily"
  worker : WorkerSettings := {}
  batch : BatchSettings := {}
  scheduler : SchedulerSettings := {}
  /-- Where the database is; without it, rows are kept in memory. -/
  postgresUrl : Option String := none
  deriving DecidableEq, Repr

/-- The number of jobs that may wait. -/
def WorkerSettings.effectiveCapacity (w : WorkerSettings) : Nat :=
  Pool.slots w.workers w.queueCapacity

namespace Yaml

/-- The digits of a number in some base, without a sign. -/
def numberIn (base : Nat) (digits : List Char) : Option Nat :=
  if digits.isEmpty then none
  else digits.foldl
    (fun n c => do
      let d ← Json.hexValue? c
      if d < base then return (← n) * base + d else none)
    (some 0)

/-- The number that a plain scalar writes: decimal without needless zeros, or `0x`, `0o` or `0b` and digits of that
base; a plus sign may stand before it. -/
def naturalOf (s : List Char) : Option Nat :=
  let s := match s with
    | '+' :: rest => rest
    | s => s
  match s with
  | '0' :: 'x' :: rest => numberIn 16 rest
  | '0' :: 'o' :: rest => numberIn 8 rest
  | '0' :: 'b' :: rest => numberIn 2 rest
  | '0' :: _ :: _ => none
  | s => numberIn 10 s

/-- A text: that of any scalar. -/
def asText? : Yaml → Option String
  | scalar s => some s.text
  | _ => none

/-- A number of 64 bits. -/
def asWord? : Yaml → Option Nat
  | scalar ⟨true, text, _⟩ => (naturalOf text.toList).bind fun n => if n < UInt64.size then some n else none
  | _ => none

/-- A truth value. -/
def asTruth? : Yaml → Option Bool
  | scalar ⟨true, text, _⟩ =>
    if text = "true" ∨ text = "True" ∨ text = "TRUE" then some true
    else if text = "false" ∨ text = "False" ∨ text = "FALSE" then some false
    else none
  | _ => none

/-- The words for nothing. -/
def nullWords : List String :=
  ["~", "null", "Null", "NULL"]

/-- A text, or nothing where nothing or a word for it is written. Under the tag of nothing only a word for it may
stand, and under another tag each word is a text. -/
def asOptionalText? : Yaml → Option (Option String)
  | scalar ⟨true, text, none⟩ => some (if text = "" ∨ text ∈ nullWords then none else some text)
  | scalar ⟨true, text, some tag⟩ =>
    if tag = nullTag then if text ∈ nullWords then some none else none else some (some text)
  | scalar s => some (some s.text)
  | _ => none

/-- The entries of a section by the texts of their keys; a section where nothing is written has none. -/
def asSection? : Yaml → Option (List (String × Yaml))
  | map entries => entries.mapM fun e => (asText? e.1).map fun k => (k, e.2)
  | scalar ⟨true, text, _⟩ => if text = "" then some [] else none
  | _ => none

/-- The setting of a name in a section, read from its entry or taken from the defaults; it may be given once. -/
def setting {α : Type} (entries : List (String × Yaml)) (name : String) (read : Yaml → Option α) (default : α) :
    Option α :=
  match entries.filter fun e => e.1 = name with
  | [] => some default
  | [(_, v)] => read v
  | _ => none

end Yaml

namespace WorkerSettings

/-- The settings of a section. -/
def ofYaml? (y : Yaml) : Option WorkerSettings := do
  let entries ← Yaml.asSection? y
  let d : WorkerSettings := {}
  return {
    workers := ← Yaml.setting entries "workers" Yaml.asWord? d.workers
    queueCapacity := ← Yaml.setting entries "queue_capacity" Yaml.asWord? d.queueCapacity
    resultTimeoutMs := ← Yaml.setting entries "result_timeout_ms" Yaml.asWord? d.resultTimeoutMs }

/-- The settings as a JSON object. -/
def toJson (w : WorkerSettings) : Json :=
  .obj [("workers", .int w.workers), ("queue_capacity", .int w.queueCapacity),
    ("result_timeout_ms", .int w.resultTimeoutMs)]

end WorkerSettings

namespace BatchSettings

/-- The settings of a section. -/
def ofYaml? (y : Yaml) : Option BatchSettings := do
  let entries ← Yaml.asSection? y
  let d : BatchSettings := {}
  return {
    maxBatchSize := ← Yaml.setting entries "max_batch_size" Yaml.asWord? d.maxBatchSize
    batchTimeoutMs := ← Yaml.setting entries "batch_timeout_ms" Yaml.asWord? d.batchTimeoutMs }

/-- The settings as a JSON object. -/
def toJson (b : BatchSettings) : Json :=
  .obj [("max_batch_size", .int b.maxBatchSize), ("batch_timeout_ms", .int b.batchTimeoutMs)]

end BatchSettings

namespace SchedulerSettings

/-- The settings of a section. -/
def ofYaml? (y : Yaml) : Option SchedulerSettings := do
  let entries ← Yaml.asSection? y
  let d : SchedulerSettings := {}
  return { enabled := ← Yaml.setting entries "enabled" Yaml.asTruth? d.enabled }

/-- The settings as a JSON object. -/
def toJson (s : SchedulerSettings) : Json :=
  .obj [("enabled", .bool s.enabled)]

end SchedulerSettings

namespace Settings

/-- The settings of a document. -/
def ofYaml? (y : Yaml) : Option Settings := do
  let entries ← Yaml.asSection? y
  let d : Settings := {}
  return {
    logLevel := ← Yaml.setting entries "log_level" Yaml.asText? d.logLevel
    logDir := ← Yaml.setting entries "log_dir" Yaml.asText? d.logDir
    logFile := ← Yaml.setting entries "log_file" Yaml.asText? d.logFile
    useJson := ← Yaml.setting entries "use_json" Yaml.asTruth? d.useJson
    rotation := ← Yaml.setting entries "rotation" Yaml.asText? d.rotation
    worker := ← Yaml.setting entries "worker" WorkerSettings.ofYaml? d.worker
    batch := ← Yaml.setting entries "batch" BatchSettings.ofYaml? d.batch
    scheduler := ← Yaml.setting entries "scheduler" SchedulerSettings.ofYaml? d.scheduler
    postgresUrl := ← Yaml.setting entries "postgres_url" Yaml.asOptionalText? d.postgresUrl }

/-- The settings that a YAML text gives. -/
def parse (s : String) : Option Settings :=
  (Yaml.parse s).bind ofYaml?

/-- The settings as a JSON object. -/
def toJson (s : Settings) : Json :=
  .obj [("log_level", .str s.logLevel), ("log_dir", .str s.logDir), ("log_file", .str s.logFile),
    ("use_json", .bool s.useJson), ("rotation", .str s.rotation), ("worker", s.worker.toJson),
    ("batch", s.batch.toJson), ("scheduler", s.scheduler.toJson),
    ("postgres_url", match s.postgresUrl with | some url => .str url | none => .null)]

end Settings

/-- Why no settings were found. -/
inductive SettingsError
  /-- There is no such file. -/
  | unreadable (path : String)
  /-- The file does not hold settings. -/
  | malformed (path : String)
  deriving DecidableEq, Repr

/-- The text shown to people. -/
def SettingsError.message : SettingsError → String
  | unreadable path => "Failed to read config file: " ++ path
  | malformed path => "Failed to parse " ++ path

namespace Settings

/-- Where the settings of an environment are. -/
def path (env : String) : String :=
  "config/" ++ env ++ ".yaml"

/-- The settings of an environment, given the texts of the files that exist. -/
def load (env : String) (read : String → Option String) : Except SettingsError Settings :=
  match read (path env) with
  | none => .error (.unreadable (path env))
  | some text =>
    match parse text with
    | none => .error (.malformed (path env))
    | some s => .ok s

end Settings

end CentLedger
