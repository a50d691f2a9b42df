import TraceSynth.Log.Structured
import TraceSynth.Files.Tree
import TraceSynth.Time.Strftime

/-!
# Loggers

A logger writes the entries at or above its level to the console, and to a log file when it
has an output directory. The file is `mimic_<start time>.log` in that directory, made when
missing, and opened for appending; a debug entry names it. Closing the logger closes the file
and then prunes the directory: when more than `maxFiles` paths match `mimic_*.log`, the
oldest by name (names embed the start time) are removed.

Entries are laid out as JSON, as key-value text, or in the console layout with search tags,
as configured. An entry the JSON layout cannot write is dropped, and a line saying why goes to
the console instead.
-/

namespace TraceSynth

/-- The settings of a logger. -/
structure LoggerConfig where
  /-- `debug`, `info`, `warn` or `error`. -/
  level : String := "info"
  /-- `json`, `text` or `custom`. -/
  format : String := "custom"
  /-- The directory of log files; empty for the console only. -/
  outputDir : String := ""
  /-- The log files kept in the directory. -/
  maxFiles : Int := 10
  /-- Whether console-layout lines begin with a timestamp. -/
  timestamp : Bool := true
  /-- Whether console-layout lines are coloured; unset means not, as the console here is no
  terminal. -/
  colors : Option Bool := none
  deriving Inhabited

namespace LoggerConfig

/-- Why the settings cannot be used, if they cannot. -/
def problem? (c : LoggerConfig) : Option String :=
  if c.outputDir != "" && c.maxFiles ≤ 0 then some "max_files must be positive"
  else if !(["json", "text", "custom"].contains c.format) then
    some ("unsupported log format: " ++ c.format)
  else if !(["debug", "info", "warn", "error"].contains c.level) then
    some ("unsupported log level: " ++ c.level)
  else none

end LoggerConfig

/-- A logger and the places it writes to. -/
structure Logger where
  config : LoggerConfig
  level : Level
  /-- The start time, which names the log file. -/
  start : Clock
  /-- What was written to the console. -/
  console : Bytes := Bytes.empty
  /-- The file tree the log files live in. -/
  files : FileTree
  /-- The open log file. -/
  file : Option String := none
  deriving Inhabited

namespace Logger

/-- The prefix of log file names. -/
def filePrefix : String := "mimic_"

/-- The start time as it appears in the log file name. -/
def stamp (l : Logger) : String := Strftime.formatText l.start "%Y-%m-%d_%H-%M-%S"

/-- The layout of an entry, or the message that replaces it on the console. -/
def render (l : Logger) (e : Entry) : Except String String :=
  match l.config.format with
  | "json" =>
    e.jsonLine.mapError fun m => "Failed to obtain reader, failed to marshal fields to JSON, " ++ m
  | "text" => .ok e.textLine
  | _ =>
    let layout : ConsoleLayout :=
      { timestamp := l.config.timestamp, colors := l.config.colors.getD false, search := true }
    .ok (layout.line e).toStringLossy

/-- Log an entry. -/
def log (l : Logger) (e : Entry) : Logger :=
  if !l.level.enabled e.level then l
  else match l.render e with
    | .error m => { l with console := l.console ++ Bytes.ofString (m ++ "\n") }
    | .ok line =>
      let b := Bytes.ofString line
      { l with console := l.console ++ b,
               files := match l.file with
                 | some p => l.files.append p b
                 | none => l.files }

/-- Make a logger: check the settings and open the log file. -/
def create (c : LoggerConfig) (files : FileTree) (start now : Clock) : Except String Logger := do
  if let some p := c.problem? then throw ("invalid logger config: " ++ p)
  let level := (Level.ofName? c.level).getD .info
  let l : Logger := { config := c, level, start, files }
  if c.outputDir.isEmpty then return l
  let files ← (files.mkdirAll c.outputDir (c.outputDir.length + 1)).mapError fun e =>
    "failed to setup logger: failed to create log directory: " ++ e.message
  let path := Path.join [c.outputDir, filePrefix ++ l.stamp ++ ".log"]
  let files ← (files.openAppend path).mapError fun e =>
    "failed to setup logger: failed to open log file: " ++ e.message
  let note : Entry :=
    { time := now, level := .debug, message := "Logging to file",
      fields := [("log_file", .str (Bytes.ofString path)), ("level", .label c.level),
        ("format", .label c.format)] }
  pure ({ l with files, file := some path }.log note)

/-- Log the start of a search; the target and the input count replace fields of those names. -/
def searchStart (l : Logger) (now : Clock) (target : String) (inputs : Int)
    (fields : List (String × FieldValue)) : Logger :=
  l.log (({ time := now, level := .info, message := "Search started", fields } : Entry).withFields
    [("target", .str (Bytes.ofString target)), ("inputs", .int inputs)])

/-- Log the summary of a search. -/
def searchResult (l : Logger) (now : Clock) (target : String) (score : Float) (executions : Int)
    (rate : Float) (uptime : Duration) : Logger :=
  l.log
    { time := now, level := .info, message := "Search result",
      fields := [("target", .str (Bytes.ofString target)), ("score", .float score),
        ("executions", .int executions), ("executions_per_sec", .float rate),
        ("uptime", .duration uptime)] }

/-- Remove the oldest log files beyond the number kept. -/
def prune (l : Logger) : Except String Logger := do
  if l.config.outputDir.isEmpty then return l
  let found ← l.files.glob (Path.join [l.config.outputDir, filePrefix ++ "*.log"])
  if found.length ≤ l.config.maxFiles.toNat then return l
  let sorted := found.mergeSort fun a b => !(Bytes.ofString b < Bytes.ofString a)
  let files ← (sorted.take (found.length - l.config.maxFiles.toNat)).foldlM (fun t f =>
    (t.remove f).mapError PathError.message) l.files
  pure { l with files }

/-- Close the log file and prune the directory. -/
def close (l : Logger) : Logger × Except String Unit :=
  let l := { l with file := none }
  match l.prune with
  | .ok l => (l, .ok ())
  | .error e => (l, .error ("failed to cleanup log files: " ++ e))

end Logger

end TraceSynth
