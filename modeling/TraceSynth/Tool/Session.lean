import TraceSynth.Tool.Commands
import TraceSynth.Settings.File
import TraceSynth.Settings.Decode
import TraceSynth.Log.Logger
import TraceSynth.Run.Target

/-!
# A session of the tool

A command does its work in a session: it prints to standard output, logs through a logger once
it has made one, reads and writes the files of the working directory, and reads its settings.
The first failure ends the work, and what was printed, logged and written until then stays.

The settings file named by the `config` setting is read once the command asks for it; the
search settings are the defaults with the file's `search` table decoded over them, and then the
search keys that some layer sets.
-/

namespace TraceSynth

namespace Settings

/-- The search keys that override decoded settings when a layer sets them, with how. -/
def searchOverrides : List (String × (Settings → SearchConfig → SearchConfig)) :=
  [("search.iterations", fun s c => { c with iterations := s.getInt "search.iterations" }),
   ("search.cleanup_iterations", fun s c =>
      { c with cleanupIterations := s.getInt "search.cleanup_iterations" }),
   ("search.beta", fun s c => { c with beta := s.getFloat "search.beta" }),
   ("search.seed", fun s c => { c with seed := s.getInt "search.seed" }),
   ("search.gold_budget", fun s c => { c with goldBudget := s.getInt "search.gold_budget" }),
   ("search.parallelism", fun s c => { c with parallelism := s.getInt "search.parallelism" }),
   ("search.max_inputs", fun s c => { c with maxInputs := s.getInt "search.max_inputs" }),
   ("search.input_rounds", fun s c => { c with inputRounds := s.getInt "search.input_rounds" })]

/-- The search settings of some settings, checked. -/
def searchConfig (s : Settings) : Except String SearchConfig := do
  let c : SearchConfig := {}
  let c ← match s.view "search" with
    | some sub =>
      (SearchConfig.decode c sub.all).mapError ("failed to decode search config: " ++ ·)
    | none => pure c
  let c := searchOverrides.foldl (fun c (key, apply) => if s.isSet key then apply s c else c) c
  match c.problem? with
  | some p => throw ("invalid configuration: " ++ p)
  | none => pure c

end Settings

namespace Tool

/-- The state of a session. -/
structure Session where
  /-- What was written to standard output. -/
  out : Bytes := Bytes.empty
  /-- The files, while no logger holds them. -/
  files : FileTree
  /-- The logger, once made; it holds the files from then on. -/
  logger : Option Logger := none
  settings : Settings
  /-- The time the session runs at. -/
  now : Clock
  deriving Inhabited

/-- The work of a command: its failure is a message, as the bytes it is written with. -/
abbrev ToolM := ExceptT Bytes (StateM Session)

namespace Session

/-- The files of the working directory. -/
def tree (s : Session) : FileTree :=
  match s.logger with
  | some l => l.files
  | none => s.files

/-- Replace the files of the working directory. -/
def withTree (s : Session) (t : FileTree) : Session :=
  match s.logger with
  | some l => { s with logger := some { l with files := t } }
  | none => { s with files := t }

/-- What was written to standard error: the logger's console. -/
def errText (s : Session) : Bytes := (s.logger.map (·.console)).getD Bytes.empty

end Session

/-- Print a line. -/
def say (line : String) : ToolM Unit :=
  modify fun s => { s with out := s.out ++ Bytes.ofString (line ++ "\n") }

/-- Print bytes as they are. -/
def emitBytes (b : Bytes) : ToolM Unit := modify fun s => { s with out := s.out ++ b }

/-- Log an entry at the session's time, when there is a logger. -/
def logEntry (e : Entry) : ToolM Unit :=
  modify fun s => match s.logger with
    | some l => { s with logger := some (l.log { e with time := s.now }) }
    | none => s

/-- Log an informational message with fields. -/
def info (msg : String) (fields : List (String × FieldValue)) : ToolM Unit :=
  logEntry { level := .info, message := msg, fields }

/-- The settings. -/
def settingsNow : ToolM Settings := do pure (← get).settings

/-- Stop the work with a message. -/
def fail (msg : String) : ToolM α := throw (Bytes.ofString msg)

/-- Fail with a message unless a step succeeded. -/
def orFail (pre : String) (x : Except String α) : ToolM α :=
  match x with
  | .ok a => pure a
  | .error e => fail (pre ++ e)

/-- Fail with a message given as bytes unless a step succeeded. -/
def orFailBytes (pre : String) (x : Except Bytes α) : ToolM α :=
  match x with
  | .ok a => pure a
  | .error e => throw (Bytes.ofString pre ++ e)

/-- Read the settings file the `config` setting names, if it names one. -/
def loadConfig : ToolM Unit := do
  let s ← get
  let path := s.settings.getText "config"
  if path.isEmpty then return
  let v ← orFailBytes "failed to load configuration: failed to read config file: "
    (SettingValue.readFile s.settings.env s.tree path)
  set { s with settings := { s.settings with file := v } }

/-- Make the logger the logging settings describe. -/
def setupLogging : ToolM Unit := do
  let s ← get
  let st := s.settings
  let cfg : LoggerConfig :=
    { level := st.getText "log_level", format := st.getText "log_format",
      outputDir := st.getText "log_dir" }
  let l ← orFail "failed to setup logging: " (Logger.create cfg s.files s.now s.now)
  set { s with logger := some l }

/-- Close the logger, whose failure is ignored. -/
def closeLogger (s : Session) : Session :=
  match s.logger with
  | some l => { s with logger := some l.close.1 }
  | none => s

/-- The search settings of the session. -/
def searchConfig : ToolM SearchConfig := do
  orFail "" (← settingsNow).searchConfig

/-- The built-in target of a name. -/
def lookupTarget (name : String) : ToolM Target :=
  match Target.ofName? name with
  | some t => pure t
  | none => fail ("unknown target " ++ Quoted.quote (Bytes.ofString name))

/-- The starting inputs of a target. -/
def targetInputs (t : Target) : ToolM (List Input) :=
  match t.inputs with
  | .ok ins => pure ins
  | .error e => fail ("target " ++ t.name ++ ": " ++ e.message)

end Tool

end TraceSynth
