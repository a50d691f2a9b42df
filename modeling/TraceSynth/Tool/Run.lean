import TraceSynth.Tool.Actions

/-!
# Running the tool

A run reads its command line against the command tree: the words name a command, the rest are
its flags and arguments. A command line that names no command is refused with a pointer to the
help; one whose flags or arguments do not suit the command, or whose command fails, is refused
with the command's usage. A refusal exits with status 1 and gives its reason on standard error
twice: once with the usage or the pointer, and once on its own as the last line.

Asking for help, or naming a command that only groups others, prints the command's help; asking
for the version prints it; otherwise the command does its work. `help` prints the help of the
command its words name, or, for words that name none, says so and prints the root's usage.
-/

namespace TraceSynth

namespace Tool

/-- What a run of the tool is given: its command line, its environment, the files of its
working directory and the time it runs at. -/
structure Invocation where
  args : List String
  env : List (String × String) := []
  files : FileTree
  now : Clock
  deriving Inhabited

/-- What a run of the tool leaves: its exit status, what it wrote to standard output and to
standard error, and the files of its working directory. -/
structure Transcript where
  exitCode : Nat
  stdout : Bytes := Bytes.empty
  stderr : Bytes := Bytes.empty
  files : FileTree
  deriving Inhabited

/-- A text in back quotes when it can be written so, else in double quotes. -/
def backquoted (s : String) : String :=
  let plain (c : Char) : Bool := c == '\t' || !(c.toNat < 32 || c.toNat == 127)
  if s.all (fun c => c.toNat != 96 && c.toNat != 0xFEFF && plain c)
  then "`" ++ s ++ "`" else Quoted.quote (Bytes.ofString s)

/-- The work of the command of a lineage on its arguments. -/
def perform (l : Cli.Lineage) (p : Cli.Parsed) : ToolM Unit :=
  match l.command.name, p.args with
  | "targets", _ => listTargets
  | "record", name :: _ => recordTarget name ((p.values "input").getD [])
  | "infer", name :: _ => inferStructure name
  | "search", name :: _ => runSearch name
  | _, _ => pure ()

/-- The text of a refusal: the reason, with what follows it the first time. -/
def refusal (reason : Bytes) (after : String) : Bytes :=
  let line := Bytes.ofString "Error: " ++ reason ++ Bytes.ofString "\n"
  line ++ Bytes.ofString after ++ line

/-- Print the help of the command named by the words of `help`. -/
def helpTopic (inv : Invocation) (words : List String) : Transcript :=
  match Cli.find root words with
  | (l, _, none) => { exitCode := 0, stdout := Bytes.ofString l.help, files := inv.files }
  | _ =>
    { exitCode := 0, files := inv.files,
      stderr := Bytes.ofString
        ("Unknown help topic [" ++ " ".intercalate (words.map backquoted) ++ "]\n" ++
          Cli.Lineage.usage [root] false) }

/-- Run the command of a lineage once its flags and arguments are read. -/
def runCommand (inv : Invocation) (l : Cli.Lineage) (p : Cli.Parsed) : Transcript :=
  let usage := l.usage true ++ "\n"
  let helpText : Transcript :=
    { exitCode := 0, stdout := Bytes.ofString l.help, files := inv.files }
  if p.isOn "help" then helpText
  else if !l.command.version.isEmpty && p.isOn "version" then
    { exitCode := 0, stdout := Bytes.ofString l.versionText, files := inv.files }
  else if !l.command.runnable then helpText
  else match l.checkArgs p.args with
    | some e => { exitCode := 1, stderr := refusal (Bytes.ofString e) usage, files := inv.files }
    | none =>
      if l.command.name == "help" && l.length == 2 then helpTopic inv p.args
      else
        let start : Session :=
          { files := inv.files, settings := settings l p inv.env, now := inv.now }
        let (r, s) := (perform l p).run.run start
        let s := closeLogger s
        match r with
        | .ok () => { exitCode := 0, stdout := s.out, stderr := s.errText, files := s.tree }
        | .error e =>
          { exitCode := 1, stdout := s.out, stderr := s.errText ++ refusal e usage,
            files := s.tree }

/-- Run the tool. -/
def run (inv : Invocation) : Transcript :=
  match Cli.find root inv.args with
  | (l, _, some e) =>
    { exitCode := 1, files := inv.files,
      stderr := refusal (Bytes.ofString e) ("Run '" ++ l.path ++ " --help' for usage.\n") }
  | (l, rest, none) =>
    match l.parse rest with
    | .error e =>
      { exitCode := 1, stderr := refusal (Bytes.ofString e) (l.usage true ++ "\n"),
        files := inv.files }
    | .ok p => runCommand inv l p

/-- The environment variables the tool may read. -/
def envNames : List String :=
  let keys := boundFlags.map (·.1) ++ ["search", "record", "report", "monitor"] ++
    SearchConfig.fields.map ("search." ++ ·.1)
  keys.map ({ envPrefix } : Settings).envName

/-- The settings file a command line names, when its flags and the environment name one. -/
def configPath? (args : List String) (env : List (String × String)) : Option String :=
  match Cli.find root args with
  | (l, rest, none) => match l.parse rest with
    | .ok p =>
      let path := (settings l p env).getText "config"
      if path.isEmpty then none else some path
    | .error _ => none
  | _ => none

end Tool

end TraceSynth
