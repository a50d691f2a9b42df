import TraceSynth.Tool.Run
import Std.Time.DateTime.Timestamp

/-!
# The command line

The program reads its command line, the environment variables the tool knows, the settings
file the command line names, and the clock; runs the tool; writes the directories and files the
run leaves, prints what it printed, and exits with its status.
-/

open TraceSynth

/-- The environment variables of the tool that are set. -/
def readEnv : IO (List (String × String)) :=
  Tool.envNames.filterMapM fun name => do
    pure ((← IO.getEnv name).map fun v => (name, v))

/-- The working directory with the settings file a command line names, when it can be read. -/
def readFiles (args : List String) (env : List (String × String)) : IO FileTree := do
  let root := (← IO.getEnv "PWD").getD "."
  let start : FileTree := { root }
  match Tool.configPath? args env with
  | none => pure start
  | some path =>
    try
      let content ← IO.FS.readBinFile path
      pure (start.seed [(path, some ⟨content.toList⟩)])
    catch _ => pure start

/-- Make the directories and write the files a run leaves. -/
def writeFiles (before after : FileTree) : IO Unit :=
  after.listing.forM fun (name, content) => do
    match content with
    | none => IO.FS.createDirAll ((name.dropEnd 1).toString)
    | some c =>
      if before.read? name != some c then IO.FS.writeBinFile name c.toByteArray

def main (args : List String) : IO UInt32 := do
  let env ← readEnv
  let files ← readFiles args env
  let now := Clock.ofUnixNanos (← Std.Time.Timestamp.now).toNanosecondsSinceUnixEpoch.val
  let r := Tool.run { args, env, files, now }
  writeFiles files r.files
  let out ← IO.getStdout
  out.write r.stdout.toByteArray
  out.flush
  let err ← IO.getStderr
  err.write r.stderr.toByteArray
  err.flush
  pure r.exitCode.toUInt32
