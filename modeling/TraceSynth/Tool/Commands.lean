import TraceSynth.Cli.Usage
import TraceSynth.Settings.Layers

/-!
# The commands of the tool

The tool `mimic` has four commands of its own: `targets` lists the built-in targets, `record`
prints the traces of a target, `infer` prints the loop structures found in a target's traces,
and `search` looks for a program that behaves like a target. Beside them stand `help`, which
prints the help of the command its words name, and `completion`, whose subcommands name the
shells it writes completion scripts for.

Every command inherits the logging and settings-file flags of the root. Most flags are bound
to a settings key, so the environment and a settings file can give their values too.
-/

namespace TraceSynth

namespace Tool

open Cli

/-- The version the tool reports. -/
def version : String := "1.0.0"

/-- A text flag without a short name. -/
def textFlag (name default usage : String) : Flag := { name, kind := .text, default, usage }

/-- An integer flag without a short name. -/
def intFlag (name : String) (default : Int) (usage : String) : Flag :=
  { name, kind := .int, default := toString default, usage }

/-- The settings-file and logging flags, which every command inherits. -/
def globalFlags : List Flag :=
  [textFlag "config" "" "Configuration file path",
   textFlag "log-level" "info" "Logging level (debug, info, warn, error)",
   textFlag "log-format" "custom" "Log format (text, json, custom)",
   textFlag "log-dir" "" "Log output directory, empty for console only"]

/-- The flags of `record`. -/
def recordFlags : List Flag :=
  [{ name := "input", kind := .texts, default := "[]",
     usage := "Input literal, a YAML sequence of arguments (repeatable)" },
   intFlag "budget" 1000 "Event budget per recording"]

/-- The flags of `search`. -/
def searchFlags : List Flag :=
  [intFlag "iterations" 5000 "Main annealing iterations",
   intFlag "cleanup-iterations" 700 "Cleanup iterations, 0 disables cleanup",
   { name := "beta", kind := .float, default := "6",
     usage := "Steepness of the acceptance probability" },
   { name := "seed", kind := .int64, default := "0",
     usage := "Random seed, 0 picks one from the clock" },
   intFlag "gold-budget" 1000 "Event budget when recording the target",
   intFlag "parallelism" 0 "Concurrent recordings and category searches, 0 for unbounded",
   intFlag "max-inputs" 200 "Cap on generated inputs",
   intFlag "input-rounds" 2 "Prestate discovery rounds",
   textFlag "report-dir" "" "Directory to save YAML and JSON reports in",
   textFlag "report-pattern" "%Y-%m-%d_%H-%M-%S" "strftime pattern for report file names",
   Flag.switch "dashboard" none "Also write an HTML dashboard into the report directory",
   { name := "progress-interval", kind := .duration, default := "5s",
     usage := "Interval between progress log lines, 0 disables them" }]

/-- How to load the completions of a shell, which the help of its subcommand of `completion`
explains. -/
def shellHelp : String → String
  | "bash" =>
    "Generate the autocompletion script for the bash shell.\n\n" ++
    "This script depends on the 'bash-completion' package.\n" ++
    "If it is not installed already, you can install it via your OS's package manager.\n\n" ++
    "To load completions in your current shell session:\n\n" ++
    "\tsource <(mimic completion bash)\n\n" ++
    "To load completions for every new session, execute once:\n\n" ++
    "#### Linux:\n\n\tmimic completion bash > /etc/bash_completion.d/mimic\n\n" ++
    "#### macOS:\n\n\tmimic completion bash > $(brew --prefix)/etc/bash_completion.d/mimic\n\n" ++
    "You will need to start a new shell for this setup to take effect.\n"
  | "zsh" =>
    "Generate the autocompletion script for the zsh shell.\n\n" ++
    "If shell completion is not already enabled in your environment you will need\n" ++
    "to enable it.  You can execute the following once:\n\n" ++
    "\techo \"autoload -U compinit; compinit\" >> ~/.zshrc\n\n" ++
    "To load completions in your current shell session:\n\n" ++
    "\tsource <(mimic completion zsh)\n\n" ++
    "To load completions for every new session, execute once:\n\n" ++
    "#### Linux:\n\n\tmimic completion zsh > \"$\x7bfpath[1]\x7d/_mimic\"\n\n" ++
    "#### macOS:\n\n" ++
    "\tmimic completion zsh > $(brew --prefix)/share/zsh/site-functions/_mimic\n\n" ++
    "You will need to start a new shell for this setup to take effect.\n"
  | "fish" =>
    "Generate the autocompletion script for the fish shell.\n\n" ++
    "To load completions in your current shell session:\n\n" ++
    "\tmimic completion fish | source\n\n" ++
    "To load completions for every new session, execute once:\n\n" ++
    "\tmimic completion fish > ~/.config/fish/completions/mimic.fish\n\n" ++
    "You will need to start a new shell for this setup to take effect.\n"
  | _ =>
    "Generate the autocompletion script for powershell.\n\n" ++
    "To load completions in your current shell session:\n\n" ++
    "\tmimic completion powershell | Out-String | Invoke-Expression\n\n" ++
    "To load completions for every new session, add the output of the above command\n" ++
    "to your powershell profile.\n"

/-- A subcommand of `completion`, for one shell; only the bash one leaves `[flags]` out of its
synopsis. -/
def shellCommand (shell : String) : Command :=
  { name := shell, use := shell, short := "Generate the autocompletion script for " ++ shell,
    long := shellHelp shell, arity := .none, flagsInUse := shell != "bash",
    flags := [Flag.switch "no-descriptions" none "disable completion descriptions"] }

/-- The command tree of the tool, subcommands in the order they were added. -/
def root : Command :=
  { name := "mimic", use := "mimic", short := "Akaylee Mimic - black-box program synthesis",
    long :=
      "Akaylee Mimic observes a black-box function through the heap operations it performs\n" ++
      "and searches for a small program that reproduces the same observable behavior.",
    persistent := globalFlags, runnable := false, version,
    subcommands :=
      [{ name := "targets", use := "targets", short := "List the built-in targets",
         arity := .none },
       { name := "record", use := "record <target>",
         short := "Record and print the traces of a target",
         long :=
           "Run a target on its default inputs, or on the given input literals, and print the\n" ++
           "recorded event trace and outcome of each run.",
         flags := recordFlags, arity := .exactly 1 },
       { name := "infer", use := "infer <target>",
         short := "Print ranked loop structure proposals for a target",
         long :=
           "Generate inputs for a target, record them and print the loop structure proposals\n" ++
           "inferred from the traces, best first.",
         arity := .exactly 1 },
       { name := "search", use := "search <target>",
         short := "Synthesize a program that mimics a target",
         long :=
           "Record the target, generate and categorize inputs, and anneal over programs until " ++
           "one\nreproduces the target's traces. " ++
           "The result is printed and optionally saved as a report.",
         flags := searchFlags, arity := .exactly 1 },
       { name := "help", use := "help [command]", short := "Help about any command",
         long := "Help provides help for any command in the application.\n" ++
           "Simply type mimic help [path to command] for full details." },
       { name := "completion", use := "completion",
         short := "Generate the autocompletion script for the specified shell",
         long := "Generate the autocompletion script for mimic for the specified shell.\n" ++
           "See each sub-command's help for details on how to use the generated script.\n",
         arity := .none, runnable := false,
         subcommands := ["bash", "fish", "powershell", "zsh"].map shellCommand }] }

/-- The settings keys bound to flags, with the flag of each. -/
def boundFlags : List (String × String) :=
  [("config", "config"), ("log_level", "log-level"), ("log_format", "log-format"),
   ("log_dir", "log-dir"), ("record.budget", "budget"), ("search.iterations", "iterations"),
   ("search.cleanup_iterations", "cleanup-iterations"), ("search.beta", "beta"),
   ("search.seed", "seed"), ("search.gold_budget", "gold-budget"),
   ("search.parallelism", "parallelism"), ("search.max_inputs", "max-inputs"),
   ("search.input_rounds", "input-rounds"), ("report.dir", "report-dir"),
   ("report.pattern", "report-pattern"), ("report.dashboard", "dashboard"),
   ("monitor.interval", "progress-interval")]

/-- The prefix of the environment variables the tool reads. -/
def envPrefix : String := "MIMIC"

/-- The settings of a run: the bound flags with the values the command line gave those the
command knows, the environment, and no settings file yet. -/
def settings (l : Lineage) (p : Parsed) (env : List (String × String)) : Settings :=
  let every := globalFlags ++ recordFlags ++ searchFlags
  { envPrefix, env,
    bindings := boundFlags.filterMap fun (key, name) =>
      (every.find? (·.name == name)).map fun flag =>
        { key, flag,
          given := if l.declared.any (·.name == name) then p.values name else none } }

end Tool

end TraceSynth
