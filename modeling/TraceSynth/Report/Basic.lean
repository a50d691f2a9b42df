import TraceSynth.Search.Config
import TraceSynth.Program.Print
import TraceSynth.Time.Clock
import TraceSynth.Json.Basic
import TraceSynth.Yaml.Emit
import TraceSynth.Report.Table

/-!
# Search reports

A report summarizes one search for a target: the run, the time it was generated, the score and
whether it is exact, the program, the counters, the rate of candidate recordings, the elapsed
time rounded to milliseconds, the phases, and the settings when they are known.

A report is written as YAML (fields in order, durations as text, times in RFC 3339), as
indented JSON (durations in nanoseconds, no phases as `null`; a score that is not a finite
number cannot be written), or as aligned text tables followed by the program.
-/

namespace TraceSynth

/-- The summary of one search. -/
structure Report where
  runId : String
  target : String
  description : String
  generatedAt : Clock
  score : Float
  exact : Bool
  program : String
  iterations : Nat
  executions : Nat
  execPerSec : Float
  inputs : Nat
  categories : Nat
  proposals : Nat
  elapsed : String
  phases : List PhaseStats
  config : Option SearchConfig
  deriving Inhabited

namespace Duration

/-- The duration in seconds as a binary64 number: whole seconds plus the nanoseconds left. -/
def seconds (d : Duration) : Float :=
  let sec := d.nanos.tdiv 1000000000
  let nsec := d.nanos.tmod 1000000000
  Float.ofInt sec + Float.ofInt nsec / 1e9

end Duration

/-- Candidate recordings per second of a result; zero when no time elapsed. -/
def SearchResult.executionsPerSecond (r : SearchResult) : Float :=
  if r.elapsed.nanos ≤ 0 then 0 else r.executions.toFloat / r.elapsed.seconds

namespace Report

/-- The report of a result. -/
def make (target description : String) (r : SearchResult) (config : Option SearchConfig)
    (generatedAt : Clock) : Report :=
  { runId := r.runId, target, description, generatedAt, score := r.score,
    exact := r.score == 0, program := (r.program.map Program.toText).getD "",
    iterations := r.iterations, executions := r.executions,
    execPerSec := r.executionsPerSecond, inputs := r.inputs, categories := r.categories,
    proposals := r.proposals, elapsed := (r.elapsed.round Duration.millisecond).text,
    phases := r.phases, config }

/-- A number as YAML writes it. -/
def yamlFloat (x : Float) : String :=
  match Binary64.general x with
  | "+Inf" => ".inf"
  | "-Inf" => "-.inf"
  | "NaN" => ".nan"
  | s => s

/-- The YAML tree of a phase. -/
def phaseYaml (p : PhaseStats) : Yaml.Out :=
  .map [("phase", .str p.phase), ("inputs", .plain (toString p.inputs)),
    ("iterations", .plain (toString p.iterations)), ("executions", .plain (toString p.executions)),
    ("score", .plain (yamlFloat p.score)), ("elapsed", .str p.elapsed.text)]

/-- The YAML tree of search settings. -/
def configYaml (c : SearchConfig) : Yaml.Out :=
  .map [("iterations", .plain (toString c.iterations)),
    ("cleanup_iterations", .plain (toString c.cleanupIterations)),
    ("beta", .plain (yamlFloat c.beta)), ("seed", .plain (toString c.seed)),
    ("gold_budget", .plain (toString c.goldBudget)),
    ("parallelism", .plain (toString c.parallelism)),
    ("max_inputs", .plain (toString c.maxInputs)),
    ("input_rounds", .plain (toString c.inputRounds)),
    ("cleanup_inputs", .plain (toString c.cleanupInputs)),
    ("shorten_tries", .plain (toString c.shortenTries)), ("inference", .str c.inference)]

/-- The YAML tree of a report. -/
def yaml (r : Report) : Yaml.Out :=
  .map ([("run_id", .str r.runId), ("target", .str r.target)] ++
    (if r.description.isEmpty then [] else [("description", .str r.description)]) ++
    [("generated_at", .plain r.generatedAt.rfc3339Nano), ("score", .plain (yamlFloat r.score)),
     ("exact", .plain (if r.exact then "true" else "false")), ("program", .str r.program),
     ("iterations", .plain (toString r.iterations)), ("executions", .plain (toString r.executions)),
     ("executions_per_sec", .plain (yamlFloat r.execPerSec)),
     ("inputs", .plain (toString r.inputs)), ("categories", .plain (toString r.categories)),
     ("proposals", .plain (toString r.proposals)), ("elapsed", .str r.elapsed),
     ("phases", .seq (r.phases.map phaseYaml))] ++
    (match r.config with
      | some c => [("config", configYaml c)]
      | none => []))

/-- The YAML text of a report. -/
def yamlText (r : Report) : String := r.yaml.text

/-- A number as JSON, refused when it is not finite. -/
def jsonFloat (x : Float) : Except String Json :=
  if x.isNaN || x.isInf then .error ("json: unsupported value: " ++ Binary64.general x)
  else .ok (.number x)

/-- The JSON document of a phase. -/
def phaseJson (p : PhaseStats) : Except String Json := do
  let score ← jsonFloat p.score
  pure (.object [("phase", .string p.phase), ("inputs", .int p.inputs),
    ("iterations", .int p.iterations), ("executions", .int p.executions), ("score", score),
    ("elapsed", .int p.elapsed.nanos)])

/-- The JSON document of search settings. -/
def configJson (c : SearchConfig) : Except String Json := do
  let beta ← jsonFloat c.beta
  pure (.object [("iterations", .int c.iterations),
    ("cleanup_iterations", .int c.cleanupIterations),
    ("beta", beta), ("seed", .int c.seed), ("gold_budget", .int c.goldBudget),
    ("parallelism", .int c.parallelism), ("max_inputs", .int c.maxInputs),
    ("input_rounds", .int c.inputRounds), ("cleanup_inputs", .int c.cleanupInputs),
    ("shorten_tries", .int c.shortenTries), ("inference", .string c.inference)])

/-- The JSON document of a report. -/
def json (r : Report) : Except String Json := do
  let score ← jsonFloat r.score
  let rate ← jsonFloat r.execPerSec
  let phases ← r.phases.mapM phaseJson
  let config ← match r.config with
    | some c => do let j ← configJson c; pure [("config", j)]
    | none => pure []
  pure (.object ([("run_id", .string r.runId), ("target", .string r.target)] ++
    (if r.description.isEmpty then [] else [("description", .string r.description)]) ++
    [("generated_at", .string r.generatedAt.rfc3339Nano), ("score", score),
     ("exact", .bool r.exact), ("program", .string r.program), ("iterations", .int r.iterations),
     ("executions", .int r.executions), ("executions_per_sec", rate), ("inputs", .int r.inputs),
     ("categories", .int r.categories), ("proposals", .int r.proposals),
     ("elapsed", .string r.elapsed),
     ("phases", if phases.isEmpty then .null else .array phases)] ++ config))

/-- The indented JSON text of a report, with its newline. -/
def jsonText (r : Report) : Except String String :=
  (r.json).map fun j => Json.writeIndented true "  " "" j ++ "\n"

/-- The pieces of the text tables of a report, in the order they are written: the summary, the
phases when there are any, then the program. -/
def tablePieces (r : Report) : List String :=
  let summary := [["target", r.target], ["run", r.runId], ["score", Binary64.fixed r.score 4],
    ["exact", if r.exact then "true" else "false"], ["inputs", toString r.inputs],
    ["categories", toString r.categories], ["iterations", toString r.iterations],
    ["executions", toString r.executions ++ " (" ++ Binary64.fixed r.execPerSec 0 ++ "/sec)"],
    ["elapsed", r.elapsed]]
  let phases := if r.phases.isEmpty then []
    else "\n" ::
      Table.lines (some ["PHASE", "INPUTS", "ITERATIONS", "EXECUTIONS", "SCORE", "ELAPSED"])
      (r.phases.map fun p => [p.phase, toString p.inputs, toString p.iterations,
        toString p.executions, Binary64.fixed p.score 4,
        (p.elapsed.round Duration.millisecond).text])
  Table.lines none summary ++ phases ++ ["\n" ++ r.program ++ "\n"]

end Report

end TraceSynth
