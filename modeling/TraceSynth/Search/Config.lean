import TraceSynth.Program.Stmt
import TraceSynth.Decimal.Format
import TraceSynth.Time.Duration

/-!
# Search settings and results

The settings of a search, its phases, its counters and its result. A search runs through the
phases in order: recording the reference behaviour, generating inputs, inferring loop
structure, grouping the inputs into categories, searching each category (when there are
several) and combining their programs, searching over all inputs, and cleaning up.
-/

namespace TraceSynth

/-- The settings of a search. -/
structure SearchConfig where
  /-- The main annealing iterations. -/
  iterations : Int := 5000
  /-- The iterations under the size-penalizing metric; 0 disables cleanup. -/
  cleanupIterations : Int := 700
  /-- The steepness of the acceptance probability. -/
  beta : Float := 6
  /-- The random seed; each random stream of the search uses the next number. -/
  seed : Int := 0
  /-- The event budget when recording the target. -/
  goldBudget : Int := 1000
  /-- Concurrent recordings, 0 for unbounded; of several failing recordings it decides which
  one a batch reports. -/
  parallelism : Int := 0
  /-- The cap on generated inputs. -/
  maxInputs : Int := 200
  /-- The rounds of place discovery when generating inputs. -/
  inputRounds : Int := 2
  /-- The inputs sampled for cleanup. -/
  cleanupInputs : Int := 20
  /-- The random deletions tried per shortening pass. -/
  shortenTries : Int := 300
  /-- The name of the structure inference engine. -/
  inference : String := "skeleton"
  deriving Inhabited

/-- The ceiling of `x` as a 64-bit count, `x.ceil.toUInt64.toNat`: 0 for NaN and at or below
zero, the largest count from `2^64` up. It is computed from the truncation `x.toUInt64`, one
more when that lies below `x`, so that it evaluates without the floating-point ceiling. -/
def ceilCount (x : Float) : Nat :=
  let k := x.toUInt64.toNat
  if k.toFloat < x && k < UInt64.size - 1 then k + 1 else k

namespace SearchConfig

/-- The first setting the search cannot run with, as a message. -/
def problem? (c : SearchConfig) : Option String :=
  if c.iterations < 0 then some ("iterations must be non-negative, got " ++ toString c.iterations)
  else if c.cleanupIterations < 0 then
    some ("cleanup iterations must be non-negative, got " ++ toString c.cleanupIterations)
  else if c.beta ≤ 0 then some ("beta must be positive, got " ++ Binary64.general c.beta)
  else if c.goldBudget ≤ 0 then
    some ("gold budget must be positive, got " ++ toString c.goldBudget)
  else if c.parallelism < 0 then
    some ("parallelism must be non-negative, got " ++ toString c.parallelism)
  else if c.cleanupInputs ≤ 0 then
    some ("cleanup inputs must be positive, got " ++ toString c.cleanupInputs)
  else none

/-- A setting's value as a configuration source gives it. -/
inductive Setting where
  | int (n : Int)
  | float (x : Float)
  | text (s : String)
  deriving Inhabited

/-- A setting as an integer; a number with a fraction is cut toward zero. -/
def Setting.toInt? : Setting → Option Int
  | .int n => some n
  | .float x =>
    if x.isNaN || x.isInf then none
    else some (if x < 0 then -((-x).floor.toUInt64.toNat : Int) else (x.floor.toUInt64.toNat : Int))
  | .text _ => none

/-- A setting as a number. -/
def Setting.toFloat? : Setting → Option Float
  | .int n => some (Float.ofInt n)
  | .float x => some x
  | .text _ => none

/-- Change the setting of a name (the settings' snake-case names); other names and values of
the wrong kind leave the settings alone. -/
def set (c : SearchConfig) (key : String) (v : Setting) : SearchConfig :=
  let int (f : Int → SearchConfig) : SearchConfig := (v.toInt?.map f).getD c
  match key with
  | "iterations" => int fun n => { c with iterations := n }
  | "cleanup_iterations" => int fun n => { c with cleanupIterations := n }
  | "beta" => (v.toFloat?.map fun x => { c with beta := x }).getD c
  | "seed" => int fun n => { c with seed := n }
  | "gold_budget" => int fun n => { c with goldBudget := n }
  | "parallelism" => int fun n => { c with parallelism := n }
  | "max_inputs" => int fun n => { c with maxInputs := n }
  | "input_rounds" => int fun n => { c with inputRounds := n }
  | "cleanup_inputs" => int fun n => { c with cleanupInputs := n }
  | "shorten_tries" => int fun n => { c with shortenTries := n }
  | "inference" => match v with
    | .text s => { c with inference := s }
    | _ => c
  | _ => c

end SearchConfig

/-- A phase of the search. -/
inductive Phase where
  | idle
  | recordReference
  | generateInputs
  | inferStructure
  | categorize
  | categorySearch
  | combine
  | wholeInputSearch
  | cleanup
  | done
  deriving DecidableEq, Inhabited, Repr

/-- The name of a phase. -/
def Phase.name : Phase → String
  | .idle => "idle"
  | .recordReference => "record-reference"
  | .generateInputs => "generate-inputs"
  | .inferStructure => "infer-structure"
  | .categorize => "categorize"
  | .categorySearch => "category-search"
  | .combine => "combine"
  | .wholeInputSearch => "whole-input-search"
  | .cleanup => "cleanup"
  | .done => "done"

/-- The counters of a running search. -/
structure SearchStats where
  /-- Mutations scored. -/
  iterations : Nat := 0
  /-- Candidate recordings. -/
  executions : Nat := 0
  /-- Mutations accepted. -/
  accepted : Nat := 0
  /-- Strict improvements. -/
  improvements : Nat := 0
  deriving Inhabited

/-- The summary of one annealing phase. -/
structure PhaseStats where
  /-- The name of the phase. -/
  phase : String
  inputs : Nat
  iterations : Nat := 0
  executions : Nat := 0
  score : Float := 0
  /-- The wall time of the phase. -/
  elapsed : Duration := ⟨0⟩
  deriving Inhabited

/-- A strict score decrease inside a phase. -/
structure Improvement where
  phase : Phase
  iteration : Nat
  before : Float
  after : Float
  deriving Inhabited

/-- The outcome of a search. -/
structure SearchResult where
  /-- The identifier of the run. -/
  runId : String := ""
  /-- The best program found, if any. -/
  program : Option Program
  /-- Its score on all inputs, 0 meaning an exact match. -/
  score : Float
  /-- Mutations scored over all phases. -/
  iterations : Nat
  /-- Candidate recordings over all phases. -/
  executions : Nat
  /-- The inputs the final score covers. -/
  inputs : Nat
  /-- The input categories found. -/
  categories : Nat
  /-- The structure proposals considered. -/
  proposals : Nat
  /-- The phases, in order. -/
  phases : List PhaseStats
  /-- The wall time of the search. -/
  elapsed : Duration := ⟨0⟩
  deriving Inhabited

end TraceSynth
