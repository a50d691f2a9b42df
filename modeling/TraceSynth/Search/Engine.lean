import TraceSynth.Search.Config
import TraceSynth.Log.Entry
import TraceSynth.Mutation.Strategy
import TraceSynth.Generate.Selection
import TraceSynth.Inference.Skeleton
import TraceSynth.Seed.Replay
import TraceSynth.Program.Combine

/-!
# The search

A search looks for a program whose traces match the target's on the starting inputs and the
inputs generated from them. It records the target, generates inputs (sampling at most about
twenty of them when there are many, bucketed by trace length and by how the straight-line seed
fares), infers a loop that runs a varying number of times, and groups the inputs by trace
skeleton. Each group, when there are several, is searched from the program replaying its first
trace and the programs are combined; then all inputs are searched together, and a cleanup
shortens the program on a sample of the inputs, keeping the result only if it loses no
accuracy.

Searching is simulated annealing over random changes: a strictly better candidate is always
taken, another with probability `min 1 (exp (-beta * new / old))`. It stops at a perfect score,
or on a program with no statement a strategy can change.

Every random stream of a search is seeded with the next number after the previous one, in a
fixed order, so a search is determined by its settings, function and inputs.
-/

namespace TraceSynth

/-- Inputs with their reference traces. -/
structure SearchProblem where
  inputs : List Input
  traces : List Trace
  deriving Inhabited

/-- What a running search keeps besides its programs. -/
structure EngineState where
  /-- The last seed handed out. -/
  seed : Int
  /-- The counters. -/
  stats : SearchStats := {}
  /-- The phases entered, in order. -/
  entered : Array Phase := #[]
  /-- The strict improvements, in order. -/
  improvements : Array Improvement := #[]
  /-- The log entries, in order. -/
  log : Array Entry := #[]
  /-- The successful random changes. -/
  mutations : Nat := 0
  deriving Inhabited

/-- Running a search: failures abort it, and the state reached so far survives them. -/
abbrev EngineM := ExceptT Failure (StateM EngineState)

namespace Engine

/-- The run identifier logged with the engine's own entries. -/
def runId : String := "00000000-0000-4000-8000-000000000000"

/-- A log entry. -/
def emit (level : Level) (msg : String) (fields : List (String × FieldValue)) : EngineM Unit :=
  modify fun s =>
    { s with log := s.log.push (({ level, message := msg } : Entry).withFields fields) }

/-- A log entry of the engine itself, carrying the run identifier. -/
def note (level : Level) (msg : String) (fields : List (String × FieldValue)) : EngineM Unit :=
  emit level msg (fields ++ [("run", .str (Bytes.ofString runId))])

/-- Enter a phase. -/
def enter (p : Phase) : EngineM Unit := do
  modify fun s => { s with entered := s.entered.push p }
  emit .info "Entering search phase" [("phase", .label p.name)]

/-- A fresh random stream. -/
def newRand : EngineM Rng := do
  let s ← get
  set { s with seed := s.seed + 1 }
  pure (Rng.seeded (s.seed + 1))

/-- Fail. -/
def fail (f : Failure) : EngineM α := throw f

/-- Lift a fallible step, putting context in front of its failure. -/
def lift (pre : String) (x : Except Failure α) : EngineM α :=
  match x with
  | .ok a => pure a
  | .error e => fail (e.wrap pre)

/-- Score a program on a problem, counting the recordings. -/
def evaluate (p : Program) (prob : SearchProblem) (finalizing : Bool) : EngineM Float := do
  let s ← lift "" (Metric.evaluate p prob.inputs prob.traces finalizing)
  modify fun st =>
    { st with stats := { st.stats with executions := st.stats.executions + prob.inputs.length } }
  pure s

/-- A sample of at most `n` inputs, in their order. -/
def sampleProblem (prob : SearchProblem) (n : Nat) : RandM SearchProblem := do
  if prob.inputs.length ≤ n then return prob
  let perm ← Random.perm prob.inputs.length
  let idx := sortStable (· ≤ ·) (perm.take n)
  pure { inputs := idx.map fun j => prob.inputs.getD j default,
         traces := idx.map fun j => prob.traces.getD j default }

/-- The state of an annealing run. -/
structure Walk where
  current : Program
  score : Float
  best : Program
  bestScore : Float
  round : Nat := 0
  executions : Nat
  rng : Rng

/-- The rounds of annealing. -/
def annealRounds (cfg : SearchConfig) (phase : Phase) (prob : SearchProblem) (finalizing : Bool)
    (ctx : MutationContext) : Nat → Walk → EngineM Walk
  | 0, w => pure w
  | left + 1, w => do
    if w.score == 0 || w.current.numStmts == 0 || !w.current.mutable then return w
    let (res, rng) := (w.current.randomChange ctx).run w.rng
    let cand ← match res with
      | .ok c => pure c
      | .error e => fail { kind := .invariant, message := e.message }
    modify fun s => { s with mutations := s.mutations + 1 }
    let sc ← evaluate cand prob finalizing
    modify fun s => { s with stats := { s.stats with iterations := s.stats.iterations + 1 } }
    let w := { w with rng, executions := w.executions + prob.inputs.length }
    let (accept, rng) ←
      if sc < w.score then do
        modify fun s => { s with
          stats := { s.stats with improvements := s.stats.improvements + 1 },
          improvements :=
            s.improvements.push { phase, iteration := w.round, before := w.score, after := sc } }
        emit .debug "Score improved" [("phase", .label phase.name), ("iteration", .int w.round),
          ("from", .float w.score), ("to", .float sc)]
        pure (true, w.rng)
      else
        let (f, rng) := Random.float.run w.rng
        let t := Float.exp (-cfg.beta * sc / w.score)
        let bound := if t < 1 then t else 1
        pure (!(f ≥ bound), rng)
    let w := { w with rng }
    if !accept then annealRounds cfg phase prob finalizing ctx left { w with round := w.round + 1 }
    else
      modify fun s => { s with stats := { s.stats with accepted := s.stats.accepted + 1 } }
      let w := { w with current := cand, score := sc }
      let w := if sc < w.bestScore then { w with best := cand, bestScore := sc } else w
      annealRounds cfg phase prob finalizing ctx left { w with round := w.round + 1 }

/-- Anneal a program for up to `iterations` rounds; the best program seen and the phase's
summary. -/
def anneal (cfg : SearchConfig) (phase : Phase) (p : Program) (prob : SearchProblem)
    (iterations : Nat) (finalizing : Bool) (ctx : MutationContext) (rng : Rng) :
    EngineM (Program × PhaseStats × Rng) := do
  let score ← evaluate p prob finalizing
  let w ← annealRounds cfg phase prob finalizing ctx iterations
    { current := p, score, best := p, bestScore := score, executions := prob.inputs.length, rng }
  let stats : PhaseStats :=
    { phase := phase.name, inputs := prob.inputs.length, iterations := w.round,
      executions := w.executions,
      score := w.bestScore }
  emit .info "Search phase complete" [("phase", .label phase.name), ("inputs", .int stats.inputs),
    ("iterations", .int stats.iterations), ("score", .float stats.score),
    ("elapsed", .duration ⟨0⟩)]
  pure (w.best, stats, w.rng)

/-- The tries of shortening: delete a random statement, keeping deletions that do not hurt. -/
def shortenTries (prob : SearchProblem) : Nat → Program × Float × Nat × Rng →
    EngineM (Program × Float × Nat × Rng)
  | 0, st => pure st
  | left + 1, (p, score, evals, rng) => do
    let n := p.numStmts
    if n ≤ 1 then return (p, score, evals, rng)
    let (k, rng) := (Random.intn n).run rng
    let cand ← match p.replace k .delete with
      | .ok c => pure c
      | .error e => fail { kind := .invariant, message := e.message }
    let s ← evaluate cand prob false
    if s ≤ score then shortenTries prob left (cand, s, evals + 1, rng)
    else shortenTries prob left (p, score, evals + 1, rng)

/-- Shorten a program; it and the evaluations spent. -/
def shorten (cfg : SearchConfig) (p : Program) (prob : SearchProblem) (rng : Rng) :
    EngineM (Program × Nat × Rng) := do
  let score ← evaluate p prob false
  let (p, _, evals, rng) ← shortenTries prob cfg.shortenTries.toNat (p, score, 1, rng)
  pure (p, evals, rng)

/-- Shorten, anneal under the size-penalizing metric, and shorten again, on a sample. -/
def cleanup (cfg : SearchConfig) (p : Program) (whole : SearchProblem) (ctx : MutationContext)
    (rng : Rng) : EngineM (Program × PhaseStats) := do
  let (sample, rng) := (sampleProblem whole cfg.cleanupInputs.toNat).run rng
  let (p, n, rng) ← shorten cfg p sample rng
  let (p, stats, rng) ← anneal cfg .cleanup p sample cfg.cleanupIterations.toNat true ctx rng
  let (p, m, _) ← shorten cfg p sample rng
  pure (p, { stats with executions := stats.executions + (n + m) * sample.inputs.length })

/-- Subsample a large pool: the starting inputs, and up to two inputs from each of up to ten
buckets of equal trace length and seed score, in pool order. Each input is scored alone by the
program replaying the first trace. -/
def selectInputs (prob : SearchProblem) (keep : Nat) (seed : Program) (rng : Rng) :
    EngineM SearchProblem := do
  let score := fun i => evaluate seed
    { inputs := [prob.inputs.getD i default], traces := [prob.traces.getD i default] } false
  let (inputs, traces) ← tryCatch (Generate.selectInputs prob.inputs prob.traces keep score rng)
    fun e => fail (e.wrap "failed to select inputs: ")
  pure { inputs, traces }

/-- The best proposal whose loop runs a varying number of times over the traces. -/
def selectLoop (proposals : List Proposal) (traces : List Trace) : Option Proposal :=
  proposals.find? fun p => p.shapes traces ≥ 3

/-- The mutation context of a search. -/
def context (constants : List Value) (nargs : Nat) (useAlloc : Bool) : MutationContext :=
  { constants, nargs, useAlloc }

/-- The category searches, in order; each gets a fresh random stream. -/
def categorySearches (cfg : SearchConfig) (iterations : Nat) (constants : List Value)
    (nargs : Nat) : List (Nat × Category × Program × Bool) → EngineM (List (Program × PhaseStats))
  | [] => pure []
  | (i, c, seed, alloc) :: rest => do
    let rng ← newRand
    let (p, ps, _) ← tryCatch
      (anneal cfg .categorySearch seed { inputs := c.inputs, traces := c.traces } iterations false
        (context constants nargs alloc) rng)
      (fun e => fail (e.wrap ("category " ++ toString i ++ " (" ++ c.key ++ "): ")))
    let more ← categorySearches cfg iterations constants nargs rest
    pure ((p, ps) :: more)

/-- The seeds of the categories, the loop going to the first category it explains. -/
def categorySeeds (loop : Option Proposal) : Nat → Bool → List Category →
    Except Failure (List (Nat × Category × Program × Bool))
  | _, _, [] => pure []
  | i, used, c :: rest => do
    let (l, used) := match loop with
      | some p => if !used && c.key == "loop:" ++ p.pattern then (some p, true) else (none, used)
      | none => (none, used)
    let t := c.traces.headD default
    let seed ← (t.compile l).mapError
      (Failure.wrap ("failed to compile seed for category " ++ toString i ++ ": "))
    let more ← categorySeeds loop (i + 1) used rest
    pure ((i, c, seed, t.usesAlloc) :: more)

/-- Record the target on the starting inputs and on the inputs generated from them, and choose
the inputs a search scores: all of them, or a selection when there are many. -/
def prepare (cfg : SearchConfig) (f : Function) (initial : List Input) :
    EngineM SearchProblem := do
  let budget := cfg.goldBudget.toNat
  let parallelism := cfg.parallelism.toNat
  enter .recordReference
  let reference ← lift "failed to record reference behavior: "
    (recordAll f initial budget parallelism)
  for (t, i) in reference.zipIdx do
    if t.isExhausted then
      fail (.other ("target exhausted the budget of " ++ toString cfg.goldBudget ++
        " events on input " ++ toString i ++ " (" ++ (initial.getD i {}).render.toStringLossy ++
        ")"))
  note .debug "Recorded reference trace" [("events", .int (reference.headD default).events.length)]
  enter .generateInputs
  let generated ← lift "failed to generate inputs: " (Generate.inputs f initial
    { budget, rounds := cfg.inputRounds.toNat, maxInputs := cfg.maxInputs.toNat, parallelism })
  let all := initial ++ generated
  let traces ← lift "failed to record generated inputs: " (recordAll f all budget parallelism)
  if all.length ≥ Generate.selectThreshold then do
    let seed ← lift "failed to compile selection seed: " ((traces.headD default).compile none)
    let rng ← newRand
    selectInputs { inputs := all, traces } initial.length seed rng
  else pure { inputs := all, traces }

/-- Search each category from its seed, combine the programs found and search all inputs from
the combination; or, with one category, search all inputs from the seed of the first trace.
The program, whether it allocates, and the phases' summaries. -/
def searchPrograms (cfg : SearchConfig) (whole : SearchProblem) (loop : Option Proposal)
    (categories : List Category) (constants : List Value) (nargs : Nat) :
    EngineM (Program × Bool × List PhaseStats) :=
  if categories.length > 1 then do
    let iterations := ceilCount (0.8 * Float.ofInt cfg.iterations / categories.length.toFloat)
    let seeds ← lift "" (categorySeeds loop 0 false categories)
    let useAlloc := seeds.any (·.2.2.2)
    enter .categorySearch
    let found ← categorySearches cfg iterations constants nargs seeds
    enter .combine
    let program := Program.combineAll (found.map (·.1))
    enter .wholeInputSearch
    let rng ← newRand
    let (p, ps, _) ← anneal cfg .wholeInputSearch program whole
      (ceilCount (0.2 * Float.ofInt cfg.iterations)) false
      (context constants nargs useAlloc) rng
    pure (p, useAlloc, found.map (·.2) ++ [ps])
  else do
    let t := whole.traces.headD default
    let seed ← lift "failed to compile seed: " (t.compile loop)
    let useAlloc := t.usesAlloc
    enter .wholeInputSearch
    let rng ← newRand
    let (p, ps, _) ← anneal cfg .wholeInputSearch seed whole cfg.iterations.toNat false
      (context constants nargs useAlloc) rng
    pure (p, useAlloc, [ps])

/-- Clean a program up on a sample of the inputs, keeping the cleaned program only if it scores
no worse on all of them; the program and the phases' summaries. -/
def polish (cfg : SearchConfig) (whole : SearchProblem) (ctx : MutationContext) (program : Program)
    (phases : List PhaseStats) : EngineM (Program × List PhaseStats) :=
  if cfg.cleanupIterations > 0 then do
    enter .cleanup
    let rng ← newRand
    let (cleaned, ps) ← cleanup cfg program whole ctx rng
    let before ← evaluate program whole false
    let after ← evaluate cleaned whole false
    if after ≤ before then pure (cleaned, phases ++ [ps])
    else
      note .debug "Discarding cleanup that lost accuracy" [("before", .float before),
        ("after", .float after)]
      pure (program, phases ++ [ps])
  else pure (program, phases)

/-- The whole search. -/
def run (cfg : SearchConfig) (f : Function) (initial : List Input) : EngineM SearchResult := do
  if initial.isEmpty then fail (.other "search needs at least one input")
  let whole ← prepare cfg f initial
  enter .inferStructure
  let proposals := Skeleton.infer {} whole.traces
  let loop := selectLoop proposals whole.traces
  if let some p := loop then
    note .debug "Selected loop proposal" [("pattern", .str (Bytes.ofString p.pattern)),
      ("matches", .int p.worksFor.length)]
  enter .categorize
  let categories := Generate.categorize whole.inputs whole.traces loop
  let constants := Generate.constants whole.traces
  let nargs := whole.inputs.foldl (fun m i => max m i.args.length) 0
  note .info "Prepared search inputs" [("inputs", .int whole.inputs.length),
    ("categories", .int categories.length), ("proposals", .int proposals.length)]
  let (program, useAlloc, phases) ← searchPrograms cfg whole loop categories constants nargs
  let (program, phases) ← polish cfg whole (context constants nargs useAlloc) program phases
  let score ← evaluate program whole false
  enter .done
  let iterations : Nat := (phases.map (·.iterations)).foldr (· + ·) 0
  let executions : Nat := (phases.map (·.executions)).foldr (· + ·) 0
  note .info "Search finished" [("score", .float score), ("iterations", .int iterations),
    ("executions", .int executions), ("elapsed", .duration ⟨0⟩)]
  pure
    { runId, program := some program, score, iterations, executions,
      inputs := whole.inputs.length,
      categories := categories.length, proposals := proposals.length, phases }

end Engine

/-- Why a search cannot start with these settings, if it cannot. -/
def SearchConfig.refusal? (cfg : SearchConfig) : Option Failure :=
  match cfg.problem? with
  | some msg => some (.other ("invalid search config: " ++ msg))
  | none =>
    if cfg.inference != "" && cfg.inference != "skeleton" then
      some (.other ("unknown inference engine " ++ Quoted.quote (Bytes.ofString cfg.inference)))
    else none

/-- Run a search with checked settings: its result or failure, and the state it ended in,
whose log holds the entries written up to a failure. -/
def SearchConfig.searchLogged (cfg : SearchConfig) (f : Function) (initial : List Input) :
    Except Failure SearchResult × EngineState :=
  (Engine.run cfg f initial).run.run { seed := cfg.seed }

/-- Check the settings and run a search; the result and the state it ended in. -/
def SearchConfig.search (cfg : SearchConfig) (f : Function) (initial : List Input) :
    Except Failure (SearchResult × EngineState) :=
  match cfg.refusal? with
  | some e => .error e
  | none =>
    let (r, st) := cfg.searchLogged f initial
    r.map fun r => (r, st)

end TraceSynth
