import TraceSynth.Tool.Session
import TraceSynth.Search.Engine
import TraceSynth.Report.Save
import TraceSynth.Report.Table
import TraceSynth.Inference.Skeleton
import TraceSynth.Generate.Inputs

/-!
# The work of the tool's commands

* `targets` prints a table of the built-in targets with their sources and descriptions.
* `record` records a target on its starting inputs, or on the input literals given, and prints
  each input with its trace, noting a trace that ran out of budget.
* `infer` generates inputs for a target, records them all and prints the loop structures the
  traces suggest, best first, with how many traces each fits.
* `search` runs a search for a program that behaves like the target, logging as it goes,
  prints the summary tables and the program, saves the reports when a report directory is set,
  and ends with the score.
-/

namespace TraceSynth

namespace Tool

/-- Change the logger, when there is one, at the session's time. -/
def withLogger (f : Logger → Clock → Logger) : ToolM Unit :=
  modify fun s => match s.logger with
    | some l => { s with logger := some (f l s.now) }
    | none => s

/-- Print the lines of a table. -/
def printTable (header : Option (List String)) (rows : List (List String)) : ToolM Unit :=
  (Table.lines header rows).forM fun line => emitBytes (Bytes.ofString line)

/-- List the built-in targets. -/
def listTargets : ToolM Unit := do
  say "🎯 Akaylee Mimic - Built-in Targets"
  say "==================================="
  say ""
  printTable (some ["NAME", "SOURCE", "DESCRIPTION"])
    (Target.all.map fun t => [t.name, t.source, t.description])
  say ""
  say "✨ Use 'mimic search <name>' to synthesize a program for a target"

/-- The inputs of input literals, numbered from zero in messages. -/
def literalInputs (literals : List String) : ToolM (List Input) :=
  literals.zipIdx.mapM fun (lit, i) =>
    match Input.parse lit with
    | .ok input => pure input
    | .error e => fail ("input " ++ toString i ++ ": " ++ e.message)

/-- Record a target on its starting inputs, or on the literals given, and print the traces. -/
def recordTarget (name : String) (literals : List String) : ToolM Unit := do
  loadConfig
  let t ← lookupTarget name
  let inputs ← if literals.isEmpty then targetInputs t else literalInputs literals
  let budget := (← settingsNow).getInt "record.budget"
  say ("📼 Recording " ++ t.name ++ " (" ++ t.source ++ ")")
  say ""
  inputs.zipIdx.forM fun (input, i) => do
    match record (.target t) input.clone budget.toNat with
    | .error f =>
      fail ("failed to record input " ++ toString i ++ ": " ++ (Failure.ofFault f).message)
    | .ok trace =>
      emitBytes
        (Bytes.ofString ("Input " ++ toString i ++ ": ") ++ input.render ++ Bytes.ofString "\n")
      emitBytes (trace.text ++ Bytes.ofString "\n")
      if trace.isExhausted then say ("⚠️  Budget of " ++ toString budget ++ " events exhausted")
      say ""

/-- Fail with a message and a prefix unless a step succeeded. -/
def orFailWith (pre : String) (x : Except Failure α) : ToolM α :=
  orFail pre (x.mapError (·.message))

/-- The row of a proposal in the structure table. -/
def proposalRow (traces : Nat) (p : Proposal) (i : Nat) : List String :=
  [toString (i + 1), p.pattern, toString p.worksFor.length ++ "/" ++ toString traces,
   toString p.numStmts, if p.hasConditional then "true" else "false"]

/-- Print the loop structures found in the traces of a target's generated inputs. -/
def inferStructure (name : String) : ToolM Unit := do
  say "🧬 Akaylee Mimic - Structure Inference"
  say "======================================"
  say ""
  loadConfig
  setupLogging
  let cfg ← searchConfig
  let t ← lookupTarget name
  let initial ← targetInputs t
  let budget := cfg.goldBudget.toNat
  let parallelism := cfg.parallelism.toNat
  let generated ← orFailWith "failed to generate inputs: " (Generate.inputs (.target t) initial
    { budget, rounds := cfg.inputRounds.toNat, maxInputs := cfg.maxInputs.toNat, parallelism })
  let all := initial ++ generated
  let traces ← orFailWith "failed to record inputs: " (recordAll (.target t) all budget parallelism)
  if cfg.inference != "" && cfg.inference != "skeleton" then
    fail ("unknown inference engine " ++ Quoted.quote (Bytes.ofString cfg.inference))
  let proposals := Skeleton.infer {} traces
  info "Structure inference complete" [("target", .str (Bytes.ofString t.name)),
    ("inputs", .int all.length), ("proposals", .int proposals.length)]
  let rows := proposals.zipIdx.map fun (p, i) => proposalRow traces.length p i
  if proposals.isEmpty then say "📭 No loop structure found."
  else printTable (some ["#", "PATTERN", "MATCHES", "STATEMENTS", "CONDITIONAL"]) rows

/-- Save the reports of a search into the report directory, when one is set, and print where. -/
def saveReports (report : Report) : ToolM Unit := do
  let s ← settingsNow
  let dir := s.getText "report.dir"
  if dir.isEmpty then return
  let pattern := s.getText "report.pattern"
  let (tree, paths, failure) := report.save (← get).tree dir pattern
  modify (·.withTree tree)
  if let some e := failure then fail ("failed to save report: " ++ e)
  let paths ← if s.getBool "report.dashboard" then do
      let (tree, page) := report.saveDashboard (← get).tree dir pattern
      modify (·.withTree tree)
      let path ← orFail "failed to generate dashboard: " page
      info "Dashboard generated" [("path", .str (Bytes.ofString path))]
      pure (paths ++ [path])
    else pure paths
  paths.forM fun p => say ("💾 Saved " ++ p)

/-- Search for a program that behaves like a target. -/
def runSearch (name : String) : ToolM Unit := do
  say "🚀 Akaylee Mimic - Starting Search"
  say "=================================="
  say ""
  loadConfig
  setupLogging
  let cfg ← searchConfig
  let t ← lookupTarget name
  let inputs ← targetInputs t
  if let some f := cfg.refusal? then fail ("failed to create engine: " ++ f.message)
  withLogger fun l now => l.searchStart now t.name inputs.length []
  let (result, st) := cfg.searchLogged (.target t) inputs
  st.log.toList.forM logEntry
  let r ← orFailWith "search failed: " result
  withLogger fun l now =>
    l.searchResult now t.name r.score r.executions r.executionsPerSecond ⟨0⟩
  let report := Report.make t.name t.description r (some cfg) (← get).now
  say ""
  emitBytes (← orFail "" (report.writeTo .table {})).written
  saveReports report
  if r.score == 0 then say "\n✨ Found an exact match!"
  else say ("\n🔶 Best program scores " ++ Binary64.fixed r.score 4)

end Tool

end TraceSynth
