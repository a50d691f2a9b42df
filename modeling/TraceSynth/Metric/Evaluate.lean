import TraceSynth.Metric.Distance
import TraceSynth.Run.Failure

/-!
# Scoring programs

A program's score against reference traces is its mean trace distance over the inputs, each
candidate recording given `budgetFor` the reference's event count; when finalizing, larger
programs pay a little per node. The candidate's own faults are part of its score; a program
that does not compile and a failure that is none of the program's behaviour stop the scoring.
-/

namespace TraceSynth

namespace Metric

/-- The mean distance of a program from reference traces over their inputs, plus the size
penalty when finalizing. -/
def evaluate (p : Program) (inputs : List Input) (refs : List Trace) (finalizing : Bool) :
    Except Failure Float := do
  if inputs.length != refs.length then
    throw (Failure.invariant (toString inputs.length ++ " inputs but " ++ toString refs.length ++
      " reference traces"))
  let f ← match p.compile with
    | .ok f => pure f
    | .error e => throw (Failure.ofCompile e)
  let total ← (inputs.zip refs).zipIdx.foldlM (fun (total : Float) ((i, ref), k) => do
    let t ← match record f i (budgetFor ref.events.length) with
      | .ok t => pure t
      | .error e => throw ((Failure.ofFault e).wrap
          ("failed to record candidate on input " ++ toString k ++ ": "))
    let d ← match traceDistance ref t with
      | .ok d => pure d
      | .error msg => throw (Failure.invariant msg)
    pure (total + d)) 0
  let score := if inputs.isEmpty then 0 else total / inputs.length.toFloat
  pure (if finalizing then score + weightSize * p.size.toFloat else score)

end Metric

end TraceSynth
