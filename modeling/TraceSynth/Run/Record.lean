import TraceSynth.Run.Target
import TraceSynth.Run.Interp
import TraceSynth.Program.Parse

/-!
# Recording a call

`record f input budget` runs `f` on a copy of the input's heap and returns its trace. Each
argument is a prestate; a reference argument starts tracked with its slot as alias, before and
now. The run's end becomes the outcome: exhaustion (also when the function went on after a
failed charge), a thrown value, the message of a runtime error, or the returned value. Any other
failure is no behaviour of the function and is returned instead of a trace.
-/

namespace TraceSynth

/-- A function synthesis can observe: a built-in target or a program. -/
inductive Function where
  | target (t : Target)
  | program (p : Program)
  deriving Inhabited

/-- Run a function on arguments. -/
def Function.run : Function → List Value → RecM Value
  | .target t, args => t.run args
  | .program p, args => p.run args

/-- A program whose printed text does not read back, with the problem met. -/
structure CompileError where
  program : String
  err : Program.SyntaxError
  deriving Inhabited

/-- The text of a compile error. -/
def CompileError.message (e : CompileError) : String :=
  "failed to compile candidate program: " ++ e.err.message ++ "\n" ++ e.program

/-- A program as a runnable function, through its printed text: what runs is exactly what
prints. -/
def Program.compile (p : Program) : Except CompileError Function :=
  let src := p.toText
  match Program.parse src with
  | .ok q => .ok (.program q)
  | .error e => .error { program := src, err := e }

namespace Recording

/-- The recording state at the start of a call on an input. -/
def start (input : Input) (budget : Nat) : Recording :=
  let r : Recording := { heap := input.heap, budget }
  let r := input.args.zipIdx.foldl (fun (r : Recording) (arg, i) =>
    let r := { r with prestates := r.prestates.push (Expr.arg i) }
    match arg with
    | .ref id =>
      r.modifyAliases id fun a => { pre := a.pre ++ [Expr.arg i], cur := a.cur ++ [Expr.arg i] }
    | _ => r) r
  { r with active := true }

/-- The trace so far, with an outcome. -/
def toTrace (r : Recording) (outcome : Outcome) : Trace :=
  { events := r.events.toList, outcome, prestates := r.prestates.toList,
    constants := r.constants.toList }

end Recording

/-- The outcome of a run and the trace it leaves, or the failure that is none of the function's
behaviour. -/
def finish (res : Except Fault Value) (r : Recording) : Except Fault Trace :=
  let exhausted := r.exhausted || match res with
    | .error .exhausted => true
    | _ => false
  if exhausted then .ok (r.toTrace .exhausted)
  else
    match res with
    | .error e =>
      match e.traced? with
      | some v =>
        let (t, r) := (Host.texpr v).run r
        match t with
        | .ok t => .ok (r.toTrace (.threw t))
        | .error e => .error e
      | none => .error e
    | .ok v =>
      let (t, r) := (Host.texpr v).run r
      match t with
      | .ok t => .ok (r.toTrace (.returned t))
      | .error e => .error e

/-- Record one call of `f` on a copy of `input`, with a budget for events and loop rounds. -/
def record (f : Function) (input : Input) (budget : Nat) : Except Fault Trace :=
  let (res, r) := (f.run input.clone.args).run (Recording.start input.clone budget)
  finish res { r with active := false }

end TraceSynth
