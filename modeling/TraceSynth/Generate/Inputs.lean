import TraceSynth.Generate.Prestate
import TraceSynth.Metric.Evaluate
import TraceSynth.Run.Batch
import TraceSynth.Inference.Proposal
import TraceSynth.Text.Sort

/-!
# Generating inputs

New inputs come from perturbing the places the target read. The candidate places are the
distinct prestates of the traces, those of the fewest field reads first; a read of an array's
length stands for the array itself, since varying the array varies its length.

Each candidate place is tried on every input of the pool, the starting inputs and those made
so far: a number there becomes 0 or 1, a string `"b"` or `"def"`, a boolean either truth
value, and an array an empty array or itself without its last element. A change that leaves
the input unchanged or repeats one in the pool is dropped, and at most `maxInputs` are made
(no bound when 0). Places found by recording the new inputs start another round, up to
`rounds`; inputs whose recording ran out of budget are dropped at the end.
-/

namespace TraceSynth

/-- The bounds of input generation. -/
structure GenConfig where
  /-- The event budget for recording the target. -/
  budget : Nat := 1000
  /-- The rounds of place discovery. -/
  rounds : Nat := 2
  /-- The most inputs made, no bound when 0. -/
  maxInputs : Nat := 200
  /-- The recordings run at once, any number when 0. -/
  parallelism : Nat := 0
  deriving Inhabited

namespace Generate

/-- The distinct places the traces read, fewest field reads first; `probe` decides which reads
are array lengths. -/
def candidates (traces : List Trace) (probe : Input) : List Expr :=
  let found := traces.foldl (fun (acc : List Expr × List String) t =>
    t.prestates.foldl (fun (acc : List Expr × List String) e =>
      if !e.isPrestate then acc
      else
        let e := if Prestate.isArrayLength probe e then e.base else e
        let key := e.toText
        if acc.2.contains key then acc else (e :: acc.1, key :: acc.2)) acc) ([], [])
  sortStable (fun a b => a.fieldLevel ≤ b.fieldLevel) found.1.reverse

/-- The replacements for a value, allocating the arrays they need. -/
def alternatives (h : Heap) (v : Value) : List Value × Heap :=
  match v with
  | .number _ => ([.number 0, .number 1], h)
  | .string _ => ([.str "b", .str "def"], h)
  | .bool _ => ([.bool true, .bool false], h)
  | .ref _ =>
    match h.obj? v with
    | some o =>
      if !o.isArray then ([], h)
      else
        let (empty, h) := h.newArray []
        if o.length > 0 then
          let elems := (List.range (o.length - 1)).map fun i => o.get (Bytes.ofString (toString i))
          let (shorter, h) := h.newArray elems
          ([empty, shorter], h)
        else ([empty], h)
    | none => ([], h)
  | _ => ([], h)

/-- The pool of inputs and the inputs made so far. -/
structure Pool where
  pool : Array Input
  made : Array Input
  deriving Inhabited

/-- Try the `k`-th replacement of place `e` in `src`. -/
def tryAlternative (e : Expr) (src : Input) (limit : Nat) (st : Pool) (k : Nat) : Pool :=
  if limit > 0 && st.made.size ≥ limit then st
  else
    match Prestate.eval src e with
    | none => st
    | some cur =>
      let (alts, h) := alternatives src.heap cur
      match alts[k]? with
      | none => st
      | some alt =>
        match Prestate.update { src with heap := h } e alt with
        | none => st
        | some next =>
          if next.equal src || st.pool.any (·.equal next) then st
          else { pool := st.pool.push next, made := st.made.push next }

/-- Perturb every input of the pool at one place. -/
def perturbAt (limit : Nat) (st : Pool) (e : Expr) : Pool :=
  (st.pool.toList.take st.pool.size).foldl (fun st src =>
    match Prestate.eval src e with
    | none => st
    | some v =>
      let n := (alternatives src.heap v).1.length
      (List.range n).foldl (tryAlternative e src limit) st) st

/-- The inputs made by perturbing the starting inputs at each place in turn. -/
def perturbAll (initial : List Input) (places : List Expr) (limit : Nat) : List Input :=
  (places.foldl (perturbAt limit) { pool := initial.toArray, made := #[] }).made.toList

/-- The rounds of generation after the first: stop when no new places appear. -/
def rounds (f : Function) (initial : List Input) (c : GenConfig) :
    Nat → List Trace → Nat → List Input → Except Failure (List Input × List Trace)
  | 0, traces, _, made => pure (made, traces)
  | n + 1, traces, known, made => do
    let places := candidates traces (initial.headD {})
    if places.length == known then return (made, traces)
    let made := perturbAll initial places c.maxInputs
    let more ← (recordAll f made c.budget c.parallelism).mapError
      (Failure.wrap "failed to record generated inputs: ")
    rounds f initial c n (traces.take initial.length ++ more) places.length made

/-- New inputs derived from the starting ones: never a starting input nor a repeat, and none
whose recording ran out of budget. -/
def inputs (f : Function) (initial : List Input) (c : GenConfig) : Except Failure (List Input) := do
  if initial.isEmpty then return []
  let traces ←
    (recordAll f initial c.budget c.parallelism).mapError
      (Failure.wrap "failed to record initial inputs: ")
  let places := candidates traces (initial.headD {})
  let made := perturbAll initial places c.maxInputs
  let more ← (recordAll f made c.budget c.parallelism).mapError
    (Failure.wrap "failed to record generated inputs: ")
  let traces := traces.take initial.length ++ more
  let (made, traces) ← rounds f initial c (max 1 c.rounds - 1) traces places.length made
  pure ((made.zip (traces.drop initial.length)).filterMap fun (i, t) =>
    if t.isExhausted then none else some i)

/-- A tag telling value kinds apart. -/
def kindTag : Value → Nat
  | .undefined => 0
  | .null => 1
  | .bool _ => 2
  | .number _ => 3
  | .string _ => 4
  | .ref _ => 5

/-- The constant pools of traces merged, without repeats. -/
def constants (traces : List Trace) : List Value :=
  (traces.foldl (fun (acc : List Value × List (Nat × String)) t =>
    t.constants.foldl (fun (acc : List Value × List (Nat × String)) v =>
      let key := (kindTag v, (Expr.const v).toText)
      if acc.2.contains key then acc else (v :: acc.1, key :: acc.2)) acc) ([], [])).1.reverse

end Generate

/-- A set of inputs that behave alike. -/
structure Category where
  key : String
  inputs : List Input
  traces : List Trace
  deriving Inhabited

namespace Generate

/-- The group of the input at position `k` with trace `t`: the loop's, when the loop explains
the trace, else the trace's skeleton. -/
def categoryKey (loop : Option Proposal) (k : Nat) (t : Trace) : String :=
  match loop with
  | some p => if p.worksFor.contains k then "loop:" ++ p.pattern else "skeleton:" ++ t.skeleton
  | none => "skeleton:" ++ t.skeleton

/-- Group inputs by the skeleton of their trace; those whose trace the loop explains share one
group. Groups come in the order of their first input. -/
def categorize (inputs : List Input) (traces : List Trace) (loop : Option Proposal) :
    List Category :=
  let keyed := (inputs.zip traces).zipIdx.map fun ((i, t), k) => (categoryKey loop k t, i, t)
  let keys := (keyed.map (·.1)).eraseDups
  keys.map fun key =>
    let members := keyed.filter (·.1 == key)
    { key, inputs := members.map (·.2.1), traces := members.map (·.2.2) }

end Generate

end TraceSynth
