import TraceSynth.Run.Failure
import TraceSynth.Text.Sort

/-!
# Recording a batch of inputs

A batch records every input in a worker of its own. The workers start in input order, at most
`parallelism` of them running at once (any number for 0), and each puts its trace in its input's
place, so the traces come back in input order. A failure is wrapped with its input's position
and text. The group keeps the first error a worker returns and cancels the others: a worker that
sees the cancellation records nothing, and it can only see it after that first error. So the
batch's answer is a function of the recordings and of the order in which the workers finish
(`recordIn`): the traces when every recording succeeds, and otherwise the first failure in that
order (`firstError`).

The order is the scheduler's choice. The tool's runs take the one in which each worker finishes
the work its recording does, its events and loop rounds, after it starts (`schedule`); with one
worker at a time that is the input order.
-/

namespace TraceSynth

/-- The work of recording `f` on `input`: the events and loop rounds its run charges. -/
def recordWork (f : Function) (input : Input) (budget : Nat) : Nat :=
  let (_, r) := (f.run input.clone.args).run (Recording.start input.clone budget)
  r.events.size + r.ticks

/-- When each worker doing `work` finishes, in input order, when the slots fall free at the
times `slots` and the worker before started at `started`: a worker starts no earlier than that,
once a slot is free, and finishes its work after it starts. -/
def finishFrom (slots : List Nat) (started : Nat) : List Nat → List Nat
  | [] => []
  | w :: rest =>
    let free := slots.foldl min (slots.headD 0)
    let start := max free started
    (start + w) :: finishFrom ((start + w) :: slots.erase free) start rest

/-- When each worker finishes, in input order, with `parallelism` slots, all of them free at the
start (the workers all start at once when `parallelism` is 0). -/
def finishTimes (parallelism : Nat) (work : List Nat) : List Nat :=
  if parallelism = 0 then work else finishFrom (List.replicate parallelism 0) 0 work

/-- The order in which the workers finish: by finishing time, the earlier input first. -/
def schedule (parallelism : Nat) (work : List Nat) : List Nat :=
  (sortStable (fun a b => decide (a.1 ≤ b.1)) (finishTimes parallelism work).zipIdx).map (·.2)

/-- What the worker of the `k`-th input returns: its trace, or its failure named by the input. -/
def recordWorker (f : Function) (budget : Nat) (input : Input) (k : Nat) :
    Except Failure Trace :=
  match record f input budget with
  | .ok t => .ok t
  | .error e => .error ((Failure.ofFault e).wrap
      ("failed to record input " ++ toString k ++ " (" ++ input.render.toStringLossy ++ "): "))

/-- The error the group returns: the first failure among the workers' results, in the order the
workers finish. -/
def firstError (results : List (Except Failure Trace)) : List Nat → Option Failure
  | [] => none
  | k :: ks =>
    match results[k]? with
    | some (.error e) => some e
    | _ => firstError results ks

/-- The batch with the workers finishing in `order`. -/
def recordIn (f : Function) (inputs : List Input) (budget : Nat) (order : List Nat) :
    Except Failure (List Trace) :=
  let results := inputs.zipIdx.map fun (i, k) => recordWorker f budget i k
  match firstError results order with
  | some e => .error e
  | none => results.mapM id

/-- Record `f` on every input, `parallelism` workers at a time, in the order of the tool's runs. -/
def recordAll (f : Function) (inputs : List Input) (budget parallelism : Nat) :
    Except Failure (List Trace) :=
  recordIn f inputs budget (schedule parallelism (inputs.map fun i => recordWork f i budget))

end TraceSynth
