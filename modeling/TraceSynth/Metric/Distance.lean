import TraceSynth.Trace.Basic

/-!
# Distance between traces

How far a candidate's trace is from the reference's, zero meaning that no observation tells
them apart. Events are compared kind by kind, the `i`-th of a kind with the `i`-th: a pair
costs half its operand distance over `norm`, an event without a partner costs one. A different
way of ending costs two; otherwise the ending values are compared, weighted one over `norm`. A
candidate that ran out of budget is at distance five.

Two operands are at distance zero when they denote the same thing: the same constant by
`sameValue`, alias sets sharing a prestate, or equal snapshots; snapshots of the same kind
get partial credit by their differing fields. Anything else is at `norm`.
-/

namespace TraceSynth

namespace Metric

/-- The distance between two unrelated values. -/
def norm : Float := 100.0
/-- The weight of a paired event's operand distance. -/
def weightPair : Float := 0.5
/-- The cost of an event without a partner. -/
def weightMissing : Float := 1.0
/-- A return where a throw was expected or the other way round. -/
def weightErrorExit : Float := 2.0
/-- The weight of the returned or thrown value. -/
def weightExit : Float := 1.0
/-- A candidate that ran out of budget. -/
def weightExhausted : Float := 5.0
/-- The size penalty per program node when finalizing. -/
def weightSize : Float := 0.0001
/-- The cost of a snapshot field with another value. -/
def wrongField : Float := 0.6

/-- The event budget of a candidate against a reference with `base` events. -/
def budgetFor (base : Nat) : Nat := base + min 100 (max 20 (base / 2))

/-- The distance of two snapshots, relative to the reference's field count. -/
def snapshotDistance (refArray : Bool) (ref : List (Bytes × Bytes)) (candArray : Bool)
    (cand : List (Bytes × Bytes)) : Float :=
  if refArray != candArray then norm
  else
    let wrong := (ref.filter fun (k, v) => match cand.lookup k with
      | some w => w != v
      | none => false).length
    let missing := (ref.filter fun (k, _) => (cand.lookup k).isNone).length
    let extra := (cand.filter fun (k, _) => (ref.lookup k).isNone).length
    (wrong.toFloat * wrongField + (missing + extra).toFloat) * norm / (max 1 ref.length).toFloat

/-- The distance of two operands: zero for the same entity, else `norm`, with partial credit
between snapshots. -/
def exprDistance : Option TraceExpr → Option TraceExpr → Float
  | none, none => 0
  | some (.const a), some (.const b) => if a.sameValue b then 0 else norm
  | some (.alloc ra rf), some (.alloc ca cf) => snapshotDistance ra rf ca cf
  | some (.general pre _), some (.general pre' _) =>
    let seen := pre.map Expr.toText
    if pre'.any fun e => seen.contains e.toText then 0 else norm
  | _, _ => norm

/-- The sum of the operand distances of two operand lists, `norm` for each unpaired one. -/
def operandSum : List (Option TraceExpr) → List (Option TraceExpr) → Float → Float
  | a :: as, b :: bs, acc => operandSum as bs (acc + exprDistance a b)
  | _ :: as, [], acc => operandSum as [] (acc + norm)
  | [], bs, acc => bs.foldl (fun acc _ => acc + norm) acc

/-- The mean operand distance of two events of one kind. -/
def eventDistance (a b : Event) : Float :=
  let x := a.operands
  let y := b.operands
  let n := max x.length y.length
  if n == 0 then 0 else operandSum x y 0 / n.toFloat

/-- Add the pair costs of two event lists, pair by pair. -/
def pairCosts : List Event → List Event → Float → Float
  | a :: as, b :: bs, d => pairCosts as bs (d + weightPair * eventDistance a b / norm)
  | _, _, d => d

/-- The distance of a candidate trace from a reference trace; a reference that ran out of
budget cannot be compared. -/
def traceDistance (ref cand : Trace) : Except String Float :=
  if ref.isExhausted then .error "reference trace exhausted its budget"
  else if cand.isExhausted then .ok weightExhausted
  else
    let d := EventKind.all.foldl (fun d k =>
      let a := ref.eventsOf k
      let b := cand.eventsOf k
      let d := pairCosts a b d
      let diff : Int := (a.length : Int) - b.length
      d + weightMissing * diff.natAbs.toFloat) 0
    match ref.outcome, cand.outcome with
    | .returned x, .returned y | .threw x, .threw y =>
      .ok (d + weightExit * exprDistance (some x) (some y) / norm)
    | _, _ => .ok (d + weightErrorExit)

end Metric

end TraceSynth
