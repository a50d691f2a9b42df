import TraceSynth.Inference.Proposal
import TraceSynth.Run.Failure
import TraceSynth.Program.Parse
import TraceSynth.Text.Sort

/-!
# Programs that replay a trace

The search starts from a program that performs a trace's events in order and ends as the
trace ended: each read declares its variable, each write, delete and call is spelled out with
the operands' current expressions, and the outcome value is returned or thrown.

When the call returned a fresh object, or a loop proposal is given, the program keeps its
answer in `result`: declared first (as a fresh object or array of the returned kind when there
is one), filled at the end with the returned snapshot's primitive fields, and returned. With a
loop proposal the events come from the proposal's source trace and its region is folded into a
loop `for (var i = 0; i < 0; i += 1)` that runs no rounds until the search finds its bound: the
region's variables are declared before it, its body is the shared block and the then block, or
`if (true) { then } else { else }`, and each block ends by updating the result and with a
guarded early exit, both disabled by constant conditions the search may flip.
-/

namespace TraceSynth

namespace Replay

/-- The name of a compiled loop's counter. -/
def loopVar : String := "i"

/-- The statement replaying one event; `decl` declares the variables it binds. -/
def eventStmt (decl : Bool) : Event → Stmt
  | .get t n v => .assign (.var v) (some (.field t.expr n.expr)) decl
  | .set t n v => .assign (.field t.expr n.expr) (some v.expr) false
  | .delete t n => .deleteProp t.expr n.expr
  | .apply t r args v => .call v t.expr (args.map TraceExpr.expr) (r.map TraceExpr.expr) decl

/-- The statements replaying events. -/
def eventStmts (decl : Bool) (evs : List Event) : List Stmt := evs.map (eventStmt decl)

/-- The disabled update of the result every round carries. -/
def resultUpdate (alloc : Bool) : Stmt :=
  let result := Expr.var Expr.resultName
  if !alloc then .assign result (some result) false
  else
    let zero := Expr.const (.number 0)
    .ite (.const (.bool false)) (.seq [.assign (.field result zero) (some zero) false]) (.seq [])

/-- A block with the result update and the guarded early exit appended. -/
def block (stmts : List Stmt) (alloc : Bool) : List Stmt :=
  stmts ++ [resultUpdate alloc,
    .ite (.const (.bool false)) (.seq [resultUpdate alloc, .brk]) (.seq [])]

/-- The events at positions `[a, a + n)`. -/
def slice (evs : List Event) (a n : Nat) : List Event := (evs.drop a).take n

/-- The declarations of the loop region's variables, then the loop. -/
def loopStmts (evs : List Event) (p : Proposal) (alloc : Bool) : List Stmt :=
  let region := slice evs p.start p.length
  let decls := region.filterMap fun ev => ev.var?.map fun v => Stmt.assign (.var v) none true
  let body := eventStmts false (slice evs p.start p.sharedLen)
  let thn := block (eventStmts false (slice evs p.thenPos p.thenLen)) alloc
  let body := if p.hasConditional then
      let els := block (eventStmts false (slice evs p.elsePos p.elseLen)) alloc
      body ++ [.ite (.const (.bool true)) (.seq thn) (.seq els)]
    else body ++ thn
  let zero := Expr.const (.number 0)
  decls ++ [.loop loopVar zero zero (.const (.number 1)) (.seq body)]

/-- A rendered snapshot primitive read back as a constant, if it is one. -/
def literal (text : Bytes) : Option Expr :=
  match Program.parse ("return " ++ text.toStringLossy) with
  | .ok p =>
    match p.stmts with
    | [.ret (.const v)] => some (.const v)
    | _ => none
  | .error _ => none

/-- Whether snapshot key `a` is filled before `b`: array indices first, by value, then the
other keys in byte order. -/
def keyBefore (a b : Bytes) : Bool :=
  match Value.arrayIndex a, Value.arrayIndex b with
  | some x, some y => x < y
  | some _, none => true
  | none, some _ => false
  | none, none => decide (a < b)

/-- The writes filling the result with a snapshot's primitive fields. -/
def snapshotStmts (array : Bool) (fields : List (Bytes × Bytes)) : List Stmt :=
  let keys := (fields.filter fun (k, _) => !(array && k == lengthKey)).map (·.1)
  let keys := sortStable (fun a b => !keyBefore b a) keys
  keys.filterMap fun k =>
    match fields.lookup k with
    | none => none
    | some text =>
      (literal text).map fun rhs =>
        let name := match Value.arrayIndex k with
          | some i => if array then Expr.const (.nat i) else Expr.const (.string k)
          | none => Expr.const (.string k)
        .assign (.field (.var Expr.resultName) name) (some rhs) false

/-- The statement ending as an outcome ended, if it returned or threw. -/
def outcomeStmt : Outcome → Option Stmt
  | .returned v => some (.ret v.expr)
  | .threw v => some (.raise v.expr)
  | .exhausted => none

end Replay

open Replay in
/-- Whether programs compiled from a trace build their answer in a fresh object. -/
def Trace.usesAlloc (t : Trace) : Bool :=
  match t.outcome with
  | .returned (.alloc _ _) => true
  | _ => false

open Replay in
/-- The program replaying a trace, with an optional loop proposal folding a region into a loop. -/
def Trace.compile (t : Trace) (loop : Option Proposal) : Except Failure Program := do
  let alloc := t.usesAlloc
  match loop, alloc with
  | none, false =>
    pure { body := .seq (eventStmts true t.events ++ (outcomeStmt t.outcome).toList) }
  | _, _ =>
    let result := Expr.var Expr.resultName
    let initRhs := match t.outcome with
      | .returned (.alloc array _) => if alloc then some (Expr.alloc array) else none
      | _ => none
    let init := Stmt.assign result initRhs true
    let middle ← match loop with
      | some p =>
        let evs := p.source.events
        if p.start + p.length > evs.length then
          throw (Failure.invariant ("loop region [" ++ toString p.start ++ ", " ++
            toString (p.start + p.length) ++ ") outside " ++ toString evs.length ++ " events"))
        pure (eventStmts true (evs.take p.start) ++ loopStmts evs p alloc ++
          eventStmts true (evs.drop (p.start + p.length)))
      | none => pure (eventStmts true t.events)
    let ending := match t.outcome with
      | .returned v =>
        (match v with
          | .alloc array fields =>
            if alloc then snapshotStmts array fields else [.assign result (some v.expr) false]
          | _ => [.assign result (some v.expr) false]) ++ [.ret result]
      | .threw v => [.raise v.expr]
      | .exhausted => []
    pure { body := .seq ([init] ++ middle ++ ending) }

end TraceSynth
