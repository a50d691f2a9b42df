import TraceSynth.Program.Print

/-!
# Traces

A trace records one call of a function: the operations it performed on values that crossed
the call boundary, and how it ended. Each operand is a trace expression:

* a constant, for a primitive value;
* an alias set, for a reference known since the call began: the expressions denoting it in
  the original arguments (`pre`) and at the point of the event (`cur`);
* a snapshot, for an object first seen at the event: its kind and its fields, each written as
  its primitive's literal or as `<object>` / `<function>`.

The trace also lists every prestate expression met, in order, and every constant used as an
operand, duplicates kept: together they are the pool synthesis draws from.
-/

namespace TraceSynth

/-- A value as observed during recording. -/
inductive TraceExpr where
  /-- A reference with the expressions that denote it before the call and at the event. -/
  | general (pre cur : List Expr)
  /-- A primitive value. -/
  | const (v : Value)
  /-- An object first seen here: an array or plain object, with its fields sorted by key. -/
  | alloc (array : Bool) (fields : List (Bytes × Bytes))
  deriving Inhabited

namespace TraceExpr

/-- The expressions valid against the original arguments. -/
def preState : TraceExpr → List Expr
  | .general pre _ => pre
  | .const v => [.const v]
  | .alloc _ _ => []

/-- The expressions valid at the event. -/
def curState : TraceExpr → List Expr
  | .general _ cur => cur
  | .const v => [.const v]
  | .alloc _ _ => []

/-- The expression compiled code uses for the value: the latest alias, the constant, or a fresh
allocation. -/
def expr : TraceExpr → Expr
  | .general _ cur => cur.getLastD (.const .undefined)
  | .const v => .const v
  | .alloc array _ => .alloc array

/-- Join byte strings with a separator. -/
def joinWith (sep : Bytes) : List Bytes → Bytes
  | [] => Bytes.empty
  | [x] => x
  | x :: rest => x ++ sep ++ joinWith sep rest

/-- The text of a trace expression. -/
def text : TraceExpr → Bytes
  | .const v => Bytes.ofString (Expr.const v).toText
  | .alloc array fields =>
    let parts := fields.map fun (k, v) => k ++ Bytes.ofString ": " ++ v
    let inner := joinWith (Bytes.ofString ", ") parts
    if array then Bytes.ofString "new[" ++ inner ++ Bytes.ofString "]"
    else Bytes.ofString "new\x7b" ++ inner ++ Bytes.ofString "\x7d"
  | .general pre cur =>
    Bytes.ofString ((cur.getLastD (.const .undefined)).toText ++ " (" ++
      " | ".intercalate (pre.map Expr.toText) ++ ")")

/-- The text of an optional operand; an absent receiver is `global`. -/
def textOr : Option TraceExpr → Bytes
  | some t => t.text
  | none => Bytes.ofString "global"

/-- The constant of a constant operand. -/
def constValue? : TraceExpr → Option Value
  | .const v => some v
  | _ => none

end TraceExpr

/-- The kinds of event, in the order the metric lists them. -/
inductive EventKind where
  | get
  | set
  | apply
  | delete
  deriving DecidableEq, Inhabited, Repr

/-- Every kind of event, in metric order. -/
def EventKind.all : List EventKind := [.get, .set, .apply, .delete]

/-- The one-character skeleton tag of a kind. -/
def EventKind.tag : EventKind → Char
  | .get => 'g'
  | .set => 's'
  | .apply => 'a'
  | .delete => 'd'

/-- One observed operation. -/
inductive Event where
  /-- `var = target[name]`. -/
  | get (target name : TraceExpr) (var : String)
  /-- `target[name] = value`. -/
  | set (target name value : TraceExpr)
  /-- `var = target.apply(receiver, args)`, no receiver for a nullish one. -/
  | apply (target : TraceExpr) (receiver : Option TraceExpr) (args : List TraceExpr) (var : String)
  /-- `delete target[name]`. -/
  | delete (target name : TraceExpr)
  deriving Inhabited

namespace Event

/-- The kind of an event. -/
def kind : Event → EventKind
  | .get _ _ _ => .get
  | .set _ _ _ => .set
  | .apply _ _ _ _ => .apply
  | .delete _ _ => .delete

/-- The variable an event binds, if any. -/
def var? : Event → Option String
  | .get _ _ v | .apply _ _ _ v => some v
  | _ => none

/-- The operands the metric compares; the receiver slot of an apply is always there. -/
def operands : Event → List (Option TraceExpr)
  | .get t n _ | .delete t n => [some t, some n]
  | .set t n v => [some t, some n, some v]
  | .apply t r args _ => [some t, r] ++ args.map some

/-- The text of an event. -/
def text : Event → Bytes
  | .get t n v => Bytes.ofString (v ++ " = get ") ++ t.text ++ Bytes.ofString " [" ++ n.text ++
    Bytes.ofString "]"
  | .set t n v => Bytes.ofString "set " ++ t.text ++ Bytes.ofString " [" ++ n.text ++
    Bytes.ofString "] = " ++ v.text
  | .delete t n => Bytes.ofString "delete " ++ t.text ++ Bytes.ofString " [" ++ n.text ++
    Bytes.ofString "]"
  | .apply t r args v => Bytes.ofString (v ++ " = apply ") ++ t.text ++ Bytes.ofString " this=" ++
    TraceExpr.textOr r ++ Bytes.ofString " (" ++
    TraceExpr.joinWith (Bytes.ofString ", ") (args.map TraceExpr.text) ++ Bytes.ofString ")"

end Event

/-- How a recorded call ended. -/
inductive Outcome where
  /-- It returned a value. -/
  | returned (v : TraceExpr)
  /-- It threw a value. -/
  | threw (v : TraceExpr)
  /-- It ran out of budget. -/
  | exhausted
  deriving Inhabited

namespace Outcome

/-- The name of an outcome's kind. -/
def kindName : Outcome → String
  | .returned _ => "return"
  | .threw _ => "throw"
  | .exhausted => "exhausted"

/-- The value of an outcome, none when exhausted. -/
def value? : Outcome → Option TraceExpr
  | .returned v | .threw v => some v
  | .exhausted => none

end Outcome

/-- The record of one call. -/
structure Trace where
  events : List Event := []
  outcome : Outcome := .exhausted
  prestates : List Expr := []
  constants : List Value := []
  deriving Inhabited

namespace Trace

/-- The tags of the events, in order. -/
def skeleton (t : Trace) : String := String.ofList (t.events.map fun e => e.kind.tag)

/-- The events of one kind, in order. -/
def eventsOf (t : Trace) (k : EventKind) : List Event := t.events.filter (·.kind == k)

/-- Whether the recording ran out of budget. -/
def isExhausted (t : Trace) : Bool :=
  match t.outcome with
  | .exhausted => true
  | _ => false

/-- The text of a trace: one line per event, then the outcome. -/
def text (t : Trace) : Bytes :=
  let lines := t.events.map fun e => e.text ++ Bytes.ofString "\n"
  let last := match t.outcome.value? with
    | some v => Bytes.ofString (t.outcome.kindName ++ " ") ++ v.text
    | none => Bytes.ofString t.outcome.kindName
  lines.foldr (· ++ ·) last

end Trace

end TraceSynth
