import TraceSynth.Run.Call
import TraceSynth.Input.Parse

/-!
# Built-in targets

The black-box functions synthesis can be pointed at. Each works on its arguments only through
the host, the way the corresponding JavaScript would: array methods read the length, read and
write elements, delete the vacated slot and write the new length. Loops charge one iteration
to the budget before each round.

Each target comes with the inputs a search starts from.
-/

namespace TraceSynth

/-- A built-in target. -/
inductive Target where
  | arrayPop
  | arrayPush
  | arrayShift
  | arrayLastOrSelf
  | arrayIndex
  | arrayEvery
  | arraySome
  | objectSwap
  | objectDeleteField
  | noop
  | throwEmpty
  | callApply
  | loopForever
  deriving DecidableEq, Inhabited, Repr

namespace Target

/-- Every target, sorted by name. -/
def all : List Target :=
  [.arrayEvery, .arrayIndex, .arrayLastOrSelf, .arrayPop, .arrayPush, .arrayShift, .arraySome,
    .callApply, .loopForever, .noop, .objectDeleteField, .objectSwap, .throwEmpty]

/-- The name of a target. -/
def name : Target → String
  | .arrayPop => "array.pop"
  | .arrayPush => "array.push"
  | .arrayShift => "array.shift"
  | .arrayLastOrSelf => "array.last-or-self"
  | .arrayIndex => "array.index"
  | .arrayEvery => "array.every"
  | .arraySome => "array.some"
  | .objectSwap => "object.swap"
  | .objectDeleteField => "object.delete-field"
  | .noop => "noop"
  | .throwEmpty => "throw.empty"
  | .callApply => "call.apply"
  | .loopForever => "loop.forever"

/-- What a target does. -/
def description : Target → String
  | .arrayPop => "Removes and returns the last element of an array"
  | .arrayPush => "Appends an element and returns the new length"
  | .arrayShift => "Removes and returns the first element, moving the rest down"
  | .arrayLastOrSelf => "Returns the array itself when the flag is truthy, else its last element"
  | .arrayIndex => "Reads the element at an index"
  | .arrayEvery => "Reports whether every element is truthy"
  | .arraySome => "Reports whether any element is truthy"
  | .objectSwap => "Swaps the fields a and b of an object"
  | .objectDeleteField => "Deletes the field x of an object"
  | .noop => "Takes nothing and returns undefined"
  | .throwEmpty => "Returns the first element, throwing on an empty array"
  | .callApply => "Applies a function argument to a value"
  | .loopForever => "Never returns; exhausts any recording budget"

/-- The equivalent JavaScript. -/
def source : Target → String
  | .arrayPop => "(arr) => arr.pop()"
  | .arrayPush => "(arr, x) => arr.push(x)"
  | .arrayShift => "(arr) => arr.shift()"
  | .arrayLastOrSelf => "(arr, i) => i ? arr : arr[arr.length - 1]"
  | .arrayIndex => "(arr, i) => arr[i]"
  | .arrayEvery => "(arr) => arr.every(x => x)"
  | .arraySome => "(arr) => arr.some(x => x)"
  | .objectSwap => "(o) => \x7b const t = o.a; o.a = o.b; o.b = t; \x7d"
  | .objectDeleteField => "(o) => delete o.x"
  | .noop => "() => undefined"
  | .throwEmpty => "(arr) => \x7b if (arr.length == 0) throw 'empty'; return arr[0]; \x7d"
  | .callApply => "(f, x) => f(x)"
  | .loopForever => "() => \x7b for (;;) \x7b\x7d \x7d"

/-- The target of a name. -/
def ofName? (s : String) : Option Target := all.find? (·.name == s)

/-- The literals of the starting inputs. -/
def literals : Target → List String
  | .arrayPop | .arrayShift => ["[[\"a\", \"b\", \"c\"]]"]
  | .arrayPush => ["[[1, 2], 3]"]
  | .arrayLastOrSelf => ["[[\"a\", \"b\", \"c\"], 2]"]
  | .arrayIndex => ["[[10, 20, 30], 1]"]
  | .arrayEvery => ["[[true, true, true]]", "[[true, false, true]]"]
  | .arraySome => ["[[false, false, true]]"]
  | .objectSwap => ["[\x7ba: 1, b: 2\x7d]"]
  | .objectDeleteField => ["[\x7bx: 1, y: 2\x7d]"]
  | .throwEmpty => ["[[1, 2]]"]
  | .noop | .loopForever | .callApply => ["[]"]

/-- The starting inputs; `call.apply` starts from the doubling function and 21. -/
def inputs (t : Target) : Except InputError (List Input) :=
  match t with
  | .callApply =>
    let (f, h) := ({} : Heap).newFunction .double
    .ok [{ heap := h, args := [f, .number 21] }]
  | _ => t.literals.mapM Input.parse

open Host

/-- The length of an array-like value, as a count. -/
def lengthOf (o : Value) : RecM Nat := do
  let l ← getProp o (.string lengthKey)
  pure l.toLength

/-- Move elements `k .. n-1` down by one, one charged round each. -/
def shiftDown (o : Value) (n : Nat) : Nat → Nat → RecM Unit
  | 0, _ => throw .exhausted
  | fuel + 1, k =>
    if k < n then do
      tick
      let v ← getProp o (.nat k)
      setProp o (.nat (k - 1)) v
      shiftDown o n fuel (k + 1)
    else pure ()

/-- Look for an element whose truthiness is `want`, one charged round per element. -/
def scanFor (o : Value) (n : Nat) (want : Bool) : Nat → Nat → RecM Value
  | 0, _ => throw .exhausted
  | fuel + 1, k =>
    if k < n then do
      tick
      let v ← getProp o (.nat k)
      if v.truthy == want then pure (.bool want) else scanFor o n want fuel (k + 1)
    else pure (.bool !want)

/-- Charge rounds until the budget runs out. -/
def spin : Nat → RecM Value
  | 0 => throw .exhausted
  | fuel + 1 => do
    tick
    spin fuel

/-- Run a target on its arguments. -/
def run (t : Target) (args : List Value) : RecM Value := do
  let a0 := Value.arg args 0
  let a1 := Value.arg args 1
  let fuel := (← get).budget + 2
  let len := Value.string lengthKey
  match t with
  | .arrayPop =>
    let n ← lengthOf a0
    if n == 0 then
      setProp a0 len (.number 0)
      pure .undefined
    else
      let idx := Value.nat (n - 1)
      let elem ← getProp a0 idx
      deleteProp a0 idx
      setProp a0 len idx
      pure elem
  | .arrayPush =>
    let n ← lengthOf a0
    setProp a0 (.nat n) a1
    setProp a0 len (.nat (n + 1))
    pure (.nat (n + 1))
  | .arrayShift =>
    let n ← lengthOf a0
    if n == 0 then
      setProp a0 len (.number 0)
      pure .undefined
    else
      let first ← getProp a0 (.number 0)
      shiftDown a0 n fuel 1
      deleteProp a0 (.nat (n - 1))
      setProp a0 len (.nat (n - 1))
      pure first
  | .arrayLastOrSelf =>
    if a1.truthy then pure a0
    else
      let n ← getProp a0 len
      getProp a0 (Value.add n (.number (-1)))
  | .arrayIndex => getProp a0 a1
  | .arrayEvery =>
    let n ← lengthOf a0
    scanFor a0 n false fuel 0
  | .arraySome =>
    let n ← lengthOf a0
    scanFor a0 n true fuel 0
  | .objectSwap =>
    let t ← getProp a0 (.str "a")
    let vb ← getProp a0 (.str "b")
    setProp a0 (.str "a") vb
    setProp a0 (.str "b") t
    pure .undefined
  | .objectDeleteField =>
    deleteProp a0 (.str "x")
    pure (.bool true)
  | .noop => pure .undefined
  | .throwEmpty =>
    let n ← getProp a0 len
    if Value.looseEquals n (.number 0) then throw (.thrown (.str "empty"))
    else getProp a0 (.number 0)
  | .callApply => call callDepth a0 .undefined [a1]
  | .loopForever => spin fuel

end Target

end TraceSynth
