import TraceSynth.Heap.Describe
import TraceSynth.Heap.Compare

/-!
# Argument vectors

An input is an argument list with the heap its references live in. Inputs are values, so a
copy shares nothing with its source: changing one never changes the other.

Two inputs are equal when they have the same number of arguments and each pair of arguments is
structurally equal; the comparison shares one record of the object pairs met across all
arguments, so a pair met again counts as equal.
-/

namespace TraceSynth

/-- An argument vector and its heap. -/
structure Input where
  /-- The heap the arguments' references live in. -/
  heap : Heap := {}
  /-- The arguments, in order. -/
  args : List Value := []
  deriving Inhabited

namespace Input

/-- The text of an input: the description of each argument, joined by `, `. -/
def render (i : Input) : Bytes :=
  ⟨Heap.joinBytes [0x2C, 0x20] (i.args.map fun a => (i.heap.describe a).toList)⟩

/-- A copy of the input. -/
def clone (i : Input) : Input := { heap := i.heap, args := i.args }

/-- Structural equality of argument lists, threading the pairs met from one argument to the
next and stopping at the first difference. -/
def argsEqual (ha hb : Heap) (fuel : Nat) : List (Nat × Nat) → List Value → List Value → Bool
  | _, [], [] => true
  | seen, a :: as, b :: bs =>
    let (same, seen) := Heap.structEqWith ha hb fuel seen a b
    same && argsEqual ha hb fuel seen as bs
  | _, _, _ => false

/-- Structural equality of two inputs. -/
def equal (a b : Input) : Bool :=
  a.args.length == b.args.length &&
    argsEqual a.heap b.heap (Heap.pairFuel a.heap b.heap) [] a.args b.args

/-- The value reached from argument `arg` through the keys, each step reading an own
property of an object; none when a step starts from a value that is not an object. -/
def valueAt (i : Input) (arg : Nat) (keys : List Bytes) : Option Value := do
  let start ← i.args[arg]?
  keys.foldlM (fun v k => (i.heap.obj? v).map (·.get k)) start

/-- Store a value at the end of a path: a path of no keys replaces the argument, a longer one
writes the last key of the object reached through the others. None when the argument does not
exist, a step meets a non-object, or the write is refused. -/
def storeAt (i : Input) (arg : Nat) (keys : List Bytes) (v : Value) : Option Input :=
  match keys.reverse with
  | [] => if arg < i.args.length then some { i with args := i.args.set arg v } else none
  | last :: front => do
    let target ← i.valueAt arg front.reverse
    match target with
    | .ref id =>
      let o ← i.heap.obj? target
      match o.set last v with
      | .ok o => some { i with heap := i.heap.update id o }
      | .error _ => none
    | _ => none

end Input

end TraceSynth
