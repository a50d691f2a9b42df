import TraceSynth.Input.Basic
import TraceSynth.Program.Expr

/-!
# Prestate addresses

A prestate expression addresses a place in an input: an argument slot with a constant index,
under field reads with constant names. `eval` reads the place and `update` writes it. Reading
an argument past the end gives undefined; reading a field needs an object. Writing refuses
argument slots past the end, non-constant names, non-objects, array indices at or past the
length, and writes the object itself refuses.
-/

namespace TraceSynth

namespace Prestate

/-- The value at the place an expression addresses, if it addresses one. -/
def eval (i : Input) : Expr → Option Value
  | .argument idx =>
    match (Expr.argument idx).argIndex? with
    | some k => some (if k < 0 then .undefined else Value.arg i.args k.toNat)
    | none => none
  | .field o (.const key) => do
    let base ← eval i o
    let obj ← i.heap.obj? base
    pure (obj.get (Value.propertyKey key))
  | _ => none

/-- Store a value at the place an expression addresses. -/
def update (i : Input) (e : Expr) (v : Value) : Option Input :=
  match e with
  | .argument idx =>
    match (Expr.argument idx).argIndex? with
    | some k =>
      if k < 0 || k ≥ i.args.length then none else some { i with args := i.args.set k.toNat v }
    | none => none
  | .field o (.const key) => do
    let base ← eval i o
    let obj ← i.heap.obj? base
    let k := Value.propertyKey key
    let inRange := match obj.isArray, Value.arrayIndex k with
      | true, some idx => idx < obj.length
      | _, _ => true
    if !inRange then none
    else
      match base, obj.set k v with
      | .ref id, .ok o => some { i with heap := i.heap.update id o }
      | _, _ => none
  | _ => none

/-- Whether an expression reads the length of what is an array in the input. -/
def isArrayLength (i : Input) : Expr → Bool
  | .field o (.const (.string s)) =>
    s == lengthKey && match eval i o with
      | some base => i.heap.isArray base
      | none => false
  | _ => false

end Prestate

end TraceSynth
