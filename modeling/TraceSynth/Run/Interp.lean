import TraceSynth.Run.Call

/-!
# Running programs

A program runs against the host like any target. Its declared variables start out undefined;
reading a name that was never declared nor assigned is a reference error. An argument slot
reads the argument at a whole-number position, and undefined at any other. A loop charges one
round before each test of its bound, and `break` leaves the innermost loop (or, outside any
loop, the program). A program that ends without `return` returns undefined.

Every round of every loop is charged, and charges past the budget fail, so a run makes at most
`budget + 1` rounds in all; the fuel of `Program.run` is the budget and `Interp.fuel` of the
program, which covers the statements and list cells on any path down the program and the
round that fails to be charged.
-/

namespace TraceSynth

/-- The local variables of a run. -/
structure Env where
  vars : List (String × Value) := []
  deriving Inhabited

namespace Env

/-- The value of a variable, if it has one. -/
def get? (env : Env) (x : String) : Option Value := env.vars.lookup x

/-- The value of a variable, undefined if it has none. -/
def getD (env : Env) (x : String) : Value := (env.get? x).getD .undefined

/-- Give a variable a value. -/
def set (env : Env) (x : String) (v : Value) : Env :=
  if env.vars.any (·.1 == x) then { vars := env.vars.map fun p => if p.1 == x then (x, v) else p }
  else { vars := env.vars ++ [(x, v)] }

end Env

/-- How a statement ended. -/
inductive Signal where
  | normal
  | returned (v : Value)
  | broke
  deriving Inhabited

namespace Interp

open Host

/-- The argument at a position that is a whole number, undefined elsewhere. -/
def argumentAt (args : List Value) (n : Float) : Value :=
  if Binary64.isWhole n && 0 ≤ n && n < args.length.toFloat then Value.arg args n.toUInt64.toNat
  else .undefined

/-- The value of an expression. -/
def eval (args : List Value) (env : Env) : Expr → RecM Value
  | .const v => pure v
  | .var x =>
    match env.get? x with
    | some v => pure v
    | none => throw (.runtime .referenceError (Bytes.ofString (x ++ " is not defined")))
  | .alloc array => allocate array
  | .argument i => do
    let idx ← eval args env i
    pure (argumentAt args idx.toNumber)
  | .field o n => do
    let ov ← eval args env o
    let nv ← eval args env n
    getProp ov nv
  | .binary op a b => do
    let av ← eval args env a
    let bv ← eval args env b
    match op with
    | .eq => pure (.bool (Value.looseEquals av bv))
    | .add => pure (Value.add av bv)
  | .not e => do
    let v ← eval args env e
    pure (.bool !v.truthy)

mutual

/-- Run a statement. -/
def exec (args : List Value) : Nat → Env → Stmt → RecM (Signal × Env)
  | 0, _, _ => throw .exhausted
  | fuel + 1, env, s =>
    match s with
    | .seq ss => execList args fuel env ss
    | .assign lhs rhs _ =>
      match rhs with
      | none => pure (.normal, env)
      | some r =>
        match lhs with
        | .var x => do
          let v ← eval args env r
          pure (.normal, env.set x v)
        | .field o n => do
          let ov ← eval args env o
          let nv ← eval args env n
          let v ← eval args env r
          setProp ov nv v
          pure (.normal, env)
        | _ => throw (.invariant ("invalid assignment target " ++ lhs.toText))
    | .ret e => do
      let v ← eval args env e
      pure (.returned v, env)
    | .raise e => do
      let v ← eval args env e
      throw (.thrown v)
    | .deleteProp o n => do
      let ov ← eval args env o
      let nv ← eval args env n
      deleteProp ov nv
      pure (.normal, env)
    | .defineProp o n v => do
      let ov ← eval args env o
      let nv ← eval args env n
      let vv ← eval args env v
      defineProp ov nv vv
      pure (.normal, env)
    | .ite c t e => do
      let cv ← eval args env c
      if cv.truthy then exec args fuel env t else exec args fuel env e
    | .loop x start stop step body => do
      let v ← eval args env start
      loop args fuel (env.set x v) x stop step body
    | .call res target cargs recv _ => do
      let fn ← eval args env target
      let this ← match recv with
        | some r => eval args env r
        | none => pure .undefined
      let vs ← cargs.mapM (eval args env)
      let r ← call callDepth fn this vs
      pure (.normal, env.set res r)
    | .brk => pure (.broke, env)

/-- Run statements in order until one does not end normally. -/
def execList (args : List Value) : Nat → Env → List Stmt → RecM (Signal × Env)
  | 0, _, _ => throw .exhausted
  | _ + 1, env, [] => pure (.normal, env)
  | fuel + 1, env, s :: rest => do
    let (sig, env) ← exec args fuel env s
    match sig with
    | .normal => execList args fuel env rest
    | _ => pure (sig, env)

/-- The rounds of a loop over `x`: charge, test the bound, run the body, step. -/
def loop (args : List Value) :
    Nat → Env → String → Expr → Expr → Stmt → RecM (Signal × Env)
  | 0, _, _, _, _, _ => throw .exhausted
  | fuel + 1, env, x, stop, step, body => do
    tick
    let bound ← eval args env stop
    if !Value.less (env.getD x) bound then return (.normal, env)
    let (sig, env) ← exec args fuel env body
    match sig with
    | .returned _ => pure (sig, env)
    | .broke => pure (.normal, env)
    | .normal =>
      let s ← eval args env step
      loop args fuel (env.set x (Value.add (env.getD x) s)) x stop step body

end

mutual

/-- The fuel a statement needs besides one unit per charged round: one for each statement and
list cell on the way down, and one for the round whose charge fails. -/
def fuel : Stmt → Nat
  | .seq ss => fuelList ss + 1
  | .ite _ t e => max (fuel t) (fuel e) + 1
  | .loop _ _ _ _ body => fuel body + 2
  | _ => 1

/-- The fuel a list of statements needs besides its loops' rounds. -/
def fuelList : List Stmt → Nat
  | [] => 1
  | s :: rest => max (fuel s) (fuelList rest) + 1

end

end Interp

/-- Run a program on arguments: its declared variables start undefined, and it returns the value
of the `return` it reaches, else undefined. -/
def Program.run (p : Program) (args : List Value) : RecM Value := do
  let env : Env := p.declarations.foldl (fun env d => env.set d.1 .undefined) {}
  let fuel := (← get).budget + Interp.fuel p.body
  let (sig, _) ← Interp.exec args fuel env p.body
  match sig with
  | .returned v => pure v
  | _ => pure .undefined

end TraceSynth
