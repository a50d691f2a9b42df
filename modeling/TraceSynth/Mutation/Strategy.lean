import TraceSynth.Mutation.Generator
import TraceSynth.Program.Print

/-!
# Statement strategies

Each strategy changes one slot of one kind of statement to a generated expression, or gives
nothing when it has no sensible change:

* assignments: for a field target, the value, the field name or the object; for a variable,
  the value, or the name or object of a field read on the right, or (one time in ten) the
  declaration without its value; a fresh allocation and a copy of a variable other than the
  result stay as they are;
* `return` and `throw`: the value;
* `delete`: the object or the name;
* definitions: the object, the name or the value;
* `if`: the condition, a number or boolean;
* loops: the bound, a number;
* calls: one argument, or the receiver of a call without arguments.

The composite strategy picks a random statement and applies the strategy for its kind, up to
25 times, until the result differs from the original where a strategy can change it.
-/

namespace TraceSynth

/-- The statement strategies. -/
inductive Strategy where
  | assign
  | exit
  | delete
  | define
  | branch
  | loop
  | call
  deriving DecidableEq, Inhabited, Repr

namespace Strategy

/-- Every strategy, in the order they are listed. -/
def all : List Strategy := [.assign, .exit, .delete, .define, .branch, .loop, .call]

/-- The kind name of a strategy. -/
def kind : Strategy → String
  | .assign => "assign"
  | .exit => "exit"
  | .delete => "delete"
  | .define => "define"
  | .branch => "branch"
  | .loop => "loop"
  | .call => "call"

/-- The name of a strategy. -/
def name : Strategy → String
  | .assign => "AssignMutator"
  | .exit => "ExitMutator"
  | .delete => "DeleteMutator"
  | .define => "DefineMutator"
  | .branch => "BranchMutator"
  | .loop => "LoopMutator"
  | .call => "CallMutator"

/-- What a strategy changes. -/
def description : Strategy → String
  | .assign => "Replaces the value, field name or object of an assignment"
  | .exit => "Replaces the value of a return or throw statement"
  | .delete => "Replaces the object or property name of a delete statement"
  | .define => "Replaces the object, name or value of a property definition"
  | .branch => "Replaces the condition of an if statement"
  | .loop => "Replaces the end bound of a for loop"
  | .call => "Replaces an argument or the receiver of a call"

/-- The strategy for a statement, none for statements never changed. -/
def forStmt? : Stmt → Option Strategy
  | .assign _ _ _ => some .assign
  | .ret _ | .raise _ => some .exit
  | .deleteProp _ _ => some .delete
  | .defineProp _ _ _ => some .define
  | .ite _ _ _ => some .branch
  | .loop _ _ _ _ _ => some .loop
  | .call _ _ _ _ _ => some .call
  | _ => none

/-- The chance of turning a declaration into a bare one. -/
def declDropRate : Float := 0.1

/-- An assignment with another value, none without one. -/
def withRhs (lhs : Expr) (decl : Bool) : Option Expr → Option Stmt
  | some rhs => some (.assign lhs (some rhs) decl)
  | none => none

/-- The change an assignment strategy makes. -/
def mutateAssign (g : Generator) : Stmt → RandM (Option Stmt)
  | .assign (.field obj name) rhs decl => do
    match ← Random.intn 3 with
    | 0 => pure (withRhs (.field obj name) decl (← g.expr .none))
    | 1 => pure ((← g.expr .key).map fun n => .assign (.field obj n) rhs decl)
    | _ => pure ((← g.expr .object).map fun o => .assign (.field o name) rhs decl)
  | .assign (.var v) rhs decl =>
    match rhs with
    | none => do pure (withRhs (.var v) decl (← g.expr .none))
    | some (.alloc _) => pure none
    | some r =>
      if v == Expr.resultName then do pure (withRhs (.var v) decl (← g.expr .none))
      else
        match r with
        | .var _ => pure none
        | .field obj name => do
          if (← Random.intn 2) == 0 then
            pure ((← g.expr .key).map fun n => .assign (.var v) (some (.field obj n)) decl)
          else
            pure ((← g.expr (Requirement.place ||| Requirement.noConst)).map fun o =>
              .assign (.var v) (some (.field o name)) decl)
        | _ => do
          let dropped : Bool ← if decl then do
              let f ← Random.float
              pure (decide (f < declDropRate))
            else pure false
          if dropped then pure (some (.assign (.var v) none true))
          else pure (withRhs (.var v) decl (← g.expr .none))
  | _ => pure none

/-- The change a strategy makes to a statement, none when it has none. -/
def mutate (g : Generator) : Strategy → Stmt → RandM (Option Stmt)
  | .assign, s => mutateAssign g s
  | .exit, s => do
    let e ← g.expr .none
    match e, s with
    | some e, .ret _ => pure (some (.ret e))
    | some e, .raise _ => pure (some (.raise e))
    | _, _ => pure none
  | .delete, .deleteProp obj name => do
    if (← Random.intn 2) == 0 then pure ((← g.expr .object).map fun o => .deleteProp o name)
    else pure ((← g.expr .key).map fun n => .deleteProp obj n)
  | .define, .defineProp obj name v => do
    match ← Random.intn 3 with
    | 0 => pure ((← g.expr .object).map fun o => .defineProp o name v)
    | 1 => pure ((← g.expr .key).map fun n => .defineProp obj n v)
    | _ => pure ((← g.expr .none).map fun x => .defineProp obj name x)
  | .branch, .ite _ thn els => do
    pure ((← g.expr (Requirement.number ||| Requirement.boolean)).map fun c => .ite c thn els)
  | .loop, .loop x start _ step body => do
    pure ((← g.expr .number).map fun b => .loop x start b step body)
  | .call, .call res target args recv decl => do
    if !args.isEmpty then
      match ← g.expr .none with
      | none => pure none
      | some e => do
        let i ← Random.intn args.length
        pure (some (.call res target (args.set i e) recv decl))
    else if recv.isSome then
      pure ((← g.expr .object).map fun r => .call res target args (some r) decl)
    else pure none
  | _, _ => pure none

end Strategy

/-- Whether a statement and its mutation agree on the slots strategies change: the condition
of an `if`, the bound of a loop, and everything else for other statements; a `break` always
agrees. -/
def Stmt.softEquals : Stmt → Stmt → Bool
  | .ite c _ _, .ite c' _ _ => c.equiv c'
  | .ite _ _ _, _ => false
  | .loop _ _ b _ _, .loop _ _ b' _ _ => b.equiv b'
  | .loop _ _ _ _ _, _ => false
  | .brk, _ => true
  | a, b => a.equiv b

/-- Why no mutation was made. -/
inductive MutationError where
  /-- The program has no statements. -/
  | empty
  /-- No attempt gave a different program. -/
  | exhausted (program : String)
  /-- The chosen position could not be replaced. -/
  | position (e : IndexOutOfRange)
  deriving Inhabited

/-- The text of a mutation error. -/
def MutationError.message : MutationError → String
  | .empty => "no valid mutation found: invariant violation: cannot mutate an empty program"
  | .exhausted p =>
    "no valid mutation found: invariant violation: no mutation after 25 attempts on\n" ++ p
  | .position e => e.message

/-- The attempts of a random change. -/
def randomChangeAttempts (ctx : MutationContext) (p : Program) (stmts : List Stmt)
    (defs : List (String × Nat)) : Nat → RandM (Except MutationError Program)
  | 0 => pure (.error (.exhausted p.toText))
  | tries + 1 => do
    let site ← Random.intn stmts.length
    let old := stmts.getD site default
    match Strategy.forStmt? old with
    | none => randomChangeAttempts ctx p stmts defs tries
    | some m =>
      match ← m.mutate (Generator.atSite ctx defs site) old with
      | none => randomChangeAttempts ctx p stmts defs tries
      | some s =>
        if old.softEquals s then randomChangeAttempts ctx p stmts defs tries
        else pure ((p.replace site (.put s)).mapError MutationError.position)

/-- A copy of the program with one statement replaced by a strategy's change, never agreeing
with the original on the changed slots. -/
def Program.randomChange (ctx : MutationContext) (p : Program) :
    RandM (Except MutationError Program) :=
  let stmts := p.stmts
  if stmts.isEmpty then pure (.error .empty)
  else randomChangeAttempts ctx p stmts p.declarations 25

end TraceSynth
