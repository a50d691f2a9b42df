import TraceSynth.Mutation.Requirement
import TraceSynth.Random.Source

/-!
# Generating expressions

Expressions for a mutation site are drawn from weighted options: an argument slot (6), an
argument at a generated index (2), a pooled constant (1), a visible variable (4), the length of
the result (1, when the seed builds its result in a fresh object), a generated number plus or
minus one (2), the sum of two variables (1), the equality of two generated expressions (1), the
negation of one (1), and a whole number in `[-10, 10)` (1). Options that build on other
expressions exist only above depth 0, and build at one depth less. A draw that does not meet
the requirement is discarded; after 25 draws the generator gives up.
-/

namespace TraceSynth

/-- What a mutation may draw expressions from. -/
structure MutationContext where
  /-- The constant pool gathered while recording. -/
  constants : List Value := []
  /-- The number of argument slots of the target. -/
  nargs : Nat := 0
  /-- Whether the seed builds its result in a fresh object. -/
  useAlloc : Bool := false
  /-- The depth bound of generated expressions. -/
  maxDepth : Nat := 2
  deriving Inhabited

/-- A generator for one site: the context and the variables declared before the site. -/
structure Generator where
  ctx : MutationContext
  vars : List String
  deriving Inhabited

namespace Generator

/-- The generator for the statement at pre-order position `site`: only variables declared
strictly before it are visible. -/
def atSite (ctx : MutationContext) (defs : List (String × Nat)) (site : Nat) : Generator :=
  { ctx, vars := (defs.filter fun d => d.2 < site).map (·.1) }

/-- The kinds of option, in the order they are weighed. -/
inductive Choice where
  | argSlot
  | argIndex
  | constant
  | variable
  | resultLength
  | shifted
  | varSum
  | equality
  | negation
  | small
  deriving DecidableEq, Inhabited

/-- The options at a depth with their weights; building options weigh 0 at depth 0. -/
def options (g : Generator) (depth : Nat) : List (Choice × Nat) :=
  let compound := if depth > 0 then 1 else 0
  (if g.ctx.nargs > 0 then [(.argSlot, 6), (.argIndex, 2 * compound)] else []) ++
  (if g.ctx.constants.isEmpty then [] else [(.constant, 1)]) ++
  (if g.vars.isEmpty then [] else [(.variable, 4)]) ++
  (if g.ctx.useAlloc then [(.resultLength, compound)] else []) ++
  [(.shifted, 2 * compound), (.varSum, compound), (.equality, compound), (.negation, compound),
    (.small, 1)]

/-- The option a draw below the total weight selects. -/
def select : List (Choice × Nat) → Nat → Option Choice
  | [], _ => none
  | (c, w) :: rest, n => if n < w then some c else select rest (n - w)

/-- A drawn element of a list. -/
def pick (xs : List α) [Inhabited α] : RandM α := do
  let i ← Random.intn xs.length
  pure (xs.getD i default)

/-- The draws among options, at most `tries` of them: the option a draw selects is built by
`buildAt` and kept if it meets `req` within `depth`. -/
def attempt (buildAt : Choice → RandM (Option Expr)) (depth : Nat) (req : Requirement)
    (opts : List (Choice × Nat)) (total : Nat) : Nat → RandM (Option Expr)
  | 0 => pure none
  | tries + 1 => do
    let n ← Random.intn total
    match select opts n with
    | none => attempt buildAt depth req opts total tries
    | some c =>
      let e ← buildAt c
      match e with
      | some e =>
        if e.satisfies req depth then pure (some e) else attempt buildAt depth req opts total tries
      | none => attempt buildAt depth req opts total tries

/-- Build one option at a depth; `sub` generates the expressions it builds on, at one depth
less. -/
def build (g : Generator) (sub : Requirement → RandM (Option Expr)) :
    Nat → Choice → RandM (Option Expr)
  | depth, c =>
    match c, depth with
    | .argSlot, _ => do
      let i ← Random.intn g.ctx.nargs
      pure (some (Expr.arg i))
    | .constant, _ => do
      let v ← pick g.ctx.constants
      pure (some (.const v))
    | .variable, _ => do
      let v ← pick g.vars
      pure (some (.var v))
    | .resultLength, _ => pure (some (.field (.var Expr.resultName) (.const (.str "length"))))
    | .small, _ => do
      let n ← Random.intn 20
      pure (some (.const (.number (Float.ofInt ((n : Int) - 10)))))
    | .varSum, _ =>
      if g.vars.isEmpty then pure none
      else do
        let a ← pick g.vars
        let b ← pick g.vars
        pure (some (.binary .add (.var a) (.var b)))
    | _, 0 => pure none
    | .argIndex, _ + 1 => do
      let idx ← sub (Requirement.number ||| Requirement.noConst)
      pure (idx.map Expr.argument)
    | .shifted, _ + 1 => do
      match ← sub .number with
      | none => pure none
      | some a =>
        let k ← Random.intn 2
        let delta : Float := if k == 0 then -1 else 1
        pure (some (.binary .add a (.const (.number delta))))
    | .equality, _ + 1 => do
      let a ← sub .none
      let b ← sub .none
      match a, b with
      | some a, some b => pure (some (.binary .eq a b))
      | _, _ => pure none
    | .negation, _ + 1 => do
      let a ← sub .none
      pure (a.map Expr.not)

/-- Up to 25 draws among the options at a depth, building with `buildAt`; none when no option
has weight. -/
def draw (g : Generator) (depth : Nat) (req : Requirement) (buildAt : Choice → RandM (Option Expr)) :
    RandM (Option Expr) :=
  let opts := g.options depth
  let total := (opts.map (·.2)).foldr (· + ·) 0
  if total == 0 then pure none else attempt buildAt depth req opts total 25

/-- An expression meeting `req` within `depth`, or none after 25 draws; the options that build on
other expressions generate them at one depth less. -/
def exprAt (g : Generator) : Nat → Requirement → RandM (Option Expr)
  | 0, req => g.draw 0 req (g.build (fun _ => pure none) 0)
  | d + 1, req => g.draw (d + 1) req (g.build (g.exprAt d) (d + 1))

/-- An expression meeting `req` at the context's depth bound, or none. -/
def expr (g : Generator) (req : Requirement) : RandM (Option Expr) := g.exprAt g.ctx.maxDepth req

end Generator

end TraceSynth
