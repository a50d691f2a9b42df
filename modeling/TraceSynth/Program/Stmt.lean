import TraceSynth.Program.Expr

/-!
# Statements and programs

A program is a statement, usually a sequence. Sequences are transparent: the statements a
program addresses by number are the others, listed in pre-order, an `if` before its two arms
and a loop before its body.

`replace` rewrites the statement at a pre-order position. The replacement is a statement or
the deletion of the addressed one: a deleted statement disappears from its sequence, and a
deleted arm or body becomes an empty block.
-/

namespace TraceSynth

/-- A statement. -/
inductive Stmt where
  /-- `lhs = rhs`, or a bare `var lhs` when there is no right side; `decl` marks `var`. -/
  | assign (lhs : Expr) (rhs : Option Expr) (decl : Bool)
  /-- Return a value. -/
  | ret (value : Expr)
  /-- Throw a value. -/
  | raise (value : Expr)
  /-- Delete the field `name` of `obj`. -/
  | deleteProp (obj name : Expr)
  /-- Define the field `name` of `obj` as `value`. -/
  | defineProp (obj name value : Expr)
  /-- Run one of two blocks. -/
  | ite (cond : Expr) (thn els : Stmt)
  /-- `for (var v = start; v < stop; v += step) body`. -/
  | loop (v : String) (start stop step : Expr) (body : Stmt)
  /-- Statements in order. -/
  | seq (stmts : List Stmt)
  /-- `result = target.apply(receiver, [args])`, with an undefined receiver when there is
  none; `decl` marks `var`. -/
  | call (result : String) (target : Expr) (args : List Expr) (receiver : Option Expr) (decl : Bool)
  /-- Leave the innermost loop. -/
  | brk
  deriving Inhabited

/-- What `replace` puts at a position. -/
inductive Replacement where
  /-- Delete the statement. -/
  | delete
  /-- Put this statement there. -/
  | put (s : Stmt)
  deriving Inhabited

/-- The statement a replacement leaves at the position (none when deleted). -/
def Replacement.result : Replacement → Option Stmt
  | .delete => none
  | .put s => some s

namespace Stmt

/-- The empty block. -/
def empty : Stmt := .seq []

mutual

/-- The addressable statements in pre-order. -/
def all : Stmt → List Stmt
  | .seq ss => allList ss
  | .ite c t e => .ite c t e :: (all t ++ all e)
  | .loop v a b c body => .loop v a b c body :: all body
  | s => [s]

/-- The addressable statements of a list of statements, in order. -/
def allList : List Stmt → List Stmt
  | [] => []
  | s :: rest => all s ++ allList rest

end

mutual

/-- The number of addressable statements. -/
def count : Stmt → Nat
  | .seq ss => countList ss
  | .ite _ t e => 1 + count t + count e
  | .loop _ _ _ _ body => 1 + count body
  | _ => 1

/-- The number of addressable statements of a list. -/
def countList : List Stmt → Nat
  | [] => 0
  | s :: rest => count s + countList rest

end

/-- A deleted arm or body is an empty block. -/
def orEmpty : Option Stmt → Stmt
  | some s => s
  | none => empty

mutual

/-- Replace the statement at pre-order position `i`; none when the statement itself was
deleted. -/
def replaceAt : Stmt → Nat → Replacement → Option Stmt
  | .seq ss, i, r => some (.seq (replaceList ss i r))
  | .ite c t e, i, r =>
    if i == 0 then r.result
    else if i - 1 < count t then some (.ite c (orEmpty (replaceAt t (i - 1) r)) e)
    else some (.ite c t (orEmpty (replaceAt e (i - 1 - count t) r)))
  | .loop v a b c body, i, r =>
    if i == 0 then r.result else some (.loop v a b c (orEmpty (replaceAt body (i - 1) r)))
  | _, _, r => r.result

/-- Replace within a list of statements at position `i` counted across the list; a deleted
statement is dropped. -/
def replaceList : List Stmt → Nat → Replacement → List Stmt
  | [], _, _ => []
  | s :: rest, i, r =>
    if i < count s then
      (match replaceAt s i r with
       | some s' => [s']
       | none => []) ++ rest
    else s :: replaceList rest (i - count s) r

end

/-- The expressions a statement holds directly. -/
def exprs : Stmt → List Expr
  | .assign lhs none _ => [lhs]
  | .assign lhs (some rhs) _ => [lhs, rhs]
  | .ret e | .raise e => [e]
  | .deleteProp o n => [o, n]
  | .defineProp o n v => [o, n, v]
  | .ite c _ _ => [c]
  | .loop v a b c _ => [.var v, a, b, c]
  | .call res target args recv _ => [.var res, target] ++ recv.toList ++ args
  | _ => []

/-- The number of statement and expression nodes of the addressable statements. -/
def size (s : Stmt) : Nat :=
  (s.all.map fun st => 1 + ((exprs st).map Expr.size).foldr (· + ·) 0).foldr (· + ·) 0

/-- The variables declared, with the pre-order position of their declaration. -/
def declarations (s : Stmt) : List (String × Nat) :=
  (s.all.zipIdx).filterMap fun (st, i) =>
    match st with
    | .assign (.var v) _ true => some (v, i)
    | .call res _ _ _ true => some (res, i)
    | .loop v _ _ _ _ => some (v, i)
    | _ => none

/-- Optional expressions equal when both are absent or both present and equal. -/
def equivOpt : Option Expr → Option Expr → Bool
  | none, none => true
  | some a, some b => a.equiv b
  | _, _ => false

/-- Lists of expressions equal pointwise. -/
def equivExprs : List Expr → List Expr → Bool
  | [], [] => true
  | a :: as, b :: bs => a.equiv b && equivExprs as bs
  | _, _ => false

mutual

/-- Structural equality of statements. -/
def equiv : Stmt → Stmt → Bool
  | .assign l r d, .assign l' r' d' => d == d' && l.equiv l' && equivOpt r r'
  | .ret e, .ret e' => e.equiv e'
  | .raise e, .raise e' => e.equiv e'
  | .deleteProp o n, .deleteProp o' n' => o.equiv o' && n.equiv n'
  | .defineProp o n v, .defineProp o' n' v' => o.equiv o' && n.equiv n' && v.equiv v'
  | .ite c t e, .ite c' t' e' => c.equiv c' && equiv t t' && equiv e e'
  | .loop v a b c body, .loop v' a' b' c' body' =>
    v == v' && a.equiv a' && b.equiv b' && c.equiv c' && equiv body body'
  | .seq ss, .seq ss' => equivList ss ss'
  | .call r t as rc d, .call r' t' as' rc' d' =>
    d == d' && as.length == as'.length && r == r' && t.equiv t' && equivOpt rc rc' &&
      equivExprs as as'
  | .brk, .brk => true
  | _, _ => false

/-- Lists of statements equal pointwise. -/
def equivList : List Stmt → List Stmt → Bool
  | [], [] => true
  | s :: ss, s' :: ss' => equiv s s' && equivList ss ss'
  | _, _ => false

end

/-- The kind of a statement, as listed in program summaries. -/
def kind : Stmt → String
  | .assign _ _ _ => "assign"
  | .ret _ => "return"
  | .raise _ => "throw"
  | .deleteProp _ _ => "delete"
  | .defineProp _ _ _ => "define"
  | .ite _ _ _ => "if"
  | .loop _ _ _ _ _ => "for"
  | .seq _ => "seq"
  | .call _ _ _ _ _ => "call"
  | .brk => "break"

end Stmt

/-- A program: the body of a candidate model of the target function. -/
structure Program where
  body : Stmt
  deriving Inhabited

/-- Why a statement position is refused. -/
structure IndexOutOfRange where
  index : Int
  count : Nat
  deriving Inhabited

/-- The text of an out-of-range position. -/
def IndexOutOfRange.message (e : IndexOutOfRange) : String :=
  "invariant violation: replacement index " ++ toString e.index ++ " out of range [0, " ++
    toString e.count ++ ")"

namespace Program

/-- The number of addressable statements. -/
def numStmts (p : Program) : Nat := p.body.count

/-- The addressable statements in pre-order. -/
def stmts (p : Program) : List Stmt := p.body.all

/-- Replace the statement at pre-order position `i`. -/
def replace (p : Program) (i : Int) (r : Replacement) : Except IndexOutOfRange Program :=
  if i < 0 || i ≥ p.numStmts then .error { index := i, count := p.numStmts }
  else .ok { body := Stmt.orEmpty (p.body.replaceAt i.toNat r) }

/-- The declared variables with their positions. -/
def declarations (p : Program) : List (String × Nat) := p.body.declarations

/-- The number of nodes. -/
def size (p : Program) : Nat := p.body.size

/-- Structural equality. -/
def equiv (p q : Program) : Bool := p.body.equiv q.body

end Program

end TraceSynth
