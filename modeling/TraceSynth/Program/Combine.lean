import TraceSynth.Program.Stmt

/-!
# Combining two programs

`combine a b` is `if (true) { a } else { b }` with a shared prefix hoisted out. The prefix is
the longest run of leading declarations `var x = o[f]` of both programs whose field reads are
equal once the variables of `b` declared so far are renamed to those of `a`. Inside the else
branch, each variable of `b` unified under another name is first declared as an alias of it, in
the order of the names.
-/

namespace TraceSynth

namespace Expr

/-- Rename variables by an association list. -/
def rename (m : List (String × String)) : Expr → Expr
  | .var x => .var ((m.lookup x).getD x)
  | .field o n => .field (rename m o) (rename m n)
  | .argument i => .argument (rename m i)
  | .binary op a b => .binary op (rename m a) (rename m b)
  | .not e => .not (rename m e)
  | e => e

end Expr

namespace Program

/-- The statements at the top of a body. -/
def topLevel : Stmt → List Stmt
  | .seq ss => ss
  | s => [s]

/-- The variable and field read of a declaration `var x = o[f]`. -/
def fieldDecl? : Stmt → Option (String × Expr)
  | .assign (.var x) (some (.field o n)) true => some (x, .field o n)
  | _ => none

/-- Set a key of an association list, keeping its place if present. -/
def assocSet (m : List (String × String)) (k v : String) : List (String × String) :=
  if m.any (·.1 == k) then m.map fun (a, b) => if a == k then (a, v) else (a, b)
  else m ++ [(k, v)]

/-- The length of the shared prefix and the renaming of `b`'s variables it builds. -/
def sharedPrefix : List Stmt → List Stmt → Nat → List (String × String) →
    Nat × List (String × String)
  | sa :: ra, sb :: rb, k, m =>
    match fieldDecl? sa, fieldDecl? sb with
    | some (x, fx), some (y, fy) =>
      if fx.equiv (fy.rename m) then sharedPrefix ra rb (k + 1) (assocSet m y x) else (k, m)
    | _, _ => (k, m)
  | _, _, k, m => (k, m)

/-- Insert a pair into a list sorted by key. -/
def insertSorted (p : String × String) : List (String × String) → List (String × String)
  | [] => [p]
  | q :: rest => if p.1 < q.1 then p :: q :: rest else q :: insertSorted p rest

/-- Merge two programs into one conditional over a hoisted common prefix. -/
def combine (a b : Program) : Program :=
  let sa := topLevel a.body
  let sb := topLevel b.body
  let (k, m) := sharedPrefix sa sb 0 []
  let sorted := m.foldl (fun acc p => insertSorted p acc) []
  let aliases := sorted.filterMap fun (src, dst) =>
    if src != dst then some (Stmt.assign (.var src) (some (.var dst)) true) else none
  let cond := Stmt.ite (.const (.bool true)) (.seq (sa.drop k)) (.seq (aliases ++ sb.drop k))
  { body := .seq (sa.take k ++ [cond]) }

/-- Programs combined in order, each into the combination of those before it; the empty program
when there are none. -/
def combineAll : List Program → Program
  | [] => { body := .seq [] }
  | p :: ps => ps.foldl combine p

end Program

end TraceSynth
