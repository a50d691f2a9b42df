import TraceSynth.Program.Stmt
import TraceSynth.Text.Quoted

/-!
# Program text

The text form of programs, which the parser reads back into an equal tree. Expressions are
written without outer parentheses; an operand that is itself an operation is parenthesized.
Adding a negative number constant is written as a subtraction. A field whose name is a string
constant that is an ASCII identifier is written with a dot. Blocks indent by two spaces, and an
`if` always has both arms.
-/

namespace TraceSynth

namespace Expr

/-- Whether a byte string is an ASCII identifier: a letter or `_`, then letters, digits or `_`. -/
def isIdentifier (s : Bytes) : Bool :=
  let letter (b : UInt8) := (0x41 ≤ b && b ≤ 0x5A) || (0x61 ≤ b && b ≤ 0x7A) || b == 0x5F
  match s.toList with
  | [] => false
  | b :: rest => letter b && rest.all fun c => letter c || (0x30 ≤ c && c ≤ 0x39)

/-- Whether an expression is parenthesized when something is read from it: operations and
number constants are. -/
def isCompound : Expr → Bool
  | .binary _ _ _ | .not _ | .const (.number _) => true
  | _ => false

/-- The text of an expression; `top` leaves an operation unparenthesized. -/
def write (e : Expr) (top : Bool) : String :=
  match e with
  | .const v => v.render
  | .var name => name
  | .alloc array => if array then "[]" else "\x7b\x7d"
  | .argument index =>
    match (Expr.argument index).argIndex? with
    | some i => "arg" ++ toString i
    | none => "arguments[" ++ write index true ++ "]"
  | .field obj name =>
    let o := if isCompound obj then "(" ++ write obj true ++ ")" else write obj true
    match name with
    | .const (.string s) =>
      if isIdentifier s then o ++ "." ++ s.toStringLossy else o ++ "[" ++ write name true ++ "]"
    | _ => o ++ "[" ++ write name true ++ "]"
  | .binary op a b =>
    let body := match op, b with
      | .add, .const (.number n) =>
        if n < 0 then write a false ++ " - " ++ Value.formatNumber (-n)
        else write a false ++ " + " ++ write b false
      | _, _ => write a false ++ " " ++ op.symbol ++ " " ++ write b false
    if top then body else "(" ++ body ++ ")"
  | .not inner => "!" ++ write inner false

/-- The text of an expression read from: the object of a field or the target of a call. -/
def operand (e : Expr) : String :=
  if isCompound e then "(" ++ write e true ++ ")" else write e true

/-- The text of an expression in statement position. -/
def toText (e : Expr) : String := e.write true

end Expr

namespace Stmt

mutual

/-- The lines of a statement at an indentation. -/
def lines (indent : String) : Stmt → List String
  | .seq ss => linesList indent ss
  | .assign lhs rhs decl =>
    let line := (if decl then "var " else "") ++ lhs.toText
    [indent ++ (match rhs with
      | some r => line ++ " = " ++ r.toText
      | none => line)]
  | .ret e => [indent ++ "return " ++ e.toText]
  | .raise e => [indent ++ "throw " ++ e.toText]
  | .deleteProp o n => [indent ++ "delete " ++ (Expr.field o n).toText]
  | .defineProp o n v =>
    [indent ++ "Object.defineProperty(" ++ o.toText ++ ", " ++ n.toText ++ ", \x7bvalue: " ++
      v.toText ++ "\x7d)"]
  | .ite c t e =>
    [indent ++ "if (" ++ c.toText ++ ") \x7b"] ++ lines (indent ++ "  ") t ++
      [indent ++ "\x7d else \x7b"] ++ lines (indent ++ "  ") e ++ [indent ++ "\x7d"]
  | .loop v a b c body =>
    [indent ++ "for (var " ++ v ++ " = " ++ a.toText ++ "; " ++ v ++ " < " ++ b.toText ++ "; " ++
      v ++ " += " ++ c.toText ++ ") \x7b"] ++ lines (indent ++ "  ") body ++ [indent ++ "\x7d"]
  | .call res target args recv decl =>
    let r := match recv with
      | some e => e.toText
      | none => "global"
    [indent ++ (if decl then "var " else "") ++ res ++ " = " ++ target.operand ++ ".apply(" ++ r ++
      ", [" ++ ", ".intercalate (args.map Expr.toText) ++ "])"]
  | .brk => [indent ++ "break"]

/-- The lines of a list of statements at an indentation, one statement after another. -/
def linesList (indent : String) : List Stmt → List String
  | [] => []
  | s :: rest => lines indent s ++ linesList indent rest

end

/-- The text of a statement. -/
def toText (s : Stmt) : String := "\n".intercalate (s.lines "")

end Stmt

/-- The text of a program; one without statements is a comment saying so. -/
def Program.toText (p : Program) : String :=
  if p.numStmts == 0 then "// <empty program>" else p.body.toText

end TraceSynth
