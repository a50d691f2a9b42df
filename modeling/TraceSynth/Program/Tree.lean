import TraceSynth.Program.Stmt
import TraceSynth.Json.Basic

/-!
# Programs as JSON trees

A program written as the JSON object of its syntax tree, one object a node with a member a
part, named by its role and in a fixed order: a field is `Obj` and `Name`, an operation `Op`
and its operands, an assignment `LHS`, `RHS` and `Decl`, a call `Result`, `Target`, `Args`,
`Receiver` and `Decl`, and so on. A constant shows no part of its value (`{"Value":{}}`); a
missing part (the right side of a bare declaration, the receiver of a call with an undefined
receiver) is `null`, and so is an empty list of statements or arguments, as a parsed tree
never holds an empty list otherwise.
-/

namespace TraceSynth

namespace Expr

/-- The JSON tree of an expression. -/
def treeJson : Expr → Json
  | .field o n => .object [("Obj", treeJson o), ("Name", treeJson n)]
  | .argument i => .object [("Index", treeJson i)]
  | .var name => .object [("Name", .string name)]
  | .const _ => .object [("Value", .object [])]
  | .binary op a b => .object [("Op", .string op.symbol), ("A", treeJson a), ("B", treeJson b)]
  | .not e => .object [("Op", .string "!"), ("E", treeJson e)]
  | .alloc array => .object [("Array", .bool array)]

end Expr

/-- A list of nodes as JSON: `null` when empty. -/
def Json.nodes (items : List Json) : Json := if items.isEmpty then .null else .array items

namespace Stmt

/-- The JSON tree of a statement. -/
def treeJson : Stmt → Json
  | .assign lhs rhs decl =>
    .object [("LHS", lhs.treeJson), ("RHS", (rhs.map Expr.treeJson).getD .null),
      ("Decl", .bool decl)]
  | .ret e => .object [("Value", e.treeJson)]
  | .raise e => .object [("Value", e.treeJson)]
  | .deleteProp o n => .object [("Obj", o.treeJson), ("Name", n.treeJson)]
  | .defineProp o n v => .object [("Obj", o.treeJson), ("Name", n.treeJson), ("Value", v.treeJson)]
  | .ite c t e => .object [("Cond", c.treeJson), ("Then", treeJson t), ("Else", treeJson e)]
  | .loop v a b c body =>
    .object [("Start", a.treeJson), ("End", b.treeJson), ("Step", c.treeJson),
      ("Body", treeJson body), ("Var", .object [("Name", .string v)])]
  | .seq ss => .object [("Stmts", Json.nodes (ss.map treeJson))]
  | .call res target args recv decl =>
    .object [("Result", .object [("Name", .string res)]), ("Target", target.treeJson),
      ("Args", Json.nodes (args.map Expr.treeJson)),
      ("Receiver", (recv.map Expr.treeJson).getD .null), ("Decl", .bool decl)]
  | .brk => .object []

end Stmt

/-- The JSON tree of a program: its body. -/
def Program.treeJson (p : Program) : Json := .object [("Body", p.body.treeJson)]

end TraceSynth
