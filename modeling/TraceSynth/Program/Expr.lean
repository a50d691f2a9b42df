import TraceSynth.Value.Convert

/-!
# Expressions of the program language

Programs read arguments and object fields, hold local variables and primitive constants,
combine values with `+` and `==`, negate with `!`, and allocate empty objects and arrays.

Besides the tree itself this module gives the measures and views the synthesis works with:
depth (an argument slot is as deep as its index), structural equality with constants compared
by `sameValue`, prestate paths (an argument under zero or more field reads), the static type a
node certainly has, and the constant index of an argument slot.
-/

namespace TraceSynth

/-- The binary operators. -/
inductive BinaryOp where
  /-- Addition or concatenation. -/
  | add
  /-- Loose equality. -/
  | eq
  deriving DecidableEq, Inhabited, Repr

/-- The written form of an operator. -/
def BinaryOp.symbol : BinaryOp → String
  | .add => "+"
  | .eq => "=="

/-- An expression. -/
inductive Expr where
  /-- The field `name` of `obj`. -/
  | field (obj name : Expr)
  /-- The argument at position `index`. -/
  | argument (index : Expr)
  /-- A local variable. -/
  | var (name : String)
  /-- A primitive constant. -/
  | const (v : Value)
  /-- A binary operation. -/
  | binary (op : BinaryOp) (a b : Expr)
  /-- Logical negation. -/
  | not (e : Expr)
  /-- A fresh empty array (`true`) or object (`false`). -/
  | alloc (array : Bool)
  deriving Inhabited

namespace Expr

/-- The argument slot with a constant position. -/
def arg (i : Nat) : Expr := .argument (.const (.number i.toFloat))

/-- The name of the variable that stores a program's result. -/
def resultName : String := "result"

/-- Depth: 0 for leaves, an argument slot as deep as its index, else one more than the deepest
child. -/
def depth : Expr → Nat
  | .const _ | .var _ | .alloc _ => 0
  | .argument i => depth i
  | .field o n => 1 + max (depth o) (depth n)
  | .binary _ a b => 1 + max (depth a) (depth b)
  | .not e => 1 + depth e

/-- Structural equality, constants compared by `sameValue`. -/
def equiv : Expr → Expr → Bool
  | .field o n, .field o' n' => equiv o o' && equiv n n'
  | .argument i, .argument i' => equiv i i'
  | .var x, .var y => x == y
  | .const v, .const w => v.sameValue w
  | .binary op a b, .binary op' a' b' => op == op' && equiv a a' && equiv b b'
  | .not e, .not e' => equiv e e'
  | .alloc x, .alloc y => x == y
  | _, _ => false

/-- Whether the expression reads the original arguments: an argument slot under zero or more
field reads. -/
def isPrestate : Expr → Bool
  | .argument _ => true
  | .field o _ => isPrestate o
  | _ => false

/-- One field read removed; anything else is its own base. -/
def base : Expr → Expr
  | .field o _ => o
  | e => e

/-- The number of field reads above the innermost non-field expression. -/
def fieldLevel : Expr → Nat
  | .field o _ => fieldLevel o + 1
  | _ => 0

/-- The type an expression certainly has, `""` when unknown. -/
def staticType : Expr → String
  | .const v => v.typeOf
  | .binary .eq _ _ => "boolean"
  | .binary .add _ _ => "number"
  | .not _ => "boolean"
  | .alloc _ => "object"
  | _ => ""

/-- The machine integer of a whole number: its value when below `2^63`, and the least 64-bit
integer for larger ones and for infinity, as an out-of-range conversion gives. -/
def wholeToInt (n : Float) : Int :=
  if n < 9223372036854775808.0 then (n.toUInt64.toNat : Int) else -9223372036854775808

/-- The constant index of an argument slot: a number constant that is a non-negative whole
number. -/
def argIndex? : Expr → Option Int
  | .argument (.const (.number n)) =>
    if n < 0 || !Binary64.isWhole n then none else some (wholeToInt n)
  | _ => none

/-- The direct sub-expressions. -/
def children : Expr → List Expr
  | .field o n => [o, n]
  | .argument i => [i]
  | .binary _ a b => [a, b]
  | .not e => [e]
  | _ => []

/-- The number of nodes. -/
def size : Expr → Nat
  | .field o n => 1 + size o + size n
  | .argument i => 1 + size i
  | .binary _ a b => 1 + size a + size b
  | .not e => 1 + size e
  | _ => 1

@[simp] theorem isPrestate_argument (i : Expr) : isPrestate (.argument i) = true := rfl

@[simp] theorem isPrestate_field (o n : Expr) : isPrestate (.field o n) = isPrestate o := rfl

@[simp] theorem fieldLevel_field (o n : Expr) : fieldLevel (.field o n) = fieldLevel o + 1 := rfl

end Expr

end TraceSynth
