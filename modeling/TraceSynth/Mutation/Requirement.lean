import TraceSynth.Program.Stmt

/-!
# What a mutation site asks of an expression

A requirement is a set of flags. The type flags (number, boolean, string) are alternatives,
and an expression whose type is not known statically passes them. The other flags ask for a
possible reference (not a primitive of another type, and not `null`), an assignable place, a
possible property name, or anything but a literal. Every requirement bounds the depth.

A program is mutable when some statement has a strategy that can change it: every statement
but `break`, an assignment of a fresh object or array to a variable, an assignment of a variable
to a variable other than the result, and a call without arguments or receiver.
-/

namespace TraceSynth

/-- Flags restricting the expressions generated at a site. -/
structure Requirement where
  mask : Nat
  deriving DecidableEq, Inhabited

namespace Requirement

/-- A number. -/
def number : Requirement := ⟨1⟩
/-- A boolean. -/
def boolean : Requirement := ⟨2⟩
/-- A string. -/
def string : Requirement := ⟨4⟩
/-- Something that can hold a reference. -/
def object : Requirement := ⟨8⟩
/-- A variable, field or argument slot. -/
def place : Requirement := ⟨16⟩
/-- Usable as a property name. -/
def key : Requirement := ⟨32⟩
/-- Not a literal. -/
def noConst : Requirement := ⟨64⟩

/-- No restriction. -/
def none : Requirement := ⟨0⟩

instance : OrOp Requirement := ⟨fun a b => ⟨a.mask ||| b.mask⟩⟩

/-- Whether every flag of `flag` is set. -/
def has (r flag : Requirement) : Bool := r.mask &&& flag.mask == flag.mask

/-- Whether any type flag is set. -/
def hasType (r : Requirement) : Bool := r.mask &&& 7 != 0

end Requirement

namespace Expr

/-- Whether an expression meets a requirement within a depth bound. -/
def satisfies (e : Expr) (r : Requirement) (depth : Int) : Bool :=
  let t := e.staticType
  let isConst := match e with
    | .const _ => true
    | _ => false
  let isPlace := match e with
    | .var _ | .field _ _ | .argument _ => true
    | _ => false
  let isNull := match e with
    | .const .null => true
    | _ => false
  (e.depth : Int) ≤ depth &&
    !(r.has .noConst && isConst) &&
    !(r.has .place && !isPlace) &&
    !(r.has .object && ((t != "" && t != "object") || isNull)) &&
    !(r.has .key && t != "" && t != "number" && t != "string") &&
    !(r.hasType && t != "" &&
      !((r.has .number && t == "number") || (r.has .boolean && t == "boolean") ||
        (r.has .string && t == "string")))

end Expr

namespace Stmt

/-- Whether some strategy can change this statement. -/
def isMutable : Stmt → Bool
  | .brk => false
  | .assign (.field _ _) _ _ => true
  | .assign _ (some (.alloc _)) _ => false
  | .assign lhs (some (.var _)) _ =>
    match lhs with
    | .var name => name == Expr.resultName
    | _ => false
  | .assign _ _ _ => true
  | .call _ _ args recv _ => !args.isEmpty || recv.isSome
  | _ => true

end Stmt

/-- Whether some statement of the program can be changed by a strategy. -/
def Program.mutable (p : Program) : Bool := p.stmts.any Stmt.isMutable

end TraceSynth
