import TraceSynth.Run.Record

/-!
# Failures of operations

An operation that gives up reports what kind of failure stopped it and a message. Callers that
pass a failure on may put context in front of its message; the kind stays, so a broken
invariant deep inside a search is still reported as one.
-/

namespace TraceSynth

/-- What stopped an operation. -/
inductive FailureKind where
  /-- A candidate program whose text does not read back. -/
  | compile
  /-- Malformed program text. -/
  | malformed
  /-- A broken invariant. -/
  | invariant
  /-- A runtime error. -/
  | runtime (k : RuntimeKind)
  /-- A thrown value. -/
  | thrown
  /-- The budget ran out. -/
  | budget
  /-- Anything else. -/
  | other
  deriving Inhabited

/-- A failure with its message. -/
structure Failure where
  kind : FailureKind
  message : String
  deriving Inhabited

namespace Failure

/-- Put context in front of the message. -/
def wrap (pre : String) (f : Failure) : Failure := { f with message := pre ++ f.message }

/-- A broken invariant. -/
def invariant (msg : String) : Failure :=
  { kind := .invariant, message := "invariant violation: " ++ msg }

/-- Any other failure. -/
def other (msg : String) : Failure := { kind := .other, message := msg }

/-- The failure of a fault. -/
def ofFault (f : Fault) : Failure :=
  let kind := match f with
    | .exhausted => .budget
    | .thrown _ => .thrown
    | .runtime k _ => .runtime k
    | .invariant _ => .invariant
    | .failure _ => .other
  { kind, message := f.message.toStringLossy }

/-- The failure of a compile error. -/
def ofCompile (e : CompileError) : Failure := { kind := .compile, message := e.message }

/-- The failure of a syntax error. -/
def ofSyntax (e : Program.SyntaxError) : Failure := { kind := .malformed, message := e.message }

end Failure

end TraceSynth
