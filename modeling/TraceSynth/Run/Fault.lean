import TraceSynth.Value.Convert

/-!
# Faults

How a run of a function can fail. Running out of budget, a thrown value and an error raised by
the runtime (reading a field of `undefined`, an unknown variable, a bad array length) are the
function's own behaviour and end a trace. A broken invariant and any other failure are not, and
stop whoever asked for the run.
-/

namespace TraceSynth

/-- The errors the runtime raises. -/
inductive RuntimeKind where
  | typeError
  | referenceError
  | rangeError
  deriving DecidableEq, Inhabited, Repr

/-- The name of a runtime error. -/
def RuntimeKind.name : RuntimeKind → String
  | .typeError => "TypeError"
  | .referenceError => "ReferenceError"
  | .rangeError => "RangeError"

/-- A failure of a run. -/
inductive Fault where
  /-- More events or loop iterations than the budget allows. -/
  | exhausted
  /-- A value was thrown. -/
  | thrown (v : Value)
  /-- The runtime refused an operation. -/
  | runtime (kind : RuntimeKind) (msg : Bytes)
  /-- An internal consistency check failed. -/
  | invariant (msg : String)
  /-- Any other failure. -/
  | failure (msg : String)
  deriving Inhabited

namespace Fault

/-- A type error. -/
def typeError (msg : Bytes) : Fault := .runtime .typeError msg

/-- The text of a fault. -/
def message : Fault → Bytes
  | .exhausted => Bytes.ofString "computational budget exhausted"
  | .thrown v => Bytes.ofString ("uncaught exception: " ++ v.render)
  | .runtime k msg => Bytes.ofString (k.name ++ ": ") ++ msg
  | .invariant msg => Bytes.ofString ("invariant violation: " ++ msg)
  | .failure msg => Bytes.ofString msg

/-- The value a trace records for a fault of the function itself: the thrown value, or the
message of a runtime error. -/
def traced? : Fault → Option Value
  | .thrown v => some v
  | .runtime _ msg => some (.string msg)
  | _ => none

/-- Whether the fault is a broken invariant. -/
def isInvariant : Fault → Bool
  | .invariant _ => true
  | _ => false

end Fault

end TraceSynth
