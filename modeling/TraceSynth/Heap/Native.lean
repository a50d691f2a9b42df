/-!
# Native functions

The functions a heap may hold. Each is known by its name; what it does is given by
`Native.invoke` against a host.
-/

namespace TraceSynth

/-- A native function. -/
inductive Native where
  /-- Adds its first argument to itself. -/
  | double
  /-- Returns its first argument. -/
  | identity
  /-- Returns its receiver. -/
  | this
  /-- Throws its first argument. -/
  | throw
  /-- Reads the length of its first argument. -/
  | getLength
  /-- Allocates an object holding its first argument under `v`. -/
  | allocate
  /-- Sets `x` of its first argument to 1. -/
  | setX
  /-- Describes the type of its first argument. -/
  | typeName
  /-- Calls its first argument on its receiver with its second argument. -/
  | callWith
  /-- Fails with a broken invariant. -/
  | brokenInvariant
  /-- Fails with an error that is no fault of the observed function. -/
  | plainFailure
  /-- Returns its first argument when that is the number 1, and fails otherwise. -/
  | picky
  deriving DecidableEq, Inhabited, Repr

namespace Native

/-- Every native function. -/
def all : List Native :=
  [.double, .identity, .this, .throw, .getLength, .allocate, .setX, .typeName, .callWith,
    .brokenInvariant, .plainFailure, .picky]

/-- The name a native function is known by. -/
def name : Native → String
  | .double => "double"
  | .identity => "identity"
  | .this => "this"
  | .throw => "throw"
  | .getLength => "getlen"
  | .allocate => "alloc"
  | .setX => "setx"
  | .typeName => "typeof"
  | .callWith => "call0"
  | .brokenInvariant => "invariant"
  | .plainFailure => "plainerr"
  | .picky => "picky"

/-- The native function of a name. -/
def ofName? (s : String) : Option Native := all.find? (·.name == s)

end Native

end TraceSynth
