import TraceSynth.Text.Bytes

/-!
# Values

A value is a primitive (undefined, null, a boolean, a binary64 number or a byte string) or a
reference to a heap object. References are numbered from 1 in allocation order; reference 0
names no object.

Two equalities are used: `strictEquals`, under which NaN differs from itself and the two
zeros are equal, and `sameValue`, which also makes NaN equal to NaN.
-/

namespace TraceSynth

/-- A primitive or a reference into a heap. -/
inductive Value where
  /-- The undefined value. -/
  | undefined
  /-- The null value. -/
  | null
  /-- A boolean. -/
  | bool (b : Bool)
  /-- A binary64 number. -/
  | number (n : Float)
  /-- A byte string. -/
  | string (s : Bytes)
  /-- A reference to the heap object numbered `id`. -/
  | ref (id : Nat)
  deriving Inhabited

namespace Value

/-- The string value of a text. -/
def str (s : String) : Value := .string (Bytes.ofString s)

/-- The number value of a natural number. -/
def nat (n : Nat) : Value := .number n.toFloat

/-- Whether the value is no reference. -/
def isPrimitive : Value → Bool
  | .ref _ => false
  | _ => true

/-- Whether the value is null or undefined. -/
def isNullish : Value → Bool
  | .undefined | .null => true
  | _ => false

/-- Whether the value is a number. -/
def isNumber : Value → Bool
  | .number _ => true
  | _ => false

/-- Whether the value is a string. -/
def isString : Value → Bool
  | .string _ => true
  | _ => false

/-- Whether the value is a reference. -/
def isRef : Value → Bool
  | .ref _ => true
  | _ => false

/-- Equality of values of one kind: NaN differs from itself and `0 = -0`; references are equal
when they name the same object. -/
def strictEquals : Value → Value → Bool
  | .undefined, .undefined | .null, .null => true
  | .bool a, .bool b => a == b
  | .number a, .number b => a == b
  | .string a, .string b => a == b
  | .ref a, .ref b => a == b
  | _, _ => false

/-- Whether a float is NaN. -/
def isNaN (x : Float) : Bool := x != x

/-- `strictEquals`, except that NaN equals NaN. -/
def sameValue : Value → Value → Bool
  | .number a, .number b => (isNaN a && isNaN b) || a == b
  | a, b => strictEquals a b

/-- The truth of a value: false for undefined, null, false, zero, NaN and the empty string. -/
def truthy : Value → Bool
  | .bool b => b
  | .number n => n != 0 && !isNaN n
  | .string s => s != Bytes.empty
  | .ref _ => true
  | _ => false

/-- The type name of a value; null and every reference are objects. -/
def typeOf : Value → String
  | .undefined => "undefined"
  | .null => "object"
  | .bool _ => "boolean"
  | .number _ => "number"
  | .string _ => "string"
  | .ref _ => "object"

/-- The argument at a position, undefined past the end. -/
def arg (args : List Value) (i : Nat) : Value := args.getD i .undefined

@[simp] theorem sameValue_string (a b : Bytes) :
    sameValue (.string a) (.string b) = (a == b) := rfl

@[simp] theorem truthy_bool (b : Bool) : truthy (.bool b) = b := rfl

end Value

end TraceSynth
