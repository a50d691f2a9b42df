import TraceSynth.Value.Basic
import TraceSynth.Text.Quoted
import TraceSynth.Text.Letter
import TraceSynth.Decimal.Format
import TraceSynth.Decimal.Read

/-!
# Conversions between values

The numeric, string and key conversions of primitives, and the operators built on them.

* A number's text is `NaN`, `Infinity`, `-Infinity`, `0` for either zero, and otherwise its
  shortest digits in the general style (`1e+06`, `0.0001`, `1.5e-07`).
* A string's number ignores surrounding white space; the empty string is 0; `Infinity`,
  `+Infinity` and `-Infinity` are the infinities; any other text is read as a float literal
  (`inf`, `nan`, hexadecimal and underscores included), NaN when it is none or out of range.
* An array index is a key of at most ten bytes, without a leading zero unless it is `0`, that
  reads as a non-negative decimal integer (a sign is allowed, so `+1` and `-0` are indices).
-/

namespace TraceSynth

namespace Value

/-- The text of a number. -/
def formatNumber (n : Float) : String :=
  if isNaN n then "NaN"
  else if n == Binary64.infinity false then "Infinity"
  else if n == Binary64.infinity true then "-Infinity"
  else if n == 0 then "0"
  else Binary64.writeFinite .general n

/-- Whether a unit of a string is white space. -/
def isSpacePiece : Piece → Bool
  | .char c => Unicode.isSpace c.toNat
  | .stray _ => false

/-- The bytes of a list of units. -/
def piecesBytes (ps : List Piece) : List UInt8 :=
  ps.flatMap fun | .char c => Utf8.encode c.toNat | .stray b => [b]

/-- A byte string without its leading and trailing white space. -/
def trimSpace (s : Bytes) : Bytes :=
  let ps := s.pieces.dropWhile isSpacePiece
  let ps := (ps.reverse.dropWhile isSpacePiece).reverse
  ⟨piecesBytes ps⟩

/-- The number a string denotes. -/
def stringToNumber (s : Bytes) : Float :=
  let t := trimSpace s
  if t == Bytes.empty then 0
  else if t == Bytes.ofString "Infinity" || t == Bytes.ofString "+Infinity" then
    Binary64.infinity false
  else if t == Bytes.ofString "-Infinity" then Binary64.infinity true
  else
    match Reading.float t.toList with
    | .ok x => x
    | .error _ => 0.0 / 0.0

/-- The number of a value: 0 for null, 0 or 1 for booleans, NaN for undefined and references. -/
def toNumber : Value → Float
  | .null => 0
  | .bool b => if b then 1 else 0
  | .number n => n
  | .string s => stringToNumber s
  | _ => 0.0 / 0.0

/-- The string of a value; every reference is `[object Object]`. -/
def toBytes : Value → Bytes
  | .undefined => "undefined"
  | .null => "null"
  | .bool b => if b then "true" else "false"
  | .number n => Bytes.ofString (formatNumber n)
  | .string s => s
  | .ref _ => "[object Object]"

/-- The literal text of a value: strings quoted, references as `#id`. -/
def render : Value → String
  | .string s => Quoted.quote s
  | .ref id => "#" ++ toString id
  | v => v.toBytes.toStringLossy

/-- The property key a value names. -/
def propertyKey (v : Value) : Bytes := v.toBytes

/-- The index an array key names, if it names one. -/
def arrayIndex (key : Bytes) : Option Nat :=
  let bs := key.toList
  if bs.isEmpty || bs.length > 10 then none
  else if key != Bytes.ofString "0" && bs.head? == some 0x30 then none
  else
    let (neg, digits) := match bs with
      | c :: rest => if c == 0x2B then (false, rest) else if c == 0x2D then (true, rest)
        else (false, bs)
      | [] => (false, bs)
    if digits.isEmpty || !digits.all Reading.isDigit then none
    else
      let n := digits.foldl (fun acc c => acc * 10 + (c.toNat - 0x30)) 0
      if neg && n != 0 then none else some n

/-- A length-like value as a count: 0 for NaN and non-positive numbers, at most `2^31`, and
otherwise the integer part. -/
def toLength (v : Value) : Nat :=
  let n := v.toNumber
  if isNaN n || n ≤ 0 then 0
  else if n > 2147483648 then 2147483648
  else n.toUInt64.toNat

/-- Loose equality: strict within a kind; null and undefined equal each other; otherwise a
nullish value or a reference equals nothing, and the rest compare as numbers. -/
def looseEquals (a b : Value) : Bool :=
  match a, b with
  | .undefined, .undefined | .null, .null | .bool _, .bool _ | .number _, .number _
  | .string _, .string _ | .ref _, .ref _ => strictEquals a b
  | _, _ =>
    if a.isNullish && b.isNullish then true
    else if a.isNullish || b.isNullish || a.isRef || b.isRef then false
    else a.toNumber == b.toNumber

/-- Addition: strings join when either side is a string or a reference, otherwise the numbers
add. -/
def add (a b : Value) : Value :=
  if a.isString || b.isString || a.isRef || b.isRef then .string (a.toBytes ++ b.toBytes)
  else .number (a.toNumber + b.toNumber)

/-- Order: two strings compare byte by byte, anything else as numbers. -/
def less : Value → Value → Bool
  | .string a, .string b => decide (a < b)
  | a, b => a.toNumber < b.toNumber

end Value

end TraceSynth
