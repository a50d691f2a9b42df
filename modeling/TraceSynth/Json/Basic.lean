import TraceSynth.Decimal.Format
import TraceSynth.Text.Bytes

/-!
# JSON documents

A JSON document with its members in a chosen order, and its text. Numbers are binary64 values
written with their shortest digits: positionally for magnitudes in `[1e-6, 1e21)`, else in
exponent form (`1e+21`, `1e-7`). Strings escape the quote, the backslash and control
characters (newline, return, tab, backspace and form feed by their letters); with HTML escaping on, also `<`, `>` and `&`; U+2028 and U+2029 are always escaped.

`write` gives the compact text; `writeIndented` puts each member on its own line, indented by a
given unit per level, an empty array or object staying `[]` or `{}`.
-/

namespace TraceSynth

/-- A JSON document. -/
inductive Json where
  /-- `null`. -/
  | null
  /-- `true` or `false`. -/
  | bool (b : Bool)
  /-- A finite binary64 number. -/
  | number (x : Float)
  /-- An integer, written in decimal. -/
  | int (n : Int)
  /-- A string. -/
  | string (s : String)
  /-- An array. -/
  | array (items : List Json)
  /-- An object, members in the order given. -/
  | object (members : List (String × Json))
  deriving Inhabited

namespace Json

/-- The four hexadecimal digits of a code unit below U+10000. -/
def hex4 (n : Nat) : String :=
  String.ofList ((List.range 4).reverse.map fun i => Bytes.hexDigit (n / 16 ^ i % 16))

/-- The escaped form of one character of a string. -/
def escapeChar (html : Bool) (c : Char) : String :=
  if c == '"' then "\\\"" else if c == '\\' then "\\\\"
  else if c == '\n' then "\\n" else if c == '\r' then "\\r" else if c == '\t' then "\\t"
  else if c == '\x08' then "\\b" else if c == '\x0c' then "\\f"
  else if c.toNat < 0x20 then "\\u" ++ hex4 c.toNat
  else if html && (c == '<' || c == '>' || c == '&') then "\\u" ++ hex4 c.toNat
  else if c.toNat == 0x2028 || c.toNat == 0x2029 then "\\u" ++ hex4 c.toNat
  else c.toString

/-- A string as a JSON string literal. -/
def quote (html : Bool) (s : String) : String :=
  "\"" ++ String.join (s.toList.map (escapeChar html)) ++ "\""

/-- The text of a number. -/
def writeNumber (x : Float) : String := Binary64.writeFinite .json x

mutual
/-- The compact text of a document. -/
def write (html : Bool) : Json → String
  | .null => "null"
  | .bool b => if b then "true" else "false"
  | .number x => writeNumber x
  | .int n => toString n
  | .string s => quote html s
  | .array items => "[" ++ writeItems html items ++ "]"
  | .object members => "\x7b" ++ writeMembers html members ++ "\x7d"

/-- The items of an array, comma separated. -/
def writeItems (html : Bool) : List Json → String
  | [] => ""
  | [j] => write html j
  | j :: rest => write html j ++ "," ++ writeItems html rest

/-- The members of an object, comma separated. -/
def writeMembers (html : Bool) : List (String × Json) → String
  | [] => ""
  | [(k, j)] => quote html k ++ ":" ++ write html j
  | (k, j) :: rest => quote html k ++ ":" ++ write html j ++ "," ++ writeMembers html rest
end

mutual
/-- The indented text of a document whose first line stands at indentation `pre`. -/
def writeIndented (html : Bool) (unit pre : String) : Json → String
  | .array [] => "[]"
  | .object [] => "\x7b\x7d"
  | .array items => "[\n" ++ indentedItems html unit (pre ++ unit) items ++ "\n" ++ pre ++ "]"
  | .object members =>
    "\x7b\n" ++ indentedMembers html unit (pre ++ unit) members ++ "\n" ++ pre ++ "\x7d"
  | j => write html j

/-- Array items on lines of their own. -/
def indentedItems (html : Bool) (unit pre : String) : List Json → String
  | [] => ""
  | [j] => pre ++ writeIndented html unit pre j
  | j :: rest => pre ++ writeIndented html unit pre j ++ ",\n" ++ indentedItems html unit pre rest

/-- Object members on lines of their own. -/
def indentedMembers (html : Bool) (unit pre : String) : List (String × Json) → String
  | [] => ""
  | [(k, j)] => pre ++ quote html k ++ ": " ++ writeIndented html unit pre j
  | (k, j) :: rest =>
    pre ++ quote html k ++ ": " ++ writeIndented html unit pre j ++ ",\n" ++
      indentedMembers html unit pre rest
end

end Json

end TraceSynth
