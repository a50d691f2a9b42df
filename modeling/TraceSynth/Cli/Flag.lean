import TraceSynth.Decimal.Read
import TraceSynth.Decimal.Format
import TraceSynth.Text.Quoted
import TraceSynth.Time.Duration

/-!
# Command-line flags

A flag has a long name, perhaps a one-letter short name, a kind, a default and a line of help.
A value given for a flag is checked against its kind and kept in its canonical text: integers
in decimal, floats as their shortest general text, switches as `true` or `false`, durations in
hours, minutes and seconds. A text-list flag collects every value given, in order.

Numbers are read like integer and float literals of the usual programming-language grammar:
integers in any base their prefix names (`0x`, `0o`, `0b`, a leading `0` for octal) within 64
bits, floats in decimal or hexadecimal, underscores only between digits.

The usage table lists the flags sorted by name, with the names and placeholders in one column
and the help, followed by the default unless it is the kind's zero value, in the next.
-/

namespace TraceSynth

namespace Cli

/-- The kind of value a flag takes. -/
inductive FlagKind where
  | text
  | int
  | int64
  | float
  /-- A switch: given alone it means `true`. -/
  | bool
  | duration
  /-- Texts collected from every use of the flag. -/
  | texts
  deriving Inhabited, BEq

namespace FlagKind

/-- The placeholder shown after the flag's name in usage text; a switch has none. -/
def placeholder : FlagKind → String
  | .text => "string"
  | .int | .int64 => "int"
  | .float => "float"
  | .bool => ""
  | .duration => "duration"
  | .texts => "stringArray"

/-- Whether a default text is the kind's zero value, which usage text leaves out. -/
def isZero (k : FlagKind) (d : String) : Bool :=
  match k with
  | .bool => d == "false"
  | .duration => d == "0" || d == "0s"
  | .int | .int64 | .float => d == "0"
  | .text => d == ""
  | .texts => d == "[]"

/-- Whether the kind is an integer. -/
def isInteger (k : FlagKind) : Bool := k == .int || k == .int64

end FlagKind

/-- Read a 64-bit integer literal in the base its prefix names. -/
def readInt (s : String) : Except String Int :=
  (Reading.signed (Bytes.ofString s).toList 0 64).mapError (·.message "ParseInt" s)

/-- Read a float literal. -/
def readFloat (s : String) : Except String Float :=
  (Reading.float (Bytes.ofString s).toList).mapError (·.message "ParseFloat" s)

/-- Read a truth value: `1`, `t`, `T`, `TRUE`, `true`, `True` and their opposites. -/
def readBool (s : String) : Except String Bool :=
  if ["1", "t", "T", "TRUE", "true", "True"].contains s then .ok true
  else if ["0", "f", "F", "FALSE", "false", "False"].contains s then .ok false
  else
    .error ("strconv.ParseBool: parsing " ++ Quoted.quote (Bytes.ofString s) ++ ": invalid syntax")

/-- The canonical text of a value given for a flag of a kind, or why it is refused. -/
def FlagKind.read (k : FlagKind) (s : String) : Except String String :=
  match k with
  | .text | .texts => .ok s
  | .int | .int64 => (readInt s).map toString
  | .float => (readFloat s).map Binary64.general
  | .bool => (readBool s).map fun b => if b then "true" else "false"
  | .duration => ((Duration.parse s).map Duration.text).mapError Duration.ParseError.message

/-- A flag. -/
structure Flag where
  name : String
  short : Option Char := none
  kind : FlagKind
  /-- The canonical text of the default. -/
  default : String
  usage : String
  deriving Inhabited

namespace Flag

/-- A switch, off unless given. -/
def switch (name : String) (short : Option Char) (usage : String) : Flag :=
  { name, short, kind := .bool, default := "false", usage }

/-- The name column of the flag's usage line. -/
def head (f : Flag) : String :=
  (match f.short with
   | some c => "  -" ++ c.toString ++ ", --" ++ f.name
   | none => "      --" ++ f.name) ++
  (if f.kind.placeholder.isEmpty then "" else " " ++ f.kind.placeholder)

/-- The help column of the flag's usage line. -/
def note (f : Flag) : String :=
  f.usage ++
    (if f.kind.isZero f.default then ""
     else if f.kind == .text then " (default " ++ Quoted.quote (Bytes.ofString f.default) ++ ")"
     else " (default " ++ f.default ++ ")")

/-- The name by which errors about the flag name it. -/
def label (f : Flag) : String :=
  match f.short with
  | some c => "-" ++ c.toString ++ ", --" ++ f.name
  | none => "--" ++ f.name

end Flag

/-- Flags in order of their names. -/
def sortFlags (flags : List Flag) : List Flag :=
  flags.mergeSort fun a b => !(b.name < a.name)

/-- The usage table of some flags, without a final line break. -/
def flagTable (flags : List Flag) : String :=
  let sorted := sortFlags flags
  let width := (sorted.map fun f => f.head.utf8ByteSize).foldl max 0 + 1
  let lines := sorted.map fun f =>
    f.head ++ " " ++ String.ofList (List.replicate (width - f.head.utf8ByteSize) ' ') ++ " " ++
      f.note
  (String.intercalate "\n" lines).trimAsciiEnd.toString

end Cli

end TraceSynth
