import TraceSynth.Settings.Layers
import TraceSynth.Search.Config

/-!
# Decoding settings into search settings

A table of settings is decoded field by field into search settings, in the order of the
fields, each field named by its snake-case key. Decoding is lenient: a boolean is 1 or 0, a
float is cut toward zero for an integer field, a number becomes its text for a text field, and
a text is read as a number literal, the empty text as zero. Keys that name no field are
ignored. Every field that cannot be decoded is reported, one line each, after a heading.
-/

namespace TraceSynth

namespace SearchConfig

/-- The type of a field of the search settings. -/
inductive FieldType where
  | int
  | int64
  | float
  | text
  deriving Inhabited, BEq

/-- The name of a field type, as messages give it. -/
def FieldType.name : FieldType → String
  | .int => "int"
  | .int64 => "int64"
  | .float => "float64"
  | .text => "string"

/-- The fields of the search settings, in order, with their types. -/
def fields : List (String × FieldType) :=
  [("iterations", .int), ("cleanup_iterations", .int), ("beta", .float), ("seed", .int64),
   ("gold_budget", .int), ("parallelism", .int), ("max_inputs", .int), ("input_rounds", .int),
   ("cleanup_inputs", .int), ("shorten_tries", .int), ("inference", .text)]

/-- Decode one value for a field of a type. -/
def decodeField (name : String) (t : FieldType) (v : SettingValue) : Except String Setting :=
  let unconvertible : Except String Setting :=
    .error ("'" ++ name ++ "' expected type '" ++ t.name ++ "', got unconvertible type '" ++
      v.kindName ++ "', value: '" ++ v.plain ++ "'")
  match t, v with
  | .text, .str s => .ok (.text s)
  | .text, .bool b => .ok (.text (if b then "1" else "0"))
  | .text, .int n => .ok (.text (toString n))
  | .text, .float x => .ok (.text (SettingValue.positional x))
  | .float, .float x => .ok (.float x)
  | .float, .int n => .ok (.float (Float.ofInt n))
  | .float, .bool b => .ok (.float (if b then 1 else 0))
  | .float, .str s =>
    match Cli.readFloat (if s.isEmpty then "0" else s) with
    | .ok x => .ok (.float x)
    | .error e => .error ("cannot parse '" ++ name ++ "' as float: " ++ e)
  | _, .int n => .ok (.int (SettingValue.wrap64 n))
  | _, .float x => .ok (.int (SettingValue.truncate x))
  | _, .bool b => .ok (.int (if b then 1 else 0))
  | _, .str s =>
    match Cli.readInt (if s.isEmpty then "0" else s) with
    | .ok n => .ok (.int n)
    | .error e => .error ("cannot parse '" ++ name ++ "' as int: " ++ e)
  | _, _ => unconvertible

/-- Decode a table of settings over search settings. -/
def decode (c : SearchConfig) (entries : List (String × SettingValue)) :
    Except String SearchConfig :=
  let (c, errors) := fields.foldl (fun (c, errors) (name, t) =>
    match entries.find? (·.1 == name) with
    | none => (c, errors)
    | some (_, v) =>
      match decodeField name t v with
      | .ok s => (c.set name s, errors)
      | .error e => (c, errors ++ [e])) (c, [])
  if errors.isEmpty then .ok c
  else .error ("decoding failed due to the following error(s):\n\n" ++ "\n".intercalate errors)

end SearchConfig

end TraceSynth
