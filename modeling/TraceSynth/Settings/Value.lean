import TraceSynth.Decimal.Format

/-!
# Setting values

A settings file holds a tree of values: scalars, dates and times, lists and tables of named
values. Table keys are compared without regard to ASCII case, so a loaded tree has the keys of
its tables in lower case (tables inside lists keep theirs); a key given twice keeps its last
value.

A value also has a plain text form, used in messages: lists as `[a b]`, tables as
`map[k:v ...]` with their keys sorted, absence as `<nil>`.
-/

namespace TraceSynth

/-- The kinds of dates and times a settings file holds. -/
inductive MomentKind where
  /-- A date and time in a zone. -/
  | instant
  /-- A date without a time of day or a zone. -/
  | localDate
  /-- A time of day without a date or a zone. -/
  | localTime
  /-- A date and time of day without a zone. -/
  | localDateTime
  deriving Inhabited, BEq

/-- The name of the type of a kind of date or time, as messages give it. -/
def MomentKind.typeName : MomentKind → String
  | .instant => "time.Time"
  | .localDate => "toml.LocalDate"
  | .localTime => "toml.LocalTime"
  | .localDateTime => "toml.LocalDateTime"

/-- A value of a settings tree. -/
inductive SettingValue where
  | null
  | bool (b : Bool)
  /-- An integer: signed, or unsigned up to `2 ^ 64 - 1`. -/
  | int (n : Int)
  | float (x : Float)
  | str (s : String)
  /-- A date or time, with the text it shows as. -/
  | moment (kind : MomentKind) (shown : String)
  | list (items : List SettingValue)
  | table (entries : List (String × SettingValue))
  deriving Inhabited

namespace SettingValue

/-- Set a key of a table's entries, replacing an earlier value of the same key in place. -/
def setEntry (entries : List (String × SettingValue)) (k : String) (v : SettingValue) :
    List (String × SettingValue) :=
  if entries.any (·.1 == k) then entries.map fun (k', v') => if k' == k then (k', v) else (k', v')
  else entries ++ [(k, v)]

mutual

/-- The value with the keys of its tables in lower case; tables inside lists are kept. -/
def lowerKeys : SettingValue → SettingValue
  | .table entries => .table (lowerEntries entries)
  | v => v

/-- Entries with their keys in lower case, a repeated key keeping its last value. -/
def lowerEntries : List (String × SettingValue) → List (String × SettingValue)
  | [] => []
  | (k, v) :: rest =>
    let tail := lowerEntries rest
    let k := k.map Char.toLower
    if tail.any (·.1 == k) then tail else (k, lowerKeys v) :: tail

end

/-- The value of a key of a table. -/
def get? (v : SettingValue) (k : String) : Option SettingValue :=
  match v with
  | .table entries => (entries.find? (·.1 == k)).map (·.2)
  | _ => none

/-- Whether the value is a table. -/
def isTable : SettingValue → Bool
  | .table _ => true
  | _ => false

/-- The name of the kind of a value, as messages give it. -/
def kindName : SettingValue → String
  | .null => "<nil>"
  | .bool _ => "bool"
  | .int _ => "int"
  | .float _ => "float64"
  | .str _ => "string"
  | .moment k _ => k.typeName
  | .list _ => "[]interface \x7b\x7d"
  | .table _ => "map[string]interface \x7b\x7d"

mutual

/-- The plain text of a value. -/
def plain : SettingValue → String
  | .null => "<nil>"
  | .bool b => if b then "true" else "false"
  | .int n => toString n
  | .float x => Binary64.general x
  | .str s => s
  | .moment _ shown => shown
  | .list items => "[" ++ " ".intercalate (plainItems items) ++ "]"
  | .table entries =>
    "map[" ++ " ".intercalate ((plainEntries entries).mergeSort fun a b => !(b < a)) ++ "]"

/-- The plain texts of items. -/
def plainItems : List SettingValue → List String
  | [] => []
  | v :: rest => plain v :: plainItems rest

/-- The plain texts of entries, `key:value` each. -/
def plainEntries : List (String × SettingValue) → List String
  | [] => []
  | (k, v) :: rest => (k ++ ":" ++ plain v) :: plainEntries rest

end

end SettingValue

end TraceSynth
