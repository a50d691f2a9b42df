import TraceSynth.Settings.Value
import TraceSynth.Toml.Reader
import TraceSynth.Toml.Seen
import TraceSynth.Toml.Scalar

/-!
# TOML settings files

A TOML document becomes a table of settings expression by expression. Each expression is first
checked against the keys defined before it, then its values are decoded, then it is applied:
a pair sets a key of the current table, a `[table]` header makes its table the current one,
and an `[[array]]` header appends a new table to its array and makes that the current one.
Along a header's path, an array of tables stands for its last table.

The first refusal, of the reader, of the check or of decoding, is the document's; a fault the
reader meets is reported only once the expressions before it have been applied.
-/

namespace TraceSynth

namespace Toml

/-- The entries of a table of settings. -/
abbrev Entries := List (String × SettingValue)

/-- The setting of a decoded number, date or time. -/
def Scalar.setting : Scalar → SettingValue
  | .integer n => .int n
  | .float x => .float x
  | .dateTime c => .moment .instant c.longText
  | .localDate s => .moment .localDate s
  | .localTime s => .moment .localTime s
  | .localDateTime s => .moment .localDateTime s

/-- Apply `f` to the entries of the table at a path, making the tables along it; an array of
tables stands for its last table. -/
def updateTable (f : Entries → Entries) : List String → Entries → Entries
  | [], es => f es
  | k :: more, es =>
    match es.find? (·.1 == k) with
    | some (_, .table inner) => SettingValue.setEntry es k (.table (updateTable f more inner))
    | some (_, .list items) =>
      match items.getLast? with
      | some (.table inner) =>
        SettingValue.setEntry es k (.list (items.dropLast ++ [.table (updateTable f more inner)]))
      | _ => es
    | some _ => es
    | none => es ++ [(k, .table (updateTable f more []))]

/-- Set the value at a dotted key of a table's entries. -/
def setAt (key : List String) (v : SettingValue) (es : Entries) : Entries :=
  updateTable (fun inner => SettingValue.setEntry inner (key.getLastD "") v) key.dropLast es

/-- Append an empty table to the array of tables at a path. -/
def appendTable (key : List String) (es : Entries) : Entries :=
  updateTable (fun inner =>
    let k := key.getLastD ""
    match inner.find? (·.1 == k) with
    | some (_, .list items) => SettingValue.setEntry inner k (.list (items ++ [.table []]))
    | _ => SettingValue.setEntry inner k (.list [.table []])) key.dropLast es

mutual

/-- Decode a value. -/
def decodeItem : Item → Except String SettingValue
  | .string s => .ok (.str s)
  | .bool b => .ok (.bool b)
  | .scalar kind written =>
    match Scalar.decode kind written with
    | .ok s => .ok s.setting
    | .error msg => .error ("toml: " ++ msg)
  | .array items => (decodeItems items).map .list
  | .inlineTable pairs => (decodePairs [] pairs).map .table

/-- Decode the items of an array. -/
def decodeItems : List Item → Except String (List SettingValue)
  | [] => .ok []
  | v :: rest => do
    let x ← decodeItem v
    pure (x :: (← decodeItems rest))

/-- Decode the pairs of an inline table into entries. -/
def decodePairs (es : Entries) : List (List String × Item) → Except String Entries
  | [] => .ok es
  | (k, v) :: rest => do
    let x ← decodeItem v
    decodePairs (setAt k x es) rest

end

/-- What has been built of a document: the keys seen, the entries, and the path of the current
table. -/
structure Building where
  seen : Seen := {}
  entries : Entries := []
  current : List String := []
  deriving Inhabited

/-- Check, decode and apply one expression. -/
def Building.apply (b : Building) (e : Expression) : Except String Building := do
  let seen ← b.seen.check e
  match e with
  | .pair key v =>
    let x ← decodeItem v
    pure { b with seen, entries := updateTable (setAt key x) b.current b.entries }
  | .table key => pure { seen, entries := updateTable id key b.entries, current := key }
  | .arrayTable key => pure { seen, entries := appendTable key b.entries, current := key }

/-- Read a TOML document into a table of settings. -/
def read (doc : Bytes) : Except String SettingValue := do
  let (exprs, stop) := expressions (octetsOf doc)
  let b ← exprs.foldlM Building.apply {}
  match stop with
  | some msg => throw ("toml: " ++ msg)
  | none => pure (.table b.entries)

end Toml

end TraceSynth
