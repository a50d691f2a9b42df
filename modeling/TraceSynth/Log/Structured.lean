import TraceSynth.Log.Pretty
import TraceSynth.Json.Basic
import TraceSynth.Program.Tree

/-!
# Key-value and JSON log lines

Two machine-friendly layouts of an entry. Fields named `time`, `msg`, `level` or
`logrus_error` are renamed `fields.time` and so on, in that order, so that the entry's own keys
stay its own; a renamed field replaces a field that already had the new name.

* The key-value layout writes `time="…" level=… msg=…` and then the fields in byte order of
  their keys, each value in its general text, quoted when it holds anything but letters,
  digits and `-._/@^+`. An entry without a message has no `msg`.
* The JSON layout writes one object with its keys sorted: the fields (errors as their message,
  durations as nanoseconds, times in RFC 3339, programs as their syntax tree), `level`, `msg`
  and `time`. Inside a list, an error or a value shows no part of itself (`{}`). A number that
  is not finite cannot be written, and the failure names the first such value in key order.
-/

namespace TraceSynth

namespace Entry

/-- The keys of an entry's own members, which fields give up, in the order they are moved. -/
def reservedKeys : List String := ["time", "msg", "level", "logrus_error"]

/-- Set a field, replacing the one of the same key if there is one. -/
def setField (k : String) (v : FieldValue) (fs : List (String × FieldValue)) :
    List (String × FieldValue) :=
  if fs.any (·.1 == k) then fs.map fun (k', v') => if k' == k then (k, v) else (k', v')
  else fs ++ [(k, v)]

/-- The fields with those that clash with the entry's own keys moved under `fields.`, one
reserved key after another. -/
def ownFields (e : Entry) : List (String × FieldValue) :=
  reservedKeys.foldl (fun fs k =>
    match fs.find? (·.1 == k) with
    | some (_, v) => setField ("fields." ++ k) v (fs.filter (·.1 != k))
    | none => fs) e.fields

/-- Whether a value needs quotes in the key-value layout. -/
def needsQuotes (s : String) : Bool :=
  s.toList.any fun c => !(c.isAlphanum && c.toNat < 0x80 || c == '-' || c == '.' || c == '_' ||
    c == '/' || c == '@' || c == '^' || c == '+')

/-- A value of the key-value layout. -/
def plainValue (s : String) : String := if needsQuotes s then Quoted.quote (Bytes.ofString s) else s

/-- The key-value line of an entry, with its newline. -/
def textLine (e : Entry) : String :=
  let own := [("time", e.time.rfc3339), ("level", e.level.name)] ++
    (if e.message.isEmpty then [] else [("msg", e.message)])
  let fields :=
    (ConsoleLayout.sortFields e.ownFields).map fun (k, v) => (k, v.general.toStringLossy)
  " ".intercalate ((own ++ fields).map fun (k, v) => k ++ "=" ++ plainValue v) ++ "\n"

/-- A value inside a field as JSON; an error has no public part and shows as `{}`. -/
def fieldJson : FieldValue → Except String Json
  | .float x =>
    if x.isNaN || x.isInf then .error ("json: unsupported value: " ++ Binary64.general x)
    else .ok (.number x)
  | .int n => .ok (.int n)
  | .str s => .ok (.string s.toStringLossy)
  | .bool b => .ok (.bool b)
  | .null => .ok .null
  | .list xs => do
    let items ← xs.attach.mapM fun ⟨x, _⟩ => fieldJson x
    pure (.array items)
  | .duration d => .ok (.int d.nanos)
  | .time t => .ok (.string t.rfc3339Nano)
  | .label n => .ok (.string n)
  | .program p => .ok p.treeJson
  | .value _ => .ok (.object [])
  | .error _ => .ok (.object [])

/-- A field as JSON: an error is written as its message. -/
def memberJson : FieldValue → Except String Json
  | .error m => .ok (.string m)
  | v => fieldJson v

/-- Insert a member into a list sorted by key bytes. -/
def insertMember (m : String × Json) : List (String × Json) → List (String × Json)
  | [] => [m]
  | n :: rest =>
    if Bytes.ofString m.1 < Bytes.ofString n.1 then m :: n :: rest else n :: insertMember m rest

/-- The JSON line of an entry, with its newline, or why it cannot be written. -/
def jsonLine (e : Entry) : Except String String := do
  let sorted := ConsoleLayout.sortFields e.ownFields
  let fields ← sorted.mapM fun (k, v) => do pure (k, ← memberJson v)
  let own : List (String × Json) := [("level", .string e.level.name), ("msg", .string e.message),
    ("time", .string e.time.rfc3339)]
  let members := own.foldl (fun acc m => insertMember m (acc.filter (·.1 != m.1))) fields
  pure (Json.write true (.object members) ++ "\n")

end Entry

end TraceSynth
